import Mathlib.Algebra.Order.Ring.Nat
import Mathlib.Data.List.Basic

/-!
# Base64, canonical and padded

The standard alphabet. Three bytes make four symbols; a last group of one or two
bytes is filled up with `=`, and the bits it leaves over are zero. The decoder
takes exactly what the encoder writes: `decode_encode` and `encode_decode`.
-/

namespace GdutNet.Base64

/-- `=`. -/
def pad : UInt8 := 0x3d

def symbol (n : ℕ) : UInt8 :=
  if n < 26 then UInt8.ofNat (0x41 + n)
  else if n < 52 then UInt8.ofNat (0x61 + (n - 26))
  else if n < 62 then UInt8.ofNat (0x30 + (n - 52))
  else if n = 62 then 0x2b
  else 0x2f

def value (c : UInt8) : Option ℕ :=
  let n := c.toNat
  if 0x41 ≤ n ∧ n ≤ 0x5a then some (n - 0x41)
  else if 0x61 ≤ n ∧ n ≤ 0x7a then some (n - 0x61 + 26)
  else if 0x30 ≤ n ∧ n ≤ 0x39 then some (n - 0x30 + 52)
  else if n = 0x2b then some 62
  else if n = 0x2f then some 63
  else none

def encode : List UInt8 → List UInt8
  | [] => []
  | [a] => [symbol (a.toNat / 4), symbol (a.toNat % 4 * 16), pad, pad]
  | [a, b] =>
      [symbol (a.toNat / 4), symbol (a.toNat % 4 * 16 + b.toNat / 16),
        symbol (b.toNat % 16 * 4), pad]
  | a :: b :: c :: rest =>
      symbol (a.toNat / 4) :: symbol (a.toNat % 4 * 16 + b.toNat / 16) ::
        symbol (b.toNat % 16 * 4 + c.toNat / 64) :: symbol (c.toNat % 64) :: encode rest

/-- Padding only at the very end, and only over zero bits. -/
def decode : List UInt8 → Option (List UInt8)
  | [] => some []
  | w :: x :: y :: z :: rest =>
      if z = pad then
        if rest ≠ [] then none
        else if y = pad then do
          let m ← value w
          let n ← value x
          if n % 16 = 0 then some [UInt8.ofNat (m * 4 + n / 16)] else none
        else do
          let m ← value w
          let n ← value x
          let o ← value y
          if o % 4 = 0 then
            some [UInt8.ofNat (m * 4 + n / 16), UInt8.ofNat (n % 16 * 16 + o / 4)]
          else none
      else do
        let m ← value w
        let n ← value x
        let o ← value y
        let p ← value z
        let bs ← decode rest
        some (UInt8.ofNat (m * 4 + n / 16) :: UInt8.ofNat (n % 16 * 16 + o / 4) ::
          UInt8.ofNat (o % 4 * 64 + p) :: bs)
  | _ => none

/-! ## The alphabet -/

theorem value_symbol {n : ℕ} (h : n < 64) : value (symbol n) = some n := by
  revert n
  decide

theorem symbol_ne_pad {n : ℕ} (h : n < 64) : symbol n ≠ pad := by
  intro heq
  have := value_symbol h
  rw [heq] at this
  cases this

theorem ofNat_eq {n : ℕ} {b : UInt8} (h : n = b.toNat) : UInt8.ofNat n = b := by
  rw [h, UInt8.ofNat_toNat]

theorem symbol_of_value {c : UInt8} {n : ℕ} (h : value c = some n) :
    n < 64 ∧ symbol n = c := by
  unfold value at h
  dsimp only at h
  split at h
  · rename_i hrange
    obtain rfl := Option.some.inj h
    refine ⟨by omega, ?_⟩
    rw [symbol, if_pos (by omega)]
    exact ofNat_eq (by omega)
  · split at h
    · rename_i hrange
      obtain rfl := Option.some.inj h
      refine ⟨by omega, ?_⟩
      rw [symbol, if_neg (by omega), if_pos (by omega)]
      exact ofNat_eq (by omega)
    · split at h
      · rename_i hrange
        obtain rfl := Option.some.inj h
        refine ⟨by omega, ?_⟩
        rw [symbol, if_neg (by omega), if_neg (by omega), if_pos (by omega)]
        exact ofNat_eq (by omega)
      · split at h
        · rename_i hplus
          obtain rfl := Option.some.inj h
          exact ⟨by omega, (ofNat_eq hplus.symm : (0x2b : UInt8) = c)⟩
        · split at h
          · rename_i hslash
            obtain rfl := Option.some.inj h
            exact ⟨by omega, (ofNat_eq hslash.symm : (0x2f : UInt8) = c)⟩
          · cases h

/-! ## Both ways -/

theorem decode_encode (bs : List UInt8) : decode (encode bs) = some bs := by
  induction bs using encode.induct with
  | case1 => rfl
  | case2 a =>
      have ha := a.toNat_lt
      have hm := value_symbol (n := a.toNat / 4) (by omega)
      have hn := value_symbol (n := a.toNat % 4 * 16) (by omega)
      simp only [encode, decode, ↓reduceIte, ne_eq, not_true_eq_false, hm, hn, Option.bind_eq_bind,
        Option.bind_some]
      rw [if_pos (by omega), ofNat_eq (b := a) (by omega)]
  | case3 a b =>
      have ha := a.toNat_lt
      have hb := b.toNat_lt
      have hm := value_symbol (n := a.toNat / 4) (by omega)
      have hn := value_symbol (n := a.toNat % 4 * 16 + b.toNat / 16) (by omega)
      have ho := value_symbol (n := b.toNat % 16 * 4) (by omega)
      have hpad := symbol_ne_pad (n := b.toNat % 16 * 4) (by omega)
      simp only [encode, decode, ↓reduceIte, ne_eq, not_true_eq_false, hm, hn, ho, hpad,
        Option.bind_eq_bind, Option.bind_some]
      rw [if_pos (by omega), ofNat_eq (b := a) (by omega), ofNat_eq (b := b) (by omega)]
  | case4 a b c rest ih =>
      have ha := a.toNat_lt
      have hb := b.toNat_lt
      have hc := c.toNat_lt
      have hm := value_symbol (n := a.toNat / 4) (by omega)
      have hn := value_symbol (n := a.toNat % 4 * 16 + b.toNat / 16) (by omega)
      have ho := value_symbol (n := b.toNat % 16 * 4 + c.toNat / 64) (by omega)
      have hp := value_symbol (n := c.toNat % 64) (by omega)
      have hpad := symbol_ne_pad (n := c.toNat % 64) (by omega)
      simp only [encode, decode, hm, hn, ho, hp, hpad, ↓reduceIte, ih, Option.bind_eq_bind,
        Option.bind_some]
      rw [ofNat_eq (b := a) (by omega), ofNat_eq (b := b) (by omega), ofNat_eq (b := c) (by omega)]

theorem toNat_ofNat_of_lt {n : ℕ} (h : n < 256) : (UInt8.ofNat n).toNat = n := by
  rw [UInt8.toNat_ofNat', Nat.mod_eq_of_lt h]

theorem encode_decode : ∀ {text bs : List UInt8}, decode text = some bs → encode bs = text
  | [], bs, h => by
      cases h
      rfl
  | [_], bs, h => by cases h
  | [_, _], bs, h => by cases h
  | [_, _, _], bs, h => by cases h
  | w :: x :: y :: z :: rest, bs, h => by
      rw [decode] at h
      split at h
      · rename_i hz
        split at h
        · cases h
        · rename_i hrest
          rw [ne_eq, not_not] at hrest
          split at h
          · rename_i hy
            simp only [Option.bind_eq_bind, Option.bind_eq_some_iff, Option.ite_none_right_eq_some]
              at h
            obtain ⟨m, hm, n, hn, hzero, hbs⟩ := h
            obtain rfl := Option.some.inj hbs
            obtain ⟨hm, rfl⟩ := symbol_of_value hm
            obtain ⟨hn, rfl⟩ := symbol_of_value hn
            have hfirst : (m * 4 + n / 16) / 4 = m := by omega
            have hsecond : (m * 4 + n / 16) % 4 * 16 = n := by omega
            rw [encode, toNat_ofNat_of_lt (by omega), hfirst, hsecond, hrest, hy, hz]
          · rename_i hy
            simp only [Option.bind_eq_bind, Option.bind_eq_some_iff, Option.ite_none_right_eq_some]
              at h
            obtain ⟨m, hm, n, hn, o, ho, hzero, hbs⟩ := h
            obtain rfl := Option.some.inj hbs
            obtain ⟨hm, rfl⟩ := symbol_of_value hm
            obtain ⟨hn, rfl⟩ := symbol_of_value hn
            obtain ⟨ho, rfl⟩ := symbol_of_value ho
            have hfirst : (m * 4 + n / 16) / 4 = m := by omega
            have hsecond : (m * 4 + n / 16) % 4 * 16 + (n % 16 * 16 + o / 4) / 16 = n := by omega
            have hthird : (n % 16 * 16 + o / 4) % 16 * 4 = o := by omega
            rw [encode, toNat_ofNat_of_lt (by omega), toNat_ofNat_of_lt (by omega), hfirst, hsecond,
              hthird, hrest, hz]
      · simp only [Option.bind_eq_bind, Option.bind_eq_some_iff] at h
        obtain ⟨m, hm, n, hn, o, ho, p, hp, bs', hbs', hbs⟩ := h
        obtain rfl := Option.some.inj hbs
        obtain ⟨hm, rfl⟩ := symbol_of_value hm
        obtain ⟨hn, rfl⟩ := symbol_of_value hn
        obtain ⟨ho, rfl⟩ := symbol_of_value ho
        obtain ⟨hp, rfl⟩ := symbol_of_value hp
        have hfirst : (m * 4 + n / 16) / 4 = m := by omega
        have hsecond : (m * 4 + n / 16) % 4 * 16 + (n % 16 * 16 + o / 4) / 16 = n := by omega
        have hthird : (n % 16 * 16 + o / 4) % 16 * 4 + (o % 4 * 64 + p) / 64 = o := by omega
        have hlast : (o % 4 * 64 + p) % 64 = p := by omega
        rw [encode, toNat_ofNat_of_lt (by omega), toNat_ofNat_of_lt (by omega),
          toNat_ofNat_of_lt (by omega), hfirst, hsecond, hthird, hlast, encode_decode hbs']

/-- A codec that takes only what it writes. -/
structure Engine where
  encode : List UInt8 → List UInt8
  decode : List UInt8 → Option (List UInt8)
  decode_encode : ∀ bs, decode (encode bs) = some bs
  encode_decode : ∀ text bs, decode text = some bs → encode bs = text

def standard : Engine where
  encode
  decode
  decode_encode
  encode_decode _ _ := Base64.encode_decode

example : encode [0xde, 0xad] = [0x33, 0x71, 0x30, 0x3d] := by decide

end GdutNet.Base64
