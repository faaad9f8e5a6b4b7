import GdutNet.Stream.Base64
import GdutNet.Stream.Json

/-!
# The stored password

`crypto.rs`: the text `GDUT1:<entropy_hex>:<base64>` that holds the encrypted
password. A string is the list of its UTF-8 bytes here, since `len`, `bytes` and
the slices of `hex_decode` count bytes. The base64 engine is a parameter; DPAPI
and the registry are not modelled.
-/

namespace GdutNet.Crypto

open Base64 (Engine)

def blobPrefix : List UInt8 := Json.utf8 "GDUT1:"

def wrapBlob (base64 : Engine) (entropyHex sealedBytes : List UInt8) : List UInt8 :=
  blobPrefix ++ entropyHex ++ 0x3a :: base64.encode sealedBytes

/-- `str::split_once` at an ASCII character. -/
def splitOnce (sep : UInt8) (s : List UInt8) : Option (List UInt8 × List UInt8) :=
  if sep ∈ s then some (s.takeWhile (· ≠ sep), (s.dropWhile (· ≠ sep)).tail) else none

def isAsciiHexdigit (b : UInt8) : Bool :=
  (0x30 ≤ b && b ≤ 0x39) || (0x61 ≤ b && b ≤ 0x66) || (0x41 ≤ b && b ≤ 0x46)

def toAsciiLowercase (b : UInt8) : UInt8 := if 0x41 ≤ b && b ≤ 0x5a then b + 0x20 else b

def unwrapBlob (base64 : Engine) (s : List UInt8) : Option (List UInt8 × List UInt8) := do
  let rest ← blobPrefix.isPrefixOf? s
  let (entropyHex, sealedB64) ← splitOnce 0x3a rest
  if entropyHex.isEmpty || entropyHex.length % 2 ≠ 0 || !entropyHex.all isAsciiHexdigit then none
  else do
    let sealedBytes ← base64.decode sealedB64
    if sealedBytes.isEmpty then none else some (entropyHex.map toAsciiLowercase, sealedBytes)

/-! ## Hexadecimal -/

def hexDigit (n : ℕ) : UInt8 :=
  if n < 10 then UInt8.ofNat (0x30 + n) else UInt8.ofNat (0x61 + (n - 10))

/-- `{b:02x}`. -/
def hexPair (b : UInt8) : List UInt8 := [hexDigit (b.toNat / 16), hexDigit (b.toNat % 16)]

def hexEncode (bytes : List UInt8) : List UInt8 := bytes.flatMap hexPair

/-- `char::to_digit(16)`. -/
def toDigit (c : UInt8) : Option ℕ :=
  let n := c.toNat
  if 0x30 ≤ n ∧ n ≤ 0x39 then some (n - 0x30)
  else if 0x61 ≤ n ∧ n ≤ 0x66 then some (n - 0x61 + 10)
  else if 0x41 ≤ n ∧ n ≤ 0x46 then some (n - 0x41 + 10)
  else none

/-- The digits of a `u8`, with the overflow check. -/
def radix16 (digits : List UInt8) : Option ℕ :=
  digits.foldlM (fun acc c => do
    let d ← toDigit c
    if acc * 16 + d ≤ 255 then some (acc * 16 + d) else none) 0

/-- `u8::from_str_radix(src, 16)`: a sign is taken, but not alone. -/
def fromStrRadix16 (src : List UInt8) : Option ℕ :=
  match src with
  | [] => none
  | [c] => if c = 0x2b || c = 0x2d then none else radix16 [c]
  | c :: rest => if c = 0x2b then radix16 rest else radix16 (c :: rest)

/-- `is_char_boundary`: not inside a character. -/
def charBoundary (s : List UInt8) (i : ℕ) : Bool :=
  i = 0 || match s[i]? with
    | none => i = s.length
    | some b => !(0x80 ≤ b && b < 0xc0)

inductive HexFault where
  /-- a slice out of range or inside a character: the program panics -/
  | slice
  | parse
deriving DecidableEq, Repr

/-- `&s[a..b]`. -/
def slice (s : List UInt8) (a b : ℕ) : Except HexFault (List UInt8) :=
  if a ≤ b ∧ b ≤ s.length ∧ charBoundary s a ∧ charBoundary s b then .ok ((s.drop a).take (b - a))
  else .error .slice

def decodePair (s : List UInt8) (i : ℕ) : Except HexFault UInt8 := do
  let pair ← slice s (i * 2) (i * 2 + 2)
  match fromStrRadix16 pair with
  | some n => .ok (UInt8.ofNat n)
  | none => .error .parse

def hexDecode (s : List UInt8) : Except HexFault (List UInt8) :=
  (List.range (s.length / 2)).mapM (decodePair s)

/-! ## Digits -/

theorem isAsciiHexdigit_iff {b : UInt8} : isAsciiHexdigit b = true ↔
    (0x30 ≤ b.toNat ∧ b.toNat ≤ 0x39) ∨ (0x61 ≤ b.toNat ∧ b.toNat ≤ 0x66) ∨
      (0x41 ≤ b.toNat ∧ b.toNat ≤ 0x46) := by
  simp [isAsciiHexdigit, UInt8.le_iff_toNat_le, or_assoc]

theorem toDigit_of_hexdigit {c : UInt8} (h : isAsciiHexdigit c = true) :
    ∃ d, d < 16 ∧ toDigit c = some d := by
  rw [isAsciiHexdigit_iff] at h
  unfold toDigit
  dsimp only
  split
  · exact ⟨_, by omega, rfl⟩
  · split
    · exact ⟨_, by omega, rfl⟩
    · rw [if_pos (by omega)]
      exact ⟨_, by omega, rfl⟩

theorem hexDigit_spec {n : ℕ} (h : n < 16) :
    toDigit (hexDigit n) = some n ∧ isAsciiHexdigit (hexDigit n) = true ∧
      toAsciiLowercase (hexDigit n) = hexDigit n ∧ hexDigit n ≠ 0x3a := by
  revert n
  decide

/-- A hexadecimal digit is no sign and no colon, and it begins a character. -/
theorem hexdigit_plain {c : UInt8} (h : isAsciiHexdigit c = true) :
    c ≠ 0x2b ∧ c ≠ 0x3a ∧ c.toNat < 0x80 := by
  rw [isAsciiHexdigit_iff] at h
  refine ⟨?_, ?_, by omega⟩
  · rintro rfl
    simp at h
  · rintro rfl
    simp at h

/-- Two digits make a byte. -/
theorem fromStrRadix16_pair {c c' : UInt8} {d d' : ℕ} (hc : c ≠ 0x2b) (hd : toDigit c = some d)
    (hd' : toDigit c' = some d') (hlt : d < 16) (hlt' : d' < 16) :
    fromStrRadix16 [c, c'] = some (d * 16 + d') := by
  have hbyte : d * 16 + d' ≤ 255 := by omega
  simp [fromStrRadix16, radix16, hc, hd, hd', hbyte, show d ≤ 255 by omega]

/-! ## Slices of digits -/

theorem charBoundary_of_hexdigits {s : List UInt8} (h : s.all isAsciiHexdigit = true) {i : ℕ}
    (hi : i ≤ s.length) : charBoundary s i = true := by
  unfold charBoundary
  cases hget : s[i]? with
  | none =>
      have hle := List.getElem?_eq_none_iff.mp hget
      simp [show i = s.length by omega]
  | some b =>
      obtain ⟨-, -, hascii⟩ := hexdigit_plain (List.all_eq_true.mp h b (List.mem_of_getElem? hget))
      have hlow : ¬ (0x80 : UInt8) ≤ b := by
        rw [UInt8.le_iff_toNat_le]
        exact not_le.mpr hascii
      simp [hlow]

theorem slice_of_hexdigits {s : List UInt8} (h : s.all isAsciiHexdigit = true) {i : ℕ}
    (hi : i < s.length / 2) : slice s (i * 2) (i * 2 + 2) = .ok ((s.drop (i * 2)).take 2) := by
  rw [slice, if_pos ⟨by omega, by omega, charBoundary_of_hexdigits h (by omega),
    charBoundary_of_hexdigits h (by omega)⟩, Nat.add_sub_cancel_left]

theorem mapM_ok {α β ε : Type*} {f : α → Except ε β} {g : α → β} {xs : List α}
    (h : ∀ x ∈ xs, f x = .ok (g x)) : xs.mapM f = .ok (xs.map g) := by
  induction xs with
  | nil => rfl
  | cons x xs ih =>
      rw [List.forall_mem_cons] at h
      rw [List.mapM_cons, h.1, ih h.2]
      rfl

theorem decodePair_of_hexdigits {s rest : List UInt8} (h : s.all isAsciiHexdigit = true) {i : ℕ}
    (hi : i < s.length / 2) {c c' : UInt8} (hdrop : s.drop (i * 2) = c :: c' :: rest) {d d' : ℕ}
    (hd : toDigit c = some d) (hd' : toDigit c' = some d') (hlt : d < 16) (hlt' : d' < 16) :
    decodePair s i = .ok (UInt8.ofNat (d * 16 + d')) := by
  have hmem : c ∈ s := List.mem_of_mem_drop (hdrop ▸ List.mem_cons_self)
  have hc : c ≠ 0x2b := (hexdigit_plain (List.all_eq_true.mp h c hmem)).1
  have hslice := slice_of_hexdigits h hi
  have hpair : List.take 2 (c :: c' :: rest) = [c, c'] := rfl
  rw [hdrop, hpair] at hslice
  simp only [decodePair, hslice, bind, Except.bind, fromStrRadix16_pair hc hd hd' hlt hlt']

theorem decodePair_total {s : List UInt8} (h : s.all isAsciiHexdigit = true) {i : ℕ}
    (hi : i < s.length / 2) : ∃ b, decodePair s i = .ok b := by
  have hdigit : ∀ c ∈ s.drop (i * 2), ∃ d, d < 16 ∧ toDigit c = some d := by
    intro c hc
    exact toDigit_of_hexdigit (List.all_eq_true.mp h c (List.mem_of_mem_drop hc))
  match hdrop : s.drop (i * 2) with
  | [] | [_] =>
      have hlen := congrArg List.length hdrop
      rw [List.length_drop] at hlen
      simp at hlen
      omega
  | c :: c' :: rest =>
      rw [hdrop] at hdigit
      obtain ⟨d, hlt, hd⟩ := hdigit c (by simp)
      obtain ⟨d', hlt', hd'⟩ := hdigit c' (by simp)
      exact ⟨_, decodePair_of_hexdigits h hi hdrop hd hd' hlt hlt'⟩

theorem hexDecode_total {s : List UInt8} (h : s.all isAsciiHexdigit = true) :
    ∃ bytes, hexDecode s = .ok bytes := by
  have hpairs : ∀ i, ∃ b, i < s.length / 2 → decodePair s i = .ok b := by
    intro i
    by_cases hi : i < s.length / 2
    · obtain ⟨b, hb⟩ := decodePair_total h hi
      exact ⟨b, fun _ => hb⟩
    · exact ⟨0, fun hlt => absurd hlt hi⟩
  choose byteAt hbyteAt using hpairs
  exact ⟨_, mapM_ok fun i hi => hbyteAt i (List.mem_range.mp hi)⟩

theorem all_hexdigit_lowercase {s : List UInt8} (h : s.all isAsciiHexdigit = true) :
    (s.map toAsciiLowercase).all isAsciiHexdigit = true := by
  rw [List.all_map, List.all_eq_true]
  intro c hc
  have hdigit := List.all_eq_true.mp h c hc
  show isAsciiHexdigit (toAsciiLowercase c) = true
  rw [toAsciiLowercase]
  split
  · rename_i hupper
    rw [isAsciiHexdigit_iff] at hdigit ⊢
    simp only [Bool.and_eq_true, decide_eq_true_eq, UInt8.le_iff_toNat_le] at hupper
    rw [UInt8.toNat_add]
    have hlo : (0x41 : UInt8).toNat = 0x41 := rfl
    have hhi : (0x5a : UInt8).toNat = 0x5a := rfl
    have hshift : (0x20 : UInt8).toNat = 0x20 := rfl
    omega
  · exact hdigit

/-! ## What `hex_encode` writes -/

theorem length_hexEncode (e : List UInt8) : (hexEncode e).length = e.length * 2 := by
  induction e with
  | nil => rfl
  | cons b e ih =>
      show (hexEncode e).length + 2 = _
      rw [ih, List.length_cons, Nat.succ_mul]

theorem drop_hexEncode (e : List UInt8) (i : ℕ) :
    (hexEncode e).drop (i * 2) = hexEncode (e.drop i) := by
  induction i generalizing e with
  | zero => rfl
  | succ i ih =>
      cases e with
      | nil => rfl
      | cons b e =>
          rw [Nat.succ_mul, List.drop_succ_cons, ← ih]
          rfl

theorem mem_hexEncode {e : List UInt8} {c : UInt8} (h : c ∈ hexEncode e) :
    ∃ n < 16, c = hexDigit n := by
  obtain ⟨b, -, hc⟩ := List.mem_flatMap.mp h
  have hb := b.toNat_lt
  simp only [hexPair, List.mem_cons, List.not_mem_nil, or_false] at hc
  rcases hc with rfl | rfl
  · exact ⟨_, by omega, rfl⟩
  · exact ⟨_, by omega, rfl⟩

theorem all_hexdigit_hexEncode (e : List UInt8) : (hexEncode e).all isAsciiHexdigit = true := by
  rw [List.all_eq_true]
  intro c hc
  obtain ⟨n, hn, rfl⟩ := mem_hexEncode hc
  exact (hexDigit_spec hn).2.1

theorem lowercase_hexEncode (e : List UInt8) :
    (hexEncode e).map toAsciiLowercase = hexEncode e := by
  refine (List.map_congr_left ?_).trans (List.map_id _)
  intro c hc
  obtain ⟨n, hn, rfl⟩ := mem_hexEncode hc
  exact (hexDigit_spec hn).2.2.1

theorem colon_not_mem_hexEncode (e : List UInt8) : 0x3a ∉ hexEncode e := by
  intro hmem
  obtain ⟨n, hn, heq⟩ := mem_hexEncode hmem
  exact (hexDigit_spec hn).2.2.2 heq.symm

theorem hexDecode_hexEncode (e : List UInt8) : hexDecode (hexEncode e) = .ok e := by
  have hpairs : ∀ i ∈ List.range e.length, decodePair (hexEncode e) i = .ok (e.getD i 0) := by
    intro i hi
    have hlt : i < e.length := List.mem_range.mp hi
    have hdrop : (hexEncode e).drop (i * 2) =
        hexDigit (e[i].toNat / 16) :: hexDigit (e[i].toNat % 16) :: hexEncode (e.drop (i + 1)) := by
      rw [drop_hexEncode, List.drop_eq_getElem_cons hlt]
      rfl
    have hb := e[i].toNat_lt
    have hd := (hexDigit_spec (n := e[i].toNat / 16) (by omega)).1
    have hd' := (hexDigit_spec (n := e[i].toNat % 16) (by omega)).1
    rw [decodePair_of_hexdigits (all_hexdigit_hexEncode e) (by rw [length_hexEncode]; omega)
      hdrop hd hd' (by omega) (by omega), Nat.div_add_mod', UInt8.ofNat_toNat]
    simp [hlt]
  rw [hexDecode, length_hexEncode, Nat.mul_div_cancel _ Nat.two_pos, mapM_ok hpairs]
  congr 1
  apply List.ext_getElem
  · simp
  · intro i hi hi'
    simp [hi']

/-! ## The separator -/

theorem splitOnce_append {a : List UInt8} {sep : UInt8} (h : sep ∉ a) (b : List UInt8) :
    splitOnce sep (a ++ sep :: b) = some (a, b) := by
  have hbefore : ∀ c ∈ a, decide (c ≠ sep) = true := by
    intro c hc
    exact decide_eq_true (ne_of_mem_of_not_mem hc h)
  rw [splitOnce, if_pos (by simp), List.takeWhile_append_of_pos hbefore,
    List.dropWhile_append_of_pos hbefore]
  simp

theorem eq_of_splitOnce {s a b : List UInt8} {sep : UInt8} (h : splitOnce sep s = some (a, b)) :
    s = a ++ sep :: b := by
  by_cases hmem : sep ∈ s
  · obtain ⟨before, after, rfl, hfirst⟩ := List.eq_append_cons_of_mem hmem
    rw [splitOnce_append hfirst] at h
    obtain ⟨rfl, rfl⟩ := Prod.mk.inj (Option.some.inj h)
    rfl
  · rw [splitOnce, if_neg hmem] at h
    cases h

/-! ## The stored text -/

theorem unwrapBlob_eq_some {base64 : Engine} {s h p : List UInt8}
    (hs : unwrapBlob base64 s = some (h, p)) :
    ∃ entropy sealedB64, s = blobPrefix ++ entropy ++ 0x3a :: sealedB64 ∧
      entropy.all isAsciiHexdigit = true ∧ h = entropy.map toAsciiLowercase ∧
      base64.decode sealedB64 = some p := by
  simp only [unwrapBlob, Option.bind_eq_bind, Option.bind_eq_some_iff,
    Option.ite_none_left_eq_some] at hs
  obtain ⟨rest, hprefix, ⟨entropy, sealedB64⟩, hsplit, hchecks, bytes, hbytes, -, hpair⟩ := hs
  obtain ⟨rfl, rfl⟩ := Prod.mk.inj (Option.some.inj hpair)
  have hrest := List.isPrefixOf?_eq_some_iff_append_eq.mp hprefix
  have hsep := eq_of_splitOnce hsplit
  refine ⟨entropy, sealedB64, ?_, ?_, rfl, hbytes⟩
  · rw [← hrest, hsep, List.append_assoc]
  · simp only [Bool.or_eq_true, not_or] at hchecks
    simpa using hchecks.2

end GdutNet.Crypto
