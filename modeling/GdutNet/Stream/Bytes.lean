import Mathlib.Algebra.Order.Ring.Nat
import Mathlib.Data.List.Basic

/-!
# Little-endian numbers, slices and prefix codes

What a binary container is made of: numbers of fixed width, ranges of a byte
list, and a list of records laid end to end. Records whose encodings are
prefix-free and not empty are read back in one way only, whatever their number.
-/

namespace GdutNet.Bytes

/-! ## Numbers -/

def leBytes : ℕ → ℕ → List UInt8
  | 0, _ => []
  | k + 1, n => UInt8.ofNat (n % 256) :: leBytes k (n / 256)

def leValue : List UInt8 → ℕ
  | [] => 0
  | b :: bs => b.toNat + 256 * leValue bs

@[simp] theorem length_leBytes (k n : ℕ) : (leBytes k n).length = k := by
  induction k generalizing n with
  | zero => rfl
  | succ k ih => simp [leBytes, ih]

theorem leValue_leBytes_mod (k n : ℕ) : leValue (leBytes k n) = n % 256 ^ k := by
  induction k generalizing n with
  | zero => rw [pow_zero, Nat.mod_one, leBytes, leValue]
  | succ k ih =>
      have hmod := Nat.mod_mul (x := n) (a := 256) (b := 256 ^ k)
      rw [leBytes, leValue, ih, UInt8.toNat_ofNat', pow_succ 256 k, Nat.mul_comm (256 ^ k), hmod]
      omega

theorem leValue_leBytes {k n : ℕ} (h : n < 256 ^ k) : leValue (leBytes k n) = n := by
  rw [leValue_leBytes_mod, Nat.mod_eq_of_lt h]

theorem leValue_lt (bs : List UInt8) : leValue bs < 256 ^ bs.length := by
  induction bs with
  | nil => simp [leValue]
  | cons b bs ih =>
      have := b.toNat_lt
      rw [leValue, List.length_cons, pow_succ]
      omega

theorem leBytes_leValue (bs : List UInt8) : leBytes bs.length (leValue bs) = bs := by
  induction bs with
  | nil => rfl
  | cons b bs ih =>
      have := b.toNat_lt
      rw [List.length_cons, leBytes, leValue]
      have hmod : (b.toNat + 256 * leValue bs) % 256 = b.toNat := by omega
      have hdiv : (b.toNat + 256 * leValue bs) / 256 = leValue bs := by omega
      rw [hmod, hdiv, ih, UInt8.ofNat_toNat]

theorem leBytes_inj {k m n : ℕ} (hm : m < 256 ^ k) (hn : n < 256 ^ k)
    (h : leBytes k m = leBytes k n) : m = n := by
  rw [← leValue_leBytes hm, h, leValue_leBytes hn]

theorem leBytes_congr {k m n : ℕ} (h : m % 256 ^ k = n % 256 ^ k) : leBytes k m = leBytes k n := by
  rw [← leValue_leBytes_mod, ← leValue_leBytes_mod] at h
  have hm := leBytes_leValue (leBytes k m)
  have hn := leBytes_leValue (leBytes k n)
  rw [length_leBytes] at hm hn
  rw [← hm, h, hn]

/-! ## Slices -/

section Slices

variable {α : Type*}

/-- `xs[from..to]`. -/
def slice (xs : List α) (a b : ℕ) : List α := (xs.take b).drop a

theorem slice_eq (xs : List α) (a b : ℕ) : slice xs a b = (xs.drop a).take (b - a) :=
  List.drop_take

theorem length_slice {xs : List α} {a b : ℕ} (h : b ≤ xs.length) :
    (slice xs a b).length = b - a := by
  simp [slice, h]

/-- Fields are read off where they stand. -/
theorem slice_append (pre mid post : List α) :
    slice (pre ++ (mid ++ post)) pre.length (pre.length + mid.length) = mid := by
  rw [slice_eq, List.drop_left, Nat.add_sub_cancel_left, List.take_left]

theorem drop_eq_slice_append {a b : ℕ} (h : a ≤ b) (xs : List α) :
    xs.drop a = slice xs a b ++ xs.drop b := by
  conv_lhs => rw [← List.take_append_drop (b - a) (xs.drop a), List.drop_drop]
  rw [slice_eq, Nat.add_sub_cancel' h]

/-- The field a reader stands before, and what it stands before afterwards. -/
theorem slice_of_drop {xs mid post : List α} {a : ℕ} (h : xs.drop a = mid ++ post) :
    slice xs a (a + mid.length) = mid ∧ xs.drop (a + mid.length) = post := by
  refine ⟨?_, ?_⟩
  · rw [slice_eq, h, Nat.add_sub_cancel_left, List.take_left]
  · rw [← List.drop_drop, h, List.drop_left]

theorem slice_drop (xs : List α) (n a b : ℕ) :
    slice (xs.drop n) a b = slice xs (n + a) (n + b) := by
  rw [slice_eq, slice_eq, List.drop_drop]
  congr 1
  omega

/-- A slice of the front does not see what follows. -/
theorem slice_of_le {xs ys : List α} {a b : ℕ} (h : b ≤ xs.length) :
    slice (xs ++ ys) a b = slice xs a b := by
  rw [slice, slice, List.take_append_of_le_length h]

/-- A changed position outside a slice. -/
theorem slice_set_of_not_mem {xs : List α} {a b q : ℕ} {x : α} (h : q < a ∨ b ≤ q) :
    slice (xs.set q x) a b = slice xs a b := by
  rw [slice, slice, List.take_set, List.drop_set]
  rcases h with h | h
  · rw [if_pos h]
  · split
    · rfl
    · rw [List.set_eq_of_length_le]
      rw [List.length_drop, List.length_take]
      omega

theorem set_ne_self {xs : List α} {q : ℕ} {x : α} (h : q < xs.length) (hx : xs[q] ≠ x) :
    xs.set q x ≠ xs := by
  intro heq
  have := congrArg (·[q]?) heq
  simp [h] at this
  exact hx this.symm

end Slices

/-! ## Records laid end to end -/

section Codes

variable {α β : Type*}

/-- No encoding continues another, and none is empty. -/
structure PrefixCode (f : α → List β) : Prop where
  inj : ∀ {a b xs ys}, f a ++ xs = f b ++ ys → a = b
  ne_nil : ∀ a, f a ≠ []

variable {f : α → List β}

theorem PrefixCode.split (hf : PrefixCode f) {as bs : List α} {ys : List β}
    (h : bs.flatMap f = as.flatMap f ++ ys) : ∃ cs, bs = as ++ cs ∧ cs.flatMap f = ys := by
  induction as generalizing bs with
  | nil => exact ⟨bs, rfl, h⟩
  | cons a as ih =>
      cases bs with
      | nil =>
          have := congrArg List.length h
          have hne := List.length_pos_iff.mpr (hf.ne_nil a)
          simp only [List.flatMap_nil, List.flatMap_cons, List.length_nil, List.length_append]
            at this
          omega
      | cons b bs =>
          rw [List.flatMap_cons, List.flatMap_cons, List.append_assoc] at h
          obtain rfl := hf.inj h
          obtain ⟨cs, rfl, hcs⟩ := ih (List.append_cancel_left h)
          exact ⟨cs, rfl, hcs⟩

theorem PrefixCode.flatMap_inj (hf : PrefixCode f) {as bs : List α}
    (h : as.flatMap f = bs.flatMap f) : as = bs := by
  have hsplit : bs.flatMap f = as.flatMap f ++ [] := by rw [← h, List.append_nil]
  obtain ⟨cs, rfl, hcs⟩ := hf.split hsplit
  cases cs with
  | nil => simp
  | cons c cs => simp [hf.ne_nil] at hcs

/-- Of two runs of records from the front, the shorter is a part of the longer. -/
theorem PrefixCode.prefix_of_length_le (hf : PrefixCode f) {as bs as' bs' : List α}
    (h : as ++ as' = bs ++ bs') (hlen : (as.flatMap f).length ≤ (bs.flatMap f).length) :
    ∃ mid, bs = as ++ mid ∧ as' = mid ++ bs' := by
  rcases List.append_eq_append_iff.mp h with ⟨mid, hbs, has'⟩ | ⟨mid, has, hbs'⟩
  · exact ⟨mid, hbs, has'⟩
  · have hnil : mid = [] := by
      cases mid with
      | nil => rfl
      | cons a mid =>
          have hne := List.length_pos_iff.mpr (hf.ne_nil a)
          rw [has, List.flatMap_append, List.flatMap_cons, List.length_append, List.length_append]
            at hlen
          omega
    subst hnil
    exact ⟨[], by simpa using has.symm, by simpa using hbs'.symm⟩

end Codes

/-- Where a changed position falls among the records. -/
theorem set_flatMap {α β : Type*} {f : α → List β} {as : List α} {q : ℕ} {x : β}
    (h : q < (as.flatMap f).length) :
    ∃ pre a post q', as = pre ++ a :: post ∧ q = (pre.flatMap f).length + q' ∧
      q' < (f a).length ∧
      (as.flatMap f).set q x = pre.flatMap f ++ ((f a).set q' x ++ post.flatMap f) := by
  induction as generalizing q with
  | nil => simp at h
  | cons a as ih =>
      rw [List.flatMap_cons] at h ⊢
      by_cases hq : q < (f a).length
      · exact ⟨[], a, as, q, rfl, by simp, hq, by simp [hq]⟩
      · rw [List.length_append] at h
        obtain ⟨pre, a', post, q', rfl, hqq, hlt, hset⟩ :=
          ih (q := q - (f a).length) (by omega)
        refine ⟨a :: pre, a', post, q', rfl, ?_, hlt, ?_⟩
        · rw [List.flatMap_cons, List.length_append]
          omega
        · rw [List.set_append, if_neg hq, hset]
          simp

end GdutNet.Bytes
