import GdutNet.Base

/-!
# Query strings

Reading a query string the way a server does: split at every `&`, each field at
its first `=`, and percent-decode the two halves. `join` writes the fields down.
Reading what was joined gives the fields back as soon as no half holds a
separator it must not hold, whatever the halves decode to.
-/

namespace GdutNet.Query

/-- The parts before and after the first `sep`. -/
def cut (sep : Char) (cs : List Char) : List Char × List Char :=
  (cs.takeWhile (· ≠ sep), (cs.dropWhile (· ≠ sep)).tail)

/-- The value of a hexadecimal digit. -/
def hexValue (c : Char) : Option ℕ :=
  if '0' ≤ c ∧ c ≤ '9' then some (c.toNat - 48)
  else if 'A' ≤ c ∧ c ≤ 'F' then some (c.toNat - 55)
  else if 'a' ≤ c ∧ c ≤ 'f' then some (c.toNat - 87)
  else none

/-- Percent-decoding, as bytes. A `%` that no two digits follow stands for
itself. -/
def percentDecode : List Char → List UInt8
  | [] => []
  | c :: cs =>
      match c, cs with
      | '%', a :: b :: rest =>
          match hexValue a, hexValue b with
          | some hi, some lo => UInt8.ofNat (16 * hi + lo) :: percentDecode rest
          | _, _ => String.utf8EncodeChar '%' ++ percentDecode (a :: b :: rest)
      | c, cs => String.utf8EncodeChar c ++ percentDecode cs

/-- The fields of a query, decoded. -/
def fields (query : List Char) : List (List UInt8 × List UInt8) :=
  (splitChars '&' query).map fun field =>
    (percentDecode (cut '=' field).1, percentDecode (cut '=' field).2)

def join : List (List Char × List Char) → List Char
  | [] => []
  | [p] => p.1 ++ '=' :: p.2
  | p :: ps => p.1 ++ '=' :: (p.2 ++ '&' :: join ps)

/-! ## Splitting -/

theorem cut_append {sep : Char} {xs : List Char} (h : sep ∉ xs) (ys : List Char) :
    cut sep (xs ++ sep :: ys) = (xs, ys) := by
  have hne : ∀ c ∈ xs, decide (c ≠ sep) = true := by
    intro c hc
    exact decide_eq_true (fun heq => h (heq ▸ hc))
  unfold cut
  rw [List.takeWhile_append_of_pos hne, List.dropWhile_append_of_pos hne]
  simp

theorem splitChars_plain {sep : Char} {xs : List Char} (h : sep ∉ xs) :
    splitChars sep xs = [xs] := by
  induction xs with
  | nil => rfl
  | cons c cs ih =>
      rw [List.mem_cons, not_or] at h
      rw [splitChars, if_neg (Ne.symm h.1), ih h.2]

theorem splitChars_append {sep : Char} {xs : List Char} (h : sep ∉ xs) (ys : List Char) :
    splitChars sep (xs ++ sep :: ys) = xs :: splitChars sep ys := by
  induction xs with
  | nil => simp [splitChars]
  | cons c cs ih =>
      rw [List.mem_cons, not_or] at h
      rw [List.cons_append, splitChars, if_neg (Ne.symm h.1), ih h.2]

/-- The halves of a field hold no separator. -/
def Plain (p : List Char × List Char) : Prop := '&' ∉ p.1 ∧ '=' ∉ p.1 ∧ '&' ∉ p.2

theorem Plain.field {p : List Char × List Char} (h : Plain p) : '&' ∉ p.1 ++ '=' :: p.2 := by
  simp only [List.mem_append, List.mem_cons, not_or]
  exact ⟨h.1, by decide, h.2.2⟩

/-- **Reading what was joined.** -/
theorem fields_join {ps : List (List Char × List Char)} (hne : ps ≠ [])
    (hplain : ∀ p ∈ ps, Plain p) :
    fields (join ps) = ps.map (fun p => (percentDecode p.1, percentDecode p.2)) := by
  unfold fields
  induction ps with
  | nil => exact absurd rfl hne
  | cons p ps ih =>
      rw [List.forall_mem_cons] at hplain
      have hcut := cut_append hplain.1.2.1 p.2
      cases ps with
      | nil => rw [join, splitChars_plain hplain.1.field, List.map_singleton, hcut]; rfl
      | cons q qs =>
          have hshape : join (p :: q :: qs) = (p.1 ++ '=' :: p.2) ++ '&' :: join (q :: qs) := by
            simp [join]
          rw [hshape, splitChars_append hplain.1.field, List.map_cons, hcut,
            ih (by simp) hplain.2]
          rfl

theorem mem_join {ps : List (List Char × List Char)} {c : Char} (h : c ∈ join ps) :
    c = '=' ∨ c = '&' ∨ ∃ p ∈ ps, c ∈ p.1 ∨ c ∈ p.2 := by
  induction ps with
  | nil => cases h
  | cons p ps ih =>
      have hrest : c ∈ join ps → c = '=' ∨ c = '&' ∨ ∃ q ∈ p :: ps, c ∈ q.1 ∨ c ∈ q.2 := by
        intro hc
        refine (ih hc).imp_right fun hc => hc.imp_right fun ⟨q, hq, hmem⟩ => ?_
        exact ⟨q, List.mem_cons_of_mem p hq, hmem⟩
      cases ps with
      | nil =>
          rw [join, List.mem_append, List.mem_cons] at h
          rcases h with h | h | h
          · exact .inr (.inr ⟨p, List.mem_cons_self, .inl h⟩)
          · exact .inl h
          · exact .inr (.inr ⟨p, List.mem_cons_self, .inr h⟩)
      | cons q qs =>
          simp only [join, List.mem_append, List.mem_cons] at h
          rcases h with h | h | h | h | h
          · exact .inr (.inr ⟨p, List.mem_cons_self, .inl h⟩)
          · exact .inl h
          · exact .inr (.inr ⟨p, List.mem_cons_self, .inr h⟩)
          · exact .inr (.inl h)
          · exact hrest h

/-! ## Decoding -/

theorem utf8EncodeChar_ascii {c : Char} (h : c.toNat < 0x80) :
    String.utf8EncodeChar c = [UInt8.ofNat c.toNat] := by
  have hle : c.val.toNat ≤ 0x7f := Nat.le_of_lt_succ h
  unfold String.utf8EncodeChar
  dsimp only
  rw [if_pos hle]
  rfl

theorem percentDecode_cons {c : Char} (h : c ≠ '%') (cs : List Char) :
    percentDecode (c :: cs) = String.utf8EncodeChar c ++ percentDecode cs := by
  rw [percentDecode]
  exact fun _ _ _ hc _ => h hc

theorem percentDecode_hex {a b : Char} {hi lo : ℕ} (ha : hexValue a = some hi)
    (hb : hexValue b = some lo) (cs : List Char) :
    percentDecode ('%' :: a :: b :: cs) = UInt8.ofNat (16 * hi + lo) :: percentDecode cs := by
  rw [percentDecode, ha, hb]

/-- A text without `%` stands for itself. -/
theorem percentDecode_plain {cs : List Char} (h : '%' ∉ cs) :
    percentDecode cs = cs.flatMap String.utf8EncodeChar := by
  induction cs with
  | nil => rfl
  | cons c cs ih =>
      rw [List.mem_cons, not_or] at h
      rw [percentDecode_cons (Ne.symm h.1), List.flatMap_cons, ih h.2]

end GdutNet.Query
