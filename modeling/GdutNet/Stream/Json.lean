import Mathlib.Algebra.Order.Ring.Nat
import Mathlib.Data.List.Basic

/-!
# JSON texts, as bytes

A compact JSON writer over values that are already bytes: strings, numbers,
arrays and objects with fixed keys. Standard JSON leaves a writer some choice
in how it writes a character of a string, so the choice is a parameter, an
`Escape`: a character takes at least its own UTF-8 bytes and at most one
six-byte escape for each of them, and never a raw control byte. Lengths are
bounded through these laws alone.
-/

namespace GdutNet.Json

def utf8 (s : String) : List UInt8 := s.toList.flatMap String.utf8EncodeChar

/-- No control byte, so no line break either. -/
def Printable (bs : List UInt8) : Prop := ∀ b ∈ bs, 0x20 ≤ b

instance (bs : List UInt8) : Decidable (Printable bs) :=
  List.decidableBAll (fun b => 0x20 ≤ b) bs

structure Escape where
  ofChar : Char → List UInt8
  size_le : ∀ c, c.utf8Size ≤ (ofChar c).length
  length_le : ∀ c, (ofChar c).length ≤ 6 * c.utf8Size
  printable : ∀ c, Printable (ofChar c)

def quote (e : Escape) (s : String) : List UInt8 :=
  0x22 :: (s.toList.flatMap e.ofChar ++ [0x22])

def number (n : ℕ) : List UInt8 := utf8 (toString n)

def orNull {α : Type*} (f : α → List UInt8) : Option α → List UInt8
  | some a => f a
  | none => utf8 "null"

def commaSep : List (List UInt8) → List UInt8
  | [] => []
  | [v] => v
  | v :: vs => v ++ 0x2c :: commaSep vs

def array (vs : List (List UInt8)) : List UInt8 := 0x5b :: (commaSep vs ++ [0x5d])

/-- A name that needs no escape, in quotes. -/
def name (s : String) : List UInt8 := 0x22 :: (utf8 s ++ [0x22])

def object (fields : List (String × List UInt8)) : List UInt8 :=
  0x7b :: (commaSep (fields.map (fun f => name f.1 ++ 0x3a :: f.2)) ++ [0x7d])

/-! ## Lengths -/

@[simp] theorem utf8_append (s t : String) : utf8 (s ++ t) = utf8 s ++ utf8 t := by
  simp [utf8]

theorem length_flatMap_le {α β : Type*} {f g : α → List β} {k : ℕ}
    (h : ∀ a, (f a).length ≤ k * (g a).length) (as : List α) :
    (as.flatMap f).length ≤ k * (as.flatMap g).length := by
  induction as with
  | nil => simp
  | cons a as ih =>
      rw [List.flatMap_cons, List.flatMap_cons, List.length_append, List.length_append,
        Nat.mul_add]
      exact Nat.add_le_add (h a) ih

theorem length_quote_le (e : Escape) (s : String) :
    (quote e s).length ≤ 6 * (utf8 s).length + 2 := by
  have h : (s.toList.flatMap e.ofChar).length ≤ 6 * (utf8 s).length := by
    apply length_flatMap_le
    intro c
    rw [String.length_utf8EncodeChar]
    exact e.length_le c
  simp only [quote, List.length_cons, List.length_append, List.length_nil]
  omega

theorem le_length_quote (e : Escape) (s : String) :
    (utf8 s).length + 2 ≤ (quote e s).length := by
  have h : (utf8 s).length ≤ 1 * (s.toList.flatMap e.ofChar).length := by
    apply length_flatMap_le
    intro c
    rw [String.length_utf8EncodeChar, Nat.one_mul]
    exact e.size_le c
  simp only [quote, List.length_cons, List.length_append, List.length_nil]
  omega

theorem utf8Size_of_isDigit {c : Char} (h : c.isDigit = true) : c.utf8Size = 1 := by
  rw [Char.utf8Size_eq_one_iff]
  simp only [Char.isDigit, ge_iff_le, Bool.and_eq_true, decide_eq_true_eq] at h
  exact UInt32.le_trans h.2 (by decide)

theorem toList_toString (n : ℕ) : (toString n).toList = Nat.toDigits 10 n := by
  show (Nat.repr n).toList = _
  simp [Nat.repr]

theorem isDigit_of_mem_toString {n : ℕ} {c : Char} (h : c ∈ (toString n).toList) :
    c.isDigit = true := by
  rw [toList_toString] at h
  exact Nat.isDigit_of_mem_toDigits (by decide) (by decide) h

theorem length_number_le {n k : ℕ} (hk : 0 < k) (h : n < 10 ^ k) :
    (number n).length ≤ k := by
  have hdigits : ∀ cs : List Char, (∀ c ∈ cs, c.isDigit = true) →
      (cs.flatMap String.utf8EncodeChar).length = cs.length := by
    intro cs hcs
    induction cs with
    | nil => rfl
    | cons c cs ih =>
        obtain ⟨hc, hcs⟩ := List.forall_mem_cons.mp hcs
        simp [utf8Size_of_isDigit hc, ih hcs]
        omega
  rw [number, utf8, hdigits _ fun c hc => isDigit_of_mem_toString hc, toList_toString]
  exact (Nat.length_toDigits_le_iff (by decide) hk).mpr h

theorem length_commaSep_le (vs : List (List UInt8)) :
    (commaSep vs).length ≤ (vs.map List.length).sum + vs.length := by
  fun_induction commaSep vs with
  | case1 => simp
  | case2 v => simp
  | case3 v vs _ ih =>
      simp only [List.length_append, List.length_cons, List.map_cons, List.sum_cons]
      omega

theorem sum_le_length_commaSep (vs : List (List UInt8)) :
    (vs.map List.length).sum ≤ (commaSep vs).length := by
  fun_induction commaSep vs with
  | case1 => simp
  | case2 v => simp
  | case3 v vs _ ih =>
      simp only [List.length_append, List.length_cons, List.map_cons, List.sum_cons]
      omega

theorem sum_le_length_array (vs : List (List UInt8)) :
    (vs.map List.length).sum ≤ (array vs).length := by
  have h := sum_le_length_commaSep vs
  simp only [array, List.length_cons, List.length_append, List.length_nil]
  omega

theorem sum_le_length_object (fields : List (String × List UInt8)) :
    (fields.map (fun f => f.2.length)).sum ≤ (object fields).length := by
  have h := sum_le_length_commaSep (fields.map (fun f => name f.1 ++ 0x3a :: f.2))
  have hvalues : (fields.map (fun f => f.2.length)).sum ≤
      ((fields.map (fun f => name f.1 ++ 0x3a :: f.2)).map List.length).sum := by
    clear h
    induction fields with
    | nil => exact le_refl _
    | cons f fields ih =>
        simp only [List.map_cons, List.sum_cons, List.length_append, List.length_cons]
        omega
  simp only [object, List.length_cons, List.length_append, List.length_nil]
  omega

theorem length_array_le (vs : List (List UInt8)) :
    (array vs).length ≤ (vs.map List.length).sum + vs.length + 2 := by
  have h := length_commaSep_le vs
  simp only [array, List.length_cons, List.length_append, List.length_nil]
  omega

/-- What an object costs beside its values: each name, and four bytes with it. -/
def namesLen (names : List String) : ℕ :=
  (names.map (fun k => (utf8 k).length + 4)).sum

theorem length_object_le (fields : List (String × List UInt8)) :
    (object fields).length ≤
      namesLen (fields.map (·.1)) + (fields.map (fun f => f.2.length)).sum + 2 := by
  rw [namesLen, List.map_map, Function.comp_def]
  have hsep := length_commaSep_le (fields.map (fun f => name f.1 ++ 0x3a :: f.2))
  have hsum : ((fields.map (fun f => name f.1 ++ 0x3a :: f.2)).map List.length).sum +
      fields.length = (fields.map (fun f => (utf8 f.1).length + 4)).sum +
        (fields.map (fun f => f.2.length)).sum := by
    induction fields with
    | nil => rfl
    | cons f fields ih =>
        have ih' := ih (length_commaSep_le _)
        simp only [List.map_cons, List.sum_cons, List.length_cons, List.length_append, name,
          List.length_nil] at ih' ⊢
        omega
  rw [List.length_map] at hsep
  simp only [object, List.length_cons, List.length_append, List.length_nil]
  omega

theorem length_orNull_le {α : Type*} {f : α → List UInt8} {a : Option α} {n : ℕ}
    (hn : 4 ≤ n) (h : ∀ x ∈ a, (f x).length ≤ n) : (orNull f a).length ≤ n := by
  cases a with
  | none => exact hn
  | some x => exact h x rfl

/-! ## Printable texts -/

theorem Printable.append {as bs : List UInt8} (ha : Printable as) (hb : Printable bs) :
    Printable (as ++ bs) := by
  intro b hmem
  rcases List.mem_append.mp hmem with h | h
  · exact ha b h
  · exact hb b h

theorem Printable.cons {b : UInt8} {bs : List UInt8} (hb : 0x20 ≤ b)
    (hbs : Printable bs) : Printable (b :: bs) := by
  intro b' hmem
  rcases List.mem_cons.mp hmem with rfl | h
  · exact hb
  · exact hbs b' h

theorem Printable.flatMap {α : Type*} {f : α → List UInt8} {as : List α}
    (h : ∀ a ∈ as, Printable (f a)) : Printable (as.flatMap f) := by
  intro b hmem
  obtain ⟨a, ha, hb⟩ := List.mem_flatMap.mp hmem
  exact h a ha b hb

theorem byte_printable {n : ℕ} (hlo : 0x20 ≤ n) (hhi : n < 256) :
    0x20 ≤ UInt8.ofNat n := by
  rw [UInt8.le_iff_toNat_le, UInt8.toNat_ofNat_of_lt' hhi]
  exact hlo

/-- The UTF-8 bytes of a character are control bytes only if it is a control
character. -/
theorem utf8EncodeChar_printable {c : Char} (h : 0x20 ≤ c.toNat) :
    Printable (String.utf8EncodeChar c) := by
  have h' : 0x20 ≤ c.val.toNat := h
  intro b hmem
  unfold String.utf8EncodeChar at hmem
  simp only at hmem
  split at hmem
  · rw [List.mem_singleton.mp hmem]
    exact byte_printable h' (by omega)
  · split at hmem
    · simp only [List.mem_cons, List.not_mem_nil, or_false] at hmem
      rcases hmem with rfl | rfl <;> exact byte_printable (by omega) (by omega)
    · split at hmem
      · simp only [List.mem_cons, List.not_mem_nil, or_false] at hmem
        rcases hmem with rfl | rfl | rfl <;> exact byte_printable (by omega) (by omega)
      · simp only [List.mem_cons, List.not_mem_nil, or_false] at hmem
        rcases hmem with rfl | rfl | rfl | rfl <;> exact byte_printable (by omega) (by omega)

theorem utf8_printable {s : String} (h : ∀ c ∈ s.toList, 0x20 ≤ c.toNat) :
    Printable (utf8 s) :=
  Printable.flatMap (fun c hc => utf8EncodeChar_printable (h c hc))

theorem quote_printable (e : Escape) (s : String) : Printable (quote e s) := by
  apply Printable.cons (by decide)
  apply Printable.append
  · exact Printable.flatMap (fun c _ => e.printable c)
  · exact Printable.cons (by decide) (by decide)

theorem number_printable (n : ℕ) : Printable (number n) := by
  apply utf8_printable
  intro c hc
  have hdigit := isDigit_of_mem_toString hc
  simp only [Char.isDigit, ge_iff_le, Bool.and_eq_true, decide_eq_true_eq] at hdigit
  have hlo : '0'.val.toNat ≤ c.val.toNat := UInt32.le_iff_toNat_le.mp hdigit.1
  have hzero : 0x20 ≤ '0'.val.toNat := by decide
  exact le_trans hzero hlo

theorem commaSep_printable {vs : List (List UInt8)} (h : ∀ v ∈ vs, Printable v) :
    Printable (commaSep vs) := by
  fun_induction commaSep vs with
  | case1 => simp [Printable]
  | case2 v => exact h v List.mem_cons_self
  | case3 v vs _ ih =>
      obtain ⟨hv, hvs⟩ := List.forall_mem_cons.mp h
      exact hv.append (Printable.cons (by decide) (ih hvs))

theorem array_printable {vs : List (List UInt8)} (h : ∀ v ∈ vs, Printable v) :
    Printable (array vs) := by
  apply Printable.cons (by decide)
  exact (commaSep_printable h).append (Printable.cons (by decide) (by decide))

theorem object_printable {fields : List (String × List UInt8)}
    (h : ∀ f ∈ fields, Printable (utf8 f.1) ∧ Printable f.2) :
    Printable (object fields) := by
  apply Printable.cons (by decide)
  apply Printable.append _ (Printable.cons (by decide) (by decide))
  apply commaSep_printable
  intro v hv
  obtain ⟨f, hf, rfl⟩ := List.mem_map.mp hv
  obtain ⟨hname, hvalue⟩ := h f hf
  have hquoted : Printable (name f.1) :=
    Printable.cons (by decide)
      (hname.append (Printable.cons (by decide) (by decide)))
  exact hquoted.append (Printable.cons (by decide) hvalue)

/-! ## The smallest escape

Only what must be escaped is: quotes, backslashes and control characters, the
common ones by their short form. -/

def hexDigit (n : ℕ) : UInt8 :=
  if n < 10 then UInt8.ofNat (0x30 + n) else UInt8.ofNat (0x57 + n)

def escapeControl (n : ℕ) : List UInt8 :=
  match n with
  | 0x08 => utf8 "\\b"
  | 0x09 => utf8 "\\t"
  | 0x0a => utf8 "\\n"
  | 0x0c => utf8 "\\f"
  | 0x0d => utf8 "\\r"
  | n => utf8 "\\u00" ++ [hexDigit (n / 16), hexDigit (n % 16)]

def escapeChar (c : Char) : List UInt8 :=
  if c.toNat < 0x20 then escapeControl c.toNat
  else if c = '"' then utf8 "\\\""
  else if c = '\\' then utf8 "\\\\"
  else String.utf8EncodeChar c

theorem escapeControl_spec : ∀ n < 0x20, 1 ≤ (escapeControl n).length ∧
    (escapeControl n).length ≤ 6 ∧ Printable (escapeControl n) := by
  decide

theorem utf8Size_of_control {c : Char} (h : c.toNat < 0x20) : c.utf8Size = 1 := by
  rw [Char.utf8Size_eq_one_iff, UInt32.le_iff_toNat_le]
  have h' : c.val.toNat < 0x20 := h
  exact le_trans (Nat.le_of_lt h') (by decide)

def Escape.minimal : Escape where
  ofChar := escapeChar
  size_le c := by
    unfold escapeChar
    split
    · rename_i h
      rw [utf8Size_of_control h]
      exact (escapeControl_spec _ h).1
    · split
      · rename_i h
        subst h
        decide
      · split
        · rename_i h
          subst h
          decide
        · exact le_of_eq (String.length_utf8EncodeChar c).symm
  length_le c := by
    unfold escapeChar
    split
    · rename_i h
      rw [utf8Size_of_control h]
      exact (escapeControl_spec _ h).2.1
    · split
      · rename_i h
        subst h
        decide
      · split
        · rename_i h
          subst h
          decide
        · rw [String.length_utf8EncodeChar]
          omega
  printable c := by
    unfold escapeChar
    split
    · rename_i h
      exact (escapeControl_spec _ h).2.2
    · split
      · decide
      · split
        · decide
        · rename_i h _ _
          exact utf8EncodeChar_printable (Nat.le_of_not_lt h)

example : quote Escape.minimal "a\"\n" = utf8 "\"a\\\"\\n\"" := by decide
example : object [("t", number 10), ("u", array [])] = utf8 "\x7b\"t\":10,\"u\":[]\x7d" := by
  decide

end GdutNet.Json
