import Mathlib.Data.List.Basic
import Mathlib.Data.List.Induction

/-!
# Streams cut at a terminator

A stream is a list over any type and `p` marks its terminators. `pieces` and
`rest` read a stream element by element: the pieces that a terminator ended,
and what follows the last one. Both carry what an earlier part of the stream
left open, so that they compose over `++` (`pieces_append`, `rest_append`):
how a stream was cut into chunks cannot show in them.

`splitInclusive` is the chunk-wise view; on each of its parts the two readings
are one step (`pieces_of_closed`, `pieces_of_open`).
-/

namespace GdutNet.Pieces

variable {α : Type*} (p : α → Bool)

def pieces : List α → List α → List (List α)
  | _, [] => []
  | acc, x :: xs =>
      if p x then (acc ++ [x]) :: pieces [] xs else pieces (acc ++ [x]) xs

def rest : List α → List α → List α
  | acc, [] => acc
  | acc, x :: xs => if p x then rest [] xs else rest (acc ++ [x]) xs

/-- Cut after every terminator. A last part without one is kept if it is not
empty. -/
def splitInclusive : List α → List (List α)
  | [] => []
  | x :: xs =>
      if p x then [x] :: splitInclusive xs
      else match splitInclusive xs with
        | [] => [[x]]
        | q :: qs => (x :: q) :: qs

variable {p}

/-! ## Composition -/

theorem pieces_append (acc xs ys : List α) :
    pieces p acc (xs ++ ys) = pieces p acc xs ++ pieces p (rest p acc xs) ys := by
  induction xs generalizing acc with
  | nil => rfl
  | cons x xs ih =>
      by_cases hx : p x = true
      · simp [pieces, rest, hx, ih]
      · simp [pieces, rest, hx, ih]

theorem rest_append (acc xs ys : List α) :
    rest p acc (xs ++ ys) = rest p (rest p acc xs) ys := by
  induction xs generalizing acc with
  | nil => rfl
  | cons x xs ih =>
      by_cases hx : p x = true
      · simp [rest, hx, ih]
      · simp [rest, hx, ih]

theorem rest_of_open {q : List α} (hq : ∀ x ∈ q, p x = false) (acc : List α) :
    rest p acc q = acc ++ q := by
  induction q generalizing acc with
  | nil => simp [rest]
  | cons x q ih =>
      obtain ⟨hx, hq⟩ := List.forall_mem_cons.mp hq
      simp [rest, hx, ih hq]

theorem pieces_of_open {q : List α} (hq : ∀ x ∈ q, p x = false) (acc : List α) :
    pieces p acc q = [] := by
  induction q generalizing acc with
  | nil => rfl
  | cons x q ih =>
      obtain ⟨hx, hq⟩ := List.forall_mem_cons.mp hq
      simp [pieces, hx, ih hq]

theorem pieces_of_closed {q : List α} {x : α} (hq : ∀ y ∈ q, p y = false)
    (hx : p x = true) (acc : List α) : pieces p acc (q ++ [x]) = [acc ++ q ++ [x]] := by
  rw [pieces_append, pieces_of_open hq, rest_of_open hq]
  simp [pieces, hx]

theorem rest_of_closed {q : List α} {x : α} (hx : p x = true) (acc : List α) :
    rest p acc (q ++ [x]) = [] := by
  rw [rest_append]
  simp [rest, hx]

/-- A list of terminated records reads back as itself and leaves nothing
open. -/
theorem pieces_flatten_closed {qs : List (List α)}
    (hqs : ∀ q ∈ qs, ∃ r x, q = r ++ [x] ∧ (∀ y ∈ r, p y = false) ∧ p x = true) :
    pieces p [] qs.flatten = qs ∧ rest p [] qs.flatten = [] := by
  induction qs with
  | nil => exact ⟨rfl, rfl⟩
  | cons q qs ih =>
      obtain ⟨hq, hqs'⟩ := List.forall_mem_cons.mp hqs
      obtain ⟨r, x, rfl, hr, hx⟩ := hq
      obtain ⟨hpieces, hrest⟩ := ih hqs'
      rw [List.flatten_cons]
      constructor
      · rw [pieces_append, pieces_of_closed hr hx, rest_of_closed hx, hpieces]
        rfl
      · rw [rest_append, rest_of_closed hx, hrest]

/-! ## The parts of a chunk -/

/-- A part: not empty, and no terminator before its last element. -/
def IsPart (p : α → Bool) (q : List α) : Prop :=
  ∃ r x, q = r ++ [x] ∧ ∀ y ∈ r, p y = false

theorem isPart_singleton (x : α) : IsPart p [x] := ⟨[], x, rfl, by simp⟩

theorem IsPart.cons {q : List α} (hq : IsPart p q) {x : α} (hx : p x = false) :
    IsPart p (x :: q) := by
  obtain ⟨r, y, rfl, hr⟩ := hq
  exact ⟨x :: r, y, rfl, List.forall_mem_cons.mpr ⟨hx, hr⟩⟩

/-- What reading a part does: it ends the open piece, or prolongs it. -/
theorem IsPart.read {q : List α} (hq : IsPart p q) (acc : List α) :
    ∃ x, q.getLast? = some x ∧
      ((p x = true ∧ pieces p acc q = [acc ++ q] ∧ rest p acc q = []) ∨
       (p x = false ∧ pieces p acc q = [] ∧ rest p acc q = acc ++ q)) := by
  obtain ⟨r, x, rfl, hr⟩ := hq
  refine ⟨x, by simp, ?_⟩
  by_cases hx : p x = true
  · left
    refine ⟨hx, ?_, rest_of_closed hx acc⟩
    rw [pieces_of_closed hr hx, List.append_assoc]
  · right
    have hx' : p x = false := by simpa using hx
    have hopen : ∀ y ∈ r ++ [x], p y = false := by
      intro y hy
      rcases List.mem_append.mp hy with hy | hy
      · exact hr y hy
      · rwa [List.mem_singleton.mp hy]
    exact ⟨hx', pieces_of_open hopen acc, rest_of_open hopen acc⟩

theorem splitInclusive_isPart (xs : List α) :
    ∀ q ∈ splitInclusive p xs, IsPart p q := by
  induction xs with
  | nil => intro q hq; cases hq
  | cons x xs ih =>
      intro q hq
      rw [splitInclusive] at hq
      split at hq
      · rcases List.mem_cons.mp hq with rfl | hq
        · exact isPart_singleton x
        · exact ih q hq
      · rename_i hx
        split at hq
        · rw [List.mem_singleton.mp hq]
          exact isPart_singleton x
        · rename_i q' qs heq
          rw [heq] at ih
          rcases List.mem_cons.mp hq with rfl | hq
          · exact (ih q' List.mem_cons_self).cons (by simpa using hx)
          · exact ih q (List.mem_cons_of_mem _ hq)

theorem splitInclusive_flatten (xs : List α) : (splitInclusive p xs).flatten = xs := by
  induction xs with
  | nil => rfl
  | cons x xs ih =>
      rw [splitInclusive]
      split
      · simp [ih]
      · split
        · rename_i heq
          rw [heq] at ih
          simp [← ih]
        · rename_i q qs heq
          rw [heq] at ih
          simp [← ih]

/-! ## Streams with a piece beyond a bound -/

/-- The piece that the last element of a stream belongs to. -/
def current (p : α → Bool) (xs : List α) : List α :=
  rest p [] xs.dropLast ++ xs.getLast?.toList

/-- At some point of the stream the current piece was longer than `max`. -/
def Exceeds (p : α → Bool) (max : ℕ) (xs : List α) : Prop :=
  ∃ ys, ys <+: xs ∧ max < (current p ys).length

/-- The same, read off the pieces, for a stream that continues `acc`. -/
def Over (p : α → Bool) (max : ℕ) (acc xs : List α) : Prop :=
  (∃ q ∈ pieces p acc xs, max < q.length) ∨ max < (rest p acc xs).length

theorem current_snoc (xs : List α) (x : α) :
    current p (xs ++ [x]) = rest p [] xs ++ [x] := by
  simp [current]

theorem exceeds_snoc {max : ℕ} {xs : List α} {x : α} :
    Exceeds p max (xs ++ [x]) ↔
      Exceeds p max xs ∨ max < (rest p [] xs ++ [x]).length := by
  constructor
  · rintro ⟨ys, hys, hlong⟩
    rcases List.prefix_concat_iff.mp hys with rfl | hys
    · rw [current_snoc] at hlong
      exact Or.inr hlong
    · exact Or.inl ⟨ys, hys, hlong⟩
  · rintro (⟨ys, hys, hlong⟩ | hlong)
    · exact ⟨ys, hys.trans (List.prefix_append _ _), hlong⟩
    · refine ⟨xs ++ [x], List.prefix_refl _, ?_⟩
      rw [current_snoc]
      exact hlong

theorem Exceeds.append {max : ℕ} {xs : List α} (h : Exceeds p max xs) (ys : List α) :
    Exceeds p max (xs ++ ys) := by
  obtain ⟨zs, hzs, hlong⟩ := h
  exact ⟨zs, hzs.trans (List.prefix_append _ _), hlong⟩

theorem over_of_long_acc {max : ℕ} {acc : List α} (h : max < acc.length) (xs : List α) :
    Over p max acc xs := by
  induction xs generalizing acc with
  | nil => exact Or.inr h
  | cons x xs ih =>
      have hgrow : max < (acc ++ [x]).length := by
        rw [List.length_append]
        omega
      by_cases hx : p x = true
      · left
        refine ⟨acc ++ [x], ?_, hgrow⟩
        simp [pieces, hx]
      · simpa [Over, pieces, rest, hx] using ih hgrow

theorem IsPart.over_iff {max : ℕ} {q : List α} (hq : IsPart p q) (acc : List α) :
    Over p max acc q ↔ max < acc.length + q.length := by
  obtain ⟨x, -, h⟩ := hq.read acc
  rcases h with ⟨-, hpieces, hrest⟩ | ⟨-, hpieces, hrest⟩
  · simp [Over, hpieces, hrest]
  · simp [Over, hpieces, hrest]

theorem over_append {max : ℕ} {acc xs ys : List α} :
    Over p max acc (xs ++ ys) ↔
      (∃ q ∈ pieces p acc xs, max < q.length) ∨ Over p max (rest p acc xs) ys := by
  unfold Over
  rw [pieces_append, rest_append]
  simp only [List.mem_append, or_and_right, exists_or, or_assoc]

theorem over_append_of_over {max : ℕ} {acc xs : List α} (h : Over p max acc xs)
    (ys : List α) : Over p max acc (xs ++ ys) := by
  rw [over_append]
  rcases h with h | h
  · exact Or.inl h
  · exact Or.inr (over_of_long_acc h ys)

theorem not_over_append {max : ℕ} {acc xs : List α} (h : ¬ Over p max acc xs)
    (ys : List α) : Over p max acc (xs ++ ys) ↔ Over p max (rest p acc xs) ys := by
  rw [over_append]
  constructor
  · rintro (hq | h')
    · exact absurd (Or.inl hq) h
    · exact h'
  · exact Or.inr

theorem exceeds_iff_over {max : ℕ} {xs : List α} :
    Exceeds p max xs ↔ Over p max [] xs := by
  induction xs using List.reverseRecOn with
  | nil => simp [Exceeds, Over, current, pieces, rest]
  | append_singleton xs x ih =>
      rw [exceeds_snoc, ih]
      by_cases h : Over p max [] xs
      · exact iff_of_true (Or.inl h) (over_append_of_over h [x])
      · rw [not_over_append h, or_iff_right h]
        by_cases hx : p x = true
        · simp [Over, pieces, rest, hx]
        · simp [Over, pieces, rest, hx]

end GdutNet.Pieces
