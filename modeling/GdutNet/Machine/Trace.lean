import Mathlib.Data.List.Basic
import Mathlib.Data.List.Induction

/-!
# Deterministic machines and their histories

A machine is a step function `σ → ι → σ × ο`. A run is a list of inputs; its
`trace` records every step with the states around it, so a property of the
whole past of a state is a property of a list. Three rules carry the
inductions: `final_induction` (a state invariant), `history_induction` (a
relation between the past and the present state) and `timed_induction` (an
invariant that mentions the clock reading of the last input).
-/

namespace GdutNet.Machine

variable {σ ι ο : Type*}

/-- One step of a run, with the states before and after it. -/
structure Step (σ ι ο : Type*) where
  pre : σ
  input : ι
  out : ο
  post : σ

variable (step : σ → ι → σ × ο)

def stepAt (s : σ) (i : ι) : Step σ ι ο := ⟨s, i, (step s i).2, (step s i).1⟩

def trace : σ → List ι → List (Step σ ι ο)
  | _, [] => []
  | s, i :: is => stepAt step s i :: trace (step s i).1 is

def final (s : σ) (is : List ι) : σ := is.foldl (fun s i => (step s i).1) s

variable {step}

@[simp] theorem stepAt_pre (s : σ) (i : ι) : (stepAt step s i).pre = s := rfl
@[simp] theorem stepAt_input (s : σ) (i : ι) : (stepAt step s i).input = i := rfl
@[simp] theorem stepAt_out (s : σ) (i : ι) :
    (stepAt step s i).out = (step s i).2 := rfl
@[simp] theorem stepAt_post (s : σ) (i : ι) :
    (stepAt step s i).post = (step s i).1 := rfl

@[simp] theorem trace_nil (s : σ) : trace step s [] = [] := rfl

theorem trace_cons (s : σ) (i : ι) (is : List ι) :
    trace step s (i :: is) = stepAt step s i :: trace step (step s i).1 is := rfl

@[simp] theorem final_nil (s : σ) : final step s [] = s := rfl

@[simp] theorem final_cons (s : σ) (i : ι) (is : List ι) :
    final step s (i :: is) = final step (step s i).1 is := rfl

theorem final_append (s : σ) (xs ys : List ι) :
    final step s (xs ++ ys) = final step (final step s xs) ys := by
  simp [final, List.foldl_append]

theorem final_snoc (s : σ) (xs : List ι) (i : ι) :
    final step s (xs ++ [i]) = (step (final step s xs) i).1 := by
  simp [final_append]

theorem trace_append (s : σ) (xs ys : List ι) :
    trace step s (xs ++ ys) =
      trace step s xs ++ trace step (final step s xs) ys := by
  induction xs generalizing s with
  | nil => rfl
  | cons i xs ih => simp [trace_cons, ih]

theorem trace_snoc (s : σ) (xs : List ι) (i : ι) :
    trace step s (xs ++ [i]) =
      trace step s xs ++ [stepAt step (final step s xs) i] := by
  simp [trace_append, trace_cons]

theorem trace_inputs (s : σ) (is : List ι) : (trace step s is).map (·.input) = is := by
  induction is generalizing s with
  | nil => rfl
  | cons i is ih => simp [trace_cons, ih]

/-- A trace seen from two of its steps. -/
theorem trace_cut (s : σ) (xs : List ι) (i : ι) (ys : List ι) (j : ι) (zs : List ι) :
    trace step s (xs ++ i :: (ys ++ j :: zs)) =
      trace step s xs ++ stepAt step (final step s xs) i ::
        (trace step (step (final step s xs) i).1 ys ++
          stepAt step (final step (step (final step s xs) i).1 ys) j ::
            trace step (step (final step (step (final step s xs) i).1 ys) j).1 zs) := by
  simp only [trace_append, trace_cons]

/-- Cutting a trace at a step cuts the inputs at the same place: the part
before the step is a run of its own, which reaches the step's first state. -/
theorem trace_split {s : σ} {is : List ι} {past rest : List (Step σ ι ο)}
    {r : Step σ ι ο} (h : trace step s is = past ++ r :: rest) :
    ∃ xs i ys, is = xs ++ i :: ys ∧ past = trace step s xs ∧
      r = stepAt step (final step s xs) i ∧
      rest = trace step (step (final step s xs) i).1 ys := by
  induction past generalizing s is with
  | nil =>
      cases is with
      | nil => simp at h
      | cons i is =>
          rw [trace_cons, List.nil_append, List.cons.injEq] at h
          obtain ⟨rfl, rfl⟩ := h
          exact ⟨[], i, is, rfl, rfl, rfl, rfl⟩
  | cons q past ih =>
      cases is with
      | nil => simp at h
      | cons i is =>
          rw [trace_cons, List.cons_append, List.cons.injEq] at h
          obtain ⟨rfl, h⟩ := h
          obtain ⟨xs, j, ys, rfl, hpast, hr, hrest⟩ := ih h
          exact ⟨i :: xs, j, ys, rfl, by rw [trace_cons, hpast], hr, hrest⟩

theorem exists_split_of_mem {s : σ} {is : List ι} {r : Step σ ι ο}
    (h : r ∈ trace step s is) :
    ∃ xs i ys, is = xs ++ i :: ys ∧ r = stepAt step (final step s xs) i := by
  obtain ⟨past, rest, hsplit⟩ := List.append_of_mem h
  obtain ⟨xs, i, ys, his, _, hr, _⟩ := trace_split hsplit
  exact ⟨xs, i, ys, his, hr⟩

/-! ## Induction rules -/

/-- A state property that every step keeps holds in every state reached. -/
theorem final_induction {I : σ → Prop} (hstep : ∀ s i, I s → I (step s i).1)
    {s : σ} (h0 : I s) (is : List ι) : I (final step s is) := by
  induction is generalizing s with
  | nil => exact h0
  | cons i is ih => exact ih (hstep s i h0)

/-- The history rule: `I past s` relates the whole past to the state it ends
in. `A` restricts the steps a run may take; `fun _ => True` allows all. -/
theorem history_induction {A : Step σ ι ο → Prop}
    {I : List (Step σ ι ο) → σ → Prop} {s : σ} (h0 : I [] s)
    (hstep : ∀ past t i, I past t → A (stepAt step t i) →
      I (past ++ [stepAt step t i]) (step t i).1)
    (is : List ι) (hok : ∀ r ∈ trace step s is, A r) :
    I (trace step s is) (final step s is) := by
  induction is using List.reverseRecOn with
  | nil => exact h0
  | append_singleton is i ih =>
      rw [trace_snoc] at hok ⊢
      rw [final_snoc]
      apply hstep
      · exact ih (fun r hr => hok r (List.mem_append_left _ hr))
      · exact hok _ (by simp)

/-! ## Since

"`during` since `start`": some step of the past satisfies `start` and all steps
after it satisfy `during`. This is how an episode is named. -/

section Since

variable {start start' during during' : Step σ ι ο → Prop} {past : List (Step σ ι ο)}
  {r : Step σ ι ο}

def Since (start during : Step σ ι ο → Prop) (past : List (Step σ ι ο)) : Prop :=
  ∃ older q mid, past = older ++ q :: mid ∧ start q ∧ ∀ p ∈ mid, during p

theorem Since.of_last (h : start r) : Since start during (past ++ [r]) :=
  ⟨past, r, [], rfl, h, by simp⟩

theorem Since.snoc (h : Since start during past) (hr : during r) :
    Since start during (past ++ [r]) := by
  obtain ⟨older, q, mid, rfl, hq, hmid⟩ := h
  refine ⟨older, q, mid ++ [r], by simp, hq, ?_⟩
  intro p hp
  rcases List.mem_append.mp hp with hp | hp
  · exact hmid p hp
  · rwa [List.mem_singleton.mp hp]

theorem Since.imp (h : Since start during past) (hstart : ∀ q, start q → start' q)
    (hduring : ∀ p, during p → during' p) : Since start' during' past := by
  obtain ⟨older, q, mid, hpast, hq, hmid⟩ := h
  exact ⟨older, q, mid, hpast, hstart q hq, fun p hp => hduring p (hmid p hp)⟩

/-- What ever happened happened last at some step. -/
theorem Since.of_mem (h : r ∈ past) (hr : start r) : Since start (fun p => ¬ start p) past := by
  induction past using List.reverseRecOn with
  | nil => cases h
  | append_singleton past q ih =>
      by_cases hq : start q
      · exact .of_last hq
      · rcases List.mem_append.mp h with h | h
        · exact (ih h).snoc hq
        · rw [List.mem_singleton.mp h] at hr
          exact absurd hr hq

end Since

/-- Two steps of one past: they are the same, or one comes after the other. -/
theorem split_cases {α : Type*} {xs ys xs' ys' : List α} {a b : α}
    (h : xs ++ a :: ys = xs' ++ b :: ys') : a = b ∨ b ∈ ys ∨ a ∈ ys' := by
  rcases List.append_eq_append_iff.mp h with ⟨zs, -, hright⟩ | ⟨zs, -, hright⟩
  · cases zs with
    | nil => exact .inl (List.cons.inj hright).1
    | cons z zs =>
        rw [List.cons_append, List.cons.injEq] at hright
        exact .inr (.inl (by simp [hright.2]))
  · cases zs with
    | nil => exact .inl (List.cons.inj hright).1.symm
    | cons z zs =>
        rw [List.cons_append, List.cons.injEq] at hright
        exact .inr (.inr (by simp [hright.2]))

/-! ## Spacing -/

/-- Between two marked entries there is a good one. -/
def Spaced {α : Type*} (Mark Good : α → Prop) (es : List α) : Prop :=
  ∀ pre a mid b post, es = pre ++ a :: (mid ++ b :: post) → Mark a → Mark b → ∃ e ∈ mid, Good e

section Spaced

variable {α : Type*} {Mark Good : α → Prop} {xs ys : List α}

theorem spaced_of_no_mark (h : ∀ e ∈ xs, ¬ Mark e) : Spaced Mark Good xs := by
  rintro pre a mid b post rfl ha -
  exact absurd ha (h a (by simp))

theorem Spaced.unmarked_append (hys : Spaced Mark Good ys) (hxs : ∀ e ∈ xs, ¬ Mark e) :
    Spaced Mark Good (xs ++ ys) := by
  intro pre a mid b post h ha hb
  rcases List.append_eq_append_iff.mp h with ⟨m, -, hys'⟩ | ⟨m, rfl, hrest⟩
  · exact hys m a mid b post hys' ha hb
  · cases m with
    | nil => exact hys [] a mid b post hrest.symm ha hb
    | cons x m =>
        rw [List.cons_append, List.cons.injEq] at hrest
        exact absurd ha (hxs a (by simp [hrest.1]))

/-- A block that begins with its only mark, before entries that are spaced. -/
theorem Spaced.block_append {x : α} (hys : Spaced Mark Good ys) (hxs : ∀ e ∈ xs, ¬ Mark e)
    (hgood : (∃ e ∈ xs, Good e) ∨ ∀ e ∈ ys, ¬ Mark e) : Spaced Mark Good (x :: (xs ++ ys)) := by
  intro pre a mid b post h ha hb
  cases pre with
  | cons y pre =>
      rw [List.cons_append, List.cons.injEq] at h
      exact hys.unmarked_append hxs pre a mid b post h.2 ha hb
  | nil =>
      rw [List.nil_append, List.cons.injEq] at h
      have hb' : b ∈ ys ∧ ∃ m, mid = xs ++ m := by
        rcases List.append_eq_append_iff.mp h.2 with ⟨m, rfl, hys'⟩ | ⟨m, rfl, hrest⟩
        · exact ⟨by simp [hys'], m, rfl⟩
        · cases m with
          | nil =>
              refine ⟨?_, [], by simp⟩
              rw [List.nil_append] at hrest
              simp [← hrest]
          | cons z m =>
              rw [List.cons_append, List.cons.injEq] at hrest
              exact absurd hb (hxs b (by simp [hrest.1]))
      obtain ⟨hmem, m, rfl⟩ := hb'
      rcases hgood with ⟨e, he, hgood⟩ | hno
      · exact ⟨e, List.mem_append_left _ he, hgood⟩
      · exact absurd hb (hno b hmem)

end Spaced

/-! ## Clocks -/

/-- The clock readings of a run never go back. -/
def NonDecreasing (clock : ι → ℕ) (is : List ι) : Prop :=
  is.Pairwise (fun i j => clock i ≤ clock j)

theorem NonDecreasing.of_append_right {clock : ι → ℕ} {xs ys : List ι}
    (h : NonDecreasing clock (xs ++ ys)) : NonDecreasing clock ys :=
  (List.pairwise_append.mp h).2.1

/-- An invariant that reads the clock: true at the last reading, and still
true if time passes without a step. `A` restricts the steps, as above. -/
theorem timed_induction (clock : ι → ℕ) {A : Step σ ι ο → Prop} {I : ℕ → σ → Prop}
    (hmono : ∀ {t t' s}, t ≤ t' → I t s → I t' s)
    (hstep : ∀ {t s i}, t ≤ clock i → I t s → A (stepAt step s i) →
      I (clock i) (step s i).1)
    {s : σ} {t : ℕ} (h0 : I t s) {is : List ι}
    (hclock : NonDecreasing clock is) (hok : ∀ r ∈ trace step s is, A r)
    (hfrom : ∀ i ∈ is, t ≤ clock i)
    {t' : ℕ} (hto : ∀ i ∈ is, clock i ≤ t') (ht : t ≤ t') :
    I t' (final step s is) := by
  induction is generalizing s t with
  | nil => exact hmono ht h0
  | cons i is ih =>
      obtain ⟨hi, his⟩ := List.pairwise_cons.mp hclock
      rw [trace_cons, List.forall_mem_cons] at hok
      exact ih (hstep (hfrom i List.mem_cons_self) h0 hok.1) his hok.2 hi
        (fun j hj => hto j (List.mem_cons_of_mem _ hj))
        (hto i List.mem_cons_self)

end GdutNet.Machine
