import GdutNet.Machine.Trace

/-!
# Erasing inputs from a run

The two-run argument for "these inputs cannot influence that part of the
state". A run carries a mark on every input: `true` keeps it, `false` erases
it. If an erasable input leaves the view of the state alone and every other
step is a function of the view, the erased run shows the same view and the
same observations at every input that is kept (`retained_eq_of_erasure`).
Whether an input is erasable may depend on the state it is delivered in.
-/

namespace GdutNet.Machine

variable {σ ι ο ν ω : Type*}

/-- The inputs of a marked run that survive the erasure. -/
def kept (xs : List (ι × Bool)) : List ι := (xs.filter (·.2)).map (·.1)

variable (step : σ → ι → σ × ο)

/-- The steps of the full run, each with the mark of its input. -/
def markedTrace (s : σ) (xs : List (ι × Bool)) : List (Step σ ι ο × Bool) :=
  (trace step s (xs.map (·.1))).zip (xs.map (·.2))

/-- The steps of the full run at the inputs that are kept. -/
def retained (s : σ) (xs : List (ι × Bool)) : List (Step σ ι ο) :=
  ((markedTrace step s xs).filter (·.2)).map (·.1)

variable {step}

theorem markedTrace_cons (s : σ) (i : ι) (b : Bool) (xs : List (ι × Bool)) :
    markedTrace step s ((i, b) :: xs) =
      (stepAt step s i, b) :: markedTrace step (step s i).1 xs := rfl

theorem kept_cons_true (i : ι) (xs : List (ι × Bool)) :
    kept ((i, true) :: xs) = i :: kept xs := by simp [kept]

theorem kept_cons_false (i : ι) (xs : List (ι × Bool)) :
    kept ((i, false) :: xs) = kept xs := by simp [kept]

theorem retained_cons_true (s : σ) (i : ι) (xs : List (ι × Bool)) :
    retained step s ((i, true) :: xs) =
      stepAt step s i :: retained step (step s i).1 xs := by
  simp [retained, markedTrace_cons]

theorem retained_cons_false (s : σ) (i : ι) (xs : List (ι × Bool)) :
    retained step s ((i, false) :: xs) = retained step (step s i).1 xs := by
  simp [retained, markedTrace_cons]

theorem mem_trace_of_mem_markedTrace {s : σ} {xs : List (ι × Bool)}
    {p : Step σ ι ο × Bool} (h : p ∈ markedTrace step s xs) :
    p.1 ∈ trace step s (xs.map (·.1)) :=
  (List.of_mem_zip h).1

/-- What an observer of the view sees of a step. -/
def observe (view : σ → ν) (obs : ο → ω) (r : Step σ ι ο) : ι × ω × ν :=
  (r.input, obs r.out, view r.post)

section Erasure

variable {view : σ → ν} {obs : ο → ω} {I : σ → Prop} {E : σ → ι → Prop}

/-- **Erasure.** `hview` is step consistency, `herase` local respect; both may
use an invariant `I` of the machine. -/
theorem retained_eq_of_erasure
    (hinv : ∀ s i, I s → I (step s i).1)
    (hview : ∀ s t i, I s → I t → view s = view t →
      view (step s i).1 = view (step t i).1 ∧
        obs (step s i).2 = obs (step t i).2)
    (herase : ∀ s i, I s → E s i → view (step s i).1 = view s)
    (xs : List (ι × Bool)) {s t : σ} (hs : I s) (ht : I t)
    (hst : view s = view t)
    (hxs : ∀ p ∈ markedTrace step s xs, p.2 = false → E p.1.pre p.1.input) :
    (retained step s xs).map (observe view obs) =
      (trace step t (kept xs)).map (observe view obs) := by
  induction xs generalizing s t with
  | nil => rfl
  | cons x xs ih =>
      obtain ⟨i, b⟩ := x
      rw [markedTrace_cons, List.forall_mem_cons] at hxs
      obtain ⟨hhead, htail⟩ := hxs
      cases b with
      | true =>
          obtain ⟨hv, ho⟩ := hview s t i hs ht hst
          rw [retained_cons_true, kept_cons_true, trace_cons, List.map_cons,
            List.map_cons, ih (hinv s i hs) (hinv t i ht) hv htail]
          simp [observe, hv, ho]
      | false =>
          rw [retained_cons_false, kept_cons_false]
          apply ih (hinv s i hs) ht _ htail
          rw [herase s i hs (hhead rfl), hst]

end Erasure

end GdutNet.Machine
