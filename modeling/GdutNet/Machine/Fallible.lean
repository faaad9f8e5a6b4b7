import Mathlib.Data.List.Basic
import Mathlib.Order.Notation

/-!
# Operations that fail and go on

An operation changes a state and may fail; having failed it still leaves a
state. `run` stops at the first failure, `each` goes on and collects them. What
an operation leaves alone (`Keeps`) and what it brings about when it succeeds
(`Gives`) are stated of one view of the state at a time.
-/

namespace GdutNet.Fallible

universe u v w

variable {σ : Type u} {α : Type v} {β : Type w} {ε : Type*}

/-- `none` is success. -/
abbrev Op (σ : Type u) (ε : Type*) := σ → σ × Option ε

def skip : Op σ ε := fun s => (s, none)

def run : List (Op σ ε) → Op σ ε
  | [], s => (s, none)
  | p :: ps, s =>
      match p s with
      | (s, none) => run ps s
      | (s, some e) => (s, some e)

def each : List (Op σ ε) → σ → σ × List ε
  | [], s => (s, [])
  | p :: ps, s => ((each ps (p s).1).1, (p s).2.toList ++ (each ps (p s).1).2)

/-- All of them are tried, and their failures reported together. -/
def tryAll (join : List ε → ε) (ps : List (Op σ ε)) : Op σ ε :=
  fun s =>
    match each ps s with
    | (s, []) => (s, none)
    | (s, es) => (s, some (join es))

/-- How a call to the outside ends: without an error the value meant is there,
with one whatever it left. -/
structure Ends (α : Type v) (ε : Type*) where
  error : Option ε
  left : α

/-- A call that writes one place. -/
def write (put : α → σ → σ) (value : α) (a : Ends α ε) : Op σ ε :=
  fun s =>
    match a.error with
    | none => (put value s, none)
    | some e => (put a.left s, some e)

/-- The failure under another name. -/
def context {δ : Type*} (text : ε → δ) (p : Op σ ε) : Op σ δ :=
  fun s => ((p s).1, (p s).2.map text)

/-- An operation on a part of the state. -/
def on (get : σ → α) (put : α → σ → σ) (p : Op α ε) : Op σ ε :=
  fun s => (put (p (get s)).1 s, (p (get s)).2)

def Keeps (f : σ → α) (p : Op σ ε) : Prop := ∀ s, f (p s).1 = f s

def Gives (f : σ → α) (a : α) (p : Op σ ε) : Prop := ∀ s, (p s).2 = none → f (p s).1 = a

section Rules

variable {f : σ → α} {a : α} {p : Op σ ε} {ps qs : List (Op σ ε)} {s : σ}

theorem keeps_skip : Keeps f (skip : Op σ ε) := fun _ => rfl

theorem keeps_run (h : ∀ p ∈ ps, Keeps f p) : Keeps f (run ps) := by
  intro s
  induction ps generalizing s with
  | nil => rfl
  | cons p ps ih =>
      have hfirst := h p List.mem_cons_self s
      rw [run]
      rcases hp : p s with ⟨t, _ | e⟩
      · rw [hp] at hfirst
        exact (ih (fun q hq => h q (List.mem_cons_of_mem _ hq)) t).trans hfirst
      · rwa [hp] at hfirst

theorem run_cons_of_none (h : (p s).2 = none) : run (p :: ps) s = run ps (p s).1 := by
  rw [run]
  rcases hp : p s with ⟨t, _ | e⟩
  · rfl
  · rw [hp] at h
    cases h

theorem run_cons_of_some {e : ε} (h : (p s).2 = some e) : run (p :: ps) s = p s := by
  rw [run]
  rcases hp : p s with ⟨t, _ | e⟩
  · rw [hp] at h
    cases h
  · rfl

theorem run_singleton : run [p] s = p s := by
  cases h : (p s).2 with
  | none => rw [run_cons_of_none h, run, ← h]
  | some e => exact run_cons_of_some h

theorem run_cons_none (h : (run (p :: ps) s).2 = none) :
    (p s).2 = none ∧ run (p :: ps) s = run ps (p s).1 := by
  rw [run] at h ⊢
  rcases hp : p s with ⟨t, _ | e⟩
  · exact ⟨rfl, rfl⟩
  · simp [hp] at h

theorem run_stays (h : ∀ p ∈ ps, Gives f a p ∨ Keeps f p) (hs : f s = a)
    (hok : (run ps s).2 = none) : f (run ps s).1 = a := by
  induction ps generalizing s with
  | nil => exact hs
  | cons p ps ih =>
      obtain ⟨hp, heq⟩ := run_cons_none hok
      rw [heq] at hok ⊢
      refine ih (fun q hq => h q (List.mem_cons_of_mem _ hq)) ?_ hok
      rcases h p List.mem_cons_self with hgives | hkeeps
      · exact hgives s hp
      · rw [hkeeps s, hs]

/-- If nothing fails, one operation that brings the view about is enough,
whatever its place. -/
theorem gives_run (h : ∀ p ∈ ps, Gives f a p ∨ Keeps f p) (hp : ∃ p ∈ ps, Gives f a p) :
    Gives f a (run ps) := by
  intro s hok
  induction ps generalizing s with
  | nil => simp at hp
  | cons q ps ih =>
      obtain ⟨hq, heq⟩ := run_cons_none hok
      have htail := fun p hp => h p (List.mem_cons_of_mem q hp)
      obtain ⟨p, hmem, hgives⟩ := hp
      rw [heq] at hok ⊢
      rcases List.mem_cons.mp hmem with rfl | hmem
      · exact run_stays htail (hgives s hq) hok
      · exact ih htail ⟨p, hmem, hgives⟩ _ hok

theorem each_keeps (h : ∀ p ∈ ps, Keeps f p) : f (each ps s).1 = f s := by
  induction ps generalizing s with
  | nil => rfl
  | cons p ps ih =>
      rw [each, ih fun q hq => h q (List.mem_cons_of_mem _ hq)]
      exact h p List.mem_cons_self s

/-- Without a failure it is the same as stopping at the first one. -/
theorem each_run (h : (each ps s).2 = []) : run ps s = ((each ps s).1, none) := by
  induction ps generalizing s with
  | nil => rfl
  | cons p ps ih =>
      rw [each, List.append_eq_nil_iff, Option.toList_eq_nil_iff] at h
      rw [run, each, ← ih h.2]
      rcases hp : p s with ⟨t, _ | e⟩
      · rfl
      · rw [hp] at h
        cases h.1

theorem tryAll_fst {join : List ε → ε} : (tryAll join ps s).1 = (each ps s).1 := by
  unfold tryAll
  split
  · rename_i heach
    rw [heach]
  · rename_i heach
    rw [heach]

theorem tryAll_snd {join : List ε → ε} :
    (tryAll join ps s).2 = if (each ps s).2 = [] then none else some (join (each ps s).2) := by
  unfold tryAll
  rcases each ps s with ⟨t, _ | ⟨e, es⟩⟩ <;> rfl

theorem tryAll_none_iff {join : List ε → ε} :
    (tryAll join ps s).2 = none ↔ (each ps s).2 = [] := by
  unfold tryAll
  rcases each ps s with ⟨t, _ | ⟨e, es⟩⟩ <;> simp

theorem keeps_tryAll {join : List ε → ε} (h : ∀ p ∈ ps, Keeps f p) :
    Keeps f (tryAll join ps) := by
  intro s
  rw [tryAll_fst]
  exact each_keeps h

theorem tryAll_none {join : List ε → ε} (h : (tryAll join ps s).2 = none) :
    run ps s = ((tryAll join ps s).1, none) := by
  rw [tryAll_fst, each_run (tryAll_none_iff.mp h)]

theorem gives_tryAll {join : List ε → ε} (h : ∀ p ∈ ps, Gives f a p ∨ Keeps f p)
    (hp : ∃ p ∈ ps, Gives f a p) : Gives f a (tryAll join ps) := by
  intro s hok
  have hrun := tryAll_none hok
  have := gives_run h hp s (by rw [hrun])
  rwa [hrun] at this

theorem keeps_write {put : β → σ → σ} {value : β} {e : Ends β ε} (h : ∀ x s, f (put x s) = f s) :
    Keeps f (write put value e) := by
  intro s
  unfold write
  split
  · exact h _ s
  · exact h _ s

theorem gives_write {put : β → σ → σ} {value : β} {e : Ends β ε} (h : ∀ s, f (put value s) = a) :
    Gives f a (write put value e) := by
  intro s hok
  unfold write at hok ⊢
  split at hok
  · exact h s
  · cases hok

theorem keeps_context {δ : Type*} {text : ε → δ} (h : Keeps f p) : Keeps f (context text p) := h

theorem gives_context {δ : Type*} {text : ε → δ} (h : Gives f a p) : Gives f a (context text p) :=
  fun s hok => h s (Option.map_eq_none_iff.mp hok)

theorem gives_on {g : β → α} {get : σ → β} {put : β → σ → σ} {q : Op β ε} (h : Gives g a q)
    (hget : ∀ b s, get (put b s) = b) : Gives (fun s => g (get s)) a (on get put q) := by
  intro s hok
  have := h (get s) hok
  rwa [← hget (q (get s)).1 s] at this

theorem keeps_on_part {g : β → α} {get : σ → β} {put : β → σ → σ} {q : Op β ε} (h : Keeps g q)
    (hget : ∀ b s, get (put b s) = b) : Keeps (fun s => g (get s)) (on get put q) := by
  intro s
  have := h (get s)
  rwa [← hget (q (get s)).1 s] at this

theorem keeps_on {g : σ → β} {get : σ → α} {put : α → σ → σ} {p : Op α ε}
    (h : ∀ a s, g (put a s) = g s) : Keeps g (on get put p) := fun s => h _ s

end Rules

/-! ## Operations that do not meet -/

/-- An operation that sees and changes the view `f i` and no other. -/
structure Local {ι : Type*} (f : ι → σ → α) (i : ι) (p : Op σ ε) : Prop where
  keeps : ∀ j, j ≠ i → Keeps (f j) p
  sees : ∀ s t, f i s = f i t → f i (p s).1 = f i (p t).1 ∧ (p s).2 = (p t).2

section Local

variable {ι : Type*} {f : ι → σ → α}

theorem local_context {δ : Type*} {text : ε → δ} {i : ι} {p : Op σ ε} (h : Local f i p) :
    Local f i (context text p) where
  keeps := h.keeps
  sees s t hst := ⟨(h.sees s t hst).1, congrArg (Option.map text) (h.sees s t hst).2⟩

/-- Tried one after the other, they do what each would have done alone. -/
theorem each_local {ps : List (ι × Op σ ε)} (hlocal : ∀ p ∈ ps, Local f p.1 p.2)
    (hnodup : (ps.map Prod.fst).Nodup) (s : σ) :
    (∀ p ∈ ps, f p.1 (each (ps.map Prod.snd) s).1 = f p.1 (p.2 s).1) ∧
      (each (ps.map Prod.snd) s).2 = ps.flatMap fun p => (p.2 s).2.toList := by
  induction ps generalizing s with
  | nil => exact ⟨by simp, rfl⟩
  | cons p ps ih =>
      rw [List.map_cons, List.nodup_cons] at hnodup
      have hne : ∀ q ∈ ps, q.1 ≠ p.1 := fun q hq h => hnodup.1 (h ▸ List.mem_map_of_mem hq)
      have hrest := fun q hq => hlocal q (List.mem_cons_of_mem p hq)
      have hfirst := hlocal p List.mem_cons_self
      have hsees : ∀ q ∈ ps, f q.1 (q.2 (p.2 s).1).1 = f q.1 (q.2 s).1 ∧
          (q.2 (p.2 s).1).2 = (q.2 s).2 :=
        fun q hq => (hrest q hq).sees _ _ (hfirst.keeps q.1 (hne q hq) s)
      obtain ⟨hstates, herrors⟩ := ih hrest hnodup.2 (p.2 s).1
      rw [List.map_cons, each]
      refine ⟨?_, ?_⟩
      · intro q hq
        rcases List.mem_cons.mp hq with rfl | hq
        · refine each_keeps fun r hr => ?_
          obtain ⟨r, hmem, rfl⟩ := List.mem_map.mp hr
          exact (hrest r hmem).keeps q.1 (hne r hmem).symm
        · exact (hstates q hq).trans (hsees q hq).1
      · rw [List.flatMap_cons, herrors]
        exact congrArg _ (List.flatMap_congr fun q hq =>
          congrArg Option.toList (hsees q hq).2)

end Local

theorem bind_ok {γ : Type v} {x : Except ε α} {f : α → Except ε γ} {c : γ}
    (h : x >>= f = .ok c) : ∃ a, x = .ok a ∧ f a = .ok c := by
  cases x with
  | error e => cases h
  | ok a => exact ⟨a, rfl, h⟩

/-! ## Both ends of an operation -/

/-- From a state in `I` the operation ends in `J`, or fails and ends in `E`. -/
def Ensures (I : σ → Prop) (p : Op σ ε) (J E : σ → Prop) : Prop :=
  ∀ s, I s → match p s with
    | (s', none) => J s'
    | (s', some _) => E s'

section Ensures

variable {I J K E : σ → Prop} {p : Op σ ε} {ps : List (Op σ ε)}

theorem ensures_nil (h : ∀ s, I s → J s) : Ensures I (run ([] : List (Op σ ε))) J E := h

theorem ensures_cons (hp : Ensures I p J E) (hps : Ensures J (run ps) K E) :
    Ensures I (run (p :: ps)) K E := by
  intro s hs
  have hfirst := hp s hs
  rw [run]
  rcases hp' : p s with ⟨t, _ | e⟩
  · rw [hp'] at hfirst
    exact hps t hfirst
  · rwa [hp'] at hfirst

theorem ensures_same (h : ∀ s, I s → J (p s).1) : Ensures I p J J := by
  intro s hs
  have hend := h s hs
  rcases hp : p s with ⟨t, _ | e⟩
  · rwa [hp] at hend
  · rwa [hp] at hend

theorem ensures_weaken (h : Ensures I p J E) (hE : ∀ s, E s → K s) : Ensures I p J K := by
  intro s hs
  have hend := h s hs
  rcases hp : p s with ⟨t, _ | e⟩
  · rwa [hp] at hend
  · rw [hp] at hend
    exact hE t hend

theorem ensures_succeeds (h : ∀ s, I s → (p s).2 = none → J (p s).1) :
    Ensures I p J (fun _ => True) := by
  intro s hs
  have hend := h s hs
  rcases hp : p s with ⟨t, _ | e⟩
  · rw [hp] at hend
    exact hend rfl
  · trivial

theorem ensures_keeps {f : σ → α} (h : Keeps f p) (P : α → Prop) :
    Ensures (fun s => P (f s)) p (fun s => P (f s)) (fun _ => True) := by
  refine ensures_succeeds fun s hs _ => ?_
  rwa [h s]

theorem Ensures.succeeds (h : Ensures I p J E) {s : σ} (hs : I s) (hok : (p s).2 = none) :
    J (p s).1 := by
  have hend := h s hs
  rcases hp : p s with ⟨t, _ | e⟩
  · rwa [hp] at hend
  · rw [hp] at hok
    cases hok

theorem Ensures.ends (h : Ensures I p E E) {s : σ} (hs : I s) : E (p s).1 := by
  have hend := h s hs
  rcases hp : p s with ⟨t, _ | e⟩
  · rwa [hp] at hend
  · rwa [hp] at hend

end Ensures

end GdutNet.Fallible
