import Mathlib.Data.List.GetD
import Mathlib.Data.List.Induction
import Mathlib.Order.Basic

/-!
# A watch channel

One sender, which replaces the value, and receivers, which only ever see the
newest one. The channel keeps every value that was sent, so that a receiver's
view is an index into them: its version. `borrow` reads the newest value and
marks nothing; `changed` completes once there is a version newer than the last
one seen and marks the newest as seen. Without a newer version it fails once
the sender is gone, and waits until then.
-/

namespace GdutNet

structure Watch (α : Type*) where
  initial : α
  sent : List α := []
  closed : Bool := false

/-- How `changed` polls. -/
inductive Changed where
  | pending
  | failed
  | ready (seen : ℕ)
deriving DecidableEq, Repr

namespace Watch

variable {α : Type*} (w : Watch α)

def version : ℕ := w.sent.length

def valueAt (i : ℕ) : α := (w.initial :: w.sent).getD i w.initial

def borrow : α := w.valueAt w.version

def send (a : α) : Watch α := { w with sent := w.sent ++ [a] }

def close : Watch α := { w with closed := true }

def changed (seen : ℕ) : Changed :=
  if seen < w.version then .ready w.version
  else if w.closed then .failed
  else .pending

variable {w}

@[simp] theorem version_send (a : α) : (w.send a).version = w.version + 1 := by
  simp [send, version]

/-- What was sent stays at its version. -/
theorem valueAt_send {i : ℕ} (h : i ≤ w.version) (a : α) :
    (w.send a).valueAt i = w.valueAt i := by
  have hi : i < (w.initial :: w.sent).length := Nat.lt_succ_of_le h
  show (w.initial :: (w.sent ++ [a])).getD i w.initial = _
  rw [← List.cons_append, List.getD_append _ _ _ _ hi]
  rfl

/-- The newest value. -/
theorem borrow_eq (w : Watch α) : w.borrow = w.sent.getLast?.getD w.initial := by
  unfold borrow valueAt version
  induction w.sent using List.reverseRecOn with
  | nil => rfl
  | append_singleton xs x _ =>
      rw [List.length_append, List.length_singleton, List.getD_cons_succ,
        List.getLast?_concat, Option.getD_some, List.getD_append_right _ _ _ _ (Nat.le_refl _)]
      simp

theorem changed_ready {seen seen' : ℕ} (h : w.changed seen = .ready seen') :
    seen < w.version ∧ seen' = w.version := by
  unfold changed at h
  split at h
  · rename_i hlt
    exact ⟨hlt, (Changed.ready.inj h).symm⟩
  · split at h <;> cases h

/-- The values a receiver took, by version: in order, repetitions allowed. -/
def Follows (w : Watch α) (taken : List α) (versions : List ℕ) : Prop :=
  taken = versions.map w.valueAt ∧ versions.Pairwise (· ≤ ·) ∧
    ∀ i ∈ versions, i ≤ w.version

theorem Follows.nil : Follows w [] [] := ⟨rfl, List.Pairwise.nil, by simp⟩

theorem Follows.send {taken : List α} {versions : List ℕ} (h : Follows w taken versions)
    (a : α) : Follows (w.send a) taken versions := by
  obtain ⟨rfl, hsorted, hle⟩ := h
  refine ⟨?_, hsorted, ?_⟩
  · apply List.map_congr_left
    intro i hi
    exact (valueAt_send (hle i hi) a).symm
  · intro i hi
    rw [version_send]
    exact Nat.le_succ_of_le (hle i hi)

/-- A receiver that takes one more value, not older than the last. -/
theorem Follows.snoc {taken : List α} {versions : List ℕ} (h : Follows w taken versions)
    {i : ℕ} (hlast : ∀ j ∈ versions, j ≤ i) (hi : i ≤ w.version) :
    Follows w (taken ++ [w.valueAt i]) (versions ++ [i]) := by
  obtain ⟨rfl, hsorted, hle⟩ := h
  refine ⟨by simp, ?_, ?_⟩
  · rw [List.pairwise_append]
    refine ⟨hsorted, List.pairwise_singleton _ _, ?_⟩
    intro j hj k hk
    rw [List.mem_singleton.mp hk]
    exact hlast j hj
  · intro j hj
    rcases List.mem_append.mp hj with hj | hj
    · exact hle j hj
    · rw [List.mem_singleton.mp hj]
      exact hi

end Watch

end GdutNet
