import GdutNet.Machine.Trace

/-!
# Requests and their answers

A machine that sends requests of one kind and is told their results.
`outstanding` counts, over a history, the requests that have no answer yet; an
answer without a request leaves the count alone. The machine itself remembers
less: how many answers it is `waiting` for, and whether it is `silent`, that is,
will never send another one. `Turn` lists what a step may do. It follows that at
most one request is outstanding, and that the machine waits for no other.
-/

namespace GdutNet.Machine

variable {σ ι ο : Type*}

/-- One kind of request, as seen from outside and from inside the machine. -/
structure Requests (σ ι ο : Type*) where
  sent : ο → ℕ
  answers : ι → Bool
  waiting : σ → ℕ
  silent : σ → Prop

namespace Requests

variable (q : Requests σ ι ο)

def outstanding (past : List (Step σ ι ο)) : ℕ :=
  past.foldl (fun n r => n - (q.answers r.input).toNat + q.sent r.out) 0

@[simp] theorem outstanding_nil : q.outstanding [] = 0 := rfl

theorem outstanding_snoc (past : List (Step σ ι ο)) (r : Step σ ι ο) :
    q.outstanding (past ++ [r]) =
      q.outstanding past - (q.answers r.input).toNat + q.sent r.out := by
  simp [outstanding]

/-- What one step may do: nothing, send one request if none is waited for, take
an answer, or give the kind up. -/
inductive Turn (r : Step σ ι ο) : Prop
  | kept (hanswers : q.answers r.input = false) (hsent : q.sent r.out = 0)
      (hwaiting : q.waiting r.post = q.waiting r.pre)
      (hsilent : q.silent r.pre → q.silent r.post)
  | asked (hanswers : q.answers r.input = false) (hsent : q.sent r.out = 1)
      (hidle : q.waiting r.pre = 0) (hwaiting : q.waiting r.post = 1)
      (hheard : ¬ q.silent r.pre)
  | answered (hanswers : q.answers r.input = true) (hsent : q.sent r.out = 0)
      (hwaiting : q.waiting r.post = q.waiting r.pre - 1)
      (hsilent : q.silent r.pre → q.silent r.post)
  | dropped (hanswers : q.answers r.input = false) (hsent : q.sent r.out = 0)
      (hwaiting : q.waiting r.post = 0) (hsilent : q.silent r.post)

/-- The count and the machine's own memory of it. -/
structure Settled (past : List (Step σ ι ο)) (s : σ) : Prop where
  booked : q.waiting s ≤ q.outstanding past
  single : q.outstanding past ≤ 1
  remembered : q.outstanding past = 1 → q.waiting s = 1 ∨ q.silent s

variable {q}

/-- A machine that asks has nothing out: it waits for nothing and is not silent. -/
theorem Settled.none_out {past : List (Step σ ι ο)} {s : σ} (h : q.Settled past s)
    (hidle : q.waiting s = 0) (hheard : ¬ q.silent s) : q.outstanding past = 0 := by
  by_contra hsome
  have hsingle := h.single
  rcases h.remembered (by omega) with hw | hs
  · omega
  · exact hheard hs

theorem Settled.none_out_of_sent {past : List (Step σ ι ο)} {r : Step σ ι ο}
    (h : q.Settled past r.pre) (hturn : q.Turn r) (hsent : 0 < q.sent r.out) :
    q.outstanding past = 0 := by
  cases hturn with
  | asked hanswers hone hidle hwaiting hheard => exact h.none_out hidle hheard
  | kept hanswers hnone | answered hanswers hnone | dropped hanswers hnone => omega

theorem Settled.turn {past : List (Step σ ι ο)} {r : Step σ ι ο}
    (h : q.Settled past r.pre) (hturn : q.Turn r) : q.Settled (past ++ [r]) r.post := by
  obtain ⟨hbooked, hsingle, hremembered⟩ := h
  have hcount := q.outstanding_snoc past r
  cases hturn with
  | kept hanswers hsent hwaiting hsilent =>
      simp only [hanswers, hsent, Bool.toNat_false, Nat.sub_zero, Nat.add_zero] at hcount
      refine ⟨by rw [hcount, hwaiting]; exact hbooked, by rw [hcount]; exact hsingle, ?_⟩
      rw [hcount, hwaiting]
      exact fun hone => (hremembered hone).imp id hsilent
  | asked hanswers hsent hidle hwaiting hheard =>
      have hnone := Settled.none_out ⟨hbooked, hsingle, hremembered⟩ hidle hheard
      rw [hanswers, hsent, hnone] at hcount
      exact ⟨by rw [hcount, hwaiting]; simp, by rw [hcount]; simp, fun _ => .inl hwaiting⟩
  | answered hanswers hsent hwaiting hsilent =>
      simp only [hanswers, hsent, Bool.toNat_true, Nat.add_zero] at hcount
      exact ⟨by omega, by omega, by omega⟩
  | dropped hanswers hsent hwaiting hsilent =>
      simp only [hanswers, hsent, Bool.toNat_false, Nat.sub_zero, Nat.add_zero] at hcount
      exact ⟨by omega, by omega, fun _ => .inr hsilent⟩

/-- The count and the memory agree along every run whose steps are turns. -/
theorem settled_run {step : σ → ι → σ × ο} {s : σ} (hstart : q.waiting s = 0)
    (is : List ι) (hturns : ∀ r ∈ trace step s is, q.Turn r) :
    q.Settled (trace step s is) (final step s is) := by
  refine history_induction (I := q.Settled) ⟨by simp [hstart], by simp, by simp⟩ ?_ is hturns
  intro past t i h hturn
  have hnext : q.Settled past (stepAt step t i).pre := h
  exact hnext.turn hturn

end Requests

end GdutNet.Machine
