import GdutNet.Ipc.Protocol

/-!
# The client's side of a command

`session.rs`: send a command and read frames until one of them confirms it, five
at most for a mode switch. What the client still reads is the list of snapshots
that arrive and the error that ends it.
-/

namespace GdutNet

structure Frames where
  states : List StateSnapshot
  fault : String

namespace Session

def nextSnapshot (frames : Frames) : Except String (StateSnapshot × Frames) :=
  match frames.states with
  | [] => .error frames.fault
  | s :: rest => .ok (s, { frames with states := rest })

/-- The loop of `send_and_confirm`; `last` is the frame read before. -/
def confirmLoop (confirm : StateSnapshot → Bool) :
    ℕ → Option StateSnapshot → Frames → Except String StateSnapshot
  | 0, last, _ =>
      match last with
      | some s => .ok s
      | none => .error "No frames read while awaiting confirmation"
  | n + 1, _, frames => do
      let (s, frames) ← nextSnapshot frames
      if confirm s then .ok s else confirmLoop confirm n (some s) frames

/-- `sent` is how the write to the pipe ends. -/
def sendAndConfirm (sent : Except String Unit) (confirm : StateSnapshot → Bool)
    (maxFrames : ℕ) (frames : Frames) : Except String StateSnapshot := do
  sent
  confirmLoop confirm maxFrames none frames

/-- The first frame is the state before the command, and is dropped. -/
def setModeConfirmed (mode : NetMode) (sent : Except String Unit) (frames : Frames) :
    Except String StateSnapshot := do
  let (_, frames) ← nextSnapshot frames
  let snapshot ← sendAndConfirm sent (fun s => s.mode = mode) 5 frames
  if snapshot.mode ≠ mode then
    .error "Service did not confirm mode switch (check `status` output)"
  else .ok snapshot

theorem confirmLoop_of_mem {confirm : StateSnapshot → Bool} {n : ℕ} {last : Option StateSnapshot}
    {frames : Frames} {s : StateSnapshot} (hs : s ∈ frames.states.take n)
    (hconfirm : confirm s = true) :
    ∃ s', confirmLoop confirm n last frames = .ok s' ∧ confirm s' = true := by
  obtain ⟨states, fault⟩ := frames
  induction n generalizing last states with
  | zero => simp at hs
  | succ n ih =>
      cases states with
      | nil => simp at hs
      | cons t states =>
          have hloop : confirmLoop confirm (n + 1) last ⟨t :: states, fault⟩ =
              if confirm t then .ok t else confirmLoop confirm n (some t) ⟨states, fault⟩ := rfl
          rw [hloop]
          by_cases ht : confirm t = true
          · exact ⟨t, if_pos ht, ht⟩
          · rw [if_neg ht]
            rw [List.take_succ_cons, List.mem_cons] at hs
            rcases hs with rfl | hs
            · exact absurd hconfirm ht
            · exact ih states hs

/-- **A confirming frame among the five is enough.** -/
theorem setModeConfirmed_of_mem {mode : NetMode} {first s : StateSnapshot}
    {states : List StateSnapshot} (fault : String) (hs : s ∈ states.take 5)
    (hmode : s.mode = mode) :
    ∃ s', setModeConfirmed mode (.ok ()) ⟨first :: states, fault⟩ = .ok s' ∧ s'.mode = mode := by
  obtain ⟨s', hloop, hs'⟩ : ∃ s', confirmLoop (fun s => s.mode = mode) 5 none ⟨states, fault⟩ =
      .ok s' ∧ decide (s'.mode = mode) = true :=
    confirmLoop_of_mem hs (decide_eq_true hmode)
  have hmode' : s'.mode = mode := of_decide_eq_true hs'
  refine ⟨s', ?_, hmode'⟩
  have hrun : setModeConfirmed mode (.ok ()) ⟨first :: states, fault⟩ =
      (confirmLoop (fun s => s.mode = mode) 5 none ⟨states, fault⟩).bind fun snapshot =>
        if snapshot.mode ≠ mode then
          .error "Service did not confirm mode switch (check `status` output)"
        else .ok snapshot := rfl
  rw [hrun, hloop]
  exact if_neg (not_not.mpr hmode')

end Session

end GdutNet
