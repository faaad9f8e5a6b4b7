import GdutNet.Machine.Trace

/-!
# The status window

`show_or_focus` of `tray/gui.rs` and the thread that it starts. The state of the window
is behind a lock that no call holds while it starts the thread, so a run is an
interleaving of the calls, of the threads that were started and of the failures of both.
An event loop can be created once in a process.
-/

namespace GdutNet

inductive GuiState where
  | absent
  | starting
  | live
  | dead (reason : String)
deriving DecidableEq, Repr

/-- Where a window thread stands. -/
inductive Gui.Thread where
  -- in `run_native`, before the window is created
  | creating
  -- the window exists
  | running
  -- `run_native` has returned, before the lock
  | returned (reason : String)
  | finished
deriving DecidableEq, Repr

structure Gui where
  state : GuiState := .absent
  /-- The calls that are about to start a thread. -/
  spawning : ℕ := 0
  /-- Every thread that was started. -/
  threads : List Gui.Thread := []
  /-- How often the window was brought to the front. -/
  focused : ℕ := 0
deriving DecidableEq, Repr

inductive Gui.Move where
  -- a call takes the lock
  | request
  -- a call starts its thread, or fails to
  | spawn (ok : Bool)
  -- the thread at this place: the window is created, `run_native` returns, it takes the lock
  | create (i : ℕ)
  | exit (i : ℕ) (reason : String)
  | bury (i : ℕ)
deriving DecidableEq, Repr

namespace Gui

/-- The locked part of `show_or_focus`. -/
def showOrFocus (g : Gui) : Gui :=
  match g.state with
  | .live => { g with focused := g.focused + 1 }
  | .starting => g
  | .dead _ => g
  | .absent => { g with state := .starting, spawning := g.spawning + 1 }

def move (g : Gui) : Move → Gui
  | .request => g.showOrFocus
  | .spawn ok =>
      if g.spawning = 0 then g
      else if ok then
        { g with spawning := g.spawning - 1, threads := g.threads ++ [.creating] }
      else { g with spawning := g.spawning - 1, state := .absent }
  | .create i =>
      match g.threads[i]? with
      | some .creating => { g with state := .live, threads := g.threads.set i .running }
      | _ => g
  | .exit i reason =>
      match g.threads[i]? with
      | some .creating | some .running =>
          { g with threads := g.threads.set i (.returned reason) }
      | _ => g
  | .bury i =>
      match g.threads[i]? with
      | some (.returned reason) =>
          { g with state := .dead reason, threads := g.threads.set i .finished }
      | _ => g

def step (g : Gui) (m : Move) : Gui × Unit := (g.move m, ())

def after (moves : List Move) : Gui := Machine.final step {} moves

/-- Who is at work in each state. -/
inductive Single : Gui → Prop
  | absent (n : ℕ) : Single ⟨.absent, 0, [], n⟩
  | called (n : ℕ) : Single ⟨.starting, 1, [], n⟩
  | creating (n : ℕ) : Single ⟨.starting, 0, [.creating], n⟩
  | failed (n : ℕ) (reason : String) : Single ⟨.starting, 0, [.returned reason], n⟩
  | running (n : ℕ) : Single ⟨.live, 0, [.running], n⟩
  | closed (n : ℕ) (reason : String) : Single ⟨.live, 0, [.returned reason], n⟩
  | dead (n : ℕ) (reason : String) : Single ⟨.dead reason, 0, [.finished], n⟩

theorem Single.move {g : Gui} (h : g.Single) (m : Move) : (g.move m).Single := by
  cases h with
  | absent n =>
      cases m with
      | request => exact .called n
      | _ => exact .absent n
  | called n =>
      cases m with
      | spawn ok =>
          cases ok with
          | true => exact .creating n
          | false => exact .absent n
      | _ => exact .called n
  | creating n =>
      cases m with
      | create i =>
          cases i with
          | zero => exact .running n
          | succ i => exact .creating n
      | exit i reason =>
          cases i with
          | zero => exact .failed n reason
          | succ i => exact .creating n
      | bury i => cases i <;> exact .creating n
      | _ => exact .creating n
  | failed n reason =>
      cases m with
      | bury i =>
          cases i with
          | zero => exact .dead n reason
          | succ i => exact .failed n reason
      | create i => cases i <;> exact .failed n reason
      | exit i other => cases i <;> exact .failed n reason
      | _ => exact .failed n reason
  | running n =>
      cases m with
      | request => exact .running (n + 1)
      | spawn ok => exact .running n
      | create i => cases i <;> exact .running n
      | exit i reason =>
          cases i with
          | zero => exact .closed n reason
          | succ i => exact .running n
      | bury i => cases i <;> exact .running n
  | closed n reason =>
      cases m with
      | request => exact .closed (n + 1) reason
      | spawn ok => exact .closed n reason
      | create i => cases i <;> exact .closed n reason
      | exit i other => cases i <;> exact .closed n reason
      | bury i =>
          cases i with
          | zero => exact .dead n reason
          | succ i => exact .closed n reason
  | dead n reason =>
      cases m with
      | create i => cases i <;> exact .dead n reason
      | exit i other => cases i <;> exact .dead n reason
      | bury i => cases i <;> exact .dead n reason
      | _ => exact .dead n reason

theorem after_single (moves : List Move) : (after moves).Single :=
  Machine.final_induction (I := Single) (fun _ m h => h.move m) (.absent 0) moves

/-- A dead window is left as it is. -/
theorem move_dead {g : Gui} (h : g.Single) {reason : String} (hdead : g.state = .dead reason)
    (m : Move) : g.move m = g := by
  cases h with
  | dead n reason =>
      cases m with
      | create i => cases i <;> rfl
      | exit i other => cases i <;> rfl
      | bury i => cases i <;> rfl
      | _ => rfl
  | _ => cases hdead

theorem final_dead {g : Gui} (h : g.Single) {reason : String} (hdead : g.state = .dead reason)
    (moves : List Move) : Machine.final Gui.step g moves = g := by
  induction moves with
  | nil => rfl
  | cons m moves ih =>
      rw [Machine.final_cons]
      change Machine.final Gui.step (g.move m) moves = g
      rw [move_dead h hdead m, ih]

theorem Single.threads_le {g : Gui} (h : g.Single) : g.threads.length ≤ 1 := by
  cases h <;> simp

theorem Single.starting_busy {g : Gui} (h : g.Single) (hstarting : g.state = .starting) :
    g.spawning = 1 ∨ ∃ t ∈ g.threads, t ≠ .finished := by
  cases h with
  | called n => exact .inl rfl
  | creating n => exact .inr ⟨.creating, by simp, by simp⟩
  | failed n reason => exact .inr ⟨.returned reason, by simp, by simp⟩
  | _ => cases hstarting

/-- **One window.** In every interleaving at most one event loop is created. `Starting`
is not left behind: someone is at work on it. A window that is there is brought to the
front by every call, and one whose loop has ended is never created again. -/
theorem single_flight (moves : List Move) :
    (after moves).threads.length ≤ 1 ∧
    ((after moves).state = .starting →
      (after moves).spawning = 1 ∨ ∃ t ∈ (after moves).threads, t ≠ .finished) ∧
    ((after moves).state = .live →
      (after (moves ++ [.request])).focused = (after moves).focused + 1) ∧
    ∀ reason, (after moves).state = .dead reason →
      ∀ later, after (moves ++ later) = after moves := by
  have h := after_single moves
  refine ⟨h.threads_le, h.starting_busy, ?_, ?_⟩
  · intro hlive
    have hnext : after (moves ++ [.request]) = (after moves).showOrFocus := by
      rw [after, Machine.final_snoc]
      rfl
    rw [hnext, showOrFocus, hlive]
  · intro reason hdead later
    rw [after, Machine.final_append]
    exact final_dead h hdead later

end Gui

end GdutNet
