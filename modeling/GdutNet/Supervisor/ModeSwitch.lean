import GdutNet.Ipc.Session
import GdutNet.Supervisor.Flight

/-!
# The answer to a mode switch

Every switch pushes a line into the event ring, also one to the mode that is set
already, and a changed ring is published. The ring does not change if it is full
of that very line. So a switch goes unanswered after twenty like it in one second,
while the last published snapshot still shows what the ring and the mode are.
-/

namespace GdutNet

/-! ## The ring -/

/-- Shifting a list by one entry changes it, unless it has one value only. -/
theorem shift_eq_self_iff {α : Type*} {x a : α} {xs : List α} :
    xs ++ [a] = x :: xs ↔ x = a ∧ ∀ y ∈ xs, y = a := by
  induction xs generalizing x with
  | nil => simp [eq_comm]
  | cons y xs ih =>
      rw [List.cons_append, List.cons.injEq, ih, List.forall_mem_cons]
      grind

namespace EventLog

/-- At most twenty lines. -/
structure Bounded (log : EventLog) : Prop where
  cap : log.cap = 20
  length : log.ring.length ≤ 20

theorem Bounded.push {log : EventLog} (h : log.Bounded) (wall : ℕ) (msg : String) :
    (log.push wall msg).Bounded := by
  refine ⟨h.cap, ?_⟩
  have hcap := h.cap
  have hlength := h.length
  unfold EventLog.push
  dsimp only
  split
  · rw [List.length_append, List.length_tail, List.length_singleton]
    omega
  · rw [List.length_append, List.length_singleton]
    omega

theorem Bounded.push_ring_eq_iff {log : EventLog} (h : log.Bounded) (wall : ℕ) (msg : String) :
    (log.push wall msg).ring = log.ring ↔
      log.ring = List.replicate 20 (eventLine wall msg) := by
  have hcap := h.cap
  have hlength := h.length
  have hpush : (log.push wall msg).ring =
      (if log.cap ≤ log.ring.length then log.ring.tail else log.ring) ++
        [eventLine wall msg] := rfl
  rw [hpush]
  constructor
  · intro hsame
    split at hsame
    · cases hring : log.ring with
      | nil =>
          rw [hring] at hsame
          cases hsame
      | cons x xs =>
          rw [hring] at hsame hlength
          obtain ⟨rfl, hall⟩ := shift_eq_self_iff.mp hsame
          rw [List.eq_replicate_iff, List.forall_mem_cons]
          refine ⟨?_, rfl, hall⟩
          simp_all
          omega
    · exact absurd (congrArg List.length hsame) (by simp)
  · intro hring
    rw [hring, if_pos (by rw [hcap, List.length_replicate])]
    rfl

end EventLog

namespace Supervisor

theorem handleAction_bounded {s : Supervisor} (h : s.events.Bounded) (action : Action)
    (nowSecs wall : ℕ) : (s.handleAction action nowSecs wall).1.events.Bounded := by
  unfold handleAction
  split
  · exact h
  · split
    · exact h
    · exact h.push _ _
  · exact h.push _ _
  · split
    · exact h
    · split
      · exact h
      · split
        · exact h
        · split <;> exact h
  · split
    · exact h
    · split <;> exact h

theorem handleWirelessSampled_bounded {s : Supervisor} (h : s.events.Bounded)
    (sample : WirelessSample) (now wall : ℕ) :
    (s.handleWirelessSampled sample now wall).1.events.Bounded := by
  unfold handleWirelessSampled decideSample
  split
  · exact h
  · split
    · exact h
    · have hact (b : Brain) (action : Action) :
          ((s.observed sample b).handleAction action (now / 1000) wall).1.events.Bounded :=
        handleAction_bounded (s := s.observed sample b) h action (now / 1000) wall
      dsimp only
      split
      · unfold joinTimeout
        split
        · exact (hact _ _).push _ _
        · exact hact _ _
      · exact hact _ _

theorem handleLinkSampled_bounded {s : Supervisor} (h : s.events.Bounded) (up : Option Bool)
    (pppIp : Option String) (now wall : ℕ) :
    (s.handleLinkSampled up pppIp now wall).1.events.Bounded := by
  have happly (t : Supervisor) (ht : t.events = s.events) (next : Option Bool) :
      (t.applyLink next now wall).1.events.Bounded := by
    have ht : t.events.Bounded := ht ▸ h
    unfold applyLink
    dsimp only
    split
    · split
      · exact ht
      · split
        · exact ht.push _ _
        · exact ht
    · exact ht
  unfold handleLinkSampled
  split
  · exact h
  · have hlink := happly { s with sampleInFlight := false, pppIp, linkSampleSeen := true } rfl
      (s.nextLink up)
    dsimp only
    split
    · exact hlink
    · exact hlink

/-! ## The answer -/

/-- The switch changes nothing that the snapshot shows: the mode is set, and the ring
is full of the line that is to be pushed. -/
def SwitchUnseen (s : Supervisor) (mode : NetMode) (wall : ℕ) : Prop :=
  s.mode = mode ∧
    s.events.ring = List.replicate 20 (eventLine wall ("Mode switched to " ++ modeText mode))

/-- The state after `handle_command` of a switch. -/
def switched (s : Supervisor) (mode : NetMode) (wall : ℕ) : Supervisor :=
  (s.handleCommand (.setMode mode) wall).1

theorem switched_mode (s : Supervisor) (mode : NetMode) (wall : ℕ) :
    (s.switched mode wall).compose.mode = mode := rfl

theorem switched_compose_iff {s : Supervisor} (h : s.events.Bounded) (mode : NetMode)
    (wall : ℕ) : (s.switched mode wall).compose = s.compose ↔ s.SwitchUnseen mode wall := by
  have hring := h.push_ring_eq_iff wall ("Mode switched to " ++ modeText mode)
  have hwireless : (s.switched mode wall).compose.wireless = s.compose.wireless := by
    cases hb : s.brain <;> simp [switched, handleCommand, pushEvent, compose, hb, Brain.setMode,
      Brain.snapshot]
  constructor
  · intro hsame
    exact ⟨(congrArg StateSnapshot.mode hsame).symm,
      hring.mp (congrArg StateSnapshot.events hsame)⟩
  · rintro ⟨hmode, hfull⟩
    have hevents := hring.mpr hfull
    have hall : (s.switched mode wall).compose =
        { s.compose with
          mode, wireless := (s.switched mode wall).compose.wireless
          events := (s.events.push wall ("Mode switched to " ++ modeText mode)).ring } := rfl
    rw [hall, hwireless, hevents, ← hmode]
    rfl

section Steps

variable [SerdeJson]

theorem handle_bounded {s : Supervisor} (h : s.events.Bounded) (now wall : ℕ) (event : Event) :
    (s.handle now wall event).1.events.Bounded := by
  cases event with
  | started => exact h
  | wake =>
      obtain ⟨deadline, pending, sample, poll, wlan, tick, hwake⟩ := s.handleWake_writes now
      change (s.handleWake now).1.events.Bounded
      rw [hwake]
      exact h
  | command cmd =>
      cases cmd with
      | redial => exact h
      | setMode mode => exact h.push _ _
  | linkSampled up pppIp => exact handleLinkSampled_bounded h up pppIp now wall
  | watchdogStepped step =>
      obtain ⟨failing, ledger, hstep⟩ := s.handleWatchdogStepped_writes step now
      change (s.handleWatchdogStepped step now).1.events.Bounded
      rw [hstep]
      exact h
  | wirelessSampled sample => exact handleWirelessSampled_bounded h sample now wall
  | associateFinished res =>
      simp only [handle, handleAssociateFinished]
      split <;> exact h
  | portalFinished attempt =>
      simp only [handle, handlePortalFinished]
      split
      · exact h
      · exact h.push _ _
  | wlanProbeFinished verdict =>
      simp only [handle, handleProbeFinished]
      split
      · exact h
      · split
        · exact h.push _ _
        · exact h
  | heartbeat status => exact h
  | notifyResult key delivered => exact h
  | wirelessDied =>
      simp only [handle, handleWirelessDied]
      split
      · exact h
      · split
        · exact h.push _ _
        · exact h
  | stop =>
      simp only [handle, handleStop]
      split
      · split
        · exact h.push _ _
        · exact h
      · exact h

theorem step_bounded {s : Supervisor} (h : s.events.Bounded) (i : Input) :
    (s.step i).1.events.Bounded := by
  obtain ⟨snap, hstate⟩ := s.step_state i
  rw [hstate]
  change (s.dispatch i.now i.wall i.event).1.events.Bounded
  rcases s.dispatch_cases i.now i.wall i.event with ⟨-, hd⟩ | ⟨-, -, hd⟩ | ⟨-, -, hd⟩
  · rw [hd]
    exact h
  · rw [hd]
    unfold handleStarted
    dsimp only
    split <;> exact h.push _ _
  · rw [hd]
    exact handle_bounded h _ _ _

/-- The ring never holds more than twenty lines. -/
theorem after_bounded (cfg : Config) (is : List Input) : (after cfg is).events.Bounded := by
  refine Machine.final_induction (I := fun s : Supervisor => s.events.Bounded)
    (fun _ i h => step_bounded h i) ?_ is
  have hnew : (new cfg).events = {} := by
    unfold new
    dsimp only
    split
    · split <;> rfl
    · rfl
  rw [hnew]
  exact ⟨rfl, Nat.zero_le 20⟩

theorem step_setMode {s : Supervisor} (hs : s.started = true) (hr : s.stopped = false)
    (mode : NetMode) (now wall : ℕ) :
    (s.step ⟨now, wall, .command (.setMode mode)⟩).2.effects = [.persistMode mode] ∧
    (s.step ⟨now, wall, .command (.setMode mode)⟩).2.snapshot =
      if s.lastSnapshot = some (s.switched mode wall).compose then none
      else some (s.switched mode wall).compose := by
  have hd : s.dispatch now wall (.command (.setMode mode)) =
      (s.switched mode wall, [.persistMode mode]) := dispatch_running hs hr now wall _
  have hh : s.handled (.command (.setMode mode)) = true := by simp [handled, hs, hr]
  have hlast : (s.switched mode wall).lastSnapshot = s.lastSnapshot := rfl
  simp only [step, on, hd, hh, publish, hlast, if_true, true_and]
  split <;> rfl

/-- **The answer to a mode switch.** The mode is stored, and a snapshot that shows it
is published, which confirms the switch to every client that reads it among its five
frames; unless the ring is full of this very line already, when nothing is published
and the last published snapshot shows the mode. -/
theorem mode_switch_answered (cfg : Config) (is : List Input)
    (hs : (after cfg is).started = true) (hr : (after cfg is).stopped = false)
    (mode : NetMode) (now wall : ℕ) :
    .persistMode mode ∈ ((after cfg is).step ⟨now, wall, .command (.setMode mode)⟩).2.effects ∧
    (¬ (after cfg is).SwitchUnseen mode wall →
      ∃ snap, ((after cfg is).step ⟨now, wall, .command (.setMode mode)⟩).2.snapshot = some snap ∧
        snap.mode = mode ∧
        ∀ first states fault, snap ∈ states.take 5 →
          ∃ s, Session.setModeConfirmed mode (.ok ()) ⟨first :: states, fault⟩ = .ok s ∧
            s.mode = mode) ∧
    ((after cfg is).SwitchUnseen mode wall →
      ((after cfg is).step ⟨now, wall, .command (.setMode mode)⟩).2.snapshot = none ∧
        ∃ last, (after cfg is).lastSnapshot = some last ∧ last.mode = mode) := by
  obtain ⟨heffects, hsnapshot⟩ := step_setMode hs hr mode now wall
  have hshown := after_shown cfg is hs
  have hsame : (after cfg is).lastSnapshot = some ((after cfg is).switched mode wall).compose ↔
      (after cfg is).SwitchUnseen mode wall := by
    rw [← switched_compose_iff (after_bounded cfg is), hshown, Option.some.injEq, eq_comm]
  refine ⟨by rw [heffects]; exact List.mem_singleton_self _, ?_, ?_⟩
  · intro hseen
    rw [hsnapshot, if_neg (fun h => hseen (hsame.mp h))]
    refine ⟨_, rfl, switched_mode _ mode wall, ?_⟩
    intro first states fault hmem
    exact Session.setModeConfirmed_of_mem fault hmem (switched_mode _ mode wall)
  · intro hunseen
    rw [hsnapshot, if_pos (hsame.mpr hunseen)]
    exact ⟨rfl, _, hsame.mpr hunseen, switched_mode _ mode wall⟩

end Steps

/-- Twenty switches to the mode that is set, in one second. -/
def sameModeRun : List Input :=
  ⟨0, 0, .started⟩ :: List.replicate 20 ⟨100, 0, .command (.setMode .wiredExclusive)⟩

theorem mode_switch_answered_standby :
    ∃ snap, (@step replyJson (@after replyJson {} sameModeRun)
        ⟨200, 0, .command (.setMode .wiredPlusStandby)⟩).2.snapshot = some snap ∧
      snap.mode = .wiredPlusStandby := by
  obtain ⟨-, hanswer, -⟩ := @mode_switch_answered replyJson {} sameModeRun
    (by decide +kernel) (by decide +kernel) .wiredPlusStandby 200 0
  obtain ⟨snap, hsnap, hmode, -⟩ := hanswer (fun h => absurd h.1 (by decide +kernel))
  exact ⟨snap, hsnap, hmode⟩

/-- The next one is not answered. -/
theorem same_mode_unanswered :
    (@after replyJson {} sameModeRun).started = true ∧
    (@after replyJson {} sameModeRun).stopped = false ∧
    ¬ ∃ snap, (@step replyJson (@after replyJson {} sameModeRun)
        ⟨200, 0, .command (.setMode .wiredExclusive)⟩).2.snapshot = some snap ∧
      snap.mode = .wiredExclusive := by
  refine ⟨by decide +kernel, by decide +kernel, ?_⟩
  have hnone : (@step replyJson (@after replyJson {} sameModeRun)
      ⟨200, 0, .command (.setMode .wiredExclusive)⟩).2.snapshot = none := by decide +kernel
  rintro ⟨snap, hsnap, -⟩
  rw [hnone] at hsnap
  cases hsnap

end Supervisor

end GdutNet
