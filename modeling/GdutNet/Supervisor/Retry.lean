import GdutNet.Supervisor.Episodes

/-!
# The spacing of login retries

A failed login puts the brain into `Error` with a due time, and only three
things lead out of it: the due time itself, a release of the WLAN and the death
of the worker. `RetryState` is the brain's part in it, `Retried` lists what one
call of `Supervisor::on` can do to it, and `failures` counts the failed logins
since the last successful one, from the history alone.
-/

namespace GdutNet

structure RetryState where
  phase : WPhase
  nextAuthAt : Option ℕ
  authFailCount : ℕ
deriving DecidableEq, Repr

def Brain.retryState (b : Brain) : RetryState := ⟨b.phase, b.nextAuthAt, b.authFailCount⟩

/-- In `Error` the brain waits, leaves it at the due time, or releases. -/
theorem Brain.Decided.of_error {b b' : Brain} {w : World} {action : Action}
    (h : b.Decided w b' action) (herr : b.phase = .error) :
    (b'.phase = .error ∧ b'.nextAuthAt = b.nextAuthAt) ∨
      b.nextAuthAt.all (· ≤ w.now) = true ∨ action = .disassociate := by
  cases h with
  | idle hphase _ hnext _ => exact .inl ⟨hphase.trans herr, hnext⟩
  | join hstart _ _ =>
      simp only [Brain.startsJoin, herr, Bool.and_eq_true] at hstart
      exact .inr (.inl hstart.2)
  | release _ _ _ => exact .inr (.inr rfl)
  | login hfrom _ _ => simp [herr] at hfrom
  | probe hfrom _ _ _ _ => simp [herr] at hfrom

/-- The wait after the `k`-th failure in a row, in seconds. -/
def retryDelay (k : ℕ) : ℕ := authRetryDelays.getD (min k 3 - 1) 0

namespace Supervisor

def retryState (s : Supervisor) : Option RetryState := s.brain.map Brain.retryState

/-- The brain decides on a login, and it is refused for want of an address or a
gateway. -/
def refusesLogin (s : Supervisor) (i : Input) : Bool :=
  match s.accepted i with
  | some (sample, brain) =>
      ((s.deciding brain).decide (s.world sample i.now)).2 = .portalAuth &&
        !s.authInFlight && (sample.wlan.bind (·.gateway)).isNone
  | none => false

theorem refusesLogin_iff {s : Supervisor} {i : Input} {sample : WirelessSample}
    {brain : Brain} (hs : s.Samples i sample brain) :
    s.refusesLogin i = true ↔
      ((s.deciding brain).decide (s.world sample i.now)).2 = .portalAuth ∧
        s.authInFlight = false ∧ sample.wlan.bind (·.gateway) = none := by
  unfold refusesLogin
  rw [accepted_eq_some.mpr hs]
  simp [and_assoc]

theorem refusesLogin_samples {s : Supervisor} {i : Input} (h : s.refusesLogin i = true) :
    ∃ sample brain, s.Samples i sample brain := by
  unfold refusesLogin at h
  split at h
  · rename_i sample brain haccepted
    exact ⟨sample, brain, accepted_eq_some.mp haccepted⟩
  · cases h

/-! ## Handlers that leave the brain alone -/

theorem handleStarted_brain (s : Supervisor) (now wall : ℕ) :
    (s.handleStarted now wall).1.brain = s.brain := by
  unfold handleStarted
  dsimp only
  split <;> rfl

theorem handleWake_brain (s : Supervisor) (now : ℕ) : (s.handleWake now).1.brain = s.brain := by
  obtain ⟨deadline, pending, sample, poll, wlan, tick, h⟩ := s.handleWake_writes now
  rw [h]

theorem handleLinkSampled_brain (s : Supervisor) (up : Option Bool) (pppIp : Option String)
    (now wall : ℕ) : (s.handleLinkSampled up pppIp now wall).1.brain = s.brain := by
  obtain ⟨link, seen, pending, deadline, poll, ip, log, h⟩ :=
    s.handleLinkSampled_writes up pppIp now wall
  rw [h]

theorem handleWatchdogStepped_brain (s : Supervisor) (step : WatchdogStep) (now : ℕ) :
    (s.handleWatchdogStepped step now).1.brain = s.brain := by
  obtain ⟨failing, ledger, h⟩ := s.handleWatchdogStepped_writes step now
  rw [h]

theorem handleProbeFinished_brain (s : Supervisor) (verdict : ProbeVerdict) (wall : ℕ) :
    (s.handleProbeFinished verdict wall).brain = s.brain := by
  unfold handleProbeFinished
  split
  · rfl
  · dsimp only
    split <;> rfl

theorem handleAssociateFinished_brain (s : Supervisor) (now : ℕ) :
    (s.handleAssociateFinished now).brain = s.brain := by
  unfold handleAssociateFinished
  split <;> rfl

theorem handleStop_brain (s : Supervisor) (wall : ℕ) :
    (s.handleStop wall).1.brain = s.brain := by
  unfold handleStop
  dsimp only
  split
  · split <;> rfl
  · rfl

/-- A switch of the mode leaves the retry state alone. -/
theorem handleCommand_retryState (s : Supervisor) (cmd : Command) (wall : ℕ) :
    (s.handleCommand cmd wall).1.retryState = s.retryState := by
  cases cmd with
  | redial => rfl
  | setMode mode =>
      simp only [handleCommand, pushEvent, retryState, Option.map_map]
      rfl

/-- A login without an address or a gateway counts as failed. -/
theorem handleAction_refused {s : Supervisor} (hfree : s.authInFlight = false)
    (hlost : s.wlan.bind (·.gateway) = none) (nowSecs wall : ℕ) :
    ∃ msg s', s.handleAction .portalAuth nowSecs wall = (s', [], false) ∧
      s'.brain = s.brain.map (Brain.onAuth · false msg nowSecs) := by
  unfold handleAction
  dsimp only
  rw [if_neg (by simp [hfree])]
  cases hw : s.wlan with
  | none => exact ⟨"wlan ip lost", _, rfl, rfl⟩
  | some wlan =>
      rw [hw] at hlost
      have hgateway : wlan.gateway = none := hlost
      dsimp only
      rw [hgateway]
      exact ⟨"wlan gateway missing", _, rfl, rfl⟩

theorem handleAction_brain {s : Supervisor} {action : Action}
    (h : ¬ (action = .portalAuth ∧ s.authInFlight = false ∧ s.wlan.bind (·.gateway) = none))
    (nowSecs wall : ℕ) : (s.handleAction action nowSecs wall).1.brain = s.brain := by
  unfold handleAction
  cases action with
  | none => rfl
  | disassociate => rfl
  | associate =>
      dsimp only
      split <;> rfl
  | portalAuth =>
      dsimp only
      split
      · rfl
      · rename_i hfree
        simp only [true_and, not_and] at h
        have hlost := h (by simpa using hfree)
        split
        · rename_i hw
          simp [hw] at hlost
        · rename_i wlan hw
          split
          · rename_i hg
            simp [hw, hg] at hlost
          · split <;> rfl
  | probeNow =>
      dsimp only
      split
      · rfl
      · split <;> rfl

/-- Outside `Joining` the join timeout leaves the retry state alone. -/
theorem joinTimeout_retryState {s : Supervisor} {b : Brain} (hbrain : s.brain = some b)
    (now wall : ℕ) :
    ∃ o, (s.joinTimeout now wall).retryState = some o ∧
      o.authFailCount = b.authFailCount ∧ (b.phase ≠ .joining → o = b.retryState) := by
  unfold joinTimeout
  split
  · rename_i hlate
    rw [Bool.and_eq_true, decide_eq_true_eq] at hlate
    have hjoining : b.phase = .joining := by simpa [phase, hbrain] using hlate.1
    refine ⟨b.restart.retryState, by simp [retryState, pushEvent, hbrain], rfl, ?_⟩
    intro hnot
    exact absurd hjoining hnot
  · exact ⟨b.retryState, by simp [retryState, hbrain], rfl, fun _ => rfl⟩

theorem retryState_of_brain {s s' : Supervisor} (h : s'.brain = s.brain) :
    s'.retryState = s.retryState := congrArg (Option.map Brain.retryState) h

theorem onAuth_failed (b : Brain) (msg : String) (now : ℕ) :
    (b.onAuth false msg now).retryState =
      ⟨.error, some (now + authRetryDelays.getD (min (min (b.authFailCount + 1) u32Max - 1) 2) 0),
        min (b.authFailCount + 1) u32Max⟩ := rfl

/-- What a failed login leaves behind until `due`, in seconds. -/
inductive HoldsOff (due t : ℕ) (s : Supervisor) : Prop
  | gone (hdead : s.brain = none)
  | waits {count : ℕ} (hfree : s.authInFlight = false)
      (hstate : s.retryState = some ⟨.error, some due, count⟩)
  | passed (hdue : due ≤ t / 1000)

theorem HoldsOff.mono {due t t' : ℕ} {s : Supervisor} (ht : t ≤ t') (h : HoldsOff due t s) :
    HoldsOff due t' s := by
  cases h with
  | gone hdead => exact .gone hdead
  | waits hfree hstate => exact .waits hfree hstate
  | passed hdue => exact .passed (hdue.trans (Nat.div_le_div_right ht))

/-- The delay that the brain takes after a failure is the one of the history. -/
theorem retryDelay_eq {count n : ℕ} (h : count = min n u32Max) :
    authRetryDelays.getD (min (min (count + 1) u32Max - 1) 2) 0 = retryDelay (n + 1) := by
  have hidx : min (min (count + 1) u32Max - 1) 2 = min (n + 1) 3 - 1 := by
    simp only [u32Max] at h ⊢
    omega
  rw [hidx, retryDelay]

section Retry

variable [SerdeJson] {s : Supervisor} {i : Input}

/-- A login attempt ends here: with success, or without. -/
def loginEnded (s : Supervisor) (i : Input) : Option Bool :=
  match i.event with
  | .portalFinished attempt =>
      if s.handled i.event && s.authInFlight then some (portalOutcome attempt).1 else none
  | _ => if s.refusesLogin i then some false else none

/-- Failed logins since the last successful one. -/
def failures (past : List Record) : ℕ :=
  past.foldl (fun n r => match r.pre.loginEnded r.input with
    | some true => 0
    | some false => n + 1
    | none => n) 0

/-- What one input can do to the retry state. -/
inductive Retried (s : Supervisor) (i : Input) : Option RetryState → Prop
  | kept (hend : s.loginEnded i = none) : Retried s i s.retryState
  | died (hend : s.loginEnded i = none) : Retried s i none
  | replied {ok : Bool} {msg : String} (hend : s.loginEnded i = some ok)
      (hwait : s.authInFlight = true) (hclear : (s.step i).1.authInFlight = false)
      (hquiet : (s.step i).2.effects = []) :
      Retried s i (s.brain.map (fun b => (b.onAuth ok msg (i.now / 1000)).retryState))
  | refused {b b' : Brain} {msg : String} (hend : s.loginEnded i = some false)
      (hlive : s.brain = some b) (hfrom : b.phase ≠ .error) (hfree : s.authInFlight = false)
      (hcount : b'.authFailCount = b.authFailCount)
      (hquiet : (s.step i).2.effects = []) :
      Retried s i (some (b'.onAuth false msg (i.now / 1000)).retryState)
  | moved {b : Brain} {o : RetryState} (hend : s.loginEnded i = none) (hlive : s.brain = some b)
      (hcount : o.authFailCount = b.authFailCount)
      (hleft : b.phase = .error →
        b.nextAuthAt.all (· ≤ i.now / 1000) = true ∨ .disassociate ∈ (s.step i).2.effects) :
      Retried s i (some o)

theorem Retried.of_eq {o o' : Option RetryState} (h : Retried s i o) (heq : o' = o) :
    Retried s i o' := by
  rwa [heq]

/-! ## The handlers -/

theorem loginEnded_of_aside (hsample : ∀ sample, ¬ s.Receives i (.wirelessSampled sample))
    (hreply : ∀ attempt, ¬ s.Receives i (.portalFinished attempt)) :
    s.loginEnded i = none := by
  have hrefuses : s.refusesLogin i = false := by
    by_contra hr
    obtain ⟨sample, brain, hs⟩ := refusesLogin_samples (by simpa using hr)
    exact hsample sample hs.received
  unfold loginEnded
  split
  · rename_i attempt hevent
    rw [if_neg]
    intro hwait
    rw [Bool.and_eq_true, hevent] at hwait
    exact hreply attempt ⟨hevent, hwait.1⟩
  · simp [hrefuses]

theorem loginEnded_of_samples {sample : WirelessSample} {brain : Brain}
    (hs : s.Samples i sample brain) :
    s.loginEnded i = if s.refusesLogin i then some false else none := by
  unfold loginEnded
  rw [hs.received.1]

theorem moved_or_kept {sample : WirelessSample} {brain b : Brain} {action : Action}
    (hs : s.Samples i sample brain) (hend : s.loginEnded i = none)
    (hdecided : (s.deciding brain).Decided (s.world sample i.now) b action)
    (hcount : b.authFailCount = brain.authFailCount)
    {s' : Supervisor} (hbrain : s'.brain = some b)
    (hstate : (s.step i).1.retryState = s'.retryState ∨
      (s.step i).1.retryState = (s'.joinTimeout i.now i.wall).retryState)
    (hrelease : action = .disassociate → .disassociate ∈ (s.step i).2.effects) :
    Retried s i (s.step i).1.retryState := by
  have hafter : ∃ o, (s.step i).1.retryState = some o ∧
      o.authFailCount = b.authFailCount ∧ (b.phase ≠ .joining → o = b.retryState) := by
    rcases hstate with hstate | hstate
    · rw [hstate]
      exact ⟨b.retryState, by simp [retryState, hbrain], rfl, fun _ => rfl⟩
    · rw [hstate]
      exact joinTimeout_retryState hbrain i.now i.wall
  obtain ⟨o, ho, hfails, hstay⟩ := hafter
  rw [ho]
  by_cases herr : brain.phase = .error
  · have hphase : (s.deciding brain).phase = .error := herr
    rcases hdecided.of_error hphase with ⟨hphase', hnext⟩ | hdue | rfl
    · have hnext' : b.nextAuthAt = brain.nextAuthAt := hnext
      have hkeep : o = brain.retryState := by
        rw [hstay (by simp [hphase']), Brain.retryState, Brain.retryState, hphase', hnext', hcount,
          herr]
      refine (Retried.kept hend).of_eq ?_
      rw [hkeep, retryState, hs.live]
      rfl
    · exact .moved hend hs.live (hfails.trans hcount) (fun _ => .inl hdue)
    · exact .moved hend hs.live (hfails.trans hcount) (fun _ => .inr (hrelease rfl))
  · exact .moved hend hs.live (hfails.trans hcount) (fun h => absurd h herr)

theorem decideSample_retried {sample : WirelessSample} {brain : Brain}
    (hs : s.Samples i sample brain)
    (hstate : (s.step i).1.retryState =
      (if (s.decideSample brain sample i.now i.wall).2.2 then
        (s.decideSample brain sample i.now i.wall).1.joinTimeout i.now i.wall
        else (s.decideSample brain sample i.now i.wall).1).retryState)
    (heffects : (s.step i).2.effects = (s.decideSample brain sample i.now i.wall).2.1) :
    Retried s i (s.step i).1.retryState := by
  have hdecided := Brain.decide_decided (s.deciding brain) (s.world sample i.now)
  have hcount := Brain.decide_authFailCount (s.deciding brain) (s.world sample i.now)
  have hrefuses := refusesLogin_iff hs
  have hend := loginEnded_of_samples hs
  unfold decideSample at hstate heffects
  rw [← deciding] at hstate heffects
  generalize (s.deciding brain).decide (s.world sample i.now) = decided
    at hdecided hcount hrefuses hstate heffects
  obtain ⟨b, action⟩ := decided
  change b.authFailCount = brain.authFailCount at hcount
  dsimp only at hdecided hrefuses hstate heffects
  by_cases hrefused : s.refusesLogin i = true
  · obtain ⟨rfl, hfree, hlost⟩ := hrefuses.mp hrefused
    obtain ⟨msg, s', hact, hbrain⟩ := handleAction_refused (s := s.observed sample b) hfree hlost
      (i.now / 1000) i.wall
    simp only [hact, Bool.false_eq_true, if_false] at hstate heffects
    rw [if_pos hrefused] at hend
    have hpost : s'.retryState = some (b.onAuth false msg (i.now / 1000)).retryState := by
      simp [retryState, hbrain, observed]
    have hfrom : brain.phase ≠ .error := by
      intro herr
      have hphase : (s.deciding brain).phase = .error := herr
      cases hdecided with
      | login hfrom _ _ => simp [hphase] at hfrom
    exact (Retried.refused hend hs.live hfrom hfree hcount heffects).of_eq (hstate.trans hpost)
  · have hnot := fun h => hrefused (hrefuses.mpr h)
    have hbrain := handleAction_brain (s := s.observed sample b) hnot (i.now / 1000) i.wall
    rw [if_neg hrefused] at hend
    refine moved_or_kept hs hend hdecided hcount hbrain ?_ ?_
    · split at hstate
      · exact .inr hstate
      · exact .inl hstate
    · rintro rfl
      rw [heffects]
      simp [handleAction]

theorem handleWirelessSampled_retried {sample : WirelessSample}
    (hr : s.Receives i (.wirelessSampled sample))
    (hstate : (s.step i).1.retryState =
      (s.handleWirelessSampled sample i.now i.wall).1.retryState)
    (heffects : (s.step i).2.effects = (s.handleWirelessSampled sample i.now i.wall).2) :
    Retried s i (s.step i).1.retryState := by
  have hquiet : (∀ brain, ¬ s.Samples i sample brain) → s.loginEnded i = none := by
    intro hno
    have hrefuses : s.refusesLogin i = false := by
      by_contra hrefused
      obtain ⟨sample', brain, hs⟩ := refusesLogin_samples (by simpa using hrefused)
      have hsame : sample' = sample := by
        have hevent := hs.received.1
        rw [hr.1] at hevent
        simpa using hevent.symm
      exact hno brain (hsame ▸ hs)
    unfold loginEnded
    rw [hr.1]
    simp [hrefuses]
  unfold handleWirelessSampled at hstate heffects
  split at hstate
  · rename_i hidle
    refine (Retried.kept (hquiet ?_)).of_eq hstate
    intro brain hs
    simp [hs.awaited] at hidle
  · rename_i hwait
    rw [if_neg hwait] at heffects
    split at hstate
    · rename_i hdead
      refine (Retried.kept (hquiet ?_)).of_eq hstate
      intro brain hs
      rw [hs.live] at hdead
      cases hdead
    · rename_i brain hlive
      rw [hlive] at heffects
      exact decideSample_retried ⟨hr, by simpa using hwait, hlive⟩ hstate heffects

theorem handlePortalFinished_retried {attempt : PortalAttempt}
    (hr : s.Receives i (.portalFinished attempt))
    (hstate : (s.step i).1.retryState =
      (s.handlePortalFinished attempt i.now i.wall).retryState)
    (heffects : (s.step i).2.effects = []) : Retried s i (s.step i).1.retryState := by
  have hend : s.loginEnded i =
      if s.authInFlight then some (portalOutcome attempt).1 else none := by
    unfold loginEnded
    rw [hr.1]
    simp [hr.2]
  cases hwait : s.authInFlight with
  | false =>
      have hsame : s.handlePortalFinished attempt i.now i.wall = s := if_pos (by simp [hwait])
      rw [hsame] at hstate
      exact (Retried.kept (by simp [hend, hwait])).of_eq hstate
  | true =>
      have hbrain : (s.handlePortalFinished attempt i.now i.wall).retryState =
          s.brain.map (fun b => (b.onAuth (portalOutcome attempt).1 (portalOutcome attempt).2
            (i.now / 1000)).retryState) := by
        unfold handlePortalFinished
        rw [if_neg (by simp [hwait])]
        simp only [retryState, pushEvent, Option.map_map]
        rfl
      have hended : s.loginEnded i = some (portalOutcome attempt).1 := by simp [hend, hwait]
      have hclear : (s.step i).1.authInFlight = false := by
        obtain ⟨snap, hstep, -⟩ := step_of_receives hr (by simp)
        have htakeover := s.handlePortalFinished_takeover attempt i.now i.wall hwait
        rw [hstep]
        exact congrArg Takeover.authInFlight htakeover
      exact (Retried.replied hended hwait hclear heffects).of_eq (hstate.trans hbrain)

theorem handle_retried (hr : s.Receives i i.event)
    (hstate : (s.step i).1.retryState = (s.handle i.now i.wall i.event).1.retryState)
    (heffects : (s.step i).2.effects = (s.handle i.now i.wall i.event).2) :
    Retried s i (s.step i).1.retryState := by
  have aside : (∀ sample, i.event ≠ .wirelessSampled sample) →
      (∀ attempt, i.event ≠ .portalFinished attempt) →
      (s.handle i.now i.wall i.event).1.retryState = s.retryState →
      Retried s i (s.step i).1.retryState := by
    intro hsample hreply hsame
    have hend : s.loginEnded i = none :=
      loginEnded_of_aside (fun sample h => hsample sample h.1) (fun attempt h => hreply attempt h.1)
    exact (Retried.kept hend).of_eq (hstate.trans hsame)
  obtain ⟨now, wall, event⟩ := i
  cases event with
  | started => exact aside (by simp) (by simp) rfl
  | wake => exact aside (by simp) (by simp) (retryState_of_brain (s.handleWake_brain now))
  | command cmd => exact aside (by simp) (by simp) (s.handleCommand_retryState cmd wall)
  | linkSampled up pppIp =>
      exact aside (by simp) (by simp)
        (retryState_of_brain (s.handleLinkSampled_brain up pppIp now wall))
  | watchdogStepped step =>
      exact aside (by simp) (by simp)
        (retryState_of_brain (s.handleWatchdogStepped_brain step now))
  | wirelessSampled sample => exact handleWirelessSampled_retried hr hstate heffects
  | associateFinished res =>
      exact aside (by simp) (by simp) (retryState_of_brain (s.handleAssociateFinished_brain now))
  | portalFinished attempt => exact handlePortalFinished_retried hr hstate heffects
  | wlanProbeFinished verdict =>
      exact aside (by simp) (by simp)
        (retryState_of_brain (s.handleProbeFinished_brain verdict wall))
  | heartbeat status => exact aside (by simp) (by simp) rfl
  | notifyResult key delivered => exact aside (by simp) (by simp) rfl
  | wirelessDied =>
      cases hcfg : s.cfg.wireless.enabled with
      | false =>
          have hsame : s.handleWirelessDied wall = s := if_pos (by simp [hcfg])
          exact aside (by simp) (by simp) (congrArg retryState hsame)
      | true =>
          have hdead : (s.handleWirelessDied wall).retryState = none := by
            unfold handleWirelessDied
            rw [if_neg (by simp [hcfg])]
            rfl
          exact (Retried.died (loginEnded_of_aside (by simp [Receives]) (by simp [Receives]))).of_eq
            (hstate.trans hdead)
  | stop => exact aside (by simp) (by simp) (retryState_of_brain (s.handleStop_brain wall))

theorem step_retried (s : Supervisor) (i : Input) : Retried s i (s.step i).1.retryState := by
  obtain ⟨snap, hstep⟩ := s.step_state i
  have hstate : (s.step i).1.retryState =
      (s.dispatch i.now i.wall i.event).1.retryState := by
    rw [hstep]
    rfl
  have heffects := s.step_effects i
  rcases s.dispatch_cases i.now i.wall i.event with ⟨hn, h⟩ | ⟨-, he, h⟩ | ⟨hs, hr, h⟩
  · rw [h] at hstate
    refine (Retried.kept (loginEnded_of_aside ?_ ?_)).of_eq hstate
    · intro sample hr
      rw [hr.1, hr.2] at hn
      cases hn
    · intro attempt hr
      rw [hr.1, hr.2] at hn
      cases hn
  · rw [h] at hstate
    refine (Retried.kept (loginEnded_of_aside ?_ ?_)).of_eq
      (hstate.trans (retryState_of_brain (s.handleStarted_brain i.now i.wall)))
    · simp [Receives, he]
    · simp [Receives, he]
  · rw [h] at hstate heffects
    exact handle_retried ⟨rfl, by simp [handled, hs, hr]⟩ hstate heffects

/-! ## The count -/

theorem failures_snoc (past : List Record) (r : Record) :
    failures (past ++ [r]) = match r.pre.loginEnded r.input with
      | some true => 0
      | some false => failures past + 1
      | none => failures past := by
  simp [failures]

/-- The brain's counter is the count of the history, up to saturation. -/
def Counts (past : List Record) (s : Supervisor) : Prop :=
  ∀ o, s.retryState = some o → o.authFailCount = min (failures past) u32Max

theorem counts_step (past : List Record) (s : Supervisor) (i : Input) (h : Counts past s) :
    Counts (past ++ [Machine.stepAt step s i]) (s.step i).1 := by
  have hretried := s.step_retried i
  have hsnoc := failures_snoc past (Machine.stepAt step s i)
  simp only [Machine.stepAt_pre, Machine.stepAt_input] at hsnoc
  intro o ho
  generalize (s.step i).1.retryState = o' at hretried ho
  cases hretried with
  | kept hend =>
      rw [hsnoc, hend]
      exact h o ho
  | died _ => cases ho
  | @replied ok msg hend _ _ _ =>
      obtain ⟨b, hb, rfl⟩ := Option.map_eq_some_iff.mp ho
      have hbefore : b.authFailCount = _ := h b.retryState (by simp [retryState, hb])
      rw [hsnoc, hend]
      cases ok with
      | true => rfl
      | false =>
          simp only [onAuth_failed, hbefore]
          omega
  | @refused b b' msg hend hlive _ _ hcount _ =>
      have hbefore : b.authFailCount = _ := h b.retryState (by simp [retryState, hlive])
      rw [← Option.some.inj ho, hsnoc, hend]
      simp only [onAuth_failed, hcount, hbefore]
      omega
  | @moved b o'' hend hlive hcount _ =>
      have hbefore : b.authFailCount = _ := h b.retryState (by simp [retryState, hlive])
      rw [← Option.some.inj ho, hsnoc, hend, hcount, hbefore]

theorem counts_history (cfg : Config) (is : List Input) :
    Counts (history cfg is) (after cfg is) := by
  refine Machine.history_induction (A := fun _ => True) ?_
    (fun past s i h _ => counts_step past s i h) is (fun _ _ => trivial)
  intro o ho
  obtain ⟨b, hb, rfl⟩ := Option.map_eq_some_iff.mp ho
  unfold new at hb
  dsimp only at hb
  split at hb
  · split at hb
    · rw [← Option.some.inj hb]
      rfl
    · cases hb
  · cases hb

/-! ## The wait -/

def SendsAttempt (r : Record) : Prop := SendsAssociate r ∨ SendsLogin r

/-- An attempt is a live brain's, and one that waited in `Error` is due. -/
theorem attempt_samples (h : SendsAttempt (Machine.stepAt step s i)) :
    ∃ brain, s.brain = some brain ∧
      (brain.phase = .error → brain.nextAuthAt.all (· ≤ i.now / 1000) = true) := by
  obtain ⟨t, fx, hm, -, hfx⟩ := s.exists_moved i
  obtain ⟨e, he, hkind⟩ : ∃ e ∈ fx, (∃ profile, e = .associate profile) ∨
      ∃ src timeout, e = .portalAuth src timeout := by
    rcases h with ⟨profile, hmem⟩ | ⟨src, timeout, hmem⟩
    · exact ⟨_, hfx ▸ List.mem_filter.mpr ⟨hmem, rfl⟩, .inl ⟨profile, rfl⟩⟩
    · exact ⟨_, hfx ▸ List.mem_filter.mpr ⟨hmem, rfl⟩, .inr ⟨src, timeout, rfl⟩⟩
  have hjoin : ∀ {sample : WirelessSample} {brain : Brain}, s.Samples i sample brain →
      (s.deciding brain).startsJoin (s.world sample i.now) →
      ∃ brain, s.brain = some brain ∧
        (brain.phase = .error → brain.nextAuthAt.all (· ≤ i.now / 1000) = true) := by
    intro sample brain hs hstart
    refine ⟨brain, hs.live, ?_⟩
    intro herr
    have hphase : (s.deciding brain).phase = .error := herr
    simp only [Brain.startsJoin, hphase, Bool.and_eq_true] at hstart
    exact hstart.2
  cases hm with
  | joined hs hstart _ => exact hjoin hs hstart
  | joinedExpired hs hstart _ => exact hjoin hs hstart
  | logged hs hfrom _ _ _ =>
      refine ⟨_, hs.live, ?_⟩
      intro herr
      simp [herr] at hfrom
  | _ => rcases hkind with ⟨profile, rfl⟩ | ⟨src, timeout, rfl⟩ <;> simp at he

theorem HoldsOff.due_of_attempt {due t : ℕ} (h : HoldsOff due t s) (ht : t ≤ i.now)
    (hattempt : SendsAttempt (Machine.stepAt step s i)) : due ≤ i.now / 1000 := by
  obtain ⟨brain, hlive, hdue⟩ := attempt_samples hattempt
  cases h with
  | gone hdead => simp [hdead] at hlive
  | @waits count _ hstate =>
      rw [retryState, hlive] at hstate
      have hbrain : brain.retryState = ⟨.error, some due, count⟩ := Option.some.inj hstate
      simp only [Brain.retryState, RetryState.mk.injEq] at hbrain
      simpa [hbrain.2.1] using hdue hbrain.1
  | passed hdue => exact hdue.trans (Nat.div_le_div_right ht)

/-- Only a login sets its flag. -/
theorem authInFlight_step (h : (s.step i).1.authInFlight = true) :
    s.authInFlight = true ∨ SendsLogin (Machine.stepAt step s i) := by
  obtain ⟨t, fx, hm, ht, hfx⟩ := s.exists_moved i
  replace h : t.authInFlight = true := ht ▸ h
  cases hm with
  | @logged sample brain armed wlan gateway _ _ _ _ _ =>
      exact .inr ⟨wlan.ipv4, portalAuthTimeout, sent_of_episode hfx (by simp)⟩
  | died _ => simp at h
  | replied _ _ => simp at h
  | _ => exact .inl h

theorem HoldsOff.step {due t : ℕ} (h : HoldsOff due t s) (ht : t ≤ i.now)
    (hkept : .disassociate ∉ (s.step i).2.effects) : HoldsOff due i.now (s.step i).1 := by
  by_cases hattempt : SendsAttempt (Machine.stepAt Supervisor.step s i)
  · exact .passed (h.due_of_attempt ht hattempt)
  have hretried := s.step_retried i
  cases h with
  | passed hdue => exact .passed (hdue.trans (Nat.div_le_div_right ht))
  | gone hdead =>
      have hnone : (s.step i).1.retryState = none := by
        generalize (s.step i).1.retryState = o at hretried ⊢
        cases hretried with
        | kept _ => simp [retryState, hdead]
        | died _ => rfl
        | replied _ _ _ _ => simp [hdead]
        | refused _ hlive _ _ _ _ => simp [hdead] at hlive
        | moved _ hlive _ _ => simp [hdead] at hlive
      exact .gone (Option.map_eq_none_iff.mp hnone)
  | @waits count hfree hstate =>
      have hstill : (s.step i).1.authInFlight = false := by
        by_contra hset
        rcases authInFlight_step (by simpa using hset) with hbefore | hlogin
        · simp [hfree] at hbefore
        · exact hattempt (.inr hlogin)
      have herror : ∀ {b : Brain}, s.brain = some b →
          b.phase = .error ∧ b.nextAuthAt = some due := by
        intro b hb
        rw [retryState, hb] at hstate
        have hbrain : b.retryState = ⟨.error, some due, count⟩ := Option.some.inj hstate
        simp only [Brain.retryState, RetryState.mk.injEq] at hbrain
        exact ⟨hbrain.1, hbrain.2.1⟩
      generalize hpost : (s.step i).1.retryState = o at hretried
      cases hretried with
      | kept _ => exact .waits hstill (hpost.trans hstate)
      | died _ => exact .gone (Option.map_eq_none_iff.mp hpost)
      | replied _ hwait _ _ => simp [hfree] at hwait
      | refused _ hlive hfrom _ _ _ => exact absurd (herror hlive).1 hfrom
      | moved _ hlive _ hleft =>
          obtain ⟨hphase, hnext⟩ := herror hlive
          rcases hleft hphase with hdue | hreleased
          · exact .passed (by simpa [hnext] using hdue)
          · exact absurd hreleased hkept

/-- The failed login itself sends nothing and starts the wait. -/
theorem holdsOff_of_failure {past : List Record} (hcounts : Counts past s)
    (hend : s.loginEnded i = some false) :
    (s.step i).2.effects = [] ∧
      HoldsOff (i.now / 1000 + retryDelay (failures (past ++ [Machine.stepAt step s i])))
        i.now (s.step i).1 := by
  have hretried := s.step_retried i
  have hsnoc := failures_snoc past (Machine.stepAt step s i)
  simp only [Machine.stepAt_pre, Machine.stepAt_input, hend] at hsnoc
  rw [hsnoc]
  generalize hpost : (s.step i).1.retryState = o at hretried
  cases hretried with
  | kept hnone | died hnone | moved hnone _ _ _ => simp [hend] at hnone
  | @replied ok msg hended _ hclear hquiet =>
      refine ⟨hquiet, ?_⟩
      have hok : ok = false := by simpa [hend] using hended.symm
      cases hb : s.brain with
      | none =>
          have hnone : (s.step i).1.retryState = none := by
            rw [hpost, hb]
            rfl
          exact .gone (Option.map_eq_none_iff.mp hnone)
      | some b =>
          have hcount : b.authFailCount = _ := hcounts b.retryState (by simp [retryState, hb])
          apply HoldsOff.waits hclear
          rw [hpost, hb, hok, Option.map_some, onAuth_failed, retryDelay_eq hcount]
  | @refused b b' msg _ hlive _ hfree hsame hquiet =>
      refine ⟨hquiet, ?_⟩
      have hcount : b.authFailCount = _ := hcounts b.retryState (by simp [retryState, hlive])
      have hclear : (s.step i).1.authInFlight = false := by
        by_contra hset
        rcases authInFlight_step (by simpa using hset) with hbefore | ⟨src, timeout, hmem⟩
        · simp [hfree] at hbefore
        · simp [hquiet] at hmem
      apply HoldsOff.waits hclear
      rw [hpost, onAuth_failed, retryDelay_eq (hsame.trans hcount)]

/-- **Login retries are spaced.** After the `k`-th failure in a row no
association and no login is sent before the `k`-th delay is over, unless the
WLAN is released in between. -/
theorem login_retries_spaced (cfg : Config) (is : List Input)
    (hclock : Machine.NonDecreasing Input.now is) (past : List Record) (failed : Record)
    (later : List Record) (hsplit : history cfg is = past ++ failed :: later)
    (hfailed : failed.pre.loginEnded failed.input = some false) :
    ¬ SendsAttempt failed ∧
    ∀ mid r rest, later = mid ++ r :: rest → SendsAttempt r →
      (∀ q ∈ mid, .disassociate ∉ q.out.effects) →
      failed.input.now / 1000 + retryDelay (failures (past ++ [failed])) ≤
        r.input.now / 1000 := by
  obtain ⟨xs, i, ys, rfl, rfl, rfl, rfl⟩ := history_split hsplit
  replace hfailed : (after cfg xs).loginEnded i = some false := hfailed
  obtain ⟨hquiet, hstart⟩ := holdsOff_of_failure (counts_history cfg xs) hfailed
  refine ⟨?_, ?_⟩
  · rintro (⟨profile, hmem⟩ | ⟨src, timeout, hmem⟩)
    · simp [hquiet] at hmem
    · simp [hquiet] at hmem
  · intro mid r rest hlater hattempt hkept
    obtain ⟨us, j, vs, rfl, rfl, rfl, -⟩ := Machine.trace_split hlater
    obtain ⟨hi, hclock⟩ := List.pairwise_cons.mp hclock.of_append_right
    obtain ⟨hus, -, hj⟩ := List.pairwise_append.mp hclock
    -- carry the wait to the state that sends the attempt
    have hheld := Machine.timed_induction Input.now
      (A := fun q => .disassociate ∉ q.out.effects)
      (fun ht h => h.mono ht) (fun ht h hok => h.step ht hok) hstart hus hkept
      (fun k hk => hi k (List.mem_append_left _ hk)) (fun k hk => hj k hk j (by simp))
      (hi j (by simp))
    exact hheld.due_of_attempt (Nat.le_refl _) hattempt

end Retry

/-- The portal does not answer the first login. -/
def noReply : Input := ⟨3000, 3, .portalFinished .noReply⟩

/-- The first sample at which the retry is due. -/
def retryInput : Input := ⟨8010, 8, .wirelessSampled campusSample⟩

def retryRun : List Input := loginRun ++ noReply :: ([⟨4000, 4, .wake⟩] ++ [retryInput])

theorem login_retries_spaced_first_retry :
    .associate standbyCfg.wireless.profile ∈ (@step replyJson (@after replyJson standbyCfg
      (loginRun ++ [noReply, ⟨4000, 4, .wake⟩])) retryInput).2.effects ∧
    noReply.now / 1000 + retryDelay (@failures replyJson (@history replyJson standbyCfg
      (loginRun ++ [noReply]))) ≤ retryInput.now / 1000 := by
  have hretry : .associate standbyCfg.wireless.profile ∈
      (@step replyJson (@after replyJson standbyCfg (loginRun ++ [noReply, ⟨4000, 4, .wake⟩]))
        retryInput).2.effects := by
    decide
  refine ⟨hretry, ?_⟩
  exact (@login_retries_spaced replyJson standbyCfg retryRun
    (by simp [Machine.NonDecreasing, retryRun, loginRun, joinRun, loginInput, noReply, retryInput])
    (@history replyJson standbyCfg loginRun)
    (Machine.stepAt (@step replyJson) (@after replyJson standbyCfg loginRun) noReply) _ rfl
    (by decide)).2
    [Machine.stepAt (@step replyJson) (@after replyJson standbyCfg (loginRun ++ [noReply]))
      ⟨4000, 4, .wake⟩]
    (Machine.stepAt (@step replyJson) (@after replyJson standbyCfg
      (loginRun ++ [noReply, ⟨4000, 4, .wake⟩])) retryInput) [] rfl
    (.inl ⟨_, hretry⟩) (by decide)

end Supervisor

end GdutNet
