import GdutNet.Supervisor.Core

/-!
# What a reaction sends

The lists of effects, handler by handler. Whatever counts the effects of a step
is a case analysis over `Emits`; it does not unfold the handlers again. For the
handlers of the wired guard, whose states later modules look at from several
sides, the fields they write are listed as well.
-/

namespace GdutNet.Supervisor

/-- The effects of a decision. -/
inductive Carried : List Effect → Prop
  | nothing : Carried []
  | associate (profile : String) : Carried [.associate profile]
  | release : Carried [.teardownRoutes, .disassociate]
  | login (endpoint : WlanEndpoint) (ip : Ipv4Addr) :
      Carried [.acquireWirelessEgress endpoint, .settle routeSettle,
        .portalAuth ip portalAuthTimeout]
  | probe (ip : Ipv4Addr) (gateway : Option Ipv4Addr) (url : String) :
      Carried [.wlanProbe ip gateway url]

/-- The effects of `update_metric`. -/
inductive Pressed : List Effect → Prop
  | nothing : Pressed []
  | suppress (ifindex metric : ℕ) : Pressed [.suppressMetric ifindex metric]
  | release : Pressed [.releaseMetric]

/-- The effects of a running supervisor's reaction to an event. -/
inductive Emits (s : Supervisor) : Event → List Effect → Prop
  | nothing {event : Event} : Emits s event []
  | wake {link wlan : List Effect} (hlink : link = [] ∨ link = [.sampleLink])
      (hwlan : wlan = [] ∨ wlan = [.sampleWireless]) : Emits s .wake (link ++ wlan)
  | redial : Emits s (.command .redial) [.requestRedial, .stepWatchdog]
  | setMode (mode : NetMode) : Emits s (.command (.setMode mode)) [.persistMode mode]
  | link {up next : Option Bool} {pppIp : Option String} {steps : List Effect}
      (hsteps : steps = [] ∨ steps = [.stepWatchdog]) :
      Emits s (.linkSampled up pppIp) (.setWatchdogLink next :: steps)
  | restored {up next : Option Bool} {pppIp : Option String} :
      Emits s (.linkSampled up pppIp) [.setWatchdogLink next, .requestRedial, .stepWatchdog]
  | pending {up : Option Bool} {pppIp : Option String} :
      Emits s (.linkSampled up pppIp) [.stepWatchdog]
  | failing {step : WatchdogStep} {key : ToastKey} {title body : String} :
      Emits s (.watchdogStepped step) [.notify key title body]
  | heartbeat {status : HeartbeatStatus} {key : ToastKey} {title body : String} :
      Emits s (.heartbeat status) [.notify key title body]
  | sample {sample : WirelessSample} {carried pressed : List Effect}
      (hflight : s.wirelessSampleInFlight = true) (hlive : s.brain.isSome = true)
      (hcarried : Carried carried) (hpressed : Pressed pressed) :
      Emits s (.wirelessSampled sample) (carried ++ pressed)
  | stop : Emits s .stop [.hangup]
  | stopWireless : Emits s .stop [.hangup, .teardownRoutes, .disassociate]

theorem handleStarted_effects (s : Supervisor) (now wall : ℕ) :
    (s.handleStarted now wall).2 = [.cleanupStaleRoutes, .sampleWireless] ∨
      (s.handleStarted now wall).2 = [] := by
  unfold handleStarted
  dsimp only
  split
  · exact .inl rfl
  · exact .inr rfl

theorem pollLink_effects (s : Supervisor) (now : ℕ) :
    (s.pollLink now).2 = [] ∨ (s.pollLink now).2 = [.sampleLink] := by
  unfold pollLink
  split
  · split
    · exact .inr rfl
    · split <;> exact .inl rfl
  · exact .inl rfl

theorem wakeWireless_effects (s : Supervisor) (now : ℕ) :
    (s.wakeWireless now).2 = [] ∨ (s.wakeWireless now).2 = [.sampleWireless] := by
  unfold wakeWireless
  split
  · split
    · exact .inr rfl
    · exact .inl rfl
  · exact .inl rfl

theorem handleWake_emits (s : Supervisor) (now : ℕ) : s.Emits .wake (s.handleWake now).2 :=
  .wake (pollLink_effects _ now) (wakeWireless_effects _ now)

theorem handleWake_writes (s : Supervisor) (now : ℕ) :
    ∃ deadline pending sample poll wlan tick, (s.handleWake now).1 =
      { s with
        watchdogDeadline := deadline, stepPending := pending, sampleInFlight := sample
        linkPollAt := poll, wirelessSampleInFlight := wlan, wirelessTickAt := tick } := by
  have hexpire : ∃ deadline pending, s.expireDeadline now =
      { s with watchdogDeadline := deadline, stepPending := pending } := by
    unfold expireDeadline
    split
    · exact ⟨_, _, rfl⟩
    · exact ⟨_, _, rfl⟩
  have hpoll : ∀ t : Supervisor, ∃ sample poll, (t.pollLink now).1 =
      { t with sampleInFlight := sample, linkPollAt := poll } := by
    intro t
    unfold pollLink
    split
    · split
      · exact ⟨_, _, rfl⟩
      · split <;> exact ⟨_, _, rfl⟩
    · exact ⟨_, _, rfl⟩
  have htick : ∀ t : Supervisor, ∃ wlan tick, (t.wakeWireless now).1 =
      { t with wirelessSampleInFlight := wlan, wirelessTickAt := tick } := by
    intro t
    unfold wakeWireless
    split
    · split
      · exact ⟨_, _, rfl⟩
      · exact ⟨_, _, rfl⟩
    · exact ⟨_, _, rfl⟩
  obtain ⟨deadline, pending, he⟩ := hexpire
  obtain ⟨sample, poll, hp⟩ := hpoll (s.expireDeadline now)
  obtain ⟨wlan, tick, ht⟩ := htick (s.wakeWired now).1
  refine ⟨deadline, pending, sample, poll, wlan, tick, ?_⟩
  change ((s.wakeWired now).1.wakeWireless now).1 = _
  rw [ht, wakeWired, hp, he]

/-- A restored link steps the watchdog itself and drops the pending step. -/
theorem handleLinkSampled_emits (s : Supervisor) (up : Option Bool) (pppIp : Option String)
    (now wall : ℕ) :
    s.Emits (.linkSampled up pppIp) (s.handleLinkSampled up pppIp now wall).2 := by
  unfold handleLinkSampled applyLink
  dsimp only
  split
  · exact .nothing
  · split
    · split
      · split
        · exact .link (.inr rfl)
        · exact .link (.inl rfl)
      · split
        · exact .restored
        · split
          · exact .link (.inr rfl)
          · exact .link (.inl rfl)
    · split
      · exact .pending
      · exact .nothing

/-- The sample is no longer in flight, taken or not. -/
theorem handleLinkSampled_writes (s : Supervisor) (up : Option Bool) (pppIp : Option String)
    (now wall : ℕ) :
    ∃ link seen pending deadline poll ip log, (s.handleLinkSampled up pppIp now wall).1 =
      { s with
        ethLink := link, linkSampleSeen := seen, sampleInFlight := false, stepPending := pending
        watchdogDeadline := deadline, linkPollAt := poll, pppIp := ip, events := log } := by
  have happly : ∀ (t : Supervisor) (next : Option Bool),
      ∃ link pending deadline poll log, (t.applyLink next now wall).1 =
        { t with
          ethLink := link, stepPending := pending, watchdogDeadline := deadline
          linkPollAt := poll, events := log } := by
    intro t next
    unfold applyLink
    dsimp only
    split
    · split
      · exact ⟨_, _, _, _, _, rfl⟩
      · split <;> exact ⟨_, _, _, _, _, rfl⟩
    · exact ⟨_, _, _, _, _, rfl⟩
  unfold handleLinkSampled
  split
  · rename_i hidle
    have hfree : s.sampleInFlight = false := by simpa using hidle
    refine ⟨s.ethLink, s.linkSampleSeen, s.stepPending, s.watchdogDeadline, s.linkPollAt, s.pppIp,
      s.events, ?_⟩
    rw [← hfree]
  · obtain ⟨link, pending, deadline, poll, log, h⟩ := happly
      { s with sampleInFlight := false, pppIp, linkSampleSeen := true } (s.nextLink up)
    dsimp only
    split
    · exact ⟨link, true, false, deadline, poll, pppIp, log, by rw [h]⟩
    · exact ⟨link, true, pending, deadline, poll, pppIp, log, h⟩

theorem maybeNotify_effects (l : NotificationLedger) (key : ToastKey) (title body : String)
    (now : ℕ) :
    (l.maybeNotify key title body now).2 = [] ∨
      (l.maybeNotify key title body now).2 = [.notify key title body] := by
  unfold NotificationLedger.maybeNotify
  split
  · exact .inl rfl
  · exact .inr rfl

theorem handleWatchdogStepped_emits (s : Supervisor) (step : WatchdogStep) (now : ℕ) :
    s.Emits (.watchdogStepped step) (s.handleWatchdogStepped step now).2 := by
  have hnotify : ∀ (l : NotificationLedger) (key : ToastKey) (title body : String),
      s.Emits (.watchdogStepped step) (l.maybeNotify key title body now).2 := by
    intro l key title body
    rcases maybeNotify_effects l key title body now with h | h
    · rw [h]
      exact .nothing
    · rw [h]
      exact .failing
  unfold handleWatchdogStepped
  dsimp only
  split
  · split
    · exact hnotify _ _ _ _
    · exact .nothing
  · split
    · exact hnotify _ _ _ _
    · exact .nothing
  · exact .nothing
  · exact .nothing
  · exact .nothing

theorem handleWatchdogStepped_writes (s : Supervisor) (step : WatchdogStep) (now : ℕ) :
    ∃ failing ledger, (s.handleWatchdogStepped step now).1 =
      { s with
        session := step.session, pppIp := step.pppIp, stepPending := false
        watchdogDeadline := some (satAdd now (durationMs step.delay))
        failingSinceMs := failing, notifications := ledger } := by
  unfold handleWatchdogStepped
  dsimp only
  split
  · split
    · exact ⟨_, _, rfl⟩
    · exact ⟨_, _, rfl⟩
  · split
    · exact ⟨_, _, rfl⟩
    · exact ⟨_, _, rfl⟩
  · exact ⟨_, _, rfl⟩
  · exact ⟨_, _, rfl⟩
  · exact ⟨_, _, rfl⟩

theorem handleHeartbeat_emits (s : Supervisor) (status : HeartbeatStatus) (now : ℕ) :
    s.Emits (.heartbeat status) (s.handleHeartbeat status now).2 := by
  cases status with
  | error e =>
      rcases maybeNotify_effects s.notifications .heartbeatError "gdut-net heartbeat error"
        ("Compatibility heartbeat error: " ++ e) now with h | h
      · exact h ▸ .nothing
      · exact h ▸ .heartbeat
  | off => exact .nothing
  | running => exact .nothing

theorem handleAction_carried (s : Supervisor) (action : Action) (nowSecs wall : ℕ) :
    Carried (s.handleAction action nowSecs wall).2.1 := by
  unfold handleAction
  split
  · exact .nothing
  · split
    · exact .nothing
    · exact .associate _
  · exact .release
  · split
    · exact .nothing
    · split
      · exact .nothing
      · split
        · exact .nothing
        · split
          · exact .nothing
          · exact .login _ _
  · split
    · exact .nothing
    · split
      · exact .nothing
      · exact .probe _ _ _

theorem updateMetric_pressed (s : Supervisor) : Pressed s.updateMetric := by
  unfold updateMetric
  split
  · exact .nothing
  · dsimp only
    cases s.mode with
    | wiredPlusStandby => exact .suppress _ _
    | wiredExclusive =>
        cases (s.ethLink = some true && s.session.status = .connected : Bool) with
        | true => exact .release
        | false => exact .suppress _ _

theorem handleWirelessSampled_emits (s : Supervisor) (sample : WirelessSample) (now wall : ℕ) :
    s.Emits (.wirelessSampled sample) (s.handleWirelessSampled sample now wall).2 := by
  unfold handleWirelessSampled
  split
  · exact .nothing
  · rename_i hflight
    split
    · exact .nothing
    · rename_i brain hlive
      have hflight' : s.wirelessSampleInFlight = true := by simpa using hflight
      have hlive' : s.brain.isSome = true := by simp [hlive]
      unfold decideSample
      dsimp only
      split
      · exact .sample hflight' hlive' (handleAction_carried _ _ _ _) (updateMetric_pressed _)
      · rw [← List.append_nil (handleAction _ _ _ _).2.1]
        exact .sample hflight' hlive' (handleAction_carried _ _ _ _) .nothing

/-- **What a running supervisor can send**, event by event. -/
theorem handleAction_writes (s : Supervisor) (action : Action) (nowSecs wall : ℕ) :
    ∃ log brain verdict join associating authing probing,
      (s.handleAction action nowSecs wall).1 =
        { s with
          events := log, brain, verdict, joinSinceMs := join
          associateInFlight := associating, authInFlight := authing
          probeInFlight := probing } := by
  unfold handleAction
  split
  · exact ⟨_, _, _, _, _, _, _, rfl⟩
  · split
    · exact ⟨_, _, _, _, _, _, _, rfl⟩
    · exact ⟨_, _, _, _, _, _, _, rfl⟩
  · exact ⟨_, _, _, _, _, _, _, rfl⟩
  · split
    · exact ⟨_, _, _, _, _, _, _, rfl⟩
    · split
      · exact ⟨_, _, _, _, _, _, _, rfl⟩
      · split
        · exact ⟨_, _, _, _, _, _, _, rfl⟩
        · split
          · exact ⟨_, _, _, _, _, _, _, rfl⟩
          · exact ⟨_, _, _, _, _, _, _, rfl⟩
  · split
    · exact ⟨_, _, _, _, _, _, _, rfl⟩
    · split
      · exact ⟨_, _, _, _, _, _, _, rfl⟩
      · exact ⟨_, _, _, _, _, _, _, rfl⟩

theorem handleWirelessSampled_writes (s : Supervisor) (sample : WirelessSample) (now wall : ℕ) :
    ∃ log brain verdict join associating authing probing sampling wlan ip,
      (s.handleWirelessSampled sample now wall).1 =
        { s with
          events := log, brain, verdict, joinSinceMs := join
          associateInFlight := associating, authInFlight := authing
          probeInFlight := probing, wirelessSampleInFlight := sampling
          wlan, wirelessIp := ip } := by
  unfold handleWirelessSampled decideSample
  split
  · exact ⟨_, _, _, _, _, _, _, _, _, _, rfl⟩
  · split
    · exact ⟨_, _, _, _, _, _, _, _, _, _, rfl⟩
    · rename_i brain _
      dsimp only
      obtain ⟨log, brain', verdict, join, associating, authing, probing, hact⟩ :=
        handleAction_writes (s.observed sample ((brain.setMode s.mode).decide (s.world sample now)).1)
          ((brain.setMode s.mode).decide (s.world sample now)).2 (now / 1000) wall
      rw [hact]
      split
      · unfold joinTimeout
        split
        · exact ⟨_, _, _, _, _, _, _, _, _, _, rfl⟩
        · exact ⟨_, _, _, _, _, _, _, _, _, _, rfl⟩
      · exact ⟨_, _, _, _, _, _, _, _, _, _, rfl⟩

theorem handle_emits [SerdeJson] (s : Supervisor) (now wall : ℕ) (event : Event) :
    s.Emits event (s.handle now wall event).2 := by
  cases event with
  | wake => exact s.handleWake_emits now
  | command cmd =>
      cases cmd with
      | redial => exact .redial
      | setMode mode => exact .setMode mode
  | linkSampled up pppIp => exact s.handleLinkSampled_emits up pppIp now wall
  | watchdogStepped step => exact s.handleWatchdogStepped_emits step now
  | wirelessSampled sample => exact s.handleWirelessSampled_emits sample now wall
  | heartbeat status => exact s.handleHeartbeat_emits status now
  | stop =>
      simp only [handle, handleStop]
      split
      · exact .stopWireless
      · exact .stop
  | _ => exact .nothing

end GdutNet.Supervisor
