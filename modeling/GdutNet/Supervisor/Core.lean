import GdutNet.Machine.Trace
import GdutNet.Supervisor.Events
import GdutNet.Wireless.Brain

/-!
# The supervisor

`Supervisor::on`: one event in, one reaction out, no clock and no I/O of its
own. Handlers return the new state and the effects they emit, in order; the
two clock readings are arguments. Log lines are not part of the model.
-/

namespace GdutNet

def linkPollMs : ℕ := 2000
def wirelessTickMs : ℕ := 2000
def sampleRetryMs : ℕ := 2000
def portalAuthTimeout : Duration := loginTimeout
def redialFailingToastAfterMs : ℕ := 10 * 60 * 1000

structure Supervisor where
  cfg : Config
  started : Bool := false
  stopped : Bool := false
  mode : NetMode
  events : EventLog := {}
  lastSnapshot : Option StateSnapshot := none
  -- the wired guard
  ethLink : Option Bool := none
  linkSampleSeen : Bool := false
  sampleInFlight : Bool := false
  stepPending : Bool := false
  watchdogDeadline : Option ℕ := none
  linkPollAt : ℕ := u64Max
  session : SessionView := ⟨.idle, none, none, 0⟩
  pppIp : Option String := none
  heartbeat : HeartbeatStatus := .off
  failingSinceMs : Option ℕ := none
  notifications : NotificationLedger := {}
  -- the wireless takeover
  brain : Option Brain := none
  wirelessDied : Bool := false
  wirelessStoppedReported : Bool := false
  wirelessSampleInFlight : Bool := false
  wirelessTickAt : ℕ := u64Max
  wlan : Option WlanSample := none
  wirelessIp : Option String := none
  verdict : Option ProbeVerdict := none
  associateInFlight : Bool := false
  authInFlight : Bool := false
  probeInFlight : Bool := false
  joinSinceMs : Option ℕ := none
  portalIp : Option Ipv4Addr := none
  probeIp : Option Ipv4Addr := none

def modeText : NetMode → String
  | .wiredExclusive => "wired-exclusive"
  | .wiredPlusStandby => "wired-plus-standby"

/-- `Duration` to milliseconds, saturating. -/
def durationMs (d : Duration) : ℕ := min d.asMillis u64Max

/-- Whether a login attempt succeeded, and the text that goes to the user. -/
def portalOutcome [SerdeJson] : PortalAttempt → Bool × String
  | .replied status body =>
      match parsePortalReply body with
      | .success => (true, "login ok")
      | .alreadyOnline => (true, "already online")
      | .failure m => (false, m)
      | .malformed => (false, "unparseable reply (HTTP " ++ toString status ++ ")")
  | .noReply => (false, "no reply")
  | .timedOut => (false, "portal auth timeout")
  | .failed m => (false, m)

namespace Supervisor

/-- The wireless side exists if it is enabled and both of its targets parse. -/
def new (cfg : Config) : Supervisor :=
  let s : Supervisor := { cfg, mode := cfg.wireless.mode }
  if cfg.wireless.enabled then
    match parseHttpProbeTarget cfg.wireless.portalUrl,
        parseIpv4 cfg.wireless.probeHost.toList with
    | some (portalIp, _), some probeIp =>
        { s with
          brain := some (Brain.new s.mode cfg.wireless.takeoverAfterSecs
            cfg.wireless.releaseAfterSecs cfg.dial.probeIntervalSecs)
          portalIp := some portalIp
          probeIp := some probeIp }
    | _, _ => s
  else s

def pushEvent (s : Supervisor) (wall : ℕ) (msg : String) : Supervisor :=
  { s with events := s.events.push wall msg }

/-! ## Snapshots and timers -/

def compose (s : Supervisor) : StateSnapshot :=
  { status := s.session.status
    sinceUnix := s.session.sinceUnix
    ip := s.pppIp
    lastDropReason := s.session.lastDropReason
    redialAttempts := s.session.redialAttempts
    heartbeat := s.heartbeat
    mode := s.mode
    wireless := match s.brain with
      | some b => { b.snapshot with ip := s.wirelessIp }
      | none => {}
    events := s.events.ring }

/-- Publish the composed snapshot if it differs from the last one. -/
def publish (s : Supervisor) : Supervisor × Option StateSnapshot :=
  if s.lastSnapshot = some s.compose then (s, none)
  else ({ s with lastSnapshot := some s.compose }, some s.compose)

def nextWake (s : Supervisor) (now : ℕ) : ℕ :=
  let next := match s.watchdogDeadline with
    | some deadline => min s.linkPollAt deadline
    | none => s.linkPollAt
  let next := if s.brain.isSome then min next s.wirelessTickAt else next
  max next now

/-! ## The wired guard -/

def handleStarted (s : Supervisor) (now wall : ℕ) : Supervisor × List Effect :=
  let s := { s with started := true }
  let s := s.pushEvent wall ("Service started, mode " ++ modeText s.mode)
  let s := { s with watchdogDeadline := some now, linkPollAt := now }
  if s.brain.isSome then
    ({ s with wirelessSampleInFlight := true, wirelessTickAt := now + wirelessTickMs },
      [.cleanupStaleRoutes, .sampleWireless])
  else (s, [])

/-- A due deadline becomes a pending step, which waits for a fresh link sample. -/
def expireDeadline (s : Supervisor) (now : ℕ) : Supervisor :=
  if s.watchdogDeadline.any (· ≤ now) then
    { s with watchdogDeadline := none, stepPending := true }
  else s

/-- A missing result only moves the timer: nothing is sent twice. -/
def pollLink (s : Supervisor) (now : ℕ) : Supervisor × List Effect :=
  if s.stepPending || s.linkPollAt ≤ now then
    if !s.sampleInFlight then
      ({ s with sampleInFlight := true, linkPollAt := now + linkPollMs }, [.sampleLink])
    else if s.linkPollAt ≤ now then ({ s with linkPollAt := now + sampleRetryMs }, [])
    else (s, [])
  else (s, [])

/-- Part (a) of `handle_wake`. -/
def wakeWired (s : Supervisor) (now : ℕ) : Supervisor × List Effect :=
  (s.expireDeadline now).pollLink now

/-- Part (b) of `handle_wake`: the absolute wireless tick. -/
def wakeWireless (s : Supervisor) (now : ℕ) : Supervisor × List Effect :=
  if s.brain.isSome && s.wirelessTickAt ≤ now then
    if !s.wirelessSampleInFlight then
      ({ s with wirelessSampleInFlight := true, wirelessTickAt := now + wirelessTickMs },
        [.sampleWireless])
    else ({ s with wirelessTickAt := now + wirelessTickMs }, [])
  else (s, [])

def handleWake (s : Supervisor) (now : ℕ) : Supervisor × List Effect :=
  let (s, wired) := s.wakeWired now
  let (s, wireless) := s.wakeWireless now
  (s, wired ++ wireless)

def handleCommand (s : Supervisor) (cmd : Command) (wall : ℕ) :
    Supervisor × List Effect :=
  match cmd with
  | .redial => ({ s with watchdogDeadline := none }, [.requestRedial, .stepWatchdog])
  | .setMode mode =>
      let s := { s with mode, brain := s.brain.map (Brain.setMode · mode) }
      (s.pushEvent wall ("Mode switched to " ++ modeText mode), [.persistMode mode])

/-- A known link state is only overwritten by `Some`; the first sample may be
`None`. -/
def nextLink (s : Supervisor) (up : Option Bool) : Option Bool :=
  if s.linkSampleSeen then up.or s.ethLink else up

/-- The edges of the link; every branch re-arms the poll. -/
def applyLink (s : Supervisor) (next : Option Bool) (now wall : ℕ) :
    Supervisor × List Effect :=
  let old := s.ethLink
  if next ≠ old then
    let s := { s with ethLink := next }
    if next = some false then
      ({ s with linkPollAt := now + linkPollMs }, [.setWatchdogLink next])
    else if old = some false then
      let s := s.pushEvent wall "Ethernet link restored, redialing"
      ({ s with watchdogDeadline := none, stepPending := false
                linkPollAt := now + linkPollMs },
        [.setWatchdogLink next, .requestRedial, .stepWatchdog])
    else ({ s with linkPollAt := now + linkPollMs }, [.setWatchdogLink next])
  else ({ s with linkPollAt := now + linkPollMs }, [])

/-- An unsolicited result is dropped; a pending step runs on the fresh sample. -/
def handleLinkSampled (s : Supervisor) (up : Option Bool) (pppIp : Option String)
    (now wall : ℕ) : Supervisor × List Effect :=
  if !s.sampleInFlight then (s, [])
  else
    let next := s.nextLink up
    let s := { s with sampleInFlight := false, pppIp, linkSampleSeen := true }
    let (s, effects) := s.applyLink next now wall
    if s.stepPending then ({ s with stepPending := false }, effects ++ [.stepWatchdog])
    else (s, effects)

def redialFailingBody (minutes attempts : ℕ) : String :=
  "Redial failed for " ++ toString minutes ++ " minutes (" ++ toString attempts ++
    " attempts), check network or credentials"

def handleWatchdogStepped (s : Supervisor) (step : WatchdogStep) (now : ℕ) :
    Supervisor × List Effect :=
  let s := { s with session := step.session, pppIp := step.pppIp, stepPending := false
                    watchdogDeadline := some (satAdd now (durationMs step.delay)) }
  match s.session.status with
  | .backoff | .authFail =>
      let since := s.failingSinceMs.getD now
      let s := { s with failingSinceMs := some since }
      let linkPaused := s.ethLink = some false ||
        s.session.lastDropReason = some "Ethernet link down"
      if redialFailingToastAfterMs ≤ now - since && !linkPaused then
        let (notifications, effects) := s.notifications.maybeNotify .redialFailing
          "gdut-net network error"
          (redialFailingBody ((now - since) / 60000) s.session.redialAttempts) now
        ({ s with notifications }, effects)
      else (s, [])
  | .connected => ({ s with failingSinceMs := none }, [])
  | .idle | .dialing => (s, [])

def handleHeartbeat (s : Supervisor) (status : HeartbeatStatus) (now : ℕ) :
    Supervisor × List Effect :=
  let (notifications, effects) := match status with
    | .error e => s.notifications.maybeNotify .heartbeatError "gdut-net heartbeat error"
        ("Compatibility heartbeat error: " ++ e) now
    | _ => (s.notifications, [])
  ({ s with notifications, heartbeat := status }, effects)

/-! ## The wireless takeover -/

/-- Carry out a decision. `false` skips the metric and the join timeout. -/
def handleAction (s : Supervisor) (action : Action) (nowSecs wall : ℕ) :
    Supervisor × List Effect × Bool :=
  match action with
  | .none => (s, [], true)
  | .associate =>
      if s.associateInFlight then (s, [], true)
      else
        let s := s.pushEvent wall "Wireless: associating to campus SSID"
        ({ s with associateInFlight := true }, [.associate s.cfg.wireless.profile], true)
  | .disassociate =>
      let s := s.pushEvent wall "Wireless: releasing (wired healthy)"
      ({ s with verdict := none, joinSinceMs := none },
        [.teardownRoutes, .disassociate], true)
  | .portalAuth =>
      if s.authInFlight then (s, [], true)
      else match s.wlan with
        | none =>
            ({ s with brain := s.brain.map (Brain.onAuth · false "wlan ip lost" nowSecs)
                      verdict := none }, [], false)
        | some wlan =>
            match wlan.gateway with
            | none =>
                ({ s with brain := s.brain.map (Brain.onAuth · false "wlan gateway missing" nowSecs)
                          verdict := none }, [], false)
            | some gateway =>
                if s.portalIp.isNone || s.probeIp.isNone then (s, [], true)
                else
                  ({ s with authInFlight := true },
                    [.acquireWirelessEgress ⟨gateway, wlan.ifindex⟩, .settle routeSettle,
                      .portalAuth wlan.ipv4 portalAuthTimeout], true)
  | .probeNow =>
      if s.probeInFlight then (s, [], true)
      else match s.wlan with
        | none => (s, [], false)
        | some wlan =>
            ({ s with probeInFlight := true },
              [.wlanProbe wlan.ipv4 wlan.gateway
                ("http://" ++ s.cfg.wireless.probeHost ++ "/")], true)

/-- The metric is sent again at every tick; the adapter drops repetitions. -/
def updateMetric (s : Supervisor) : List Effect :=
  match s.wlan with
  | none => []
  | some wlan =>
      let wiredHealthy := s.ethLink = some true && s.session.status = .connected
      let takeoverActive := s.mode = .wiredExclusive && !wiredHealthy
      (if s.mode = .wiredPlusStandby || takeoverActive then
        [.suppressMetric wlan.ifindex s.cfg.wireless.standbyMetric] else []) ++
      (if s.mode = .wiredExclusive && wiredHealthy then [.releaseMetric] else [])

/-- The observation the brain decides on. -/
def world (s : Supervisor) (sample : WirelessSample) (now : ℕ) : World :=
  { now := now / 1000
    ethLinkUp := s.ethLink.getD false
    wiredConnected := s.session.status = .connected
    wlanAssociated := sample.associated
    wlanIp := sample.wlan.isSome
    probe := s.verdict }

def phase (s : Supervisor) : Option WPhase := s.brain.map (·.phase)

/-- The armed join timer has run out. -/
def joinExpired (s : Supervisor) (now : ℕ) : Bool :=
  s.joinSinceMs.any (fun t => joinTimeoutSecs * 1000 < now - t)

/-- The sample and the brain's decision on it are recorded. -/
def observed (s : Supervisor) (sample : WirelessSample) (brain : Brain) : Supervisor :=
  { s with wirelessSampleInFlight := false, wlan := sample.wlan
           wirelessIp := sample.wlan.map (fun a : WlanSample => a.ipv4.toText)
           brain := some brain }

/-- `handle_wireless_sampled` of a live brain, up to the join timeout. -/
def decideSample (s : Supervisor) (brain : Brain) (sample : WirelessSample)
    (now wall : ℕ) : Supervisor × List Effect × Bool :=
  let (brain, action) := (brain.setMode s.mode).decide (s.world sample now)
  let (s, effects, proceed) :=
    (s.observed sample brain).handleAction action (now / 1000) wall
  (s, if proceed then effects ++ s.updateMetric else effects, proceed)

/-- The armed join timer runs only in `Joining`. -/
def joinTimeout (s : Supervisor) (now wall : ℕ) : Supervisor :=
  if s.phase = some .joining && s.joinExpired now then
    let s := s.pushEvent wall "Wireless: join timeout, restarting"
    { s with brain := s.brain.map Brain.restart, joinSinceMs := none }
  else s

def handleWirelessSampled (s : Supervisor) (sample : WirelessSample)
    (now wall : ℕ) : Supervisor × List Effect :=
  if !s.wirelessSampleInFlight then (s, [])
  else match s.brain with
    | none => ({ s with wirelessSampleInFlight := false }, [])
    | some brain =>
        let (s, effects, proceed) := s.decideSample brain sample now wall
        (if proceed then s.joinTimeout now wall else s, effects)

def handleAssociateFinished (s : Supervisor) (now : ℕ) : Supervisor :=
  if !s.associateInFlight then s
  else { s with associateInFlight := false, joinSinceMs := some now }

def handleProbeFinished (s : Supervisor) (verdict : ProbeVerdict) (wall : ℕ) :
    Supervisor :=
  if !s.probeInFlight then s
  else
    let s := { s with probeInFlight := false, verdict := some verdict }
    if verdict ≠ .alive then s.pushEvent wall ("Wireless probe: " ++ verdict.debug)
    else s

def handleWirelessDied (s : Supervisor) (wall : ℕ) : Supervisor :=
  if !s.cfg.wireless.enabled then s
  else
    let s := if !s.wirelessStoppedReported then
        { s.pushEvent wall "Wireless: manager stopped" with wirelessStoppedReported := true }
      else s
    { s with brain := none, wirelessDied := true, wlan := none, wirelessIp := none
             verdict := none, wirelessSampleInFlight := false
             associateInFlight := false, authInFlight := false
             probeInFlight := false, joinSinceMs := none }

def handleStop (s : Supervisor) (wall : ℕ) : Supervisor × List Effect :=
  let s := { s with stopped := true }
  if s.cfg.wireless.enabled && !s.wirelessDied && s.brain.isSome then
    (if !s.wirelessStoppedReported then
        { s.pushEvent wall "Wireless: manager stopped" with wirelessStoppedReported := true }
      else s,
      [.hangup, .teardownRoutes, .disassociate])
  else (s, [.hangup])

/-! ## The reducer -/

variable [SerdeJson]

def handlePortalFinished (s : Supervisor) (attempt : PortalAttempt)
    (now wall : ℕ) : Supervisor :=
  if !s.authInFlight then s
  else
    let (ok, msg) := portalOutcome attempt
    let s := { s with authInFlight := false }
    let s := s.pushEvent wall
      (if ok then "Wireless: portal login success"
        else "Wireless: portal login failed: " ++ msg)
    { s with brain := s.brain.map (Brain.onAuth · ok msg (now / 1000)), verdict := none }

/-- Dispatch of a running supervisor. -/
def handle (s : Supervisor) (now wall : ℕ) : Event → Supervisor × List Effect
  | .started => (s, [])
  | .wake => s.handleWake now
  | .command cmd => s.handleCommand cmd wall
  | .linkSampled up pppIp => s.handleLinkSampled up pppIp now wall
  | .watchdogStepped step => s.handleWatchdogStepped step now
  | .wirelessSampled sample => s.handleWirelessSampled sample now wall
  | .associateFinished _ => (s.handleAssociateFinished now, [])
  | .portalFinished attempt => (s.handlePortalFinished attempt now wall, [])
  | .wlanProbeFinished verdict => (s.handleProbeFinished verdict wall, [])
  | .heartbeat status => s.handleHeartbeat status now
  | .notifyResult key delivered =>
      ({ s with notifications := s.notifications.onResult key delivered now }, [])
  | .wirelessDied => (s.handleWirelessDied wall, [])
  | .stop => s.handleStop wall

/-- The event reaches a handler: `Started` first, nothing after `Stop`. -/
def handled (s : Supervisor) (event : Event) : Bool :=
  if s.started then !s.stopped else event matches .started

/-- The state after the handler, before the snapshot is published, and the
effects. -/
def dispatch (s : Supervisor) (now wall : ℕ) (event : Event) :
    Supervisor × List Effect :=
  if !s.handled event then (s, [])
  else if s.started then s.handle now wall event
  else s.handleStarted now wall

def on (s : Supervisor) (now wall : ℕ) (event : Event) : Supervisor × Reaction :=
  let (s', effects) := s.dispatch now wall event
  let (s', snapshot) := if s.handled event then s'.publish else (s', none)
  let wakeAt := if s'.started && !s'.stopped then some (s'.nextWake now) else none
  (s', { effects, snapshot, wakeAt })

end Supervisor

/-! ## Runs -/

/-- One call of `Supervisor::on`: the two clock readings and the event. -/
structure Input where
  now : ℕ
  wall : ℕ
  event : Event

namespace Supervisor

variable [SerdeJson]

def step (s : Supervisor) (i : Input) : Supervisor × Reaction :=
  s.on i.now i.wall i.event

/-- A step of a run of the supervisor. -/
abbrev Record : Type := Machine.Step Supervisor Input Reaction

/-- The history of the service configured with `cfg` on the inputs `is`. -/
def history (cfg : Config) (is : List Input) : List Record :=
  Machine.trace step (new cfg) is

/-- The state that run ends in. -/
def after (cfg : Config) (is : List Input) : Supervisor :=
  Machine.final step (new cfg) is

theorem history_split {cfg : Config} {is : List Input} {past rest : List Record}
    {r : Record} (h : history cfg is = past ++ r :: rest) :
    ∃ xs i ys, is = xs ++ i :: ys ∧ past = history cfg xs ∧
      r = Machine.stepAt step (after cfg xs) i ∧
      rest = Machine.trace step ((after cfg xs).step i).1 ys :=
  Machine.trace_split h

/-- The input delivers `event` to its handler. -/
def Receives (s : Supervisor) (i : Input) (event : Event) : Prop :=
  i.event = event ∧ s.handled event = true

def Handles (r : Record) (event : Event) : Prop := r.pre.Receives r.input event

/-! ## One step, in terms of `dispatch`

Publishing only remembers the snapshot, so every other fact about a step is a
fact about `dispatch`. -/

theorem step_effects (s : Supervisor) (i : Input) :
    (s.step i).2.effects = (s.dispatch i.now i.wall i.event).2 := rfl

theorem step_wakeAt (s : Supervisor) (i : Input) :
    (s.step i).2.wakeAt =
      if (s.step i).1.started && !(s.step i).1.stopped then some ((s.step i).1.nextWake i.now)
      else none := rfl

theorem step_state (s : Supervisor) (i : Input) :
    ∃ snap, (s.step i).1 =
      { (s.dispatch i.now i.wall i.event).1 with lastSnapshot := snap } := by
  simp only [step, on]
  split
  · unfold publish
    split
    · exact ⟨_, rfl⟩
    · exact ⟨_, rfl⟩
  · exact ⟨_, rfl⟩

theorem dispatch_running {s : Supervisor} (hs : s.started = true)
    (hr : s.stopped = false) (now wall : ℕ) (event : Event) :
    s.dispatch now wall event = s.handle now wall event := by
  simp [dispatch, handled, hs, hr]

/-- The three ways an event is dealt with. -/
theorem dispatch_cases (s : Supervisor) (now wall : ℕ) (event : Event) :
    (s.handled event = false ∧ s.dispatch now wall event = (s, [])) ∨
    (s.started = false ∧ event = .started ∧
      s.dispatch now wall event = s.handleStarted now wall) ∨
    (s.started = true ∧ s.stopped = false ∧
      s.dispatch now wall event = s.handle now wall event) := by
  cases hs : s.started with
  | true =>
      cases hr : s.stopped with
      | true => exact .inl ⟨by simp [handled, hs, hr], by simp [dispatch, handled, hs, hr]⟩
      | false => exact .inr (.inr ⟨rfl, rfl, dispatch_running hs hr now wall event⟩)
  | false =>
      cases event with
      | started => exact .inr (.inl ⟨rfl, rfl, by simp [dispatch, handled, hs]⟩)
      | _ => exact .inl ⟨by simp [handled, hs], by simp [dispatch, handled, hs]⟩

/-- A delivered event other than `Started` runs its handler. -/
theorem step_of_receives {s : Supervisor} {i : Input} {event : Event}
    (h : s.Receives i event) (hne : event ≠ .started) :
    ∃ snap, s.step i =
      ({ (s.handle i.now i.wall event).1 with lastSnapshot := snap }, (s.step i).2) ∧
      (s.step i).2.effects = (s.handle i.now i.wall event).2 := by
  obtain ⟨rfl, hh⟩ := h
  obtain ⟨snap, hstate⟩ := s.step_state i
  have hd : s.dispatch i.now i.wall i.event = s.handle i.now i.wall i.event := by
    rcases s.dispatch_cases i.now i.wall i.event with ⟨hn, -⟩ | ⟨-, he, -⟩ | ⟨-, -, h⟩
    · simp [hh] at hn
    · exact absurd he hne
    · exact h
  rw [hd] at hstate
  exact ⟨snap, Prod.ext hstate rfl, by rw [step_effects, hd]⟩

end Supervisor

end GdutNet
