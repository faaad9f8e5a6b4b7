import GdutNet.Supervisor.Emits

/-!
# The wireless takeover as a machine of its own

`Takeover` is the share of the supervisor that the wireless side runs on: the
brain's phase, the requests in flight, the join timer and the cached verdict.
`Moved` lists everything one call of `Supervisor::on` can do to it, with the
guards, and `step_moved` says that the list is complete. The invariants below
and the claims about episodes are case analyses over `Moved`.
-/

namespace GdutNet

structure Takeover where
  phase : Option WPhase
  authBusy : Bool
  retryArmed : Bool
  routable : Bool
  wirelessSampleInFlight : Bool
  associateInFlight : Bool
  authInFlight : Bool
  probeInFlight : Bool
  joinSinceMs : Option ℕ
  verdict : Option ProbeVerdict
deriving DecidableEq, Repr

/-- Every phase that waits has something outstanding that moves it on. -/
structure Takeover.Alive (t : Takeover) : Prop where
  routable : t.phase.isSome → t.routable = true
  authing_iff : t.phase = some .authing ↔ t.authBusy = true
  authing : t.phase = some .authing → t.authInFlight = true
  joining : t.phase = some .joining → t.associateInFlight = true ∨ t.joinSinceMs.isSome
  error : t.phase = some .error → t.retryArmed = true

/-- The effects that carry an episode of the takeover. -/
def Effect.episode : Effect → Bool
  | .sampleWireless | .associate _ | .disassociate | .acquireWirelessEgress _ | .teardownRoutes
  | .settle _ | .portalAuth _ _ | .wlanProbe _ _ _ => true
  | _ => false

namespace Supervisor

def takeover (s : Supervisor) : Takeover :=
  { phase := s.phase
    authBusy := s.brain.any (·.authBusy)
    retryArmed := s.brain.any (·.nextAuthAt.isSome)
    routable := s.portalIp.isSome && s.probeIp.isSome
    wirelessSampleInFlight := s.wirelessSampleInFlight
    associateInFlight := s.associateInFlight
    authInFlight := s.authInFlight
    probeInFlight := s.probeInFlight
    joinSinceMs := s.joinSinceMs
    verdict := s.verdict }

/-- The sample is accepted and reaches a live brain. -/
structure Samples (s : Supervisor) (i : Input) (sample : WirelessSample)
    (brain : Brain) : Prop where
  received : s.Receives i (.wirelessSampled sample)
  awaited : s.wirelessSampleInFlight = true
  live : s.brain = some brain

/-- The sample that an input delivers to a live brain, with that brain. -/
def accepted (s : Supervisor) (i : Input) : Option (WirelessSample × Brain) :=
  match i.event with
  | .wirelessSampled sample =>
      if s.handled i.event && s.wirelessSampleInFlight then s.brain.map (sample, ·)
      else none
  | _ => none

theorem accepted_eq_some {s : Supervisor} {i : Input} {sample : WirelessSample}
    {brain : Brain} : s.accepted i = some (sample, brain) ↔ s.Samples i sample brain := by
  constructor
  · intro h
    unfold accepted at h
    split at h
    · rename_i sample' hevent
      split at h
      · rename_i hok
        rw [Bool.and_eq_true] at hok
        obtain ⟨b, hb, hpair⟩ := Option.map_eq_some_iff.mp h
        obtain ⟨rfl, rfl⟩ := Prod.mk.inj hpair
        exact ⟨⟨hevent, hevent ▸ hok.1⟩, hok.2, hb⟩
      · simp at h
    · simp at h
  · rintro ⟨⟨hevent, hhandled⟩, hwait, hlive⟩
    simp [accepted, hevent, hhandled, hwait, hlive]

/-- At most one sample and brain to look at. -/
instance (s : Supervisor) (i : Input) (P : WirelessSample → Brain → Prop)
    [∀ sample brain, Decidable (P sample brain)] :
    Decidable (∀ sample brain, s.Samples i sample brain → P sample brain) :=
  decidable_of_iff ((s.accepted i).all (fun p => P p.1 p.2) = true) (by
    simp only [Option.all_eq_true, decide_eq_true_eq, Prod.forall, accepted_eq_some])

/-- The brain as `decide` sees it. -/
def deciding (s : Supervisor) (brain : Brain) : Brain := brain.setMode s.mode

/-- A request already in flight is not sent again. -/
def associateEffects (s : Supervisor) : List Effect :=
  if s.associateInFlight then [] else [.associate s.cfg.wireless.profile]

theorem associate_mem {s : Supervisor} (h : s.associateInFlight = false) :
    .associate s.cfg.wireless.profile ∈ s.associateEffects := by
  simp [associateEffects, h]

/-- Everything one input can do to the takeover, with the episode effects it
emits. -/
inductive Moved [SerdeJson] (s : Supervisor) (i : Input) :
    Takeover → List Effect → Prop
  | still (hquiet : ∀ sample, s.Receives i (.wirelessSampled sample) →
        s.wirelessSampleInFlight = false) : Moved s i s.takeover []
  | stopped (hstop : s.Receives i .stop) :
      Moved s i s.takeover [.teardownRoutes, .disassociate]
  | died (hdied : s.Receives i .wirelessDied) :
      Moved s i
        ⟨none, false, false, s.takeover.routable, false, false, false, false, none, none⟩ []
  | associated {res : Except String Unit} (hres : s.Receives i (.associateFinished res))
      (hwait : s.associateInFlight = true) :
      Moved s i { s.takeover with
        associateInFlight := false, joinSinceMs := some i.now } []
  | replied {attempt : PortalAttempt} (hres : s.Receives i (.portalFinished attempt))
      (hwait : s.authInFlight = true) :
      Moved s i { s.takeover with
        phase := s.phase.map (fun _ => if (portalOutcome attempt).1 then .online else .error)
        authBusy := false, retryArmed := s.brain.isSome && !(portalOutcome attempt).1
        authInFlight := false, verdict := none } []
  | probed {verdict : ProbeVerdict} (hres : s.Receives i (.wlanProbeFinished verdict))
      (hwait : s.probeInFlight = true) :
      Moved s i { s.takeover with probeInFlight := false, verdict := some verdict } []
  | ticked : Moved s i { s.takeover with wirelessSampleInFlight := true } [.sampleWireless]
  | waited {sample : WirelessSample} (hr : s.Receives i (.wirelessSampled sample)) :
      Moved s i { s.takeover with wirelessSampleInFlight := false } []
  | joined {sample : WirelessSample} {brain : Brain} {armed : Bool}
      (hs : s.Samples i sample brain)
      (hstart : (s.deciding brain).startsJoin (s.world sample i.now))
      (hfresh : s.joinExpired i.now = false) :
      Moved s i { s.takeover with
        wirelessSampleInFlight := false
        phase := some .joining, authBusy := false, retryArmed := armed
        associateInFlight := true }
        s.associateEffects
  | joinedExpired {sample : WirelessSample} {brain : Brain}
      (hs : s.Samples i sample brain)
      (hstart : (s.deciding brain).startsJoin (s.world sample i.now))
      (hlate : s.joinExpired i.now = true) :
      Moved s i { s.takeover with
        wirelessSampleInFlight := false
        phase := some .off, authBusy := false, retryArmed := false
        associateInFlight := true, joinSinceMs := none }
        s.associateEffects
  | waitedExpired {sample : WirelessSample} {brain : Brain}
      (hs : s.Samples i sample brain)
      (hkeep : (s.deciding brain).keepsJoining (s.world sample i.now))
      (hlate : s.joinExpired i.now = true) :
      Moved s i { s.takeover with
        wirelessSampleInFlight := false
        phase := some .off, authBusy := false, retryArmed := false
        joinSinceMs := none } []
  | released {sample : WirelessSample} {brain : Brain} {armed : Bool}
      (hs : s.Samples i sample brain)
      (hrel : (s.deciding brain).releases (s.world sample i.now)) :
      Moved s i { s.takeover with
        wirelessSampleInFlight := false
        phase := some .off, authBusy := false, retryArmed := armed
        joinSinceMs := none, verdict := none } [.teardownRoutes, .disassociate]
  | deferred {sample : WirelessSample} {brain : Brain} {armed : Bool}
      (hs : s.Samples i sample brain)
      (hfrom : brain.phase = .joining ∨ brain.phase = .online ∨
        (brain.phase = .authing ∧ brain.authBusy = false))
      (hwhy : s.authInFlight = true ∨ s.takeover.routable = false) :
      Moved s i { s.takeover with
        wirelessSampleInFlight := false
        phase := some .authing, authBusy := true, retryArmed := armed } []
  | logged {sample : WirelessSample} {brain : Brain} {armed : Bool} {wlan : WlanSample}
      {gateway : Ipv4Addr} (hs : s.Samples i sample brain)
      (hfrom : (brain.phase = .joining ∧ sample.associated = true) ∨
        (brain.phase = .online ∧ s.verdict = some .kicked) ∨
        (brain.phase = .authing ∧ brain.authBusy = false))
      (hwlan : sample.wlan = some wlan) (hgw : wlan.gateway = some gateway)
      (hfree : s.authInFlight = false) :
      Moved s i { s.takeover with
        wirelessSampleInFlight := false
        phase := some .authing, authBusy := true, retryArmed := armed
        authInFlight := true }
        [.acquireWirelessEgress ⟨gateway, wlan.ifindex⟩, .settle routeSettle,
          .portalAuth wlan.ipv4 portalAuthTimeout]
  | lost {sample : WirelessSample} {brain : Brain} (hs : s.Samples i sample brain)
      (hfrom : brain.phase ≠ .off ∧ brain.phase ≠ .error)
      (hfree : s.authInFlight = false) :
      Moved s i { s.takeover with
        wirelessSampleInFlight := false
        phase := some .error, authBusy := false, retryArmed := true
        verdict := none } []
  | asked {sample : WirelessSample} {brain : Brain} {wlan : WlanSample} {url : String}
      (hs : s.Samples i sample brain) (hfrom : brain.phase = .online)
      (hkick : s.verdict ≠ some .kicked) (hfree : s.probeInFlight = false)
      (hwlan : sample.wlan = some wlan) :
      Moved s i { s.takeover with
        wirelessSampleInFlight := false, probeInFlight := true }
        [.wlanProbe wlan.ipv4 wlan.gateway url]

/-! ## Handlers that leave the takeover alone -/

/-- The handler's result shows the same takeover and asks it for nothing. -/
def Aside (s : Supervisor) (p : Supervisor × List Effect) : Prop :=
  p.1.takeover = s.takeover ∧ p.2.filter Effect.episode = []

/-- The tick, or the start, asks for a sample. -/
def Ticks (s : Supervisor) (p : Supervisor × List Effect) : Prop :=
  p.1.takeover = { s.takeover with wirelessSampleInFlight := true } ∧
    p.2.filter Effect.episode = [.sampleWireless]

theorem handleStarted_ticks (s : Supervisor) (now wall : ℕ) :
    s.Aside (s.handleStarted now wall) ∨ s.Ticks (s.handleStarted now wall) := by
  unfold handleStarted
  dsimp only
  split
  · exact .inr ⟨rfl, rfl⟩
  · exact .inl ⟨rfl, rfl⟩

theorem expireDeadline_takeover (s : Supervisor) (now : ℕ) :
    (s.expireDeadline now).takeover = s.takeover := by
  unfold expireDeadline
  split <;> rfl

theorem pollLink_aside (s : Supervisor) (now : ℕ) : s.Aside (s.pollLink now) := by
  unfold pollLink
  split
  · split
    · exact ⟨rfl, rfl⟩
    · split <;> exact ⟨rfl, rfl⟩
  · exact ⟨rfl, rfl⟩

theorem wakeWired_aside (s : Supervisor) (now : ℕ) : s.Aside (s.wakeWired now) := by
  obtain ⟨hv, hf⟩ := (s.expireDeadline now).pollLink_aside now
  exact ⟨hv.trans (s.expireDeadline_takeover now), hf⟩

theorem wakeWireless_ticks (s : Supervisor) (now : ℕ) :
    s.Aside (s.wakeWireless now) ∨ s.Ticks (s.wakeWireless now) := by
  unfold wakeWireless
  split
  · split
    · exact .inr ⟨rfl, rfl⟩
    · exact .inl ⟨rfl, rfl⟩
  · exact .inl ⟨rfl, rfl⟩

theorem handleWake_ticks (s : Supervisor) (now : ℕ) :
    s.Aside (s.handleWake now) ∨ s.Ticks (s.handleWake now) := by
  obtain ⟨hv, hf⟩ := s.wakeWired_aside now
  rcases (s.wakeWired now).1.wakeWireless_ticks now with ⟨hv', hf'⟩ | ⟨hv', hf'⟩
  · exact .inl ⟨hv'.trans hv, by simp [handleWake, List.filter_append, hf, hf']⟩
  · refine .inr ⟨hv'.trans (by rw [hv]), ?_⟩
    simp [handleWake, List.filter_append, hf, hf']

theorem handleCommand_aside (s : Supervisor) (cmd : Command) (wall : ℕ) :
    s.Aside (s.handleCommand cmd wall) := by
  cases cmd with
  | redial => exact ⟨rfl, rfl⟩
  | setMode mode =>
      -- the mode is the only field of the brain that the switch writes
      refine ⟨?_, rfl⟩
      cases hb : s.brain <;> simp [handleCommand, pushEvent, takeover, phase, hb, Brain.setMode]

theorem handleLinkSampled_aside (s : Supervisor) (up : Option Bool)
    (pppIp : Option String) (now wall : ℕ) :
    s.Aside (s.handleLinkSampled up pppIp now wall) := by
  constructor
  · obtain ⟨link, seen, pending, deadline, poll, ip, log, h⟩ :=
      s.handleLinkSampled_writes up pppIp now wall
    rw [h]
    rfl
  · have hsent := s.handleLinkSampled_emits up pppIp now wall
    generalize (s.handleLinkSampled up pppIp now wall).2 = effects at hsent ⊢
    cases hsent with
    | link hsteps => rcases hsteps with rfl | rfl <;> rfl
    | _ => rfl

theorem handleWatchdogStepped_aside (s : Supervisor) (step : WatchdogStep) (now : ℕ) :
    s.Aside (s.handleWatchdogStepped step now) := by
  constructor
  · obtain ⟨failing, ledger, h⟩ := s.handleWatchdogStepped_writes step now
    rw [h]
    rfl
  · have hsent := s.handleWatchdogStepped_emits step now
    generalize (s.handleWatchdogStepped step now).2 = effects at hsent ⊢
    cases hsent <;> rfl

theorem handleHeartbeat_aside (s : Supervisor) (status : HeartbeatStatus) (now : ℕ) :
    s.Aside (s.handleHeartbeat status now) := by
  refine ⟨rfl, ?_⟩
  have hsent := s.handleHeartbeat_emits status now
  generalize (s.handleHeartbeat status now).2 = effects at hsent ⊢
  cases hsent <;> rfl

theorem handleProbeFinished_takeover (s : Supervisor) (verdict : ProbeVerdict)
    (wall : ℕ) (h : s.probeInFlight = true) :
    (s.handleProbeFinished verdict wall).takeover =
      { s.takeover with probeInFlight := false, verdict := some verdict } := by
  unfold handleProbeFinished
  rw [if_neg (by simp [h])]
  dsimp only
  split <;> rfl

theorem Pressed.episode {effects : List Effect} (h : Pressed effects) :
    effects.filter Effect.episode = [] := by
  cases h <;> rfl

/-! ## The accepted sample -/

theorem takeover_of_brain {s : Supervisor} {b : Brain} (hb : s.brain = some b) :
    s.takeover = ⟨some b.phase, b.authBusy, b.nextAuthAt.isSome, s.takeover.routable,
      s.wirelessSampleInFlight, s.associateInFlight, s.authInFlight, s.probeInFlight,
      s.joinSinceMs, s.verdict⟩ := by
  simp [takeover, phase, hb]

theorem Samples.phase {s : Supervisor} {i : Input} {sample : WirelessSample}
    {brain : Brain} (hs : s.Samples i sample brain) :
    s.takeover.phase = some brain.phase := by
  rw [takeover_of_brain hs.live]

theorem observed_takeover (s : Supervisor) (sample : WirelessSample) (b : Brain) :
    (s.observed sample b).takeover = { s.takeover with
      phase := some b.phase, authBusy := b.authBusy, retryArmed := b.nextAuthAt.isSome
      wirelessSampleInFlight := false } := rfl

theorem joinExpired_congr {s s' : Supervisor}
    (h : s'.takeover.joinSinceMs = s.takeover.joinSinceMs) (now : ℕ) :
    s'.joinExpired now = s.joinExpired now := by
  have hsince : s'.joinSinceMs = s.joinSinceMs := h
  simp [joinExpired, hsince]

theorem joinTimeout_takeover (s : Supervisor) (now wall : ℕ) :
    (s.joinTimeout now wall).takeover =
      if s.takeover.phase = some .joining ∧ s.joinExpired now = true then
        { s.takeover with phase := some .off, authBusy := false, retryArmed := false
                          joinSinceMs := none }
      else s.takeover := by
  have hphase : s.takeover.phase = s.phase := rfl
  unfold joinTimeout
  simp only [Bool.and_eq_true, decide_eq_true_eq, hphase]
  split
  · rename_i h
    obtain ⟨b, hb, -⟩ : ∃ b, s.brain = some b ∧ b.phase = .joining := by
      simpa [phase] using h.1
    simp [takeover, phase, pushEvent, hb, Brain.restart, Brain.resetOff]
  · rfl

theorem associateEffects_episode (s : Supervisor) :
    s.associateEffects.filter Effect.episode = s.associateEffects := by
  unfold associateEffects
  split <;> rfl

theorem handleAction_associate (s : Supervisor) (nowSecs wall : ℕ) :
    ∃ s', s.handleAction .associate nowSecs wall = (s', s.associateEffects, true) ∧
      s'.takeover = { s.takeover with associateInFlight := true } := by
  unfold handleAction associateEffects
  dsimp only
  split
  · rename_i h
    refine ⟨s, rfl, ?_⟩
    simp [takeover, h]
  · exact ⟨_, rfl, rfl⟩

theorem handleAction_disassociate (s : Supervisor) (nowSecs wall : ℕ) :
    ∃ s', s.handleAction .disassociate nowSecs wall =
        (s', [.teardownRoutes, .disassociate], true) ∧
      s'.takeover = { s.takeover with joinSinceMs := none, verdict := none } :=
  ⟨_, rfl, rfl⟩

/-- What becomes of a decided login. -/
theorem handleAction_portalAuth (s : Supervisor) {b : Brain} (hb : s.brain = some b)
    (nowSecs wall : ℕ) :
    (s.handleAction .portalAuth nowSecs wall = (s, [], true) ∧
      (s.authInFlight = true ∨ s.takeover.routable = false)) ∨
    (∃ s', s.handleAction .portalAuth nowSecs wall = (s', [], false) ∧
      s.authInFlight = false ∧
      s'.takeover = { s.takeover with
        phase := some .error, authBusy := false, retryArmed := true, verdict := none }) ∨
    (∃ s' wlan gateway, s.handleAction .portalAuth nowSecs wall =
        (s', [.acquireWirelessEgress ⟨gateway, wlan.ifindex⟩, .settle routeSettle,
          .portalAuth wlan.ipv4 portalAuthTimeout], true) ∧
      s.wlan = some wlan ∧ wlan.gateway = some gateway ∧ s.authInFlight = false ∧
      s'.takeover = { s.takeover with authInFlight := true }) := by
  unfold handleAction
  dsimp only
  cases hauth : s.authInFlight with
  | true => exact .inl ⟨rfl, .inl rfl⟩
  | false =>
      rw [if_neg (by simp)]
      cases hw : s.wlan with
      | none =>
          refine .inr (.inl ⟨_, rfl, rfl, ?_⟩)
          simp [takeover, phase, hb, Brain.onAuth, hauth]
      | some wlan =>
          dsimp only
          cases hg : wlan.gateway with
          | none =>
              refine .inr (.inl ⟨_, rfl, rfl, ?_⟩)
              simp [takeover, phase, hb, Brain.onAuth, hauth]
          | some gateway =>
              dsimp only
              split
              · rename_i hip
                refine .inl ⟨rfl, .inr ?_⟩
                simpa [takeover, Decidable.imp_iff_not_or] using hip
              · exact .inr (.inr ⟨_, wlan, gateway, rfl, rfl, hg, rfl, rfl⟩)

theorem handleAction_probeNow (s : Supervisor) (nowSecs wall : ℕ) :
    (∃ proceed, s.handleAction .probeNow nowSecs wall = (s, [], proceed)) ∨
    (∃ s' wlan url, s.handleAction .probeNow nowSecs wall =
        (s', [.wlanProbe wlan.ipv4 wlan.gateway url], true) ∧
      s.wlan = some wlan ∧ s.probeInFlight = false ∧
      s'.takeover = { s.takeover with probeInFlight := true }) := by
  unfold handleAction
  dsimp only
  cases hp : s.probeInFlight with
  | true => exact .inl ⟨_, rfl⟩
  | false =>
      rw [if_neg (by simp)]
      cases hw : s.wlan with
      | none => exact .inl ⟨_, rfl⟩
      | some wlan => exact .inr ⟨_, wlan, _, rfl, rfl, rfl, rfl⟩

/-- What an action's outcome ends in: the metric and the join timeout follow if it
lets them. -/
def ended (p : Supervisor × List Effect × Bool) (now wall : ℕ) : Takeover × List Effect :=
  ((if p.2.2 then p.1.joinTimeout now wall else p.1).takeover,
    (if p.2.2 then p.2.1 ++ p.1.updateMetric else p.2.1).filter Effect.episode)

theorem ended_proceed (s : Supervisor) (effects : List Effect) (now wall : ℕ) :
    ended (s, effects, true) now wall =
      ((s.joinTimeout now wall).takeover, effects.filter Effect.episode) := by
  simp [ended, List.filter_append, s.updateMetric_pressed.episode]

/-- Outside `Joining` there is no timeout. -/
theorem ended_elsewhere {s : Supervisor} (h : s.takeover.phase ≠ some .joining)
    (effects : List Effect) (proceed : Bool) (now wall : ℕ) :
    ended (s, effects, proceed) now wall = (s.takeover, effects.filter Effect.episode) := by
  cases proceed with
  | false => rfl
  | true => rw [ended_proceed, joinTimeout_takeover, if_neg (fun hj => h hj.1)]

section Sampled

variable [SerdeJson] {s : Supervisor} {i : Input} {sample : WirelessSample}
  {brain b : Brain}

/-- The move that an action of the decided brain `b` makes. -/
def Carries (s : Supervisor) (i : Input) (sample : WirelessSample) (b : Brain)
    (action : Action) : Prop :=
  Moved s i
    (ended ((s.observed sample b).handleAction action (i.now / 1000) i.wall) i.now i.wall).1
    (ended ((s.observed sample b).handleAction action (i.now / 1000) i.wall) i.now i.wall).2

theorem Moved.of_eq {t t' : Takeover} {fx fx' : List Effect} (h : Moved s i t fx)
    (ht : t' = t) (hfx : fx' = fx) : Moved s i t' fx' := by
  rwa [ht, hfx]

/-- Only a sample can be accepted as a sample. -/
theorem Moved.quiet (h : ∀ sample, i.event ≠ .wirelessSampled sample) :
    Moved s i s.takeover [] :=
  .still (fun sample hr => absurd hr.1 (h sample))

theorem carries_none (hs : s.Samples i sample brain)
    (hsame : (s.observed sample b).takeover = { s.takeover with wirelessSampleInFlight := false })
    (hwait : brain.phase = .joining → (s.deciding brain).keepsJoining (s.world sample i.now)) :
    Carries s i sample b .none := by
  have hclock : (s.observed sample b).joinExpired i.now = s.joinExpired i.now := rfl
  unfold Carries handleAction
  simp only [ended_proceed, joinTimeout_takeover, hsame, hclock]
  split
  · rename_i hlate
    rw [takeover_of_brain hs.live] at hlate
    exact .waitedExpired hs (hwait (Option.some.inj hlate.1)) hlate.2
  · exact .waited hs.received

theorem carries_associate (hs : s.Samples i sample brain)
    (hstart : (s.deciding brain).startsJoin (s.world sample i.now))
    (hphase : b.phase = .joining) (hbusy : b.authBusy = false) :
    Carries s i sample b .associate := by
  obtain ⟨s', hact, ht⟩ :=
    handleAction_associate (s.observed sample b) (i.now / 1000) i.wall
  rw [observed_takeover, hphase, hbusy] at ht
  have hclock : s'.joinExpired i.now = s.joinExpired i.now := joinExpired_congr (by rw [ht]) _
  have hfx : (s.observed sample b).associateEffects = s.associateEffects := rfl
  unfold Carries
  simp only [hact, hfx, ended_proceed, associateEffects_episode, joinTimeout_takeover, ht,
    hclock, true_and]
  split
  · rename_i hlate
    exact .joinedExpired hs hstart hlate
  · rename_i hlate
    exact .joined hs hstart (by simpa using hlate)

theorem carries_disassociate (hs : s.Samples i sample brain)
    (hrel : (s.deciding brain).releases (s.world sample i.now))
    (hphase : b.phase = .off) (hbusy : b.authBusy = false) :
    Carries s i sample b .disassociate := by
  obtain ⟨s', hact, ht⟩ :=
    handleAction_disassociate (s.observed sample b) (i.now / 1000) i.wall
  rw [observed_takeover, hphase, hbusy] at ht
  unfold Carries
  rw [hact, ended_elsewhere (by simp [ht]), ht]
  exact .released hs hrel

theorem carries_portalAuth (hs : s.Samples i sample brain)
    (hfrom : (brain.phase = .joining ∧ sample.associated = true) ∨
      (brain.phase = .online ∧ s.verdict = some .kicked) ∨
      (brain.phase = .authing ∧ brain.authBusy = false))
    (hphase : b.phase = .authing) (hbusy : b.authBusy = true) :
    Carries s i sample b .portalAuth := by
  have hseen := s.observed_takeover sample b
  rw [hphase, hbusy] at hseen
  unfold Carries
  rcases handleAction_portalAuth (s.observed sample b) rfl (i.now / 1000) i.wall with
    ⟨hact, hwhy⟩ | ⟨s', hact, hfree, ht⟩ | ⟨s', wlan, gateway, hact, hwlan, hgw, hfree, ht⟩
  -- one is in flight already, or the targets did not parse
  · rw [hact, ended_elsewhere (by simp [hseen]), hseen]
    exact .deferred hs (hfrom.imp (·.1) (Or.imp_left (·.1))) hwhy
  -- address or gateway is missing: the brain is told that the login failed
  · rw [hact, ended_elsewhere (by simp [ht]), ht, hseen]
    refine .lost hs ?_ hfree
    have hphases : brain.phase = .joining ∨ brain.phase = .online ∨
        brain.phase = .authing := hfrom.imp (·.1) (Or.imp (·.1) (·.1))
    rcases hphases with h | h | h <;> simp [h]
  · rw [hseen] at ht
    rw [hact, ended_elsewhere (by simp [ht]), ht]
    exact .logged hs hfrom hwlan hgw hfree

theorem carries_probeNow (hs : s.Samples i sample brain) (honline : brain.phase = .online)
    (hkick : s.verdict ≠ some .kicked)
    (hsame : (s.observed sample b).takeover =
      { s.takeover with wirelessSampleInFlight := false }) :
    Carries s i sample b .probeNow := by
  have hphase : s.takeover.phase = some .online := by rw [hs.phase, honline]
  unfold Carries
  rcases handleAction_probeNow (s.observed sample b) (i.now / 1000) i.wall with
    ⟨proceed, hact⟩ | ⟨s', wlan, url, hact, hwlan, hfree, ht⟩
  · rw [hact, ended_elsewhere (by simp [hsame, hphase]), hsame]
    exact .waited hs.received
  · rw [hsame] at ht
    rw [hact, ended_elsewhere (by simp [ht, hphase]), ht]
    exact .asked hs honline hkick hfree hwlan

theorem decideSample_moved (hs : s.Samples i sample brain) :
    Moved s i
      (if (s.decideSample brain sample i.now i.wall).2.2 then
        (s.decideSample brain sample i.now i.wall).1.joinTimeout i.now i.wall
        else (s.decideSample brain sample i.now i.wall).1).takeover
      ((s.decideSample brain sample i.now i.wall).2.1.filter Effect.episode) := by
  have hd := Brain.decide_decided (s.deciding brain) (s.world sample i.now)
  unfold decideSample
  rw [← deciding]
  generalize (s.deciding brain).decide (s.world sample i.now) = p at hd ⊢
  obtain ⟨b, action⟩ := p
  change Carries s i sample b action
  have hlive := takeover_of_brain hs.live
  cases hd with
  | idle hphase hbusy hnext hwait =>
      refine carries_none hs ?_ hwait
      rw [observed_takeover, hphase, hbusy, hnext, hlive]
      rfl
  | join hstart hphase hbusy => exact carries_associate hs hstart hphase hbusy
  | release hrel hphase hbusy => exact carries_disassociate hs hrel hphase hbusy
  | login hfrom hphase hbusy =>
      exact carries_portalAuth hs (hfrom.imp (fun h => ⟨h.1, h.2.1⟩) id) hphase hbusy
  | probe hfrom hkick hphase hbusy hnext =>
      refine carries_probeNow hs hfrom hkick ?_
      have honline : brain.phase = .online := hfrom
      rw [observed_takeover, hphase, hbusy, hnext, hlive, honline]
      rfl

theorem handleWirelessSampled_moved (hr : s.Receives i (.wirelessSampled sample)) :
    Moved s i (s.handleWirelessSampled sample i.now i.wall).1.takeover
      ((s.handleWirelessSampled sample i.now i.wall).2.filter Effect.episode) := by
  unfold handleWirelessSampled
  split
  · rename_i hwait
    exact .still (fun _ _ => by simpa using hwait)
  · rename_i hwait
    split
    · exact .waited hr
    · rename_i brain hb
      exact decideSample_moved ⟨hr, by simpa using hwait, hb⟩

end Sampled

/-! ## One step -/

section Steps

variable [SerdeJson]

theorem handlePortalFinished_takeover (s : Supervisor) (attempt : PortalAttempt)
    (now wall : ℕ) (h : s.authInFlight = true) :
    (s.handlePortalFinished attempt now wall).takeover = { s.takeover with
      phase := s.phase.map (fun _ => if (portalOutcome attempt).1 then .online else .error)
      authBusy := false, retryArmed := s.brain.isSome && !(portalOutcome attempt).1
      authInFlight := false, verdict := none } := by
  unfold handlePortalFinished
  rw [if_neg (by simp [h])]
  obtain ⟨ok, msg⟩ := portalOutcome attempt
  cases hb : s.brain <;> cases ok <;> simp [takeover, phase, pushEvent, hb, Brain.onAuth]

theorem handleStop_moved {s : Supervisor} {i : Input} (hr : s.Receives i .stop) :
    Moved s i (s.handleStop i.wall).1.takeover
      ((s.handleStop i.wall).2.filter Effect.episode) := by
  unfold handleStop
  dsimp only
  split
  · split <;> exact .stopped hr
  · exact .quiet (by simp [hr.1])

theorem handleWirelessDied_moved {s : Supervisor} {i : Input}
    (hr : s.Receives i .wirelessDied) :
    Moved s i (s.handleWirelessDied i.wall).takeover [] := by
  unfold handleWirelessDied
  split
  · exact .quiet (by simp [hr.1])
  · dsimp only
    split <;> exact .died hr

theorem handle_moved {s : Supervisor} {i : Input} (hr : s.Receives i i.event) :
    Moved s i (s.handle i.now i.wall i.event).1.takeover
      ((s.handle i.now i.wall i.event).2.filter Effect.episode) := by
  have aside : ∀ p, (∀ sample, i.event ≠ .wirelessSampled sample) → s.Aside p →
      Moved s i p.1.takeover (p.2.filter Effect.episode) :=
    fun p hne hp => (Moved.quiet hne).of_eq hp.1 hp.2
  obtain ⟨now, wall, event⟩ := i
  cases event with
  | started => exact .quiet (by simp)
  | wake =>
      rcases s.handleWake_ticks now with h | h
      · exact aside _ (by simp) h
      · exact Moved.ticked.of_eq h.1 h.2
  | command cmd => exact aside _ (by simp) (s.handleCommand_aside cmd wall)
  | linkSampled up pppIp => exact aside _ (by simp) (s.handleLinkSampled_aside up pppIp now wall)
  | watchdogStepped step => exact aside _ (by simp) (s.handleWatchdogStepped_aside step now)
  | wirelessSampled sample => exact handleWirelessSampled_moved hr
  | associateFinished res =>
      simp only [handle, handleAssociateFinished]
      split
      · exact .quiet (by simp)
      · rename_i hwait
        exact .associated hr (by simpa using hwait)
  | portalFinished attempt =>
      cases hwait : s.authInFlight with
      | false =>
          have hsame : s.handlePortalFinished attempt now wall = s := if_pos (by simp [hwait])
          exact (Moved.quiet (by simp)).of_eq (congrArg takeover hsame) rfl
      | true =>
          refine (Moved.replied hr hwait).of_eq ?_ rfl
          exact s.handlePortalFinished_takeover attempt now wall hwait
  | wlanProbeFinished verdict =>
      cases hwait : s.probeInFlight with
      | false =>
          have hsame : s.handleProbeFinished verdict wall = s := if_pos (by simp [hwait])
          exact (Moved.quiet (by simp)).of_eq (congrArg takeover hsame) rfl
      | true =>
          refine (Moved.probed hr hwait).of_eq ?_ rfl
          exact s.handleProbeFinished_takeover verdict wall hwait
  | heartbeat status => exact aside _ (by simp) (s.handleHeartbeat_aside status now)
  | notifyResult key delivered => exact .quiet (by simp)
  | wirelessDied => exact handleWirelessDied_moved hr
  | stop => exact handleStop_moved hr

/-- **The list is complete.** -/
theorem step_moved (s : Supervisor) (i : Input) :
    Moved s i (s.step i).1.takeover ((s.step i).2.effects.filter Effect.episode) := by
  obtain ⟨snap, hstate⟩ := s.step_state i
  rw [hstate, step_effects]
  change Moved s i (s.dispatch i.now i.wall i.event).1.takeover _
  rcases s.dispatch_cases i.now i.wall i.event with ⟨hn, h⟩ | ⟨-, he, h⟩ | ⟨hs, hr, h⟩
  · rw [h]
    refine .still (fun sample hr => ?_)
    have hh := hr.2
    rw [← hr.1, hn] at hh
    simp at hh
  · rw [h]
    rcases s.handleStarted_ticks i.now i.wall with h | h
    · exact (Moved.quiet (by simp [he])).of_eq h.1 h.2
    · exact Moved.ticked.of_eq h.1 h.2
  · rw [h]
    exact handle_moved ⟨rfl, by simp [handled, hs, hr]⟩

theorem exists_moved (s : Supervisor) (i : Input) :
    ∃ t fx, Moved s i t fx ∧ (s.step i).1.takeover = t ∧
      (s.step i).2.effects.filter Effect.episode = fx :=
  ⟨_, _, s.step_moved i, rfl, rfl⟩

theorem sent_of_episode {s : Supervisor} {i : Input} {fx : List Effect} {e : Effect}
    (hfx : (s.step i).2.effects.filter Effect.episode = fx) (he : e ∈ fx) :
    e ∈ (s.step i).2.effects := by
  rw [← hfx] at he
  exact (List.mem_filter.mp he).1

/-- A sample in flight was asked for, now or before. -/
theorem wirelessSampleInFlight_step {s : Supervisor} {i : Input}
    (h : (s.step i).1.wirelessSampleInFlight = true) :
    .sampleWireless ∈ (s.step i).2.effects ∨ (s.wirelessSampleInFlight = true ∧
      ∀ sample, ¬ s.Receives i (.wirelessSampled sample)) := by
  obtain ⟨t, fx, hmoved, ht, hfx⟩ := s.exists_moved i
  replace h : t.wirelessSampleInFlight = true := ht ▸ h
  cases hmoved with
  | still hquiet =>
      refine .inr ⟨h, fun sample hr => ?_⟩
      have hno : s.takeover.wirelessSampleInFlight = false := hquiet sample hr
      simp [hno] at h
  | ticked => exact .inl (sent_of_episode hfx (by simp))
  | stopped hr | associated hr _ | replied hr _ | probed hr _ =>
      exact .inr ⟨h, by simp [Receives, hr.1]⟩
  | _ => simp at h

/-! ## No dead phase -/

theorem Moved.alive {s : Supervisor} {i : Input} {t : Takeover} {fx : List Effect}
    (h : Moved s i t fx) (hs : s.takeover.Alive) : t.Alive := by
  cases h with
  | still _ => exact hs
  | stopped _ => exact hs
  | ticked | waited _ =>
      exact ⟨hs.routable, hs.authing_iff, hs.authing, hs.joining, hs.error⟩
  | died _ => exact ⟨by simp, by simp, by simp, by simp, by simp⟩
  | associated _ _ =>
      exact ⟨hs.routable, hs.authing_iff, hs.authing, fun _ => .inr rfl, hs.error⟩
  | @replied attempt _ _ =>
      have hroute : (s.phase.map fun _ => if (portalOutcome attempt).1 = true then
          WPhase.online else .error).isSome → s.takeover.routable = true := by
        rw [Option.isSome_map]
        exact hs.routable
      cases hb : s.brain <;> cases hok : (portalOutcome attempt).1 <;>
        constructor <;> simp_all [phase]
  | probed _ _ => exact ⟨hs.routable, hs.authing_iff, hs.authing, hs.joining, hs.error⟩
  | joined hsam _ _ =>
      exact ⟨fun _ => hs.routable (by simp [hsam.phase]), by simp, by simp, by simp, by simp⟩
  | joinedExpired hsam _ _ =>
      exact ⟨fun _ => hs.routable (by simp [hsam.phase]), by simp, by simp, by simp, by simp⟩
  | waitedExpired hsam _ _ =>
      exact ⟨fun _ => hs.routable (by simp [hsam.phase]), by simp, by simp, by simp, by simp⟩
  | released hsam _ =>
      exact ⟨fun _ => hs.routable (by simp [hsam.phase]), by simp, by simp, by simp, by simp⟩
  | deferred hsam _ hwhy =>
      have hroute : s.takeover.routable = true := hs.routable (by simp [hsam.phase])
      have hflight : s.takeover.authInFlight = true :=
        hwhy.resolve_right (by simp [hroute])
      exact ⟨fun _ => hroute, by simp, fun _ => hflight, by simp, by simp⟩
  | logged hsam _ _ _ _ =>
      exact ⟨fun _ => hs.routable (by simp [hsam.phase]), by simp, by simp, by simp, by simp⟩
  | lost hsam _ _ =>
      exact ⟨fun _ => hs.routable (by simp [hsam.phase]), by simp, by simp, by simp, by simp⟩
  | asked _ _ _ _ _ =>
      exact ⟨hs.routable, hs.authing_iff, hs.authing, hs.joining, hs.error⟩

end Steps

/-- Nothing is outstanding at the start. -/
theorem new_takeover (cfg : Config) :
    (∃ r, (new cfg).takeover = ⟨none, false, false, r, false, false, false, false, none, none⟩) ∨
    (new cfg).takeover =
      ⟨some .off, false, false, true, false, false, false, false, none, none⟩ := by
  unfold new
  dsimp only
  split
  · split
    · exact .inr rfl
    · exact .inl ⟨_, rfl⟩
  · exact .inl ⟨_, rfl⟩

theorem new_alive (cfg : Config) : (new cfg).takeover.Alive := by
  rcases new_takeover cfg with ⟨r, h⟩ | h <;> rw [h] <;> constructor <;> simp

theorem after_alive [SerdeJson] (cfg : Config) (is : List Input) :
    (after cfg is).takeover.Alive :=
  Machine.final_induction (I := fun s : Supervisor => s.takeover.Alive)
    (fun s i hs => (s.step_moved i).alive hs) (new_alive cfg) is

/-- **No dead wireless phase.** Whatever the order of events, a live brain that
waits in `Authing`, `Joining` or `Error` waits for something. -/
theorem phase_never_dead [SerdeJson] (cfg : Config) (is : List Input) (brain : Brain)
    (hlive : (after cfg is).brain = some brain) :
    (brain.phase = .authing ↔ brain.authBusy = true) ∧
    (brain.phase = .authing → (after cfg is).authInFlight = true) ∧
    (brain.phase = .joining → (after cfg is).associateInFlight = true ∨
      (after cfg is).joinSinceMs.isSome = true) ∧
    (brain.phase = .error → brain.nextAuthAt.isSome = true) := by
  have h := after_alive cfg is
  rw [takeover_of_brain hlive] at h
  exact ⟨by simpa using h.authing_iff, by simpa using h.authing, by simpa using h.joining,
    by simpa using h.error⟩

/-! ### A run that reaches the portal -/

/-- The defaults, with the wireless side as a standby. -/
def standbyCfg : Config := { wireless := { mode := .wiredPlusStandby } }

/-- Connected to the campus WLAN, with an address. -/
def campusSample : WirelessSample := ⟨true, some ⟨⟨10, 1, 1, 5⟩, some ⟨10, 1, 1, 1⟩, 15⟩⟩

/-- Started and associated, the next sample asked for. -/
def joinRun : List Input :=
  [⟨0, 0, .started⟩, ⟨10, 0, .wirelessSampled {}⟩, ⟨900, 0, .associateFinished (.ok ())⟩,
    ⟨2000, 2, .wake⟩]

/-- The sample that sends the first login. -/
def loginInput : Input := ⟨2010, 2, .wirelessSampled campusSample⟩

def loginRun : List Input := joinRun ++ [loginInput]

def loginBrain : Brain :=
  { mode := .wiredPlusStandby, phase := .authing, authBusy := true
    takeoverAfter := 8, releaseAfter := 10, probeInterval := 30 }

theorem phase_never_dead_authing :
    (@after replyJson standbyCfg loginRun).brain = some loginBrain ∧
      (@after replyJson standbyCfg loginRun).authInFlight = true :=
  ⟨by decide,
    (@phase_never_dead replyJson standbyCfg loginRun loginBrain (by decide)).2.1 rfl⟩

end Supervisor

end GdutNet
