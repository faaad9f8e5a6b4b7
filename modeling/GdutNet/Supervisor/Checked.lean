import GdutNet.Supervisor.Retry

/-!
# The reducer with checked arithmetic

The model computes on natural numbers, the source on `u64`. Here every
operation of the source that could panic or wrap is spelled out: an addition
that may not fit, a subtraction that may go below zero, the index into the
retry delays, the `expect` on the brain. `none` is the panic. Operations that
saturate in the source are as in the model.

`onChecked_eq` closes the gap: along any run whose clock never goes back, the
checked reducer and the model agree on every call.
-/

namespace GdutNet

namespace Brain

def onAuthChecked (b : Brain) (ok : Bool) (msg : String) (now : ℕ) : Option Brain :=
  let b := { b with authBusy := false }
  if ok then
    some { b with phase := .online, authFailCount := 0, nextAuthAt := none,
                  lastError := none, lastProbeAt := none }
  else do
    let count := min (b.authFailCount + 1) u32Max
    let idx := min (← checkedSub count 1) (← checkedSub authRetryDelays.length 1)
    let delay ← authRetryDelays[idx]?
    let next ← checkedAdd now delay
    some { b with authFailCount := count, nextAuthAt := some next, phase := .error
                  lastError := some msg }

def keepWirelessChecked (b : Brain) (w : World) : Option (Brain × Action) :=
  match b.phase with
  | .off => some b.startJoin
  | .error => if b.retryDue w then some b.startJoin else some (b, .none)
  | .joining =>
      if w.wlanAssociated && w.wlanIp then
        some ({ b with phase := .authing, authBusy := true, nextAuthAt := none }, .portalAuth)
      else some (b, .none)
  | .authing =>
      if !b.authBusy && b.retryDue w then some ({ b with authBusy := true }, .portalAuth)
      else some (b, .none)
  | .online =>
      if w.probe = some .kicked then
        some ({ b with phase := .authing, authBusy := true, nextAuthAt := none }, .portalAuth)
      else if !w.wlanAssociated || !w.wlanIp then some b.startJoin
      else match b.lastProbeAt with
        | none => some ({ b with lastProbeAt := some w.now }, .probeNow)
        | some t => do
            let waited ← checkedSub w.now t
            if b.probeInterval ≤ waited then
              some ({ b with lastProbeAt := some w.now }, .probeNow)
            else some (b, .none)

def decideChecked (b : Brain) (w : World) : Option (Brain × Action) :=
  match b.mode with
  | .wiredPlusStandby => b.keepWirelessChecked w
  | .wiredExclusive =>
      if w.wiredHealthy then do
        let since := b.healthySince.getD w.now
        let b := { b with unhealthySince := none, healthySince := some since }
        let healthy ← checkedSub w.now since
        if b.releaseAfter ≤ healthy && b.phase ≠ .off then some (b.resetOff, .disassociate)
        else some (b, .none)
      else do
        let since := b.unhealthySince.getD w.now
        let b := { b with healthySince := none, unhealthySince := some since }
        let away ← checkedSub w.now since
        match b.phase with
        | .off => if b.takeoverAfter ≤ away then some b.startJoin else some (b, .none)
        | .error => if b.retryDue w then some b.startJoin else some (b, .none)
        | _ => b.keepWirelessChecked w

/-- The remembered times are not in the future. -/
structure Timely (t : ℕ) (b : Brain) : Prop where
  healthy : ∀ x ∈ b.healthySince, x ≤ t
  unhealthy : ∀ x ∈ b.unhealthySince, x ≤ t
  probed : ∀ x ∈ b.lastProbeAt, x ≤ t

variable {b : Brain} {t : ℕ}

theorem Timely.mono (h : b.Timely t) {t' : ℕ} (ht : t ≤ t') : b.Timely t' :=
  ⟨fun x hx => (h.healthy x hx).trans ht, fun x hx => (h.unhealthy x hx).trans ht,
    fun x hx => (h.probed x hx).trans ht⟩

theorem getD_le {o : Option ℕ} (h : ∀ x ∈ o, x ≤ t) : o.getD t ≤ t := by
  cases o with
  | none => exact le_refl t
  | some x => exact h x rfl

theorem onAuthChecked_eq (b : Brain) (ok : Bool) (msg : String) {now : ℕ}
    (hnow : now + 30 ≤ u64Max) : b.onAuthChecked ok msg now = some (b.onAuth ok msg now) := by
  cases ok with
  | true => rfl
  | false =>
      have hcount : 1 ≤ min (b.authFailCount + 1) u32Max := by
        have : 1 ≤ u32Max := by decide
        omega
      have hidx : ∀ k, authRetryDelays[min k 2]? = some (authRetryDelays.getD (min k 2) 0) := by
        intro k
        rw [List.getD_eq_getElem?_getD]
        have : min k 2 < authRetryDelays.length := by
          rw [show authRetryDelays.length = 3 from rfl]
          omega
        rw [List.getElem?_eq_getElem this]
        rfl
      have hdelay : ∀ k, authRetryDelays.getD (min k 2) 0 ≤ 30 := by
        intro k
        have hk : min k 2 = 0 ∨ min k 2 = 1 ∨ min k 2 = 2 := by omega
        rcases hk with hk | hk | hk <;> rw [hk] <;> decide
      have hsum := fun k => checkedAdd_eq (a := now)
        (b := authRetryDelays.getD (min k 2) 0) (by have := hdelay k; omega)
      simp only [onAuthChecked, onAuth, checkedSub_eq hcount,
        checkedSub_eq (show 1 ≤ authRetryDelays.length by decide),
        show authRetryDelays.length - 1 = 2 from rfl, Option.bind_eq_bind, Option.bind_some,
        hidx, hsum, Bool.false_eq_true, if_false]

theorem keepWirelessChecked_eq {w : World} (h : ∀ x ∈ b.lastProbeAt, x ≤ w.now) :
    b.keepWirelessChecked w = some (b.keepWireless w) := by
  cases hp : b.phase with
  | off => simp only [keepWirelessChecked, keepWireless, hp]
  | error => simp only [keepWirelessChecked, keepWireless, hp, apply_ite some]
  | joining => simp only [keepWirelessChecked, keepWireless, hp, apply_ite some]
  | authing => simp only [keepWirelessChecked, keepWireless, hp, apply_ite some]
  | online =>
      simp only [keepWirelessChecked, keepWireless, hp, apply_ite some]
      cases hprobe : b.lastProbeAt with
      | none => simp only [Option.all_none, if_true]
      | some t =>
          simp only [checkedSub_eq (h t hprobe), Option.bind_eq_bind, Option.bind_some,
            Option.all_some, decide_eq_true_eq]

theorem decideChecked_eq {w : World} (h : b.Timely w.now) :
    b.decideChecked w = some (b.decide w) := by
  cases hm : b.mode with
  | wiredPlusStandby =>
      simp only [decideChecked, decide, hm]
      exact keepWirelessChecked_eq h.probed
  | wiredExclusive =>
      simp only [decideChecked, decide, hm, checkedSub_eq (getD_le h.healthy),
        checkedSub_eq (getD_le h.unhealthy), Option.bind_eq_bind, Option.bind_some]
      split
      · exact (apply_ite some _ _ _).symm
      · cases hp : b.phase with
        | off => exact (apply_ite some _ _ _).symm
        | error => exact (apply_ite some _ _ _).symm
        | joining => exact keepWirelessChecked_eq h.probed
        | authing => exact keepWirelessChecked_eq h.probed
        | online => exact keepWirelessChecked_eq h.probed

/-! ### The remembered times -/

theorem Timely.setMode (h : b.Timely t) (mode : NetMode) : (b.setMode mode).Timely t :=
  ⟨h.healthy, h.unhealthy, h.probed⟩

theorem Timely.startJoin (h : b.Timely t) : b.startJoin.1.Timely t :=
  ⟨h.healthy, h.unhealthy, h.probed⟩

theorem Timely.resetOff (h : b.Timely t) : b.resetOff.Timely t :=
  ⟨h.healthy, h.unhealthy, by simp [Brain.resetOff]⟩

theorem Timely.onAuth (h : b.Timely t) (ok : Bool) (msg : String) (now : ℕ) :
    (b.onAuth ok msg now).Timely t := by
  cases ok with
  | true => exact ⟨h.healthy, h.unhealthy, by simp [Brain.onAuth]⟩
  | false => exact ⟨h.healthy, h.unhealthy, h.probed⟩

theorem Timely.keepWireless {w : World} (h : b.Timely w.now) :
    (b.keepWireless w).1.Timely w.now := by
  have hkeep : ∀ c : Brain, c.healthySince = b.healthySince →
      c.unhealthySince = b.unhealthySince → c.lastProbeAt = b.lastProbeAt → c.Timely w.now :=
    fun c h₁ h₂ h₃ => ⟨h₁ ▸ h.healthy, h₂ ▸ h.unhealthy, h₃ ▸ h.probed⟩
  unfold Brain.keepWireless
  split
  · exact h.startJoin
  · split
    · exact h.startJoin
    · exact h
  · split
    · exact hkeep _ rfl rfl rfl
    · exact h
  · split
    · exact hkeep _ rfl rfl rfl
    · exact h
  · split
    · exact hkeep _ rfl rfl rfl
    · split
      · exact h.startJoin
      · split
        · exact ⟨h.healthy, h.unhealthy, by simp⟩
        · exact h

theorem Timely.decide {w : World} (h : b.Timely w.now) : (b.decide w).1.Timely w.now := by
  have hup : { b with unhealthySince := none
                      healthySince := some (b.healthySince.getD w.now) }.Timely w.now :=
    ⟨by simpa using getD_le h.healthy, by simp, h.probed⟩
  have hdown : { b with healthySince := none
                        unhealthySince := some (b.unhealthySince.getD w.now) }.Timely w.now :=
    ⟨by simp, by simpa using getD_le h.unhealthy, h.probed⟩
  unfold Brain.decide
  split
  · exact h.keepWireless
  · split
    · dsimp only
      split
      · exact hup.resetOff
      · exact hup
    · dsimp only
      split
      · split
        · exact hdown.startJoin
        · exact hdown
      · split
        · exact hdown.startJoin
        · exact hdown
      · exact hdown.keepWireless

end Brain

namespace Supervisor

/-! ## The handlers that compute on the clock -/

def handleStartedChecked (s : Supervisor) (now wall : ℕ) : Option (Supervisor × List Effect) :=
  let s := { s with started := true }
  let s := s.pushEvent wall ("Service started, mode " ++ modeText s.mode)
  let s := { s with watchdogDeadline := some now, linkPollAt := now }
  if s.brain.isSome then do
    let tick ← checkedAdd now wirelessTickMs
    some ({ s with wirelessSampleInFlight := true, wirelessTickAt := tick },
      [.cleanupStaleRoutes, .sampleWireless])
  else some (s, [])

def pollLinkChecked (s : Supervisor) (now : ℕ) : Option (Supervisor × List Effect) :=
  if s.stepPending || s.linkPollAt ≤ now then
    if !s.sampleInFlight then do
      let poll ← checkedAdd now linkPollMs
      some ({ s with sampleInFlight := true, linkPollAt := poll }, [.sampleLink])
    else if s.linkPollAt ≤ now then do
      let poll ← checkedAdd now sampleRetryMs
      some ({ s with linkPollAt := poll }, [])
    else some (s, [])
  else some (s, [])

def wakeWirelessChecked (s : Supervisor) (now : ℕ) : Option (Supervisor × List Effect) :=
  if s.brain.isSome && s.wirelessTickAt ≤ now then do
    let tick ← checkedAdd now wirelessTickMs
    if !s.wirelessSampleInFlight then
      some ({ s with wirelessSampleInFlight := true, wirelessTickAt := tick }, [.sampleWireless])
    else some ({ s with wirelessTickAt := tick }, [])
  else some (s, [])

def handleWakeChecked (s : Supervisor) (now : ℕ) : Option (Supervisor × List Effect) := do
  let (s, wired) ← (s.expireDeadline now).pollLinkChecked now
  let (s, wireless) ← s.wakeWirelessChecked now
  some (s, wired ++ wireless)

def applyLinkChecked (s : Supervisor) (next : Option Bool) (now wall : ℕ) :
    Option (Supervisor × List Effect) :=
  let old := s.ethLink
  if next ≠ old then
    let s := { s with ethLink := next }
    if next = some false then do
      let poll ← checkedAdd now linkPollMs
      some ({ s with linkPollAt := poll }, [.setWatchdogLink next])
    else if old = some false then do
      let s := s.pushEvent wall "Ethernet link restored, redialing"
      let poll ← checkedAdd now linkPollMs
      some ({ s with watchdogDeadline := none, stepPending := false, linkPollAt := poll },
        [.setWatchdogLink next, .requestRedial, .stepWatchdog])
    else do
      let poll ← checkedAdd now linkPollMs
      some ({ s with linkPollAt := poll }, [.setWatchdogLink next])
  else do
    let poll ← checkedAdd now linkPollMs
    some ({ s with linkPollAt := poll }, [])

def handleLinkSampledChecked (s : Supervisor) (up : Option Bool) (pppIp : Option String)
    (now wall : ℕ) : Option (Supervisor × List Effect) :=
  if !s.sampleInFlight then some (s, [])
  else do
    let next := s.nextLink up
    let s := { s with sampleInFlight := false, pppIp, linkSampleSeen := true }
    let (s, effects) ← s.applyLinkChecked next now wall
    if s.stepPending then some ({ s with stepPending := false }, effects ++ [.stepWatchdog])
    else some (s, effects)

/-- A refused login is the only action that computes. -/
def handleActionChecked (s : Supervisor) (action : Action) (nowSecs wall : ℕ) :
    Option (Supervisor × List Effect × Bool) :=
  match action with
  | .portalAuth =>
      if s.authInFlight then some (s, [], true)
      else match s.wlan with
        | none => do
            let brain ← s.brain.mapM (Brain.onAuthChecked · false "wlan ip lost" nowSecs)
            some ({ s with brain, verdict := none }, [], false)
        | some wlan =>
            match wlan.gateway with
            | none => do
                let brain ← s.brain.mapM
                  (Brain.onAuthChecked · false "wlan gateway missing" nowSecs)
                some ({ s with brain, verdict := none }, [], false)
            | some _ => some (s.handleAction .portalAuth nowSecs wall)
  | action => some (s.handleAction action nowSecs wall)

/-- The `expect` on the brain is the first line after the guards. -/
def handleWirelessSampledChecked (s : Supervisor) (sample : WirelessSample)
    (now wall : ℕ) : Option (Supervisor × List Effect) :=
  if !s.wirelessSampleInFlight then some (s, [])
  else if s.brain.isNone then some ({ s with wirelessSampleInFlight := false }, [])
  else do
    let brain ← s.brain
    let (brain, action) ← (brain.setMode s.mode).decideChecked (s.world sample now)
    let (s, effects, proceed) ←
      (s.observed sample brain).handleActionChecked action (now / 1000) wall
    if proceed then some (s.joinTimeout now wall, effects ++ s.updateMetric)
    else some (s, effects)

section Reducer

variable [SerdeJson]

def handlePortalFinishedChecked (s : Supervisor) (attempt : PortalAttempt)
    (now wall : ℕ) : Option Supervisor :=
  if !s.authInFlight then some s
  else do
    let (ok, msg) := portalOutcome attempt
    let s := { s with authInFlight := false }
    let s := s.pushEvent wall
      (if ok then "Wireless: portal login success"
        else "Wireless: portal login failed: " ++ msg)
    let brain ← s.brain.mapM (Brain.onAuthChecked · ok msg (now / 1000))
    some { s with brain, verdict := none }

/-- The other handlers only compare and saturate. -/
def handleChecked (s : Supervisor) (now wall : ℕ) : Event → Option (Supervisor × List Effect)
  | .wake => s.handleWakeChecked now
  | .linkSampled up pppIp => s.handleLinkSampledChecked up pppIp now wall
  | .wirelessSampled sample => s.handleWirelessSampledChecked sample now wall
  | .portalFinished attempt => (s.handlePortalFinishedChecked attempt now wall).map (·, [])
  | event => some (s.handle now wall event)

def dispatchChecked (s : Supervisor) (now wall : ℕ) (event : Event) :
    Option (Supervisor × List Effect) :=
  if !s.handled event then some (s, [])
  else if s.started then s.handleChecked now wall event
  else s.handleStartedChecked now wall

def onChecked (s : Supervisor) (now wall : ℕ) (event : Event) :
    Option (Supervisor × Reaction) := do
  let (s', effects) ← s.dispatchChecked now wall event
  let (s', snapshot) := if s.handled event then s'.publish else (s', none)
  let wakeAt := if s'.started && !s'.stopped then some (s'.nextWake now) else none
  some (s', { effects, snapshot, wakeAt })

end Reducer

/-! ## Agreement with the model -/

section Agreement

variable {s : Supervisor} {now : ℕ}

theorem handleStartedChecked_eq (hnow : now + 60000 ≤ u64Max) (s : Supervisor) (wall : ℕ) :
    s.handleStartedChecked now wall = some (s.handleStarted now wall) := by
  have htick : checkedAdd now wirelessTickMs = some (now + wirelessTickMs) :=
    checkedAdd_eq (by simp only [wirelessTickMs]; omega)
  simp only [handleStartedChecked, handleStarted, htick, Option.bind_eq_bind, Option.bind_some,
    apply_ite some]

theorem pollLinkChecked_eq (hnow : now + 60000 ≤ u64Max) (s : Supervisor) :
    s.pollLinkChecked now = some (s.pollLink now) := by
  have hpoll : checkedAdd now linkPollMs = some (now + linkPollMs) :=
    checkedAdd_eq (by simp only [linkPollMs]; omega)
  have hretry : checkedAdd now sampleRetryMs = some (now + sampleRetryMs) :=
    checkedAdd_eq (by simp only [sampleRetryMs]; omega)
  simp only [pollLinkChecked, pollLink, hpoll, hretry, Option.bind_eq_bind, Option.bind_some,
    apply_ite some]

theorem wakeWirelessChecked_eq (hnow : now + 60000 ≤ u64Max) (s : Supervisor) :
    s.wakeWirelessChecked now = some (s.wakeWireless now) := by
  have htick : checkedAdd now wirelessTickMs = some (now + wirelessTickMs) :=
    checkedAdd_eq (by simp only [wirelessTickMs]; omega)
  simp only [wakeWirelessChecked, wakeWireless, htick, Option.bind_eq_bind, Option.bind_some,
    apply_ite some]

theorem handleWakeChecked_eq (hnow : now + 60000 ≤ u64Max) (s : Supervisor) :
    s.handleWakeChecked now = some (s.handleWake now) := by
  simp only [handleWakeChecked, handleWake, wakeWired, pollLinkChecked_eq hnow,
    wakeWirelessChecked_eq hnow, Option.bind_eq_bind, Option.bind_some]

theorem applyLinkChecked_eq (hnow : now + 60000 ≤ u64Max) (s : Supervisor)
    (next : Option Bool) (wall : ℕ) :
    s.applyLinkChecked next now wall = some (s.applyLink next now wall) := by
  have hpoll : checkedAdd now linkPollMs = some (now + linkPollMs) :=
    checkedAdd_eq (by simp only [linkPollMs]; omega)
  simp only [applyLinkChecked, applyLink, hpoll, Option.bind_eq_bind, Option.bind_some,
    apply_ite some]

theorem handleLinkSampledChecked_eq (hnow : now + 60000 ≤ u64Max) (s : Supervisor)
    (up : Option Bool) (pppIp : Option String) (wall : ℕ) :
    s.handleLinkSampledChecked up pppIp now wall =
      some (s.handleLinkSampled up pppIp now wall) := by
  simp only [handleLinkSampledChecked, handleLinkSampled, applyLinkChecked_eq hnow,
    Option.bind_eq_bind, Option.bind_some, apply_ite some]

theorem mapM_onAuthChecked (hnow : now + 60000 ≤ u64Max) (brain : Option Brain)
    (ok : Bool) (msg : String) :
    brain.mapM (Brain.onAuthChecked · ok msg (now / 1000)) =
      some (brain.map (Brain.onAuth · ok msg (now / 1000))) := by
  cases brain with
  | none => rfl
  | some b =>
      have hsecs : now / 1000 + 30 ≤ u64Max := by omega
      simp [Option.mapM_some, Brain.onAuthChecked_eq b ok msg hsecs]

theorem handleActionChecked_eq (hnow : now + 60000 ≤ u64Max) (s : Supervisor)
    (action : Action) (wall : ℕ) :
    s.handleActionChecked action (now / 1000) wall =
      some (s.handleAction action (now / 1000) wall) := by
  cases action with
  | portalAuth =>
      simp only [handleActionChecked]
      split
      · rename_i hbusy
        simp [handleAction, hbusy]
      · rename_i hbusy
        split
        · rename_i hw
          simp [handleAction, hbusy, hw, mapM_onAuthChecked hnow]
        · rename_i wlan hw
          split
          · rename_i hg
            simp [handleAction, hbusy, hw, hg, mapM_onAuthChecked hnow]
          · rfl
  | none => rfl
  | associate => rfl
  | disassociate => rfl
  | probeNow => rfl

theorem handleWirelessSampledChecked_eq (hnow : now + 60000 ≤ u64Max)
    (htimely : ∀ b ∈ s.brain, b.Timely (now / 1000))
    (sample : WirelessSample) (wall : ℕ) :
    s.handleWirelessSampledChecked sample now wall =
      some (s.handleWirelessSampled sample now wall) := by
  unfold handleWirelessSampledChecked handleWirelessSampled
  split
  · rfl
  · cases hb : s.brain with
    | none => rfl
    | some b =>
        have hdecide := Brain.decideChecked_eq (w := s.world sample now)
          ((htimely b hb).setMode s.mode)
        simp only [Option.isNone_some, Bool.false_eq_true, if_false, hdecide, decideSample,
          handleActionChecked_eq hnow, Option.bind_eq_bind, Option.bind_some]
        split
        · rename_i hproceed
          simp [hproceed]
        · rename_i hproceed
          simp [hproceed]

variable [SerdeJson]

theorem handlePortalFinishedChecked_eq (hnow : now + 60000 ≤ u64Max) (s : Supervisor)
    (attempt : PortalAttempt) (wall : ℕ) :
    s.handlePortalFinishedChecked attempt now wall =
      some (s.handlePortalFinished attempt now wall) := by
  simp only [handlePortalFinishedChecked, handlePortalFinished, mapM_onAuthChecked hnow,
    Option.bind_eq_bind, Option.bind_some, apply_ite some]

theorem handleChecked_eq (hnow : now + 60000 ≤ u64Max)
    (htimely : ∀ b ∈ s.brain, b.Timely (now / 1000)) (wall : ℕ)
    (event : Event) : s.handleChecked now wall event = some (s.handle now wall event) := by
  cases event with
  | wake => exact handleWakeChecked_eq hnow s
  | linkSampled up pppIp => exact handleLinkSampledChecked_eq hnow s up pppIp wall
  | wirelessSampled sample => exact handleWirelessSampledChecked_eq hnow htimely sample wall
  | portalFinished attempt =>
      simp only [handleChecked, handle, handlePortalFinishedChecked_eq hnow, Option.map_some]
  | _ => rfl

theorem onChecked_eq (hnow : now + 60000 ≤ u64Max)
    (htimely : ∀ b ∈ s.brain, b.Timely (now / 1000)) (wall : ℕ)
    (event : Event) : s.onChecked now wall event = some (s.on now wall event) := by
  have hdispatch : s.dispatchChecked now wall event = some (s.dispatch now wall event) := by
    simp only [dispatchChecked, dispatch, handleChecked_eq hnow htimely,
      handleStartedChecked_eq hnow, apply_ite some]
  simp only [onChecked, on, hdispatch, Option.bind_eq_bind, Option.bind_some]

end Agreement

/-! ## The remembered times over a run -/

/-- No time the brain remembers lies after the clock reading `t`. -/
def Timely (t : ℕ) (s : Supervisor) : Prop := ∀ b ∈ s.brain, b.Timely (t / 1000)

variable {s : Supervisor} {now wall : ℕ}

theorem Timely.of_brain {s' : Supervisor} (h : s.Timely now) (hb : s'.brain = s.brain) :
    s'.Timely now := by
  rw [Timely, hb]
  exact h

theorem Timely.map {s' : Supervisor} (h : s.Timely now) {f : Brain → Brain}
    (hf : ∀ b, b.Timely (now / 1000) → (f b).Timely (now / 1000))
    (hb : s'.brain = s.brain.map f) : s'.Timely now := by
  intro b hmem
  rw [hb, Option.mem_map] at hmem
  obtain ⟨b₀, hb₀, rfl⟩ := hmem
  exact hf b₀ (h b₀ hb₀)

theorem Timely.handleAction (h : s.Timely now) (action : Action) (secs : ℕ) :
    (s.handleAction action secs wall).1.Timely now := by
  by_cases hrefused : action = .portalAuth ∧ s.authInFlight = false ∧
      s.wlan.bind (·.gateway) = none
  · obtain ⟨rfl, hfree, hlost⟩ := hrefused
    obtain ⟨msg, s', hs', hb⟩ := handleAction_refused hfree hlost secs wall
    rw [hs']
    exact h.map (fun b hb => hb.onAuth false msg secs) hb
  · exact h.of_brain (handleAction_brain hrefused secs wall)

theorem Timely.joinTimeout (h : s.Timely now) : (s.joinTimeout now wall).Timely now := by
  unfold Supervisor.joinTimeout
  split
  · exact h.map (fun b hb => hb.resetOff) rfl
  · exact h

theorem Timely.handleWirelessSampled (h : s.Timely now) (sample : WirelessSample) :
    (s.handleWirelessSampled sample now wall).1.Timely now := by
  unfold Supervisor.handleWirelessSampled
  split
  · exact h
  · split
    · rename_i hb
      exact h.of_brain rfl
    · rename_i brain hb
      have hdecided : (s.observed sample
          ((brain.setMode s.mode).decide (s.world sample now)).1).Timely now := by
        intro b hmem
        obtain rfl := Option.some.inj hmem
        exact Brain.Timely.decide (w := s.world sample now) ((h brain hb).setMode s.mode)
      have hacted := @Timely.handleAction _ _ wall hdecided
        ((brain.setMode s.mode).decide (s.world sample now)).2 (now / 1000)
      dsimp only [decideSample]
      split
      · exact hacted.joinTimeout
      · exact hacted

theorem Timely.mono {t t' : ℕ} (h : s.Timely t) (ht : t ≤ t') : s.Timely t' :=
  fun b hb => (h b hb).mono (Nat.div_le_div_right ht)

theorem new_timely (cfg : Config) (t : ℕ) : (new cfg).Timely t := by
  intro b hb
  unfold new at hb
  dsimp only at hb
  split at hb
  · split at hb
    · obtain rfl := Option.some.inj hb
      exact ⟨by simp [Brain.new], by simp [Brain.new], by simp [Brain.new]⟩
    · cases hb
  · cases hb

variable [SerdeJson]

theorem Timely.handlePortalFinished (h : s.Timely now) (attempt : PortalAttempt) :
    (s.handlePortalFinished attempt now wall).Timely now := by
  unfold Supervisor.handlePortalFinished
  split
  · exact h
  · exact h.map (fun b hb => hb.onAuth _ _ _) rfl

theorem Timely.handle (h : s.Timely now) (event : Event) :
    (s.handle now wall event).1.Timely now := by
  cases event with
  | started => exact h
  | wake => exact h.of_brain (handleWake_brain s now)
  | command cmd =>
      cases cmd with
      | redial => exact h
      | setMode mode => exact h.map (fun b hb => hb.setMode mode) rfl
  | linkSampled up pppIp => exact h.of_brain (handleLinkSampled_brain s up pppIp now wall)
  | watchdogStepped step => exact h.of_brain (handleWatchdogStepped_brain s step now)
  | wirelessSampled sample => exact h.handleWirelessSampled sample
  | associateFinished res => exact h.of_brain (handleAssociateFinished_brain s now)
  | portalFinished attempt => exact h.handlePortalFinished attempt
  | wlanProbeFinished verdict => exact h.of_brain (handleProbeFinished_brain s verdict wall)
  | heartbeat status => exact h
  | notifyResult key delivered => exact h
  | wirelessDied =>
      unfold Supervisor.handle handleWirelessDied
      dsimp only
      split
      · exact h
      · intro b hmem
        simp at hmem
  | stop => exact h.of_brain (handleStop_brain s wall)

theorem Timely.step {i : Input} (h : s.Timely i.now) : (s.step i).1.Timely i.now := by
  obtain ⟨snap, hstate⟩ := s.step_state i
  rw [hstate]
  rcases s.dispatch_cases i.now i.wall i.event with ⟨_, hd⟩ | ⟨_, _, hd⟩ | ⟨_, _, hd⟩
  · rw [hd]
    exact h
  · rw [hd]
    exact h.of_brain (handleStarted_brain s i.now i.wall)
  · rw [hd]
    exact h.handle i.event

theorem after_timely {cfg : Config} {is : List Input} {t : ℕ}
    (hclock : Machine.NonDecreasing (·.now) is) (ht : ∀ i ∈ is, i.now ≤ t) :
    (after cfg is).Timely t :=
  Machine.timed_induction (·.now) (A := fun _ => True) (I := Timely)
    (fun ht h => h.mono ht) (fun ht h _ => (h.mono ht).step) (new_timely cfg 0) hclock
    (fun _ _ => trivial) (fun _ _ => Nat.zero_le _) ht (Nat.zero_le _)

end Supervisor

/-- On every run whose clock never goes back and stays a minute below the end
of `u64`, every call of the checked reducer returns, and returns what the model
returns. -/
theorem reducer_never_panics [SerdeJson] (cfg : Config) (is : List Input)
    (hclock : Machine.NonDecreasing (·.now) is)
    (hmax : ∀ i ∈ is, i.now ≤ 2 ^ 64 - 1 - 60000) :
    ∀ r ∈ Supervisor.history cfg is,
      r.pre.onChecked r.input.now r.input.wall r.input.event = some (r.post, r.out) := by
  intro r hr
  obtain ⟨before, i, later, rfl, rfl⟩ := Machine.exists_split_of_mem hr
  have hi : i.now + 60000 ≤ u64Max := by
    have := hmax i (by simp)
    simp only [u64Max]
    omega
  have hbefore := List.pairwise_append.mp hclock
  exact Supervisor.onChecked_eq hi
    (Supervisor.after_timely hbefore.1 (fun j hj => hbefore.2.2 j hj i (by simp))) i.wall i.event

-- A clock that goes back is what the checks are about: the brain saw the wired
-- side healthy at 10 s and is asked again at 9 s.
example : Brain.decideChecked
    { Brain.new .wiredExclusive 8 10 30 with healthySince := some 10 }
    ⟨9, true, true, false, false, none⟩ = none := by decide

/-- A login that is never answered, and its retry. -/
theorem reducer_never_panics_retry :
    Supervisor.retryRun.length = 8 ∧
    ∀ r ∈ @Supervisor.history replyJson Supervisor.standbyCfg Supervisor.retryRun,
      @Supervisor.onChecked replyJson r.pre r.input.now r.input.wall r.input.event =
        some (r.post, r.out) :=
  ⟨rfl, @reducer_never_panics replyJson Supervisor.standbyCfg Supervisor.retryRun
    (by simp [Machine.NonDecreasing, Supervisor.retryRun, Supervisor.loginRun,
      Supervisor.joinRun, Supervisor.loginInput, Supervisor.noReply, Supervisor.retryInput])
    (by decide)⟩

end GdutNet
