import GdutNet.Config

/-!
# The wireless decision core

`Brain` of `wireless/mod.rs`: a phase, three remembered times and the login
retry state. `decide` maps one observation of the world to at most one action.
Times are seconds here, as in the source.

The `Decided` relation says once what a decision can do to the phase, the busy
flag and the retry timer; the supervisor's invariants only use that.
-/

namespace GdutNet

/-- Delays after a failed login, in seconds. -/
def authRetryDelays : List ℕ := [5, 15, 30]

/-- How long a join may wait for an address. -/
def joinTimeoutSecs : ℕ := 60

/-- What the manager observes at one tick. -/
structure World where
  now : ℕ
  ethLinkUp : Bool
  wiredConnected : Bool
  wlanAssociated : Bool
  wlanIp : Bool
  probe : Option ProbeVerdict
deriving DecidableEq, Repr

/-- The wired side is up: link and session together. -/
def World.wiredHealthy (w : World) : Bool := w.ethLinkUp && w.wiredConnected

inductive Action where
  | none
  | associate
  | disassociate
  | portalAuth
  | probeNow
deriving DecidableEq, Repr

structure Brain where
  mode : NetMode
  phase : WPhase := .off
  unhealthySince : Option ℕ := .none
  healthySince : Option ℕ := .none
  lastProbeAt : Option ℕ := .none
  authBusy : Bool := false
  authFailCount : ℕ := 0
  nextAuthAt : Option ℕ := .none
  lastError : Option String := .none
  takeoverAfter : ℕ
  releaseAfter : ℕ
  probeInterval : ℕ
deriving DecidableEq, Repr

namespace Brain

def new (mode : NetMode) (takeoverAfter releaseAfter probeInterval : ℕ) : Brain :=
  { mode, takeoverAfter, releaseAfter, probeInterval }

def setMode (b : Brain) (m : NetMode) : Brain := { b with mode := m }

def startJoin (b : Brain) : Brain × Action :=
  ({ b with phase := .joining, authBusy := false, nextAuthAt := none,
            lastError := none }, .associate)

def resetOff (b : Brain) : Brain :=
  { b with phase := .off, authBusy := false, nextAuthAt := none,
           lastError := none, lastProbeAt := none }

def restart (b : Brain) : Brain := b.resetOff

def onAuth (b : Brain) (ok : Bool) (msg : String) (now : ℕ) : Brain :=
  let b := { b with authBusy := false }
  if ok then
    { b with phase := .online, authFailCount := 0, nextAuthAt := none,
             lastError := none, lastProbeAt := none }
  else
    let count := min (b.authFailCount + 1) u32Max
    let idx := min (count - 1) (authRetryDelays.length - 1)
    { b with authFailCount := count
             nextAuthAt := some (now + authRetryDelays.getD idx 0)
             phase := .error
             lastError := some msg }

def snapshot (b : Brain) : WirelessSnapshot :=
  { phase := b.phase, ip := none, lastError := b.lastError }

/-- The retry timer has run out, or none is set. -/
def retryDue (b : Brain) (w : World) : Bool := b.nextAuthAt.all (· ≤ w.now)

/-- Keeping the wireless side up: standby mode always, exclusive mode while the
wired side is away. -/
def keepWireless (b : Brain) (w : World) : Brain × Action :=
  match b.phase with
  | .off => b.startJoin
  | .error => if b.retryDue w then b.startJoin else (b, .none)
  | .joining =>
      if w.wlanAssociated && w.wlanIp then
        ({ b with phase := .authing, authBusy := true, nextAuthAt := none },
          .portalAuth)
      else (b, .none)
  | .authing =>
      if !b.authBusy && b.retryDue w then ({ b with authBusy := true }, .portalAuth)
      else (b, .none)
  | .online =>
      if w.probe = some .kicked then
        ({ b with phase := .authing, authBusy := true, nextAuthAt := none },
          .portalAuth)
      else if !w.wlanAssociated || !w.wlanIp then b.startJoin
      else if b.lastProbeAt.all (fun t => b.probeInterval ≤ w.now - t) then
        ({ b with lastProbeAt := some w.now }, .probeNow)
      else (b, .none)

def decide (b : Brain) (w : World) : Brain × Action :=
  match b.mode with
  | .wiredPlusStandby => b.keepWireless w
  | .wiredExclusive =>
      if w.wiredHealthy then
        let since := b.healthySince.getD w.now
        let b := { b with unhealthySince := none, healthySince := some since }
        if b.releaseAfter ≤ w.now - since && b.phase ≠ .off then
          (b.resetOff, .disassociate)
        else (b, .none)
      else
        let since := b.unhealthySince.getD w.now
        let b := { b with healthySince := none, unhealthySince := some since }
        match b.phase with
        | .off => if b.takeoverAfter ≤ w.now - since then b.startJoin else (b, .none)
        | .error => if b.retryDue w then b.startJoin else (b, .none)
        | _ => b.keepWireless w

/-! ## What a decision depends on

The guards of `decide`, read off the state before it and the observation. -/

/-- The wired side has been healthy long enough for the WLAN to be released. -/
def releases (b : Brain) (w : World) : Bool :=
  b.mode = .wiredExclusive && w.wiredHealthy &&
    b.releaseAfter ≤ w.now - b.healthySince.getD w.now && b.phase ≠ .off

/-- The brain keeps the wireless side up on this observation: always in
standby, in exclusive mode while the wired side is away. -/
def tending (b : Brain) (w : World) : Bool :=
  b.mode = .wiredPlusStandby || !w.wiredHealthy

/-- Exclusive mode has waited out its takeover delay; standby has none. -/
def debounced (b : Brain) (w : World) : Bool :=
  b.mode = .wiredPlusStandby ||
    b.takeoverAfter ≤ w.now - b.unhealthySince.getD w.now

/-- The observation starts a new join. -/
def startsJoin (b : Brain) (w : World) : Bool :=
  b.tending w && match b.phase with
    | .off => b.debounced w
    | .error => b.retryDue w
    | .online => w.probe ≠ some .kicked && (!w.wlanAssociated || !w.wlanIp)
    | .joining | .authing => false

/-- The observation leaves a running join waiting. -/
def keepsJoining (b : Brain) (w : World) : Bool :=
  b.phase = .joining && !b.releases w &&
    !(b.tending w && w.wlanAssociated && w.wlanIp)

/-- What one decision can do. -/
inductive Decided (b : Brain) (w : World) (b' : Brain) : Action → Prop
  | idle (hphase : b'.phase = b.phase) (hbusy : b'.authBusy = b.authBusy)
      (hnext : b'.nextAuthAt = b.nextAuthAt)
      (hwait : b.phase = .joining → b.keepsJoining w) : Decided b w b' .none
  | join (hstart : b.startsJoin w) (hphase : b'.phase = .joining)
      (hbusy : b'.authBusy = false) : Decided b w b' .associate
  | release (hrel : b.releases w) (hphase : b'.phase = .off)
      (hbusy : b'.authBusy = false) : Decided b w b' .disassociate
  | login (hfrom : (b.phase = .joining ∧ w.wlanAssociated ∧ w.wlanIp) ∨
        (b.phase = .online ∧ w.probe = some .kicked) ∨
        (b.phase = .authing ∧ b.authBusy = false))
      (hphase : b'.phase = .authing) (hbusy : b'.authBusy = true) :
      Decided b w b' .portalAuth
  | probe (hfrom : b.phase = .online) (hkick : w.probe ≠ some .kicked)
      (hphase : b'.phase = .online) (hbusy : b'.authBusy = b.authBusy)
      (hnext : b'.nextAuthAt = b.nextAuthAt) : Decided b w b' .probeNow

theorem startsJoin_phase {b : Brain} {w : World} (h : b.startsJoin w) :
    b.phase = .off ∨ b.phase = .error ∨ b.phase = .online := by
  unfold startsJoin at h
  cases hp : b.phase <;> simp [hp] at h ⊢

theorem keepsJoining_phase {b : Brain} {w : World} (h : b.keepsJoining w) :
    b.phase = .joining := by
  simp only [keepsJoining, Bool.and_eq_true, decide_eq_true_eq] at h
  exact h.1.1

/-- Only a healthy wired side in exclusive mode releases. -/
theorem not_releases_of_tending {b : Brain} {w : World} (h : b.tending w) :
    b.releases w = false := by
  simp only [tending, Bool.or_eq_true, decide_eq_true_eq, Bool.not_eq_true'] at h
  rcases h with h | h <;> simp [releases, h]

theorem startJoin_decided {b₀ b : Brain} {w : World} (h : b₀.startsJoin w) :
    Decided b₀ w b.startJoin.1 b.startJoin.2 :=
  .join h rfl rfl

/-- `keepWireless` runs on a brain whose health times were already updated, so
the lemma compares it with the brain `b₀` before that. -/
theorem keepWireless_decided {b₀ b : Brain} {w : World}
    (hphase : b.phase = b₀.phase) (hbusy : b.authBusy = b₀.authBusy)
    (hnext : b.nextAuthAt = b₀.nextAuthAt) (htend : b₀.tending w)
    (hoff : b₀.phase = .off → b₀.debounced w) :
    Decided b₀ w (b.keepWireless w).1 (b.keepWireless w).2 := by
  have hretry : b.retryDue w = b₀.retryDue w := by simp [retryDue, hnext]
  unfold keepWireless
  cases hp : b.phase with
  | off =>
      have hp₀ := hphase ▸ hp
      exact startJoin_decided (by simp [startsJoin, htend, hp₀, hoff hp₀])
  | error =>
      have hp₀ := hphase ▸ hp
      simp only
      split
      · rename_i hdue
        exact startJoin_decided (by simp [startsJoin, htend, hp₀, ← hretry, hdue])
      · exact .idle hphase hbusy hnext (fun h => by simp [← hphase, hp] at h)
  | joining =>
      simp only
      split
      · rename_i hup
        rw [Bool.and_eq_true] at hup
        exact .login (.inl ⟨hphase ▸ hp, hup⟩) rfl rfl
      · rename_i hup
        refine .idle hphase hbusy hnext (fun h => ?_)
        rw [Bool.and_eq_true, not_and_or] at hup
        simpa [keepsJoining, h, htend, not_releases_of_tending htend] using hup
  | authing =>
      simp only
      split
      · rename_i hfree
        simp only [Bool.and_eq_true, Bool.not_eq_true'] at hfree
        exact .login (.inr (.inr ⟨hphase ▸ hp, hbusy ▸ hfree.1⟩)) rfl rfl
      · exact .idle hphase hbusy hnext (fun h => by simp [← hphase, hp] at h)
  | online =>
      have hp₀ := hphase ▸ hp
      simp only
      split
      · rename_i hkick
        exact .login (.inr (.inl ⟨hp₀, hkick⟩)) rfl rfl
      · rename_i hkick
        split
        · rename_i hlost
          exact startJoin_decided (by simpa [startsJoin, htend, hp₀, hkick] using hlost)
        · split
          · exact .probe hp₀ hkick rfl hbusy hnext
          · exact .idle hphase hbusy hnext (fun h => by simp [← hphase, hp] at h)

theorem decide_decided (b : Brain) (w : World) :
    Decided b w (b.decide w).1 (b.decide w).2 := by
  unfold decide
  cases hm : b.mode with
  | wiredPlusStandby =>
      exact keepWireless_decided rfl rfl rfl (by simp [tending, hm])
        (fun _ => by simp [debounced, hm])
  | wiredExclusive =>
      simp only
      split
      · rename_i hup
        split
        · rename_i hrel
          exact .release (by simpa [releases, hm, hup] using hrel) rfl rfl
        · rename_i hrel
          refine .idle rfl rfl rfl (fun h => ?_)
          simpa [keepsJoining, h, releases, tending, hm, hup] using hrel
      · rename_i hdown
        have htend : b.tending w := by simp [tending, hdown]
        split
        · rename_i hp
          split
          · rename_i hlong
            exact startJoin_decided
              (by simpa [startsJoin, htend, hp, debounced, hm] using hlong)
          · exact .idle rfl rfl rfl (fun h => by simp [hp] at h)
        · rename_i hp
          split
          · rename_i hdue
            exact startJoin_decided
              (by simpa [startsJoin, htend, hp, retryDue] using hdue)
          · exact .idle rfl rfl rfl (fun h => by simp [hp] at h)
        · rename_i hoff _
          exact keepWireless_decided rfl rfl rfl htend (fun hp => absurd hp hoff)

/-- The converse of `Decided.join`: the guard is exact. -/
theorem decide_of_startsJoin {b : Brain} {w : World} (h : b.startsJoin w) :
    (b.decide w).1.phase = .joining ∧ (b.decide w).2 = .associate := by
  simp only [startsJoin, tending, debounced, Bool.and_eq_true] at h
  obtain ⟨htend, h⟩ := h
  cases hm : b.mode <;> cases hp : b.phase <;>
    simp_all [decide, keepWireless, startJoin, retryDue]

theorem decide_of_keepsJoining {b : Brain} {w : World} (h : b.keepsJoining w) :
    (b.decide w).1.phase = .joining ∧ (b.decide w).2 = .none := by
  simp only [keepsJoining, releases, tending, Bool.and_eq_true,
    decide_eq_true_eq] at h
  obtain ⟨⟨hp, hrel⟩, hup⟩ := h
  cases hm : b.mode <;> cases hh : w.wiredHealthy <;>
    simp_all [decide, keepWireless] <;> grind

/-! ## What a decision leaves alone

The delays are fixed and only a login result touches the failure count. -/

/-- Keeping the wireless side up moves the phase and its timers only. -/
theorem keepWireless_frame (b : Brain) (w : World) :
    ∃ phase lastProbeAt authBusy nextAuthAt lastError, (b.keepWireless w).1 =
      { b with phase, lastProbeAt, authBusy, nextAuthAt, lastError } := by
  unfold keepWireless
  split
  · exact ⟨_, _, _, _, _, rfl⟩
  · split <;> exact ⟨_, _, _, _, _, rfl⟩
  · split <;> exact ⟨_, _, _, _, _, rfl⟩
  · split <;> exact ⟨_, _, _, _, _, rfl⟩
  · split
    · exact ⟨_, _, _, _, _, rfl⟩
    · split
      · exact ⟨_, _, _, _, _, rfl⟩
      · split <;> exact ⟨_, _, _, _, _, rfl⟩

theorem keepWireless_authFailCount (b : Brain) (w : World) :
    (b.keepWireless w).1.authFailCount = b.authFailCount := by
  obtain ⟨_, _, _, _, _, h⟩ := b.keepWireless_frame w
  rw [h]

theorem decide_authFailCount (b : Brain) (w : World) :
    (b.decide w).1.authFailCount = b.authFailCount := by
  unfold decide
  split
  · exact b.keepWireless_authFailCount w
  · split
    · dsimp only
      split <;> rfl
    · dsimp only
      split
      · split <;> rfl
      · split <;> rfl
      · exact keepWireless_authFailCount _ w

end Brain

end GdutNet
