import GdutNet.Config

/-!
# The wired guard

`backoff.rs` and `watchdog.rs`: dial, probe, drop and redial. The dialer and
the prober answer from outside; one `Answers` record holds what they would say
during one step, and a step returns the calls it made to them in order.
-/

namespace GdutNet

/-! ## Backoff -/

def authFailDelay : Duration := .fromSecs 600

structure Backoff where
  min : Duration
  max : Duration
  attempt : ℕ := 0
deriving DecidableEq, Repr

namespace Backoff

def nextDelay (b : Backoff) : Backoff × Duration :=
  let d := b.min.saturatingMul (2 ^ Nat.min b.attempt 20)
  ({ b with attempt := Nat.min (b.attempt + 1) u32Max },
    (d.minOf b.max).maxOf b.min)

def reset (b : Backoff) : Backoff := { b with attempt := 0 }

end Backoff

/-! ## The state machine -/

/-- Accumulated probe time after which a session counts as stable. -/
def stableResetAfter : Duration := .fromSecs 300

/-- The pause of a gated step while the cable is out. -/
def linkDownRetry : Duration := .fromSecs 5

inductive Phase where
  | idle
  | dialing
  | connected
  | backoff
  | authFail
deriving DecidableEq, Repr

def Phase.status : Phase → SessionStatus
  | .idle => .idle
  | .dialing => .dialing
  | .connected => .connected
  | .backoff => .backoff
  | .authFail => .authFail

inductive ErrKind where
  | auth
  | transient
deriving DecidableEq, Repr

structure DialError where
  kind : ErrKind
  code : ℕ
  msg : String
deriving DecidableEq, Repr

structure WatchdogCfg where
  redialMin : Duration
  redialMax : Duration
  probeInterval : Duration
  authFailDelay : Duration
deriving DecidableEq, Repr

/-- The wired facts of the published snapshot. -/
structure SessionView where
  status : SessionStatus
  sinceUnix : Option ℕ
  lastDropReason : Option String
  redialAttempts : ℕ
deriving DecidableEq, Repr

/-- `since` is kept in seconds of the UNIX epoch, the only way it is read. -/
structure Watchdog where
  cfg : WatchdogCfg
  phase : Phase := .idle
  backoff : Backoff
  attempts : ℕ := 0
  since : Option ℕ := none
  probeFails : ℕ := 0
  stableFor : Duration := .zero
  dialCalls : ℕ := 0
  lastDropReason : Option String := none
  redialRequested : Bool := false
  ethLink : Option Bool := none
deriving DecidableEq, Repr

/-- What the dialer, the prober and the wall clock answer during one step. -/
structure Answers where
  dial : Except DialError Unit
  isConnected : Bool
  probe : ProbeVerdict
  wall : ℕ

inductive DialerCall where
  | isConnected
  | probe
  | hangup
  | dial
deriving DecidableEq, Repr

namespace Watchdog

def new (cfg : WatchdogCfg) : Watchdog :=
  { cfg, backoff := { min := cfg.redialMin, max := cfg.redialMax } }

def setEthLink (wd : Watchdog) (up : Option Bool) : Watchdog :=
  { wd with ethLink := up }

def requestRedial (wd : Watchdog) : Watchdog := { wd with redialRequested := true }

def view (wd : Watchdog) : SessionView :=
  { status := wd.phase.status, sinceUnix := wd.since,
    lastDropReason := wd.lastDropReason, redialAttempts := wd.attempts }

def recordDrop (wd : Watchdog) (reason : String) : Watchdog :=
  { wd with since := none, probeFails := 0, stableFor := .zero,
            lastDropReason := some reason }

/-- Dialing. With the cable out the port is not touched at all: a dial without
carrier leaves it stuck until the system restarts. -/
def doDial (wd : Watchdog) (a : Answers) : Watchdog × Duration × List DialerCall :=
  if wd.ethLink = some false then
    ({ wd with phase := .backoff, lastDropReason := some "Ethernet link down" },
      linkDownRetry, [])
  else
    let wd := { wd with phase := .dialing, dialCalls := wd.dialCalls + 1 }
    match a.dial with
    | .ok () =>
        ({ wd with phase := .connected, since := some a.wall, probeFails := 0,
                   stableFor := .zero },
          wd.cfg.probeInterval, [.dial])
    | .error ⟨.auth, code, msg⟩ =>
        ({ wd with phase := .authFail
                   lastDropReason := some ("Auth failed " ++ toString code ++ ": " ++ msg) },
          wd.cfg.authFailDelay, [.dial])
    | .error ⟨.transient, code, msg⟩ =>
        let (backoff, delay) := wd.backoff.nextDelay
        ({ wd with backoff, attempts := min (wd.attempts + 1) u32Max, phase := .backoff
                   lastDropReason := some ("Dial failed " ++ toString code ++ ": " ++ msg) },
          delay, [.dial])

/-- Drop the session, then dial. -/
def hangupAndDial (wd : Watchdog) (reason : String) (a : Answers) :
    Watchdog × Duration × List DialerCall :=
  let (wd, delay, calls) := (wd.recordDrop reason).doDial a
  (wd, delay, .hangup :: calls)

def stepConnected (wd : Watchdog) (a : Answers) :
    Watchdog × Duration × List DialerCall :=
  if !a.isConnected then
    let (wd, delay, calls) := wd.hangupAndDial "RAS session not found" a
    (wd, delay, .isConnected :: calls)
  else
    match a.probe with
    | .alive =>
        let wd := { wd with probeFails := 0
                            stableFor := wd.stableFor.add wd.cfg.probeInterval }
        let wd :=
          if stableResetAfter.nanos ≤ wd.stableFor.nanos && 0 < wd.attempts then
            { wd with backoff := wd.backoff.reset, attempts := 0 }
          else wd
        (wd, wd.cfg.probeInterval, [.isConnected, .probe])
    | bad =>
        let wd := { wd with probeFails := wd.probeFails + 1 }
        if wd.probeFails < 2 then
          (wd, wd.cfg.probeInterval.div 4, [.isConnected, .probe])
        else
          let reason := "Probe failed " ++ toString wd.probeFails ++ " times (" ++
            bad.debug ++ ")"
          let (wd, delay, calls) := wd.hangupAndDial reason a
          (wd, delay, .isConnected :: .probe :: calls)

/-- One step: a requested redial first, otherwise probe a session or dial.
Returns the suggested delay. -/
def runOnce (wd : Watchdog) (a : Answers) : Watchdog × Duration × List DialerCall :=
  if wd.redialRequested then
    let wd := { wd with redialRequested := false }
    if wd.phase = .connected then wd.hangupAndDial "Manual redial" a
    else if a.isConnected then
      let (wd, delay, calls) := wd.hangupAndDial "Manual redial" a
      (wd, delay, .isConnected :: calls)
    else
      let (wd, delay, calls) := wd.doDial a
      (wd, delay, .isConnected :: calls)
  else
    match wd.phase with
    | .connected => wd.stepConnected a
    | _ => wd.doDial a

/-! ## The cable gate -/

theorem doDial_ethLink (wd : Watchdog) (a : Answers) :
    (wd.doDial a).1.ethLink = wd.ethLink := by
  unfold doDial
  split
  · rfl
  · simp only
    split <;> rfl

theorem doDial_gated {wd : Watchdog} {a : Answers} (h : wd.ethLink = some false) :
    .dial ∉ (wd.doDial a).2.2 := by
  simp [doDial, h]

theorem hangupAndDial_ethLink (wd : Watchdog) (reason : String) (a : Answers) :
    (wd.hangupAndDial reason a).1.ethLink = wd.ethLink :=
  doDial_ethLink (wd.recordDrop reason) a

theorem hangupAndDial_gated {wd : Watchdog} {reason : String} {a : Answers}
    (h : wd.ethLink = some false) : .dial ∉ (wd.hangupAndDial reason a).2.2 := by
  have := @doDial_gated (wd.recordDrop reason) a h
  simpa [hangupAndDial] using this

theorem stepConnected_ethLink (wd : Watchdog) (a : Answers) :
    (wd.stepConnected a).1.ethLink = wd.ethLink := by
  unfold stepConnected
  split
  · exact hangupAndDial_ethLink wd _ a
  · split
    · simp only
      split <;> rfl
    · simp only
      split
      · rfl
      · rw [hangupAndDial_ethLink]

theorem stepConnected_gated {wd : Watchdog} {a : Answers}
    (h : wd.ethLink = some false) : .dial ∉ (wd.stepConnected a).2.2 := by
  unfold stepConnected
  split
  · exact List.not_mem_cons_of_ne_of_not_mem (by decide) (hangupAndDial_gated h)
  · split
    · simp
    · simp only
      split
      · simp
      · exact List.not_mem_cons_of_ne_of_not_mem (by decide)
          (List.not_mem_cons_of_ne_of_not_mem (by decide) (hangupAndDial_gated h))

/-- A step never changes what the guard knows about the link. -/
theorem runOnce_ethLink (wd : Watchdog) (a : Answers) :
    (wd.runOnce a).1.ethLink = wd.ethLink := by
  unfold runOnce
  split
  · simp only
    split
    · rw [hangupAndDial_ethLink]
    · split
      · rw [hangupAndDial_ethLink]
      · rw [doDial_ethLink]
  · split
    · exact stepConnected_ethLink wd a
    · exact doDial_ethLink wd a

/-- With the cable out no step dials, whatever asked for it. -/
theorem runOnce_gated {wd : Watchdog} {a : Answers} (h : wd.ethLink = some false) :
    .dial ∉ (wd.runOnce a).2.2 := by
  unfold runOnce
  split
  · simp only
    split
    · exact hangupAndDial_gated h
    · split
      · exact List.not_mem_cons_of_ne_of_not_mem (by decide) (hangupAndDial_gated h)
      · exact List.not_mem_cons_of_ne_of_not_mem (by decide) (doDial_gated h)
  · split
    · exact stepConnected_gated h
    · exact doDial_gated h

end Watchdog

end GdutNet
