import GdutNet.Watchdog
import GdutNet.Wireless.Egress
import GdutNet.Wireless.Portal

/-!
# Events, effects and the notification ledger

What goes into the supervisor and what comes out of it (`supervisor.rs`), and
the toast throttle of `supervisor/notification.rs`.
-/

namespace GdutNet

structure WlanSample where
  ipv4 : Ipv4Addr
  gateway : Option Ipv4Addr
  ifindex : ℕ
deriving DecidableEq, Repr

structure WirelessSample where
  associated : Bool := false
  wlan : Option WlanSample := none
deriving DecidableEq, Repr

inductive PortalAttempt where
  | replied (status : ℕ) (body : String)
  | noReply
  | timedOut
  | failed (msg : String)
deriving DecidableEq, Repr

structure WatchdogStep where
  delay : Duration
  session : SessionView
  pppIp : Option String
deriving DecidableEq, Repr

inductive ToastKey where
  | heartbeatError
  | redialFailing
deriving DecidableEq, Repr

inductive Event where
  | started
  | wake
  | command (cmd : Command)
  | linkSampled (up : Option Bool) (pppIp : Option String)
  | watchdogStepped (step : WatchdogStep)
  | wirelessSampled (sample : WirelessSample)
  | associateFinished (res : Except String Unit)
  | portalFinished (attempt : PortalAttempt)
  | wlanProbeFinished (verdict : ProbeVerdict)
  | heartbeat (status : HeartbeatStatus)
  | notifyResult (key : ToastKey) (delivered : Bool)
  | wirelessDied
  | stop

inductive Effect where
  | stepWatchdog
  | requestRedial
  | setWatchdogLink (up : Option Bool)
  | hangup
  | sampleLink
  | sampleWireless
  | cleanupStaleRoutes
  | associate (profile : String)
  | disassociate
  | acquireWirelessEgress (endpoint : WlanEndpoint)
  | suppressMetric (ifindex target : ℕ)
  | releaseMetric
  | teardownRoutes
  | settle (wait : Duration)
  | portalAuth (srcIp : Ipv4Addr) (timeout : Duration)
  | wlanProbe (srcIp : Ipv4Addr) (gateway : Option Ipv4Addr) (url : String)
  | persistMode (mode : NetMode)
  | notify (key : ToastKey) (title body : String)
deriving DecidableEq, Repr

inductive Lane where
  | main
  | wireless
deriving DecidableEq, Repr

/-- Every effect runs in exactly one lane: inline, or on the wireless worker. -/
def Effect.lane : Effect → Lane
  | .stepWatchdog | .requestRedial | .setWatchdogLink _ | .hangup | .sampleLink
  | .sampleWireless | .persistMode _ | .notify _ _ _ => .main
  | .cleanupStaleRoutes | .associate _ | .disassociate | .acquireWirelessEgress _
  | .suppressMetric _ _ | .releaseMetric | .teardownRoutes | .settle _
  | .portalAuth _ _ | .wlanProbe _ _ _ => .wireless

structure Reaction where
  effects : List Effect
  snapshot : Option StateSnapshot
  wakeAt : Option ℕ
deriving DecidableEq, Repr

/-! ## Notifications -/

def notifyThrottleMs : ℕ := 30 * 60 * 1000

structure NotificationLedger where
  inFlight : List ToastKey := []
  deliveredAt : List (ToastKey × ℕ) := []
deriving DecidableEq, Repr

namespace NotificationLedger

/-- A result nobody waits for is ignored; only a delivered toast opens the
throttle window. -/
def onResult (l : NotificationLedger) (key : ToastKey) (delivered : Bool) (now : ℕ) :
    NotificationLedger :=
  if key ∈ l.inFlight then
    let l := { l with inFlight := l.inFlight.erase key }
    if delivered then
      { l with deliveredAt := l.deliveredAt.filter (·.1 ≠ key) ++ [(key, now)] }
    else l
  else l

def throttled (l : NotificationLedger) (key : ToastKey) (now : ℕ) : Bool :=
  match l.deliveredAt.find? (·.1 = key) with
  | some (_, sent) => now - sent < notifyThrottleMs
  | none => false

def maybeNotify (l : NotificationLedger) (key : ToastKey) (title body : String)
    (now : ℕ) : NotificationLedger × List Effect :=
  if key ∈ l.inFlight || l.throttled key now then (l, [])
  else ({ l with inFlight := l.inFlight ++ [key] }, [.notify key title body])

theorem mem_maybeNotify {l : NotificationLedger} {key : ToastKey}
    {title body : String} {now : ℕ} {e : Effect}
    (h : e ∈ (l.maybeNotify key title body now).2) : e = .notify key title body := by
  unfold maybeNotify at h
  split at h
  · simp at h
  · simpa using h

end NotificationLedger

end GdutNet
