import GdutNet.Base

/-!
# The state the service publishes

The enumerations and records of `ipc/protocol.rs` that the supervisor reads
and writes, and the event ring behind the snapshot's `events`.
-/

namespace GdutNet

inductive SessionStatus where
  | idle
  | dialing
  | connected
  | backoff
  | authFail
deriving DecidableEq, Repr

inductive HeartbeatStatus where
  | off
  | running
  | error (e : String)
deriving DecidableEq, Repr

inductive NetMode where
  | wiredExclusive
  | wiredPlusStandby
deriving DecidableEq, Repr

inductive WPhase where
  | off
  | joining
  | authing
  | online
  | error
deriving DecidableEq, Repr

structure WirelessSnapshot where
  phase : WPhase := .off
  ip : Option String := none
  lastError : Option String := none
deriving DecidableEq, Repr

structure StateSnapshot where
  status : SessionStatus
  sinceUnix : Option ℕ
  ip : Option String
  lastDropReason : Option String
  redialAttempts : ℕ
  heartbeat : HeartbeatStatus
  mode : NetMode
  wireless : WirelessSnapshot
  events : List String
deriving DecidableEq, Repr

inductive Command where
  | redial
  | setMode (mode : NetMode)
deriving DecidableEq, Repr

/-- The event ring: at most `cap` lines, the oldest dropped first. -/
structure EventLog where
  cap : ℕ := 20
  ring : List String := []
deriving DecidableEq, Repr

/-- The line `push` writes: UTC `[HH:MM:SS]` and the message. -/
def eventLine (unixSecs : ℕ) (msg : String) : String :=
  let d := unixSecs % 86400
  "[" ++ pad2 (d / 3600) ++ ":" ++ pad2 (d % 3600 / 60) ++ ":" ++ pad2 (d % 60) ++
    "] " ++ msg

def EventLog.push (log : EventLog) (unixSecs : ℕ) (msg : String) : EventLog :=
  let ring := if log.cap ≤ log.ring.length then log.ring.tail else log.ring
  { log with ring := ring ++ [eventLine unixSecs msg] }

example : eventLine 3661 "up" = "[01:01:01] up" := by decide

end GdutNet
