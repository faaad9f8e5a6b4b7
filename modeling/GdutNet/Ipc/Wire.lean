import GdutNet.Ipc.Protocol
import GdutNet.Stream.Json

/-!
# The messages of the pipe, as JSON

What the `Serialize` derives of `ipc/protocol.rs` write: fields in their
order, `snake_case` variant names, and the variant of a message under `"t"`.
-/

namespace GdutNet

open Json

inductive ServerMsg where
  | state (state : StateSnapshot)
deriving DecidableEq, Repr

inductive ClientMsg where
  | cmd (c : Command)
deriving DecidableEq, Repr

def SessionStatus.json : SessionStatus → List UInt8
  | .idle => name "idle"
  | .dialing => name "dialing"
  | .connected => name "connected"
  | .backoff => name "backoff"
  | .authFail => name "auth_fail"

def NetMode.json : NetMode → List UInt8
  | .wiredExclusive => name "wired_exclusive"
  | .wiredPlusStandby => name "wired_plus_standby"

def WPhase.json : WPhase → List UInt8
  | .off => name "off"
  | .joining => name "joining"
  | .authing => name "authing"
  | .online => name "online"
  | .error => name "error"

def Command.json : Command → List UInt8
  | .redial => object [("t", name "redial")]
  | .setMode mode => object [("t", name "set_mode"), ("mode", mode.json)]

/-- `serde_json::to_vec` of a client's message. -/
def ClientMsg.toVec : ClientMsg → List UInt8
  | .cmd c => object [("t", name "cmd"), ("c", c.json)]

section Texts

variable (e : Escape)

def HeartbeatStatus.json : HeartbeatStatus → List UInt8
  | .off => name "off"
  | .running => name "running"
  | .error msg => object [("error", quote e msg)]

def WirelessSnapshot.json (w : WirelessSnapshot) : List UInt8 :=
  object
    [("phase", w.phase.json), ("ip", orNull (quote e) w.ip),
      ("last_error", orNull (quote e) w.lastError)]

def StateSnapshot.json (s : StateSnapshot) : List UInt8 :=
  object
    [("status", s.status.json), ("since_unix", orNull number s.sinceUnix),
      ("ip", orNull (quote e) s.ip),
      ("last_drop_reason", orNull (quote e) s.lastDropReason),
      ("redial_attempts", number s.redialAttempts), ("heartbeat", s.heartbeat.json e),
      ("mode", s.mode.json), ("wireless", s.wireless.json e),
      ("events", array (s.events.map (quote e)))]

/-- `serde_json::to_vec` of the service's message. -/
def ServerMsg.toVec : ServerMsg → List UInt8
  | .state s => object [("t", name "state"), ("state", s.json e)]

end Texts

/-! ## No control bytes -/

theorem SessionStatus.json_printable (s : SessionStatus) : Printable s.json := by
  cases s <;> decide

theorem NetMode.json_printable (m : NetMode) : Printable m.json := by
  cases m <;> decide

theorem WPhase.json_printable (p : WPhase) : Printable p.json := by
  cases p <;> decide

theorem ClientMsg.toVec_printable (m : ClientMsg) : Printable m.toVec := by
  rcases m with ⟨_ | ⟨_ | _⟩⟩ <;> decide

theorem orNull_printable {α : Type*} {f : α → List UInt8}
    (hf : ∀ a, Printable (f a)) (a : Option α) : Printable (orNull f a) := by
  cases a with
  | none => exact (by decide : Printable (utf8 "null"))
  | some a => exact hf a

section Texts

variable (e : Escape)

theorem HeartbeatStatus.json_printable (h : HeartbeatStatus) : Printable (h.json e) := by
  cases h with
  | off => exact (by decide : Printable (name "off"))
  | running => exact (by decide : Printable (name "running"))
  | error msg =>
      apply object_printable
      simp only [List.forall_mem_singleton]
      exact ⟨by decide, quote_printable e msg⟩

theorem WirelessSnapshot.json_printable (w : WirelessSnapshot) :
    Printable (w.json e) := by
  apply object_printable
  simp only [List.forall_mem_cons]
  exact ⟨⟨by decide, w.phase.json_printable⟩,
    ⟨by decide, orNull_printable (quote_printable e) _⟩,
    ⟨by decide, orNull_printable (quote_printable e) _⟩, by simp⟩

theorem events_printable (lines : List String) :
    Printable (array (lines.map (quote e))) := by
  apply array_printable
  intro v hv
  obtain ⟨line, -, rfl⟩ := List.mem_map.mp hv
  exact quote_printable e line

theorem StateSnapshot.json_printable (s : StateSnapshot) : Printable (s.json e) := by
  apply object_printable
  simp only [List.forall_mem_cons]
  exact ⟨⟨by decide, s.status.json_printable⟩,
    ⟨by decide, orNull_printable number_printable _⟩,
    ⟨by decide, orNull_printable (quote_printable e) _⟩,
    ⟨by decide, orNull_printable (quote_printable e) _⟩,
    ⟨by decide, number_printable _⟩,
    ⟨by decide, s.heartbeat.json_printable e⟩,
    ⟨by decide, s.mode.json_printable⟩,
    ⟨by decide, s.wireless.json_printable e⟩,
    ⟨by decide, events_printable e s.events⟩, by simp⟩

theorem ServerMsg.toVec_printable (m : ServerMsg) : Printable (m.toVec e) := by
  cases m with
  | state s =>
      apply object_printable
      simp only [List.forall_mem_cons]
      exact ⟨⟨by decide, by decide⟩, ⟨by decide, s.json_printable e⟩, by simp⟩

end Texts

example : (ClientMsg.cmd .redial).toVec =
    utf8 "\x7b\"t\":\"cmd\",\"c\":\x7b\"t\":\"redial\"\x7d\x7d" := by decide

end GdutNet
