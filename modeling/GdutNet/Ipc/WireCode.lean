import GdutNet.Ipc.Server
import GdutNet.Stream.JsonCode

/-!
# What the bytes of the pipe determine

The messages of `ipc/protocol.rs` are told apart by their JSON, and a frame ends where its
line does. So the bytes of a connection determine what was sent over it, and a reader that
understands every message exists.
-/

namespace GdutNet

open Bytes Json

/-! ## Words -/

theorem SessionStatus.json_prefix_eq (a b : SessionStatus) (h : a.json <+: b.json) : a = b := by
  revert h
  cases a <;> cases b <;> decide

theorem NetMode.json_prefix_eq (a b : NetMode) (h : a.json <+: b.json) : a = b := by
  revert h
  cases a <;> cases b <;> decide

theorem WPhase.json_prefix_eq (a b : WPhase) (h : a.json <+: b.json) : a = b := by
  revert h
  cases a <;> cases b <;> decide

theorem SessionStatus.json_injective : Function.Injective SessionStatus.json :=
  fun a b h => json_prefix_eq a b (h ▸ List.prefix_rfl)

theorem NetMode.json_injective : Function.Injective NetMode.json :=
  fun a b h => json_prefix_eq a b (h ▸ List.prefix_rfl)

theorem WPhase.json_injective : Function.Injective WPhase.json :=
  fun a b h => json_prefix_eq a b (h ▸ List.prefix_rfl)

theorem SessionStatus.json_whole : Whole SessionStatus.json :=
  whole_of_prefix fun a b h => congrArg json (json_prefix_eq a b h)

theorem NetMode.json_whole : Whole NetMode.json :=
  whole_of_prefix fun a b h => congrArg json (json_prefix_eq a b h)

theorem WPhase.json_whole : Whole WPhase.json :=
  whole_of_prefix fun a b h => congrArg json (json_prefix_eq a b h)

theorem ClientMsg.toVec_code : PrefixCode ClientMsg.toVec := by
  refine code_of_prefix (fun a b h => ?_) fun a => ?_
  · revert h
    rcases a with ⟨_ | ⟨_ | _⟩⟩ <;> rcases b with ⟨_ | ⟨_ | _⟩⟩ <;> decide
  · rcases a with ⟨_ | ⟨_ | _⟩⟩ <;> decide

/-! ## Records -/

section Records

variable {e : Escape}

theorem quote_avoids (e : Escape) {c : UInt8} (hc : c ≠ 0x22) : Avoids (quote e) c := by
  intro s xs rest h
  rw [quote, List.cons_append, List.cons.injEq] at h
  exact hc h.1.symm

theorem text_whole (he : e.Readable) : Whole (orNull (quote e)) :=
  whole_orNull (whole_of_code (quote_code he)) (quote_avoids e (by decide))

theorem quote_injective (he : e.Readable) : Function.Injective (quote e) :=
  code_injective (quote_code he)

theorem text_injective (he : e.Readable) : Function.Injective (orNull (quote e)) :=
  orNull_injective (quote_injective he) (quote_avoids e (by decide))

/-- The words of a heartbeat that is well. -/
theorem name_off : name "off" = [0x22, 0x6f, 0x66, 0x66, 0x22] := by decide

theorem name_running :
    name "running" = [0x22, 0x72, 0x75, 0x6e, 0x6e, 0x69, 0x6e, 0x67, 0x22] := by decide

theorem HeartbeatStatus.json_code (he : e.Readable) : PrefixCode (HeartbeatStatus.json e) where
  inj {a b xs ys} h := by
    cases a with
    | off => cases b <;> simp [json, name_off, name_running, object] at h ⊢
    | running => cases b <;> simp [json, name_off, name_running, object] at h ⊢
    | error msg =>
        cases b with
        | off => simp [json, name_off, object] at h
        | running => simp [json, name_running, object] at h
        | error msg' =>
            have hwhole : ∀ p ∈ [("error", quote e)], Whole p.2 := by
              simpa using whole_of_code (quote_code he)
            have hmsg := (object_inj hwhole h).1 _ List.mem_cons_self
            rw [quote_injective he hmsg]
  ne_nil a := by cases a <;> simp [json, name, object]

def WirelessSnapshot.fields (e : Escape) : List (String × (WirelessSnapshot → List UInt8)) :=
  [("phase", fun w => w.phase.json), ("ip", fun w => orNull (quote e) w.ip),
    ("last_error", fun w => orNull (quote e) w.lastError)]

theorem WirelessSnapshot.json_code (he : e.Readable) : PrefixCode (WirelessSnapshot.json e) where
  inj {a b xs ys} h := by
    have hwhole : ∀ p ∈ fields e, Whole p.2 := by
      simp only [fields, List.forall_mem_cons]
      exact ⟨WPhase.json_whole.comp _, (text_whole he).comp _, (text_whole he).comp _, by simp⟩
    have hfields := (object_inj hwhole h).1
    simp only [fields, List.forall_mem_cons] at hfields
    obtain ⟨hphase, hip, herror, -⟩ := hfields
    rcases a with ⟨phase, ip, lastError⟩
    rcases b with ⟨phase', ip', lastError'⟩
    obtain rfl : phase = phase' := WPhase.json_injective hphase
    obtain rfl : ip = ip' := text_injective he hip
    obtain rfl : lastError = lastError' := text_injective he herror
    rfl
  ne_nil _ := List.cons_ne_nil _ _

def StateSnapshot.fields (e : Escape) : List (String × (StateSnapshot → List UInt8)) :=
  [("status", fun s => s.status.json), ("since_unix", fun s => orNull number s.sinceUnix),
    ("ip", fun s => orNull (quote e) s.ip),
    ("last_drop_reason", fun s => orNull (quote e) s.lastDropReason),
    ("redial_attempts", fun s => number s.redialAttempts),
    ("heartbeat", fun s => s.heartbeat.json e), ("mode", fun s => s.mode.json),
    ("wireless", fun s => s.wireless.json e), ("events", fun s => array (s.events.map (quote e)))]

theorem StateSnapshot.json_code (he : e.Readable) : PrefixCode (StateSnapshot.json e) where
  inj {a b xs ys} h := by
    have hnull : Avoids number 0x6e := @number_avoids 'n' 0x6e (by decide) (by decide)
    have hlines : PrefixCode fun lines : List String => array (lines.map (quote e)) :=
      array_code (whole_of_code (quote_code he)) (quote_injective he) (quote_avoids e (by decide))
    have hwhole : ∀ p ∈ fields e, Whole p.2 := by
      simp only [fields, List.forall_mem_cons]
      exact ⟨SessionStatus.json_whole.comp _, (whole_orNull whole_number hnull).comp _,
        (text_whole he).comp _, (text_whole he).comp _, whole_number.comp _,
        (whole_of_code (HeartbeatStatus.json_code he)).comp _, NetMode.json_whole.comp _,
        (whole_of_code (WirelessSnapshot.json_code he)).comp _, (whole_of_code hlines).comp _,
        by simp⟩
    have hfields := (object_inj hwhole h).1
    simp only [fields, List.forall_mem_cons] at hfields
    obtain ⟨hstatus, hsince, hip, hreason, hredials, hheartbeat, hmode, hwireless, hevents, -⟩ :=
      hfields
    rcases a with ⟨status, since, ip, reason, redials, heartbeat, mode, wireless, events⟩
    rcases b with ⟨status', since', ip', reason', redials', heartbeat', mode', wireless', events'⟩
    obtain rfl : status = status' := SessionStatus.json_injective hstatus
    obtain rfl : since = since' := orNull_injective number_injective hnull hsince
    obtain rfl : ip = ip' := text_injective he hip
    obtain rfl : reason = reason' := text_injective he hreason
    obtain rfl : redials = redials' := number_injective hredials
    obtain rfl : heartbeat = heartbeat' := code_injective (HeartbeatStatus.json_code he) hheartbeat
    obtain rfl : mode = mode' := NetMode.json_injective hmode
    obtain rfl : wireless = wireless' := code_injective (WirelessSnapshot.json_code he) hwireless
    obtain rfl : events = events' := code_injective hlines hevents
    rfl
  ne_nil _ := List.cons_ne_nil _ _

theorem ServerMsg.toVec_code (he : e.Readable) : PrefixCode (ServerMsg.toVec e) where
  inj {a b xs ys} h := by
    rcases a with ⟨s⟩
    rcases b with ⟨s'⟩
    have hname : Whole fun _ : StateSnapshot => name "state" := fun _ _ _ _ _ _ _ => rfl
    have hwhole : ∀ p ∈ [("t", fun _ : StateSnapshot => name "state"),
        ("state", StateSnapshot.json e)], Whole p.2 := by
      simp only [List.forall_mem_cons]
      exact ⟨hname, whole_of_code (StateSnapshot.json_code he), by simp⟩
    have hstate := (object_inj hwhole h).1 _ (List.mem_cons_of_mem _ List.mem_cons_self)
    rw [code_injective (StateSnapshot.json_code he) hstate]
  ne_nil m := by
    cases m
    exact List.cons_ne_nil _ _

end Records

/-! ## Frames -/

theorem encodeFrame_code {μ : Type*} {toVec : μ → List UInt8} (h : PrefixCode toVec) :
    PrefixCode (encodeFrame toVec) where
  inj {a b xs ys} heq := by
    rw [encodeFrame, encodeFrame, List.append_assoc, List.append_assoc] at heq
    exact h.inj heq
  ne_nil m := by simp [encodeFrame]

/-- A reader that understands every frame, and nothing else. -/
theorem frame_reader {μ : Type*} {toVec : μ → List UInt8} (h : PrefixCode toVec) :
    ∃ read : List UInt8 → Option μ, ∀ m frame, read frame = some m ↔ encodeFrame toVec m = frame :=
  ⟨Function.partialInv (encodeFrame toVec),
    fun m frame => (code_injective (encodeFrame_code h)).isPartialInv m frame⟩

/-- **The bytes of the pipe are unambiguous.** A reader exists that understands every
frame of the service, and one every frame of a client. What was sent so far is determined
by the bytes sent so far, and so is what a connection has shown. -/
theorem wire_unambiguous (e : Escape) (he : e.Readable) :
    (∃ read : List UInt8 → Option ServerMsg, ∀ m frame,
      read frame = some m ↔ encodeFrame (ServerMsg.toVec e) m = frame) ∧
    (∃ read : List UInt8 → Option ClientMsg, ∀ m frame,
      read frame = some m ↔ encodeFrame ClientMsg.toVec m = frame) ∧
    (∀ sent sent' : List ServerMsg,
      (sent.map (encodeFrame (ServerMsg.toVec e))).flatten <+:
        (sent'.map (encodeFrame (ServerMsg.toVec e))).flatten → sent <+: sent') ∧
    (∀ sent sent' : List ClientMsg,
      (sent.map (encodeFrame ClientMsg.toVec)).flatten <+:
        (sent'.map (encodeFrame ClientMsg.toVec)).flatten → sent <+: sent') ∧
    ∀ c c' : Conn, (c.frames e).flatten <+: (c'.frames e).flatten → c.written <+: c'.written := by
  refine ⟨frame_reader (ServerMsg.toVec_code he), frame_reader ClientMsg.toVec_code,
    fun sent sent' h => code_stream (encodeFrame_code (ServerMsg.toVec_code he)) h,
    fun sent sent' h => code_stream (encodeFrame_code ClientMsg.toVec_code) h, ?_⟩
  intro c c' h
  have hstate : PrefixCode fun s => encodeFrame (ServerMsg.toVec e) (.state s) :=
    { inj := fun heq => ServerMsg.state.inj ((encodeFrame_code (ServerMsg.toVec_code he)).inj heq)
      ne_nil := fun s => (encodeFrame_code (ServerMsg.toVec_code he)).ne_nil (.state s) }
  exact code_stream hstate h

theorem wire_unambiguous_minimal :
    ∃ read : List UInt8 → Option ServerMsg, ∀ m frame,
      read frame = some m ↔ encodeFrame (ServerMsg.toVec .minimal) m = frame :=
  (wire_unambiguous .minimal minimal_readable).1

end GdutNet
