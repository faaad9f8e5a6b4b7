import GdutNet.Ipc.Frame
import GdutNet.Supervisor.Takeover

/-!
# Whether a snapshot fits in a frame

A published snapshot travels as one frame, and a frame has a limit. Every text
of the snapshot is short but one: the message of a failed login comes from the
portal's reply, and it is kept twice, as the last error and as a line of the
event ring.

`Slim` says what keeps a state's frame below the limit; it splits the ring into
the lines up to the last failed login, which share a budget with the last
error, and the service's own short lines after it.
-/

namespace GdutNet

open Json

/-! ## What comes in -/

/-- Bytes of a portal reply, the limit `portal::request` reads with. -/
def replyLimit : ℕ := 64 * 1024

/-- Bytes of any other incoming text. -/
def textLimit : ℕ := 1024

def shortText (s : String) : Prop := (utf8 s).length ≤ textLimit

def shortTexts (s : Option String) : Prop := ∀ t ∈ s, shortText t

/-- The texts an event brings are within their limits, and its numbers within
their types. -/
def Event.Limited : Event → Prop
  | .linkSampled _ pppIp => shortTexts pppIp
  | .watchdogStepped step =>
      shortTexts step.pppIp ∧ shortTexts step.session.lastDropReason ∧
        (∀ t ∈ step.session.sinceUnix, t ≤ u64Max) ∧ step.session.redialAttempts ≤ u32Max
  | .associateFinished (.error msg) => shortText msg
  | .portalFinished (.replied status body) =>
      (utf8 body).length ≤ replyLimit ∧ status < 2 ^ 16
  | .portalFinished (.failed msg) => shortText msg
  | .heartbeat (.error msg) => shortText msg
  | _ => True

namespace Supervisor

/-! ## The budget of the texts -/

section Budget

variable (e : Escape)

/-- The JSON bytes of some lines. -/
def linesLen (lines : List String) : ℕ := (lines.map (fun l => (quote e l).length)).sum

/-- The JSON bytes of the last error. -/
def errorLen (err : Option String) : ℕ := (err.map (fun m => (quote e m).length)).getD 0

/-- What the portal's messages may take of a frame. -/
def portalBudget : ℕ := 40000

/-- Bytes of the longest line the service writes on its own. -/
def ownLine : ℕ := 51

/-- JSON bytes of the longest error the service writes on its own. -/
def ownError : ℕ := 122

/-- The ring and the last error: the older lines and the error within the
budget, the newer lines short. -/
def Budget (ring : List String) (err : Option String) : Prop :=
  ring.length ≤ 20 ∧ ∃ older newer, ring = older ++ newer ∧
    linesLen e older ≤ portalBudget ∧
    linesLen e older + errorLen e err ≤ portalBudget + ownError ∧
    ∀ line ∈ newer, (utf8 line).length ≤ ownLine

variable {e}

@[simp] theorem linesLen_append (xs ys : List String) :
    linesLen e (xs ++ ys) = linesLen e xs + linesLen e ys := by
  simp [linesLen]

@[simp] theorem linesLen_singleton (line : String) :
    linesLen e [line] = (quote e line).length := by
  simp [linesLen]

theorem linesLen_tail_le (xs : List String) : linesLen e xs.tail ≤ linesLen e xs := by
  cases xs with
  | nil => exact le_refl _
  | cons x xs => simp [linesLen]

theorem linesLen_short {lines : List String}
    (h : ∀ line ∈ lines, (utf8 line).length ≤ ownLine) :
    linesLen e lines ≤ lines.length * 308 := by
  induction lines with
  | nil => simp [linesLen]
  | cons line lines ih =>
      obtain ⟨hline, hlines⟩ := List.forall_mem_cons.mp h
      have hq := length_quote_le e line
      have hrest := ih hlines
      simp only [linesLen, ownLine, List.map_cons, List.sum_cons, List.length_cons] at *
      omega

theorem Budget.linesLen_le {ring : List String} {err : Option String}
    (h : Budget e ring err) :
    linesLen e ring + errorLen e err ≤ portalBudget + ownError + 6160 := by
  obtain ⟨hlen, older, newer, rfl, -, hsum, hshort⟩ := h
  have hnewer := linesLen_short (e := e) hshort
  rw [List.length_append] at hlen
  rw [linesLen_append]
  omega

theorem pad2_length : ∀ n < 60, (utf8 (pad2 n)).length = 2 := by decide

theorem utf8_eventLine (wall : ℕ) (msg : String) :
    (utf8 (eventLine wall msg)).length = 11 + (utf8 msg).length := by
  have hhour := pad2_length (wall % 86400 / 3600) (by omega)
  have hmin := pad2_length (wall % 86400 % 3600 / 60) (by omega)
  have hsec := pad2_length (wall % 86400 % 60) (by omega)
  have hopen : (utf8 "[").length = 1 := by decide
  have hcolon : (utf8 ":").length = 1 := by decide
  have hclose : (utf8 "] ").length = 2 := by decide
  simp only [eventLine, utf8_append, List.length_append, hhour, hmin, hsec, hopen, hcolon,
    hclose]

/-- The lines of the ring that stay when one more is pushed. -/
def staying (log : EventLog) : List String :=
  if log.cap ≤ log.ring.length then log.ring.tail else log.ring

theorem push_ring (log : EventLog) (wall : ℕ) (msg : String) :
    (log.push wall msg).ring = staying log ++ [eventLine wall msg] := rfl

theorem staying_length {log : EventLog} (hcap : log.cap = 20)
    (h : log.ring.length ≤ 20) : (staying log).length < 20 := by
  unfold staying
  split
  · rw [List.length_tail]
    omega
  · omega

/-- A line of the service's own may always be pushed. -/
theorem Budget.push {log : EventLog} {err : Option String} (h : Budget e log.ring err)
    (hcap : log.cap = 20) {msg : String} (hmsg : (utf8 msg).length ≤ 40) (wall : ℕ) :
    Budget e (log.push wall msg).ring err := by
  have hnew : (utf8 (eventLine wall msg)).length ≤ ownLine := by
    rw [utf8_eventLine, ownLine]
    omega
  rw [push_ring]
  refine ⟨?_, ?_⟩
  · have hstay := staying_length hcap h.1
    rw [List.length_append, List.length_singleton]
    exact hstay
  obtain ⟨-, older, newer, hring, hold, hsum, hshort⟩ := h
  have happend : ∀ newer' : List String, (∀ line ∈ newer', line ∈ newer) →
      ∀ line ∈ newer' ++ [eventLine wall msg], (utf8 line).length ≤ ownLine := by
    intro newer' hsub line hline
    rcases List.mem_append.mp hline with hline | hline
    · exact hshort line (hsub line hline)
    · rw [List.mem_singleton.mp hline]
      exact hnew
  unfold staying
  rw [hring]
  split
  · -- the oldest line leaves: from the older part, or from the newer if that is empty
    cases older with
    | nil =>
        refine ⟨[], newer.tail ++ [eventLine wall msg], by simp, hold, hsum, ?_⟩
        exact happend _ (fun line hline => List.mem_of_mem_tail hline)
    | cons line older =>
        have htail := linesLen_tail_le (e := e) (line :: older)
        rw [List.tail_cons] at htail
        refine ⟨older, newer ++ [eventLine wall msg], by simp, le_trans htail hold, ?_,
          happend _ (fun _ h => h)⟩
        omega
  · exact ⟨older, newer ++ [eventLine wall msg], by simp, hold, hsum,
      happend _ (fun _ h => h)⟩

/-- The error may be dropped, or replaced by one of the service's own. -/
theorem Budget.error {ring : List String} {err err' : Option String}
    (h : Budget e ring err) (herr : err' = err ∨ errorLen e err' ≤ ownError) :
    Budget e ring err' := by
  obtain ⟨hlen, older, newer, hring, hold, hsum, hshort⟩ := h
  refine ⟨hlen, older, newer, hring, hold, ?_, hshort⟩
  rcases herr with rfl | herr
  · exact hsum
  · omega

end Budget

/-! ## The size of a frame -/

/-- A state whose snapshot fits in a frame. -/
structure Slim (e : Escape) (s : Supervisor) : Prop where
  drop : shortTexts s.session.lastDropReason
  since : ∀ t ∈ s.session.sinceUnix, t ≤ u64Max
  attempts : s.session.redialAttempts ≤ u32Max
  ip : shortTexts s.pppIp
  beat : ∀ msg, s.heartbeat = .error msg → shortText msg
  wlanIp : ∀ t ∈ s.wirelessIp, (utf8 t).length ≤ 15
  cap : s.events.cap = 20
  texts : Budget e s.events.ring (s.brain.bind (·.lastError))

theorem quote_short (e : Escape) {s : String} (h : shortText s) :
    (quote e s).length ≤ 6146 := by
  have hq := length_quote_le e s
  unfold shortText textLimit at h
  omega

theorem heartbeat_length (e : Escape) {h : HeartbeatStatus}
    (hmsg : ∀ msg, h = .error msg → shortText msg) : (h.json e).length ≤ 6157 := by
  cases h with
  | off => exact (by decide : (name "off").length ≤ 6157)
  | running => exact (by decide : (name "running").length ≤ 6157)
  | error msg =>
      have hobj := length_object_le [("error", quote e msg)]
      have hnames : namesLen ["error"] = 9 := by decide
      have hq := quote_short e (hmsg msg rfl)
      simp only [List.map_cons, List.map_nil, List.sum_cons, List.sum_nil, hnames] at hobj
      simp only [HeartbeatStatus.json]
      omega

theorem status_length (s : SessionStatus) : s.json.length ≤ 11 := by
  cases s <;> decide

theorem mode_length (m : NetMode) : m.json.length ≤ 20 := by
  cases m <;> decide

theorem phase_length (p : WPhase) : p.json.length ≤ 9 := by
  cases p <;> decide

theorem wireless_length (e : Escape) {w : WirelessSnapshot}
    (hip : ∀ t ∈ w.ip, (utf8 t).length ≤ 15) :
    (w.json e).length ≤ 136 + errorLen e w.lastError := by
  have hobj := length_object_le
    [("phase", w.phase.json), ("ip", orNull (quote e) w.ip),
      ("last_error", orNull (quote e) w.lastError)]
  have hnames : namesLen ["phase", "ip", "last_error"] = 29 := by decide
  have hp := phase_length w.phase
  have hq : (orNull (quote e) w.ip).length ≤ 92 := by
    apply length_orNull_le (by decide)
    intro t ht
    have hle := length_quote_le e t
    have hshort := hip t ht
    omega
  have herr : (orNull (quote e) w.lastError).length ≤ 4 + errorLen e w.lastError := by
    cases w.lastError with
    | none => exact (by decide : (utf8 "null").length ≤ 4)
    | some msg => simp [orNull, errorLen]
  simp only [List.map_cons, List.map_nil, List.sum_cons, List.sum_nil, hnames] at hobj
  simp only [WirelessSnapshot.json]
  omega

theorem events_length (e : Escape) {events : List String} (h : events.length ≤ 20) :
    (array (events.map (quote e))).length ≤ linesLen e events + 22 := by
  have harr := length_array_le (events.map (quote e))
  rw [List.map_map, List.length_map] at harr
  unfold linesLen
  exact le_trans harr (by simpa [Function.comp_def] using h)

theorem since_length {since : Option ℕ} (h : ∀ t ∈ since, t ≤ u64Max) :
    (orNull number since).length ≤ 20 := by
  have hmax : u64Max < 10 ^ 20 := by decide
  apply length_orNull_le (by decide)
  intro t ht
  exact length_number_le (by decide) (lt_of_le_of_lt (h t ht) hmax)

theorem attempts_length {n : ℕ} (h : n ≤ u32Max) : (number n).length ≤ 10 := by
  have hmax : u32Max < 10 ^ 10 := by decide
  exact length_number_le (by decide) (lt_of_le_of_lt h hmax)

theorem texts_length (e : Escape) {text : Option String} (h : shortTexts text) :
    (orNull (quote e) text).length ≤ 6146 :=
  length_orNull_le (by decide) (fun t ht => quote_short e (h t ht))

theorem state_length (e : Escape) (st : StateSnapshot)
    (hdrop : shortTexts st.lastDropReason) (hsince : ∀ t ∈ st.sinceUnix, t ≤ u64Max)
    (hattempts : st.redialAttempts ≤ u32Max) (hip : shortTexts st.ip)
    (hbeat : ∀ msg, st.heartbeat = .error msg → shortText msg)
    (hwlan : ∀ t ∈ st.wireless.ip, (utf8 t).length ≤ 15) (hevents : st.events.length ≤ 20) :
    (st.json e).length ≤
      18800 + linesLen e st.events + errorLen e st.wireless.lastError := by
  have hobj := length_object_le
    [("status", st.status.json), ("since_unix", orNull number st.sinceUnix),
      ("ip", orNull (quote e) st.ip),
      ("last_drop_reason", orNull (quote e) st.lastDropReason),
      ("redial_attempts", number st.redialAttempts), ("heartbeat", st.heartbeat.json e),
      ("mode", st.mode.json), ("wireless", st.wireless.json e),
      ("events", array (st.events.map (quote e)))]
  have hnames : namesLen ["status", "since_unix", "ip", "last_drop_reason",
      "redial_attempts", "heartbeat", "mode", "wireless", "events"] = 112 := by decide
  have h1 := status_length st.status
  have h2 := since_length hsince
  have h3 := texts_length e hip
  have h4 := texts_length e hdrop
  have h5 := attempts_length hattempts
  have h6 := heartbeat_length e hbeat
  have h7 := mode_length st.mode
  have h8 := wireless_length e hwlan
  have h9 := events_length e hevents
  simp only [List.map_cons, List.map_nil, List.sum_cons, List.sum_nil, hnames] at hobj
  simp only [StateSnapshot.json]
  omega

theorem Slim.frame_le {e : Escape} {s : Supervisor} (h : Slim e s) :
    (encodeFrame (ServerMsg.toVec e) (.state s.compose)).length ≤ maxFrameBytes := by
  have hobj := length_object_le [("t", name "state"), ("state", s.compose.json e)]
  have hnames : namesLen ["t", "state"] = 14 := by decide
  have hname : (name "state").length = 7 := by decide
  have hwireless : (∀ t ∈ s.compose.wireless.ip, (utf8 t).length ≤ 15) ∧
      s.compose.wireless.lastError = s.brain.bind (·.lastError) := by
    cases hb : s.brain with
    | none => simp [compose, hb]
    | some b =>
        simp only [compose, hb]
        exact ⟨h.wlanIp, rfl⟩
  have hstate := state_length e s.compose h.drop h.since h.attempts h.ip h.beat
    hwireless.1 h.texts.1
  rw [hwireless.2] at hstate
  have htexts := h.texts.linesLen_le
  have hring : s.compose.events = s.events.ring := rfl
  rw [hring] at hstate
  simp only [List.map_cons, List.map_nil, List.sum_cons, List.sum_nil, hnames, hname] at hobj
  simp only [portalBudget, ownError] at htexts
  rw [encodeFrame, List.length_append, List.length_singleton, maxFrameBytes]
  simp only [ServerMsg.toVec]
  omega

end Supervisor

/-! ## The last error

A decision keeps the last error or drops it. -/

namespace Brain

theorem keepWireless_lastError (b : Brain) (w : World) :
    (b.keepWireless w).1.lastError = b.lastError ∨ (b.keepWireless w).1.lastError = none := by
  unfold keepWireless
  cases b.phase with
  | off => exact .inr rfl
  | joining => simp only; split <;> exact .inl rfl
  | authing => simp only; split <;> exact .inl rfl
  | error =>
      simp only
      split
      · exact .inr rfl
      · exact .inl rfl
  | online =>
      simp only
      split
      · exact .inl rfl
      · split
        · exact .inr rfl
        · split <;> exact .inl rfl

theorem decide_lastError (b : Brain) (w : World) :
    (b.decide w).1.lastError = b.lastError ∨ (b.decide w).1.lastError = none := by
  unfold decide
  cases b.mode with
  | wiredPlusStandby => exact keepWireless_lastError b w
  | wiredExclusive =>
      simp only
      split
      · split
        · exact .inr rfl
        · exact .inl rfl
      · split
        · split
          · exact .inr rfl
          · exact .inl rfl
        · split
          · exact .inr rfl
          · exact .inl rfl
        · exact keepWireless_lastError _ w

end Brain

namespace Supervisor

/-! ## What a step writes

Most handlers leave every field of the snapshot that holds a text alone; the
others push short lines, take a limited text over, or log a failed login. -/

/-- The fields that `Slim` reads. -/
def texts (s : Supervisor) :
    SessionView × Option String × HeartbeatStatus × Option String × EventLog ×
      Option String :=
  (s.session, s.pppIp, s.heartbeat, s.wirelessIp, s.events, s.brain.bind (·.lastError))

section Steps

variable {e : Escape} {s s' : Supervisor}

theorem Slim.of_texts (h : Slim e s) (heq : s'.texts = s.texts) : Slim e s' := by
  simp only [Supervisor.texts, Prod.mk.injEq] at heq
  obtain ⟨hsession, hip, hbeat, hwlan, hevents, herr⟩ := heq
  constructor
  · rw [hsession]
    exact h.drop
  · rw [hsession]
    exact h.since
  · rw [hsession]
    exact h.attempts
  · rw [hip]
    exact h.ip
  · rw [hbeat]
    exact h.beat
  · rw [hwlan]
    exact h.wlanIp
  · rw [hevents]
    exact h.cap
  · rw [hevents, herr]
    exact h.texts

theorem Slim.pushEvent (h : Slim e s) (wall : ℕ) {msg : String}
    (hmsg : (utf8 msg).length ≤ 40) : Slim e (s.pushEvent wall msg) :=
  ⟨h.drop, h.since, h.attempts, h.ip, h.beat, h.wlanIp, h.cap, h.texts.push h.cap hmsg wall⟩

/-- A new brain whose error is the old one, or one of the service's own. -/
theorem Slim.withBrain (h : Slim e s) {brain : Option Brain}
    (herr : brain.bind (·.lastError) = s.brain.bind (·.lastError) ∨
      errorLen e (brain.bind (·.lastError)) ≤ ownError) :
    Slim e { s with brain } :=
  ⟨h.drop, h.since, h.attempts, h.ip, h.beat, h.wlanIp, h.cap, h.texts.error herr⟩

theorem Slim.handleStarted (h : Slim e s) (now wall : ℕ) :
    Slim e (s.handleStarted now wall).1 := by
  have hstart : Slim e { s with started := true } := h.of_texts rfl
  have hmsg : (utf8 ("Service started, mode " ++ modeText s.mode)).length ≤ 40 := by
    cases s.mode <;> decide
  unfold Supervisor.handleStarted
  simp only
  split
  · exact (hstart.pushEvent wall hmsg).of_texts rfl
  · exact (hstart.pushEvent wall hmsg).of_texts rfl

theorem handleWake_texts (s : Supervisor) (now : ℕ) :
    (s.handleWake now).1.texts = s.texts := by
  obtain ⟨deadline, pending, sample, poll, wlan, tick, h⟩ := s.handleWake_writes now
  rw [h]
  rfl

theorem Slim.handleCommand (h : Slim e s) (cmd : Command) (wall : ℕ) :
    Slim e (s.handleCommand cmd wall).1 := by
  cases cmd with
  | redial => exact h.of_texts rfl
  | setMode mode =>
      have hmode : Slim e { s with mode, brain := s.brain.map (Brain.setMode · mode) } := by
        apply h.of_texts
        cases hb : s.brain <;> simp [Supervisor.texts, hb, Brain.setMode]
      have hmsg : (utf8 ("Mode switched to " ++ modeText mode)).length ≤ 40 := by
        cases mode <;> decide
      exact hmode.pushEvent wall hmsg

theorem Slim.applyLink (h : Slim e s) (next : Option Bool) (now wall : ℕ) :
    Slim e (s.applyLink next now wall).1 := by
  have hnext : Slim e { s with ethLink := next } := h.of_texts rfl
  have hmsg : (utf8 "Ethernet link restored, redialing").length ≤ 40 := by decide
  unfold Supervisor.applyLink
  simp only
  split
  · split
    · exact h.of_texts rfl
    · split
      · exact (hnext.pushEvent wall hmsg).of_texts rfl
      · exact h.of_texts rfl
  · exact h.of_texts rfl

theorem Slim.handleLinkSampled (h : Slim e s) {up : Option Bool} {pppIp : Option String}
    (hip : shortTexts pppIp) (now wall : ℕ) :
    Slim e (s.handleLinkSampled up pppIp now wall).1 := by
  unfold Supervisor.handleLinkSampled
  split
  · exact h
  · have htaken : Slim e { s with sampleInFlight := false, pppIp, linkSampleSeen := true } :=
      ⟨h.drop, h.since, h.attempts, hip, h.beat, h.wlanIp, h.cap, h.texts⟩
    have hlink := htaken.applyLink (s.nextLink up) now wall
    simp only
    split
    · exact hlink.of_texts rfl
    · exact hlink

theorem Slim.handleWatchdogStepped (h : Slim e s) {step : WatchdogStep}
    (hstep : (Event.watchdogStepped step).Limited) (now : ℕ) :
    Slim e (s.handleWatchdogStepped step now).1 := by
  obtain ⟨hip, hdrop, hsince, hattempts⟩ := hstep
  have htaken : Slim e { s with session := step.session, pppIp := step.pppIp } :=
    ⟨hdrop, hsince, hattempts, hip, h.beat, h.wlanIp, h.cap, h.texts⟩
  unfold Supervisor.handleWatchdogStepped
  simp only
  split
  · split <;> exact htaken.of_texts rfl
  · split <;> exact htaken.of_texts rfl
  · exact htaken.of_texts rfl
  · exact htaken.of_texts rfl
  · exact htaken.of_texts rfl

theorem Slim.handleHeartbeat (h : Slim e s) {status : HeartbeatStatus}
    (hstatus : (Event.heartbeat status).Limited) (now : ℕ) :
    Slim e (s.handleHeartbeat status now).1 := by
  have hbeat : ∀ msg, status = .error msg → shortText msg := by
    rintro msg rfl
    exact hstatus
  exact ⟨h.drop, h.since, h.attempts, h.ip, hbeat, h.wlanIp, h.cap, h.texts⟩

theorem toText_length (ip : Ipv4Addr) : (utf8 ip.toText).length ≤ 15 := by
  have hoctet : ∀ a : UInt8, (utf8 (toString a)).length ≤ 3 := by
    intro a
    exact length_number_le (by decide) (lt_trans a.toNat_lt (by decide))
  have hdot : (utf8 ".").length = 1 := by decide
  have h1 := hoctet ip.a
  have h2 := hoctet ip.b
  have h3 := hoctet ip.c
  have h4 := hoctet ip.d
  simp only [Ipv4Addr.toText, utf8_append, List.length_append, hdot]
  omega

theorem Slim.observed (h : Slim e s) {brain : Brain} (hb : s.brain = some brain)
    (sample : WirelessSample) (w : World) :
    Slim e (s.observed sample ((brain.setMode s.mode).decide w).1) := by
  have hbrain : Slim e { s with brain := some ((brain.setMode s.mode).decide w).1 } := by
    apply h.withBrain
    rw [hb]
    rcases Brain.decide_lastError (brain.setMode s.mode) w with hsame | hnone
    · exact .inl hsame
    · right
      rw [Option.bind_some, hnone]
      exact Nat.zero_le _
  refine ⟨hbrain.drop, hbrain.since, hbrain.attempts, hbrain.ip, hbrain.beat, ?_, hbrain.cap,
    hbrain.texts⟩
  intro t ht
  obtain ⟨wlan, -, rfl⟩ := Option.map_eq_some_iff.mp ht
  exact toText_length wlan.ipv4

/-- A refused login leaves one of the service's own errors. -/
theorem Slim.refused (h : Slim e s) {msg : String} (hmsg : (utf8 msg).length ≤ 20)
    (nowSecs : ℕ) :
    Slim e { s with brain := s.brain.map (Brain.onAuth · false msg nowSecs) } := by
  apply h.withBrain
  right
  cases s.brain with
  | none => exact Nat.zero_le _
  | some b =>
      have hq := length_quote_le e msg
      show (quote e msg).length ≤ 122
      omega

theorem Slim.handleAction (h : Slim e s) (action : Action) (nowSecs wall : ℕ) :
    Slim e (s.handleAction action nowSecs wall).1 := by
  have hassoc : (utf8 "Wireless: associating to campus SSID").length ≤ 40 := by decide
  have hrel : (utf8 "Wireless: releasing (wired healthy)").length ≤ 40 := by decide
  have hlost : (utf8 "wlan ip lost").length ≤ 20 := by decide
  have hgate : (utf8 "wlan gateway missing").length ≤ 20 := by decide
  cases action with
  | none => exact h
  | associate =>
      unfold Supervisor.handleAction
      simp only
      split
      · exact h
      · exact (h.pushEvent wall hassoc).of_texts rfl
  | disassociate => exact (h.pushEvent wall hrel).of_texts rfl
  | portalAuth =>
      unfold Supervisor.handleAction
      simp only
      split
      · exact h
      · split
        · exact (h.refused hlost nowSecs).of_texts rfl
        · split
          · exact (h.refused hgate nowSecs).of_texts rfl
          · split
            · exact h
            · exact h.of_texts rfl
  | probeNow =>
      unfold Supervisor.handleAction
      simp only
      split
      · exact h
      · split
        · exact h
        · exact h.of_texts rfl

theorem Slim.joinTimeout (h : Slim e s) (now wall : ℕ) : Slim e (s.joinTimeout now wall) := by
  have hmsg : (utf8 "Wireless: join timeout, restarting").length ≤ 40 := by decide
  unfold Supervisor.joinTimeout
  split
  · have hrestart : Slim e { s.pushEvent wall "Wireless: join timeout, restarting" with
        brain := s.brain.map Brain.restart } := by
      apply (h.pushEvent wall hmsg).withBrain
      right
      cases s.brain with
      | none => exact Nat.zero_le _
      | some b => exact Nat.zero_le _
    exact hrestart.of_texts rfl
  · exact h

theorem Slim.handleWirelessSampled (h : Slim e s) (sample : WirelessSample) (now wall : ℕ) :
    Slim e (s.handleWirelessSampled sample now wall).1 := by
  unfold Supervisor.handleWirelessSampled
  split
  · exact h
  · split
    · exact h.of_texts rfl
    · rename_i brain hb
      have hacted : Slim e (s.decideSample brain sample now wall).1 :=
        (h.observed hb sample (s.world sample now)).handleAction _ (now / 1000) wall
      show Slim e (if (s.decideSample brain sample now wall).2.2 then
        (s.decideSample brain sample now wall).1.joinTimeout now wall else
        (s.decideSample brain sample now wall).1)
      split
      · exact hacted.joinTimeout now wall
      · exact hacted

theorem Slim.handleProbeFinished (h : Slim e s) (verdict : ProbeVerdict) (wall : ℕ) :
    Slim e (s.handleProbeFinished verdict wall) := by
  have hmsg : (utf8 ("Wireless probe: " ++ verdict.debug)).length ≤ 40 := by
    cases verdict <;> decide
  have htaken : Slim e { s with probeInFlight := false, verdict := some verdict } :=
    h.of_texts rfl
  unfold Supervisor.handleProbeFinished
  split
  · exact h
  · simp only
    split
    · exact htaken.pushEvent wall hmsg
    · exact htaken

theorem stopped_length : (utf8 "Wireless: manager stopped").length ≤ 40 := by decide

theorem Slim.handleWirelessDied (h : Slim e s) (wall : ℕ) :
    Slim e (s.handleWirelessDied wall) := by
  have hnone : ∀ {t : Supervisor}, Slim e t →
      Slim e { t with brain := none, wirelessIp := none } := by
    intro t ht
    have htexts : Budget e t.events.ring none := ht.texts.error (.inr (Nat.zero_le _))
    exact ⟨ht.drop, ht.since, ht.attempts, ht.ip, ht.beat, by simp, ht.cap, htexts⟩
  unfold Supervisor.handleWirelessDied
  split
  · exact h
  · simp only
    split
    · exact (hnone (h.pushEvent wall stopped_length)).of_texts rfl
    · exact (hnone h).of_texts rfl

theorem Slim.handleStop (h : Slim e s) (wall : ℕ) : Slim e (s.handleStop wall).1 := by
  have hstop : Slim e { s with stopped := true } := h.of_texts rfl
  unfold Supervisor.handleStop
  simp only
  split
  · split
    · exact (hstop.pushEvent wall stopped_length).of_texts rfl
    · exact hstop
  · exact hstop

/-! ## Runs -/

/-- There is room for the message of a failed login: as a line beside the lines
that stay, and as the last error. -/
def FailureFits (e : Escape) (s : Supervisor) (wall : ℕ) (msg : String) : Prop :=
  linesLen e (staying s.events) +
    (quote e (eventLine wall ("Wireless: portal login failed: " ++ msg))).length +
    (quote e msg).length ≤ portalBudget

/-- Everything in the ring is then older than the next line. -/
theorem Slim.failed (h : Slim e s) {wall : ℕ} {msg : String}
    (hfits : FailureFits e s wall msg) {err : Option String}
    (herr : errorLen e err ≤ (quote e msg).length) :
    Budget e (s.events.push wall ("Wireless: portal login failed: " ++ msg)).ring err := by
  have hstay := staying_length h.cap h.texts.1
  rw [push_ring]
  refine ⟨?_, _, [], (List.append_nil _).symm, ?_, ?_, by simp⟩
  · rw [List.length_append, List.length_singleton]
    exact hstay
  · rw [linesLen_append, linesLen_singleton]
    unfold FailureFits at hfits
    omega
  · rw [linesLen_append, linesLen_singleton]
    unfold FailureFits at hfits
    omega

theorem new_slim (e : Escape) (cfg : Config) : Slim e (new cfg) := by
  have hempty : Slim e ({ cfg, mode := cfg.wireless.mode } : Supervisor) := by
    refine ⟨by simp [shortTexts], by simp, Nat.zero_le _, by simp [shortTexts], by simp, by simp,
      rfl, ?_⟩
    exact ⟨Nat.zero_le _, [], [], rfl, Nat.zero_le _, Nat.zero_le _, by simp⟩
  unfold new
  simp only
  split
  · split
    · have hbrain : Slim e { ({ cfg, mode := cfg.wireless.mode } : Supervisor) with
          brain := some (Brain.new cfg.wireless.mode cfg.wireless.takeoverAfterSecs
            cfg.wireless.releaseAfterSecs cfg.dial.probeIntervalSecs) } :=
        hempty.withBrain (.inl rfl)
      exact hbrain.of_texts rfl
    · exact hempty
  · exact hempty

variable [SerdeJson]

/-- If the step takes a failed login, there is room for its message. -/
def LoginFits (e : Escape) (r : Record) : Prop :=
  ∀ attempt, Handles r (.portalFinished attempt) → r.pre.authInFlight = true →
    (portalOutcome attempt).1 = false →
    FailureFits e r.pre r.input.wall (portalOutcome attempt).2

theorem Slim.handlePortalFinished (h : Slim e s) (attempt : PortalAttempt) (now wall : ℕ)
    (hfits : s.authInFlight = true → (portalOutcome attempt).1 = false →
      FailureFits e s wall (portalOutcome attempt).2) :
    Slim e (s.handlePortalFinished attempt now wall) := by
  unfold Supervisor.handlePortalFinished
  split
  · exact h
  rename_i hflight
  have hflight' : s.authInFlight = true := by simpa using hflight
  cases hok : (portalOutcome attempt).1 with
  | true =>
      have hmsg : (utf8 "Wireless: portal login success").length ≤ 40 := by decide
      have hout : Slim e { s.pushEvent wall "Wireless: portal login success" with
          brain := s.brain.map
            (Brain.onAuth · true (portalOutcome attempt).2 (now / 1000)) } := by
        apply (h.pushEvent wall hmsg).withBrain
        right
        cases s.brain <;> exact Nat.zero_le _
      simp only [hok]
      exact hout.of_texts rfl
  | false =>
      simp only [hok]
      refine ⟨h.drop, h.since, h.attempts, h.ip, h.beat, h.wlanIp, h.cap,
        h.failed (hfits hflight' hok) ?_⟩
      cases s.brain with
      | none => exact Nat.zero_le _
      | some b => exact le_refl _

/-- One step keeps a state slim, if its texts are within their limits and a
failed login fits. -/
theorem Slim.step (h : Slim e s) (i : Input) (hlim : i.event.Limited)
    (hfits : LoginFits e (Machine.stepAt step s i)) : Slim e (s.step i).1 := by
  obtain ⟨snap, hstate⟩ := s.step_state i
  suffices hd : Slim e (s.dispatch i.now i.wall i.event).1 by
    rw [hstate]
    exact hd.of_texts rfl
  rcases s.dispatch_cases i.now i.wall i.event with ⟨-, hd⟩ | ⟨-, -, hd⟩ | ⟨hs, hr, hd⟩
  · rw [hd]
    exact h
  · rw [hd]
    exact h.handleStarted i.now i.wall
  · rw [hd]
    have hhandled : s.handled i.event = true := by simp [handled, hs, hr]
    cases hev : i.event with
    | started => exact h
    | wake => exact h.of_texts (handleWake_texts s i.now)
    | command cmd => exact h.handleCommand cmd i.wall
    | linkSampled up pppIp =>
        rw [hev] at hlim
        exact h.handleLinkSampled hlim i.now i.wall
    | watchdogStepped step =>
        rw [hev] at hlim
        exact h.handleWatchdogStepped hlim i.now
    | wirelessSampled sample => exact h.handleWirelessSampled sample i.now i.wall
    | associateFinished res =>
        apply h.of_texts
        simp only [Supervisor.handle, handleAssociateFinished]
        split <;> rfl
    | portalFinished attempt =>
        apply h.handlePortalFinished
        exact hfits attempt ⟨hev, by rw [← hev]; exact hhandled⟩
    | wlanProbeFinished verdict => exact h.handleProbeFinished verdict i.wall
    | heartbeat status =>
        rw [hev] at hlim
        exact h.handleHeartbeat hlim i.now
    | notifyResult key delivered => exact h.of_texts rfl
    | wirelessDied => exact h.handleWirelessDied i.wall
    | stop => exact h.handleStop i.wall

theorem history_slim {cfg : Config} {is : List Input} (hlim : ∀ i ∈ is, i.event.Limited)
    (hfits : ∀ r ∈ history cfg is, LoginFits e r) :
    Slim e (after cfg is) ∧ ∀ r ∈ history cfg is, Slim e r.post := by
  induction is using List.reverseRecOn with
  | nil => exact ⟨new_slim e cfg, by simp [history]⟩
  | append_singleton is i ih =>
      rw [history, Machine.trace_snoc] at hfits ⊢
      obtain ⟨hpre, hpast⟩ := ih (fun j hj => hlim j (List.mem_append_left _ hj))
        (fun r hr => hfits r (List.mem_append_left _ hr))
      have hlast : Slim e ((after cfg is).step i).1 :=
        hpre.step i (hlim i (by simp)) (hfits _ (by simp [after]))
      refine ⟨by rwa [after, Machine.final_snoc], ?_⟩
      intro r hr
      rcases List.mem_append.mp hr with hr | hr
      · exact hpast r hr
      · rw [List.mem_singleton.mp hr]
        exact hlast

/-- A published snapshot is the state composed after the step. -/
theorem snapshot_eq {i : Input} {snap : StateSnapshot}
    (h : (s.step i).2.snapshot = some snap) : snap = (s.step i).1.compose := by
  simp only [Supervisor.step, on] at h ⊢
  split at h
  · rename_i hh
    rw [if_pos hh]
    unfold publish at h ⊢
    split at h
    · cases h
    · rename_i hnew
      rw [if_neg hnew]
      exact (Option.some.inj h).symm
  · cases h

end Steps

section Claims

variable [SerdeJson]

/-- The frames of the snapshots of a run, in the order they are published. -/
def frames (e : Escape) (past : List Record) : List (List UInt8) :=
  (past.filterMap (·.out.snapshot)).map
    (fun snap => encodeFrame (ServerMsg.toVec e) (.state snap))

theorem snapshots_fit_frames (e : Escape) (cfg : Config) (is : List Input)
    (hlim : ∀ i ∈ is, i.event.Limited) (hfits : ∀ r ∈ history cfg is, LoginFits e r) :
    (∀ r ∈ history cfg is, ∀ snap, r.out.snapshot = some snap →
      (encodeFrame (ServerMsg.toVec e) (.state snap)).length ≤ maxFrameBytes) ∧
    ∀ chunks : List (List UInt8), chunks.flatten = (frames e (history cfg is)).flatten →
      ∀ q ∈ FrameDecoder.history chunks, q.out ≠ .error {} := by
  have hfit : ∀ r ∈ history cfg is, ∀ snap, r.out.snapshot = some snap →
      (encodeFrame (ServerMsg.toVec e) (.state snap)).length ≤ maxFrameBytes := by
    intro r hr snap hsnap
    have hslim := (history_slim hlim hfits).2 r hr
    obtain ⟨xs, i, ys, -, rfl⟩ := Machine.exists_split_of_mem hr
    rw [snapshot_eq hsnap]
    exact hslim.frame_le
  refine ⟨hfit, ?_⟩
  intro chunks hstream
  apply FrameDecoder.out_ne_error
  rw [hstream, frames, ← Function.comp_def, ← List.map_map]
  apply frames_not_exceed (fun m => newline_notMem (m.toVec_printable e))
  intro m hm
  obtain ⟨snap, hsnap, rfl⟩ := List.mem_map.mp hm
  obtain ⟨r, hr, hout⟩ := List.mem_filterMap.mp hsnap
  exact hfit r hr snap hout

end Claims


/-- A login that the portal turns down in a few words. -/
def rejectedRun : List Input :=
  loginRun ++ [⟨3000, 3, .portalFinished (.failed "no route to portal")⟩]

theorem rejectedRun_loginFits :
    ∀ r ∈ @history replyJson standbyCfg rejectedRun, @LoginFits replyJson Escape.minimal r := by
  intro r hr attempt hh
  simp only [history, rejectedRun, loginRun, joinRun, List.cons_append, List.nil_append,
    Machine.trace_cons, Machine.trace_nil, List.mem_cons, List.not_mem_nil, or_false] at hr
  rcases hr with rfl | rfl | rfl | rfl | rfl | rfl
  · cases hh.1
  · cases hh.1
  · cases hh.1
  · cases hh.1
  · cases hh.1
  · cases hh.1
    intro _ _
    unfold FailureFits
    decide

theorem snapshots_fit_frames_rejected :
    (∀ r ∈ @history replyJson standbyCfg rejectedRun,
      @LoginFits replyJson Escape.minimal r) ∧
    ∀ r ∈ @history replyJson standbyCfg rejectedRun, ∀ snap, r.out.snapshot = some snap →
      (encodeFrame (ServerMsg.toVec Escape.minimal) (.state snap)).length ≤ maxFrameBytes := by
  refine ⟨rejectedRun_loginFits, ?_⟩
  refine (@snapshots_fit_frames replyJson Escape.minimal standbyCfg rejectedRun ?_
    rejectedRun_loginFits).1
  intro i hi
  simp only [rejectedRun, loginRun, joinRun, loginInput, List.cons_append, List.nil_append,
    List.mem_cons, List.not_mem_nil, or_false] at hi
  rcases hi with rfl | rfl | rfl | rfl | rfl | rfl
  · trivial
  · trivial
  · trivial
  · trivial
  · trivial
  · exact (by decide : (utf8 "no route to portal").length ≤ textLimit)

/-! ## A reply that does not fit -/

/-- The last error and every line of the ring are in the frame. -/
theorem le_frame (e : Escape) (st : StateSnapshot) :
    errorLen e st.wireless.lastError + linesLen e st.events ≤
      (encodeFrame (ServerMsg.toVec e) (.state st)).length := by
  have hmsg := sum_le_length_object [("t", name "state"), ("state", st.json e)]
  have hstate := sum_le_length_object
    [("status", st.status.json), ("since_unix", orNull number st.sinceUnix),
      ("ip", orNull (quote e) st.ip),
      ("last_drop_reason", orNull (quote e) st.lastDropReason),
      ("redial_attempts", number st.redialAttempts), ("heartbeat", st.heartbeat.json e),
      ("mode", st.mode.json), ("wireless", st.wireless.json e),
      ("events", array (st.events.map (quote e)))]
  have hwireless := sum_le_length_object
    [("phase", st.wireless.phase.json), ("ip", orNull (quote e) st.wireless.ip),
      ("last_error", orNull (quote e) st.wireless.lastError)]
  have hevents := sum_le_length_array (st.events.map (quote e))
  have herr : errorLen e st.wireless.lastError ≤
      (orNull (quote e) st.wireless.lastError).length := by
    cases st.wireless.lastError with
    | none => exact Nat.zero_le _
    | some msg => exact le_refl _
  rw [List.map_map, Function.comp_def] at hevents
  simp only [List.map_cons, List.map_nil, List.sum_cons, List.sum_nil] at hmsg hstate hwireless
  change _ ≤ (st.json e).length at hstate
  change _ ≤ (st.wireless.json e).length at hwireless
  change _ ≤ ((ServerMsg.state st).toVec e).length at hmsg
  rw [encodeFrame, List.length_append, List.length_singleton, linesLen]
  omega

section Overflow

variable [SerdeJson]

/-- The message of a failed login shows twice in the snapshot after it. -/
theorem failed_login_shown {s : Supervisor} (hs : s.started = true) (hr : s.stopped = false)
    (hflight : s.authInFlight = true) {b : Brain} (hb : s.brain = some b)
    {attempt : PortalAttempt} {msg : String} (hout : portalOutcome attempt = (false, msg))
    (now wall : ℕ) :
    (s.step ⟨now, wall, .portalFinished attempt⟩).1.compose.wireless.lastError = some msg ∧
    (s.step ⟨now, wall, .portalFinished attempt⟩).1.compose.events = staying s.events ++
      [eventLine wall ("Wireless: portal login failed: " ++ msg)] := by
  obtain ⟨snap, hstate⟩ := s.step_state ⟨now, wall, .portalFinished attempt⟩
  rw [dispatch_running hs hr] at hstate
  rw [hstate]
  simp [handle, handlePortalFinished, hflight, hout, compose, hb, Brain.onAuth, Brain.snapshot,
    pushEvent, push_ring]

/-- A step whose state shows something new publishes it. -/
theorem publishes {s : Supervisor} {i : Input} (hh : s.handled i.event = true)
    (hnew : (s.dispatch i.now i.wall i.event).1.lastSnapshot ≠
      some (s.dispatch i.now i.wall i.event).1.compose) :
    (s.step i).2.snapshot = some (s.step i).1.compose := by
  simp only [step, on, hh, if_true, publish, if_neg hnew]
  rfl

/-- The first error after a clean snapshot is published. -/
theorem failed_login_publishes {s : Supervisor} (hs : s.started = true)
    (hr : s.stopped = false) (hflight : s.authInFlight = true) {b : Brain}
    (hb : s.brain = some b) {attempt : PortalAttempt} {msg : String}
    (hout : portalOutcome attempt = (false, msg))
    (hlast : s.lastSnapshot.map (·.wireless.lastError) = some none) (now wall : ℕ) :
    (s.step ⟨now, wall, .portalFinished attempt⟩).2.snapshot =
      some (s.step ⟨now, wall, .portalFinished attempt⟩).1.compose := by
  apply publishes
  · simp [handled, hs, hr]
  · rw [dispatch_running hs hr]
    intro heq
    have hmap : s.lastSnapshot.map (·.wireless.lastError) = some (some msg) := by
      have hsame : (s.handle now wall (.portalFinished attempt)).1.lastSnapshot =
          s.lastSnapshot := by
        simp [handle, handlePortalFinished, hflight, hout, pushEvent]
      rw [← hsame, heq]
      simp [handle, handlePortalFinished, hflight, hout, pushEvent, compose, hb, Brain.onAuth,
        Brain.snapshot]
    rw [hlast] at hmap
    cases hmap

/-- A message of half the limit makes a frame beyond it. -/
theorem failed_login_overflows (e : Escape) {s : Supervisor} (hs : s.started = true)
    (hr : s.stopped = false) (hflight : s.authInFlight = true) {b : Brain}
    (hb : s.brain = some b) {attempt : PortalAttempt} {msg : String}
    (hout : portalOutcome attempt = (false, msg)) (hlong : maxFrameBytes ≤ 2 * (utf8 msg).length)
    (now wall : ℕ) :
    maxFrameBytes < (encodeFrame (ServerMsg.toVec e)
      (.state (s.step ⟨now, wall, .portalFinished attempt⟩).1.compose)).length := by
  have hle := le_frame e (s.step ⟨now, wall, .portalFinished attempt⟩).1.compose
  obtain ⟨herr, hevents⟩ := failed_login_shown hs hr hflight hb hout now wall
  have hmsg := le_length_quote e msg
  have hline := le_length_quote e (eventLine wall ("Wireless: portal login failed: " ++ msg))
  rw [utf8_eventLine, utf8_append, List.length_append] at hline
  rw [herr, hevents, linesLen_append, linesLen_singleton] at hle
  change (quote e msg).length + _ ≤ _ at hle
  omega

/-- A login is out, and no error is shown. -/
def AwaitsReply (s : Supervisor) : Prop :=
  s.started = true ∧ s.stopped = false ∧ s.authInFlight = true ∧ s.brain.isSome = true ∧
    s.lastSnapshot.map (·.wireless.lastError) = some none

instance (s : Supervisor) : Decidable s.AwaitsReply :=
  inferInstanceAs (Decidable (_ ∧ _ ∧ _ ∧ _ ∧ _))

theorem overflows_of_failed_login (e : Escape) {cfg : Config} {is : List Input}
    (hlogin : (after cfg is).AwaitsReply) {attempt : PortalAttempt} {msg : String}
    (hout : portalOutcome attempt = (false, msg))
    (hlong : maxFrameBytes ≤ 2 * (utf8 msg).length) (now wall : ℕ) :
    ∃ r ∈ history cfg (is ++ [⟨now, wall, .portalFinished attempt⟩]), ∃ snap,
      r.out.snapshot = some snap ∧
        maxFrameBytes < (encodeFrame (ServerMsg.toVec e) (.state snap)).length := by
  obtain ⟨hs, hr, hflight, hbrain, hlast⟩ := hlogin
  obtain ⟨b, hb⟩ := Option.isSome_iff_exists.mp hbrain
  refine ⟨Machine.stepAt step (after cfg is) ⟨now, wall, .portalFinished attempt⟩, ?_, _,
    failed_login_publishes hs hr hflight hb hout hlast now wall,
    failed_login_overflows e hs hr hflight hb hout hlong now wall⟩
  rw [history, Machine.trace_snoc]
  exact List.mem_append_right _ (List.mem_singleton.mpr rfl)

end Overflow

section LongReply

/-! The reply has a message of `n` letters; the lemmas never look at `n`. -/

def longMsg (n : ℕ) : String := String.ofList (List.replicate n 'a')

def longReply (n : ℕ) : String :=
  "\x7b\"result\":\"0\",\"msg\":\"" ++ longMsg n ++ "\"\x7d"

/-- `serde_json` on that reply. -/
@[reducible] def longReplyJson (n : ℕ) : SerdeJson where
  fromStr text :=
    if text = longReply n then
      some (.object [("result", .string "0"), ("msg", .string (longMsg n))])
    else none
  toText _ := ""

def longReplyInput (n : ℕ) : Input := ⟨3000, 3, .portalFinished (.replied 200 (longReply n))⟩

theorem utf8_longMsg (n : ℕ) : (utf8 (longMsg n)).length = n := by
  rw [utf8, longMsg, String.toList_ofList]
  induction n with
  | zero => rfl
  | succ n ih =>
      rw [List.replicate_succ, List.flatMap_cons, List.length_append, ih,
        String.length_utf8EncodeChar]
      exact Nat.add_comm _ _

theorem utf8_longReply (n : ℕ) : (utf8 (longReply n)).length = n + 23 := by
  have hhead : (utf8 "\x7b\"result\":\"0\",\"msg\":\"").length = 21 := by decide
  have htail : (utf8 "\"\x7d").length = 2 := by decide
  unfold longReply
  rw [utf8_append, utf8_append, List.length_append, List.length_append, hhead, htail,
    utf8_longMsg]
  omega

theorem trim_of_ends {a b : Char} (ha : isWhitespace a = false) (hb : isWhitespace b = false)
    (cs : List Char) : trim (a :: (cs ++ [b])) = a :: (cs ++ [b]) := by
  rw [trim, List.dropWhile_cons_of_neg (by simp [ha]), ← List.cons_append,
    List.reverse_append, List.reverse_singleton, List.singleton_append,
    List.dropWhile_cons_of_neg (by simp [hb])]
  simp

/-- A bare JSON object without a parenthesis is taken as it is. -/
theorem extractJson_bare {text : String} {cs : List Char} {a b : Char}
    (htext : text.toList = a :: (cs ++ [b])) (ha : isWhitespace a = false)
    (hb : isWhitespace b = false) (hparen : '(' ∉ text.toList) :
    extractJson text = text := by
  have hnone : text.toList.findIdx? (· = '(') = none := by
    rw [List.findIdx?_eq_none_iff]
    intro c hc
    have hne : c ≠ '(' := fun h => hparen (h ▸ hc)
    simpa using hne
  have htrim : trim text.toList = text.toList := by
    rw [htext, trim_of_ends ha hb]
  simp only [extractJson, hnone, htrim, String.ofList_toList]

theorem longReply_toList (n : ℕ) : (longReply n).toList =
    '\x7b' :: ("\"result\":\"0\",\"msg\":\"".toList ++ List.replicate n 'a' ++ ['"'] ++
      ['\x7d']) := by
  unfold longReply longMsg
  rw [String.toList_append, String.toList_append, String.toList_ofList]
  simp

theorem extractJson_longReply (n : ℕ) : extractJson (longReply n) = longReply n := by
  apply extractJson_bare (longReply_toList n) (by decide) (by decide)
  rw [longReply_toList]
  simp

theorem portalOutcome_longReply (n : ℕ) :
    @portalOutcome (longReplyJson n) (.replied 200 (longReply n)) = (false, longMsg n) := by
  have hparse : (longReplyJson n).fromStr (longReply n) =
      some (.object [("result", .string "0"), ("msg", .string (longMsg n))]) := if_pos rfl
  have hreply : @parsePortalReply (longReplyJson n) (longReply n) = .failure (longMsg n) := by
    unfold parsePortalReply
    rw [extractJson_longReply, hparse]
    rfl
  simp only [portalOutcome, hreply]

end LongReply

theorem snapshot_exceeds_frame :
    (∀ i ∈ loginRun ++ [longReplyInput 40000], i.event.Limited) ∧
    ∃ r ∈ @history (longReplyJson 40000) standbyCfg (loginRun ++ [longReplyInput 40000]),
      ∃ snap, r.out.snapshot = some snap ∧ maxFrameBytes <
        (encodeFrame (ServerMsg.toVec Escape.minimal) (.state snap)).length := by
  constructor
  · intro i hi
    rcases List.mem_append.mp hi with hi | hi
    · simp only [loginRun, joinRun, loginInput, List.cons_append, List.nil_append,
        List.mem_cons, List.not_mem_nil, or_false] at hi
      rcases hi with rfl | rfl | rfl | rfl | rfl <;> trivial
    · rw [List.mem_singleton.mp hi]
      show (utf8 (longReply 40000)).length ≤ replyLimit ∧ 200 < 2 ^ 16
      rw [utf8_longReply]
      decide
  · have hlong : maxFrameBytes ≤ 2 * (utf8 (longMsg 40000)).length := by
      rw [utf8_longMsg]
      decide
    exact @overflows_of_failed_login (longReplyJson 40000) Escape.minimal standbyCfg loginRun
      (by decide +kernel) (.replied 200 (longReply 40000)) (longMsg 40000)
      (portalOutcome_longReply 40000) hlong 3000 3

end Supervisor

end GdutNet
