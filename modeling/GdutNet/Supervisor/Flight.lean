import GdutNet.Machine.Requests
import GdutNet.Supervisor.Takeover
import Mathlib.Data.List.Nodup

/-!
# Requests in flight

Six kinds of effect are answered by an event: the two samples, the association,
the login, the probe and, for each key, the toast. `Flight` is the supervisor's
memory of what it has asked for. An answer clears its own kind, whether or not
it was waited for; everything else a handler does is `Asks`: it sends what is
not in flight yet. The rules for requests then bound what is outstanding.
-/

namespace GdutNet

inductive Request where
  | sampleLink
  | sampleWireless
  | associate
  | portalAuth
  | wlanProbe
  | notify (key : ToastKey)
deriving DecidableEq, Repr

/-- The kinds that end with the wireless worker. -/
def Request.wireless : Request → Bool
  | .sampleLink | .notify _ => false
  | .sampleWireless | .associate | .portalAuth | .wlanProbe => true

def Effect.request : Effect → Option Request
  | .sampleLink => some .sampleLink
  | .sampleWireless => some .sampleWireless
  | .associate _ => some .associate
  | .portalAuth _ _ => some .portalAuth
  | .wlanProbe _ _ _ => some .wlanProbe
  | .notify key _ _ => some (.notify key)
  | _ => none

def Event.resultOf : Event → Option Request
  | .linkSampled _ _ => some .sampleLink
  | .wirelessSampled _ => some .sampleWireless
  | .associateFinished _ => some .associate
  | .portalFinished _ => some .portalAuth
  | .wlanProbeFinished _ => some .wlanProbe
  | .notifyResult key _ => some (.notify key)
  | _ => none

structure Flight where
  started : Bool
  stopped : Bool
  live : Bool
  sampleLink : Bool
  sampleWireless : Bool
  associate : Bool
  portalAuth : Bool
  wlanProbe : Bool
  toasts : List ToastKey
deriving DecidableEq, Repr

namespace Flight

def count (f : Flight) : Request → ℕ
  | .sampleLink => f.sampleLink.toNat
  | .sampleWireless => f.sampleWireless.toNat
  | .associate => f.associate.toNat
  | .portalAuth => f.portalAuth.toNat
  | .wlanProbe => f.wlanProbe.toNat
  | .notify key => f.toasts.count key

/-- A supervisor that does not listen waits for nothing. -/
def waiting (f : Flight) (k : Request) : ℕ :=
  if f.started && !f.stopped then f.count k else 0

/-- No more requests of this kind are sent. -/
def Silent (f : Flight) (k : Request) : Prop :=
  f.stopped = true ∨ (k.wireless = true ∧ f.live = false)

theorem Silent.of_frame {f f' : Flight} {k : Request}
    (hframe : f'.started = f.started ∧ f'.stopped = f.stopped ∧ f'.live = f.live)
    (h : f.Silent k) : f'.Silent k := by
  unfold Silent at h ⊢
  rw [hframe.2.1, hframe.2.2]
  exact h

/-- The answer to `k` has come. -/
def clear (f : Flight) : Request → Flight
  | .sampleLink => { f with sampleLink := false }
  | .sampleWireless => { f with sampleWireless := false }
  | .associate => { f with associate := false }
  | .portalAuth => { f with portalAuth := false }
  | .wlanProbe => { f with wlanProbe := false }
  | .notify key => { f with toasts := f.toasts.erase key }

theorem clear_frame (f : Flight) (k : Request) :
    (f.clear k).started = f.started ∧ (f.clear k).stopped = f.stopped ∧
      (f.clear k).live = f.live := by
  cases k <;> exact ⟨rfl, rfl, rfl⟩

theorem clear_count (f : Flight) (k : Request) : (f.clear k).count k = f.count k - 1 := by
  cases k with
  | notify key => exact List.count_erase_self
  | sampleLink => cases hf : f.sampleLink <;> simp [clear, count, hf]
  | sampleWireless => cases hf : f.sampleWireless <;> simp [clear, count, hf]
  | associate => cases hf : f.associate <;> simp [clear, count, hf]
  | portalAuth => cases hf : f.portalAuth <;> simp [clear, count, hf]
  | wlanProbe => cases hf : f.wlanProbe <;> simp [clear, count, hf]

theorem clear_count_ne (f : Flight) {k k' : Request} (h : k' ≠ k) :
    (f.clear k).count k' = f.count k' := by
  cases k with
  | notify key =>
      cases k' with
      | notify key' =>
          have hkey : key' ≠ key := fun heq => h (congrArg Request.notify heq)
          exact List.count_erase_of_ne hkey
      | _ => rfl
  | _ => cases k' <;> first | rfl | exact absurd rfl h

/-- Requests are sent: each of a kind that was not in flight, and the wireless
ones by a live brain. -/
structure Asks (f f' : Flight) (ks : List Request) : Prop where
  frame : f'.started = f.started ∧ f'.stopped = f.stopped ∧ f'.live = f.live
  nodup : ks.Nodup
  sent : ∀ k ∈ ks, f.count k = 0 ∧ f'.count k = 1 ∧ (k.wireless = true → f.live = true)
  others : ∀ k, k ∉ ks → f'.count k = f.count k

theorem Asks.refl (f : Flight) : Asks f f [] :=
  ⟨⟨rfl, rfl, rfl⟩, List.nodup_nil, by simp, fun _ _ => rfl⟩

theorem Asks.trans {f f' f'' : Flight} {ks ks' : List Request} (h : Asks f f' ks)
    (h' : Asks f' f'' ks') : Asks f f'' (ks ++ ks') := by
  obtain ⟨hstarted, hstopped, hlive⟩ := h.frame
  obtain ⟨hstarted', hstopped', hlive'⟩ := h'.frame
  have hdisjoint : ∀ k ∈ ks, k ∉ ks' := by
    intro k hk hk'
    have hone := (h.sent k hk).2.1
    have hzero := (h'.sent k hk').1
    omega
  refine ⟨⟨hstarted'.trans hstarted, hstopped'.trans hstopped, hlive'.trans hlive⟩, ?_, ?_, ?_⟩
  · exact h.nodup.append h'.nodup (fun k hk => hdisjoint k hk)
  · intro k hk
    by_cases hfirst : k ∈ ks
    · obtain ⟨hzero, hone, hbrain⟩ := h.sent k hfirst
      exact ⟨hzero, (h'.others k (hdisjoint k hfirst)).trans hone, hbrain⟩
    · have hsecond := (List.mem_append.mp hk).resolve_left hfirst
      obtain ⟨hzero, hone, hbrain⟩ := h'.sent k hsecond
      exact ⟨(h.others k hfirst).symm.trans hzero, hone, fun hw => hlive ▸ hbrain hw⟩
  · intro k hk
    rw [List.mem_append, not_or] at hk
    exact (h'.others k hk.2).trans (h.others k hk.1)

/-- A request of kind `k` is sent. -/
def book (f : Flight) : Request → Flight
  | .sampleLink => { f with sampleLink := true }
  | .sampleWireless => { f with sampleWireless := true }
  | .associate => { f with associate := true }
  | .portalAuth => { f with portalAuth := true }
  | .wlanProbe => { f with wlanProbe := true }
  | .notify key => { f with toasts := f.toasts ++ [key] }

theorem book_count (f : Flight) {k : Request} (h : f.count k = 0) : (f.book k).count k = 1 := by
  cases k with
  | notify key =>
      change (f.toasts ++ [key]).count key = 1
      rw [List.count_append, show f.toasts.count key = 0 from h, List.count_singleton_self]
  | _ => rfl

theorem book_count_ne (f : Flight) {k k' : Request} (h : k' ≠ k) :
    (f.book k).count k' = f.count k' := by
  cases k with
  | notify key =>
      cases k' with
      | notify key' =>
          have hkey : key ≠ key' := fun heq => h (congrArg Request.notify heq.symm)
          simp [book, count, hkey]
      | _ => rfl
  | _ => cases k' <;> first | rfl | exact absurd rfl h

theorem Asks.book {f : Flight} {k : Request} (hidle : f.count k = 0)
    (hlive : k.wireless = true → f.live = true) : Asks f (f.book k) [k] := by
  refine ⟨by cases k <;> exact ⟨rfl, rfl, rfl⟩, List.nodup_singleton k, ?_, ?_⟩
  · intro k' hk'
    rw [List.mem_singleton.mp hk']
    exact ⟨hidle, f.book_count hidle, hlive⟩
  · intro k' hk'
    exact f.book_count_ne (by simpa using hk')

end Flight

/-! ## The handlers -/

namespace Supervisor

def flight (s : Supervisor) : Flight :=
  { started := s.started
    stopped := s.stopped
    live := s.brain.isSome
    sampleLink := s.sampleInFlight
    sampleWireless := s.wirelessSampleInFlight
    associate := s.associateInFlight
    portalAuth := s.authInFlight
    wlanProbe := s.probeInFlight
    toasts := s.notifications.inFlight }

def requested (effects : List Effect) : List Request := effects.filterMap Effect.request

/-- The handler asks for what is not in flight in `f`. -/
def Handled (f : Flight) (p : Supervisor × List Effect) : Prop :=
  f.Asks p.1.flight (requested p.2)

/-- Neither the memory nor the effects concern a request. -/
theorem Handled.of_eq {f : Flight} {p : Supervisor × List Effect} (hflight : p.1.flight = f)
    (hnone : requested p.2 = []) : Handled f p := by
  unfold Handled
  rw [hflight, hnone]
  exact .refl f

theorem pollLink_handled (s : Supervisor) (now : ℕ) : Handled s.flight (s.pollLink now) := by
  unfold pollLink
  split
  · split
    · rename_i hfree
      have hidle : s.sampleInFlight = false := by simpa using hfree
      have hasks : s.flight.Asks (s.flight.book .sampleLink) [.sampleLink] :=
        .book (by simp [flight, Flight.count, hidle]) (by simp [Request.wireless])
      exact hasks
    · split <;> exact .of_eq rfl rfl
  · exact .of_eq rfl rfl

theorem wakeWired_handled (s : Supervisor) (now : ℕ) : Handled s.flight (s.wakeWired now) := by
  have hexpire : (s.expireDeadline now).flight = s.flight := by
    unfold expireDeadline
    split <;> rfl
  rw [← hexpire]
  exact (s.expireDeadline now).pollLink_handled now

/-- A live brain asks for a sample, at the start or at a tick. -/
theorem sampleWireless_asks {s : Supervisor} (hlive : s.brain.isSome = true)
    (hidle : s.wirelessSampleInFlight = false) :
    s.flight.Asks (s.flight.book .sampleWireless) [.sampleWireless] :=
  .book (by simp [flight, Flight.count, hidle]) (fun _ => hlive)

theorem wakeWireless_handled (s : Supervisor) (now : ℕ) :
    Handled s.flight (s.wakeWireless now) := by
  unfold wakeWireless
  split
  · rename_i htick
    rw [Bool.and_eq_true] at htick
    split
    · rename_i hfree
      exact sampleWireless_asks htick.1 (by simpa using hfree)
    · exact .of_eq rfl rfl
  · exact .of_eq rfl rfl

theorem handleWake_handled (s : Supervisor) (now : ℕ) : Handled s.flight (s.handleWake now) := by
  have h := (s.wakeWired_handled now).trans ((s.wakeWired now).1.wakeWireless_handled now)
  have hsent : requested (s.handleWake now).2 =
      requested (s.wakeWired now).2 ++ requested ((s.wakeWired now).1.wakeWireless now).2 := by
    simp [handleWake, requested]
  unfold Handled
  rw [hsent]
  exact h

theorem handleCommand_handled (s : Supervisor) (cmd : Command) (wall : ℕ) :
    Handled s.flight (s.handleCommand cmd wall) := by
  cases cmd with
  | redial => exact .of_eq rfl rfl
  | setMode mode =>
      refine .of_eq ?_ rfl
      simp [handleCommand, pushEvent, flight]

theorem handleLinkSampled_flight (s : Supervisor) (up : Option Bool) (pppIp : Option String)
    (now wall : ℕ) :
    (s.handleLinkSampled up pppIp now wall).1.flight = s.flight.clear .sampleLink ∧
      requested (s.handleLinkSampled up pppIp now wall).2 = [] := by
  constructor
  · obtain ⟨link, seen, pending, deadline, poll, ip, log, h⟩ :=
      s.handleLinkSampled_writes up pppIp now wall
    rw [h]
    rfl
  · have hsent := s.handleLinkSampled_emits up pppIp now wall
    generalize (s.handleLinkSampled up pppIp now wall).2 = effects at hsent ⊢
    cases hsent with
    | link hsteps => rcases hsteps with rfl | rfl <;> rfl
    | _ => rfl

/-- A toast is sent if none with its key is in flight. -/
theorem maybeNotify_asks {f : Flight} {l : NotificationLedger} (hl : l.inFlight = f.toasts)
    (key : ToastKey) (title body : String) (now : ℕ) :
    f.Asks { f with toasts := (l.maybeNotify key title body now).1.inFlight }
      (requested (l.maybeNotify key title body now).2) := by
  unfold NotificationLedger.maybeNotify
  split
  · rw [hl]
    exact .refl f
  · rename_i hfree
    simp only [Bool.or_eq_true, decide_eq_true_eq, not_or] at hfree
    have hidle : f.count (.notify key) = 0 := by
      change f.toasts.count key = 0
      rw [List.count_eq_zero, ← hl]
      exact hfree.1
    rw [hl]
    exact .book hidle (by simp [Request.wireless])

theorem handleWatchdogStepped_handled (s : Supervisor) (step : WatchdogStep) (now : ℕ) :
    Handled s.flight (s.handleWatchdogStepped step now) := by
  unfold handleWatchdogStepped
  dsimp only
  split <;> first
    | exact .of_eq rfl rfl
    | (split
       · exact maybeNotify_asks rfl _ _ _ _
       · exact .of_eq rfl rfl)

theorem handleHeartbeat_handled (s : Supervisor) (status : HeartbeatStatus) (now : ℕ) :
    Handled s.flight (s.handleHeartbeat status now) := by
  cases status with
  | error e => exact maybeNotify_asks rfl _ _ _ _
  | _ => exact .of_eq rfl rfl

theorem handleStarted_handled (s : Supervisor) (now wall : ℕ)
    (hidle : s.wirelessSampleInFlight = false) :
    Handled { s.flight with started := true } (s.handleStarted now wall) := by
  unfold handleStarted
  dsimp only
  split
  · rename_i hlive
    have hasks : Flight.Asks { s.flight with started := true }
        (Flight.book { s.flight with started := true } .sampleWireless) [.sampleWireless] :=
      .book (by simp [flight, Flight.count, hidle]) (fun _ => hlive)
    exact hasks
  · exact .of_eq rfl rfl

/-- The flags are looked at before each request of a live brain. -/
theorem handleAction_handled {s : Supervisor} (hlive : s.brain.isSome = true)
    (action : Action) (nowSecs wall : ℕ) :
    s.flight.Asks (s.handleAction action nowSecs wall).1.flight
      (requested (s.handleAction action nowSecs wall).2.1) := by
  have book : ∀ k : Request, s.flight.count k = 0 → s.flight.Asks (s.flight.book k) [k] :=
    fun k hidle => .book hidle (fun _ => hlive)
  have keep : s.flight.Asks s.flight [] := .refl _
  unfold handleAction
  cases action with
  | none => exact keep
  | disassociate => exact keep
  | associate =>
      dsimp only
      split
      · exact keep
      · rename_i hfree
        apply book .associate
        simpa [flight, Flight.count] using hfree
  | portalAuth =>
      dsimp only
      split
      · exact keep
      · rename_i hfree
        split
        · simpa [flight, requested] using keep
        · split
          · simpa [flight, requested] using keep
          · split
            · exact keep
            · apply book .portalAuth
              simpa [flight, Flight.count] using hfree
  | probeNow =>
      dsimp only
      split
      · exact keep
      · rename_i hfree
        split
        · exact keep
        · apply book .wlanProbe
          simpa [flight, Flight.count] using hfree

theorem Pressed.requested_eq {effects : List Effect} (h : Pressed effects) :
    requested effects = [] := by
  cases h <;> rfl

theorem joinTimeout_flight (s : Supervisor) (now wall : ℕ) :
    (s.joinTimeout now wall).flight = s.flight := by
  unfold joinTimeout
  split
  · simp [flight, pushEvent]
  · rfl

theorem handleWirelessSampled_handled (s : Supervisor) (sample : WirelessSample)
    (now wall : ℕ) :
    Handled (s.flight.clear .sampleWireless) (s.handleWirelessSampled sample now wall) := by
  unfold handleWirelessSampled
  split
  · rename_i hidle
    refine .of_eq ?_ rfl
    simp [flight, Flight.clear, (by simpa using hidle : s.wirelessSampleInFlight = false)]
  · split
    · exact .of_eq rfl rfl
    · rename_i brain hb
      have hseen : ∀ b, (s.observed sample b).flight = s.flight.clear .sampleWireless := by
        intro b
        simp [observed, flight, Flight.clear, hb]
      unfold decideSample
      dsimp only
      generalize (brain.setMode s.mode).decide (s.world sample now) = decided
      have hasks := handleAction_handled
        (s := s.observed sample decided.1) rfl decided.2 (now / 1000) wall
      rw [hseen] at hasks
      generalize (s.observed sample decided.1).handleAction decided.2 (now / 1000) wall = done
        at hasks ⊢
      cases done.2.2 with
      | false => exact hasks
      | true =>
          have hsent : requested (done.2.1 ++ done.1.updateMetric) = requested done.2.1 := by
            have hmetric := done.1.updateMetric_pressed.requested_eq
            unfold requested at hmetric ⊢
            rw [List.filterMap_append, hmetric, List.append_nil]
          simp only [if_true, Handled, joinTimeout_flight, hsent]
          exact hasks

theorem handleAssociateFinished_flight (s : Supervisor) (now : ℕ) :
    (s.handleAssociateFinished now).flight = s.flight.clear .associate := by
  unfold handleAssociateFinished
  split
  · rename_i hidle
    simp [flight, Flight.clear, (by simpa using hidle : s.associateInFlight = false)]
  · rfl

theorem handleProbeFinished_flight (s : Supervisor) (verdict : ProbeVerdict) (wall : ℕ) :
    (s.handleProbeFinished verdict wall).flight = s.flight.clear .wlanProbe := by
  unfold handleProbeFinished
  split
  · rename_i hidle
    simp [flight, Flight.clear, (by simpa using hidle : s.probeInFlight = false)]
  · dsimp only
    split <;> rfl

theorem onResult_inFlight (l : NotificationLedger) (key : ToastKey) (delivered : Bool)
    (now : ℕ) : (l.onResult key delivered now).inFlight = l.inFlight.erase key := by
  unfold NotificationLedger.onResult
  split
  · dsimp only
    split <;> rfl
  · rename_i hnone
    rw [List.erase_of_not_mem hnone]

theorem handleWirelessDied_flight (s : Supervisor) (wall : ℕ) :
    (s.handleWirelessDied wall).flight = s.flight ∨
    (s.handleWirelessDied wall).flight = { s.flight with
      live := false, sampleWireless := false, associate := false, portalAuth := false
      wlanProbe := false } := by
  unfold handleWirelessDied
  split
  · exact .inl rfl
  · dsimp only
    split <;> exact .inr rfl

theorem handleStop_flight (s : Supervisor) (wall : ℕ) :
    (s.handleStop wall).1.flight = { s.flight with stopped := true } ∧
      requested (s.handleStop wall).2 = [] := by
  unfold handleStop
  dsimp only
  split
  · split <;> exact ⟨rfl, rfl⟩
  · exact ⟨rfl, rfl⟩

/-! ## One step -/

/-- The memory once the event is taken as an answer. -/
def answered (s : Supervisor) (event : Event) : Flight :=
  match event.resultOf with
  | some k => s.flight.clear k
  | none => s.flight

theorem answered_frame (s : Supervisor) (event : Event) :
    (s.answered event).started = s.flight.started ∧
      (s.answered event).stopped = s.flight.stopped ∧
      (s.answered event).live = s.flight.live := by
  unfold answered
  split
  · exact s.flight.clear_frame _
  · exact ⟨rfl, rfl, rfl⟩

theorem answered_count (s : Supervisor) {event : Event} {k : Request}
    (h : event.resultOf ≠ some k) : (s.answered event).count k = s.flight.count k := by
  unfold answered
  split
  · rename_i k' hk'
    apply s.flight.clear_count_ne
    rintro rfl
    exact h hk'
  · rfl

/-- One kind of request of the supervisor. -/
def requests (k : Request) : Machine.Requests Supervisor Input Reaction where
  sent r := (requested r.effects).count k
  answers i := i.event.resultOf = some k
  waiting s := s.flight.waiting k
  silent s := s.flight.Silent k

/-- The step takes no answer of kind `k`; it asks from the memory `f`. -/
theorem turn_of_asks {k : Request} {r : Record} {f : Flight} {ks : List Request}
    (hanswers : r.input.event.resultOf ≠ some k) (hks : requested r.out.effects = ks)
    (hasks : f.Asks r.post.flight ks) (hwaiting : r.pre.flight.waiting k = f.count k)
    (hsilent : r.pre.flight.Silent k → f.Silent k)
    (hopen : (f.started && !f.stopped) = true) : (requests k).Turn r := by
  have hno : (requests k).answers r.input = false := by simp [requests, hanswers]
  have hopen' : (r.post.flight.started && !r.post.flight.stopped) = true := by
    rw [hasks.frame.1, hasks.frame.2.1]
    exact hopen
  have hafter : r.post.flight.waiting k = r.post.flight.count k := if_pos hopen'
  by_cases hk : k ∈ ks
  · obtain ⟨hidle, hone, hlive⟩ := hasks.sent k hk
    refine .asked hno ?_ (hwaiting.trans hidle) (hafter.trans hone) ?_
    · change (requested r.out.effects).count k = 1
      rw [hks]
      exact List.count_eq_one_of_mem hasks.nodup hk
    · intro hquiet
      rcases hsilent hquiet with hstopped | ⟨hwireless, hdead⟩
      · simp [hstopped] at hopen
      · simp [hlive hwireless] at hdead
  · refine .kept hno ?_ (hafter.trans ((hasks.others k hk).trans hwaiting.symm)) ?_
    · change (requested r.out.effects).count k = 0
      rw [hks]
      exact List.count_eq_zero.mpr hk
    · intro hquiet
      exact (hsilent hquiet).of_frame hasks.frame

theorem new_idle (cfg : Config) :
    (new cfg).started = false ∧ (new cfg).stopped = false ∧ ∀ k, (new cfg).flight.count k = 0 := by
  unfold new
  dsimp only
  split
  · split
    · exact ⟨rfl, rfl, fun k => by cases k <;> rfl⟩
    · exact ⟨rfl, rfl, fun k => by cases k <;> rfl⟩
  · exact ⟨rfl, rfl, fun k => by cases k <;> rfl⟩

/-- A result is never answered with a request of its own kind. -/
theorem Emits.notMem_of_resultOf {s : Supervisor} {event : Event} {effects : List Effect}
    {k : Request} (h : s.Emits event effects) (hk : event.resultOf = some k) :
    k ∉ requested effects := by
  cases h with
  | nothing => simp [requested]
  | link hsteps => rcases hsteps with rfl | rfl <;> simp [requested, Effect.request]
  | restored => simp [requested, Effect.request]
  | pending => simp [requested, Effect.request]
  | sample hflight hlive hcarried hpressed =>
      cases hk
      rw [requested, List.filterMap_append, ← requested, ← requested, hpressed.requested_eq,
        List.append_nil]
      cases hcarried <;> simp [requested, Effect.request]
  | _ => cases hk

section Steps

variable [SerdeJson] {s : Supervisor} {i : Input} {k : Request}

theorem handlePortalFinished_flight (s : Supervisor) (attempt : PortalAttempt)
    (now wall : ℕ) :
    (s.handlePortalFinished attempt now wall).flight = s.flight.clear .portalAuth := by
  unfold handlePortalFinished
  split
  · rename_i hidle
    simp [flight, Flight.clear, (by simpa using hidle : s.authInFlight = false)]
  · simp [flight, Flight.clear, pushEvent]

/-- Every event but the death of the worker and the stop. -/
theorem handle_handled (s : Supervisor) (now wall : ℕ) {event : Event}
    (hdied : event ≠ .wirelessDied) (hstop : event ≠ .stop) :
    Handled (s.answered event) (s.handle now wall event) := by
  cases event with
  | started => exact .of_eq rfl rfl
  | wake => exact s.handleWake_handled now
  | command cmd => exact s.handleCommand_handled cmd wall
  | linkSampled up pppIp =>
      obtain ⟨hflight, hnone⟩ := s.handleLinkSampled_flight up pppIp now wall
      exact .of_eq hflight hnone
  | watchdogStepped step => exact s.handleWatchdogStepped_handled step now
  | wirelessSampled sample => exact s.handleWirelessSampled_handled sample now wall
  | associateFinished res => exact .of_eq (s.handleAssociateFinished_flight now) rfl
  | portalFinished attempt => exact .of_eq (s.handlePortalFinished_flight attempt now wall) rfl
  | wlanProbeFinished verdict => exact .of_eq (s.handleProbeFinished_flight verdict wall) rfl
  | heartbeat status => exact s.handleHeartbeat_handled status now
  | notifyResult key delivered =>
      refine .of_eq ?_ rfl
      simp only [handle, flight, answered, Event.resultOf, Flight.clear, onResult_inFlight]
  | wirelessDied => exact absurd rfl hdied
  | stop => exact absurd rfl hstop

/-- Before `Started` nothing is in flight. -/
def Fresh (s : Supervisor) : Prop :=
  s.started = false → s.stopped = false ∧ ∀ k, s.flight.count k = 0

/-- What one input can do to the memory, and the requests it sends. -/
inductive Flown (s : Supervisor) (i : Input) : Flight → List Request → Prop
  | deaf (hdeaf : (s.started && !s.stopped) = false) : Flown s i s.flight []
  | begun {f : Flight} {ks : List Request} (hfresh : s.started = false)
      (hevent : i.event = .started)
      (hasks : Flight.Asks { s.flight with started := true } f ks) : Flown s i f ks
  | asked {f : Flight} {ks : List Request} (hopen : (s.started && !s.stopped) = true)
      (hasks : (s.answered i.event).Asks f ks)
      (hother : ∀ k, i.event.resultOf = some k → k ∉ ks) : Flown s i f ks
  | died (hopen : (s.started && !s.stopped) = true) (hevent : i.event = .wirelessDied) :
      Flown s i { s.flight with
        live := false, sampleWireless := false, associate := false, portalAuth := false
        wlanProbe := false } []
  | stopped (hopen : (s.started && !s.stopped) = true) (hevent : i.event = .stop) :
      Flown s i { s.flight with stopped := true } []

theorem step_flown (hfresh : s.Fresh) :
    Flown s i (s.step i).1.flight (requested (s.step i).2.effects) := by
  obtain ⟨snap, hstate⟩ := s.step_state i
  rw [hstate, step_effects]
  change Flown s i (s.dispatch i.now i.wall i.event).1.flight _
  rcases s.dispatch_cases i.now i.wall i.event with ⟨hn, h⟩ | ⟨hs, he, h⟩ | ⟨hs, hr, h⟩
  · rw [h]
    refine .deaf ?_
    unfold handled at hn
    split at hn
    · rename_i hs
      simpa [hs] using hn
    · rename_i hs
      simp [hs]
  · rw [h]
    have hidle : s.wirelessSampleInFlight = false := by
      simpa [flight, Flight.count] using (hfresh hs).2 .sampleWireless
    exact .begun hs he (s.handleStarted_handled i.now i.wall hidle)
  · rw [h]
    have hopen : (s.started && !s.stopped) = true := by simp [hs, hr]
    by_cases hdied : i.event = .wirelessDied
    · rw [hdied]
      rcases s.handleWirelessDied_flight i.wall with hsame | hdead
      · refine .asked hopen ?_ (by simp [hdied, Event.resultOf])
        rw [hdied]
        exact Handled.of_eq hsame rfl
      · change Flown s i (s.handleWirelessDied i.wall).flight []
        rw [hdead]
        exact .died hopen hdied
    · by_cases hstop : i.event = .stop
      · obtain ⟨hflight, hnone⟩ := s.handleStop_flight i.wall
        rw [hstop]
        change Flown s i (s.handleStop i.wall).1.flight (requested (s.handleStop i.wall).2)
        rw [hflight, hnone]
        exact .stopped hopen hstop
      · refine .asked hopen (s.handle_handled i.now i.wall hdied hstop) ?_
        intro k hk
        exact (s.handle_emits i.now i.wall i.event).notMem_of_resultOf hk

/-- A supervisor that does not listen waits for nothing before and after. -/
theorem turn_deaf (hdeaf : (s.started && !s.stopped) = false)
    (hpost : (s.step i).1.flight = s.flight) (hsent : requested (s.step i).2.effects = []) :
    (requests k).Turn (Machine.stepAt step s i) := by
  have hnone : s.flight.waiting k = 0 := if_neg (by simpa [flight] using hdeaf)
  have hafter : (s.step i).1.flight.waiting k = 0 := by rw [hpost, hnone]
  have hzero : (requests k).sent (s.step i).2 = 0 := by simp [requests, hsent]
  have hquiet : s.flight.Silent k → (s.step i).1.flight.Silent k := by
    rw [hpost]
    exact id
  by_cases hanswers : i.event.resultOf = some k
  · exact .answered (by simp [requests, hanswers]) hzero
      (hafter.trans (by simp [requests, hnone])) hquiet
  · exact .kept (by simp [requests, hanswers]) hzero (hafter.trans hnone.symm) hquiet

/-- An event that answers `k` clears it and sends nothing of the kind. -/
theorem turn_answered (hopen : (s.started && !s.stopped) = true)
    (hanswers : i.event.resultOf = some k) {ks : List Request}
    (hks : requested (s.step i).2.effects = ks)
    (hasks : (s.answered i.event).Asks (s.step i).1.flight ks) (hother : k ∉ ks) :
    (requests k).Turn (Machine.stepAt step s i) := by
  have hframe := s.answered_frame i.event
  have hbefore : s.flight.waiting k = s.flight.count k := if_pos hopen
  have hcount : (s.step i).1.flight.count k = s.flight.count k - 1 := by
    rw [hasks.others k hother, answered, hanswers]
    exact s.flight.clear_count k
  have hafter : (s.step i).1.flight.waiting k = (s.step i).1.flight.count k := by
    refine if_pos ?_
    rw [hasks.frame.1, hasks.frame.2.1, hframe.1, hframe.2.1]
    exact hopen
  refine .answered (by simp [requests, hanswers]) ?_ ?_ ?_
  · change (requested (s.step i).2.effects).count k = 0
    rw [hks]
    exact List.count_eq_zero.mpr hother
  · change (s.step i).1.flight.waiting k = s.flight.waiting k - 1
    rw [hafter, hcount, hbefore]
  · exact fun hquiet => (hquiet.of_frame hframe).of_frame hasks.frame

/-- The worker's death drops the wireless kinds and leaves the others. -/
theorem turn_died (hevent : i.event = .wirelessDied)
    (hpost : (s.step i).1.flight = { s.flight with
      live := false, sampleWireless := false, associate := false, portalAuth := false
      wlanProbe := false })
    (hsent : requested (s.step i).2.effects = []) :
    (requests k).Turn (Machine.stepAt step s i) := by
  have hno : (requests k).answers i = false := by simp [requests, hevent, Event.resultOf]
  have hzero : (requests k).sent (s.step i).2 = 0 := by simp [requests, hsent]
  cases hw : k.wireless with
  | true =>
      refine .dropped hno hzero ?_ ?_
      · change (s.step i).1.flight.waiting k = 0
        rw [hpost]
        cases k <;> simp_all [Flight.waiting, Flight.count, Request.wireless]
      · change (s.step i).1.flight.Silent k
        rw [hpost]
        exact .inr ⟨hw, rfl⟩
  | false =>
      refine .kept hno hzero ?_ ?_
      · change (s.step i).1.flight.waiting k = s.flight.waiting k
        rw [hpost]
        cases k <;> simp_all [Flight.waiting, Flight.count, Request.wireless]
      · change s.flight.Silent k → (s.step i).1.flight.Silent k
        rw [hpost]
        exact Or.imp_right (fun hquiet => ⟨hquiet.1, rfl⟩)

theorem step_turn (hfresh : s.Fresh) (i : Input) (k : Request) :
    (requests k).Turn (Machine.stepAt step s i) := by
  have hflown := step_flown (i := i) hfresh
  generalize hks : requested (s.step i).2.effects = ks at hflown
  generalize hpost : (s.step i).1.flight = f at hflown
  cases hflown with
  | deaf hdeaf => exact turn_deaf hdeaf hpost hks
  | begun hnew hevent hasks =>
      obtain ⟨hrun, hidle⟩ := hfresh hnew
      have hnone : s.flight.waiting k = 0 := if_neg (by simp [flight, hnew])
      rw [← hpost] at hasks
      exact turn_of_asks (by simp [hevent, Event.resultOf]) hks hasks
        (hnone.trans (hidle k).symm) id (by simp [flight, hrun])
  | asked hopen hasks hother =>
      rw [← hpost] at hasks
      by_cases hanswers : i.event.resultOf = some k
      · exact turn_answered hopen hanswers hks hasks (hother k hanswers)
      · have hframe := s.answered_frame i.event
        have hbefore : s.flight.waiting k = s.flight.count k := if_pos hopen
        refine turn_of_asks hanswers hks hasks (hbefore.trans (s.answered_count hanswers).symm)
          (fun hquiet => hquiet.of_frame hframe) ?_
        rw [hframe.1, hframe.2.1]
        exact hopen
  | died hopen hevent => exact turn_died hevent hpost hks
  | stopped hopen hevent =>
      refine .dropped (by simp [requests, hevent, Event.resultOf]) (by simp [requests, hks]) ?_ ?_
      · change (s.step i).1.flight.waiting k = 0
        rw [hpost]
        simp [Flight.waiting]
      · change (s.step i).1.flight.Silent k
        rw [hpost]
        exact .inl rfl

theorem Fresh.step (hfresh : s.Fresh) (i : Input) : (s.step i).1.Fresh := by
  have hflown := step_flown (i := i) hfresh
  unfold Fresh
  change (s.step i).1.flight.started = false → (s.step i).1.flight.stopped = false ∧ _
  generalize requested (s.step i).2.effects = ks at hflown
  generalize (s.step i).1.flight = f at hflown ⊢
  cases hflown with
  | deaf hdeaf => exact hfresh
  | begun hnew hevent hasks =>
      intro hnot
      rw [hasks.frame.1] at hnot
      cases hnot
  | asked hopen hasks hother =>
      intro hnot
      rw [hasks.frame.1, (s.answered_frame i.event).1] at hnot
      change s.started = false at hnot
      simp [hnot] at hopen
  | died hopen hevent | stopped hopen hevent =>
      intro hnot
      change s.started = false at hnot
      simp [hnot] at hopen

theorem after_fresh (cfg : Config) (is : List Input) : (after cfg is).Fresh :=
  Machine.final_induction (I := Fresh) (fun _ i h => h.step i) (fun _ => (new_idle cfg).2) is

theorem history_turns (cfg : Config) (is : List Input) (k : Request) :
    ∀ r ∈ history cfg is, (requests k).Turn r := by
  intro r hr
  obtain ⟨xs, i, ys, -, rfl⟩ := Machine.exists_split_of_mem hr
  exact step_turn (after_fresh cfg xs) i k

/-! ## Stray answers -/

/-- A running supervisor has published what it shows. -/
def Shown (s : Supervisor) : Prop := s.started = true → s.lastSnapshot = some s.compose

theorem Shown.step (h : s.Shown) (i : Input) : (s.step i).1.Shown := by
  simp only [Supervisor.step, on]
  split
  · intro _
    unfold publish
    split
    · rename_i hsame
      exact hsame
    · rfl
  · rename_i hn
    have hnot : s.handled i.event = false := by simpa using hn
    simpa [dispatch, hnot] using h

theorem after_shown (cfg : Config) (is : List Input) : (after cfg is).Shown := by
  refine Machine.final_induction (I := Shown) (fun _ i h => h.step i) ?_ is
  intro hs
  rw [(new_idle cfg).1] at hs
  cases hs

/-- An answer of a kind that is not in flight does nothing. -/
theorem handle_stray (hidle : s.flight.count k = 0) {event : Event}
    (hanswers : event.resultOf = some k) (now wall : ℕ) :
    s.handle now wall event = (s, []) := by
  cases event with
  | linkSampled up pppIp =>
      cases hanswers
      exact if_pos (by simpa [flight, Flight.count] using hidle)
  | wirelessSampled sample =>
      cases hanswers
      exact if_pos (by simpa [flight, Flight.count] using hidle)
  | associateFinished res =>
      cases hanswers
      have hsame : s.handleAssociateFinished now = s :=
        if_pos (by simpa [flight, Flight.count] using hidle)
      simp only [handle, hsame]
  | portalFinished attempt =>
      cases hanswers
      have hsame : s.handlePortalFinished attempt now wall = s :=
        if_pos (by simpa [flight, Flight.count] using hidle)
      simp only [handle, hsame]
  | wlanProbeFinished verdict =>
      cases hanswers
      have hsame : s.handleProbeFinished verdict wall = s :=
        if_pos (by simpa [flight, Flight.count] using hidle)
      simp only [handle, hsame]
  | notifyResult key delivered =>
      cases hanswers
      have hsame : s.notifications.onResult key delivered now = s.notifications :=
        if_neg (List.count_eq_zero.mp hidle)
      simp only [handle, hsame]
  | _ => cases hanswers

theorem step_stray (hshown : s.Shown) (hidle : s.flight.waiting k = 0)
    (hanswers : i.event.resultOf = some k) :
    (s.step i).1 = s ∧ (s.step i).2.effects = [] ∧ (s.step i).2.snapshot = none := by
  have hnothing : s.dispatch i.now i.wall i.event = (s, []) := by
    rcases s.dispatch_cases i.now i.wall i.event with ⟨-, h⟩ | ⟨-, he, -⟩ | ⟨hs, hr, h⟩
    · exact h
    · rw [he] at hanswers
      cases hanswers
    · have hopen : (s.flight.started && !s.flight.stopped) = true := by simp [flight, hs, hr]
      rw [Flight.waiting, if_pos hopen] at hidle
      rw [h, handle_stray hidle hanswers]
  simp only [step, on, hnothing]
  split
  · rename_i hh
    have hs : s.started = true := by
      by_contra hnot
      have hnew : s.started = false := by simpa using hnot
      rcases s.dispatch_cases i.now i.wall i.event with ⟨hn, -⟩ | ⟨-, he, -⟩ | ⟨hs, -, -⟩
      · simp [hn] at hh
      · rw [he] at hanswers
        cases hanswers
      · simp [hs] at hnew
    simp [publish, hshown hs]
  · simp

/-- **One request in flight, and stray answers are inert.** At most one request
of a kind is outstanding after any run; an answer while none is outstanding
changes nothing, sends nothing and publishes nothing. -/
theorem one_request_in_flight (cfg : Config) (is : List Input) (k : Request) :
    (requests k).outstanding (history cfg is) ≤ 1 ∧
    ∀ i : Input, i.event.resultOf = some k →
      (requests k).outstanding (history cfg is) = 0 →
      ((after cfg is).step i).1 = after cfg is ∧ ((after cfg is).step i).2.effects = [] ∧
        ((after cfg is).step i).2.snapshot = none := by
  have hstart : (requests k).waiting (new cfg) = 0 :=
    if_neg (by simp [flight, (new_idle cfg).1])
  have hsettled := Machine.Requests.settled_run hstart is (history_turns cfg is k)
  refine ⟨hsettled.single, ?_⟩
  intro i hanswers hnone
  have hidle : (after cfg is).flight.waiting k = 0 := by
    have hbooked := hsettled.booked
    change (after cfg is).flight.waiting k ≤ (requests k).outstanding (history cfg is) at hbooked
    omega
  exact step_stray (after_shown cfg is) hidle hanswers

end Steps

/-- The association has been answered; its result comes a second time. -/
def repeatedAssociation : Input := ⟨2020, 2, .associateFinished (.ok ())⟩

theorem one_request_in_flight_repeated_association :
    (requests .portalAuth).outstanding (@history replyJson standbyCfg loginRun) = 1 ∧
    (@step replyJson (@after replyJson standbyCfg loginRun) repeatedAssociation).1 =
      @after replyJson standbyCfg loginRun :=
  ⟨by decide, ((@one_request_in_flight replyJson standbyCfg loginRun .associate).2
    repeatedAssociation rfl (by decide)).1⟩

end Supervisor

end GdutNet
