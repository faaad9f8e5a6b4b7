import GdutNet.Runtime.Worker

/-!
# Logins leave through the service's own routes

The supervisor sends a login as three effects: acquire the egress, let it
settle, log in. `Escorted` says that the lane holds logins in no other way, and
`Ready` what the worker's books are worth between the acquisition and its login.
The first is kept by every reaction, the second by every message the worker
takes, whatever the route calls answer.
-/

namespace GdutNet

/-- The effects that decide what a login is worth. -/
def Effect.routing : Effect → Bool
  | .acquireWirelessEgress _ | .teardownRoutes | .portalAuth _ _ => true
  | _ => false

/-- The lane, effect by effect with the event behind it. `some wlan` means that
the egress of the sample `wlan` was acquired for a login still to come. -/
inductive Escorted : Option WlanSample → List (Event × Effect) → Prop
  | nil : Escorted none []
  | neutral {st : Option WlanSample} {event : Event} {effect : Effect}
      {rest : List (Event × Effect)} (h : effect.routing = false) (hrest : Escorted st rest) :
      Escorted st ((event, effect) :: rest)
  | teardown {event : Event} {rest : List (Event × Effect)} (hrest : Escorted none rest) :
      Escorted none ((event, .teardownRoutes) :: rest)
  | acquire {sample : WirelessSample} {wlan : WlanSample} {gateway : Ipv4Addr}
      {rest : List (Event × Effect)} (hwlan : sample.wlan = some wlan)
      (hgw : wlan.gateway = some gateway) (hrest : Escorted (some wlan) rest) :
      Escorted none ((.wirelessSampled sample,
        .acquireWirelessEgress ⟨gateway, wlan.ifindex⟩) :: rest)
  | login {sample : WirelessSample} {wlan : WlanSample} {timeout : Duration}
      {rest : List (Event × Effect)} (hwlan : sample.wlan = some wlan)
      (hrest : Escorted none rest) :
      Escorted (some wlan) ((.wirelessSampled sample, .portalAuth wlan.ipv4 timeout) :: rest)

theorem Escorted.append {st : Option WlanSample} {xs ys : List (Event × Effect)}
    (h : Escorted st xs) (h' : Escorted none ys) : Escorted st (xs ++ ys) := by
  induction h with
  | nil => exact h'
  | neutral hn _ ih => exact .neutral hn ih
  | teardown _ ih => exact .teardown ih
  | acquire hwlan hgw _ ih => exact .acquire hwlan hgw ih
  | login hwlan _ ih => exact .login hwlan ih

/-- Only a sample sends a login. -/
theorem Escorted.cause {st : Option WlanSample} {xs : List (Event × Effect)}
    (h : Escorted st xs) {event : Event} {srcIp : Ipv4Addr} {timeout : Duration}
    (hmem : (event, .portalAuth srcIp timeout) ∈ xs) :
    ∃ sample, event = .wirelessSampled sample := by
  induction h with
  | nil => simp at hmem
  | neutral hn _ ih =>
      rcases List.mem_cons.mp hmem with heq | hmem
      · obtain ⟨rfl, rfl⟩ := Prod.mk.inj heq
        simp [Effect.routing] at hn
      · exact ih hmem
  | teardown _ ih | acquire _ _ _ ih =>
      rcases List.mem_cons.mp hmem with heq | hmem
      · simp at heq
      · exact ih hmem
  | @login sample _ _ _ _ _ ih =>
      rcases List.mem_cons.mp hmem with heq | hmem
      · exact ⟨sample, (Prod.mk.inj heq).1⟩
      · exact ih hmem

/-- Nothing but its login follows an acquisition. -/
theorem Escorted.of_acquired {wlan : WlanSample} {event : Event} {effect : Effect}
    {rest : List (Event × Effect)} (h : Escorted (some wlan) ((event, effect) :: rest))
    (hno : ∀ srcIp timeout, effect ≠ .portalAuth srcIp timeout) :
    effect.routing = false ∧ Escorted (some wlan) rest := by
  cases h with
  | neutral hn hrest => exact ⟨hn, hrest⟩
  | login _ _ => exact absurd rfl (hno _ _)

theorem Escorted.of_acquire {st : Option WlanSample} {event : Event} {endpoint : WlanEndpoint}
    {rest : List (Event × Effect)}
    (h : Escorted st ((event, .acquireWirelessEgress endpoint) :: rest)) :
    ∃ wlan, Escorted (some wlan) rest := by
  cases h with
  | neutral hn _ => simp [Effect.routing] at hn
  | @acquire _ wlan _ _ _ _ hrest => exact ⟨wlan, hrest⟩

/-! ## What the supervisor sends -/

/-- What an event's episode effects and its wireless effects differ in is neutral. -/
theorem Escorted.of_episode {st : Option WlanSample} {event : Event} {effects : List Effect}
    (h : Escorted st ((effects.filter Effect.episode).map (event, ·))) :
    Escorted st ((effects.filter (·.lane = .wireless)).map (event, ·)) := by
  induction effects generalizing st with
  | nil => exact h
  | cons effect effects ih =>
      cases hr : effect.routing with
      | true =>
          -- what matters for routing is in both lists, so it stays where it is
          have hboth : effect.episode = true ∧ effect.lane = .wireless := by
            cases effect <;> simp [Effect.routing] at hr <;> exact ⟨rfl, rfl⟩
          rw [List.filter_cons_of_pos hboth.1] at h
          rw [List.filter_cons_of_pos (by simpa using hboth.2)]
          cases h with
          | neutral hn hrest => simp [hr] at hn
          | teardown hrest => exact .teardown (ih hrest)
          | acquire hwlan hgw hrest => exact .acquire hwlan hgw (ih hrest)
          | login hwlan hrest => exact .login hwlan (ih hrest)
      | false =>
          have hrest : Escorted st ((effects.filter Effect.episode).map (event, ·)) := by
            by_cases he : effect.episode = true
            · rw [List.filter_cons_of_pos he] at h
              cases h with
              | neutral _ hrest => exact hrest
              | teardown _ | acquire _ _ _ | login _ _ => simp [Effect.routing] at hr
            · rwa [List.filter_cons_of_neg he] at h
          by_cases hl : effect.lane = .wireless
          · rw [List.filter_cons_of_pos (by simpa using hl)]
            exact .neutral hr (ih hrest)
          · rw [List.filter_cons_of_neg (by simpa using hl)]
            exact ih hrest

theorem Supervisor.Moved.escorted [SerdeJson] {s : Supervisor} {i : Input} {t : Takeover}
    {fx : List Effect} (h : Moved s i t fx) : Escorted none (fx.map (i.event, ·)) := by
  cases h with
  | still _ | died _ | associated _ _ | replied _ _ | probed _ _ | waited _
  | waitedExpired _ _ _ | deferred _ _ _ | lost _ _ _ => exact .nil
  | ticked => exact .neutral rfl .nil
  | stopped _ | released _ _ => exact .teardown (.neutral rfl .nil)
  | joined _ _ _ | joinedExpired _ _ _ =>
      unfold associateEffects
      split
      · exact .nil
      · exact .neutral rfl .nil
  | logged hs _ hwlan hgw _ =>
      rw [hs.received.1]
      exact .acquire hwlan hgw (.neutral rfl (.login hwlan .nil))
  | asked _ _ _ _ _ => exact .neutral rfl .nil

theorem Supervisor.step_escorted [SerdeJson] (s : Supervisor) (i : Input) :
    Escorted none (((s.step i).2.effects.filter (·.lane = .wireless)).map (i.event, ·)) :=
  (s.step_moved i).escorted.of_episode

/-! ## What the worker makes of it -/

namespace WirelessWorker

/-- What a login depends on. -/
def books (w : WirelessWorker) :
    (List Ipv4Addr × List Entry × Option WlanEndpoint) × Option String × Ipv4Addr × Ipv4Addr :=
  (w.egress.books, w.egressError, w.portalIp, w.probeIp)

/-- Between an acquisition and its login, an error is on record or the ledger is
the sample's. -/
structure Ready (w : WirelessWorker) (st : Option WlanSample) : Prop where
  owned : w.egress.dests = [w.portalIp, w.probeIp]
  acquired : ∀ wlan, st = some wlan → ∃ gateway, wlan.gateway = some gateway ∧
    (w.egressError = none → w.egress.Exact ⟨gateway, wlan.ifindex⟩)

theorem Ready.of_books {w w' : WirelessWorker} {st : Option WlanSample} (h : w.Ready st)
    (hb : w'.books = w.books) : w'.Ready st := by
  simp only [books, Prod.mk.injEq] at hb
  obtain ⟨hegress, herror, hportal, hprobe⟩ := hb
  refine ⟨?_, fun wlan hst => ?_⟩
  · rw [hportal, hprobe, ← h.owned]
    exact congrArg (·.1) hegress
  · obtain ⟨gateway, hgw, hexact⟩ := h.acquired wlan hst
    exact ⟨gateway, hgw, fun hno => (hexact (herror ▸ hno)).of_books hegress⟩

theorem Ready.retryCleanup {w : WirelessWorker} {st : Option WlanSample} (h : w.Ready st) :
    w.retryCleanup.Ready st := by
  refine ⟨?_, fun wlan hst => ?_⟩
  · exact (congrArg (·.1) w.egress.retryCleanup_books).trans h.owned
  · obtain ⟨gateway, hgw, hexact⟩ := h.acquired wlan hst
    exact ⟨gateway, hgw, fun hno => (hexact hno).retryCleanup⟩

theorem runEffect_neutral {effect : Effect} (h : effect.routing = false) (w : WirelessWorker)
    (a : LaneAnswer) (raceStop : Bool) :
    (w.runEffect a raceStop effect).1.books = w.books := by
  cases effect with
  | suppressMetric ifindex target =>
      exact congrArg (·, _) (w.egress.suppressMetric_books _ target)
  | releaseMetric => exact congrArg (·, _) w.egress.releaseMetric_books
  | acquireWirelessEgress _ | teardownRoutes | portalAuth _ _ => simp [Effect.routing] at h
  | _ => rfl

/-- Each effect the worker runs takes the lane one stage further. -/
theorem Ready.runEffect {st : Option WlanSample} {event : Event} {effect : Effect}
    {rest : List (Event × Effect)} {w : WirelessWorker} (h : w.Ready st)
    (hesc : Escorted st ((event, effect) :: rest)) (a : LaneAnswer) (raceStop : Bool) :
    ∃ st', Escorted st' rest ∧ (w.runEffect a raceStop effect).1.Ready st' := by
  cases hesc with
  | neutral hn hrest => exact ⟨st, hrest, h.of_books (runEffect_neutral hn w a raceStop)⟩
  | teardown hrest => exact ⟨none, hrest, w.egress.release_dests.trans h.owned, by simp⟩
  | @acquire _ wlan gateway _ _ hgw hrest =>
      obtain ⟨hdests, hexact⟩ := w.egress.acquire_spec ⟨gateway, wlan.ifindex⟩
      refine ⟨some wlan, hrest, ?_⟩
      unfold WirelessWorker.runEffect
      dsimp only
      split
      · rename_i egress d hres
        rw [hres] at hdests hexact
        exact ⟨hdests.trans h.owned, fun _ hst =>
          ⟨gateway, Option.some.inj hst ▸ hgw, fun _ => Option.some.inj hst ▸ hexact d rfl⟩⟩
      · rename_i egress msg hres
        rw [hres] at hdests
        exact ⟨hdests.trans h.owned, fun _ hst =>
          ⟨gateway, Option.some.inj hst ▸ hgw, fun hno => by simp at hno⟩⟩
  | login _ hrest =>
      refine ⟨none, hrest, ?_⟩
      unfold WirelessWorker.runEffect
      dsimp only
      split <;> exact ⟨h.owned, by simp⟩

theorem Ready.runEffects {event : Event} {rest : List (Event × Effect)}
    {answers : ℕ → LaneAnswer} {raceStop : Bool} (effects : List Effect)
    {st : Option WlanSample} {w : WirelessWorker} {k : ℕ} (h : w.Ready st)
    (hesc : Escorted st (effects.map (event, ·) ++ rest)) :
    ∃ st', Escorted st' rest ∧ (w.runEffects answers raceStop k effects).1.Ready st' := by
  induction effects generalizing st w k with
  | nil => exact ⟨st, hesc, h⟩
  | cons effect effects ih =>
      obtain ⟨st', hesc', h'⟩ := h.runEffect hesc (answers k) raceStop
      exact ih h' hesc'

theorem Ready.take {st : Option WlanSample} {w : WirelessWorker} {event : Event}
    {msg : LaneMsg} {rest : List (Event × Effect)} (h : w.Ready st)
    (hesc : Escorted st (msg.effects.map (event, ·) ++ rest)) (answers : ℕ → LaneAnswer) :
    ∃ st', Escorted st' rest ∧ (w.take answers msg).1.Ready st' := by
  cases msg with
  | effect e => exact h.retryCleanup.runEffects [e] hesc
  | shutdown es => exact h.retryCleanup.runEffects es hesc

/-- A login that meets no error leaves through the routes of its own sample. -/
theorem Ready.login {st : Option WlanSample} {w : WirelessWorker} {event : Event}
    {srcIp : Ipv4Addr} {timeout : Duration} {rest : List (Event × Effect)} (h : w.Ready st)
    (hesc : Escorted st ((event, .portalAuth srcIp timeout) :: rest))
    (hno : w.egressError = none) :
    ∃ sample wlan gateway, event = .wirelessSampled sample ∧ sample.wlan = some wlan ∧
      wlan.ipv4 = srcIp ∧ wlan.gateway = some gateway ∧
      ∀ r, r ∈ w.egress.added ↔ r ∈ WirelessEgress.routesVia [w.portalIp, w.probeIp]
        ⟨gateway, wlan.ifindex⟩ := by
  cases hesc with
  | neutral hn _ => simp [Effect.routing] at hn
  | @login sample wlan _ _ hwlan _ =>
      obtain ⟨gateway, hgw, hexact⟩ := h.acquired wlan rfl
      exact ⟨sample, wlan, gateway, rfl, hwlan, rfl, hgw, h.owned ▸ (hexact hno).ledger⟩

/-- Only `PortalAuth` reaches `portal::login`. -/
theorem runEffect_login {w : WirelessWorker} {a : LaneAnswer} {raceStop : Bool}
    {effect : Effect} {srcIp : Ipv4Addr} {url user pass acIp : String}
    (h : .login srcIp url user pass acIp ∈ (w.runEffect a raceStop effect).2.1) :
    (∃ timeout, effect = .portalAuth srcIp timeout) ∧ w.egressError = none := by
  unfold runEffect at h
  split at h
  all_goals first
    | simp at h
    | skip
  · split at h <;> simp at h
  · rename_i ip timeout
    split at h
    · simp at h
    · rename_i hno
      simp only [List.mem_singleton, WorkerCall.login.injEq] at h
      exact ⟨⟨timeout, by rw [h.1]⟩, hno⟩

theorem runEffects_login {srcIp : Ipv4Addr} {url user pass acIp : String}
    {answers : ℕ → LaneAnswer} {raceStop : Bool} (effects : List Effect) {w : WirelessWorker}
    {k : ℕ} (h : .login srcIp url user pass acIp ∈
      (w.runEffects answers raceStop k effects).2.1) :
    ∃ timeout, .portalAuth srcIp timeout ∈ effects := by
  induction effects generalizing w k with
  | nil => simp [runEffects] at h
  | cons effect effects ih =>
      rcases List.mem_append.mp h with h | h
      · obtain ⟨⟨timeout, rfl⟩, -⟩ := runEffect_login h
        exact ⟨timeout, List.mem_cons_self⟩
      · obtain ⟨timeout, hmem⟩ := ih h
        exact ⟨timeout, List.mem_cons_of_mem _ hmem⟩

end WirelessWorker

/-! ## The composition -/

namespace Service

/-- What is left in the lane, with the events behind it. -/
def todo (lane : List Sent) : List (Event × Effect) :=
  lane.flatMap (fun s => s.msg.effects.map (s.cause, ·))

theorem todo_cons (s : Sent) (lane : List Sent) :
    todo (s :: lane) = s.msg.effects.map (s.cause, ·) ++ todo lane := rfl

theorem todo_append (xs ys : List Sent) : todo (xs ++ ys) = todo xs ++ todo ys :=
  List.flatMap_append

theorem todo_number (event : Event) (msgs : List LaneMsg) (k : ℕ) :
    todo (number event k msgs) = (msgs.flatMap LaneMsg.effects).map (event, ·) := by
  induction msgs generalizing k with
  | nil => rfl
  | cons msg msgs ih =>
      rw [List.flatMap_cons, List.map_append, ← ih (k + 1)]
      rfl

/-- Logins are escorted, the worker is ready for them, and a shutdown has none. -/
structure Guarded (sv : Service) : Prop where
  shutdown : ∀ s ∈ sv.lane, ∀ es, s.msg = .shutdown es → s.cause = .stop
  ready : ∃ st, Escorted st (todo sv.lane) ∧ ∀ w, sv.worker = some w → w.Ready st

theorem new_guarded (cfg : Config) (pass : String) (os : Os) : (new cfg pass os).Guarded := by
  refine ⟨by simp [new], none, .nil, fun w hw => ⟨?_, by simp⟩⟩
  replace hw : WirelessWorker.spawn cfg pass os = some w := hw
  unfold WirelessWorker.spawn at hw
  split at hw
  · obtain ⟨w', -, rfl⟩ := Option.map_eq_some_iff.mp hw
    exact congrArg (·.1) (WirelessEgress.retryCleanup_books
      { w'.egress with dests := [w'.portalIp, w'.probeIp] })
  · simp at hw

section Runs

variable [SerdeJson]

theorem react_escorted (sv : Service) (i : Input) : Escorted none (todo (sv.react i).2) := by
  have h := sv.core.step_escorted i
  rwa [← messages_effects i.event, ← todo_number _ _ sv.sent] at h

theorem Guarded.react {sv : Service} (h : sv.Guarded) (i : Input) : (sv.react i).1.Guarded := by
  obtain ⟨hlane, hworker⟩ := sv.react_lane i
  obtain ⟨st, hesc, hready⟩ := h.ready
  constructor
  · intro s hs es hmsg
    rw [hlane] at hs
    rcases List.mem_append.mp hs with hs | hs
    · exact h.shutdown s hs es hmsg
    · obtain ⟨hcause, hmem⟩ := mem_number hs
      rw [hcause]
      rw [hmsg] at hmem
      unfold messages at hmem
      split at hmem
      · assumption
      · simp at hmem
  · refine ⟨st, ?_, hworker ▸ hready⟩
    rw [hlane, todo_append]
    exact hesc.append (sv.react_escorted i)

theorem Guarded.step {sv : Service} (h : sv.Guarded) (act : Act) : (sv.step act).1.Guarded := by
  have hwent := sv.step_went act
  generalize sv.step act = p at hwent
  cases hwent with
  | idle => exact h
  | event _ => exact h.react _
  | @deliver i _ results _ =>
      have hsame : Guarded { sv with results } := ⟨h.shutdown, h.ready⟩
      exact hsame.react i
  | @work answers w s lane _ hworker hlane =>
      obtain ⟨st, hesc, hready⟩ := h.ready
      rw [hlane, todo_cons] at hesc
      obtain ⟨st', hesc', hready'⟩ := (hready w hworker).take hesc answers
      refine ⟨fun s' hs' => h.shutdown s' (hlane ▸ List.mem_cons_of_mem _ hs'), st', hesc', ?_⟩
      intro w' hw'
      dsimp only at hw'
      split at hw'
      · simp at hw'
      · exact Option.some.inj hw' ▸ hready'
  | tick =>
      obtain ⟨st, hesc, hready⟩ := h.ready
      refine ⟨h.shutdown, st, hesc, fun w' hw' => ?_⟩
      obtain ⟨w, hw, rfl⟩ := Option.map_eq_some_iff.mp hw'
      split
      · exact (hready w hw).retryCleanup
      · exact hready w hw

theorem after_guarded (cfg : Config) (pass : String) (os : Os) (acts : List Act) :
    (after cfg pass os acts).Guarded :=
  Machine.final_induction (I := Guarded) (fun _ act h => h.step act) (new_guarded cfg pass os) acts

/-- A login leaves through the routes of the sample behind it, and no others. -/
theorem Guarded.login {sv : Service} (h : sv.Guarded) {act : Act} {srcIp : Ipv4Addr}
    {url user pass acIp : String}
    (hcall : .login srcIp url user pass acIp ∈ (sv.step act).2.calls) :
    ∃ s sample wlan gateway w, (sv.step act).2.taken = some s ∧
      s.cause = .wirelessSampled sample ∧ sample.wlan = some wlan ∧ wlan.ipv4 = srcIp ∧
      wlan.gateway = some gateway ∧ (sv.step act).1.worker = some w ∧
      ∀ r, r ∈ w.egress.added ↔ r ∈ WirelessEgress.routesVia [w.portalIp, w.probeIp]
        ⟨gateway, wlan.ifindex⟩ := by
  have hwent := sv.step_went act
  generalize sv.step act = p at hwent hcall ⊢
  cases hwent with
  | idle | event _ | deliver _ | tick => simp at hcall
  | @work answers w s lane _ hworker hlane =>
      obtain ⟨st, hesc, hready⟩ := h.ready
      rw [hlane, todo_cons] at hesc
      cases hmsg : s.msg with
      | shutdown es =>
          simp only [hmsg, WirelessWorker.take] at hcall
          obtain ⟨timeout, hmem⟩ := WirelessWorker.runEffects_login es hcall
          obtain ⟨sample, hsample⟩ := hesc.cause (List.mem_append_left _
            (List.mem_map.mpr ⟨_, by rw [hmsg]; exact hmem, rfl⟩))
          -- a shutdown is caused by `Stop`, and only samples cause logins
          have hstop := h.shutdown s (hlane ▸ List.mem_cons_self) es hmsg
          simp [hstop] at hsample
      | effect effect =>
          simp only [hmsg, WirelessWorker.take, WirelessWorker.runEffects,
            List.append_nil] at hcall
          rw [hmsg] at hesc
          obtain ⟨⟨timeout, rfl⟩, hno⟩ := WirelessWorker.runEffect_login hcall
          obtain ⟨sample, wlan, gateway, hcause, hwlan, hip, hgw, hledger⟩ :=
            (hready w hworker).retryCleanup.login hesc hno
          refine ⟨s, sample, wlan, gateway, w.retryCleanup, rfl, hcause, hwlan, hip, hgw, ?_,
            hledger⟩
          simp only [WirelessWorker.take, WirelessWorker.runEffects, WirelessWorker.runEffect, hno,
            Bool.false_eq_true, if_false]

/-! ## Failed acquisitions -/

/-- The worker takes a login from the lane. -/
def TakesLogin (r : Record) : Prop :=
  ∃ s srcIp timeout, r.out.taken = some s ∧ s.msg = .effect (.portalAuth srcIp timeout)

/-- The worker takes an acquisition, which fails with `msg`. -/
def FailsAcquire (r : Record) (msg : String) : Prop :=
  ∃ s endpoint w, r.out.taken = some s ∧ s.msg = .effect (.acquireWirelessEgress endpoint) ∧
    r.pre.worker = some w ∧ (w.retryCleanup.egress.acquire endpoint).2 = .error msg

/-- A worker that is still there has the error on record and its login ahead. -/
def Blocked (error : String) (sv : Service) : Prop :=
  ∀ w, sv.worker = some w → w.egressError = some error ∧
    ∃ wlan, Escorted (some wlan) (todo sv.lane)

theorem Blocked.react {error : String} {sv : Service} (h : Blocked error sv) (i : Input) :
    Blocked error (sv.react i).1 := by
  obtain ⟨hlane, hworker⟩ := sv.react_lane i
  intro w hw
  obtain ⟨herror, wlan, hesc⟩ := h w (hworker ▸ hw)
  refine ⟨herror, wlan, ?_⟩
  rw [hlane, todo_append]
  exact hesc.append (sv.react_escorted i)

/-- The error stays on record until the login takes it. -/
theorem Blocked.step {error : String} {sv : Service} (h : Blocked error sv) {act : Act}
    (hno : ¬ TakesLogin (Machine.stepAt Service.step sv act)) :
    Blocked error (sv.step act).1 := by
  have hwent := sv.step_went act
  unfold TakesLogin at hno
  rw [Machine.stepAt_out] at hno
  generalize sv.step act = p at hwent hno
  cases hwent with
  | idle => exact h
  | event _ => exact h.react _
  | @deliver i _ results _ =>
      have hsame : Blocked error { sv with results } := h
      exact hsame.react i
  | @work answers w s lane _ hworker hlane =>
      obtain ⟨herror, wlan, hesc⟩ := h w hworker
      rw [hlane, todo_cons] at hesc
      intro w' hw'
      cases hmsg : s.msg with
      | shutdown es => simp [hmsg] at hw'
      | effect effect =>
          simp only [hmsg, Bool.false_eq_true, if_false, Option.some.injEq] at hw'
          rw [hmsg] at hesc
          obtain ⟨hn, hrest⟩ := hesc.of_acquired (fun srcIp timeout he =>
            hno ⟨s, srcIp, timeout, rfl, he ▸ hmsg⟩)
          have hb := WirelessWorker.runEffect_neutral hn w.retryCleanup (answers 0) true
          refine ⟨?_, wlan, hrest⟩
          rw [← hw', ← herror]
          exact congrArg (·.2.1) hb
  | tick =>
      intro w' hw'
      obtain ⟨w, hw, rfl⟩ := Option.map_eq_some_iff.mp hw'
      obtain ⟨herror, hesc⟩ := h w hw
      refine ⟨?_, hesc⟩
      split <;> exact herror

theorem blocked_of_fails {sv : Service} (h : sv.Guarded) {act : Act} {msg : String}
    (hfail : FailsAcquire (Machine.stepAt Service.step sv act) msg) :
    Blocked ("Wireless Egress acquisition failed: " ++ msg) (sv.step act).1 := by
  obtain ⟨s, endpoint, w, htaken, hmsg, hw, hres⟩ := hfail
  have hwent := sv.step_went act
  rw [Machine.stepAt_out] at htaken
  rw [Machine.stepAt_pre] at hw
  generalize sv.step act = p at hwent htaken ⊢
  cases hwent with
  | idle | event _ | deliver _ | tick => simp at htaken
  | @work answers w₀ s₀ lane _ hworker hlane =>
      obtain rfl : s₀ = s := Option.some.inj htaken
      obtain rfl : w₀ = w := Option.some.inj (hworker.symm.trans hw)
      obtain ⟨st, hesc, -⟩ := h.ready
      rw [hlane, todo_cons, hmsg] at hesc
      intro w' hw'
      simp only [hmsg, Bool.false_eq_true, if_false, Option.some.injEq] at hw'
      refine ⟨?_, hesc.of_acquire⟩
      rw [← hw']
      simp only [WirelessWorker.take, WirelessWorker.runEffects, WirelessWorker.runEffect]
      split
      · rename_i hok
        simp [hok] at hres
      · rename_i herr
        rw [herr] at hres
        rw [Except.error.inj hres]

/-- A login that finds an error on record answers with it and sends no request. -/
theorem Blocked.answer {error : String} {sv : Service} (h : Blocked error sv)
    {answers : ℕ → LaneAnswer}
    (hlogin : TakesLogin (Machine.stepAt Service.step sv (.work answers))) :
    (sv.step (.work answers)).2.calls = [] ∧ (sv.step (.work answers)).2.replies =
      WirelessWorker.send (answers 0) (.portalFinished (.failed error)) := by
  obtain ⟨s, srcIp, timeout, htaken, hmsg⟩ := hlogin
  have hwent := sv.step_went (.work answers)
  rw [Machine.stepAt_out] at htaken
  generalize sv.step (.work answers) = p at hwent htaken ⊢
  cases hwent with
  | idle | event _ | deliver _ | tick => simp at htaken
  | @work answers' w s₀ lane hact hworker hlane =>
      obtain rfl : s₀ = s := Option.some.inj htaken
      obtain rfl : answers = answers' := Act.work.inj hact
      have herror : w.retryCleanup.egressError = some error := (h w hworker).1
      simp only [hmsg, WirelessWorker.take, WirelessWorker.runEffects, WirelessWorker.runEffect,
        herror, List.append_nil, and_self]

/-- **Logins leave through the service's own routes.** When the worker reaches
`portal::login`, the ledger is exactly the /32 routes of both owned destinations
through the gateway and the interface of the sample that supplied the source
address. After a failed acquisition the login it was for is answered with the
error and no request is sent. -/
theorem login_through_own_routes (cfg : Config) (pass : String) (os : Os) (acts : List Act)
    (past rest : List Record) (r : Record)
    (hsplit : history cfg pass os acts = past ++ r :: rest) :
    (∀ srcIp url user pw acIp, .login srcIp url user pw acIp ∈ r.out.calls →
      ∃ s sample wlan gateway w, r.out.taken = some s ∧ s.cause = .wirelessSampled sample ∧
        sample.wlan = some wlan ∧ wlan.ipv4 = srcIp ∧ wlan.gateway = some gateway ∧
        r.post.worker = some w ∧
        ∀ entry, entry ∈ w.egress.added ↔
          entry ∈ [(w.portalIp, gateway, wlan.ifindex), (w.probeIp, gateway, wlan.ifindex)]) ∧
    (∀ msg mid login rest' answers, FailsAcquire r msg → rest = mid ++ login :: rest' →
      (∀ q ∈ mid, ¬ TakesLogin q) → TakesLogin login → login.input = .work answers →
        login.out.calls = [] ∧ login.out.replies = WirelessWorker.send (answers 0)
          (.portalFinished (.failed ("Wireless Egress acquisition failed: " ++ msg)))) := by
  obtain ⟨xs, act, ys, -, rfl, rfl, rfl⟩ := Machine.trace_split hsplit
  have hguard : Guarded (after cfg pass os xs) := after_guarded cfg pass os xs
  constructor
  · intro srcIp url user pw acIp hcall
    exact hguard.login hcall
  · intro msg mid login rest' answers hfail hrest hmid hlogin hinput
    obtain ⟨us, act', vs, -, rfl, rfl, -⟩ := Machine.trace_split hrest
    obtain rfl : act' = .work answers := hinput
    have hblocked : Blocked ("Wireless Egress acquisition failed: " ++ msg)
        (Machine.final Service.step ((after cfg pass os xs).step act).1 us) :=
      Machine.history_induction (A := fun r => ¬ TakesLogin r)
        (I := fun _ sv => Blocked ("Wireless Egress acquisition failed: " ++ msg) sv)
        (blocked_of_fails hguard hfail) (fun _ _ _ h hno => h.step hno) us hmid
    exact hblocked.answer hlogin

end Runs

/-- The worker's calls succeed at once; the login times out. -/
def promptly : ℕ → LaneAnswer := fun _ => {}

/-- Every interface exists; the system calls in `faults` fail with code 5. -/
def testOs (faults : List ℕ) : Os :=
  { ifaces := fun _ => some ⟨25, true⟩, fault := fun n => if n ∈ faults then some 5 else none }

/-- Associated, and the login is in the lane. -/
def queueLogin : List Act :=
  [.event ⟨0, 0, .started⟩, .event ⟨10, 0, .wirelessSampled {}⟩, .work promptly,
    .work promptly, .deliver 900 0, .event ⟨2000, 2, .wake⟩, .event Supervisor.loginInput]

def settleLogin : List Act := [.tick, .work promptly]

def loginQueued (faults : List ℕ) : Service :=
  @after replyJson Supervisor.standbyCfg "pass" (testOs faults) queueLogin

/-- The worker has taken the acquisition. -/
def acquired (faults : List ℕ) : Service :=
  (@step replyJson (loginQueued faults) (.work promptly)).1

/-- The worker is about to take the login. -/
def settled (faults : List ℕ) : Service :=
  Machine.final (@step replyJson) (acquired faults) settleLogin

theorem history_login (faults : List ℕ) :
    @history replyJson Supervisor.standbyCfg "pass" (testOs faults)
        (queueLogin ++ .work promptly :: (settleLogin ++ [.work promptly])) =
      @history replyJson Supervisor.standbyCfg "pass" (testOs faults) queueLogin ++
        Machine.stepAt (@step replyJson) (loginQueued faults) (.work promptly) ::
          (Machine.trace (@step replyJson) (acquired faults) settleLogin ++
            [Machine.stepAt (@step replyJson) (settled faults) (.work promptly)]) :=
  Machine.trace_cut _ _ _ _ _ _

theorem login_through_own_routes_campus :
    (∃ gateway ifindex w, (@step replyJson (settled []) (.work promptly)).1.worker = some w ∧
      (w.portalIp, gateway, ifindex) ∈ w.egress.added) ∧
    (@step replyJson (settled [1]) (.work promptly)).2.replies =
      [.portalFinished (.failed ("Wireless Egress acquisition failed: " ++
        "CreateIpForwardEntry2(10.0.3.2) failed: 5"))] := by
  constructor
  · have hcall : .login ⟨10, 1, 1, 5⟩ "http://10.0.3.2:801/eportal/portal/login" "" "pass"
        "172.16.254.2" ∈ (@step replyJson (settled []) (.work promptly)).2.calls := by
      decide +kernel
    have hsplit := (history_login []).trans (List.append_assoc _ (_ :: _) _).symm
    obtain ⟨-, -, wlan, gateway, w, -, -, -, -, -, hw, hledger⟩ :=
      (@login_through_own_routes replyJson _ _ _ _ _ _ _ hsplit).1 _ _ _ _ _ hcall
    exact ⟨gateway, wlan.ifindex, w, hw, (hledger _).mpr (by simp)⟩
  · have hfails : FailsAcquire (Machine.stepAt (@step replyJson) (loginQueued [1])
        (.work promptly)) "CreateIpForwardEntry2(10.0.3.2) failed: 5" :=
      ⟨_, _, _, rfl, rfl, rfl, rfl⟩
    have hsettle : ∀ q ∈ Machine.trace (@step replyJson) (acquired [1]) settleLogin,
        ¬ TakesLogin q := by
      rintro q hq ⟨s, srcIp, timeout, htaken, hmsg⟩
      rcases List.mem_pair.mp hq with rfl | rfl
      · simp [step] at htaken
      · obtain rfl := Option.some.inj htaken
        simp at hmsg
    have hlogin : TakesLogin (Machine.stepAt (@step replyJson) (settled [1])
        (.work promptly)) := ⟨_, _, _, rfl, rfl⟩
    exact ((@login_through_own_routes replyJson _ _ _ _ _ _ _ (history_login [1])).2 _ _ _ []
      promptly hfails rfl hsettle hlogin rfl).2

end Service

end GdutNet
