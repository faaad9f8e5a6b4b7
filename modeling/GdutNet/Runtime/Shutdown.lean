import GdutNet.Machine.Trace
import GdutNet.Runtime.Worker

/-!
# Blocking calls and the stop handshake

`wlan::associate` and `wlan::disassociate` run on the blocking pool, and a
blocking call cannot be taken back: `raced` stops waiting for it, no more.
`Tasks` is `WirelessWorker::run` cut at its awaits, together with the calls under
way. The shell, the token, the pool and the worker move in any order.
-/

namespace GdutNet

/-- A call on the blocking pool. -/
inductive Job where
  | associate (profile : String)
  | disassociate
deriving DecidableEq, Repr

/-- The loop breaks behind this message. -/
def LaneMsg.isLast : LaneMsg → Bool
  | .effect _ => false
  | .shutdown _ => true

/-- What the worker waits for. With `reports` the value is sent on as an event. -/
inductive Await where
  /-- nothing: it goes on with the message in hand, or takes the next -/
  | ready
  | job (serial : ℕ) (reports : Bool)
  /-- a timer, the portal or the probe: dropped together with its future -/
  | future (reports : Bool)
  | send
  | returned
deriving DecidableEq, Repr

structure Tasks where
  worker : WirelessWorker
  cancelled : Bool := false
  lane : List LaneMsg := []
  /-- what is left of the message in hand -/
  rest : List Effect := []
  /-- the message in hand is the shutdown: nothing is raced against the token -/
  shutting : Bool := false
  await : Await := .ready
  running : List (ℕ × Job) := []
  serial : ℕ := 0

namespace Tasks

inductive Act where
  | push (effect : Effect)
  /-- the shell sends what it kept of the reaction to `Stop` -/
  | stop (core : Supervisor) (now wall : ℕ)
  | cancel
  | tick
  | work
  | finish (job : ℕ × Job)
  /-- what the worker waits for is there -/
  | value
  /-- the token wins the `select!` -/
  | stopWins

structure Outcome where
  taken : Option LaneMsg := none
  started : Option (ℕ × Job) := none
  finished : Option (ℕ × Job) := none

def spawnBlocking (t : Tasks) (job : Job) (reports : Bool) : Tasks × Outcome :=
  ({ t with running := t.running ++ [(t.serial, job)], await := .job t.serial reports
            serial := t.serial + 1 },
    { started := some (t.serial, job) })

/-- `run_effect` up to its first await. -/
def begin (t : Tasks) (effect : Effect) (rest : List Effect) : Tasks × Outcome :=
  let failed := t.worker.egressError.isSome
  let t := { t with rest, worker := (t.worker.runEffect {} (!t.shutting) effect).1 }
  match effect with
  | .associate profile => t.spawnBlocking (.associate profile) true
  | .disassociate => t.spawnBlocking .disassociate false
  | .settle _ => ({ t with await := .future false }, {})
  | .portalAuth _ _ => ({ t with await := if failed then .send else .future true }, {})
  | .wlanProbe _ _ _ => ({ t with await := .future true }, {})
  | _ => (t, {})

def Job.ofCall : WorkerCall → Option Job
  | .associate profile => some (.associate profile)
  | .disassociate => some .disassociate
  | _ => none

/-- The blocking calls are the ones `runEffect` lists. -/
theorem begin_started (t : Tasks) (effect : Effect) (rest : List Effect) (a : LaneAnswer)
    (raceStop : Bool) :
    (t.begin effect rest).2.started.map Prod.snd =
      (t.worker.runEffect a raceStop effect).2.1.head?.bind Job.ofCall := by
  cases effect with
  | acquireWirelessEgress endpoint =>
      simp only [begin, WirelessWorker.runEffect]
      split <;> rfl
  | portalAuth srcIp timeout =>
      simp only [begin, WirelessWorker.runEffect]
      split <;> rfl
  | _ => rfl

def afterValue (reports : Bool) : Await := if reports then .send else .ready

section Steps

variable [SerdeJson]

def step (t : Tasks) (act : Act) : Tasks × Outcome :=
  match act with
  | .push effect => ({ t with lane := t.lane ++ [.effect effect] }, {})
  | .stop core now wall =>
      ({ t with lane := t.lane ++ Service.messages .stop (core.dispatch now wall .stop).2 }, {})
  | .cancel => ({ t with cancelled := true }, {})
  | .tick =>
      -- only while it waits for a message
      if t.await = .ready && t.rest.isEmpty && !t.shutting && t.worker.egress.hasPendingCleanup then
        ({ t with worker := t.worker.retryCleanup }, {})
      else (t, {})
  | .work =>
      if t.await ≠ .ready then (t, {})
      else
        match t.rest with
        | effect :: rest => t.begin effect rest
        | [] =>
            if t.shutting then ({ t with await := .returned }, {})
            else
              match t.lane with
              | [] => (t, {})
              | msg :: lane =>
                  ({ t with lane, rest := msg.effects, shutting := msg.isLast
                            worker := t.worker.retryCleanup },
                    { taken := some msg })
  | .finish job =>
      if job ∈ t.running then
        ({ t with running := t.running.erase job }, { finished := some job })
      else (t, {})
  | .value =>
      match t.await with
      | .job serial reports =>
          if t.running.all (·.1 ≠ serial) then ({ t with await := afterValue reports }, {})
          else (t, {})
      | .future reports => ({ t with await := afterValue reports }, {})
      | .send => ({ t with await := .ready }, {})
      | _ => (t, {})
  | .stopWins =>
      if !t.cancelled then (t, {})
      else
        match t.await with
        | .job _ _ | .future _ => if t.shutting then (t, {}) else ({ t with await := .ready }, {})
        -- `send` gives up in the shutdown as well
        | .send => ({ t with await := .ready }, {})
        | _ => (t, {})

abbrev Record : Type := Machine.Step Tasks Act Outcome

def history (w : WirelessWorker) (acts : List Act) : List Record :=
  Machine.trace step { worker := w } acts

def after (w : WirelessWorker) (acts : List Act) : Tasks :=
  Machine.final step { worker := w } acts

end Steps

/-- The worker stops waiting for an association that is under way. -/
def abandons (r : Record) : Bool :=
  match r.input, r.pre.await with
  | .stopWins, .job serial _ =>
      r.pre.cancelled && !r.pre.shutting &&
        r.pre.running.any (fun j => j.1 = serial && j.2 matches .associate _)
  | _, _ => false

/-! ## One step -/

/-- Everything one act can do. -/
inductive Went (t : Tasks) (act : Act) : Tasks × Outcome → Prop
  | idle : Went t act (t, {})
  | push {effect : Effect} : Went t act ({ t with lane := t.lane ++ [.effect effect] }, {})
  | stop {core : Supervisor} {wall : ℕ} :
      Went t act
        ({ t with lane := t.lane ++ Service.messages .stop (core.handleStop wall).2 }, {})
  | stopIgnored : Went t act ({ t with lane := t.lane ++ [.shutdown []] }, {})
  | token {cancelled : Bool} {worker : WirelessWorker} :
      Went t act ({ t with cancelled, worker }, {})
  | spawn {effect : Effect} {rest : List Effect} {worker : WirelessWorker} {job : Job}
      {reports : Bool} (hready : t.await = .ready) (hrest : t.rest = effect :: rest)
      (hjob : (effect = .disassociate ∧ job = .disassociate ∧ reports = false) ∨
        ∃ p, effect = .associate p ∧ job = .associate p ∧ reports = true) :
      Went t act
        ({ t with rest, worker, running := t.running ++ [(t.serial, job)]
                  await := .job t.serial reports, serial := t.serial + 1 },
          { started := some (t.serial, job) })
  | begin {effect : Effect} {rest : List Effect} {worker : WirelessWorker} {await : Await}
      (hready : t.await = .ready) (hrest : t.rest = effect :: rest)
      (hother : effect ≠ .disassociate) (hawait : await ≠ .returned ∧ ∀ n b, await ≠ .job n b) :
      Went t act ({ t with rest, worker, await }, {})
  | exit (hready : t.await = .ready) (hrest : t.rest = []) (hshut : t.shutting = true) :
      Went t act ({ t with await := .returned }, {})
  | take {msg : LaneMsg} {lane : List LaneMsg} {worker : WirelessWorker}
      (hready : t.await = .ready) (hrest : t.rest = []) (hshut : t.shutting = false)
      (hlane : t.lane = msg :: lane) :
      Went t act
        ({ t with lane, rest := msg.effects, shutting := msg.isLast, worker },
          { taken := some msg })
  | finish {job : ℕ × Job} (hmem : job ∈ t.running) :
      Went t act ({ t with running := t.running.erase job }, { finished := some job })
  | goesOn {await : Await}
      (hfrom : (∃ n b, t.await = .job n b ∧ (∀ j ∈ t.running, j.1 ≠ n)) ∨
        (∃ b, t.await = .future b) ∨ t.await = .send)
      (hawait : await = .ready ∨ await = .send) :
      Went t act ({ t with await }, {})
  | stopWins {n : ℕ} {b : Bool} (hact : act = .stopWins) (hcancelled : t.cancelled = true)
      (hshut : t.shutting = false) (hfrom : t.await = .job n b) :
      Went t act ({ t with await := .ready }, {})

theorem begin_went {t : Tasks} {act : Act} {effect : Effect} {rest : List Effect}
    (hready : t.await = .ready) (hrest : t.rest = effect :: rest) :
    t.Went act (t.begin effect rest) := by
  cases effect with
  | associate profile => exact .spawn hready hrest (.inr ⟨profile, rfl, rfl, rfl⟩)
  | disassociate => exact .spawn hready hrest (.inl ⟨rfl, rfl, rfl⟩)
  | settle wait => exact .begin hready hrest (by simp) (by simp)
  | portalAuth srcIp timeout =>
      refine .begin hready hrest (by simp) ?_
      cases t.worker.egressError.isSome <;> simp
  | wlanProbe srcIp gateway url => exact .begin hready hrest (by simp) (by simp)
  | _ =>
      have hawait : t.await ≠ .returned ∧ ∀ n b, t.await ≠ .job n b := by simp [hready]
      exact .begin hready hrest (by simp) hawait

section Runs

variable [SerdeJson]

theorem step_went (t : Tasks) (act : Act) : t.Went act (t.step act) := by
  cases act with
  | push effect => exact .push
  | stop core now wall =>
      rcases core.dispatch_cases now wall .stop with ⟨-, h⟩ | ⟨-, h, -⟩ | ⟨-, -, h⟩
      · unfold step
        dsimp only
        rw [h]
        exact .stopIgnored
      · cases h
      · unfold step
        dsimp only
        rw [h]
        exact .stop
  | cancel => exact .token
  | tick =>
      unfold step
      dsimp only
      split
      · exact .token
      · exact .idle
  | work =>
      unfold step
      dsimp only
      split
      · exact .idle
      rename_i hready
      rw [not_not] at hready
      split
      · rename_i effect rest hrest
        exact begin_went hready hrest
      · rename_i hrest
        split
        · rename_i hshut
          exact .exit hready hrest hshut
        · rename_i hshut
          split
          · exact .idle
          · rename_i msg lane hlane
            exact .take hready hrest (by simpa using hshut) hlane
  | finish job =>
      unfold step
      dsimp only
      split
      · rename_i hmem
        exact .finish hmem
      · exact .idle
  | value =>
      have hafter (reports : Bool) : afterValue reports = .ready ∨ afterValue reports = .send := by
        cases reports <;> simp [afterValue]
      unfold step
      dsimp only
      split
      · rename_i n b hawait
        split
        · rename_i hdone
          exact .goesOn (.inl ⟨n, b, hawait, by simpa using hdone⟩) (hafter b)
        · exact .idle
      · rename_i b hawait
        exact .goesOn (.inr (.inl ⟨b, hawait⟩)) (hafter b)
      · rename_i hawait
        exact .goesOn (.inr (.inr hawait)) (.inl rfl)
      · exact .idle
  | stopWins =>
      unfold step
      dsimp only
      split
      · exact .idle
      rename_i hcancelled
      split
      · rename_i n b hawait
        split
        · exact .idle
        · rename_i hshut
          exact .stopWins rfl (by simpa using hcancelled) (by simpa using hshut) hawait
      · rename_i b hawait
        split
        · exact .idle
        · exact .goesOn (.inr (.inl ⟨b, hawait⟩)) (.inl rfl)
      · rename_i hawait
        exact .goesOn (.inr (.inr hawait)) (.inl rfl)
      · exact .idle

end Runs

/-! ## Runs in which no association is abandoned -/

/-- An association under way is the one the worker waits for, and no shutdown
has begun. -/
structure Orderly (t : Tasks) : Prop where
  alone : ∀ n p, (n, .associate p) ∈ t.running → t.shutting = false ∧ ∃ b, t.await = .job n b
  lane : ∀ es, .shutdown es ∈ t.lane → ∀ p, .associate p ∉ es
  rest : t.shutting = true → ∀ p, .associate p ∉ t.rest

theorem handleStop_no_associate (core : Supervisor) (wall : ℕ) {es : List Effect}
    (h : .shutdown es ∈ Service.messages .stop (core.handleStop wall).2) (p : String) :
    .associate p ∉ es := by
  obtain rfl := LaneMsg.shutdown.inj (List.mem_singleton.mp h)
  unfold Supervisor.handleStop
  dsimp only
  split
  · simp
  · simp

theorem Orderly.none_running {t : Tasks} (h : t.Orderly) (hawait : ∀ n b, t.await ≠ .job n b)
    (n : ℕ) (p : String) : (n, .associate p) ∉ t.running := by
  intro hmem
  obtain ⟨-, b, hjob⟩ := h.alone n p hmem
  exact hawait n b hjob

section Orderly

variable [SerdeJson]

theorem Orderly.next {t : Tasks} (h : t.Orderly) {act : Act}
    (hkept : abandons (Machine.stepAt step t act) = false) : (t.step act).1.Orderly := by
  have hwent := t.step_went act
  generalize hpost : t.step act = x at hwent
  cases hwent with
  | idle => exact h
  | push =>
      refine ⟨h.alone, ?_, h.rest⟩
      intro es hes
      rcases List.mem_append.mp hes with hes | hes
      · exact h.lane es hes
      · simp at hes
  | stop =>
      refine ⟨h.alone, ?_, h.rest⟩
      intro es hes
      rcases List.mem_append.mp hes with hes | hes
      · exact h.lane es hes
      · exact handleStop_no_associate _ _ hes
  | stopIgnored =>
      refine ⟨h.alone, ?_, h.rest⟩
      intro es hes p
      rcases List.mem_append.mp hes with hes | hes
      · exact h.lane es hes p
      · obtain rfl := LaneMsg.shutdown.inj (List.mem_singleton.mp hes)
        simp
  | token => exact ⟨h.alone, h.lane, h.rest⟩
  | @spawn effect rest worker job reports hready hrest hjob =>
      have hrest' : t.shutting = true → ∀ p, .associate p ∉ rest := fun hshut p hmem =>
        h.rest hshut p (hrest ▸ List.mem_cons_of_mem _ hmem)
      refine ⟨?_, h.lane, hrest'⟩
      intro n p hmem
      rcases List.mem_append.mp hmem with hmem | hmem
      · exact absurd hmem (h.none_running (by simp [hready]) n p)
      · obtain ⟨rfl, rfl⟩ := Prod.mk.inj (List.mem_singleton.mp hmem)
        rcases hjob with ⟨-, hjob, -⟩ | ⟨p', rfl, -, -⟩
        · cases hjob
        · refine ⟨?_, reports, rfl⟩
          by_contra hshut
          rw [Bool.not_eq_false] at hshut
          exact h.rest hshut p' (hrest ▸ List.mem_cons_self)
  | @begin effect rest worker await hready hrest _ hawait =>
      refine ⟨?_, h.lane, fun hshut p hmem =>
        h.rest hshut p (hrest ▸ List.mem_cons_of_mem _ hmem)⟩
      intro n p hmem
      exact absurd hmem (h.none_running (by simp [hready]) n p)
  | exit hready hrest hshut =>
      refine ⟨?_, h.lane, h.rest⟩
      intro n p hmem
      exact absurd hmem (h.none_running (by simp [hready]) n p)
  | @take msg lane worker hready hrest hshut hlane =>
      refine ⟨?_, ?_, ?_⟩
      · intro n p hmem
        exact absurd hmem (h.none_running (by simp [hready]) n p)
      · intro es hes
        exact h.lane es (hlane ▸ List.mem_cons_of_mem _ hes)
      · intro hlast
        cases msg with
        | effect e => cases hlast
        | shutdown es => exact h.lane es (hlane ▸ List.mem_cons_self)
  | finish hmem =>
      refine ⟨?_, h.lane, h.rest⟩
      intro n p hrun
      exact h.alone n p (List.mem_of_mem_erase hrun)
  | goesOn hfrom hawait =>
      refine ⟨?_, h.lane, h.rest⟩
      intro n p hrun
      obtain ⟨-, b, hjob⟩ := h.alone n p hrun
      rcases hfrom with ⟨m, b', hm, hdone⟩ | ⟨b', hfuture⟩ | hsend
      · rw [hjob] at hm
        obtain ⟨rfl, -⟩ := Await.job.inj hm
        exact absurd rfl (hdone _ hrun)
      · simp [hjob] at hfuture
      · simp [hjob] at hsend
  | @stopWins n b hact hcancelled hshut hfrom =>
      refine ⟨?_, h.lane, h.rest⟩
      intro m p hrun
      obtain ⟨-, b', hjob⟩ := h.alone m p hrun
      rw [hfrom] at hjob
      obtain ⟨rfl, -⟩ := Await.job.inj hjob
      subst hact
      simp only [abandons, Machine.stepAt_input, Machine.stepAt_pre, hfrom, hcancelled, hshut,
        Bool.not_false, Bool.true_and, List.any_eq_false] at hkept
      exact (hkept _ hrun (by simp)).elim

/-- Once the shutdown is in hand, associations neither start nor end. -/
theorem Orderly.quiet {t : Tasks} (h : t.Orderly) (hshut : t.shutting = true) (act : Act) :
    (t.step act).1.shutting = true ∧ ∀ n p,
      (t.step act).2.started ≠ some (n, .associate p) ∧
      (t.step act).2.finished ≠ some (n, .associate p) := by
  have hwent := t.step_went act
  generalize t.step act = x at hwent
  cases hwent with
  | spawn hready hrest hjob =>
      refine ⟨hshut, fun n p => ⟨?_, by simp⟩⟩
      rintro ⟨⟩
      rcases hjob with ⟨-, hjob, -⟩ | ⟨p', rfl, -, -⟩
      · cases hjob
      · exact h.rest hshut p' (hrest ▸ List.mem_cons_self)
  | finish hmem =>
      refine ⟨hshut, fun n p => ⟨by simp, ?_⟩⟩
      rintro ⟨⟩
      have := (h.alone n p hmem).1
      simp [hshut] at this
  | take _ _ hshut' => simp [hshut] at hshut'
  | _ => exact ⟨hshut, by simp⟩

theorem Orderly.quiet_run {t : Tasks} (h : t.Orderly) (hshut : t.shutting = true)
    (acts : List Act) (hkept : ∀ r ∈ Machine.trace step t acts, abandons r = false) :
    ∀ r ∈ Machine.trace step t acts, ∀ n p, r.out.started ≠ some (n, .associate p) ∧
      r.out.finished ≠ some (n, .associate p) := by
  induction acts generalizing t with
  | nil => simp
  | cons act acts ih =>
      rw [Machine.trace_cons, List.forall_mem_cons] at hkept
      rw [Machine.trace_cons, List.forall_mem_cons]
      obtain ⟨hshut', hquiet⟩ := h.quiet hshut act
      exact ⟨hquiet, ih (h.next hkept.1) hshut' hkept.2⟩

end Orderly

/-! ## The shutdown is carried out -/

/-- The call that leaves the WLAN comes back. -/
def Leaves (r : Record) : Prop :=
  r.pre.shutting = true ∧ ∃ n, r.pre.await = .job n false ∧ r.out.finished = some (n, .disassociate)

def Took (es : List Effect) (past : List Record) : Prop :=
  ∃ r ∈ past, r.out.taken = some (.shutdown es)

/-- A disassociation in the shutdown is ahead, under way or done. -/
def Pending (past : List Record) (t : Tasks) : Prop :=
  .disassociate ∈ t.rest ∨
    (∃ n, t.await = .job n false ∧ (n, .disassociate) ∈ t.running) ∨ ∃ r ∈ past, Leaves r

structure Ending (past : List Record) (t : Tasks) : Prop where
  took : ∀ es, Took es past → t.shutting = true ∧ (.disassociate ∈ es → Pending past t)
  done : t.await = .returned → t.rest = []

theorem Pending.snoc {past : List Record} {t t' : Tasks} (r : Record) (h : Pending past t)
    (hrest : .disassociate ∈ t.rest → .disassociate ∈ t'.rest ∨
      ∃ n, t'.await = .job n false ∧ (n, .disassociate) ∈ t'.running)
    (hjob : ∀ n, t.await = .job n false → (n, .disassociate) ∈ t.running →
      (t'.await = .job n false ∧ (n, .disassociate) ∈ t'.running) ∨ Leaves r) :
    Pending (past ++ [r]) t' := by
  rcases h with h | ⟨n, hawait, hmem⟩ | ⟨q, hq, hleaves⟩
  · rcases hrest h with h | h
    · exact .inl h
    · exact .inr (.inl h)
  · rcases hjob n hawait hmem with h | h
    · exact .inr (.inl ⟨n, h⟩)
    · exact .inr (.inr ⟨r, by simp, h⟩)
  · exact .inr (.inr ⟨q, List.mem_append_left _ hq, hleaves⟩)

theorem Took.of_snoc {es : List Effect} {past : List Record} {r : Record}
    (h : Took es (past ++ [r])) (hnone : r.out.taken = none) : Took es past := by
  obtain ⟨q, hq, htaken⟩ := h
  rcases List.mem_append.mp hq with hq | hq
  · exact ⟨q, hq, htaken⟩
  · rw [List.mem_singleton.mp hq, hnone] at htaken
    cases htaken

section Ending

variable [SerdeJson]

theorem Ending.next {past : List Record} {t : Tasks} (h : Ending past t) (act : Act) :
    Ending (past ++ [Machine.stepAt step t act]) (t.step act).1 := by
  have hwent := t.step_went act
  generalize hr : Machine.stepAt step t act = r
  have hpre : r.pre = t := by rw [← hr, Machine.stepAt_pre]
  have hout : r.out = (t.step act).2 := by rw [← hr, Machine.stepAt_out]
  generalize t.step act = x at hwent hout
  -- a step that takes no message, from what becomes of a pending disassociation
  have hkeep (hnone : x.2.taken = none) (hshut : t.shutting = true → x.1.shutting = true)
      (hdone : x.1.await = .returned → x.1.rest = [])
      (hpending : t.shutting = true → Pending past t → Pending (past ++ [r]) x.1) :
      Ending (past ++ [r]) x.1 := by
    refine ⟨fun es hes => ?_, hdone⟩
    obtain ⟨ht, hdis⟩ := h.took es (hes.of_snoc (hout ▸ hnone))
    exact ⟨hshut ht, fun hmem => hpending ht (hdis hmem)⟩
  cases hwent with
  | spawn hready hrest hjob =>
      refine hkeep rfl id (by simp) fun _ hp => hp.snoc r ?_ (by simp [hready])
      intro hmem
      rw [hrest] at hmem
      rcases List.mem_cons.mp hmem with rfl | hmem
      · rcases hjob with ⟨-, rfl, rfl⟩ | ⟨p, hp, -⟩
        · exact .inr ⟨_, rfl, by simp⟩
        · cases hp
      · exact .inl hmem
  | begin hready hrest hother hawait =>
      refine hkeep rfl id (fun hret => absurd hret hawait.1) fun _ hp =>
        hp.snoc r ?_ (by simp [hready])
      intro hmem
      rw [hrest] at hmem
      rcases List.mem_cons.mp hmem with heq | hmem
      · exact absurd heq.symm hother
      · exact .inl hmem
  | exit hready hrest hshut =>
      exact hkeep rfl id (fun _ => hrest) fun _ hp =>
        hp.snoc r (by simp [hrest]) (by simp [hready])
  | @take msg lane worker hready hrest hshut hlane =>
      refine ⟨?_, by simp [hready]⟩
      rintro es ⟨q, hq, htaken⟩
      rcases List.mem_append.mp hq with hq | hq
      · have := (h.took es ⟨q, hq, htaken⟩).1
        simp [hshut] at this
      · rw [List.mem_singleton.mp hq, hout] at htaken
        obtain rfl := Option.some.inj htaken
        exact ⟨rfl, fun hmem => .inl hmem⟩
  | @finish job hmem =>
      refine hkeep rfl id h.done fun hshut hp => hp.snoc r .inl ?_
      intro n hawait hrun
      by_cases hsame : job = (n, .disassociate)
      · exact .inr ⟨hpre.symm ▸ hshut, n, hpre.symm ▸ hawait, by rw [hout, hsame]⟩
      · exact .inl ⟨hawait, (List.mem_erase_of_ne (Ne.symm hsame)).mpr hrun⟩
  | goesOn hfrom hawait =>
      refine hkeep rfl id (by rcases hawait with rfl | rfl <;> simp) fun _ hp => hp.snoc r .inl ?_
      intro n hjob hrun
      rcases hfrom with ⟨m, b, hm, hdone⟩ | ⟨b, hfuture⟩ | hsend
      · rw [hjob] at hm
        obtain ⟨rfl, -⟩ := Await.job.inj hm
        exact absurd rfl (hdone _ hrun)
      · simp [hjob] at hfuture
      · simp [hjob] at hsend
  | stopWins _ _ hshut _ =>
      refine hkeep rfl id (by simp) fun hshut' _ => ?_
      simp [hshut] at hshut'
  | _ => exact hkeep rfl id h.done fun _ hp => hp.snoc r .inl (fun _ ha hm => .inl ⟨ha, hm⟩)

theorem orderly_after (w : WirelessWorker) (acts : List Act)
    (hkept : ∀ r ∈ history w acts, abandons r = false) : (after w acts).Orderly :=
  Machine.history_induction (I := fun _ t => t.Orderly)
    ⟨by simp, by simp, by simp⟩ (fun _ _ _ h hok => h.next hok) acts hkept

theorem ending_after (w : WirelessWorker) (acts : List Act) :
    Ending (history w acts) (after w acts) :=
  Machine.history_induction (A := fun _ => True) (I := Ending)
    ⟨by simp [Took], by simp⟩ (fun _ _ act h _ => h.next act) acts (by simp)

/-- **A stopped worker leaves the WLAN**, in a run in which it abandons no
association: the shutdown has disassociated, and from then on no association
starts, ends or is under way. -/
theorem nothing_rejoins_after_shutdown (w : WirelessWorker) (acts : List Act)
    (hkept : ∀ r ∈ history w acts, abandons r = false) (es : List Effect)
    (htaken : ∃ r ∈ history w acts, r.out.taken = some (.shutdown es))
    (hes : .disassociate ∈ es) (hret : (after w acts).await = .returned) :
    (∃ past r rest, history w acts = past ++ r :: rest ∧ Leaves r ∧
      ∀ q ∈ rest, ∀ n p, q.out.started ≠ some (n, .associate p) ∧
        q.out.finished ≠ some (n, .associate p)) ∧
    ∀ n p, (n, .associate p) ∉ (after w acts).running := by
  refine ⟨?_, (orderly_after w acts hkept).none_running (by simp [hret])⟩
  have hending := ending_after w acts
  obtain ⟨r, hr, hleaves⟩ : ∃ r ∈ history w acts, Leaves r := by
    rcases (hending.took es htaken).2 hes with hmem | ⟨n, hawait, -⟩ | hdone
    · simp [hending.done hret] at hmem
    · simp [hret] at hawait
    · exact hdone
  obtain ⟨past, rest, hsplit⟩ := List.append_of_mem hr
  refine ⟨past, r, rest, hsplit, hleaves, ?_⟩
  rw [hsplit, List.forall_mem_append, List.forall_mem_cons] at hkept
  obtain ⟨xs, act, ys, -, rfl, rfl, rfl⟩ := Machine.trace_split hsplit
  have hpre := orderly_after w xs hkept.1
  obtain ⟨hshut, -⟩ := hpre.quiet hleaves.1 act
  exact (hpre.next hkept.2.1).quiet_run hshut ys hkept.2.2

end Ending

/-! ### Runs of a worker -/

/-- A worker on a machine without interfaces. -/
def testWorker : WirelessWorker where
  portalUrl := "http://10.0.3.2:801/eportal/portal/login"
  wlanAcIp := ""
  user := "3122000000"
  pass := "secret"
  portalIp := ⟨10, 0, 3, 2⟩
  probeIp := ⟨119, 29, 29, 29⟩
  egress := .new (.new { ifaces := fun _ => none, fault := fun _ => none })

/-- The supervisor of a service that takes over when the cable fails. -/
def standbyCore : Supervisor :=
  { Supervisor.new Supervisor.standbyCfg with started := true }

/-- The shutdown, from its message to the end of the loop. -/
def shutdownActs : List Act :=
  [.stop standbyCore 0 0, .work, .work, .work, .finish (1, .disassociate), .value, .work]

/-- The association ends before the stop; the wait behind it is abandoned. -/
def joinedActs : List Act :=
  [.push (.associate "gdut"), .work, .work, .finish (0, .associate "gdut"), .value, .value,
    .push (.settle routeSettle), .work, .work, .cancel, .stopWins] ++ shutdownActs

theorem nothing_rejoins_after_shutdown_joined :
    (@after replyJson testWorker joinedActs).await = .returned ∧
    (∃ past r rest, @history replyJson testWorker joinedActs = past ++ r :: rest ∧
      Leaves r ∧ ∀ q ∈ rest, ∀ n p, q.out.started ≠ some (n, .associate p) ∧
        q.out.finished ≠ some (n, .associate p)) ∧
    ∀ n p, (n, .associate p) ∉ (@after replyJson testWorker joinedActs).running := by
  refine ⟨by decide, @nothing_rejoins_after_shutdown replyJson testWorker joinedActs
    (by decide) [.teardownRoutes, .disassociate] ?_ (by simp) (by decide)⟩
  refine ⟨_, List.getElem_mem (n := 12) (by decide), rfl⟩

/-- The stop comes while `wlan::associate` is under way; it returns last. -/
def rejoinedActs : List Act :=
  [.push (.associate "gdut"), .work, .work, .cancel, .stopWins] ++ shutdownActs

theorem association_outlives_shutdown :
    (∃ r ∈ @history replyJson testWorker rejoinedActs,
      r.out.taken = some (.shutdown [.teardownRoutes, .disassociate])) ∧
    (@after replyJson testWorker rejoinedActs).await = .returned ∧
    (0, .associate "gdut") ∈ (@after replyJson testWorker rejoinedActs).running ∧
    (@history replyJson testWorker
        (rejoinedActs ++ [.finish (0, .associate "gdut")])).filterMap (·.out.finished) =
      [(1, .disassociate), (0, .associate "gdut")] := by
  refine ⟨⟨_, List.getElem_mem (n := 6) (by decide), rfl⟩, by decide, by decide, by decide⟩

end Tasks

end GdutNet
