import GdutNet.Runtime.Shell

/-!
# The drained shell

`Shell::drain` feeds the result of every sample and every watchdog step back
into its own queue. So whatever the supervisor waits for is in the queue, and
when the queue is empty the supervisor waits for nothing but its timers.
-/

namespace GdutNet

/-- The result event that an effect of the main lane is answered with. -/
def Event.answers : Event → Effect → Bool
  | .linkSampled _ _, .sampleLink => true
  | .wirelessSampled _, .sampleWireless => true
  | .watchdogStepped _, .stepWatchdog => true
  | _, _ => false

/-- A measure of the work an event can cause: more than that of all answers to
the effects of its reaction. -/
def Event.weight : Event → ℕ
  | .wake => 5
  | .linkSampled _ _ | .command _ => 3
  | .started | .watchdogStepped _ | .heartbeat _ => 2
  | _ => 1

/-- The weight of the effect's answer. -/
def Effect.weight : Effect → ℕ
  | .sampleLink => 3
  | .stepWatchdog => 2
  | .sampleWireless | .notify _ _ _ => 1
  | _ => 0

def Effect.load (effects : List Effect) : ℕ := (effects.map Effect.weight).sum

theorem Effect.load_append (xs ys : List Effect) :
    Effect.load (xs ++ ys) = Effect.load xs + Effect.load ys := by
  simp [Effect.load]

namespace Supervisor

/-- The supervisor cannot go on before `effect` is answered. -/
def WaitsFor (s : Supervisor) : Effect → Prop
  | .sampleLink => s.sampleInFlight = true
  | .sampleWireless => s.wirelessSampleInFlight = true
  | .stepWatchdog => s.started = true ∧ ¬ s.wired.Ahead
  | _ => False

theorem new_waitsFor (cfg : Config) (effect : Effect) : ¬ (new cfg).WaitsFor effect := by
  have hstarted : (new cfg).wired.started = false := by rw [new_wired]
  have hlink : (new cfg).wired.sampleInFlight = false := by rw [new_wired]
  have hwlan : (new cfg).takeover.wirelessSampleInFlight = false := by
    rcases new_takeover cfg with ⟨r, h⟩ | h <;> rw [h]
  intro h
  cases effect with
  | sampleLink => exact Bool.false_ne_true (hlink.symm.trans h)
  | sampleWireless => exact Bool.false_ne_true (hwlan.symm.trans h)
  | stepWatchdog => exact Bool.false_ne_true (hstarted.symm.trans h.1)
  | _ => exact h

/-- What is waited for was just asked for, or was waited for before and is not
answered by this event. -/
theorem waitsFor_step [SerdeJson] {s : Supervisor} {i : Input} {effect : Effect}
    (h : (s.step i).1.WaitsFor effect) :
    effect ∈ (s.step i).2.effects ∨
      (s.WaitsFor effect ∧ (s.handled i.event = true → i.event.answers effect = false)) := by
  obtain ⟨hw, hfx⟩ := s.step_wired i
  have hwired : effect ∈ (s.wired.step i).2 → effect ∈ (s.step i).2.effects := by
    rw [← hfx]
    exact fun hmem => (List.mem_filter.mp hmem).1
  cases effect with
  | sampleLink =>
      replace h : (s.step i).1.wired.sampleInFlight = true := h
      rw [hw] at h
      refine (Wired.sampleInFlight_step h).imp hwired (fun ⟨hf, hno⟩ => ⟨hf, fun hh => ?_⟩)
      cases he : i.event with
      | linkSampled up pppIp => exact absurd ⟨he, he ▸ hh⟩ (hno up pppIp)
      | _ => rfl
  | sampleWireless =>
      refine (wirelessSampleInFlight_step h).imp id (fun ⟨hf, hno⟩ => ⟨hf, fun hh => ?_⟩)
      cases he : i.event with
      | wirelessSampled sample => exact absurd ⟨he, he ▸ hh⟩ (hno sample)
      | _ => rfl
  | stepWatchdog =>
      obtain ⟨hs, hnot⟩ := h
      replace hs : (s.step i).1.wired.started = true := hs
      rw [hw] at hs hnot
      rcases Wired.ahead_step hs with ha | hsent | ⟨hst, hidle, hno⟩
      · exact absurd ha hnot
      · exact .inl (hwired hsent)
      · refine .inr ⟨⟨hst, hidle⟩, fun hh => ?_⟩
        cases he : i.event with
        | watchdogStepped st => exact absurd ⟨he, he ▸ hh⟩ (hno st)
        | _ => rfl
  | _ => exact h.elim

/-! ## What one event can cause -/

theorem Carried.load {effects : List Effect} (h : Carried effects) : Effect.load effects = 0 := by
  cases h <;> rfl

theorem Pressed.load {effects : List Effect} (h : Pressed effects) : Effect.load effects = 0 := by
  cases h <;> rfl

theorem Emits.load_lt {s : Supervisor} {event : Event} {effects : List Effect}
    (h : s.Emits event effects) : Effect.load effects < event.weight := by
  cases h with
  | nothing => cases event <;> exact Nat.zero_lt_succ _
  | wake hlink hwlan =>
      rcases hlink with rfl | rfl <;> rcases hwlan with rfl | rfl <;> decide
  | link hsteps =>
      rcases hsteps with rfl | rfl <;> simp [Effect.load, Effect.weight, Event.weight]
  | sample hflight hlive hcarried hpressed =>
      rw [Effect.load_append, hcarried.load, hpressed.load]
      exact Nat.zero_lt_one
  | _ => simp [Effect.load, Effect.weight, Event.weight]

theorem step_load [SerdeJson] (s : Supervisor) (i : Input) :
    Effect.load (s.step i).2.effects < i.event.weight := by
  rw [step_effects]
  rcases s.dispatch_cases i.now i.wall i.event with ⟨-, h⟩ | ⟨-, he, h⟩ | ⟨-, -, h⟩
  · rw [h]
    cases i.event <;> exact Nat.zero_lt_succ _
  · rw [h, he]
    rcases s.handleStarted_effects i.now i.wall with hsent | hsent
    · rw [hsent]
      exact Nat.lt_succ_self 1
    · rw [hsent]
      exact Nat.zero_lt_succ _
  · rw [h]
    exact (s.handle_emits i.now i.wall i.event).load_lt

end Supervisor

namespace Shell

/-- An answer to `effect` is on its way. -/
def Owed (queue : List Event) (effect : Effect) : Prop :=
  ∃ event ∈ queue, event.answers effect = true

theorem Owed.mono {q q' : List Event} {effect : Effect} (h : Owed q effect)
    (hsub : ∀ e ∈ q, e ∈ q') : Owed q' effect := by
  obtain ⟨e, he, ha⟩ := h
  exact ⟨e, hsub e he, ha⟩

/-! ## Effects feed the queue -/

theorem perform_queue (sh : Shell) (o : Outside) (effect : Effect) :
    ∃ more, (sh.perform o effect).1.queue = sh.queue ++ more := by
  unfold perform
  split
  · exact ⟨_, rfl⟩
  · refine ⟨[], ?_⟩
    dsimp only
    split <;> simp

theorem performAll_queue (outside : ℕ → Outside) (effects : List Effect) (sh : Shell)
    (k : ℕ) : ∃ more, (sh.performAll outside k effects).1.queue = sh.queue ++ more := by
  induction effects generalizing sh k with
  | nil => exact ⟨[], by simp [performAll]⟩
  | cons effect effects ih =>
      obtain ⟨more, hmore⟩ := sh.perform_queue (outside k) effect
      obtain ⟨more', hmore'⟩ := ih (sh.perform (outside k) effect).1 (k + 1)
      refine ⟨more ++ more', ?_⟩
      rw [← List.append_assoc, ← hmore]
      exact hmore'

/-- The samples and the watchdog step are answered on the spot. -/
theorem perform_owed {s : Supervisor} {effect : Effect} (h : s.WaitsFor effect) (sh : Shell)
    (o : Outside) : Owed (sh.perform o effect).1.queue effect := by
  cases effect with
  | sampleLink | sampleWireless | stepWatchdog =>
      exact ⟨_, List.mem_append_right _ (List.mem_singleton_self _), rfl⟩
  | _ => exact h.elim

theorem performAll_owed {s : Supervisor} {effect : Effect} (h : s.WaitsFor effect)
    (outside : ℕ → Outside) (effects : List Effect) (hmem : effect ∈ effects) (sh : Shell)
    (k : ℕ) : Owed (sh.performAll outside k effects).1.queue effect := by
  induction effects generalizing sh k with
  | nil => simp at hmem
  | cons first effects ih =>
      rcases List.mem_cons.mp hmem with rfl | hmem
      · obtain ⟨more, hmore⟩ := performAll_queue outside effects
          (sh.perform (outside k) effect).1 (k + 1)
        refine (perform_owed h sh (outside k)).mono (fun e he => ?_)
        rw [performAll, hmore]
        exact List.mem_append_left _ he
      · exact ih hmem _ _

/-! ## The queue holds what the supervisor waits for -/

/-- The supervisor is fed: until it is stopped, every answer it waits for is in
the queue. -/
structure Fed (t : ℕ) (sh : Shell) : Prop where
  inv : sh.core.wired.Inv
  soon : sh.core.wired.PollSoon t
  begun : sh.core.stopped = false → sh.core.started = true ∨ sh.queue = [.started]
  owed : sh.core.stopped = false → ∀ effect, sh.core.WaitsFor effect → Owed sh.queue effect

theorem Fed.mono {t t' : ℕ} {sh : Shell} (ht : t ≤ t') (h : Fed t sh) : Fed t' sh :=
  ⟨h.inv, h.soon.mono ht, h.begun, h.owed⟩

/-- Nothing in the queue of a running shell is ignored. -/
theorem Fed.handled {t : ℕ} {sh : Shell} {event : Event} {rest : List Event} (h : Fed t sh)
    (hrun : sh.core.stopped = false) (hqueue : sh.queue = event :: rest) :
    sh.core.handled event = true := by
  unfold Supervisor.handled
  rcases h.begun hrun with hs | hq
  · simp [hs, hrun]
  · rw [hqueue] at hq
    obtain ⟨rfl, -⟩ := List.cons.inj hq
    simp [hrun]

/-- With an empty queue the supervisor is past `Started`. -/
theorem Fed.started {t : ℕ} {sh : Shell} (h : Fed t sh) (hrun : sh.core.stopped = false)
    (hqueue : sh.queue = []) : sh.core.started = true :=
  (h.begun hrun).resolve_right (by simp [hqueue])

/-- A new event for the empty queue. -/
theorem Fed.push {t : ℕ} {sh sh' : Shell} (h : Fed t sh) (hqueue : sh.queue = [])
    (hcore : sh'.core = sh.core) : Fed t sh' := by
  refine ⟨hcore ▸ h.inv, hcore ▸ h.soon, ?_, ?_⟩
  · rw [hcore]
    exact fun hrun => .inl (h.started hrun hqueue)
  · rw [hcore]
    intro hrun effect hwait
    obtain ⟨e, he, -⟩ := hqueue ▸ h.owed hrun effect hwait
    simp at he

theorem new_fed (cfg : Config) : Fed 0 (new cfg) := by
  refine ⟨Supervisor.new_inv cfg, ?_, fun _ => .inr rfl,
    fun _ effect hwait => absurd hwait (Supervisor.new_waitsFor cfg effect)⟩
  change Wired.PollSoon 0 (Supervisor.new cfg).wired
  rw [Supervisor.new_wired]
  exact fun hs => absurd hs (by simp)

/-- A running shell with an empty queue waits for its timers only. -/
theorem Fed.idle {t : ℕ} {sh : Shell} (h : Fed t sh) (hrun : sh.core.stopped = false)
    (hqueue : sh.queue = []) :
    sh.core.sampleInFlight = false ∧ sh.core.wirelessSampleInFlight = false ∧
      sh.core.stepPending = false ∧ sh.core.watchdogDeadline.isSome = true := by
  have hidle : ∀ effect, ¬ sh.core.WaitsFor effect := by
    intro effect hwait
    obtain ⟨e, he, -⟩ := hqueue ▸ h.owed hrun effect hwait
    simp at he
  have hlink : sh.core.sampleInFlight = false := Bool.eq_false_iff.mpr (hidle .sampleLink)
  have hpend : sh.core.stepPending = false := by
    rw [Bool.eq_false_iff]
    exact fun hp => hidle .sampleLink (h.inv.pending hp)
  refine ⟨hlink, Bool.eq_false_iff.mpr (hidle .sampleWireless), hpend, ?_⟩
  by_contra hline
  -- without a deadline a watchdog step would be under way, and its result queued
  refine hidle .stepWatchdog ⟨h.started hrun hqueue, fun ha => ?_⟩
  exact ha.elim hline (fun hp => Bool.false_ne_true (hpend.symm.trans hp))

section Awake

variable [SerdeJson]

theorem handle_queue (sh : Shell) (m : Move) (event : Event) (rest : List Event) :
    ∃ more, (sh.handle m event rest).1.queue = rest ++ more :=
  performAll_queue _ _ _ _

theorem Fed.pop {t : ℕ} {sh : Shell} {m : Move} {event : Event} {rest : List Event}
    (h : Fed t sh) (ht : t ≤ m.now) (hqueue : sh.queue = event :: rest) :
    Fed m.now (sh.handle m event rest).1 := by
  let i : Input := ⟨m.now, m.wall, event⟩
  obtain ⟨hw, -⟩ := sh.core.step_wired i
  have hcore : (sh.handle m event rest).1.core = (sh.core.step i).1 :=
    (sh.handle_core m event rest).1
  have hbefore : (sh.core.step i).1.stopped = false → sh.core.stopped = false := by
    intro hrun
    replace hrun : (sh.core.step i).1.wired.stopped = false := hrun
    rw [hw] at hrun
    exact Wired.stopped_of_step hrun
  refine ⟨?_, ?_, ?_, ?_⟩
  · rw [hcore]
    exact Supervisor.step_inv h.inv i
  · rw [hcore, hw]
    exact h.soon.step ht
  · rw [hcore]
    intro hrun
    refine .inl ?_
    change (sh.core.step i).1.wired.started = true
    rw [hw]
    rcases h.begun (hbefore hrun) with hs | hq
    · exact Wired.started_step hs i
    · rw [hqueue] at hq
      exact Wired.step_started (List.cons.inj hq).1
  · rw [hcore]
    intro hrun effect hwait
    rcases Supervisor.waitsFor_step hwait with hsent | ⟨hbusy, hother⟩
    · exact performAll_owed hwait m.outside _ hsent _ 0
    · obtain ⟨e, he, ha⟩ := h.owed (hbefore hrun) effect hbusy
      rw [hqueue] at he
      -- the answer is not the event just taken, so it is still queued
      rcases List.mem_cons.mp he with rfl | he
      · simp [i, hother (h.handled (hbefore hrun) hqueue)] at ha
      · obtain ⟨more, hmore⟩ := sh.handle_queue m event rest
        exact ⟨e, hmore ▸ List.mem_append_left _ he, ha⟩

theorem Fed.step {t : ℕ} {sh : Shell} {m : Move} (h : Fed t sh) (ht : t ≤ m.now) :
    Fed m.now (sh.step m).1 := by
  have hmoved := sh.step_moved m
  generalize sh.step m = p at hmoved
  cases hmoved with
  | idle _ => exact h.mono ht
  | pop _ hqueue => exact h.pop ht hqueue
  | select _ hqueue => exact (h.mono ht).push hqueue rfl
  | stop _ hqueue => exact (h.mono ht).push hqueue rfl

theorem fed_after (cfg : Config) {ms : List Move} {t : ℕ}
    (hclock : Machine.NonDecreasing Move.now ms) (hto : ∀ m ∈ ms, m.now ≤ t) :
    Fed t (after cfg ms) :=
  Machine.timed_induction Move.now (A := fun _ => True) (I := Fed) Fed.mono
    (fun ht h _ => h.step ht) (new_fed cfg) hclock (fun _ _ => trivial)
    (fun _ _ => Nat.zero_le _) hto (Nat.zero_le _)

/-- The timer that the shell goes to sleep on. -/
theorem handle_wakeAt {sh : Shell} {m : Move} {event : Event} {rest : List Event}
    (hs : (sh.handle m event rest).1.core.started = true)
    (hrun : (sh.handle m event rest).1.core.stopped = false) :
    (sh.handle m event rest).1.wakeAt =
      some ((sh.handle m event rest).1.core.nextWake m.now) := by
  obtain ⟨hcore, hwake⟩ := sh.handle_core m event rest
  rw [hcore] at hs hrun ⊢
  rw [hwake, Supervisor.step_wakeAt, hs, hrun]
  rfl

/-- When a running shell has taken the last event from its queue, it waits for
its timers only, and the next one is at most a poll away. -/
theorem Fed.drained {sh : Shell} {m : Move} {event : Event} (h : Fed m.now sh)
    (hpop : popped (Machine.stepAt Shell.step sh m) = some event)
    (hempty : (sh.step m).1.queue = []) (hrun : (sh.step m).1.core.stopped = false) :
    (sh.step m).1.core.sampleInFlight = false ∧
      (sh.step m).1.core.wirelessSampleInFlight = false ∧
      (sh.step m).1.core.stepPending = false ∧
      (sh.step m).1.core.watchdogDeadline.isSome = true ∧
      ∃ w, (sh.step m).1.wakeAt = some w ∧ m.now ≤ w ∧ w ≤ m.now + 2000 := by
  have hfed := h.step (Nat.le_refl m.now)
  obtain ⟨hlink, hwlan, hpend, hline⟩ := hfed.idle hrun hempty
  have hs := hfed.started hrun hempty
  have hsoon := hfed.soon hs
  obtain ⟨rest, -, hstep⟩ := step_of_popped hpop
  refine ⟨hlink, hwlan, hpend, hline, _, ?_, Nat.le_max_right _ _,
    Supervisor.nextWake_le hsoon⟩
  rw [hstep] at hs hrun ⊢
  exact handle_wakeAt hs hrun

/-- **The guard neither falls asleep for good nor spins.** A running supervisor
always has its next watchdog step timed, pending or under way, a wake is never
answered with a wake at the same instant, and a drained shell sleeps on a timer
at most one link poll away. -/
theorem guard_stays_awake (cfg : Config) :
    (∀ is : List Input, (Supervisor.after cfg is).started = true →
      (Supervisor.after cfg is).stopped = false →
        ((Supervisor.after cfg is).stepPending = true →
          (Supervisor.after cfg is).sampleInFlight = true) ∧
        ((Supervisor.after cfg is).watchdogDeadline.isSome = true ∨
          (Supervisor.after cfg is).stepPending = true ∨
          Machine.Since Supervisor.EmitsStep (fun r => ¬ Supervisor.SuppliesDelay r)
            (Supervisor.history cfg is)) ∧
        ∀ now wall, ∃ w,
          ((Supervisor.after cfg is).step ⟨now, wall, .wake⟩).2.wakeAt = some w ∧ now < w) ∧
    (∀ ms : List Move, Machine.NonDecreasing Move.now ms →
      ∀ (past : List Record) (r : Record) (rest : List Record) (event : Event),
        history cfg ms = past ++ r :: rest → popped r = some event → r.post.queue = [] →
        r.post.core.stopped = false →
          r.post.core.sampleInFlight = false ∧ r.post.core.wirelessSampleInFlight = false ∧
          r.post.core.stepPending = false ∧ r.post.core.watchdogDeadline.isSome = true ∧
          ∃ w, r.post.wakeAt = some w ∧ r.input.now ≤ w ∧ w ≤ r.input.now + 2000) := by
  constructor
  · intro is hs hr
    exact ⟨(Supervisor.after_inv cfg is).pending, Supervisor.stepAhead_history cfg is hs,
      Supervisor.wake_later hs hr⟩
  · intro ms hclock past r rest event hsplit hpop hempty hrun
    obtain ⟨xs, m, ys, rfl, rfl, rfl, -⟩ := Machine.trace_split hsplit
    obtain ⟨hxs, -, hle⟩ := List.pairwise_append.mp hclock
    exact (fed_after cfg hxs (fun k hk => hle k hk m (by simp))).drained hpop hempty hrun

end Awake

/-- The dial is under way: no deadline, no pending step. The first drained queue
sleeps on the first wake. -/
theorem guard_stays_awake_first_dial :
    (Machine.Since Supervisor.EmitsStep (fun r => ¬ Supervisor.SuppliesDelay r)
      (@Supervisor.history replyJson {} Supervisor.dialRun)) ∧
    ∃ w, (@after replyJson {} [turn, turn]).wakeAt = some w ∧ 0 ≤ w ∧ w ≤ 0 + 2000 := by
  obtain ⟨hcore, hshell⟩ := @guard_stays_awake replyJson {}
  constructor
  · obtain ⟨-, hahead, -⟩ := hcore Supervisor.dialRun (by decide) (by decide)
    exact (hahead.resolve_left (by decide)).resolve_left (by decide)
  · obtain ⟨-, -, -, -, hwake⟩ := hshell [turn, turn] (by simp [Machine.NonDecreasing, turn])
      (@history replyJson {} [turn])
      (Machine.stepAt (@step replyJson) (@after replyJson {} [turn]) turn) []
      (.wirelessSampled {}) rfl rfl (by decide) (by decide)
    exact hwake

/-! ## Every drain ends -/

/-- The work that is left in a queue. -/
def backlog (queue : List Event) : ℕ := (queue.map Event.weight).sum

theorem backlog_eq_zero {queue : List Event} (h : backlog queue = 0) : queue = [] := by
  cases queue with
  | nil => rfl
  | cons event rest =>
      have hpos : 0 < event.weight := by cases event <;> exact Nat.zero_lt_succ _
      simp only [backlog, List.map_cons, List.sum_cons] at h
      omega

theorem perform_backlog (sh : Shell) (o : Outside) (effect : Effect) :
    backlog (sh.perform o effect).1.queue = backlog sh.queue + effect.weight := by
  have happend : ∀ event : Event, backlog (sh.queue ++ [event]) =
      backlog sh.queue + event.weight := by
    intro event
    simp [backlog]
  cases effect with
  | stepWatchdog | sampleLink | sampleWireless | notify _ _ _ => exact happend _
  | requestRedial | setWatchdogLink _ | hangup | persistMode _ =>
      exact congrArg backlog (List.append_nil _)
  | _ =>
      unfold perform
      dsimp only [Effect.lane]
      split <;> rfl

theorem performAll_backlog (outside : ℕ → Outside) (effects : List Effect) (sh : Shell) (k : ℕ) :
    backlog (sh.performAll outside k effects).1.queue =
      backlog sh.queue + Effect.load effects := by
  induction effects generalizing sh k with
  | nil => rfl
  | cons effect effects ih =>
      have hrest := ih (sh.perform (outside k) effect).1 (k + 1)
      rw [sh.perform_backlog] at hrest
      have hload : Effect.load (effect :: effects) = effect.weight + Effect.load effects := rfl
      rw [hload, ← Nat.add_assoc]
      exact hrest

/-- Every turn of `drain` leaves less to do. -/
theorem handle_backlog [SerdeJson] (sh : Shell) (m : Move) (event : Event) (rest : List Event) :
    backlog (sh.handle m event rest).1.queue < backlog (event :: rest) := by
  have hload : Effect.load (sh.core.step ⟨m.now, m.wall, event⟩).2.effects < event.weight :=
    sh.core.step_load _
  have hqueue : backlog (sh.handle m event rest).1.queue = backlog rest +
      Effect.load (sh.core.step ⟨m.now, m.wall, event⟩).2.effects := performAll_backlog _ _ _ _
  have hcons : backlog (event :: rest) = event.weight + backlog rest := rfl
  omega

/-- **Every drain ends.** However the outside answers, as many turns as the queue
weighs empty it. -/
theorem drain_ends [SerdeJson] (ms : List Move) (sh : Shell) (hpop : ∀ m ∈ ms, m.act = .pop)
    (hlong : backlog sh.queue ≤ ms.length) : (Machine.final step sh ms).queue = [] := by
  induction ms generalizing sh with
  | nil => exact backlog_eq_zero (Nat.le_zero.mp hlong)
  | cons m ms ih =>
      obtain ⟨hact, hpop⟩ := List.forall_mem_cons.mp hpop
      apply ih (sh.step m).1 hpop
      have hmoved := sh.step_moved m
      generalize sh.step m = p at hmoved
      cases hmoved with
      | idle hidle =>
          rw [hidle hact]
          exact Nat.zero_le _
      | @pop event rest _ hqueue =>
          have hless := sh.handle_backlog m event rest
          rw [hqueue, List.length_cons] at hlong
          omega
      | select hsel _ | stop hsel _ => simp [hact] at hsel

end Shell

end GdutNet
