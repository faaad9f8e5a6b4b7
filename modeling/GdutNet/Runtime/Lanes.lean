import GdutNet.Runtime.Shell

/-!
# The bounded lane

`Shell::drain` at its own grain: a reaction's effects run one after the other,
those of the wireless lane go through a channel with room for 64 messages, and
a send into a full channel waits for the worker. `Lanes` adds the effects still
to run and the worker's `take` to the shell; the worker may be inside one effect
for as long as it likes. A reaction sends at most four messages, and most of
them only while none of their kind is in flight, but the metric is sent again
at every tick. So the room must be there when a sample is handled.
-/

namespace GdutNet

def laneCapacity : ℕ := 64

/-- The messages that a reaction puts into the wireless lane. -/
def laneLoad (effects : List Effect) : ℕ := effects.countP (fun e => e.lane = .wireless)

theorem laneLoad_append (xs ys : List Effect) :
    laneLoad (xs ++ ys) = laneLoad xs + laneLoad ys := List.countP_append

/-- The branches of the service loop, without the stop. -/
def Event.selected : Event → Bool
  | .wake | .command _ | .heartbeat _ | .associateFinished _ | .portalFinished _
  | .wlanProbeFinished _ | .wirelessDied => true
  | _ => false

/-! ## How much a reaction sends -/

namespace Supervisor

/-- A login is the longest message: acquire, settle, log in. -/
theorem Carried.laneLoad_le {effects : List Effect} (h : Carried effects) :
    laneLoad effects ≤ 3 := by
  cases h with
  | nothing => exact Nat.zero_le 3
  | associate profile => exact Nat.le_add_left 1 2
  | release => exact Nat.le_add_left 2 1
  | login endpoint ip => exact Nat.le_refl 3
  | probe ip gateway url => exact Nat.le_add_left 1 2

theorem Pressed.laneLoad_le {effects : List Effect} (h : Pressed effects) :
    laneLoad effects ≤ 1 := by
  cases h with
  | nothing => exact Nat.zero_le 1
  | suppress ifindex metric => exact Nat.le_refl 1
  | release => exact Nat.le_refl 1

/-- A running supervisor sends messages for a sample of a live brain, and at the
stop. -/
theorem Emits.laneLoad_cases {s : Supervisor} {event : Event} {effects : List Effect}
    (h : s.Emits event effects) :
    laneLoad effects = 0 ∨
    ((∃ sample, event = .wirelessSampled sample) ∧ s.wirelessSampleInFlight = true ∧
      s.brain.isSome = true ∧ laneLoad effects ≤ 4) ∨
    event = .stop := by
  cases h with
  | wake hlink hwlan =>
      left
      rcases hlink with rfl | rfl <;> rcases hwlan with rfl | rfl <;> rfl
  | link hsteps =>
      left
      rcases hsteps with rfl | rfl <;> rfl
  | sample hflight hlive hcarried hpressed =>
      refine .inr (.inl ⟨⟨_, rfl⟩, hflight, hlive, ?_⟩)
      rw [laneLoad_append]
      exact Nat.add_le_add hcarried.laneLoad_le hpressed.laneLoad_le
  | stop => exact .inr (.inr rfl)
  | stopWireless => exact .inr (.inr rfl)
  | _ => exact .inl rfl

/-- Messages come from the start, from a sample of a live brain, and from the
stop. -/
theorem step_laneLoad [SerdeJson] (s : Supervisor) (i : Input) :
    laneLoad (s.step i).2.effects = 0 ∨
    (s.started = false ∧ laneLoad (s.step i).2.effects ≤ 1) ∨
    ((s.accepted i).isSome = true ∧ laneLoad (s.step i).2.effects ≤ 4) ∨
    i.event = .stop := by
  rw [step_effects]
  rcases s.dispatch_cases i.now i.wall i.event with ⟨-, h⟩ | ⟨hnew, -, h⟩ | ⟨hs, hr, h⟩
  · rw [h]
    exact .inl rfl
  · rw [h]
    rcases s.handleStarted_effects i.now i.wall with hsent | hsent
    · rw [hsent]
      exact .inr (.inl ⟨hnew, Nat.le_refl 1⟩)
    · rw [hsent]
      exact .inl rfl
  · rw [h]
    rcases (s.handle_emits i.now i.wall i.event).laneLoad_cases with hnone | hsample | hstop
    · exact .inl hnone
    · obtain ⟨⟨sample, hevent⟩, hflight, hlive, hload⟩ := hsample
      refine .inr (.inr (.inl ⟨?_, hload⟩))
      simp [accepted, handled, hevent, hs, hr, hflight, hlive]
    · exact .inr (.inr (.inr hstop))

end Supervisor

/-! ## The lanes -/

structure Lanes where
  shell : Shell
  /-- what is left of the reaction that `drain` is carrying out -/
  pending : List Effect := []

namespace Lanes

inductive Act where
  /-- the loop is idle and one of its sources has an event -/
  | select (event : Event)
  /-- the loop is idle and the stop signal arrives -/
  | stop
  /-- `drain` feeds the next event to the core -/
  | pop (now wall : ℕ)
  /-- `drain` carries out the next effect, or waits -/
  | run (o : Outside)
  /-- the worker is free and takes a message -/
  | take

/-- The next effect is a message, and the channel is full. -/
def waits (l : Lanes) : Bool :=
  match l.pending with
  | effect :: _ =>
      effect.lane = .wireless && !l.shell.stopping && laneCapacity ≤ l.shell.lane.length
  | [] => false

/-- The loop is at its `select!`. -/
def idle (l : Lanes) : Bool := l.pending.isEmpty && l.shell.queue.isEmpty && !l.shell.stopping

section Steps

variable [SerdeJson]

/-- The core's part of one turn of `drain`. -/
def feed (sh : Shell) (i : Input) (rest : List Event) : Lanes :=
  ⟨{ sh with
      core := (sh.core.step i).1
      queue := rest
      wakeAt := (sh.core.step i).2.wakeAt
      published := (sh.core.step i).2.snapshot.getD sh.published },
    (sh.core.step i).2.effects⟩

def step (l : Lanes) : Act → Lanes × Unit
  | .select event =>
      (if l.idle && event.selected then { l with shell := { l.shell with queue := [event] } }
        else l, ())
  | .stop =>
      (if l.idle then { l with shell := { l.shell with stopping := true, queue := [.stop] } }
        else l, ())
  | .pop now wall =>
      (match l.pending, l.shell.queue with
        | [], event :: rest => feed l.shell ⟨now, wall, event⟩ rest
        | _, _ => l, ())
  | .run o =>
      (match l.pending with
        | effect :: rest => if l.waits then l else ⟨(l.shell.perform o effect).1, rest⟩
        | [] => l, ())
  | .take => ({ l with shell := { l.shell with lane := l.shell.lane.tail } }, ())

abbrev Record : Type := Machine.Step Lanes Act Unit

def start (cfg : Config) : Lanes := ⟨Shell.new cfg, []⟩

def history (cfg : Config) (acts : List Act) : List Record :=
  Machine.trace step (start cfg) acts

def after (cfg : Config) (acts : List Act) : Lanes := Machine.final step (start cfg) acts

/-- Everything one act can do. -/
inductive Went (l : Lanes) (a : Act) : Lanes → Prop
  | still : Went l a l
  | select {event : Event} (hidle : l.idle = true) (hsource : event.selected = true) :
      Went l a { l with shell := { l.shell with queue := [event] } }
  | stop (hidle : l.idle = true) :
      Went l a { l with shell := { l.shell with stopping := true, queue := [.stop] } }
  | pop {now wall : ℕ} {event : Event} {rest : List Event} (hact : a = .pop now wall)
      (hpending : l.pending = []) (hqueue : l.shell.queue = event :: rest) :
      Went l a (feed l.shell ⟨now, wall, event⟩ rest)
  | run {o : Outside} {effect : Effect} {rest : List Effect}
      (hpending : l.pending = effect :: rest) (hfree : l.waits = false) :
      Went l a ⟨(l.shell.perform o effect).1, rest⟩
  | take : Went l a { l with shell := { l.shell with lane := l.shell.lane.tail } }

theorem step_went (l : Lanes) (a : Act) : l.Went a (l.step a).1 := by
  cases a with
  | select event =>
      simp only [step]
      split
      · rename_i h
        rw [Bool.and_eq_true] at h
        exact .select h.1 h.2
      · exact .still
  | stop =>
      simp only [step]
      split
      · rename_i h
        exact .stop h
      · exact .still
  | pop now wall =>
      simp only [step]
      split
      · rename_i event rest hpending hqueue
        exact .pop rfl hpending hqueue
      · exact .still
  | run o =>
      simp only [step]
      split
      · rename_i effect rest hpending
        split
        · exact .still
        · rename_i hfree
          exact .run hpending (by simpa using hfree)
      · exact .still
  | take => exact .take

end Steps

/-! ## Room -/

/-- A sample that reaches a live brain finds room for the four messages of one
reaction. -/
def FindsRoom (r : Record) : Prop :=
  ∀ now wall event rest, r.input = .pop now wall → r.pre.pending = [] →
    r.pre.shell.queue = event :: rest →
    (r.pre.shell.core.accepted ⟨now, wall, event⟩).isSome = true →
    r.pre.shell.lane.length + 4 ≤ laneCapacity

/-- Everything that is still to be sent has room. -/
structure Fits (l : Lanes) : Prop where
  bound : l.shell.lane.length ≤ laneCapacity
  room : l.shell.stopping = false → l.shell.lane.length + laneLoad l.pending ≤ laneCapacity
  fresh : l.shell.core.started = false → l.shell.lane = [] ∧ l.pending = []
  stops : .stop ∈ l.shell.queue → l.shell.stopping = true

theorem Fits.not_waits {l : Lanes} (h : l.Fits) : l.waits = false := by
  cases hp : l.pending with
  | nil => simp [waits, hp]
  | cons effect rest =>
      by_contra hwaits
      simp only [waits, hp, Bool.not_eq_false, Bool.and_eq_true, decide_eq_true_eq,
        Bool.not_eq_true'] at hwaits
      obtain ⟨⟨hlane, hrun⟩, hfull⟩ := hwaits
      have hroom := h.room hrun
      have hone : laneLoad (effect :: rest) = laneLoad rest + 1 :=
        List.countP_cons_of_pos (by simp [hlane])
      rw [hp, hone] at hroom
      omega

theorem execMain_not_stop (wd : Watchdog) (o : Outside) (effect : Effect) :
    (execMain wd o effect).2.1 ≠ some .stop := by
  cases effect <;> simp [execMain]

/-- An effect goes to the lane, or it leaves the lane alone. -/
theorem perform_lane (sh : Shell) (o : Outside) (effect : Effect) :
    (sh.perform o effect).1.core = sh.core ∧
    (sh.perform o effect).1.stopping = sh.stopping ∧
    (.stop ∈ (sh.perform o effect).1.queue → .stop ∈ sh.queue) ∧
    ((sh.perform o effect).1.lane = sh.lane ∨
      (sh.stopping = false ∧ effect.lane = .wireless ∧
        (sh.perform o effect).1.lane = sh.lane ++ [effect])) := by
  unfold Shell.perform
  split
  · refine ⟨rfl, rfl, ?_, .inl rfl⟩
    intro hstop
    rcases List.mem_append.mp hstop with hold | hnew
    · exact hold
    · rw [Option.mem_toList] at hnew
      exact absurd hnew (execMain_not_stop sh.watchdog o effect)
  · rename_i hlane
    cases hstopping : sh.stopping with
    | true => exact ⟨rfl, by simp, id, .inl rfl⟩
    | false => exact ⟨rfl, by simp, id, .inr ⟨rfl, hlane, rfl⟩⟩

theorem Fits.run {l : Lanes} (h : l.Fits) {effect : Effect} {rest : List Effect}
    (hpending : l.pending = effect :: rest) (o : Outside) :
    Fits ⟨(l.shell.perform o effect).1, rest⟩ := by
  obtain ⟨hcore, hstopping, hqueue, hlane⟩ := perform_lane l.shell o effect
  have hstarted : l.shell.core.started ≠ false := by
    intro hnew
    have hnone := (h.fresh hnew).2
    rw [hpending] at hnone
    cases hnone
  rw [← hcore] at hstarted
  have hstops : .stop ∈ (l.shell.perform o effect).1.queue →
      (l.shell.perform o effect).1.stopping = true :=
    fun hmem => hstopping.trans (h.stops (hqueue hmem))
  rcases hlane with hlane | ⟨hrun, hwireless, hlane⟩
  · refine ⟨by rw [hlane]; exact h.bound, ?_, fun hnew => absurd hnew hstarted, hstops⟩
    intro hrun
    have hroom := h.room (hstopping ▸ hrun)
    have hload : laneLoad rest ≤ laneLoad l.pending := by
      rw [hpending, laneLoad, laneLoad, List.countP_cons]
      exact Nat.le_add_right _ _
    rw [hlane]
    exact (Nat.add_le_add_left hload _).trans hroom
  · have hroom := h.room hrun
    have hload : laneLoad l.pending = laneLoad rest + 1 := by
      rw [hpending]
      exact List.countP_cons_of_pos (by simp [hwireless])
    have hlength : (l.shell.perform o effect).1.lane.length = l.shell.lane.length + 1 := by
      rw [hlane]
      simp
    refine ⟨?_, ?_, fun hnew => absurd hnew hstarted, hstops⟩
    · change (l.shell.perform o effect).1.lane.length ≤ laneCapacity
      omega
    · intro _
      change (l.shell.perform o effect).1.lane.length + laneLoad rest ≤ laneCapacity
      omega

theorem start_fits (cfg : Config) : (start cfg).Fits := by
  refine ⟨Nat.zero_le _, fun _ => Nat.zero_le _, fun _ => ⟨rfl, rfl⟩, ?_⟩
  intro hmem
  cases List.mem_singleton.mp hmem

section Runs

variable [SerdeJson]

/-- Before `Started` the core does nothing, and it never goes back there. -/
theorem not_started_of_step {s : Supervisor} {i : Input} (h : (s.step i).1.started = false) :
    s.started = false ∧ (s.step i).2.effects = [] := by
  have hbefore : s.started = false := by
    by_contra hs
    have hs' : s.wired.started = true := by
      change s.started = true
      simpa using hs
    have hkept := Wired.started_step hs' i
    rw [← (s.step_wired i).1] at hkept
    change (s.step i).1.started = true at hkept
    rw [h] at hkept
    cases hkept
  refine ⟨hbefore, ?_⟩
  rw [Supervisor.step_effects]
  rcases s.dispatch_cases i.now i.wall i.event with ⟨-, hd⟩ | ⟨-, he, -⟩ | ⟨hs, -, -⟩
  · rw [hd]
  · have hstarted := Wired.step_started (w := s.wired) he
    rw [← (s.step_wired i).1] at hstarted
    change (s.step i).1.started = true at hstarted
    rw [h] at hstarted
    cases hstarted
  · simp [hbefore] at hs

theorem Fits.feed {l : Lanes} (h : l.Fits) {i : Input} {rest : List Event}
    (hqueue : l.shell.queue = i.event :: rest)
    (hroom : (l.shell.core.accepted i).isSome = true →
      l.shell.lane.length + 4 ≤ laneCapacity) : Fits (Lanes.feed l.shell i rest) := by
  refine ⟨h.bound, ?_, ?_, ?_⟩
  · intro hrun
    change l.shell.lane.length + laneLoad (l.shell.core.step i).2.effects ≤ laneCapacity
    rcases l.shell.core.step_laneLoad i with hzero | ⟨hnew, hone⟩ | ⟨hsample, hfour⟩ | hstop
    · rw [hzero]
      exact h.bound
    · rw [(h.fresh hnew).1]
      exact (Nat.add_le_add_left hone _).trans (by decide)
    · exact (Nat.add_le_add_left hfour _).trans (hroom hsample)
    · have hstopping := h.stops (by rw [hqueue, hstop]; exact List.mem_cons_self)
      change l.shell.stopping = false at hrun
      rw [hstopping] at hrun
      cases hrun
  · intro hnew
    obtain ⟨hbefore, hnone⟩ := not_started_of_step hnew
    exact ⟨(h.fresh hbefore).1, hnone⟩
  · intro hmem
    apply h.stops
    rw [hqueue]
    exact List.mem_cons_of_mem _ hmem

theorem Fits.step {l : Lanes} (h : l.Fits) (a : Act)
    (hroom : FindsRoom (Machine.stepAt Lanes.step l a)) : (l.step a).1.Fits := by
  have hwent := l.step_went a
  generalize (l.step a).1 = l' at hwent
  cases hwent with
  | still => exact h
  | @select event hidle hsource =>
      refine ⟨h.bound, h.room, h.fresh, ?_⟩
      intro hmem
      rw [← List.mem_singleton.mp hmem] at hsource
      cases hsource
  | stop hidle => exact ⟨h.bound, by simp, h.fresh, fun _ => rfl⟩
  | @pop now wall event rest hact hpending hqueue =>
      exact h.feed (i := ⟨now, wall, event⟩) hqueue
        (hroom now wall event rest hact hpending hqueue)
  | run hpending hfree => exact h.run hpending _
  | take =>
      have hshort : l.shell.lane.tail.length ≤ l.shell.lane.length := by simp
      refine ⟨hshort.trans h.bound, ?_, ?_, h.stops⟩
      · intro hrun
        exact (Nat.add_le_add_right hshort _).trans (h.room hrun)
      · intro hnew
        obtain ⟨hlane, hnone⟩ := h.fresh hnew
        exact ⟨by simp [hlane], hnone⟩

/-- With room for all of them, the effects run as one turn of `Shell::drain`. -/
theorem runs_eq_performAll (outside : ℕ → Outside) (l : Lanes) (h : l.Fits) (k : ℕ) :
    Machine.final step l ((List.range' k l.pending.length).map (fun n => .run (outside n))) =
      ⟨(l.shell.performAll outside k l.pending).1, []⟩ := by
  obtain ⟨sh, pending⟩ := l
  induction pending generalizing sh k with
  | nil => rfl
  | cons effect rest ih =>
      have hone : (step ⟨sh, effect :: rest⟩ (.run (outside k))).1 =
          ⟨(sh.perform (outside k) effect).1, rest⟩ := by
        simp [step, h.not_waits]
      have hnext : Fits ⟨(sh.perform (outside k) effect).1, rest⟩ := h.run rfl (outside k)
      rw [List.length_cons, List.range'_succ, List.map_cons, Machine.final_cons, hone]
      exact ih (k + 1) _ hnext

end Runs

/-! ### A worker inside one call -/

/-- The campus WLAN is there, whatever the worker does. -/
def wlanUp : Outside := { Shell.cableIn with wireless := Supervisor.campusSample }

/-- One event from the queue, with room for the effects of its reaction. -/
def turnActs (now : ℕ) : List Act := .pop now 0 :: List.replicate 4 (.run wlanUp)

def drainActs (now : ℕ) : List Act := (List.replicate 4 (turnActs now)).flatten

/-- The service starts; the worker takes the cleanup, and then the association. -/
def joinActs : List Act := drainActs 0 ++ [.take, .take]

/-- `netsh` does not return; the service wakes up every two seconds. -/
def hungActs (ticks : ℕ) : List Act :=
  joinActs ++ (List.range ticks).flatMap (fun k => .select .wake :: drainActs (2000 * (k + 1)))

end Lanes

end GdutNet
