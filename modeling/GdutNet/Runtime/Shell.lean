import GdutNet.Supervisor.Schedule
import GdutNet.Supervisor.Takeover

/-!
# The service shell

`Shell` of `runtime.rs`: the supervisor, the watchdog and the event queue. The
service loop puts one event into the queue and drains it; effects of the main
lane run inline and their results go to the back of the queue, effects of the
wireless lane are forwarded. Whatever the dialer, the prober, the adapters and
the notifier answer comes in with the move that asks them.
-/

namespace GdutNet

/-- What the outside answers to one effect. -/
structure Outside where
  answers : Answers
  pppIp : Option String
  link : Option Bool
  wireless : WirelessSample
  delivered : Bool

/-- `Shell::exec_main`: the watchdog, the result event and the calls made. -/
def execMain (wd : Watchdog) (o : Outside) :
    Effect → Watchdog × Option Event × List DialerCall
  | .stepWatchdog =>
      let (wd, delay, calls) := wd.runOnce o.answers
      (wd, some (.watchdogStepped ⟨delay, wd.view, o.pppIp⟩), calls)
  | .requestRedial => (wd.requestRedial, none, [])
  | .setWatchdogLink up => (wd.setEthLink up, none, [])
  | .hangup => (wd, none, [.hangup])
  | .sampleLink => (wd, some (.linkSampled o.link o.pppIp), [])
  | .sampleWireless => (wd, some (.wirelessSampled o.wireless), [])
  | .persistMode _ => (wd, none, [])
  | .notify key _ _ => (wd, some (.notifyResult key o.delivered), [])
  -- a wireless effect in the main lane is only logged
  | _ => (wd, none, [])

structure Shell where
  core : Supervisor
  watchdog : Watchdog
  cfg : Config
  published : StateSnapshot
  queue : List Event := []
  lane : List Effect := []
  shutdownEffects : List Effect := []
  stopping : Bool := false
  wakeAt : Option ℕ := none

/-- One executed effect, with the watchdog it met and the calls it made. -/
structure Executed where
  effect : Effect
  watchdog : Watchdog
  calls : List DialerCall

inductive Act where
  /-- the queue is not empty: one turn of `drain` -/
  | pop
  /-- the loop is idle and one of its sources has an event -/
  | select (event : Event)
  /-- the loop is idle and the stop signal arrives -/
  | stop

structure Move where
  now : ℕ
  wall : ℕ
  act : Act
  outside : ℕ → Outside

namespace Shell

/-- `run` up to its first `drain`. -/
def new (cfg : Config) : Shell :=
  { core := Supervisor.new cfg
    watchdog := Watchdog.new
      { redialMin := .fromSecs 1, redialMax := .fromSecs 300
        probeInterval := .fromSecs cfg.dial.probeIntervalSecs
        authFailDelay := authFailDelay }
    cfg
    published := (Supervisor.new cfg).compose
    queue := [.started] }

/-- `PersistMode` writes the mode into the shell's copy of the configuration. -/
def persist (cfg : Config) : Effect → Config
  | .persistMode mode => { cfg with wireless := { cfg.wireless with mode } }
  | _ => cfg

/-- Run one effect in its lane. -/
def perform (sh : Shell) (o : Outside) (effect : Effect) : Shell × Executed :=
  match effect.lane with
  | .main =>
      let (watchdog, result, calls) := execMain sh.watchdog o effect
      ({ sh with watchdog, cfg := persist sh.cfg effect, queue := sh.queue ++ result.toList },
        ⟨effect, sh.watchdog, calls⟩)
  | .wireless =>
      (if sh.stopping then { sh with shutdownEffects := sh.shutdownEffects ++ [effect] }
        else { sh with lane := sh.lane ++ [effect] },
        ⟨effect, sh.watchdog, []⟩)

def performAll (sh : Shell) (outside : ℕ → Outside) (k : ℕ) :
    List Effect → Shell × List Executed
  | [] => (sh, [])
  | effect :: effects =>
      let (sh, x) := sh.perform (outside k) effect
      let (sh, xs) := sh.performAll outside (k + 1) effects
      (sh, x :: xs)

/-! ## Running the effects of one reaction -/

theorem perform_core (sh : Shell) (o : Outside) (effect : Effect) :
    (sh.perform o effect).1.core = sh.core ∧ (sh.perform o effect).1.wakeAt = sh.wakeAt := by
  unfold perform
  split
  · exact ⟨rfl, rfl⟩
  · dsimp only
    split <;> exact ⟨rfl, rfl⟩

theorem performAll_core (outside : ℕ → Outside) (effects : List Effect) (sh : Shell) (k : ℕ) :
    (sh.performAll outside k effects).1.core = sh.core ∧
      (sh.performAll outside k effects).1.wakeAt = sh.wakeAt := by
  induction effects generalizing sh k with
  | nil => exact ⟨rfl, rfl⟩
  | cons effect effects ih =>
      obtain ⟨hc, hw⟩ := sh.perform_core (outside k) effect
      obtain ⟨hc', hw'⟩ := ih (sh.perform (outside k) effect).1 (k + 1)
      exact ⟨hc'.trans hc, hw'.trans hw⟩

/-! ## The service loop -/

section Loop

variable [SerdeJson]

/-- The body of `drain`. -/
def handle (sh : Shell) (m : Move) (event : Event) (rest : List Event) :
    Shell × List Executed :=
  let (core, reaction) := sh.core.step ⟨m.now, m.wall, event⟩
  ({ sh with core, queue := rest, wakeAt := reaction.wakeAt
             published := reaction.snapshot.getD sh.published }).performAll m.outside 0
    reaction.effects

def step (sh : Shell) (m : Move) : Shell × List Executed :=
  match m.act, sh.queue with
  | .pop, event :: rest => sh.handle m event rest
  | .select event, [] => if sh.stopping then (sh, []) else ({ sh with queue := [event] }, [])
  | .stop, [] =>
      if sh.stopping then (sh, []) else ({ sh with stopping := true, queue := [.stop] }, [])
  | _, _ => (sh, [])

abbrev Record : Type := Machine.Step Shell Move (List Executed)

def history (cfg : Config) (ms : List Move) : List Record := Machine.trace step (new cfg) ms

def after (cfg : Config) (ms : List Move) : Shell := Machine.final step (new cfg) ms

/-- The event a step takes from the queue. -/
def popped (r : Record) : Option Event :=
  match r.input.act with
  | .pop => r.pre.queue.head?
  | _ => none

/-- What one move can do. -/
inductive Moved (sh : Shell) (m : Move) : Shell × List Executed → Prop
  | idle (hact : m.act = .pop → sh.queue = []) : Moved sh m (sh, [])
  | pop {event : Event} {rest : List Event} (hact : m.act = .pop)
      (hqueue : sh.queue = event :: rest) : Moved sh m (sh.handle m event rest)
  | select {event : Event} (hact : m.act = .select event) (hqueue : sh.queue = []) :
      Moved sh m ({ sh with queue := [event] }, [])
  | stop (hact : m.act = .stop) (hqueue : sh.queue = []) :
      Moved sh m ({ sh with stopping := true, queue := [.stop] }, [])

theorem step_moved (sh : Shell) (m : Move) : sh.Moved m (sh.step m) := by
  unfold step
  split
  · rename_i hact hqueue
    exact .pop hact hqueue
  · rename_i hact hqueue
    split
    · exact .idle (by simp [hact])
    · exact .select hact hqueue
  · rename_i hact hqueue
    split
    · exact .idle (by simp [hact])
    · exact .stop hact hqueue
  · rename_i hpop _ _
    refine .idle (fun hact => ?_)
    cases hqueue : sh.queue with
    | nil => rfl
    | cons event rest => exact (hpop event rest hact hqueue).elim

theorem handle_core (sh : Shell) (m : Move) (event : Event) (rest : List Event) :
    (sh.handle m event rest).1.core = (sh.core.step ⟨m.now, m.wall, event⟩).1 ∧
      (sh.handle m event rest).1.wakeAt = (sh.core.step ⟨m.now, m.wall, event⟩).2.wakeAt :=
  performAll_core _ _ _ _

theorem step_of_popped {sh : Shell} {m : Move} {event : Event}
    (h : popped (Machine.stepAt step sh m) = some event) :
    ∃ rest, sh.queue = event :: rest ∧ sh.step m = sh.handle m event rest := by
  simp only [popped, Machine.stepAt_input, Machine.stepAt_pre] at h
  split at h
  · rename_i hact
    cases hqueue : sh.queue with
    | nil => simp [hqueue] at h
    | cons e rest =>
        simp only [hqueue, List.head?_cons, Option.some.injEq] at h
        exact ⟨rest, by rw [h], by simp only [step, hact, hqueue, h]⟩
  · simp at h

end Loop

/-! ## The cable gate

The supervisor and the watchdog each hold a copy of the link state. `Tracks a fx b`
says that the effects `fx` move the watchdog's copy from `a` to `b`, and that it
is `b` already whenever the watchdog is stepped. -/

inductive Tracks : Option Bool → List Effect → Option Bool → Prop
  | nil (a : Option Bool) : Tracks a [] a
  | link {a u b : Option Bool} {fx : List Effect} (h : Tracks u fx b) :
      Tracks a (.setWatchdogLink u :: fx) b
  | step {b : Option Bool} {fx : List Effect} (h : Tracks b fx b) :
      Tracks b (.stepWatchdog :: fx) b
  | other {a b : Option Bool} {effect : Effect} {fx : List Effect}
      (hstep : effect ≠ .stepWatchdog) (hlink : ∀ u, effect ≠ .setWatchdogLink u)
      (h : Tracks a fx b) : Tracks a (effect :: fx) b

theorem Tracks.of_filter {a b : Option Bool} {fx : List Effect}
    (h : Tracks a (fx.filter Effect.wired) b) : Tracks a fx b := by
  induction fx generalizing a with
  | nil => exact h
  | cons effect fx ih =>
      cases hw : effect.wired with
      | false =>
          rw [List.filter_cons_of_neg (by simp [hw])] at h
          exact .other (by rintro rfl; simp [Effect.wired] at hw)
            (by rintro u rfl; simp [Effect.wired] at hw) (ih h)
      | true =>
          rw [List.filter_cons_of_pos hw] at h
          cases h with
          | link h => exact .link (ih h)
          | step h => exact .step (ih h)
          | other hstep hlink h => exact .other hstep hlink (ih h)

theorem tracks_wired (w : Wired) (i : Input) :
    Tracks w.ethLink (w.step i).2 (w.step i).1.ethLink := by
  have hturn := w.step_turn i
  generalize w.step i = p at hturn ⊢
  cases hturn with
  | none _ _ | start _ | stepped _ => exact .nil _
  | wake _ =>
      rw [Wired.poll_ethLink, Wired.expire_ethLink]
      rcases (w.expire i.now).poll_effects i.now with h | h <;> rw [h]
      · exact .nil _
      · exact .other (by simp) (by simp) (.nil _)
  | redial _ => exact .other (by simp) (by simp) (.step (.nil _))
  | @link up _ _ _ =>
      -- the watchdog is told of a change before it is stepped
      have hchange : ∀ fx, Tracks (w.nextLink up) fx (w.nextLink up) →
          Tracks w.ethLink ((if w.nextLink up ≠ w.ethLink then
            [Effect.setWatchdogLink (w.nextLink up)] else []) ++ fx) (w.nextLink up) := by
        intro fx h
        split
        · exact .link h
        · rename_i hsame
          rw [not_not] at hsame
          rwa [← hsame]
      rw [(w.link_flags up i.now).2.2.2.2]
      unfold Wired.link
      dsimp only
      split
      · exact hchange _ (.other (by simp) (by simp) (.step (.nil _)))
      · split
        · exact hchange _ (.step (.nil _))
        · simpa using hchange [] (.nil _)
  | stop _ => exact .other (by simp) (by simp) (.nil _)

theorem perform_link (sh : Shell) (o : Outside) (effect : Effect) :
    (sh.perform o effect).1.watchdog.ethLink =
      match effect with
      | .setWatchdogLink up => up
      | _ => sh.watchdog.ethLink := by
  cases effect with
  | stepWatchdog => exact Watchdog.runOnce_ethLink _ _
  | _ =>
      unfold perform
      dsimp only [Effect.lane]
      first
        | rfl
        | (split <;> rfl)

/-- Only a step of the watchdog dials, and not with the cable out. -/
theorem perform_dial {sh : Shell} {o : Outside} {effect : Effect}
    (h : .dial ∈ (sh.perform o effect).2.calls) :
    effect = .stepWatchdog ∧ sh.watchdog.ethLink ≠ some false := by
  cases effect with
  | stepWatchdog => exact ⟨rfl, fun hout => Watchdog.runOnce_gated hout h⟩
  | _ => simp [perform, Effect.lane, execMain] at h

theorem perform_executed (sh : Shell) (o : Outside) (effect : Effect) :
    (sh.perform o effect).2.effect = effect ∧
      (sh.perform o effect).2.watchdog = sh.watchdog := by
  unfold perform
  split <;> exact ⟨rfl, rfl⟩

/-- Tracking effects leave both copies equal, keep them equal at every step of
the watchdog and never dial with the cable out. -/
theorem performAll_tracks {b : Option Bool} (outside : ℕ → Outside) (effects : List Effect)
    (sh : Shell) (k : ℕ) (h : Tracks sh.watchdog.ethLink effects b) :
    (sh.performAll outside k effects).1.watchdog.ethLink = b ∧
      ∀ x ∈ (sh.performAll outside k effects).2,
        (x.effect = .stepWatchdog → x.watchdog.ethLink = b) ∧
        (.dial ∈ x.calls → b ≠ some false) := by
  induction effects generalizing sh k with
  | nil =>
      cases h
      exact ⟨rfl, by simp [performAll]⟩
  | cons effect effects ih =>
      obtain ⟨heffect, hwatchdog⟩ := sh.perform_executed (outside k) effect
      have hlink := sh.perform_link (outside k) effect
      -- a step is tracked only with the final link in place
      have hstep : effect = .stepWatchdog → sh.watchdog.ethLink = b := by
        rintro rfl
        cases h with
        | step _ => rfl
        | other hstep _ _ => exact absurd rfl hstep
      have hrest : Tracks (sh.perform (outside k) effect).1.watchdog.ethLink effects b := by
        rw [hlink]
        cases h with
        | link h => exact h
        | step h => exact h
        | other _ hlink h =>
            split
            · exact absurd rfl (hlink _)
            · exact h
      obtain ⟨hfinal, hall⟩ := ih (sh.perform (outside k) effect).1 (k + 1) hrest
      refine ⟨hfinal, ?_⟩
      intro x hx
      have hcases : x = (sh.perform (outside k) effect).2 ∨
          x ∈ ((sh.perform (outside k) effect).1.performAll outside (k + 1) effects).2 :=
        List.mem_cons.mp hx
      rcases hcases with hx | hx
      · rw [hx, heffect, hwatchdog]
        refine ⟨hstep, fun hdial => ?_⟩
        obtain ⟨he, hout⟩ := perform_dial hdial
        rw [← hstep he]
        exact hout
      · exact hall x hx

/-- The link state that a step's accepted sample carries, if it carries one. -/
def acceptedLink (r : Record) : Option Bool :=
  (popped r).bind r.pre.core.wired.acceptedLink

/-- The last accepted `Some` sample. -/
def lastLink (past : List Record) : Option Bool :=
  past.foldl (fun known r => (acceptedLink r).or known) none

theorem lastLink_snoc (past : List Record) (r : Record) :
    lastLink (past ++ [r]) = (acceptedLink r).or (lastLink past) := by
  simp [lastLink]

/-- Both copies of the link state are the last accepted `Some` sample. -/
structure LinkHeld (past : List Record) (sh : Shell) : Prop where
  inv : sh.core.wired.Inv
  core : sh.core.ethLink = lastLink past
  watchdog : sh.watchdog.ethLink = sh.core.ethLink

/-- What holds of everything a step executes. -/
def Gated (past : List Record) (r : Record) : Prop :=
  ∀ x ∈ r.out,
    (x.effect = .stepWatchdog → x.watchdog.ethLink = r.post.core.ethLink ∧
      r.post.core.ethLink = lastLink (past ++ [r])) ∧
    (.dial ∈ x.calls → lastLink (past ++ [r]) ≠ some false)

section Cable

variable [SerdeJson]

/-- A move that takes nothing from the queue. -/
theorem linkHeld_of_quiet {past : List Record} {sh : Shell} {m : Move}
    (h : LinkHeld past sh) (hpop : popped (Machine.stepAt step sh m) = none)
    (hcore : (sh.step m).1.core = sh.core) (hwd : (sh.step m).1.watchdog = sh.watchdog)
    (hout : (sh.step m).2 = []) :
    LinkHeld (past ++ [Machine.stepAt step sh m]) (sh.step m).1 ∧
      Gated past (Machine.stepAt step sh m) := by
  have hlast : lastLink (past ++ [Machine.stepAt step sh m]) = lastLink past := by
    rw [lastLink_snoc, acceptedLink, hpop, Option.bind_none, Option.none_or]
  refine ⟨⟨hcore ▸ h.inv, ?_, ?_⟩, ?_⟩
  · rw [hcore, hlast, h.core]
  · rw [hcore, hwd, h.watchdog]
  · intro x hx
    rw [Machine.stepAt_out, hout] at hx
    simp at hx

theorem linkHeld_of_pop {past : List Record} {sh : Shell} {m : Move} {event : Event}
    {rest : List Event} (h : LinkHeld past sh) (hact : m.act = .pop)
    (hqueue : sh.queue = event :: rest) :
    LinkHeld (past ++ [Machine.stepAt step sh m]) (sh.step m).1 ∧
      Gated past (Machine.stepAt step sh m) := by
  have hstep : sh.step m = sh.handle m event rest := by
    simp only [step, hact, hqueue]
  let i : Input := ⟨m.now, m.wall, event⟩
  obtain ⟨hw, hfx⟩ := sh.core.step_wired i
  have hcore : (sh.step m).1.core = (sh.core.step i).1 := by
    rw [hstep]
    exact (sh.handle_core m event rest).1
  have hlast : (sh.core.step i).1.ethLink = lastLink (past ++ [Machine.stepAt step sh m]) := by
    have hpop : popped (Machine.stepAt step sh m) = some event := by
      simp [popped, hact, hqueue]
    rw [lastLink_snoc, acceptedLink, hpop, ← h.core]
    change (sh.core.step i).1.wired.ethLink = _
    rw [hw]
    exact Wired.step_ethLink h.inv i
  have htracks : Tracks sh.watchdog.ethLink (sh.core.step i).2.effects
      (sh.core.step i).1.ethLink := by
    apply Tracks.of_filter
    change Tracks _ _ (sh.core.step i).1.wired.ethLink
    rw [hfx, hw, h.watchdog]
    exact tracks_wired sh.core.wired i
  obtain ⟨hwd, hall⟩ := performAll_tracks m.outside (sh.core.step i).2.effects
    { sh with core := (sh.core.step i).1, queue := rest, wakeAt := (sh.core.step i).2.wakeAt
              published := (sh.core.step i).2.snapshot.getD sh.published } 0 htracks
  refine ⟨⟨?_, ?_, ?_⟩, ?_⟩
  · rw [hcore]
    exact Supervisor.step_inv h.inv i
  · rw [hcore, hlast]
  · rw [hcore, hstep]
    exact hwd
  · intro x hx
    rw [Machine.stepAt_out, hstep] at hx
    rw [Machine.stepAt_post, hcore, ← hlast]
    exact ⟨fun he => ⟨(hall x hx).1 he, rfl⟩, (hall x hx).2⟩

theorem linkHeld_step {past : List Record} {sh : Shell} {m : Move} (h : LinkHeld past sh) :
    LinkHeld (past ++ [Machine.stepAt step sh m]) (sh.step m).1 ∧
      Gated past (Machine.stepAt step sh m) := by
  have hmoved := sh.step_moved m
  generalize hp : sh.step m = p at hmoved
  cases hmoved with
  | idle hact =>
      refine hp ▸ linkHeld_of_quiet h ?_ (hp ▸ rfl) (hp ▸ rfl) (hp ▸ rfl)
      unfold popped
      split
      · rename_i hpop
        simp [hact hpop]
      · rfl
  | pop hact hqueue => exact hp ▸ linkHeld_of_pop h hact hqueue
  | select hact _ =>
      refine hp ▸ linkHeld_of_quiet h ?_ (hp ▸ rfl) (hp ▸ rfl) (hp ▸ rfl)
      simp [popped, hact]
  | stop hact _ =>
      refine hp ▸ linkHeld_of_quiet h ?_ (hp ▸ rfl) (hp ▸ rfl) (hp ▸ rfl)
      simp [popped, hact]

theorem linkHeld_history (cfg : Config) (ms : List Move) :
    LinkHeld (history cfg ms) (after cfg ms) := by
  refine Machine.history_induction (I := LinkHeld) (A := fun _ => True) ?_
    (fun _ _ _ h _ => (linkHeld_step h).1) ms (fun _ _ => trivial)
  refine ⟨Supervisor.new_inv cfg, ?_, ?_⟩
  · change (Supervisor.new cfg).wired.ethLink = none
    rw [Supervisor.new_wired]
  · change none = (Supervisor.new cfg).wired.ethLink
    rw [Supervisor.new_wired]

/-- **Never dial with the cable out.** At every execution of `StepWatchdog` the two
copies of the link state are the last accepted `Some` sample, and nothing a step
executes dials while that is `Some(false)`. -/
theorem cable_out_never_dials (cfg : Config) (ms : List Move) (past : List Record)
    (r : Record) (rest : List Record) (hsplit : history cfg ms = past ++ r :: rest)
    (x : Executed) (hx : x ∈ r.out) :
    (.dial ∈ x.calls → lastLink (past ++ [r]) ≠ some false) ∧
    (x.effect = .stepWatchdog → x.watchdog.ethLink = r.post.core.ethLink ∧
      r.post.core.ethLink = lastLink (past ++ [r])) := by
  obtain ⟨xs, m, ys, -, rfl, rfl, -⟩ := Machine.trace_split hsplit
  obtain ⟨hstep, hdial⟩ := (linkHeld_step (linkHeld_history cfg xs)).2 x hx
  exact ⟨hdial, hstep⟩

end Cable

/-- The link is up and the dial succeeds. -/
def cableIn : Outside :=
  { answers := ⟨.ok (), false, .alive, 0⟩, pppIp := none, link := some true
    wireless := {}, delivered := true }

/-- One turn of `drain` at time 0. -/
def turn : Move := ⟨0, 0, .pop, fun _ => cableIn⟩

/-- Start, first WLAN sample, first wake. -/
def wakeMoves : List Move := [turn, turn, ⟨0, 0, .select .wake, fun _ => cableIn⟩, turn]

theorem cable_in_dials :
    ∃ x ∈ (@step replyJson (@after replyJson {} wakeMoves) turn).2, .dial ∈ x.calls ∧
      lastLink (@history replyJson {} (wakeMoves ++ [turn])) ≠ some false := by
  have hdial : ∃ x ∈ (@step replyJson (@after replyJson {} wakeMoves) turn).2,
      .dial ∈ x.calls := by decide
  obtain ⟨x, hx, hd⟩ := hdial
  exact ⟨x, hx, hd, (@cable_out_never_dials replyJson {} (wakeMoves ++ [turn]) _ _ []
    (Machine.trace_snoc _ _ _) x hx).1 hd⟩

end Shell

end GdutNet
