import GdutNet.Heartbeat.Round

/-!
# Runs of the heartbeat session

What every run keeps: the counters of the rounds, `heartbeat_counters`, and the
waits between two `ka1_pkt1`, `heartbeat_spaced`.
-/

namespace GdutNet.Heartbeat

open Std.Do Machine

/-- What a triple says of a run. -/
theorem run_of_triple {σ ε α : Type} {x : EStateM ε σ α} {s : σ} {Q : α → σ → Prop}
    {E : ε → σ → Prop}
    (h : ⦃fun t => ⌜t = s⌝⦄ x ⦃post⟨fun a t => ⌜Q a t⌝, fun e t => ⌜E e t⌝⟩⦄) :
    match x.run s with
    | .ok a t => Q a t
    | .error e t => E e t := by
  apply EStateM.of_wp_run_eq (x := x.run s) rfl
    (fun r => match r with | .ok a t => Q a t | .error e t => E e t)
  exact fun _ => h s rfl

/-! ## One round, from session to session -/

/-- `ka1_pkt1` with the counter of the session, and packets that carry its counters. -/
def SendsPkt1 (s : Session) (log : List Event) (s' : Session) : Prop :=
  ∃ evs, log = .sent (ka1Pkt1 s.locals.ka1Cnt) :: evs ∧
    (∀ e ∈ evs, Carries s.locals.ka1Cnt s.locals.ka2Cnt e) ∧
    s'.locals.ka1Cnt.toNat = moved evs s.locals.ka1Cnt.toNat ∧
    s'.locals.ka2Cnt.toNat = moved evs s.locals.ka2Cnt.toNat

def SendsNothing (s : Session) (log : List Event) (s' : Session) : Prop :=
  s'.locals = s.locals ∧ ∀ e ∈ log, ∃ st, e = .status st

/-- The session sends no more. -/
def Done (s : Session) : Prop := s.exit ≠ none ∨ s.cancelled = true

structure StepFacts (env : RoundEnv) (s : Session) (log : List Event) (s' : Session) : Prop where
  shape : SendsPkt1 s log s' ∨ (SendsNothing s log s' ∧ Done s')
  done : Done s → log = [] ∧ Done s'
  waited : Unhurried env → Done s' ∨ ∃ e ∈ log, e.IsWait
  hurried : ¬ Unhurried env → ∀ e ∈ log, ¬ e.IsWait
  noOverflow : s.exit ≠ some .overflow → s'.exit ≠ some .overflow

/-- The world at the start of a round. -/
def entry (s : Session) : World := { locals := s.locals, cancelled := s.cancelled }

theorem Played.sendsPkt1 {env : RoundEnv} {s : Session} {w : World} {e : Option Exit}
    (h : Played env (entry s) w) :
    SendsPkt1 s w.log { locals := w.locals, cancelled := w.cancelled, exit := e } := by
  obtain ⟨w₁, ⟨hlocals, -, hlog⟩, evs, hlog', hevs, h1, h2⟩ := h.sent
  rw [hlocals] at hevs h1 h2
  refine ⟨evs, ?_, hevs, h1, h2⟩
  rw [hlog', hlog]
  rfl

theorem Played.not_wait {env : RoundEnv} {s : Session} {w : World} (h : Played env (entry s) w)
    (hno : ¬ Unhurried env) : ∀ e ∈ w.log, ¬ e.IsWait := by
  obtain ⟨evs, hlog, hevs⟩ := h.hurried hno
  have hlog' : w.log = evs := hlog
  rwa [hlog']

theorem step_facts [Digests] (interval : Duration) (s : Session) (env : RoundEnv)
    (h1 : s.locals.ka1Cnt.toNat < 128) (h2 : s.locals.ka2Cnt.toNat < 128) :
    StepFacts env s (step interval s env).2 (step interval s env).1 := by
  cases hexit : s.exit with
  | some e =>
      have hstep : step interval s env = (s, []) := by simp only [step, hexit]
      rw [hstep]
      have hdone : Done s := .inl (by simp [hexit])
      exact ⟨.inr ⟨⟨rfl, by simp⟩, hdone⟩, fun _ => ⟨rfl, hdone⟩, fun _ => .inl hdone, by simp, id⟩
  | none =>
      have hround := run_of_triple (round_spec env interval (entry s) ⟨h1, h2⟩ rfl)
      cases hrun : (round env interval).run (entry s) with
      | ok a w =>
          rw [hrun] at hround
          have hstep : step interval s env =
              ({ locals := w.locals, cancelled := w.cancelled }, w.log) := by
            rw [entry] at hrun
            simp only [step, hexit, hrun]
          rw [hstep]
          have hrunning : s.cancelled = false := hround.running
          refine ⟨.inl hround.sendsPkt1, ?_, fun hun => ?_, hround.not_wait, by simp⟩
          · rintro (hno | hcancelled)
            · exact absurd hexit hno
            · rw [hrunning] at hcancelled
              cases hcancelled
          · exact (hround.waited hun).imp_left .inr
      | error e w =>
          rw [hrun] at hround
          have hstep : step interval s env =
              ({ locals := w.locals, cancelled := w.cancelled, exit := some e }, w.log) := by
            rw [entry] at hrun
            simp only [step, hexit, hrun]
          rw [hstep]
          have hdone : Done { locals := w.locals, cancelled := w.cancelled, exit := some e } :=
            .inl (by simp)
          have hquiet : Silent (entry s) w → ∀ e ∈ w.log, ∃ st, e = .status st := by
            rintro ⟨-, evs, hlog, hevs⟩
            have hlog' : w.log = evs := hlog
            rwa [hlog']
          refine ⟨?_, ?_, fun _ => .inl hdone, fun hno => ?_, ?_⟩
          · rcases hround.played with hplayed | hsilent
            · exact .inl hplayed.sendsPkt1
            · exact .inr ⟨⟨hsilent.1, hquiet hsilent⟩, hdone⟩
          · rintro (hno | hcancelled)
            · exact absurd hexit hno
            · exact ⟨hround.cancelled hcancelled, hdone⟩
          · rcases hround.played with hplayed | hsilent
            · exact hplayed.not_wait hno
            · intro x hx
              obtain ⟨st, rfl⟩ := hquiet hsilent x hx
              exact id
          · intro _ heq
            exact hround.noOverflow (Option.some.inj heq)

/-! ## The counters -/

abbrev RoundStep := Machine.Step Session RoundEnv (List Event)

/-- The rounds that sent `ka2_pkt2`. -/
def completed (past : List RoundStep) : ℕ := past.countP fun r => r.out.any Event.completes

/-- After `n` completed rounds. -/
structure Counters (n : ℕ) (s : Session) : Prop where
  ka1Cnt : s.locals.ka1Cnt.toNat = (1 + 2 * n) % 128
  ka2Cnt : s.locals.ka2Cnt.toNat = 2 * n % 128
  noOverflow : s.exit ≠ some .overflow

theorem openSession_counters (server : Ipv4Addr) (port : ℕ) (o : Opening) :
    Counters 0 (openSession server port o).1 := by
  unfold openSession
  split
  · exact ⟨rfl, rfl, by simp⟩
  · dsimp only
    split
    · exact ⟨rfl, rfl, by simp⟩
    · exact ⟨rfl, rfl, by simp⟩
    · exact ⟨rfl, rfl, by simp⟩

/-- The log of a round tells how the counters move. -/
theorem StepFacts.moved {env : RoundEnv} {s s' : Session} {log : List Event}
    (h : StepFacts env s log s') :
    s'.locals.ka1Cnt.toNat = moved log s.locals.ka1Cnt.toNat ∧
      s'.locals.ka2Cnt.toNat = moved log s.locals.ka2Cnt.toNat := by
  rcases h.shape with ⟨evs, rfl, -, h1, h2⟩ | ⟨⟨hlocals, hlog⟩, -⟩
  · exact ⟨h1, h2⟩
  · have hany : log.any Event.completes = false := by
      rw [List.any_eq_false]
      intro e he
      obtain ⟨st, rfl⟩ := hlog e he
      simp [Event.completes]
    rw [hlocals, Heartbeat.moved, Heartbeat.moved, hany]
    exact ⟨rfl, rfl⟩

section Runs

variable [Digests] (interval : Duration)

theorem Counters.step {n : ℕ} {s : Session} (h : Counters n s) (env : RoundEnv) :
    Counters (n + if (step interval s env).2.any Event.completes then 1 else 0)
      (step interval s env).1 := by
  have hfacts := step_facts interval s env (by rw [h.ka1Cnt]; omega) (by rw [h.ka2Cnt]; omega)
  obtain ⟨h1, h2⟩ := hfacts.moved
  rw [h.ka1Cnt] at h1
  rw [h.ka2Cnt] at h2
  refine ⟨?_, ?_, hfacts.noOverflow h.noOverflow⟩
  · rw [h1, Heartbeat.moved]
    split
    · omega
    · rfl
  · rw [h2, Heartbeat.moved]
    split
    · omega
    · rfl

theorem rounds_counters {start : Session} (h : Counters 0 start) (envs : List RoundEnv) :
    Counters (completed (rounds interval start envs)) (final (step interval) start envs) := by
  refine history_induction (A := fun _ => True) (I := fun past s => Counters (completed past) s)
    h ?_ envs (fun _ _ => trivial)
  intro past t env ht _
  have hnext := ht.step interval env
  rw [completed, List.countP_append, List.countP_singleton]
  exact hnext

/-- **The counters of every round.** -/
theorem heartbeat_counters (server : Ipv4Addr) (port : ℕ) (o : Opening) (envs : List RoundEnv)
    (past : List RoundStep) (r : RoundStep) (rest : List RoundStep)
    (h : rounds interval (openSession server port o).1 envs = past ++ r :: rest) :
    Counters (completed past) r.pre ∧ Counters (completed (past ++ [r])) r.post ∧
      (r.out.any Event.completes = false →
        r.post.locals.ka1Cnt = r.pre.locals.ka1Cnt ∧ r.post.locals.ka2Cnt = r.pre.locals.ka2Cnt) ∧
      ∀ pkt, .sent pkt ∈ r.out → (packetCnt pkt).toNat =
        if isKa2 pkt then 2 * completed past % 128 else (1 + 2 * completed past) % 128 := by
  obtain ⟨xs, env, ys, -, hpast, hr, -⟩ := trace_split h
  have hpre := rounds_counters interval (openSession_counters server port o) xs
  have hpre' : Counters (completed past) r.pre := by
    rw [hpast, hr]
    exact hpre
  have hfacts : StepFacts r.input r.pre r.out r.post := by
    have hlt1 : r.pre.locals.ka1Cnt.toNat < 128 := by rw [hpre'.ka1Cnt]; omega
    have hlt2 : r.pre.locals.ka2Cnt.toNat < 128 := by rw [hpre'.ka2Cnt]; omega
    rw [hr] at hlt1 hlt2 ⊢
    exact step_facts interval _ env hlt1 hlt2
  have hpost : Counters (completed (past ++ [r])) r.post := by
    rw [completed, List.countP_append, List.countP_singleton]
    have hnext := hpre'.step interval env
    rw [hr] at hnext ⊢
    exact hnext
  obtain ⟨h1, h2⟩ := hfacts.moved
  refine ⟨hpre', hpost, fun hreset => ?_, fun pkt hpkt => ?_⟩
  · rw [Heartbeat.moved, hreset] at h1 h2
    exact ⟨UInt8.toNat_inj.mp h1, UInt8.toNat_inj.mp h2⟩
  · rw [← hpre'.ka1Cnt, ← hpre'.ka2Cnt]
    rcases hfacts.shape with ⟨evs, hlog, hevs, -⟩ | ⟨⟨-, hlog⟩, -⟩
    · rw [hlog, List.mem_cons] at hpkt
      rcases hpkt with hfirst | hpkt
      · obtain rfl := Event.sent.inj hfirst
        rfl
      · rw [(hevs _ hpkt).1]
        split <;> rfl
    · obtain ⟨st, hst⟩ := hlog _ hpkt
      cases hst

/-! ## The waits -/

end Runs

def IsPkt1 (e : Event) : Prop := ∃ cnt, e = .sent (ka1Pkt1 cnt)

theorem Carries.not_isPkt1 {c1 c2 : UInt8} {e : Event} (h : Carries c1 c2 e) : ¬ IsPkt1 e := by
  rintro ⟨cnt, rfl⟩
  exact h.2 cnt rfl

theorem not_isPkt1_status {e : Event} (h : ∃ st, e = .status st) : ¬ IsPkt1 e := by
  obtain ⟨st, rfl⟩ := h
  rintro ⟨cnt, heq⟩
  cases heq

/-- What the rounds did, one after another. -/
def eventsOf (steps : List RoundStep) : List Event := steps.flatMap (·.out)

section Runs

variable [Digests] (interval : Duration)

theorem Counters.facts {n : ℕ} {s : Session} (h : Counters n s) (env : RoundEnv) :
    StepFacts env s (Heartbeat.step interval s env).2 (Heartbeat.step interval s env).1 :=
  step_facts interval s env (by rw [h.ka1Cnt]; omega) (by rw [h.ka2Cnt]; omega)

theorem eventsOf_cons (s : Session) (env : RoundEnv) (envs : List RoundEnv) :
    eventsOf (rounds interval s (env :: envs)) =
      (step interval s env).2 ++ eventsOf (rounds interval (step interval s env).1 envs) := rfl

theorem eventsOf_done {n : ℕ} {s : Session} (h : Counters n s) (hdone : Done s)
    (envs : List RoundEnv) : eventsOf (rounds interval s envs) = [] := by
  induction envs generalizing n s with
  | nil => rfl
  | cons env envs ih =>
      obtain ⟨hlog, hdone'⟩ := (h.facts interval env).done hdone
      rw [eventsOf_cons, hlog, ih (h.step interval env) hdone']
      rfl

theorem rounds_spaced {n : ℕ} {s : Session} (h : Counters n s) {envs : List RoundEnv}
    (henvs : ∀ env ∈ envs, Unhurried env) :
    Spaced IsPkt1 Event.IsWait (eventsOf (rounds interval s envs)) := by
  induction envs generalizing n s with
  | nil => exact spaced_of_no_mark (by simp [rounds, eventsOf])
  | cons env envs ih =>
      rw [List.forall_mem_cons] at henvs
      have hfacts := h.facts interval env
      have hnext := h.step interval env
      have hrest := ih hnext henvs.2
      rw [eventsOf_cons]
      rcases hfacts.shape with ⟨evs, hlog, hevs, -⟩ | ⟨⟨-, hlog⟩, -⟩
      · rw [hlog]
        refine hrest.block_append (fun e he => (hevs e he).not_isPkt1) ?_
        rcases hfacts.waited henvs.1 with hdone | ⟨e, he, hwait⟩
        · right
          rw [eventsOf_done interval hnext hdone]
          simp
        · rw [hlog, List.mem_cons] at he
          rcases he with rfl | he
          · exact absurd hwait id
          · exact .inl ⟨e, he, hwait⟩
      · exact hrest.unmarked_append fun e he => not_isPkt1_status (hlog e he)

/-- All that a call of `run_blocking` does in so many rounds. -/
def sessionEvents (server : Ipv4Addr) (port : ℕ) (o : Opening) (envs : List RoundEnv) :
    List Event :=
  (openSession server port o).2 ++ eventsOf (rounds interval (openSession server port o).1 envs)

theorem not_spaced_of_hurried {n : ℕ} {s : Session} (h : Counters n s) {env env' : RoundEnv}
    (hno : ¬ Unhurried env)
    (hnext : ∃ e ∈ (step interval (step interval s env).1 env').2, IsPkt1 e)
    (before after : List Event) :
    ¬ Spaced IsPkt1 Event.IsWait (before ++ ((step interval s env).2 ++
      ((step interval (step interval s env).1 env').2 ++ after))) := by
  obtain ⟨e, he, hpkt⟩ := hnext
  have hfacts := h.facts interval env
  have hfacts' := (h.step interval env).facts interval env'
  have hrunning : ¬ Done (step interval s env).1 := by
    intro hdone
    rw [(hfacts'.done hdone).1] at he
    cases he
  rcases hfacts'.shape with ⟨evs', hlog', -⟩ | ⟨⟨-, hlog'⟩, -⟩
  · rcases hfacts.shape with ⟨evs, hlog, -⟩ | ⟨-, hdone⟩
    · intro hspaced
      rw [hlog, hlog', List.cons_append, List.cons_append] at hspaced
      obtain ⟨x, hx, hwait⟩ := hspaced before _ evs _ (evs' ++ after) rfl ⟨_, rfl⟩ ⟨_, rfl⟩
      exact hfacts.hurried hno x (by rw [hlog]; exact List.mem_cons_of_mem _ hx) hwait
    · exact absurd hdone hrunning
  · exact absurd hpkt (not_isPkt1_status (hlog' e he))

/-- **Two `ka1_pkt1` have a wait between them** when no round is hurried; a hurried
one that another one follows has none. -/
theorem heartbeat_spaced (server : Ipv4Addr) (port : ℕ) (o : Opening) (envs : List RoundEnv) :
    ((∀ env ∈ envs, Unhurried env) →
      Spaced IsPkt1 Event.IsWait (sessionEvents interval server port o envs)) ∧
    ∀ past r r' rest, rounds interval (openSession server port o).1 envs = past ++ r :: r' :: rest →
      ¬ Unhurried r.input → (∃ e ∈ r'.out, IsPkt1 e) →
        ¬ Spaced IsPkt1 Event.IsWait (sessionEvents interval server port o envs) := by
  have hstart := openSession_counters server port o
  constructor
  · intro henvs
    refine (rounds_spaced interval hstart henvs).unmarked_append fun e he => ?_
    refine not_isPkt1_status ?_
    revert e
    unfold openSession
    split
    · simp
    · dsimp only
      split <;> simp
  · intro past r r' rest hsplit hno hnext
    obtain ⟨xs, env, ys, henvs, rfl, rfl, hrest⟩ := trace_split hsplit
    have htail : trace (step interval) _ ys = [] ++ r' :: rest := hrest.symm
    obtain ⟨xs', env', ys', -, hnil, rfl, -⟩ := trace_split htail
    obtain rfl : xs' = [] := by
      cases xs' with
      | nil => rfl
      | cons x xs' => cases hnil
    have hcounters := rounds_counters interval hstart xs
    have hflood := not_spaced_of_hurried interval hcounters hno hnext
      ((openSession server port o).2 ++ eventsOf (rounds interval (openSession server port o).1 xs))
      (eventsOf rest)
    rw [sessionEvents, hsplit, eventsOf, List.flatMap_append, ← List.append_assoc]
    exact hflood

end Runs

/-! ## Examples -/

abbrev noDigests : Digests := ⟨fun _ => .replicate 16 0, fun _ => .replicate 16 0,
  fun _ => .replicate 20 0⟩

def server : Ipv4Addr := ⟨10, 0, 3, 6⟩

/-- Every receive ends in `answer`. -/
def answering (answer : Recv) : RoundEnv where
  cancels _ := false
  answer _ := answer
  sendError _ := none
  rand _ := 0

/-- A reply that completes a round. -/
def reply : Recv := .data (0x07 :: zeros 29)

def answered : RoundStep :=
  stepAt (@step noDigests (.fromSecs 12)) (openSession server 61440 {}).1 (answering reply)

theorem answered_completed : completed ([] ++ [answered]) = 1 := by decide +kernel

theorem heartbeat_counters_answered : Counters 1 answered.post := by
  have hrun : @rounds noDigests (.fromSecs 12) (openSession server 61440 {}).1 [answering reply] =
      [] ++ answered :: [] := trace_cons _ _ _
  have hcounters :=
    (@heartbeat_counters noDigests (.fromSecs 12) server 61440 {} _ _ _ _ hrun).2.1
  rw [answered_completed] at hcounters
  exact hcounters

theorem heartbeat_spaced_silent :
    Spaced IsPkt1 Event.IsWait (@sessionEvents noDigests (.fromSecs 12) server 61440 {}
      [answering .timeout, answering .timeout]) := by
  refine (@heartbeat_spaced noDigests (.fromSecs 12) server 61440 {} _).1 ?_
  simp [Unhurried, answering]

/-- A receive that fails at once begins the next round at once. -/
theorem heartbeat_floods :
    ¬ Spaced IsPkt1 Event.IsWait (@sessionEvents noDigests (.fromSecs 12) server 61440 {}
      [answering .error, answering .error]) := by
  have hevents : @sessionEvents noDigests (.fromSecs 12) server 61440 {}
      [answering .error, answering .error] =
      [.status .running] ++ .sent (ka1Pkt1 1) ::
        ([.received .error] ++ .sent (ka1Pkt1 1) :: [.received .error]) := rfl
  rw [hevents]
  intro hspaced
  obtain ⟨e, he, hwait⟩ := hspaced _ _ _ _ _ rfl ⟨_, rfl⟩ ⟨_, rfl⟩
  rw [List.mem_singleton.mp he] at hwait
  exact hwait

end GdutNet.Heartbeat
