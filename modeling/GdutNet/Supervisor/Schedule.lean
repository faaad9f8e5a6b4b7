import GdutNet.Machine.Purge
import GdutNet.Supervisor.Wired

/-!
# The redial schedule over whole runs

Three results about the wired guard, each proved on `Wired` and read off the
supervisor through `step_wired`: nothing but wired events moves the schedule,
a backoff is never cut short, and the guard neither falls asleep for good nor
spins.
-/

namespace GdutNet.Supervisor

open Machine (Since)

/-! ## Noninterference -/

/-- The events that must not matter: heartbeats, mode switches, results of the
wireless side and of toasts, and a wake at which no wired timer is due. -/
def erasable (s : Supervisor) (i : Input) : Bool :=
  match i.event with
  | .heartbeat _ | .command (.setMode _) | .wirelessSampled _ | .associateFinished _
  | .portalFinished _ | .wlanProbeFinished _ | .notifyResult _ _ | .wirelessDied => true
  | .wake => !s.watchdogDeadline.any (· ≤ i.now) && !(s.linkPollAt ≤ i.now : Bool)
  | _ => false

theorem erasable_wired {s : Supervisor} {i : Input} (hinv : s.wired.Inv)
    (h : s.erasable i = true) : s.wired.step i = (s.wired, []) := by
  unfold Wired.step
  split
  · rfl
  · unfold erasable at h
    obtain ⟨now, wall, event⟩ := i
    cases event with
    | wake =>
        simp only [Bool.and_eq_true, Bool.not_eq_true', decide_eq_false_iff_not] at h
        exact Wired.wake_not_due hinv h.1 h.2
    | command cmd => cases cmd <;> simp at h ⊢
    | _ => simp at h ⊢

section Noninterference

variable [SerdeJson]

/-- What the wired side shows at a step. -/
def wiredView : Record → Input × List Effect × Wired :=
  Machine.observe wired (fun r => r.effects.filter Effect.wired)

/-- **Wired noninterference.** Erase any of the events that must not matter: every
event that is kept shows the same wired effects and the same wired state, and the
erased ones had no wired effects to lose. -/
theorem wired_noninterference (cfg : Config) (xs : List (Input × Bool))
    (herased : ∀ p ∈ Machine.markedTrace step (new cfg) xs, p.2 = false →
      p.1.pre.erasable p.1.input = true) :
    (Machine.retained step (new cfg) xs).map wiredView =
      (Machine.trace step (new cfg) (Machine.kept xs)).map wiredView ∧
    ∀ p ∈ Machine.markedTrace step (new cfg) xs, p.2 = false →
      p.1.out.effects.filter Effect.wired = [] := by
  constructor
  · refine Machine.retained_eq_of_erasure (I := fun s : Supervisor => s.wired.Inv)
      (E := fun s i => s.erasable i = true) (fun s i h => step_inv h i) ?_ ?_ xs
      (new_inv cfg) (new_inv cfg) rfl herased
    · intro s t i _ _ hst
      rw [(s.step_wired i).1, (s.step_wired i).2, (t.step_wired i).1, (t.step_wired i).2, hst]
      exact ⟨rfl, rfl⟩
    · intro s i hs he
      rw [(s.step_wired i).1, erasable_wired hs he]
  · intro p hp hmark
    obtain ⟨ys, i, zs, -, hstep⟩ :=
      Machine.exists_split_of_mem (Machine.mem_trace_of_mem_markedTrace hp)
    have he := herased p hp hmark
    rw [hstep] at he ⊢
    have hnone : (after cfg ys).wired.step i = ((after cfg ys).wired, []) :=
      erasable_wired (after_inv cfg ys) he
    rw [Machine.stepAt_out, (step_wired _ i).2]
    exact congrArg (·.2) hnone

end Noninterference

/-- A storm around one redial: everything marked `false` is erased. -/
def stormRun : List (Input × Bool) :=
  [(⟨0, 0, .started⟩, true), (⟨0, 0, .heartbeat .off⟩, false), (⟨0, 0, .wake⟩, true),
    (⟨5, 0, .command (.setMode .wiredPlusStandby)⟩, false),
    (⟨10, 0, .linkSampled (some true) none⟩, true), (⟨12, 0, .wake⟩, false),
    (⟨20, 0, .watchdogStepped ⟨.fromSecs 5, ⟨.backoff, none, none, 1⟩, none⟩⟩, true),
    (⟨30, 0, .notifyResult .redialFailing true⟩, false), (⟨40, 0, .wirelessDied⟩, false),
    (⟨2010, 2, .wake⟩, true)]

theorem wired_noninterference_storm :
    (Machine.kept stormRun).length = 5 ∧
      (Machine.retained (@step replyJson) (new {}) stormRun).map wiredView =
        (Machine.trace (@step replyJson) (new {}) (Machine.kept stormRun)).map wiredView :=
  ⟨by decide, (@wired_noninterference replyJson {} stormRun (by decide)).1⟩

/-! ## Backoff -/

/-- An accepted sample finds the cable back: `Some(false)` becomes `Some(true)`. -/
def RestoresLink (r : Record) : Prop :=
  (∃ up pppIp, Handles r (.linkSampled up pppIp)) ∧ r.pre.sampleInFlight = true ∧
    r.pre.ethLink = some false ∧ r.post.ethLink = some true

/-- A step that may cut a backoff short. -/
def Interrupts (r : Record) : Prop := Handles r (.command .redial) ∨ RestoresLink r

def SuppliesDelay (r : Record) : Prop := ∃ st, Handles r (.watchdogStepped st)

section Backoff

variable [SerdeJson]

/-- A step that does not interrupt is patient. -/
theorem patient_of_not_interrupts {s : Supervisor} {i : Input} (hinv : s.wired.Inv)
    (h : ¬ Interrupts (Machine.stepAt step s i)) : s.wired.Patient i := by
  refine ⟨fun hr => h (.inl hr), fun up pppIp hr hwait => ?_⟩
  by_contra hrest
  rw [Bool.not_eq_false] at hrest
  refine h (.inr ⟨⟨up, pppIp, hr⟩, hwait, ?_, ?_⟩)
  · simp only [Wired.restores, Bool.and_eq_true, decide_eq_true_eq] at hrest
    exact hrest.1
  · change (s.step i).1.wired.ethLink = some true
    rw [(s.step_wired i).1, Wired.step_link hr hwait, (s.wired.link_flags up i.now).2.2.2.2]
    exact Wired.nextLink_of_restores hinv hrest

/-- **Backoff is never cut short.** A watchdog step that follows a delay without
a manual redial or a restored link in between comes no earlier than the delay
ends. -/
theorem backoff_never_cut_short (cfg : Config) (is : List Input)
    (hclock : Machine.NonDecreasing Input.now is) (past mid rest : List Record)
    (stepped emit : Record) (st : WatchdogStep)
    (hsplit : history cfg is = past ++ stepped :: (mid ++ emit :: rest))
    (hstepped : Handles stepped (.watchdogStepped st))
    (hlast : ∀ r ∈ mid, ¬ SuppliesDelay r)
    (hcalm : ∀ r ∈ mid ++ [emit], ¬ Interrupts r)
    (hemit : .stepWatchdog ∈ emit.out.effects) :
    satAdd stepped.input.now (durationMs st.delay) ≤ emit.input.now := by
  obtain ⟨xs, i, ys, rfl, rfl, rfl, hlater⟩ := history_split hsplit
  obtain ⟨us, j, vs, rfl, rfl, rfl, -⟩ := Machine.trace_split hlater.symm
  obtain ⟨hi, hclock⟩ := List.pairwise_cons.mp hclock.of_append_right
  obtain ⟨hus, -, hj⟩ := List.pairwise_append.mp hclock
  replace hstepped : (after cfg xs).wired.Receives i (.watchdogStepped st) := hstepped
  -- the delay arms the deadline
  have hstart : Wired.Waits (satAdd i.now (durationMs st.delay)) i.now
      ((after cfg xs).step i).1.wired := by
    rw [((after cfg xs).step_wired i).1, Wired.step_stepped hstepped]
    exact ⟨hstepped.started (by simp), .inl ⟨rfl, rfl⟩⟩
  have hstep : ∀ {t : ℕ} {s : Supervisor} {k : Input}, t ≤ k.now →
      s.wired.Inv ∧ Wired.Waits (satAdd i.now (durationMs st.delay)) t s.wired →
      (¬ SuppliesDelay (Machine.stepAt step s k) ∧ ¬ Interrupts (Machine.stepAt step s k)) →
      (s.step k).1.wired.Inv ∧
        Wired.Waits (satAdd i.now (durationMs st.delay)) k.now (s.step k).1.wired := by
    rintro t s k ht ⟨hinv, hw⟩ ⟨hdelay, hcalm⟩
    refine ⟨step_inv hinv k, ?_⟩
    rw [(s.step_wired k).1]
    exact hw.step ht (patient_of_not_interrupts hinv hcalm) (fun st hr => hdelay ⟨st, hr⟩)
  -- nothing in between moves it: carry the wait to the state that emits the step
  obtain ⟨hinv, hwaits⟩ := Machine.timed_induction Input.now
    (A := fun r => ¬ SuppliesDelay r ∧ ¬ Interrupts r)
    (I := fun t (s : Supervisor) => s.wired.Inv ∧
      Wired.Waits (satAdd i.now (durationMs st.delay)) t s.wired)
    (fun ht h => ⟨h.1, h.2.mono ht⟩) hstep ⟨step_inv (after_inv cfg xs) i, hstart⟩ hus
    (fun r hr => ⟨hlast r hr, hcalm r (List.mem_append_left _ hr)⟩)
    (fun k hk => hi k (List.mem_append_left _ hk)) (fun k hk => hj k hk j (by simp))
    (hi j (by simp))
  refine hwaits.due_of_step (Nat.le_refl _)
    (patient_of_not_interrupts hinv (hcalm _ (by simp))) ?_
  rw [Machine.stepAt_input, ← (step_wired _ j).2]
  exact List.mem_filter.mpr ⟨hemit, rfl⟩

end Backoff

/-- Up to the first dial. -/
def dialRun : List Input :=
  [⟨0, 0, .started⟩, ⟨0, 0, .wake⟩, ⟨10, 0, .linkSampled (some true) none⟩]

/-- The dial fails and asks for 5 s. -/
def dialFailed : WatchdogStep := ⟨.fromSecs 5, ⟨.backoff, none, none, 1⟩, none⟩

def waitRun : List Input := dialRun ++ [⟨20, 0, .watchdogStepped dialFailed⟩]

def redialRun : List Input := waitRun ++ [⟨5020, 5, .wake⟩]

def redialInput : Input := ⟨5030, 5, .linkSampled (some true) none⟩

theorem backoff_never_cut_short_redial :
    .stepWatchdog ∈ (@step replyJson (@after replyJson {} redialRun) redialInput).2.effects ∧
      satAdd 20 (durationMs dialFailed.delay) ≤ redialInput.now := by
  have hemit : .stepWatchdog ∈
      (@step replyJson (@after replyJson {} redialRun) redialInput).2.effects := by decide
  have hlink : (@after replyJson {} redialRun).ethLink = some true := by decide
  refine ⟨hemit, @backoff_never_cut_short replyJson {} (redialRun ++ [redialInput]) ?_
    (@history replyJson {} dialRun)
    [Machine.stepAt (@step replyJson) (@after replyJson {} waitRun) ⟨5020, 5, .wake⟩] []
    (Machine.stepAt (@step replyJson) (@after replyJson {} dialRun)
      ⟨20, 0, .watchdogStepped dialFailed⟩)
    (Machine.stepAt (@step replyJson) (@after replyJson {} redialRun) redialInput)
    dialFailed rfl ⟨rfl, by decide⟩ ?_ ?_ hemit⟩
  · simp [Machine.NonDecreasing, redialRun, waitRun, dialRun, redialInput]
  · simp [SuppliesDelay, Handles, Receives]
  · intro r hr
    rcases List.mem_pair.mp hr with rfl | rfl
    · simp [Interrupts, RestoresLink, Handles, Receives]
    · simp [Interrupts, RestoresLink, Handles, Receives, hlink, redialInput]

/-! ## The guard stays awake -/

def EmitsStep (r : Record) : Prop := .stepWatchdog ∈ r.out.effects

theorem lt_nextWake {s : Supervisor} {now : ℕ} (hpoll : now < s.linkPollAt)
    (hline : ∀ d, s.watchdogDeadline = some d → now < d)
    (htick : s.brain.isSome = true → now < s.wirelessTickAt) : now < s.nextWake now := by
  have hwired : ∀ next, now < next →
      now < max (if s.brain.isSome then min next s.wirelessTickAt else next) now := by
    intro next hnext
    refine Nat.lt_of_lt_of_le ?_ (Nat.le_max_left _ _)
    split
    · rename_i hb
      exact Nat.lt_min.mpr ⟨hnext, htick hb⟩
    · exact hnext
  unfold nextWake
  cases hd : s.watchdogDeadline with
  | none => exact hwired _ hpoll
  | some deadline => exact hwired _ (Nat.lt_min.mpr ⟨hpoll, hline deadline hd⟩)

theorem nextWake_le {s : Supervisor} {now : ℕ} (h : s.linkPollAt ≤ now + linkPollMs) :
    s.nextWake now ≤ now + linkPollMs := by
  have hwired : ∀ next, next ≤ now + linkPollMs →
      max (if s.brain.isSome then min next s.wirelessTickAt else next) now ≤
        now + linkPollMs := by
    intro next hnext
    refine Nat.max_le.mpr ⟨?_, Nat.le_add_right _ _⟩
    split
    · exact Nat.le_trans (Nat.min_le_left _ _) hnext
    · exact hnext
  unfold nextWake
  cases s.watchdogDeadline with
  | none => exact hwired _ h
  | some deadline => exact hwired _ (Nat.le_trans (Nat.min_le_left _ _) h)

theorem wakeWireless_tick (s : Supervisor) (now : ℕ) :
    (s.wakeWireless now).1.brain.isSome = true → now < (s.wakeWireless now).1.wirelessTickAt := by
  have htick : now < now + wirelessTickMs := Nat.lt_add_of_pos_right (by decide)
  unfold wakeWireless
  split
  · split <;> exact fun _ => htick
  · rename_i h
    intro hb
    simpa [show s.brain.isSome = true from hb] using h

section Awake

variable [SerdeJson]

/-- A next watchdog step is timed, pending, or already under way. -/
def StepAhead (past : List Record) (s : Supervisor) : Prop :=
  s.started = true → s.watchdogDeadline.isSome = true ∨ s.stepPending = true ∨
    Since EmitsStep (fun r => ¬ SuppliesDelay r) past

theorem stepAhead_step (past : List Record) (s : Supervisor) (i : Input)
    (h : StepAhead past s) : StepAhead (past ++ [Machine.stepAt step s i]) (s.step i).1 := by
  intro hstarted
  obtain ⟨hw, hfx⟩ := s.step_wired i
  replace hstarted : (s.wired.step i).1.started = true := hw ▸ hstarted
  rcases Wired.ahead_step hstarted with ha | hsent | ⟨hs, hno, hcalm⟩
  · rw [← hw] at ha
    exact ha.imp id .inl
  · rw [← hfx] at hsent
    exact .inr (.inr (.of_last (List.mem_filter.mp hsent).1))
  · rcases h hs with hd | hp | hsince
    · exact absurd (.inl hd) hno
    · exact absurd (.inr hp) hno
    · exact .inr (.inr (hsince.snoc (fun ⟨st, hst⟩ => hcalm st hst)))

theorem stepAhead_history (cfg : Config) (is : List Input) :
    StepAhead (history cfg is) (after cfg is) := by
  refine Machine.history_induction (A := fun _ => True) ?_
    (fun past s i h _ => stepAhead_step past s i h) is (fun _ _ => trivial)
  intro hstarted
  change (new cfg).wired.started = true at hstarted
  simp [new_wired] at hstarted

/-- The reaction to a wake lies in the future. -/
theorem wake_later {s : Supervisor} (hs : s.started = true) (hr : s.stopped = false)
    (now wall : ℕ) :
    ∃ t, (s.step ⟨now, wall, .wake⟩).2.wakeAt = some t ∧ now < t := by
  have hrecv : s.Receives ⟨now, wall, .wake⟩ .wake := ⟨rfl, by simp [handled, hs, hr]⟩
  obtain ⟨snap, hstate, -⟩ := step_of_receives hrecv (by simp)
  have hw : (s.handleWake now).1.wired = ((s.wired.expire now).poll now).1 :=
    congrArg (·.1) (s.handleWake_shown now)
  have hstarted : (s.handleWake now).1.started = true :=
    (congrArg Wired.started hw).trans (by rwa [Wired.poll_started, Wired.expire_started])
  have hrunning : (s.handleWake now).1.stopped = false :=
    (congrArg Wired.stopped hw).trans (by rwa [Wired.poll_stopped, Wired.expire_stopped])
  obtain ⟨hpoll, hline⟩ := s.wired.wake_timers now
  rw [← hw] at hpoll hline
  rw [step_wakeAt, hstate]
  refine ⟨(s.handleWake now).1.nextWake now, ?_, ?_⟩
  · change (if (s.handleWake now).1.started && !(s.handleWake now).1.stopped then _ else _) = _
    rw [hstarted, hrunning]
    rfl
  · exact lt_nextWake hpoll hline ((s.wakeWired now).1.wakeWireless_tick now)

end Awake

end GdutNet.Supervisor
