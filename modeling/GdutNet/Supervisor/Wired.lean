import GdutNet.Supervisor.Emits

/-!
# The wired guard as a machine of its own

`Wired` is the redial schedule: the link state, the sample in flight, the
pending step and the two timers. `Wired.step` runs it alone; it reads nothing
of the session, the heartbeat or the wireless side. `step_wired` says that the
supervisor refines it, and every result about the redial schedule goes through
that theorem.
-/

namespace GdutNet

structure Wired where
  started : Bool
  stopped : Bool
  ethLink : Option Bool
  linkSampleSeen : Bool
  sampleInFlight : Bool
  stepPending : Bool
  watchdogDeadline : Option ℕ
  linkPollAt : ℕ
deriving DecidableEq, Repr

/-- The effects of the redial schedule. -/
def Effect.wired : Effect → Bool
  | .sampleLink | .setWatchdogLink _ | .requestRedial | .stepWatchdog | .hangup => true
  | _ => false

namespace Wired

def handled (w : Wired) (event : Event) : Bool :=
  if w.started then !w.stopped else event matches .started

/-- A due deadline becomes a pending step. -/
def expire (w : Wired) (now : ℕ) : Wired :=
  if w.watchdogDeadline.any (· ≤ now) then
    { w with watchdogDeadline := none, stepPending := true }
  else w

/-- Ask for a link sample if one is wanted and none is in flight. -/
def poll (w : Wired) (now : ℕ) : Wired × List Effect :=
  if w.stepPending || w.linkPollAt ≤ now then
    if !w.sampleInFlight then
      ({ w with sampleInFlight := true, linkPollAt := now + linkPollMs }, [.sampleLink])
    else if w.linkPollAt ≤ now then ({ w with linkPollAt := now + sampleRetryMs }, [])
    else (w, [])
  else (w, [])

def nextLink (w : Wired) (up : Option Bool) : Option Bool :=
  if w.linkSampleSeen then up.or w.ethLink else up

/-- The cable is back: the old link was down, the next one is not. -/
def restores (w : Wired) (up : Option Bool) : Bool :=
  w.ethLink = some false && w.nextLink up ≠ some false

/-- A pending step runs on the sample; a restored link redials at once. -/
def link (w : Wired) (up : Option Bool) (now : ℕ) : Wired × List Effect :=
  let change := if w.nextLink up ≠ w.ethLink then [Effect.setWatchdogLink (w.nextLink up)] else []
  let w' := { w with ethLink := w.nextLink up, linkSampleSeen := true
                     sampleInFlight := false, stepPending := false
                     linkPollAt := now + linkPollMs }
  if w.restores up then
    ({ w' with watchdogDeadline := none }, change ++ [.requestRedial, .stepWatchdog])
  else (w', if w.stepPending then change ++ [.stepWatchdog] else change)

def step (w : Wired) (i : Input) : Wired × List Effect :=
  if !w.handled i.event then (w, [])
  else match i.event with
    | .started =>
        if w.started then (w, [])
        else ({ w with started := true, watchdogDeadline := some i.now
                       linkPollAt := i.now }, [])
    | .wake => (w.expire i.now).poll i.now
    | .command .redial =>
        ({ w with watchdogDeadline := none }, [.requestRedial, .stepWatchdog])
    | .linkSampled up _ => if w.sampleInFlight then w.link up i.now else (w, [])
    | .watchdogStepped st =>
        ({ w with stepPending := false
                  watchdogDeadline := some (satAdd i.now (durationMs st.delay)) }, [])
    | .stop => ({ w with stopped := true }, [.hangup])
    | _ => (w, [])

def Receives (w : Wired) (i : Input) (event : Event) : Prop :=
  i.event = event ∧ w.handled event = true

/-- Everything one input can do to the schedule. -/
inductive Turn (w : Wired) (i : Input) : Wired × List Effect → Prop
  | none (hquiet : ∀ st, ¬ w.Receives i (.watchdogStepped st))
      (hsample : ∀ up pppIp, w.Receives i (.linkSampled up pppIp) → w.sampleInFlight = false) :
      Turn w i (w, [])
  | start (hidle : w.started = false) :
      Turn w i ({ w with started := true, watchdogDeadline := some i.now
                         linkPollAt := i.now }, [])
  | wake (hr : w.Receives i .wake) : Turn w i ((w.expire i.now).poll i.now)
  | redial (hr : w.Receives i (.command .redial)) :
      Turn w i ({ w with watchdogDeadline := .none }, [.requestRedial, .stepWatchdog])
  | link {up : Option Bool} {pppIp : Option String} (hr : w.Receives i (.linkSampled up pppIp))
      (hwait : w.sampleInFlight = true) : Turn w i (w.link up i.now)
  | stepped {st : WatchdogStep} (hr : w.Receives i (.watchdogStepped st)) :
      Turn w i ({ w with stepPending := false
                         watchdogDeadline := some (satAdd i.now (durationMs st.delay)) }, [])
  | stop (hr : w.Receives i .stop) : Turn w i ({ w with stopped := true }, [.hangup])

theorem step_link {w : Wired} {i : Input} {up : Option Bool} {pppIp : Option String}
    (hr : w.Receives i (.linkSampled up pppIp)) (hwait : w.sampleInFlight = true) :
    w.step i = w.link up i.now := by
  simp [step, hr.1, hr.2, hwait]

theorem step_stepped {w : Wired} {i : Input} {st : WatchdogStep}
    (hr : w.Receives i (.watchdogStepped st)) :
    w.step i = ({ w with stepPending := false
                         watchdogDeadline := some (satAdd i.now (durationMs st.delay)) }, []) := by
  simp [step, hr.1, hr.2]

theorem Receives.started {w : Wired} {i : Input} {event : Event}
    (hr : w.Receives i event) (hne : event ≠ .started) : w.started = true := by
  have hh := hr.2
  unfold handled at hh
  split at hh
  · assumption
  · cases event <;> simp at hh hne

theorem step_turn (w : Wired) (i : Input) : w.Turn i (w.step i) := by
  unfold step
  split
  · rename_i hn
    have hnot : ∀ event, ¬ w.Receives i event := by
      rintro event ⟨rfl, hh⟩
      simp [hh] at hn
    exact .none (fun _ => hnot _) (fun _ _ h => absurd h (hnot _))
  · rename_i hn
    have hh : w.handled i.event = true := by simpa using hn
    have quiet : (∀ st, i.event ≠ .watchdogStepped st) →
        (∀ up pppIp, i.event ≠ .linkSampled up pppIp) → w.Turn i (w, []) :=
      fun h h' => .none (fun st hr => h st hr.1) (fun up ip hr => absurd hr.1 (h' up ip))
    split
    · rename_i he
      split
      · exact quiet (by simp [he]) (by simp [he])
      · rename_i hs
        exact .start (by simpa using hs)
    · rename_i he
      exact .wake ⟨he, he ▸ hh⟩
    · rename_i he
      exact .redial ⟨he, he ▸ hh⟩
    · rename_i up pppIp he
      split
      · rename_i hwait
        exact .link ⟨he, he ▸ hh⟩ hwait
      · rename_i hwait
        exact .none (by simp [Receives, he]) (fun _ _ _ => by simpa using hwait)
    · rename_i st he
      exact .stepped ⟨he, he ▸ hh⟩
    · rename_i he
      exact .stop ⟨he, he ▸ hh⟩
    · rename_i hlink hstep _
      exact quiet (fun st h => hstep st h) (fun up ip h => hlink up ip h)

/-- A pending step always has a sample in flight to run on; a known link was
sampled. -/
structure Inv (w : Wired) : Prop where
  pending : w.stepPending = true → w.sampleInFlight = true
  seen : w.ethLink.isSome = true → w.linkSampleSeen = true

theorem inv_poll {w : Wired} (now : ℕ) (h : w.ethLink.isSome = true → w.linkSampleSeen = true) :
    ((w.poll now).1).Inv := by
  unfold poll
  split
  · split
    · exact ⟨fun _ => rfl, h⟩
    · rename_i hwait
      have hflight : w.sampleInFlight = true := by simpa using hwait
      split
      · exact ⟨fun _ => hflight, h⟩
      · exact ⟨fun _ => hflight, h⟩
  · rename_i hidle
    rw [Bool.or_eq_true, not_or] at hidle
    exact ⟨fun hp => absurd hp hidle.1, h⟩

@[simp] theorem expire_started (w : Wired) (now : ℕ) :
    (w.expire now).started = w.started := by
  unfold expire
  split <;> rfl

@[simp] theorem expire_stopped (w : Wired) (now : ℕ) :
    (w.expire now).stopped = w.stopped := by
  unfold expire
  split <;> rfl

@[simp] theorem expire_ethLink (w : Wired) (now : ℕ) :
    (w.expire now).ethLink = w.ethLink := by
  unfold expire
  split <;> rfl

@[simp] theorem expire_sampleInFlight (w : Wired) (now : ℕ) :
    (w.expire now).sampleInFlight = w.sampleInFlight := by
  unfold expire
  split <;> rfl

@[simp] theorem expire_linkSampleSeen (w : Wired) (now : ℕ) :
    (w.expire now).linkSampleSeen = w.linkSampleSeen := by
  unfold expire
  split <;> rfl

theorem link_flags (w : Wired) (up : Option Bool) (now : ℕ) :
    (w.link up now).1.sampleInFlight = false ∧ (w.link up now).1.stepPending = false ∧
      (w.link up now).1.linkSampleSeen = true ∧
      (w.link up now).1.linkPollAt = now + linkPollMs ∧
      (w.link up now).1.ethLink = w.nextLink up := by
  unfold link
  dsimp only
  split <;> exact ⟨rfl, rfl, rfl, rfl, rfl⟩

theorem Inv.step {w : Wired} (h : w.Inv) (i : Input) : (w.step i).1.Inv := by
  have ht := w.step_turn i
  generalize w.step i = p at ht ⊢
  cases ht with
  | none _ _ => exact h
  | start _ => exact ⟨h.pending, h.seen⟩
  | wake _ =>
      apply inv_poll
      rw [expire_ethLink, expire_linkSampleSeen]
      exact h.seen
  | redial _ => exact ⟨h.pending, h.seen⟩
  | @link up _ _ _ =>
      obtain ⟨-, hpend, hseen, -, -⟩ := w.link_flags up i.now
      exact ⟨fun hp => by simp [hpend] at hp, fun _ => hseen⟩
  | stepped _ => exact ⟨by simp, h.seen⟩
  | stop _ => exact ⟨h.pending, h.seen⟩

/-- The guard sleeps through a wake that is not its own. -/
theorem wake_not_due {w : Wired} (h : w.Inv) {now : ℕ}
    (hdue : w.watchdogDeadline.any (· ≤ now) = false) (hpoll : ¬ w.linkPollAt ≤ now) :
    (w.expire now).poll now = (w, []) := by
  have hexp : w.expire now = w := if_neg (by simp [hdue])
  rw [hexp]
  unfold poll
  cases hp : w.stepPending with
  | false => rw [if_neg (by simp [hpoll])]
  | true => rw [if_pos (by simp), if_neg (by simp [h.pending hp]), if_neg hpoll]

section Poll

variable (w : Wired) (now : ℕ)

@[simp] theorem poll_started : (w.poll now).1.started = w.started := by
  unfold poll
  grind

@[simp] theorem poll_stopped : (w.poll now).1.stopped = w.stopped := by
  unfold poll
  grind

@[simp] theorem poll_ethLink : (w.poll now).1.ethLink = w.ethLink := by
  unfold poll
  grind

@[simp] theorem poll_stepPending : (w.poll now).1.stepPending = w.stepPending := by
  unfold poll
  grind

@[simp] theorem poll_watchdogDeadline :
    (w.poll now).1.watchdogDeadline = w.watchdogDeadline := by
  unfold poll
  grind

theorem poll_effects : (w.poll now).2 = [] ∨ (w.poll now).2 = [.sampleLink] := by
  unfold poll
  grind

/-- A sample is asked for, or the flag is as before. -/
theorem poll_sample : (w.poll now).2 = [.sampleLink] ∨
    (w.poll now).1.sampleInFlight = w.sampleInFlight := by
  unfold poll
  grind

end Poll

/-- `Started` and `Stop` are for good. -/
theorem started_step {w : Wired} (h : w.started = true) (i : Input) :
    (w.step i).1.started = true := by
  have hturn := w.step_turn i
  generalize w.step i = p at hturn ⊢
  cases hturn with
  | none _ _ | redial _ | stepped _ | stop _ => exact h
  | start _ => rfl
  | wake _ => rwa [poll_started, expire_started]
  | @link up _ _ _ =>
      unfold Wired.link
      dsimp only
      split <;> exact h

theorem step_started {w : Wired} {i : Input} (he : i.event = .started) :
    (w.step i).1.started = true := by
  cases hs : w.started with
  | true => exact started_step hs i
  | false => simp [step, handled, he, hs]

theorem stopped_of_step {w : Wired} {i : Input} (h : (w.step i).1.stopped = false) :
    w.stopped = false := by
  have hturn := w.step_turn i
  generalize w.step i = p at hturn h
  cases hturn with
  | none _ _ | start _ | redial _ | stepped _ => exact h
  | wake _ => rwa [poll_stopped, expire_stopped] at h
  | @link up _ _ _ =>
      unfold Wired.link at h
      dsimp only at h
      split at h <;> exact h
  | stop _ => simp at h

/-- A sample in flight was asked for, now or before. -/
theorem sampleInFlight_step {w : Wired} {i : Input}
    (h : (w.step i).1.sampleInFlight = true) :
    .sampleLink ∈ (w.step i).2 ∨ (w.sampleInFlight = true ∧
      ∀ up pppIp, ¬ w.Receives i (.linkSampled up pppIp)) := by
  have hturn := w.step_turn i
  generalize w.step i = p at hturn h ⊢
  cases hturn with
  | none _ hsample =>
      refine .inr ⟨h, fun up pppIp hr => ?_⟩
      simp [hsample up pppIp hr] at h
  | start hidle =>
      refine .inr ⟨h, fun up pppIp hr => ?_⟩
      simp [hr.started (by simp)] at hidle
  | wake hr =>
      rcases (w.expire i.now).poll_sample i.now with hfx | hsame
      · exact .inl (by simp [hfx])
      · rw [hsame, expire_sampleInFlight] at h
        exact .inr ⟨h, by simp [Receives, hr.1]⟩
  | redial hr | stepped hr | stop hr => exact .inr ⟨h, by simp [Receives, hr.1]⟩
  | @link up _ _ _ => simp [(w.link_flags up i.now).1] at h

/-- The next watchdog step is timed or pending. -/
def Ahead (w : Wired) : Prop := w.watchdogDeadline.isSome = true ∨ w.stepPending = true

/-- If it is neither, a step is being run right now, or was before. -/
theorem ahead_step {w : Wired} {i : Input} (hs : (w.step i).1.started = true) :
    (w.step i).1.Ahead ∨ .stepWatchdog ∈ (w.step i).2 ∨
      (w.started = true ∧ ¬ w.Ahead ∧ ∀ st, ¬ w.Receives i (.watchdogStepped st)) := by
  have hturn := w.step_turn i
  generalize w.step i = p at hturn hs ⊢
  -- the deadline and the pending step are as before
  have keep : w.started = true → (∀ st, ¬ w.Receives i (.watchdogStepped st)) →
      w.Ahead ∨ (w.started = true ∧ ¬ w.Ahead ∧ ∀ st, ¬ w.Receives i (.watchdogStepped st)) := by
    intro h hno
    by_cases ha : w.Ahead
    · exact .inl ha
    · exact .inr ⟨h, ha, hno⟩
  cases hturn with
  | none hquiet _ => exact (keep hs hquiet).imp id .inr
  | start _ => exact .inl (.inl rfl)
  | wake hr =>
      unfold Ahead
      rw [poll_started, expire_started] at hs
      rw [poll_watchdogDeadline, poll_stepPending]
      unfold expire
      split
      · exact .inl (.inr rfl)
      · exact (keep hs (by simp [Receives, hr.1])).imp id .inr
  | redial _ => exact .inr (.inl (by simp))
  | @link up pppIp hr _ =>
      rcases keep (hr.started (by simp)) (by simp [Receives, hr.1]) with ha | hidle
      · unfold Wired.link Ahead
        dsimp only
        split
        · exact .inr (.inl (by simp))
        · cases hpend : w.stepPending with
          | true => exact .inr (.inl (by simp))
          | false => exact .inl (.inl (ha.resolve_right (by simp [hpend])))
      · exact .inr (.inr hidle)
  | stepped _ => exact .inl (.inl rfl)
  | stop hr => exact (keep hs (by simp [Receives, hr.1])).imp id .inr

/-- The link state carried by an accepted sample. -/
def acceptedLink (w : Wired) (event : Event) : Option Bool :=
  match event with
  | .linkSampled up _ => if w.handled event && w.sampleInFlight then up else none
  | _ => none

theorem acceptedLink_of_not_sample {w : Wired} {event : Event}
    (h : ∀ up pppIp, event ≠ .linkSampled up pppIp) : w.acceptedLink event = none := by
  unfold acceptedLink
  split
  · exact absurd rfl (h _ _)
  · rfl

theorem acceptedLink_of_none {w : Wired} {i : Input}
    (h : ∀ up pppIp, w.Receives i (.linkSampled up pppIp) → w.sampleInFlight = false) :
    w.acceptedLink i.event = none := by
  unfold acceptedLink
  split
  · rename_i up pppIp he
    split
    · rename_i hok
      rw [Bool.and_eq_true] at hok
      have hwait := h up pppIp ⟨he, he ▸ hok.1⟩
      simp [hok.2] at hwait
    · rfl
  · rfl

/-- A known link is only overwritten by `Some`. -/
theorem step_ethLink {w : Wired} (h : w.Inv) (i : Input) :
    (w.step i).1.ethLink = (w.acceptedLink i.event).or w.ethLink := by
  have hturn := w.step_turn i
  generalize w.step i = p at hturn ⊢
  cases hturn with
  | none _ hsample => rw [acceptedLink_of_none hsample, Option.none_or]
  | start hidle =>
      rw [acceptedLink_of_none, Option.none_or]
      intro up pppIp hr
      simp [hr.started (by simp)] at hidle
  | wake hr =>
      rw [acceptedLink_of_not_sample (by simp [hr.1]), Option.none_or, poll_ethLink,
        expire_ethLink]
  | redial hr => rw [acceptedLink_of_not_sample (by simp [hr.1]), Option.none_or]
  | @link up pppIp hr hwait =>
      have haccept : w.acceptedLink i.event = up := by
        simp [acceptedLink, hr.1, hr.2, hwait]
      rw [haccept, (w.link_flags up i.now).2.2.2.2]
      unfold nextLink
      split
      · rfl
      · rename_i hfirst
        -- the first sample may be `None`, but then nothing was known before
        have hnone : w.ethLink = .none := by
          cases he : w.ethLink with
          | none => rfl
          | some b => exact absurd (h.seen (by simp [he])) hfirst
        rw [hnone, Option.or_none]
  | stepped hr => rw [acceptedLink_of_not_sample (by simp [hr.1]), Option.none_or]
  | stop hr => rw [acceptedLink_of_not_sample (by simp [hr.1]), Option.none_or]

/-- With a known link, only `Some(true)` restores it. -/
theorem nextLink_of_restores {w : Wired} (h : w.Inv) {up : Option Bool}
    (hr : w.restores up = true) : w.nextLink up = some true := by
  simp only [restores, Bool.and_eq_true, decide_eq_true_eq] at hr
  have hseen : w.linkSampleSeen = true := h.seen (by simp [hr.1])
  simp only [nextLink, hseen, if_true, hr.1] at hr ⊢
  rcases up with _ | _ | _ <;> simp at hr ⊢

/-- After a wake no wired timer is due. -/
theorem wake_timers (w : Wired) (now : ℕ) :
    now < ((w.expire now).poll now).1.linkPollAt ∧
      ∀ d, ((w.expire now).poll now).1.watchdogDeadline = some d → now < d := by
  constructor
  · unfold poll
    split
    · split
      · exact Nat.lt_add_of_pos_right (by decide)
      · split
        · exact Nat.lt_add_of_pos_right (by decide)
        · rename_i h
          exact Nat.lt_of_not_le h
    · rename_i h
      rw [Bool.or_eq_true, not_or, decide_eq_true_eq] at h
      exact Nat.lt_of_not_le h.2
  · rw [poll_watchdogDeadline]
    unfold expire
    intro d hd
    split at hd
    · simp at hd
    · rename_i hdue
      simp only [hd, Option.any_some, decide_eq_true_eq] at hdue
      exact Nat.lt_of_not_le hdue

/-- The next link poll is at most one period away. -/
def PollSoon (t : ℕ) (w : Wired) : Prop := w.started = true → w.linkPollAt ≤ t + linkPollMs

theorem PollSoon.mono {t t' : ℕ} {w : Wired} (ht : t ≤ t') (h : PollSoon t w) :
    PollSoon t' w :=
  fun hs => Nat.le_trans (h hs) (Nat.add_le_add_right ht _)

theorem PollSoon.poll {now : ℕ} {w : Wired} (h : PollSoon now w) :
    PollSoon now (w.poll now).1 := by
  intro hs
  rw [poll_started] at hs
  unfold Wired.poll
  split
  · split
    · exact Nat.le_refl _
    · split
      · exact Nat.le_refl _
      · exact h hs
  · exact h hs

theorem PollSoon.step {t : ℕ} {w : Wired} {i : Input} (h : PollSoon t w) (ht : t ≤ i.now) :
    PollSoon i.now (w.step i).1 := by
  have hnow := h.mono ht
  have hturn := w.step_turn i
  generalize w.step i = p at hturn ⊢
  cases hturn with
  | none _ _ | redial _ | stepped _ | stop _ => exact hnow
  | start _ => exact fun _ => Nat.le_add_right _ _
  | wake _ =>
      apply PollSoon.poll
      unfold expire
      split <;> exact hnow
  | @link up _ _ _ =>
      intro _
      exact Nat.le_of_eq (w.link_flags up i.now).2.2.2.1

/-! ## Waiting out a delay -/

/-- Until `due`, the deadline stands and no step is pending. -/
def Waits (due t : ℕ) (w : Wired) : Prop :=
  w.started = true ∧ ((w.stepPending = false ∧ w.watchdogDeadline = some due) ∨ due ≤ t)

/-- The input neither restarts the wait nor ends it early. -/
structure Patient (w : Wired) (i : Input) : Prop where
  noRedial : ¬ w.Receives i (.command .redial)
  noRestore : ∀ up pppIp, w.Receives i (.linkSampled up pppIp) → w.sampleInFlight = true →
    w.restores up = false

theorem Waits.mono {due t t' : ℕ} {w : Wired} (ht : t ≤ t') (h : Waits due t w) :
    Waits due t' w :=
  ⟨h.1, h.2.imp id (fun hd => Nat.le_trans hd ht)⟩

theorem Waits.wake {due now : ℕ} {w : Wired} (h : Waits due now w) :
    Waits due now ((w.expire now).poll now).1 := by
  unfold Waits
  rw [poll_started, poll_stepPending, poll_watchdogDeadline]
  obtain ⟨hstarted, hwait⟩ := h
  unfold expire
  split
  · rename_i hdue
    refine ⟨hstarted, .inr ?_⟩
    rcases hwait with ⟨-, hline⟩ | hpast
    · simpa [hline] using hdue
    · exact hpast
  · exact ⟨hstarted, hwait⟩

theorem Waits.step {due t : ℕ} {w : Wired} {i : Input} (h : Waits due t w)
    (ht : t ≤ i.now) (hp : w.Patient i) (hst : ∀ st, ¬ w.Receives i (.watchdogStepped st)) :
    Waits due i.now (w.step i).1 := by
  have hnow := h.mono ht
  have hturn := w.step_turn i
  generalize w.step i = p at hturn ⊢
  cases hturn with
  | none _ _ => exact hnow
  | start hidle => simp [h.1] at hidle
  | wake _ => exact hnow.wake
  | redial hr => exact absurd hr hp.noRedial
  | @link up pppIp hr hwait =>
      unfold Wired.link
      rw [if_neg (by simp [hp.noRestore up pppIp hr hwait])]
      exact ⟨h.1, hnow.2.imp (fun hw => ⟨rfl, hw.2⟩) id⟩
  | stepped hr => exact absurd hr (hst _)
  | stop _ => exact hnow

/-- A patient step of the watchdog is due. -/
theorem Waits.due_of_step {due t : ℕ} {w : Wired} {i : Input} (h : Waits due t w)
    (ht : t ≤ i.now) (hp : w.Patient i) (hemit : .stepWatchdog ∈ (w.step i).2) :
    due ≤ i.now := by
  have hturn := w.step_turn i
  generalize w.step i = p at hturn hemit
  cases hturn with
  | none _ _ => simp at hemit
  | start _ => simp at hemit
  | wake _ =>
      rcases (w.expire i.now).poll_effects i.now with hfx | hfx <;> simp [hfx] at hemit
  | redial hr => exact absurd hr hp.noRedial
  | @link up pppIp hr hwait =>
      unfold Wired.link at hemit
      rw [if_neg (by simp [hp.noRestore up pppIp hr hwait])] at hemit
      rcases h.2 with ⟨hidle, -⟩ | hpast
      · simp only [hidle, Bool.false_eq_true, if_false] at hemit
        split at hemit <;> simp at hemit
      · exact Nat.le_trans hpast ht
  | stepped _ => simp at hemit
  | stop _ => simp at hemit

end Wired

namespace Supervisor

def wired (s : Supervisor) : Wired :=
  { started := s.started, stopped := s.stopped, ethLink := s.ethLink
    linkSampleSeen := s.linkSampleSeen, sampleInFlight := s.sampleInFlight
    stepPending := s.stepPending, watchdogDeadline := s.watchdogDeadline
    linkPollAt := s.linkPollAt }

/-! ## The supervisor refines the wired guard -/

/-- What a handler shows to the wired side. -/
def shown (p : Supervisor × List Effect) : Wired × List Effect :=
  (p.1.wired, p.2.filter Effect.wired)

theorem handleStarted_shown (s : Supervisor) (now wall : ℕ) :
    shown (s.handleStarted now wall) =
      ({ s.wired with started := true, watchdogDeadline := some now, linkPollAt := now }, []) := by
  unfold handleStarted
  dsimp only
  split <;> rfl

theorem expireDeadline_wired (s : Supervisor) (now : ℕ) :
    (s.expireDeadline now).wired = s.wired.expire now := by
  unfold expireDeadline Wired.expire
  rw [apply_ite wired]
  rfl

theorem pollLink_shown (s : Supervisor) (now : ℕ) :
    shown (s.pollLink now) = s.wired.poll now := by
  unfold pollLink Wired.poll
  simp only [apply_ite shown]
  rfl

theorem wakeWireless_shown (s : Supervisor) (now : ℕ) :
    shown (s.wakeWireless now) = (s.wired, []) := by
  unfold wakeWireless
  split
  · split <;> rfl
  · rfl

theorem handleWake_shown (s : Supervisor) (now : ℕ) :
    shown (s.handleWake now) = (s.wired.expire now).poll now := by
  have hw : shown (s.wakeWired now) = (s.wired.expire now).poll now :=
    s.expireDeadline_wired now ▸ (s.expireDeadline now).pollLink_shown now
  have hl := (s.wakeWired now).1.wakeWireless_shown now
  rw [← hw]
  refine Prod.ext (congrArg (·.1) hl) ?_
  have hnone : ((s.wakeWired now).1.wakeWireless now).2.filter Effect.wired = [] :=
    congrArg (·.2) hl
  simp only [shown, handleWake, List.filter_append, hnone, List.append_nil]

theorem applyLink_of_restored {s : Supervisor} {next : Option Bool} (now wall : ℕ)
    (hold : s.ethLink = some false) (hnext : next ≠ some false) :
    ∃ s', s.applyLink next now wall =
        (s', [.setWatchdogLink next, .requestRedial, .stepWatchdog]) ∧
      s'.wired = { s.wired with ethLink := next, watchdogDeadline := none
                                stepPending := false, linkPollAt := now + linkPollMs } := by
  unfold applyLink
  dsimp only
  rw [if_pos (by rw [hold]; exact hnext), if_neg hnext, if_pos hold]
  exact ⟨_, rfl, rfl⟩

theorem applyLink_of_not_restored {s : Supervisor} {next : Option Bool} (now wall : ℕ)
    (h : ¬ (s.ethLink = some false ∧ next ≠ some false)) :
    ∃ s', s.applyLink next now wall =
        (s', if next ≠ s.ethLink then [.setWatchdogLink next] else []) ∧
      s'.wired = { s.wired with ethLink := next, linkPollAt := now + linkPollMs } := by
  unfold applyLink
  dsimp only
  split
  · split
    · exact ⟨_, rfl, rfl⟩
    · rename_i hnext
      rw [if_neg (fun hold => h ⟨hold, hnext⟩)]
      exact ⟨_, rfl, rfl⟩
  · rename_i hsame
    rw [not_not] at hsame
    exact ⟨_, rfl, by rw [hsame]; rfl⟩

theorem handleLinkSampled_shown (s : Supervisor) (up : Option Bool)
    (pppIp : Option String) (now wall : ℕ) :
    shown (s.handleLinkSampled up pppIp now wall) =
      if s.sampleInFlight then s.wired.link up now else (s.wired, []) := by
  unfold handleLinkSampled
  cases hwait : s.sampleInFlight with
  | false => rfl
  | true =>
      simp only [Bool.not_true, Bool.false_eq_true, if_false, if_true]
      have hnext : s.wired.nextLink up = s.nextLink up := rfl
      have hold : s.wired.ethLink = s.ethLink := rfl
      have hwaits : s.wired.stepPending = s.stepPending := rfl
      simp only [Wired.link, Wired.restores, hnext, hold, hwaits]
      by_cases hr : s.ethLink = some false ∧ s.nextLink up ≠ some false
      · obtain ⟨s', happly, hs'⟩ := @applyLink_of_restored
          { s with sampleInFlight := false, pppIp, linkSampleSeen := true }
          (s.nextLink up) now wall hr.1 hr.2
        have hpend : s'.stepPending = false := congrArg Wired.stepPending hs'
        have hne : s.nextLink up ≠ s.ethLink := by rw [hr.1]; exact hr.2
        rw [happly, if_neg (by simp [hpend]), if_pos (by simp [hr]), if_pos hne]
        exact Prod.ext hs' rfl
      · obtain ⟨s', happly, hs'⟩ := @applyLink_of_not_restored
          { s with sampleInFlight := false, pppIp, linkSampleSeen := true }
          (s.nextLink up) now wall hr
        have hpend : s'.stepPending = s.stepPending := congrArg Wired.stepPending hs'
        have hfx : (if s.nextLink up ≠ s.ethLink then
            [Effect.setWatchdogLink (s.nextLink up)] else []).filter Effect.wired =
            if s.nextLink up ≠ s.ethLink then [.setWatchdogLink (s.nextLink up)] else [] := by
          split <;> rfl
        have hrest : (decide (s.ethLink = some false) &&
            decide (s.nextLink up ≠ some false)) = false := by simpa using hr
        rw [happly]
        simp only [hpend, hrest, Bool.false_eq_true, if_false]
        cases hp : s.stepPending with
        | false =>
            refine Prod.ext (hs'.trans ?_) hfx
            simp [wired, hp]
        | true =>
            refine Prod.ext ?_ ?_
            · exact congrArg (fun w : Wired => { w with stepPending := false }) hs'
            · exact (List.filter_append _ _).trans (by rw [hfx]; rfl)

theorem maybeNotify_wired (l : NotificationLedger) (key : ToastKey)
    (title body : String) (now : ℕ) :
    (l.maybeNotify key title body now).2.filter Effect.wired = [] := by
  rw [List.filter_eq_nil_iff]
  intro e he
  simp [NotificationLedger.mem_maybeNotify he, Effect.wired]

theorem handleWatchdogStepped_shown (s : Supervisor) (st : WatchdogStep) (now : ℕ) :
    shown (s.handleWatchdogStepped st now) =
      ({ s.wired with stepPending := false
                      watchdogDeadline := some (satAdd now (durationMs st.delay)) }, []) := by
  unfold handleWatchdogStepped
  dsimp only
  split
  all_goals first
    | rfl
    | (split
       · exact Prod.ext rfl (maybeNotify_wired _ _ _ _ _)
       · rfl)

theorem handleHeartbeat_shown (s : Supervisor) (status : HeartbeatStatus) (now : ℕ) :
    shown (s.handleHeartbeat status now) = (s.wired, []) := by
  cases status with
  | error e => exact Prod.ext rfl (maybeNotify_wired _ _ _ _ _)
  | _ => rfl

theorem handleAction_shown (s : Supervisor) (action : Action) (nowSecs wall : ℕ) :
    (s.handleAction action nowSecs wall).1.wired = s.wired ∧
      (s.handleAction action nowSecs wall).2.1.filter Effect.wired = [] := by
  unfold handleAction
  split
  · exact ⟨rfl, rfl⟩
  · split <;> exact ⟨rfl, rfl⟩
  · exact ⟨rfl, rfl⟩
  · split
    · exact ⟨rfl, rfl⟩
    · split
      · exact ⟨rfl, rfl⟩
      · split
        · exact ⟨rfl, rfl⟩
        · split <;> exact ⟨rfl, rfl⟩
  · split
    · exact ⟨rfl, rfl⟩
    · split <;> exact ⟨rfl, rfl⟩

theorem Pressed.wired {effects : List Effect} (h : Pressed effects) :
    effects.filter Effect.wired = [] := by
  cases h <;> rfl

theorem joinTimeout_wired (s : Supervisor) (now wall : ℕ) :
    (s.joinTimeout now wall).wired = s.wired := by
  unfold joinTimeout
  split <;> rfl

theorem handleWirelessSampled_shown (s : Supervisor) (sample : WirelessSample)
    (now wall : ℕ) : shown (s.handleWirelessSampled sample now wall) = (s.wired, []) := by
  unfold handleWirelessSampled
  split
  · rfl
  · split
    · rfl
    · rename_i brain _
      unfold decideSample
      generalize (brain.setMode s.mode).decide (s.world sample now) = p
      obtain ⟨b', action⟩ := p
      obtain ⟨hw, hf⟩ := handleAction_shown (s.observed sample b') action (now / 1000) wall
      dsimp only
      split
      · refine Prod.ext ((joinTimeout_wired _ _ _).trans hw) ?_
        exact (List.filter_append _ _).trans (by rw [hf, (updateMetric_pressed _).wired]; rfl)
      · exact Prod.ext hw hf

theorem new_wired (cfg : Config) :
    (new cfg).wired = ⟨false, false, none, false, false, false, none, u64Max⟩ := by
  unfold new
  dsimp only
  split
  · split <;> rfl
  · rfl

theorem new_inv (cfg : Config) : (new cfg).wired.Inv := by
  rw [new_wired]
  exact ⟨by simp, by simp⟩

section Refinement

variable [SerdeJson]

theorem handle_shown {s : Supervisor} {i : Input} (hs : s.started = true)
    (hr : s.stopped = false) :
    shown (s.handle i.now i.wall i.event) = s.wired.step i := by
  have hh : s.wired.handled i.event = true := by
    simp [Wired.handled, wired, hs, hr]
  have hstarted : s.wired.started = true := hs
  obtain ⟨now, wall, event⟩ := i
  simp only [Wired.step, hh, Bool.not_true, Bool.false_eq_true, if_false]
  cases event with
  | started => simp only [hstarted, if_true]; rfl
  | wake => exact s.handleWake_shown now
  | command cmd => cases cmd <;> rfl
  | linkSampled up pppIp => exact s.handleLinkSampled_shown up pppIp now wall
  | watchdogStepped st => exact s.handleWatchdogStepped_shown st now
  | wirelessSampled sample => exact s.handleWirelessSampled_shown sample now wall
  | associateFinished res =>
      simp only [handle, handleAssociateFinished]
      split <;> rfl
  | portalFinished attempt =>
      simp only [handle, handlePortalFinished]
      split <;> rfl
  | wlanProbeFinished verdict =>
      simp only [handle, handleProbeFinished]
      split
      · rfl
      · split <;> rfl
  | heartbeat status => exact s.handleHeartbeat_shown status now
  | notifyResult key delivered => rfl
  | wirelessDied =>
      simp only [handle, handleWirelessDied]
      split
      · rfl
      · split <;> rfl
  | stop =>
      simp only [handle, handleStop]
      split
      · split <;> rfl
      · rfl

/-- **Refinement.** One call of `Supervisor::on` is, on the wired side, one step
of the wired guard. -/
theorem step_wired (s : Supervisor) (i : Input) :
    (s.step i).1.wired = (s.wired.step i).1 ∧
      (s.step i).2.effects.filter Effect.wired = (s.wired.step i).2 := by
  have hd : shown (s.dispatch i.now i.wall i.event) = s.wired.step i := by
    rcases s.dispatch_cases i.now i.wall i.event with ⟨hn, h⟩ | ⟨hs, he, h⟩ | ⟨hs, hr, h⟩
    · rw [h, Wired.step, if_pos]
      · rfl
      · change (!s.handled i.event) = true
        simp [hn]
    · have hidle : s.wired.started = false := hs
      rw [h, handleStarted_shown]
      simp [Wired.step, Wired.handled, hidle, he]
    · rw [h, handle_shown hs hr]
  obtain ⟨snap, hstate⟩ := s.step_state i
  rw [hstate, step_effects, ← hd]
  exact ⟨rfl, rfl⟩

theorem step_inv {s : Supervisor} (h : s.wired.Inv) (i : Input) : (s.step i).1.wired.Inv := by
  rw [(s.step_wired i).1]
  exact h.step i

theorem after_inv (cfg : Config) (is : List Input) : (after cfg is).wired.Inv :=
  Machine.final_induction (I := fun s : Supervisor => s.wired.Inv) (fun _ i h => step_inv h i)
    (new_inv cfg) is

end Refinement

end Supervisor

end GdutNet
