import GdutNet.Runtime.Lanes
import GdutNet.Supervisor.Failing
import GdutNet.Watchdog.Session

/-!
# The redial toast of the composed service

The core of a run of the lanes is a run of the supervisor, on the events that
`drain` feeds it. Among these a report of the watchdog is always of a session that
is up or waits for its next dial, so the failing clock means what it says, up to
the cable: the time the cable was out is counted as well.
-/

namespace GdutNet

/-- A step ends with a session, or waits. -/
theorem Watchdog.runOnce_settled (wd : Watchdog) (a : Answers) :
    (wd.runOnce a).1.view.settled = true := by
  have hdialed {wd wd' : Watchdog} {delay : Duration} {calls : List DialerCall}
      (h : Dialed wd a wd' delay calls) : wd'.view.settled = true := by
    cases h <;> rfl
  have hran := wd.runOnce_ran a
  generalize (wd.runOnce a).1 = wd' at hran ⊢
  generalize (wd.runOnce a).2.1 = delay at hran
  generalize (wd.runOnce a).2.2 = calls at hran
  cases hran with
  | alive hphase hup hprobe hrequest hbackoff =>
      simp [view, SessionView.settled, hphase, Phase.status]
  | suspect hphase hup hprobe hrequest hfirst =>
      simp [view, SessionView.settled, hphase, Phase.status]
  | dropped looks reason hlooks hwhy h => exact hdialed h
  | dialed looks hlooks hphase h => exact hdialed h

/-- What an event says of the session is settled. -/
def Event.Settled (event : Event) : Prop :=
  ∀ step, event = .watchdogStepped step → step.session.settled = true

theorem execMain_settled {wd : Watchdog} {o : Outside} {effect : Effect} {event : Event}
    (h : event ∈ (execMain wd o effect).2.1) : event.Settled := by
  rintro step rfl
  cases effect with
  | stepWatchdog =>
      cases h
      exact wd.runOnce_settled o.answers
  | _ => cases h

namespace Lanes

/-- The input that a turn of `drain` feeds to the core. -/
def fed (r : Record) : Option Input :=
  match r.input, r.pre.pending, r.pre.shell.queue with
  | .pop now wall, [], event :: _ => some ⟨now, wall, event⟩
  | _, _, _ => none

/-- Everything that waits for the core is settled. -/
def QueueSettled (l : Lanes) : Prop := ∀ event ∈ l.shell.queue, event.Settled

theorem perform_queueSettled {sh : Shell} {o : Outside} {effect : Effect} {rest : List Effect}
    (h : ∀ event ∈ sh.queue, event.Settled) : QueueSettled ⟨(sh.perform o effect).1, rest⟩ := by
  unfold QueueSettled Shell.perform
  split
  · intro event hmem
    rcases List.mem_append.mp hmem with hmem | hmem
    · exact h event hmem
    · exact execMain_settled (Option.mem_toList.mp hmem)
  · split
    · exact h
    · exact h

section Runs

variable [SerdeJson]

/-- The core's own run within a run of the service. -/
def inputs (cfg : Config) (acts : List Act) : List Input := (history cfg acts).filterMap fed

theorem step_core (l : Lanes) (a : Act) :
    (l.step a).1.shell.core = match fed (Machine.stepAt step l a) with
      | some i => (l.shell.core.step i).1
      | none => l.shell.core := by
  unfold fed
  rw [Machine.stepAt_input, Machine.stepAt_pre]
  cases a with
  | select event =>
      simp only [step]
      split <;> rfl
  | stop =>
      simp only [step]
      split <;> rfl
  | pop now wall =>
      cases hpending : l.pending with
      | nil =>
          cases hqueue : l.shell.queue with
          | nil => simp only [step, hpending, hqueue]
          | cons event rest =>
              simp only [step, hpending, hqueue]
              rfl
      | cons effect rest => simp only [step, hpending]
  | run o =>
      simp only [step]
      split
      · split
        · rfl
        · exact (l.shell.perform_core o _).1
      · rfl
  | take => rfl

theorem core_after (cfg : Config) (acts : List Act) :
    (after cfg acts).shell.core = Supervisor.after cfg (inputs cfg acts) := by
  refine Machine.history_induction (A := fun _ => True)
    (I := fun past l => l.shell.core = Supervisor.after cfg (past.filterMap fed)) rfl ?_ acts
    (fun _ _ => trivial)
  intro past l a h _
  rw [step_core, List.filterMap_append]
  cases hfed : fed (Machine.stepAt step l a) with
  | none => simpa [hfed] using h
  | some i =>
      simp only [List.filterMap_cons, hfed, List.filterMap_nil]
      rw [Supervisor.after, Machine.final_snoc, ← Supervisor.after, h]

theorem queueSettled_step {l : Lanes} (h : QueueSettled l) (a : Act) :
    QueueSettled (l.step a).1 := by
  have hwent := l.step_went a
  generalize (l.step a).1 = l' at hwent ⊢
  cases hwent with
  | still => exact h
  | select hidle hsource =>
      intro event hmem
      rw [List.mem_singleton.mp hmem]
      rintro step rfl
      cases hsource
  | stop hidle =>
      intro event hmem
      rw [List.mem_singleton.mp hmem]
      rintro step hstop
      cases hstop
  | pop hact hpending hqueue =>
      intro event hmem
      exact h event (by rw [hqueue]; exact List.mem_cons_of_mem _ hmem)
  | run hpending hfree => exact perform_queueSettled h
  | take => exact h

theorem inputs_settled (cfg : Config) (acts : List Act) :
    ∀ i ∈ inputs cfg acts, Supervisor.Settled i := by
  intro i hi
  obtain ⟨r, hr, hfed⟩ := List.mem_filterMap.mp hi
  obtain ⟨before, a, after', rfl, rfl⟩ := Machine.exists_split_of_mem hr
  have hqueue : QueueSettled (after cfg before) := by
    refine Machine.final_induction (I := QueueSettled) (fun _ a h => queueSettled_step h a) ?_ before
    intro event hmem
    rw [List.mem_singleton.mp hmem]
    rintro step hstarted
    cases hstarted
  unfold fed at hfed
  split at hfed
  · rename_i event rest hact hpending hq
    obtain rfl := Option.some.inj hfed
    have hq : (after cfg before).shell.queue = event :: rest := hq
    exact hqueue event (by rw [hq]; exact List.mem_cons_self)
  · cases hfed

/-- **The redial toast.** In a run of the service every toast speaks of ten minutes
of failed redials if and only if each one that is due finds the cable back for ten
minutes. -/
theorem redial_toast_iff_cable_back (cfg : Config) (acts : List Act) :
    (∀ past r rest, Supervisor.history cfg (inputs cfg acts) = past ++ r :: rest →
      Supervisor.toasted r.out.effects .redialFailing →
        Supervisor.FailedFor r.input.now (past ++ [r])) ↔
    ∀ past r rest, Supervisor.history cfg (inputs cfg acts) = past ++ r :: rest →
      (∃ step, r.pre.ToastDue r.input step) → Supervisor.CableBack r.input.now past := by
  have hturn : ∀ past r rest, Supervisor.history cfg (inputs cfg acts) = past ++ r :: rest →
      (Supervisor.toasted r.out.effects .redialFailing ↔ ∃ step, r.pre.ToastDue r.input step) ∧
      ((∃ step, r.pre.ToastDue r.input step) →
        (Supervisor.FailedFor r.input.now (past ++ [r]) ↔
          Supervisor.CableBack r.input.now past)) := by
    intro past r rest hsplit
    obtain ⟨xs, i, ys, hinputs, rfl, rfl, -⟩ := Supervisor.history_split hsplit
    have hxs : ∀ i ∈ xs, Supervisor.Settled i := fun j hj =>
      inputs_settled cfg acts j (by rw [hinputs]; simp [hj])
    refine ⟨Supervisor.toasted_redialFailing_iff _ i, ?_⟩
    rintro ⟨step, hdue⟩
    exact Supervisor.failedFor_iff_cableBack cfg hxs hdue
  constructor
  · intro h past r rest hsplit hdue
    obtain ⟨htoasted, hiff⟩ := hturn past r rest hsplit
    exact (hiff hdue).mp (h past r rest hsplit (htoasted.mpr hdue))
  · intro h past r rest hsplit htoast
    obtain ⟨htoasted, hiff⟩ := hturn past r rest hsplit
    have hdue := htoasted.mp htoast
    exact (hiff hdue).mpr (h past r rest hsplit hdue)

end Runs

/-! ## Ten minutes without the cable -/

def wiredCfg : Config := { wireless := { enabled := false } }

/-- The cable is out. -/
def unplugged : Outside := { Shell.cableIn with link := some false }

/-- The cable is in, and the dial fails. -/
def dialFails : Outside :=
  { Shell.cableIn with answers := ⟨.error ⟨.transient, 651, "modem"⟩, false, .linkDown, 0⟩ }

/-- A wake at `now`, with room for every effect of the two reactions it leads to. -/
def wakeActs (now : ℕ) (o : Outside) : List Act :=
  [.select .wake, .pop now 0, .run o, .pop now 0, .run o, .run o, .run o, .pop now 0]

/-- The machine sleeps for ten minutes with the cable out; when it wakes, the cable
is in and the first dial fails. -/
def replugActs : List Act := .pop 0 0 :: (wakeActs 0 unplugged ++ wakeActs 600000 dialFails)

/-- The core's run. -/
def replugRun : List Supervisor.Record :=
  @Supervisor.history replyJson wiredCfg (@inputs replyJson wiredCfg replugActs)

theorem replugRun_ne_nil : replugRun ≠ [] := List.ne_nil_of_length_pos (by decide +kernel)

/-- The toast of that dial speaks of ten minutes of failed redials. -/
theorem replug_toasts_at_once :
    ¬ ∀ past r rest,
      @Supervisor.history replyJson wiredCfg (@inputs replyJson wiredCfg replugActs) =
        past ++ r :: rest →
      Supervisor.toasted r.out.effects .redialFailing →
        Supervisor.FailedFor r.input.now (past ++ [r]) := by
  intro h
  have htoast : Supervisor.toasted (replugRun.getLast replugRun_ne_nil).out.effects
      .redialFailing :=
    ⟨"gdut-net network error", Supervisor.redialFailingBody 10 1, by decide +kernel⟩
  have hnow : (replugRun.getLast replugRun_ne_nil).input.now = 600000 := by decide +kernel
  have hsplit := replugRun.dropLast_append_getLast replugRun_ne_nil
  -- ten minutes earlier only the cable was reported
  have hearly : ∀ p ∈ replugRun, p.input.now = 0 →
      (Supervisor.report p).all (fun v => !v.redialFailed) = true :=
    forall_mem_of_all (by decide +kernel)
  have hfailed := h _ _ [] hsplit.symm htoast
  rw [hsplit, hnow] at hfailed
  obtain ⟨older, p, mid, hpast, ⟨⟨v, hv, hred⟩, hold⟩, -⟩ := hfailed
  have hlate : redialFailingToastAfterMs = 600000 := rfl
  have hquiet := hearly p (by rw [hpast]; simp) (by omega)
  rw [Option.mem_def.mp hv] at hquiet
  simp [hred] at hquiet

end Lanes

end GdutNet
