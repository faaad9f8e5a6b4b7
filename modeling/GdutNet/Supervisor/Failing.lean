import GdutNet.Supervisor.Toasts

/-!
# The failing clock

The toast for a redial that keeps failing waits ten minutes. The clock it reads
is started by the first report in `Backoff` or `AuthFail`, a step that found the
cable out among them, and is taken back by a report in `Connected` only. Whether
the cable is out is asked once more when the toast is due, and of that moment.
-/

namespace GdutNet

namespace SessionView

def failing (v : SessionView) : Bool :=
  match v.status with
  | .backoff | .authFail => true
  | .connected | .idle | .dialing => false

def cableOut (v : SessionView) : Bool := v.lastDropReason = some "Ethernet link down"

/-- Dialed, and failed. -/
def redialFailed (v : SessionView) : Bool := v.failing && !v.cableOut

/-- A report between two dials, as every step of the watchdog leaves it. -/
def settled (v : SessionView) : Bool :=
  match v.status with
  | .idle | .dialing => false
  | .connected | .backoff | .authFail => true

theorem failing_of_not_connected {v : SessionView} (h : v.settled = true)
    (hne : v.status ≠ .connected) : v.failing = true := by
  unfold settled at h
  unfold failing
  cases hs : v.status with
  | connected => exact absurd hs hne
  | backoff | authFail => rfl
  | idle | dialing => simp [hs] at h

end SessionView

namespace Supervisor

open Machine (Since)

/-- The session that a step hands to `handle_watchdog_stepped`. -/
def report (r : Record) : Option SessionView :=
  match r.input.event with
  | .watchdogStepped step => if r.pre.handled r.input.event then some step.session else none
  | _ => none

theorem report_eq_some {r : Record} {v : SessionView} :
    report r = some v ↔
      ∃ step, r.pre.Receives r.input (.watchdogStepped step) ∧ step.session = v := by
  unfold report Receives
  split
  · rename_i step hev
    rw [hev]
    constructor
    · intro h
      rw [Option.ite_none_right_eq_some, Option.some.injEq] at h
      exact ⟨step, ⟨rfl, h.1⟩, h.2⟩
    · rintro ⟨step', ⟨heq, hh⟩, rfl⟩
      cases heq
      rw [if_pos hh]
  · rename_i hno
    simp only [reduceCtorEq, false_iff, not_exists, not_and]
    rintro step ⟨hev, -⟩
    exact absurd hev (hno step)

/-- `failing_since_ms` after a report. -/
def failingAfter (since : Option ℕ) (now : ℕ) (v : SessionView) : Option ℕ :=
  match v.status with
  | .backoff | .authFail => some (since.getD now)
  | .connected => none
  | .idle | .dialing => since

/-! ## What is said of a run -/

/-- The redial has failed for ten minutes at `t`: a failure was reported that long
ago, and nothing else has been reported since. -/
def FailedFor (t : ℕ) (past : List Record) : Prop :=
  Since
    (fun p => (∃ v ∈ report p, v.redialFailed = true) ∧
      p.input.now + redialFailingToastAfterMs ≤ t)
    (fun p => ∀ v ∈ report p, v.redialFailed = true) past

/-- The input would raise the toast in state `s`: the report is a failure, the
cable is in, the clock has run for ten minutes and the throttle lets it pass. -/
structure ToastDue (s : Supervisor) (i : Input) (step : WatchdogStep) : Prop where
  receives : s.Receives i (.watchdogStepped step)
  failed : step.session.redialFailed = true
  cable : s.ethLink ≠ some false
  clock : redialFailingToastAfterMs ≤ i.now - s.failingSinceMs.getD i.now
  answered : .redialFailing ∉ s.notifications.inFlight
  window : s.notifications.throttled .redialFailing i.now = false

/-- The cable has been back for ten minutes at `t`: a cable-out report that no
session has followed is followed by a report that old. -/
def CableBack (t : ℕ) (past : List Record) : Prop :=
  ∀ older c mid, past = older ++ c :: mid →
    (∃ v ∈ report c, v.failing = true ∧ v.cableOut = true) →
    (∀ p ∈ mid, ∀ v ∈ report p, v.status ≠ .connected) →
    ∃ p ∈ mid, (report p).isSome = true ∧ p.input.now + redialFailingToastAfterMs ≤ t

theorem handleWatchdogStepped_failingSince (s : Supervisor) (step : WatchdogStep) (now : ℕ) :
    (s.handleWatchdogStepped step now).1.failingSinceMs =
      failingAfter s.failingSinceMs now step.session := by
  unfold handleWatchdogStepped failingAfter
  cases hstatus : step.session.status with
  | backoff | authFail =>
      simp only [hstatus]
      split <;> rfl
  | connected | idle | dialing => simp only [hstatus]

theorem toasted_maybeNotify {l : NotificationLedger} {key : ToastKey} {title body : String}
    {now : ℕ} : toasted (l.maybeNotify key title body now).2 key ↔
      key ∉ l.inFlight ∧ l.throttled key now = false := by
  unfold NotificationLedger.maybeNotify
  split
  · rename_i hheld
    rw [Bool.or_eq_true, decide_eq_true_eq] at hheld
    constructor
    · exact fun h => absurd h (not_toasted_nil key)
    · rintro ⟨hfree, hopen⟩
      rcases hheld with hwait | hthrottled
      · exact absurd hwait hfree
      · rw [hopen] at hthrottled
        cases hthrottled
  · rename_i hfree
    simp only [Bool.or_eq_true, decide_eq_true_eq, not_or, Bool.not_eq_true] at hfree
    exact ⟨fun _ => hfree, fun _ => ⟨title, body, List.mem_singleton_self _⟩⟩

theorem handleWatchdogStepped_toasted (s : Supervisor) (step : WatchdogStep) (now : ℕ) :
    toasted (s.handleWatchdogStepped step now).2 .redialFailing ↔
      step.session.redialFailed = true ∧ s.ethLink ≠ some false ∧
      redialFailingToastAfterMs ≤ now - s.failingSinceMs.getD now ∧
      .redialFailing ∉ s.notifications.inFlight ∧
      s.notifications.throttled .redialFailing now = false := by
  unfold handleWatchdogStepped SessionView.redialFailed SessionView.failing
  cases hstatus : step.session.status with
  | backoff | authFail =>
      simp only [hstatus]
      split
      · rename_i hdue
        simp only [Bool.and_eq_true, decide_eq_true_eq, Bool.not_eq_true', Bool.or_eq_false_iff,
          decide_eq_false_iff_not] at hdue
        obtain ⟨hclock, hcable, hreason⟩ := hdue
        rw [toasted_maybeNotify]
        simp [SessionView.cableOut, hclock, hcable, hreason]
      · rename_i hdue
        simp only [Bool.and_eq_true, decide_eq_true_eq, Bool.not_eq_true', Bool.or_eq_false_iff,
          decide_eq_false_iff_not] at hdue
        constructor
        · exact fun h => absurd h (not_toasted_nil _)
        · rintro ⟨hfailed, hcable, hclock, -⟩
          simp only [SessionView.cableOut, Bool.true_and, Bool.not_eq_true',
            decide_eq_false_iff_not] at hfailed
          exact absurd ⟨hclock, hcable, hfailed⟩ hdue
  | connected | idle | dialing =>
      simp only [hstatus]
      constructor
      · exact fun h => absurd h (not_toasted_nil _)
      · rintro ⟨hfailed, -⟩
        simp at hfailed

/-- The clock shows the time of a failing report, and no session has been reported
since. -/
def FailingSince (past : List Record) (s : Supervisor) : Prop :=
  ∀ t ∈ s.failingSinceMs,
    Since (fun p => (∃ v ∈ report p, v.failing = true) ∧ p.input.now = t)
      (fun p => ∀ v ∈ report p, v.failing = true) past

/-- Every report the input carries is of a settled session. -/
def Settled (i : Input) : Prop :=
  ∀ step, i.event = .watchdogStepped step → step.session.settled = true

theorem settled_report {r : Record} (h : Settled r.input) {v : SessionView}
    (hv : v ∈ report r) : v.settled = true := by
  obtain ⟨step, hrec, rfl⟩ := report_eq_some.mp hv
  exact h step hrec.1

/-- Ten minutes of failures are ten minutes with the cable back. -/
theorem FailedFor.cableBack {t : ℕ} {past : List Record} {r : Record}
    (h : FailedFor t (past ++ [r])) (hr : t < r.input.now + redialFailingToastAfterMs) :
    CableBack t past := by
  obtain ⟨older, p, mid, hpast, ⟨⟨v, hv, hfailed⟩, hold⟩, hmid⟩ := h
  intro older' c mid' hsplit hout hstays
  obtain ⟨w, hw, -, hcable⟩ := hout
  have hnot : ∀ u ∈ report c, u.redialFailed = true → False := by
    intro u hu hred
    rw [Option.mem_unique hu hw] at hred
    simp [SessionView.redialFailed, hcable] at hred
  have htwo : older ++ p :: mid = older' ++ c :: (mid' ++ [r]) := by
    rw [← hpast, hsplit]
    simp
  rcases Machine.split_cases htwo with rfl | hafter | hbefore
  · exact (hnot v hv hfailed).elim
  · exact (hnot w hw (hmid c hafter w hw)).elim
  · rcases List.mem_append.mp hbefore with hbefore | hlast
    · exact ⟨p, hbefore, by rw [hv]; rfl, hold⟩
    · rw [List.mem_singleton.mp hlast] at hold
      omega

theorem CableBack.failedFor {t since : ℕ} {past : List Record} (h : CableBack t past)
    (hclock : Since (fun p => (∃ v ∈ report p, v.failing = true) ∧ p.input.now = since)
      (fun p => ∀ v ∈ report p, v.failing = true) past)
    (hsince : since + redialFailingToastAfterMs ≤ t) : FailedFor t past := by
  obtain ⟨older, f, mid, rfl, ⟨⟨v, hv, hfailing⟩, rfl⟩, hmid⟩ := hclock
  have hfails : ∀ p ∈ f :: mid, ∀ w ∈ report p, w.failing = true := by
    intro p hp w hw
    rcases List.mem_cons.mp hp with rfl | hp
    · rwa [Option.mem_unique hw hv]
    · exact hmid p hp w hw
  let out : Record → Prop := fun c => ∃ w ∈ report c, w.failing = true ∧ w.cableOut = true
  -- a failing report without the cable in it is a failure
  have hred : ∀ p ∈ f :: mid, ¬ out p → ∀ w ∈ report p, w.redialFailed = true := by
    intro p hp hin w hw
    have hcable : w.cableOut = false := by
      rw [← Bool.not_eq_true]
      exact fun hcable => hin ⟨w, hw, hfails p hp w hw, hcable⟩
    simp [SessionView.redialFailed, hfails p hp w hw, hcable]
  by_cases hout : ∃ c ∈ f :: mid, out c
  · obtain ⟨c, hc, hcout⟩ := hout
    obtain ⟨before, c, after, hsplit, hcout, hafter⟩ := Since.of_mem hc hcout
    have hmem : ∀ p ∈ after, p ∈ f :: mid := fun p hp => by rw [hsplit]; simp [hp]
    obtain ⟨p, hp, hsome, hold⟩ := h (older ++ before) c after (by rw [hsplit]; simp) hcout
      (fun p hp w hw hconn => by
        have := hfails p (hmem p hp) w hw
        simp [SessionView.failing, hconn] at this)
    obtain ⟨w, hw⟩ := Option.isSome_iff_exists.mp hsome
    obtain ⟨front, back, rfl⟩ := List.append_of_mem hp
    refine ⟨older ++ before ++ c :: front, p, back, by rw [hsplit]; simp,
      ⟨⟨w, hw, hred p (hmem p hp) (hafter p hp) w hw⟩, hold⟩, ?_⟩
    intro q hq
    have hq : q ∈ front ++ p :: back := by simp [hq]
    exact hred q (hmem q hq) (hafter q hq)
  · push Not at hout
    refine ⟨older, f, mid, rfl, ⟨⟨v, hv, ?_⟩, hsince⟩, ?_⟩
    · exact hred f List.mem_cons_self (hout f List.mem_cons_self) v hv
    · intro p hp
      have hp := List.mem_cons_of_mem f hp
      exact hred p hp (hout p hp)

section Steps

variable [SerdeJson] {s : Supervisor} {i : Input}

theorem handle_failingSince (hne : ∀ step, i.event ≠ .watchdogStepped step) :
    (s.handle i.now i.wall i.event).1.failingSinceMs = s.failingSinceMs := by
  cases hev : i.event with
  | started => rfl
  | wake =>
      obtain ⟨deadline, pending, sample, poll, wlan, tick, h⟩ := s.handleWake_writes i.now
      change (s.handleWake i.now).1.failingSinceMs = _
      rw [h]
  | command cmd => cases cmd <;> rfl
  | linkSampled up pppIp =>
      obtain ⟨link, seen, pending, deadline, poll, ip, log, h⟩ :=
        s.handleLinkSampled_writes up pppIp i.now i.wall
      change (s.handleLinkSampled up pppIp i.now i.wall).1.failingSinceMs = _
      rw [h]
  | watchdogStepped step => exact absurd hev (hne step)
  | wirelessSampled sample =>
      obtain ⟨log, brain, verdict, join, associating, authing, probing, sampling, wlan, ip, h⟩ :=
        s.handleWirelessSampled_writes sample i.now i.wall
      change (s.handleWirelessSampled sample i.now i.wall).1.failingSinceMs = _
      rw [h]
  | associateFinished res =>
      simp only [handle, handleAssociateFinished]
      split <;> rfl
  | portalFinished attempt =>
      simp only [handle, handlePortalFinished]
      split <;> rfl
  | wlanProbeFinished verdict =>
      simp only [handle, handleProbeFinished]
      split
      · rfl
      · split <;> rfl
  | heartbeat status => rfl
  | notifyResult key delivered => rfl
  | wirelessDied =>
      simp only [handle, handleWirelessDied]
      split
      · rfl
      · split <;> rfl
  | stop =>
      simp only [handle, handleStop]
      split
      · split <;> rfl
      · rfl

/-- **One step of the failing clock.** -/
theorem step_failingSince (s : Supervisor) (i : Input) :
    (s.step i).1.failingSinceMs = match report (Machine.stepAt step s i) with
      | some v => failingAfter s.failingSinceMs i.now v
      | none => s.failingSinceMs := by
  obtain ⟨snap, hstate⟩ := s.step_state i
  rw [hstate]
  change (s.dispatch i.now i.wall i.event).1.failingSinceMs = _
  rcases s.dispatch_cases i.now i.wall i.event with ⟨hn, h⟩ | ⟨hs, he, h⟩ | ⟨hs, hr, h⟩
  · have hnone : report (Machine.stepAt step s i) = none := by
      unfold report
      split
      · rw [Machine.stepAt_pre, Machine.stepAt_input, hn]
        rfl
      · rfl
    rw [h, hnone]
  · have hnone : report (Machine.stepAt step s i) = none := by
      simp [report, he]
    rw [h, hnone]
    unfold handleStarted
    dsimp only
    split <;> rfl
  · rw [h]
    by_cases hstep : ∃ st, i.event = .watchdogStepped st
    · obtain ⟨st, hev⟩ := hstep
      have hsome : report (Machine.stepAt step s i) = some st.session :=
        report_eq_some.mpr ⟨st, ⟨hev, by simp [handled, hs, hr]⟩, rfl⟩
      rw [hsome, hev]
      exact s.handleWatchdogStepped_failingSince st i.now
    · push Not at hstep
      have hnone : report (Machine.stepAt step s i) = none := by
        rw [Option.eq_none_iff_forall_ne_some]
        intro v hv
        obtain ⟨st, hrec, -⟩ := report_eq_some.mp hv
        exact hstep st hrec.1
      rw [hnone, handle_failingSince hstep]

/-- **When the toast is sent.** -/
theorem toasted_redialFailing_iff (s : Supervisor) (i : Input) :
    toasted (s.step i).2.effects .redialFailing ↔ ∃ step, s.ToastDue i step := by
  have hdue (st : WatchdogStep) (hrec : s.Receives i (.watchdogStepped st)) :
      toasted (s.step i).2.effects .redialFailing ↔ s.ToastDue i st := by
    obtain ⟨snap, -, heffects⟩ := step_of_receives hrec (by simp)
    rw [heffects]
    change toasted (s.handleWatchdogStepped st i.now).2 _ ↔ _
    rw [handleWatchdogStepped_toasted]
    constructor
    · rintro ⟨hfailed, hcable, hclock, hanswered, hwindow⟩
      exact ⟨hrec, hfailed, hcable, hclock, hanswered, hwindow⟩
    · rintro ⟨-, hfailed, hcable, hclock, hanswered, hwindow⟩
      exact ⟨hfailed, hcable, hclock, hanswered, hwindow⟩
  constructor
  · intro htoasted
    have hsent : ∃ st, s.Receives i (.watchdogStepped st) := by
      rw [step_effects] at htoasted
      rcases s.dispatch_cases i.now i.wall i.event with ⟨hn, h⟩ | ⟨hs, he, h⟩ | ⟨hs, hr, h⟩
      · rw [h] at htoasted
        exact absurd htoasted (not_toasted_nil _)
      · rw [h] at htoasted
        obtain ⟨title, body, hmem⟩ := htoasted
        rcases s.handleStarted_effects i.now i.wall with heff | heff <;> simp [heff] at hmem
      · rw [h] at htoasted
        have hemits := s.handle_emits i.now i.wall i.event
        cases hev : i.event with
        | watchdogStepped st => exact ⟨st, hev, by simp [handled, hs, hr]⟩
        | heartbeat status =>
            rw [hev] at htoasted
            obtain ⟨title, body, hmem⟩ := htoasted
            cases status with
            | error e => cases NotificationLedger.mem_maybeNotify hmem
            | off | running => cases hmem
        | _ => exact absurd htoasted (hemits.not_toasted (by rw [hev]; rfl) _)
    obtain ⟨st, hrec⟩ := hsent
    exact ⟨st, (hdue st hrec).mp htoasted⟩
  · rintro ⟨st, hst⟩
    exact (hdue st hst.receives).mpr hst

/-! ## Over a run -/

theorem failingSince_step {past : List Record} {s : Supervisor} {i : Input}
    (h : FailingSince past s) (hi : Settled i) :
    FailingSince (past ++ [Machine.stepAt step s i]) (s.step i).1 := by
  intro t ht
  rw [step_failingSince] at ht
  cases hreport : report (Machine.stepAt step s i) with
  | none =>
      rw [hreport] at ht
      exact (h t ht).snoc (by simp [hreport])
  | some v =>
      have hsettled := settled_report (r := Machine.stepAt step s i) hi hreport
      simp only [hreport, failingAfter] at ht
      have hfails (hfailing : v.failing = true) (hsome : some (s.failingSinceMs.getD i.now) = some t) :
          Since (fun p => (∃ v ∈ report p, v.failing = true) ∧ p.input.now = t)
            (fun p => ∀ v ∈ report p, v.failing = true)
            (past ++ [Machine.stepAt step s i]) := by
        cases hclock : s.failingSinceMs with
        | none =>
            rw [hclock, Option.getD_none, Option.some.injEq] at hsome
            exact .of_last ⟨⟨v, hreport, hfailing⟩, hsome⟩
        | some since =>
            rw [hclock, Option.getD_some, Option.some.injEq] at hsome
            refine (h t (by rw [hclock, hsome]; rfl)).snoc ?_
            intro w hw
            rw [hreport] at hw
            cases hw
            exact hfailing
      cases hstatus : v.status with
      | backoff | authFail =>
          simp only [hstatus] at ht
          exact hfails (by simp [SessionView.failing, hstatus]) ht
      | connected =>
          simp only [hstatus] at ht
          cases ht
      | idle | dialing => simp [SessionView.settled, hstatus] at hsettled

theorem after_failingSince (cfg : Config) {is : List Input} (his : ∀ i ∈ is, Settled i) :
    FailingSince (history cfg is) (after cfg is) := by
  refine Machine.history_induction (A := fun r => Settled r.input) (I := FailingSince) ?_
    (fun past t i h hi => failingSince_step h hi) is ?_
  · intro t ht
    have hnew : (new cfg).failingSinceMs = none := by
      unfold new
      dsimp only
      split
      · split <;> rfl
      · rfl
    rw [hnew] at ht
    cases ht
  · intro r hr
    obtain ⟨xs, i, ys, rfl, rfl⟩ := Machine.exists_split_of_mem hr
    exact his i (by simp)

/-- **A due toast speaks of ten minutes of failures exactly if the cable has been
back that long.** -/
theorem failedFor_iff_cableBack (cfg : Config) {is : List Input} (his : ∀ i ∈ is, Settled i)
    {i : Input} {st : WatchdogStep} (hdue : (after cfg is).ToastDue i st) :
    FailedFor i.now (history cfg is ++ [Machine.stepAt step (after cfg is) i]) ↔
      CableBack i.now (history cfg is) := by
  have hpos : 0 < redialFailingToastAfterMs := by decide
  constructor
  · exact fun h => h.cableBack (by rw [Machine.stepAt_input]; omega)
  · intro hback
    have hclock := hdue.clock
    cases hsince : (after cfg is).failingSinceMs with
    | none =>
        rw [hsince, Option.getD_none] at hclock
        omega
    | some since =>
        rw [hsince, Option.getD_some] at hclock
        refine (hback.failedFor (after_failingSince cfg his since hsince) (by omega)).snoc ?_
        intro v hv
        obtain ⟨st', hrec, rfl⟩ := report_eq_some.mp hv
        have heq := hrec.1.symm.trans hdue.receives.1
        cases heq
        exact hdue.failed

end Steps

end Supervisor

end GdutNet
