import GdutNet.Machine.Trace
import GdutNet.Watchdog

/-!
# The session over whole runs

A run of the wired guard is a sequence of calls from the shell; the dialer and
the prober answer as they like. `Ran` lists everything one `run_once` can do.
From it: a live session is always hung up before the next dial, the published
phase and time agree, and a session that stays up is dropped only on request or
after two bad probes.
-/

namespace GdutNet

inductive WatchdogCall where
  | runOnce (a : Answers)
  | requestRedial
  | setEthLink (up : Option Bool)

/-- What a call leaves behind: the suggested delay of a step and the calls it
made outside. -/
structure WatchdogOut where
  delay : Option Duration := none
  calls : List DialerCall := []

namespace Watchdog

def step (wd : Watchdog) : WatchdogCall → Watchdog × WatchdogOut
  | .runOnce a => ((wd.runOnce a).1, ⟨some (wd.runOnce a).2.1, (wd.runOnce a).2.2⟩)
  | .requestRedial => (wd.requestRedial, {})
  | .setEthLink up => (wd.setEthLink up, {})

abbrev Record : Type := Machine.Step Watchdog WatchdogCall WatchdogOut

def history (cfg : WatchdogCfg) (calls : List WatchdogCall) : List Record :=
  Machine.trace step (new cfg) calls

def after (cfg : WatchdogCfg) (calls : List WatchdogCall) : Watchdog :=
  Machine.final step (new cfg) calls

/-! ## Everything one step can do -/

/-- The ways of `do_dial`; `wd'` is the guard after it. -/
inductive Dialed (wd : Watchdog) (a : Answers) :
    Watchdog → Duration → List DialerCall → Prop
  | gated (hlink : wd.ethLink = some false) (reason : Option String) :
      Dialed wd a { wd with phase := .backoff, lastDropReason := reason } linkDownRetry []
  | up (hdial : a.dial = .ok ()) (dials : ℕ) :
      Dialed wd a { wd with
        phase := .connected, dialCalls := dials, since := some a.wall, probeFails := 0
        stableFor := .zero } wd.cfg.probeInterval [.dial]
  | denied (hdial : a.dial ≠ .ok ()) (dials : ℕ) (reason : Option String) :
      Dialed wd a { wd with phase := .authFail, dialCalls := dials, lastDropReason := reason }
        wd.cfg.authFailDelay [.dial]
  | failed (hdial : a.dial ≠ .ok ()) (dials attempts : ℕ) (reason : Option String) :
      Dialed wd a { wd with
        phase := .backoff, dialCalls := dials, backoff := wd.backoff.nextDelay.1, attempts
        lastDropReason := reason } wd.backoff.nextDelay.2 [.dial]

theorem doDial_dialed (wd : Watchdog) (a : Answers) :
    wd.Dialed a (wd.doDial a).1 (wd.doDial a).2.1 (wd.doDial a).2.2 := by
  unfold doDial
  split
  · rename_i hlink
    exact .gated hlink _
  · dsimp only
    split
    · rename_i hdial
      exact .up hdial _
    · rename_i hdial
      exact .denied (by simp [hdial]) _ _
    · rename_i hdial
      exact .failed (by simp [hdial]) _ _ _

/-- The ways of `run_once`. A live session is looked at, or dropped and dialed
again; without one the step dials. -/
inductive Ran (wd : Watchdog) (a : Answers) :
    Watchdog → Duration → List DialerCall → Prop
  | alive {backoff : Backoff} {attempts : ℕ} (hphase : wd.phase = .connected)
      (hup : a.isConnected = true) (hprobe : a.probe = .alive)
      (hrequest : wd.redialRequested = false) (hbackoff : backoff.min = wd.backoff.min) :
      Ran wd a { wd with
        probeFails := 0, stableFor := wd.stableFor.add wd.cfg.probeInterval, backoff, attempts }
        wd.cfg.probeInterval [.isConnected, .probe]
  | suspect (hphase : wd.phase = .connected) (hup : a.isConnected = true)
      (hprobe : a.probe ≠ .alive) (hrequest : wd.redialRequested = false)
      (hfirst : wd.probeFails = 0) :
      Ran wd a { wd with probeFails := wd.probeFails + 1 } (wd.cfg.probeInterval.div 4)
        [.isConnected, .probe]
  | dropped (looks : List DialerCall) (reason : String) {wd' : Watchdog} {delay : Duration}
      {calls : List DialerCall} (hlooks : ∀ c ∈ looks, c = .isConnected ∨ c = .probe)
      (hwhy : wd.phase = .connected → wd.redialRequested = true ∨ a.isConnected = false ∨
        (a.probe ≠ .alive ∧ .probe ∈ looks ∧ wd.probeFails ≠ 0))
      (hdialed : Dialed { wd.recordDrop reason with redialRequested := false } a wd' delay calls) :
      Ran wd a wd' delay (looks ++ .hangup :: calls)
  | dialed (looks : List DialerCall) {wd' : Watchdog} {delay : Duration}
      {calls : List DialerCall} (hlooks : ∀ c ∈ looks, c = .isConnected)
      (hphase : wd.phase ≠ .connected)
      (hdialed : Dialed { wd with redialRequested := false } a wd' delay calls) :
      Ran wd a wd' delay (looks ++ calls)

theorem stepConnected_ran {wd : Watchdog} (a : Answers) (hphase : wd.phase = .connected)
    (hrequest : wd.redialRequested = false) :
    wd.Ran a (wd.stepConnected a).1 (wd.stepConnected a).2.1 (wd.stepConnected a).2.2 := by
  have hclear (reason : String) :
      { wd.recordDrop reason with redialRequested := false } = wd.recordDrop reason := by
    simp [recordDrop, ← hrequest]
  unfold stepConnected
  split
  · rename_i hup
    refine .dropped [.isConnected] "RAS session not found" (by simp)
      (fun _ => .inr (.inl (by simpa using hup))) ?_
    rw [hclear]
    exact doDial_dialed _ a
  · rename_i hup
    have hup : a.isConnected = true := by simpa using hup
    split
    · rename_i hprobe
      dsimp only
      split
      · exact .alive hphase hup hprobe hrequest rfl
      · exact .alive hphase hup hprobe hrequest rfl
    · rename_i hprobe
      dsimp only
      split
      · exact .suspect hphase hup hprobe hrequest (by omega)
      · rename_i hfails
        refine .dropped [.isConnected, .probe] ("Probe failed " ++
          toString (wd.probeFails + 1) ++ " times (" ++ a.probe.debug ++ ")") (by simp)
          (fun _ => .inr (.inr ⟨hprobe, by simp, by omega⟩)) ?_
        rw [hclear]
        exact doDial_dialed _ a

theorem runOnce_ran (wd : Watchdog) (a : Answers) :
    wd.Ran a (wd.runOnce a).1 (wd.runOnce a).2.1 (wd.runOnce a).2.2 := by
  unfold runOnce
  split
  · rename_i hrequest
    dsimp only
    split
    · exact .dropped [] "Manual redial" (by simp)
        (fun _ => .inl hrequest) (doDial_dialed _ a)
    · rename_i hphase
      split
      · exact .dropped [.isConnected] "Manual redial" (by simp)
          (fun _ => .inl hrequest) (doDial_dialed _ a)
      · exact .dialed [.isConnected] (by simp) hphase (doDial_dialed _ a)
  · rename_i hrequest
    have hrequest : wd.redialRequested = false := by simpa using hrequest
    split
    · rename_i hphase
      exact stepConnected_ran a hphase hrequest
    · rename_i hphase
      refine .dialed [] (by simp) hphase ?_
      have hclear : { wd with redialRequested := false } = wd := by simp [← hrequest]
      rw [hclear]
      exact doDial_dialed wd a

/-! ## A live session is hung up before the next dial -/

/-- The calls a run made to the dialer and the prober, each with the answers of
its step. -/
def dialerCalls (past : List Record) : List (DialerCall × Answers) :=
  past.flatMap fun r =>
    match r.input with
    | .runOnce a => r.out.calls.map (·, a)
    | _ => []

/-- Whether a session is up after a call; `none` when a dial would lose one. -/
def track (live : Bool) : DialerCall × Answers → Option Bool
  | (.dial, a) => if live then none else some a.dial.isOk
  | (.hangup, _) => some false
  | (.isConnected, _) | (.probe, _) => some live

theorem track_looks {looks : List DialerCall} (a : Answers) (live : Bool)
    (h : ∀ c ∈ looks, c = .isConnected ∨ c = .probe) :
    (looks.map (·, a)).foldlM track live = some live := by
  induction looks with
  | nil => rfl
  | cons c looks ih =>
      rw [List.forall_mem_cons] at h
      rcases h.1 with rfl | rfl
      · simpa [track] using ih h.2
      · simpa [track] using ih h.2

theorem Dialed.track {wd wd' : Watchdog} {a : Answers} {delay : Duration}
    {calls : List DialerCall} (h : wd.Dialed a wd' delay calls) :
    ∃ live, (calls.map (·, a)).foldlM track false = some live ∧
      (live = true → wd'.phase = .connected) := by
  cases h with
  | gated hlink reason => exact ⟨false, rfl, by simp⟩
  | up hdial dials =>
      exact ⟨true, by simp [Watchdog.track, hdial, Except.isOk, Except.toBool], by simp⟩
  | denied hdial dials reason =>
      refine ⟨false, ?_, by simp⟩
      cases hd : a.dial with
      | ok u => exact absurd hd hdial
      | error e => simp [Watchdog.track, hd, Except.isOk, Except.toBool]
  | failed hdial dials attempts reason =>
      refine ⟨false, ?_, by simp⟩
      cases hd : a.dial with
      | ok u => exact absurd hd hdial
      | error e => simp [Watchdog.track, hd, Except.isOk, Except.toBool]

/-- One step never dials over a session that is up, and leaves one up only in
the connected phase. -/
theorem Ran.track {wd wd' : Watchdog} {a : Answers} {delay : Duration}
    {calls : List DialerCall} (h : wd.Ran a wd' delay calls) {live : Bool}
    (hlive : live = true → wd.phase = .connected) :
    ∃ live', (calls.map (·, a)).foldlM track live = some live' ∧
      (live' = true → wd'.phase = .connected) := by
  cases h with
  | alive hphase hup hprobe hrequest hbackoff => exact ⟨live, rfl, fun _ => hphase⟩
  | suspect hphase hup hprobe hrequest hfirst => exact ⟨live, rfl, fun _ => hphase⟩
  | dropped looks reason hlooks hwhy hdialed =>
      obtain ⟨live', hcalls, hlive'⟩ := hdialed.track
      refine ⟨live', ?_, hlive'⟩
      rw [List.map_append, List.foldlM_append, track_looks a live hlooks]
      simpa [Watchdog.track] using hcalls
  | dialed looks hlooks hphase hdialed =>
      obtain ⟨live', hcalls, hlive'⟩ := hdialed.track
      obtain rfl : live = false := by simpa using fun h => hphase (hlive h)
      refine ⟨live', ?_, hlive'⟩
      rw [List.map_append, List.foldlM_append,
        track_looks a false (fun c hc => .inl (hlooks c hc))]
      simpa using hcalls

theorem history_track (cfg : WatchdogCfg) (calls : List WatchdogCall) :
    ∃ live, (dialerCalls (history cfg calls)).foldlM track false = some live ∧
      (live = true → (after cfg calls).phase = .connected) := by
  refine Machine.history_induction (A := fun _ => True)
    (I := fun past wd => ∃ live, (dialerCalls past).foldlM track false = some live ∧
      (live = true → wd.phase = .connected)) ?_ ?_ calls (fun _ _ => trivial)
  · exact ⟨false, rfl, by simp⟩
  · rintro past wd call ⟨live, hpast, hlive⟩ -
    rw [dialerCalls, List.flatMap_append, List.foldlM_append, ← dialerCalls, hpast]
    cases call with
    | runOnce a => simpa [step] using (runOnce_ran wd a).track hlive
    | requestRedial => exact ⟨live, rfl, hlive⟩
    | setEthLink up => exact ⟨live, rfl, hlive⟩

/-- Without a hangup a session that is up stays up. -/
theorem track_stays {ys : List (DialerCall × Answers)} {live : Bool}
    (hys : ∀ e ∈ ys, e.1 ≠ .hangup) (h : ys.foldlM track true = some live) :
    live = true := by
  induction ys with
  | nil => simpa using h.symm
  | cons e ys ih =>
      rw [List.forall_mem_cons] at hys
      obtain ⟨c, a⟩ := e
      cases c with
      | hangup => exact absurd rfl hys.1
      | dial => simp [track] at h
      | isConnected => exact ih hys.2 (by simpa [track] using h)
      | probe => exact ih hys.2 (by simpa [track] using h)

theorem hangup_between_dials {xs ys zs : List (DialerCall × Answers)} {a b : Answers}
    {live : Bool}
    (h : (xs ++ (.dial, a) :: (ys ++ (.dial, b) :: zs)).foldlM track false = some live)
    (ha : a.dial = .ok ()) : ∃ e ∈ ys, e.1 = .hangup := by
  by_contra hno
  push Not at hno
  rw [List.foldlM_append] at h
  obtain ⟨before, hxs, h⟩ := Option.bind_eq_some_iff.mp h
  rw [List.foldlM_cons] at h
  obtain ⟨up, hup, h⟩ := Option.bind_eq_some_iff.mp h
  obtain rfl : up = true := by
    cases before <;> simp_all [track, Except.isOk, Except.toBool]
  rw [List.foldlM_append] at h
  obtain ⟨still, hys, h⟩ := Option.bind_eq_some_iff.mp h
  obtain rfl := track_stays hno hys
  simp [track] at h

end Watchdog

/-! ## The real dialer -/

/-- What the blocking RAS dial comes back with. -/
inductive RasAnswer where
  | session (handle : ℕ)
  | auth
  | other (code : ℕ) (msg : String)
  | joinFailed (e : String)

def RasAnswer.result : RasAnswer → Except DialError ℕ
  | .session handle => .ok handle
  | .auth => .error ⟨.auth, 691, "Authentication failed (691): invalid student ID or password"⟩
  | .other code msg => .error ⟨.transient, code, msg⟩
  | .joinFailed e => .error ⟨.transient, 0, "Dial task join failed: " ++ e⟩

def wedgeRestartAfter : ℕ := 3

/-- The session handle, and the count of dials in a row that found the port
stuck. -/
structure RealDialer where
  session : Option ℕ := none
  wedgeFails : ℕ := 0

namespace RealDialer

/-- The dialer after the dial, its answer, and whether RasMan was restarted. -/
def dial (d : RealDialer) (ras : RasAnswer) : RealDialer × Except DialError Unit × Bool :=
  match ras.result with
  | .ok handle => ({ session := some handle, wedgeFails := 0 }, .ok (), false)
  | .error e =>
      if e.code = 756 || e.code = 813 then
        if wedgeRestartAfter ≤ d.wedgeFails + 1 then
          ({ d with wedgeFails := 0 }, .error e, true)
        else ({ d with wedgeFails := d.wedgeFails + 1 }, .error e, false)
      else ({ d with wedgeFails := 0 }, .error e, false)

def hangup (d : RealDialer) : RealDialer := { d with session := none }

/-- `status` is what RAS says of the stored handle. -/
def isConnected (d : RealDialer) (status : Bool) : Bool := d.session.isSome && status

/-- The dialer after one call of the guard. -/
def perform (ras : RasAnswer) (d : RealDialer) : DialerCall → RealDialer
  | .dial => (d.dial ras).1
  | .hangup => d.hangup
  | .isConnected | .probe => d

/-- The calls of a step, each with the dialer it finds. -/
def entries (ras : RasAnswer) : RealDialer → List DialerCall → List (RealDialer × DialerCall)
  | _, [] => []
  | d, c :: cs => (d, c) :: entries ras (d.perform ras c) cs

theorem dial_session (d : RealDialer) (ras : RasAnswer) (h : d.session = none) :
    (d.dial ras).1.session.isSome = (d.dial ras).2.1.isOk := by
  unfold dial
  split
  · rfl
  · split
    · split <;> simp [h, Except.isOk, Except.toBool]
    · simp [h, Except.isOk, Except.toBool]

/-- What RAS answers does not depend on the dialer's counter or handle. -/
theorem dial_answer (d d' : RealDialer) (ras : RasAnswer) :
    (d.dial ras).2.1 = (d'.dial ras).2.1 := by
  unfold dial
  split
  · rfl
  · split
    · split <;> split <;> rfl
    · rfl

/-- Where the calls never lose a session, each dial finds the handle empty. -/
theorem entries_dial {ras : RasAnswer} {a : Answers} {calls : List DialerCall} {live : Bool} :
    ∀ {d : RealDialer}, a.dial = (d.dial ras).2.1 →
      (calls.map (·, a)).foldlM Watchdog.track d.session.isSome = some live →
      (∀ d', (d', .dial) ∈ entries ras d calls → d'.session = none) ∧
        (calls.foldl (perform ras) d).session.isSome = live := by
  induction calls with
  | nil =>
      intro d _ h
      exact ⟨by simp [entries], by simpa using h⟩
  | cons c calls ih =>
      intro d ha h
      rw [List.map_cons, List.foldlM_cons] at h
      obtain ⟨up, hup, h⟩ := Option.bind_eq_some_iff.mp h
      have hans : a.dial = ((d.perform ras c).dial ras).2.1 := ha.trans (dial_answer _ _ _)
      have hperform : (d.perform ras c).session.isSome = up ∧
          (c = .dial → d.session = none) := by
        cases c with
        | dial =>
            rcases hd : d.session with _ | handle
            · simp only [Watchdog.track, hd] at hup
              refine ⟨?_, fun _ => rfl⟩
              rw [perform, dial_session d ras hd, ← ha]
              simpa using hup
            · simp [Watchdog.track, hd] at hup
        | hangup => exact ⟨by simpa [Watchdog.track, perform, hangup] using hup, by simp⟩
        | isConnected => exact ⟨by simpa [Watchdog.track, perform] using hup, by simp⟩
        | probe => exact ⟨by simpa [Watchdog.track, perform] using hup, by simp⟩
      rw [← hperform.1] at h
      obtain ⟨hentries, hend⟩ := ih hans h
      refine ⟨fun d' hd' => ?_, hend⟩
      rcases List.mem_cons.mp hd' with hd' | hd'
      · obtain ⟨rfl, rfl⟩ := Prod.mk.inj hd'
        exact hperform.2 rfl
      · exact hentries d' hd'

end RealDialer

/-- The guard with the real dialer inside it. -/
structure Guarded where
  wd : Watchdog
  dialer : RealDialer := {}

/-- A step's answers come from RAS, the prober and the wall clock. -/
inductive GuardedCall where
  | runOnce (ras : RasAnswer) (status : Bool) (probe : ProbeVerdict) (wall : ℕ)
  | requestRedial
  | setEthLink (up : Option Bool)

namespace Guarded

def answers (g : Guarded) (ras : RasAnswer) (status : Bool) (probe : ProbeVerdict)
    (wall : ℕ) : Answers where
  dial := (g.dialer.dial ras).2.1
  isConnected := g.dialer.isConnected status
  probe := probe
  wall := wall

def step (g : Guarded) : GuardedCall → Guarded × List (RealDialer × DialerCall)
  | .runOnce ras status probe wall =>
      let (wd, _, calls) := g.wd.runOnce (g.answers ras status probe wall)
      ({ wd, dialer := calls.foldl (RealDialer.perform ras) g.dialer },
        g.dialer.entries ras calls)
  | .requestRedial => ({ g with wd := g.wd.requestRedial }, [])
  | .setEthLink up => ({ g with wd := g.wd.setEthLink up }, [])

/-- A stored handle belongs to the connected phase. -/
def Held (g : Guarded) : Prop := g.dialer.session.isSome = true → g.wd.phase = .connected

theorem step_held {g : Guarded} (h : g.Held) (call : GuardedCall) :
    (g.step call).1.Held ∧ ∀ d, (d, .dial) ∈ (g.step call).2 → d.session = none := by
  cases call with
  | runOnce ras status probe wall =>
      have hran := g.wd.runOnce_ran (g.answers ras status probe wall)
      obtain ⟨live, hcalls, hlive⟩ := hran.track h
      obtain ⟨hentries, hend⟩ := RealDialer.entries_dial rfl hcalls
      exact ⟨fun hup => hlive (hend.symm.trans hup), hentries⟩
  | requestRedial => exact ⟨h, by simp [step]⟩
  | setEthLink up => exact ⟨h, by simp [step]⟩

end Guarded

/-- No dial between a successful dial and the next hangup; with the real dialer
behind the guard, every dial finds the session handle empty. -/
theorem dial_never_over_session (cfg : WatchdogCfg) :
    (∀ (calls : List WatchdogCall) (xs ys zs : List (DialerCall × Answers)) (a b : Answers),
      Watchdog.dialerCalls (Watchdog.history cfg calls) =
        xs ++ (.dial, a) :: (ys ++ (.dial, b) :: zs) →
      a.dial = .ok () → ∃ e ∈ ys, e.1 = .hangup) ∧
    ∀ (calls : List GuardedCall),
      ∀ r ∈ Machine.trace Guarded.step { wd := .new cfg } calls,
        ∀ d, (d, .dial) ∈ r.out → d.session = none := by
  constructor
  · intro calls xs ys zs a b hcalls ha
    obtain ⟨live, hlive, -⟩ := Watchdog.history_track cfg calls
    rw [hcalls] at hlive
    exact Watchdog.hangup_between_dials hlive ha
  · intro calls r hr d hd
    obtain ⟨before, call, _, _, rfl⟩ := Machine.exists_split_of_mem hr
    have hheld : (Machine.final Guarded.step { wd := .new cfg } before).Held :=
      Machine.final_induction (fun g call h => (g.step_held h call).1)
        (fun h => by simp at h) before
    exact (Guarded.step_held hheld call).2 d hd

/-- A redial in a live session: dial, hangup, dial. -/
theorem dial_never_over_session_redial :
    let cfg : WatchdogCfg := ⟨.fromSecs 1, .fromSecs 60, .fromSecs 5, authFailDelay⟩
    let a : Answers := ⟨.ok (), true, .alive, 0⟩
    Watchdog.dialerCalls (Watchdog.history cfg [.runOnce a, .requestRedial, .runOnce a]) =
      [(.dial, a), (.hangup, a), (.dial, a)] ∧
    ∃ e ∈ [((.hangup : DialerCall), a)], e.1 = .hangup := by
  intro cfg a
  exact ⟨rfl, (dial_never_over_session cfg).1 [.runOnce a, .requestRedial, .runOnce a]
    [] [(.hangup, a)] [] a a rfl rfl⟩

namespace Watchdog

/-! ## What holds between calls -/

/-- The guard between two calls. -/
structure Steady (cfg : WatchdogCfg) (wd : Watchdog) : Prop where
  cfg_eq : wd.cfg = cfg
  backoff_min : wd.backoff.min = cfg.redialMin
  not_dialing : wd.phase ≠ .dialing
  since_iff : wd.since.isSome ↔ wd.phase = .connected
  probe_fails : wd.probeFails ≤ 1

/-- The least settings the configuration accepts, and the retry delay after a
refused login. -/
structure Positive (cfg : WatchdogCfg) : Prop where
  probe : (Duration.fromSecs 5).nanos ≤ cfg.probeInterval.nanos
  redial : (Duration.fromSecs 1).nanos ≤ cfg.redialMin.nanos
  auth : 0 < cfg.authFailDelay.nanos

variable {cfg : WatchdogCfg} {wd wd' : Watchdog} {a : Answers} {delay : Duration}
  {calls : List DialerCall}

theorem nextDelay_ge (b : Backoff) : b.min.nanos ≤ b.nextDelay.2.nanos :=
  Nat.le_max_right _ _

theorem Dialed.steady (h : wd.Dialed a wd' delay calls) (hcfg : wd.cfg = cfg)
    (hmin : wd.backoff.min = cfg.redialMin) (hsince : wd.since = none)
    (hfails : wd.probeFails ≤ 1) : wd'.Steady cfg := by
  cases h with
  | gated hlink reason => exact ⟨hcfg, hmin, by simp, by simp [hsince], hfails⟩
  | up hdial dials => exact ⟨hcfg, hmin, by simp, by simp, by simp⟩
  | denied hdial dials reason => exact ⟨hcfg, hmin, by simp, by simp [hsince], hfails⟩
  | failed hdial dials attempts reason =>
      exact ⟨hcfg, hmin, by simp, by simp [hsince], hfails⟩

theorem Dialed.delay_pos (h : wd.Dialed a wd' delay calls) (hpos : Positive cfg)
    (hcfg : wd.cfg = cfg) (hmin : wd.backoff.min = cfg.redialMin) : 0 < delay.nanos := by
  have hprobe := hpos.probe
  have hredial := hpos.redial
  have hauth := hpos.auth
  simp only [Duration.fromSecs] at hprobe hredial
  cases h with
  | gated hlink reason => decide
  | up hdial dials =>
      rw [hcfg]
      omega
  | denied hdial dials reason => rwa [hcfg]
  | failed hdial dials attempts reason =>
      have := nextDelay_ge wd.backoff
      rw [hmin] at this
      omega

theorem Ran.steady (h : wd.Ran a wd' delay calls) (hwd : wd.Steady cfg) : wd'.Steady cfg := by
  cases h with
  | alive hphase hup hprobe hrequest hbackoff =>
      exact ⟨hwd.cfg_eq, hbackoff.trans hwd.backoff_min, hwd.not_dialing, hwd.since_iff, by simp⟩
  | suspect hphase hup hprobe hrequest hfirst =>
      exact ⟨hwd.cfg_eq, hwd.backoff_min, hwd.not_dialing, hwd.since_iff, by simp [hfirst]⟩
  | dropped looks reason hlooks hwhy hdialed =>
      exact hdialed.steady hwd.cfg_eq hwd.backoff_min rfl (Nat.zero_le 1)
  | dialed looks hlooks hphase hdialed =>
      have hsince : wd.since = none := by
        simpa using mt hwd.since_iff.mp hphase
      exact hdialed.steady hwd.cfg_eq hwd.backoff_min hsince hwd.probe_fails

theorem Ran.delay_pos (h : wd.Ran a wd' delay calls) (hpos : Positive cfg)
    (hwd : wd.Steady cfg) : 0 < delay.nanos := by
  have hprobe := hpos.probe
  simp only [Duration.fromSecs] at hprobe
  cases h with
  | alive hphase hup hprobe hrequest hbackoff =>
      rw [hwd.cfg_eq]
      omega
  | suspect hphase hup hprobe hrequest hfirst =>
      rw [hwd.cfg_eq, Duration.div]
      dsimp only
      omega
  | dropped looks reason hlooks hwhy hdialed =>
      exact hdialed.delay_pos hpos hwd.cfg_eq hwd.backoff_min
  | dialed looks hlooks hphase hdialed =>
      exact hdialed.delay_pos hpos hwd.cfg_eq hwd.backoff_min

theorem step_steady (hwd : wd.Steady cfg) (call : WatchdogCall) :
    (wd.step call).1.Steady cfg := by
  cases call with
  | runOnce a => exact (runOnce_ran wd a).steady hwd
  | requestRedial => exact ⟨hwd.1, hwd.2, hwd.3, hwd.4, hwd.5⟩
  | setEthLink up => exact ⟨hwd.1, hwd.2, hwd.3, hwd.4, hwd.5⟩

theorem after_steady (cfg : WatchdogCfg) (calls : List WatchdogCall) :
    (after cfg calls).Steady cfg := by
  have hnew : (new cfg).Steady cfg := ⟨rfl, rfl, by simp [new], by simp [new], by simp [new]⟩
  exact Machine.final_induction (I := Steady cfg) (fun _ call h => step_steady h call) hnew calls

/-! ## Why a session is dropped -/

/-- A step that ends the session it finds. -/
def Drops (r : Record) : Prop :=
  r.pre.phase = .connected ∧ (.hangup ∈ r.out.calls ∨ r.post.phase ≠ .connected)

def Requested (r : Record) : Prop := r.input = .requestRedial

def NoStep (r : Record) : Prop := ∀ a, r.input ≠ .runOnce a

/-- A bad probe of a session that the step keeps. -/
def BadProbe (r : Record) : Prop :=
  ∃ a, r.input = .runOnce a ∧ .probe ∈ r.out.calls ∧ a.probe ≠ .alive ∧
    .hangup ∉ r.out.calls

/-- The session goes on, and no probe finds it alive. -/
def Unproven (r : Record) : Prop :=
  .hangup ∉ r.out.calls ∧ .dial ∉ r.out.calls ∧
    ∀ a, r.input = .runOnce a → .probe ∈ r.out.calls → a.probe ≠ .alive

structure Accounted (past : List Record) (wd : Watchdog) : Prop where
  requested : wd.redialRequested = true → Machine.Since Requested NoStep past
  suspected : wd.phase = .connected → wd.probeFails ≠ 0 →
    Machine.Since BadProbe Unproven past

theorem Dialed.settled (h : wd.Dialed a wd' delay calls) :
    wd'.redialRequested = wd.redialRequested ∧
      (wd'.phase = .connected → wd'.probeFails = 0) := by
  cases h <;> simp

theorem runOnce_accounted (past : List Record) (wd : Watchdog) (a : Answers) :
    Accounted (past ++ [Machine.stepAt step wd (.runOnce a)]) (wd.runOnce a).1 := by
  have hran := runOnce_ran wd a
  have hcalls : (Machine.stepAt step wd (.runOnce a)).out.calls = (wd.runOnce a).2.2 := rfl
  generalize (wd.runOnce a).1 = wd' at hran ⊢
  generalize (wd.runOnce a).2.1 = delay at hran
  generalize (wd.runOnce a).2.2 = calls at hran hcalls
  cases hran with
  | alive hphase hup hprobe hrequest hbackoff =>
      exact ⟨fun hr => by simp [hrequest] at hr, fun _ hfails => by simp at hfails⟩
  | suspect hphase hup hprobe hrequest hfirst =>
      refine ⟨fun hr => by simp [hrequest] at hr, fun _ _ => ?_⟩
      exact .of_last ⟨a, rfl, by simp only [hcalls]; simp, hprobe, by simp only [hcalls]; simp⟩
  | dropped looks reason hlooks hwhy hdialed =>
      obtain ⟨hrequest, hfails⟩ := hdialed.settled
      exact ⟨fun hr => by simp [hrequest] at hr, fun hphase hne => absurd (hfails hphase) hne⟩
  | dialed looks hlooks hphase hdialed =>
      obtain ⟨hrequest, hfails⟩ := hdialed.settled
      exact ⟨fun hr => by simp [hrequest] at hr, fun hphase hne => absurd (hfails hphase) hne⟩

theorem history_accounted (cfg : WatchdogCfg) (calls : List WatchdogCall) :
    Accounted (history cfg calls) (after cfg calls) := by
  refine Machine.history_induction (A := fun _ => True) (I := Accounted) ?_ ?_ calls
    (fun _ _ => trivial)
  · exact ⟨by simp [new], by simp [new]⟩
  · intro past wd call h _
    cases call with
    | runOnce a => exact runOnce_accounted past wd a
    | requestRedial =>
        refine ⟨fun _ => .of_last rfl, fun hphase hfails => ?_⟩
        exact (h.suspected hphase hfails).snoc (by simp [Unproven, step])
    | setEthLink up =>
        refine ⟨fun hr => (h.requested hr).snoc (by simp [NoStep]), fun hphase hfails => ?_⟩
        exact (h.suspected hphase hfails).snoc (by simp [Unproven, step])

/-- The reasons of a step that ends a session. -/
theorem Ran.drop_why (h : wd.Ran a wd' delay calls) (hphase : wd.phase = .connected)
    (hends : .hangup ∈ calls ∨ wd'.phase ≠ .connected) :
    a.isConnected = false ∨ wd.redialRequested = true ∨
      (a.probe ≠ .alive ∧ .probe ∈ calls ∧ wd.probeFails ≠ 0) := by
  cases h with
  | alive hphase hup hprobe hrequest hbackoff => simp [hphase] at hends
  | suspect hphase hup hprobe hrequest hfirst => simp [hphase] at hends
  | dropped looks reason hlooks hwhy hdialed =>
      rcases hwhy hphase with hrequest | hdown | ⟨hprobe, hlook, hfails⟩
      · exact .inr (.inl hrequest)
      · exact .inl hdown
      · exact .inr (.inr ⟨hprobe, List.mem_append_left _ hlook, hfails⟩)
  | dialed looks hlooks hne hdialed => exact absurd hphase hne

end Watchdog

/-- Between calls: not dialing, a time exactly with a session, at most one bad
probe counted, positive delays. A session that RAS still reports is dropped only
on request or by two bad probes with none good between them. -/
theorem watchdog_steady (cfg : WatchdogCfg)
    (hprobe : (Duration.fromSecs 5).nanos ≤ cfg.probeInterval.nanos)
    (hredial : (Duration.fromSecs 1).nanos ≤ cfg.redialMin.nanos)
    (hauth : 0 < cfg.authFailDelay.nanos) (calls : List WatchdogCall) :
    (Watchdog.after cfg calls).phase ≠ .dialing ∧
    ((Watchdog.after cfg calls).since.isSome ↔ (Watchdog.after cfg calls).phase = .connected) ∧
    ((Watchdog.after cfg calls).view.sinceUnix.isSome ↔
      (Watchdog.after cfg calls).view.status = .connected) ∧
    (Watchdog.after cfg calls).probeFails ≤ 1 ∧
    (∀ r ∈ Watchdog.history cfg calls, ∀ d, r.out.delay = some d → 0 < d.nanos) ∧
    ∀ past r rest, Watchdog.history cfg calls = past ++ r :: rest → Watchdog.Drops r →
      ∃ a, r.input = .runOnce a ∧ (a.isConnected = false ∨
        Machine.Since Watchdog.Requested Watchdog.NoStep past ∨
        (a.probe ≠ .alive ∧ .probe ∈ r.out.calls ∧
          Machine.Since Watchdog.BadProbe Watchdog.Unproven past)) := by
  have hsteady := Watchdog.after_steady cfg
  have hview (p : Phase) : p.status = .connected ↔ p = .connected := by cases p <;> decide
  refine ⟨(hsteady calls).not_dialing, (hsteady calls).since_iff, ?_,
    (hsteady calls).probe_fails, ?_, ?_⟩
  · exact (hsteady calls).since_iff.trans (hview _).symm
  · intro r hr d hd
    obtain ⟨before, call, _, _, rfl⟩ := Machine.exists_split_of_mem hr
    cases call with
    | runOnce a =>
        cases hd
        exact (Watchdog.runOnce_ran _ a).delay_pos ⟨hprobe, hredial, hauth⟩ (hsteady before)
    | requestRedial => cases hd
    | setEthLink up => cases hd
  · intro past r rest hsplit hdrops
    obtain ⟨before, call, _, _, rfl, rfl, _⟩ := Machine.trace_split hsplit
    have hpast := Watchdog.history_accounted cfg before
    obtain ⟨hphase, hends⟩ := hdrops
    cases call with
    | requestRedial => simp_all [Watchdog.step, Watchdog.requestRedial]
    | setEthLink up => simp_all [Watchdog.step, Watchdog.setEthLink]
    | runOnce a =>
        refine ⟨a, rfl, ?_⟩
        rcases (Watchdog.runOnce_ran _ a).drop_why hphase hends with
          hdown | hreq | ⟨hbad, hlook, hfails⟩
        · exact .inl hdown
        · exact .inr (.inl (hpast.requested hreq))
        · exact .inr (.inr ⟨hbad, hlook, hpast.suspected hphase hfails⟩)

/-- A session found bad twice is dropped and dialed again. -/
theorem watchdog_steady_two_bad_probes :
    let cfg : WatchdogCfg := ⟨.fromSecs 1, .fromSecs 60, .fromSecs 5, authFailDelay⟩
    let up : WatchdogCall := .runOnce ⟨.ok (), true, .alive, 0⟩
    let bad : WatchdogCall := .runOnce ⟨.ok (), true, .kicked, 5⟩
    (Watchdog.after cfg [up, bad, bad]).dialCalls = 2 ∧
      (Watchdog.after cfg [up, bad, bad]).probeFails ≤ 1 := by
  intro cfg up bad
  exact ⟨rfl, (watchdog_steady cfg (by decide) (by decide) (by decide)
    [up, bad, bad]).2.2.2.1⟩

end GdutNet
