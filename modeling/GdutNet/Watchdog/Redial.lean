import GdutNet.Watchdog.Session
import Mathlib.Data.List.DropRight

/-!
# The redial counters over whole runs

A failed dial is counted twice: in the published `attempts` and in the backoff
that sets the delay. `Redialed` and `Proven` list what a step does to the two
and to the time a session has been found alive. Over a run they never part, a
delay is a function of the count before it, and only a session that has been
found alive for `stableResetAfter` sets them back.
-/

namespace GdutNet

namespace Watchdog

/-- The step dialed, and the dial succeeded. -/
def dialsUp (r : Record) : Bool :=
  match r.input with
  | .runOnce a => .dial ∈ r.out.calls && a.dial.isOk
  | _ => false

/-- The step dialed, and the dial failed for a passing reason. -/
def failsDial (r : Record) : Bool :=
  match r.input with
  | .runOnce a => .dial ∈ r.out.calls && match a.dial with
      | .error e => e.kind = .transient
      | .ok _ => false
  | _ => false

/-- The step probed the session and found it alive. -/
def provesAlive (r : Record) : Bool :=
  match r.input with
  | .runOnce a => .probe ∈ r.out.calls && a.probe = .alive
  | _ => false

/-- The probe intervals of the `Alive` probes since the last successful dial, in
nanoseconds. -/
def aliveFor (cfg : WatchdogCfg) (past : List Record) : ℕ :=
  (past.rtakeWhile (fun r => !dialsUp r)).countP provesAlive * cfg.probeInterval.nanos

theorem aliveFor_nil (cfg : WatchdogCfg) : aliveFor cfg [] = 0 := by
  simp [aliveFor]

/-- A successful dial starts over; any other step keeps what there was, an
`Alive` probe adds its interval. -/
theorem aliveFor_snoc (cfg : WatchdogCfg) (past : List Record) (r : Record) :
    aliveFor cfg (past ++ [r]) =
      if dialsUp r then 0
      else aliveFor cfg past + if provesAlive r then cfg.probeInterval.nanos else 0 := by
  unfold aliveFor
  rw [List.rtakeWhile_concat]
  cases hup : dialsUp r with
  | true => simp
  | false =>
      cases hprove : provesAlive r with
      | true => simp [List.countP_append, hprove, Nat.succ_mul]
      | false => simp [List.countP_append, hprove]

/-! ## One step -/

/-- What dialing does to the counters. -/
inductive Redialed (wd : Watchdog) (a : Answers) :
    Watchdog → Duration → List DialerCall → Prop
  | kept {wd' : Watchdog} {delay : Duration} {calls : List DialerCall}
      (hcfg : wd'.cfg = wd.cfg) (hattempts : wd'.attempts = wd.attempts)
      (hbackoff : wd'.backoff = wd.backoff)
      (hstable : wd'.stableFor = wd.stableFor ∨ wd'.stableFor = .zero)
      (hup : .dial ∈ calls → a.dial.isOk = true → wd'.stableFor = .zero)
      (hfine : .dial ∈ calls → ∀ e, a.dial = .error e → e.kind = .auth) :
      Redialed wd a wd' delay calls
  | failed {wd' : Watchdog} {calls : List DialerCall} {e : DialError}
      (hcfg : wd'.cfg = wd.cfg) (hdial : a.dial = .error e)
      (hattempts : wd'.attempts = min (wd.attempts + 1) u32Max)
      (hbackoff : wd'.backoff = wd.backoff.nextDelay.1)
      (hstable : wd'.stableFor = wd.stableFor ∨ wd'.stableFor = .zero) :
      Redialed wd a wd' wd.backoff.nextDelay.2 calls

theorem doDial_redialed (wd : Watchdog) (a : Answers) :
    wd.Redialed a (wd.doDial a).1 (wd.doDial a).2.1 (wd.doDial a).2.2 := by
  unfold doDial
  split
  · exact .kept rfl rfl rfl (.inl rfl) (by simp) (by simp)
  · dsimp only
    split
    · rename_i hdial
      exact .kept rfl rfl rfl (.inr rfl) (fun _ _ => rfl) (by simp [hdial])
    · rename_i hdial
      refine .kept rfl rfl rfl (.inl rfl) ?_ ?_
      · simp [hdial, Except.isOk, Except.toBool]
      · intro _ e he
        cases hdial.symm.trans he
        rfl
    · rename_i hdial
      exact .failed rfl hdial rfl rfl (.inl rfl)

/-- Looks and hangups before the dial, and a drop of the session, change nothing
but the stable time. -/
theorem Redialed.of_before {wd₀ wd wd' : Watchdog} {a : Answers} {delay : Duration}
    {calls : List DialerCall} (h : wd₀.Redialed a wd' delay calls) (looks : List DialerCall)
    (hcfg : wd₀.cfg = wd.cfg) (hattempts : wd₀.attempts = wd.attempts)
    (hbackoff : wd₀.backoff = wd.backoff)
    (hstable : wd₀.stableFor = wd.stableFor ∨ wd₀.stableFor = .zero)
    (hlooks : .dial ∉ looks) : wd.Redialed a wd' delay (looks ++ calls) := by
  have hmem : .dial ∈ looks ++ calls → .dial ∈ calls :=
    fun hd => (List.mem_append.mp hd).resolve_left hlooks
  have hkeep (hs : wd'.stableFor = wd₀.stableFor ∨ wd'.stableFor = .zero) :
      wd'.stableFor = wd.stableFor ∨ wd'.stableFor = .zero := by
    rcases hs with hs | hs
    · rw [hs]
      exact hstable
    · exact .inr hs
  cases h with
  | kept hcfg' hattempts' hbackoff' hstable' hup hfine =>
      exact .kept (hcfg'.trans hcfg) (hattempts'.trans hattempts) (hbackoff'.trans hbackoff)
        (hkeep hstable') (fun hd => hup (hmem hd)) (fun hd => hfine (hmem hd))
  | failed hcfg' hdial hattempts' hbackoff' hstable' =>
      rw [hattempts] at hattempts'
      rw [hbackoff] at hbackoff'
      rw [hbackoff]
      exact .failed (hcfg'.trans hcfg) hdial hattempts' hbackoff' (hkeep hstable')

/-- What an `Alive` probe does to them. -/
structure Proven (wd : Watchdog) (a : Answers) (wd' : Watchdog) (calls : List DialerCall) :
    Prop where
  calls_eq : calls = [.isConnected, .probe]
  alive : a.probe = .alive
  cfg_eq : wd'.cfg = wd.cfg
  stable : wd'.stableFor = wd.stableFor.add wd.cfg.probeInterval
  counts : (wd'.attempts = wd.attempts ∧ wd'.backoff = wd.backoff) ∨
    (stableResetAfter.nanos ≤ wd'.stableFor.nanos ∧ wd'.attempts = 0 ∧
      wd'.backoff = wd.backoff.reset)

theorem hangupAndDial_redialed (wd : Watchdog) (reason : String) (a : Answers) :
    wd.Redialed a (wd.hangupAndDial reason a).1 (wd.hangupAndDial reason a).2.1
      (wd.hangupAndDial reason a).2.2 :=
  (doDial_redialed (wd.recordDrop reason) a).of_before [.hangup] rfl rfl rfl
    (.inr rfl) (by simp)

theorem stepConnected_counted (wd : Watchdog) (a : Answers) :
    wd.Redialed a (wd.stepConnected a).1 (wd.stepConnected a).2.1 (wd.stepConnected a).2.2 ∨
      wd.Proven a (wd.stepConnected a).1 (wd.stepConnected a).2.2 := by
  unfold stepConnected
  split
  · exact .inl ((hangupAndDial_redialed wd _ a).of_before [.isConnected] rfl rfl rfl
      (.inl rfl) (by simp))
  · split
    · rename_i hprobe
      right
      dsimp only
      split
      · rename_i hreset
        simp only [Bool.and_eq_true, decide_eq_true_eq] at hreset
        exact ⟨rfl, hprobe, rfl, rfl, .inr ⟨hreset.1, rfl, rfl⟩⟩
      · exact ⟨rfl, hprobe, rfl, rfl, .inl ⟨rfl, rfl⟩⟩
    · left
      dsimp only
      split
      · exact .kept rfl rfl rfl (.inl rfl) (by simp) (by simp)
      · exact (hangupAndDial_redialed _ _ a).of_before [.isConnected, .probe]
          rfl rfl rfl (.inl rfl) (by simp)

theorem runOnce_counted (wd : Watchdog) (a : Answers) :
    wd.Redialed a (wd.runOnce a).1 (wd.runOnce a).2.1 (wd.runOnce a).2.2 ∨
      wd.Proven a (wd.runOnce a).1 (wd.runOnce a).2.2 := by
  unfold runOnce
  split
  · left
    dsimp only
    split
    · exact (hangupAndDial_redialed _ _ a).of_before [] rfl rfl rfl (.inl rfl) (by simp)
    · split
      · exact (hangupAndDial_redialed _ _ a).of_before [.isConnected] rfl rfl rfl
          (.inl rfl) (by simp)
      · exact (doDial_redialed _ a).of_before [.isConnected] rfl rfl rfl (.inl rfl)
          (by simp)
  · split
    · exact stepConnected_counted wd a
    · exact .inl (doDial_redialed wd a)

/-! ## Over a run -/

/-- The counters between calls: one count, in two places, and no more stable time
than the probes have shown. -/
structure Reckoned (cfg : WatchdogCfg) (past : List Record) (wd : Watchdog) : Prop where
  cfg_eq : wd.cfg = cfg
  backoff_eq : wd.backoff = ⟨cfg.redialMin, cfg.redialMax, wd.attempts⟩
  stable_le : wd.stableFor.nanos ≤ aliveFor cfg past
  attempts_le : wd.attempts ≤ u32Max

variable {cfg : WatchdogCfg} {past : List Record} {wd : Watchdog} {a : Answers}

/-- What a step of the run is seen as from outside, when it dials. -/
theorem Redialed.reckoned
    (h : wd.Redialed a (wd.runOnce a).1 (wd.runOnce a).2.1 (wd.runOnce a).2.2)
    (hwd : Reckoned cfg past wd) :
    Reckoned cfg (past ++ [Machine.stepAt step wd (.runOnce a)]) (wd.runOnce a).1 := by
  have hgrow : ∀ t, t ≤ aliveFor cfg past → dialsUp (Machine.stepAt step wd (.runOnce a)) = false →
      t ≤ aliveFor cfg (past ++ [Machine.stepAt step wd (.runOnce a)]) := by
    intro t ht hup
    rw [aliveFor_snoc, hup]
    exact ht.trans (Nat.le_add_right _ _)
  have hstable_le : ∀ s : Duration, s = wd.stableFor ∨ s = .zero → s.nanos ≤ aliveFor cfg past := by
    rintro s (rfl | rfl)
    · exact hwd.stable_le
    · exact Nat.zero_le _
  have hseen : dialsUp (Machine.stepAt step wd (.runOnce a)) =
      (.dial ∈ (wd.runOnce a).2.2 && a.dial.isOk : Bool) := rfl
  generalize Machine.stepAt step wd (.runOnce a) = r at hgrow hseen ⊢
  generalize (wd.runOnce a).1 = wd' at h ⊢
  generalize (wd.runOnce a).2.1 = delay at h
  generalize (wd.runOnce a).2.2 = calls at h hseen
  cases h with
  | kept hcfg hattempts hbackoff hstable hup hfine =>
      refine ⟨hcfg.trans hwd.cfg_eq, by rw [hbackoff, hattempts, hwd.backoff_eq], ?_,
        hattempts.trans_le hwd.attempts_le⟩
      cases hd : dialsUp r with
      | false => exact hgrow _ (hstable_le _ hstable) hd
      | true =>
          rw [hseen, Bool.and_eq_true, decide_eq_true_eq] at hd
          rw [hup hd.1 hd.2]
          exact Nat.zero_le _
  | failed hcfg hdial hattempts hbackoff hstable =>
      refine ⟨hcfg.trans hwd.cfg_eq, ?_, hgrow _ (hstable_le _ hstable) ?_,
        hattempts.trans_le (Nat.min_le_right _ _)⟩
      · rw [hbackoff, hattempts, hwd.backoff_eq]
        rfl
      · rw [hseen, hdial]
        simp [Except.isOk, Except.toBool]

theorem Proven.reckoned (h : wd.Proven a (wd.runOnce a).1 (wd.runOnce a).2.2)
    (hwd : Reckoned cfg past wd) :
    provesAlive (Machine.stepAt step wd (.runOnce a)) = true ∧
    Reckoned cfg (past ++ [Machine.stepAt step wd (.runOnce a)]) (wd.runOnce a).1 := by
  have hproves : provesAlive (Machine.stepAt step wd (.runOnce a)) = true := by
    simp [provesAlive, step, h.calls_eq, h.alive]
  have hup : dialsUp (Machine.stepAt step wd (.runOnce a)) = false := by
    simp [dialsUp, step, h.calls_eq]
  refine ⟨hproves, h.cfg_eq.trans hwd.cfg_eq, ?_, ?_, ?_⟩
  · rcases h.counts with ⟨hattempts, hbackoff⟩ | ⟨-, hattempts, hbackoff⟩
    · rw [hbackoff, hattempts, hwd.backoff_eq]
    · rw [hbackoff, hattempts, hwd.backoff_eq]
      rfl
  · rw [aliveFor_snoc, hup, hproves, h.stable, hwd.cfg_eq]
    exact Nat.add_le_add_right hwd.stable_le _
  · rcases h.counts with ⟨hattempts, -⟩ | ⟨-, hattempts, -⟩
    · exact hattempts.trans_le hwd.attempts_le
    · exact hattempts.trans_le (Nat.zero_le _)

theorem step_reckoned (hwd : Reckoned cfg past wd) (call : WatchdogCall) :
    Reckoned cfg (past ++ [Machine.stepAt step wd call]) (wd.step call).1 := by
  cases call with
  | runOnce a =>
      rcases runOnce_counted wd a with h | h
      · exact h.reckoned hwd
      · exact (h.reckoned hwd).2
  | requestRedial =>
      refine ⟨hwd.cfg_eq, hwd.backoff_eq, ?_, hwd.attempts_le⟩
      rw [aliveFor_snoc]
      exact hwd.stable_le
  | setEthLink up =>
      refine ⟨hwd.cfg_eq, hwd.backoff_eq, ?_, hwd.attempts_le⟩
      rw [aliveFor_snoc]
      exact hwd.stable_le

theorem history_reckoned (cfg : WatchdogCfg) (calls : List WatchdogCall) :
    Reckoned cfg (history cfg calls) (after cfg calls) :=
  Machine.history_induction (A := fun _ => True) (I := Reckoned cfg)
    ⟨rfl, rfl, Nat.zero_le _, Nat.zero_le _⟩ (fun _ _ call h _ => step_reckoned h call) calls
    (fun _ _ => trivial)

/-! ## What a failed dial and a reset look like -/

/-- The delay after `k` failed dials, in nanoseconds. -/
def redialDelay (cfg : WatchdogCfg) (k : ℕ) : ℕ :=
  max cfg.redialMin.nanos
    (min cfg.redialMax.nanos (cfg.redialMin.nanos * 2 ^ min k 20))

theorem redialDelay_mono (cfg : WatchdogCfg) {k k' : ℕ} (h : k ≤ k') :
    redialDelay cfg k ≤ redialDelay cfg k' := by
  have hexp : min k 20 ≤ min k' 20 := by omega
  have hpow : cfg.redialMin.nanos * 2 ^ min k 20 ≤ cfg.redialMin.nanos * 2 ^ min k' 20 :=
    Nat.mul_le_mul_left _ (Nat.pow_le_pow_right (by omega) hexp)
  unfold redialDelay
  omega

/-- The product saturates at `Duration::MAX`, which no setting exceeds. -/
theorem nextDelay_closed (hmax : cfg.redialMax.nanos ≤ Duration.max.nanos) (k : ℕ) :
    (Backoff.nextDelay ⟨cfg.redialMin, cfg.redialMax, k⟩).2.nanos = redialDelay cfg k := by
  simp only [Backoff.nextDelay, Duration.maxOf, Duration.minOf, Duration.saturatingMul,
    redialDelay]
  change max (min (min (cfg.redialMin.nanos * 2 ^ min k 20) _) _) _ = _
  omega

/-- A failed dial waits for the delay of the count before it, and counts one more. -/
theorem failsDial_delay (hmax : cfg.redialMax.nanos ≤ Duration.max.nanos)
    (hwd : Reckoned cfg past wd) {call : WatchdogCall}
    (hfails : failsDial (Machine.stepAt step wd call) = true) :
    ∃ d, (wd.step call).2.delay = some d ∧ d.nanos = redialDelay cfg wd.attempts ∧
      (wd.step call).1.attempts = min (wd.attempts + 1) u32Max := by
  cases call with
  | requestRedial => cases hfails
  | setEthLink up => cases hfails
  | runOnce a =>
      have hseen : failsDial (Machine.stepAt step wd (.runOnce a)) =
          (.dial ∈ (wd.runOnce a).2.2 && match a.dial with
            | .error e => e.kind = .transient
            | .ok _ => false : Bool) := rfl
      rw [hseen, Bool.and_eq_true, decide_eq_true_eq] at hfails
      obtain ⟨hcalled, hfails⟩ := hfails
      refine ⟨_, rfl, ?_⟩
      change (wd.runOnce a).2.1.nanos = _ ∧ (wd.runOnce a).1.attempts = _
      rcases runOnce_counted wd a with h | h
      · generalize (wd.runOnce a).1 = wd' at h ⊢
        generalize (wd.runOnce a).2.1 = delay at h ⊢
        generalize (wd.runOnce a).2.2 = calls at h hcalled
        cases h with
        | kept hcfg hattempts hbackoff hstable hup hfine =>
            cases hd : a.dial with
            | ok u => simp [hd] at hfails
            | error e => simp [hd, hfine hcalled e hd] at hfails
        | failed hcfg hdial hattempts hbackoff hstable =>
            rw [hwd.backoff_eq]
            exact ⟨nextDelay_closed hmax wd.attempts, hattempts⟩
      · rw [h.calls_eq] at hcalled
        simp at hcalled

/-- The count falls only in a step that finds the session alive. -/
theorem attempts_falls (hwd : Reckoned cfg past wd) {call : WatchdogCall}
    (hfalls : (wd.step call).1.attempts < wd.attempts) :
    (wd.step call).1.attempts = 0 ∧ provesAlive (Machine.stepAt step wd call) = true ∧
      stableResetAfter.nanos ≤ aliveFor cfg (past ++ [Machine.stepAt step wd call]) := by
  cases call with
  | requestRedial => exact absurd hfalls (lt_irrefl _)
  | setEthLink up => exact absurd hfalls (lt_irrefl _)
  | runOnce a =>
      change (wd.runOnce a).1.attempts < wd.attempts at hfalls
      rcases runOnce_counted wd a with h | h
      · exfalso
        generalize (wd.runOnce a).1 = wd' at h hfalls
        generalize (wd.runOnce a).2.1 = delay at h
        generalize (wd.runOnce a).2.2 = calls at h
        cases h with
        | kept hcfg hattempts => omega
        | failed hcfg hdial hattempts =>
            have := hwd.attempts_le
            omega
      · obtain ⟨hproves, hafter⟩ := h.reckoned hwd
        rcases h.counts with ⟨hattempts, -⟩ | ⟨hlong, hattempts, -⟩
        · omega
        · exact ⟨hattempts, hproves, hlong.trans hafter.stable_le⟩

theorem attempts_le_of_no_falls {ys : List WatchdogCall}
    (h : ∀ p ∈ Machine.trace step wd ys, p.pre.attempts ≤ p.post.attempts) :
    wd.attempts ≤ (Machine.final step wd ys).attempts := by
  induction ys generalizing wd with
  | nil => exact le_refl _
  | cons call ys ih =>
      rw [Machine.trace_cons, List.forall_mem_cons] at h
      exact le_trans h.1 (ih h.2)

end Watchdog

/-- **The redial backoff over whole runs.** The published count is the backoff's; a
failed dial waits for the closed form of the count before it, so the delays do not
decrease while the count does not fall; and it falls, to zero, only at an `Alive`
probe that completes `stableResetAfter` of them since the last successful dial. -/
theorem redial_backoff (cfg : WatchdogCfg)
    (hmax : cfg.redialMax.nanos ≤ Duration.max.nanos) (calls : List WatchdogCall) :
    (Watchdog.after cfg calls).view.redialAttempts = (Watchdog.after cfg calls).backoff.attempt ∧
    (∀ r ∈ Watchdog.history cfg calls, Watchdog.failsDial r = true →
      ∃ d, r.out.delay = some d ∧ d.nanos = max cfg.redialMin.nanos (min cfg.redialMax.nanos
        (cfg.redialMin.nanos * 2 ^ min r.pre.view.redialAttempts 20))) ∧
    (∀ past q mid r rest, Watchdog.history cfg calls = past ++ q :: (mid ++ r :: rest) →
      Watchdog.failsDial q = true → Watchdog.failsDial r = true →
      (∀ p ∈ mid, p.pre.view.redialAttempts ≤ p.post.view.redialAttempts) →
      ∀ d d', q.out.delay = some d → r.out.delay = some d' → d.nanos ≤ d'.nanos) ∧
    ∀ past r rest, Watchdog.history cfg calls = past ++ r :: rest →
      r.post.view.redialAttempts < r.pre.view.redialAttempts →
      r.post.view.redialAttempts = 0 ∧ Watchdog.provesAlive r = true ∧
        (Duration.fromSecs 300).nanos ≤ Watchdog.aliveFor cfg (past ++ [r]) := by
  refine ⟨?_, ?_, ?_, ?_⟩
  · rw [(Watchdog.history_reckoned cfg calls).backoff_eq]
    rfl
  · intro r hr hfails
    obtain ⟨before, call, -, -, rfl⟩ := Machine.exists_split_of_mem hr
    obtain ⟨d, hd, hdelay, -⟩ :=
      Watchdog.failsDial_delay hmax (Watchdog.history_reckoned cfg before) hfails
    exact ⟨d, hd, hdelay⟩
  · intro past q mid r rest hsplit hq hr hmid d d' hd hd'
    obtain ⟨xs, call, ys, rfl, -, rfl, htail⟩ := Machine.trace_split hsplit
    obtain ⟨zs, call', ws, rfl, rfl, rfl, -⟩ := Machine.trace_split htail.symm
    have hfirst := Watchdog.history_reckoned cfg xs
    obtain ⟨e, he, hdelay, hnext⟩ := Watchdog.failsDial_delay hmax hfirst hq
    have hlast : Watchdog.Reckoned cfg
        (Watchdog.history cfg (xs ++ call :: zs)) (Watchdog.after cfg (xs ++ call :: zs)) :=
      Watchdog.history_reckoned cfg _
    have hend : Watchdog.after cfg (xs ++ call :: zs) = Machine.final Watchdog.step
        (Watchdog.step (Watchdog.after cfg xs) call).1 zs := by
      rw [Watchdog.after, Machine.final_append, Machine.final_cons]
      rfl
    rw [hend] at hlast
    obtain ⟨e', he', hdelay', -⟩ := Watchdog.failsDial_delay hmax hlast hr
    cases he.symm.trans hd
    cases he'.symm.trans hd'
    rw [hdelay, hdelay']
    have hcount : ((Watchdog.after cfg xs).step call).1.attempts ≤ _ :=
      Watchdog.attempts_le_of_no_falls hmid
    have hbound := hfirst.attempts_le
    exact Watchdog.redialDelay_mono cfg (le_trans (by omega) hcount)
  · intro past r rest hsplit hfalls
    obtain ⟨xs, call, ys, -, rfl, rfl, -⟩ := Machine.trace_split hsplit
    exact Watchdog.attempts_falls (Watchdog.history_reckoned cfg xs) hfalls

/-- Two failed dials, a session, and two probes of 150 seconds that set the count
back. -/
def resetRun : List WatchdogCall :=
  let failed : WatchdogCall := .runOnce ⟨.error ⟨.transient, 678, "no answer"⟩, false, .alive, 0⟩
  let up : WatchdogCall := .runOnce ⟨.ok (), true, .alive, 0⟩
  [failed, failed, up, up, up]

theorem redial_backoff_reset :
    let cfg : WatchdogCfg := ⟨.fromSecs 1, .fromSecs 60, .fromSecs 150, authFailDelay⟩
    (Watchdog.history cfg resetRun).map (·.post.view.redialAttempts) = [1, 2, 2, 2, 0] ∧
    (Watchdog.history cfg resetRun).map Watchdog.failsDial = [true, true, false, false, false] ∧
    ∀ r ∈ Watchdog.history cfg resetRun, Watchdog.failsDial r = true →
      ∃ d, r.out.delay = some d ∧ d.nanos = max 1000000000 (min 60000000000
        (1000000000 * 2 ^ min r.pre.view.redialAttempts 20)) := by
  intro cfg
  exact ⟨by decide, by decide, (redial_backoff cfg (by decide) resetRun).2.1⟩

end GdutNet
