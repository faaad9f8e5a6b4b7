import GdutNet.Machine.Trace
import GdutNet.Machine.Debounce
import GdutNet.Wireless.Brain

/-!
# The two debounces of the brain

The WLAN is released once the wired side has been healthy for `releaseAfter`,
and taken over once it has been away for `takeoverAfter`. Each debounce rests on
one timestamp, and only the exclusive branch of `decide` maintains them: what a
decision observes in standby leaves both where they were. So the debounces hold
of a run as long as standby never observes what should have cleared a timestamp,
and every observation that should have opens a run on which they fail.
-/

namespace GdutNet

open Machine

/-- A call of the brain's public methods. -/
inductive BrainCall where
  | setMode (m : NetMode)
  | decide (w : World)
  | onAuth (ok : Bool) (msg : String) (now : ℕ)
  | restart
deriving DecidableEq, Repr

namespace BrainCall

/-- The time a call carries, if it carries one. -/
def time? : BrainCall → Option ℕ
  | .decide w => some w.now
  | .onAuth _ _ now => some now
  | .setMode _ | .restart => none

def world? : BrainCall → Option World
  | .decide w => some w
  | .onAuth .. | .setMode _ | .restart => none

end BrainCall

def times (calls : List BrainCall) : List ℕ := calls.filterMap BrainCall.time?

/-- The times the calls carry never go back. -/
def InOrder (calls : List BrainCall) : Prop := (times calls).Pairwise (· ≤ ·)

instance (calls : List BrainCall) : Decidable (InOrder calls) :=
  inferInstanceAs (Decidable (List.Pairwise _ _))

/-- What the `decide` calls of a run observed. -/
def observed (calls : List BrainCall) : List World := calls.filterMap BrainCall.world?

@[simp] theorem observed_snoc (calls : List BrainCall) (c : BrainCall) :
    observed (calls ++ [c]) = observed calls ++ c.world?.toList := by
  cases c <;> simp [observed, BrainCall.world?]

theorem mem_observed {calls : List BrainCall} {w : World} :
    w ∈ observed calls ↔ .decide w ∈ calls := by
  simp only [observed, List.mem_filterMap]
  constructor
  · rintro ⟨c, hc, hw⟩
    cases c with
    | decide v =>
        cases hw
        exact hc
    | setMode | onAuth | restart => cases hw
  · intro h
    exact ⟨_, h, rfl⟩

@[simp] theorem times_append (xs ys : List BrainCall) : times (xs ++ ys) = times xs ++ times ys :=
  List.filterMap_append

@[simp] theorem times_decide (w : World) : times [.decide w] = [w.now] := rfl

/-- Calls that carry no time may stand anywhere. -/
theorem times_untimed {c : BrainCall} (hc : c.time? = none) : times [c] = [] :=
  List.filterMap_cons_none hc

theorem InOrder.of_append {xs ys : List BrainCall} (h : InOrder (xs ++ ys)) : InOrder xs := by
  unfold InOrder at h
  rw [times_append] at h
  exact (List.pairwise_append.mp h).1

theorem inOrder_snoc {calls : List BrainCall} {w : World} :
    InOrder (calls ++ [.decide w]) ↔ InOrder calls ∧ ∀ t ∈ times calls, t ≤ w.now := by
  simp [InOrder, List.pairwise_append]

theorem InOrder.observed_le {calls : List BrainCall} {w : World}
    (h : InOrder (calls ++ [.decide w])) : ∀ v ∈ observed calls, v.now ≤ w.now :=
  fun _ hv => (inOrder_snoc.mp h).2 _ (List.mem_filterMap.mpr ⟨_, mem_observed.mp hv, rfl⟩)

/-- A run may go on with calls that carry no time and a decision that is no
earlier. -/
theorem InOrder.extend {calls rest : List BrainCall} {w w' : World}
    (h : InOrder (calls ++ [.decide w])) (hrest : times rest = []) (hle : w.now ≤ w'.now) :
    InOrder (calls ++ [.decide w] ++ rest ++ [.decide w']) := by
  rw [inOrder_snoc]
  constructor
  · unfold InOrder
    rwa [times_append, hrest, List.append_nil]
  · rw [times_append, hrest, List.append_nil, times_append, times_decide]
    intro t ht
    rcases List.mem_append.mp ht with ht | ht
    · exact ((inOrder_snoc.mp h).2 t ht).trans hle
    · rwa [List.mem_singleton.mp ht]

namespace Brain

def call (b : Brain) : BrainCall → Brain × Option Action
  | .setMode m => (b.setMode m, none)
  | .decide w => ((b.decide w).1, some (b.decide w).2)
  | .onAuth ok msg now => (b.onAuth ok msg now, none)
  | .restart => (b.restart, none)

/-! ## The timestamps

`up` says which of the two debounces is meant: the release waits for the wired
side to be up, the takeover for it to be away. -/

/-- Since when exclusive mode has seen the wired side `up`. -/
def since (b : Brain) (up : Bool) : Option ℕ :=
  if up then b.healthySince else b.unhealthySince

def delay (b : Brain) (up : Bool) : ℕ :=
  if up then b.releaseAfter else b.takeoverAfter

/-- A standby decision observes what a timestamp rules out, and the timestamp
stays. At the very second of the timestamp, or with no delay to wait, that does
no harm. -/
def misses (b : Brain) (up : Bool) (w : World) : Bool :=
  b.mode = .wiredPlusStandby && w.wiredHealthy != up && 0 < b.delay up &&
    (b.since up).any (· < w.now)

/-- No decision of a run misses. -/
def Attends (up : Bool) (b₀ : Brain) (calls : List BrainCall) : Prop :=
  ∀ r ∈ trace call b₀ calls, r.input.world?.all (fun w => !r.pre.misses up w) = true

instance (up : Bool) (b₀ : Brain) (calls : List BrainCall) : Decidable (Attends up b₀ calls) :=
  inferInstanceAs (Decidable (∀ r ∈ trace call b₀ calls, _ = true))

theorem keepWireless_since (b : Brain) (w : World) (up : Bool) :
    (b.keepWireless w).1.since up = b.since up := by
  obtain ⟨_, _, _, _, _, h⟩ := b.keepWireless_frame w
  rw [h]
  rfl

theorem keepWireless_phase_ne_off (b : Brain) (w : World) :
    (b.keepWireless w).1.phase ≠ .off := by
  unfold keepWireless
  cases hp : b.phase with
  | off => simp [startJoin]
  | error => simp only; split <;> simp [startJoin, hp]
  | joining => simp only; split <;> simp [hp]
  | authing => simp only; split <;> simp [hp]
  | online =>
      simp only
      split
      · simp
      · split
        · simp [startJoin]
        · split <;> simp [hp]

theorem decide_standby {b : Brain} (hm : b.mode = .wiredPlusStandby) (w : World) :
    b.decide w = b.keepWireless w := by
  simp [decide, hm]

/-- Exclusive mode sets a timestamp at the first observation that fits, keeps it
while they fit and clears it at one that does not. -/
theorem decide_since_exclusive {b : Brain} (hm : b.mode = .wiredExclusive) (w : World)
    (up : Bool) :
    (b.decide w).1.since up =
      if w.wiredHealthy = up then some ((b.since up).getD w.now) else none := by
  unfold decide
  rw [hm]
  cases hw : w.wiredHealthy with
  | true =>
      simp only [↓reduceIte]
      split <;> cases up <;> rfl
  | false =>
      simp only [Bool.false_eq_true, ↓reduceIte]
      split
      · split <;> cases up <;> rfl
      · split <;> cases up <;> rfl
      · rw [keepWireless_since]
        cases up <;> rfl

theorem onAuth_since (b : Brain) (ok : Bool) (msg : String) (now : ℕ) (up : Bool) :
    (b.onAuth ok msg now).since up = b.since up := by
  unfold onAuth
  cases ok <;> rfl

theorem keepWireless_delay (b : Brain) (w : World) (up : Bool) :
    (b.keepWireless w).1.delay up = b.delay up := by
  obtain ⟨_, _, _, _, _, h⟩ := b.keepWireless_frame w
  rw [h]
  rfl

theorem call_delay (b : Brain) (c : BrainCall) (up : Bool) :
    (b.call c).1.delay up = b.delay up := by
  cases c with
  | setMode m => rfl
  | restart => rfl
  | onAuth ok msg now => cases ok <;> rfl
  | decide w =>
      change (b.decide w).1.delay up = b.delay up
      unfold decide
      split
      · exact b.keepWireless_delay w up
      · split
        · dsimp only
          split <;> rfl
        · dsimp only
          split
          · split <;> rfl
          · split <;> rfl
          · exact keepWireless_delay _ w up

theorem final_delay (b₀ : Brain) (calls : List BrainCall) (up : Bool) :
    (final call b₀ calls).delay up = b₀.delay up :=
  final_induction (I := fun b : Brain => b.delay up = b₀.delay up)
    (fun b c hb => (b.call_delay c up).trans hb) rfl calls

/-- The observations one of the debounces waits for. -/
def Seen (up : Bool) (w : World) : Prop := w.wiredHealthy = up

theorem misses_iff {b : Brain} {up : Bool} {w : World} :
    b.misses up w = true ↔ b.mode = .wiredPlusStandby ∧ 0 < b.delay up ∧
      Outdates World.now (Seen up) w (b.since up) := by
  simp only [misses, Outdates, Seen, Bool.and_eq_true, decide_eq_true_eq, bne_iff_ne,
    Option.any_eq_true, Option.mem_def]
  grind

/-- One call of a run that attends: the timestamp still vouches for everything
observed. -/
theorem call_vouches {b : Brain} {up : Bool} {seen : List World} {c : BrainCall}
    (h : Vouches World.now (Seen up) (b.since up) seen)
    (hold : ∀ w, c = .decide w → ∀ v ∈ seen, v.now ≤ w.now)
    (hdelay : 0 < b.delay up) (hok : c.world?.all (fun w => !b.misses up w) = true) :
    Vouches World.now (Seen up) ((b.call c).1.since up) (seen ++ c.world?.toList) := by
  cases c with
  | setMode m =>
      rw [BrainCall.world?, Option.toList_none, List.append_nil]
      exact h
  | restart =>
      rw [BrainCall.world?, Option.toList_none, List.append_nil]
      exact h
  | onAuth ok msg now =>
      rw [BrainCall.world?, Option.toList_none, List.append_nil]
      change Vouches _ _ ((b.onAuth ok msg now).since up) _
      rwa [onAuth_since]
  | decide w =>
      change Vouches _ _ ((b.decide w).1.since up) (seen ++ [w])
      cases hm : b.mode with
      | wiredPlusStandby =>
          rw [decide_standby hm, keepWireless_since]
          refine h.keep (fun hout => ?_)
          have hmiss := misses_iff.mpr ⟨hm, hdelay, hout⟩
          rw [BrainCall.world?, Option.all_some, hmiss] at hok
          cases hok
      | wiredExclusive =>
          rw [decide_since_exclusive hm]
          split
          · rename_i hw
            exact h.set (hold w rfl) hw
          · exact .none _

theorem final_vouches {b₀ : Brain} {up : Bool} (h0 : b₀.since up = none)
    (hdelay : 0 < b₀.delay up) {calls : List BrainCall} (horder : InOrder calls)
    (hok : Attends up b₀ calls) :
    Vouches World.now (Seen up) ((final call b₀ calls).since up) (observed calls) := by
  induction calls using List.reverseRecOn with
  | nil =>
      rw [final_nil, h0]
      exact .none _
  | append_singleton calls c ih =>
      unfold Attends at hok
      rw [trace_snoc, List.forall_mem_append] at hok
      rw [final_snoc, observed_snoc]
      refine call_vouches (ih horder.of_append hok.1) ?_ ?_ (hok.2 _ (List.mem_singleton_self _))
      · rintro w rfl
        exact horder.observed_le
      · rwa [final_delay]

/-- A debounce that has waited out its delay in exclusive mode has seen what it
waits for throughout. -/
theorem steady_of_attends {b₀ : Brain} {up : Bool} (h0 : b₀.since up = none)
    {calls : List BrainCall} {w : World} (horder : InOrder (calls ++ [.decide w]))
    (hok : Attends up b₀ calls) (hw : w.wiredHealthy = up)
    (hlong : b₀.delay up ≤ w.now - ((final call b₀ calls).since up).getD w.now) :
    Steady World.now (Seen up) (observed (calls ++ [.decide w])) (b₀.delay up) w.now := by
  rcases Nat.eq_zero_or_pos (b₀.delay up) with hd | hd
  · intro v _ hin hle
    omega
  · have h := (final_vouches h0 hd horder.of_append hok).set horder.observed_le hw
    rw [observed_snoc]
    exact h.steady (by simpa using hlong)

/-! ## When the debounces let go -/

theorem decide_disassociate {b : Brain} {w : World} (h : (b.decide w).2 = .disassociate) :
    b.releases w = true := by
  have hd := b.decide_decided w
  rw [h] at hd
  cases hd with
  | release hrel _ _ => exact hrel

theorem releases_iff {b : Brain} {w : World} : b.releases w = true ↔
    b.mode = .wiredExclusive ∧ w.wiredHealthy = true ∧ b.phase ≠ .off ∧
      b.delay true ≤ w.now - (b.since true).getD w.now := by
  simp only [releases, since, delay, Bool.and_eq_true, decide_eq_true_eq, ↓reduceIte]
  tauto

theorem decide_of_releases {b : Brain} {w : World} (h : b.releases w) :
    (b.decide w).2 = .disassociate := by
  obtain ⟨hm, hw, hp, hlong⟩ := releases_iff.mp h
  simp only [since, delay, ↓reduceIte] at hlong
  simp [decide, hm, hw, hp, hlong]

/-- Exclusive mode starts a join from `Off` exactly when the wired side is away
and the takeover delay has run out. -/
theorem decide_takes_over {b : Brain} {w : World} (hm : b.mode = .wiredExclusive)
    (hp : b.phase = .off) : (b.decide w).1.phase = .joining ↔
      w.wiredHealthy = false ∧ b.delay false ≤ w.now - (b.since false).getD w.now := by
  simp only [since, delay, Bool.false_eq_true, ↓reduceIte]
  unfold decide
  rw [hm]
  cases hw : w.wiredHealthy with
  | true => simp [hp]
  | false =>
      simp only [hp, Bool.false_eq_true, ↓reduceIte, true_and]
      split
      · rename_i hlong
        simp [startJoin, hlong]
      · rename_i hlong
        simp [hlong]

/-- From `Off` the way into `Joining` is `Associate`. -/
theorem decide_joins {b : Brain} {w : World} (hp : b.phase = .off)
    (h : (b.decide w).1.phase = .joining) : (b.decide w).2 = .associate := by
  have hd := b.decide_decided w
  generalize (b.decide w).2 = a at hd ⊢
  cases hd with
  | idle hphase => simp [h, hp] at hphase
  | join => rfl
  | release _ hphase => simp [h] at hphase
  | login _ hphase => simp [h] at hphase
  | probe hfrom => simp [hp] at hfrom

/-- A missed observation leaves the phase on and the timestamp old: the debounce
is due while the observation is still in its window. -/
theorem decide_of_misses {b : Brain} {up : Bool} {w : World} (h : b.misses up w) :
    (b.decide w).1.phase ≠ .off ∧ ∃ t, w.now ≤ t ∧
      (b.decide w).1.delay up ≤ t - ((b.decide w).1.since up).getD t ∧
      ∀ seen, w ∈ seen → ¬ Steady World.now (Seen up) seen (b.delay up) t := by
  obtain ⟨hm, hpos, s, hs, hlt, hbad⟩ := misses_iff.mp h
  constructor
  · rw [decide_standby hm]
    exact b.keepWireless_phase_ne_off w
  · refine ⟨lapse World.now w s (b.delay up), le_lapse w s _, ?_, ?_⟩
    · rw [decide_standby hm, keepWireless_delay, keepWireless_since, Option.mem_def.mp hs]
      exact lapse_due w s _
    · intro seen hw
      exact not_steady_lapse hw hbad hlt hpos

/-! ## The laws, over runs from a fresh brain -/

/-- If the `decide` that ends the run releases the WLAN, it does so in exclusive
mode, after `releaseAfter` in which every decision, in whatever mode, observed the
wired side healthy. -/
def ReleaseDebounced (b₀ : Brain) (calls : List BrainCall) (w : World) : Prop :=
  ((final call b₀ calls).decide w).2 = .disassociate →
    (final call b₀ calls).mode = .wiredExclusive ∧
      ∀ v, .decide v ∈ calls ++ [.decide w] → w.now < v.now + b₀.releaseAfter →
        v.now ≤ w.now → (v.ethLinkUp && v.wiredConnected) = true

/-- If the `decide` that ends the run starts a join from `Off` in exclusive mode,
it says so, and for `takeoverAfter` every decision observed the wired side away. -/
def TakeoverDebounced (b₀ : Brain) (calls : List BrainCall) (w : World) : Prop :=
  (final call b₀ calls).mode = .wiredExclusive → (final call b₀ calls).phase = .off →
    ((final call b₀ calls).decide w).1.phase = .joining →
      ((final call b₀ calls).decide w).2 = .associate ∧
        ∀ v, .decide v ∈ calls ++ [.decide w] → w.now < v.now + b₀.takeoverAfter →
          v.now ≤ w.now → (v.ethLinkUp && v.wiredConnected) = false

variable (mode : NetMode) (takeoverAfter releaseAfter probeInterval : ℕ)

/-- The release debounce holds of a run whose standby decisions never observe the
wired side away after the time it was first seen healthy. Any such observation can be
followed by a release that breaks the law. -/
theorem release_debounce (calls : List BrainCall) (w : World)
    (horder : InOrder (calls ++ [.decide w])) :
    (Attends true (new mode takeoverAfter releaseAfter probeInterval) calls →
      ReleaseDebounced (new mode takeoverAfter releaseAfter probeInterval) calls w) ∧
    ((final call (new mode takeoverAfter releaseAfter probeInterval) calls).misses true w →
      ∃ w', InOrder (calls ++ [.decide w] ++ [.setMode .wiredExclusive] ++ [.decide w']) ∧
        ¬ ReleaseDebounced (new mode takeoverAfter releaseAfter probeInterval)
          (calls ++ [.decide w] ++ [.setMode .wiredExclusive]) w') := by
  constructor
  · intro hok hout
    obtain ⟨hm, hw, -, hlong⟩ := releases_iff.mp (decide_disassociate hout)
    rw [final_delay] at hlong
    have hsteady := steady_of_attends rfl horder hok hw hlong
    exact ⟨hm, fun v hv hin hle => hsteady v (mem_observed.mpr hv) hin hle⟩
  · intro hmiss
    obtain ⟨hphase, t, hle, hdue, hwindow⟩ := decide_of_misses hmiss
    rw [final_delay] at hwindow
    have hend : final call (new mode takeoverAfter releaseAfter probeInterval)
        (calls ++ [.decide w] ++ [.setMode .wiredExclusive]) =
          ((final call (new mode takeoverAfter releaseAfter probeInterval) calls).decide
            w).1.setMode .wiredExclusive := by
      rw [final_snoc, final_snoc]
      rfl
    refine ⟨{ w with now := t, ethLinkUp := true, wiredConnected := true },
      horder.extend (times_untimed rfl) hle, fun hlaw => ?_⟩
    refine hwindow (observed _) (mem_observed.mpr (by simp)) (fun v hv hin hvt =>
      (hlaw (decide_of_releases ?_)).2 v (mem_observed.mp hv) hin hvt)
    rw [hend, releases_iff]
    exact ⟨rfl, rfl, hphase, hdue⟩

/-- In exclusive mode the wired side is healthy from second 0 on; it fails in
standby, and one second later exclusive mode finds it back. -/
def failureInStandby : List BrainCall :=
  [.decide ⟨0, false, false, false, false, none⟩, .decide ⟨1, true, true, false, false, none⟩,
    .setMode .wiredPlusStandby, .decide ⟨100, false, false, false, false, none⟩,
    .setMode .wiredExclusive]

/-- The WLAN is released at second 101, with the failure at second 100. -/
theorem failureInStandby_releases :
    InOrder (failureInStandby ++ [.decide ⟨101, true, true, false, false, none⟩]) ∧
      ¬ ReleaseDebounced (new .wiredExclusive 0 10 30) failureInStandby
        ⟨101, true, true, false, false, none⟩ := by
  refine ⟨by decide, fun hlaw => ?_⟩
  have hsteady := (hlaw (by decide)).2 ⟨100, false, false, false, false, none⟩
    (by decide) (by decide) (by decide)
  cases hsteady

/-- A release that keeps the law: ten seconds of healthy observations, five of them
made in standby. -/
theorem release_debounce_kept :
    ReleaseDebounced (new .wiredExclusive 0 10 30)
      [.decide ⟨0, false, false, false, false, none⟩, .decide ⟨1, true, true, false, false, none⟩,
        .setMode .wiredPlusStandby, .decide ⟨6, true, true, false, false, none⟩,
        .setMode .wiredExclusive] ⟨11, true, true, false, false, none⟩ :=
  (release_debounce .wiredExclusive 0 10 30 _ _ (by decide)).1 (by decide)

/-- The takeover debounce holds of a run whose standby decisions never observe the
wired side healthy after the time it was first seen away. Any such observation can be
followed by a takeover that breaks the law. -/
theorem takeover_debounce (calls : List BrainCall) (w : World)
    (horder : InOrder (calls ++ [.decide w])) :
    (Attends false (new mode takeoverAfter releaseAfter probeInterval) calls →
      TakeoverDebounced (new mode takeoverAfter releaseAfter probeInterval) calls w) ∧
    ((final call (new mode takeoverAfter releaseAfter probeInterval) calls).misses false w →
      ∃ w', InOrder (calls ++ [.decide w] ++ [.restart, .setMode .wiredExclusive] ++
          [.decide w']) ∧
        ¬ TakeoverDebounced (new mode takeoverAfter releaseAfter probeInterval)
          (calls ++ [.decide w] ++ [.restart, .setMode .wiredExclusive]) w') := by
  constructor
  · intro hok hm hp hjoin
    obtain ⟨hw, hlong⟩ := (decide_takes_over hm hp).mp hjoin
    rw [final_delay] at hlong
    have hsteady := steady_of_attends rfl horder hok hw hlong
    exact ⟨decide_joins hp hjoin, fun v hv hin hle => hsteady v (mem_observed.mpr hv) hin hle⟩
  · intro hmiss
    obtain ⟨-, t, hle, hdue, hwindow⟩ := decide_of_misses hmiss
    rw [final_delay] at hwindow
    have hend : final call (new mode takeoverAfter releaseAfter probeInterval)
        (calls ++ [.decide w] ++ [.restart, .setMode .wiredExclusive]) =
          ((final call (new mode takeoverAfter releaseAfter probeInterval) calls).decide
            w).1.restart.setMode .wiredExclusive := by
      rw [final_append, final_snoc]
      rfl
    refine ⟨{ w with now := t, ethLinkUp := false }, horder.extend rfl hle, fun hlaw => ?_⟩
    refine hwindow (observed _) (mem_observed.mpr (by simp)) (fun v hv hin hvt =>
      (hlaw ?_ ?_ ?_).2 v (mem_observed.mp hv) hin hvt)
    · rw [hend]
      rfl
    · rw [hend]
      rfl
    · rw [hend, decide_takes_over rfl rfl]
      exact ⟨rfl, hdue⟩

/-- In exclusive mode the wired side is first away at second 0. In standby it is
healthy from then on, while the join it started times out. -/
def recoveryInStandby : List BrainCall :=
  [.decide ⟨0, false, false, false, false, none⟩, .setMode .wiredPlusStandby,
    .decide ⟨1, true, true, false, false, none⟩, .decide ⟨61, true, true, false, false, none⟩,
    .restart, .setMode .wiredExclusive]

/-- One failed observation at second 62 takes over at once. -/
theorem recoveryInStandby_takes_over :
    InOrder (recoveryInStandby ++ [.decide ⟨62, false, false, false, false, none⟩]) ∧
      ¬ TakeoverDebounced (new .wiredExclusive 8 10 30) recoveryInStandby
        ⟨62, false, false, false, false, none⟩ := by
  refine ⟨by decide, fun hlaw => ?_⟩
  have hsteady := (hlaw (by decide) (by decide) (by decide)).2
    ⟨61, true, true, false, false, none⟩ (by decide) (by decide) (by decide)
  cases hsteady

/-- A takeover that keeps the law: eight seconds away, part of them in standby. -/
theorem takeover_debounce_kept :
    TakeoverDebounced (new .wiredExclusive 8 10 30)
      [.decide ⟨0, true, true, false, false, none⟩, .decide ⟨1, false, false, false, false, none⟩,
        .setMode .wiredPlusStandby, .decide ⟨5, false, true, false, false, none⟩, .restart,
        .setMode .wiredExclusive] ⟨9, false, false, false, false, none⟩ :=
  (takeover_debounce .wiredExclusive 8 10 30 _ _ (by decide)).1 (by decide)

end Brain

end GdutNet
