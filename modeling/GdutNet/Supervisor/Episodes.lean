import GdutNet.Supervisor.Takeover

/-!
# Episodes of the takeover

Properties of whole runs that speak about an episode: the time since the brain
last entered `Joining`, or since it last released the WLAN. Each is an
invariant relating the past to the present state, kept by every move of the
takeover.
-/

namespace GdutNet.Supervisor

open Machine (Since)

/-- The brain was in `Joining` when the step began. -/
def InJoining (r : Record) : Prop := r.pre.phase = some .joining

instance : DecidablePred InJoining := fun r =>
  inferInstanceAs (Decidable (r.pre.phase = some .joining))

/-- A pending association is answered. -/
def AcceptsAssociation (r : Record) : Prop :=
  (∃ res, Handles r (.associateFinished res)) ∧ r.pre.associateInFlight = true

/-! ## The join timeout -/

/-- The join-timeout branch of `handle_wireless_sampled` is taken. -/
def JoinTimeoutFires (r : Record) : Prop :=
  ∃ sample brain, r.pre.Samples r.input sample brain ∧
    (r.pre.decideSample brain sample r.input.now r.input.wall).2.2 = true ∧
    (r.pre.decideSample brain sample r.input.now r.input.wall).1.phase = some .joining ∧
    (r.pre.decideSample brain sample r.input.now r.input.wall).1.joinExpired r.input.now = true

/-- A timeout fires only in `Joining`, more than the limit after an association
result that was accepted in the same stay in `Joining`. -/
def JoinTimeoutsSound (t : List Record) : Prop :=
  ∀ past r rest, t = past ++ r :: rest → JoinTimeoutFires r → InJoining r ∧
    Since (fun q => AcceptsAssociation q ∧ InJoining q ∧
      q.input.now + joinTimeoutSecs * 1000 < r.input.now) InJoining past

/-- An accepted sample that finds the join timer expired neither starts a join
nor keeps one waiting whose association is still unanswered. -/
def JoinTimerCurrent (r : Record) : Prop :=
  ∀ sample brain, r.pre.Samples r.input sample brain →
    r.pre.joinExpired r.input.now = true →
    (r.pre.deciding brain).startsJoin (r.pre.world sample r.input.now) = false ∧
    ((r.pre.deciding brain).keepsJoining (r.pre.world sample r.input.now) = true →
      r.pre.associateInFlight = false)

theorem handleAction_phase {s : Supervisor} {action : Action} {nowSecs wall : ℕ}
    (h : (s.handleAction action nowSecs wall).2.2 = true) :
    (s.handleAction action nowSecs wall).1.phase = s.phase := by
  cases action with
  | none => rfl
  | associate =>
      obtain ⟨s', hact, ht⟩ := s.handleAction_associate nowSecs wall
      rw [hact]
      exact congrArg Takeover.phase ht
  | disassociate => rfl
  | portalAuth =>
      unfold handleAction at h ⊢
      dsimp only at h ⊢
      split
      · rfl
      · rename_i hfree
        rw [if_neg hfree] at h
        split
        · rename_i hw
          simp [hw] at h
        · rename_i wlan hw
          simp only [hw] at h
          split
          · rename_i hg
            simp [hg] at h
          · split <;> rfl
  | probeNow =>
      rcases s.handleAction_probeNow nowSecs wall with
        ⟨proceed, hact⟩ | ⟨s', wlan, url, hact, -, -, ht⟩
      · rw [hact]
      · rw [hact]
        exact congrArg Takeover.phase ht

/-- Sending the association goes on to the timer check and leaves the timer alone. -/
theorem handleAction_associate_timer (s : Supervisor) (now wall : ℕ) :
    (s.handleAction .associate (now / 1000) wall).2.2 = true ∧
      (s.handleAction .associate (now / 1000) wall).1.joinExpired now = s.joinExpired now := by
  obtain ⟨s', hact, ht⟩ := s.handleAction_associate (now / 1000) wall
  rw [hact]
  refine ⟨rfl, joinExpired_congr ?_ now⟩
  rw [ht]

/-- The join timer is looked at exactly when the sample starts a join or leaves
one waiting. -/
theorem decideSample_joining (s : Supervisor) (brain : Brain) (sample : WirelessSample)
    (now wall : ℕ) :
    ((s.decideSample brain sample now wall).2.2 = true ∧
      (s.decideSample brain sample now wall).1.phase = some .joining ∧
      (s.decideSample brain sample now wall).1.joinExpired now = true) ↔
    ((s.deciding brain).startsJoin (s.world sample now) = true ∨
      (s.deciding brain).keepsJoining (s.world sample now) = true) ∧
      s.joinExpired now = true := by
  have hd := Brain.decide_decided (s.deciding brain) (s.world sample now)
  have hjoin := @Brain.decide_of_startsJoin (s.deciding brain) (s.world sample now)
  have hkeep := @Brain.decide_of_keepsJoining (s.deciding brain) (s.world sample now)
  unfold decideSample
  rw [← deciding]
  generalize (s.deciding brain).decide (s.world sample now) = p at hd hjoin hkeep ⊢
  obtain ⟨b', action⟩ := p
  have hassoc := handleAction_associate_timer (s.observed sample b') now wall
  rw [show (s.observed sample b').joinExpired now = s.joinExpired now from rfl] at hassoc
  constructor
  · rintro ⟨hgo, hp, hlate⟩
    have hp' : b'.phase = .joining := by
      have h := handleAction_phase hgo
      exact Option.some.inj (h.symm.trans hp)
    cases hd with
    | idle hphase hbusy hnext hwait =>
        exact ⟨.inr (hwait (hphase ▸ hp')), hlate⟩
    | join hstart hphase hbusy => exact ⟨.inl hstart, hassoc.2 ▸ hlate⟩
    | release hrel hphase hbusy => simp [hp'] at hphase
    | login hfrom hphase hbusy => simp [hp'] at hphase
    | probe hfrom hkick hphase hbusy hnext => simp [hp'] at hphase
  · rintro ⟨h, hlate⟩
    rcases h with h | h
    · obtain ⟨hp, hact⟩ := hjoin h
      dsimp only at hp hact
      subst hact
      refine ⟨hassoc.1, ?_, hassoc.2.trans hlate⟩
      exact (handleAction_phase hassoc.1).trans (congrArg some hp)
    · obtain ⟨hp, hact⟩ := hkeep h
      dsimp only at hp hact
      subst hact
      exact ⟨rfl, congrArg some hp, hlate⟩

theorem joinTimeoutFires_iff (r : Record) :
    JoinTimeoutFires r ↔ ∃ sample brain, r.pre.Samples r.input sample brain ∧
      ((r.pre.deciding brain).startsJoin (r.pre.world sample r.input.now) = true ∨
        (r.pre.deciding brain).keepsJoining (r.pre.world sample r.input.now) = true) ∧
      r.pre.joinExpired r.input.now = true := by
  simp only [JoinTimeoutFires, decideSample_joining]

theorem not_startsJoin_of_joining {s : Supervisor} {i : Input} {sample : WirelessSample}
    {brain : Brain} (hs : s.Samples i sample brain) (hjoin : s.phase = some .joining) :
    ¬ (s.deciding brain).startsJoin (s.world sample i.now) = true := by
  intro hstart
  have hp : brain.phase = .joining := Option.some.inj (hs.phase.symm.trans hjoin)
  rcases Brain.startsJoin_phase hstart with h | h | h <;>
    simp [deciding, Brain.setMode, hp] at h

section JoinTimer

variable [SerdeJson]

/-- In `Joining` with no association outstanding, the timer was armed by a
result of this stay. -/
def TimerArmedHere (past : List Record) (s : Supervisor) : Prop :=
  s.phase = some .joining → s.associateInFlight = false →
    Since (fun q => AcceptsAssociation q ∧ InJoining q ∧
      s.joinSinceMs = some q.input.now) InJoining past

theorem timerArmedHere_step (past : List Record) (s : Supervisor) (i : Input)
    (h : TimerArmedHere past s) :
    TimerArmedHere (past ++ [Machine.stepAt step s i]) (s.step i).1 := by
  intro hjoin hidle
  obtain ⟨t, fx, hm, ht, -⟩ := s.exists_moved i
  replace hjoin : t.phase = some .joining := ht ▸ hjoin
  replace hidle : t.associateInFlight = false := ht ▸ hidle
  have hsince : (s.step i).1.joinSinceMs = t.joinSinceMs := ht ▸ rfl
  rw [hsince]
  cases hm with
  | still _ => exact (h hjoin hidle).snoc hjoin
  | ticked => exact (h hjoin hidle).snoc hjoin
  | waited _ => exact (h hjoin hidle).snoc hjoin
  | stopped _ => exact (h hjoin hidle).snoc hjoin
  | died _ => simp at hjoin
  | associated hres hwait => exact .of_last ⟨⟨⟨_, hres⟩, hwait⟩, hjoin, rfl⟩
  | replied _ _ =>
      obtain ⟨p, -, hp⟩ := Option.map_eq_some_iff.mp hjoin
      split at hp <;> simp at hp
  | probed _ _ => exact (h hjoin hidle).snoc hjoin
  | joined _ _ _ => simp at hidle
  | joinedExpired _ _ _ => simp at hjoin
  | waitedExpired _ _ _ => simp at hjoin
  | released _ _ => simp at hjoin
  | deferred _ _ _ => simp at hjoin
  | logged _ _ _ _ _ => simp at hjoin
  | lost _ _ _ => simp at hjoin
  | asked _ _ _ _ _ => exact (h hjoin hidle).snoc hjoin

theorem timerArmedHere_history (cfg : Config) (is : List Input) :
    TimerArmedHere (history cfg is) (after cfg is) := by
  refine Machine.history_induction (A := fun _ => True) ?_
    (fun past s i h _ => timerArmedHere_step past s i h) is (fun _ _ => trivial)
  intro hjoin
  change (new cfg).takeover.phase = _ at hjoin
  rcases new_takeover cfg with ⟨r, h⟩ | h <;> simp [h] at hjoin

/-- An answered association stays answered while the brain stays in `Joining`:
only a new join sends another one. -/
theorem associateInFlight_of_joining {s : Supervisor} {i : Input}
    (hjoin : s.phase = some .joining) (hidle : s.associateInFlight = false) :
    (s.step i).1.associateInFlight = false := by
  obtain ⟨t, fx, hm, ht, -⟩ := s.exists_moved i
  have hassoc : (s.step i).1.associateInFlight = t.associateInFlight := ht ▸ rfl
  rw [hassoc]
  cases hm with
  | died _ => rfl
  | associated _ _ => rfl
  | joined hs hstart _ => exact absurd hstart (not_startsJoin_of_joining hs hjoin)
  | joinedExpired hs hstart _ => exact absurd hstart (not_startsJoin_of_joining hs hjoin)
  | _ => exact hidle

theorem associateInFlight_of_stay {s : Supervisor} (is : List Input)
    (hidle : s.associateInFlight = false)
    (hstay : ∀ p ∈ Machine.trace step s is, InJoining p) :
    (Machine.final step s is).associateInFlight = false := by
  induction is generalizing s with
  | nil => exact hidle
  | cons i is ih =>
      rw [Machine.trace_cons, List.forall_mem_cons] at hstay
      exact ih (associateInFlight_of_joining hstay.1 hidle) hstay.2

theorem associateInFlight_of_accepted {s : Supervisor} {i : Input}
    {res : Except String Unit} (hres : s.Receives i (.associateFinished res)) :
    (s.step i).1.associateInFlight = false := by
  obtain ⟨snap, hstate, -⟩ := step_of_receives hres (by simp)
  rw [hstate]
  simp only [handle, handleAssociateFinished]
  split
  · rename_i h
    simpa using h
  · rfl

/-- A result accepted in this stay means that nothing is outstanding now. -/
theorem associateInFlight_of_since {cfg : Config} {is : List Input}
    (h : Since AcceptsAssociation InJoining (history cfg is)) :
    (after cfg is).associateInFlight = false := by
  obtain ⟨older, q, mid, hpast, ⟨⟨res, hres⟩, -⟩, hmid⟩ := h
  obtain ⟨xs, i, ys, rfl, rfl, rfl, rfl⟩ := Machine.trace_split hpast
  rw [after, Machine.final_append, Machine.final_cons]
  exact associateInFlight_of_stay ys (associateInFlight_of_accepted hres) hmid

/-- **The join timeout, exactly.** It is sound in precisely those runs in which
no accepted sample meets an expired timer that an earlier stay in `Joining` has
left behind. -/
theorem joinTimeouts_sound_iff (cfg : Config) (is : List Input) :
    JoinTimeoutsSound (history cfg is) ↔ ∀ r ∈ history cfg is, JoinTimerCurrent r := by
  constructor
  -- a sample that violates the condition fires the timeout, which then is not sound
  · intro h r hr sample brain hs hlate
    obtain ⟨past, rest, hsplit⟩ := List.append_of_mem hr
    have hsound : (r.pre.deciding brain).startsJoin (r.pre.world sample r.input.now) = true ∨
        (r.pre.deciding brain).keepsJoining (r.pre.world sample r.input.now) = true →
        InJoining r ∧ Since AcceptsAssociation InJoining past := by
      intro hwhy
      obtain ⟨hjoin, hsince⟩ := h past r rest hsplit
        ((joinTimeoutFires_iff r).mpr ⟨sample, brain, hs, hwhy, hlate⟩)
      exact ⟨hjoin, hsince.imp (fun q hq => hq.1) (fun _ hp => hp)⟩
    constructor
    · by_contra hstart
      rw [Bool.not_eq_false] at hstart
      obtain ⟨hjoin, -⟩ := hsound (.inl hstart)
      exact not_startsJoin_of_joining hs hjoin hstart
    · intro hkeep
      obtain ⟨-, hsince⟩ := hsound (.inr hkeep)
      obtain ⟨xs, i, ys, -, rfl, rfl, -⟩ := history_split hsplit
      exact associateInFlight_of_since hsince
  -- under the condition only a join that waits, its association answered, can time out
  · intro h past r rest hsplit hfires
    obtain ⟨sample, brain, hs, hwhy, hlate⟩ := (joinTimeoutFires_iff r).mp hfires
    obtain ⟨hnostart, hidle⟩ := h r (by rw [hsplit]; simp) sample brain hs hlate
    have hkeep := hwhy.resolve_left (by simp [hnostart])
    have hjoin : InJoining r := by
      have hp : (r.pre.deciding brain).phase = .joining := Brain.keepsJoining_phase hkeep
      exact hs.phase.trans (congrArg some hp)
    obtain ⟨xs, i, ys, -, rfl, rfl, -⟩ := history_split hsplit
    have harmed := timerArmedHere_history cfg xs
    refine ⟨hjoin, (harmed hjoin (hidle hkeep)).imp ?_ (fun _ hp => hp)⟩
    rintro q ⟨hacc, hqj, hsince⟩
    refine ⟨hacc, hqj, ?_⟩
    simp only [Machine.stepAt_pre, joinExpired, hsince, Option.any_some, decide_eq_true_eq] at hlate
    exact Nat.lt_sub_iff_add_lt'.mp hlate

theorem JoinTimeoutsSound.last {cfg : Config} {is : List Input} {i : Input}
    {sample : WirelessSample} {brain : Brain}
    (h : JoinTimeoutsSound (history cfg (is ++ [i])))
    (hs : (after cfg is).Samples i sample brain)
    (hwhy : ((after cfg is).deciding brain).startsJoin
        ((after cfg is).world sample i.now) = true ∨
      ((after cfg is).deciding brain).keepsJoining
        ((after cfg is).world sample i.now) = true)
    (hlate : (after cfg is).joinExpired i.now = true) :
    (after cfg is).phase = some .joining := by
  rw [history, Machine.trace_snoc] at h
  exact (h _ _ [] rfl ((joinTimeoutFires_iff _).mpr ⟨sample, brain, hs, hwhy, hlate⟩)).1

end JoinTimer

/-- A join that ends after 58 s leaves its timer armed; the login fails, and the
next join finds the timer expired before its association was even called. -/
def staleTimerRun : List Input :=
  [⟨0, 0, .started⟩, ⟨10, 0, .wirelessSampled {}⟩, ⟨2000, 2, .associateFinished (.ok ())⟩,
    ⟨58000, 58, .wake⟩, ⟨58010, 58, .wirelessSampled campusSample⟩,
    ⟨60000, 60, .portalFinished .noReply⟩, ⟨66000, 66, .wake⟩]

def failedBrain : Brain :=
  { mode := .wiredPlusStandby, phase := .error, authFailCount := 1
    nextAuthAt := some 65, lastError := some "no reply"
    takeoverAfter := 8, releaseAfter := 10, probeInterval := 30 }

theorem joinTimeouts_stale_timer :
    ¬ JoinTimeoutsSound (@history replyJson standbyCfg
      (staleTimerRun ++ [⟨66010, 66, .wirelessSampled campusSample⟩])) := by
  intro h
  have hstart : ((@after replyJson standbyCfg staleTimerRun).deciding failedBrain).startsJoin
      ((@after replyJson standbyCfg staleTimerRun).world campusSample 66010) = true := by
    decide
  have hs : (@after replyJson standbyCfg staleTimerRun).Samples
      ⟨66010, 66, .wirelessSampled campusSample⟩ campusSample failedBrain :=
    ⟨⟨rfl, by decide⟩, by decide, by decide⟩
  have hphase := @JoinTimeoutsSound.last replyJson _ _ _ _ _ h hs (.inl hstart) (by decide)
  revert hphase
  decide

/-! ## Late portal results -/

/-- `Action::Disassociate` is carried out. -/
def ReleasesWlan (r : Record) : Prop :=
  (∃ sample, Handles r (.wirelessSampled sample)) ∧ .disassociate ∈ r.out.effects

def SendsAssociate (r : Record) : Prop := ∃ profile, .associate profile ∈ r.out.effects

def SendsLogin (r : Record) : Prop := ∃ src timeout, .portalAuth src timeout ∈ r.out.effects

/-- A portal result outside `Authing` leaves the brain alone, and after a release
the snapshot shows `Online` only once a new association and then a new login
have been sent. -/
def LateResultsInert (t : List Record) : Prop :=
  (∀ r ∈ t, (∃ attempt, Handles r (.portalFinished attempt)) →
    r.pre.phase ≠ some .authing → r.post.brain = r.pre.brain) ∧
  (∀ past rel mid r rest, t = past ++ rel :: (mid ++ r :: rest) → ReleasesWlan rel →
    r.post.compose.wireless.phase = .online →
    ∃ xs q ys p zs, mid ++ [r] = xs ++ q :: (ys ++ p :: zs) ∧ SendsAssociate q ∧ SendsLogin p)

/-- No sample releases the WLAN while a login or an association is in flight. -/
def ReleasesIdle (r : Record) : Prop :=
  ∀ sample brain, r.pre.Samples r.input sample brain →
    (r.pre.deciding brain).releases (r.pre.world sample r.input.now) = true →
    r.pre.authInFlight = false ∧ r.pre.associateInFlight = false

theorem compose_online {s : Supervisor} (h : s.compose.wireless.phase = .online) :
    s.takeover.phase = some .online := by
  unfold compose at h
  cases hb : s.brain with
  | none => simp [hb] at h
  | some b =>
      rw [takeover_of_brain hb]
      simpa [hb, Brain.snapshot] using h

instance (r : Record) : Decidable (ReleasesIdle r) :=
  inferInstanceAs (Decidable (∀ sample brain, r.pre.Samples r.input sample brain → _ → _))

/-- A decided login is never held back while no other is in flight. -/
theorem not_held_back {s : Supervisor} {i : Input} {sample : WirelessSample} {brain : Brain}
    (halive : s.takeover.Alive) (hs : s.Samples i sample brain)
    (hauth : s.takeover.authInFlight = false) :
    ¬ (s.authInFlight = true ∨ s.takeover.routable = false) := by
  rintro (hw | hw)
  · simp [show s.takeover.authInFlight = true from hw] at hauth
  · simp [halive.routable (by simp [hs.phase])] at hw

section LateResults

variable [SerdeJson]

/-- A login in flight means `Authing`. -/
def AuthHeld (s : Supervisor) : Prop := s.authInFlight = true → s.phase = some .authing

theorem authHeld_step {s : Supervisor} {i : Input} (h : AuthHeld s)
    (hok : ReleasesIdle (Machine.stepAt step s i)) : AuthHeld (s.step i).1 := by
  intro hflight
  obtain ⟨t, fx, hm, ht, -⟩ := s.exists_moved i
  replace hflight : t.authInFlight = true := ht ▸ hflight
  change (s.step i).1.takeover.phase = _
  rw [ht]
  have hauthing : ∀ {sample brain}, s.Samples i sample brain →
      s.takeover.authInFlight = true → brain.phase = .authing := by
    intro sample brain hs hf
    exact Option.some.inj (hs.phase.symm.trans (h hf))
  cases hm with
  | still _ => exact h hflight
  | ticked => exact h hflight
  | waited _ => exact h hflight
  | stopped _ => exact h hflight
  | died _ => simp at hflight
  | associated _ _ => exact h hflight
  | replied _ _ => simp at hflight
  | probed _ _ => exact h hflight
  | joined hs hstart _ | joinedExpired hs hstart _ =>
      rcases Brain.startsJoin_phase hstart with hp | hp | hp <;>
        simp [deciding, Brain.setMode, hauthing hs hflight] at hp
  | waitedExpired hs hkeep _ =>
      have hp := Brain.keepsJoining_phase hkeep
      simp [deciding, Brain.setMode, hauthing hs hflight] at hp
  | released hs hrel =>
      have hidle : s.takeover.authInFlight = false := (hok _ _ hs hrel).1
      simp [hidle] at hflight
  | deferred _ _ _ => rfl
  | logged _ _ _ _ _ => rfl
  | lost _ _ hfree =>
      replace hfree : s.takeover.authInFlight = false := hfree
      simp [hfree] at hflight
  | asked _ _ _ _ _ => exact h hflight

theorem authHeld_after (cfg : Config) (is : List Input)
    (hok : ∀ r ∈ history cfg is, ReleasesIdle r) : AuthHeld (after cfg is) := by
  refine Machine.history_induction (I := fun _ s => AuthHeld s) ?_
    (fun _ _ _ h hr => authHeld_step h hr) is hok
  intro hflight
  change (new cfg).takeover.authInFlight = true at hflight
  rcases new_takeover cfg with ⟨r, h⟩ | h <;> simp [h] at hflight

theorem portalFinished_brain {s : Supervisor} {i : Input} {attempt : PortalAttempt}
    (hr : s.Receives i (.portalFinished attempt)) (hfree : s.authInFlight = false) :
    (s.step i).1.brain = s.brain := by
  obtain ⟨snap, hstate, -⟩ := step_of_receives hr (by simp)
  have hsame : s.handlePortalFinished attempt i.now i.wall = s := if_pos (by simp [hfree])
  rw [hstate]
  change (s.handlePortalFinished attempt i.now i.wall).brain = s.brain
  rw [hsame]

/-- How far the takeover has come back since a release: nothing sent, an
association sent, or a login sent after it. -/
inductive Regained (since : List Record) (t : Takeover) : Prop
  | nothing (hphase : t.phase = none ∨ t.phase = some .off)
      (hassoc : t.associateInFlight = false) (hauth : t.authInFlight = false)
  | association (xs : List Record) (q : Record) (ys : List Record)
      (hsince : since = xs ++ q :: ys)
      (hq : SendsAssociate q) (hauth : t.authInFlight = false)
      (honline : t.phase ≠ some .online) (hauthing : t.phase ≠ some .authing)
  | login (xs : List Record) (q : Record) (ys : List Record) (p : Record)
      (zs : List Record)
      (hsince : since = xs ++ q :: (ys ++ p :: zs)) (hq : SendsAssociate q)
      (hp : SendsLogin p)

/-- With nothing sent, only a new join moves on, and it sends the association. -/
theorem regained_of_nothing (since : List Record) {s : Supervisor} {i : Input}
    (halive : s.takeover.Alive) (hphase : s.takeover.phase = none ∨ s.takeover.phase = some .off)
    (hassoc : s.takeover.associateInFlight = false) (hauth : s.takeover.authInFlight = false) :
    Regained (since ++ [Machine.stepAt step s i]) (s.step i).1.takeover := by
  obtain ⟨t, fx, hm, ht, hfx⟩ := s.exists_moved i
  rw [ht]
  have hoff : ∀ {sample brain}, s.Samples i sample brain → brain.phase = .off := by
    intro sample brain hs
    rw [hs.phase] at hphase
    simpa using hphase
  have hassociate := associate_mem hassoc
  cases hm with
  | still _ | stopped _ | probed _ _ | ticked | waited _ | asked _ _ _ _ _ =>
      exact .nothing hphase hassoc hauth
  | died _ => exact .nothing (.inl rfl) rfl rfl
  | associated _ hwait =>
      replace hwait : s.takeover.associateInFlight = true := hwait
      simp [hassoc] at hwait
  | replied _ hwait =>
      replace hwait : s.takeover.authInFlight = true := hwait
      simp [hauth] at hwait
  | joined _ _ _ | joinedExpired _ _ _ =>
      exact .association since _ [] rfl ⟨_, sent_of_episode hfx hassociate⟩ hauth
        (by simp) (by simp)
  | waitedExpired _ _ _ | released _ _ => exact .nothing (.inr rfl) hassoc hauth
  | deferred hs _ hwhy => exact absurd hwhy (not_held_back halive hs hauth)
  | logged hs hfrom _ _ _ => simp [hoff hs] at hfrom
  | lost hs hfrom _ => simp [hoff hs] at hfrom

/-- After the association, `Authing` is only reached with a login sent. -/
theorem regained_of_association {since xs ys : List Record} {q : Record} {s : Supervisor}
    {i : Input} (halive : s.takeover.Alive) (hsince : since = xs ++ q :: ys)
    (hq : SendsAssociate q) (hauth : s.takeover.authInFlight = false)
    (honline : s.takeover.phase ≠ some .online)
    (hauthing : s.takeover.phase ≠ some .authing) :
    Regained (since ++ [Machine.stepAt step s i]) (s.step i).1.takeover := by
  obtain ⟨t, fx, hm, ht, hfx⟩ := s.exists_moved i
  rw [ht]
  have hlater : since ++ [Machine.stepAt step s i] =
      xs ++ q :: (ys ++ [Machine.stepAt step s i]) := by
    rw [hsince]
    simp
  cases hm with
  | still _ | stopped _ | associated _ _ | probed _ _ | ticked | waited _
  | asked _ _ _ _ _ =>
      exact .association _ _ _ hlater hq hauth honline hauthing
  | died _ => exact .association _ _ _ hlater hq rfl (by simp) (by simp)
  | replied _ hwait =>
      replace hwait : s.takeover.authInFlight = true := hwait
      simp [hauth] at hwait
  | joined _ _ _ | joinedExpired _ _ _ | waitedExpired _ _ _ | released _ _
  | lost _ _ _ =>
      exact .association _ _ _ hlater hq hauth (by simp) (by simp)
  | deferred hs _ hwhy => exact absurd hwhy (not_held_back halive hs hauth)
  | logged _ _ _ _ _ =>
      exact .login _ _ _ _ _ hlater hq
        ⟨_, _, sent_of_episode hfx (List.mem_of_getLast? rfl)⟩

theorem regained_step (since : List Record) (s : Supervisor) (i : Input)
    (halive : s.takeover.Alive) (h : Regained since s.takeover) :
    Regained (since ++ [Machine.stepAt step s i]) (s.step i).1.takeover := by
  cases h with
  | nothing hphase hassoc hauth => exact regained_of_nothing since halive hphase hassoc hauth
  | association xs q ys hsince hq hauth honline hauthing =>
      exact regained_of_association halive hsince hq hauth honline hauthing
  | login xs q ys p zs hsince hq hp =>
      refine .login xs q ys p (zs ++ [Machine.stepAt step s i]) ?_ hq hp
      rw [hsince]
      simp

theorem regained_run (s : Supervisor) (is : List Input) (halive : s.takeover.Alive)
    (h : Regained [] s.takeover) :
    Regained (Machine.trace step s is) (Machine.final step s is).takeover := by
  refine (Machine.history_induction (A := fun _ => True)
    (I := fun past (s : Supervisor) => s.takeover.Alive ∧ Regained past s.takeover)
    ⟨halive, h⟩ ?_ is (fun _ _ => trivial)).2
  rintro past s i ⟨halive, h⟩ -
  exact ⟨(s.step_moved i).alive halive, regained_step past s i halive h⟩

/-- A release with nothing in flight starts from nothing. -/
theorem regained_of_release {s : Supervisor} {i : Input}
    (hrel : ReleasesWlan (Machine.stepAt step s i))
    (hok : ReleasesIdle (Machine.stepAt step s i)) :
    Regained [] (s.step i).1.takeover := by
  obtain ⟨⟨sample, hevent, -⟩, hmem⟩ := hrel
  obtain ⟨t, fx, hm, ht, hfx⟩ := s.exists_moved i
  replace hmem : .disassociate ∈ fx := hfx ▸ List.mem_filter.mpr ⟨hmem, rfl⟩
  rw [ht]
  cases hm with
  | stopped hstop => simp [hstop.1] at hevent
  | released hs hrel =>
      obtain ⟨hauth, hassoc⟩ := hok _ _ hs hrel
      exact .nothing (.inr rfl) hassoc hauth
  | joined _ _ _ | joinedExpired _ _ _ =>
      unfold associateEffects at hmem
      split at hmem <;> simp at hmem
  | _ => simp at hmem

/-- **Late portal results are inert** in every run that never releases the WLAN
with a request still in flight. -/
theorem lateResults_inert (cfg : Config) (is : List Input)
    (hok : ∀ r ∈ history cfg is, ReleasesIdle r) : LateResultsInert (history cfg is) := by
  constructor
  · rintro r hr ⟨attempt, hres⟩ hphase
    obtain ⟨xs, i, ys, rfl, rfl⟩ := Machine.exists_split_of_mem hr
    have hheld : AuthHeld (after cfg xs) := by
      apply authHeld_after
      intro q hq
      apply hok
      rw [history, Machine.trace_append]
      exact List.mem_append_left _ hq
    refine portalFinished_brain hres ?_
    by_contra hflight
    -- with a login in flight the brain is in `Authing`
    exact hphase (hheld (Bool.not_eq_false _ ▸ hflight))
  · intro past rel mid r rest hsplit hrel honline
    have hrelok : ReleasesIdle rel := hok rel (by rw [hsplit]; simp)
    obtain ⟨xs, i, ys, -, -, rfl, hlater⟩ := history_split hsplit
    obtain ⟨us, j, vs, -, rfl, rfl, -⟩ := Machine.trace_split hlater.symm
    have hrun := regained_run _ (us ++ [j])
      ((step_moved (after cfg xs) i).alive (after_alive cfg xs))
      (regained_of_release hrel hrelok)
    rw [Machine.trace_snoc, Machine.final_snoc] at hrun
    have hphase := compose_online honline
    cases hrun with
    | nothing hoff _ _ =>
        rcases hoff with hoff | hoff
        · exact absurd (hoff.symm.trans hphase) (by simp)
        · exact absurd (hoff.symm.trans hphase) (by simp)
    | association _ _ _ _ _ _ hnot _ => exact absurd hphase hnot
    | login _ _ _ _ _ hsince hq hp => exact ⟨_, _, _, _, _, hsince, hq, hp⟩

theorem LateResultsInert.last {cfg : Config} {is : List Input} {i : Input}
    {attempt : PortalAttempt} (h : LateResultsInert (history cfg (is ++ [i])))
    (hres : (after cfg is).Receives i (.portalFinished attempt))
    (hphase : (after cfg is).phase ≠ some .authing) :
    (after cfg (is ++ [i])).brain = (after cfg is).brain := by
  rw [history, Machine.trace_snoc] at h
  rw [after, Machine.final_snoc]
  exact h.1 (Machine.stepAt step (after cfg is) i)
    (List.mem_append_right _ (List.mem_singleton_self _)) ⟨attempt, hres⟩ hphase

end LateResults

/-- A login that is answered in time; a release with nothing in flight; a second
association and login. -/
def releaseAndReturnRun : List Input :=
  loginRun ++
  [⟨2020, 2, .portalFinished (.replied 200 "dr1004(\x7b\"result\":\"1\"\x7d)")⟩,
    ⟨2030, 2, .linkSampled (some true) none⟩,
    ⟨2040, 2, .watchdogStepped ⟨.fromSecs 30, ⟨.connected, some 2, none, 0⟩, none⟩⟩,
    ⟨2050, 2, .command (.setMode .wiredExclusive)⟩,
    ⟨4010, 4, .wake⟩, ⟨4020, 4, .wirelessSampled campusSample⟩,
    ⟨15000, 15, .wake⟩, ⟨15010, 15, .wirelessSampled campusSample⟩,
    ⟨15500, 15, .command (.setMode .wiredPlusStandby)⟩,
    ⟨17000, 17, .wake⟩, ⟨17010, 17, .wirelessSampled {}⟩,
    ⟨18000, 18, .associateFinished (.ok ())⟩,
    ⟨19000, 19, .wake⟩, ⟨19010, 19, .wirelessSampled campusSample⟩,
    ⟨20000, 20, .portalFinished (.replied 200 "dr1004(\x7b\"result\":\"1\"\x7d)")⟩]

theorem lateResults_inert_release_and_return :
    (@after replyJson standbyCfg releaseAndReturnRun).phase = some .online ∧
      LateResultsInert (@history replyJson standbyCfg releaseAndReturnRun) :=
  ⟨by decide +kernel,
    @lateResults_inert replyJson standbyCfg releaseAndReturnRun (by decide +kernel)⟩

/-- A standby login is in flight when the user switches to exclusive mode with
the wired side up: the WLAN is released 10 s later, the reply comes after it. -/
def lateReplyRun : List Input :=
  loginRun ++
  [⟨2020, 2, .wake⟩, ⟨2030, 2, .linkSampled (some true) none⟩,
    ⟨2040, 2, .watchdogStepped ⟨.fromSecs 30, ⟨.connected, some 2, none, 0⟩, none⟩⟩,
    ⟨2050, 2, .command (.setMode .wiredExclusive)⟩,
    ⟨4010, 4, .wake⟩, ⟨4020, 4, .wirelessSampled campusSample⟩,
    ⟨15000, 15, .wake⟩, ⟨15010, 15, .wirelessSampled campusSample⟩]

def lateReply : Input :=
  ⟨16000, 16, .portalFinished (.replied 200 "dr1004(\x7b\"result\":\"1\"\x7d)")⟩

theorem lateResults_reply_after_release :
    ¬ LateResultsInert (@history replyJson standbyCfg (lateReplyRun ++ [lateReply])) := by
  intro h
  have hbrain := @LateResultsInert.last replyJson standbyCfg lateReplyRun lateReply _ h
    ⟨rfl, by decide +kernel⟩ (by decide +kernel)
  revert hbrain
  decide +kernel

/-! ## Credentials and the join -/

/-- A login is sent from `Joining`. -/
def LogsInFromJoining (r : Record) : Prop := InJoining r ∧ SendsLogin r

/-- Every login from `Joining` follows a successful answer to an association that
was sent for the same stay. -/
def LoginsFollowAssociation (t : List Record) : Prop :=
  ∀ past r rest, t = past ++ r :: rest → LogsInFromJoining r →
    Since (fun a => SendsAssociate a ∧ a.post.phase = some .joining) InJoining past ∧
    Since (fun q => Handles q (.associateFinished (.ok ())) ∧
      q.pre.associateInFlight = true ∧ InJoining q) InJoining past

/-- The stay in `Joining` begins, with an association sent or still out. -/
def EntersJoining (r : Record) : Prop :=
  ¬ InJoining r ∧ r.post.phase = some .joining ∧
    (SendsAssociate r ∨ r.pre.associateInFlight = true)

def RequestsSample (r : Record) : Prop := .sampleWireless ∈ r.out.effects

section Credentials

variable [SerdeJson]

/-- `Joining` was entered at a step of the past, and a sample that is awaited
was asked for since then. -/
def EnteredJoining (past : List Record) (s : Supervisor) : Prop :=
  s.phase = some .joining → Since EntersJoining InJoining past ∧
    (s.wirelessSampleInFlight = true →
      Since (fun w => RequestsSample w ∧ InJoining w) InJoining past)

theorem enteredJoining_step (past : List Record) (s : Supervisor) (i : Input)
    (h : EnteredJoining past s) :
    EnteredJoining (past ++ [Machine.stepAt step s i]) (s.step i).1 := by
  intro hjoin
  obtain ⟨t, fx, hm, ht, hfx⟩ := s.exists_moved i
  have hphase : (s.step i).1.phase = t.phase := ht ▸ rfl
  have hawait : (s.step i).1.wirelessSampleInFlight = t.wirelessSampleInFlight := ht ▸ rfl
  rw [hphase] at hjoin
  rw [hawait]
  -- the stay goes on: the step was taken in `Joining`
  have hstay : s.phase = some .joining → (t.wirelessSampleInFlight = true →
      s.wirelessSampleInFlight = true ∨ .sampleWireless ∈ fx) →
      Since EntersJoining InJoining (past ++ [Machine.stepAt step s i]) ∧
      (t.wirelessSampleInFlight = true → Since (fun w => RequestsSample w ∧ InJoining w)
        InJoining (past ++ [Machine.stepAt step s i])) := by
    intro hj hask
    refine ⟨(h hj).1.snoc hj, fun hw => ?_⟩
    rcases hask hw with hw | hw
    · exact ((h hj).2 hw).snoc hj
    · exact .of_last ⟨sent_of_episode hfx hw, hj⟩
  cases hm with
  | still _ | stopped _ | associated _ _ | probed _ _ => exact hstay hjoin (fun hw => .inl hw)
  | ticked => exact hstay hjoin (fun _ => .inr (by simp))
  | waited _ | asked _ _ _ _ _ => exact hstay hjoin (by simp)
  | died _ => simp at hjoin
  | replied _ _ =>
      obtain ⟨p, -, hp⟩ := Option.map_eq_some_iff.mp hjoin
      split at hp <;> simp at hp
  | joined hs hstart _ =>
      -- the sample in flight was consumed by this step
      refine ⟨.of_last ⟨?_, hphase, ?_⟩, by simp⟩
      · exact fun hj => not_startsJoin_of_joining hs hj hstart
      · cases hassoc : s.associateInFlight with
        | true => exact .inr hassoc
        | false => exact .inl ⟨_, sent_of_episode hfx (associate_mem hassoc)⟩
  | joinedExpired _ _ _ | waitedExpired _ _ _ | released _ _ | deferred _ _ _
  | logged _ _ _ _ _ | lost _ _ _ => simp at hjoin

theorem enteredJoining_history (cfg : Config) (is : List Input) :
    EnteredJoining (history cfg is) (after cfg is) := by
  refine Machine.history_induction (A := fun _ => True) ?_
    (fun past s i h _ => enteredJoining_step past s i h) is (fun _ _ => trivial)
  intro hjoin
  change (new cfg).takeover.phase = _ at hjoin
  rcases new_takeover cfg with ⟨r, h⟩ | h <;> simp [h] at hjoin

/-- A login effect comes from one accepted sample. -/
theorem login_sample {s : Supervisor} {i : Input}
    (h : SendsLogin (Machine.stepAt step s i)) :
    ∃ sample brain wlan gateway, s.Samples i sample brain ∧
      (brain.phase = .joining → sample.associated = true) ∧
      sample.wlan = some wlan ∧ wlan.gateway = some gateway ∧
      ∀ src timeout, .portalAuth src timeout ∈ (s.step i).2.effects → src = wlan.ipv4 := by
  obtain ⟨src, timeout, hmem⟩ := h
  obtain ⟨t, fx, hm, -, hfx⟩ := s.exists_moved i
  have hback : ∀ src timeout, .portalAuth src timeout ∈ (s.step i).2.effects →
      .portalAuth src timeout ∈ fx :=
    fun _ _ he => hfx ▸ List.mem_filter.mpr ⟨he, rfl⟩
  have hlogin := hback src timeout hmem
  cases hm with
  | @logged sample brain armed wlan gateway hs hfrom hwlan hgw _ =>
      refine ⟨sample, brain, wlan, gateway, hs, ?_, hwlan, hgw, ?_⟩
      · intro hp
        simpa [hp] using hfrom
      · intro src' timeout' he
        have := hback src' timeout' he
        simp only [List.mem_cons, reduceCtorEq, false_or, List.not_mem_nil, or_false,
          Effect.portalAuth.injEq] at this
        exact this.1
  | joined _ _ _ | joinedExpired _ _ _ =>
      unfold associateEffects at hlogin
      split at hlogin <;> simp at hlogin
  | _ => simp at hlogin

/-- **Credentials from `Joining`.** The login is sent on an accepted sample that
shows an association with an address and a gateway; the stay in `Joining` began
at an earlier step with an association sent or still out; and the sample was
asked for after that. -/
theorem login_from_joining (cfg : Config) (is : List Input) (past : List Record)
    (r : Record) (rest : List Record) (hsplit : history cfg is = past ++ r :: rest)
    (hlogin : LogsInFromJoining r) :
    (∃ sample wlan gateway, Handles r (.wirelessSampled sample) ∧
      sample.associated = true ∧ sample.wlan = some wlan ∧ wlan.gateway = some gateway ∧
      ∀ src timeout, .portalAuth src timeout ∈ r.out.effects → src = wlan.ipv4) ∧
    Since EntersJoining InJoining past ∧
    Since (fun w => RequestsSample w ∧ InJoining w) InJoining past := by
  obtain ⟨xs, i, ys, -, rfl, rfl, -⟩ := history_split hsplit
  obtain ⟨hjoin, hsend⟩ := hlogin
  obtain ⟨sample, brain, wlan, gateway, hs, hassoc, hwlan, hgw, hsrc⟩ := login_sample hsend
  have hphase : brain.phase = .joining := Option.some.inj (hs.phase.symm.trans hjoin)
  obtain ⟨hentered, hasked⟩ := enteredJoining_history cfg xs hjoin
  exact ⟨⟨sample, wlan, gateway, hs.received, hassoc hphase, hwlan, hgw, hsrc⟩, hentered,
    hasked hs.awaited⟩

theorem LoginsFollowAssociation.last {cfg : Config} {is : List Input} {i : Input}
    (h : LoginsFollowAssociation (history cfg (is ++ [i])))
    (hlogin : LogsInFromJoining (Machine.stepAt step (after cfg is) i)) :
    ∃ j ∈ is, j.event = .associateFinished (.ok ()) := by
  rw [history, Machine.trace_snoc] at h
  obtain ⟨older, q, mid, hpast, ⟨hq, -⟩, -⟩ := (h _ _ [] rfl hlogin).2
  obtain ⟨xs, j, ys, rfl, -, rfl, -⟩ := Machine.trace_split hpast
  exact ⟨j, by simp, hq.1⟩

end Credentials

theorem login_from_joining_first :
    LogsInFromJoining (Machine.stepAt (@step replyJson) (@after replyJson standbyCfg joinRun)
      loginInput) ∧
    Since EntersJoining InJoining (@history replyJson standbyCfg joinRun) := by
  have hlogin : LogsInFromJoining (Machine.stepAt (@step replyJson)
      (@after replyJson standbyCfg joinRun) loginInput) :=
    ⟨by decide, ⟨10, 1, 1, 5⟩, portalAuthTimeout, by decide⟩
  exact ⟨hlogin, (@login_from_joining replyJson standbyCfg loginRun _ _ []
    (Machine.trace_snoc _ _ _) hlogin).2.1⟩

/-- The adapter is still connected to some network when the association has been
sent: the next sample logs in there, no answer seen. -/
def unansweredJoinRun : List Input :=
  [⟨0, 0, .started⟩, ⟨10, 0, .wirelessSampled {}⟩, ⟨2000, 2, .wake⟩]

theorem login_without_association_result :
    ¬ LoginsFollowAssociation (@history replyJson standbyCfg
      (unansweredJoinRun ++ [loginInput])) := by
  intro h
  obtain ⟨j, hj, hevent⟩ := @LoginsFollowAssociation.last replyJson _ _ _ h
    ⟨by decide, ⟨10, 1, 1, 5⟩, portalAuthTimeout, by decide⟩
  simp only [unansweredJoinRun, List.mem_cons, List.not_mem_nil, or_false] at hj
  rcases hj with rfl | rfl | rfl <;> simp at hevent

end GdutNet.Supervisor
