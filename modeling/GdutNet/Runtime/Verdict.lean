import GdutNet.Runtime.Worker

/-!
# One verdict, one login

A kicked verdict makes an online brain log in again. The login clears the
verdict, but a probe that was under way would set it a second time. It never
is: the lane and the result channel are in order, so whatever was asked for
before a login is answered before it. `pending` lists what is asked for and
not yet answered, and `Queued` says that a login is always the last entry.
-/

namespace GdutNet

/-- The requests whose answers move the verdict. -/
inductive Ask where
  | login
  | probe
deriving DecidableEq, Repr

def Effect.ask : Effect → Option Ask
  | .portalAuth _ _ => some .login
  | .wlanProbe _ _ _ => some .probe
  | _ => none

/-- The request that a result answers. -/
def Event.ask : Event → Option Ask
  | .portalFinished _ => some .login
  | .wlanProbeFinished _ => some .probe
  | _ => none

namespace Supervisor

/-- Everything one input can do to the verdict and to the login in flight, with
the requests it sends. -/
inductive Exchanged (s : Supervisor) (i : Input) (t : Takeover) : List Ask → Prop
  | quiet (hauth : t.authInFlight = s.authInFlight)
      (hverdict : t.verdict = s.verdict ∨ t.verdict = none)
      (hphase : t.phase = some .online → s.phase = some .online)
      (hlive : t.phase ≠ none → s.phase ≠ none) : Exchanged s i t []
  | died (hdead : t.phase = none) : Exchanged s i t []
  | replied {attempt : PortalAttempt} (hres : s.Receives i (.portalFinished attempt))
      (hwait : s.authInFlight = true) (hauth : t.authInFlight = false)
      (hverdict : t.verdict = none) (hlive : t.phase ≠ none → s.phase ≠ none) :
      Exchanged s i t []
  | probed {verdict : ProbeVerdict} (hres : s.Receives i (.wlanProbeFinished verdict))
      (hwait : s.probeInFlight = true) (hauth : t.authInFlight = s.authInFlight)
      (hverdict : t.verdict = some verdict) (hphase : t.phase = s.phase) : Exchanged s i t []
  | login (hkick : s.phase = some .online → s.verdict = some .kicked)
      (hfree : s.authInFlight = false) (hlive : s.phase ≠ none)
      (hphase : t.phase = some .authing) (hauth : t.authInFlight = true)
      (hverdict : t.verdict = s.verdict) : Exchanged s i t [.login]
  | probe (honline : s.phase = some .online) (hphase : t.phase = s.phase)
      (hauth : t.authInFlight = s.authInFlight) (hverdict : t.verdict = s.verdict) :
      Exchanged s i t [.probe]

theorem associateEffects_ask (s : Supervisor) :
    s.associateEffects.filterMap Effect.ask = [] := by
  unfold associateEffects
  split <;> rfl

theorem Moved.exchanged [SerdeJson] {s : Supervisor} {i : Input} {t : Takeover}
    {fx : List Effect} (h : Moved s i t fx) : Exchanged s i t (fx.filterMap Effect.ask) := by
  cases h with
  | still _ | stopped _ | associated _ _ | ticked | waited _ =>
      exact .quiet rfl (.inl rfl) id id
  | died _ => exact .died rfl
  | replied hres hwait =>
      refine .replied hres hwait rfl rfl (fun h => ?_)
      simpa using h
  | probed hres hwait => exact .probed hres hwait rfl rfl rfl
  | joined hs _ _ | joinedExpired hs _ _ =>
      rw [associateEffects_ask]
      exact .quiet rfl (.inl rfl) (by simp) (fun _ => by simp [phase, hs.live])
  | waitedExpired hs _ _ | deferred hs _ _ =>
      exact .quiet rfl (.inl rfl) (by simp) (fun _ => by simp [phase, hs.live])
  | released hs _ | lost hs _ _ =>
      exact .quiet rfl (.inr rfl) (by simp) (fun _ => by simp [phase, hs.live])
  | logged hs hfrom _ _ hfree =>
      refine .login (fun honline => ?_) hfree (by simp [phase, hs.live]) rfl rfl rfl
      have hphase : s.phase = some _ := hs.phase
      rw [hphase, Option.some.injEq] at honline
      rcases hfrom with ⟨h, -⟩ | ⟨-, hkick⟩ | ⟨h, -⟩
      · simp [honline] at h
      · exact hkick
      · simp [honline] at h
  | asked hs hfrom _ _ _ =>
      have hphase : s.phase = some _ := hs.phase
      exact .probe (by rw [hphase, hfrom]) rfl rfl rfl

theorem filterMap_ask (effects : List Effect) :
    (effects.filter Effect.episode).filterMap Effect.ask = effects.filterMap Effect.ask := by
  rw [List.filterMap_filter]
  congr
  funext effect
  cases effect <;> rfl

theorem step_exchanged [SerdeJson] (s : Supervisor) (i : Input) :
    Exchanged s i (s.step i).1.takeover ((s.step i).2.effects.filterMap Effect.ask) := by
  rw [← filterMap_ask]
  exact (s.step_moved i).exchanged

end Supervisor

/-! ## What is pending -/

namespace WirelessWorker

theorem send_or (a : LaneAnswer) (event : Event) : send a event = [] ∨ send a event = [event] := by
  unfold send
  split
  · exact .inl rfl
  · exact .inr rfl

theorem sendRaced_or (a : LaneAnswer) (raceStop : Bool) (event : Event) :
    sendRaced a raceStop event = [] ∨ sendRaced a raceStop event = [event] := by
  unfold sendRaced raced
  cases raceStop && a.stopFirst with
  | true => exact .inl rfl
  | false => exact send_or a event

/-- The worker answers an effect at most once, with a result of its own kind. -/
theorem runEffect_replies (w : WirelessWorker) (a : LaneAnswer) (raceStop : Bool)
    (effect : Effect) :
    (w.runEffect a raceStop effect).2.2 = [] ∨
      ∃ event, (w.runEffect a raceStop effect).2.2 = [event] ∧ event.ask = effect.ask := by
  cases effect with
  | associate profile => exact (sendRaced_or a raceStop _).imp id (fun h => ⟨_, h, rfl⟩)
  | wlanProbe srcIp gateway url =>
      exact (sendRaced_or a raceStop _).imp id (fun h => ⟨_, h, rfl⟩)
  | portalAuth srcIp timeout =>
      unfold runEffect
      dsimp only
      split
      · exact (send_or a _).imp id (fun h => ⟨_, h, rfl⟩)
      · exact (sendRaced_or a raceStop _).imp id (fun h => ⟨_, h, rfl⟩)
  | acquireWirelessEgress endpoint =>
      unfold runEffect
      dsimp only
      split <;> exact .inl rfl
  | _ => exact .inl rfl

end WirelessWorker

namespace Service

/-- The requests in a part of the lane. -/
def asks (lane : List Sent) : List (ℕ × Ask) :=
  lane.flatMap (fun s => s.msg.effects.filterMap (fun e => e.ask.map (s.serial, ·)))

/-- The requests answered in a part of the result channel. -/
def answered (results : List (ℕ × Event)) : List (ℕ × Ask) :=
  results.filterMap (fun p => p.2.ask.map (p.1, ·))

/-- What is asked for and not yet delivered, oldest first. -/
def pending (sv : Service) : List (ℕ × Ask) := answered sv.results ++ asks sv.lane

theorem asks_append (xs ys : List Sent) : asks (xs ++ ys) = asks xs ++ asks ys :=
  List.flatMap_append

theorem asks_number (event : Event) (msgs : List LaneMsg) (k : ℕ) :
    (asks (number event k msgs)).map (·.2) =
      (msgs.flatMap LaneMsg.effects).filterMap Effect.ask := by
  induction msgs generalizing k with
  | nil => rfl
  | cons msg msgs ih =>
      have hcons : asks (number event k (msg :: msgs)) =
          msg.effects.filterMap (fun e => e.ask.map (k, ·)) ++
            asks (number event (k + 1) msgs) := rfl
      have hfirst : (msg.effects.filterMap (fun e => e.ask.map (k, ·))).map (·.2) =
          msg.effects.filterMap Effect.ask := by
        simp [List.map_filterMap, Function.comp_def]
      rw [hcons, List.map_append, ih, hfirst, List.flatMap_cons, List.filterMap_append]

/-- The worker moves requests from the lane to the results, or loses them. -/
theorem answered_runEffects (answers : ℕ → LaneAnswer) (raceStop : Bool) (serial : ℕ)
    (effects : List Effect) (w : WirelessWorker) (k : ℕ) :
    (answered ((w.runEffects answers raceStop k effects).2.2.map (serial, ·))).Sublist
      (effects.filterMap (fun e => e.ask.map (serial, ·))) := by
  induction effects generalizing w k with
  | nil => exact List.nil_sublist _
  | cons effect effects ih =>
      have hrest := ih (w.runEffect (answers k) raceStop effect).1 (k + 1)
      have hfirst : (answered ((w.runEffect (answers k) raceStop effect).2.2.map
          (serial, ·))).Sublist ([effect].filterMap (fun e => e.ask.map (serial, ·))) := by
        rcases w.runEffect_replies (answers k) raceStop effect with h | ⟨event, h, hask⟩
        · rw [h]
          exact List.nil_sublist _
        · rw [h, answered, List.map_cons, List.filterMap_cons, hask]
          exact List.Sublist.refl _
      have hsplit : (effect :: effects).filterMap (fun e => e.ask.map (serial, ·)) =
          [effect].filterMap (fun e => e.ask.map (serial, ·)) ++
            effects.filterMap (fun e => e.ask.map (serial, ·)) :=
        List.filterMap_append (l := [effect])
      rw [hsplit, WirelessWorker.runEffects, List.map_append, answered, List.filterMap_append]
      exact hfirst.append hrest

theorem pending_work {sv : Service} {s : Sent} {lane : List Sent} (hlane : sv.lane = s :: lane)
    (w : WirelessWorker) (answers : ℕ → LaneAnswer) :
    (answered (sv.results ++ (w.take answers s.msg).2.2.map (s.serial, ·)) ++
      asks lane).Sublist sv.pending := by
  have htake : (answered ((w.take answers s.msg).2.2.map (s.serial, ·))).Sublist
      (s.msg.effects.filterMap (fun e => e.ask.map (s.serial, ·))) := by
    cases s.msg with
    | effect e => exact answered_runEffects answers true s.serial [e] _ 0
    | shutdown es => exact answered_runEffects answers false s.serial es _ 0
  have hasks : asks (s :: lane) =
      s.msg.effects.filterMap (fun e => e.ask.map (s.serial, ·)) ++ asks lane := rfl
  unfold pending
  rw [hlane, hasks, answered, List.filterMap_append, List.append_assoc]
  exact (List.Sublist.refl _).append (htake.append (List.Sublist.refl _))

/-- The result at the head of the channel is the oldest request. -/
theorem pending_deliver {sv : Service} {serial : ℕ} {event : Event}
    {results : List (ℕ × Event)} (h : sv.results = (serial, event) :: results) :
    sv.pending = (event.ask.map (serial, ·)).toList ++ pending { sv with results } := by
  unfold pending answered
  rw [h, List.filterMap_cons]
  cases event.ask <;> rfl

/-- A pending login is the last thing pending, and it is in flight. -/
structure Queued (t : Takeover) (pending : List (ℕ × Ask)) : Prop where
  settled : t.phase = some .online → t.authInFlight = false
  idle : t.phase ≠ none → t.authInFlight = false → ∀ p ∈ pending, p.2 ≠ .login
  last : t.phase ≠ none → pending.Pairwise (fun p _ => p.2 ≠ .login)

theorem Queued.sublist {t : Takeover} {ps qs : List (ℕ × Ask)} (h : Queued t ps)
    (hsub : qs.Sublist ps) : Queued t qs :=
  ⟨h.settled, fun hlive hfree p hp => h.idle hlive hfree p (hsub.subset hp),
    fun hlive => (h.last hlive).sublist hsub⟩

/-- A delivered login leaves nothing pending. -/
theorem Queued.alone {t : Takeover} {serial : ℕ} {ps : List (ℕ × Ask)}
    (h : Queued t ((serial, .login) :: ps)) (hlive : t.phase ≠ none) : ps = [] := by
  cases ps with
  | nil => rfl
  | cons q qs => exact absurd rfl ((List.pairwise_cons.mp (h.last hlive)).1 q List.mem_cons_self)

/-- A reaction keeps the order, if an accepted login finds nothing else pending. -/
theorem Queued.exchange {s : Supervisor} {i : Input} {t : Takeover} {ps new : List (ℕ × Ask)}
    (h : Queued s.takeover ps) (hex : s.Exchanged i t (new.map (·.2)))
    (halone : ∀ attempt, i.event = .portalFinished attempt → s.phase ≠ none → ps = []) :
    Queued t (ps ++ new) := by
  generalize hkinds : new.map (·.2) = kinds at hex
  cases hex with
  | quiet hauth _ hphase hlive =>
      obtain rfl := List.map_eq_nil_iff.mp hkinds
      rw [List.append_nil]
      exact ⟨fun ho => hauth.trans (h.settled (hphase ho)),
        fun hl hf => h.idle (hlive hl) (hauth.symm.trans hf), fun hl => h.last (hlive hl)⟩
  | died hdead => exact ⟨by simp [hdead], fun hl => absurd hdead hl, fun hl => absurd hdead hl⟩
  | replied hres _ hauth _ hlive =>
      obtain rfl := List.map_eq_nil_iff.mp hkinds
      rw [List.append_nil]
      -- the accepted login was last, so nothing is pending any more
      exact ⟨fun _ => hauth, fun hl _ => by simp [halone _ hres.1 (hlive hl)],
        fun hl => by simp [halone _ hres.1 (hlive hl)]⟩
  | probed _ _ hauth _ hphase =>
      obtain rfl := List.map_eq_nil_iff.mp hkinds
      rw [List.append_nil]
      have hlive : t.phase ≠ none → s.phase ≠ none := by
        rw [hphase]
        exact id
      exact ⟨fun ho => hauth.trans (h.settled (hphase.symm.trans ho)),
        fun hl hf => h.idle (hlive hl) (hauth.symm.trans hf), fun hl => h.last (hlive hl)⟩
  | login _ hfree hlive hphase hauth _ =>
      obtain ⟨p, rfl, hp⟩ := List.map_eq_singleton_iff.mp hkinds
      refine ⟨by simp [hphase], fun _ hf => by simp [hauth] at hf, fun _ => ?_⟩
      -- no login was in flight, so none is pending before the new one
      refine List.pairwise_append.mpr ⟨h.last hlive, List.pairwise_singleton _ _, ?_⟩
      exact fun q hq _ _ => h.idle hlive hfree q hq
  | probe honline hphase hauth _ =>
      obtain ⟨p, rfl, hp⟩ := List.map_eq_singleton_iff.mp hkinds
      -- an online brain has no login in flight, so the probe comes behind none
      have hlive : s.phase ≠ none := by simp [honline]
      have hnone := h.idle hlive (h.settled honline)
      refine ⟨fun _ => hauth.trans (h.settled honline), fun _ _ => ?_, fun _ => ?_⟩
      · intro q hq
        rcases List.mem_append.mp hq with hq | hq
        · exact hnone q hq
        · rw [List.mem_singleton.mp hq, hp]
          simp
      · exact List.pairwise_append.mpr
          ⟨h.last hlive, List.pairwise_singleton _ _, fun q hq _ _ => hnone q hq⟩

section Runs

variable [SerdeJson]

theorem pending_react (sv : Service) (i : Input) :
    (sv.react i).1.pending = sv.pending ++ asks (sv.react i).2 := by
  unfold pending
  rw [(sv.react_lane i).1, asks_append, ← List.append_assoc]
  rfl

theorem react_exchanged (sv : Service) (i : Input) :
    sv.core.Exchanged i (sv.react i).1.core.takeover ((asks (sv.react i).2).map (·.2)) := by
  have hasks : (asks (sv.react i).2).map (·.2) =
      (sv.core.step i).2.effects.filterMap Effect.ask := by
    have h := asks_number i.event (messages i.event (sv.core.step i).2.effects) sv.sent
    rw [messages_effects, List.filterMap_filter] at h
    refine h.trans ?_
    congr
    funext effect
    cases effect <;> rfl
  rw [hasks]
  exact sv.core.step_exchanged i

/-- The step `r` feeds the input `i` to the supervisor. `sv` is the service without
the result that is being delivered. -/
structure Reacts (r : Record) (sv : Service) (i : Input) : Prop where
  core : sv.core = r.pre.core
  serials : sv.sent = r.pre.sent
  fewer : sv.pending.Sublist r.pre.pending
  head : ∀ ask, i.event.ask = some ask → ∃ k, r.out.delivered = some k ∧
    r.pre.pending = (k, ask) :: sv.pending
  input : r.out.input = some i
  sent : r.out.sent = (sv.react i).2
  post : r.post = (sv.react i).1

/-- The step `r` leaves the supervisor alone and asks for nothing. -/
structure Rests (r : Record) : Prop where
  core : r.post.core = r.pre.core
  serials : r.post.sent = r.pre.sent
  fewer : r.post.pending.Sublist r.pre.pending
  sent : r.out.sent = []

theorem step_reacts (sv : Service) (act : Act) :
    Rests (Machine.stepAt step sv act) ∨
      ∃ sv' i, Reacts (Machine.stepAt step sv act) sv' i := by
  have hwent := sv.step_went act
  have hrec : Machine.stepAt step sv act =
    ⟨sv, act, (sv.step act).2, (sv.step act).1⟩ := rfl
  rw [hrec]
  generalize sv.step act = p at hwent
  cases hwent with
  | idle | tick => exact .inl ⟨rfl, rfl, List.Sublist.refl _, rfl⟩
  | work _ _ hlane => exact .inl ⟨rfl, rfl, pending_work hlane _ _, rfl⟩
  | @event i hsource =>
      refine .inr ⟨sv, i, rfl, rfl, List.Sublist.refl _, ?_, rfl, rfl, rfl⟩
      intro ask hask
      cases he : i.event <;> simp [he, Event.ask, Event.fromWorker] at hask hsource
  | @deliver i k results hresults =>
      have hpend := pending_deliver hresults
      refine .inr ⟨{ sv with results }, i, rfl, rfl, ?_, ?_, rfl, rfl, rfl⟩
      · rw [hpend]
        exact List.sublist_append_right _ _
      · intro ask hask
        refine ⟨k, rfl, ?_⟩
        rw [hpend, hask]
        rfl

theorem Reacts.exchanged {r : Record} {sv : Service} {i : Input} (h : Reacts r sv i) :
    r.pre.core.Exchanged i r.post.core.takeover ((asks r.out.sent).map (·.2)) := by
  rw [← h.core, h.post, h.sent]
  exact sv.react_exchanged i

theorem Reacts.pending {r : Record} {sv : Service} {i : Input} (h : Reacts r sv i) :
    r.post.pending = sv.pending ++ asks r.out.sent := by
  rw [h.post, h.sent]
  exact sv.pending_react i

theorem queued_step {sv : Service} (h : Queued sv.core.takeover sv.pending) (act : Act) :
    Queued (sv.step act).1.core.takeover (sv.step act).1.pending := by
  rcases sv.step_reacts act with hrest | ⟨sv', i, hreact⟩
  · have hcore : (sv.step act).1.core = sv.core := hrest.core
    rw [hcore]
    exact h.sublist hrest.fewer
  · have hpend : (sv.step act).1.pending = _ := hreact.pending
    rw [hpend]
    refine Queued.exchange (h.sublist hreact.fewer) hreact.exchanged ?_
    intro attempt he hlive
    obtain ⟨k, -, hhead⟩ := hreact.head .login (by rw [he]; rfl)
    have hhead : sv.pending = (k, .login) :: sv'.pending := hhead
    rw [hhead] at h
    exact h.alone hlive

theorem queued_after (cfg : Config) (pass : String) (os : Os) (acts : List Act) :
    Queued (after cfg pass os acts).core.takeover (after cfg pass os acts).pending := by
  refine Machine.final_induction (I := fun sv : Service => Queued sv.core.takeover sv.pending)
    (fun _ act h => queued_step h act) ?_ acts
  have hempty : (new cfg pass os).pending = [] := rfl
  rw [hempty]
  refine ⟨fun honline => ?_, by simp, by simp⟩
  change (Supervisor.new cfg).takeover.phase = _ at honline
  rcases Supervisor.new_takeover cfg with ⟨_, h⟩ | h <;> simp [h] at honline

end Runs

/-! ## From one login to the next -/

/-- The step sends a request of this kind, with this serial number. -/
def Sends (r : Record) (serial : ℕ) (ask : Ask) : Prop :=
  ∃ s ∈ r.out.sent, s.serial = serial ∧ ∃ effect ∈ s.msg.effects, effect.ask = some ask

/-- The step delivers the result of the request with this serial number. -/
def Delivers (r : Record) (serial : ℕ) (event : Event) : Prop :=
  r.out.delivered = some serial ∧ ∃ i, r.out.input = some i ∧ r.pre.core.Receives i event

def AcceptsLogin (r : Record) (serial : ℕ) : Prop :=
  (∃ attempt, Delivers r serial (.portalFinished attempt)) ∧ r.pre.core.authInFlight = true

def AcceptsKicked (r : Record) (serial : ℕ) : Prop :=
  Delivers r serial (.wlanProbeFinished .kicked) ∧ r.pre.core.probeInFlight = true

/-- A login issued by an online brain. -/
def OnlineLogin (r : Record) (serial : ℕ) : Prop :=
  r.pre.core.phase = some .online ∧ Sends r serial .login

/-- A probe was sent, and afterwards found the WLAN kicked. -/
def Kicked (past : List Record) : Prop :=
  ∃ a p b q c serial, past = a ++ p :: (b ++ q :: c) ∧ Sends p serial .probe ∧
    AcceptsKicked q serial

theorem Kicked.snoc {past : List Record} (h : Kicked past) (r : Record) :
    Kicked (past ++ [r]) := by
  obtain ⟨a, p, b, q, c, serial, rfl, hp, hq⟩ := h
  exact ⟨a, p, b, q, c ++ [r], serial, by simp, hp, hq⟩

theorem sends_iff {r : Record} {serial : ℕ} {ask : Ask} :
    Sends r serial ask ↔ (serial, ask) ∈ asks r.out.sent := by
  unfold asks
  simp only [List.mem_flatMap, List.mem_filterMap, Option.map_eq_some_iff, Prod.mk.injEq]
  constructor
  · rintro ⟨s, hs, hserial, effect, he, hask⟩
    exact ⟨s, hs, effect, he, ask, hask, hserial, rfl⟩
  · rintro ⟨s, hs, effect, he, _, hask, hserial, rfl⟩
    exact ⟨s, hs, hserial, effect, he, hask⟩

/-- What can have happened since the login with number `serial`: the wireless side
is gone, the login is still in flight, or it was accepted and every probe that
counts was sent after that. -/
inductive Progress (serial : ℕ) (since : List Record) (sv : Service) : Prop
  | dead (h : sv.core.phase = none)
  | waiting (hflight : sv.core.authInFlight = true)
      (honly : ∀ p ∈ sv.pending, p.2 = .login → p.1 = serial)
  | accepted {a b : List Record} {f : Record} (hsince : since = a ++ f :: b)
      (haccept : AcceptsLogin f serial)
      (hprobes : ∀ p ∈ sv.pending, p.2 = .probe → ∃ r ∈ b, Sends r p.1 .probe)
      (hkicked : sv.core.verdict = some .kicked → Kicked b)

theorem Progress.frame {serial : ℕ} {since : List Record} {sv sv' : Service}
    (h : Progress serial since sv) (hcore : sv'.core = sv.core)
    (hsub : sv'.pending.Sublist sv.pending) (r : Record) :
    Progress serial (since ++ [r]) sv' := by
  cases h with
  | dead h => exact .dead (hcore ▸ h)
  | waiting hflight honly =>
      exact .waiting (hcore ▸ hflight) (fun p hp => honly p (hsub.subset hp))
  | @accepted a b f hsince haccept hprobes hkicked =>
      refine .accepted (a := a) (b := b ++ [r]) (by simp [hsince]) haccept ?_ ?_
      · intro p hp hask
        obtain ⟨q, hq, hs⟩ := hprobes p (hsub.subset hp) hask
        exact ⟨q, List.mem_append_left _ hq, hs⟩
      · rw [hcore]
        exact fun hk => (hkicked hk).snoc r

section Logins

variable [SerdeJson]

theorem Reacts.sends {r : Record} {sv : Service} {i : Input} (h : Reacts r sv i) :
    ∀ p ∈ r.post.pending, p ∈ r.pre.pending ∨ Sends r p.1 p.2 := by
  intro p hp
  rw [h.pending] at hp
  exact (List.mem_append.mp hp).imp (fun hold => h.fewer.subset hold) sends_iff.mpr

theorem Reacts.dead {r : Record} {sv : Service} {i : Input} (h : Reacts r sv i)
    (hnone : r.pre.core.phase = none) : r.post.core.phase = none := by
  have hex := h.exchanged
  by_contra hlive
  generalize (asks r.out.sent).map (·.2) = kinds at hex
  cases hex with
  | quiet _ _ _ hback | replied _ _ _ _ hback => exact hback hlive hnone
  | died hdead => exact hlive hdead
  | probed _ _ _ _ hphase => exact hlive (hphase.trans hnone)
  | login _ _ hback _ _ _ => exact hback hnone
  | probe honline _ _ _ => simp [hnone] at honline

/-- Nothing but its own result ends the wait for a login. -/
theorem Reacts.waiting {r : Record} {sv : Service} {i : Input} {serial : ℕ}
    {since : List Record} (h : Reacts r sv i)
    (hq : Queued r.pre.core.takeover r.pre.pending) (hflight : r.pre.core.authInFlight = true)
    (honly : ∀ p ∈ r.pre.pending, p.2 = .login → p.1 = serial) :
    Progress serial (since ++ [r]) r.post := by
  have hex := h.exchanged
  generalize hkinds : (asks r.out.sent).map (·.2) = kinds at hex
  have hstill : r.post.core.authInFlight = true → .login ∉ kinds →
      Progress serial (since ++ [r]) r.post := by
    intro hauth hno
    refine .waiting hauth ?_
    intro p hp hlogin
    rcases h.sends p hp with hold | hsent
    · exact honly p hold hlogin
    · have hkind : p.2 ∈ kinds := hkinds ▸ List.mem_map_of_mem (sends_iff.mp hsent)
      exact absurd (hlogin ▸ hkind) hno
  cases hex with
  | quiet hauth _ _ _ => exact hstill (hauth.trans hflight) (by simp)
  | probed _ _ hauth _ _ => exact hstill (hauth.trans hflight) (by simp)
  | probe _ _ hauth _ => exact hstill (hauth.trans hflight) (by simp)
  | died hdead => exact .dead hdead
  | login _ hfree _ _ _ _ => simp [hflight] at hfree
  | @replied attempt hres _ _ hverdict hback =>
      by_cases hdead : r.post.core.phase = none
      · exact .dead hdead
      -- results come in order: this one is the login's, and a login has nothing behind it
      obtain ⟨k, hdelivered, hpending⟩ := h.head .login (by rw [hres.1]; rfl)
      have hserial : k = serial := honly (k, .login) (by simp [hpending]) rfl
      rw [hpending] at hq
      have hempty : r.post.pending = [] := by
        rw [h.pending, hq.alone (hback hdead), List.map_eq_nil_iff.mp hkinds, List.append_nil]
      refine .accepted rfl ⟨⟨attempt, hserial ▸ hdelivered, i, h.input, hres⟩, hflight⟩ ?_ ?_
      · simp [hempty]
      · intro hk
        exact absurd (hverdict.symm.trans hk) (by simp)

/-- Once the login is accepted, the probes that count are new. -/
theorem Reacts.accepted {r f : Record} {sv : Service} {i : Input} {serial : ℕ}
    {since a b : List Record} (h : Reacts r sv i) (hsince : since = a ++ f :: b)
    (haccept : AcceptsLogin f serial)
    (hprobes : ∀ p ∈ r.pre.pending, p.2 = .probe → ∃ q ∈ b, Sends q p.1 .probe)
    (hkicked : r.pre.core.verdict = some .kicked → Kicked b) :
    Progress serial (since ++ [r]) r.post := by
  have hex := h.exchanged
  generalize (asks r.out.sent).map (·.2) = kinds at hex
  -- every branch keeps the probes; they differ in the verdict
  have hgo : (r.post.core.takeover.verdict = some .kicked → Kicked (b ++ [r])) →
      Progress serial (since ++ [r]) r.post := by
    intro hverdict
    refine .accepted (a := a) (b := b ++ [r]) (by simp [hsince]) haccept ?_ hverdict
    intro p hp hprobe
    rcases h.sends p hp with hold | hsent
    · obtain ⟨q, hmem, hs⟩ := hprobes p hold hprobe
      exact ⟨q, List.mem_append_left _ hmem, hs⟩
    · exact ⟨r, List.mem_append_right _ (List.mem_singleton_self r), hprobe ▸ hsent⟩
  have hsame : r.post.core.takeover.verdict = r.pre.core.verdict →
      Progress serial (since ++ [r]) r.post := by
    intro heq
    exact hgo (fun hk => (hkicked (heq.symm.trans hk)).snoc r)
  have hclear : r.post.core.takeover.verdict = none →
      Progress serial (since ++ [r]) r.post := by
    intro heq
    exact hgo (fun hk => absurd (heq.symm.trans hk) (by simp))
  cases hex with
  | quiet _ hverdict _ _ => exact hverdict.elim hsame hclear
  | died hdead => exact .dead hdead
  | replied _ _ _ hverdict _ => exact hclear hverdict
  | login _ _ _ _ _ hverdict => exact hsame hverdict
  | probe _ _ _ hverdict => exact hsame hverdict
  | @probed verdict hres hwait _ hverdict _ =>
      refine hgo (fun hk => ?_)
      obtain rfl : verdict = .kicked := Option.some.inj (hverdict.symm.trans hk)
      -- the probe answered here is one of those sent since the login was accepted
      obtain ⟨k, hdelivered, hpending⟩ := h.head .probe (by rw [hres.1]; rfl)
      obtain ⟨p, hp, hs⟩ := hprobes (k, .probe) (by simp [hpending]) rfl
      obtain ⟨b₁, b₂, rfl⟩ := List.append_of_mem hp
      exact ⟨b₁, p, b₂, r, [], k, by simp, hs, ⟨hdelivered, i, h.input, hres⟩, hwait⟩

theorem Progress.step {serial : ℕ} {since : List Record} {sv : Service}
    (h : Progress serial since sv) (hq : Queued sv.core.takeover sv.pending) (act : Act) :
    Progress serial (since ++ [Machine.stepAt Service.step sv act]) (sv.step act).1 := by
  rcases sv.step_reacts act with hrest | ⟨sv', i, hreact⟩
  · exact h.frame hrest.core hrest.fewer _
  · cases h with
    | dead hnone => exact .dead (hreact.dead hnone)
    | waiting hflight honly => exact hreact.waiting hq hflight honly
    | accepted hsince haccept hprobes hkicked =>
        exact hreact.accepted hsince haccept hprobes hkicked

/-- A step that sends a request reacts to an event. -/
theorem reacts_of_sends {sv : Service} {act : Act} {serial : ℕ} {ask : Ask}
    (h : Sends (Machine.stepAt Service.step sv act) serial ask) :
    ∃ sv' i, Reacts (Machine.stepAt Service.step sv act) sv' i := by
  refine (sv.step_reacts act).resolve_left (fun hrest => ?_)
  rw [sends_iff, hrest.sent] at h
  simp [asks] at h

/-- New requests take the next serial numbers. -/
theorem Reacts.serial {r : Record} {sv : Service} {i : Input} {serial : ℕ} {ask : Ask}
    (h : Reacts r sv i) (hs : Sends r serial ask) :
    r.pre.sent ≤ serial ∧ serial < r.post.sent := by
  obtain ⟨s, hmem, rfl, -⟩ := hs
  rw [h.sent] at hmem
  obtain ⟨p, hp, rfl⟩ := List.mem_map.mp hmem
  have hpost : r.post.sent =
      r.pre.sent + (messages i.event (sv.core.step i).2.effects).length := by
    rw [h.post, ← h.serials]
    simp [Service.react, number]
  rw [hpost, ← h.serials]
  exact ⟨List.le_snd_of_mem_zipIdx hp, List.snd_lt_add_of_mem_zipIdx hp⟩

theorem sent_mono (sv : Service) (act : Act) : sv.sent ≤ (sv.step act).1.sent := by
  have hwent := sv.step_went act
  generalize sv.step act = p at hwent
  cases hwent with
  | event _ | deliver _ => exact Nat.le_add_right _ _
  | idle | work _ _ _ | tick => exact Nat.le_refl _

/-- **A serial number names one request.** -/
theorem sends_once (cfg : Config) (pass : String) (os : Os) (acts : List Act)
    {past rest : List Record} {r : Record} {serial : ℕ} {ask : Ask}
    (hsplit : history cfg pass os acts = past ++ r :: rest) (h : Sends r serial ask) :
    ∀ q ∈ past, ∀ ask', ¬ Sends q serial ask' := by
  obtain ⟨xs, act, ys, -, rfl, rfl, -⟩ := Machine.trace_split hsplit
  have hpast : ∀ q ∈ history cfg pass os xs, ∀ k ask', Sends q k ask' →
      k < (after cfg pass os xs).sent := by
    refine Machine.history_induction (A := fun _ => True)
      (I := fun past sv => ∀ q ∈ past, ∀ k ask', Sends q k ask' → k < sv.sent)
      (by simp) ?_ xs (fun _ _ => trivial)
    intro past sv act ih _ q hq k ask' hs
    rcases List.mem_append.mp hq with hq | hq
    · exact Nat.lt_of_lt_of_le (ih q hq k ask' hs) (sv.sent_mono act)
    · rw [List.mem_singleton.mp hq] at hs
      obtain ⟨sv', i, hreact⟩ := reacts_of_sends hs
      exact (hreact.serial hs).2
  intro q hq ask' hs
  obtain ⟨sv', i, hreact⟩ := reacts_of_sends h
  exact absurd (hpast q hq serial ask' hs) (Nat.not_lt.mpr (hreact.serial h).1)

/-- A login is the only request of its reaction, and an online brain sends it on a
kicked verdict. -/
theorem Reacts.login {r : Record} {sv : Service} {i : Input} {serial : ℕ}
    (h : Reacts r sv i) (hs : Sends r serial .login) :
    asks r.out.sent = [(serial, .login)] ∧ r.pre.core.authInFlight = false ∧
      r.pre.core.phase ≠ none ∧
      (r.pre.core.phase = some .online → r.pre.core.verdict = some .kicked) ∧
      r.post.core.authInFlight = true := by
  have hex := h.exchanged
  rw [sends_iff] at hs
  generalize asks r.out.sent = new at hs hex ⊢
  have hkind : .login ∈ new.map (·.2) := List.mem_map_of_mem hs
  generalize hkinds : new.map (·.2) = kinds at hex hkind
  cases hex with
  | quiet _ _ _ _ | died _ | replied _ _ _ _ _ | probed _ _ _ _ _ | probe _ _ _ _ =>
      simp at hkind
  | login hkick hfree hlive _ hauth _ =>
      obtain ⟨p, rfl, -⟩ := List.map_eq_singleton_iff.mp hkinds
      rw [List.mem_singleton.mp hs]
      exact ⟨rfl, hfree, hlive, hkick, hauth⟩

/-- Right after a login it is the only one pending. -/
theorem progress_of_login {sv : Service} {act : Act} {serial : ℕ}
    (hq : Queued sv.core.takeover sv.pending)
    (h : Sends (Machine.stepAt Service.step sv act) serial .login) :
    Progress serial [] (sv.step act).1 := by
  obtain ⟨sv', i, hreact⟩ := reacts_of_sends h
  obtain ⟨hnew, hfree, hlive, -, hauth⟩ := hreact.login h
  refine .waiting hauth ?_
  intro p hp hlogin
  have hpend : (sv.step act).1.pending = _ := hreact.pending
  rw [hpend, hnew] at hp
  rcases List.mem_append.mp hp with hp | hp
  · exact absurd hlogin (hq.idle hlive hfree p (hreact.fewer.subset hp))
  · rw [List.mem_singleton.mp hp]

/-- **No endless re-authentication.** Between two logins issued from `Online`, the
result of the first is accepted, then a probe is sent, and then that probe's
result is accepted and says `Kicked`. -/
theorem kicked_between_online_logins (cfg : Config) (pass : String) (os : Os)
    (acts : List Act) (past mid rest : List Record) (first second : Record) (n m : ℕ)
    (hsplit : history cfg pass os acts = past ++ first :: (mid ++ second :: rest))
    (hfirst : OnlineLogin first n) (hsecond : OnlineLogin second m) :
    ∃ a f b p c q d k, mid = a ++ f :: (b ++ p :: (c ++ q :: d)) ∧ AcceptsLogin f n ∧
      Sends p k .probe ∧ AcceptsKicked q k := by
  obtain ⟨xs, act, ys, -, rfl, rfl, hrest⟩ := Machine.trace_split hsplit
  obtain ⟨us, act', vs, -, rfl, rfl, -⟩ := Machine.trace_split hrest.symm
  have hq : Queued (after cfg pass os xs).core.takeover (after cfg pass os xs).pending :=
    queued_after cfg pass os xs
  obtain ⟨hprogress, -⟩ := Machine.history_induction (A := fun _ => True)
    (I := fun since sv => Progress n since sv ∧ Queued sv.core.takeover sv.pending)
    ⟨progress_of_login hq hfirst.2, queued_step hq act⟩
    (fun _ _ act h _ => ⟨h.1.step h.2 act, queued_step h.2 act⟩) us (fun _ _ => trivial)
  obtain ⟨honline, hsend⟩ := hsecond
  obtain ⟨sv', i, hreact⟩ := reacts_of_sends hsend
  obtain ⟨-, hfree, hlive, hkick, -⟩ := hreact.login hsend
  cases hprogress with
  | dead h => exact absurd h hlive
  | waiting hflight _ => exact absurd (hflight.symm.trans hfree) (by simp)
  | @accepted a b f hsince haccept _ hkicked =>
      obtain ⟨b₁, p, c, q, d, k, rfl, hp, hq⟩ := hkicked (hkick honline)
      exact ⟨a, f, b₁, p, c, q, d, k, hsince, haccept, hp, hq⟩

end Logins

/-- Every login succeeds and every probe is kicked. -/
def kicking : ℕ → LaneAnswer := fun _ =>
  { login := .replied 200 "dr1004(\x7b\"result\":\"1\"\x7d)", verdict := .kicked }

def campus (now : ℕ) : Act :=
  .event ⟨now, now / 1000, .wirelessSampled Supervisor.campusSample⟩

/-- Joined, logged in, probed and kicked, the next sample asked for. -/
def kickedActs : List Act :=
  [.event ⟨0, 0, .started⟩, .event ⟨10, 0, .wirelessSampled {}⟩, .work kicking, .work kicking,
    .deliver 900 0, .event ⟨2000, 2, .wake⟩, campus 2010, .work kicking, .work kicking,
    .work kicking, .work kicking, .deliver 3000 3, .event ⟨4000, 4, .wake⟩, campus 4010,
    .work kicking, .work kicking, .deliver 5000 5, .event ⟨6000, 6, .wake⟩]

/-- The login succeeds, and half a minute later the next probe is kicked. -/
def kickedAgainActs : List Act :=
  [.work kicking, .work kicking, .work kicking, .work kicking, .deliver 7000 7,
    .event ⟨34000, 34, .wake⟩, campus 34010, .work kicking, .work kicking, .deliver 35000 35,
    .event ⟨36000, 36, .wake⟩]

def kickedOs : Os := { ifaces := fun _ => some ⟨25, true⟩, fault := fun _ => none }

/-- The service when the first of the two logins is due, and when the second is. -/
def kickedOnce : Service :=
  @after replyJson Supervisor.standbyCfg "pass" kickedOs kickedActs

def kickedTwice : Service :=
  Machine.final (@step replyJson) (@step replyJson kickedOnce (campus 6010)).1 kickedAgainActs

/-- What happens between them. -/
def kickedAgain : List Record :=
  Machine.trace (@step replyJson) (@step replyJson kickedOnce (campus 6010)).1 kickedAgainActs

theorem kicked_between_online_logins_twice :
    ∃ k, ∃ f ∈ kickedAgain, ∃ p ∈ kickedAgain, ∃ q ∈ kickedAgain,
      AcceptsLogin f 10 ∧ Sends p k .probe ∧ AcceptsKicked q k := by
  have hfirst : OnlineLogin (Machine.stepAt (@step replyJson) kickedOnce (campus 6010)) 10 :=
    ⟨by decide +kernel, sends_iff.mpr (by decide +kernel)⟩
  have hsecond : OnlineLogin (Machine.stepAt (@step replyJson) kickedTwice (campus 36010)) 16 :=
    ⟨by decide +kernel, sends_iff.mpr (by decide +kernel)⟩
  obtain ⟨a, f, b, p, c, q, d, k, hmid, hf, hp, hq⟩ :=
    @kicked_between_online_logins replyJson Supervisor.standbyCfg "pass" kickedOs
      (kickedActs ++ campus 6010 :: (kickedAgainActs ++ [campus 36010])) _ _ _ _ _ 10 16
      (Machine.trace_cut _ _ _ _ _ _) hfirst hsecond
  have hmem : f ∈ kickedAgain ∧ p ∈ kickedAgain ∧ q ∈ kickedAgain := by
    have hagain : kickedAgain = _ := hmid
    rw [hagain]
    simp
  exact ⟨k, f, hmem.1, p, hmem.2.1, q, hmem.2.2, hf, hp, hq⟩

end Service

end GdutNet
