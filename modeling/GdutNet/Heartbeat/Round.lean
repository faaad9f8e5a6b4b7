import GdutNet.Heartbeat.Session

/-!
# What one round can do

From the reply to `ka1_pkt1` on, the log only grows, by packets that carry the
counters of the round. The counters move at the end of a completed round and at no
other place.
-/

set_option mvcgen.warning false

namespace GdutNet.Heartbeat

open Std.Do

/-- A receive that ran into its timeout, or a sleep that took time. -/
def Event.IsWait : Event → Prop
  | .received .timeout => True
  | .slept total => 0 < total.nanos
  | _ => False

/-- The last packet of a round. -/
def Event.completes : Event → Bool
  | .sent pkt => isKa2Pkt2 pkt
  | _ => false

/-- A packet after `ka1_pkt1`, with the counter of its kind. -/
def Carries (c1 c2 : UInt8) : Event → Prop
  | .sent pkt => packetCnt pkt = (if isKa2 pkt then c2 else c1) ∧ ∀ d, pkt ≠ ka1Pkt1 d
  | _ => True

theorem ne_ka1Pkt1 {pkt : List UInt8} (h : (kind pkt).2.1 ≠ 0x08) (d : UInt8) :
    pkt ≠ ka1Pkt1 d := by
  rintro rfl
  exact h rfl

theorem carries_ka2 {c1 c2 x : UInt8} {pkt : List UInt8} (h : kind pkt = (c2, 0x28, x)) :
    Carries c1 c2 (.sent pkt) := by
  obtain ⟨hcnt, hrest⟩ := Prod.mk.inj h
  obtain ⟨hcmd, -⟩ := Prod.mk.inj hrest
  have hka2 : isKa2 pkt = true := decide_eq_true hcmd
  refine ⟨by rw [hka2]; exact hcnt, ne_ka1Pkt1 ?_⟩
  rw [h]
  show (0x28 : UInt8) ≠ 0x08
  decide

theorem carries_ka1 {c1 c2 x : UInt8} {pkt : List UInt8} (h : kind pkt = (c1, 0x60, x)) :
    Carries c1 c2 (.sent pkt) := by
  obtain ⟨hcnt, hrest⟩ := Prod.mk.inj h
  obtain ⟨hcmd, -⟩ := Prod.mk.inj hrest
  have hka1 : isKa2 pkt = false := by
    refine decide_eq_false ?_
    rw [hcmd]
    decide
  refine ⟨by rw [hka1]; exact hcnt, ne_ka1Pkt1 ?_⟩
  rw [h]
  show (0x60 : UInt8) ≠ 0x08
  decide

/-- From `w` to `w'` the round goes on, and is not completed. -/
structure Grows (w w' : World) : Prop where
  ka1Cnt : w'.locals.ka1Cnt = w.locals.ka1Cnt
  ka2Cnt : w'.locals.ka2Cnt = w.locals.ka2Cnt
  log : ∃ evs, w'.log = w.log ++ evs ∧
    ∀ e ∈ evs, Carries w.locals.ka1Cnt w.locals.ka2Cnt e ∧ e.completes = false

namespace Grows

variable {w w' w'' : World}

theorem silent (h1 : w'.locals.ka1Cnt = w.locals.ka1Cnt)
    (h2 : w'.locals.ka2Cnt = w.locals.ka2Cnt) (hlog : w'.log = w.log) : Grows w w' :=
  ⟨h1, h2, [], by simp [hlog], by simp⟩

theorem emit (h1 : w'.locals.ka1Cnt = w.locals.ka1Cnt)
    (h2 : w'.locals.ka2Cnt = w.locals.ka2Cnt) {e : Event} (hlog : w'.log = w.log ++ [e])
    (he : Carries w.locals.ka1Cnt w.locals.ka2Cnt e ∧ e.completes = false) : Grows w w' :=
  ⟨h1, h2, [e], hlog, by simpa using he⟩

theorem refl (w : World) : Grows w w := silent rfl rfl rfl

theorem trans (h : Grows w w') (h' : Grows w' w'') : Grows w w'' := by
  obtain ⟨h1, h2, evs, hlog, hevs⟩ := h
  obtain ⟨h1', h2', evs', hlog', hevs'⟩ := h'
  rw [h1, h2] at hevs'
  refine ⟨h1'.trans h1, h2'.trans h2, evs ++ evs', ?_, ?_⟩
  · rw [hlog', hlog, List.append_assoc]
  · intro e he
    rcases List.mem_append.mp he with he | he
    · exact hevs e he
    · exact hevs' e he

/-- One more event, of the round that began at `w`. -/
theorem add (h : Grows w w') (h1 : w''.locals.ka1Cnt = w'.locals.ka1Cnt)
    (h2 : w''.locals.ka2Cnt = w'.locals.ka2Cnt) {e : Event} (hlog : w''.log = w'.log ++ [e])
    (he : Carries w.locals.ka1Cnt w.locals.ka2Cnt e ∧ e.completes = false) : Grows w w'' :=
  h.trans (emit h1 h2 hlog (by rwa [h.ka1Cnt, h.ka2Cnt]))

theorem mem (h : Grows w w') {e : Event} (he : e ∈ w.log) : e ∈ w'.log := by
  obtain ⟨-, -, evs, hlog, -⟩ := h
  rw [hlog]
  exact List.mem_append_left _ he

end Grows

/-- The session ends here, and not in a panic. -/
def Stops (w : World) (e : Exit) (w' : World) : Prop := Grows w w' ∧ e ≠ .overflow

theorem Grows.stops {w w' w'' : World} {e : Exit} (h : Grows w w') (h' : Stops w' e w'') :
    Stops w e w'' :=
  ⟨h.trans h'.1, h'.2⟩

section Steps

variable (env : RoundEnv) (w : World)

theorem isCancelled_grows :
    ⦃fun s => ⌜Grows w s⌝⦄ isCancelled env
    ⦃post⟨fun _ s => ⌜Grows w s⌝, fun _ _ => ⌜False⌝⟩⦄ := by
  mvcgen [isCancelled]
  rename_i h _
  exact h.trans (.silent rfl rfl rfl)

theorem recv_grows :
    ⦃fun s => ⌜Grows w s⌝⦄ recv env
    ⦃post⟨fun _ s => ⌜Grows w s⌝, fun _ _ => ⌜False⌝⟩⦄ := by
  mvcgen [recv, Heartbeat.emit]
  rename_i h _
  exact h.trans (.emit rfl rfl rfl ⟨trivial, rfl⟩)

theorem newRand_grows :
    ⦃fun s => ⌜Grows w s⌝⦄ newRand env
    ⦃post⟨fun _ s => ⌜Grows w s⌝, fun _ _ => ⌜False⌝⟩⦄ := by
  mvcgen [newRand]
  rename_i h
  exact h.trans (.silent rfl rfl rfl)

theorem setKa1Flag_grows (f : Option Flag) :
    ⦃fun s => ⌜Grows w s⌝⦄ setKa1Flag f
    ⦃post⟨fun _ s => ⌜Grows w s⌝, fun _ _ => ⌜False⌝⟩⦄ := by
  mvcgen [setKa1Flag]
  rename_i h _
  exact h.trans (.silent rfl rfl rfl)

theorem setKa2Flag_grows (f : Option Flag) :
    ⦃fun s => ⌜Grows w s⌝⦄ setKa2Flag f
    ⦃post⟨fun _ s => ⌜Grows w s⌝, fun _ _ => ⌜False⌝⟩⦄ := by
  mvcgen [setKa2Flag]
  rename_i h _
  exact h.trans (.silent rfl rfl rfl)

theorem recvRetry_grows (n : ℕ) :
    ⦃fun s => ⌜Grows w s⌝⦄ recvRetry env n
    ⦃post⟨fun _ s => ⌜Grows w s⌝, fun _ _ => ⌜False⌝⟩⦄ := by
  have hcheck := isCancelled_grows env w
  have hrecv := recv_grows env w
  induction n with
  | zero => mvcgen [recvRetry]
  | succ n ih => mvcgen [recvRetry, hcheck, hrecv, ih]

theorem send_grows (name : String) {pkt : List UInt8}
    (hpkt : Carries w.locals.ka1Cnt w.locals.ka2Cnt (.sent pkt) ∧ isKa2Pkt2 pkt = false) :
    ⦃fun s => ⌜Grows w s⌝⦄ send env name pkt
    ⦃post⟨fun _ s => ⌜Grows w s⌝, fun e s => ⌜Grows w s ∧ e ≠ .overflow⌝⟩⦄ := by
  mvcgen [send, Heartbeat.emit]
  · rename_i h _ _
    exact h.add rfl rfl rfl hpkt
  · rename_i h _ _ _ _
    exact ⟨h.add rfl rfl rfl ⟨trivial, rfl⟩, by simp⟩

theorem sendKa2Pkt1_grows (name : String) :
    ⦃fun s => ⌜Grows w s⌝⦄ sendKa2Pkt1 env name
    ⦃post⟨fun _ s => ⌜Grows w s⌝, fun e s => ⌜Grows w s ∧ e ≠ .overflow⌝⟩⦄ := by
  have hrand := newRand_grows env w
  mvcgen [sendKa2Pkt1, hrand, send_grows]
  rename_i h
  rw [h.ka2Cnt]
  exact ⟨carries_ka2 (kind_ka2Pkt1 _ _ _ _), rfl⟩

theorem exchangeKey_grows :
    ⦃fun s => ⌜Grows w s⌝⦄ exchangeKey env
    ⦃post⟨fun _ s => ⌜Grows w s⌝, fun e s => ⌜Grows w s ∧ e ≠ .overflow⌝⟩⦄ := by
  have hsend := sendKa2Pkt1_grows env w
  have hrecv := recvRetry_grows env w
  have hflag := setKa2Flag_grows w
  mvcgen [exchangeKey, learnKey, hsend, hrecv, hflag]

/-! ## The end of a round -/

theorem send_sent (name : String) (pkt : List UInt8) :
    ⦃fun s => ⌜s = w⌝⦄ send env name pkt
    ⦃post⟨fun _ s => ⌜s.locals = w.locals ∧ s.log = w.log ++ [.sent pkt]⌝,
      fun e s => ⌜s.locals = w.locals ∧ e ≠ .overflow ∧ ∃ st, s.log = w.log ++ [.status st]⌝⟩⦄ := by
  mvcgen [send, Heartbeat.emit]
  · subst_vars
    exact ⟨rfl, rfl⟩
  · subst_vars
    exact ⟨rfl, by simp, _, rfl⟩

theorem sleepInterruptible_log (total : Duration) :
    ⦃fun s => ⌜s = w⌝⦄ sleepInterruptible env total
    ⦃post⟨fun r s => ⌜s.locals = w.locals ∧
        s.log = w.log ++ (if r = true then [.slept total] else [])⌝,
      fun _ _ => ⌜False⌝⟩⦄ := by
  mvcgen [sleepInterruptible, isCancelled, Heartbeat.emit]
  · subst_vars
    exact ⟨rfl, by simp⟩
  · subst_vars
    exact ⟨rfl, rfl⟩

/-- Both counters are below 128. -/
def Below (w : World) : Prop := w.locals.ka1Cnt.toNat < 128 ∧ w.locals.ka2Cnt.toNat < 128

theorem Below.of_grows {w w' : World} (h : Below w) (hgrows : Grows w w') : Below w' := by
  rw [Below, hgrows.ka1Cnt, hgrows.ka2Cnt]
  exact h

theorem advance_next (h : Below w) :
    ⦃fun s => ⌜s = w⌝⦄ advance
    ⦃post⟨fun _ s => ⌜s.log = w.log ∧ s.locals.ka1Cnt.toNat = (w.locals.ka1Cnt.toNat + 2) % 128 ∧
        s.locals.ka2Cnt.toNat = (w.locals.ka2Cnt.toNat + 2) % 128⌝,
      fun _ _ => ⌜False⌝⟩⦄ := by
  obtain ⟨c1, hc1, hc1'⟩ := nextCnt_of_lt h.1
  obtain ⟨c2, hc2, hc2'⟩ := nextCnt_of_lt h.2
  mvcgen [advance]
  · rename_i c1' c2' hka2 hka1
    subst_vars
    rw [hc1] at hka1
    rw [hc2] at hka2
    obtain rfl := Option.some.inj hka1
    obtain rfl := Option.some.inj hka2
    exact ⟨rfl, hc1', hc2'⟩
  · rename_i hno hka2 hka1
    subst_vars
    exact hno c1 c2 hc1 hc2

/-- A counter after these events of a round. -/
def moved (evs : List Event) (n : ℕ) : ℕ := if evs.any Event.completes then (n + 2) % 128 else n

/-- From `w` to `w'`, completed or not. -/
def Turn (w w' : World) : Prop :=
  ∃ evs, w'.log = w.log ++ evs ∧ (∀ e ∈ evs, Carries w.locals.ka1Cnt w.locals.ka2Cnt e) ∧
    w'.locals.ka1Cnt.toNat = moved evs w.locals.ka1Cnt.toNat ∧
    w'.locals.ka2Cnt.toNat = moved evs w.locals.ka2Cnt.toNat

theorem Grows.turn {w w' : World} (h : Grows w w') : Turn w w' := by
  obtain ⟨h1, h2, evs, hlog, hevs⟩ := h
  have hany : evs.any Event.completes = false := by
    rw [List.any_eq_false]
    intro e he
    simp [(hevs e he).2]
  refine ⟨evs, hlog, fun e he => (hevs e he).1, ?_, ?_⟩
  · rw [h1, moved, hany]
    rfl
  · rw [h2, moved, hany]
    rfl

theorem Grows.turn_trans {w w' w'' : World} (h : Grows w w') (h' : Turn w' w'') : Turn w w'' := by
  obtain ⟨h1, h2, evs, hlog, hevs⟩ := h
  obtain ⟨evs', hlog', hevs', hc1, hc2⟩ := h'
  rw [h1] at hc1
  rw [h2] at hc2
  rw [h1, h2] at hevs'
  have hany : evs.any Event.completes = false := by
    rw [List.any_eq_false]
    intro e he
    simp [(hevs e he).2]
  have hmoved : ∀ n, moved (evs ++ evs') n = moved evs' n := by
    intro n
    rw [moved, List.any_append, hany, Bool.false_or, moved]
  refine ⟨evs ++ evs', ?_, ?_, ?_, ?_⟩
  · rw [hlog', hlog, List.append_assoc]
  · intro e he
    rcases List.mem_append.mp he with he | he
    · exact (hevs e he).1
    · exact hevs' e he
  · rw [hmoved, hc1]
  · rw [hmoved, hc2]

/-- The counters move with `ka2_pkt2`, and a pause follows or not. -/
theorem turn_of_completed {w s₀ s₁ s₂ s₃ : World} {flag : Flag} {rand : UInt16} {key : Key}
    {hostIp : HostIp} {r : Bool} {total : Duration} (hgrows : Grows w s₀)
    (hsent : s₁.locals = s₀.locals ∧
      s₁.log = s₀.log ++ [.sent (ka2Pkt2 s₀.locals.ka2Cnt flag rand key hostIp)])
    (hnext : s₂.log = s₁.log ∧ s₂.locals.ka1Cnt.toNat = (s₁.locals.ka1Cnt.toNat + 2) % 128 ∧
      s₂.locals.ka2Cnt.toNat = (s₁.locals.ka2Cnt.toNat + 2) % 128)
    (hslept : s₃.locals = s₂.locals ∧
      s₃.log = s₂.log ++ (if r = true then [.slept total] else [])) : Turn w s₃ := by
  obtain ⟨hlocals, hlog⟩ := hsent
  obtain ⟨hlog', h1, h2⟩ := hnext
  obtain ⟨hlocals', hlog''⟩ := hslept
  rw [hlocals] at h1 h2
  rw [← hlocals'] at h1 h2
  refine hgrows.turn_trans ⟨.sent (ka2Pkt2 s₀.locals.ka2Cnt flag rand key hostIp) ::
    (if r = true then [.slept total] else []), ?_, ?_, h1, h2⟩
  · rw [hlog'', hlog', hlog, List.append_assoc]
    rfl
  · rw [List.forall_mem_cons]
    refine ⟨carries_ka2 (kind_ka2Pkt2 _ _ _ _ _), ?_⟩
    split <;> simp [Carries]

theorem confirm_turn (interval : Duration) (hostIp : HostIp) (h : Below w) :
    ⦃fun s => ⌜Grows w s⌝⦄ confirm env interval hostIp
    ⦃post⟨fun _ s => ⌜Turn w s⌝, fun e s => ⌜Turn w s ∧ e ≠ .overflow⌝⟩⦄ := by
  have hkey := exchangeKey_grows env w
  have hrand := newRand_grows env w
  mvcgen [confirm, hkey, hrand, send_sent, advance_next, sleepInterruptible_log, ret]
  case vc2.post.success.h_1 hgrows => exact hgrows.turn
  case vc4.h hgrows _ _ hsent =>
    rw [Below, hsent.1]
    exact h.of_grows hgrows
  case vc5 hgrows _ _ hsent _ _ hnext _ _ _ hslept =>
    exact ⟨turn_of_completed hgrows hsent hnext hslept, by simp⟩
  case vc6 hgrows _ _ hsent _ _ hnext _ _ _ hslept =>
    exact turn_of_completed hgrows hsent hnext hslept
  case vc7 hgrows _ _ =>
    rintro hlocals he ⟨st, hlog⟩
    refine ⟨(hgrows.add ?_ ?_ hlog ⟨trivial, rfl⟩).turn, he⟩
    · rw [hlocals]
    · rw [hlocals]
  case vc8 =>
    intro hgrows he
    exact ⟨hgrows.turn, he⟩

theorem Grows.sleep {w s s' : World} {r : Bool} {total : Duration} (h : Grows w s)
    (hslept : s'.locals = s.locals ∧ s'.log = s.log ++ (if r = true then [.slept total] else [])) :
    Grows w s' := by
  obtain ⟨hlocals, hlog⟩ := hslept
  cases r with
  | true => exact h.add (by rw [hlocals]) (by rw [hlocals]) hlog ⟨trivial, rfl⟩
  | false =>
      refine h.trans (.silent (by rw [hlocals]) (by rw [hlocals]) ?_)
      rw [hlog]
      exact List.append_nil _

theorem ka1ToKa2Delay_pos : 0 < ka1ToKa2Delay.nanos := by decide

/-- A round that goes on after the reply to `ka1_pkt1` has slept. -/
theorem keepAlive_turn [Digests] (interval : Duration) (init : Ka1Init) (h : Below w) :
    ⦃fun s => ⌜Grows w s⌝⦄ keepAlive env interval init
    ⦃post⟨fun _ s => ⌜Turn w s ∧ ∃ e ∈ s.log, e.IsWait⌝,
      fun e s => ⌜Turn w s ∧ e ≠ .overflow⌝⟩⦄ := by
  have hflag := setKa1Flag_grows w
  mvcgen [keepAlive, hflag, send_grows, sleepInterruptible_log, confirm_turn, ret]
  case vc2 => exact ⟨carries_ka1 (kind_ka1Pkt2 _ _ _ _ _), rfl⟩
  case vc3 => exact .refl _
  case vc4 hflag _ _ hsent _ _ _ _ hslept =>
    exact ⟨((hflag.trans hsent).sleep hslept).turn, by simp⟩
  case vc5 => exact .refl _
  case vc6 hflag _ _ hsent r _ hr s hslept _ s' =>
    intro hturn
    refine ⟨((hflag.trans hsent).sleep hslept).turn_trans hturn, .slept ka1ToKa2Delay, ?_,
      ka1ToKa2Delay_pos⟩
    have hr' : r = true := by simpa using hr
    obtain ⟨evs, hlog, -⟩ := hturn
    rw [hlog, hslept.2, if_pos hr']
    simp
  case vc7 hflag _ _ hsent _ _ _ _ hslept _ _ =>
    intro hturn he
    exact ⟨((hflag.trans hsent).sleep hslept).turn_trans hturn, he⟩
  case vc8 hflag _ _ hsent _ _ _ =>
    intro s hlocals hlog
    exact h.of_grows ((hflag.trans hsent).sleep ⟨hlocals, hlog⟩)
  case vc9 hflag _ _ =>
    intro hsent he
    exact ⟨(hflag.trans hsent).turn, he⟩

/-! ## The reply to `ka1_pkt1` -/

/-- After the first receive of a round: the token was cancelled before it, or its
answer decides, unless it was a timeout. -/
def FirstAnswer (w : World) (r : Option (List UInt8)) (s : World) : Prop :=
  (r = none ∧ s.log = w.log ∧ s.cancelled = true) ∨
    match env.answer w.recvs with
    | .data bytes => r = some bytes ∧ s.log = w.log ++ [.received (.data bytes)]
    | .timeout => .received .timeout ∈ s.log
    | .error => r = none ∧ s.log = w.log ++ [.received .error]

theorem recvRetry_first (n : ℕ) :
    ⦃fun s => ⌜s = w⌝⦄ recvRetry env (n + 1)
    ⦃post⟨fun r s => ⌜Grows w s ∧ FirstAnswer env w r s⌝, fun _ _ => ⌜False⌝⟩⦄ := by
  have hrest := fun w => recvRetry_grows env w n
  mvcgen [recvRetry, isCancelled, recv, Heartbeat.emit, hrest]
  case vc1 hcancelled =>
    subst_vars
    exact ⟨.silent rfl rfl rfl, .inl ⟨rfl, rfl, hcancelled⟩⟩
  case vc2 bytes hdata =>
    subst_vars
    refine ⟨.emit rfl rfl rfl ⟨trivial, rfl⟩, .inr ?_⟩
    rw [hdata]
    exact ⟨rfl, congrArg (fun a => _ ++ [Event.received a]) hdata⟩
  case vc3 => exact .refl _
  case vc4 htimeout _ _ =>
    intro hgrows
    subst_vars
    refine ⟨Grows.trans ?_ hgrows, .inr ?_⟩
    · exact .emit rfl rfl rfl ⟨trivial, rfl⟩
    · rw [htimeout]
      exact hgrows.mem (List.mem_append_right _
        (List.mem_singleton.mpr (congrArg Event.received htimeout.symm)))
  case vc5 herror =>
    subst_vars
    refine ⟨.emit rfl rfl rfl ⟨trivial, rfl⟩, .inr ?_⟩
    rw [herror]
    exact ⟨rfl, congrArg (fun a => _ ++ [Event.received a]) herror⟩

/-- The first receive of the round takes its time or brings a reply that the session
can read. -/
def Unhurried : Prop :=
  match env.answer 0 with
  | .data bytes => (parseKa1Resp bytes).isSome = true
  | .timeout => True
  | .error => False

/-- Nothing was sent and no counter moved. -/
def Silent (s : World) : Prop :=
  s.locals = w.locals ∧ ∃ evs, s.log = w.log ++ evs ∧ ∀ e ∈ evs, ∃ st, e = .status st

/-- Right after `ka1_pkt1`. -/
structure AfterPkt1 (s : World) : Prop where
  locals : s.locals = w.locals
  recvs : s.recvs = w.recvs
  log : s.log = w.log ++ [.sent (ka1Pkt1 w.locals.ka1Cnt)]

theorem send_pkt1 (name : String) :
    ⦃fun s => ⌜s = w⌝⦄ send env name (ka1Pkt1 w.locals.ka1Cnt)
    ⦃post⟨fun _ s => ⌜AfterPkt1 w s⌝, fun e s => ⌜Silent w s ∧ e ≠ .overflow⌝⟩⦄ := by
  mvcgen [send, Heartbeat.emit]
  · subst_vars
    exact ⟨rfl, rfl, rfl⟩
  · subst_vars
    exact ⟨⟨rfl, _, rfl, by simp⟩, by simp⟩

/-- What the reply to `ka1_pkt1` comes to. -/
structure Probed (r : Option Ka1Init) (s : World) : Prop where
  sent : ∃ w₁, AfterPkt1 w w₁ ∧ Grows w₁ s
  good : r.isSome = true → Unhurried env
  reset : r = none → Unhurried env → s.cancelled = true ∨ .received .timeout ∈ s.log
  hurried : ¬ Unhurried env → ∃ evs, s.log = w.log ++ evs ∧ ∀ e ∈ evs, ¬ e.IsWait

theorem probed_of_first {w w₁ s : World} {r : Option (List UInt8)} (h : w.recvs = 0)
    (hsent : AfterPkt1 w w₁) (hgrows : Grows w₁ s) (hfirst : FirstAnswer env w₁ r s) :
    Probed env w (r.bind parseKa1Resp) s := by
  have hrecvs : w₁.recvs = 0 := hsent.recvs.trans h
  -- without a wait: the packet, and at most one answer that came at once
  have hquick : ∀ evs, s.log = w₁.log ++ evs → (∀ e ∈ evs, ¬ e.IsWait) →
      ∃ evs, s.log = w.log ++ evs ∧ ∀ e ∈ evs, ¬ e.IsWait := by
    intro evs hlog hevs
    refine ⟨.sent (ka1Pkt1 w.locals.ka1Cnt) :: evs, ?_, ?_⟩
    · rw [hlog, hsent.log, List.append_assoc]
      rfl
    · exact List.forall_mem_cons.mpr ⟨id, hevs⟩
  rcases hfirst with ⟨rfl, hlog, hcancelled⟩ | hanswer
  · refine ⟨⟨w₁, hsent, hgrows⟩, ?_, fun _ _ => .inl hcancelled, fun _ => ?_⟩
    · intro hsome
      cases hsome
    · exact hquick [] (by rw [hlog, List.append_nil]) (by simp)
  · rw [hrecvs] at hanswer
    cases hfirst : env.answer 0 with
    | data bytes =>
        rw [hfirst] at hanswer
        obtain ⟨rfl, hlog⟩ := hanswer
        have hiff : Unhurried env ↔ (parseKa1Resp bytes).isSome = true := by
          rw [Unhurried, hfirst]
        refine ⟨⟨w₁, hsent, hgrows⟩, hiff.mpr, ?_, fun _ => hquick _ hlog ?_⟩
        · intro hnone hunhurried
          have hsome := hiff.mp hunhurried
          have hnone' : parseKa1Resp bytes = none := hnone
          rw [hnone'] at hsome
          cases hsome
        · simp [Event.IsWait]
    | timeout =>
        rw [hfirst] at hanswer
        have hunhurried : Unhurried env := by
          rw [Unhurried, hfirst]
          trivial
        exact ⟨⟨w₁, hsent, hgrows⟩, fun _ => hunhurried, fun _ _ => .inr hanswer,
          fun hno => absurd hunhurried hno⟩
    | error =>
        rw [hfirst] at hanswer
        obtain ⟨rfl, hlog⟩ := hanswer
        have hhurried : ¬ Unhurried env := by
          rw [Unhurried, hfirst]
          exact id
        refine ⟨⟨w₁, hsent, hgrows⟩, ?_, fun _ hun => absurd hun hhurried,
          fun _ => hquick _ hlog ?_⟩
        · intro hsome
          cases hsome
        · simp [Event.IsWait]

theorem probe_probed (h : w.recvs = 0) :
    ⦃fun s => ⌜s = w⌝⦄ probe env
    ⦃post⟨fun r s => ⌜Probed env w r s⌝, fun e s => ⌜Silent w s ∧ e ≠ .overflow⌝⟩⦄ := by
  have hfirst := fun w => recvRetry_first env w 4
  mvcgen [probe, recvTimeoutLimit, send_pkt1, hfirst]
  case vc1 hsent _ _ _ hpair =>
    subst_vars
    exact probed_of_first env h hsent hpair.1 hpair.2
  case vc2 hsent _ _ _ _ hpair =>
    subst_vars
    exact probed_of_first env h hsent hpair.1 hpair.2
  case vc3 =>
    subst_vars
    exact fun hsilent he => ⟨hsilent, he⟩

end Steps

/-! ## The whole round -/

/-- `ka1_pkt1` and what followed it. -/
structure Played (env : RoundEnv) (w s : World) : Prop where
  sent : ∃ w₁, AfterPkt1 w w₁ ∧ Turn w₁ s
  hurried : ¬ Unhurried env → ∃ evs, s.log = w.log ++ evs ∧ ∀ e ∈ evs, ¬ e.IsWait

/-- The next round follows, with nothing but the token in its way. -/
structure Continues (env : RoundEnv) (w s : World) : Prop extends Played env w s where
  running : w.cancelled = false
  waited : Unhurried env → s.cancelled = true ∨ ∃ e ∈ s.log, e.IsWait

structure Ends (env : RoundEnv) (w s : World) (e : Exit) : Prop where
  played : Played env w s ∨ Silent w s
  cancelled : w.cancelled = true → s.log = w.log
  noOverflow : e ≠ .overflow

/-- After a look at the token that found it not cancelled. -/
structure Checked (w s : World) : Prop where
  locals : s.locals = w.locals
  recvs : s.recvs = w.recvs
  log : s.log = w.log

theorem isCancelled_checked (env : RoundEnv) (w : World) :
    ⦃fun s => ⌜s = w⌝⦄ isCancelled env
    ⦃post⟨fun r s => ⌜Checked w s ∧ (r = false → w.cancelled = false)⌝, fun _ _ => ⌜False⌝⟩⦄ := by
  mvcgen [isCancelled]
  subst_vars
  exact ⟨⟨rfl, rfl, rfl⟩, fun hr => (Bool.or_eq_false_iff.mp hr).1⟩

theorem Checked.played {env : RoundEnv} {w w' s : World} (h : Checked w w')
    (hsent : ∃ w₁, AfterPkt1 w' w₁ ∧ Turn w₁ s)
    (hhurried : ¬ Unhurried env → ∃ evs, s.log = w'.log ++ evs ∧ ∀ e ∈ evs, ¬ e.IsWait) :
    Played env w s := by
  obtain ⟨w₁, ⟨hlocals, hrecvs, hlog⟩, hturn⟩ := hsent
  rw [h.log] at hhurried
  refine ⟨⟨w₁, ⟨hlocals.trans h.locals, hrecvs.trans h.recvs, ?_⟩, hturn⟩, hhurried⟩
  rw [hlog, h.log, h.locals]

theorem Checked.silent {w w' s : World} (h : Checked w w') (hs : Silent w' s) : Silent w s := by
  obtain ⟨hlocals, evs, hlog, hevs⟩ := hs
  exact ⟨hlocals.trans h.locals, evs, by rw [hlog, h.log], hevs⟩

theorem round_spec [Digests] (env : RoundEnv) (interval : Duration) (w : World) (h : Below w)
    (hrecvs : w.recvs = 0) :
    ⦃fun s => ⌜s = w⌝⦄ round env interval
    ⦃post⟨fun _ s => ⌜Continues env w s⌝, fun e s => ⌜Ends env w s e⌝⟩⦄ := by
  have hprobe := fun w hw => probe_probed env w hw
  have halive := fun init w hw => keepAlive_turn env w interval init hw
  mvcgen [round, isCancelled_checked, ret, hprobe, halive]
  case vc1 hs _ _ _ _ hchecked =>
    obtain rfl := hs
    exact ⟨.inr (hchecked.1.silent ⟨rfl, [], by simp, by simp⟩), fun _ => hchecked.1.log, by simp⟩
  case vc2 hs _ _ _ _ hchecked =>
    obtain rfl := hs
    exact hchecked.1.recvs.trans hrecvs
  case vc3 hs _ _ hr _ hchecked _ _ _ hprobed =>
    obtain rfl := hs
    obtain ⟨w₁, hafter, hgrows⟩ := hprobed.sent
    refine ⟨hchecked.1.played ⟨w₁, hafter, hgrows.turn⟩ hprobed.hurried,
      hchecked.2 (by simpa using hr), fun hunhurried => ?_⟩
    exact (hprobed.reset rfl hunhurried).imp_right fun hmem => ⟨.received .timeout, hmem, trivial⟩
  case vc4 => exact .refl _
  case vc5 hs _ _ hr _ hchecked _ _ _ _ hprobed _ _ =>
    intro hturn hwait
    obtain rfl := hs
    obtain ⟨w₁, hafter, hgrows⟩ := hprobed.sent
    exact ⟨hchecked.1.played ⟨w₁, hafter, hgrows.turn_trans hturn⟩
      fun hno => absurd (hprobed.good rfl) hno, hchecked.2 (by simpa using hr), fun _ => .inr hwait⟩
  case vc6 hs _ _ hr _ hchecked _ _ _ _ hprobed _ _ =>
    intro hturn he
    obtain rfl := hs
    obtain ⟨w₁, hafter, hgrows⟩ := hprobed.sent
    refine ⟨.inl (hchecked.1.played ⟨w₁, hafter, hgrows.turn_trans hturn⟩
      fun hno => absurd (hprobed.good rfl) hno), fun hcancelled => ?_, he⟩
    rw [hchecked.2 (by simpa using hr)] at hcancelled
    cases hcancelled
  case vc7 hs _ _ _ _ hchecked _ _ _ =>
    intro s hprobed
    obtain rfl := hs
    obtain ⟨w₁, hafter, hgrows⟩ := hprobed.sent
    refine Below.of_grows ?_ hgrows
    rw [Below, hafter.locals, hchecked.1.locals]
    exact h
  case vc8 hs _ _ hr _ hchecked _ _ =>
    intro hsilent he
    obtain rfl := hs
    refine ⟨.inr (hchecked.1.silent hsilent), fun hcancelled => ?_, he⟩
    rw [hchecked.2 (by simpa using hr)] at hcancelled
    cases hcancelled

end GdutNet.Heartbeat
