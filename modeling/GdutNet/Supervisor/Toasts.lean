import GdutNet.Supervisor.Flight

/-!
# The toast throttle

A toast is sent when none with its key is unanswered and none was delivered in
the last half hour. The ledger remembers one time for each key; over a run that
time is the clock reading of the last accepted delivery, which is all the window
depends on.
-/

namespace GdutNet

namespace NotificationLedger

/-- When the window of `key` was opened last. -/
def openedAt (l : NotificationLedger) (key : ToastKey) : Option ℕ :=
  (l.deliveredAt.find? (·.1 = key)).map (·.2)

/-- No key is entered twice. -/
structure Single (l : NotificationLedger) : Prop where
  waiting : l.inFlight.Nodup
  windows : (l.deliveredAt.map (·.1)).Nodup

theorem throttled_iff {l : NotificationLedger} {key : ToastKey} {now : ℕ} :
    l.throttled key now = true ↔ ∃ sent ∈ l.openedAt key, now - sent < notifyThrottleMs := by
  unfold throttled openedAt
  cases l.deliveredAt.find? (·.1 = key) <;> simp

theorem throttled_congr {l l' : NotificationLedger} {key : ToastKey}
    (h : l'.openedAt key = l.openedAt key) (now : ℕ) :
    l'.throttled key now = l.throttled key now := by
  rw [Bool.eq_iff_iff, throttled_iff, throttled_iff, h]

/-- A window is only moved by an awaited delivery of its own key. -/
theorem onResult_openedAt (l : NotificationLedger) (key k : ToastKey) (delivered : Bool)
    (now : ℕ) : (l.onResult key delivered now).openedAt k =
      if k = key ∧ key ∈ l.inFlight ∧ delivered = true then some now else l.openedAt k := by
  unfold onResult openedAt
  by_cases hwait : key ∈ l.inFlight
  · cases delivered with
    | false => simp [hwait]
    | true =>
        by_cases hk : k = key
        · subst hk
          have hgone : (l.deliveredAt.filter (·.1 ≠ k)).find? (·.1 = k) = none := by
            rw [List.find?_eq_none]
            intro entry hentry
            simpa using (List.mem_filter.mp hentry).2
          have hnew : [(k, now)].find? (·.1 = k) = some (k, now) := by simp
          simp only [hwait, ↓reduceIte, List.find?_append, hgone, hnew, Option.none_or,
            Option.map_some, and_self]
        · have hkept : (l.deliveredAt.filter (·.1 ≠ key)).find? (·.1 = k) =
              l.deliveredAt.find? (·.1 = k) := by
            rw [List.find?_filter]
            congr 1
            funext entry
            by_cases hentry : entry.1 = k <;> simp [hentry, hk]
          have hother : [(key, now)].find? (·.1 = k) = none := by simp [Ne.symm hk]
          simp only [hwait, hk, ↓reduceIte, List.find?_append, hkept, hother, Option.or_none,
            false_and]
  · simp [hwait]

theorem onResult_single {l : NotificationLedger} (h : l.Single) (key : ToastKey)
    (delivered : Bool) (now : ℕ) : (l.onResult key delivered now).Single := by
  unfold onResult
  split
  · cases delivered with
    | false => exact ⟨h.waiting.erase key, h.windows⟩
    | true =>
        refine ⟨h.waiting.erase key, ?_⟩
        have hkept : ((l.deliveredAt.filter (·.1 ≠ key)).map (·.1)).Nodup :=
          h.windows.sublist (List.filter_sublist.map _)
        simp only [↓reduceIte, List.map_append, List.map_cons, List.map_nil]
        refine hkept.append (List.nodup_singleton _) ?_
        simp
  · exact h

/-- The toast is sent, and its key awaits the result. -/
theorem Single.asked {l : NotificationLedger} (h : l.Single) {key : ToastKey}
    (hfree : key ∉ l.inFlight) : Single { l with inFlight := l.inFlight ++ [key] } := by
  refine ⟨h.waiting.append (List.nodup_singleton _) ?_, h.windows⟩
  simpa using hfree

end NotificationLedger

namespace Supervisor

/-- An accepted `NotifyResult` that says `key` was delivered. -/
def opens (key : ToastKey) (r : Record) : Bool :=
  match r.input.event with
  | .notifyResult k true =>
      k = key && r.pre.handled r.input.event && key ∈ r.pre.notifications.inFlight
  | _ => false

/-- The toasts among the effects. -/
def toasted (effects : List Effect) (key : ToastKey) : Prop :=
  ∃ title body, .notify key title body ∈ effects

/-- What one input can do to the ledger, and the toasts it sends. -/
inductive Booked (s : Supervisor) (i : Input) (effects : List Effect) :
    NotificationLedger → Prop
  | kept (hother : ∀ key delivered, ¬ s.Receives i (.notifyResult key delivered))
      (hquiet : ∀ key, ¬ toasted effects key) : Booked s i effects s.notifications
  | asked {key : ToastKey}
      (hother : ∀ key delivered, ¬ s.Receives i (.notifyResult key delivered))
      (hfree : key ∉ s.notifications.inFlight)
      (hopen : s.notifications.throttled key i.now = false)
      (honly : ∀ k, toasted effects k → k = key) : Booked s i effects
        { s.notifications with inFlight := s.notifications.inFlight ++ [key] }
  | answered {key : ToastKey} {delivered : Bool}
      (hreceives : s.Receives i (.notifyResult key delivered))
      (hquiet : ∀ key, ¬ toasted effects key) : Booked s i effects
        (s.notifications.onResult key delivered i.now)

theorem handleStarted_notifications (s : Supervisor) (now wall : ℕ) :
    (s.handleStarted now wall).1.notifications = s.notifications := by
  unfold handleStarted
  dsimp only
  split <;> rfl

theorem not_toasted_nil (key : ToastKey) : ¬ toasted [] key := by
  rintro ⟨title, body, h⟩
  cases h

/-- The two handlers that watch for trouble ask the ledger for a toast. -/
def alarming : Event → Bool
  | .watchdogStepped _ | .heartbeat _ => true
  | _ => false

theorem Emits.not_toasted {s : Supervisor} {event : Event} {effects : List Effect}
    (h : s.Emits event effects) (hcalm : alarming event = false) (key : ToastKey) :
    ¬ toasted effects key := by
  rintro ⟨title, body, hmem⟩
  cases h with
  | failing => cases hcalm
  | heartbeat => cases hcalm
  | wake hlink hwlan => rcases hlink with rfl | rfl <;> rcases hwlan with rfl | rfl <;> simp at hmem
  | link hsteps => rcases hsteps with rfl | rfl <;> simp at hmem
  | sample hflight hlive hcarried hpressed =>
      rcases List.mem_append.mp hmem with hmem | hmem
      · cases hcarried <;> simp at hmem
      · cases hpressed <;> simp at hmem
  | _ => simp at hmem

/-- A handler that asks the ledger for a toast. -/
theorem booked_maybeNotify {s : Supervisor} {i : Input}
    (hother : ∀ key delivered, ¬ s.Receives i (.notifyResult key delivered))
    (key : ToastKey) (title body : String) :
    Booked s i (s.notifications.maybeNotify key title body i.now).2
      (s.notifications.maybeNotify key title body i.now).1 := by
  unfold NotificationLedger.maybeNotify
  split
  · exact .kept hother not_toasted_nil
  · rename_i hfree
    simp only [Bool.or_eq_true, decide_eq_true_eq, not_or, Bool.not_eq_true] at hfree
    refine .asked hother hfree.1 hfree.2 ?_
    rintro k ⟨_, _, hmem⟩
    rw [List.mem_singleton] at hmem
    cases hmem
    rfl

theorem opens_iff {key : ToastKey} {r : Record} : opens key r = true ↔
    r.pre.Receives r.input (.notifyResult key true) ∧ key ∈ r.pre.notifications.inFlight := by
  unfold opens Receives
  split
  · rename_i k hev
    rw [hev]
    simp only [Bool.and_eq_true, decide_eq_true_eq]
    grind
  · rename_i hno
    simp only [Bool.false_eq_true, false_iff]
    rintro ⟨⟨hev, -⟩, -⟩
    exact hno key hev

theorem notifyThrottleMs_pos : 0 < notifyThrottleMs := by decide

theorem toasted_request {effects : List Effect} {key : ToastKey} (h : toasted effects key) :
    0 < (requested effects).count (.notify key) := by
  obtain ⟨title, body, hmem⟩ := h
  exact List.count_pos_iff.mpr (List.mem_filterMap.mpr ⟨_, hmem, rfl⟩)

theorem new_notifications (cfg : Config) : (new cfg).notifications = {} := by
  unfold new
  dsimp only
  split
  · split <;> rfl
  · rfl

section Steps

variable [SerdeJson] {s : Supervisor} {i : Input}

theorem handle_notifications (hcalm : alarming i.event = false)
    (hresult : ∀ key delivered, i.event ≠ .notifyResult key delivered) :
    (s.handle i.now i.wall i.event).1.notifications = s.notifications := by
  cases hev : i.event with
  | started => rfl
  | wake =>
      obtain ⟨deadline, pending, sample, poll, wlan, tick, h⟩ := s.handleWake_writes i.now
      change (s.handleWake i.now).1.notifications = _
      rw [h]
  | command cmd => cases cmd <;> rfl
  | linkSampled up pppIp =>
      obtain ⟨link, seen, pending, deadline, poll, ip, log, h⟩ :=
        s.handleLinkSampled_writes up pppIp i.now i.wall
      change (s.handleLinkSampled up pppIp i.now i.wall).1.notifications = _
      rw [h]
  | watchdogStepped step => simp [hev, alarming] at hcalm
  | wirelessSampled sample =>
      obtain ⟨log, brain, verdict, join, associating, authing, probing, sampling, wlan, ip, h⟩ :=
        s.handleWirelessSampled_writes sample i.now i.wall
      change (s.handleWirelessSampled sample i.now i.wall).1.notifications = _
      rw [h]
  | associateFinished res =>
      simp only [handle, handleAssociateFinished]
      split <;> rfl
  | portalFinished attempt =>
      simp only [handle, handlePortalFinished]
      split <;> rfl
  | wlanProbeFinished verdict =>
      simp only [handle, handleProbeFinished]
      split
      · rfl
      · split <;> rfl
  | heartbeat status => simp [hev, alarming] at hcalm
  | notifyResult key delivered => exact absurd hev (hresult key delivered)
  | wirelessDied =>
      simp only [handle, handleWirelessDied]
      split
      · rfl
      · split <;> rfl
  | stop =>
      simp only [handle, handleStop]
      split
      · split <;> rfl
      · rfl

theorem handle_booked (hs : s.started = true) (hr : s.stopped = false) :
    Booked s i (s.handle i.now i.wall i.event).2
      (s.handle i.now i.wall i.event).1.notifications := by
  have hemits := s.handle_emits i.now i.wall i.event
  have hother : (∀ key delivered, i.event ≠ .notifyResult key delivered) →
      ∀ key delivered, ¬ s.Receives i (.notifyResult key delivered) :=
    fun hne key delivered hrec => hne key delivered hrec.1
  cases hev : i.event with
  | watchdogStepped step =>
      have hother' := hother (by simp [hev])
      simp only [handle, handleWatchdogStepped]
      split
      all_goals first
        | exact .kept hother' not_toasted_nil
        | (split
           · exact booked_maybeNotify hother' _ _ _
           · exact .kept hother' not_toasted_nil)
  | heartbeat status =>
      have hother' := hother (by simp [hev])
      cases status with
      | error e => exact booked_maybeNotify hother' _ _ _
      | off | running => exact .kept hother' not_toasted_nil
  | notifyResult key delivered =>
      exact .answered ⟨hev, by simp [handled, hs, hr]⟩ not_toasted_nil
  | _ =>
      have hcalm : alarming i.event = false := by rw [hev]; rfl
      have hresult : ∀ key delivered, i.event ≠ .notifyResult key delivered := by simp [hev]
      rw [← hev, handle_notifications hcalm hresult]
      exact .kept (hother hresult) (hemits.not_toasted hcalm)

theorem step_booked (s : Supervisor) (i : Input) :
    Booked s i (s.step i).2.effects (s.step i).1.notifications := by
  obtain ⟨snap, hstate⟩ := s.step_state i
  rw [hstate, step_effects]
  change Booked s i _ (s.dispatch i.now i.wall i.event).1.notifications
  rcases s.dispatch_cases i.now i.wall i.event with ⟨hn, h⟩ | ⟨_, he, h⟩ | ⟨hs, hr, h⟩
  · rw [h]
    refine .kept (fun key delivered hrec => ?_) not_toasted_nil
    rw [hrec.1, hrec.2] at hn
    cases hn
  · rw [h, handleStarted_notifications]
    refine .kept (fun key delivered hrec => ?_) (fun key => ?_)
    · have hev := he.symm.trans hrec.1
      cases hev
    · rintro ⟨title, body, hmem⟩
      rcases s.handleStarted_effects i.now i.wall with heff | heff <;> simp [heff] at hmem
  · rw [h]
    exact handle_booked hs hr

/-- **One step, one key.** An accepted delivery opens the window, nothing else
moves it. -/
theorem step_openedAt (s : Supervisor) (i : Input) (key : ToastKey) :
    (s.step i).1.notifications.openedAt key =
      if opens key (Machine.stepAt step s i) then some i.now
      else s.notifications.openedAt key := by
  have hbooked := s.step_booked i
  generalize (s.step i).2.effects = effects at hbooked
  generalize (s.step i).1.notifications = l at hbooked ⊢
  have hshut : (∀ delivered, ¬ s.Receives i (.notifyResult key delivered)) →
      opens key (Machine.stepAt step s i) = false := by
    intro hother
    rw [← Bool.not_eq_true, opens_iff]
    exact fun h => hother true h.1
  cases hbooked with
  | kept hother hquiet => rw [hshut (hother key)]; rfl
  | asked hother hfree hopen honly => rw [hshut (hother key)]; rfl
  | answered hreceives hquiet =>
      rename_i k delivered
      rw [NotificationLedger.onResult_openedAt]
      congr 1
      rw [opens_iff, eq_iff_iff]
      constructor
      · rintro ⟨rfl, hwait, rfl⟩
        exact ⟨hreceives, hwait⟩
      · rintro ⟨hrec, hwait⟩
        have hev := hreceives.1.symm.trans hrec.1
        cases hev
        exact ⟨rfl, hwait, rfl⟩

theorem step_single (h : s.notifications.Single) (i : Input) :
    (s.step i).1.notifications.Single := by
  have hbooked := s.step_booked i
  generalize (s.step i).2.effects = effects at hbooked
  generalize (s.step i).1.notifications = l at hbooked ⊢
  cases hbooked with
  | kept hother hquiet => exact h
  | asked hother hfree hopen honly => exact h.asked hfree
  | answered hreceives hquiet => exact NotificationLedger.onResult_single h _ _ _

/-! ## Over a run -/

/-- The window of a key was opened last by the last accepted delivery. -/
theorem after_openedAt (cfg : Config) (is : List Input) (key : ToastKey) :
    (after cfg is).notifications.openedAt key =
      ((history cfg is).filter (opens key)).getLast?.map (·.input.now) := by
  refine Machine.history_induction (A := fun _ => True)
    (I := fun past s => s.notifications.openedAt key =
      (past.filter (opens key)).getLast?.map (·.input.now)) ?_ ?_ is (fun _ _ => trivial)
  · rw [List.filter_nil, List.getLast?_nil, Option.map_none, new_notifications]
    rfl
  · intro past t i ih _
    rw [step_openedAt, List.filter_append, ih]
    split
    · rename_i hopens
      rw [List.filter_singleton, hopens]
      simp
    · rename_i hshut
      rw [Bool.not_eq_true] at hshut
      rw [List.filter_singleton, hshut]
      simp

theorem after_single (cfg : Config) (is : List Input) : (after cfg is).notifications.Single := by
  refine Machine.final_induction (I := fun s : Supervisor => s.notifications.Single)
    (fun _ i h => step_single h i) ?_ is
  rw [new_notifications]
  exact ⟨List.nodup_nil, List.nodup_nil⟩

theorem history_ordered {cfg : Config} {is : List Input}
    (hclock : Machine.NonDecreasing (·.now) is) :
    (history cfg is).Pairwise (fun p q => p.input.now ≤ q.input.now) := by
  have hinputs : (history cfg is).map (·.input) = is := Machine.trace_inputs (new cfg) is
  rw [← hinputs] at hclock
  unfold Machine.NonDecreasing at hclock
  rwa [List.pairwise_map] at hclock

/-- On a clock that never goes back the throttle has all accepted deliveries in
view. -/
theorem throttled_after {cfg : Config} {is : List Input} {key : ToastKey} {t : ℕ}
    (hclock : Machine.NonDecreasing (·.now) is) :
    (after cfg is).notifications.throttled key t = true ↔
      ∃ p ∈ history cfg is, opens key p = true ∧ t < p.input.now + notifyThrottleMs := by
  have hpos := notifyThrottleMs_pos
  rw [NotificationLedger.throttled_iff, after_openedAt]
  constructor
  · rintro ⟨sent, hsent, hin⟩
    obtain ⟨p, hp, rfl⟩ := Option.mem_map.mp hsent
    obtain ⟨hmem, hopens⟩ := List.mem_filter.mp (List.mem_of_getLast? hp)
    exact ⟨p, hmem, hopens, by omega⟩
  · rintro ⟨p, hmem, hopens, hin⟩
    have hp : p ∈ (history cfg is).filter (opens key) := List.mem_filter.mpr ⟨hmem, hopens⟩
    have hclocked : (history cfg is).Pairwise _ := history_ordered hclock
    have hordered := hclocked.filter (opens key)
    rcases List.eq_nil_or_concat ((history cfg is).filter (opens key)) with hnil | ⟨ys, q, hq⟩
    · rw [hnil] at hp
      cases hp
    · rw [List.concat_eq_append] at hq
      rw [hq] at hp hordered
      have hle : p.input.now ≤ q.input.now := by
        rcases List.mem_append.mp hp with hp | hp
        · exact (List.pairwise_append.mp hordered).2.2 p hp q (List.mem_singleton_self q)
        · rw [List.mem_singleton.mp hp]
      exact ⟨q.input.now, by rw [hq]; simp, by omega⟩

/-- **Toasts are throttled.** A toast is sent only while none of its key is
unanswered and none was delivered in the last half hour. What moves the window of a
key is its own accepted deliveries, and no key is entered in the ledger twice. -/
theorem toasts_throttled (cfg : Config) (is : List Input)
    (hclock : Machine.NonDecreasing (·.now) is) :
    (∀ past r rest, history cfg is = past ++ r :: rest →
      ∀ key title body, .notify key title body ∈ r.out.effects →
        (requests (.notify key)).outstanding past = 0 ∧
        ∀ p ∈ past ++ [r], opens key p = true →
          ¬ (r.input.now < p.input.now + notifyThrottleMs ∧ p.input.now ≤ r.input.now)) ∧
    (∀ key t, (after cfg is).notifications.throttled key t = true ↔
      ∃ p ∈ history cfg is, opens key p = true ∧ t < p.input.now + notifyThrottleMs) ∧
    (∀ r ∈ history cfg is, ∀ key, opens key r = false → ∀ t,
      r.post.notifications.throttled key t = r.pre.notifications.throttled key t) ∧
    (after cfg is).notifications.Single := by
  refine ⟨?_, fun key t => throttled_after hclock, ?_, after_single cfg is⟩
  · intro past r rest hsplit key title body hmem
    obtain ⟨xs, i, ys, rfl, rfl, rfl, -⟩ := history_split hsplit
    have htoasted : toasted ((after cfg xs).step i).2.effects key := ⟨title, body, hmem⟩
    have hxs : Machine.NonDecreasing (·.now) xs := (List.pairwise_append.mp hclock).1
    have hstart : (requests (.notify key)).waiting (new cfg) = 0 :=
      if_neg (by simp [flight, (new_idle cfg).1])
    have hsettled := Machine.Requests.settled_run hstart xs (history_turns cfg xs (.notify key))
    have hturn := step_turn (after_fresh cfg xs) i (.notify key)
    refine ⟨hsettled.none_out_of_sent hturn (toasted_request htoasted), ?_⟩
    have hbooked := (after cfg xs).step_booked i
    generalize ((after cfg xs).step i).1.notifications = l at hbooked
    cases hbooked with
    | kept hother hquiet => exact absurd htoasted (hquiet key)
    | answered hreceives hquiet => exact absurd htoasted (hquiet key)
    | asked hother hfree hopen honly =>
        obtain rfl := honly key htoasted
        intro p hp hopens hin
        rcases List.mem_append.mp hp with hp | hp
        · have hthrottled := (throttled_after hxs).mpr ⟨p, hp, hopens, hin.1⟩
          exact absurd hthrottled (by simp [hopen])
        · rw [List.mem_singleton.mp hp, opens_iff] at hopens
          exact hother key true hopens.1
  · intro r hr key hshut t
    obtain ⟨xs, i, ys, -, rfl⟩ := Machine.exists_split_of_mem hr
    refine NotificationLedger.throttled_congr ?_ t
    exact (step_openedAt _ i key).trans (if_neg (by rw [hshut]; exact Bool.false_ne_true))

end Steps

/-- A failing heartbeat: its toast is delivered, and half an hour later sent again. -/
def toastRun : List Input :=
  [⟨0, 0, .started⟩, ⟨10, 0, .heartbeat (.error "no reply")⟩,
    ⟨20, 0, .notifyResult .heartbeatError true⟩, ⟨30, 0, .heartbeat (.error "no reply")⟩,
    ⟨1800020, 1800, .heartbeat (.error "no reply")⟩]

theorem toasts_throttled_heartbeat :
    (@history replyJson standbyCfg toastRun).map
        (fun r => r.out.effects.countP (fun e => e.request = some (.notify .heartbeatError))) =
      [0, 1, 0, 0, 1] ∧
    (∀ t, (@after replyJson standbyCfg toastRun).notifications.throttled .heartbeatError t = true ↔
      ∃ p ∈ @history replyJson standbyCfg toastRun, opens .heartbeatError p = true ∧
        t < p.input.now + notifyThrottleMs) :=
  ⟨by decide, (@toasts_throttled replyJson standbyCfg toastRun
    (by simp [Machine.NonDecreasing, toastRun])).2.1 .heartbeatError⟩

end Supervisor

end GdutNet
