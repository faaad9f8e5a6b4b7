import Mathlib.Data.List.Chain
import Mathlib.Data.List.DropRight
import GdutNet.Supervisor.ModeSwitch

/-!
# What the clients are shown

The snapshots of a run show the state: the last one published is the state as it
is, and no snapshot is published twice in a row. The event ring in them is the end
of a journal that only grows.
-/

namespace GdutNet

/-! ## The end of a list that grows -/

theorem rtake_rtake_append {α : Type*} (n : ℕ) (xs ys : List α) :
    (xs.rtake n ++ ys).rtake n = (xs ++ ys).rtake n := by
  simp only [List.rtake_eq_reverse_take_reverse, List.reverse_append, List.reverse_reverse,
    List.take_append, List.take_take]
  congr 3
  omega

theorem rtake_of_length_le {α : Type*} {n : ℕ} {xs : List α} (h : xs.length ≤ n) :
    xs.rtake n = xs := by
  rw [List.rtake, Nat.sub_eq_zero_of_le h, List.drop_zero]

namespace EventLog

/-- The lines that one step writes. -/
def write (log : EventLog) (wall : ℕ) (msgs : List String) : EventLog :=
  msgs.foldl (fun log msg => log.push wall msg) log

theorem Bounded.push_ring {log : EventLog} (h : log.Bounded) (wall : ℕ) (msg : String) :
    (log.push wall msg).ring = (log.ring ++ [eventLine wall msg]).rtake 20 := by
  have hcap := h.cap
  have hlength := h.length
  have hpush : (log.push wall msg).ring =
      (if log.cap ≤ log.ring.length then log.ring.tail else log.ring) ++
        [eventLine wall msg] := rfl
  rw [hpush]
  split
  · have hfull : (log.ring ++ [eventLine wall msg]).length - 20 = 1 := by
      rw [List.length_append, List.length_singleton]
      omega
    rw [List.rtake, hfull, List.drop_append_of_le_length (by omega), List.drop_one]
  · rw [rtake_of_length_le]
    rw [List.length_append, List.length_singleton]
    omega

theorem Bounded.write {log : EventLog} (h : log.Bounded) (wall : ℕ) (msgs : List String) :
    (log.write wall msgs).Bounded ∧
      (log.write wall msgs).ring = (log.ring ++ msgs.map (eventLine wall)).rtake 20 := by
  induction msgs generalizing log with
  | nil =>
      refine ⟨h, ?_⟩
      rw [List.map_nil, List.append_nil, rtake_of_length_le h.length]
      rfl
  | cons msg msgs ih =>
      obtain ⟨hbounded, hring⟩ := ih (h.push wall msg)
      refine ⟨hbounded, hring.trans ?_⟩
      rw [h.push_ring, rtake_rtake_append, List.append_assoc]
      rfl

/-- At most `n` lines, all of them at the time `wall`. -/
def Says (n wall : ℕ) (log log' : EventLog) : Prop :=
  ∃ msgs : List String, msgs.length ≤ n ∧ log' = log.write wall msgs

variable {n m wall : ℕ} {log log' log'' : EventLog}

theorem Says.nothing : Says n wall log log := ⟨[], Nat.zero_le n, rfl⟩

theorem Says.line (msg : String) : Says (n + 1) wall log (log.push wall msg) :=
  ⟨[msg], Nat.le_add_left 1 n, rfl⟩

theorem Says.trans (h : Says n wall log log') (h' : Says m wall log' log'') :
    Says (n + m) wall log log'' := by
  obtain ⟨msgs, hle, rfl⟩ := h
  obtain ⟨msgs', hle', rfl⟩ := h'
  refine ⟨msgs ++ msgs', ?_, ?_⟩
  · rw [List.length_append]
    omega
  · rw [write, write, write, List.foldl_append]

theorem Says.mono (h : Says n wall log log') (hle : n ≤ m) : Says m wall log log' := by
  obtain ⟨msgs, hmsgs, hlog⟩ := h
  exact ⟨msgs, hmsgs.trans hle, hlog⟩

end EventLog

namespace Supervisor

open EventLog (Says)

/-! ## What one event adds -/

/-- At most `n` lines are added, nothing is published, and what has started stays so. -/
structure Adds (n wall : ℕ) (s s' : Supervisor) : Prop where
  written : Says n wall s.events s'.events
  last : s'.lastSnapshot = s.lastSnapshot
  runs : s.started = true → s'.started = true

variable {n m wall : ℕ} {s s' s'' : Supervisor}

theorem Adds.trans (h : s.Adds n wall s') (h' : s'.Adds m wall s'') :
    s.Adds (n + m) wall s'' :=
  ⟨h.written.trans h'.written, h'.last.trans h.last, fun hs => h'.runs (h.runs hs)⟩

theorem Adds.mono (h : s.Adds n wall s') (hle : n ≤ m) : s.Adds m wall s' :=
  ⟨h.written.mono hle, h.last, h.runs⟩

theorem handleAction_adds (s : Supervisor) (action : Action) (nowSecs wall : ℕ) :
    s.Adds 1 wall (s.handleAction action nowSecs wall).1 := by
  unfold handleAction
  split
  · exact ⟨.nothing, rfl, id⟩
  · split
    · exact ⟨.nothing, rfl, id⟩
    · exact ⟨.line _, rfl, id⟩
  · exact ⟨.line _, rfl, id⟩
  · split
    · exact ⟨.nothing, rfl, id⟩
    · split
      · exact ⟨.nothing, rfl, id⟩
      · split
        · exact ⟨.nothing, rfl, id⟩
        · split <;> exact ⟨.nothing, rfl, id⟩
  · split
    · exact ⟨.nothing, rfl, id⟩
    · split <;> exact ⟨.nothing, rfl, id⟩

theorem joinTimeout_adds (s : Supervisor) (now wall : ℕ) :
    s.Adds 1 wall (s.joinTimeout now wall) := by
  unfold joinTimeout
  split
  · exact ⟨.line _, rfl, id⟩
  · exact ⟨.nothing, rfl, id⟩

theorem handleWirelessSampled_adds (s : Supervisor) (sample : WirelessSample) (now wall : ℕ) :
    s.Adds 2 wall (s.handleWirelessSampled sample now wall).1 := by
  unfold handleWirelessSampled decideSample
  split
  · exact ⟨.nothing, rfl, id⟩
  · split
    · exact ⟨.nothing, rfl, id⟩
    · have hact (b : Brain) (action : Action) :
          s.Adds 1 wall ((s.observed sample b).handleAction action (now / 1000) wall).1 := by
        have h := handleAction_adds (s.observed sample b) action (now / 1000) wall
        exact ⟨h.written, h.last, h.runs⟩
      dsimp only
      split
      · exact (hact _ _).trans (joinTimeout_adds _ now wall)
      · exact (hact _ _).mono (by omega)

theorem applyLink_adds (s : Supervisor) (next : Option Bool) (now wall : ℕ) :
    s.Adds 1 wall (s.applyLink next now wall).1 := by
  unfold applyLink
  dsimp only
  split
  · split
    · exact ⟨.nothing, rfl, id⟩
    · split
      · exact ⟨.line _, rfl, id⟩
      · exact ⟨.nothing, rfl, id⟩
  · exact ⟨.nothing, rfl, id⟩

theorem handleLinkSampled_adds (s : Supervisor) (up : Option Bool) (pppIp : Option String)
    (now wall : ℕ) : s.Adds 1 wall (s.handleLinkSampled up pppIp now wall).1 := by
  unfold handleLinkSampled
  split
  · exact ⟨.nothing, rfl, id⟩
  · have hlink := applyLink_adds
      { s with sampleInFlight := false, pppIp, linkSampleSeen := true } (s.nextLink up) now wall
    dsimp only
    split
    · exact ⟨hlink.written, hlink.last, hlink.runs⟩
    · exact ⟨hlink.written, hlink.last, hlink.runs⟩

theorem handleWatchdogStepped_adds (s : Supervisor) (step : WatchdogStep) (now wall : ℕ) :
    s.Adds n wall (s.handleWatchdogStepped step now).1 := by
  unfold handleWatchdogStepped
  dsimp only
  split
  · split
    · exact ⟨.nothing, rfl, id⟩
    · exact ⟨.nothing, rfl, id⟩
  · split
    · exact ⟨.nothing, rfl, id⟩
    · exact ⟨.nothing, rfl, id⟩
  · exact ⟨.nothing, rfl, id⟩
  · exact ⟨.nothing, rfl, id⟩
  · exact ⟨.nothing, rfl, id⟩

theorem handleStop_adds (s : Supervisor) (wall : ℕ) :
    s.Adds 1 wall (s.handleStop wall).1 := by
  unfold handleStop
  dsimp only
  split
  · split
    · exact ⟨.line _, rfl, id⟩
    · exact ⟨.nothing, rfl, id⟩
  · exact ⟨.nothing, rfl, id⟩

theorem handleWirelessDied_adds (s : Supervisor) (wall : ℕ) :
    s.Adds 1 wall (s.handleWirelessDied wall) := by
  unfold handleWirelessDied
  split
  · exact ⟨.nothing, rfl, id⟩
  · dsimp only
    split
    · exact ⟨.line _, rfl, id⟩
    · exact ⟨.nothing, rfl, id⟩

theorem handleProbeFinished_adds (s : Supervisor) (verdict : ProbeVerdict) (wall : ℕ) :
    s.Adds 1 wall (s.handleProbeFinished verdict wall) := by
  unfold handleProbeFinished
  split
  · exact ⟨.nothing, rfl, id⟩
  · dsimp only
    split
    · exact ⟨.line _, rfl, id⟩
    · exact ⟨.nothing, rfl, id⟩

theorem new_lastSnapshot (cfg : Config) : (new cfg).lastSnapshot = none := by
  unfold new
  dsimp only
  split
  · split <;> rfl
  · rfl

section Runs

variable [SerdeJson]

theorem handle_adds (s : Supervisor) (now wall : ℕ) (event : Event) :
    s.Adds 2 wall (s.handle now wall event).1 := by
  have hone {s' : Supervisor} (h : s.Adds 1 wall s') : s.Adds 2 wall s' := h.mono (by omega)
  cases event with
  | started => exact ⟨.nothing, rfl, id⟩
  | wake =>
      obtain ⟨deadline, pending, sample, poll, wlan, tick, hwake⟩ := s.handleWake_writes now
      change s.Adds 2 wall (s.handleWake now).1
      rw [hwake]
      exact ⟨.nothing, rfl, id⟩
  | command cmd =>
      cases cmd with
      | redial => exact ⟨.nothing, rfl, id⟩
      | setMode mode => exact ⟨.line _, rfl, id⟩
  | linkSampled up pppIp => exact hone (s.handleLinkSampled_adds up pppIp now wall)
  | watchdogStepped step => exact s.handleWatchdogStepped_adds step now wall
  | wirelessSampled sample => exact s.handleWirelessSampled_adds sample now wall
  | associateFinished res =>
      simp only [handle, handleAssociateFinished]
      split <;> exact ⟨.nothing, rfl, id⟩
  | portalFinished attempt =>
      simp only [handle, handlePortalFinished]
      split
      · exact ⟨.nothing, rfl, id⟩
      · exact ⟨.line _, rfl, id⟩
  | wlanProbeFinished verdict => exact hone (s.handleProbeFinished_adds verdict wall)
  | heartbeat status => exact ⟨.nothing, rfl, id⟩
  | notifyResult key delivered => exact ⟨.nothing, rfl, id⟩
  | wirelessDied => exact hone (s.handleWirelessDied_adds wall)
  | stop => exact hone (s.handleStop_adds wall)

theorem dispatch_adds (s : Supervisor) (now wall : ℕ) (event : Event) :
    s.Adds 2 wall (s.dispatch now wall event).1 := by
  rcases s.dispatch_cases now wall event with ⟨-, hd⟩ | ⟨-, -, hd⟩ | ⟨-, -, hd⟩
  · rw [hd]
    exact ⟨.nothing, rfl, id⟩
  · rw [hd]
    unfold handleStarted
    dsimp only
    split <;> exact ⟨.line _, rfl, fun _ => rfl⟩
  · rw [hd]
    exact s.handle_adds now wall event

theorem step_writes (s : Supervisor) (i : Input) :
    Says 2 i.wall s.events (s.step i).1.events := by
  obtain ⟨snap, hstate⟩ := s.step_state i
  rw [hstate]
  exact (s.dispatch_adds i.now i.wall i.event).written

/-! ## The journal -/

/-- The lines of some steps, each stamped with the wall clock of its step. -/
def lines (is : List Input) (said : List (List String)) : List String :=
  (List.zipWith (fun i msgs => msgs.map (eventLine i.wall)) is said).flatten

/-- **The journal only grows.** From any point of a run on, the ring is the end of
what it was followed by the lines of the steps since, two a step at most. -/
theorem journal_append_only (cfg : Config) (is js : List Input) :
    ∃ said : List (List String), said.length = js.length ∧ (∀ msgs ∈ said, msgs.length ≤ 2) ∧
      (after cfg (is ++ js)).events.ring =
        ((after cfg is).events.ring ++ lines js said).rtake 20 := by
  induction js using List.reverseRecOn with
  | nil =>
      refine ⟨[], rfl, by simp, ?_⟩
      rw [lines, List.zipWith_nil_right, List.flatten_nil, List.append_nil, List.append_nil,
        rtake_of_length_le (after_bounded cfg is).length]
  | append_singleton js j ih =>
      obtain ⟨said, hlength, hfew, hring⟩ := ih
      obtain ⟨msgs, hmsgs, hstep⟩ := (after cfg (is ++ js)).step_writes j
      refine ⟨said ++ [msgs], by simp [hlength], ?_, ?_⟩
      · intro m hm
        rcases List.mem_append.mp hm with hm | hm
        · exact hfew m hm
        · rwa [List.mem_singleton.mp hm]
      · have hlines : lines (js ++ [j]) (said ++ [msgs]) =
            lines js said ++ msgs.map (eventLine j.wall) := by
          rw [lines, lines, List.zipWith_append hlength.symm, List.flatten_append]
          simp
        rw [← List.append_assoc, after, Machine.final_snoc]
        change ((after cfg (is ++ js)).step j).1.events.ring = _
        rw [hstep, ((after_bounded cfg (is ++ js)).write j.wall msgs).2, hring, rtake_rtake_append,
          hlines, List.append_assoc]

/-! ## The snapshots -/

/-- The snapshots of a run, in the order they are published. -/
def published (cfg : Config) (is : List Input) : List StateSnapshot :=
  (history cfg is).filterMap (·.out.snapshot)

theorem published_snoc (cfg : Config) (is : List Input) (i : Input) :
    published cfg (is ++ [i]) =
      published cfg is ++ ((after cfg is).step i).2.snapshot.toList := by
  rw [published, history, Machine.trace_snoc, List.filterMap_append]
  change published cfg is ++ List.filterMap _ [Machine.stepAt step (after cfg is) i] = _
  rw [List.filterMap_cons, List.filterMap_nil, Machine.stepAt_out]
  cases ((after cfg is).step i).2.snapshot <;> rfl

/-- A snapshot is published when it is not the last one, and it becomes the last one. -/
theorem step_snapshot (s : Supervisor) (i : Input) :
    (s.step i).1.lastSnapshot = (s.step i).2.snapshot.or s.lastSnapshot ∧
      ∀ snap, (s.step i).2.snapshot = some snap → s.lastSnapshot ≠ some snap := by
  have hlast := (s.dispatch_adds i.now i.wall i.event).last
  simp only [step, on, publish]
  split
  · split
    · exact ⟨hlast, fun snap hsnap => by cases hsnap⟩
    · rename_i hnew
      refine ⟨rfl, fun snap hsnap => ?_⟩
      cases hsnap
      rwa [hlast] at hnew
  · exact ⟨hlast, fun snap hsnap => by cases hsnap⟩

theorem published_last (cfg : Config) (is : List Input) :
    (published cfg is).getLast? = (after cfg is).lastSnapshot := by
  induction is using List.reverseRecOn with
  | nil =>
      exact (new_lastSnapshot cfg).symm
  | append_singleton is i ih =>
      have hstate : after cfg (is ++ [i]) = ((after cfg is).step i).1 :=
        Machine.final_snoc (new cfg) is i
      rw [published_snoc, List.getLast?_append, ih, hstate, ((after cfg is).step_snapshot i).1]
      cases ((after cfg is).step i).2.snapshot <;> rfl

/-- Nothing happens before `Started`. -/
theorem started_or_new (cfg : Config) (is : List Input) :
    (after cfg is).started = true ∨ after cfg is = new cfg := by
  refine Machine.final_induction (I := fun s => s.started = true ∨ s = new cfg) ?_ (.inr rfl) is
  rintro s i (hs | rfl)
  · obtain ⟨snap, hstate⟩ := s.step_state i
    left
    rw [hstate]
    exact (s.dispatch_adds i.now i.wall i.event).runs hs
  · rcases (new cfg).dispatch_cases i.now i.wall i.event with
      ⟨hn, hd⟩ | ⟨-, -, hd⟩ | ⟨hs, -, -⟩
    · right
      simp only [step, on, hd, hn, Bool.false_eq_true, if_false]
    · left
      obtain ⟨snap, hstate⟩ := (new cfg).step_state i
      rw [hstate, hd]
      unfold handleStarted
      dsimp only
      split <;> rfl
    · rw [(new_idle cfg).1] at hs
      cases hs

/-- The last snapshot published is the state; without one it is the initial state. -/
theorem published_getLast (cfg : Config) (is : List Input) :
    (published cfg is).getLast?.getD (new cfg).compose = (after cfg is).compose := by
  rw [published_last]
  rcases started_or_new cfg is with hs | hnew
  · rw [after_shown cfg is hs, Option.getD_some]
  · rw [hnew, new_lastSnapshot, Option.getD_none]

/-- **The clients are shown the state.** The last snapshot published is the state of the
supervisor, which is the initial one if none was, and no two in a row are the same. -/
theorem shown_state (cfg : Config) (is : List Input) :
    (published cfg is).getLast?.getD (new cfg).compose = (after cfg is).compose ∧
      (published cfg is).IsChain (· ≠ ·) := by
  refine ⟨published_getLast cfg is, ?_⟩
  induction is using List.reverseRecOn with
  | nil => exact List.isChain_nil
  | append_singleton is i ih =>
      rw [published_snoc, List.isChain_append]
      refine ⟨ih, ?_, ?_⟩
      · cases ((after cfg is).step i).2.snapshot <;> simp
      · intro last hlast snap hsnap heq
        rw [published_last] at hlast
        have hstep : ((after cfg is).step i).2.snapshot = some snap := by
          cases hout : ((after cfg is).step i).2.snapshot with
          | none => simp [hout] at hsnap
          | some other => simpa [hout] using hsnap
        exact ((after cfg is).step_snapshot i).2 snap hstep (heq ▸ hlast)

end Runs

end Supervisor

end GdutNet
