import GdutNet.Ipc.Protocol
import GdutNet.Machine.Trace

/-!
# The tray

`status.rs` turns a snapshot into a status line and a light. The tray has two threads:
`ipc_loop` stores what it reads in a shared cell and sends texts into a channel, and the
pump brings the widgets up to date at every idle beat. A move is what either thread does
between two operations on what they share, so a run is an interleaving.
-/

namespace GdutNet

/-! ## What a snapshot says -/

inductive Light where
  | wired
  | wireless
  | busy
  | off
deriving DecidableEq, Repr

inductive Primary where
  | serviceDown
  | connected
  | wirelessOnline
  | dialing
  | backoff
  | authFail
  | idle
deriving DecidableEq, Repr

structure StatusView where
  primary : Primary
  light : Light
deriving DecidableEq, Repr

def SessionStatus.primary : SessionStatus → Primary
  | .dialing => .dialing
  | .backoff => .backoff
  | .authFail => .authFail
  | .idle => .idle
  -- `view` has dealt with it
  | .connected => .connected

/-- The wired session first, then the wireless one; no snapshot: no service. -/
def view : Option StateSnapshot → StatusView
  | none => ⟨.serviceDown, .off⟩
  | some s =>
      if s.status = .connected then ⟨.connected, .wired⟩
      else if s.wireless.phase = .online then ⟨.wirelessOnline, .wireless⟩
      else ⟨s.status.primary, if s.status.primary = .idle then .off else .busy⟩

def sessionZh : SessionStatus → String
  | .connected => "已连接"
  | .dialing => "拨号中"
  | .backoff => "重拨中"
  | .authFail => "认证失败"
  | .idle => "空闲"

def wphaseZh : WPhase → String
  | .off => "关闭"
  | .joining => "连接中"
  | .authing => "认证中"
  | .online => "已接管"
  | .error => "错误"

def statusLineZh : Option StateSnapshot → String
  | none => "服务未运行"
  | some s => "有线：" ++ sessionZh s.status ++ " · WiFi：" ++ wphaseZh s.wireless.phase

inductive IconKind where
  | wiredUp
  | wirelessUp
  | backoff
  | down
deriving DecidableEq, Repr

def iconKind (s : Option StateSnapshot) : IconKind :=
  match (view s).light with
  | .wired => .wiredUp
  | .wireless => .wirelessUp
  | .busy => .backoff
  | .off => .down

/-- The mode that the menu checks: the default one without a snapshot. -/
def shownMode (s : Option StateSnapshot) : NetMode :=
  (s.map StateSnapshot.mode).getD .wiredExclusive

def tooltipText (line : String) : String := "gdut-net — " ++ line

/-! ## The two threads -/

/-- Where `ipc_loop` stands. -/
inductive Tray.Ipc where
  -- in `Session::connect`, or asleep before it
  | connecting
  -- in `next_snapshot`
  | reading
  -- a snapshot was read, before the lock that stores it
  | storing (s : StateSnapshot)
  -- before the lock of `push_text`; the connection is up, or was lost
  | telling (up : Bool)
  -- before the text is sent
  | sending (text : String) (up : Bool)
  -- the connection was lost, before the lock that clears the cell
  | clearing
deriving DecidableEq, Repr

structure Tray where
  shared : Option StateSnapshot := none
  texts : List String := []
  ipc : Tray.Ipc := .connecting
  statusText : String := statusLineZh none
  exclusiveChecked : Bool := true
  standbyChecked : Bool := false
  icon : IconKind := .down
  lastKind : IconKind := .down
  tooltip : String := tooltipText (statusLineZh none)
  lastTooltip : String := statusLineZh none

inductive Tray.Move where
  | connected
  -- `next_snapshot` returns: a snapshot, or an error
  | read (s : Option StateSnapshot)
  -- `ipc_loop` runs to its next operation
  | resume
  -- an idle beat of the pump; whether `set_icon` and `set_tooltip` work
  | beat (iconSet tooltipSet : Bool)
deriving DecidableEq, Repr

namespace Tray

def resume (t : Tray) : Tray :=
  match t.ipc with
  | .connecting | .reading => t
  | .storing s => { t with shared := some s, ipc := .telling true }
  | .clearing => { t with shared := none, ipc := .telling false }
  | .telling up => { t with ipc := .sending (statusLineZh t.shared) up }
  | .sending text up =>
      { t with texts := t.texts ++ [text], ipc := if up then .reading else .connecting }

/-- The texts first, then the cell. What was not set is not tried again. -/
def beat (t : Tray) (iconSet tooltipSet : Bool) : Tray :=
  let text := t.texts.getLast?.getD t.statusText
  let want := statusLineZh t.shared
  let kind := iconKind t.shared
  { t with
    texts := []
    statusText := if text ≠ want then want else text
    exclusiveChecked := shownMode t.shared = .wiredExclusive
    standbyChecked := shownMode t.shared = .wiredPlusStandby
    icon := if kind ≠ t.lastKind && iconSet then kind else t.icon
    lastKind := kind
    tooltip := if t.lastTooltip ≠ want && tooltipSet then tooltipText want else t.tooltip
    lastTooltip := want }

def move (t : Tray) : Move → Tray
  | .connected => if t.ipc = .connecting then { t with ipc := .reading } else t
  | .read s =>
      if t.ipc = .reading then
        { t with ipc := match s with
            | some s => .storing s
            | none => .clearing }
      else t
  | .resume => t.resume
  | .beat iconSet tooltipSet => t.beat iconSet tooltipSet

def step (t : Tray) (m : Move) : Tray × Unit := (t.move m, ())

abbrev Record : Type := Machine.Step Tray Move Unit

def history (moves : List Move) : List Record := Machine.trace step {} moves

def after (moves : List Move) : Tray := Machine.final step {} moves

/-! ## What the service has said -/

/-- What a step hears of the service: a snapshot, or that the connection is lost. -/
def heard (r : Record) : Option (Option StateSnapshot) :=
  match r.pre.ipc, r.input with
  | .reading, .read s => some s
  | _, _ => none

/-- The last snapshot of the connection that is up; none without a connection. -/
def lastHeard (past : List Record) : Option StateSnapshot :=
  (past.filterMap heard).getLast?.join

theorem lastHeard_snoc {past : List Record} {r : Record} (h : heard r = none) :
    lastHeard (past ++ [r]) = lastHeard past := by
  rw [lastHeard, List.filterMap_append, List.filterMap_cons, h, List.filterMap_nil,
    List.append_nil, lastHeard]

theorem lastHeard_snoc_some {past : List Record} {r : Record} {s : Option StateSnapshot}
    (h : heard r = some s) : lastHeard (past ++ [r]) = s := by
  rw [lastHeard, List.filterMap_append, List.filterMap_cons, h, List.filterMap_nil,
    List.getLast?_concat, Option.join_some]

/-- Only a read can hear something. -/
theorem heard_stepAt {t : Tray} {m : Move} (h : ∀ s, m ≠ .read s) :
    heard (Machine.stepAt Tray.step t m) = none := by
  cases m with
  | read s => exact absurd rfl (h s)
  | _ =>
      unfold heard
      split
      · rename_i hinput
        cases hinput
      · rfl

/-- The cell holds what was heard last, but for what `ipc_loop` is about to write. -/
def Keeps (t : Tray) (last : Option StateSnapshot) : Prop :=
  match t.ipc with
  | .storing s => last = some s
  | .clearing => last = none
  | _ => t.shared = last

variable {last : Option StateSnapshot} {t : Tray}

theorem Keeps.connected (h : t.Keeps last) : (t.move .connected).Keeps last := by
  by_cases hipc : t.ipc = .connecting
  · have hmove : t.move .connected = { t with ipc := .reading } := if_pos hipc
    unfold Keeps at h
    rw [hipc] at h
    rw [hmove]
    exact h
  · have hmove : t.move .connected = t := if_neg hipc
    rwa [hmove]

theorem keeps_read (hipc : t.ipc = .reading) (s : Option StateSnapshot) :
    (t.move (.read s)).Keeps s := by
  cases s with
  | none =>
      have hmove : t.move (.read none) = { t with ipc := .clearing } := if_pos hipc
      rw [hmove]
      rfl
  | some s =>
      have hmove : t.move (.read (some s)) = { t with ipc := .storing s } := if_pos hipc
      rw [hmove]
      rfl

theorem Keeps.resume (h : t.Keeps last) : t.resume.Keeps last := by
  have hkeeps := h
  unfold Keeps at h
  unfold Tray.resume
  split <;> rename_i hipc <;> rw [hipc] at h
  · exact hkeeps
  · exact hkeeps
  · exact h.symm
  · exact h.symm
  · exact h
  · rename_i text up
    cases up <;> exact h

theorem Keeps.step {past : List Record} (h : t.Keeps (lastHeard past)) (m : Move) :
    (t.move m).Keeps (lastHeard (past ++ [Machine.stepAt Tray.step t m])) := by
  have hquiet (hm : ∀ s, m ≠ .read s) :
      lastHeard (past ++ [Machine.stepAt Tray.step t m]) = lastHeard past :=
    lastHeard_snoc (heard_stepAt hm)
  cases m with
  | connected =>
      rw [hquiet (fun s => by simp)]
      exact h.connected
  | read s =>
      by_cases hipc : t.ipc = .reading
      · have hheard : heard (Machine.stepAt Tray.step t (.read s)) = some s := by
          simp [heard, hipc]
        rw [lastHeard_snoc_some hheard]
        exact keeps_read hipc s
      · have hheard : heard (Machine.stepAt Tray.step t (.read s)) = none := by
          simp [heard, hipc]
        have hmove : t.move (.read s) = t := if_neg hipc
        rwa [lastHeard_snoc hheard, hmove]
  | resume =>
      rw [hquiet (fun s => by simp)]
      exact h.resume
  | beat iconSet tooltipSet =>
      rw [hquiet (fun s => by simp)]
      exact h

theorem after_keeps (moves : List Move) : (after moves).Keeps (lastHeard (history moves)) := by
  refine Machine.history_induction (A := fun _ => True)
    (I := fun past (t : Tray) => t.Keeps (lastHeard past)) ?_ ?_ moves (fun _ _ => trivial)
  · exact (rfl : (none : Option StateSnapshot) = none)
  · intro past t m h _
    exact h.step m

/-! ## What the widgets show -/

/-- The icon and the tooltip are the ones that were set last. -/
def Decorated (t : Tray) : Prop :=
  t.icon = t.lastKind ∧ t.tooltip = tooltipText t.lastTooltip

theorem Decorated.beat (h : t.Decorated) : (t.beat true true).Decorated := by
  obtain ⟨hicon, htooltip⟩ := h
  unfold Tray.beat Decorated
  dsimp only
  constructor
  · by_cases hkind : iconKind t.shared = t.lastKind
    · simp [hkind, hicon]
    · simp [hkind]
  · by_cases hline : t.lastTooltip = statusLineZh t.shared
    · simp [hline, htooltip]
    · simp [hline]

/-- A move whose `set_icon` and `set_tooltip` work. -/
def Move.Sets : Move → Prop
  | .beat iconSet tooltipSet => iconSet = true ∧ tooltipSet = true
  | _ => True

theorem Decorated.move (h : t.Decorated) {m : Move} (hm : m.Sets) : (t.move m).Decorated := by
  cases m with
  | connected =>
      dsimp only [Tray.move]
      split <;> exact h
  | read s =>
      dsimp only [Tray.move]
      split <;> exact h
  | resume =>
      dsimp only [Tray.move, Tray.resume]
      split <;> exact h
  | beat iconSet tooltipSet =>
      obtain ⟨rfl, rfl⟩ := hm
      exact h.beat

theorem after_decorated {moves : List Move} (h : ∀ m ∈ moves, m.Sets) :
    (after moves).Decorated := by
  induction moves using List.reverseRecOn with
  | nil => exact ⟨rfl, rfl⟩
  | append_singleton moves m ih =>
      rw [after, Machine.final_snoc]
      exact (ih (fun m hm => h m (List.mem_append_left _ hm))).move (h m (by simp))

/-- The menu shows `s`. -/
structure Shows (t : Tray) (s : Option StateSnapshot) : Prop where
  status : t.statusText = statusLineZh s
  exclusive : t.exclusiveChecked = decide (shownMode s = .wiredExclusive)
  standby : t.standbyChecked = decide (shownMode s = .wiredPlusStandby)

theorem beat_shows (t : Tray) (iconSet tooltipSet : Bool) :
    (t.beat iconSet tooltipSet).Shows t.shared := by
  refine ⟨?_, rfl, rfl⟩
  unfold Tray.beat
  dsimp only
  split
  · rfl
  · rename_i h
    exact not_not.mp h

theorem after_beat (moves : List Move) (iconSet tooltipSet : Bool) :
    after (moves ++ [.beat iconSet tooltipSet]) = (after moves).beat iconSet tooltipSet := by
  rw [after, Machine.final_snoc]
  rfl

/-- **The tray shows the service.** After an idle beat, in every interleaving of the two
threads, the menu shows the cell, and so do the icon and the tooltip if they could be set;
and the cell holds the last snapshot of the connection that is up, and nothing without
one, but for what `ipc_loop` is about to write. -/
theorem tray_shows (moves : List Move) (iconSet tooltipSet : Bool) :
    (after (moves ++ [.beat iconSet tooltipSet])).Shows (after moves).shared ∧
    ((∀ m ∈ moves ++ [.beat iconSet tooltipSet], m.Sets) →
      (after (moves ++ [.beat iconSet tooltipSet])).icon = iconKind (after moves).shared ∧
      (after (moves ++ [.beat iconSet tooltipSet])).tooltip =
        tooltipText (statusLineZh (after moves).shared)) ∧
    (after moves).Keeps (lastHeard (history moves)) := by
  refine ⟨?_, ?_, after_keeps moves⟩
  · rw [after_beat]
    exact beat_shows _ iconSet tooltipSet
  · intro hsets
    have hdecorated := after_decorated hsets
    rw [after_beat] at hdecorated ⊢
    exact hdecorated

end Tray

end GdutNet
