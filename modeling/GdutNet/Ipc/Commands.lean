import GdutNet.Ipc.Protocol
import GdutNet.Machine.Trace

/-!
# The command mailbox

`ipc/commands.rs`: any number of senders, one receiver. A send updates the
pending record and leaves a wake token in a channel of one slot, all under the
lock; a receive first takes the token and then, in a second step, the record.
Sends may fall between the two. The record coalesces: one redial, the latest
mode. `mailbox_keeps_promises` is what survives any interleaving.
-/

namespace GdutNet.Commands

structure Pending where
  redial : Bool := false
  mode : Option NetMode := none
deriving DecidableEq, Repr

def Pending.update (p : Pending) : Command → Pending
  | .redial => { p with redial := true }
  | .setMode mode => { p with mode := some mode }

/-- The batch a receive makes of the record it took. -/
def Pending.commands (p : Pending) : List Command :=
  (p.mode.map Command.setMode).toList ++ if p.redial then [.redial] else []

/-- `wake` is the one slot of the channel, `taking` the receiver between its
two steps, `senders` the clones that are still alive. -/
structure Mailbox where
  pending : Pending := {}
  wake : Bool := false
  taking : Bool := false
  senders : List ℕ := [0]
  closed : Bool := false
deriving DecidableEq, Repr

inductive Action where
  | clone (sender fresh : ℕ)
  | drop (sender : ℕ)
  | send (sender : ℕ) (command : Command)
  | recvWake
  | recvTake

/-- What a step shows: a command accepted, a batch handed over. -/
inductive Shown where
  | nothing
  | sent (command : Command)
  | batch (commands : List Command)
deriving DecidableEq, Repr

namespace Mailbox

/-- `CommandSender::send`; a full slot already holds a wake. -/
def send (m : Mailbox) (command : Command) : Mailbox :=
  { m with pending := m.pending.update command, wake := true }

/-- `wake.recv()`: takes a token, ends once no sender is left, else waits. -/
def recvWake (m : Mailbox) : Mailbox :=
  if m.wake then { m with wake := false, taking := true }
  else if m.senders.isEmpty then { m with closed := true }
  else m

/-- The record is taken and an empty one left in its place. -/
def recvTake (m : Mailbox) : Mailbox × List Command :=
  ({ m with pending := {}, taking := false }, m.pending.commands)

/-- A step that is not possible in a state changes nothing: a dropped sender
sends nothing, and the receiver is in one `recv` at a time. -/
def step (m : Mailbox) : Action → Mailbox × Shown
  | .clone sender fresh =>
      if sender ∈ m.senders ∧ fresh ∉ m.senders then
        ({ m with senders := fresh :: m.senders }, .nothing)
      else (m, .nothing)
  | .drop sender => ({ m with senders := m.senders.erase sender }, .nothing)
  | .send sender command =>
      if sender ∈ m.senders then (m.send command, .sent command) else (m, .nothing)
  | .recvWake => if m.taking || m.closed then (m, .nothing) else (m.recvWake, .nothing)
  | .recvTake =>
      if m.taking then (m.recvTake.1, .batch m.recvTake.2) else (m, .nothing)

end Mailbox

abbrev Record : Type := Machine.Step Mailbox Action Shown

def history (actions : List Action) : List Record := Machine.trace Mailbox.step {} actions

def after (actions : List Action) : Mailbox := Machine.final Mailbox.step {} actions

/-! ## Everything one step can do -/

/-- A step leaves the record and the receiver alone, accepts a command, takes
the token, or hands over the record. -/
theorem Mailbox.step_cases (m : Mailbox) (act : Action) :
    ((m.step act).2 = .nothing ∧ (m.step act).1.pending = m.pending ∧
      (m.wake = true ∨ m.taking = true →
        (m.step act).1.wake = true ∨ (m.step act).1.taking = true)) ∨
    (∃ command, (m.step act).2 = .sent command ∧
      (m.step act).1.pending = m.pending.update command ∧ (m.step act).1.wake = true) ∨
    ((m.step act).2 = .batch m.pending.commands ∧ (m.step act).1.pending = {}) := by
  cases act with
  | clone sender fresh =>
      left
      unfold step
      dsimp only
      split <;> exact ⟨rfl, rfl, id⟩
  | drop sender => exact .inl ⟨rfl, rfl, id⟩
  | send sender command =>
      unfold step
      dsimp only
      split
      · exact .inr (.inl ⟨command, rfl, rfl, rfl⟩)
      · exact .inl ⟨rfl, rfl, id⟩
  | recvWake =>
      left
      unfold step
      dsimp only
      split
      · exact ⟨rfl, rfl, id⟩
      · unfold recvWake
        split
        · exact ⟨rfl, rfl, fun _ => .inr rfl⟩
        · split <;> exact ⟨rfl, rfl, id⟩
  | recvTake =>
      unfold step
      dsimp only
      split
      · exact .inr (.inr ⟨rfl, rfl⟩)
      · exact .inl ⟨rfl, rfl, id⟩

/-! ## Sends and batches of a run -/

def sent (r : Record) : List Command :=
  match r.out with
  | .sent command => [command]
  | _ => []

def delivered (r : Record) : List Command :=
  match r.out with
  | .batch commands => commands
  | _ => []

def modeOf : Command → Option NetMode
  | .redial => none
  | .setMode mode => some mode

/-- The modes among the commands of a run, in order. -/
def modes (shown : Record → List Command) (past : List Record) : List NetMode :=
  (past.flatMap shown).filterMap modeOf

def NoBatch (r : Record) : Prop := ∀ commands, r.out ≠ .batch commands

/-- Every redial sent is followed by a batch with a redial. -/
def Served (past : List Record) : Prop :=
  ∀ older r later, past = older ++ r :: later → .redial ∈ sent r →
    ∃ q ∈ later, .redial ∈ delivered q

variable {past : List Record} {r : Record}

@[simp] theorem modes_snoc (shown : Record → List Command) :
    modes shown (past ++ [r]) = modes shown past ++ (shown r).filterMap modeOf := by
  simp [modes]

theorem Served.snoc (hr : .redial ∉ sent r) (h : Served past ∨ .redial ∈ delivered r) :
    Served (past ++ [r]) := by
  intro older p later hsplit hp
  rcases List.eq_nil_or_concat later with rfl | ⟨later, q, rfl⟩
  · obtain ⟨_, hlast⟩ := List.append_inj' hsplit rfl
    obtain rfl : r = p := by simpa using hlast
    exact absurd hp hr
  · rw [List.concat_eq_append, ← List.cons_append, ← List.append_assoc] at hsplit
    obtain ⟨rfl, hlast⟩ := List.append_inj' hsplit rfl
    obtain rfl : r = q := by simpa using hlast
    rw [List.concat_eq_append]
    rcases h with hserved | hnow
    · obtain ⟨q, hq, hredial⟩ := hserved older p later rfl hp
      exact ⟨q, List.mem_append_left _ hq, hredial⟩
    · exact ⟨r, by simp, hnow⟩

/-- How the record and the token answer for the whole past. -/
structure Kept (past : List Record) (m : Mailbox) : Prop where
  woken : m.pending ≠ {} → m.wake = true ∨ m.taking = true
  sent_since : ∀ c ∈ m.pending.commands, Machine.Since (c ∈ sent ·) NoBatch past
  served : m.pending.redial = false → Served past
  last_mode : (modes sent past).getLast? =
    m.pending.mode.or (modes delivered past).getLast?

theorem mem_commands_update {p : Pending} {c command : Command}
    (h : c ∈ (p.update command).commands) : c = command ∨ c ∈ p.commands := by
  cases command with
  | redial =>
      simp only [Pending.commands, Pending.update, List.mem_append] at h ⊢
      rcases h with h | h
      · exact .inr (.inl h)
      · exact .inl (by simpa using h)
  | setMode mode =>
      simp only [Pending.commands, Pending.update, List.mem_append] at h ⊢
      rcases h with h | h
      · exact .inl (by simpa using h)
      · exact .inr (.inr h)

theorem commands_modes (p : Pending) : p.commands.filterMap modeOf = p.mode.toList := by
  obtain ⟨redial, mode⟩ := p
  cases redial <;> cases mode <;> rfl

theorem step_kept {m : Mailbox} (h : Kept past m) (act : Action) :
    Kept (past ++ [Machine.stepAt Mailbox.step m act]) (m.step act).1 := by
  rcases m.step_cases act with
    ⟨hshown, hpending, hwake⟩ | ⟨command, hshown, hpending, hwake⟩ | ⟨hshown, hpending⟩
  · have hsent : sent (Machine.stepAt Mailbox.step m act) = [] := by
      simp [sent, hshown]
    have hdelivered : delivered (Machine.stepAt Mailbox.step m act) = [] := by
      simp [delivered, hshown]
    constructor
    · rw [hpending]
      exact fun hne => hwake (h.woken hne)
    · rw [hpending]
      exact fun c hc => (h.sent_since c hc).snoc (by simp [NoBatch, hshown])
    · rw [hpending]
      exact fun hno => .snoc (by simp [hsent]) (.inl (h.served hno))
    · simpa [hsent, hdelivered, hpending] using h.last_mode
  · have hsent : sent (Machine.stepAt Mailbox.step m act) = [command] := by
      simp [sent, hshown]
    have hdelivered : delivered (Machine.stepAt Mailbox.step m act) = [] := by
      simp [delivered, hshown]
    constructor
    · exact fun _ => .inl hwake
    · intro c hc
      rw [hpending] at hc
      rcases mem_commands_update hc with rfl | hc
      · exact .of_last (by simp [hsent])
      · exact (h.sent_since c hc).snoc (by simp [NoBatch, hshown])
    · rw [hpending]
      intro hno
      cases command with
      | redial => simp [Pending.update] at hno
      | setMode mode => exact .snoc (by simp [hsent]) (.inl (h.served hno))
    · rw [modes_snoc, modes_snoc, hsent, hdelivered, hpending]
      cases command with
      | redial => simpa [modeOf, Pending.update] using h.last_mode
      | setMode mode => simp [modeOf, Pending.update]
  · have hsent : sent (Machine.stepAt Mailbox.step m act) = [] := by
      simp [sent, hshown]
    have hdelivered : delivered (Machine.stepAt Mailbox.step m act) = m.pending.commands := by
      simp [delivered, hshown]
    constructor
    · simp [hpending]
    · simp [hpending, Pending.commands]
    · intro _
      refine .snoc (by simp [hsent]) ?_
      rw [hdelivered]
      cases hredial : m.pending.redial with
      | false => exact .inl (h.served hredial)
      | true => exact .inr (by simp [Pending.commands, hredial])
    · rw [modes_snoc, modes_snoc, hsent, hdelivered, hpending, commands_modes]
      cases hmode : m.pending.mode with
      | none => simpa [hmode] using h.last_mode
      | some mode => simpa [hmode] using h.last_mode

theorem history_kept (actions : List Action) : Kept (history actions) (after actions) := by
  refine Machine.history_induction (A := fun _ => True) (I := Kept) ?_ ?_ actions
    (fun _ _ => trivial)
  · exact ⟨by simp, by simp [Pending.commands], by simp [Served], rfl⟩
  · exact fun past m act h _ => step_kept h act

/-- Whatever the interleaving: a waiting command has a wake, a batch is at most
one mode and then at most one redial, every command of a batch was sent since
the batch before it, and once the receiver has nothing left to take no redial is
unanswered and the last mode delivered is the last one sent. -/
theorem mailbox_keeps_promises (actions : List Action) :
    ((after actions).pending ≠ {} →
      (after actions).wake = true ∨ (after actions).taking = true) ∧
    (∀ r ∈ history actions, ∀ commands, r.out = .batch commands →
      ∃ (mode : Option NetMode) (redial : Bool),
        commands = (mode.map Command.setMode).toList ++ if redial then [.redial] else []) ∧
    ((after actions).wake = false → (after actions).taking = false →
      Served (history actions) ∧
      (modes delivered (history actions)).getLast? = (modes sent (history actions)).getLast?) ∧
    ∀ past r rest, history actions = past ++ r :: rest →
      ∀ c ∈ delivered r, Machine.Since (c ∈ sent ·) NoBatch past := by
  have hkept := history_kept actions
  refine ⟨hkept.woken, ?_, ?_, ?_⟩
  · intro r hr commands hout
    obtain ⟨before, act, _, _, rfl⟩ := Machine.exists_split_of_mem hr
    rcases (Machine.final Mailbox.step {} before).step_cases act with
      ⟨hshown, -⟩ | ⟨command, hshown, -⟩ | ⟨hshown, -⟩
    · simp [hshown] at hout
    · simp [hshown] at hout
    · rw [Machine.stepAt_out, hshown] at hout
      cases hout
      exact ⟨_, _, rfl⟩
  · intro hwake htaking
    have hempty : (after actions).pending = {} := by
      by_contra hne
      rcases hkept.woken hne with h | h
      · simp [hwake] at h
      · simp [htaking] at h
    refine ⟨hkept.served (by simp [hempty]), ?_⟩
    simp [hkept.last_mode, hempty]
  · intro past r rest hsplit c hc
    obtain ⟨before, act, _, _, rfl, rfl, _⟩ := Machine.trace_split hsplit
    have hbefore := history_kept before
    rcases (Machine.final Mailbox.step {} before).step_cases act with
      ⟨hshown, -⟩ | ⟨command, hshown, -⟩ | ⟨hshown, -⟩
    · simp [delivered, hshown] at hc
    · simp [delivered, hshown] at hc
    · simp only [delivered, Machine.stepAt_out, hshown] at hc
      exact hbefore.sent_since c hc

/-- A mode sent between the two steps of a receive is in the batch being taken,
and its wake brings one more, empty batch. -/
theorem mailbox_keeps_promises_between :
    let actions : List Action := [.send 0 .redial, .recvWake, .clone 0 1,
      .send 1 (.setMode .wiredPlusStandby), .recvTake, .recvWake, .recvTake]
    (history actions).flatMap delivered = [.setMode .wiredPlusStandby, .redial] ∧
      Served (history actions) := by
  intro actions
  exact ⟨rfl, ((mailbox_keeps_promises actions).2.2.1 rfl rfl).1⟩

end GdutNet.Commands
