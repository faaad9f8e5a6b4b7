import GdutNet.Machine.Trace

/-!
# One tray in a session

`acquire_singleton`, `signal_show` and the part of `run_tray` that deals with them. The
mutex and the event are kernel objects: each has a name, exists while some process has a
handle of it, and is gone with its last handle, also when a process is killed. The event
resets itself when a wait ends with it. A run is an interleaving of the calls of any
number of processes.
-/

namespace GdutNet

/-- Where a process of `run_tray` stands. -/
inductive Instance where
  -- before `CreateMutexW`
  | fresh (showGuiAtStart : Bool)
  -- `ERROR_ALREADY_EXISTS`, and its handle is still open
  | found
  -- `Secondary`: in `signal_show`, with the event open, and after `SetEvent`
  | asking
  | opened
  | asked
  -- `Primary`: before `CreateEventW`, and in the loop; unguarded when `CreateMutexW` failed
  | primary (guarded showGuiAtStart : Bool)
  | pumping (guarded : Bool)
  | gone
deriving DecidableEq, Repr

/-- One call of a process, and how it ends. -/
inductive Instance.Call where
  | createMutex (ok : Bool)
  | closeMutex
  | createEvent (ok : Bool)
  | setEvent (ok : Bool)
  | closeEvent
  -- `pump_once` drained messages, or waited
  | pumpOnce (waited : Bool)
  -- it returns, quits or is killed
  | exit
deriving DecidableEq, Repr

namespace Instance

def Call.unguards : Call → Bool
  | .createMutex ok => !ok
  | _ => false

def Call.asks : Call → Bool
  | .setEvent ok => ok
  | _ => false

def holdsMutex : Instance → Bool
  | .found | .primary true _ | .pumping true => true
  | _ => false

def holdsEvent : Instance → Bool
  | .opened | .asked | .pumping _ => true
  | _ => false

/-- It is the tray, or about to be. -/
def isPrimary : Instance → Bool
  | .primary _ _ | .pumping _ => true
  | _ => false

def isGuarded : Instance → Bool
  | .primary guarded _ | .pumping guarded => guarded
  | _ => false

/-- It has found a tray at work, or is gone. -/
def isSecondary : Instance → Bool
  | .found | .asking | .opened | .asked | .gone => true
  | _ => false

/-- Where the call leaves the process; `held`: the mutex exists. -/
def next (held : Bool) : Instance → Call → Option Instance
  | .gone, _ => none
  | _, .exit => some .gone
  | .fresh s, .createMutex ok =>
      some (if !ok then .primary false s else if held then .found else .primary true s)
  | .found, .closeMutex => some .asking
  | .asking, .createEvent ok => some (if ok then .opened else .gone)
  | .opened, .setEvent _ => some .asked
  | .asked, .closeEvent => some .gone
  | .primary guarded _, .createEvent ok => some (if ok then .pumping guarded else .gone)
  | .pumping guarded, .pumpOnce _ => some (.pumping guarded)
  | _, _ => none

/-- What the call does to the event; `none`: no such event. -/
def signal (event : Option Bool) : Instance → Call → Option Bool
  | .asking, .createEvent true | .primary _ _, .createEvent true => some (event.getD false)
  | .opened, .setEvent true => event.map fun _ => true
  | .pumping _, .pumpOnce true => event.map fun _ => false
  | _, _ => event

/-- Whether `show_gui` follows. -/
def shows (event : Option Bool) : Instance → Call → Bool
  | .primary _ s, .createEvent true => s
  | .pumping _, .pumpOnce true => event == some true
  | _, _ => false

end Instance

structure Trays where
  procs : List Instance := []
  event : Option Bool := none
deriving DecidableEq, Repr

inductive Trays.Move where
  | start (showGuiAtStart : Bool)
  | call (i : ℕ) (c : Instance.Call)
deriving DecidableEq, Repr

namespace Trays

def step (t : Trays) : Move → Trays × Bool
  | .start s => ({ t with procs := t.procs ++ [.fresh s] }, false)
  | .call i c =>
      match t.procs[i]? with
      | none => (t, false)
      | some p =>
          match p.next (t.procs.any Instance.holdsMutex) c with
          | none => (t, false)
          | some q =>
              let procs := t.procs.set i q
              let event := if procs.any Instance.holdsEvent then p.signal t.event c else none
              (⟨procs, event⟩, p.shows t.event c)

def after (moves : List Move) : Trays := Machine.final step {} moves

/-- Everything a move can do. -/
theorem step_cases (t : Trays) (m : Move) :
    t.step m = (t, false) ∨
    (∃ s, m = .start s ∧ t.step m = ({ t with procs := t.procs ++ [.fresh s] }, false)) ∨
    ∃ i c p q, m = .call i c ∧ t.procs[i]? = some p ∧
      p.next (t.procs.any Instance.holdsMutex) c = some q ∧
      (t.step m).1.procs = t.procs.set i q ∧
      (t.step m).1.event =
        (if (t.procs.set i q).any Instance.holdsEvent then p.signal t.event c else none) ∧
      (t.step m).2 = p.shows t.event c := by
  cases m with
  | start s => exact .inr (.inl ⟨s, rfl, rfl⟩)
  | call i c =>
      cases hp : t.procs[i]? with
      | none => exact .inl (by simp [step, hp])
      | some p =>
          cases hq : p.next (t.procs.any Instance.holdsMutex) c with
          | none => exact .inl (by simp [step, hp, hq])
          | some q => exact .inr (.inr ⟨i, c, p, q, rfl, hp, hq, by simp [step, hp, hq]⟩)

/-- The call of process `i` that the move is. -/
def Move.callOf (i : ℕ) : Move → Option Instance.Call
  | .start _ => none
  | .call k c => if k = i then some c else none

/-- The tray that comes of it is not guarded. -/
def Move.unguards : Move → Bool
  | .start _ => false
  | .call _ c => c.unguards

/-- Somebody asks for the window. -/
def Move.asks : Move → Bool
  | .start s => s
  | .call _ c => c.asks

end Trays

/-! ## One call -/

namespace Instance

/-- The ways of a process. -/
inductive Went (held : Bool) : Instance → Call → Instance → Prop
  | unguarded (s : Bool) : Went held (.fresh s) (.createMutex false) (.primary false s)
  | found (s : Bool) (h : held = true) : Went held (.fresh s) (.createMutex true) .found
  | first (s : Bool) (h : held = false) :
      Went held (.fresh s) (.createMutex true) (.primary true s)
  | closed : Went held .found .closeMutex .asking
  | opened : Went held .asking (.createEvent true) .opened
  | failed : Went held .asking (.createEvent false) .gone
  | asked (ok : Bool) : Went held .opened (.setEvent ok) .asked
  | done : Went held .asked .closeEvent .gone
  | created (g s : Bool) : Went held (.primary g s) (.createEvent true) (.pumping g)
  | died (g s : Bool) : Went held (.primary g s) (.createEvent false) .gone
  | pumped (g waited : Bool) : Went held (.pumping g) (.pumpOnce waited) (.pumping g)
  | exited (p : Instance) : Went held p .exit .gone

variable {held : Bool} {event : Option Bool} {p q : Instance} {c : Call}

theorem went_of_next (h : p.next held c = some q) : Went held p c q := by
  cases c with
  | createMutex ok =>
      cases p with
      | fresh s =>
          cases ok with
          | false =>
              cases h
              exact .unguarded s
          | true =>
              cases held with
              | true =>
                  cases h
                  exact .found s rfl
              | false =>
                  cases h
                  exact .first s rfl
      | _ => cases h
  | closeMutex =>
      cases p with
      | found =>
          cases h
          exact .closed
      | _ => cases h
  | createEvent ok =>
      cases p with
      | asking =>
          cases ok with
          | true =>
              cases h
              exact .opened
          | false =>
              cases h
              exact .failed
      | primary g s =>
          cases ok with
          | true =>
              cases h
              exact .created g s
          | false =>
              cases h
              exact .died g s
      | _ => cases h
  | setEvent ok =>
      cases p with
      | opened =>
          cases h
          exact .asked ok
      | _ => cases h
  | closeEvent =>
      cases p with
      | asked =>
          cases h
          exact .done
      | _ => cases h
  | pumpOnce waited =>
      cases p with
      | pumping g =>
          cases h
          exact .pumped g waited
      | _ => cases h
  | exit =>
      cases p with
      | gone => cases h
      | _ =>
          cases h
          exact .exited _

/-- Whoever has the event open after a call found it, or made it. -/
theorem Went.holdsEvent (h : Went held p c q) (hq : q.holdsEvent = true) :
    p.holdsEvent = true ∨ (p.signal event c).isSome = true := by
  cases h with
  | opened => exact .inr rfl
  | asked ok => exact .inl rfl
  | created g s => exact .inr rfl
  | pumped g waited => exact .inl rfl
  | _ => cases hq

theorem signal_isSome (h : event.isSome = true) (p : Instance) (c : Call) :
    (p.signal event c).isSome = true := by
  unfold signal
  split <;> simp [h]

/-- A process becomes the guarded tray only where there is no mutex. -/
theorem Went.guarded (h : Went held p c q) (hq : q.isGuarded = true) :
    p.isGuarded = true ∨ held = false := by
  cases h with
  | first s h => exact .inr h
  | created g s => exact .inl hq
  | pumped g waited => exact .inl hq
  | _ => cases hq

theorem Went.secondary (h : Went held p c q) (hp : p.isSecondary = true) :
    q.isSecondary = true := by
  cases h <;> first | rfl | cases hp

theorem isGuarded_le (p : Instance) : p.isGuarded.toNat ≤ p.isPrimary.toNat := by
  cases p with
  | _ => decide +revert

/-- What a call adds to the trays that have no guard. -/
theorem Went.primary (h : Went held p c q) :
    q.isPrimary.toNat + p.isGuarded.toNat ≤
      p.isPrimary.toNat + q.isGuarded.toNat + c.unguards.toNat := by
  cases h with
  | exited p =>
      have hp := p.isGuarded_le
      have hgone : Instance.gone.isPrimary.toNat = 0 := rfl
      omega
  | _ => decide +revert

theorem holdsMutex_of_isGuarded (h : p.isGuarded = true) : p.holdsMutex = true := by
  cases p with
  | primary guarded s =>
      obtain rfl : guarded = true := h
      rfl
  | pumping guarded =>
      obtain rfl : guarded = true := h
      rfl
  | _ => cases h

/-- It will show the window when it starts. -/
def willShow : Instance → Bool
  | .fresh s | .primary _ s => s
  | _ => false

/-- A request that no wait has taken. -/
def pending (event : Option Bool) : Bool := event == some true

/-- A call shows the window for a request that is then no more. -/
theorem Went.shows (h : Went held p c q) (event : Option Bool) :
    (p.shows event c).toNat + (pending (p.signal event c)).toNat + q.willShow.toNat ≤
      (pending event).toNat + p.willShow.toNat + c.asks.toNat := by
  cases h with
  | exited p =>
      have hshows : p.shows event .exit = false := by cases p <;> rfl
      have hsignal : p.signal event .exit = event := by cases p <;> rfl
      have hgone : Instance.gone.willShow.toNat = 0 := rfl
      rw [hshows, hsignal, hgone]
      simp only [Bool.toNat_false]
      omega
  | _ => cases event <;> decide +revert

end Instance

/-! ## Runs -/

namespace Trays

open Instance (Went)

/-- The event exists while a process has it open, and at most one process found no
mutex. -/
structure Kept (t : Trays) : Prop where
  event : t.event.isSome = t.procs.any Instance.holdsEvent
  guarded : t.procs.countP Instance.isGuarded ≤ 1

theorem any_set {α : Type*} {l : List α} {i : ℕ} {a : α} {f : α → Bool}
    (h : (l.set i a).any f = true) : l.any f = true ∨ f a = true := by
  obtain ⟨b, hb, hfb⟩ := List.any_eq_true.mp h
  rcases List.mem_or_eq_of_mem_set hb with hb | rfl
  · exact .inl (List.any_eq_true.mpr ⟨b, hb, hfb⟩)
  · exact .inr hfb

theorem countP_set {α : Type*} {l : List α} {i : ℕ} {p : α} (h : l[i]? = some p) (a : α)
    (f : α → Bool) : (l.set i a).countP f + (f p).toNat = l.countP f + (f a).toNat := by
  obtain ⟨hi, rfl⟩ := List.getElem?_eq_some_iff.mp h
  have hpos : (f l[i]).toNat ≤ l.countP f := by
    cases hf : f l[i] with
    | false => exact Nat.zero_le _
    | true => exact List.countP_pos_iff.mpr ⟨l[i], List.getElem_mem hi, hf⟩
  rw [List.countP_set hi]
  cases hf : f l[i] <;> cases ha : f a <;> simp_all

theorem getElem?_snoc {α : Type*} {l : List α} {i : ℕ} {a : α} (h : l[i]? = some a) (b : α) :
    (l ++ [b])[i]? = some a := by
  obtain ⟨hlt, -⟩ := List.getElem?_eq_some_iff.mp h
  rwa [List.getElem?_append_left hlt]

theorem getElem?_put {α : Type*} {l : List α} {i : ℕ} {a : α} (h : l[i]? = some a) (b : α) :
    (l.set i b)[i]? = some b := by
  obtain ⟨hlt, -⟩ := List.getElem?_eq_some_iff.mp h
  exact List.getElem?_set_self hlt

theorem countP_snoc {α : Type*} (l : List α) (a : α) (f : α → Bool) :
    (l ++ [a]).countP f = l.countP f + (f a).toNat := by
  rw [List.countP_append, List.countP_singleton]
  cases f a <;> rfl

variable {t : Trays}

theorem Kept.step (h : t.Kept) (m : Move) : (t.step m).1.Kept := by
  rcases t.step_cases m with hsame | ⟨s, -, hstart⟩ | ⟨i, c, p, q, -, hp, hq, hprocs, hevent, -⟩
  · rwa [hsame]
  · rw [hstart]
    constructor
    · simp [h.event, Instance.holdsEvent]
    · simp [Instance.isGuarded, h.guarded]
  · have hwent := Instance.went_of_next hq
    constructor
    · rw [hprocs, hevent]
      split
      · rename_i hany
        rw [hany]
        rcases any_set hany with hold | hnew
        · exact Instance.signal_isSome (h.event.trans hold) p c
        · rcases hwent.holdsEvent hnew with hpold | hsome
          · have hold : t.procs.any Instance.holdsEvent = true :=
              List.any_eq_true.mpr ⟨p, List.mem_of_getElem? hp, hpold⟩
            exact Instance.signal_isSome (h.event.trans hold) p c
          · exact hsome
      · rename_i hany
        rw [Bool.not_eq_true] at hany
        rw [hany]
        rfl
    · rw [hprocs]
      have hcount := countP_set hp q Instance.isGuarded
      have hone := h.guarded
      cases hg : q.isGuarded with
      | false =>
          rw [hg] at hcount
          simp only [Bool.toNat_false] at hcount
          omega
      | true =>
          rcases hwent.guarded hg with hold | hfree
          · rw [hg, hold] at hcount
            omega
          · have hnone : t.procs.countP Instance.isGuarded = 0 := by
              rw [List.countP_eq_zero]
              intro r hr hrg
              have := List.any_eq_false.mp hfree r hr
              exact this (Instance.holdsMutex_of_isGuarded hrg)
            rw [hnone, hg] at hcount
            simp only [Bool.toNat_true] at hcount
            omega

theorem kept_final (h : t.Kept) (moves : List Move) : (Machine.final step t moves).Kept :=
  Machine.final_induction (I := Kept) (fun _ m h => h.step m) h moves

theorem after_kept (moves : List Move) : (after moves).Kept :=
  kept_final ⟨rfl, by simp⟩ moves

theorem primary_step (t : Trays) (m : Move) :
    (t.step m).1.procs.countP Instance.isPrimary + t.procs.countP Instance.isGuarded ≤
      t.procs.countP Instance.isPrimary + (t.step m).1.procs.countP Instance.isGuarded +
        m.unguards.toNat := by
  rcases t.step_cases m with hsame | ⟨s, -, hstart⟩ | ⟨i, c, p, q, rfl, hp, hq, hprocs, -, -⟩
  · simp [hsame]
  · simp [hstart, Instance.isPrimary, Instance.isGuarded]
  · have hwent := (Instance.went_of_next hq).primary
    have hall := countP_set hp q Instance.isPrimary
    have hguarded := countP_set hp q Instance.isGuarded
    rw [hprocs]
    change _ ≤ _ + c.unguards.toNat
    omega

theorem after_snoc (moves : List Move) (m : Move) :
    after (moves ++ [m]) = ((after moves).step m).1 := by
  rw [after, Machine.final_snoc]
  rfl

theorem primary_le (moves : List Move) :
    (after moves).procs.countP Instance.isPrimary ≤
      (after moves).procs.countP Instance.isGuarded + moves.countP Move.unguards := by
  induction moves using List.reverseRecOn with
  | nil => exact Nat.le_refl 0
  | append_singleton moves m ih =>
      have hstep := (after moves).primary_step m
      rw [after_snoc, countP_snoc]
      omega

/-! ### Requests -/

theorem shows_step (t : Trays) (m : Move) :
    (t.step m).2.toNat + (Instance.pending (t.step m).1.event).toNat +
        (t.step m).1.procs.countP Instance.willShow ≤
      (Instance.pending t.event).toNat + t.procs.countP Instance.willShow + m.asks.toNat := by
  rcases t.step_cases m with hsame | ⟨s, rfl, hstart⟩ | ⟨i, c, p, q, rfl, hp, hq, hprocs, hev, hout⟩
  · simp [hsame]
  · rw [hstart, countP_snoc]
    change (false.toNat + _ + (_ + s.toNat) ≤ _ + _ + s.toNat)
    simp only [Bool.toNat_false]
    omega
  · have hwent := (Instance.went_of_next hq).shows t.event
    have hall := countP_set hp q Instance.willShow
    have hle : (Instance.pending (t.step (.call i c)).1.event).toNat ≤
        (Instance.pending (p.signal t.event c)).toNat := by
      rw [hev]
      split
      · exact Nat.le_refl _
      · exact Nat.zero_le _
    rw [hprocs, hout]
    change _ ≤ _ + c.asks.toNat
    omega

theorem shows_le (moves : List Move) :
    (Machine.trace step {} moves).countP (·.out) +
        (Instance.pending (after moves).event).toNat +
        (after moves).procs.countP Instance.willShow ≤ moves.countP Move.asks := by
  induction moves using List.reverseRecOn with
  | nil => exact Nat.le_refl 0
  | append_singleton moves m ih =>
      have hstep := (after moves).shows_step m
      rw [Machine.trace_snoc, after_snoc, countP_snoc, countP_snoc]
      change _ + ((after moves).step m).2.toNat + _ + _ ≤ _
      omega

/-- Tray `j` is at work, and a request is there for it. -/
structure Due (j : ℕ) (g : Bool) (t : Trays) : Prop where
  tray : t.procs[j]? = some (.pumping g)
  request : t.event = some true

section Due

variable {i j : ℕ} {g : Bool}

/-- A tray stays one until it exits. -/
theorem pumping_step (htray : t.procs[j]? = some (.pumping g)) {m : Move}
    (hexit : m ≠ .call j .exit) : (t.step m).1.procs[j]? = some (.pumping g) := by
  rcases t.step_cases m with hsame | ⟨s, -, hstart⟩ | ⟨i, c, p, q, rfl, hp, hq, hprocs, -, -⟩
  · rwa [hsame]
  · rw [hstart]
    exact getElem?_snoc htray _
  · rw [hprocs]
    by_cases hij : i = j
    · subst hij
      rw [htray] at hp
      obtain rfl := Option.some.inj hp
      cases Instance.went_of_next hq with
      | pumped g waited => exact getElem?_put htray _
      | exited p => exact absurd rfl hexit
    · rwa [List.getElem?_set_ne hij]

theorem holdsEvent_of_pumping (htray : t.procs[j]? = some (.pumping g)) :
    t.procs.any Instance.holdsEvent = true :=
  List.any_eq_true.mpr ⟨_, List.mem_of_getElem? htray, rfl⟩

/-- A request that waits for a tray stays, or some tray shows its window. -/
theorem Due.step (h : t.Due j g) {m : Move} (hexit : m ≠ .call j .exit) :
    (t.step m).2 = true ∨ (t.step m).1.Due j g := by
  have htray := pumping_step h.tray hexit
  rcases t.step_cases m with hsame | ⟨s, -, hstart⟩ | ⟨i, c, p, q, rfl, hp, hq, hprocs, hev, hout⟩
  · rw [hsame]
    exact .inr h
  · rw [hstart]
    rw [hstart] at htray
    exact .inr ⟨htray, h.request⟩
  · rw [hout]
    have hany := holdsEvent_of_pumping htray
    rw [hprocs] at hany
    rw [hany, h.request] at hev
    rw [h.request]
    cases Instance.went_of_next hq with
    | pumped g waited =>
        cases waited with
        | true => exact .inl rfl
        | false => exact .inr ⟨htray, hev⟩
    | asked ok => cases ok <;> exact .inr ⟨htray, hev⟩
    | exited p => exact .inr ⟨htray, by cases p <;> exact hev⟩
    | _ => exact .inr ⟨htray, hev⟩

/-- Some tray shows its window in the run. -/
def Shown (t : Trays) (moves : List Move) : Prop :=
  ∃ r ∈ Machine.trace step t moves, r.out = true

theorem Shown.cons {m : Move} {moves : List Move} (h : (t.step m).1.Shown moves) :
    t.Shown (m :: moves) := by
  obtain ⟨r, hr, hout⟩ := h
  exact ⟨r, List.mem_cons_of_mem _ hr, hout⟩

theorem Shown.of_step {m : Move} (h : (t.step m).2 = true) (moves : List Move) :
    t.Shown (m :: moves) :=
  ⟨_, List.mem_cons_self, h⟩

theorem Due.run (h : t.Due j g) {moves : List Move} (hexit : .call j .exit ∉ moves) :
    t.Shown moves ∨ (Machine.final Trays.step t moves).Due j g := by
  induction moves generalizing t with
  | nil => exact .inr h
  | cons m moves ih =>
      rw [List.mem_cons, not_or] at hexit
      rcases h.step (Ne.symm hexit.1) with hshown | hdue
      · exact .inl (.of_step hshown moves)
      · rcases ih hdue hexit.2 with hshown | hlater
        · exact .inl hshown.cons
        · exact .inr hlater

end Due

/-- What a process still has to do before its request is made. -/
def askScript : Instance → List Instance.Call
  | .fresh _ => [.createMutex true, .closeMutex, .createEvent true, .setEvent true]
  | .found => [.closeMutex, .createEvent true, .setEvent true]
  | .asking => [.createEvent true, .setEvent true]
  | .opened => [.setEvent true]
  | _ => []

section Asker

variable {i j : ℕ} {p q : Instance} {c : Instance.Call} {rest : List Instance.Call}

theorem other_step (hp : t.procs[i]? = some p) {m : Move} (hm : m.callOf i = none) :
    (t.step m).1.procs[i]? = some p := by
  rcases t.step_cases m with hsame | ⟨s, -, hstart⟩ | ⟨k, c, r, q, rfl, -, -, hprocs, -, -⟩
  · rwa [hsame]
  · rw [hstart]
    exact getElem?_snoc hp _
  · have hki : k ≠ i := by
      intro hki
      simp [Move.callOf, hki] at hm
    rw [hprocs, List.getElem?_set_ne hki]
    exact hp

theorem own_step (hp : t.procs[i]? = some p)
    (hq : p.next (t.procs.any Instance.holdsMutex) c = some q) :
    (t.step (.call i c)).1.procs[i]? = some q := by
  simp [step, hp, hq, getElem?_put hp]

/-- The asker's next call brings it one step further; the last one makes the request. -/
theorem asker_step (hkept : t.Kept) (htray : t.procs[j]? = some (.pumping true))
    (hp : t.procs[i]? = some p) (hscript : askScript p = c :: rest) :
    (t.step (.call i c)).1.Due j true ∨
      rest ≠ [] ∧ ∃ q, (t.step (.call i c)).1.procs[i]? = some q ∧ askScript q = rest := by
  cases p with
  | fresh s =>
      obtain ⟨rfl, rfl⟩ := List.cons.inj hscript
      have hheld : t.procs.any Instance.holdsMutex = true :=
        List.any_eq_true.mpr ⟨_, List.mem_of_getElem? htray, rfl⟩
      refine .inr ⟨List.cons_ne_nil _ _, .found, own_step hp ?_, rfl⟩
      rw [hheld]
      rfl
  | found =>
      obtain ⟨rfl, rfl⟩ := List.cons.inj hscript
      exact .inr ⟨List.cons_ne_nil _ _, .asking, own_step hp rfl, rfl⟩
  | asking =>
      obtain ⟨rfl, rfl⟩ := List.cons.inj hscript
      exact .inr ⟨List.cons_ne_nil _ _, .opened, own_step hp rfl, rfl⟩
  | opened =>
      obtain ⟨rfl, rfl⟩ := List.cons.inj hscript
      have hlater : (t.step (.call i (.setEvent true))).1.procs[j]? = some (.pumping true) :=
        pumping_step htray (by simp)
      refine .inl ⟨hlater, ?_⟩
      have hsome : t.event.isSome = true := hkept.event.trans (holdsEvent_of_pumping htray)
      obtain ⟨b, hb⟩ := Option.isSome_iff_exists.mp hsome
      have hany := holdsEvent_of_pumping hlater
      simp only [step, hp, Instance.next] at hany ⊢
      rw [hany, hb]
      rfl
  | _ => cases hscript

theorem asker_run (hkept : t.Kept) (htray : t.procs[j]? = some (.pumping true))
    (hp : t.procs[i]? = some p) (hp0 : askScript p ≠ []) {moves : List Move}
    (hscript : askScript p <+: moves.filterMap (Move.callOf i))
    (hexit : .call j .exit ∉ moves) :
    t.Shown moves ∨ (Machine.final step t moves).Due j true := by
  induction moves generalizing t p with
  | nil =>
      rw [List.filterMap_nil, List.prefix_nil] at hscript
      exact absurd hscript hp0
  | cons m moves ih =>
      rw [List.mem_cons, not_or] at hexit
      have hkept' := hkept.step m
      have htray' := pumping_step htray (Ne.symm hexit.1)
      have hnext : (t.step m).1.Shown moves ∨
          (Machine.final step (t.step m).1 moves).Due j true := by
        cases hm : m.callOf i with
        | none =>
            rw [List.filterMap_cons_none hm] at hscript
            exact ih hkept' htray' (other_step hp hm) hp0 hscript hexit.2
        | some c =>
            rw [List.filterMap_cons_some hm] at hscript
            obtain ⟨d, rest, hsc⟩ := List.exists_cons_of_ne_nil hp0
            rw [hsc, List.cons_prefix_cons] at hscript
            obtain ⟨rfl, hrest⟩ := hscript
            have hmove : m = .call i d := by
              cases m with
              | start s => cases hm
              | call k c =>
                  simp only [Move.callOf] at hm
                  split at hm
                  · rename_i hki
                    rw [hki, Option.some.inj hm]
                  · cases hm
            subst hmove
            rcases asker_step hkept htray hp hsc with hdue | ⟨hne, q, hq, hsq⟩
            · exact hdue.run hexit.2
            · subst hsq
              exact ih hkept' htray' hq hne hrest hexit.2
      rcases hnext with hshown | hdue
      · exact .inl hshown.cons
      · exact .inr hdue

end Asker

/-- Process `i` is not the tray, and is not about to be. -/
def Yielded (i : ℕ) (t : Trays) : Prop :=
  ∃ p : Instance, t.procs[i]? = some p ∧ p.isSecondary = true

theorem Yielded.step {i : ℕ} (h : t.Yielded i) (m : Move) : (t.step m).1.Yielded i := by
  obtain ⟨p, hp, hsecond⟩ := h
  rcases t.step_cases m with hsame | ⟨s, -, hstart⟩ | ⟨k, c, r, q, -, hr, hq, hprocs, -, -⟩
  · rw [hsame]
    exact ⟨p, hp, hsecond⟩
  · rw [hstart]
    exact ⟨p, getElem?_snoc hp _, hsecond⟩
  · unfold Yielded
    rw [hprocs]
    by_cases hki : k = i
    · subst hki
      rw [hp] at hr
      obtain rfl := Option.some.inj hr
      exact ⟨q, getElem?_put hp q, (Instance.went_of_next hq).secondary hsecond⟩
    · exact ⟨p, by rwa [List.getElem?_set_ne hki], hsecond⟩

/-! ## What the session sees -/

/-- **One tray.** In every interleaving of any number of processes the trays are at most
one and the ones whose `CreateMutexW` failed; a process that finds the mutex never
becomes one. The window is not shown more often than it was asked for, at a start or by
the event; and the event is there exactly while some process has it open. -/
theorem one_tray (moves : List Move) :
    (after moves).procs.countP Instance.isPrimary ≤ 1 + moves.countP Move.unguards ∧
    (∀ i, (after moves).Yielded i → ∀ later, (after (moves ++ later)).Yielded i) ∧
    (Machine.trace step {} moves).countP (·.out) ≤ moves.countP Move.asks ∧
    (after moves).event.isSome = (after moves).procs.any Instance.holdsEvent := by
  have hkept := after_kept moves
  refine ⟨?_, ?_, ?_, hkept.event⟩
  · have hle := primary_le moves
    have hone := hkept.guarded
    omega
  · intro i hyielded later
    rw [after, Machine.final_append]
    exact Machine.final_induction (fun _ m h => h.step m) hyielded later
  · have hle := shows_le moves
    omega

/-- **A second start is seen.** A tray is at work, and does not exit before the end; a
process is started, finds the mutex and asks, in whatever order with the calls of all
others. The window is shown at the latest when the tray next waits. -/
theorem second_start_shows (moves : List Move) {i j : ℕ} {s : Bool}
    (htray : (after moves).procs[j]? = some (.pumping true))
    (hfresh : (after moves).procs[i]? = some (.fresh s)) {later : List Move}
    (hcalls : askScript (.fresh s) <+: later.filterMap (Move.callOf i))
    (hexit : .call j .exit ∉ later) :
    (after moves).Shown (later ++ [.call j (.pumpOnce true)]) := by
  unfold Shown
  rw [Machine.trace_append]
  rcases asker_run (after_kept moves) htray hfresh (List.cons_ne_nil _ _) hcalls hexit with
    ⟨r, hr, hout⟩ | hdue
  · exact ⟨r, List.mem_append_left _ hr, hout⟩
  · refine ⟨_, List.mem_append_right _ List.mem_cons_self, ?_⟩
    simp [step, hdue.tray, hdue.request, Instance.next, Instance.shows]

/-- Tray 0 is at work when process 1 starts; a third start comes in between. -/
theorem second_start_shows_between :
    (after [.start false, .call 0 (.createMutex true), .call 0 (.createEvent true),
      .start true]).Shown
      ([.call 1 (.createMutex true), .start true, .call 1 .closeMutex,
        .call 2 (.createMutex true), .call 1 (.createEvent true), .call 0 (.pumpOnce true),
        .call 1 (.setEvent true), .call 1 .closeEvent] ++ [.call 0 (.pumpOnce true)]) :=
  second_start_shows _ (i := 1) (s := true) (by decide) (by decide) (by decide) (by decide)

end Trays

end GdutNet
