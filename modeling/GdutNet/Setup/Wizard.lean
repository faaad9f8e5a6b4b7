import GdutNet.Setup.Uninstall

/-!
# The setup window

`setup/ui.rs` over the workers of `work.rs`. The window is drawn again and again and reads
what its worker has sent so far; a worker sends its events in its own time and may die
between two of them. A frame carries one press at most.
-/

namespace GdutNet.Wizard

open Install Uninstall

/-! ## The workers -/

inductive Task where
  | install (studentId : String) (password : Option String)
  | uninstall (purge : Bool)
  | startService
deriving DecidableEq, Repr

/-- What a worker meets. -/
structure Work where
  install : InstallAnswers
  caller : CallerAnswers := {}
  host : Host
  start : ServiceAnswer := {}
  /-- what is read of the service until the time for it is over -/
  polls : List (Option SessionStatus) := []

def sessionEn : SessionStatus → String
  | .idle => "Idle"
  | .dialing => "Dialing"
  | .connected => "Connected"
  | .backoff => "Backoff (retrying)"
  | .authFail => "Auth failed"

def awaitDial : List (Option SessionStatus) → Except String SessionStatus
  | [] => .error "25s 内未读到服务状态"
  | some status :: polls =>
      if status = .connected ∨ status = .backoff ∨ status = .authFail then .ok status
      else awaitDial polls
  | none :: polls => awaitDial polls

/-- `spawn_start_service`. -/
def startScript (work : Work) : List Ev :=
  let starting : Ev := .step "start_service" "启动 gdut-net 服务"
  match (startService work.start work.host.sys).2 with
  | some e => [starting, .done (some e) .notNeeded]
  | none =>
      let sent : List Ev :=
        [starting, .stepDone "start_service" "启动 gdut-net 服务", .step "wait_dial" "等待拨号结果"]
      match awaitDial work.polls with
      | .error e => sent ++ [.done (some e) .notNeeded]
      | .ok status =>
          sent ++ [.stepDone "wait_dial" ("等待拨号结果（" ++ sessionEn status ++ "）"),
            .done none .notNeeded]

def sentEvent : InstallEvent → Ev
  | .step key label => .step key label
  | .stepDone key label => .stepDone key label
  | .done result rollback => .done result rollback

section Script

variable (sha : List UInt8 → Payload.Digest) (env : Env) (lies : Path → String → Bool)
  (display : Path → String) (cfgPath : Path)

/-- All that a worker will send. -/
def script (work : Work) : Task → List Ev
  | .install studentId password =>
      (runInstall sha env ⟨studentId, password⟩ work.install work.host.sys).events.map sentEvent
  | .uninstall purge => (runUninstall lies display cfgPath purge true work.caller work.host).2
  | .startService => startScript work

end Script

/-- A worker, and how much of its script is sent and read. -/
structure Worker where
  task : Task
  script : List Ev
  sent : ℕ := 0
  read : ℕ := 0
  died : Bool := false
deriving DecidableEq, Repr

namespace Worker

/-- The sending end of its channel is gone. -/
def isOver (x : Worker) : Bool := x.died || x.script.length ≤ x.sent

def heard (x : Worker) : List Ev := x.script.take x.sent

def pending (x : Worker) : List Ev := x.heard.drop x.read

end Worker

/-! ## The window -/

inductive Page where
  | welcome
  | account
  | progress
  | done
  | maintenance
  | uninstallConfirm
  | uninstallDone
  | startService
deriving DecidableEq, Repr

inductive InstallState where
  | notInstalled
  | installed
  | unknown
deriving DecidableEq, Repr

inductive Mode where
  | gui
  | repair
  | uninstall
  | startService
deriving DecidableEq, Repr

inductive StepStatus where
  | running
  | done
  | skipped
  | failed (e : String)
deriving DecidableEq, Repr

def StepStatus.ofStep : Uninstall.Step → StepStatus
  | .done => .done
  | .skipped => .skipped
  | .failed e => .failed e

structure StepRow where
  key : String
  label : String
  status : StepStatus
deriving DecidableEq, Repr

/-- A result is the text of an error, if there was one. -/
structure SetupApp where
  state : InstallState
  page : Page
  error : Option String := none
  studentId : String
  password : String := ""
  keepExisting : Bool
  hasExisting : Option String
  rx : Option ℕ := none
  steps : List StepRow := []
  result : Option (Option String) := none
  rollback : Option RollbackOutcome := none
  statusLine : Option String := none
  uninstalling : Bool := false
  purge : Bool := false
deriving DecidableEq, Repr

namespace SetupApp

def new (mode : Mode) (state : InstallState) (existing : Option String) : SetupApp where
  state := state
  page :=
    match mode, state with
    | .repair, _ => .maintenance
    | .uninstall, .installed => .uninstallConfirm
    | .uninstall, _ => .maintenance
    | .startService, _ => .startService
    | .gui, .notInstalled => .welcome
    | .gui, _ => .maintenance
  studentId := existing.getD ""
  keepExisting := existing.isSome
  hasExisting := existing

end SetupApp

def finishFirst (key label : String) (status : StepStatus) :
    List StepRow → Option (List StepRow)
  | [] => none
  | row :: rows =>
      if row.key = key then some ({ row with label, status } :: rows)
      else (finishFirst key label status rows).map (row :: ·)

/-- The latest row of the key is finished, or a new one is put down. -/
def finishStep (key label : String) (status : StepStatus) (rows : List StepRow) : List StepRow :=
  match finishFirst key label status rows.reverse with
  | some rows => rows.reverse
  | none => rows ++ [⟨key, label, status⟩]

def addRow (rows : List StepRow) : Ev → List StepRow
  | .step key label => rows ++ [⟨key, label, .running⟩]
  | .stepDone key label => finishStep key label .done rows
  | .stepFinished key label outcome => finishStep key label (.ofStep outcome) rows
  | .done _ _ => rows

/-- The rows of the receipt after some events. -/
def receipt (events : List Ev) : List StepRow := events.foldl addRow []

namespace SetupApp

def readEvent (p : SetupApp × Option (Option String)) (ev : Ev) :
    SetupApp × Option (Option String) :=
  let app := { p.1 with steps := addRow p.1.steps ev }
  match ev with
  | .stepDone "wait_dial" label => ({ app with statusLine := some label }, p.2)
  | .done result rollback => ({ app with rollback := some rollback }, some result)
  | _ => (app, p.2)

def unexpectedExit (uninstalling : Bool) : String :=
  (if uninstalling then "卸载" else "安装") ++ "线程意外退出，请查看日志。"

/-- `drain_events`, the channel being that of `x`. -/
def drain (app : SetupApp) (x : Worker) : SetupApp × Option (Option String) :=
  match x.pending.foldl readEvent (app, none) with
  | (app, some result) => (app, some result)
  | (app, none) =>
      (app, if x.isOver then some (some (unexpectedExit app.uninstalling)) else none)

end SetupApp

/-! ## Frames -/

inductive Button where
  | install
  | back
  | repair
  | uninstall
  | cancel
  | retry
deriving DecidableEq, Repr

/-- What the user does to a page while it is drawn. -/
structure Frame where
  pressed : Option Button := none
  studentId : Option String := none
  password : Option String := none
  ticked : Bool := false
  /-- `existing_account` -/
  existing : Option String := none
  /-- what a worker started in this frame will meet -/
  work : Work

structure World where
  app : SetupApp
  workers : List Worker := []

inductive Move where
  | frame (f : Frame)
  /-- the worker of this number sends its next event, or dies -/
  | send (i : ℕ)
  | die (i : ℕ)

section Frames

variable (sha : List UInt8 → Payload.Digest) (env : Env) (lies : Path → String → Bool)
  (display : Path → String) (cfgPath : Path)

def World.spawn (w : World) (task : Task) (work : Work) : World where
  app := { w.app with rx := some w.workers.length }
  workers := w.workers ++ [{ task, script := script sha env lies display cfgPath work task }]

def startInstall (w : World) (work : Work) : World :=
  let app :=
    { w.app with
      error := none, steps := [], result := none, rollback := none, statusLine := none
      uninstalling := false, page := .progress }
  let studentId := String.ofList (trim app.studentId.toList)
  let password := if app.keepExisting then none else some app.password
  { w with app }.spawn sha env lies display cfgPath (.install studentId password) work

def startUninstall (w : World) (work : Work) : World :=
  let app :=
    { w.app with
      error := none, steps := [], result := none, rollback := none, statusLine := none
      uninstalling := true, page := .progress }
  { w with app }.spawn sha env lies display cfgPath (.uninstall app.purge) work

/-- The receiving end reads what there is. -/
def World.drain (w : World) : World × Option (Option String) :=
  match w.app.rx with
  | none => (w, none)
  | some i =>
      match w.workers[i]? with
      | none => (w, none)
      | some x =>
          let (app, result) := w.app.drain x
          ({ app, workers := w.workers.set i { x with read := x.sent } }, result)

/-- The password cannot be edited while the stored one is kept, and the box is there only
if one is stored. -/
def SetupApp.edit (app : SetupApp) (f : Frame) : SetupApp :=
  { app with
    studentId := f.studentId.getD app.studentId
    password := if app.keepExisting then app.password else f.password.getD app.password
    keepExisting :=
      if app.hasExisting.isSome && f.ticked then !app.keepExisting else app.keepExisting }

def accountPage (w : World) (f : Frame) : World :=
  let app := w.app.edit f
  match f.pressed with
  | some .install =>
      if (trim app.studentId.toList).isEmpty then
        { w with app := { app with error := some "请填写学号。" } }
      else if !app.keepExisting && app.password.isEmpty then
        { w with app := { app with error := some "请填写密码，或勾选“使用现有密码”。" } }
      else startInstall sha env lies display cfgPath { w with app } f.work
  | some .back =>
      let page : Page := if app.state = .notInstalled then .welcome else .maintenance
      { w with app := { app with error := none, page } }
  | _ => { w with app }

def progressPage (w : World) : World :=
  match w.drain with
  | (w, none) => w
  | (w, some result) =>
      let page : Page := if w.app.uninstalling then .uninstallDone else .done
      { w with app := { w.app with result := some result, page } }

def donePage (w : World) (f : Frame) : World :=
  match w.app.result, f.pressed with
  | some (some _), some .retry =>
      { w with app := { w.app with error := none, result := none, page := .account } }
  | none, some .back => { w with app := { w.app with page := .account } }
  | _, _ => w

def maintenancePage (w : World) (f : Frame) : World :=
  match f.pressed with
  | some .repair =>
      let app :=
        { w.app with
          hasExisting := f.existing, studentId := f.existing.getD ""
          keepExisting := f.existing.isSome, password := "", error := none, page := .account }
      { w with app }
  | some .uninstall =>
      if w.app.state = .installed then
        { w with app := { w.app with purge := false, page := .uninstallConfirm } }
      else w
  | _ => w

def uninstallConfirmPage (w : World) (f : Frame) : World :=
  let app := { w.app with purge := if f.ticked then !w.app.purge else w.app.purge }
  match f.pressed with
  | some .uninstall => startUninstall sha env lies display cfgPath { w with app } f.work
  | some .cancel => { w with app := { app with page := .maintenance } }
  | _ => { w with app }

def uninstallDonePage (w : World) (f : Frame) : World :=
  match w.app.result, f.pressed with
  | some (some _), some .retry =>
      { w with app := { w.app with result := none, rx := none, page := .uninstallConfirm } }
  | none, some .back => { w with app := { w.app with page := .maintenance } }
  | _, _ => w

/-- The first frame starts the service, and so does the one after a retry. -/
def startFirst (w : World) (work : Work) : World :=
  if w.app.rx.isNone && w.app.result.isNone then
    { w with app := { w.app with steps := [], statusLine := none } }.spawn
      sha env lies display cfgPath .startService work
  else w

def startRead (w : World) : World :=
  match w.drain with
  | (w, none) => w
  | (w, some result) => { w with app := { w.app with result := some result, rx := none } }

def startServicePage (w : World) (f : Frame) : World :=
  let w := startRead (startFirst sha env lies display cfgPath w f.work)
  match w.app.result, f.pressed with
  | some (some _), some .retry => { w with app := { w.app with result := none, rx := none } }
  | some (some _), some .back => { w with app := { w.app with page := .maintenance } }
  | _, _ => w

def drawn (w : World) (f : Frame) : World :=
  match w.app.page with
  | .welcome =>
      if f.pressed = some .install then { w with app := { w.app with page := .account } } else w
  | .account => accountPage sha env lies display cfgPath w f
  | .progress => progressPage w
  | .done => donePage w f
  | .maintenance => maintenancePage w f
  | .uninstallConfirm => uninstallConfirmPage sha env lies display cfgPath w f
  | .uninstallDone => uninstallDonePage w f
  | .startService => startServicePage sha env lies display cfgPath w f

def World.advance (w : World) (i : ℕ) (p : Worker → Worker) : World :=
  match w.workers[i]? with
  | some x => if x.isOver then w else { w with workers := w.workers.set i (p x) }
  | none => w

def move (w : World) : Move → World × Unit
  | .frame f => (drawn sha env lies display cfgPath w f, ())
  | .send i => (w.advance i (fun x => { x with sent := x.sent + 1 }), ())
  | .die i => (w.advance i (fun x => { x with died := true }), ())

def after (w : World) (moves : List Move) : World :=
  Machine.final (move sha env lies display cfgPath) w moves

end Frames

/-! ## What a worker will have said -/

def Task.isUninstall : Task → Bool
  | .uninstall _ => true
  | _ => false

def NoDone (evs : List Ev) : Prop := ∀ result rollback, Ev.done result rollback ∉ evs

/-- A script ends with its only result. -/
def Ends (evs : List Ev) : Prop :=
  ∃ body result rollback, evs = body ++ [.done result rollback] ∧ NoDone body

namespace Worker

def ended (x : Worker) : Option (Option String × RollbackOutcome) :=
  match x.heard.getLast? with
  | some (.done result rollback) => some (result, rollback)
  | _ => none

/-- The result of a worker that is over: what it sent last, or that it died. -/
def outcome (x : Worker) : Option String :=
  match x.ended with
  | some (result, _) => result
  | none => some (SetupApp.unexpectedExit x.task.isUninstall)

end Worker

theorem ends_install (sha : List UInt8 → Payload.Digest) (env : Env) (req : InstallRequest)
    (a : InstallAnswers) (s : Sys) : Ends ((runInstall sha env req a s).events.map sentEvent) := by
  have hmap {events : List InstallEvent} (h : ∀ result rollback, .done result rollback ∉ events) :
      NoDone (events.map sentEvent) := by
    intro result rollback hmem
    obtain ⟨ev, hev, heq⟩ := List.mem_map.mp hmem
    cases ev <;> simp only [sentEvent, Ev.done.injEq, reduceCtorEq] at heq
    obtain ⟨rfl, rfl⟩ := heq
    exact h _ _ hev
  rcases hprepared : prepare sha env (capturePrevService a.prepare.prevUnavailable s) a.prepare s
    with e | prepared
  · rw [runInstall_unprepared hprepared]
    exact ⟨[], _, _, rfl, by simp [NoDone]⟩
  · obtain ⟨flags, q, hq, hend | ⟨e, hend⟩⟩ := runInstall_prepared req hprepared
    · rw [hend]
      exact ⟨q.events.map sentEvent, _, _, List.map_append, hmap hq.not_done⟩
    · rw [hend]
      exact ⟨q.events.map sentEvent, _, _, List.map_append, hmap hq.not_done⟩

theorem ends_start (work : Work) : Ends (startScript work) := by
  unfold startScript
  dsimp only
  split
  · exact ⟨[_], _, _, rfl, by simp [NoDone]⟩
  · split
    · exact ⟨[_, _, _], _, _, rfl, by simp [NoDone]⟩
    · exact ⟨[_, _, _, _], _, _, rfl, by simp [NoDone]⟩

section Script

variable (sha : List UInt8 → Payload.Digest) (env : Env) (lies : Path → String → Bool)
  (display : Path → String) (cfgPath : Path)

theorem ends_script (work : Work) (task : Task) :
    Ends (script sha env lies display cfgPath work task) := by
  cases task with
  | install studentId password => exact ends_install sha env _ work.install work.host.sys
  | uninstall purge =>
      obtain ⟨body, result, hscript, hbody⟩ :=
        @runUninstall_ends lies display cfgPath purge true work.caller work.host
      exact ⟨body, result, .notNeeded, hscript, hbody⟩
  | startService => exact ends_start work

end Script

/-! ## Reading -/

theorem readEvents_body {evs : List Ev} (h : NoDone evs) (app : SetupApp) :
    ∃ line, evs.foldl SetupApp.readEvent (app, none) =
      ({ app with steps := evs.foldl addRow app.steps, statusLine := line }, none) := by
  induction evs generalizing app with
  | nil => exact ⟨app.statusLine, rfl⟩
  | cons ev evs ih =>
      have hrest : NoDone evs :=
        fun result rollback hmem => h result rollback (List.mem_cons_of_mem _ hmem)
      have hread : ∃ line, SetupApp.readEvent (app, none) ev =
          ({ app with steps := addRow app.steps ev, statusLine := line }, none) := by
        unfold SetupApp.readEvent
        dsimp only
        split
        · exact ⟨_, rfl⟩
        · exact absurd List.mem_cons_self (h _ _)
        · exact ⟨app.statusLine, rfl⟩
      obtain ⟨line, hread⟩ := hread
      rw [List.foldl_cons, List.foldl_cons, hread]
      exact ih hrest _

theorem readEvents_ends {body : List Ev} (h : NoDone body) (result : Option String)
    (rollback : RollbackOutcome) (app : SetupApp) :
    ∃ line, (body ++ [Ev.done result rollback]).foldl SetupApp.readEvent (app, none) =
      ({ app with
        steps := (body ++ [Ev.done result rollback]).foldl addRow app.steps, statusLine := line
        rollback := some rollback }, some result) := by
  obtain ⟨line, hbody⟩ := readEvents_body h app
  refine ⟨line, ?_⟩
  rw [List.foldl_append, hbody, List.foldl_append]
  rfl

theorem receipt_append (xs ys : List Ev) : receipt (xs ++ ys) = ys.foldl addRow (receipt xs) :=
  List.foldl_append

/-- What a window that listens to a worker has read of it. -/
structure Listening (app : SetupApp) (x : Worker) : Prop where
  ends : Ends x.script
  unread : x.read < x.script.length
  read_le : x.read ≤ x.sent
  sent_le : x.sent ≤ x.script.length
  steps : app.steps = receipt (x.script.take x.read)
  uninstalling : app.uninstalling = x.task.isUninstall

theorem Listening.heard {app : SetupApp} {x : Worker} (h : Listening app x) :
    x.heard = x.script.take x.read ++ x.pending := by
  have htake : x.heard.take x.read = x.script.take x.read := by
    rw [Worker.heard, List.take_take, Nat.min_eq_left h.read_le]
  rw [← htake, Worker.pending, List.take_append_drop]

/-- Until all is sent there is no result among it. -/
theorem noDone_heard {x : Worker} (h : Ends x.script) (hsent : x.sent < x.script.length) :
    NoDone x.heard := by
  obtain ⟨body, result, rollback, hscript, hbody⟩ := h
  have hlen : x.script.length = body.length + 1 := by simp [hscript]
  intro result rollback hmem
  rw [Worker.heard, hscript, List.take_append_of_le_length (by omega)] at hmem
  exact hbody result rollback (List.mem_of_mem_take hmem)

theorem ended_none {x : Worker} (h : Ends x.script) (hsent : x.sent < x.script.length) :
    x.ended = none := by
  unfold Worker.ended
  split
  · rename_i result rollback hlast
    exact absurd (List.mem_of_getLast? hlast) (noDone_heard h hsent result rollback)
  · rfl

/-- A worker that is over has said all, or died before. -/
theorem over_cases {x : Worker} (h : Ends x.script) (hover : x.isOver = true) :
    (∃ body result rollback, x.script = body ++ [.done result rollback] ∧ x.heard = x.script ∧
      x.ended = some (result, rollback)) ∨
    (x.died = true ∧ x.sent < x.script.length ∧ x.ended = none) := by
  rcases Nat.lt_or_ge x.sent x.script.length with hsent | hsent
  · refine .inr ⟨?_, hsent, ended_none h hsent⟩
    simpa [Worker.isOver, Nat.not_le.mpr hsent] using hover
  · obtain ⟨body, result, rollback, hscript, -⟩ := h
    have hheard : x.heard = x.script := List.take_of_length_le hsent
    refine .inl ⟨body, result, rollback, hscript, hheard, ?_⟩
    unfold Worker.ended
    rw [hheard, hscript, List.getLast?_concat]

/-- Reading brings the receipt up to date, and gives a result exactly when the worker is
over. -/
theorem Listening.drain {app : SetupApp} {x : Worker} (h : Listening app x) :
    ∃ line, app.drain x =
      ({ app with
        steps := receipt x.heard, statusLine := line
        rollback := (x.ended.map Prod.snd).or app.rollback },
        if x.isOver then some x.outcome else none) := by
  obtain ⟨body, result, rollback, hscript, hbody⟩ := h.ends
  have hlen : x.script.length = body.length + 1 := by simp [hscript]
  have hunread := h.unread
  have hreceipt : receipt x.heard = x.pending.foldl addRow app.steps := by
    rw [h.heard, receipt_append, ← h.steps]
  rcases Nat.lt_or_ge x.sent x.script.length with hsent | hsent
  · have hpending : NoDone x.pending :=
      fun _ _ hmem => noDone_heard h.ends hsent _ _ (List.mem_of_mem_drop hmem)
    obtain ⟨line, hread⟩ := readEvents_body hpending app
    refine ⟨line, ?_⟩
    unfold SetupApp.drain
    rw [hread, hreceipt]
    simp [Worker.outcome, ended_none h.ends hsent, h.uninstalling]
  · have hheard : x.heard = body ++ [.done result rollback] := by
      rw [Worker.heard, List.take_of_length_le hsent, hscript]
    have hpending : x.pending = body.drop x.read ++ [.done result rollback] := by
      rw [Worker.pending, hheard, List.drop_append_of_le_length (by omega)]
    have hended : x.ended = some (result, rollback) := by
      unfold Worker.ended
      rw [hheard, List.getLast?_concat]
    have hover : x.isOver = true := by simp [Worker.isOver, hsent]
    have hrest : NoDone (body.drop x.read) :=
      fun _ _ hmem => hbody _ _ (List.mem_of_mem_drop hmem)
    obtain ⟨line, hread⟩ := readEvents_ends hrest result rollback app
    refine ⟨line, ?_⟩
    unfold SetupApp.drain
    rw [hreceipt, hpending, hread]
    simp [Worker.outcome, hended, hover]

/-! ## What holds between the frames -/

/-- All workers are over. -/
def Quiet (w : World) : Prop := ∀ x ∈ w.workers, x.isOver = true

/-- The window listens to the last worker, and the others are over. -/
structure Working (w : World) (x : Worker) : Prop where
  listening : Listening w.app x
  last : ∃ before, w.workers = before ++ [x] ∧ w.app.rx = some before.length ∧
    ∀ y ∈ before, y.isOver = true
  result : w.app.result = none

/-- The window shows what the last worker has said. -/
structure Told (w : World) (x : Worker) : Prop where
  last : ∃ before, w.workers = before ++ [x]
  result : w.app.result = some x.outcome
  rollback : w.app.rollback = x.ended.map Prod.snd
  steps : w.app.steps = receipt x.heard
  uninstalling : w.app.uninstalling = x.task.isUninstall

def Task.Sane : Task → Prop
  | .install studentId password => studentId ≠ "" ∧ password ≠ some ""
  | _ => True

section Sound

variable (sha : List UInt8 → Payload.Digest) (env : Env) (lies : Path → String → Bool)
  (display : Path → String) (cfgPath : Path)

/-- A worker as the window starts them. -/
def Genuine (x : Worker) : Prop :=
  x.task.Sane ∧ ∃ work, x.script = script sha env lies display cfgPath work x.task

structure Sound (w : World) : Prop where
  genuine : ∀ x ∈ w.workers, Genuine sha env lies display cfgPath x
  quiet : w.app.page ≠ .progress → w.app.page ≠ .startService → Quiet w
  progress : w.app.page = .progress → ∃ x, Working w x ∧ w.app.rollback = none
  done : w.app.page = .done → ∃ x, Told w x ∧ w.app.uninstalling = false
  uninstallDone : w.app.page = .uninstallDone → ∃ x, Told w x ∧ w.app.uninstalling = true
  starting : w.app.page = .startService → w.app.uninstalling = false ∧
    ((w.app.rx = none ∧ Quiet w) ∨ ∃ x, Working w x)

variable {sha env lies display cfgPath} {w : World} {x : Worker}

theorem Working.drain (h : Working w x) :
    ∃ line before, w.workers = before ++ [x] ∧ (∀ y ∈ before, y.isOver = true) ∧
      w.drain =
        ({ app := { w.app with
            steps := receipt x.heard, statusLine := line
            rollback := (x.ended.map Prod.snd).or w.app.rollback }
           workers := before ++ [{ x with read := x.sent }] },
          if x.isOver then some x.outcome else none) := by
  obtain ⟨before, hworkers, hrx, hbefore⟩ := h.last
  obtain ⟨line, hdrain⟩ := h.listening.drain
  refine ⟨line, before, hworkers, hbefore, ?_⟩
  have hget : w.workers[before.length]? = some x := by simp [hworkers]
  unfold World.drain
  rw [hrx]
  dsimp only
  rw [hget]
  dsimp only
  rw [hdrain, hworkers]
  simp

theorem sent_lt_of_not_over (hover : x.isOver = false) : x.sent < x.script.length := by
  simp only [Worker.isOver, Bool.or_eq_false_iff, decide_eq_false_iff_not, not_le] at hover
  exact hover.2

/-- After reading, a worker that goes on is listened to further. -/
theorem Listening.read {app : SetupApp} (h : Listening app x) (hover : x.isOver = false)
    (line : Option String) (rollback : Option RollbackOutcome) :
    Listening { app with steps := receipt x.heard, statusLine := line, rollback }
      { x with read := x.sent } where
  ends := h.ends
  unread := sent_lt_of_not_over hover
  read_le := le_rfl
  sent_le := h.sent_le
  steps := rfl
  uninstalling := h.uninstalling

theorem working_spawn {task : Task} (work : Work) (hquiet : Quiet w) (hsteps : w.app.steps = [])
    (hresult : w.app.result = none) (huninstalling : w.app.uninstalling = task.isUninstall) :
    Working (w.spawn sha env lies display cfgPath task work)
      { task, script := script sha env lies display cfgPath work task } where
  listening :=
    { ends := ends_script sha env lies display cfgPath work task
      unread := by
        obtain ⟨body, result, rollback, hscript, -⟩ :=
          ends_script sha env lies display cfgPath work task
        simp [hscript]
      read_le := le_rfl
      sent_le := Nat.zero_le _
      steps := hsteps
      uninstalling := huninstalling }
  last := ⟨w.workers, rfl, rfl, hquiet⟩
  result := hresult

theorem genuine_spawn {task : Task} (work : Work) (htask : task.Sane)
    (h : ∀ x ∈ w.workers, Genuine sha env lies display cfgPath x) :
    ∀ x ∈ (w.spawn sha env lies display cfgPath task work).workers,
      Genuine sha env lies display cfgPath x := by
  intro x hx
  rcases List.mem_append.mp hx with hx | hx
  · exact h x hx
  · rw [List.mem_singleton.mp hx]
    exact ⟨htask, work, rfl⟩

/-- A page where nothing works. -/
theorem sound_quiet (hgenuine : ∀ x ∈ w.workers, Genuine sha env lies display cfgPath x)
    (hquiet : Quiet w) (hpage : w.app.page = .welcome ∨ w.app.page = .account ∨
      w.app.page = .maintenance ∨ w.app.page = .uninstallConfirm) :
    Sound sha env lies display cfgPath w := by
  refine ⟨hgenuine, fun _ _ => hquiet, ?_, ?_, ?_, ?_⟩ <;> intro h <;> simp [h] at hpage

/-- A page where a worker is listened to. -/
theorem sound_progress (hgenuine : ∀ x ∈ w.workers, Genuine sha env lies display cfgPath x)
    (hworking : Working w x) (hrollback : w.app.rollback = none)
    (hpage : w.app.page = .progress) : Sound sha env lies display cfgPath w := by
  refine ⟨hgenuine, fun h _ => absurd hpage h, fun _ => ⟨x, hworking, hrollback⟩, ?_, ?_, ?_⟩ <;>
    intro h <;> simp [h] at hpage

theorem sound_startInstall {work : Work}
    (hgenuine : ∀ x ∈ w.workers, Genuine sha env lies display cfgPath x) (hquiet : Quiet w)
    (hid : (trim w.app.studentId.toList).isEmpty = false)
    (hpassword : w.app.keepExisting = true ∨ w.app.password ≠ "") :
    Sound sha env lies display cfgPath (startInstall sha env lies display cfgPath w work) := by
  refine sound_progress (genuine_spawn work ⟨?_, ?_⟩ hgenuine)
    (working_spawn work hquiet rfl rfl rfl) rfl rfl
  · intro hempty
    have htrim := congrArg String.toList hempty
    rw [String.toList_ofList] at htrim
    simp [htrim] at hid
  · intro hempty
    rcases hpassword with hkeep | hne
    · simp [hkeep] at hempty
    · split at hempty
      · cases hempty
      · exact hne (Option.some.inj hempty)

theorem sound_startUninstall {work : Work}
    (hgenuine : ∀ x ∈ w.workers, Genuine sha env lies display cfgPath x) (hquiet : Quiet w) :
    Sound sha env lies display cfgPath (startUninstall sha env lies display cfgPath w work) :=
  sound_progress (genuine_spawn work trivial hgenuine)
    (working_spawn work hquiet rfl rfl rfl) rfl rfl

theorem Sound.accountPage (h : Sound sha env lies display cfgPath w)
    (hpage : w.app.page = .account) (f : Frame) :
    Sound sha env lies display cfgPath (accountPage sha env lies display cfgPath w f) := by
  have hquiet : Quiet w := h.quiet (by simp [hpage]) (by simp [hpage])
  have hedit : (w.app.edit f).page = .account := hpage
  unfold Wizard.accountPage
  generalize w.app.edit f = app at hedit
  dsimp only
  split
  · split
    · exact sound_quiet h.genuine hquiet (.inr (.inl hedit))
    · rename_i hid
      split
      · exact sound_quiet h.genuine hquiet (.inr (.inl hedit))
      · rename_i hpassword
        refine sound_startInstall h.genuine hquiet (by simpa using hid) ?_
        cases hkeep : app.keepExisting with
        | true => exact .inl rfl
        | false =>
            refine .inr fun hempty => hpassword ?_
            have hempty : app.password = "" := hempty
            simp [hkeep, hempty]
  · refine sound_quiet h.genuine hquiet ?_
    dsimp only
    split
    · exact .inl rfl
    · exact .inr (.inr (.inl rfl))
  · exact sound_quiet h.genuine hquiet (.inr (.inl hedit))

/-- What reading leaves of a worker that is over. -/
theorem told_drain (h : Working w x) (hrollback : w.app.rollback = none) (line : Option String)
    (before : List Worker) (page : Page) :
    Told
      { app := { w.app with
          steps := receipt x.heard, statusLine := line, result := some x.outcome, page
          rollback := (x.ended.map Prod.snd).or w.app.rollback }
        workers := before ++ [{ x with read := x.sent }] } { x with read := x.sent } where
  last := ⟨before, rfl⟩
  result := rfl
  rollback := by rw [hrollback, Option.or_none]; rfl
  steps := rfl
  uninstalling := h.listening.uninstalling

theorem genuine_read {before : List Worker} (hworkers : w.workers = before ++ [x])
    (h : ∀ x ∈ w.workers, Genuine sha env lies display cfgPath x) (read : ℕ) :
    ∀ y ∈ before ++ [{ x with read }], Genuine sha env lies display cfgPath y := by
  intro y hy
  rcases List.mem_append.mp hy with hy | hy
  · exact h y (by simp [hworkers, hy])
  · rw [List.mem_singleton.mp hy]
    exact h x (by simp [hworkers])

theorem quiet_read {before : List Worker} (hbefore : ∀ y ∈ before, y.isOver = true)
    (hover : x.isOver = true) (read : ℕ) : ∀ y ∈ before ++ [{ x with read }], y.isOver = true := by
  intro y hy
  rcases List.mem_append.mp hy with hy | hy
  · exact hbefore y hy
  · rw [List.mem_singleton.mp hy]
    exact hover

theorem working_read (h : Working w x) (hover : x.isOver = false) {line : Option String}
    {before : List Worker} (hworkers : w.workers = before ++ [x])
    (hbefore : ∀ y ∈ before, y.isOver = true) :
    Working
      { app := { w.app with
          steps := receipt x.heard, statusLine := line
          rollback := (x.ended.map Prod.snd).or w.app.rollback }
        workers := before ++ [{ x with read := x.sent }] } { x with read := x.sent } where
  listening := h.listening.read hover _ _
  last := by
    obtain ⟨before', hworkers', hrx, -⟩ := h.last
    obtain ⟨rfl, -⟩ := List.append_inj' (hworkers.symm.trans hworkers') rfl
    exact ⟨before, rfl, hrx, hbefore⟩
  result := h.result

theorem Sound.progressPage (h : Sound sha env lies display cfgPath w)
    (hpage : w.app.page = .progress) :
    Sound sha env lies display cfgPath (progressPage w) := by
  obtain ⟨x, hx, hrollback⟩ := h.progress hpage
  obtain ⟨line, before, hworkers, hbefore, hdrain⟩ := hx.drain
  have hgenuine := genuine_read hworkers h.genuine x.sent
  unfold Wizard.progressPage
  rw [hdrain]
  cases hover : x.isOver with
  | false =>
      have hended := ended_none hx.listening.ends (sent_lt_of_not_over hover)
      exact sound_progress hgenuine (working_read hx hover hworkers hbefore)
        (by simp [hended, hrollback]) hpage
  | true =>
      have hquiet := quiet_read hbefore hover x.sent
      have htold := told_drain hx hrollback line before
        (if w.app.uninstalling then .uninstallDone else .done)
      refine ⟨hgenuine, fun _ _ => hquiet, fun hno => ?_, fun hdone => ⟨_, htold, ?_⟩,
        fun hdone => ⟨_, htold, ?_⟩, fun hno => ?_⟩
      all_goals
        cases huninstalling : w.app.uninstalling <;> simp_all

theorem Sound.donePage (h : Sound sha env lies display cfgPath w) (hpage : w.app.page = .done)
    (f : Frame) : Sound sha env lies display cfgPath (donePage w f) := by
  have hquiet : Quiet w := h.quiet (by simp [hpage]) (by simp [hpage])
  unfold Wizard.donePage
  split
  · exact sound_quiet h.genuine hquiet (.inr (.inl rfl))
  · exact sound_quiet h.genuine hquiet (.inr (.inl rfl))
  · exact h

theorem Sound.maintenancePage (h : Sound sha env lies display cfgPath w)
    (hpage : w.app.page = .maintenance) (f : Frame) :
    Sound sha env lies display cfgPath (maintenancePage w f) := by
  have hquiet : Quiet w := h.quiet (by simp [hpage]) (by simp [hpage])
  unfold Wizard.maintenancePage
  split
  · exact sound_quiet h.genuine hquiet (.inr (.inl rfl))
  · split
    · exact sound_quiet h.genuine hquiet (.inr (.inr (.inr rfl)))
    · exact h
  · exact h

theorem Sound.uninstallConfirmPage (h : Sound sha env lies display cfgPath w)
    (hpage : w.app.page = .uninstallConfirm) (f : Frame) :
    Sound sha env lies display cfgPath
      (uninstallConfirmPage sha env lies display cfgPath w f) := by
  have hquiet : Quiet w := h.quiet (by simp [hpage]) (by simp [hpage])
  unfold Wizard.uninstallConfirmPage
  dsimp only
  split
  · exact sound_startUninstall h.genuine hquiet
  · exact sound_quiet h.genuine hquiet (.inr (.inr (.inl rfl)))
  · exact sound_quiet h.genuine hquiet (.inr (.inr (.inr hpage)))

theorem Sound.uninstallDonePage (h : Sound sha env lies display cfgPath w)
    (hpage : w.app.page = .uninstallDone) (f : Frame) :
    Sound sha env lies display cfgPath (uninstallDonePage w f) := by
  have hquiet : Quiet w := h.quiet (by simp [hpage]) (by simp [hpage])
  unfold Wizard.uninstallDonePage
  split
  · exact sound_quiet h.genuine hquiet (.inr (.inr (.inr rfl)))
  · exact sound_quiet h.genuine hquiet (.inr (.inr (.inl rfl)))
  · exact h

theorem sound_starting (hgenuine : ∀ x ∈ w.workers, Genuine sha env lies display cfgPath x)
    (hpage : w.app.page = .startService) (huninstalling : w.app.uninstalling = false)
    (hwork : (w.app.rx = none ∧ Quiet w) ∨ ∃ x, Working w x) :
    Sound sha env lies display cfgPath w := by
  refine ⟨hgenuine, fun _ h => absurd hpage h, ?_, ?_, ?_, fun _ => ⟨huninstalling, hwork⟩⟩ <;>
    intro h <;> simp [h] at hpage

theorem Sound.startFirst (h : Sound sha env lies display cfgPath w)
    (hpage : w.app.page = .startService) (work : Work) :
    Sound sha env lies display cfgPath (startFirst sha env lies display cfgPath w work) ∧
      (Wizard.startFirst sha env lies display cfgPath w work).app.page = .startService := by
  obtain ⟨huninstalling, hwork⟩ := h.starting hpage
  unfold Wizard.startFirst
  split
  · rename_i hfirst
    simp only [Bool.and_eq_true, Option.isNone_iff_eq_none] at hfirst
    have hquiet : Quiet w := by
      rcases hwork with ⟨-, hquiet⟩ | ⟨x, hx⟩
      · exact hquiet
      · obtain ⟨before, -, hrx, -⟩ := hx.last
        rw [hfirst.1] at hrx
        cases hrx
    refine ⟨sound_starting (genuine_spawn work trivial h.genuine) hpage huninstalling
      (.inr ⟨_, working_spawn work hquiet rfl hfirst.2 huninstalling⟩), hpage⟩
  · exact ⟨h, hpage⟩

theorem Sound.startRead (h : Sound sha env lies display cfgPath w)
    (hpage : w.app.page = .startService) :
    Sound sha env lies display cfgPath (startRead w) ∧
      (Wizard.startRead w).app.page = .startService := by
  obtain ⟨huninstalling, ⟨hrx, hquiet⟩ | ⟨x, hx⟩⟩ := h.starting hpage
  · have hdrain : w.drain = (w, none) := by
      unfold World.drain
      rw [hrx]
    unfold Wizard.startRead
    rw [hdrain]
    exact ⟨h, hpage⟩
  · obtain ⟨line, before, hworkers, hbefore, hdrain⟩ := hx.drain
    have hgenuine := genuine_read hworkers h.genuine x.sent
    unfold Wizard.startRead
    rw [hdrain]
    cases hover : x.isOver with
    | false =>
        exact ⟨sound_starting hgenuine hpage huninstalling
          (.inr ⟨_, working_read hx hover hworkers hbefore⟩), hpage⟩
    | true =>
        exact ⟨sound_starting hgenuine hpage huninstalling
          (.inl ⟨rfl, quiet_read hbefore hover x.sent⟩), hpage⟩

theorem Sound.startServicePage (h : Sound sha env lies display cfgPath w)
    (hpage : w.app.page = .startService) (f : Frame) :
    Sound sha env lies display cfgPath (startServicePage sha env lies display cfgPath w f) := by
  obtain ⟨hfirst, hpage⟩ := h.startFirst hpage f.work
  obtain ⟨hread, hpage⟩ := hfirst.startRead hpage
  unfold Wizard.startServicePage
  generalize Wizard.startRead (Wizard.startFirst sha env lies display cfgPath w f.work) = w
    at hread hpage ⊢
  have hquiet {e : Option String} (hresult : w.app.result = some e) : Quiet w := by
    obtain ⟨-, ⟨-, hquiet⟩ | ⟨x, hx⟩⟩ := hread.starting hpage
    · exact hquiet
    · rw [hx.result] at hresult
      cases hresult
  dsimp only
  split
  · rename_i hresult _
    exact sound_starting hread.genuine hpage (hread.starting hpage).1
      (.inl ⟨rfl, hquiet hresult⟩)
  · rename_i hresult _
    exact sound_quiet hread.genuine (hquiet hresult) (.inr (.inr (.inl rfl)))
  · exact hread

/-- With nothing at work no worker moves. -/
theorem advance_quiet (h : Quiet w) (i : ℕ) (p : Worker → Worker) : w.advance i p = w := by
  unfold World.advance
  split
  · rename_i x hx
    rw [if_pos (h x (List.mem_of_getElem? hx))]
  · rfl

/-- A worker that is listened to goes on, or dies. -/
theorem advance_working (h : Working w x) (i : ℕ) {p : Worker → Worker}
    (hp : x.isOver = false → Listening w.app (p x)) :
    ∃ y, Working (w.advance i p) y := by
  obtain ⟨before, hworkers, hrx, hbefore⟩ := h.last
  unfold World.advance
  split
  · rename_i y hy
    split
    · exact ⟨x, h⟩
    · rename_i hover
      have hover : y.isOver = false := by simpa using hover
      rw [hworkers] at hy
      rcases Nat.lt_trichotomy i before.length with hi | rfl | hi
      · rw [List.getElem?_append_left hi] at hy
        rw [hbefore y (List.mem_of_getElem? hy)] at hover
        cases hover
      · simp only [List.getElem?_concat_length, Option.some.injEq] at hy
        subst hy
        refine ⟨p x, hp hover, ⟨before, ?_, hrx, hbefore⟩, h.result⟩
        simp [hworkers]
      · rw [List.getElem?_eq_none (by simp; omega)] at hy
        cases hy
  · exact ⟨x, h⟩

theorem Listening.send {app : SetupApp} (h : Listening app x) (hover : x.isOver = false) :
    Listening app { x with sent := x.sent + 1 } where
  ends := h.ends
  unread := h.unread
  read_le := Nat.le_succ_of_le h.read_le
  sent_le := sent_lt_of_not_over hover
  steps := h.steps
  uninstalling := h.uninstalling

theorem Listening.die {app : SetupApp} (h : Listening app x) :
    Listening app { x with died := true } :=
  ⟨h.ends, h.unread, h.read_le, h.sent_le, h.steps, h.uninstalling⟩

theorem Sound.advance (h : Sound sha env lies display cfgPath w) (i : ℕ) {p : Worker → Worker}
    (hgenuine : ∀ x, Genuine sha env lies display cfgPath x →
      Genuine sha env lies display cfgPath (p x))
    (hp : ∀ x, Listening w.app x → x.isOver = false → Listening w.app (p x)) :
    Sound sha env lies display cfgPath (w.advance i p) := by
  have happ : (w.advance i p).app = w.app := by
    unfold World.advance
    split
    · split <;> rfl
    · rfl
  have hworkers : ∀ x ∈ (w.advance i p).workers, Genuine sha env lies display cfgPath x := by
    intro x hx
    unfold World.advance at hx
    split at hx
    · rename_i y hy
      split at hx
      · exact h.genuine x hx
      · rcases List.mem_or_eq_of_mem_set hx with hx | rfl
        · exact h.genuine x hx
        · exact hgenuine y (h.genuine y (List.mem_of_getElem? hy))
    · exact h.genuine x hx
  by_cases hprogress : w.app.page = .progress
  · obtain ⟨x, hx, hrollback⟩ := h.progress hprogress
    obtain ⟨y, hy⟩ := advance_working hx i (hp x hx.listening)
    exact sound_progress hworkers hy (happ ▸ hrollback) (happ ▸ hprogress)
  · by_cases hstart : w.app.page = .startService
    · obtain ⟨huninstalling, ⟨hrx, hquiet⟩ | ⟨x, hx⟩⟩ := h.starting hstart
      · rw [advance_quiet hquiet]
        exact h
      · obtain ⟨y, hy⟩ := advance_working hx i (hp x hx.listening)
        exact sound_starting hworkers (happ ▸ hstart) (happ ▸ huninstalling) (.inr ⟨y, hy⟩)
    · rw [advance_quiet (h.quiet hprogress hstart)]
      exact h

theorem Sound.move (h : Sound sha env lies display cfgPath w) (m : Move) :
    Sound sha env lies display cfgPath (move sha env lies display cfgPath w m).1 := by
  cases m with
  | send i => exact h.advance i (fun _ hx => hx) (fun _ hx => hx.send)
  | die i => exact h.advance i (fun _ hx => hx) (fun _ hx _ => hx.die)
  | frame f =>
      unfold Wizard.move drawn
      dsimp only
      split
      · rename_i hpage
        have hquiet : Quiet w := h.quiet (by simp [hpage]) (by simp [hpage])
        split
        · exact sound_quiet h.genuine hquiet (.inr (.inl rfl))
        · exact h
      · exact h.accountPage ‹_› f
      · exact h.progressPage ‹_›
      · exact h.donePage ‹_› f
      · exact h.maintenancePage ‹_› f
      · exact h.uninstallConfirmPage ‹_› f
      · exact h.uninstallDonePage ‹_› f
      · exact h.startServicePage ‹_› f

theorem sound_new (mode : Mode) (state : InstallState) (existing : Option String) :
    Sound sha env lies display cfgPath { app := .new mode state existing } := by
  have hquiet : Quiet { app := .new mode state existing } := by simp [Quiet]
  refine ⟨by simp, fun _ _ => hquiet, ?_, ?_, ?_, fun _ => ⟨rfl, .inl ⟨rfl, hquiet⟩⟩⟩ <;>
    intro hpage <;> cases mode <;> cases state <;> cases hpage

end Sound

/-- **One worker.** At most one worker is at work at any time, and only while the window
listens to it; none is ever asked to install without a student number or with an empty
password. -/
theorem one_worker (sha : List UInt8 → Payload.Digest) (env : Env)
    (lies : Path → String → Bool) (display : Path → String) (cfgPath : Path) (mode : Mode)
    (state : InstallState) (existing : Option String) (moves : List Move) :
    let w := after sha env lies display cfgPath { app := .new mode state existing } moves
    (∀ (i j : ℕ) (x y : Worker), w.workers[i]? = some x → w.workers[j]? = some y →
      x.isOver = false → y.isOver = false → i = j) ∧
    (∀ x ∈ w.workers, x.isOver = false → w.app.page = .progress ∨ w.app.page = .startService) ∧
    ∀ x ∈ w.workers, ∀ studentId password, x.task = .install studentId password →
      studentId ≠ "" ∧ password ≠ some "" := by
  intro w
  have hw : Sound sha env lies display cfgPath w :=
    Machine.final_induction (fun _ m h => h.move m) (sound_new mode state existing) moves
  have hpage {x : Worker} (hx : x ∈ w.workers) (hover : x.isOver = false) :
      w.app.page = .progress ∨ w.app.page = .startService := by
    by_contra hno
    push Not at hno
    rw [hw.quiet hno.1 hno.2 x hx] at hover
    cases hover
  refine ⟨fun i j x y hi hj hx hy => ?_, fun x hx hover => hpage hx hover, ?_⟩
  · have hworking : ∃ z, Working w z := by
      rcases hpage (List.mem_of_getElem? hi) hx with hprogress | hstart
      · obtain ⟨z, hz, -⟩ := hw.progress hprogress
        exact ⟨z, hz⟩
      · obtain ⟨-, ⟨-, hquiet⟩ | hz⟩ := hw.starting hstart
        · rw [hquiet x (List.mem_of_getElem? hi)] at hx
          cases hx
        · exact hz
    obtain ⟨z, hz⟩ := hworking
    obtain ⟨before, hworkers, -, hbefore⟩ := hz.last
    have hlast {k : ℕ} {u : Worker} (hk : w.workers[k]? = some u) (hu : u.isOver = false) :
        k = before.length := by
      rw [hworkers] at hk
      rcases Nat.lt_trichotomy k before.length with hlt | heq | hgt
      · rw [List.getElem?_append_left hlt] at hk
        rw [hbefore u (List.mem_of_getElem? hk)] at hu
        cases hu
      · exact heq
      · rw [List.getElem?_eq_none (by simp; omega)] at hk
        cases hk
    rw [hlast hi hx, hlast hj hy]
  · intro x hx studentId password htask
    have hsane := (hw.genuine x hx).1
    rw [htask] at hsane
    exact hsane

/-- The keys of all steps of a task. -/
def Task.keys : Task → List String
  | .install _ _ =>
      ["stop_service", "unpack", "install_core", "shell_integration", "start_service"]
  | .uninstall purge =>
      ["uninstall_stop_service", "uninstall_service", "uninstall_event_source",
        "uninstall_entropy", "uninstall_autostart"] ++
        (if purge then ["uninstall_purge"] else []) ++ ["uninstall_remove_dir"]
  | .startService => ["start_service", "wait_dial"]

def Finished (rows : List StepRow) : Prop := ∀ row ∈ rows, row.status ≠ .running

/-- A receipt lists the first steps in order, and only the last may still be running. -/
structure Orderly (keys : List String) (rows : List StepRow) : Prop where
  named : rows.map StepRow.key <+: keys
  finished : Finished rows.dropLast

structure Complete (keys : List String) (rows : List StepRow) : Prop where
  named : rows.map StepRow.key = keys
  finished : Finished rows

/-- Steps told to their end: each announced and then done, or reported at once. -/
inductive Tells : List String → List Ev → Prop
  | nil : Tells [] []
  | work {keys : List String} {evs : List Ev} (key label label' : String) (h : Tells keys evs)
      (hkey : key ∉ keys) : Tells (keys ++ [key]) (evs ++ [.step key label, .stepDone key label'])
  | report {keys : List String} {evs : List Ev} (key label : String) (outcome : Uninstall.Step)
      (h : Tells keys evs) (hkey : key ∉ keys) :
      Tells (keys ++ [key]) (evs ++ [.stepFinished key label outcome])

section Receipt

variable {keys said : List String} {rows : List StepRow} {evs : List Ev}

theorem finishFirst_missing {key label : String} {status : StepStatus}
    (h : key ∉ rows.map StepRow.key) : finishFirst key label status rows = none := by
  induction rows with
  | nil => rfl
  | cons row rows ih =>
      simp only [List.map_cons, List.mem_cons, not_or] at h
      rw [finishFirst, if_neg (Ne.symm h.1), ih h.2]
      rfl

theorem finishStep_missing {key : String} (label : String) (status : StepStatus)
    (h : key ∉ rows.map StepRow.key) :
    finishStep key label status rows = rows ++ [⟨key, label, status⟩] := by
  unfold finishStep
  rw [finishFirst_missing (by simpa using h)]

theorem finishStep_last (key label label' : String) (status status' : StepStatus) :
    finishStep key label' status' (rows ++ [⟨key, label, status⟩]) =
      rows ++ [⟨key, label', status'⟩] := by
  simp [finishStep, finishFirst]

theorem Finished.concat (h : Finished rows) {row : StepRow} (hrow : row.status ≠ .running) :
    Finished (rows ++ [row]) := by
  intro r hr
  rcases List.mem_append.mp hr with hr | hr
  · exact h r hr
  · rw [List.mem_singleton.mp hr]
    exact hrow

theorem Complete.concat (h : Complete said rows) (row : StepRow)
    (hrow : row.status ≠ .running) : Complete (said ++ [row.key]) (rows ++ [row]) :=
  ⟨by simp [h.named], h.finished.concat hrow⟩

theorem StepStatus.ofStep_ne_running (outcome : Uninstall.Step) :
    StepStatus.ofStep outcome ≠ .running := by
  cases outcome <;> simp [StepStatus.ofStep]

theorem Tells.complete (h : Tells said evs) : Complete said (receipt evs) := by
  induction h with
  | nil => exact ⟨rfl, by simp [Finished, receipt]⟩
  | work key label label' _ hkey ih =>
      have hrow := ih.concat ⟨key, label', .done⟩ (by simp)
      rw [receipt_append]
      dsimp only [List.foldl, addRow]
      rwa [finishStep_last]
  | report key label outcome _ hkey ih =>
      have hrow := ih.concat ⟨key, label, .ofStep outcome⟩
        (StepStatus.ofStep_ne_running outcome)
      rw [receipt_append]
      dsimp only [List.foldl, addRow]
      rwa [finishStep_missing _ _ (by rwa [ih.named])]

theorem Complete.orderly (h : Complete said rows) (hkeys : said <+: keys) : Orderly keys rows :=
  ⟨h.named ▸ hkeys, fun row hrow => h.finished row (List.dropLast_subset _ hrow)⟩

/-- Steps told, and one more that is running. -/
theorem Tells.orderly_running (h : Tells said evs) {key : String} (label : String)
    (hkeys : said ++ [key] <+: keys) : Orderly keys (receipt (evs ++ [.step key label])) := by
  rw [receipt_append]
  refine ⟨by simpa [addRow, h.complete.named] using hkeys, ?_⟩
  simpa [addRow] using h.complete.finished

theorem take_append_cases {α : Type} (xs ys : List α) (n : ℕ) :
    (∃ m, (xs ++ ys).take n = xs.take m) ∨ ∃ m, (xs ++ ys).take n = xs ++ ys.take m := by
  rcases Nat.le_total n xs.length with hn | hn
  · exact .inl ⟨n, List.take_append_of_le_length hn⟩
  · exact .inr ⟨n - xs.length, by rw [List.take_append, List.take_of_length_le hn]⟩

/-- However far the telling has come. -/
theorem Tells.orderly (h : Tells said evs) (hkeys : said <+: keys) (n : ℕ) :
    Orderly keys (receipt (evs.take n)) := by
  induction h generalizing n with
  | nil =>
      rw [List.take_nil]
      exact Tells.nil.complete.orderly hkeys
  | @work said evs key label label' h hkey ih =>
      have hsaid : said <+: keys := (List.prefix_append said [key]).trans hkeys
      rcases take_append_cases evs [.step key label, .stepDone key label'] n with ⟨m, hm⟩ | ⟨m, hm⟩
      · rw [hm]
        exact ih hsaid m
      · rw [hm]
        rcases m with _ | _ | m
        · exact (List.append_nil evs).symm ▸ h.complete.orderly hsaid
        · exact h.orderly_running label hkeys
        · rw [List.take_of_length_le (by simp)]
          exact (Tells.work key label label' h hkey).complete.orderly hkeys
  | @report said evs key label outcome h hkey ih =>
      have hsaid : said <+: keys := (List.prefix_append said [key]).trans hkeys
      rcases take_append_cases evs [.stepFinished key label outcome] n with ⟨m, hm⟩ | ⟨m, hm⟩
      · rw [hm]
        exact ih hsaid m
      · rw [hm]
        rcases m with _ | m
        · exact (List.append_nil evs).symm ▸ h.complete.orderly hsaid
        · rw [List.take_of_length_le (by simp)]
          exact (Tells.report key label outcome h hkey).complete.orderly hkeys

/-- All that a worker tells: it stops between two steps or within one, and well exactly if
all steps are told. -/
inductive Recounts (keys : List String) : List Ev → Prop
  | between {said : List String} {evs : List Ev} (h : Tells said evs) (hkeys : said <+: keys)
      (result : Option String) (rollback : RollbackOutcome)
      (hresult : result = none ↔ said = keys) :
      Recounts keys (evs ++ [.done result rollback])
  | within {said : List String} {evs : List Ev} (h : Tells said evs) (key label : String)
      (hkeys : said ++ [key] <+: keys) (e : String) (rollback : RollbackOutcome) :
      Recounts keys (evs ++ [.step key label] ++ [.done (some e) rollback])

theorem receipt_done (result : Option String) (rollback : RollbackOutcome) :
    receipt (evs ++ [.done result rollback]) = receipt evs := by
  rw [receipt_append]
  rfl

theorem receipt_take_done (result : Option String) (rollback : RollbackOutcome) (n : ℕ) :
    ∃ m, receipt ((evs ++ [Ev.done result rollback]).take n) = receipt (evs.take m) := by
  rcases take_append_cases evs [.done result rollback] n with ⟨m, hm⟩ | ⟨m, hm⟩
  · exact ⟨m, by rw [hm]⟩
  · refine ⟨evs.length, ?_⟩
    rw [hm, List.take_length]
    rcases m with _ | m
    · rw [List.take_zero, List.append_nil]
    · rw [List.take_of_length_le (by simp), receipt_done]

theorem Recounts.orderly (h : Recounts keys evs) (n : ℕ) :
    Orderly keys (receipt (evs.take n)) := by
  cases h with
  | between h hkeys result rollback _ =>
      obtain ⟨m, hm⟩ := receipt_take_done result rollback n
      rw [hm]
      exact h.orderly hkeys m
  | @within said evs h key label hkeys e rollback =>
      have hsaid : said <+: keys := (List.prefix_append said [key]).trans hkeys
      obtain ⟨m, hm⟩ := receipt_take_done (some e) rollback n
      rw [hm]
      rcases take_append_cases evs [.step key label] m with ⟨m, hm⟩ | ⟨m, hm⟩
      · rw [hm]
        exact h.orderly hsaid m
      · rw [hm]
        rcases m with _ | m
        · exact (List.append_nil evs).symm ▸ h.complete.orderly hsaid
        · rw [List.take_of_length_le (by simp)]
          exact h.orderly_running label hkeys

theorem Recounts.complete_iff {body : List Ev} {result : Option String}
    {rollback : RollbackOutcome} (h : Recounts keys (body ++ [.done result rollback])) :
    result = none ↔ Complete keys (receipt body) := by
  generalize hevs : body ++ [.done result rollback] = evs at h
  cases h with
  | between h hkeys result' rollback' hresult =>
      obtain ⟨rfl, hlast⟩ := List.append_inj' hevs rfl
      cases hlast
      refine hresult.trans ⟨fun hall => hall ▸ h.complete, fun hall => ?_⟩
      rw [← h.complete.named, hall.named]
  | @within said evs h key label hkeys e rollback' =>
      obtain ⟨rfl, hlast⟩ := List.append_inj' hevs rfl
      cases hlast
      refine ⟨fun hno => (by cases hno), fun hall => ?_⟩
      have hrunning : ⟨key, label, .running⟩ ∈ receipt (evs ++ [.step key label]) := by
        rw [receipt_append]
        exact List.mem_append_right _ (List.mem_singleton_self _)
      exact absurd rfl (hall.finished _ hrunning)

end Receipt

/-! ### Of each task -/

theorem concat_nodup {said : List String} {key : String} {keys : List String}
    (h : (said ++ key :: keys).Nodup) : key ∉ said ∧ (said ++ [key] ++ keys).Nodup := by
  rw [List.append_cons] at h
  refine ⟨fun hmem => ?_, h⟩
  exact (List.nodup_append.mp (List.nodup_append.mp h).1).2.2 key hmem key (by simp) rfl

theorem recounts_run {sts : List Stage} {p q : Progress} {said : List String} {e : Option String}
    (h : Tells said (p.events.map sentEvent)) (hkeys : (said ++ sts.map Stage.key).Nodup)
    (hrun : Fallible.run (sts.map Stage.perform) p = (q, e)) (rollback : RollbackOutcome) :
    Recounts (said ++ sts.map Stage.key) (q.events.map sentEvent ++ [.done e rollback]) := by
  induction sts generalizing p said with
  | nil =>
      cases hrun
      exact .between h (by simp) none rollback (by simp)
  | cons st sts ih =>
      obtain ⟨hkey, hkeys⟩ := concat_nodup hkeys
      rw [List.map_cons, List.append_cons]
      rw [List.map_cons, Fallible.run, Stage.perform] at hrun
      rcases hop : st.op p.sys with ⟨sys, _ | e'⟩
      · rw [hop] at hrun
        refine ih ?_ hkeys hrun
        simpa [sentEvent] using Tells.work st.key st.label st.label h hkey
      · rw [hop] at hrun
        cases hrun
        simpa [sentEvent] using
          Recounts.within h st.key st.label (List.prefix_append _ _) e' rollback

theorem recounts_install (sha : List UInt8 → Payload.Digest) (env : Env) (studentId : String)
    (password : Option String) (a : InstallAnswers) (s : Sys) :
    Recounts (Task.install studentId password).keys
      ((runInstall sha env ⟨studentId, password⟩ a s).events.map sentEvent) := by
  unfold runInstall
  dsimp only
  split
  · rename_i e _
    exact .between .nil (by simp) (some e) .notNeeded (by simp [Task.keys])
  · rename_i prepared _
    have hkeys : (stages env ⟨studentId, password⟩ prepared.entries a).map Stage.key =
      (Task.install studentId password).keys := rfl
    have hnodup : ([] ++ (stages env ⟨studentId, password⟩ prepared.entries a).map
      Stage.key).Nodup := by
      rw [hkeys]
      simp [Task.keys]
    rcases hrun : Fallible.run ((stages env ⟨studentId, password⟩ prepared.entries a).map
      Stage.perform) { sys := s } with ⟨q, e⟩
    have hall := fun rollback => recounts_run .nil hnodup hrun rollback
    rw [List.nil_append, hkeys] at hall
    cases e with
    | none => simpa [sentEvent] using hall .notNeeded
    | some e =>
        dsimp only
        split <;> simpa [sentEvent] using hall _

theorem recounts_start (work : Work) : Recounts Task.startService.keys (startScript work) := by
  have hstarted := Tells.work "start_service" "启动 gdut-net 服务" "启动 gdut-net 服务" .nil
    (by simp)
  unfold startScript
  dsimp only
  split
  · exact .within .nil _ _ (by simp [Task.keys]) _ _
  · split
    · exact .within hstarted _ _ (by simp [Task.keys]) _ _
    · rename_i status _
      exact .between (.work "wait_dial" "等待拨号结果"
        ("等待拨号结果（" ++ sessionEn status ++ "）") hstarted (by simp))
        (by simp [Task.keys]) none .notNeeded (by simp [Task.keys])

/-- Rows that are reported one after the other. -/
theorem Tells.reports {said : List String} {evs : List Ev} (h : Tells said evs)
    (rows : List (String × Uninstall.Step)) (label : String → String)
    (hkeys : (said ++ rows.map Prod.fst).Nodup) :
    Tells (said ++ rows.map Prod.fst)
      (evs ++ rows.map fun row => .stepFinished row.1 (label row.1) row.2) := by
  induction rows generalizing said evs with
  | nil => simpa using h
  | cons row rows ih =>
      obtain ⟨hkey, hrest⟩ := concat_nodup hkeys
      rw [List.map_cons, List.map_cons, List.append_cons said, List.append_cons evs]
      exact ih (.report row.1 (label row.1) row.2 h hkey) hrest

theorem Tells.reported {evs : List Ev} (h : Tells ["uninstall_stop_service"] evs)
    (report : UninstallReport) :
    ∃ said, Tells said (evs ++ finishedRows report) ∧
      said ++ ["uninstall_remove_dir"] = (Task.uninstall report.purge.isSome).keys := by
  have hrows := h.reports report.rows labelZh (by simp [UninstallReport.rows])
  cases hpurge : report.purge with
  | none =>
      refine ⟨["uninstall_stop_service"] ++ report.rows.map Prod.fst, ?_, rfl⟩
      simpa [finishedRows, hpurge] using hrows
  | some purge =>
      refine ⟨["uninstall_stop_service"] ++ report.rows.map Prod.fst ++ ["uninstall_purge"], ?_,
        rfl⟩
      simpa [finishedRows, hpurge] using
        hrows.report "uninstall_purge" "删除配置与日志" purge.step (by simp [UninstallReport.rows])

theorem recounts_uninstall (lies : Path → String → Bool) (display : Path → String)
    (cfgPath : Path) (purge : Bool) (a : CallerAnswers) (h : Host) :
    Recounts (Task.uninstall purge).keys
      (runUninstall lies display cfgPath purge true a h).2 := by
  have hstopped := Tells.work "uninstall_stop_service" "停止服务" "停止服务" .nil (by simp)
  unfold runUninstall
  rcases hstop : stopService a.stop h.sys with ⟨sys, _ | e⟩
  · dsimp only
    rcases hcore : uninstallCore lies display cfgPath purge a.core { h with sys } with
      ⟨h', e | report⟩
    · exact .between hstopped (by simp [Task.keys]) (some e) .notNeeded (by simp [Task.keys])
    · have hclean := @attempt_clean lies display cfgPath { h with sys } ⟨purge, a.core⟩ report
      rw [attempt, hcore] at hclean
      obtain ⟨said, hsaid, hkeys⟩ := hstopped.reported report
      rw [(hclean rfl).purge_some] at hkeys
      rw [← hkeys]
      unfold scheduleRemoval
      cases a.spawnError with
      | some e => exact .within hsaid _ _ List.prefix_rfl _ _
      | none =>
          have hnodup : (said ++ ["uninstall_remove_dir"]).Nodup := by
            rw [hkeys]
            cases purge <;> simp [Task.keys]
          have hall := hsaid.work "uninstall_remove_dir" "移除安装目录" "移除安装目录"
            (concat_nodup hnodup).1
          simpa using Recounts.between hall List.prefix_rfl none .notNeeded (by simp)
  · exact .within .nil _ _ (by simp [Task.keys]) _ _

theorem recounts_script (sha : List UInt8 → Payload.Digest) (env : Env)
    (lies : Path → String → Bool) (display : Path → String) (cfgPath : Path) (work : Work)
    (task : Task) : Recounts task.keys (script sha env lies display cfgPath work task) := by
  cases task with
  | install studentId password =>
      exact recounts_install sha env studentId password work.install work.host.sys
  | uninstall purge =>
      exact recounts_uninstall lies display cfgPath purge work.caller work.host
  | startService => exact recounts_start work

/-- A receipt and the result below it. -/
structure Receipted (w : World) (x : Worker) : Prop where
  orderly : Orderly x.task.keys w.app.steps
  complete : w.app.result = some none → Complete x.task.keys w.app.steps
  died : ∀ e, w.app.result = some (some e) → Complete x.task.keys w.app.steps → x.died = true

theorem Working.receipted {w : World} {x : Worker} (h : Working w x)
    (hx : Recounts x.task.keys x.script) : Receipted w x := by
  refine ⟨?_, by simp [h.result], by simp [h.result]⟩
  rw [h.listening.steps]
  exact hx.orderly _

theorem Told.receipted {w : World} {x : Worker} (h : Told w x) (hover : x.isOver = true)
    (hends : Ends x.script) (hx : Recounts x.task.keys x.script) : Receipted w x := by
  have horderly : Orderly x.task.keys w.app.steps := by
    rw [h.steps]
    exact hx.orderly _
  obtain ⟨body, result, rollback, hscript, hheard, hended⟩ | ⟨hdied, -, hended⟩ :=
    over_cases hends hover
  · have hsteps : w.app.steps = receipt body := by
      rw [h.steps, hheard, hscript, receipt_done]
    have hresult : w.app.result = some result := by
      simp [h.result, Worker.outcome, hended]
    rw [hscript] at hx
    refine ⟨horderly, fun hnone => ?_, fun e herror hall => ?_⟩
    · rw [hresult, Option.some.injEq] at hnone
      exact hsteps ▸ hx.complete_iff.mp hnone
    · rw [hsteps, ← hx.complete_iff] at hall
      rw [hresult, hall] at herror
      cases herror
  · refine ⟨horderly, fun hnone => ?_, fun _ _ _ => hdied⟩
    simp [h.result, Worker.outcome, hended] at hnone

end GdutNet.Wizard
