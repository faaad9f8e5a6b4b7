import GdutNet.Machine.Trace
import GdutNet.Setup.Transaction

/-!
# Uninstalling

`uninstall_core` of `service.rs` and its callers: the worker of `work.rs` and the run of
`silent.rs`. Only the service and the data directory can make it fail; what else cannot
be removed is reported and left.
-/

namespace GdutNet.Uninstall

open Fallible Install

/-! ## Paths -/

/-- As `Path::components` cuts a path. -/
inductive Component where
  | disk (name : String)
  | rootDir
  | curDir
  | parentDir
  | normal (name : String)
deriving DecidableEq, Repr

abbrev Path : Type := List Component

def parent (path : Path) : Option Path :=
  match path.getLast? with
  | some (.normal _) | some .curDir | some .parentDir => some path.dropLast
  | _ => none

def fileName (path : Path) : Option String :=
  match path.getLast? with
  | some (.normal name) => some name
  | _ => none

def dataDir : Path := [.disk "C:", .rootDir, .normal "ProgramData", .normal "gdut-net"]

def programDataDir (cfgPath : Path) : Path := (parent cfgPath).getD dataDir

/-- No letter outside ASCII is one of these in lower case. -/
def isPurgeSafe (dir : Path) : Bool :=
  ((fileName dir).getD "").toList.map Char.toLower = "gdut-net".toList

/-! ## The report -/

inductive Step where
  | done
  | skipped
  | failed (e : String)
deriving DecidableEq, Repr

structure PurgeStep where
  dir : Path
  step : Step
deriving DecidableEq, Repr

structure UninstallReport where
  service : Step
  eventSource : Step
  entropy : Step
  autostart : Step
  purge : Option PurgeStep
deriving DecidableEq, Repr

def UninstallReport.rows (report : UninstallReport) : List (String × Step) :=
  [("uninstall_service", report.service), ("uninstall_event_source", report.eventSource),
    ("uninstall_entropy", report.entropy), ("uninstall_autostart", report.autostart)]

/-! ## The steps -/

/-- What an uninstallation changes. -/
structure Host where
  sys : Sys
  eventSource : Bool
  entropy : Bool
  /-- the helper that removes the installation directory has been started -/
  leaving : Bool

structure RemoveAnswer where
  connectError : Option String := none
  openError : Option String := none
  queryError : Option String := none
  /-- the states read until the time for it is over -/
  polls : List (Except String Bool) := [.ok true]
  staysUp : Bool := true
  ends : Answer (Option ServiceEntry) := default

/-- `wait_stopped`. -/
def waitStopped : List (Except String Bool) → Option String
  | [] =>
      some ("Timed out waiting for service to stop (10s); service may be marked for deletion, " ++
        "will take effect after reboot")
  | .error e :: _ => some e
  | .ok true :: _ => none
  | .ok false :: polls => waitStopped polls

def removeService (a : RemoveAnswer) (service : Option ServiceEntry) :
    Option ServiceEntry × Except String Step :=
  match a.connectError, service with
  | some e, _ =>
      (service,
        .error ("Failed to connect to service manager (administrator required): " ++ e))
  | none, none => (none, .ok .skipped)
  | none, some entry =>
      match a.openError, a.queryError with
      | some e, _ => (service, .error ("Failed to open service: " ++ e))
      | none, some e => (service, .error e)
      | none, none =>
          match if entry.running then waitStopped a.polls else none with
          | some e => (some { entry with running := a.staysUp }, .error e)
          | none =>
              match a.ends.error with
              | none => (none, .ok .done)
              | some e => (a.ends.left, .error ("Failed to delete service: " ++ e))

/-- A registry key that is deleted, or not there; an error is put up with. -/
def removeKey (a : Answer Bool) : Bool × Step :=
  match a.error with
  | none => (false, .done)
  | some e => (a.left, .failed e)

structure AutostartAnswer where
  opened : Bool := true
  deleted : Bool := true

/-- `unregister_autostart` succeeds also where the value could not be deleted. -/
def unregisterAutostart (a : AutostartAnswer) (values : Values) : Values :=
  if a.opened && a.deleted then setAt "gdut-net-tray" none values else values

/-- `remove_dir_all`. -/
inductive DirAnswer where
  | removed
  | notFound
  | failed (e : String) (left : Files)

def DirAnswer.left : DirAnswer → Files
  | .failed _ left => left
  | _ => fun _ => none

structure UninstallAnswers where
  service : RemoveAnswer := {}
  eventSource : Answer Bool := default
  entropy : Answer Bool := default
  autostart : AutostartAnswer := {}
  startMenuKnown : Bool := true
  startMenu : DirAnswer := .removed
  uninstallKey : Answer Values := ⟨none, fun _ => none⟩
  purge : DirAnswer := .removed

/-- All that an error does not end. -/
def sweep (a : UninstallAnswers) (h : Host) : Host where
  sys :=
    { h.sys with
      autostart := unregisterAutostart a.autostart h.sys.autostart
      shortcuts := if a.startMenuKnown then a.startMenu.left else h.sys.shortcuts
      uninstall := if a.uninstallKey.error.isNone then fun _ => none else a.uninstallKey.left }
  eventSource := (removeKey a.eventSource).1
  entropy := (removeKey a.entropy).1
  leaving := h.leaving

section Core

variable (lies : Path → String → Bool) (display : Path → String)

/-- `dir` with what it holds replaced by `left`. -/
def clear (dir : Path) (left : Files) (h : Host) : Host :=
  let data := fun path => if lies dir path then left path else h.sys.data path
  { h with sys := { h.sys with data } }

def purgeStep (dir : Path) : DirAnswer → Except String PurgeStep
  | .removed => .ok ⟨dir, .done⟩
  | .notFound => .ok ⟨dir, .skipped⟩
  | .failed e _ => .error ("Failed to remove " ++ display dir ++ ": " ++ e)

def purgeData (cfgPath : Path) (a : DirAnswer) (h : Host) : Host × Except String PurgeStep :=
  let dir := programDataDir cfgPath
  if isPurgeSafe dir then (clear lies dir a.left h, purgeStep display dir a)
  else
    (h, .error ("Refusing to delete suspicious directory " ++ display dir ++
      " (not named gdut-net), please remove manually"))

def uninstallCore (cfgPath : Path) (purge : Bool) (a : UninstallAnswers) (h : Host) :
    Host × Except String UninstallReport :=
  match removeService a.service h.sys.service with
  | (service, .error e) => ({ h with sys := { h.sys with service } }, .error e)
  | (service, .ok step) =>
      let h := sweep a { h with sys := { h.sys with service } }
      let report (purge : Option PurgeStep) : UninstallReport :=
        { service := step, eventSource := (removeKey a.eventSource).2
          entropy := (removeKey a.entropy).2, autostart := .done, purge }
      if purge then
        match purgeData lies display cfgPath a.purge h with
        | (h, .ok purge) => (h, .ok (report (some purge)))
        | (h, .error e) => (h, .error e)
      else (h, .ok (report none))

variable {lies display}

/-! ## What one attempt can do -/

theorem removeService_ok {a : RemoveAnswer} {service service' : Option ServiceEntry} {step : Step}
    (h : removeService a service = (service', .ok step)) :
    service' = none ∧ (service = none → step = .skipped) := by
  unfold removeService at h
  split at h
  · cases h
  · cases h
    exact ⟨rfl, fun _ => rfl⟩
  · split at h
    · cases h
    · cases h
    · split at h
      · cases h
      · split at h
        · cases h
          exact ⟨rfl, fun hnone => by cases hnone⟩
        · cases h

/-- Nothing but the service, and every step but the last taken. -/
def swept (a : UninstallAnswers) (h : Host) : Host :=
  sweep a { h with sys := { h.sys with service := none } }

/-- The ways of `uninstall_core`: the service stands in the way, nothing does, or the data
directory does. -/
inductive Uninstalled (lies : Path → String → Bool) (cfgPath : Path) (purge : Bool)
    (a : UninstallAnswers) (h : Host) : Host → Except String UninstallReport → Prop
  | stuck (service : Option ServiceEntry) (e : String)
      (hservice : removeService a.service h.sys.service = (service, .error e)) :
      Uninstalled lies cfgPath purge a h { h with sys := { h.sys with service } } (.error e)
  | kept (report : UninstallReport) (hpurge : purge = false) (hreport : report.purge = none)
      (hservice : h.sys.service = none → report.service = .skipped)
      (hsource : report.eventSource = (removeKey a.eventSource).2)
      (hentropy : report.entropy = (removeKey a.entropy).2) :
      Uninstalled lies cfgPath purge a h (swept a h) (.ok report)
  | purged (report : UninstallReport) (step : PurgeStep) (hpurge : purge = true)
      (hsafe : isPurgeSafe (programDataDir cfgPath) = true)
      (hleft : a.purge.left = fun _ => none)
      (hreport : report.purge = some step) (hdir : step.dir = programDataDir cfgPath)
      (hservice : h.sys.service = none → report.service = .skipped)
      (hsource : report.eventSource = (removeKey a.eventSource).2)
      (hentropy : report.entropy = (removeKey a.entropy).2) :
      Uninstalled lies cfgPath purge a h
        (clear lies (programDataDir cfgPath) a.purge.left (swept a h)) (.ok report)
  | partly (e : String) (step : Step) (hpurge : purge = true)
      (hservice : removeService a.service h.sys.service = (none, .ok step))
      (hsafe : isPurgeSafe (programDataDir cfgPath) = true) :
      Uninstalled lies cfgPath purge a h
        (clear lies (programDataDir cfgPath) a.purge.left (swept a h)) (.error e)
  | refused (e : String) (step : Step) (hpurge : purge = true)
      (hservice : removeService a.service h.sys.service = (none, .ok step)) :
      Uninstalled lies cfgPath purge a h (swept a h) (.error e)

theorem purgeStep_ok {dir : Path} {a : DirAnswer} {step : PurgeStep}
    (h : purgeStep display dir a = .ok step) : a.left = (fun _ => none) ∧ step.dir = dir := by
  cases a with
  | removed =>
      cases h
      exact ⟨rfl, rfl⟩
  | notFound =>
      cases h
      exact ⟨rfl, rfl⟩
  | failed e left => cases h

theorem uninstallCore_cases (lies : Path → String → Bool) (display : Path → String)
    (cfgPath : Path) (purge : Bool) (a : UninstallAnswers) (h : Host) :
    Uninstalled lies cfgPath purge a h (uninstallCore lies display cfgPath purge a h).1
      (uninstallCore lies display cfgPath purge a h).2 := by
  unfold uninstallCore
  split
  · rename_i service e hservice
    exact .stuck service e hservice
  · rename_i service step hservice
    obtain ⟨rfl, hskipped⟩ := removeService_ok hservice
    cases purge with
    | false => exact .kept _ rfl rfl hskipped rfl rfl
    | true =>
        unfold purgeData
        by_cases hsafe : isPurgeSafe (programDataDir cfgPath) = true
        · simp only [hsafe, if_true]
          cases hstep : purgeStep display (programDataDir cfgPath) a.purge with
          | ok step =>
              obtain ⟨hleft, hdir⟩ := purgeStep_ok hstep
              exact .purged _ step rfl hsafe hleft rfl hdir hskipped rfl rfl
          | error e => exact .partly e _ rfl hservice hsafe
        · rw [if_pos rfl, if_neg hsafe]
          exact .refused _ _ rfl hservice

/-! ## Attempt after attempt -/

structure Attempt where
  purge : Bool
  answers : UninstallAnswers

abbrev Record : Type := Machine.Step Host Attempt (Except String UninstallReport)

/-- What an attempt that succeeds has brought about. -/
structure Clean (lies : Path → String → Bool) (dir : Path) (purge : Bool)
    (report : UninstallReport) (h : Host) : Prop where
  service : h.sys.service = none
  source : report.eventSource = .done → h.eventSource = false
  entropy : report.entropy = .done → h.entropy = false
  purge_some : report.purge.isSome = purge
  data : purge = true → ∀ path, lies dir path = true → h.sys.data path = none

/-- What an attempt that fails has left: the service stands in the way and the rest is
untouched, or all is done that there is to do without a purge. -/
def Resumable (lies : Path → String → Bool) (display : Path → String) (cfgPath : Path)
    (x : Attempt) (h h' : Host) : Prop :=
  h' = { h with sys := { h.sys with service := h'.sys.service } } ∨
    (x.purge = true ∧ h'.sys.service = none ∧
      { h' with sys := { h'.sys with data := h.sys.data } } =
        (uninstallCore lies display cfgPath false x.answers h).1)

section Attempts

variable (lies : Path → String → Bool) (display : Path → String) (cfgPath : Path)

def attempt (h : Host) (x : Attempt) : Host × Except String UninstallReport :=
  uninstallCore lies display cfgPath x.purge x.answers h

variable {lies display cfgPath} {h : Host} {x : Attempt}

theorem removeKey_done {a : Answer Bool} (h : (removeKey a).2 = .done) :
    (removeKey a).1 = false := by
  unfold removeKey at h ⊢
  split
  · rfl
  · rename_i e he
    simp [he] at h

theorem attempt_clean {report : UninstallReport}
    (hok : (attempt lies display cfgPath h x).2 = .ok report) :
    Clean lies (programDataDir cfgPath) x.purge report (attempt lies display cfgPath h x).1 := by
  have hways := uninstallCore_cases lies display cfgPath x.purge x.answers h
  unfold attempt at hok ⊢
  rw [hok] at hways
  generalize (uninstallCore lies display cfgPath x.purge x.answers h).1 = h' at hways ⊢
  cases hways with
  | kept _ hpurge hreport _ hsource hentropy =>
      refine ⟨rfl, fun hd => removeKey_done (hsource ▸ hd),
        fun hd => removeKey_done (hentropy ▸ hd), by rw [hreport, hpurge]; rfl, fun hp => ?_⟩
      rw [hpurge] at hp
      cases hp
  | purged _ step hpurge _ hleft hreport _ _ hsource hentropy =>
      refine ⟨rfl, fun hd => removeKey_done (hsource ▸ hd),
        fun hd => removeKey_done (hentropy ▸ hd), by rw [hreport, hpurge]; rfl,
        fun _ path hpath => ?_⟩
      simp [clear, hpath, hleft]

theorem uninstallCore_keep {a : UninstallAnswers} {step : Step}
    (hservice : removeService a.service h.sys.service = (none, .ok step)) :
    (uninstallCore lies display cfgPath false a h).1 = swept a h := by
  simp [uninstallCore, hservice, swept]

theorem attempt_resumable {e : String} (herror : (attempt lies display cfgPath h x).2 = .error e) :
    Resumable lies display cfgPath x h (attempt lies display cfgPath h x).1 := by
  have hways := uninstallCore_cases lies display cfgPath x.purge x.answers h
  unfold attempt at herror ⊢
  rw [herror] at hways
  generalize (uninstallCore lies display cfgPath x.purge x.answers h).1 = h' at hways ⊢
  cases hways with
  | stuck service _ _ => exact .inl rfl
  | partly _ step hpurge hservice _ =>
      exact .inr ⟨hpurge, rfl, by rw [uninstallCore_keep hservice]; rfl⟩
  | refused _ step hpurge hservice =>
      exact .inr ⟨hpurge, rfl, by rw [uninstallCore_keep hservice]; rfl⟩

/-- A service that is gone stays gone, and no longer stands in the way. -/
theorem attempt_gone (hgone : h.sys.service = none) :
    (attempt lies display cfgPath h x).1.sys.service = none ∧
      (x.answers.service.connectError = none → x.purge = false →
        ∃ report, (attempt lies display cfgPath h x).2 = .ok report ∧
          report.service = .skipped) := by
  have hways := uninstallCore_cases lies display cfgPath x.purge x.answers h
  unfold attempt
  generalize (uninstallCore lies display cfgPath x.purge x.answers h).1 = h' at hways ⊢
  generalize (uninstallCore lies display cfgPath x.purge x.answers h).2 = out at hways ⊢
  cases hways with
  | stuck service e hservice =>
      rw [hgone] at hservice
      unfold removeService at hservice
      split at hservice
      · rename_i hconnect
        cases hservice
        exact ⟨rfl, fun hnone => by rw [hnone] at hconnect; cases hconnect⟩
      · cases hservice
      · rename_i hsome
        cases hsome
  | kept report _ _ hservice _ _ => exact ⟨rfl, fun _ _ => ⟨report, rfl, hservice hgone⟩⟩
  | purged report _ hpurge _ _ _ _ _ _ _ =>
      exact ⟨rfl, fun _ hno => by rw [hpurge] at hno; cases hno⟩
  | partly e _ hpurge _ _ => exact ⟨rfl, fun _ hno => by rw [hpurge] at hno; cases hno⟩
  | refused e _ hpurge _ => exact ⟨rfl, fun _ hno => by rw [hpurge] at hno; cases hno⟩

/-- What no attempt touches. -/
theorem attempt_keeps :
    (attempt lies display cfgPath h x).1.sys.files = h.sys.files ∧
      (attempt lies display cfgPath h x).1.sys.credential = h.sys.credential ∧
      (attempt lies display cfgPath h x).1.leaving = h.leaving ∧
      ∀ path, (attempt lies display cfgPath h x).1.sys.data path ≠ h.sys.data path →
        x.purge = true ∧ isPurgeSafe (programDataDir cfgPath) = true ∧
          lies (programDataDir cfgPath) path = true := by
  have hways := uninstallCore_cases lies display cfgPath x.purge x.answers h
  unfold attempt
  generalize (uninstallCore lies display cfgPath x.purge x.answers h).1 = h' at hways ⊢
  generalize (uninstallCore lies display cfgPath x.purge x.answers h).2 = out at hways
  have hclear : ∀ (left : Files) (path : String),
      (clear lies (programDataDir cfgPath) left (swept x.answers h)).sys.data path ≠
        h.sys.data path → lies (programDataDir cfgPath) path = true := by
    intro left path hne
    by_contra hout
    exact hne (by simp [clear, hout, swept, sweep])
  cases hways with
  | stuck service e _ => exact ⟨rfl, rfl, rfl, fun path hne => absurd rfl hne⟩
  | kept report _ _ _ _ _ => exact ⟨rfl, rfl, rfl, fun path hne => absurd rfl hne⟩
  | purged report _ hpurge hsafe _ _ _ _ _ _ =>
      exact ⟨rfl, rfl, rfl, fun path hne => ⟨hpurge, hsafe, hclear _ path hne⟩⟩
  | partly e _ hpurge _ hsafe =>
      exact ⟨rfl, rfl, rfl, fun path hne => ⟨hpurge, hsafe, hclear _ path hne⟩⟩
  | refused e _ _ _ => exact ⟨rfl, rfl, rfl, fun path hne => absurd rfl hne⟩

end Attempts

theorem isPurgeSafe_named {dir : Path} (h : isPurgeSafe dir = true) :
    ∃ before name, dir = before ++ [.normal name] ∧
      name.toList.map Char.toLower = "gdut-net".toList := by
  unfold isPurgeSafe fileName at h
  split at h
  · rename_i name hlast
    obtain ⟨before, rfl⟩ := List.getLast?_eq_some_iff.mp hlast
    exact ⟨before, name, rfl, of_decide_eq_true h⟩
  · exact absurd h (by decide)

/-- The same over a run. -/
theorem final_keeps (h : Host) (attempts : List Attempt) :
    let last := Machine.final (attempt lies display cfgPath) h attempts
    last.sys.files = h.sys.files ∧ last.sys.credential = h.sys.credential ∧
      ∀ path, last.sys.data path ≠ h.sys.data path →
        (∃ x ∈ attempts, x.purge = true) ∧ isPurgeSafe (programDataDir cfgPath) = true ∧
          lies (programDataDir cfgPath) path = true := by
  induction attempts using List.reverseRecOn with
  | nil => exact ⟨rfl, rfl, fun path hne => absurd rfl hne⟩
  | append_singleton xs x ih =>
      rw [Machine.final_snoc]
      obtain ⟨hfiles, hcredential, -, hdata⟩ :=
        @attempt_keeps lies display cfgPath (Machine.final (attempt lies display cfgPath) h xs) x
      obtain ⟨hfiles', hcredential', hdata'⟩ := ih
      refine ⟨hfiles.trans hfiles', hcredential.trans hcredential', fun path hne => ?_⟩
      by_cases hsame : (Machine.final (attempt lies display cfgPath) h xs).sys.data path =
          h.sys.data path
      · obtain ⟨hpurge, hsafe, hlies⟩ := hdata path (by rwa [hsame])
        exact ⟨⟨x, by simp, hpurge⟩, hsafe, hlies⟩
      · obtain ⟨⟨y, hy, hpurge⟩, hrest⟩ := hdata' path hsame
        exact ⟨⟨y, List.mem_append_left _ hy, hpurge⟩, hrest⟩

/-- A service gone at some step of a run is gone after it. -/
theorem final_gone {h : Host} {xs : List Attempt} {q : Record}
    (hq : q ∈ Machine.trace (attempt lies display cfgPath) h xs)
    (hgone : q.post.sys.service = none) :
    (Machine.final (attempt lies display cfgPath) h xs).sys.service = none := by
  obtain ⟨us, x, vs, rfl, rfl⟩ := Machine.exists_split_of_mem hq
  rw [Machine.final_append, Machine.final_cons]
  exact Machine.final_induction (I := fun h : Host => h.sys.service = none)
    (fun _ _ hnone => (attempt_gone hnone).1) hgone vs

end Core

/-- What a worker of the setup window sends. -/
inductive Ev where
  | step (key label : String)
  | stepDone (key label : String)
  | stepFinished (key label : String) (outcome : Step)
  | done (result : Option String) (rollback : RollbackOutcome)
deriving DecidableEq, Repr

def stepLabelEn (key : String) : String :=
  match key with
  | "stop_service" => "Stop old service"
  | "unpack" => "Unpack files"
  | "install_core" => "Write config and register service"
  | "shell_integration" => "Create Start Menu shortcuts"
  | "start_service" => "Start service"
  | "wait_dial" => "Wait for dial result"
  | "uninstall_stop_service" => "Stop service"
  | "uninstall_service" => "Remove service"
  | "uninstall_event_source" => "Remove event source"
  | "uninstall_entropy" => "Remove encryption key"
  | "uninstall_autostart" => "Remove tray autostart"
  | "uninstall_purge" => "Delete config and logs"
  | "uninstall_remove_dir" => "Remove install directory"
  | other => other

def labelZh (key : String) : String :=
  match key with
  | "uninstall_service" => "移除服务"
  | "uninstall_event_source" => "移除事件源"
  | "uninstall_entropy" => "移除加密密钥"
  | "uninstall_autostart" => "移除托盘自启"
  | other => other

structure CallerAnswers where
  stop : ServiceAnswer := {}
  core : UninstallAnswers := {}
  spawnError : Option String := none

/-- `schedule_install_dir_removal`. -/
def scheduleRemoval (spawnError : Option String) (h : Host) : Host × Option String :=
  match spawnError with
  | some e => (h, some ("Failed to spawn delayed directory removal: " ++ e))
  | none => ({ h with leaving := true }, none)

def finishedRows (report : UninstallReport) : List Ev :=
  report.rows.map (fun row => .stepFinished row.1 (labelZh row.1) row.2) ++
    report.purge.toList.map fun purge =>
      .stepFinished "uninstall_purge" "删除配置与日志" purge.step

def failedLine (key : String) : Step → Option String
  | .failed e => some ("step failed: " ++ stepLabelEn key ++ ": " ++ e)
  | _ => none

/-- What `--silent` prints of a report. -/
def failedLines (report : UninstallReport) : List String :=
  report.rows.filterMap (fun row => failedLine row.1 row.2) ++
    report.purge.toList.filterMap fun purge => failedLine "uninstall_purge" purge.step

section Callers

variable (lies : Path → String → Bool) (display : Path → String) (cfgPath : Path)

/-- `run_uninstall` of `work.rs`. -/
def runUninstall (purge removeDir : Bool) (a : CallerAnswers) (h : Host) : Host × List Ev :=
  let ended (result : Option String) : Ev := .done result .notNeeded
  let stopping : Ev := .step "uninstall_stop_service" "停止服务"
  match stopService a.stop h.sys with
  | (sys, some e) => ({ h with sys }, [stopping, ended (some e)])
  | (sys, none) =>
      let sent : List Ev := [stopping, .stepDone "uninstall_stop_service" "停止服务"]
      match uninstallCore lies display cfgPath purge a.core { h with sys } with
      | (h, .error e) => (h, sent ++ [ended (some e)])
      | (h, .ok report) =>
          let sent := sent ++ finishedRows report
          if removeDir then
            let sent := sent ++ [.step "uninstall_remove_dir" "移除安装目录"]
            match scheduleRemoval a.spawnError h with
            | (h, some e) => (h, sent ++ [ended (some e)])
            | (h, none) =>
                let sent := sent ++ [.stepDone "uninstall_remove_dir" "移除安装目录"]
                (h, sent ++ [ended none])
          else (h, sent ++ [ended none])

/-- `run_uninstall` of `silent.rs`: what it prints to the error stream, and how it ends. -/
def silentUninstall (purge : Bool) (a : CallerAnswers) (h : Host) :
    Host × List String × Except String String :=
  match stopService a.stop h.sys with
  | (sys, some e) => ({ h with sys }, [], .error e)
  | (sys, none) =>
      match uninstallCore lies display cfgPath purge a.core { h with sys } with
      | (h, .error e) => (h, [], .error e)
      | (h, .ok report) =>
          match scheduleRemoval a.spawnError h with
          | (h, some e) => (h, failedLines report, .error e)
          | (h, none) =>
              (h, failedLines report,
                .ok ("Uninstall complete (purge=" ++ toString purge ++ ")"))

variable {lies display cfgPath}

/-- The failed steps among what was sent, as `--silent` prints them. -/
def failedSent (events : List Ev) : List String :=
  events.filterMap fun
    | .stepFinished key _ outcome => failedLine key outcome
    | _ => none

theorem failedSent_append (xs ys : List Ev) :
    failedSent (xs ++ ys) = failedSent xs ++ failedSent ys :=
  List.filterMap_append

theorem failedSent_rows (report : UninstallReport) :
    failedSent (finishedRows report) = failedLines report := by
  unfold failedSent finishedRows failedLines
  rw [List.filterMap_append, List.filterMap_map, List.filterMap_map]
  rfl

theorem done_notMem_rows (report : UninstallReport) (result : Option String)
    (rollback : RollbackOutcome) : .done result rollback ∉ finishedRows report := by
  simp [finishedRows]

/-- One `Done` and no other, at the end. -/
theorem runUninstall_ends (purge removeDir : Bool) (a : CallerAnswers) (h : Host) :
    ∃ body result, (runUninstall lies display cfgPath purge removeDir a h).2 =
        body ++ [.done result .notNeeded] ∧
      ∀ result rollback, .done result rollback ∉ body := by
  unfold runUninstall
  dsimp only
  split
  · exact ⟨[_], _, rfl, by simp⟩
  · split
    · exact ⟨[_, _], _, rfl, by simp⟩
    · rename_i report _
      split
      · split
        · exact ⟨_, _, rfl, by simp [done_notMem_rows]⟩
        · exact ⟨_, _, rfl, by simp [done_notMem_rows]⟩
      · exact ⟨_, _, rfl, by simp [done_notMem_rows]⟩

end Callers

/-- **Window and script.** The worker of the window and the silent run leave the same
host behind, fail together with the same text, and tell of the same failed steps. The
installation directory is given up only when all went well, and then the service is
gone. -/
theorem uninstall_callers (lies : Path → String → Bool) (display : Path → String)
    (cfgPath : Path) (purge : Bool) (a : CallerAnswers) (h : Host) :
    ∃ body result,
      (runUninstall lies display cfgPath purge true a h).2 = body ++ [.done result .notNeeded] ∧
      (∀ result rollback, .done result rollback ∉ body) ∧
      (silentUninstall lies display cfgPath purge a h).1 =
        (runUninstall lies display cfgPath purge true a h).1 ∧
      (silentUninstall lies display cfgPath purge a h).2.1 = failedSent body ∧
      (∀ e, result = some e ↔
        (silentUninstall lies display cfgPath purge a h).2.2 = .error e) ∧
      (∀ e, result = some e →
        (runUninstall lies display cfgPath purge true a h).1.leaving = h.leaving) ∧
      (result = none → (runUninstall lies display cfgPath purge true a h).1.leaving = true ∧
        (runUninstall lies display cfgPath purge true a h).1.sys.service = none) := by
  unfold runUninstall silentUninstall
  rcases hstop : stopService a.stop h.sys with ⟨sys, _ | e⟩
  · dsimp only
    rcases hcore : uninstallCore lies display cfgPath purge a.core { h with sys } with
      ⟨h', e | report⟩
    · have hleaving := (@attempt_keeps lies display cfgPath { h with sys } ⟨purge, a.core⟩).2.2.1
      rw [attempt, hcore] at hleaving
      exact ⟨[.step "uninstall_stop_service" "停止服务",
        .stepDone "uninstall_stop_service" "停止服务"], some e, rfl, by simp, rfl, rfl, by simp,
        fun _ _ => hleaving, by simp⟩
    · have hleaving := (@attempt_keeps lies display cfgPath { h with sys } ⟨purge, a.core⟩).2.2.1
      have hclean : Clean lies (programDataDir cfgPath) purge report h' := by
        have := @attempt_clean lies display cfgPath { h with sys } ⟨purge, a.core⟩ report
        rw [attempt, hcore] at this
        exact this rfl
      rw [attempt, hcore] at hleaving
      have hlines (more : List Ev) (hmore : failedSent more = []) :
          failedLines report = failedSent ([.step "uninstall_stop_service" "停止服务",
            .stepDone "uninstall_stop_service" "停止服务"] ++ finishedRows report ++ more) := by
        rw [failedSent_append, failedSent_append, failedSent_rows, hmore, List.append_nil]
        rfl
      unfold scheduleRemoval
      cases a.spawnError with
      | some e =>
          refine ⟨_, _, rfl, ?_, rfl, hlines [.step _ _] rfl, by simp, fun _ _ => hleaving,
            by simp⟩
          simp [done_notMem_rows]
      | none =>
          refine ⟨_, _, rfl, ?_, rfl, ?_, by simp, by simp, fun _ => ⟨rfl, hclean.service⟩⟩
          · simp [done_notMem_rows]
          · refine (hlines [.step "uninstall_remove_dir" "移除安装目录",
              .stepDone "uninstall_remove_dir" "移除安装目录"] rfl).trans ?_
            simp
  · exact ⟨[.step "uninstall_stop_service" "停止服务"], some e, rfl, by simp, rfl, rfl,
      by simp, fun _ _ => rfl, by simp⟩

end GdutNet.Uninstall
