import GdutNet.Setup.Steps

/-!
# The install transaction

`run_install` of `transaction.rs` with `capture_prev_service` and
`rollback_install`. All that comes from outside is in `InstallAnswers`: any call
may fail, and a call that fails leaves anything in the place it writes.
-/

namespace GdutNet.Install

open Fallible

/-! ## Events -/

inductive RollbackOutcome where
  | notNeeded
  | restored
  | restoredUnknown
  | failed (failures : String)
deriving DecidableEq, Repr

inductive InstallEvent where
  | step (key label : String)
  | stepDone (key label : String)
  | done (result : Option String) (rollback : RollbackOutcome)
deriving DecidableEq, Repr

inductive PrevService where
  | none
  | known (command : String) (startType : StartType) (wasRunning : Bool)
  | unknown
deriving DecidableEq, Repr

/-- `unavailable` is a service manager that cannot be asked, or a service on its
way between running and stopped. -/
def capturePrevService (unavailable : Bool) (s : Sys) : PrevService :=
  if unavailable then .unknown
  else
    match s.service with
    | none => .none
    | some entry => .known entry.command entry.startType entry.running

/-! ## Preparation -/

structure PrepareRead where
  prevUnavailable : Bool := false
  /-- the bytes of the running installer -/
  exe : Except String (List UInt8)
  devPayload : Except String (List Payload.Entry)
  /-- the installer runs from where it would be installed -/
  sameFile : Bool := false
  installer : Except String (List UInt8)
  file : String → Option String := fun _ => Option.none
  core : CoreRead := {}
  shell : ShellRead := {}

structure Prepared where
  entries : List Payload.Entry
  files : FileBackup
  core : InstallBackup
  shell : ShellInstallBackup

section Transaction

variable (sha : List UInt8 → Payload.Digest) (env : Env)

def loadPayload (a : PrepareRead) : Except String (List Payload.Entry) := do
  let bytes ← a.exe
  match ← Payload.unpack sha env.debug bytes with
  | some entries => .ok entries
  | none => a.devPayload

def withInstaller (a : PrepareRead) (entries : List Payload.Entry) :
    Except String (List Payload.Entry) :=
  if a.sameFile then .ok entries
  else if entries.any fun e => e.name.toList.map Char.toLower = "gdut-net-setup.exe".toList then
    .error "Payload must not overwrite the installer"
  else
    match a.installer with
    | .error e => .error ("Failed to read installer: " ++ e)
    | .ok data => .ok (entries ++ [⟨"gdut-net-setup.exe", data⟩])

def prepare (prev : PrevService) (a : PrepareRead) (s : Sys) : Except String Prepared := do
  if prev = .unknown then
    .error "Cannot safely back up service state; retry when service status is available"
  let entries ← loadPayload sha env a
  if !entries.any fun e => e.name = "gdut-net.exe" then
    .error "Payload is missing gdut-net.exe"
  let entries ← withInstaller a entries
  let files ← FileBackup.capture a.file s.files (entries.map Payload.Entry.name)
  let core ← InstallBackup.capture env a.core s
  let shell ← ShellInstallBackup.capture a.shell s
  .ok ⟨entries, files, core, shell⟩

/-! ## The steps -/

structure Flags where
  stopped : Bool := false
  filesChanged : Bool := false
  coreChanged : Bool := false
  shellChanged : Bool := false
deriving DecidableEq, Repr

structure Progress where
  sys : Sys
  events : List InstallEvent := []
  flags : Flags := {}

structure Stage where
  key : String
  label : String
  mark : Flags → Flags := id
  op : Op Sys String

/-- `step`, the flag, the work, and `done` if it went well. -/
def Stage.perform (st : Stage) : Op Progress String :=
  fun p =>
    let events := p.events ++ [.step st.key st.label]
    let flags := st.mark p.flags
    match st.op p.sys with
    | (sys, none) => (⟨sys, events ++ [.stepDone st.key st.label], flags⟩, none)
    | (sys, some e) => (⟨sys, events, flags⟩, some e)

structure RollbackAnswers where
  stop : ServiceAnswer := {}
  files : String → FileAnswer := fun _ => {}
  core : CoreAnswer := {}
  previous : ServiceAnswer := {}
  delete : ServiceAnswer := {}
  start : ServiceAnswer := {}
  shell : ShellAnswer := {}

structure InstallAnswers where
  prepare : PrepareRead
  stop : ServiceAnswer := {}
  unpack : UnpackAnswer := {}
  core : CoreStepAnswer := {}
  shell : ShellStepAnswer := {}
  start : ServiceAnswer := {}
  rollback : RollbackAnswers := {}

def stages (req : InstallRequest) (entries : List Payload.Entry) (a : InstallAnswers) :
    List Stage :=
  [{ key := "stop_service", label := "停止旧服务"
     mark := fun flags => { flags with stopped := true }
     op := stopService a.stop },
    { key := "unpack", label := "解包文件"
      mark := fun flags => { flags with filesChanged := true }
      op := context (("Failed to unpack into " ++ env.installDir ++ ": ") ++ ·)
        (unpackFiles env.installDir entries a.unpack) },
    { key := "install_core", label := "写入配置并注册服务"
      mark := fun flags => { flags with coreChanged := true }
      op := installCore env req a.core },
    { key := "shell_integration", label := "创建开始菜单快捷方式"
      mark := fun flags => { flags with shellChanged := true }
      op := installShellIntegration env a.shell },
    { key := "start_service", label := "启动服务"
      op := startService a.start }]

/-! ## The way back -/

inductive RollbackCall where
  | stopService
  | restoreFiles
  | restoreCore
  | restorePrevious
  | deleteService
  | startService
  | restoreShell
deriving DecidableEq, Repr

/-- The system on the way back, and the calls made with their errors. -/
structure Rolled where
  sys : Sys
  log : List (RollbackCall × Option String) := []

def called (call : RollbackCall) (p : Op Sys String) : Op Rolled String :=
  fun r => (⟨(p r.sys).1, r.log ++ [(call, (p r.sys).2)]⟩, (p r.sys).2)

def calledIf (flag : Bool) (call : RollbackCall) (p : Op Sys String) : Op Rolled String :=
  if flag then called call p else skip

def rollbackInstall (prev : PrevService) (a : RollbackAnswers) : Op Rolled String :=
  match prev with
  | .unknown => context ("服务注册未改动，但启动失败：" ++ ·) (called .startService (startService a.start))
  | .none => called .deleteService (deleteService a.delete)
  | .known command startType wasRunning =>
      context ("Failed to restore previous service: " ++ ·)
        (run
          [called .restorePrevious (restorePreviousService command startType a.previous),
            calledIf wasRunning .startService (startService a.start)])

/-- What `rollback_install` answers when its calls succeed. -/
def PrevService.rolledBack : PrevService → RollbackOutcome
  | .unknown => .restoredUnknown
  | _ => .restored

def rollbackCalls (prev : PrevService) (prepared : Prepared) (flags : Flags)
    (a : RollbackAnswers) : List (Op Rolled String) :=
  [context ("Failed to stop service for rollback: " ++ ·)
      (called .stopService (stopService a.stop)),
    calledIf flags.filesChanged .restoreFiles (onFiles (prepared.files.restore a.files)),
    calledIf flags.coreChanged .restoreCore (prepared.core.restore env a.core),
    rollbackInstall prev a,
    calledIf flags.shellChanged .restoreShell (prepared.shell.restore a.shell)]

def rollBack (prev : PrevService) (prepared : Prepared) (p : Progress) (a : RollbackAnswers) :
    Rolled × RollbackOutcome :=
  match each (rollbackCalls env prev prepared p.flags a) ⟨p.sys, []⟩ with
  | (rolled, []) => (rolled, prev.rolledBack)
  | (rolled, failures) => (rolled, .failed (listed failures))

/-! ## The transaction -/

structure Report where
  sys : Sys
  events : List InstallEvent
  log : List (RollbackCall × Option String)

def runInstall (req : InstallRequest) (a : InstallAnswers) (s : Sys) : Report :=
  let prev := capturePrevService a.prepare.prevUnavailable s
  match prepare sha env prev a.prepare s with
  | .error e => ⟨s, [.done (some e) .notNeeded], []⟩
  | .ok prepared =>
      match run ((stages env req prepared.entries a).map Stage.perform) { sys := s } with
      | (p, none) => ⟨p.sys, p.events ++ [.done none .notNeeded], []⟩
      | (p, some e) =>
          if p.flags.stopped then
            let (rolled, outcome) := rollBack env prev prepared p a.rollback
            ⟨rolled.sys, p.events ++ [.done (some e) outcome], rolled.log⟩
          else ⟨p.sys, p.events ++ [.done (some e) .notNeeded], []⟩

end Transaction

/-! ## What is reported -/

def Paired (events : List InstallEvent) : Prop :=
  ∀ pre key label post, events = pre ++ .stepDone key label :: post →
    ∃ before, pre = before ++ [.step key label]

theorem Paired.concat {events : List InstallEvent} {event : InstallEvent} (h : Paired events)
    (hlast : ∀ key label, event = .stepDone key label →
      ∃ before, events = before ++ [.step key label]) : Paired (events ++ [event]) := by
  intro pre key label post heq
  rcases List.eq_nil_or_concat post with rfl | ⟨post, last, rfl⟩
  · obtain ⟨rfl, hevent⟩ := List.append_inj' heq rfl
    exact hlast key label (List.head_eq_of_cons_eq hevent)
  · rw [List.concat_eq_append, ← List.cons_append, ← List.append_assoc] at heq
    exact h pre key label post (List.append_inj_left' heq rfl)

/-! ## What is undone

The log of a rollback lists the calls in the order of `rank`, and holds an
error exactly if there is a failure. -/

def RollbackCall.rank : RollbackCall → ℕ
  | .stopService => 0
  | .restoreFiles => 1
  | .restoreCore => 2
  | .restorePrevious => 3
  | .deleteService => 4
  | .startService => 5
  | .restoreShell => 6

abbrev Log : Type := List (RollbackCall × Option String)

/-- What is added has its ranks from `lo` on and below `hi`. -/
def Extends (lo hi : ℕ) (ok : Prop) (log log' : Log) : Prop :=
  ∃ added, log' = log ++ added ∧ (ok ↔ ∀ c ∈ added, c.2 = none) ∧
    added.Pairwise (fun c c' => c.1.rank < c'.1.rank) ∧
    ∀ c ∈ added, lo ≤ c.1.rank ∧ c.1.rank < hi

section Log

variable {lo m hi : ℕ} {log log' log'' : Log}

theorem extends_refl {ok : Prop} (h : ok) : Extends lo hi ok log log :=
  ⟨[], by simp, by simpa using h, List.Pairwise.nil, by simp⟩

theorem Extends.mono {ok : Prop} {lo' hi' : ℕ} (h : Extends lo hi ok log log') (hlo : lo' ≤ lo)
    (hhi : hi ≤ hi') : Extends lo' hi' ok log log' := by
  obtain ⟨added, hlog, hok, hsorted, hrange⟩ := h
  refine ⟨added, hlog, hok, hsorted, fun c hc => ?_⟩
  have := hrange c hc
  exact ⟨hlo.trans this.1, this.2.trans_le hhi⟩

theorem Extends.trans {ok ok' both : Prop} (h : Extends lo m ok log log')
    (h' : Extends m hi ok' log' log'') (hle : lo ≤ m) (hle' : m ≤ hi)
    (hboth : both ↔ ok ∧ ok') : Extends lo hi both log log'' := by
  obtain ⟨added, rfl, hok, hsorted, hrange⟩ := h
  obtain ⟨added', rfl, hok', hsorted', hrange'⟩ := h'
  refine ⟨added ++ added', by rw [List.append_assoc], ?_, ?_, ?_⟩
  · rw [hboth, hok, hok', List.forall_mem_append]
  · refine List.pairwise_append.mpr ⟨hsorted, hsorted', fun c hc c' hc' => ?_⟩
    exact (hrange c hc).2.trans_le (hrange' c' hc').1
  · rw [List.forall_mem_append]
    refine ⟨fun c hc => ?_, fun c hc => ?_⟩
    · exact ⟨(hrange c hc).1, (hrange c hc).2.trans_le hle'⟩
    · exact ⟨hle.trans (hrange' c hc).1, (hrange' c hc).2⟩

theorem Extends.mem {ok : Prop} {c : RollbackCall × Option String}
    (h : Extends lo hi ok log log') (hc : c ∈ log) : c ∈ log' := by
  obtain ⟨added, rfl, -⟩ := h
  exact List.mem_append_left _ hc

def Logs (lo hi : ℕ) (p : Op Rolled String) : Prop :=
  ∀ r, Extends lo hi ((p r).2 = none) r.log (p r).1.log

theorem logs_called {call : RollbackCall} {p : Op Sys String} :
    Logs call.rank (call.rank + 1) (called call p) := by
  intro r
  refine ⟨[(call, (p r.sys).2)], rfl, ?_, List.pairwise_singleton _ _, ?_⟩
  · rw [List.forall_mem_singleton]
    rfl
  · rw [List.forall_mem_singleton]
    exact ⟨le_rfl, Nat.lt_succ_self _⟩

theorem logs_calledIf {flag : Bool} {call : RollbackCall} {p : Op Sys String} :
    Logs call.rank (call.rank + 1) (calledIf flag call p) := by
  unfold calledIf
  split
  · exact logs_called
  · exact fun _ => extends_refl rfl

theorem logs_context {text : String → String} {p : Op Rolled String} (h : Logs lo hi p) :
    Logs lo hi (context text p) := by
  intro r
  have := h r
  rwa [context, Option.map_eq_none_iff]

theorem Logs.mono {lo' hi' : ℕ} {p : Op Rolled String} (h : Logs lo hi p) (hlo : lo' ≤ lo)
    (hhi : hi ≤ hi') : Logs lo' hi' p := fun r => (h r).mono hlo hhi

theorem logs_run_pair {p q : Op Rolled String} (hp : Logs lo m p) (hq : Logs m hi q)
    (hle : lo ≤ m) (hle' : m ≤ hi) : Logs lo hi (run [p, q]) := by
  intro r
  have hfirst := hp r
  cases he : (p r).2 with
  | none =>
      rw [run_cons_of_none he, run_singleton]
      exact hfirst.trans (hq _) hle hle' (by simp [he])
  | some e =>
      rw [run_cons_of_some he]
      exact hfirst.mono le_rfl hle'

theorem logs_rollbackInstall {prev : PrevService} {a : RollbackAnswers} :
    Logs 3 6 (rollbackInstall prev a) := by
  cases prev with
  | none => exact logs_called.mono (by decide) (by decide)
  | unknown => exact logs_context (logs_called.mono (by decide) (by decide))
  | known command startType wasRunning =>
      refine logs_context (logs_run_pair (m := 4) logs_called ?_ (by decide) (by decide))
      exact logs_calledIf.mono (by decide) le_rfl

/-- The operations of a list log one after the other. -/
inductive LogsInTurn : ℕ → ℕ → List (Op Rolled String) → Prop
  | nil {lo hi : ℕ} (h : lo ≤ hi) : LogsInTurn lo hi []
  | cons {lo m hi : ℕ} {p : Op Rolled String} {ps : List (Op Rolled String)}
      (hp : Logs lo m p) (hle : lo ≤ m) (hps : LogsInTurn m hi ps) :
      LogsInTurn lo hi (p :: ps)

theorem LogsInTurn.le {ps : List (Op Rolled String)} (h : LogsInTurn lo hi ps) : lo ≤ hi := by
  induction h with
  | nil h => exact h
  | cons _ hle _ ih => exact hle.trans ih

theorem LogsInTurn.grows {ps : List (Op Rolled String)} {r : Rolled} (h : LogsInTurn lo hi ps) :
    Extends lo hi ((each ps r).2 = []) r.log (each ps r).1.log := by
  induction h generalizing r with
  | nil h => exact extends_refl rfl
  | cons hp hle hps ih =>
      rw [each]
      refine (hp r).trans ih hle hps.le ?_
      rw [List.append_eq_nil_iff, Option.toList_eq_nil_iff]

theorem LogsInTurn.present {ps : List (Op Rolled String)} {r : Rolled} {call : RollbackCall}
    {p : Op Sys String} (h : LogsInTurn lo hi ps) (hmem : called call p ∈ ps) :
    ∃ e, (call, e) ∈ (each ps r).1.log := by
  induction h generalizing r with
  | nil h => cases hmem
  | cons hp hle hps ih =>
      rw [each]
      rcases List.mem_cons.mp hmem with rfl | hmem
      · exact ⟨_, hps.grows.mem (List.mem_append_right _ (List.mem_singleton_self _))⟩
      · exact ih hmem

theorem logs_rollbackCalls {env : Env} {prev : PrevService} {prepared : Prepared} {flags : Flags}
    {a : RollbackAnswers} : LogsInTurn 0 7 (rollbackCalls env prev prepared flags a) :=
  .cons (m := 1) (logs_context logs_called) (by decide) <|
    .cons (m := 2) logs_calledIf (by decide) <|
      .cons (m := 3) logs_calledIf (by decide) <|
        .cons (m := 6) logs_rollbackInstall (by decide) <|
          .cons (m := 7) logs_calledIf (by decide) <| .nil le_rfl

end Log

/-! ## What has changed so far

A place differs from what was captured only after the flag of the backup that
has it was set. -/

structure Within (env : Env) (prepared : Prepared) (s₀ : Sys) (flags : Flags) (s : Sys) : Prop where
  files : ∀ name, s.files name = s₀.files name ∨
    flags.filesChanged = true ∧ name ∈ prepared.entries.map Payload.Entry.name
  data : ∀ path, s.data path = s₀.data path ∨
    flags.coreChanged = true ∧ path ∈ [env.configPath, prepared.core.cfg.dial.pbkPath]
  autostart : ∀ name, s.autostart name = s₀.autostart name ∨
    flags.coreChanged = true ∧ name = "gdut-net-tray"
  shortcuts : ∀ name, s.shortcuts name = s₀.shortcuts name ∨
    flags.shellChanged = true ∧ name ∈ shortcuts.map (fun x => lnk x.name)
  uninstall : ∀ name, s.uninstall name = s₀.uninstall name ∨
    flags.shellChanged = true ∧ name ∈ uninstallNames
  /-- a credential written is one of an entry, which is there -/
  credential : s.credential = s₀.credential ∨
    flags.coreChanged = true ∧ entryExists env prepared.core.cfg.dial s = true

section Within

variable {env : Env} {prepared : Prepared} {s₀ s : Sys} {flags : Flags}

theorem within_refl : Within env prepared s₀ flags s₀ where
  files _ := .inl rfl
  data _ := .inl rfl
  autostart _ := .inl rfl
  shortcuts _ := .inl rfl
  uninstall _ := .inl rfl
  credential := .inl rfl

theorem Within.mono {flags' : Flags} (h : Within env prepared s₀ flags s)
    (hfiles : flags.filesChanged = true → flags'.filesChanged = true)
    (hcore : flags.coreChanged = true → flags'.coreChanged = true)
    (hshell : flags.shellChanged = true → flags'.shellChanged = true) :
    Within env prepared s₀ flags' s where
  files name := (h.files name).imp_right (And.imp_left hfiles)
  data path := (h.data path).imp_right (And.imp_left hcore)
  autostart name := (h.autostart name).imp_right (And.imp_left hcore)
  shortcuts name := (h.shortcuts name).imp_right (And.imp_left hshell)
  uninstall name := (h.uninstall name).imp_right (And.imp_left hshell)
  credential := h.credential.imp_right (And.imp_left hcore)

theorem within_onService {p : Op (Option ServiceEntry) String}
    (h : Within env prepared s₀ flags s) : Within env prepared s₀ flags (onService p s).1 :=
  { h with }

theorem within_unpackFiles {dir : String} {a : UnpackAnswer} (h : Within env prepared s₀ flags s)
    (hflag : flags.filesChanged = true) :
    Within env prepared s₀ flags (unpackFiles dir prepared.entries a s).1 where
  files name := by
    by_cases hname : name ∈ prepared.entries.map Payload.Entry.name
    · exact .inr ⟨hflag, hname⟩
    · exact (h.files name).imp_left (keeps_unpackFiles hname s).trans
  data path :=
    (h.data path).imp_left
      (keeps_unpackFiles_rest (f := fun s => s.data path) (fun _ _ => rfl) s).trans
  autostart name :=
    (h.autostart name).imp_left
      (keeps_unpackFiles_rest (f := fun s => s.autostart name) (fun _ _ => rfl) s).trans
  shortcuts name :=
    (h.shortcuts name).imp_left
      (keeps_unpackFiles_rest (f := fun s => s.shortcuts name) (fun _ _ => rfl) s).trans
  uninstall name :=
    (h.uninstall name).imp_left
      (keeps_unpackFiles_rest (f := fun s => s.uninstall name) (fun _ _ => rfl) s).trans
  credential := by
    rw [keeps_unpackFiles_rest (f := Sys.credential) (fun _ _ => rfl) s,
      keeps_unpackFiles_rest (f := entryExists env prepared.core.cfg.dial) (fun _ _ => rfl) s]
    exact h.credential

/-- Where it writes, and nothing else. -/
theorem within_installShellIntegration {a : ShellStepAnswer} (h : Within env prepared s₀ flags s)
    (hflag : flags.shellChanged = true) :
    Within env prepared s₀ flags (installShellIntegration env a s).1 := by
  have hrest : ∀ {β : Type} {f : Sys → β}, (∀ s shortcuts, f { s with shortcuts } = f s) →
      (∀ s uninstall, f { s with uninstall } = f s) →
        f (installShellIntegration env a s).1 = f s := fun hshortcuts huninstall =>
    keeps_installShellIntegration env
      (fun x _ => keeps_context (keeps_on fun shortcuts s => hshortcuts s shortcuts))
      (fun v _ => keeps_on fun uninstall s => huninstall s uninstall) s
  refine ⟨fun name => ?_, fun path => ?_, fun name => ?_, fun name => ?_, fun name => ?_, ?_⟩
  · exact (h.files name).imp_left
      (hrest (f := fun s => s.files name) (fun _ _ => rfl) fun _ _ => rfl).trans
  · exact (h.data path).imp_left
      (hrest (f := fun s => s.data path) (fun _ _ => rfl) fun _ _ => rfl).trans
  · exact (h.autostart name).imp_left
      (hrest (f := fun s => s.autostart name) (fun _ _ => rfl) fun _ _ => rfl).trans
  · by_cases hname : name ∈ shortcuts.map (fun x => lnk x.name)
    · exact .inr ⟨hflag, hname⟩
    · have hkeeps : Keeps (fun s => s.shortcuts name) (installShellIntegration env a) := by
        refine keeps_installShellIntegration env (fun x hx => ?_) fun v _ => keeps_on fun _ _ => rfl
        refine keeps_context (keeps_on_part (keeps_place ?_) fun _ _ => rfl)
        rintro rfl
        exact hname (List.mem_map_of_mem hx)
      exact (h.shortcuts name).imp_left (hkeeps s).trans
  · by_cases hname : name ∈ uninstallNames
    · exact .inr ⟨hflag, hname⟩
    · have hkeeps : Keeps (fun s => s.uninstall name) (installShellIntegration env a) := by
        refine keeps_installShellIntegration env
          (fun x _ => keeps_context (keeps_on fun _ _ => rfl)) fun v hv => ?_
        refine keeps_on_part (keeps_place ?_) fun _ _ => rfl
        rintro rfl
        rw [← uninstallValues_names env] at hname
        exact hname (List.mem_map_of_mem hv)
      exact (h.uninstall name).imp_left (hkeeps s).trans
  · rw [hrest (f := Sys.credential) (fun _ _ => rfl) fun _ _ => rfl,
      hrest (f := entryExists env prepared.core.cfg.dial) (fun _ _ => rfl) fun _ _ => rfl]
    exact h.credential

/-- The phonebook or the configuration is written; the credential is still the old one. -/
theorem Within.onData {p : Op Files String} (h : Within env prepared s₀ flags s)
    (hflag : flags.coreChanged = true) (hcredential : s.credential = s₀.credential)
    (hp : ∀ path, path ∉ [env.configPath, prepared.core.cfg.dial.pbkPath] → Keeps (· path) p) :
    Within env prepared s₀ flags (onData p s).1 :=
  { h with
    data := by
      intro path
      by_cases hpath : path ∈ [env.configPath, prepared.core.cfg.dial.pbkPath]
      · exact .inr ⟨hflag, hpath⟩
      · have hkept : (Install.onData p s).1.data path = s.data path := hp path hpath s.data
        exact (h.data path).imp_left hkept.trans
    credential := .inl hcredential }

theorem within_setCredentials {dial : Dial} {user pass : String}
    {a : Answer (Option (String × String))} (h : Within env prepared s₀ flags s)
    (hflag : flags.coreChanged = true)
    (hdial : entryExists env dial = entryExists env prepared.core.cfg.dial) :
    Within env prepared s₀ flags (setCredentials env dial user pass a s).1 := by
  unfold setCredentials
  split
  · rename_i hentry
    rw [hdial] at hentry
    unfold write
    split
    · exact { h with credential := .inr ⟨hflag, hentry⟩ }
    · exact { h with credential := .inr ⟨hflag, hentry⟩ }
  · exact h

theorem within_registerAutostart {a : Answer (Option (ℕ × List UInt8))}
    (h : Within env prepared s₀ flags s) (hflag : flags.coreChanged = true) :
    Within env prepared s₀ flags (registerAutostart env a s).1 :=
  { h with
    autostart := by
      intro name
      by_cases hname : name = "gdut-net-tray"
      · exact .inr ⟨hflag, hname⟩
      · have hkept : (registerAutostart env a s).1.autostart name = s.autostart name :=
          keeps_place hname s.autostart
        exact (h.autostart name).imp_left hkept.trans }

/-- The credential is written last of what the backup of the core has, and only
for an entry that is there. -/
theorem within_installCore {req : InstallRequest} {a : CoreStepAnswer} {r : CoreRead}
    (hcapture : InstallBackup.capture env r s₀ = .ok prepared.core)
    (h : Within env prepared s₀ flags s) (hdata : s.data = s₀.data)
    (hcredential : s.credential = s₀.credential) (hflag : flags.coreChanged = true) :
    Within env prepared s₀ flags (installCore env req a s).1 := by
  unfold installCore
  split
  · exact h
  · rename_i cfg password hcfg
    obtain ⟨before, hbefore, hpath, hname⟩ := coreConfig_ok env hcfg
    obtain rfl := currentConfig_eq env (InstallBackup.capture_ok hcapture).1 hbefore hdata
    have hdial : entryExists env cfg.dial = entryExists env prepared.core.cfg.dial := by
      unfold entryExists
      rw [hpath, hname]
    let Old : Sys → Prop := fun s =>
      Within env prepared s₀ flags s ∧ s.credential = s₀.credential
    have hold : ∀ s, Old s → Within env prepared s₀ flags s := fun _ hs => hs.1
    refine Ensures.ends (I := Old) (E := Within env prepared s₀ flags) ?_ ⟨h, hcredential⟩
    have hsave : Ensures Old (onData (place env.configPath (some (env.toBytes cfg)) a.save)) Old
        (Within env prepared s₀ flags) := by
      refine ensures_weaken (ensures_same fun s hs => ⟨hs.1.onData hflag hs.2 ?_, hs.2⟩) hold
      intro path hnot
      refine keeps_place ?_
      rintro rfl
      exact hnot (by simp)
    have hentry : Ensures Old (ensureEntry cfg.dial a.entry) Old
        (Within env prepared s₀ flags) := by
      refine ensures_weaken (ensures_same fun s hs => ⟨hs.1.onData hflag hs.2 ?_, hs.2⟩) hold
      intro path hnot
      refine fun _ => setAt_ne ?_
      rintro rfl
      exact hnot (by simp [hpath])
    refine ensures_cons hsave (ensures_cons (ensures_weaken (ensures_same fun _ hs => hs) hold)
      (ensures_cons hentry (ensures_cons
        (ensures_same fun s hs => within_setCredentials hs.1 hflag hdial)
        (ensures_cons (ensures_same fun s hs => ?_)
          (ensures_cons (ensures_same fun s hs => within_registerAutostart hs hflag)
            (ensures_nil fun _ hs => hs))))))
    have hservice : Within env prepared s₀ flags
        (createService (env.commandLine (installExe env) ["--config", env.configPath, "run"])
          a.staysUp a.service s).1 := within_onService hs
    exact hservice

end Within

/-! ## The way forward -/

structure Underway (env : Env) (prepared : Prepared) (s₀ : Sys) (flags : Flags) (p : Progress) :
    Prop where
  flags_eq : p.flags = flags
  within : Within env prepared s₀ flags p.sys
  paired : Paired p.events
  not_done : ∀ result rollback, .done result rollback ∉ p.events
  unpack : ∀ label, .step "unpack" label ∈ p.events → flags.filesChanged = true
  core : ∀ label, .step "install_core" label ∈ p.events → flags.coreChanged = true

section Forward

variable {env : Env} {prepared : Prepared} {s₀ : Sys} {flags : Flags}

theorem Underway.perform {st : Stage}
    (hop : ∀ s, Within env prepared s₀ flags s →
      Within env prepared s₀ (st.mark flags) (st.op s).1)
    (hfiles : flags.filesChanged = true ∨ st.key = "unpack" →
      (st.mark flags).filesChanged = true)
    (hcore : flags.coreChanged = true ∨ st.key = "install_core" →
      (st.mark flags).coreChanged = true) :
    Ensures (Underway env prepared s₀ flags) st.perform
      (Underway env prepared s₀ (st.mark flags)) (Underway env prepared s₀ (st.mark flags)) := by
  refine ensures_same fun p hp => ?_
  have hwithin := hop p.sys hp.within
  have hbegun : Paired (p.events ++ [.step st.key st.label]) :=
    hp.paired.concat fun _ _ heq => by cases heq
  unfold Stage.perform
  split
  · rename_i s hs
    rw [hs] at hwithin
    refine ⟨by rw [← hp.flags_eq], hwithin, hbegun.concat ?_, fun result rollback => ?_,
      fun label hmem => hfiles ?_, fun label hmem => hcore ?_⟩
    · rintro key label ⟨⟩
      exact ⟨_, rfl⟩
    · simpa using hp.not_done result rollback
    · have := hp.unpack label
      simp only [List.mem_append, List.mem_singleton, reduceCtorEq, or_false] at hmem
      grind
    · have := hp.core label
      simp only [List.mem_append, List.mem_singleton, reduceCtorEq, or_false] at hmem
      grind
  · rename_i s e hs
    rw [hs] at hwithin
    refine ⟨by rw [← hp.flags_eq], hwithin, hbegun, fun result rollback => ?_,
      fun label hmem => hfiles ?_, fun label hmem => hcore ?_⟩
    · simpa using hp.not_done result rollback
    · have := hp.unpack label
      simp only [List.mem_append, List.mem_singleton] at hmem
      grind
    · have := hp.core label
      simp only [List.mem_append, List.mem_singleton] at hmem
      grind

theorem paired_nil : Paired [] := by
  intro pre key label post heq
  rw [List.nil_eq, List.append_eq_nil_iff] at heq
  cases heq.2

theorem underway_start : Underway env prepared s₀ {} { sys := s₀ } where
  flags_eq := rfl
  within := within_refl
  paired := paired_nil
  not_done _ _ hmem := by cases hmem
  unpack _ hmem := by cases hmem
  core _ hmem := by cases hmem

/-- Each stage sets its flag before it changes anything. -/
theorem underway_stages (req : InstallRequest) (a : InstallAnswers) {r : CoreRead}
    (hcapture : InstallBackup.capture env r s₀ = .ok prepared.core) :
    ∃ flags, flags.stopped = true ∧ Underway env prepared s₀ flags
      (run ((stages env req prepared.entries a).map Stage.perform) { sys := s₀ }).1 := by
  let End : Progress → Prop := fun p =>
    ∃ flags, flags.stopped = true ∧ Underway env prepared s₀ flags p
  have hend : ∀ flags : Flags, flags.stopped = true →
      ∀ p, Underway env prepared s₀ flags p → End p := fun flags hstopped p hp =>
    ⟨flags, hstopped, hp⟩
  refine Ensures.ends (I := Underway env prepared s₀ {}) (E := End) ?_ underway_start
  refine ensures_cons
    (ensures_weaken (Underway.perform (fun s hs => ?_) (by simp) (by simp)) (hend _ rfl)) <|
    ensures_cons
      (ensures_weaken (Underway.perform (fun s hs => ?_) (by simp) (by simp)) (hend _ rfl)) <|
      ensures_cons
        (ensures_weaken (Underway.perform (fun s hs => ?_) (by simp) (by simp)) (hend _ rfl)) <|
        ensures_cons
          (ensures_weaken (Underway.perform (fun s hs => ?_) (by simp) (by simp)) (hend _ rfl)) <|
          ensures_cons
            (ensures_weaken (Underway.perform (fun s hs => ?_) (by simp) (by simp))
              (hend _ rfl)) <|
            ensures_nil (hend _ rfl)
  · exact within_onService (hs.mono id id id)
  · have hmarked : Within env prepared s₀ ⟨true, true, false, false⟩ s :=
      hs.mono (fun _ => rfl) id id
    have hunpack : Within env prepared s₀ ⟨true, true, false, false⟩
        (unpackFiles env.installDir prepared.entries a.unpack s).1 :=
      within_unpackFiles hmarked rfl
    exact hunpack
  · have hdata : s.data = s₀.data := funext fun path => (hs.data path).resolve_right (by simp)
    have hcredential := hs.credential.resolve_right (by simp)
    exact within_installCore hcapture (hs.mono id (fun _ => rfl) id) hdata hcredential rfl
  · exact within_installShellIntegration (hs.mono id id fun _ => rfl) rfl
  · exact within_onService hs

end Forward

/-! ## The way back, call by call -/

section Back

variable {env : Env} {prev : PrevService} {prepared : Prepared} {s₀ s : Sys} {flags : Flags}
  {a : RollbackAnswers} {β : Type} {f : Sys → β} {c : β}

theorem keeps_called {call : RollbackCall} {p : Op Sys String} (h : Keeps f p) :
    Keeps (fun r => f r.sys) (called call p) := fun r => h r.sys

theorem keeps_calledIf {flag : Bool} {call : RollbackCall} {p : Op Sys String} (h : Keeps f p) :
    Keeps (fun r => f r.sys) (calledIf flag call p) := by
  unfold calledIf
  split
  · exact keeps_called h
  · exact keeps_skip

theorem gives_calledIf {flag : Bool} {call : RollbackCall} {p : Op Sys String} (hflag : flag = true)
    (h : Gives f c p) : Gives (fun r => f r.sys) c (calledIf flag call p) := by
  rw [calledIf, if_pos hflag]
  exact fun r hok => h r.sys hok

theorem settles_calledIf {flag : Bool} {call : RollbackCall} {p : Op Sys String}
    (h : Gives f c p ∨ Keeps f p) :
    Gives (fun r => f r.sys) c (calledIf flag call p) ∨
      Keeps (fun r => f r.sys) (calledIf flag call p) := by
  cases flag with
  | false => exact .inr keeps_skip
  | true => exact h.imp (gives_calledIf rfl) keeps_calledIf

theorem keeps_rollbackInstall (h : ∀ s service, f { s with service } = f s) :
    Keeps (fun r => f r.sys) (rollbackInstall prev a) := by
  cases prev with
  | none => exact keeps_called (keeps_onService h)
  | unknown => exact keeps_context (keeps_called (keeps_onService h))
  | known command startType wasRunning =>
      refine keeps_context (keeps_run ?_)
      simp only [List.forall_mem_cons]
      exact ⟨keeps_called (keeps_onService h), keeps_calledIf (keeps_onService h), by simp⟩

theorem files_mem_rollbackCalls : calledIf flags.filesChanged .restoreFiles
    (onFiles (prepared.files.restore a.files)) ∈ rollbackCalls env prev prepared flags a := by
  simp [rollbackCalls]

theorem core_mem_rollbackCalls : calledIf flags.coreChanged .restoreCore
    (prepared.core.restore env a.core) ∈ rollbackCalls env prev prepared flags a := by
  simp [rollbackCalls]

theorem shell_mem_rollbackCalls : calledIf flags.shellChanged .restoreShell
    (prepared.shell.restore a.shell) ∈ rollbackCalls env prev prepared flags a := by
  simp [rollbackCalls]

/-- A view not of the service, when no call fails: it is as it was, or one of
the restores that were called for brings it back. -/
theorem rollback_view (hservice : ∀ s service, f { s with service } = f s)
    (hfiles : Gives f c (onFiles (prepared.files.restore a.files)) ∨
      Keeps f (onFiles (prepared.files.restore a.files)))
    (hcore : Gives f c (prepared.core.restore env a.core) ∨
      Keeps f (prepared.core.restore env a.core))
    (hshell : Gives f c (prepared.shell.restore a.shell) ∨
      Keeps f (prepared.shell.restore a.shell))
    (hs : f s = c ∨ ∃ p ∈ rollbackCalls env prev prepared flags a, Gives (fun r => f r.sys) c p)
    (hok : (each (rollbackCalls env prev prepared flags a) ⟨s, []⟩).2 = []) :
    f (each (rollbackCalls env prev prepared flags a) ⟨s, []⟩).1.sys = c := by
  have hrun := each_run hok
  have hcalls : ∀ p ∈ rollbackCalls env prev prepared flags a,
      Gives (fun r => f r.sys) c p ∨ Keeps (fun r => f r.sys) p := by
    simp only [rollbackCalls, List.forall_mem_cons]
    exact ⟨.inr (keeps_context (keeps_called (keeps_onService hservice))), settles_calledIf hfiles,
      settles_calledIf hcore, .inr (keeps_rollbackInstall hservice), settles_calledIf hshell,
      by simp⟩
  have hend : f (run (rollbackCalls env prev prepared flags a) ⟨s, []⟩).1.sys = c := by
    rcases hs with hs | hgives
    · exact run_stays (f := fun r : Rolled => f r.sys) hcalls hs (by rw [hrun])
    · exact gives_run (f := fun r : Rolled => f r.sys) hcalls hgives ⟨s, []⟩ (by rw [hrun])
  rwa [hrun] at hend

/-! ### The backups -/

structure Captured (env : Env) (s₀ : Sys) (prepared : Prepared) : Prop where
  files : ∃ fault, FileBackup.capture fault s₀.files
    (prepared.entries.map Payload.Entry.name) = .ok prepared.files
  core : ∃ r, InstallBackup.capture env r s₀ = .ok prepared.core
  shell : ∃ r, ShellInstallBackup.capture r s₀ = .ok prepared.shell

theorem rollback_files (hcap : Captured env s₀ prepared) (hs : Within env prepared s₀ flags s)
    (hok : (each (rollbackCalls env prev prepared flags a) ⟨s, []⟩).2 = []) :
    (each (rollbackCalls env prev prepared flags a) ⟨s, []⟩).1.sys.files = s₀.files := by
  obtain ⟨_, hfiles⟩ := hcap.files
  have hgives : ∀ {name}, name ∈ prepared.entries.map Payload.Entry.name →
      Gives (fun s : Sys => s.files name) (s₀.files name)
        (onFiles (prepared.files.restore a.files)) := fun hname =>
    gives_on (FileBackup.restores hfiles a.files hname) fun _ _ => rfl
  funext name
  refine rollback_view (f := fun s => s.files name) (fun _ _ => rfl) ?_
    (.inr (InstallBackup.keeps (fun _ _ => rfl) (fun _ _ => rfl) fun _ _ => rfl))
    (.inr (ShellInstallBackup.keeps (fun _ _ => rfl) fun _ _ => rfl))
    ((hs.files name).imp_right fun h => ⟨_, files_mem_rollbackCalls,
      gives_calledIf h.1 (hgives h.2)⟩)
    hok
  by_cases hname : name ∈ prepared.entries.map Payload.Entry.name
  · exact .inl (hgives hname)
  · exact .inr (keeps_on_part (FileBackup.keeps hfiles a.files hname) fun _ _ => rfl)

theorem rollback_data (hcap : Captured env s₀ prepared) (hs : Within env prepared s₀ flags s)
    (hok : (each (rollbackCalls env prev prepared flags a) ⟨s, []⟩).2 = []) :
    (each (rollbackCalls env prev prepared flags a) ⟨s, []⟩).1.sys.data = s₀.data := by
  obtain ⟨_, hcore⟩ := hcap.core
  funext path
  refine rollback_view (f := fun s => s.data path) (fun _ _ => rfl)
    (.inr (keeps_on fun _ _ => rfl)) ?_
    (.inr (ShellInstallBackup.keeps (fun _ _ => rfl) fun _ _ => rfl))
    ((hs.data path).imp_right fun h => ⟨_, core_mem_rollbackCalls,
      gives_calledIf h.1 (InstallBackup.restores_data hcore h.2)⟩) hok
  by_cases hpath : path ∈ [env.configPath, prepared.core.cfg.dial.pbkPath]
  · exact .inl (InstallBackup.restores_data hcore hpath)
  · exact .inr (InstallBackup.keeps_data hcore hpath)

theorem rollback_autostart (hcap : Captured env s₀ prepared) (hs : Within env prepared s₀ flags s)
    (hok : (each (rollbackCalls env prev prepared flags a) ⟨s, []⟩).2 = []) :
    (each (rollbackCalls env prev prepared flags a) ⟨s, []⟩).1.sys.autostart = s₀.autostart := by
  obtain ⟨_, hcore⟩ := hcap.core
  funext name
  by_cases hname : name = "gdut-net-tray"
  · subst hname
    refine rollback_view (f := fun s => s.autostart "gdut-net-tray") (fun _ _ => rfl)
      (.inr (keeps_on fun _ _ => rfl)) (.inl (InstallBackup.restores_autostart hcore))
      (.inr (ShellInstallBackup.keeps (fun _ _ => rfl) fun _ _ => rfl))
      ((hs.autostart _).imp_right fun h => ⟨_, core_mem_rollbackCalls,
        gives_calledIf h.1 (InstallBackup.restores_autostart hcore)⟩) hok
  · exact rollback_view (f := fun s => s.autostart name) (fun _ _ => rfl)
      (.inr (keeps_on fun _ _ => rfl)) (.inr (InstallBackup.keeps_autostart hcore hname))
      (.inr (ShellInstallBackup.keeps (fun _ _ => rfl) fun _ _ => rfl))
      (.inl ((hs.autostart name).resolve_right fun h => hname h.2)) hok

theorem rollback_shortcuts (hcap : Captured env s₀ prepared) (hs : Within env prepared s₀ flags s)
    (hok : (each (rollbackCalls env prev prepared flags a) ⟨s, []⟩).2 = []) :
    (each (rollbackCalls env prev prepared flags a) ⟨s, []⟩).1.sys.shortcuts = s₀.shortcuts := by
  obtain ⟨_, hshell⟩ := hcap.shell
  funext name
  refine rollback_view (f := fun s => s.shortcuts name) (fun _ _ => rfl)
    (.inr (keeps_on fun _ _ => rfl))
    (.inr (InstallBackup.keeps (fun _ _ => rfl) (fun _ _ => rfl) fun _ _ => rfl)) ?_
    ((hs.shortcuts name).imp_right fun h => ⟨_, shell_mem_rollbackCalls,
      gives_calledIf h.1 (ShellInstallBackup.restores_shortcuts hshell h.2)⟩) hok
  by_cases hname : name ∈ shortcuts.map (fun x => lnk x.name)
  · exact .inl (ShellInstallBackup.restores_shortcuts hshell hname)
  · exact .inr (ShellInstallBackup.keeps_shortcuts hshell hname)

theorem rollback_uninstall (hcap : Captured env s₀ prepared) (hs : Within env prepared s₀ flags s)
    (hok : (each (rollbackCalls env prev prepared flags a) ⟨s, []⟩).2 = []) :
    (each (rollbackCalls env prev prepared flags a) ⟨s, []⟩).1.sys.uninstall = s₀.uninstall := by
  obtain ⟨_, hshell⟩ := hcap.shell
  funext name
  refine rollback_view (f := fun s => s.uninstall name) (fun _ _ => rfl)
    (.inr (keeps_on fun _ _ => rfl))
    (.inr (InstallBackup.keeps (fun _ _ => rfl) (fun _ _ => rfl) fun _ _ => rfl)) ?_
    ((hs.uninstall name).imp_right fun h => ⟨_, shell_mem_rollbackCalls,
      gives_calledIf h.1 (ShellInstallBackup.restores_uninstall hshell h.2)⟩) hok
  by_cases hname : name ∈ uninstallNames
  · exact .inl (ShellInstallBackup.restores_uninstall hshell hname)
  · exact .inr (ShellInstallBackup.keeps_uninstall hshell hname)

/-- The credential is cleared or set only by the backup of the core. -/
theorem rollback_credential (hcap : Captured env s₀ prepared) (hs : Within env prepared s₀ flags s)
    (hok : (each (rollbackCalls env prev prepared flags a) ⟨s, []⟩).2 = []) :
    (each (rollbackCalls env prev prepared flags a) ⟨s, []⟩).1.sys.credential = s₀.credential ∨
      (each (rollbackCalls env prev prepared flags a) ⟨s, []⟩).1.sys.credential =
        prepared.core.recorded := by
  obtain ⟨_, hcore⟩ := hcap.core
  have hrun := each_run hok
  let P : Option (String × String) × Bool → Prop := fun x =>
    x.1 = s₀.credential ∨ flags.coreChanged = true ∧ x.2 = true
  let view : Sys → Option (String × String) × Bool := fun s =>
    (s.credential, entryExists env prepared.core.cfg.dial s)
  let Q : Option (String × String) → Prop := fun c =>
    c = s₀.credential ∨ c = prepared.core.recorded
  have hfiles : Keeps view (onFiles (prepared.files.restore a.files)) := keeps_on fun _ _ => rfl
  have hback : Ensures (fun r : Rolled => P (view r.sys))
      (calledIf flags.coreChanged .restoreCore (prepared.core.restore env a.core))
      (fun r => Q r.sys.credential) (fun _ => True) := by
    refine ensures_succeeds fun r hr hdone => ?_
    unfold calledIf at hdone ⊢
    split at hdone
    · rename_i hflag
      rw [if_pos hflag]
      exact InstallBackup.restores_credential hcore (hr.imp_right And.right) hdone
    · rename_i hflag
      rw [if_neg hflag]
      exact .inl (hr.resolve_right fun h => hflag h.1)
  have hcalls : Ensures (fun r : Rolled => P (view r.sys))
      (run (rollbackCalls env prev prepared flags a)) (fun r => Q r.sys.credential)
      (fun _ => True) :=
    ensures_cons
      (ensures_keeps (f := fun r : Rolled => view r.sys)
        (keeps_context (keeps_called (keeps_onService fun _ _ => rfl))) P) <|
    ensures_cons
      (ensures_keeps (f := fun r : Rolled => view r.sys)
        (keeps_calledIf hfiles) P) <|
    ensures_cons hback <|
    ensures_cons
      (ensures_keeps (f := fun r : Rolled => r.sys.credential)
        (keeps_rollbackInstall fun _ _ => rfl) Q) <|
    ensures_cons
      (ensures_keeps (f := fun r : Rolled => r.sys.credential)
        (keeps_calledIf (ShellInstallBackup.keeps (fun _ _ => rfl) fun _ _ => rfl)) Q) <|
    ensures_nil fun _ h => h
  have hend := hcalls.succeeds (s := ⟨s, []⟩) hs.credential (by rw [hrun])
  rwa [hrun] at hend

/-- Command line, start type and running state are those it was given. -/
theorem rollbackInstall_known {command : String} {startType : StartType} {wasRunning : Bool}
    {r : Rolled} (hquiet : wasRunning = false → Quiet r.sys.service)
    (hok : (rollbackInstall (.known command startType wasRunning) a r).2 = none) :
    (rollbackInstall (.known command startType wasRunning) a r).1.sys.service =
      some ⟨command, startType, wasRunning⟩ := by
  have hrun := Option.map_eq_none_iff.mp hok
  obtain ⟨hprevious, heq⟩ := run_cons_none hrun
  obtain ⟨entry, hbefore, hafter⟩ := restorePreviousService_ok hprevious
  have hstate : (rollbackInstall (.known command startType wasRunning) a r).1 =
      (run [called .restorePrevious (restorePreviousService command startType a.previous),
        calledIf wasRunning .startService (startService a.start)] r).1 := rfl
  rw [heq, run_singleton] at hrun
  rw [hstate, heq, run_singleton]
  cases wasRunning with
  | true =>
      obtain ⟨entry', hbefore', hstarted⟩ := startService_ok hrun
      obtain rfl := Option.some.inj (hafter.symm.trans hbefore')
      exact hstarted
  | false =>
      have hstopped : entry.running = false := hquiet rfl entry hbefore
      refine hafter.trans ?_
      rw [hstopped]

/-- After it the service is as it was, if nothing runs that did not run before. -/
theorem rollbackInstall_ok {r : Rolled} (hquiet : Quiet s₀.service → Quiet r.sys.service)
    (hok : (rollbackInstall (capturePrevService false s₀) a r).2 = none) :
    (rollbackInstall (capturePrevService false s₀) a r).1.sys.service = s₀.service := by
  rcases hservice : s₀.service with _ | entry
  · have hprev : capturePrevService false s₀ = .none := by simp [capturePrevService, hservice]
    rw [hprev] at hok ⊢
    exact deleteService_ok (hquiet fun _ hmem => by rw [hservice] at hmem; cases hmem) hok
  · have hprev : capturePrevService false s₀ =
        .known entry.command entry.startType entry.running := by
      simp [capturePrevService, hservice]
    rw [hprev] at hok ⊢
    refine rollbackInstall_known (fun hstopped => hquiet fun entry' hmem => ?_) hok
    rw [hservice] at hmem
    rwa [← Option.some.inj hmem]

theorem rollback_service (hprev : prev = capturePrevService false s₀)
    (hopen : Quiet s₀.service → a.stop.openError = none)
    (hok : (each (rollbackCalls env prev prepared flags a) ⟨s, []⟩).2 = []) :
    (each (rollbackCalls env prev prepared flags a) ⟨s, []⟩).1.sys.service = s₀.service := by
  have hrun := each_run hok
  let P : Option ServiceEntry → Prop := fun service => Quiet s₀.service → Quiet service
  have hfiles : Keeps Sys.service (onFiles (prepared.files.restore a.files)) :=
    keeps_on fun _ _ => rfl
  have hcalls : Ensures (fun _ : Rolled => True) (run (rollbackCalls env prev prepared flags a))
      (fun r => r.sys.service = s₀.service) (fun _ => True) :=
    ensures_cons
      (ensures_succeeds (J := fun r => P r.sys.service) fun r _ hdone hquiet =>
        stopService_ok (hopen hquiet) (Option.map_eq_none_iff.mp hdone)) <|
    ensures_cons
      (ensures_keeps (f := fun r : Rolled => r.sys.service)
        (keeps_calledIf hfiles) P) <|
    ensures_cons
      (ensures_keeps (f := fun r : Rolled => r.sys.service)
        (keeps_calledIf (InstallBackup.keeps (fun _ _ => rfl) (fun _ _ => rfl) fun _ _ => rfl))
        P) <|
    ensures_cons
      (ensures_succeeds (J := fun r => r.sys.service = s₀.service) fun r hr hdone => by
        subst hprev
        exact rollbackInstall_ok hr hdone) <|
    ensures_cons
      (ensures_keeps (f := fun r : Rolled => r.sys.service)
        (keeps_calledIf (ShellInstallBackup.keeps (fun _ _ => rfl) fun _ _ => rfl))
        (· = s₀.service)) <|
    ensures_nil fun _ h => h
  have hend := hcalls.succeeds (s := ⟨s, []⟩) trivial (by rw [hrun])
  rwa [hrun] at hend

/-! ### All of it -/

/-- What a rollback that reports no failure leaves. -/
structure AsBefore (prepared : Prepared) (a : RollbackAnswers) (s s' : Sys) : Prop where
  files : s'.files = s.files
  data : s'.data = s.data
  autostart : s'.autostart = s.autostart
  shortcuts : s'.shortcuts = s.shortcuts
  uninstall : s'.uninstall = s.uninstall
  credential : s'.credential = s.credential ∨ s'.credential = prepared.core.recorded
  /-- unless a service that did not run before could not be opened to stop it -/
  service : (Quiet s.service → a.stop.openError = none) → s'.service = s.service

theorem rollBack_log {p : Progress} :
    (rollBack env prev prepared p a).1 =
      (each (rollbackCalls env prev prepared p.flags a) ⟨p.sys, []⟩).1 := by
  unfold rollBack
  split
  · rename_i heach
    rw [heach]
  · rename_i heach
    rw [heach]

theorem rollBack_failed_iff {p : Progress} :
    (∃ text, (rollBack env prev prepared p a).2 = .failed text) ↔
      (each (rollbackCalls env prev prepared p.flags a) ⟨p.sys, []⟩).2 ≠ [] := by
  unfold rollBack
  rcases each (rollbackCalls env prev prepared p.flags a) ⟨p.sys, []⟩ with ⟨rolled, _ | ⟨e, es⟩⟩
  · cases prev <;> simp [PrevService.rolledBack]
  · simp

theorem rollBack_honest {p : Progress} :
    (∃ text, (rollBack env prev prepared p a).2 = .failed text) ↔
      ∃ call text, (call, some text) ∈ (rollBack env prev prepared p a).1.log := by
  have hlogs : LogsInTurn 0 7 (rollbackCalls env prev prepared p.flags a) := logs_rollbackCalls
  obtain ⟨added, hlog, hnone, -⟩ := hlogs.grows (r := ⟨p.sys, []⟩)
  rw [rollBack_failed_iff, rollBack_log, hlog, List.nil_append, ne_eq, hnone]
  push Not
  constructor
  · rintro ⟨⟨call, e⟩, hmem, hne⟩
    obtain ⟨text, rfl⟩ := Option.ne_none_iff_exists'.mp hne
    exact ⟨call, text, hmem⟩
  · rintro ⟨call, text, hmem⟩
    exact ⟨_, hmem, by simp⟩

theorem rollBack_restores {p : Progress} (hprev : prev = capturePrevService false s₀)
    (hcap : Captured env s₀ prepared) (hp : Underway env prepared s₀ flags p)
    (hok : ∀ text, (rollBack env prev prepared p a).2 ≠ .failed text) :
    AsBefore prepared a s₀ (rollBack env prev prepared p a).1.sys := by
  have hnone : (each (rollbackCalls env prev prepared p.flags a) ⟨p.sys, []⟩).2 = [] := by
    by_contra hne
    obtain ⟨text, htext⟩ := rollBack_failed_iff.mpr hne
    exact hok text htext
  have hwithin : Within env prepared s₀ p.flags p.sys := hp.flags_eq ▸ hp.within
  rw [rollBack_log]
  exact ⟨rollback_files hcap hwithin hnone, rollback_data hcap hwithin hnone,
    rollback_autostart hcap hwithin hnone, rollback_shortcuts hcap hwithin hnone,
    rollback_uninstall hcap hwithin hnone, rollback_credential hcap hwithin hnone,
    fun hopen => rollback_service hprev hopen hnone⟩

/-- The service is started after every restore of files and core there is. -/
theorem rollBack_starts_last {p : Progress} {before after : Log} {e : Option String}
    (h : (rollBack env prev prepared p a).1.log = before ++ (.startService, e) :: after) :
    (∀ c ∈ after, c.1 ≠ .restoreFiles ∧ c.1 ≠ .restoreCore) ∧
    (p.flags.filesChanged = true → ∃ e, (.restoreFiles, e) ∈ before) ∧
    (p.flags.coreChanged = true → ∃ e, (.restoreCore, e) ∈ before) := by
  rw [rollBack_log] at h
  have hlogs : LogsInTurn 0 7 (rollbackCalls env prev prepared p.flags a) := logs_rollbackCalls
  obtain ⟨added, hlog, -, hsorted, -⟩ := hlogs.grows (r := ⟨p.sys, []⟩)
  rw [hlog, List.nil_append] at h
  rw [h, List.pairwise_append, List.pairwise_cons] at hsorted
  have hafter : ∀ c ∈ after, 5 < c.1.rank := hsorted.2.1.1
  have hbefore : ∀ {call : RollbackCall} {e' : Option String}, call.rank < 5 →
      (call, e') ∈ (each (rollbackCalls env prev prepared p.flags a) ⟨p.sys, []⟩).1.log →
        (call, e') ∈ before := by
    intro call e' hrank hmem
    rw [hlog, List.nil_append, h] at hmem
    rcases List.mem_append.mp hmem with hmem | hmem
    · exact hmem
    · rcases List.mem_cons.mp hmem with heq | hmem
      · obtain ⟨rfl, -⟩ := Prod.mk.inj heq
        exact absurd hrank (by decide)
      · exact absurd (hafter _ hmem) (by simpa using hrank.le)
  refine ⟨fun c hc => ?_, fun hflag => ?_, fun hflag => ?_⟩
  · have := hafter c hc
    refine ⟨fun heq => ?_, fun heq => ?_⟩
    · rw [heq] at this
      exact absurd this (by decide)
    · rw [heq] at this
      exact absurd this (by decide)
  · have hmem : called .restoreFiles (onFiles (prepared.files.restore a.files)) ∈
        rollbackCalls env prev prepared p.flags a := by simp [rollbackCalls, calledIf, hflag]
    obtain ⟨e', he'⟩ := hlogs.present (r := ⟨p.sys, []⟩) hmem
    exact ⟨e', hbefore (by decide) he'⟩
  · have hmem : called .restoreCore (prepared.core.restore env a.core) ∈
        rollbackCalls env prev prepared p.flags a := by simp [rollbackCalls, calledIf, hflag]
    obtain ⟨e', he'⟩ := hlogs.present (r := ⟨p.sys, []⟩) hmem
    exact ⟨e', hbefore (by decide) he'⟩

end Back

/-! ## The run -/

section Run

variable {sha : List UInt8 → Payload.Digest} {env : Env} {req : InstallRequest}
  {a : InstallAnswers} {s : Sys} {prepared : Prepared}

theorem prepare_ok {prev : PrevService} {r : PrepareRead}
    (h : prepare sha env prev r s = .ok prepared) : prev ≠ .unknown ∧ Captured env s prepared := by
  unfold prepare at h
  split at h
  · cases h
  · rename_i hprev
    obtain ⟨payload, -, h⟩ := bind_ok h
    dsimp only at h
    split at h
    · cases h
    · obtain ⟨entries, -, h⟩ := bind_ok h
      obtain ⟨files, hfiles, h⟩ := bind_ok h
      obtain ⟨core, hcore, h⟩ := bind_ok h
      obtain ⟨shell, hshell, h⟩ := bind_ok h
      obtain rfl := Except.ok.inj h
      exact ⟨hprev, ⟨_, hfiles⟩, ⟨_, hcore⟩, _, hshell⟩

theorem prepare_ok_prev
    (h : prepare sha env (capturePrevService a.prepare.prevUnavailable s) a.prepare s =
      .ok prepared) :
    capturePrevService a.prepare.prevUnavailable s = capturePrevService false s := by
  have hknown := (prepare_ok h).1
  cases hprev : a.prepare.prevUnavailable with
  | false => rfl
  | true => simp [capturePrevService, hprev] at hknown

theorem runInstall_unprepared {e : String}
    (h : prepare sha env (capturePrevService a.prepare.prevUnavailable s) a.prepare s = .error e) :
    runInstall sha env req a s = ⟨s, [.done (some e) .notNeeded], []⟩ := by
  rw [runInstall, h]

/-- A prepared run ends well, or goes back from where it stopped. -/
theorem runInstall_prepared (req : InstallRequest)
    (h : prepare sha env (capturePrevService a.prepare.prevUnavailable s) a.prepare s =
      .ok prepared) :
    ∃ flags p, Underway env prepared s flags p ∧
      (runInstall sha env req a s = ⟨p.sys, p.events ++ [.done none .notNeeded], []⟩ ∨
        ∃ e, runInstall sha env req a s =
          ⟨(rollBack env (capturePrevService false s) prepared p a.rollback).1.sys,
            p.events ++ [.done (some e)
              (rollBack env (capturePrevService false s) prepared p a.rollback).2],
            (rollBack env (capturePrevService false s) prepared p a.rollback).1.log⟩) := by
  obtain ⟨-, -, ⟨_, hcore⟩, -⟩ := prepare_ok h
  obtain ⟨flags, hstopped, hp⟩ := underway_stages req a hcore
  rw [runInstall, h]
  dsimp only
  rw [prepare_ok_prev h]
  rcases hrun : run ((stages env req prepared.entries a).map Stage.perform) { sys := s } with
    ⟨p, _ | e⟩
  · rw [hrun] at hp
    exact ⟨flags, p, hp, .inl rfl⟩
  · rw [hrun] at hp
    refine ⟨flags, p, hp, .inr ⟨e, ?_⟩⟩
    dsimp only
    rw [if_pos (hp.flags_eq ▸ hstopped)]

/-- One `Done` and no other. -/
theorem done_mem_concat {events : List InstallEvent} {result result' : Option String}
    {rollback rollback' : RollbackOutcome}
    (hevents : ∀ result rollback, .done result rollback ∉ events)
    (h : .done result rollback ∈ events ++ [.done result' rollback']) :
    result = result' ∧ rollback = rollback' := by
  rcases List.mem_append.mp h with hmem | hmem
  · exact absurd hmem (hevents result rollback)
  · exact InstallEvent.done.inj (List.mem_singleton.mp hmem)

/-- The installation is all or nothing, as far as its rollback does not report
a failure, and what it reports is so. -/
theorem install_transaction (sha : List UInt8 → Payload.Digest) (env : Env) (req : InstallRequest)
    (a : InstallAnswers) (s : Sys) :
    let r := runInstall sha env req a s
    let prepared := prepare sha env (capturePrevService a.prepare.prevUnavailable s) a.prepare s
    (∃ events result rollback, r.events = events ++ [.done result rollback] ∧
      ∀ result' rollback', .done result' rollback' ∉ events) ∧
    Paired r.events ∧
    (∀ e, prepared = .error e →
      r.sys = s ∧ r.events = [.done (some e) .notNeeded] ∧ r.log = []) ∧
    (∀ rollback, .done none rollback ∈ r.events → rollback = .notNeeded ∧ r.log = []) ∧
    (∀ p, prepared = .ok p → ∀ e rollback, .done (some e) rollback ∈ r.events →
      ((∃ text, rollback = .failed text) ↔ ∃ call text, (call, some text) ∈ r.log) ∧
      ((∀ text, rollback ≠ .failed text) → AsBefore p a.rollback s r.sys)) ∧
    ∀ before e after, r.log = before ++ (.startService, e) :: after →
      (∀ c ∈ after, c.1 ≠ .restoreFiles ∧ c.1 ≠ .restoreCore) ∧
      (∀ label, .step "unpack" label ∈ r.events → ∃ e, (.restoreFiles, e) ∈ before) ∧
      ∀ label, .step "install_core" label ∈ r.events → ∃ e, (.restoreCore, e) ∈ before := by
  dsimp only
  rcases hprepared : prepare sha env (capturePrevService a.prepare.prevUnavailable s) a.prepare s
    with e | p
  · rw [runInstall_unprepared hprepared]
    refine ⟨⟨[], _, _, rfl, by simp⟩, ?_, ?_, ?_, by simp, ?_⟩
    · exact paired_nil.concat fun _ _ heq => by cases heq
    · rintro _ ⟨⟩
      exact ⟨rfl, rfl, rfl⟩
    · simp
    · simp
  · obtain ⟨flags, q, hq, hend⟩ := runInstall_prepared req hprepared
    have hpaired : ∀ result rollback, Paired (q.events ++ [.done result rollback]) :=
      fun result rollback => hq.paired.concat fun _ _ heq => by cases heq
    rcases hend with hend | ⟨e, hend⟩
    · rw [hend]
      refine ⟨⟨_, _, _, rfl, hq.not_done⟩, hpaired _ _, by simp, ?_, ?_, by simp⟩
      · intro rollback hmem
        exact ⟨(done_mem_concat hq.not_done hmem).2, rfl⟩
      · intro _ _ e rollback hmem
        cases (done_mem_concat hq.not_done hmem).1
    · rw [hend]
      refine ⟨⟨_, _, _, rfl, hq.not_done⟩, hpaired _ _, by simp, ?_, ?_, ?_⟩
      · intro rollback hmem
        cases (done_mem_concat hq.not_done hmem).1
      · rintro _ ⟨⟩ e' rollback hmem
        obtain ⟨-, rfl⟩ := done_mem_concat hq.not_done hmem
        exact ⟨rollBack_honest,
          rollBack_restores rfl (prepare_ok hprepared).2 hq⟩
      · intro before e' after hlog
        obtain ⟨hafter, hfiles, hcore⟩ := rollBack_starts_last hlog
        refine ⟨hafter, fun label hmem => hfiles ?_, fun label hmem => hcore ?_⟩
        · rw [hq.flags_eq]
          exact hq.unpack label (by simpa using hmem)
        · rw [hq.flags_eq]
          exact hq.core label (by simpa using hmem)

end Run

/-! ## Two runs -/

def plainEnv : Env where
  configPath := "config.toml"
  installDir := "gdut-net"
  packageVersion := "1.0.0"
  debug := id
  parse _ := .error "unread"
  toBytes _ := []
  protect password := .ok password
  unprotect blob := .ok blob
  hasEntry _ _ := true
  link _ _ := []
  commandLine program _ := program

/-- A development build that carries all targets of the shortcuts. -/
def plainPrepare : PrepareRead where
  exe := .ok []
  devPayload := .ok (("gdut-net-setup.exe" :: shortcuts.map Shortcut.target).map (⟨·, []⟩))
  sameFile := true
  installer := .error "unread"

def installed (service : ServiceEntry) : Sys where
  files _ := none
  data _ := none
  credential := none
  autostart _ := none
  shortcuts _ := none
  uninstall _ := none
  service := some service

/-- The old service does not stop. -/
def stopFails : InstallAnswers where
  prepare := plainPrepare
  stop := { ends := ⟨some "Service did not stop within 16s", some ⟨"old.exe", .auto, true⟩⟩ }

/-- The new service starts and its start is reported as failed; then it cannot
be opened to stop it. -/
def startFails : InstallAnswers where
  prepare := plainPrepare
  core := { entry := ⟨none, some []⟩ }
  start := { ends := ⟨some "timed out", some ⟨"gdut-net\\gdut-net.exe", .auto, true⟩⟩ }
  rollback := { stop := { openError := some "access denied" } }

def plainRequest : InstallRequest := ⟨"3122000000", some "secret"⟩

def plainSha (_ : List UInt8) : Payload.Digest := ⟨List.replicate 32 0, rfl⟩

/-- With nothing unpacked the service is started and no restore attempted; and
a service that did not run before runs after a rollback without a failure. -/
theorem rollback_starts_and_leaves :
    (runInstall plainSha plainEnv plainRequest stopFails (installed ⟨"old.exe", .auto, true⟩)).log =
      [(.stopService, none), (.restorePrevious, none), (.startService, none)] ∧
    (let s := installed ⟨"old.exe", .onDemand, false⟩
      let r := runInstall plainSha plainEnv plainRequest startFails s
      InstallEvent.done (some "timed out") .restored ∈ r.events ∧ (∀ c ∈ r.log, c.2 = none) ∧
      r.sys.service = some ⟨"old.exe", .onDemand, true⟩ ∧
      s.service = some ⟨"old.exe", .onDemand, false⟩) := by
  decide +kernel

end GdutNet.Install
