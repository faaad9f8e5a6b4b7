import GdutNet.Config
import GdutNet.Machine.Fallible
import Mathlib.Logic.Function.Basic

/-!
# Backups of the installer

`file_backup.rs`, `registry_backup.rs` and the two backups made of them:
`service::InstallBackup` and `shell::ShellInstallBackup`. `Sys` is what an
installation changes and a rollback has to put back. Every call to the outside
may fail; what it then leaves in the one place it writes is any value.
-/

namespace GdutNet.Install

open Fallible

/-- How a call ends, with the text of its error. -/
abbrev Answer (α : Type) : Type := Ends α String

instance {α : Type} [Inhabited α] : Inhabited (Answer α) := ⟨⟨none, default⟩⟩

def listed (failures : List String) : String := "; ".intercalate failures

/-! ## Places

File contents by path, and the values of one registry key by name. -/

section Places

variable {α : Type}

abbrev Places (α : Type) : Type := String → Option α

abbrev Files : Type := Places (List UInt8)

abbrev Values : Type := Places (ℕ × List UInt8)

def setAt (key : String) (content : Option α) (s : Places α) : Places α :=
  Function.update s key content

theorem setAt_ne {key key' : String} {content : Option α} {s : Places α} (h : key' ≠ key) :
    setAt key content s key' = s key' := by
  rw [setAt, Function.update_of_ne h]

theorem setAt_self {key : String} {content : Option α} {s : Places α} :
    setAt key content s key = content := by
  rw [setAt, Function.update_self]

/-- A call that writes, or removes, what is in one place. -/
def place (key : String) (content : Option α) (a : Answer (Option α)) : Op (Places α) String :=
  write (setAt key) content a

theorem keeps_place {key key' : String} {content : Option α} {a : Answer (Option α)}
    (h : key' ≠ key) : Keeps (· key') (place key content a) :=
  keeps_write fun _ _ => setAt_ne h

theorem gives_place {key : String} {content : Option α} {a : Answer (Option α)} :
    Gives (· key) content (place key content a) :=
  gives_write fun _ => setAt_self

/-- A list of what stood in some places, and operations that put it back. -/
theorem gives_back {ps : List (String × Option α)} {s₀ : Places α}
    {op : String × Option α → Op (Places α) String} {join : List String → String} {key : String}
    (hvalues : ∀ f ∈ ps, f.2 = s₀ f.1) (hgives : ∀ f, Gives (· f.1) f.2 (op f))
    (hkeeps : ∀ f key, key ≠ f.1 → Keeps (· key) (op f)) (hkey : key ∈ ps.map Prod.fst) :
    Gives (· key) (s₀ key) (tryAll join (ps.map op)) := by
  refine gives_tryAll ?_ ?_
  · intro p hp
    obtain ⟨f, hf, rfl⟩ := List.mem_map.mp hp
    by_cases hsame : key = f.1
    · subst hsame
      exact .inl (hvalues f hf ▸ hgives f)
    · exact .inr (hkeeps f key hsame)
  · obtain ⟨f, hf, rfl⟩ := List.mem_map.mp hkey
    exact ⟨_, List.mem_map_of_mem hf, hvalues f hf ▸ hgives f⟩

theorem keeps_back {ps : List (String × Option α)} {op : String × Option α → Op (Places α) String}
    {join : List String → String} {key : String}
    (hkeeps : ∀ f key, key ≠ f.1 → Keeps (· key) (op f)) (hkey : key ∉ ps.map Prod.fst) :
    Keeps (· key) (tryAll join (ps.map op)) := by
  refine keeps_tryAll fun p hp => ?_
  obtain ⟨f, hf, rfl⟩ := List.mem_map.mp hp
  refine hkeeps f key ?_
  rintro rfl
  exact hkey (List.mem_map_of_mem hf)

end Places

/-! ## Files -/

structure FileBackup where
  files : List (String × Option (List UInt8))

/-- How one file of a backup answers. -/
structure FileAnswer where
  unreadable : Bool := false
  ends : Answer (Option (List UInt8)) := default

def captureFrom (fault : String → Option String) (s : Files)
    (files : List (String × Option (List UInt8))) : List String → Except String FileBackup
  | [] => .ok ⟨files⟩
  | path :: paths =>
      if files.any (·.1 = path) then captureFrom fault s files paths
      else
        match fault path with
        | some e => .error ("Failed to back up " ++ path ++ ": " ++ e)
        | none => captureFrom fault s (files ++ [(path, s path)]) paths

def FileBackup.capture (fault : String → Option String) (s : Files) (paths : List String) :
    Except String FileBackup :=
  captureFrom fault s [] paths

def restoreFile (path : String) (before : Option (List UInt8)) (a : FileAnswer) :
    Op Files String :=
  match before with
  | some bytes =>
      fun s =>
        if !a.unreadable && s path = some bytes then (s, none)
        else
          context ("Failed to restore original bytes: " ++ ·) (place path (some bytes) a.ends) s
  | none => context ("Failed to remove newly installed file: " ++ ·) (place path none a.ends)

def FileBackup.restore (b : FileBackup) (answers : String → FileAnswer) : Op Files String :=
  tryAll (fun failures => "File rollback failed: " ++ listed failures)
    (b.files.reverse.map (fun f =>
      context (f.1 ++ ": " ++ ·) (restoreFile f.1 f.2 (answers f.1))))

theorem keeps_restoreFile {path path' : String} {before : Option (List UInt8)} {a : FileAnswer}
    (h : path' ≠ path) : Keeps (· path') (restoreFile path before a) := by
  intro s
  unfold restoreFile
  split
  · dsimp only
    split
    · rfl
    · exact keeps_place h s
  · exact keeps_place h s

theorem gives_restoreFile {path : String} {before : Option (List UInt8)} {a : FileAnswer} :
    Gives (· path) before (restoreFile path before a) := by
  intro s hok
  unfold restoreFile at hok ⊢
  split
  · dsimp only at hok ⊢
    split
    · rename_i hsame
      simp only [Bool.and_eq_true, decide_eq_true_eq] at hsame
      exact hsame.2
    · rename_i hsame
      rw [if_neg hsame] at hok
      exact gives_context gives_place s hok
  · exact gives_context gives_place s hok

/-- What is recorded of a path is what stood there. -/
theorem captureFrom_ok {fault : String → Option String} {s : Files}
    {files : List (String × Option (List UInt8))} {paths : List String} {b : FileBackup}
    (h : captureFrom fault s files paths = .ok b) (hfiles : ∀ f ∈ files, f.2 = s f.1) :
    (∀ f ∈ b.files, f.2 = s f.1) ∧
      ∀ path, path ∈ b.files.map Prod.fst ↔ path ∈ files.map Prod.fst ∨ path ∈ paths := by
  induction paths generalizing files with
  | nil =>
      obtain rfl := Except.ok.inj h
      exact ⟨hfiles, fun path => by simp⟩
  | cons path paths ih =>
      unfold captureFrom at h
      split at h
      · rename_i hany
        obtain ⟨hvalues, hpaths⟩ := ih h hfiles
        refine ⟨hvalues, fun path' => (hpaths path').trans ?_⟩
        obtain ⟨f, hf, hpath⟩ := List.any_eq_true.mp hany
        have hin : path ∈ files.map Prod.fst :=
          List.mem_map.mpr ⟨f, hf, of_decide_eq_true hpath⟩
        rw [List.mem_cons]
        grind
      · split at h
        · cases h
        · obtain ⟨hvalues, hpaths⟩ := ih h (by
            intro f hf
            rcases List.mem_append.mp hf with hf | hf
            · exact hfiles f hf
            · rw [List.mem_singleton.mp hf])
          refine ⟨hvalues, fun path' => (hpaths path').trans ?_⟩
          simp [or_assoc]

theorem FileBackup.restores {fault : String → Option String} {s₀ : Files} {paths : List String}
    {b : FileBackup} (h : FileBackup.capture fault s₀ paths = .ok b)
    (answers : String → FileAnswer) {path : String} (hpath : path ∈ paths) :
    Gives (· path) (s₀ path) (b.restore answers) := by
  obtain ⟨hvalues, hpaths⟩ := captureFrom_ok h (by simp)
  refine gives_back (fun f hf => hvalues f (List.mem_reverse.mp hf))
    (fun _ => gives_context gives_restoreFile)
    (fun _ _ hne => keeps_context (keeps_restoreFile hne)) ?_
  rw [List.map_reverse, List.mem_reverse]
  exact (hpaths path).mpr (.inr hpath)

theorem FileBackup.keeps {fault : String → Option String} {s₀ : Files} {paths : List String}
    {b : FileBackup} (h : FileBackup.capture fault s₀ paths = .ok b)
    (answers : String → FileAnswer) {path : String} (hpath : path ∉ paths) :
    Keeps (· path) (b.restore answers) := by
  obtain ⟨-, hpaths⟩ := captureFrom_ok h (by simp)
  refine keeps_back (fun _ _ hne => keeps_context (keeps_restoreFile hne)) ?_
  rw [List.map_reverse, List.mem_reverse, hpaths]
  simpa using hpath

/-! ## Registry values -/

structure RegistryBackup where
  key : String
  existed : Bool
  values : List (String × Option (ℕ × List UInt8))

structure RegistryRead where
  openError : Option String := none
  existed : Bool := true
  fault : String → Option String := fun _ => none

structure RegistryAnswer where
  openError : Option String := none
  value : String → Answer (Option (ℕ × List UInt8)) := fun _ => default
  /-- looking at the key afterwards, and removing it if it is new and empty -/
  tidyError : Option String := none

def readValues (a : RegistryRead) (v : Values) :
    List String → Except String (List (String × Option (ℕ × List UInt8)))
  | [] => .ok []
  | name :: names =>
      match a.fault name, readValues a v names with
      | some e, _ => .error e
      | none, .error e => .error e
      | none, .ok values => .ok ((name, v name) :: values)

def RegistryBackup.capture (a : RegistryRead) (v : Values) (key : String) (names : List String) :
    Except String RegistryBackup :=
  match a.openError with
  | some e => .error ("Cannot inspect registry key " ++ key ++ ": " ++ e)
  | none => (readValues a v names).map (fun values => ⟨key, a.existed, values⟩)

def RegistryBackup.restore (b : RegistryBackup) (a : RegistryAnswer) : Op Values String :=
  run
    [fun v => (v, a.openError.map ("Cannot open registry key for rollback: " ++ ·)),
      tryAll (fun failures => "Registry rollback failed: " ++ listed failures)
        (b.values.map (fun f => context (f.1 ++ ": " ++ ·) (place f.1 f.2 (a.value f.1)))),
      fun v => (v, if b.existed then none else a.tidyError)]

theorem readValues_ok {a : RegistryRead} {v : Values} {names : List String}
    {values : List (String × Option (ℕ × List UInt8))} (h : readValues a v names = .ok values) :
    (∀ f ∈ values, f.2 = v f.1) ∧ values.map Prod.fst = names := by
  induction names generalizing values with
  | nil =>
      obtain rfl := Except.ok.inj h
      exact ⟨by simp, rfl⟩
  | cons name names ih =>
      unfold readValues at h
      split at h
      · cases h
      · cases h
      · rename_i hrest
        obtain rfl := Except.ok.inj h
        obtain ⟨hvalues, hnames⟩ := ih hrest
        refine ⟨?_, by rw [List.map_cons, hnames]⟩
        rw [List.forall_mem_cons]
        exact ⟨rfl, hvalues⟩

theorem RegistryBackup.capture_ok {a : RegistryRead} {v : Values} {key : String}
    {names : List String} {b : RegistryBackup} (h : RegistryBackup.capture a v key names = .ok b) :
    (∀ f ∈ b.values, f.2 = v f.1) ∧ b.values.map Prod.fst = names := by
  unfold RegistryBackup.capture at h
  split at h
  · cases h
  · cases hread : readValues a v names with
    | error e => simp [hread, Except.map] at h
    | ok values =>
        rw [hread] at h
        obtain rfl := Except.ok.inj h
        exact readValues_ok hread

theorem RegistryBackup.restores {r : RegistryRead} {v₀ : Values} {key : String}
    {names : List String} {b : RegistryBackup}
    (h : RegistryBackup.capture r v₀ key names = .ok b) (a : RegistryAnswer) {name : String}
    (hname : name ∈ names) : Gives (· name) (v₀ name) (b.restore a) := by
  obtain ⟨hvalues, hnames⟩ := RegistryBackup.capture_ok h
  have hback : Gives (· name) (v₀ name)
      (tryAll (fun failures => "Registry rollback failed: " ++ listed failures)
        (b.values.map (fun f => context (f.1 ++ ": " ++ ·) (place f.1 f.2 (a.value f.1))))) :=
    gives_back hvalues (fun _ => gives_context gives_place)
      (fun _ _ hne => keeps_context (keeps_place hne)) (hnames ▸ hname)
  refine gives_run ?_ ⟨_, by simp, hback⟩
  simp only [List.forall_mem_cons]
  exact ⟨.inr fun _ => rfl, .inl hback, .inr fun _ => rfl, by simp⟩

theorem RegistryBackup.keeps {r : RegistryRead} {v₀ : Values} {key : String}
    {names : List String} {b : RegistryBackup}
    (h : RegistryBackup.capture r v₀ key names = .ok b) (a : RegistryAnswer) {name : String}
    (hname : name ∉ names) : Keeps (· name) (b.restore a) := by
  obtain ⟨-, hnames⟩ := RegistryBackup.capture_ok h
  refine keeps_run ?_
  simp only [List.forall_mem_cons]
  exact ⟨fun _ => rfl,
    keeps_back (fun _ _ hne => keeps_context (keeps_place hne)) (hnames ▸ hname), fun _ => rfl,
    by simp⟩

/-! ## The system -/

inductive StartType where
  | boot | system | auto | onDemand | disabled
deriving DecidableEq, Repr

structure ServiceEntry where
  command : String
  startType : StartType
  running : Bool
deriving DecidableEq, Repr

/-- What an installation changes. -/
structure Sys where
  /-- the installation directory, by name -/
  files : Files
  /-- the configuration file and the phonebook, by path -/
  data : Files
  /-- user and password RAS holds for the dial entry -/
  credential : Option (String × String)
  /-- the `Run` key -/
  autostart : Values
  /-- the Start Menu folder, by file name -/
  shortcuts : Files
  /-- the key of the application under `Uninstall` -/
  uninstall : Values
  service : Option ServiceEntry

def onFiles (p : Op Files String) : Op Sys String :=
  on Sys.files (fun files s => { s with files }) p

def onData (p : Op Files String) : Op Sys String :=
  on Sys.data (fun data s => { s with data }) p

def onAutostart (p : Op Values String) : Op Sys String :=
  on Sys.autostart (fun autostart s => { s with autostart }) p

def onShortcuts (p : Op Files String) : Op Sys String :=
  on Sys.shortcuts (fun shortcuts s => { s with shortcuts }) p

def onUninstall (p : Op Values String) : Op Sys String :=
  on Sys.uninstall (fun uninstall s => { s with uninstall }) p

/-- What neither a directory nor the outside of the model needs to say: it can fail. -/
def mayFail (error : Option String) : Op Sys String := fun s => (s, error)

/-! ## Shell integration -/

structure Shortcut where
  name : String
  target : String
  args : String := ""
  runAsAdmin : Bool := false

/-- `SHORTCUTS`. -/
def shortcuts : List Shortcut :=
  [{ name := "GDUT Net", target := "gdut-net.exe" },
    { name := "状态查看", target := "status.bat" },
    { name := "回校模式", target := "campus.bat", runAsAdmin := true },
    { name := "回家模式", target := "home.bat", runAsAdmin := true },
    { name := "启动托盘", target := "gdut-net.exe", args := "tray" },
    { name := "无线体检", target := "wireless-test.bat", runAsAdmin := true },
    { name := "打开日志", target := "open-logs.bat" },
    { name := "代理检查", target := "proxy-check.bat" },
    { name := "说明", target := "说明.txt" },
    { name := "卸载 GDUT Net", target := "gdut-net-setup.exe", args := "--uninstall",
      runAsAdmin := true }]

def lnk (name : String) : String := name ++ ".lnk"

def uninstallNames : List String :=
  ["DisplayName", "DisplayVersion", "InstallLocation", "DisplayIcon", "UninstallString",
    "QuietUninstallString", "NoModify", "NoRepair"]

structure ShellInstallBackup where
  files : FileBackup
  registry : RegistryBackup
  directoryExisted : Bool

structure ShellRead where
  /-- the Start Menu directory is unknown or cannot be looked at -/
  directoryError : Option String := none
  directoryExisted : Bool := true
  file : String → Option String := fun _ => none
  registry : RegistryRead := {}

structure ShellAnswer where
  file : String → FileAnswer := fun _ => {}
  registry : RegistryAnswer := {}
  removeDirError : Option String := none

def ShellInstallBackup.capture (a : ShellRead) (s : Sys) : Except String ShellInstallBackup :=
  match a.directoryError with
  | some e => .error e
  | none => do
      let files ← FileBackup.capture a.file s.shortcuts (shortcuts.map (fun x => lnk x.name))
      let registry ← RegistryBackup.capture a.registry s.uninstall
        "SOFTWARE\\Microsoft\\Windows\\CurrentVersion\\Uninstall\\gdut-net" uninstallNames
      .ok ⟨files, registry, a.directoryExisted⟩

def ShellInstallBackup.restore (b : ShellInstallBackup) (a : ShellAnswer) : Op Sys String :=
  tryAll (fun failures => "Shell rollback failed: " ++ listed failures)
    [onShortcuts (b.files.restore a.file), onUninstall (b.registry.restore a.registry),
      if b.directoryExisted then skip
      else context ("Failed to remove new Start Menu folder: " ++ ·) (mayFail a.removeDirError)]

theorem ShellInstallBackup.capture_ok {a : ShellRead} {s : Sys} {b : ShellInstallBackup}
    (h : ShellInstallBackup.capture a s = .ok b) :
    (∃ fault, FileBackup.capture fault s.shortcuts (shortcuts.map (fun x => lnk x.name)) =
      .ok b.files) ∧
    ∃ r key, RegistryBackup.capture r s.uninstall key uninstallNames = .ok b.registry := by
  unfold ShellInstallBackup.capture at h
  split at h
  · cases h
  · obtain ⟨files, hfiles, h⟩ := bind_ok h
    obtain ⟨registry, hregistry, h⟩ := bind_ok h
    obtain rfl := Except.ok.inj h
    exact ⟨⟨_, hfiles⟩, _, _, hregistry⟩

section Shell

variable {r : ShellRead} {s₀ : Sys} {b : ShellInstallBackup} {a : ShellAnswer} {name : String}

theorem ShellInstallBackup.restores_shortcuts (h : ShellInstallBackup.capture r s₀ = .ok b)
    (hname : name ∈ shortcuts.map (fun x => lnk x.name)) :
    Gives (fun s => s.shortcuts name) (s₀.shortcuts name) (b.restore a) := by
  obtain ⟨⟨_, hfiles⟩, -⟩ := ShellInstallBackup.capture_ok h
  have hback : Gives (fun s : Sys => s.shortcuts name) (s₀.shortcuts name)
      (onShortcuts (b.files.restore a.file)) :=
    gives_on (FileBackup.restores hfiles a.file hname) fun _ _ => rfl
  refine gives_tryAll ?_ ⟨_, by simp, hback⟩
  simp only [List.forall_mem_cons]
  refine ⟨.inl hback, .inr (keeps_on fun _ _ => rfl), .inr ?_, by simp⟩
  split
  · exact keeps_skip
  · exact keeps_context fun _ => rfl

theorem ShellInstallBackup.restores_uninstall (h : ShellInstallBackup.capture r s₀ = .ok b)
    (hname : name ∈ uninstallNames) :
    Gives (fun s => s.uninstall name) (s₀.uninstall name) (b.restore a) := by
  obtain ⟨-, _, _, hregistry⟩ := ShellInstallBackup.capture_ok h
  have hback : Gives (fun s : Sys => s.uninstall name) (s₀.uninstall name)
      (onUninstall (b.registry.restore a.registry)) :=
    gives_on (RegistryBackup.restores hregistry a.registry hname) fun _ _ => rfl
  refine gives_tryAll ?_ ⟨_, by simp, hback⟩
  simp only [List.forall_mem_cons]
  refine ⟨.inr (keeps_on fun _ _ => rfl), .inl hback, .inr ?_, by simp⟩
  split
  · exact keeps_skip
  · exact keeps_context fun _ => rfl

theorem ShellInstallBackup.keeps_shortcuts (h : ShellInstallBackup.capture r s₀ = .ok b)
    (hname : name ∉ shortcuts.map (fun x => lnk x.name)) :
    Keeps (fun s => s.shortcuts name) (b.restore a) := by
  obtain ⟨⟨_, hfiles⟩, -⟩ := ShellInstallBackup.capture_ok h
  refine keeps_tryAll ?_
  simp only [List.forall_mem_cons]
  refine ⟨keeps_on_part (FileBackup.keeps hfiles a.file hname) fun _ _ => rfl,
    keeps_on fun _ _ => rfl, ?_, by simp⟩
  split
  · exact keeps_skip
  · exact keeps_context fun _ => rfl

theorem ShellInstallBackup.keeps_uninstall (h : ShellInstallBackup.capture r s₀ = .ok b)
    (hname : name ∉ uninstallNames) : Keeps (fun s => s.uninstall name) (b.restore a) := by
  obtain ⟨-, _, _, hregistry⟩ := ShellInstallBackup.capture_ok h
  refine keeps_tryAll ?_
  simp only [List.forall_mem_cons]
  refine ⟨keeps_on fun _ _ => rfl,
    keeps_on_part (RegistryBackup.keeps hregistry a.registry hname) fun _ _ => rfl, ?_, by simp⟩
  split
  · exact keeps_skip
  · exact keeps_context fun _ => rfl

/-- Nothing else is touched. -/
theorem ShellInstallBackup.keeps {β : Type} {f : Sys → β}
    (hshortcuts : ∀ s shortcuts, f { s with shortcuts } = f s)
    (huninstall : ∀ s uninstall, f { s with uninstall } = f s) : Keeps f (b.restore a) := by
  refine keeps_tryAll ?_
  simp only [List.forall_mem_cons]
  refine ⟨keeps_on fun x s => hshortcuts s x, keeps_on fun x s => huninstall s x, ?_, by simp⟩
  split
  · exact keeps_skip
  · exact keeps_context fun _ => rfl

end Shell

/-! ## Configuration, phonebook, credential, autostart -/

/-- What comes from other crates and from Windows: TOML, DPAPI, whether a
phonebook has an entry of a name, the bytes of a `.lnk` file, the command line
made of a program and its arguments. -/
structure Env where
  configPath : String
  installDir : String
  packageVersion : String
  debug : String → String
  parse : List UInt8 → Except String Config
  toBytes : Config → List UInt8
  protect : String → Except String String
  unprotect : String → Except String String
  hasEntry : List UInt8 → String → Bool
  link : String → Shortcut → List UInt8
  commandLine : String → List String → String

variable (env : Env)

def loadConfig (readError : Option String) (s : Sys) : Except String Config :=
  match readError, s.data env.configPath with
  | some e, _ => .error ("Failed to read config file: " ++ env.configPath ++ ": " ++ e)
  | none, none => .error ("Failed to read config file: " ++ env.configPath ++ ": not found")
  | none, some bytes =>
      match env.parse bytes with
      | .error e => .error ("Failed to parse config file: " ++ env.configPath ++ ": " ++ e)
      | .ok cfg => (cfg.validate env.debug).map (fun _ => cfg)

/-- The configuration there is, or the default one. -/
def currentConfig (readError : Option String) (s : Sys) : Except String Config :=
  if (s.data env.configPath).isSome then loadConfig env readError s else .ok {}

def entryExists (dial : Dial) (s : Sys) : Bool :=
  match s.data dial.pbkPath with
  | none => false
  | some bytes => env.hasEntry bytes dial.entryName

def dialEntryExists (dial : Dial) (error : Option String) (s : Sys) : Except String Bool :=
  match s.data dial.pbkPath, error with
  | none, _ => .ok false
  | some _, some e => .error ("Cannot inspect existing RAS entry: " ++ e)
  | some _, none => .ok (entryExists env dial s)

def putCredential (credential : Option (String × String)) (s : Sys) : Sys := { s with credential }

/-- `RasSetCredentialsW`; RAS keeps a credential for an entry only. -/
def setCredentials (dial : Dial) (user pass : String) (a : Answer (Option (String × String))) :
    Op Sys String :=
  fun s =>
    if entryExists env dial s then write putCredential (some (user, pass)) a s
    else (s, some "RasSetCredentialsW failed: error 623")

structure InstallBackup where
  files : FileBackup
  cfg : Config
  oldPassword : Option String
  hadEntry : Bool
  autostart : RegistryBackup

structure CoreRead where
  readConfig : Option String := none
  entry : Option String := none
  file : String → Option String := fun _ => none
  autostart : RegistryRead := {}

structure CoreAnswer where
  entry : Option String := none
  clear : Answer (Option (String × String)) := default
  autostart : RegistryAnswer := {}
  file : String → FileAnswer := fun _ => {}
  credential : Answer (Option (String × String)) := default

def savedPassword (cfg : Config) (hadEntry : Bool) : Except String (Option String) :=
  match hadEntry, env.unprotect cfg.account.passwordBlob with
  | false, _ => .ok none
  | true, .error e => .error ("Cannot back up existing dial credentials: " ++ e)
  | true, .ok password => .ok (some password)

def InstallBackup.capture (a : CoreRead) (s : Sys) : Except String InstallBackup := do
  let cfg ← currentConfig env a.readConfig s
  let hadEntry ← dialEntryExists env cfg.dial a.entry s
  if hadEntry && (s.data env.configPath).isNone then
    .error "Existing dial phonebook has no config; restore its config before installing"
  let oldPassword ← savedPassword env cfg hadEntry
  let files ← FileBackup.capture a.file s.data [env.configPath, cfg.dial.pbkPath]
  let autostart ← RegistryBackup.capture a.autostart s.autostart
    "Software\\Microsoft\\Windows\\CurrentVersion\\Run" ["gdut-net-tray"]
  .ok ⟨files, cfg, oldPassword, hadEntry, autostart⟩

/-- The credential the backup knows of. -/
def InstallBackup.recorded (b : InstallBackup) : Option (String × String) :=
  b.oldPassword.map (b.cfg.account.studentId, ·)

/-- A credential of an entry that was not there before is cleared while the
entry still is. -/
def InstallBackup.clearNew (b : InstallBackup) (a : CoreAnswer) : Op Sys String :=
  if b.hadEntry then skip
  else
    fun s =>
      match dialEntryExists env b.cfg.dial a.entry s with
      | .ok true =>
          context ("Failed to clear new RAS credentials: " ++ ·)
            (write putCredential none a.clear) s
      | .ok false => (s, none)
      | .error e => (s, some ("Failed to inspect new RAS credentials: " ++ e))

def InstallBackup.setOld (b : InstallBackup) (a : CoreAnswer) : Op Sys String :=
  match b.oldPassword with
  | some password =>
      context ("Failed to restore previous RAS credentials: " ++ ·)
        (setCredentials env b.cfg.dial b.cfg.account.studentId password a.credential)
  | none => skip

def InstallBackup.restore (b : InstallBackup) (a : CoreAnswer) : Op Sys String :=
  tryAll listed
    [b.clearNew env a,
      context ("Failed to restore tray autostart: " ++ ·)
        (onAutostart (b.autostart.restore a.autostart)),
      onData (b.files.restore a.file),
      b.setOld env a]

theorem keeps_setCredentials {β : Type} {f : Sys → β} {dial : Dial} {user pass : String}
    {a : Answer (Option (String × String))} (h : ∀ s c, f (putCredential c s) = f s) :
    Keeps f (setCredentials env dial user pass a) := by
  intro s
  unfold setCredentials
  split
  · exact keeps_write (fun c s => h s c) s
  · rfl

theorem gives_setCredentials {dial : Dial} {user pass : String}
    {a : Answer (Option (String × String))} :
    Gives Sys.credential (some (user, pass)) (setCredentials env dial user pass a) := by
  intro s hok
  unfold setCredentials at hok ⊢
  split at hok
  · rename_i hentry
    rw [if_pos hentry]
    exact gives_write (fun _ => rfl) s hok
  · cases hok

section Core

variable {env} {r : CoreRead} {s₀ : Sys} {b : InstallBackup} {a : CoreAnswer}

theorem dialEntryExists_ok {dial : Dial} {error : Option String} {s : Sys} {found : Bool}
    (h : dialEntryExists env dial error s = .ok found) : entryExists env dial s = found := by
  unfold dialEntryExists at h
  unfold entryExists
  split at h
  · rename_i hnone
    rw [hnone]
    exact Except.ok.inj h
  · cases h
  · exact Except.ok.inj h

theorem savedPassword_ok {cfg : Config} {hadEntry : Bool} {password : Option String}
    (h : savedPassword env cfg hadEntry = .ok password) : password.isSome = hadEntry := by
  unfold savedPassword at h
  split at h
  · obtain rfl := Except.ok.inj h
    rfl
  · cases h
  · obtain rfl := Except.ok.inj h
    rfl

theorem InstallBackup.keeps_clearNew {β : Type} {f : Sys → β}
    (h : ∀ s c, f (putCredential c s) = f s) : Keeps f (b.clearNew env a) := by
  intro s
  unfold InstallBackup.clearNew
  split
  · rfl
  · dsimp only
    split
    · exact keeps_write (fun c s => h s c) s
    · rfl
    · rfl

theorem InstallBackup.keeps_setOld {β : Type} {f : Sys → β}
    (h : ∀ s c, f (putCredential c s) = f s) : Keeps f (b.setOld env a) := by
  unfold InstallBackup.setOld
  split
  · exact keeps_context (keeps_setCredentials env h)
  · exact keeps_skip

/-- What the backup records, and of which configuration. -/
theorem InstallBackup.capture_ok (h : InstallBackup.capture env r s₀ = .ok b) :
    currentConfig env r.readConfig s₀ = .ok b.cfg ∧ b.oldPassword.isSome = b.hadEntry ∧
    (∃ fault, FileBackup.capture fault s₀.data [env.configPath, b.cfg.dial.pbkPath] =
      .ok b.files) ∧
    ∃ r key, RegistryBackup.capture r s₀.autostart key ["gdut-net-tray"] = .ok b.autostart := by
  obtain ⟨cfg, hcfg, h⟩ := bind_ok h
  obtain ⟨hadEntry, hentry, h⟩ := bind_ok h
  dsimp only at h
  split at h
  · cases h
  · obtain ⟨password, hpassword, h⟩ := bind_ok h
    obtain ⟨files, hfiles, h⟩ := bind_ok h
    obtain ⟨autostart, hautostart, h⟩ := bind_ok h
    obtain rfl := Except.ok.inj h
    exact ⟨hcfg, savedPassword_ok hpassword, ⟨_, hfiles⟩, _, _, hautostart⟩

theorem InstallBackup.restores_data {path : String} (h : InstallBackup.capture env r s₀ = .ok b)
    (hpath : path ∈ [env.configPath, b.cfg.dial.pbkPath]) :
    Gives (fun s => s.data path) (s₀.data path) (b.restore env a) := by
  obtain ⟨-, -, ⟨_, hfiles⟩, -⟩ := InstallBackup.capture_ok h
  have hback : Gives (fun s : Sys => s.data path) (s₀.data path)
      (onData (b.files.restore a.file)) :=
    gives_on (FileBackup.restores hfiles a.file hpath) fun _ _ => rfl
  refine gives_tryAll ?_ ⟨_, by simp, hback⟩
  simp only [List.forall_mem_cons]
  exact ⟨.inr (InstallBackup.keeps_clearNew fun _ _ => rfl),
    .inr (keeps_context (keeps_on fun _ _ => rfl)), .inl hback,
    .inr (InstallBackup.keeps_setOld fun _ _ => rfl), by simp⟩

theorem InstallBackup.keeps_data {path : String} (h : InstallBackup.capture env r s₀ = .ok b)
    (hpath : path ∉ [env.configPath, b.cfg.dial.pbkPath]) :
    Keeps (fun s => s.data path) (b.restore env a) := by
  obtain ⟨-, -, ⟨_, hfiles⟩, -⟩ := InstallBackup.capture_ok h
  refine keeps_tryAll ?_
  simp only [List.forall_mem_cons]
  exact ⟨InstallBackup.keeps_clearNew fun _ _ => rfl, keeps_context (keeps_on fun _ _ => rfl),
    keeps_on_part (FileBackup.keeps hfiles a.file hpath) fun _ _ => rfl,
    InstallBackup.keeps_setOld fun _ _ => rfl, by simp⟩

theorem InstallBackup.restores_autostart (h : InstallBackup.capture env r s₀ = .ok b) :
    Gives (fun s => s.autostart "gdut-net-tray") (s₀.autostart "gdut-net-tray")
      (b.restore env a) := by
  obtain ⟨-, -, -, _, _, hautostart⟩ := InstallBackup.capture_ok h
  have hback : Gives (fun s : Sys => s.autostart "gdut-net-tray") (s₀.autostart "gdut-net-tray")
      (context ("Failed to restore tray autostart: " ++ ·)
        (onAutostart (b.autostart.restore a.autostart))) :=
    gives_context (gives_on (RegistryBackup.restores hautostart a.autostart (by simp))
      fun _ _ => rfl)
  refine gives_tryAll ?_ ⟨_, by simp, hback⟩
  simp only [List.forall_mem_cons]
  exact ⟨.inr (InstallBackup.keeps_clearNew fun _ _ => rfl), .inl hback,
    .inr (keeps_on fun _ _ => rfl), .inr (InstallBackup.keeps_setOld fun _ _ => rfl), by simp⟩

theorem InstallBackup.keeps_autostart {name : String}
    (h : InstallBackup.capture env r s₀ = .ok b) (hname : name ≠ "gdut-net-tray") :
    Keeps (fun s => s.autostart name) (b.restore env a) := by
  obtain ⟨-, -, -, _, _, hautostart⟩ := InstallBackup.capture_ok h
  refine keeps_tryAll ?_
  simp only [List.forall_mem_cons]
  exact ⟨InstallBackup.keeps_clearNew fun _ _ => rfl,
    keeps_context (keeps_on_part
      (RegistryBackup.keeps hautostart a.autostart (by simpa using hname)) fun _ _ => rfl),
    keeps_on fun _ _ => rfl, InstallBackup.keeps_setOld fun _ _ => rfl, by simp⟩

/-- Nothing else is touched. -/
theorem InstallBackup.keeps {β : Type} {f : Sys → β} (hdata : ∀ s data, f { s with data } = f s)
    (hautostart : ∀ s autostart, f { s with autostart } = f s)
    (hcredential : ∀ s c, f (putCredential c s) = f s) : Keeps f (b.restore env a) := by
  refine keeps_tryAll ?_
  simp only [List.forall_mem_cons]
  exact ⟨InstallBackup.keeps_clearNew hcredential,
    keeps_context (keeps_on fun x s => hautostart s x),
    keeps_on fun x s => hdata s x, InstallBackup.keeps_setOld hcredential, by simp⟩

/-- RAS is left with the recorded credential, or with one nobody changed. -/
theorem InstallBackup.restores_credential {s : Sys} {c : Option (String × String)}
    (h : InstallBackup.capture env r s₀ = .ok b)
    (hs : s.credential = c ∨ entryExists env b.cfg.dial s = true)
    (hok : (b.restore env a s).2 = none) :
    (b.restore env a s).1.credential = c ∨ (b.restore env a s).1.credential = b.recorded := by
  obtain ⟨-, hhad, -⟩ := InstallBackup.capture_ok h
  cases hold : b.oldPassword with
  | some password =>
      right
      have hback : Gives Sys.credential b.recorded (b.setOld env a) := by
        rw [InstallBackup.setOld, InstallBackup.recorded, hold]
        exact gives_context (gives_setCredentials env)
      refine gives_tryAll ?_ ⟨_, by simp, hback⟩ s hok
      simp only [List.forall_mem_cons]
      have hclear : Keeps Sys.credential (b.clearNew env a) := by
        rw [InstallBackup.clearNew, if_pos (by rw [← hhad, hold]; rfl)]
        exact keeps_skip
      exact ⟨.inr hclear, .inr (keeps_context (keeps_on fun _ _ => rfl)),
        .inr (keeps_on fun _ _ => rfl), .inl hback, by simp⟩
  | none =>
      have hrun := tryAll_none hok
      obtain ⟨hclear, htail⟩ := run_cons_none (p := b.clearNew env a) (by rw [hrun])
      have hrest : Keeps Sys.credential
          (run [context ("Failed to restore tray autostart: " ++ ·)
            (onAutostart (b.autostart.restore a.autostart)), onData (b.files.restore a.file),
            b.setOld env a]) := by
        refine keeps_run ?_
        simp only [List.forall_mem_cons]
        refine ⟨keeps_context (keeps_on fun _ _ => rfl), keeps_on fun _ _ => rfl, ?_, by simp⟩
        rw [InstallBackup.setOld, hold]
        exact keeps_skip
      have hstate : (b.restore env a s).1.credential = (b.clearNew env a s).1.credential := by
        have hkept := hrest (b.clearNew env a s).1
        rwa [← htail, hrun] at hkept
      rw [hstate, InstallBackup.recorded, hold]
      unfold InstallBackup.clearNew at hclear ⊢
      rw [if_neg (by rw [← hhad, hold]; simp)] at hclear ⊢
      split at hclear
      · right
        exact gives_context (gives_write fun _ => rfl) s hclear
      · rename_i hentry
        left
        exact hs.resolve_right (by rw [dialEntryExists_ok hentry]; simp)
      · cases hclear

end Core

end GdutNet.Install
