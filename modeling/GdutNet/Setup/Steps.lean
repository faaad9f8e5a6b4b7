import GdutNet.Setup.Backup
import GdutNet.Setup.Payload

/-!
# Steps of an installation

What `run_install` calls: of `service.rs` the calls to the service manager and
`install_core`, of `transaction.rs` `unpack_files`, of `shell.rs`
`install_shell_integration`. A registry string is its UTF-16 code units with a
terminating zero.
-/

namespace GdutNet.Install

open Fallible

/-! ## The service manager -/

/-- How one visit to the service manager goes. A call that fails may leave any
service behind. -/
structure ServiceAnswer where
  connectError : Option String := none
  openError : Option String := none
  ends : Answer (Option ServiceEntry) := default

def onService (p : Op (Option ServiceEntry) String) : Op Sys String :=
  on Sys.service (fun service s => { s with service }) p

/-- `open_service`. -/
def openService (a : ServiceAnswer) (service : Option ServiceEntry) : Except String ServiceEntry :=
  match service, a.openError with
  | none, _ => .error "service does not exist"
  | some _, some e => .error e
  | some entry, none => .ok entry

def leaveService (entry : Option ServiceEntry) (a : ServiceAnswer) :
    Op (Option ServiceEntry) String :=
  write (fun entry _ => entry) entry a.ends

/-- A service that cannot be opened is taken for one that is not installed. -/
def stopService (a : ServiceAnswer) : Op Sys String :=
  onService fun service =>
    match a.connectError with
    | some e => (service, some ("Failed to connect to service manager: " ++ e))
    | none =>
        match openService a service with
        | .error _ => (service, none)
        | .ok entry => leaveService (some { entry with running := false }) a service

def startService (a : ServiceAnswer) : Op Sys String :=
  onService fun service =>
    match a.connectError with
    | some e => (service, some ("Failed to connect to service manager: " ++ e))
    | none =>
        match openService a service with
        | .error e => (service, some ("gdut-net service is not installed: " ++ e))
        | .ok entry => leaveService (some { entry with running := true }) a service

/-- Creating a service that exists stops it, or waits for that in vain
(`staysUp`), and changes its configuration. -/
def createService (command : String) (staysUp : Bool) (a : ServiceAnswer) : Op Sys String :=
  onService fun service =>
    match a.connectError with
    | some e =>
        (service, some ("Failed to connect to service manager (administrator required): " ++ e))
    | none =>
        leaveService (some ⟨command, .auto, staysUp && service.any ServiceEntry.running⟩) a service

def restorePreviousService (command : String) (startType : StartType) (a : ServiceAnswer) :
    Op Sys String :=
  onService fun service =>
    match a.connectError with
    | some e => (service, some e)
    | none =>
        match openService a service with
        | .error e => (service, some e)
        | .ok entry => leaveService (some { entry with command, startType }) a service

/-- A service that runs is only marked for deletion. -/
def deleteService (a : ServiceAnswer) : Op Sys String :=
  onService fun service =>
    match a.connectError, service, a.openError with
    | some e, _, _ => (service, some e)
    | none, none, _ => (service, none)
    | none, some _, some e =>
        (service, some ("Failed to open service for rollback deletion: " ++ e))
    | none, some entry, none =>
        context ("Failed to delete service: " ++ ·)
          (leaveService (if entry.running then some entry else none) a) service

theorem keeps_onService {β : Type} {f : Sys → β} {p : Op (Option ServiceEntry) String}
    (h : ∀ s service, f { s with service } = f s) : Keeps f (onService p) :=
  keeps_on fun service s => h s service

/-! What a call leaves of the service when it succeeds. -/

theorem leaveService_ok {entry service : Option ServiceEntry} {a : ServiceAnswer}
    (hok : (leaveService entry a service).2 = none) :
    (leaveService entry a service).1 = entry := by
  unfold leaveService write at hok ⊢
  split at hok
  · rfl
  · cases hok

theorem openService_ok {a : ServiceAnswer} {service : Option ServiceEntry} {entry : ServiceEntry}
    (h : openService a service = .ok entry) : service = some entry := by
  unfold openService at h
  split at h
  · cases h
  · cases h
  · rw [Except.ok.inj h]

theorem openService_error {a : ServiceAnswer} {service : Option ServiceEntry} {e : String}
    (hopen : a.openError = none) (h : openService a service = .error e) : service = none := by
  unfold openService at h
  rw [hopen] at h
  split at h
  · rfl
  · contradiction
  · cases h

section Done

variable {a : ServiceAnswer} {s : Sys}

/-- No process of the service runs. -/
def Quiet (service : Option ServiceEntry) : Prop := ∀ entry ∈ service, entry.running = false

theorem stopService_ok (hopen : a.openError = none) (hok : (stopService a s).2 = none) :
    Quiet (stopService a s).1.service := by
  unfold stopService onService on at hok ⊢
  rcases hconnect : a.connectError with _ | e
  · rcases hentry : openService a s.service with e | entry
    · simp only [openService_error hopen hentry]
      exact fun _ hmem => by cases hmem
    · simp only [hconnect, hentry] at hok ⊢
      rw [leaveService_ok hok]
      rintro _ ⟨⟩
      rfl
  · simp [hconnect] at hok

theorem startService_ok (hok : (startService a s).2 = none) :
    ∃ entry, s.service = some entry ∧
      (startService a s).1.service = some { entry with running := true } := by
  unfold startService onService on at hok ⊢
  rcases hconnect : a.connectError with _ | e
  · rcases hentry : openService a s.service with e | entry
    · simp [hconnect, hentry] at hok
    · simp only [hconnect, hentry] at hok ⊢
      exact ⟨entry, openService_ok hentry, leaveService_ok hok⟩
  · simp [hconnect] at hok

theorem restorePreviousService_ok {command : String} {startType : StartType}
    (hok : (restorePreviousService command startType a s).2 = none) :
    ∃ entry, s.service = some entry ∧
      (restorePreviousService command startType a s).1.service =
        some { entry with command, startType } := by
  unfold restorePreviousService onService on at hok ⊢
  rcases hconnect : a.connectError with _ | e
  · rcases hentry : openService a s.service with e | entry
    · simp [hconnect, hentry] at hok
    · simp only [hconnect, hentry] at hok ⊢
      exact ⟨entry, openService_ok hentry, leaveService_ok hok⟩
  · simp [hconnect] at hok

theorem deleteService_ok (hquiet : Quiet s.service) (hok : (deleteService a s).2 = none) :
    (deleteService a s).1.service = none := by
  unfold deleteService onService on at hok ⊢
  dsimp only at hok ⊢
  split at hok
  · cases hok
  · rename_i hservice
    exact hservice
  · cases hok
  · rename_i entry _ hservice _
    have hstopped : ¬ entry.running = true := by simp [hquiet entry hservice]
    rw [if_neg hstopped] at hok ⊢
    exact leaveService_ok (Option.map_eq_none_iff.mp hok)

end Done

/-! ## Unpacking -/

structure UnpackAnswer where
  mkdirError : Option String := none
  file : String → Answer (Option (List UInt8)) := fun _ => default

/-- `replace_file`: the new bytes, or an error and whatever then stands there. -/
def replaceFile (name : String) (bytes : List UInt8) (a : Answer (Option (List UInt8))) :
    Op Sys String :=
  onFiles (place name (some bytes) a)

def inDir (dir name : String) : String := dir ++ "\\" ++ name

def unpackFiles (dir : String) (entries : List Payload.Entry) (a : UnpackAnswer) : Op Sys String :=
  run
    (context (("Failed to create " ++ dir ++ ": ") ++ ·) (mayFail a.mkdirError) ::
      entries.map fun entry =>
        context (("Failed to write " ++ inDir dir entry.name ++ ": ") ++ ·)
          (replaceFile entry.name entry.data (a.file entry.name)))

theorem keeps_unpackFiles {dir name : String} {entries : List Payload.Entry} {a : UnpackAnswer}
    (hname : name ∉ entries.map Payload.Entry.name) :
    Keeps (fun s => s.files name) (unpackFiles dir entries a) := by
  refine keeps_run ?_
  rw [List.forall_mem_cons]
  refine ⟨fun _ => rfl, fun p hp => ?_⟩
  obtain ⟨entry, hentry, rfl⟩ := List.mem_map.mp hp
  refine keeps_context (keeps_on_part (keeps_place ?_) fun _ _ => rfl)
  rintro rfl
  exact hname (List.mem_map_of_mem hentry)

theorem keeps_unpackFiles_rest {β : Type} {f : Sys → β} {dir : String}
    {entries : List Payload.Entry} {a : UnpackAnswer} (h : ∀ s files, f { s with files } = f s) :
    Keeps f (unpackFiles dir entries a) := by
  refine keeps_run ?_
  rw [List.forall_mem_cons]
  refine ⟨fun _ => rfl, fun p hp => ?_⟩
  obtain ⟨entry, -, rfl⟩ := List.mem_map.mp hp
  exact keeps_context (keeps_on fun files s => h s files)

/-! ## Shell integration -/

def wide (text : String) : List UInt8 :=
  (text.toList.flatMap fun c =>
      if c.toNat < 0x10000 then Bytes.leBytes 2 c.toNat
      else
        Bytes.leBytes 2 (0xd800 + (c.toNat - 0x10000) / 0x400) ++
          Bytes.leBytes 2 (0xdc00 + (c.toNat - 0x10000) % 0x400)) ++
    [0, 0]

def regString (text : String) : ℕ × List UInt8 := (1, wide text)

def regDword (value : ℕ) : ℕ × List UInt8 := (4, Bytes.leBytes 4 value)

def quoted (text : String) : String := "\"" ++ text ++ "\""

structure ShellStepAnswer where
  /-- the Start Menu directory is unknown or cannot be made -/
  directoryError : Option String := none
  shortcut : String → Answer (Option (List UInt8)) := fun _ => default
  value : String → Answer (Option (ℕ × List UInt8)) := fun _ => default

section Steps

variable (env : Env)

def installExe : String := inDir env.installDir "gdut-net.exe"

def setupExe : String := inDir env.installDir "gdut-net-setup.exe"

def uninstallValues : List (String × (ℕ × List UInt8)) :=
  [("DisplayName", regString "GDUT Net"), ("DisplayVersion", regString env.packageVersion),
    ("InstallLocation", regString env.installDir), ("DisplayIcon", regString (installExe env)),
    ("UninstallString", regString (quoted (setupExe env) ++ " --uninstall")),
    ("QuietUninstallString", regString (quoted (setupExe env) ++ " --silent --uninstall")),
    ("NoModify", regDword 1), ("NoRepair", regDword 1)]

def createShortcut (x : Shortcut) (a : Answer (Option (List UInt8))) : Op Sys String :=
  context (("Failed to create shortcut " ++ lnk x.name ++ ": ") ++ ·)
    (onShortcuts (place (lnk x.name) (some (env.link (inDir env.installDir x.target) x)) a))

def installShortcut (a : ShellStepAnswer) (x : Shortcut) : Op Sys String :=
  fun s =>
    if (s.files x.target).isNone then
      (s, some ("Shortcut target missing: " ++ inDir env.installDir x.target))
    else createShortcut env x (a.shortcut x.name) s

def writeUninstallKey (a : ShellStepAnswer) : Op Sys String :=
  run ((uninstallValues env).map fun v => onUninstall (place v.1 (some v.2) (a.value v.1)))

def installShellIntegration (a : ShellStepAnswer) : Op Sys String :=
  run
    (mayFail a.directoryError :: shortcuts.map (installShortcut env a) ++
      [writeUninstallKey env a])

theorem keeps_installShortcut {β : Type} {f : Sys → β} {a : ShellStepAnswer} {x : Shortcut}
    (h : Keeps f (createShortcut env x (a.shortcut x.name))) :
    Keeps f (installShortcut env a x) := by
  intro s
  unfold installShortcut
  split
  · rfl
  · exact h s

/-- What is kept by every shortcut and every value is kept by all of it. -/
theorem keeps_installShellIntegration {β : Type} {f : Sys → β} {a : ShellStepAnswer}
    (hshortcut : ∀ x ∈ shortcuts, Keeps f (createShortcut env x (a.shortcut x.name)))
    (hvalue : ∀ v ∈ uninstallValues env,
      Keeps f (onUninstall (place v.1 (some v.2) (a.value v.1)))) :
    Keeps f (installShellIntegration env a) := by
  refine keeps_run fun p hp => ?_
  rcases List.mem_append.mp hp with hp | hp
  · rcases List.mem_cons.mp hp with rfl | hp
    · exact fun _ => rfl
    · obtain ⟨x, hx, rfl⟩ := List.mem_map.mp hp
      exact keeps_installShortcut env (hshortcut x hx)
  · rw [List.mem_singleton.mp hp]
    refine keeps_run fun q hq => ?_
    obtain ⟨v, hv, rfl⟩ := List.mem_map.mp hq
    exact hvalue v hv

theorem uninstallValues_names : (uninstallValues env).map Prod.fst = uninstallNames := rfl

/-! ## Configuration and service -/

structure InstallRequest where
  studentId : String
  password : Option String
deriving DecidableEq, Repr

structure CoreStepAnswer where
  readConfig : Option String := none
  save : Answer (Option (List UInt8)) := default
  mkdirError : Option String := none
  /-- the phonebook afterwards; a busy port (816) counts as success and writes nothing -/
  entry : Answer (Option (List UInt8)) := default
  credential : Answer (Option (String × String)) := default
  staysUp : Bool := false
  service : ServiceAnswer := {}
  autostart : Answer (Option (ℕ × List UInt8)) := default

def requestPassword (req : InstallRequest) (cfg : Config) : Except String String :=
  match req.password with
  | some password =>
      if password.isEmpty then .error "Password must not be empty" else .ok password
  | none =>
      if cfg.account.passwordBlob.isEmpty then
        .error "No stored password to keep (config has no password_blob)"
      else
        match env.unprotect cfg.account.passwordBlob with
        | .error e =>
            .error ("Stored password cannot be decrypted (entropy/config mismatch): " ++ e)
        | .ok password => .ok password

def requestId (req : InstallRequest) (cfg : Config) : String :=
  if (trim req.studentId.toList).isEmpty then cfg.account.studentId else req.studentId

/-- Only a new password is encrypted; the stored one stays as it is. -/
def requestBlob (req : InstallRequest) (cfg : Config) (password : String) :
    Except String String :=
  if req.password.isSome then env.protect password else .ok cfg.account.passwordBlob

/-- The configuration to be saved and the password in the clear. -/
def coreConfig (req : InstallRequest) (readError : Option String) (s : Sys) :
    Except String (Config × String) := do
  let cfg ← currentConfig env readError s
  let password ← requestPassword env req cfg
  let studentId := requestId req cfg
  if (trim studentId.toList).isEmpty then .error "Student ID must not be empty"
  let httpProbeUrl :=
    if cfg.dial.httpProbeUrl = "http://9.9.9.9" then "http://223.5.5.5" else cfg.dial.httpProbeUrl
  let passwordBlob ← requestBlob env req cfg password
  .ok ({ cfg with account := ⟨studentId, passwordBlob⟩, dial := { cfg.dial with httpProbeUrl } },
    password)

def ensureEntry (dial : Dial) (a : Answer (Option (List UInt8))) : Op Sys String :=
  onData fun data => (setAt dial.pbkPath a.left data, a.error)

def registerAutostart (a : Answer (Option (ℕ × List UInt8))) : Op Sys String :=
  onAutostart (place "gdut-net-tray" (some (regString (quoted (installExe env) ++ " tray"))) a)

def installCore (req : InstallRequest) (a : CoreStepAnswer) : Op Sys String :=
  fun s =>
    match coreConfig env req a.readConfig s with
    | .error e => (s, some e)
    | .ok (cfg, password) =>
        run
          [onData (place env.configPath (some (env.toBytes cfg)) a.save), mayFail a.mkdirError,
            ensureEntry cfg.dial a.entry,
            setCredentials env cfg.dial cfg.account.studentId password a.credential,
            context ("Failed to create/update service: " ++ ·)
              (createService
                (env.commandLine (installExe env) ["--config", env.configPath, "run"])
                a.staysUp a.service),
            registerAutostart env a.autostart] s

/-- The dial entry is the one of the configuration there is. -/
theorem coreConfig_ok {req : InstallRequest} {readError : Option String} {s : Sys} {cfg : Config}
    {password : String} (h : coreConfig env req readError s = .ok (cfg, password)) :
    ∃ before, currentConfig env readError s = .ok before ∧
      cfg.dial.pbkPath = before.dial.pbkPath ∧ cfg.dial.entryName = before.dial.entryName := by
  obtain ⟨before, hbefore, h⟩ := bind_ok h
  obtain ⟨password', -, h⟩ := bind_ok h
  dsimp only at h
  split at h
  · cases h
  · obtain ⟨blob, -, h⟩ := bind_ok h
    obtain ⟨rfl, -⟩ := Prod.mk.inj (Except.ok.inj h)
    exact ⟨before, hbefore, rfl, rfl⟩

/-- Two readings of one configuration agree. -/
theorem currentConfig_eq {e e' : Option String} {s s' : Sys} {cfg cfg' : Config}
    (h : currentConfig env e s = .ok cfg) (h' : currentConfig env e' s' = .ok cfg')
    (hdata : s'.data = s.data) : cfg' = cfg := by
  unfold currentConfig loadConfig at h h'
  rw [hdata] at h'
  split at h
  · rename_i hsome
    rw [if_pos hsome] at h'
    split at h
    · cases h
    · cases h
    · split at h'
      · cases h'
      · cases h'
      · grind
  · rename_i hnone
    rw [if_neg hnone] at h'
    rw [← Except.ok.inj h, ← Except.ok.inj h']

end Steps

end GdutNet.Install
