import GdutNet.Setup.Backup
import Mathlib.Data.List.Nodup

/-!
# What a file backup restores

Every file of a backup is restored on its own: what happens at a path depends on
that path alone, because `capture` records no path twice. So a failure at one
path costs only that path. A file that can be read and is as it was recorded is
not written.
-/

namespace GdutNet.Install

open Fallible

variable {fault : String → Option String} {s₀ s : Files} {paths : List String} {b : FileBackup}
  {answers : String → FileAnswer}

theorem local_place {α : Type} {key : String} {content : Option α} {a : Answer (Option α)} :
    Local (fun key (s : Places α) => s key) key (place key content a) where
  keeps _ hne := keeps_place hne
  sees s t _ := by
    unfold place write
    split
    · exact ⟨setAt_self.trans setAt_self.symm, rfl⟩
    · exact ⟨setAt_self.trans setAt_self.symm, rfl⟩

theorem local_restoreFile {path : String} {before : Option (List UInt8)} {a : FileAnswer} :
    Local (fun path (s : Files) => s path) path (restoreFile path before a) where
  keeps _ hne := keeps_restoreFile hne
  sees s t hst := by
    cases before with
    | none => exact (local_context local_place).sees s t hst
    | some bytes =>
        dsimp only [restoreFile]
        rw [hst]
        split
        · exact ⟨hst, rfl⟩
        · exact (local_context local_place).sees s t hst

/-- No path is recorded twice. -/
theorem captureFrom_nodup {files : List (String × Option (List UInt8))}
    (h : captureFrom fault s₀ files paths = .ok b) (hfiles : (files.map Prod.fst).Nodup) :
    (b.files.map Prod.fst).Nodup := by
  induction paths generalizing files with
  | nil =>
      obtain rfl := Except.ok.inj h
      exact hfiles
  | cons path paths ih =>
      unfold captureFrom at h
      split at h
      · exact ih h hfiles
      · rename_i hnew
        split at h
        · cases h
        · refine ih h ?_
          rw [List.map_append, List.map_singleton, List.nodup_append]
          refine ⟨hfiles, List.nodup_singleton _, ?_⟩
          intro x hx y hy hxy
          obtain ⟨f, hf, rfl⟩ := List.mem_map.mp hx
          rw [List.mem_singleton.mp hy] at hxy
          exact hnew (List.any_eq_true.mpr ⟨f, hf, decide_eq_true hxy⟩)

theorem mem_files (h : FileBackup.capture fault s₀ paths = .ok b) {path : String} :
    path ∈ paths ↔ (path, s₀ path) ∈ b.files := by
  obtain ⟨hvalues, hpaths⟩ := captureFrom_ok h (by simp)
  have hmem : path ∈ b.files.map Prod.fst ↔ path ∈ paths := by simpa using hpaths path
  rw [← hmem, List.mem_map]
  constructor
  · rintro ⟨f, hf, rfl⟩
    rwa [← hvalues f hf]
  · intro hf
    exact ⟨_, hf, rfl⟩

/-! ## Path by path -/

/-- The restorations a backup tries, each with the path it is about. -/
def FileBackup.restorations (b : FileBackup) (answers : String → FileAnswer) :
    List (String × Op Files String) :=
  b.files.reverse.map fun f => (f.1, context (f.1 ++ ": " ++ ·)
    (restoreFile f.1 f.2 (answers f.1)))

theorem restore_eq :
    b.restore answers = tryAll (fun failures => "File rollback failed: " ++ listed failures)
      ((b.restorations answers).map Prod.snd) := by
  rw [FileBackup.restore, FileBackup.restorations, List.map_map]
  rfl

theorem mem_restorations (h : FileBackup.capture fault s₀ paths = .ok b)
    {p : String × Op Files String} :
    p ∈ b.restorations answers ↔ ∃ path ∈ paths, p = (path, context (path ++ ": " ++ ·)
      (restoreFile path (s₀ path) (answers path))) := by
  rw [FileBackup.restorations, List.mem_map]
  constructor
  · rintro ⟨f, hf, rfl⟩
    have hvalue := (captureFrom_ok h (by simp)).1 f (List.mem_reverse.mp hf)
    refine ⟨f.1, (mem_files h).mpr (hvalue ▸ List.mem_reverse.mp hf), ?_⟩
    rw [hvalue]
  · rintro ⟨path, hpath, rfl⟩
    exact ⟨_, List.mem_reverse.mpr ((mem_files h).mp hpath), rfl⟩

/-- What is at a path afterwards, and what failed. -/
theorem each_restorations (h : FileBackup.capture fault s₀ paths = .ok b)
    (answers : String → FileAnswer) (s : Files) :
    (∀ path ∈ paths, (each ((b.restorations answers).map Prod.snd) s).1 path =
      (restoreFile path (s₀ path) (answers path) s).1 path) ∧
    (each ((b.restorations answers).map Prod.snd) s).2 =
      (b.restorations answers).flatMap fun p => (p.2 s).2.toList := by
  have hkeys : ((b.restorations answers).map Prod.fst).Nodup := by
    rw [FileBackup.restorations, List.map_map]
    exact List.map_reverse ▸ List.nodup_reverse.mpr (captureFrom_nodup h List.nodup_nil)
  have hlocal : ∀ p ∈ b.restorations answers,
      Local (fun path (s : Files) => s path) p.1 p.2 := by
    intro p hp
    obtain ⟨path, -, rfl⟩ := (mem_restorations h).mp hp
    exact local_context local_restoreFile
  obtain ⟨hstates, herrors⟩ := each_local hlocal hkeys s
  exact ⟨fun path hpath => hstates _ ((mem_restorations h).mpr ⟨path, hpath, rfl⟩), herrors⟩

theorem restore_none_iff (h : FileBackup.capture fault s₀ paths = .ok b) :
    (b.restore answers s).2 = none ↔
      ∀ path ∈ paths, (restoreFile path (s₀ path) (answers path) s).2 = none := by
  rw [restore_eq, tryAll_none_iff, (each_restorations h answers s).2, List.flatMap_eq_nil_iff]
  constructor
  · intro hall path hpath
    simpa [context] using hall _ ((mem_restorations h).mpr ⟨path, hpath, rfl⟩)
  · intro hall p hp
    obtain ⟨path, hpath, rfl⟩ := (mem_restorations h).mp hp
    simpa [context] using hall path hpath

theorem restore_path (h : FileBackup.capture fault s₀ paths = .ok b) {path : String}
    (hpath : path ∈ paths) : (b.restore answers s).1 path =
      (restoreFile path (s₀ path) (answers path) s).1 path := by
  rw [restore_eq, tryAll_fst]
  exact (each_restorations h answers s).1 path hpath

/-- Answers that make no difference at any path make none at all. -/
theorem restore_congr (h : FileBackup.capture fault s₀ paths = .ok b)
    {answers' : String → FileAnswer}
    (heq : ∀ path ∈ paths, restoreFile path (s₀ path) (answers path) s =
      restoreFile path (s₀ path) (answers' path) s) :
    b.restore answers s = b.restore answers' s := by
  have hstate : (b.restore answers s).1 = (b.restore answers' s).1 := by
    funext path
    by_cases hpath : path ∈ paths
    · rw [restore_path h hpath, restore_path h hpath, heq path hpath]
    · exact (FileBackup.keeps h answers hpath s).trans (FileBackup.keeps h answers' hpath s).symm
  have herrors : (each ((b.restorations answers).map Prod.snd) s).2 =
      (each ((b.restorations answers').map Prod.snd) s).2 := by
    rw [(each_restorations h answers s).2, (each_restorations h answers' s).2,
      FileBackup.restorations, FileBackup.restorations, List.flatMap_map, List.flatMap_map]
    refine List.flatMap_congr fun f hf => ?_
    have hvalue := (captureFrom_ok h (by simp)).1 f (List.mem_reverse.mp hf)
    have hpath : f.1 ∈ paths := (mem_files h).mpr (hvalue ▸ List.mem_reverse.mp hf)
    simp only [context, hvalue, heq f.1 hpath]
  rw [restore_eq, restore_eq] at *
  refine Prod.ext hstate ?_
  rw [tryAll_snd, tryAll_snd, herrors]

/-! ## Writing -/

/-- The call that writes at `path` ends in another way. -/
def endAt (answers : String → FileAnswer) (path : String) (x : Answer (Option (List UInt8))) :
    String → FileAnswer :=
  Function.update answers path { answers path with ends := x }

/-- The restoration writes at `path`: how the call ends makes a difference. -/
def FileBackup.Writes (b : FileBackup) (answers : String → FileAnswer) (s : Files)
    (path : String) : Prop :=
  ∃ x, b.restore (endAt answers path x) s ≠ b.restore answers s

theorem not_writes (h : FileBackup.capture fault s₀ paths = .ok b) {path : String}
    (hfile : (s₀ path).isSome) (hsame : s path = s₀ path)
    (hread : (answers path).unreadable = false) : ¬ b.Writes answers s path := by
  rintro ⟨x, hx⟩
  refine hx (restore_congr h fun path' _ => ?_)
  by_cases hpath : path' = path
  · subst hpath
    obtain ⟨bytes, hbytes⟩ := Option.isSome_iff_exists.mp hfile
    rw [hbytes] at hsame ⊢
    simp [restoreFile, endAt, hread, hsame]
  · rw [endAt, Function.update_of_ne hpath]

/-- With the captured files changed in any way since, a restoration puts back
every path that does not fail on its own, and says so if one does. It touches
no other path, and no file it can read and finds unchanged. -/
theorem backup_restores (fault : String → Option String) (s₀ s : Files) (paths : List String)
    (b : FileBackup) (answers : String → FileAnswer)
    (h : FileBackup.capture fault s₀ paths = .ok b) :
    (∀ path ∈ paths, (restoreFile path (s₀ path) (answers path) s).2 = none →
      (b.restore answers s).1 path = s₀ path) ∧
    ((b.restore answers s).2 = none ↔
      ∀ path ∈ paths, (restoreFile path (s₀ path) (answers path) s).2 = none) ∧
    ((b.restore answers s).2 = none → ∀ path ∈ paths, (b.restore answers s).1 path = s₀ path) ∧
    (∀ path ∈ paths, (s₀ path).isSome → s path = s₀ path →
      (answers path).unreadable = false → ¬ b.Writes answers s path) ∧
    ∀ path, path ∉ paths → (b.restore answers s).1 path = s path := by
  have hpaths : ∀ path ∈ paths, (restoreFile path (s₀ path) (answers path) s).2 = none →
      (b.restore answers s).1 path = s₀ path := by
    intro path hpath hok
    rw [restore_path h hpath]
    exact gives_restoreFile s hok
  refine ⟨hpaths, restore_none_iff h, ?_, ?_, ?_⟩
  · intro hok path hpath
    exact hpaths path hpath ((restore_none_iff h).mp hok path hpath)
  · intro path _ hfile hsame hread
    exact not_writes h hfile hsame hread
  · intro path hpath
    exact FileBackup.keeps h answers hpath s

/-! ## A blocked file -/

/-- Before the installation, with two files. -/
def twoFiles : Files :=
  setAt "config.toml" (some [1]) (setAt "gdut-net.exe" (some [2]) fun _ => none)

/-- The configuration written, a script added and the executable gone. -/
def upgraded : Files := setAt "config.toml" (some [7]) (setAt "new.bat" (some [8]) fun _ => none)

def blocked (path : String) : FileAnswer :=
  { ends := if path = "gdut-net.exe" then ⟨some "access denied", none⟩ else default }

def twoPaths : List String := ["config.toml", "gdut-net.exe", "config.toml", "new.bat"]

theorem backup_restores_blocked :
    ∃ b, FileBackup.capture (fun _ => none) twoFiles twoPaths = .ok b ∧
      (b.restore blocked upgraded).1 "config.toml" = some [1] ∧
      (b.restore blocked upgraded).1 "new.bat" = none ∧
      (b.restore blocked upgraded).2 ≠ none := by
  refine ⟨⟨[("config.toml", some [1]), ("gdut-net.exe", some [2]), ("new.bat", none)]⟩, rfl, ?_⟩
  have h := backup_restores (fun _ => none) twoFiles upgraded twoPaths
    ⟨[("config.toml", some [1]), ("gdut-net.exe", some [2]), ("new.bat", none)]⟩ blocked rfl
  refine ⟨h.1 "config.toml" (by decide) rfl, h.1 "new.bat" (by decide) rfl, ?_⟩
  exact fun hok => nomatch h.2.1.mp hok "gdut-net.exe" (by decide)

/-- A file that cannot be read is written although it is as it was recorded. -/
theorem unreadable_written :
    FileBackup.capture (fun _ => none) twoFiles ["config.toml"] =
      .ok ⟨[("config.toml", some [1])]⟩ ∧
    FileBackup.Writes ⟨[("config.toml", some [1])]⟩ (fun _ => { unreadable := true }) twoFiles
      "config.toml" :=
  ⟨rfl, ⟨some "access denied", some [1]⟩, fun h => nomatch congrArg Prod.snd h⟩

end GdutNet.Install
