import GdutNet.Setup.Backup
import GdutNet.Stream.Json
import Mathlib.Data.Finset.Card
import Mathlib.Logic.Function.Basic
import Std.Data.String.ToNat

/-!
# Replacing one file

`replace_file` of `file_backup.rs`, over a file system every call of which may
fail. A failed call leaves things as they are, except that a failed write leaves
what it got to. Besides the faults, an error says what is there: `NotFound` that
the source is absent, `AlreadyExists` that the name is taken. Nobody else writes
in the directory.
-/

namespace GdutNet.Replace

/-! ## The file system -/

/-- The components of a path. -/
abbrev Path : Type := List String

inductive Node where
  | file (bytes : List UInt8)
  | other
deriving DecidableEq, Repr

abbrev Tree : Type := Path → Option Node

/-- A tree with finitely many entries. -/
structure Disk where
  node : Tree
  entries : List Path
  complete : ∀ p, (node p).isSome → p ∈ entries

inductive IoError where
  | notFound
  | alreadyExists
  | failed (text : String)
deriving DecidableEq, Repr

def put (p : Path) (n : Option Node) (s : Tree) : Tree := Function.update s p n

/-- `OpenOptions::create_new`. -/
def createNew (fault : Option String) (p : Path) (s : Tree) : Except IoError Tree :=
  match fault, s p with
  | some e, _ => .error (.failed e)
  | none, some _ => .error .alreadyExists
  | none, none => .ok (put p (some (.file [])) s)

/-- `fs::rename`; a file there is replaced. -/
def rename (fault : Option String) (src dst : Path) (s : Tree) : Except IoError Tree :=
  match fault, s src with
  | some e, _ => .error (.failed e)
  | none, none => .error .notFound
  | none, some node =>
      if src = dst then .ok s
      else if s dst = some .other then .error (.failed "Access is denied. (os error 5)")
      else .ok (put src none (put dst (some node) s))

/-- `fs::remove_file`. -/
def removeFile (fault : Option String) (p : Path) (s : Tree) : Except IoError Tree :=
  match fault, s p with
  | some e, _ => .error (.failed e)
  | none, none => .error .notFound
  | none, some .other => .error (.failed "Access is denied. (os error 5)")
  | none, some (.file _) => .ok (put p none s)

/-- `Path::parent`. -/
def parent (p : Path) : Option Path := if p = [] then none else some p.dropLast

/-- `Path::file_stem` of a last component. -/
def fileStem (name : String) : String :=
  match rsplitOnce '.' name.toList with
  | none => name
  | some ([], _) => name
  | some (stem, _) => String.ofList stem

/-- `Path::with_extension`. -/
def withExtension (p : Path) (extension : String) : Path :=
  p.dropLast ++ (p.getLast?.map fun name => fileStem name ++ "." ++ extension).toList

/-! ## The code -/

/-- The errors the calls answer with. -/
structure Faults where
  inspect : Option String := none
  create : ℕ → Option String := fun _ => none
  /-- with what the staged file is left with -/
  write : Option (String × List UInt8) := none
  sync : Option String := none
  retain : Option String := none
  publish : Option String := none
  giveBack : Option String := none
  removePrevious : Option String := none
  cleanUp : Option String := none

def stagedName (pid n : ℕ) : String := ".gdut-install-" ++ toString pid ++ "-" ++ toString n

/-- The counter goes on until a name is free. -/
def createStaged (a : Faults) (pid : ℕ) (dir : Path) (s : Tree) :
    ℕ → ℕ → Option (ℕ × Except IoError Tree)
  | 0, _ => none
  | fuel + 1, n =>
      match createNew (a.create n) (dir ++ [stagedName pid n]) s with
      | .error .alreadyExists => createStaged a pid dir s fuel (n + 1)
      | r => some (n, r)

section Code

variable (display : IoError → String) (shown : Path → String) (a : Faults)

def publishStaged (path staged previous : Path) (hadPrevious : Bool) (s : Tree) :
    Tree × Option String :=
  match rename a.publish staged path s with
  | .error error =>
      if hadPrevious then
        match rename a.giveBack previous path s with
        | .error e =>
            (s, some ("Replacement failed (" ++ display error ++ "); original retained at " ++
              shown previous ++ ": " ++ display e))
        | .ok s => (s, some ("Failed to publish staged file: " ++ display error))
      else (s, some ("Failed to publish staged file: " ++ display error))
  | .ok s =>
      if hadPrevious then
        match removeFile a.removePrevious previous s with
        | .error e => (s, some ("Failed to remove previous staged file: " ++ display e))
        | .ok s => (s, none)
      else (s, none)

/-- From the staged file on, up to the clean-up. -/
def install (path staged : Path) (bytes : List UInt8) (s : Tree) : Tree × Option String :=
  match a.write with
  | some (e, part) => (put staged (some (.file part)) s, some e)
  | none =>
      let s := put staged (some (.file bytes)) s
      match a.sync with
      | some e => (s, some e)
      | none =>
          let previous := withExtension staged "old"
          if (s previous).isSome then (s, some "Staging backup already exists")
          else
            match rename a.retain path previous s with
            | .ok s => publishStaged display shown a path staged previous true s
            | .error .notFound => publishStaged display shown a path staged previous false s
            | .error e => (s, some ("Failed to retain previous file: " ++ display e))

/-- `staged` is the file this call created, `next` the counter afterwards. -/
structure Replaced where
  tree : Tree
  staged : Option Path := none
  next : ℕ
  error : Option String

/-- The clean-up, whose own failure is ignored. -/
def finish (staged : Path) (next : ℕ) (r : Tree × Option String) : Replaced :=
  { tree := (removeFile a.cleanUp staged r.1).toOption.getD r.1
    staged := some staged, next, error := r.2 }

def inspectError (path : Path) (s : Tree) : Option String :=
  match a.inspect, s path with
  | some e, _ => some ("Failed to inspect destination: " ++ e)
  | none, some .other => some ("Destination is not a regular file: " ++ shown path)
  | none, _ => none

/-- `none` if no name was free after as many turns as there are entries. -/
def replaceFile (pid next : ℕ) (path : Path) (bytes : List UInt8) (d : Disk) :
    Option Replaced :=
  match inspectError shown a path d.node with
  | some e => some { tree := d.node, next, error := some e }
  | none =>
      match parent path with
      | none => some { tree := d.node, next, error := some "File destination has no parent" }
      | some dir =>
          match createStaged a pid dir d.node (d.entries.length + 1) next with
          | none => none
          | some (n, .error e) =>
              some { tree := d.node, next := n + 1
                     error := some ("Failed to create staged file: " ++ display e) }
          | some (n, .ok s) =>
              let staged := dir ++ [stagedName pid n]
              some (finish a staged (n + 1) (install display shown a path staged bytes s))

end Code

/-! ## The staged file -/

theorem toList_stagedName (pid n : ℕ) :
    (stagedName pid n).toList = ".gdut-install-".toList ++ (toString pid).toList ++
      "-".toList ++ (toString n).toList := by
  show (".gdut-install-" ++ toString pid ++ "-" ++ toString n).toList = _
  simp only [String.toList_append]

theorem stagedName_inj {pid m n : ℕ} (h : stagedName pid m = stagedName pid n) : m = n := by
  refine Nat.repr_inj.mp ?_
  have := congrArg String.toList h
  rw [toList_stagedName, toList_stagedName] at this
  exact String.toList_inj.mp (List.append_cancel_left this)

theorem rsplitOnce_cons {sep : Char} {cs : List Char} (h : sep ∉ cs) :
    rsplitOnce sep (sep :: cs) = some ([], cs) := by
  have hafter : (sep :: cs).reverse.takeWhile (· ≠ sep) = cs.reverse := by
    rw [List.reverse_cons, List.takeWhile_append_of_pos]
    · simp
    · intro c hc
      have hne : c ≠ sep := fun hcs => h (hcs ▸ List.mem_reverse.mp hc)
      simp [hne]
  rw [rsplitOnce, if_pos List.mem_cons_self]
  dsimp only
  rw [hafter, List.reverse_reverse, List.length_cons, Nat.add_sub_cancel_left]
  rfl

/-- The dot in front of the name does not make an extension. -/
theorem fileStem_staged (pid n : ℕ) : fileStem (stagedName pid n) = stagedName pid n := by
  have hdigits : ∀ k : ℕ, '.' ∉ (toString k).toList := by
    intro k hk
    have := Json.isDigit_of_mem_toString hk
    simp at this
  have hdot : ".gdut-install-".toList = '.' :: "gdut-install-".toList := by decide
  have hname : (stagedName pid n).toList =
      '.' :: ("gdut-install-".toList ++ (toString pid).toList ++ "-".toList ++
        (toString n).toList) := by
    simp only [toList_stagedName, hdot, List.cons_append]
  rw [fileStem, hname, rsplitOnce_cons]
  simp only [List.mem_append, not_or]
  exact ⟨⟨⟨by decide, hdigits pid⟩, by decide⟩, hdigits n⟩

theorem withExtension_staged (dir : Path) (pid n : ℕ) :
    withExtension (dir ++ [stagedName pid n]) "old" = dir ++ [stagedName pid n ++ ".old"] := by
  simp [withExtension, fileStem_staged, String.append_assoc]

section Staged

variable {a : Faults} {pid fuel n : ℕ} {dir : Path} {s : Tree}

theorem createStaged_none (h : createStaged a pid dir s fuel n = none) :
    ∀ k < fuel, (s (dir ++ [stagedName pid (n + k)])).isSome := by
  induction fuel generalizing n with
  | zero => simp
  | succ fuel ih =>
      unfold createStaged at h
      split at h
      · rename_i htaken
        intro k hk
        cases k with
        | zero =>
            unfold createNew at htaken
            split at htaken
            · cases htaken
            · rename_i hs
              simp [hs]
            · cases htaken
        | succ k =>
            have := ih h k (by omega)
            rwa [Nat.add_right_comm, Nat.add_assoc] at this
      · cases h

theorem createStaged_ok {m : ℕ} {s' : Tree}
    (h : createStaged a pid dir s fuel n = some (m, .ok s')) :
    s (dir ++ [stagedName pid m]) = none ∧
      s' = put (dir ++ [stagedName pid m]) (some (.file [])) s := by
  induction fuel generalizing n with
  | zero => cases h
  | succ fuel ih =>
      unfold createStaged at h
      split at h
      · exact ih h
      · obtain ⟨rfl, hnew⟩ := Prod.mk.inj (Option.some.inj h)
        unfold createNew at hnew
        split at hnew
        · cases hnew
        · cases hnew
        · rename_i hs
          exact ⟨hs, (Except.ok.inj hnew).symm⟩

/-- More names than entries: one of them is free. -/
theorem createStaged_total (a : Faults) (pid next : ℕ) (dir : Path) (d : Disk) :
    (createStaged a pid dir d.node (d.entries.length + 1) next).isSome := by
  by_contra hnone
  have htaken := createStaged_none (Option.not_isSome_iff_eq_none.mp hnone)
  let name := fun k => dir ++ [stagedName pid (next + k)]
  have hname : Function.Injective name := by
    intro j k h
    have := stagedName_inj (List.singleton_injective (List.append_cancel_left h))
    omega
  have hsub : (Finset.range (d.entries.length + 1)).image name ⊆ d.entries.toFinset := by
    intro p hp
    obtain ⟨k, hk, rfl⟩ := Finset.mem_image.mp hp
    exact List.mem_toFinset.mpr (d.complete _ (htaken k (Finset.mem_range.mp hk)))
  have hcard := Finset.card_le_card hsub
  rw [Finset.card_image_of_injective _ hname, Finset.card_range] at hcard
  have := d.entries.toFinset_card_le
  omega

end Staged

/-! ## What an installation leaves -/

/-- The ends of an installation over `s₀`: nothing done but the staged file, the
previous file not brought back, the previous file not removed, all done. -/
inductive Outcome (a : Faults) (path staged previous : Path) (bytes : List UInt8) (s₀ : Tree) :
    Tree × Option String → Prop
  | failed (c : List UInt8) (e : String) :
      Outcome a path staged previous bytes s₀ (put staged (some (.file c)) s₀, some e)
  | notBack (e : String) (hfault : a.giveBack ≠ none) (hne : previous ≠ path)
      (hfree : s₀ previous = none) :
      Outcome a path staged previous bytes s₀
        (put path none (put previous (s₀ path) (put staged (some (.file bytes)) s₀)), some e)
  | notRemoved (e : String) (hfault : a.removePrevious ≠ none) (hne : previous ≠ path)
      (hfree : s₀ previous = none) :
      Outcome a path staged previous bytes s₀
        (put path (some (.file bytes)) (put previous (s₀ path) s₀), some e)
  | done : Outcome a path staged previous bytes s₀ (put path (some (.file bytes)) s₀, none)

section Install

variable {display : IoError → String} {shown : Path → String} {a : Faults}
  {path staged previous : Path} {bytes : List UInt8} {s₀ s : Tree}

theorem put_apply {p q : Path} {n : Option Node} : put p n s q = if q = p then n else s q :=
  Function.update_apply s p n q

theorem put_self {p : Path} {n : Option Node} : put p n s p = n := by
  rw [put, Function.update_self]

theorem put_ne {p q : Path} {n : Option Node} (h : q ≠ p) : put p n s q = s q := by
  rw [put, Function.update_of_ne h]

theorem put_put {p : Path} {m n : Option Node} : put p n (put p m s) = put p n s := by
  rw [put, put, put, Function.update_idem]

theorem put_eq_self {p : Path} {n : Option Node} (h : s p = n) : put p n s = s := by
  rw [put, ← h, Function.update_eq_self]

theorem put_comm {p q : Path} {m n : Option Node} (h : p ≠ q) :
    put p m (put q n s) = put q n (put p m s) := by
  unfold put
  exact Function.update_comm h.symm n m s

theorem rename_fault {e : String} {src dst : Path} :
    rename (some e) src dst s = .error (.failed e) := rfl

theorem rename_missing {src dst : Path} (h : s src = none) :
    rename none src dst s = .error .notFound := by
  simp [rename, h]

theorem rename_absent {src dst : Path} {node : Node} (hne : src ≠ dst) (hdst : s dst = none)
    (hsrc : s src = some node) :
    rename none src dst s = .ok (put src none (put dst (some node) s)) := by
  simp [rename, hsrc, hne, hdst]

theorem publishStaged_new (hne : staged ≠ path) (hstaged : s₀ staged = none)
    (hpath : s₀ path = none) :
    Outcome a path staged previous bytes s₀ (publishStaged display shown a path staged previous
      false (put staged (some (.file bytes)) s₀)) := by
  unfold publishStaged
  rcases a.publish with _ | e
  · rw [rename_absent hne (by rw [put_ne hne.symm, hpath]) put_self]
    dsimp only
    rw [if_neg (by simp), put_comm hne, put_put, put_eq_self hstaged]
    exact .done
  · exact .failed bytes _

theorem publishStaged_over {old : List UInt8} (hne : staged ≠ path) (hprevious : previous ≠ path)
    (hdistinct : previous ≠ staged) (hstaged : s₀ staged = none) (hfree : s₀ previous = none)
    (hold : s₀ path = some (.file old)) :
    Outcome a path staged previous bytes s₀ (publishStaged display shown a path staged previous
      true (put path none (put previous (some (.file old)) (put staged (some (.file bytes)) s₀))))
    := by
  have hsrc : put path none (put previous (some (.file old))
      (put staged (some (.file bytes)) s₀)) staged = some (.file bytes) := by
    rw [put_ne hne, put_ne hdistinct.symm, put_self]
  unfold publishStaged
  rcases a.publish with _ | e
  · rw [rename_absent hne put_self hsrc, put_put]
    -- The new file is in place and the previous one beside it.
    have hplaced : put staged none (put path (some (.file bytes)) (put previous (some (.file old))
        (put staged (some (.file bytes)) s₀))) =
        put path (some (.file bytes)) (put previous (some (.file old)) s₀) := by
      rw [put_comm hne, put_comm hdistinct.symm, put_put, put_eq_self hstaged]
    have hbeside : put path (some (.file bytes)) (put previous (some (.file old)) s₀) previous =
        some (.file old) := by
      rw [put_ne hprevious, put_self]
    dsimp only
    rw [if_pos rfl, hplaced]
    rcases hremove : a.removePrevious with _ | e
    · simp only [removeFile, hbeside]
      rw [put_comm hprevious, put_put, put_eq_self hfree]
      exact .done
    · rw [← hold]
      exact .notRemoved _ (by simp [hremove]) hprevious hfree
  · rw [rename_fault]
    dsimp only
    rw [if_pos rfl]
    rcases hgive : a.giveBack with _ | e'
    · have hgiven : put previous none (put path (some (.file old)) (put path none
          (put previous (some (.file old)) (put staged (some (.file bytes)) s₀)))) =
          put staged (some (.file bytes)) s₀ := by
        rw [put_put, put_comm hprevious, put_put, put_eq_self ((put_ne hdistinct).trans hfree),
          put_eq_self ((put_ne hne.symm).trans hold)]
      rw [rename_absent hprevious put_self (by rw [put_ne hprevious, put_self]), hgiven]
      exact .failed bytes _
    · rw [← hold]
      exact .notBack _ (by simp [hgive]) hprevious hfree

theorem install_outcome (hne : staged ≠ path) (hfile : s₀ path ≠ some .other)
    (hstaged : s₀ staged = none) (hdistinct : withExtension staged "old" ≠ staged) :
    Outcome a path staged (withExtension staged "old") bytes s₀
      (install display shown a path staged bytes (put staged (some (.file [])) s₀)) := by
  unfold install
  generalize withExtension staged "old" = previous at *
  dsimp only
  rw [put_put]
  rcases a.write with _ | ⟨e, part⟩
  · rcases a.sync with _ | e
    · dsimp only
      rw [put_ne hdistinct]
      rcases hfree : s₀ previous with _ | node
      · rw [if_neg (by simp)]
        rcases a.retain with _ | e
        · rcases hold : s₀ path with _ | ⟨old⟩ | _
          · rw [rename_missing (by rw [put_ne hne.symm, hold])]
            exact publishStaged_new hne hstaged hold
          · have hprevious : previous ≠ path := by
              rintro rfl
              rw [hold] at hfree
              cases hfree
            rw [rename_absent hprevious.symm (by rw [put_ne hdistinct, hfree])
              (by rw [put_ne hne.symm, hold])]
            exact publishStaged_over hne hprevious hdistinct hstaged hfree hold
          · exact absurd hold hfile
        · exact .failed bytes _
      · exact .failed bytes _
    · exact .failed bytes _
  · dsimp only
    rw [put_put]
    exact .failed part _

theorem rename_ne {s' : Tree} {fault : Option String} {src dst p : Path}
    (h : rename fault src dst s = .ok s') (hsrc : p ≠ src) (hdst : p ≠ dst) : s' p = s p := by
  unfold rename at h
  split at h
  · cases h
  · cases h
  · split at h
    · rw [Except.ok.inj h]
    · split at h
      · cases h
      · rw [← Except.ok.inj h, put_ne hsrc, put_ne hdst]

theorem publishStaged_gone (hgone : s staged = none) :
    (publishStaged display shown a staged staged previous true s).2 ≠ none ∧
      ∀ p, p ≠ staged → p ≠ previous →
        (publishStaged display shown a staged staged previous true s).1 p = s p := by
  have hfails : ∃ e, rename a.publish staged staged s = .error e := by
    rcases a.publish with _ | e
    · exact ⟨_, rename_missing hgone⟩
    · exact ⟨_, rename_fault⟩
  obtain ⟨e, hfails⟩ := hfails
  unfold publishStaged
  rw [hfails]
  dsimp only
  rw [if_pos rfl]
  rcases hgive : rename a.giveBack previous staged s with e' | s'
  · exact ⟨by simp, fun _ _ _ => rfl⟩
  · exact ⟨by simp, fun p hp hprevious => rename_ne hgive hprevious hp⟩

/-- A destination that is absent and has the name of the staged file is given up:
nothing is left to publish. -/
theorem install_self (hdistinct : withExtension staged "old" ≠ staged) :
    (install display shown a staged staged bytes (put staged (some (.file [])) s₀)).2 ≠ none ∧
      ∀ p, p ≠ staged →
        (install display shown a staged staged bytes (put staged (some (.file [])) s₀)).1 p = s₀ p ∨
          s₀ p = none ∧ p = withExtension staged "old" := by
  unfold install
  generalize withExtension staged "old" = previous at *
  dsimp only
  rw [put_put]
  have hput (c : List UInt8) (e : String) : (put staged (some (.file c)) s₀, some e).2 ≠ none ∧
      ∀ p, p ≠ staged → (put staged (some (.file c)) s₀, some e).1 p = s₀ p ∨
        s₀ p = none ∧ p = previous :=
    ⟨by simp, fun p hp => .inl (put_ne hp)⟩
  rcases a.write with _ | ⟨e, part⟩
  · rcases a.sync with _ | e
    · dsimp only
      rw [put_ne hdistinct]
      rcases hfree : s₀ previous with _ | node
      · rw [if_neg (by simp)]
        rcases a.retain with _ | e
        · rw [rename_absent hdistinct.symm (by rw [put_ne hdistinct, hfree]) put_self]
          have hgone : put staged none (put previous (some (.file bytes))
              (put staged (some (.file bytes)) s₀)) staged = none := put_self
          obtain ⟨herr, hsame⟩ := publishStaged_gone hgone
          refine ⟨herr, fun p hp => ?_⟩
          by_cases hprevious : p = previous
          · exact .inr ⟨hprevious ▸ hfree, hprevious⟩
          · left
            rw [hsame p hp hprevious, put_ne hp, put_ne hprevious, put_ne hp]
        · exact hput bytes _
      · exact hput bytes _
    · exact hput bytes _
  · dsimp only
    rw [put_put]
    exact hput part _

theorem finish_ne {next : ℕ} {r : Tree × Option String} {p : Path} (h : p ≠ staged) :
    (finish a staged next r).tree p = r.1 p := by
  unfold finish removeFile
  dsimp only
  split
  · rfl
  · rfl
  · rfl
  · exact put_ne h

theorem finish_absent {next : ℕ} {r : Tree × Option String} (h : r.1 staged = none) :
    (finish a staged next r).tree = r.1 := by
  unfold finish removeFile
  dsimp only
  rw [h]
  split
  · rfl
  · rfl
  · contradiction
  · contradiction

end Install

/-- What a run does to the destination, and to everything else. -/
structure AllOrNothing (a : Faults) (path : Path) (bytes : List UInt8) (s₀ : Tree)
    (r : Replaced) : Prop where
  done : r.error = none → r.tree = put path (some (.file bytes)) s₀
  undone : r.error ≠ none → r.staged ≠ some path → r.tree path = s₀ path ∨
    ∃ staged ∈ r.staged, r.tree (withExtension staged "old") = s₀ path ∧
      (a.giveBack ≠ none ∨ a.removePrevious ≠ none ∧ r.tree path = some (.file bytes))
  others : ∀ p, p ≠ path → r.tree p = s₀ p ∨
    s₀ p = none ∧ ∃ staged ∈ r.staged, p = staged ∨ p = withExtension staged "old"
  irregular : s₀ path = some .other → r.error ≠ none ∧ r.tree = s₀

section AllOrNothing

variable {display : IoError → String} {shown : Path → String} {a : Faults}
  {path staged : Path} {bytes : List UInt8} {s₀ : Tree} {next : ℕ}

theorem allOrNothing_untouched {e : String} :
    AllOrNothing a path bytes s₀ { tree := s₀, next, error := some e } where
  done h := by cases h
  undone _ _ := .inl rfl
  others _ _ := .inl rfl
  irregular _ := ⟨by simp, rfl⟩

theorem allOrNothing_outcome {r : Tree × Option String} (hne : staged ≠ path)
    (hfile : s₀ path ≠ some .other) (hstaged : s₀ staged = none)
    (hdistinct : withExtension staged "old" ≠ staged)
    (h : Outcome a path staged (withExtension staged "old") bytes s₀ r) :
    AllOrNothing a path bytes s₀ (finish a staged next r) where
  done herr := by
    cases h with
    | failed c e => cases herr
    | notBack e => cases herr
    | notRemoved e => cases herr
    | done => exact finish_absent ((put_ne hne).trans hstaged)
  undone herr _ := by
    rw [finish_ne hne.symm]
    cases h with
    | failed c e => exact .inl (put_ne hne.symm)
    | notBack e hfault hbeside _ =>
        refine .inr ⟨staged, rfl, ?_, .inl hfault⟩
        rw [finish_ne hdistinct]
        exact (put_ne hbeside).trans put_self
    | notRemoved e hfault hbeside _ =>
        refine .inr ⟨staged, rfl, ?_, .inr ⟨hfault, put_self⟩⟩
        rw [finish_ne hdistinct]
        exact (put_ne hbeside).trans put_self
    | done => exact absurd rfl herr
  others p hp := by
    by_cases hp' : p = staged
    · subst hp'
      exact .inr ⟨hstaged, p, rfl, .inl rfl⟩
    · rw [finish_ne hp']
      by_cases hprevious : p = withExtension staged "old"
      · subst hprevious
        cases h with
        | failed c e => exact .inl (put_ne hp')
        | notBack e _ _ hfree => exact .inr ⟨hfree, staged, rfl, .inr rfl⟩
        | notRemoved e _ _ hfree => exact .inr ⟨hfree, staged, rfl, .inr rfl⟩
        | done => exact .inl (put_ne hp)
      · left
        cases h with
        | failed c e => exact put_ne hp'
        | notBack e _ _ _ => exact (put_ne hp).trans ((put_ne hprevious).trans (put_ne hp'))
        | notRemoved e _ _ _ => exact (put_ne hp).trans (put_ne hprevious)
        | done => exact put_ne hp
  irregular h := absurd h hfile

theorem allOrNothing_installed (hfile : s₀ path ≠ some .other) (hstaged : s₀ staged = none)
    (hdistinct : withExtension staged "old" ≠ staged) :
    AllOrNothing a path bytes s₀ (finish a staged next
      (install display shown a path staged bytes (put staged (some (.file [])) s₀))) := by
  by_cases hne : staged = path
  · subst hne
    obtain ⟨herr, hothers⟩ := install_self hdistinct
    exact {
      done := fun h => absurd h herr
      undone := fun _ h => absurd rfl h
      others := by
        intro p hp
        rw [finish_ne hp]
        exact (hothers p hp).imp_right fun h => ⟨h.1, staged, rfl, .inr h.2⟩
      irregular := fun h => absurd h hfile }
  · exact allOrNothing_outcome hne hfile hstaged hdistinct
      (install_outcome hne hfile hstaged hdistinct)

end AllOrNothing

theorem inspectError_none {shown : Path → String} {a : Faults} {path : Path} {s : Tree}
    (h : inspectError shown a path s = none) : s path ≠ some .other := by
  intro hother
  unfold inspectError at h
  rw [hother] at h
  split at h
  · cases h
  · cases h
  · contradiction

theorem replace_spec (display : IoError → String) (shown : Path → String) (a : Faults)
    (pid next : ℕ) (path : Path) (bytes : List UInt8) (d : Disk) :
    ∃ r, replaceFile display shown a pid next path bytes d = some r ∧
      AllOrNothing a path bytes d.node r := by
  unfold replaceFile
  split
  · exact ⟨_, rfl, allOrNothing_untouched⟩
  rename_i hinspect
  have hfile := inspectError_none hinspect
  split
  · exact ⟨_, rfl, allOrNothing_untouched⟩
  rename_i dir hdir
  obtain ⟨⟨n, r⟩, hcreate⟩ :=
    Option.isSome_iff_exists.mp (createStaged_total a pid next dir d)
  rw [hcreate]
  cases r with
  | error e => exact ⟨_, rfl, allOrNothing_untouched⟩
  | ok s =>
      obtain ⟨hstaged, rfl⟩ := createStaged_ok hcreate
      refine ⟨_, rfl, allOrNothing_installed hfile hstaged ?_⟩
      rw [withExtension_staged]
      intro h
      have := congrArg String.length (List.singleton_injective (List.append_cancel_left h))
      simp at this

/-- Whatever fails: a success replaces the file and leaves nothing beside it. A
failure leaves the file as it was, except where the previous file could not be
brought back or, the new one being in place, not be removed; it then stands
beside. Every other file stays, and what is not a regular file is not touched. -/
theorem replace_all_or_nothing (display : IoError → String) (shown : Path → String)
    (a : Faults) (pid next : ℕ) (path : Path) (bytes : List UInt8) (d : Disk) :
    ∃ r, replaceFile display shown a pid next path bytes d = some r ∧
      (r.error = none → r.tree path = some (.file bytes) ∧
        ∀ p, p ≠ path → r.tree p = d.node p) ∧
      (r.error ≠ none → r.staged ≠ some path → r.tree path = d.node path ∨
        ∃ staged ∈ r.staged, r.tree (withExtension staged "old") = d.node path ∧
          (a.giveBack ≠ none ∨
            a.removePrevious ≠ none ∧ r.tree path = some (.file bytes))) ∧
      (∀ p, p ≠ path → r.tree p = d.node p ∨ d.node p = none ∧
        ∃ staged ∈ r.staged, p = staged ∨ p = withExtension staged "old") ∧
      (d.node path = some .other → r.error ≠ none ∧ r.tree = d.node) := by
  obtain ⟨r, hr, hall⟩ := replace_spec display shown a pid next path bytes d
  refine ⟨r, hr, ?_, hall.undone, hall.others, hall.irregular⟩
  intro herr
  rw [hall.done herr]
  exact ⟨put_self, fun p hp => put_ne hp⟩

/-! ## Where a failure is not the old state -/

def emptyDisk : Disk where
  node _ := none
  entries := []
  complete := by simp

def oneFile : Disk where
  node := put ["dir", "gdut-net.exe"] (some (.file [1])) fun _ => none
  entries := [["dir", "gdut-net.exe"]]
  complete := by
    intro p hp
    rw [put_apply] at hp
    split at hp
    · rename_i h
      exact List.mem_singleton.mpr h
    · cases hp

/-- The new file is published and the previous one cannot be removed; and an
absent destination has the name of the staged file, which cannot be removed. -/
theorem failed_with_new_content :
    (oneFile.node ["dir", "gdut-net.exe"] = some (.file [1]) ∧
      (replaceFile (fun _ => "denied") (fun _ => "gdut-net.exe")
        { removePrevious := some "denied" } 7 0 ["dir", "gdut-net.exe"] [2] oneFile).map
          (fun r => (r.error.isSome, r.tree ["dir", "gdut-net.exe"])) =
        some (true, some (.file [2]))) ∧
    (emptyDisk.node ["dir", ".gdut-install-7-0"] = none ∧
      (replaceFile (fun _ => "denied") (fun _ => ".gdut-install-7-0")
        { cleanUp := some "denied" } 7 0 ["dir", ".gdut-install-7-0"] [2] emptyDisk).map
          (fun r => (r.error.isSome, r.tree ["dir", ".gdut-install-7-0"])) =
        some (true, some (.file [2]))) := by
  decide +kernel

/-! ## The backup's view -/

/-- The regular files, by the names a backup has for them. -/
def contents (name : String → Path) (s : Tree) : Install.Files := fun key =>
  match s (name key) with
  | some (.file bytes) => some bytes
  | _ => none

/-- To a backup, replacing a file is one call on one place. -/
theorem replaceFile_place (display : IoError → String) (shown : Path → String) (a : Faults)
    (pid next : ℕ) {name : String → Path} (hname : Function.Injective name) (key : String)
    (bytes : List UInt8) (d : Disk) :
    ∃ r answer, replaceFile display shown a pid next (name key) bytes d = some r ∧
      r.error = (Install.place key (some bytes) answer (contents name d.node)).2 ∧
      ∀ key', (∀ staged ∈ r.staged, name key' ≠ staged ∧
          name key' ≠ withExtension staged "old") ∨ key' = key →
        contents name r.tree key' =
          (Install.place key (some bytes) answer (contents name d.node)).1 key' := by
  obtain ⟨r, hr, hall⟩ := replace_spec display shown a pid next (name key) bytes d
  refine ⟨r, ⟨r.error, contents name r.tree key⟩, hr, ?_, ?_⟩
  · cases r.error <;> rfl
  · intro key' hkey'
    by_cases hsame : key' = key
    · subst hsame
      cases herr : r.error with
      | none => 
          simp [Install.place, Fallible.write, Install.setAt_self, contents, hall.done herr, put_self]
      | some e => simp [Install.place, Fallible.write, Install.setAt_self]
    · have hne : name key' ≠ name key := fun h => hsame (hname h)
      have hkept : r.tree (name key') = d.node (name key') := by
        rcases hall.others _ hne with h | ⟨_, staged, hmem, h⟩
        · exact h
        · have := (hkey'.resolve_right hsame) staged hmem
          exact absurd h (not_or.mpr this)
      refine Eq.trans ?_ (Install.keeps_place hsame (contents name d.node)).symm
      simp only [contents, hkept]

end GdutNet.Replace
