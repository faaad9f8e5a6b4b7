import GdutNet.Runtime.Shell

/-!
# The configuration file and its two writers

The service loads `config.toml` once and keeps the copy for `PersistMode`, which
writes all of it back. `Site` puts the file beside the shell; between two turns
of the service any other process may write it, as the installer does when it
stores a new password. The copy never changes but for the mode, so what
`PersistMode` writes is the start-up configuration, whatever the file says.
-/

namespace GdutNet

namespace Config

def withMode (c : Config) (mode : NetMode) : Config :=
  { c with wireless := { c.wireless with mode } }

/-- The two differ in `wireless.mode` at most. -/
def SameButMode (c c' : Config) : Prop := c.withMode c'.wireless.mode = c'

instance (c c' : Config) : Decidable (SameButMode c c') :=
  inferInstanceAs (Decidable (c.withMode c'.wireless.mode = c'))

theorem SameButMode.refl (c : Config) : SameButMode c c := rfl

theorem SameButMode.symm {c c' : Config} (h : SameButMode c c') : SameButMode c' c := by
  unfold SameButMode at h ⊢
  rw [← h]
  rfl

theorem SameButMode.trans {a b c : Config} (h : SameButMode a b) (h' : SameButMode b c) :
    SameButMode a c := by
  unfold SameButMode at h h' ⊢
  rw [← h', ← h]
  rfl

end Config

open Config

structure Site where
  shell : Shell
  disk : Config

inductive SiteMove where
  /-- one turn of the service; `saves` is the outcome of its save, if it makes one -/
  | service (m : Move) (saves : Bool)
  /-- another process writes the file -/
  | write (c : Config)

/-- The effect saves the shell's copy. -/
def Effect.persists : Effect → Bool
  | .persistMode _ => true
  | _ => false

namespace Shell

theorem persist_sameButMode (cfg : Config) (effect : Effect) :
    SameButMode cfg (persist cfg effect) := by
  cases effect with
  | persistMode mode => rfl
  | _ => rfl

theorem performAll_sameButMode (outside : ℕ → Outside) (effects : List Effect) (sh : Shell)
    (k : ℕ) : SameButMode sh.cfg (sh.performAll outside k effects).1.cfg := by
  induction effects generalizing sh k with
  | nil => rfl
  | cons effect effects ih =>
      have hone : SameButMode sh.cfg (sh.perform (outside k) effect).1.cfg := by
        unfold perform
        split
        · exact persist_sameButMode sh.cfg effect
        · dsimp only
          split <;> rfl
      exact hone.trans (ih (sh.perform (outside k) effect).1 (k + 1))

/-- A turn changes the copy in the mode only. -/
theorem step_sameButMode [SerdeJson] (sh : Shell) (m : Move) :
    SameButMode sh.cfg (sh.step m).1.cfg := by
  have hmoved := sh.step_moved m
  generalize sh.step m = p at hmoved
  cases hmoved with
  | idle _ => rfl
  | select _ _ => rfl
  | stop _ _ => rfl
  | @pop event rest _ _ =>
      exact performAll_sameButMode m.outside (sh.core.step ⟨m.now, m.wall, event⟩).2.effects
        { sh with
          core := (sh.core.step ⟨m.now, m.wall, event⟩).1
          queue := rest
          wakeAt := (sh.core.step ⟨m.now, m.wall, event⟩).2.wakeAt
          published := (sh.core.step ⟨m.now, m.wall, event⟩).2.snapshot.getD sh.published } 0

end Shell

namespace Site

variable [SerdeJson]

def new (cfg : Config) : Site := ⟨Shell.new cfg, cfg⟩

/-- A failed save is only logged, and leaves the file as it is. -/
def step (w : Site) : SiteMove → Site × List Executed
  | .service m saves =>
      let (shell, executed) := w.shell.step m
      (⟨shell, if saves && executed.any (·.effect.persists) then shell.cfg else w.disk⟩,
        executed)
  | .write c => ({ w with disk := c }, [])

abbrev Record : Type := Machine.Step Site SiteMove (List Executed)

def history (cfg : Config) (ms : List SiteMove) : List Record :=
  Machine.trace step (new cfg) ms

def after (cfg : Config) (ms : List SiteMove) : Site := Machine.final step (new cfg) ms

/-- The step executes a `PersistMode`. -/
def Persists (r : Record) : Prop := ∃ x ∈ r.out, x.effect.persists = true

/-- Its save succeeds. -/
def Saves (r : Record) : Prop := ∃ m, r.input = .service m true

/-- The file keeps everything but the mode. -/
def KeepsOthers (r : Record) : Prop := SameButMode r.pre.disk r.post.disk

/-- The copy is the start-up configuration, but for the mode. -/
theorem after_copy (cfg : Config) (ms : List SiteMove) :
    SameButMode cfg (after cfg ms).shell.cfg := by
  refine Machine.final_induction (I := fun w : Site => SameButMode cfg w.shell.cfg) ?_ ?_ ms
  · intro w m h
    cases m with
    | service m saves => exact h.trans (w.shell.step_sameButMode m)
    | write c => exact h
  · exact .refl cfg

/-- What the file holds after a `PersistMode`. -/
theorem disk_of_persists {w : Site} {a : SiteMove}
    (hpersists : Persists (Machine.stepAt step w a)) :
    (Saves (Machine.stepAt step w a) ∧ (w.step a).1.disk = (w.step a).1.shell.cfg) ∨
      (¬ Saves (Machine.stepAt step w a) ∧ (w.step a).1.disk = w.disk) := by
  cases a with
  | write c =>
      obtain ⟨x, hx, -⟩ := hpersists
      cases hx
  | service m saves =>
      have hany : (w.shell.step m).2.any (·.effect.persists) = true :=
        List.any_eq_true.mpr hpersists
      cases saves with
      | true =>
          refine .inl ⟨⟨m, rfl⟩, ?_⟩
          simp only [step, hany, Bool.and_self, if_true]
      | false =>
          refine .inr ⟨?_, rfl⟩
          rintro ⟨m', hm'⟩
          cases hm'

end Site

/-! ### A password that comes back -/

namespace Site

def oldCfg : Config := { account := ⟨"3120000001", "old blob"⟩ }

/-- The installer stores a new password while the old service is running. -/
def newCfg : Config := { oldCfg with account := ⟨"3120000001", "new blob"⟩ }

def switchToStandby : Move :=
  ⟨1000, 1, .select (.command (.setMode .wiredPlusStandby)), fun _ => Shell.cableIn⟩

/-- The service has started and drained its queue; then the installer writes, and
the user switches the mode. -/
def reinstallMoves : List SiteMove :=
  [.service Shell.turn true, .service Shell.turn true, .write newCfg,
    .service switchToStandby true]

end Site

end GdutNet
