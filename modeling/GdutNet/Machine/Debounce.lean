import Mathlib.Data.List.Basic

/-!
# Debouncing by a timestamp

A debounce that keeps one timestamp instead of a history: the stamp is set at
the first good observation, kept while they stay good and cleared at a bad one.
It is sound as long as the stamp *vouches* for the past, which is broken exactly
by a bad observation that leaves the stamp where it was.
-/

namespace GdutNet.Machine

variable {α : Type*} {time : α → ℕ} {good : α → Prop}

/-- Every observation made in `(t - d, t]` was good. -/
def Steady (time : α → ℕ) (good : α → Prop) (past : List α) (d t : ℕ) : Prop :=
  ∀ a ∈ past, t < time a + d → time a ≤ t → good a

/-- No observation later than the stamp was bad. -/
def Vouches (time : α → ℕ) (good : α → Prop) (stamp : Option ℕ) (past : List α) : Prop :=
  ∀ s ∈ stamp, ∀ a ∈ past, s < time a → good a

/-- The observation is bad and later than the stamp: keeping the stamp would
make it lie. -/
def Outdates (time : α → ℕ) (good : α → Prop) (a : α) (stamp : Option ℕ) : Prop :=
  ∃ s ∈ stamp, s < time a ∧ ¬ good a

theorem Vouches.none (past : List α) : Vouches time good none past := by
  intro s hs
  cases hs

variable {stamp : Option ℕ} {past : List α} {a : α}

/-- A good observation keeps the stamp, or sets it. -/
theorem Vouches.set (h : Vouches time good stamp past)
    (hold : ∀ b ∈ past, time b ≤ time a) (ha : good a) :
    Vouches time good (some (stamp.getD (time a))) (past ++ [a]) := by
  intro s hs b hb hlt
  rcases List.mem_append.mp hb with hb | hb
  · cases stamp with
    | none =>
        cases hs
        exact absurd (hold b hb) (Nat.not_le.mpr hlt)
    | some s₀ => exact h s hs b hb hlt
  · rwa [List.mem_singleton.mp hb]

/-- Any other observation may leave the stamp alone unless it outdates it. -/
theorem Vouches.keep (h : Vouches time good stamp past) (ha : ¬ Outdates time good a stamp) :
    Vouches time good stamp (past ++ [a]) := by
  intro s hs b hb hlt
  rcases List.mem_append.mp hb with hb | hb
  · exact h s hs b hb hlt
  · rw [List.mem_singleton] at hb
    subst hb
    by_contra hbad
    exact ha ⟨s, hs, hlt, hbad⟩

/-- The debounce is sound: a stamp that is `d` old has seen `d` of good
observations. -/
theorem Vouches.steady {d t : ℕ} (h : Vouches time good stamp past)
    (hlong : d ≤ t - stamp.getD t) : Steady time good past d t := by
  intro a ha hin hle
  cases stamp with
  | none =>
      rw [Option.getD_none, Nat.sub_self] at hlong
      omega
  | some s =>
      rw [Option.getD_some] at hlong
      exact h s rfl a ha (by omega)

/-- An outdated stamp that is kept comes to lie: at this time the debounce lets
go, and the bad observation is still in the window. -/
def lapse (time : α → ℕ) (a : α) (s d : ℕ) : ℕ := max (time a) (s + d)

theorem lapse_due (a : α) (s d : ℕ) : d ≤ lapse time a s d - s := by
  unfold lapse
  omega

theorem le_lapse (a : α) (s d : ℕ) : time a ≤ lapse time a s d := Nat.le_max_left _ _

theorem not_steady_lapse {s d : ℕ} (ha : a ∈ past) (hbad : ¬ good a) (hs : s < time a)
    (hd : 0 < d) : ¬ Steady time good past d (lapse time a s d) := by
  intro hsteady
  refine hbad (hsteady a ha ?_ (le_lapse a s d))
  unfold lapse
  omega

end GdutNet.Machine
