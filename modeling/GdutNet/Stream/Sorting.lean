import Mathlib.Data.List.Sort

/-!
# Stable sorting by a key

`sort_by_key` and `sort_by` of a slice: elements of one key keep their order. Without
two of one key the result is a function of the elements alone; with a flag for a key it
is the list cut in two. Taking a least element again and again sorts too.
-/

namespace GdutNet.Sorting

variable {α κ : Type*} [LinearOrder κ] (key : α → κ)

def sortBy (xs : List α) : List α := xs.mergeSort (fun a b => key a ≤ key b)

variable {key} {xs ys : List α}

theorem sortBy_perm : (sortBy key xs).Perm xs := List.mergeSort_perm xs _

theorem mem_sortBy {a : α} : a ∈ sortBy key xs ↔ a ∈ xs := sortBy_perm.mem_iff

theorem keyLE_trans (a b c : α) (hab : decide (key a ≤ key b) = true)
    (hbc : decide (key b ≤ key c) = true) : decide (key a ≤ key c) = true :=
  decide_eq_true (le_trans (of_decide_eq_true hab) (of_decide_eq_true hbc))

theorem keyLE_total (a b : α) : (decide (key a ≤ key b) || decide (key b ≤ key a)) = true := by
  simpa using le_total (key a) (key b)

theorem sortBy_pairwise : (sortBy key xs).Pairwise (fun a b => key a ≤ key b) :=
  (List.pairwise_mergeSort keyLE_trans keyLE_total xs).imp of_decide_eq_true

/-- A part of the list that is in order keeps its order. -/
theorem sublist_sortBy (hys : ys.Pairwise (fun a b => key a ≤ key b)) (h : ys.Sublist xs) :
    ys.Sublist (sortBy key xs) :=
  List.sublist_mergeSort keyLE_trans keyLE_total (hys.imp decide_eq_true) h

/-- Elements of one key keep their order. -/
theorem filter_sortBy (key : α → κ) (xs : List α) (k : κ) :
    (sortBy key xs).filter (fun a => key a = k) = xs.filter (fun a => key a = k) := by
  have hkey : ∀ a ∈ xs.filter (fun a => key a = k), key a = k := by
    intro a ha
    simpa using (List.mem_filter.mp ha).2
  have hsorted : (xs.filter (fun a => key a = k)).Pairwise (fun a b => key a ≤ key b) :=
    List.pairwise_of_forall_mem_list (fun a ha b hb => by rw [hkey a ha, hkey b hb])
  have hsub := (sublist_sortBy hsorted List.filter_sublist).filter (fun a => key a = k)
  rw [List.filter_filter] at hsub
  simp only [Bool.and_self] at hsub
  exact (hsub.eq_of_length (sortBy_perm.symm.filter _).length_eq).symm

/-- Sorted by a flag, a list is cut in two. -/
theorem sortBy_flag {flag : α → Bool} :
    sortBy flag xs = xs.filter (fun a => !flag a) ++ xs.filter flag := by
  have hfalse : xs.filter (fun a => !flag a) = (sortBy flag xs).filter (fun a => !flag a) := by
    simpa using (filter_sortBy flag xs false).symm
  have htrue : xs.filter flag = (sortBy flag xs).filter flag := by
    simpa using (filter_sortBy flag xs true).symm
  rw [hfalse, htrue]
  have hsorted : (sortBy flag xs).Pairwise (fun a b => flag a ≤ flag b) := sortBy_pairwise
  generalize sortBy flag xs = sorted at hsorted ⊢
  induction sorted with
  | nil => rfl
  | cons a sorted ih =>
      obtain ⟨ha, hsorted⟩ := List.pairwise_cons.mp hsorted
      cases hflag : flag a with
      | false =>
          rw [List.filter_cons_of_pos (by simp [hflag]), List.filter_cons_of_neg (by simp [hflag]),
            List.cons_append, ← ih hsorted]
      | true =>
          have hall : ∀ b ∈ sorted, flag b = true := by
            intro b hb
            exact Bool.eq_true_of_true_le (hflag ▸ ha b hb)
          have hnone : sorted.filter (fun b => !flag b) = [] := by
            rw [List.filter_eq_nil_iff]
            intro b hb
            simp [hall b hb]
          rw [List.filter_cons_of_neg (by simp [hflag]), hnone, List.nil_append,
            List.filter_cons_of_pos hflag, List.filter_eq_self.mpr hall]

theorem sortBy_strict (hkeys : (xs.map key).Nodup) :
    (sortBy key xs).Pairwise (fun a b => key a < key b) := by
  have hnodup : ((sortBy key xs).map key).Nodup := (sortBy_perm.map key).nodup_iff.mpr hkeys
  rw [List.Nodup, List.pairwise_map] at hnodup
  exact (sortBy_pairwise.and hnodup).imp (fun h => lt_of_le_of_ne h.1 h.2)

/-- Without two of one key the order of the elements does not matter. -/
theorem sortBy_congr (hkeys : (xs.map key).Nodup) (h : xs.Perm ys) :
    sortBy key xs = sortBy key ys := by
  have hperm : (sortBy key xs).Perm (sortBy key ys) :=
    sortBy_perm.trans (h.trans sortBy_perm.symm)
  refine hperm.eq_of_pairwise ?_ (sortBy_strict hkeys)
    (sortBy_strict ((h.map key).nodup_iff.mp hkeys))
  intro a b _ _ hab hba
  exact absurd hab (lt_asymm hba)

/-- In order and with the same elements of each key, two lists are one. -/
theorem eq_of_filter (hxs : xs.Pairwise (fun a b => key a ≤ key b))
    (hys : ys.Pairwise (fun a b => key a ≤ key b))
    (h : ∀ k, xs.filter (fun a => key a = k) = ys.filter (fun a => key a = k)) : xs = ys := by
  have hmem {xs ys : List α} {a : α}
      (h : ∀ k, xs.filter (fun a => key a = k) = ys.filter (fun a => key a = k))
      (ha : a ∈ xs) : a ∈ ys := by
    have : a ∈ ys.filter (fun b => key b = key a) := h (key a) ▸ List.mem_filter.mpr ⟨ha, by simp⟩
    exact (List.mem_filter.mp this).1
  induction xs generalizing ys with
  | nil =>
      refine (List.eq_nil_iff_forall_not_mem.mpr fun b hb => ?_).symm
      simpa using hmem (fun k => (h k).symm) hb
  | cons a xs ih =>
      cases ys with
      | nil => simpa using hmem h List.mem_cons_self
      | cons b ys =>
          obtain ⟨ha, hrest⟩ := List.pairwise_cons.mp hxs
          obtain ⟨hb, hrest'⟩ := List.pairwise_cons.mp hys
          have hba : key b ≤ key a := by
            rcases List.mem_cons.mp (hmem h List.mem_cons_self) with rfl | hin
            · exact le_rfl
            · exact hb a hin
          have hab : key a ≤ key b := by
            rcases List.mem_cons.mp (hmem (fun k => (h k).symm) List.mem_cons_self) with rfl | hin
            · exact le_rfl
            · exact ha b hin
          have hkey : key a = key b := le_antisymm hab hba
          have hhead := h (key a)
          rw [List.filter_cons_of_pos (by simp), List.filter_cons_of_pos (by simp [hkey]),
            List.cons.injEq] at hhead
          obtain rfl := hhead.1
          refine congrArg (a :: ·) (ih hrest hrest' fun k => ?_)
          have hk := h k
          simp only [List.filter_cons] at hk
          split at hk
          · exact (List.cons.inj hk).2
          · exact hk

/-- The first element of the least key comes first, before the others in order. -/
theorem sortBy_least {a : α} (hxs : ∀ b ∈ xs, key a < key b) (hys : ∀ b ∈ ys, key a ≤ key b) :
    sortBy key (xs ++ a :: ys) = a :: sortBy key (xs ++ ys) := by
  refine eq_of_filter sortBy_pairwise (List.pairwise_cons.mpr ⟨?_, sortBy_pairwise⟩) ?_
  · intro b hb
    rcases List.mem_append.mp (mem_sortBy.mp hb) with hb | hb
    · exact (hxs b hb).le
    · exact hys b hb
  · intro k
    rw [filter_sortBy, List.filter_append, List.filter_cons, List.filter_cons, filter_sortBy,
      List.filter_append]
    by_cases hk : key a = k
    · have hnone : xs.filter (fun b => key b = k) = [] := by
        rw [List.filter_eq_nil_iff]
        intro b hb
        have := hxs b hb
        simpa [← hk] using this.ne'
      simp [hk, hnone]
    · simp [hk]

/-! ## Selection -/

/-- A search by one predicate after another takes the first of the elements that the
earliest predicate holds of. -/
theorem findSome_find {ps : List (α → Bool)} {a : α} (h : ps.findSome? xs.find? = some a) :
    ∃ before after, xs = before ++ a :: after ∧
      (∀ b ∈ before, ps.findIdx (· a) < ps.findIdx (· b)) ∧
      ∀ b ∈ after, ps.findIdx (· a) ≤ ps.findIdx (· b) := by
  induction ps with
  | nil => simp at h
  | cons p ps ih =>
      simp only [List.findIdx_cons, cond_eq_ite]
      rw [List.findSome?_cons] at h
      cases hfind : xs.find? p with
      | some b =>
          rw [hfind] at h
          obtain rfl := Option.some.inj h
          obtain ⟨hp, before, after, hxs, hbefore⟩ := List.find?_eq_some_iff_append.mp hfind
          refine ⟨before, after, hxs, fun d hd => ?_, fun d _ => by simp [hp]⟩
          have : p d = false := by simpa using hbefore d hd
          simp [hp, this]
      | none =>
          rw [hfind] at h
          obtain ⟨before, after, rfl, hbefore, hafter⟩ := ih h
          have hnone : ∀ d ∈ before ++ a :: after, p d = false := by
            simpa using List.find?_eq_none.mp hfind
          refine ⟨before, after, rfl, fun d hd => ?_, fun d hd => ?_⟩
          · simpa [hnone a (by simp), hnone d (by simp [hd])] using hbefore d hd
          · simpa [hnone a (by simp), hnone d (by simp [hd])] using hafter d hd

/-- What is left over when the least of a list, the first of them, is taken again and
again. -/
theorem sortBy_take_succ [BEq α] [LawfulBEq α] {before after : List α} {a : α} (n : ℕ)
    (hbefore : ∀ b ∈ before, key a < key b) (hafter : ∀ b ∈ after, key a ≤ key b) :
    (sortBy key (before ++ a :: after)).take (n + 1) =
      a :: (sortBy key ((before ++ a :: after).erase a)).take n := by
  have hmem : a ∉ before := fun ha => lt_irrefl _ (hbefore a ha)
  rw [sortBy_least hbefore hafter, List.erase_append_right _ hmem, List.erase_cons_head,
    List.take_succ_cons]

end GdutNet.Sorting
