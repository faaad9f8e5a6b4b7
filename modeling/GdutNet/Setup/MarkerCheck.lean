import Mathlib.Data.List.TakeWhile
import GdutNet.Setup.CampusDns

/-!
# What the marker check reads

The multi-line pattern finds its `#` in one line, and its keyword there or, when
nothing follows the `#`, in the next line that is not blank: `hashKeyMultiline_join`.
-/

namespace GdutNet.CampusDns

open Lines

def KeyAt (key l : List Char) : Prop := startsWith key (trimStart l) = true

/-- The first line that is not blank begins with the keyword. -/
def KeyNext (key : List Char) (ls : List (List Char)) : Prop :=
  ∃ blanks k v, ls = blanks ++ k :: v ∧ (∀ b ∈ blanks, Blank b) ∧ KeyAt key k

/-- A `#` alone in its line. -/
def BareHash (l : List Char) : Prop := ∃ rest, trimStart l = '#' :: rest ∧ trimStart rest = []

def ReadsMarker (key : List Char) (ls : List (List Char)) : Prop :=
  ∃ u h w, ls = u ++ h :: w ∧ (hashKey key h = true ∨ (BareHash h ∧ KeyNext key w))

theorem trimStart_append_of_blank {l : List Char} (h : Blank l) (s : List Char) :
    trimStart (l ++ s) = trimStart s := by
  have hall : ∀ c ∈ l, isWhitespace c = true := List.dropWhile_eq_nil_iff.mp h
  exact List.dropWhile_append_of_pos hall

theorem trimStart_append {l : List Char} (h : ¬ Blank l) (s : List Char) :
    trimStart (l ++ s) = trimStart l ++ s := by
  rw [trimStart, List.dropWhile_append, if_neg]
  · rfl
  · simpa [Blank, trimStart] using h

theorem keyNext_cons_blank {key l : List Char} {ls : List (List Char)} (hkey : Keyword key)
    (h : Blank l) : KeyNext key (l :: ls) ↔ KeyNext key ls := by
  constructor
  · rintro ⟨blanks, k, v, heq, hblank, hk⟩
    cases blanks with
    | nil =>
        obtain ⟨rfl, rfl⟩ := List.cons.inj heq
        rw [KeyAt, h, hkey.nil] at hk
        cases hk
    | cons b blanks =>
        obtain ⟨rfl, rfl⟩ := List.cons.inj heq
        exact ⟨blanks, k, v, rfl, fun b hb => hblank b (List.mem_cons_of_mem _ hb), hk⟩
  · rintro ⟨blanks, k, v, rfl, hblank, hk⟩
    exact ⟨l :: blanks, k, v, rfl, List.forall_mem_cons.mpr ⟨h, hblank⟩, hk⟩

theorem keyNext_cons {key l : List Char} {ls : List (List Char)} (h : ¬ Blank l) :
    KeyNext key (l :: ls) ↔ KeyAt key l := by
  constructor
  · rintro ⟨blanks, k, v, heq, hblank, hk⟩
    cases blanks with
    | nil =>
        obtain ⟨rfl, rfl⟩ := List.cons.inj heq
        exact hk
    | cons b blanks =>
        obtain ⟨rfl, -⟩ := List.cons.inj heq
        exact absurd (hblank _ List.mem_cons_self) h
  · intro hk
    exact ⟨[], l, ls, rfl, by simp, hk⟩

theorem not_keyNext_nil (key : List Char) : ¬ KeyNext key [] := by
  rintro ⟨blanks, k, v, heq, -⟩
  simp at heq

theorem readsMarker_cons {key l : List Char} {ls : List (List Char)} :
    ReadsMarker key (l :: ls) ↔
      (hashKey key l = true ∨ (BareHash l ∧ KeyNext key ls)) ∨ ReadsMarker key ls := by
  constructor
  · rintro ⟨u, h, w, heq, hread⟩
    cases u with
    | nil =>
        obtain ⟨rfl, rfl⟩ := List.cons.inj heq
        exact .inl hread
    | cons x u =>
        obtain ⟨rfl, rfl⟩ := List.cons.inj heq
        exact .inr ⟨u, h, w, rfl, hread⟩
  · rintro (hread | ⟨u, h, w, rfl, hread⟩)
    · exact ⟨[], l, ls, rfl, hread⟩
    · exact ⟨l :: u, h, w, rfl, hread⟩

theorem not_readsMarker_nil (key : List Char) : ¬ ReadsMarker key [] := by
  rintro ⟨u, h, w, heq, -⟩
  simp at heq

/-! ### The joined text -/

/-- A line end is white space. -/
theorem trimStart_newline {nl : List Char} (hnl : nl = lf ∨ nl = crlf) (s : List Char) :
    trimStart (nl ++ s) = trimStart s := by
  rcases hnl with rfl | rfl <;> rfl

theorem startsWith_newline {key nl : List Char} (hkey : Keyword key) (hnl : nl = lf ∨ nl = crlf)
    (x s : List Char) : startsWith key (x ++ (nl ++ s)) = startsWith key x := by
  rcases hnl with rfl | rfl
  · exact startsWith_append hkey.letters x (by decide) s
  · exact startsWith_append hkey.letters x (by decide) ('\n' :: s)

theorem afterNewlines_of_not_mem {l : List Char} (h : '\n' ∉ l) : afterNewlines l = [] := by
  induction l with
  | nil => rfl
  | cons c l ih =>
      rw [List.mem_cons, not_or] at h
      rw [afterNewlines, if_neg (fun hc => h.1 hc.symm), ih h.2]

theorem afterNewlines_append {l nl : List Char} (h : '\n' ∉ l) (hnl : nl = lf ∨ nl = crlf)
    (s : List Char) : afterNewlines (l ++ (nl ++ s)) = lineStarts s := by
  induction l with
  | nil => rcases hnl with rfl | rfl <;> rfl
  | cons c l ih =>
      rw [List.mem_cons, not_or] at h
      rw [List.cons_append, afterNewlines, if_neg (fun hc => h.1 hc.symm), ih h.2]

theorem keyNext_join {key nl : List Char} (hkey : Keyword key) (hnl : nl = lf ∨ nl = crlf)
    (ls : List (List Char)) :
    startsWith key (trimStart (join nl ls)) = true ↔ KeyNext key ls := by
  induction ls with
  | nil =>
      have hnil : startsWith key (trimStart (join nl [])) = false := hkey.nil
      simp [hnil, not_keyNext_nil]
  | cons l ls ih =>
      by_cases hblank : Blank l
      · rw [keyNext_cons_blank hkey hblank, ← ih]
        by_cases hls : ls = []
        · have hl : trimStart (join nl [l]) = trimStart (join nl []) := by
            rw [join_singleton]
            exact hblank
          rw [hls, hl]
        · rw [join_cons _ _ hls, List.append_assoc, trimStart_append_of_blank hblank,
            trimStart_newline hnl]
      · rw [keyNext_cons hblank, KeyAt]
        by_cases hls : ls = []
        · rw [hls, join_singleton]
        · rw [join_cons _ _ hls, List.append_assoc, trimStart_append hblank,
            startsWith_newline hkey hnl]

theorem hashKey_of_hash {key l rest : List Char} (h : trimStart l = '#' :: rest) :
    hashKey key l = startsWith key (trimStart rest) := by
  simp only [hashKey, h]

theorem hashKey_of_blank {key l : List Char} (h : Blank l) : hashKey key l = false := by
  have h' : trimStart l = [] := h
  simp only [hashKey, h']

/-- Where the `#` is in the first line. -/
theorem hashKey_join {key nl l : List Char} {ls : List (List Char)} (hkey : Keyword key)
    (hnl : nl = lf ∨ nl = crlf) (hl : ¬ Blank l) :
    hashKey key (join nl (l :: ls)) = true ↔
      hashKey key l = true ∨ (BareHash l ∧ KeyNext key ls) := by
  by_cases hls : ls = []
  · rw [hls, join_singleton]
    simp [not_keyNext_nil]
  obtain ⟨c, rest, htrim⟩ := List.exists_cons_of_ne_nil hl
  have hjoin : trimStart (join nl (l :: ls)) = c :: (rest ++ (nl ++ join nl ls)) := by
    rw [join_cons _ _ hls, List.append_assoc, trimStart_append hl, htrim]
    rfl
  by_cases hc : c = '#'
  · subst hc
    rw [hashKey_of_hash hjoin, hashKey_of_hash htrim]
    by_cases hrest : Blank rest
    · have hnil : trimStart rest = [] := hrest
      rw [trimStart_append_of_blank hrest, trimStart_newline hnl, keyNext_join hkey hnl, hnil,
        hkey.nil]
      constructor
      · intro hnext
        exact .inr ⟨⟨rest, htrim, hrest⟩, hnext⟩
      · rintro (hno | ⟨-, hnext⟩)
        · cases hno
        · exact hnext
    · rw [trimStart_append hrest, startsWith_newline hkey hnl]
      refine ⟨.inl, ?_⟩
      rintro (hread | ⟨⟨rest', htrim', hrest'⟩, -⟩)
      · exact hread
      · rw [htrim] at htrim'
        obtain ⟨-, rfl⟩ := List.cons.inj htrim'
        exact absurd hrest' hrest
  · have hno : hashKey key (join nl (l :: ls)) = false := by
      refine Bool.eq_false_iff.mpr fun hread => hc ?_
      have hhead := comment_of_hashKey hread
      rw [Comment, hjoin] at hhead
      exact Option.some.inj hhead
    have hno' : hashKey key l = false := by
      refine Bool.eq_false_iff.mpr fun hread => hc ?_
      have hhead := comment_of_hashKey hread
      rw [Comment, htrim] at hhead
      exact Option.some.inj hhead
    rw [hno, hno']
    constructor
    · intro h
      cases h
    · rintro (h | ⟨⟨rest', htrim', -⟩, -⟩)
      · cases h
      · rw [htrim] at htrim'
        exact absurd (List.cons.inj htrim').1 hc

theorem hashKeyMultiline_join {key nl : List Char} (hkey : Keyword key)
    (hnl : nl = lf ∨ nl = crlf) {ls : List (List Char)} (hls : ∀ l ∈ ls, '\n' ∉ l) :
    hashKeyMultiline key (join nl ls) = true ↔ ReadsMarker key ls := by
  induction ls with
  | nil =>
      have hnil : hashKeyMultiline key (join nl []) = false := rfl
      simp [hnil, not_readsMarker_nil]
  | cons l ls ih =>
      rw [List.forall_mem_cons] at hls
      rw [readsMarker_cons, ← ih hls.2]
      by_cases hnil : ls = []
      · have hone : hashKeyMultiline key (join nl (l :: ls)) = hashKey key l := by
          rw [hnil, join_singleton, hashKeyMultiline, lineStarts, afterNewlines_of_not_mem hls.1]
          simp
        have hnone : hashKeyMultiline key (join nl ls) = false := by
          rw [hnil]
          rfl
        rw [hone, hnone, hnil]
        simp [not_keyNext_nil]
      · have hstarts : lineStarts (join nl (l :: ls)) =
            join nl (l :: ls) :: lineStarts (join nl ls) := by
          rw [lineStarts, join_cons _ _ hnil, List.append_assoc,
            afterNewlines_append hls.1 hnl]
        have hor : hashKeyMultiline key (join nl (l :: ls)) = true ↔
            hashKey key (join nl (l :: ls)) = true ∨ hashKeyMultiline key (join nl ls) = true := by
          rw [hashKeyMultiline, hstarts, List.any_cons, Bool.or_eq_true]
          rfl
        rw [hor]
        by_cases hblank : Blank l
        · have hskip : hashKey key (join nl (l :: ls)) = hashKey key (join nl ls) := by
            rw [hashKey, hashKey, join_cons _ _ hnil, List.append_assoc,
              trimStart_append_of_blank hblank, trimStart_newline hnl]
          have hfirst : hashKey key (join nl ls) = true →
              hashKeyMultiline key (join nl ls) = true := by
            intro hread
            rw [hashKeyMultiline, lineStarts, List.any_cons, hread, Bool.true_or]
          have hbare : ¬ BareHash l := by
            rintro ⟨rest, htrim, -⟩
            rw [hblank] at htrim
            cases htrim
          rw [hskip, hashKey_of_blank hblank]
          constructor
          · rintro (hread | hread)
            · exact .inr (hfirst hread)
            · exact .inr hread
          · rintro ((hread | ⟨hread, -⟩) | hread)
            · cases hread
            · exact absurd hread hbare
            · exact .inr hread
        · rw [hashKey_join hkey hnl hblank]

end GdutNet.CampusDns
