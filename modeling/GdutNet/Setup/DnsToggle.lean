import GdutNet.Setup.MarkerCheck

/-!
# The toggle of a whole file

`off` and `on` undo each other on every file whose blocks are free of the tag, and
they spare all but the code lines of the blocks. A file that has lost its end marker
is refused, unless a `#` alone in its line and the keyword in a later one pass for
the marker: `toggle_reversible_iff`.
-/

namespace GdutNet.CampusDns

open Lines

/-- A byte order mark hides the first line from the check. -/
def shown (hasBom : Bool) (ls : List (List Char)) : List (List Char) :=
  if hasBom then ls.tail else ls

def linesOf (file : List Char) : List (List Char) := textLines (stripBom file).2

theorem hashKeyMultiline_withBom {key nl : List Char} (hkey : Keyword key)
    (hnl : nl = lf ∨ nl = crlf) (hasBom : Bool) {ls : List (List Char)} (h : Apart nl ls) :
    hashKeyMultiline key (withBom hasBom (join nl ls)) = true ↔
      ReadsMarker key (shown hasBom ls) := by
  cases hasBom with
  | false => exact hashKeyMultiline_join hkey hnl h.not_mem
  | true =>
      obtain ⟨l, rest, rfl⟩ := List.exists_cons_of_ne_nil h.ne_nil
      have hmem := h.not_mem
      rw [List.forall_mem_cons] at hmem
      have hfirst : '\n' ∉ bom :: l := by
        rw [List.mem_cons, not_or]
        exact ⟨by decide, hmem.1⟩
      have htrim : trimStart (bom :: l) = bom :: l := rfl
      have hno : hashKey key (bom :: l) = false := by
        refine Bool.eq_false_iff.mpr fun hread => ?_
        have hhead := comment_of_hashKey hread
        rw [Comment, htrim] at hhead
        exact absurd (Option.some.inj hhead) (by decide)
      have hbare : ¬ BareHash (bom :: l) := by
        rintro ⟨r, heq, -⟩
        rw [htrim] at heq
        exact absurd (List.cons.inj heq).1 (by decide)
      show hashKeyMultiline key (bom :: join nl (l :: rest)) = true ↔ ReadsMarker key rest
      rw [cons_join, hashKeyMultiline_join hkey hnl (List.forall_mem_cons.mpr ⟨hfirst, hmem.2⟩),
        readsMarker_cons, hno]
      constructor
      · rintro ((hread | ⟨hread, -⟩) | hread)
        · cases hread
        · exact absurd hread hbare
        · exact hread
      · exact .inr

/-! ## A file and its lines -/

/-- The file is these lines, with at most one byte order mark. -/
structure FileOf (hasBom : Bool) (nl : List Char) (ls : List (List Char)) (file : List Char) :
    Prop where
  strip : stripBom file = (hasBom, join nl ls)
  apart : Apart nl ls
  ending : nl = lf ∨ nl = crlf
  single : (join nl ls).head? ≠ some bom

theorem withBom_stripBom (file : List Char) :
    withBom (stripBom file).1 (stripBom file).2 = file := by
  cases file with
  | nil => rfl
  | cons c rest =>
      rw [stripBom]
      split
      · rename_i hc
        rw [hc]
        rfl
      · rfl

theorem stripBom_withBom (hasBom : Bool) {text : List Char} (h : text.head? ≠ some bom) :
    stripBom (withBom hasBom text) = (hasBom, text) := by
  cases hasBom with
  | true =>
      show stripBom (bom :: text) = _
      rw [stripBom, if_pos rfl]
  | false =>
      cases text with
      | nil => rfl
      | cons c rest => exact if_neg fun hc => h (by rw [hc]; rfl)

theorem fileOf_self {file : List Char} (hstyle : OneStyle (stripBom file).2)
    (hbom : (stripBom file).2.head? ≠ some bom) :
    FileOf (stripBom file).1 (newline (stripBom file).2) (linesOf file) file := by
  have hjoin := join_textLines hstyle
  refine ⟨?_, apart_textLines _, ?_, ?_⟩
  · rw [linesOf, hjoin]
  · rw [newline]
    split
    · exact .inr rfl
    · exact .inl rfl
  · rwa [linesOf, hjoin]

namespace FileOf

variable {hasBom : Bool} {nl : List Char} {ls : List (List Char)} {file : List Char}

theorem lines (h : FileOf hasBom nl ls file) : linesOf file = ls := by
  rw [linesOf, h.strip]
  exact h.apart.textLines_join

theorem file_eq (h : FileOf hasBom nl ls file) : withBom hasBom (join nl ls) = file := by
  have hwhole := withBom_stripBom file
  rwa [h.strip] at hwhole

theorem toggle_eq (h : FileOf hasBom nl ls file) (mode : Mode) :
    toggle mode file =
      let newText := withBom hasBom (join nl (toggleLines mode false ls))
      if newText = join nl ls then ⟨file, 0⟩
      else if !hashKeyMultiline beginKey newText || !hashKeyMultiline endKey newText then
        ⟨file, 1⟩
      else ⟨newText, 0⟩ := by
  have hnew : join (newline (join nl ls)) (toggleLines mode false ls) =
      join nl (toggleLines mode false ls) := h.apart.join_newline (length_toggleLines _ _ _)
  simp only [toggle, h.strip, h.apart.textLines_join, hnew]

/-- No line changes: the file stays. -/
theorem toggle_same (h : FileOf hasBom nl ls file) {mode : Mode}
    (hsame : toggleLines mode false ls = ls) : (toggle mode file).file = file := by
  rw [h.toggle_eq, hsame]
  dsimp only
  split
  · rfl
  · split
    · rfl
    · exact h.file_eq

theorem newText_ne (h : FileOf hasBom nl ls file) {ls' : List (List Char)} (happart : Apart nl ls')
    (hchanged : ls' ≠ ls) : withBom hasBom (join nl ls') ≠ join nl ls := by
  intro heq
  cases hasBom with
  | true =>
      refine h.single ?_
      rw [← heq]
      rfl
  | false => exact hchanged (happart.join_inj h.apart heq)

/-- Some line changes, and the check finds both markers. -/
theorem toggle_written (h : FileOf hasBom nl ls file) {mode : Mode}
    (happart : Apart nl (toggleLines mode false ls)) (hchanged : toggleLines mode false ls ≠ ls)
    (hbegin : ReadsMarker beginKey (shown hasBom (toggleLines mode false ls)))
    (hend : ReadsMarker endKey (shown hasBom (toggleLines mode false ls))) :
    toggle mode file = ⟨withBom hasBom (join nl (toggleLines mode false ls)), 0⟩ := by
  have hb := (hashKeyMultiline_withBom beginKey_keyword h.ending hasBom happart).mpr hbegin
  have he := (hashKeyMultiline_withBom endKey_keyword h.ending hasBom happart).mpr hend
  rw [h.toggle_eq]
  dsimp only
  rw [if_neg (h.newText_ne happart hchanged), if_neg (by simp [hb, he])]

/-- Some line changes, and the check misses a marker. -/
theorem toggle_refused (h : FileOf hasBom nl ls file) {mode : Mode}
    (happart : Apart nl (toggleLines mode false ls)) (hchanged : toggleLines mode false ls ≠ ls)
    (hmiss : ¬ (ReadsMarker beginKey (shown hasBom (toggleLines mode false ls)) ∧
      ReadsMarker endKey (shown hasBom (toggleLines mode false ls)))) :
    toggle mode file = ⟨file, 1⟩ := by
  have hb := hashKeyMultiline_withBom beginKey_keyword h.ending hasBom happart
  have he := hashKeyMultiline_withBom endKey_keyword h.ending hasBom happart
  rw [← hb, ← he] at hmiss
  rw [h.toggle_eq]
  dsimp only
  rw [if_neg (h.newText_ne happart hchanged), if_pos]
  simpa [imp_iff_not_or] using hmiss

end FileOf

/-! ## What `off` does to the lines -/

theorem toggleLines_off_rewrite (inside : Bool) (ls : List (List Char)) :
    List.Forall₂ (fun l l' => ('\n' ∉ l → '\n' ∉ l') ∧ l'.getLast? = l.getLast?) ls
      (toggleLines .off inside ls) := by
  induction ls generalizing inside with
  | nil => exact .nil
  | cons l ls ih =>
      rw [toggleLines_off_cons]
      refine .cons ?_ (ih _)
      split
      · rename_i hturned
        have hne : l ≠ [] := by
          rintro rfl
          exact hturned.2.1 rfl
        refine ⟨fun hl hmem => ?_, List.getLast?_append_of_ne_nil _ hne⟩
        rcases List.mem_append.mp hmem with htag | hmem
        · exact absurd htag (by decide)
        · exact hl hmem
      · exact ⟨id, rfl⟩

/-- The first line is never in a block. -/
theorem head?_join_off {nl : List Char} (hnl : nl = lf ∨ nl = crlf) (ls : List (List Char)) :
    (join nl (toggleLines .off false ls)).head? = (join nl ls).head? := by
  cases ls with
  | nil => rfl
  | cons l ls =>
      rw [toggleLines_off_cons, if_neg (by simp)]
      cases ls with
      | nil => rfl
      | cons m ls =>
          rw [toggleLines_off_cons, join_cons_cons, join_cons_cons]
          rcases hnl with rfl | rfl <;> cases l <;> rfl

theorem FileOf.off {hasBom : Bool} {nl : List Char} {ls : List (List Char)} {file : List Char}
    (h : FileOf hasBom nl ls file) :
    FileOf hasBom nl (toggleLines .off false ls)
      (withBom hasBom (join nl (toggleLines .off false ls))) := by
  have hsingle : (join nl (toggleLines .off false ls)).head? ≠ some bom := by
    rw [head?_join_off h.ending]
    exact h.single
  exact ⟨stripBom_withBom hasBom hsingle, h.apart.rewrite (toggleLines_off_rewrite false ls),
    h.ending, hsingle⟩

section Keys

variable {key : List Char}

theorem not_keyAt_comment (hkey : Keyword key) {l : List Char} (h : Comment l) : ¬ KeyAt key l := by
  intro hat
  rw [Comment] at h
  obtain ⟨rest, htrim⟩ := List.head?_eq_some_iff.mp h
  rw [KeyAt, htrim] at hat
  exact absurd (hkey.head hat) (by decide)

theorem not_keyAt_blank (hkey : Keyword key) {l : List Char} (h : Blank l) : ¬ KeyAt key l := by
  intro hat
  rw [KeyAt, h, hkey.nil] at hat
  cases hat

theorem not_bareHash_offTag (l : List Char) : ¬ BareHash (offTag ++ l) := by
  rintro ⟨rest, htrim, hrest⟩
  rw [trimStart_offTag] at htrim
  obtain ⟨-, rfl⟩ := List.cons.inj htrim
  cases hrest

theorem keyNext_off (hkey : Keyword key) {inside : Bool} {ls : List (List Char)}
    (h : KeyNext key (toggleLines .off inside ls)) : KeyNext key ls := by
  induction ls generalizing inside with
  | nil => exact h
  | cons l ls ih =>
      rw [toggleLines_off_cons] at h
      split at h
      · rw [keyNext_cons (by intro hblank; cases hblank)] at h
        exact absurd h (not_keyAt_comment hkey (comment_offTag l))
      · by_cases hblank : Blank l
        · rw [keyNext_cons_blank hkey hblank] at h ⊢
          exact ih h
        · rw [keyNext_cons hblank] at h ⊢
          exact h

theorem readsMarker_off (hkey : Keyword key) {inside : Bool} {ls : List (List Char)}
    (h : ReadsMarker key (toggleLines .off inside ls)) : ReadsMarker key ls := by
  induction ls generalizing inside with
  | nil => exact h
  | cons l ls ih =>
      rw [toggleLines_off_cons, readsMarker_cons] at h
      rw [readsMarker_cons]
      split at h
      · rcases h with (hread | ⟨hbare, -⟩) | hrest
        · rw [hkey.hashKey_offTag] at hread
          cases hread
        · exact absurd hbare (not_bareHash_offTag l)
        · exact .inr (ih hrest)
      · rcases h with (hread | ⟨hbare, hnext⟩) | hrest
        · exact .inl (.inl hread)
        · exact .inl (.inr ⟨hbare, keyNext_off hkey hnext⟩)
        · exact .inr (ih hrest)

/-- A marker that the check finds after `off` was there before. -/
theorem readsMarker_shown_off (hkey : Keyword key) {hasBom : Bool} {ls : List (List Char)}
    (h : ReadsMarker key (shown hasBom (toggleLines .off false ls))) :
    ReadsMarker key (shown hasBom ls) := by
  cases hasBom with
  | false => exact readsMarker_off hkey h
  | true =>
      cases ls with
      | nil => exact h
      | cons l ls =>
          rw [toggleLines_off_cons] at h
          exact readsMarker_off hkey h

end Keys

/-! ## The toggle -/

/-- What the toggle is for. -/
structure Reversible (file : List Char) : Prop where
  on_off : (toggle .on (toggle .off file).file).file = file
  off_off : (toggle .off (toggle .off file).file).file = (toggle .off file).file
  on_self : (toggle .on file).file = file
  /-- `off` keeps the number of lines, -/
  length : (linesOf (toggle .off file).file).length = (linesOf file).length
  /-- and every line outside the blocks, every marker, blank line and comment. -/
  spares : ∀ pre l post, linesOf file = pre ++ l :: post →
    (¬ InBlock pre l ∨ isBegin l = true ∨ isEnd l = true ∨ Blank l ∨ Comment l) →
    (linesOf (toggle .off file).file)[pre.length]? = some l
  /-- A change to lines that have no begin marker or no end marker is refused. -/
  guarded : ∀ mode, toggleLines mode false (linesOf file) ≠ linesOf file →
    ((∀ l ∈ toggleLines mode false (linesOf file), isBegin l = false) ∨
      (∀ l ∈ toggleLines mode false (linesOf file), isEnd l = false)) →
    toggle mode file = ⟨file, 1⟩

/-- No end marker and code after the first begin marker; but before that one, a `#`
alone in its line and then, in the next line that is not blank, the keyword of the
end marker. -/
def StrayEnd (file : List Char) : Prop :=
  ∃ pre b post, linesOf file = pre ++ b :: post ∧ isBegin b = true ∧
    (∀ l ∈ pre, isBegin l = false) ∧ (∀ l ∈ linesOf file, isEnd l = false) ∧
    (∃ l ∈ post, Code l) ∧
    ∃ u h w, shown (stripBom file).1 pre = u ++ h :: w ∧ BareHash h ∧ KeyNext endKey w

theorem mem_off_of_spared {inside : Bool} {ls : List (List Char)} {l : List Char} (h : l ∈ ls)
    (hl : ¬ Code l) : l ∈ toggleLines .off inside ls := by
  induction ls generalizing inside with
  | nil => exact h
  | cons x ls ih =>
      rw [toggleLines_off_cons, List.mem_cons]
      rcases List.mem_cons.mp h with rfl | hmem
      · exact .inl (if_neg fun hturned => hl hturned.2).symm
      · exact .inr (ih hmem)

theorem not_code_of_hashKey {key l : List Char} (h : hashKey key l = true) : ¬ Code l :=
  fun hcode => hcode.2 (comment_of_hashKey h)

/-- Without a begin marker nothing is inside. -/
theorem foldl_next_of_no_begin {ls : List (List Char)} (h : ∀ l ∈ ls, isBegin l = false) :
    ls.foldl next false = false := by
  induction ls with
  | nil => rfl
  | cons l ls ih =>
      rw [List.forall_mem_cons] at h
      rw [List.foldl_cons, next, h.1]
      exact ih h.2

theorem toggleLines_off_of_no_begin {ls : List (List Char)} (h : ∀ l ∈ ls, isBegin l = false) :
    toggleLines .off false ls = ls := by
  induction ls with
  | nil => rfl
  | cons l ls ih =>
      rw [List.forall_mem_cons] at h
      rw [toggleLines_off_cons, if_neg (by simp), next, h.1]
      show l :: toggleLines .off false ls = _
      rw [ih h.2]

def turnOff (l : List Char) : List Char := if Code l then offTag ++ l else l

/-- A block that is not ended. -/
theorem toggleLines_off_open {ls : List (List Char)} (h : ∀ l ∈ ls, isEnd l = false) :
    toggleLines .off true ls = ls.map turnOff := by
  induction ls with
  | nil => rfl
  | cons l ls ih =>
      rw [List.forall_mem_cons] at h
      have hnext : next true l = true := by rw [next, h.1]; rfl
      rw [toggleLines_off_cons, hnext, ih h.2, List.map_cons, turnOff]
      simp

theorem turnOff_ne {l : List Char} (h : Code l) : turnOff l ≠ l := by
  intro heq
  have hlen := congrArg List.length heq
  rw [turnOff, if_pos h, List.length_append] at hlen
  have htag : offTag.length = 5 := rfl
  omega

theorem not_keyAt_turnOff {key : List Char} (hkey : Keyword key) (l : List Char) :
    ¬ KeyAt key (turnOff l) := by
  rw [turnOff]
  split
  · exact not_keyAt_comment hkey (comment_offTag l)
  · rename_i hcode
    by_cases hblank : Blank l
    · exact not_keyAt_blank hkey hblank
    · exact not_keyAt_comment hkey (not_not.mp fun hcomment => hcode ⟨hblank, hcomment⟩)

/-- The lines after `off`, when the first block is not ended. -/
theorem toggleLines_off_stray {pre post : List (List Char)} {b : List Char}
    (hb : isBegin b = true) (hpre : ∀ l ∈ pre, isBegin l = false)
    (hend : ∀ l ∈ pre ++ b :: post, isEnd l = false) :
    toggleLines .off false (pre ++ b :: post) = pre ++ b :: post.map turnOff := by
  have hnext : next false b = true := by rw [next, hb]; rfl
  rw [toggleLines_append, foldl_next_of_no_begin hpre, toggleLines_off_of_no_begin hpre,
    toggleLines_off_cons, if_neg (by simp), hnext, toggleLines_off_open]
  intro l hl
  exact hend l (by simp [hl])

theorem exists_first_begin {ls : List (List Char)} (h : toggleLines .off false ls ≠ ls) :
    ∃ pre b post, ls = pre ++ b :: post ∧ isBegin b = true ∧ ∀ l ∈ pre, isBegin l = false := by
  cases hfind : ls.find? isBegin with
  | none =>
      refine absurd (toggleLines_off_of_no_begin fun l hl => ?_) h
      simpa using List.find?_eq_none.mp hfind l hl
  | some b =>
      obtain ⟨hb, pre, post, rfl, hpre⟩ := List.find?_eq_some_iff_append.mp hfind
      exact ⟨pre, b, post, rfl, hb, by simpa using hpre⟩

theorem shown_append {hasBom : Bool} {pre : List (List Char)} (h : pre ≠ [])
    (rest : List (List Char)) : shown hasBom (pre ++ rest) = shown hasBom pre ++ rest := by
  cases hasBom with
  | false => rfl
  | true => exact List.tail_append_of_ne_nil h

section Toggle

variable {hasBom : Bool} {nl : List Char} {ls : List (List Char)} {file : List Char}

theorem toggle_off_cases (h : FileOf hasBom nl ls file) :
    (toggle .off file).file = file ∨
      (toggleLines .off false ls ≠ ls ∧
        ReadsMarker beginKey (shown hasBom (toggleLines .off false ls)) ∧
        ReadsMarker endKey (shown hasBom (toggleLines .off false ls)) ∧
        (toggle .off file).file = withBom hasBom (join nl (toggleLines .off false ls))) := by
  by_cases hsame : toggleLines .off false ls = ls
  · exact .inl (h.toggle_same hsame)
  by_cases hreads : ReadsMarker beginKey (shown hasBom (toggleLines .off false ls)) ∧
      ReadsMarker endKey (shown hasBom (toggleLines .off false ls))
  · exact .inr ⟨hsame, hreads.1, hreads.2,
      by rw [h.toggle_written h.off.apart hsame hreads.1 hreads.2]⟩
  · exact .inl (by rw [h.toggle_refused h.off.apart hsame hreads])

theorem toggle_on_self (h : FileOf hasBom nl ls file) (hclean : Clean false ls) :
    (toggle .on file).file = file :=
  h.toggle_same (toggleLines_on_clean hclean)

theorem toggle_on_off (h : FileOf hasBom nl ls file) (hclean : Clean false ls) :
    (toggle .on (toggle .off file).file).file = file := by
  rcases toggle_off_cases h with hsame | ⟨hchanged, hbegin, hend, hwritten⟩
  · rw [hsame]
    exact toggle_on_self h hclean
  · have hback : toggleLines .on false (toggleLines .off false ls) = ls :=
      toggleLines_on_off hclean
    have hon : toggle .on (withBom hasBom (join nl (toggleLines .off false ls))) =
        ⟨withBom hasBom (join nl (toggleLines .on false (toggleLines .off false ls))), 0⟩ := by
      apply h.off.toggle_written
      · rw [hback]
        exact h.apart
      · rw [hback]
        exact hchanged.symm
      · rw [hback]
        exact readsMarker_shown_off beginKey_keyword hbegin
      · rw [hback]
        exact readsMarker_shown_off endKey_keyword hend
    rw [hwritten, hon, hback]
    exact h.file_eq

theorem toggle_off_off (h : FileOf hasBom nl ls file) :
    (toggle .off (toggle .off file).file).file = (toggle .off file).file := by
  rcases toggle_off_cases h with hsame | ⟨-, -, -, hwritten⟩
  · rw [hsame, hsame]
  · rw [hwritten]
    exact h.off.toggle_same (toggleLines_off_off false ls)

theorem linesOf_toggle_off (h : FileOf hasBom nl ls file) :
    linesOf (toggle .off file).file = ls ∨
      linesOf (toggle .off file).file = toggleLines .off false ls := by
  rcases toggle_off_cases h with hsame | ⟨-, -, -, hwritten⟩
  · rw [hsame]
    exact .inl h.lines
  · rw [hwritten]
    exact .inr h.off.lines

theorem getElem?_off {pre post : List (List Char)} {l : List Char}
    (hl : ¬ InBlock pre l ∨ isBegin l = true ∨ isEnd l = true ∨ Blank l ∨ Comment l) :
    (toggleLines .off false (pre ++ l :: post))[pre.length]? = some l := by
  have hspared : ¬ (pre.foldl next false = true ∧ Code l) := by
    rintro ⟨hinside, hcode⟩
    have hend : isEnd l = false := hcode.hashKey _
    have hbegin : isBegin l = false := hcode.hashKey _
    rcases hl with hout | hl | hl | hl | hl
    · exact hout (inBlock_iff.mpr (by rw [hinside, hend]; rfl))
    · rw [hbegin] at hl
      cases hl
    · rw [hend] at hl
      cases hl
    · exact hcode.1 hl
    · exact hcode.2 hl
  rw [toggleLines_append, toggleLines_off_cons, if_neg hspared,
    List.getElem?_append_right (by rw [length_toggleLines]), length_toggleLines, Nat.sub_self]
  rfl

theorem isEnd_turnOff {l : List Char} (h : isEnd l = false) : isEnd (turnOff l) = false := by
  rw [turnOff]
  split
  · exact endKey_keyword.hashKey_offTag l
  · exact h

theorem map_turnOff_ne {post : List (List Char)} {l : List Char} (hl : l ∈ post) (h : Code l) :
    post.map turnOff ≠ post := by
  intro heq
  have hid : post.map turnOff = post.map id := by rw [heq, List.map_id]
  exact turnOff_ne h (List.map_inj_left.mp hid l hl)

theorem KeyNext.append {key : List Char} {w : List (List Char)} (h : KeyNext key w)
    (rest : List (List Char)) : KeyNext key (w ++ rest) := by
  obtain ⟨blanks, k, v, rfl, hblanks, hk⟩ := h
  exact ⟨blanks, k, v ++ rest, by simp, hblanks, hk⟩

theorem shown_split (hasBom : Bool) (pre : List (List Char)) (b : List Char)
    (post : List (List Char)) :
    ∃ rest, shown hasBom (pre ++ b :: post) = shown hasBom pre ++ rest ∧
      ∀ y ∈ rest, y = b ∨ y ∈ post := by
  by_cases hpre : pre = []
  · subst hpre
    cases hasBom with
    | false => exact ⟨b :: post, rfl, fun y hy => List.mem_cons.mp hy⟩
    | true => exact ⟨post, rfl, fun y hy => .inr hy⟩
  · exact ⟨b :: post, shown_append hpre _, fun y hy => List.mem_cons.mp hy⟩

/-- What stands before an entry that the second part lacks. -/
theorem append_cut {α : Type*} {as bs cs ds : List α} {k : α} (h : as ++ bs = cs ++ k :: ds)
    (hk : k ∉ bs) : ∃ ds', as = cs ++ k :: ds' := by
  rcases List.append_eq_append_iff.mp h with ⟨m, -, rfl⟩ | ⟨m, rfl, hm⟩
  · exact absurd (by simp) hk
  · cases m with
    | nil =>
        rw [List.nil_append] at hm
        exact absurd (hm ▸ List.mem_cons_self) hk
    | cons x m =>
        obtain ⟨rfl, -⟩ := List.cons.inj hm
        exact ⟨m, rfl⟩

theorem not_guarded_of_stray (h : FileOf hasBom nl ls file) (hstray : StrayEnd file) :
    toggleLines .off false ls ≠ ls ∧ (∀ l ∈ toggleLines .off false ls, isEnd l = false) ∧
      toggle .off file ≠ ⟨file, 1⟩ := by
  obtain ⟨pre, b, post, hls, hb, hpre, hend, ⟨l, hl, hcode⟩, u, x, w, hshown, hbare, hnext⟩ :=
    hstray
  rw [h.lines] at hls hend
  simp only [h.strip] at hshown
  subst hls
  have hoff := toggleLines_off_stray hb hpre hend
  have hchanged : toggleLines .off false (pre ++ b :: post) ≠ pre ++ b :: post := by
    rw [hoff]
    intro heq
    exact map_turnOff_ne hl hcode (List.cons.inj (List.append_cancel_left heq)).2
  refine ⟨hchanged, ?_, ?_⟩
  · intro y hy
    rw [hoff, List.mem_append, List.mem_cons, List.mem_map] at hy
    rcases hy with hy | rfl | ⟨z, hz, rfl⟩
    · exact hend y (by simp [hy])
    · exact hend y (by simp)
    · exact isEnd_turnOff (hend z (by simp [hz]))
  · have hne : pre ≠ [] := by
      rintro rfl
      cases hasBom <;> simp [shown] at hshown
    have hparts : shown hasBom (toggleLines .off false (pre ++ b :: post)) =
        (u ++ x :: w) ++ b :: post.map turnOff := by
      rw [hoff, shown_append hne, hshown]
    have hwritten := h.toggle_written h.off.apart hchanged
      ⟨u ++ x :: w, b, _, hparts, .inl hb⟩
      ⟨u, x, w ++ b :: post.map turnOff, by rw [hparts]; simp, .inr ⟨hbare, hnext.append _⟩⟩
    rw [hwritten]
    intro heq
    cases congrArg Outcome.exitCode heq

theorem stray_of_unguarded (h : FileOf hasBom nl ls file)
    (hchanged : toggleLines .off false ls ≠ ls)
    (hmiss : (∀ l ∈ toggleLines .off false ls, isBegin l = false) ∨
      (∀ l ∈ toggleLines .off false ls, isEnd l = false))
    (hreads : ReadsMarker endKey (shown hasBom (toggleLines .off false ls))) : StrayEnd file := by
  obtain ⟨pre, b, post, rfl, hb, hpre⟩ := exists_first_begin hchanged
  have hmissing : ∀ l ∈ toggleLines .off false (pre ++ b :: post), isEnd l = false := by
    refine hmiss.resolve_left fun hnone => ?_
    have hno := hnone b (mem_off_of_spared (by simp) (not_code_of_hashKey hb))
    rw [hb] at hno
    cases hno
  have hend : ∀ l ∈ pre ++ b :: post, isEnd l = false := by
    intro l hl
    refine Bool.eq_false_iff.mpr fun hmark => ?_
    have hno := hmissing l (mem_off_of_spared hl (not_code_of_hashKey hmark))
    rw [hmark] at hno
    cases hno
  have hoff := toggleLines_off_stray hb hpre hend
  have hcode : ∃ l ∈ post, Code l := by
    by_contra hnone
    push Not at hnone
    have hsame : post.map turnOff = post :=
      (List.map_congr_left fun l hl => if_neg (hnone l hl)).trans (List.map_id post)
    rw [hoff, hsame] at hchanged
    exact hchanged rfl
  obtain ⟨rest, hparts, hrest⟩ := shown_split hasBom pre b (post.map turnOff)
  obtain ⟨u, x, w, hshown, hread⟩ := hreads
  rw [hoff, hparts] at hshown
  rcases hread with hread | ⟨hbare, blanks, k, v, rfl, hblanks, hk⟩
  · -- a marker in one line would be an end marker
    have hmem : x ∈ shown hasBom pre ++ rest := by rw [hshown]; simp
    have hx : x ∈ toggleLines .off false (pre ++ b :: post) := by
      rw [hoff]
      rw [← hparts] at hmem
      cases hasBom with
      | false => exact hmem
      | true => exact List.mem_of_mem_tail hmem
    have hno := hmissing x hx
    rw [isEnd, hread] at hno
    cases hno
  · -- after the begin marker no line begins with the keyword any more
    have hk' : k ∉ rest := by
      intro hmem
      rcases hrest k hmem with rfl | hmem
      · exact not_keyAt_comment endKey_keyword (comment_of_hashKey hb) hk
      · obtain ⟨z, -, rfl⟩ := List.mem_map.mp hmem
        exact not_keyAt_turnOff endKey_keyword z hk
    have hassoc : shown hasBom pre ++ rest = (u ++ x :: blanks) ++ k :: v := by rw [hshown]; simp
    obtain ⟨v', hcut⟩ := append_cut hassoc hk'
    refine ⟨pre, b, post, h.lines, hb, hpre, by rw [h.lines]; exact hend, hcode, u, x,
      blanks ++ k :: v', ?_, hbare, blanks, k, v', rfl, hblanks, hk⟩
    rw [h.strip]
    rw [hcut]
    simp

end Toggle

/-- **The toggle is reversible and refuses a file without its markers**, a file with
a stray end marker apart. -/
theorem toggle_reversible_iff {file : List Char} (hbom : (stripBom file).2.head? ≠ some bom)
    (hstyle : OneStyle (stripBom file).2)
    (hclean : ∀ pre l post, linesOf file = pre ++ l :: post → InBlock pre l → ¬ offTag <:+: l) :
    Reversible file ↔ ¬ StrayEnd file := by
  have h := fileOf_self hstyle hbom
  have hclean' : Clean false (linesOf file) := by
    intro pre l post hls hinside
    exact hclean pre l post hls (inBlock_iff.mpr hinside)
  constructor
  · intro hrev hstray
    obtain ⟨hchanged, hmissing, hwritten⟩ := not_guarded_of_stray h hstray
    exact hwritten (hrev.guarded .off hchanged (.inr hmissing))
  · intro hno
    refine ⟨toggle_on_off h hclean', toggle_off_off h, toggle_on_self h hclean', ?_, ?_, ?_⟩
    · rcases linesOf_toggle_off h with heq | heq
      · rw [heq]
      · rw [heq, length_toggleLines]
    · intro pre l post hls hl
      rcases linesOf_toggle_off h with heq | heq
      · rw [heq, hls]
        simp
      · rw [heq, hls]
        exact getElem?_off hl
    · intro mode hchanged hmiss
      cases mode with
      | on => exact absurd (toggleLines_on_clean hclean') hchanged
      | off =>
          refine h.toggle_refused h.off.apart hchanged ?_
          rintro ⟨-, hend⟩
          exact hno (stray_of_unguarded h hchanged hmiss hend)

def blockFile : List Char :=
  bom :: "a: b\r\n# CAMPUS-DNS-BEGIN\r\n  # note\r\n\r\n  dns: c\r\n# campus-dns-end\r\n".toList

theorem toggle_reversible_block : Reversible blockFile := by
  have hclean : ∀ l ∈ linesOf blockFile, ¬ offTag <:+: l := forall_mem_of_all (by decide +kernel)
  refine (toggle_reversible_iff (by decide +kernel) (by decide +kernel) ?_).mpr ?_
  · rintro pre l post hls -
    exact hclean l (by rw [hls]; simp)
  · rintro ⟨pre, b, post, -, -, -, hend, -⟩
    have hlast := hend "# campus-dns-end".toList (by decide +kernel)
    exact absurd hlast (by decide +kernel)

def strayFile : List Char := "#\nCAMPUS-DNS-END\n# CAMPUS-DNS-BEGIN\ndns: x".toList

/-- Only `#` and the keyword in two lines: no end marker, and yet the file is
written. -/
theorem stray_end_written :
    (stripBom strayFile).2.head? ≠ some bom ∧ OneStyle (stripBom strayFile).2 ∧
      (∀ l ∈ linesOf strayFile, ¬ offTag <:+: l) ∧
      (∀ l ∈ linesOf strayFile, isEnd l = false) ∧
      toggle .off strayFile =
        ⟨"#\nCAMPUS-DNS-END\n# CAMPUS-DNS-BEGIN\n#OFF#dns: x".toList, 0⟩ ∧
      ¬ Reversible strayFile := by
  have hwritten : toggle .off strayFile =
      ⟨"#\nCAMPUS-DNS-END\n# CAMPUS-DNS-BEGIN\n#OFF#dns: x".toList, 0⟩ := by decide +kernel
  refine ⟨by decide +kernel, by decide +kernel, forall_mem_of_all (by decide +kernel),
    forall_mem_of_all (by decide +kernel), hwritten, fun hrev => ?_⟩
  have hrefused := hrev.guarded .off (by decide +kernel)
    (.inr (forall_mem_of_all (by decide +kernel)))
  rw [hwritten] at hrefused
  cases congrArg Outcome.exitCode hrefused

end GdutNet.CampusDns
