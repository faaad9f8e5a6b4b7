import Mathlib.Data.List.Basic

/-!
# Texts as lines

A text is split at every `\n`, and at a `\r` right before it. When all its line
ends are of one kind, joining the lines with that kind gives the text back, and
lines of such a text can be rewritten one by one: `textLines_join`.
-/

namespace GdutNet.Lines

/-- Never empty. -/
def textLines : List Char → List (List Char)
  | [] => [[]]
  | '\n' :: rest => [] :: textLines rest
  | '\r' :: '\n' :: rest => [] :: textLines rest
  | c :: rest => (textLines rest).modifyHead (List.cons c)

def hasCrlf : List Char → Bool
  | [] => false
  | '\r' :: '\n' :: _ => true
  | _ :: rest => hasCrlf rest

/-- No `\n` without a `\r` before it. -/
def onlyCrlf : List Char → Bool
  | [] => true
  | '\n' :: _ => false
  | '\r' :: '\n' :: rest => onlyCrlf rest
  | _ :: rest => onlyCrlf rest

def lf : List Char := ['\n']

def crlf : List Char := ['\r', '\n']

def newline (text : List Char) : List Char := if hasCrlf text then crlf else lf

def OneStyle (text : List Char) : Prop := hasCrlf text = false ∨ onlyCrlf text = true

instance (text : List Char) : Decidable (OneStyle text) := instDecidableOr

def join (nl : List Char) (ls : List (List Char)) : List Char := nl.intercalate ls

@[simp] theorem join_singleton (nl l : List Char) : join nl [l] = l := List.intercalate_singleton

@[simp] theorem join_cons_cons (nl l m : List Char) (ls : List (List Char)) :
    join nl (l :: m :: ls) = l ++ nl ++ join nl (m :: ls) := List.intercalate_cons_cons

theorem join_cons (nl l : List Char) {ls : List (List Char)} (h : ls ≠ []) :
    join nl (l :: ls) = l ++ nl ++ join nl ls := by
  obtain ⟨m, ls, rfl⟩ := List.exists_cons_of_ne_nil h
  exact join_cons_cons nl l m ls

theorem cons_join (nl : List Char) (c : Char) (l : List Char) (ls : List (List Char)) :
    c :: join nl (l :: ls) = join nl ((c :: l) :: ls) := by
  cases ls with
  | nil => simp
  | cons m ls => simp

/-! ## Splitting -/

theorem textLines_ne_nil (text : List Char) : textLines text ≠ [] := by
  fun_induction textLines text with
  | case1 => simp
  | case2 rest ih => simp
  | case3 rest ih => simp
  | case4 c rest hlf hcrlf ih => simpa using ih

theorem not_mem_textLines (text : List Char) : ∀ l ∈ textLines text, '\n' ∉ l := by
  fun_induction textLines text with
  | case1 => simp
  | case2 rest ih => simpa using ih
  | case3 rest ih => simpa using ih
  | case4 c rest hlf hcrlf ih =>
      obtain ⟨l, ls, heq⟩ := List.exists_cons_of_ne_nil (textLines_ne_nil rest)
      rw [heq, List.forall_mem_cons] at ih
      rw [heq, List.modifyHead_cons, List.forall_mem_cons]
      refine ⟨?_, ih.2⟩
      rw [List.mem_cons, not_or]
      exact ⟨fun h => hlf h.symm, ih.1⟩

theorem join_modifyHead (nl : List Char) (c : Char) {ls : List (List Char)} (h : ls ≠ []) :
    join nl (ls.modifyHead (List.cons c)) = c :: join nl ls := by
  obtain ⟨l, ls, rfl⟩ := List.exists_cons_of_ne_nil h
  rw [List.modifyHead_cons, ← cons_join]

theorem join_textLines_lf {text : List Char} (h : hasCrlf text = false) :
    join lf (textLines text) = text := by
  fun_induction textLines text with
  | case1 => rfl
  | case2 rest ih =>
      have hrest : hasCrlf rest = false := by simpa [hasCrlf] using h
      rw [join_cons _ _ (textLines_ne_nil rest), ih hrest]
      rfl
  | case3 rest ih => simp [hasCrlf] at h
  | case4 c rest hlf hcrlf ih =>
      rw [hasCrlf.eq_3 c rest hcrlf] at h
      rw [join_modifyHead _ _ (textLines_ne_nil rest), ih h]

theorem join_textLines_crlf {text : List Char} (h : onlyCrlf text = true) :
    join crlf (textLines text) = text := by
  fun_induction textLines text with
  | case1 => rfl
  | case2 rest ih => simp [onlyCrlf] at h
  | case3 rest ih =>
      rw [onlyCrlf] at h
      rw [join_cons _ _ (textLines_ne_nil rest), ih h]
      rfl
  | case4 c rest hlf hcrlf ih =>
      rw [onlyCrlf.eq_4 c rest hlf hcrlf] at h
      rw [join_modifyHead _ _ (textLines_ne_nil rest), ih h]

theorem join_textLines {text : List Char} (h : OneStyle text) :
    join (newline text) (textLines text) = text := by
  cases hkind : hasCrlf text with
  | false =>
      rw [newline, if_neg (by simp [hkind])]
      exact join_textLines_lf hkind
  | true =>
      rw [newline, if_pos hkind]
      refine join_textLines_crlf (h.resolve_left ?_)
      simp [hkind]

/-! ## Joining -/

theorem textLines_of_not_mem {l : List Char} (h : '\n' ∉ l) : textLines l = [l] := by
  fun_induction textLines l with
  | case1 => rfl
  | case2 rest ih => simp at h
  | case3 rest ih => simp at h
  | case4 c rest hlf hcrlf ih =>
      rw [ih (List.not_mem_of_not_mem_cons h)]
      rfl

theorem textLines_append_crlf {l : List Char} (h : '\n' ∉ l) (rest : List Char) :
    textLines (l ++ crlf ++ rest) = l :: textLines rest := by
  induction l with
  | nil => rfl
  | cons c l ih =>
      rw [List.mem_cons, not_or] at h
      have htail : textLines (l ++ crlf ++ rest) = l :: textLines rest := ih h.2
      show textLines (c :: (l ++ crlf ++ rest)) = _
      rw [textLines.eq_4 c _ (fun hc => h.1 hc.symm), htail, List.modifyHead_cons]
      rintro rest' - hrest
      cases l with
      | nil => simp [crlf] at hrest
      | cons d l =>
          obtain ⟨rfl, -⟩ := List.cons.inj hrest
          exact h.2 List.mem_cons_self

theorem textLines_append_lf {l : List Char} (h : '\n' ∉ l) (hlast : l.getLast? ≠ some '\r')
    (rest : List Char) : textLines (l ++ lf ++ rest) = l :: textLines rest := by
  induction l with
  | nil => rfl
  | cons c l ih =>
      rw [List.mem_cons, not_or] at h
      show textLines (c :: (l ++ lf ++ rest)) = _
      cases l with
      | nil =>
          have hc : c ≠ '\r' := by simpa using hlast
          rw [textLines.eq_4 c _ (fun hc => h.1 hc.symm) (fun _ hcr => absurd hcr hc)]
          rfl
      | cons d l =>
          rw [textLines.eq_4 c _ (fun hc => h.1 hc.symm), ih h.2 (by simpa using hlast),
            List.modifyHead_cons]
          rintro rest' - hrest
          obtain ⟨rfl, -⟩ := List.cons.inj hrest
          exact h.2 List.mem_cons_self

theorem hasCrlf_append_crlf (l rest : List Char) : hasCrlf (l ++ crlf ++ rest) = true := by
  induction l with
  | nil => rfl
  | cons c l ih =>
      show hasCrlf (c :: (l ++ crlf ++ rest)) = true
      rw [hasCrlf.eq_def]
      split
      · rename_i heq
        cases heq
      · rfl
      · rename_i heq
        obtain ⟨-, rfl⟩ := List.cons.inj heq
        exact ih

theorem hasCrlf_of_not_mem {l : List Char} (h : '\n' ∉ l) : hasCrlf l = false := by
  fun_induction hasCrlf l with
  | case1 => rfl
  | case2 rest => simp at h
  | case3 c rest hcrlf ih => exact ih (List.not_mem_of_not_mem_cons h)

theorem hasCrlf_append_lf {l : List Char} (h : '\n' ∉ l) (hlast : l.getLast? ≠ some '\r')
    (rest : List Char) : hasCrlf (l ++ lf ++ rest) = hasCrlf rest := by
  induction l with
  | nil =>
      show hasCrlf ('\n' :: rest) = _
      rw [hasCrlf.eq_3 '\n' rest (by simp)]
  | cons c l ih =>
      rw [List.mem_cons, not_or] at h
      show hasCrlf (c :: (l ++ lf ++ rest)) = _
      cases l with
      | nil =>
          have hc : c ≠ '\r' := by simpa using hlast
          rw [hasCrlf.eq_3 c _ (fun _ hcr => absurd hcr hc)]
          exact ih h.2 (by simp)
      | cons d l =>
          rw [hasCrlf.eq_3 c, ih h.2 (by simpa using hlast)]
          rintro rest' - hrest
          obtain ⟨rfl, -⟩ := List.cons.inj hrest
          exact h.2 List.mem_cons_self

/-! ## Lines that one kind of line end keeps apart -/

/-- With `\n` alone, no line but the last may end in `\r`. -/
inductive Apart : List Char → List (List Char) → Prop
  | last (nl : List Char) {l : List Char} (h : '\n' ∉ l) : Apart nl [l]
  | crlf {l : List Char} {ls : List (List Char)} (h : '\n' ∉ l) (hls : Apart crlf ls) :
      Apart crlf (l :: ls)
  | lf {l : List Char} {ls : List (List Char)} (h : '\n' ∉ l) (hlast : l.getLast? ≠ some '\r')
      (hls : Apart lf ls) : Apart lf (l :: ls)

namespace Apart

variable {nl : List Char} {ls : List (List Char)}

theorem ne_nil (h : Apart nl ls) : ls ≠ [] := by
  cases h <;> simp

theorem not_mem (h : Apart nl ls) : ∀ l ∈ ls, '\n' ∉ l := by
  induction h with
  | last nl hl => simpa using hl
  | crlf hl hls ih => exact List.forall_mem_cons.mpr ⟨hl, ih⟩
  | lf hl hlast hls ih => exact List.forall_mem_cons.mpr ⟨hl, ih⟩

theorem textLines_join (h : Apart nl ls) : textLines (join nl ls) = ls := by
  induction h with
  | last nl hl =>
      rw [join_singleton]
      exact textLines_of_not_mem hl
  | crlf hl hls ih => rw [join_cons _ _ hls.ne_nil, textLines_append_crlf hl, ih]
  | lf hl hlast hls ih => rw [join_cons _ _ hls.ne_nil, textLines_append_lf hl hlast, ih]

theorem hasCrlf_join_lf (h : Apart Lines.lf ls) : hasCrlf (join Lines.lf ls) = false := by
  generalize hnl : Lines.lf = nl at h
  induction h with
  | last nl hl =>
      rw [join_singleton]
      exact hasCrlf_of_not_mem hl
  | crlf hl hls ih => cases hnl
  | lf hl hlast hls ih => rw [join_cons _ _ hls.ne_nil, hasCrlf_append_lf hl hlast, ih rfl]

/-- The line end found in the joined text joins as many lines the same way. -/
theorem join_newline (h : Apart nl ls) {ls' : List (List Char)} (hlen : ls'.length = ls.length) :
    join (newline (join nl ls)) ls' = join nl ls' := by
  cases h with
  | last nl hl =>
      obtain ⟨l', rfl⟩ := List.length_eq_one_iff.mp hlen
      rw [join_singleton, join_singleton]
  | crlf hl hls =>
      rw [join_cons _ _ hls.ne_nil, newline, if_pos (hasCrlf_append_crlf _ _)]
  | lf hl hlast hls =>
      have hno := hasCrlf_join_lf (lf hl hlast hls)
      rw [newline, if_neg (by simp [hno])]

theorem join_inj (h : Apart nl ls) {ls' : List (List Char)} (h' : Apart nl ls')
    (heq : join nl ls = join nl ls') : ls = ls' := by
  rw [← h.textLines_join, heq, h'.textLines_join]

/-- Rewriting line by line, with no new line end and the same last character. -/
theorem rewrite (h : Apart nl ls) {ls' : List (List Char)}
    (hls : List.Forall₂ (fun l l' => ('\n' ∉ l → '\n' ∉ l') ∧ l'.getLast? = l.getLast?) ls ls') :
    Apart nl ls' := by
  induction h generalizing ls' with
  | last nl hl =>
      cases hls with
      | cons hhead htail =>
          cases htail
          exact last nl (hhead.1 hl)
  | crlf hl hls' ih =>
      cases hls with
      | cons hhead htail => exact crlf (hhead.1 hl) (ih htail)
  | lf hl hlast hls' ih =>
      cases hls with
      | cons hhead htail => exact lf (hhead.1 hl) (by rwa [hhead.2]) (ih htail)

theorem of_not_mem (hne : ls ≠ []) (h : ∀ l ∈ ls, '\n' ∉ l) : Apart Lines.crlf ls := by
  induction ls with
  | nil => exact absurd rfl hne
  | cons l ls ih =>
      rw [List.forall_mem_cons] at h
      by_cases hls : ls = []
      · rw [hls]
        exact last _ h.1
      · exact crlf h.1 (ih hls h.2)

/-- One more character before the first line, no `\r` before an empty one. -/
theorem cons_head {l : List Char} (h : Apart Lines.lf (l :: ls)) {c : Char} (hc : c ≠ '\n')
    (hcr : l = [] → ls ≠ [] → c ≠ '\r') : Apart Lines.lf ((c :: l) :: ls) := by
  have hcons : '\n' ∉ l → '\n' ∉ c :: l := by
    intro hl hmem
    rcases List.mem_cons.mp hmem with hhead | htail
    · exact hc hhead.symm
    · exact hl htail
  cases h with
  | last nl hl => exact last _ (hcons hl)
  | lf hl hlast hls =>
      refine lf (hcons hl) ?_ hls
      cases l with
      | nil => simpa using hcr rfl hls.ne_nil
      | cons d l => simpa using hlast

end Apart

theorem apart_textLines_lf {text : List Char} (h : hasCrlf text = false) :
    Apart lf (textLines text) := by
  fun_induction textLines text with
  | case1 => exact .last _ (by simp)
  | case2 rest ih => exact .lf (by simp) (by simp) (ih (by simpa [hasCrlf] using h))
  | case3 rest ih => simp [hasCrlf] at h
  | case4 c rest hlf hcrlf ih =>
      rw [hasCrlf.eq_3 c rest hcrlf] at h
      obtain ⟨l, ls, heq⟩ := List.exists_cons_of_ne_nil (textLines_ne_nil rest)
      have happart := ih h
      rw [heq] at happart
      rw [heq, List.modifyHead_cons]
      refine happart.cons_head hlf ?_
      intro hl hls hcr
      -- an empty line before another one: the rest begins with its line end
      have hrest := join_textLines_lf h
      rw [heq, hl, join_cons _ _ hls] at hrest
      exact hcrlf _ hcr hrest.symm

theorem apart_textLines (text : List Char) : Apart (newline text) (textLines text) := by
  cases hkind : hasCrlf text with
  | false =>
      rw [newline, if_neg (by simp [hkind])]
      exact apart_textLines_lf hkind
  | true =>
      rw [newline, if_pos hkind]
      exact .of_not_mem (textLines_ne_nil text) (not_mem_textLines text)

end GdutNet.Lines
