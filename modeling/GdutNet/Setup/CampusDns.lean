import Mathlib.Data.List.Induction
import GdutNet.Base
import GdutNet.Stream.Lines

/-!
# `clash-campus-dns.ps1`

The toggle of the campus-DNS block in Clash Verge's `Merge.yaml`. A file is its
text, a byte order mark included; strings compare ordinally. That the file is
there, and the write itself, are not modelled.
-/

namespace GdutNet.CampusDns

open Lines

inductive Mode where
  | on
  | off
deriving DecidableEq, Repr

/-! ## Patterns -/

def trimStart (s : List Char) : List Char := s.dropWhile isWhitespace

/-- A keyword of a pattern: `-match` ignores case. -/
def startsWith (key s : List Char) : Bool :=
  (key.map Char.toLower).isPrefixOf (s.map Char.toLower)

/-- `^\s*#\s*<key>`. In a text of several lines `\s*` takes line ends too. -/
def hashKey (key s : List Char) : Bool :=
  match trimStart s with
  | '#' :: rest => startsWith key (trimStart rest)
  | _ => false

def afterNewlines : List Char → List (List Char)
  | [] => []
  | c :: rest => if c = '\n' then rest :: afterNewlines rest else afterNewlines rest

/-- Where `^` matches under `(?m)`. -/
def lineStarts (s : List Char) : List (List Char) := s :: afterNewlines s

/-- `-match '(?m)^\s*#\s*<key>'`. -/
def hashKeyMultiline (key s : List Char) : Bool := (lineStarts s).any (hashKey key)

def beginKey : List Char := "CAMPUS-DNS-BEGIN".toList

def endKey : List Char := "CAMPUS-DNS-END".toList

def isBegin (line : List Char) : Bool := hashKey beginKey line

def isEnd (line : List Char) : Bool := hashKey endKey line

/-! ## The loop -/

def offTag : List Char := "#OFF#".toList

/-- `.Replace('#OFF#', '')`. -/
def removeOff : List Char → List Char
  | [] => []
  | '#' :: 'O' :: 'F' :: 'F' :: '#' :: rest => removeOff rest
  | c :: rest => c :: removeOff rest

def toggleLine (mode : Mode) (line : List Char) : List Char :=
  let body := trimStart line
  if mode = .off ∧ body ≠ [] ∧ body.head? ≠ some '#' then offTag ++ line
  else if mode = .on ∧ offTag.isPrefixOf body then removeOff line
  else line

def toggleLines (mode : Mode) : Bool → List (List Char) → List (List Char)
  | _, [] => []
  | inside, line :: rest =>
      let inside := inside && !isEnd line
      let out := if inside && !isBegin line && !isEnd line then toggleLine mode line else line
      out :: toggleLines mode (inside || isBegin line) rest

/-! ## The file -/

def bom : Char := '\uFEFF'

/-- `$hasBom`, and the text without the mark. -/
def stripBom : List Char → Bool × List Char
  | [] => (false, [])
  | c :: rest => if c = bom then (true, rest) else (false, c :: rest)

def withBom (hasBom : Bool) (text : List Char) : List Char :=
  if hasBom then bom :: text else text

structure Outcome where
  file : List Char
  exitCode : ℕ
deriving DecidableEq, Repr

def toggle (mode : Mode) (file : List Char) : Outcome :=
  let (hasBom, text) := stripBom file
  let nl := newline text
  let newText := withBom hasBom (join nl (toggleLines mode false (textLines text)))
  if newText = text then ⟨file, 0⟩
  else if !hashKeyMultiline beginKey newText || !hashKeyMultiline endKey newText then ⟨file, 1⟩
  else ⟨newText, 0⟩

/-! ## Lines and blocks -/

def Blank (l : List Char) : Prop := trimStart l = []

def Comment (l : List Char) : Prop := (trimStart l).head? = some '#'

instance : DecidablePred Blank := fun l => inferInstanceAs (Decidable (trimStart l = []))

instance : DecidablePred Comment :=
  fun l => inferInstanceAs (Decidable ((trimStart l).head? = some '#'))

/-- The line `l`, after the lines `pre`, is in a block. A block ends before its end
marker; one without an end marker goes on to the end of the file. -/
def InBlock (pre : List (List Char)) (l : List Char) : Prop :=
  ∃ u b v, pre = u ++ b :: v ∧ isBegin b = true ∧ (∀ x ∈ v, isEnd x = false) ∧ isEnd l = false

/-! ## Keywords -/

theorem startsWith_cons {k : Char} {key : List Char} {c : Char} {s : List Char}
    (h : startsWith (k :: key) (c :: s) = true) : k.toLower = c.toLower := by
  simp only [startsWith, List.map_cons, List.isPrefixOf, Bool.and_eq_true, beq_iff_eq] at h
  exact h.1

theorem not_startsWith_nil (k : Char) (key : List Char) : startsWith (k :: key) [] = false := rfl

/-- What a marker's keyword needs of its letters. -/
structure Keyword (key : List Char) : Prop where
  letters : ∀ c ∈ key, isWhitespace c.toLower = false
  first : ∃ rest, key = 'C' :: rest

theorem beginKey_keyword : Keyword beginKey := ⟨forall_mem_of_all (by decide), _, rfl⟩

theorem endKey_keyword : Keyword endKey := ⟨forall_mem_of_all (by decide), _, rfl⟩

namespace Keyword

variable {key : List Char}

theorem ne_nil (h : Keyword key) : key ≠ [] := by
  obtain ⟨rest, rfl⟩ := h.first
  simp

theorem head (h : Keyword key) {c : Char} {s : List Char} (hs : startsWith key (c :: s) = true) :
    c.toLower = 'c' := by
  obtain ⟨rest, rfl⟩ := h.first
  exact (startsWith_cons hs).symm

theorem nil (h : Keyword key) : startsWith key [] = false := by
  obtain ⟨rest, rfl⟩ := h.first
  rfl

end Keyword

theorem toLower_of_whitespace {c : Char} (h : isWhitespace c = true) : c.toLower = c := by
  refine dif_neg ?_
  rintro ⟨hlo, hhi⟩
  have hlo' : 65 ≤ c.toNat := UInt32.le_iff_toNat_le.mp hlo
  have hhi' : c.toNat ≤ 90 := UInt32.le_iff_toNat_le.mp hhi
  simp only [isWhitespace, Bool.or_eq_true, Bool.and_eq_true, decide_eq_true_eq] at h
  omega

/-- A keyword is read within one line. -/
theorem startsWith_append {key : List Char} (hkey : ∀ c ∈ key, isWhitespace c.toLower = false)
    (x : List Char) {w : Char} (hw : isWhitespace w = true) (y : List Char) :
    startsWith key (x ++ w :: y) = startsWith key x := by
  induction x generalizing key with
  | nil =>
      cases key with
      | nil => rfl
      | cons k key =>
          have hk : k.toLower ≠ w.toLower := by
            intro heq
            have hno := hkey k List.mem_cons_self
            rw [heq, toLower_of_whitespace hw, hw] at hno
            cases hno
          simp [startsWith, List.isPrefixOf, hk]
  | cons c x ih =>
      cases key with
      | nil => rfl
      | cons k key =>
          have htail := ih fun c hc => hkey c (List.mem_cons_of_mem _ hc)
          simp only [startsWith, List.cons_append, List.map_cons, List.isPrefixOf] at htail ⊢
          rw [htail]

/-! ## Markers and comments -/

theorem comment_of_hashKey {key l : List Char} (h : hashKey key l = true) : Comment l := by
  rw [hashKey] at h
  split at h
  · rename_i rest heq
    rw [Comment, heq]
    rfl
  · cases h

/-- A line that `off` turns into a comment. -/
def Code (l : List Char) : Prop := ¬ Blank l ∧ ¬ Comment l

instance : DecidablePred Code := fun _ => instDecidableAnd

theorem Code.hashKey {l : List Char} (h : Code l) (key : List Char) : hashKey key l = false :=
  Bool.eq_false_iff.mpr fun hkey => h.2 (comment_of_hashKey hkey)

theorem trimStart_offTag (l : List Char) : trimStart (offTag ++ l) = offTag ++ l := rfl

theorem comment_offTag (l : List Char) : Comment (offTag ++ l) := rfl

/-- What `off` writes is no marker. -/
theorem Keyword.hashKey_offTag {key : List Char} (h : Keyword key) (l : List Char) :
    hashKey key (offTag ++ l) = false := by
  show startsWith key ('O' :: 'F' :: 'F' :: '#' :: l) = false
  refine Bool.eq_false_iff.mpr fun hkey => ?_
  exact absurd (h.head hkey) (by decide)

/-! ## One line -/

theorem toggleLine_off_code {l : List Char} (h : Code l) : toggleLine .off l = offTag ++ l :=
  if_pos ⟨rfl, h⟩

theorem toggleLine_off_spared {l : List Char} (h : ¬ Code l) : toggleLine .off l = l := by
  rw [toggleLine, if_neg (fun hcode => h hcode.2), if_neg (by simp)]

theorem removeOff_append_offTag (l : List Char) : removeOff (offTag ++ l) = removeOff l := rfl

theorem removeOff_of_clean {l : List Char} (h : ¬ offTag <:+: l) : removeOff l = l := by
  fun_induction removeOff l with
  | case1 => rfl
  | case2 rest ih => exact absurd ⟨[], rest, rfl⟩ h
  | case3 c rest hno ih =>
      rw [ih fun hrest => h (hrest.trans (List.suffix_cons c rest).isInfix)]

theorem infix_of_isPrefixOf_trimStart {l : List Char} (h : offTag.isPrefixOf (trimStart l) = true) :
    offTag <:+: l :=
  (List.isPrefixOf_iff_prefix.mp h).isInfix.trans (List.dropWhile_suffix _).isInfix

theorem toggleLine_on_clean {l : List Char} (h : ¬ offTag <:+: l) : toggleLine .on l = l := by
  rw [toggleLine, if_neg (by simp), if_neg]
  rintro ⟨-, hprefix⟩
  exact h (infix_of_isPrefixOf_trimStart hprefix)

theorem toggleLine_on_offTag {l : List Char} (h : ¬ offTag <:+: l) :
    toggleLine .on (offTag ++ l) = l := by
  have hprefix : offTag.isPrefixOf (trimStart (offTag ++ l)) = true :=
    List.isPrefixOf_iff_prefix.mpr (List.prefix_append _ _)
  rw [toggleLine, if_neg (by simp), if_pos ⟨rfl, hprefix⟩, removeOff_append_offTag,
    removeOff_of_clean h]

/-! ## The loop, line after line -/

/-- `$inside` after a line. -/
def next (inside : Bool) (l : List Char) : Bool := (inside && !isEnd l) || isBegin l

theorem toggleLines_cons (mode : Mode) (inside : Bool) (l : List Char) (rest : List (List Char)) :
    toggleLines mode inside (l :: rest) =
      (if inside && !isEnd l && !isBegin l then toggleLine mode l else l) ::
        toggleLines mode (next inside l) rest := by
  rw [toggleLines]
  congr 1
  cases inside <;> cases isEnd l <;> cases isBegin l <;> rfl

theorem toggleLines_off_cons (inside : Bool) (l : List Char) (rest : List (List Char)) :
    toggleLines .off inside (l :: rest) =
      (if inside = true ∧ Code l then offTag ++ l else l) ::
        toggleLines .off (next inside l) rest := by
  rw [toggleLines_cons]
  congr 1
  by_cases hcode : Code l
  · have hend : isEnd l = false := hcode.hashKey _
    have hbegin : isBegin l = false := hcode.hashKey _
    cases inside <;> simp [hend, hbegin, hcode, toggleLine_off_code]
  · rw [toggleLine_off_spared hcode, ite_self, if_neg (fun h => hcode h.2)]

theorem next_offTag {l : List Char} (h : Code l) (inside : Bool) :
    next inside (offTag ++ l) = next inside l := by
  have hend : isEnd l = false := h.hashKey _
  have hbegin : isBegin l = false := h.hashKey _
  have hend' : isEnd (offTag ++ l) = false := endKey_keyword.hashKey_offTag l
  have hbegin' : isBegin (offTag ++ l) = false := beginKey_keyword.hashKey_offTag l
  rw [next, next, hend, hbegin, hend', hbegin']

theorem length_toggleLines (mode : Mode) (inside : Bool) (ls : List (List Char)) :
    (toggleLines mode inside ls).length = ls.length := by
  induction ls generalizing inside with
  | nil => rfl
  | cons l ls ih => rw [toggleLines_cons, List.length_cons, List.length_cons, ih]

theorem toggleLines_append (mode : Mode) (inside : Bool) (pre rest : List (List Char)) :
    toggleLines mode inside (pre ++ rest) =
      toggleLines mode inside pre ++ toggleLines mode (pre.foldl next inside) rest := by
  induction pre generalizing inside with
  | nil => rfl
  | cons l pre ih =>
      rw [List.cons_append, toggleLines_cons, toggleLines_cons, ih, List.foldl_cons,
        List.cons_append]

/-- No processed line has the tag. -/
def Clean (inside : Bool) (ls : List (List Char)) : Prop :=
  ∀ pre l post, ls = pre ++ l :: post → (pre.foldl next inside && !isEnd l) = true →
    ¬ offTag <:+: l

theorem Clean.head {inside : Bool} {l : List Char} {ls : List (List Char)}
    (h : Clean inside (l :: ls)) (hl : (inside && !isEnd l) = true) : ¬ offTag <:+: l :=
  h [] l ls rfl hl

theorem Clean.tail {inside : Bool} {l : List Char} {ls : List (List Char)}
    (h : Clean inside (l :: ls)) : Clean (next inside l) ls := by
  intro pre x post hls hx
  exact h (l :: pre) x post (by rw [hls]; rfl) hx

theorem toggleLines_on_off {inside : Bool} {ls : List (List Char)} (h : Clean inside ls) :
    toggleLines .on inside (toggleLines .off inside ls) = ls := by
  induction ls generalizing inside with
  | nil => rfl
  | cons l ls ih =>
      rw [toggleLines_off_cons, toggleLines_cons]
      by_cases hturned : inside = true ∧ Code l
      · obtain ⟨hinside, hcode⟩ := hturned
        have hend : isEnd l = false := hcode.hashKey _
        have hend' : isEnd (offTag ++ l) = false := endKey_keyword.hashKey_offTag l
        have hbegin' : isBegin (offTag ++ l) = false := beginKey_keyword.hashKey_offTag l
        have hl : ¬ offTag <:+: l := h.head (by simp [hinside, hend])
        have hout : (if inside = true ∧ Code l then offTag ++ l else l) = offTag ++ l :=
          if_pos ⟨hinside, hcode⟩
        rw [hout, next_offTag hcode, ih h.tail, if_pos (by simp [hinside, hend', hbegin']),
          toggleLine_on_offTag hl]
      · rw [if_neg hturned, ih h.tail]
        congr 1
        split
        · rename_i hprocessed
          rw [Bool.and_eq_true] at hprocessed
          exact toggleLine_on_clean (h.head hprocessed.1)
        · rfl

theorem toggleLines_off_off (inside : Bool) (ls : List (List Char)) :
    toggleLines .off inside (toggleLines .off inside ls) = toggleLines .off inside ls := by
  induction ls generalizing inside with
  | nil => rfl
  | cons l ls ih =>
      rw [toggleLines_off_cons, toggleLines_off_cons]
      by_cases hturned : inside = true ∧ Code l
      · rw [if_pos hturned, next_offTag hturned.2, ih,
          if_neg (fun h => h.2.2 (comment_offTag l))]
      · rw [if_neg hturned, ih, if_neg hturned]

theorem toggleLines_on_clean {inside : Bool} {ls : List (List Char)} (h : Clean inside ls) :
    toggleLines .on inside ls = ls := by
  induction ls generalizing inside with
  | nil => rfl
  | cons l ls ih =>
      rw [toggleLines_cons, ih h.tail]
      congr 1
      split
      · rename_i hprocessed
        rw [Bool.and_eq_true] at hprocessed
        exact toggleLine_on_clean (h.head hprocessed.1)
      · rfl

/-! ## Blocks -/

/-- `$inside` says that a block is open. -/
theorem foldl_next_iff (pre : List (List Char)) :
    pre.foldl next false = true ↔
      ∃ u b v, pre = u ++ b :: v ∧ isBegin b = true ∧ ∀ x ∈ v, isEnd x = false := by
  induction pre using List.reverseRecOn with
  | nil => simp
  | append_singleton pre x ih =>
      rw [List.foldl_append, List.foldl_cons, List.foldl_nil, next, Bool.or_eq_true,
        Bool.and_eq_true, ih, Bool.not_eq_true']
      constructor
      · rintro (⟨⟨u, b, v, rfl, hb, hv⟩, hx⟩ | hx)
        · refine ⟨u, b, v ++ [x], by simp, hb, ?_⟩
          intro y hy
          rcases List.mem_append.mp hy with hy | hy
          · exact hv y hy
          · rwa [List.mem_singleton.mp hy]
        · exact ⟨pre, x, [], rfl, hx, by simp⟩
      · rintro ⟨u, b, v, heq, hb, hv⟩
        rcases List.eq_nil_or_concat v with rfl | ⟨v, y, rfl⟩
        · obtain ⟨-, hlast⟩ := List.append_inj' heq rfl
          obtain ⟨rfl, -⟩ := List.cons.inj hlast
          exact .inr hb
        · rw [List.concat_eq_append, ← List.cons_append, ← List.append_assoc] at heq
          obtain ⟨rfl, hlast⟩ := List.append_inj' heq rfl
          obtain ⟨rfl, -⟩ := List.cons.inj hlast
          exact .inl ⟨⟨u, b, v, rfl, hb, fun z hz => hv z (by simp [hz])⟩, hv x (by simp)⟩

theorem inBlock_iff {pre : List (List Char)} {l : List Char} :
    InBlock pre l ↔ (pre.foldl next false && !isEnd l) = true := by
  rw [Bool.and_eq_true, foldl_next_iff, Bool.not_eq_true']
  constructor
  · rintro ⟨u, b, v, hpre, hb, hv, hl⟩
    exact ⟨⟨u, b, v, hpre, hb, hv⟩, hl⟩
  · rintro ⟨⟨u, b, v, hpre, hb, hv⟩, hl⟩
    exact ⟨u, b, v, hpre, hb, hv, hl⟩

end GdutNet.CampusDns
