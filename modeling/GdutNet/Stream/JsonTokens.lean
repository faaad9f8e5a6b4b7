import GdutNet.Base

/-!
# JSON texts, as tokens

A JSON text is a run of tokens: structural characters and white space, the three
literal names, numbers, strings. Of a number only its characters are kept here.
Whatever is not one of these stands in a string; and a text that is read from
within one of its strings is read out of step: what was between two strings is
now in one.
-/

namespace GdutNet.Json

/-- What stands between the quotes of a string. -/
inductive Body : List Char → Prop
  | nil : Body []
  | char {c : Char} {cs : List Char} (hquote : c ≠ '"') (hback : c ≠ '\\') (h : Body cs) :
      Body (c :: cs)
  | escape (c : Char) {cs : List Char} (h : Body cs) : Body ('\\' :: c :: cs)

def marks : List Char := ['{', '}', '[', ']', ':', ',', ' ', '\t', '\n', '\r']

inductive Token where
  | mark (c : Char) (h : c ∈ marks)
  | literal (name : String) (h : name ∈ ["true", "false", "null"])
  | number (first : Char) (rest : List Char) (hfirst : first = '-' ∨ first.isDigit = true)
      (hrest : ∀ c ∈ rest, c.isDigit = true ∨ c ∈ ['+', '-', '.', 'e', 'E'])
  | quoted (body : List Char) (h : Body body)

namespace Token

def text : Token → List Char
  | mark c _ => [c]
  | literal name _ => name.toList
  | number first rest _ _ => first :: rest
  | quoted body _ => '"' :: (body ++ ['"'])

/-- Not a string. -/
def Bare : Token → Prop
  | quoted _ _ => False
  | _ => True

theorem bare_or (x : Token) : x.Bare ∨ ∃ body h, x = quoted body h := by
  cases x with
  | quoted body h => exact .inr ⟨body, h, rfl⟩
  | _ => exact .inl trivial

/-- What a token starts with. -/
def starts (c : Char) : Bool :=
  c = '"' || c ∈ marks || c ∈ ['t', 'f', 'n', '-'] || c.isDigit

theorem text_starts (x : Token) : ∃ c cs, x.text = c :: cs ∧ starts c = true := by
  cases x with
  | mark c h => exact ⟨c, [], rfl, by simp [starts, h]⟩
  | literal name h =>
      rcases List.mem_cons.mp h with rfl | h
      · exact ⟨'t', _, rfl, by decide⟩
      · rcases List.mem_cons.mp h with rfl | h
        · exact ⟨'f', _, rfl, by decide⟩
        · obtain rfl := List.mem_singleton.mp h
          exact ⟨'n', _, rfl, by decide⟩
  | number first rest hfirst _ =>
      refine ⟨first, rest, rfl, ?_⟩
      rcases hfirst with rfl | hdigit
      · decide
      · simp [starts, hdigit]
  | quoted body h => exact ⟨'"', _, rfl, by decide⟩

theorem Bare.free {x : Token} (hx : x.Bare) {c : Char} (hc : c ∈ x.text) :
    c ∉ ['"', '\\', '(', ')'] := by
  have hdigit {c : Char} (h : c.isDigit = true) : c ∉ ['"', '\\', '(', ')'] := by
    intro hmem
    simp only [List.mem_cons, List.not_mem_nil, or_false] at hmem
    rcases hmem with rfl | rfl | rfl | rfl <;> simp at h
  cases x with
  | mark c' h =>
      obtain rfl := List.mem_singleton.mp hc
      have hmarks : ∀ c ∈ marks, c ∉ ['"', '\\', '(', ')'] :=
        forall_mem_of_all (by decide)
      exact hmarks c h
  | literal name h =>
      have hnames : ∀ name ∈ ["true", "false", "null"],
          name.toList.all (fun c => decide (c ∉ ['"', '\\', '(', ')'])) = true :=
        forall_mem_of_all (by decide)
      exact forall_mem_of_all (hnames name h) c hc
  | number first rest hfirst hrest =>
      have hsigns : ∀ c ∈ ['+', '-', '.', 'e', 'E'], c ∉ ['"', '\\', '(', ')'] :=
        forall_mem_of_all (by decide)
      rcases List.mem_cons.mp hc with rfl | hc
      · rcases hfirst with rfl | h
        · decide
        · exact hdigit h
      · exact (hrest c hc).elim hdigit (hsigns c)
  | quoted body h => exact hx.elim

end Token

def render (ts : List Token) : List Char := ts.flatMap Token.text

theorem render_cons (x : Token) (ts : List Token) : render (x :: ts) = x.text ++ render ts := rfl

theorem Body.of_plain {cs : List Char} (h : ∀ c ∈ cs, c ≠ '"' ∧ c ≠ '\\') : Body cs := by
  induction cs with
  | nil => exact .nil
  | cons c cs ih =>
      obtain ⟨hc, hcs⟩ := List.forall_mem_cons.mp h
      exact .char hc.1 hc.2 (ih hcs)

/-! ## Reading on -/

theorem Body.drop {xs ys : List Char} (h : Body (xs ++ ys)) (hxs : '\\' ∉ xs) : Body ys := by
  induction xs with
  | nil => exact h
  | cons x xs ih =>
      rw [List.mem_cons, not_or] at hxs
      generalize hcs : x :: xs ++ ys = cs at h
      cases h with
      | nil => cases hcs
      | char _ _ h =>
          obtain ⟨-, rfl⟩ := List.cons.inj hcs
          exact ih h hxs.2
      | escape c h => exact absurd (List.cons.inj hcs).1.symm hxs.1

/-- The rest of a string after a character that is no backslash. -/
theorem Body.after {xs ys : List Char} {c : Char} (h : Body (xs ++ c :: ys)) (hc : c ≠ '\\') :
    Body ys := by
  generalize hcs : xs ++ c :: ys = cs at h
  induction h generalizing xs with
  | nil => simp at hcs
  | char _ _ h ih =>
      cases xs with
      | nil =>
          obtain ⟨-, rfl⟩ := List.cons.inj hcs
          exact h
      | cons x xs => exact ih (List.cons.inj hcs).2
  | escape d h ih =>
      rcases xs with _ | ⟨x, _ | ⟨y, xs⟩⟩
      · exact absurd (List.cons.inj hcs).1 hc
      · obtain ⟨-, rfl⟩ := List.cons.inj (List.cons.inj hcs).2
        exact h
      · exact ih (List.cons.inj (List.cons.inj hcs).2).2

/-- A quote ends the string. -/
theorem Body.quote {body ys zs : List Char} (h : Body body)
    (heq : body ++ '"' :: zs = '"' :: ys) : body = [] ∧ zs = ys := by
  cases h with
  | nil => exact ⟨rfl, (List.cons.inj heq).2⟩
  | char hquote _ _ => exact absurd (List.cons.inj heq).1 hquote
  | escape c _ => exact absurd (List.cons.inj heq).1 (by decide)

/-- Text without a quote is used up before the next one. -/
theorem append_quote {xs ys body zs : List Char} (hxs : '"' ∉ xs)
    (heq : xs ++ ys = body ++ '"' :: zs) : ∃ rest, body = xs ++ rest ∧ ys = rest ++ '"' :: zs := by
  rcases List.append_eq_append_iff.mp heq with ⟨rest, hbody, hys⟩ | ⟨rest, hxs', hzs⟩
  · exact ⟨rest, hbody, hys⟩
  · cases rest with
    | nil => exact ⟨[], by simpa using hxs'.symm, by simpa using hzs.symm⟩
    | cons c rest =>
        obtain ⟨rfl, -⟩ := List.cons.inj hzs
        exact absurd (hxs' ▸ by simp) hxs

/-- A string that is read where `ts` is read from the outside takes up whole
tokens of `ts`, none of them a string, and ends within one. -/
theorem string_between {ts : List Token} {body rest : List Char} (hbody : Body body)
    (heq : render ts = body ++ '"' :: rest) :
    ∃ between body' ts', (∀ x ∈ between, Token.Bare x) ∧ body = render between ∧ Body body' ∧
      rest = body' ++ '"' :: render ts' := by
  induction ts generalizing body with
  | nil =>
      have := congrArg List.length heq
      simp [render] at this
  | cons x ts ih =>
      rw [render_cons] at heq
      rcases x.bare_or with hx | ⟨body', h, rfl⟩
      · have hquote : '"' ∉ x.text := fun hc => hx.free hc (by simp)
        have hback : '\\' ∉ x.text := fun hc => hx.free hc (by simp)
        obtain ⟨body₁, rfl, hrest⟩ := append_quote hquote heq
        obtain ⟨between, body', ts', hbare, rfl, hbody', heq'⟩ := ih (hbody.drop hback) hrest
        exact ⟨x :: between, body', ts', List.forall_mem_cons.mpr ⟨hx, hbare⟩, rfl, hbody', heq'⟩
      · rw [Token.text, List.cons_append, List.append_assoc] at heq
        obtain ⟨rfl, hrest⟩ := hbody.quote heq.symm
        exact ⟨[], body', ts, by simp, rfl, h, hrest⟩

/-- Read from within a string of `ts`, every string is made of tokens of `ts`
that are none. -/
theorem strings_between {ts ts' : List Token} {body rest : List Char} (hbody : Body body)
    (heq : body ++ '"' :: render ts = render ts' ++ rest) {found : List Char} {h : Body found}
    (hfound : Token.quoted found h ∈ ts') :
    ∃ between, (∀ x ∈ between, Token.Bare x) ∧ found = render between := by
  induction ts' generalizing ts body with
  | nil => cases hfound
  | cons x ts' ih =>
      rw [render_cons, List.append_assoc] at heq
      rcases x.bare_or with hx | ⟨found', h', rfl⟩
      · have hquote : '"' ∉ x.text := fun hc => hx.free hc (by simp)
        have hback : '\\' ∉ x.text := fun hc => hx.free hc (by simp)
        obtain ⟨body₁, rfl, hrest⟩ := append_quote hquote heq.symm
        refine ih (hbody.drop hback) hrest.symm ?_
        rcases List.mem_cons.mp hfound with rfl | hfound
        · exact hx.elim
        · exact hfound
      · rw [Token.text, List.cons_append, List.append_assoc] at heq
        obtain ⟨rfl, hinside⟩ := hbody.quote heq
        obtain ⟨between, body', ts₁, hbare, hbetween, hbody', hrest⟩ := string_between h' hinside
        rcases List.mem_cons.mp hfound with hsame | hfound
        · obtain rfl := (Token.quoted.inj hsame)
          exact ⟨between, hbare, hbetween⟩
        · exact ih hbody' hrest.symm hfound

theorem Token.string_of_paren {x : Token} {pre post : List Char} {c : Char}
    (hc : c ∈ ['(', ')']) (heq : x.text = pre ++ c :: post) :
    ∃ body, Body body ∧ post = body ++ ['"'] := by
  have hmem : c ∈ x.text := by
    rw [heq]
    simp
  rcases x.bare_or with hx | ⟨body, h, rfl⟩
  · have hfree : ∀ c ∈ ['(', ')'], c ∈ ['"', '\\', '(', ')'] :=
      forall_mem_of_all (by decide)
    exact absurd (hfree c hc) (hx.free hmem)
  · have hne : ∀ c ∈ ['(', ')'], c ≠ '"' ∧ c ≠ '\\' := forall_mem_of_all (by decide)
    obtain ⟨hquote, hback⟩ := hne c hc
    cases pre with
    | nil => exact absurd (List.cons.inj heq).1.symm hquote
    | cons q pre =>
        obtain ⟨-, hbody⟩ := List.cons.inj heq
        rcases post.eq_nil_or_concat with rfl | ⟨post, last, rfl⟩
        · obtain ⟨-, hlast⟩ := List.append_inj' hbody rfl
          exact absurd (List.singleton_injective hlast).symm hquote
        · have hsplit : body ++ ['"'] = (pre ++ c :: post) ++ [last] := by
            rw [hbody]
            simp
          obtain ⟨rfl, hlast⟩ := List.append_inj' hsplit rfl
          obtain rfl := List.singleton_injective hlast
          exact ⟨post, h.after hback, List.concat_eq_append⟩

/-- A parenthesis stands in a string. -/
theorem string_of_paren {ts : List Token} {pre post : List Char} {c : Char}
    (hc : c ∈ ['(', ')']) (heq : render ts = pre ++ c :: post) :
    ∃ body ts', Body body ∧ post = body ++ '"' :: render ts' := by
  induction ts generalizing pre with
  | nil =>
      have := congrArg List.length heq
      simp [render] at this
  | cons x ts ih =>
      rw [render_cons] at heq
      rcases List.append_eq_append_iff.mp heq with ⟨rest, -, hrest⟩ | ⟨rest, htext, hrest⟩
      · exact ih hrest
      · cases rest with
        | nil => exact ih (show render ts = [] ++ c :: post from hrest.symm)
        | cons d rest =>
            obtain ⟨rfl, rfl⟩ := List.cons.inj hrest
            obtain ⟨body, hbody, rfl⟩ := Token.string_of_paren hc htext
            exact ⟨body, ts, hbody, by simp⟩

/-- From a parenthesis of a text on, strings have no escapes and begin as tokens
do. -/
theorem string_of_shifted {ts ts' : List Token} {pre post rest : List Char} {c : Char}
    (hc : c ∈ ['(', ')']) (heq : render ts = pre ++ c :: post) (hpost : post = render ts' ++ rest)
    {found : List Char} {h : Body found} (hfound : Token.quoted found h ∈ ts') :
    '\\' ∉ found ∧ ∀ d ∈ found.head?, Token.starts d = true := by
  obtain ⟨body, ts₁, hbody, rfl⟩ := string_of_paren hc heq
  obtain ⟨between, hbare, rfl⟩ := strings_between hbody hpost hfound
  constructor
  · intro hback
    obtain ⟨x, hx, hmem⟩ := List.mem_flatMap.mp hback
    exact (hbare x hx).free hmem (by simp)
  · intro d hd
    cases between with
    | nil => cases hd
    | cons x between =>
        obtain ⟨e, es, htext, hstarts⟩ := x.text_starts
        rw [render_cons, htext] at hd
        rwa [← Option.some.inj hd]

end GdutNet.Json
