import GdutNet.Stream.Bytes
import GdutNet.Stream.Json

/-!
# What a JSON text determines

A compact JSON text is read from the left: the value ends where a comma or a closing
bracket follows, so one text is never the beginning of another, and the value is
determined by it. A writer whose values can be told from what follows is `Whole`; that it
tells different values apart is `Function.Injective`, proved beside it for each kind of
value.
-/

namespace GdutNet.Json

open Bytes

/-! ## Characters -/

theorem utf8EncodeChar_code : PrefixCode String.utf8EncodeChar where
  inj {a b xs ys} h := by
    have hbytes := congrArg List.toByteArray h
    rw [List.toByteArray_append, List.toByteArray_append] at hbytes
    have ha := ByteArray.utf8DecodeChar?_utf8EncodeChar_append (b := xs.toByteArray) (c := a)
    rw [hbytes, ByteArray.utf8DecodeChar?_utf8EncodeChar_append] at ha
    exact (Option.some.inj ha).symm
  ne_nil _ := String.utf8EncodeChar_ne_nil

section Codes

variable {α β : Type*} {f : α → List β}

/-- No encoding is the beginning of another. -/
theorem code_of_prefix (hinj : ∀ a b, f a <+: f b → a = b) (hne : ∀ a, f a ≠ []) :
    PrefixCode f where
  inj {a b xs ys} h := by
    rcases List.append_eq_append_iff.mp h with ⟨mid, hb, -⟩ | ⟨mid, ha, -⟩
    · exact hinj a b ⟨mid, hb.symm⟩
    · exact (hinj b a ⟨mid, ha.symm⟩).symm
  ne_nil := hne

theorem code_injective (hf : PrefixCode f) : Function.Injective f :=
  fun _ _ h => hf.inj (congrArg (· ++ []) h)

/-- Of two streams of codes, one that begins the other comes of a list that does. -/
theorem code_stream (hf : PrefixCode f) {as bs : List α}
    (h : (as.map f).flatten <+: (bs.map f).flatten) : as <+: bs := by
  obtain ⟨ys, hys⟩ := h
  rw [← List.flatMap_def, ← List.flatMap_def] at hys
  obtain ⟨cs, hcs, -⟩ := hf.split hys.symm
  exact ⟨cs, hcs.symm⟩

/-- A list of codes ends where what follows begins no code. -/
theorem flatMap_stop (hf : PrefixCode f) {as bs : List α} {xs ys : List β}
    (hxs : ∀ b ∈ bs, ¬ f b <+: xs) (hys : ∀ a ∈ as, ¬ f a <+: ys)
    (h : as.flatMap f ++ xs = bs.flatMap f ++ ys) : as = bs := by
  induction as generalizing bs with
  | nil =>
      cases bs with
      | nil => rfl
      | cons b bs =>
          refine absurd ⟨bs.flatMap f ++ ys, ?_⟩ (hxs b List.mem_cons_self)
          simpa using h.symm
  | cons a as ih =>
      cases bs with
      | nil =>
          refine absurd ⟨as.flatMap f ++ xs, ?_⟩ (hys a List.mem_cons_self)
          simpa using h
      | cons b bs =>
          rw [List.flatMap_cons, List.flatMap_cons, List.append_assoc, List.append_assoc] at h
          obtain rfl := hf.inj h
          rw [ih (fun b hb => hxs b (List.mem_cons_of_mem _ hb))
            (fun a ha => hys a (List.mem_cons_of_mem _ ha)) (List.append_cancel_left h)]

end Codes

/-! ## Where a value ends -/

/-- What may stand behind a value: a comma or a closing bracket. -/
def Closed (xs : List UInt8) : Prop :=
  ∃ c rest, xs = c :: rest ∧ (c = 0x2c ∨ c = 0x5d ∨ c = 0x7d)

section Whole

variable {α β : Type*} {f : α → List UInt8}

/-- No text of a value is seen to end within another. -/
def Whole (f : α → List UInt8) : Prop :=
  ∀ a b xs ys, Closed xs → Closed ys → f a ++ xs = f b ++ ys → f a = f b

/-- Every text begins, and not with this byte. -/
def Avoids (f : α → List UInt8) (c : UInt8) : Prop := ∀ a xs rest, f a ++ xs ≠ c :: rest

theorem Whole.comp (h : Whole f) (p : β → α) : Whole fun b => f (p b) :=
  fun a b xs ys hxs hys heq => h (p a) (p b) xs ys hxs hys heq

theorem Avoids.comp {c : UInt8} (h : Avoids f c) (p : β → α) : Avoids (fun b => f (p b)) c :=
  fun b xs rest => h (p b) xs rest

theorem whole_of_code (h : PrefixCode f) : Whole f :=
  fun _ _ _ _ _ _ heq => congrArg f (h.inj heq)

theorem whole_of_prefix (h : ∀ a b, f a <+: f b → f a = f b) : Whole f := by
  intro a b xs ys _ _ heq
  rcases List.append_eq_append_iff.mp heq with ⟨mid, hb, -⟩ | ⟨mid, ha, -⟩
  · exact h a b ⟨mid, hb.symm⟩
  · exact (h b a ⟨mid, ha.symm⟩).symm

/-! ### Strings -/

/-- An escape that can be read back. -/
structure Escape.Readable (e : Escape) : Prop where
  code : PrefixCode e.ofChar
  quote : Avoids e.ofChar 0x22

theorem quote_code {e : Escape} (he : e.Readable) : PrefixCode (quote e) where
  inj {s t xs ys} h := by
    simp only [quote, List.cons_append, List.append_assoc, List.nil_append, List.cons.injEq,
      true_and] at h
    have hstop (c : Char) (zs : List UInt8) : ¬ e.ofChar c <+: 0x22 :: zs := by
      rintro ⟨rest, hrest⟩
      exact he.quote c rest zs hrest
    exact String.ext (flatMap_stop he.code (fun c _ => hstop c xs) (fun c _ => hstop c ys) h)
  ne_nil _ := List.cons_ne_nil _ _

/-! ### Numbers -/

theorem number_inj {m n : ℕ} {xs ys : List UInt8} (hxs : Closed xs) (hys : Closed ys)
    (h : number m ++ xs = number n ++ ys) : m = n := by
  have hstop {k : ℕ} {zs : List UInt8} (hzs : Closed zs) {c : Char}
      (hc : c ∈ (toString k).toList) : ¬ String.utf8EncodeChar c <+: zs := by
    rintro ⟨ws, hws⟩
    obtain ⟨b, rest, rfl, hb⟩ := hzs
    have hdigit := isDigit_of_mem_toString hc
    have hchar {d : Char} (hd : String.utf8EncodeChar d = [b]) : c = d := by
      have heq : String.utf8EncodeChar c ++ ws = String.utf8EncodeChar d ++ rest := by
        rw [hws, hd]
        rfl
      exact utf8EncodeChar_code.inj heq
    rcases hb with rfl | rfl | rfl
    · rw [hchar (d := ',') (by decide)] at hdigit
      cases hdigit
    · rw [hchar (d := ']') (by decide)] at hdigit
      cases hdigit
    · rw [hchar (d := '}') (by decide)] at hdigit
      cases hdigit
  have hdigits : (toString m).toList = (toString n).toList :=
    flatMap_stop utf8EncodeChar_code (fun c hc => hstop hxs hc) (fun c hc => hstop hys hc) h
  rw [toList_toString, toList_toString] at hdigits
  rw [← Nat.ofDigitChars_toDigits (b := 10) (n := m) (by decide) (by decide), hdigits,
    Nat.ofDigitChars_toDigits (by decide) (by decide)]

theorem whole_number : Whole number :=
  fun _ _ _ _ hxs hys h => congrArg number (number_inj hxs hys h)

theorem number_injective : Function.Injective number :=
  fun _ _ h => number_inj ⟨0x2c, [], rfl, .inl rfl⟩ ⟨0x2c, [], rfl, .inl rfl⟩
    (congrArg (· ++ [0x2c]) h)

theorem number_avoids {d : Char} {b : UInt8} (hd : String.utf8EncodeChar d = [b])
    (hdigit : d.isDigit = false) : Avoids number b := by
  intro n xs rest h
  have hdigits := fun c => @isDigit_of_mem_toString n c
  have hne : (toString n).toList ≠ [] := by
    rw [toList_toString]
    exact Nat.toDigits_ne_nil
  unfold number utf8 at h
  cases hlist : (toString n).toList with
  | nil => exact hne hlist
  | cons c cs =>
      rw [hlist, List.flatMap_cons, List.append_assoc] at h
      have heq : String.utf8EncodeChar c ++ (cs.flatMap String.utf8EncodeChar ++ xs) =
          String.utf8EncodeChar d ++ rest := by
        rw [h, hd]
        rfl
      have hc := hdigits c (hlist ▸ List.mem_cons_self)
      rw [utf8EncodeChar_code.inj heq, hdigit] at hc
      cases hc

/-! ### Values that may be missing -/

theorem not_null (hnull : Avoids f 0x6e) (a : α) (xs ys : List UInt8) :
    f a ++ xs ≠ utf8 "null" ++ ys := by
  have htext : utf8 "null" = [0x6e, 0x75, 0x6c, 0x6c] := by decide
  rw [htext]
  exact hnull a xs _

theorem whole_orNull (hf : Whole f) (hnull : Avoids f 0x6e) : Whole (orNull f) := by
  intro a b xs ys hxs hys h
  cases a with
  | none =>
      cases b with
      | none => rfl
      | some b => exact absurd h.symm (not_null hnull b ys xs)
  | some a =>
      cases b with
      | none => exact absurd h (not_null hnull a xs ys)
      | some b => exact hf a b xs ys hxs hys h

theorem orNull_injective (hf : Function.Injective f) (hnull : Avoids f 0x6e) :
    Function.Injective (orNull f) := by
  intro a b h
  have hne (a : α) : f a ≠ utf8 "null" := by
    simpa using not_null hnull a [] []
  cases a with
  | none =>
      cases b with
      | none => rfl
      | some b => exact absurd h.symm (hne b)
  | some a =>
      cases b with
      | none => exact absurd h (hne a)
      | some b => rw [hf h]

/-! ### Arrays -/

theorem closed_bracket (xs : List UInt8) : Closed (0x5d :: xs) := ⟨_, xs, rfl, .inr (.inl rfl)⟩

theorem closed_brace (xs : List UInt8) : Closed (0x7d :: xs) := ⟨_, xs, rfl, .inr (.inr rfl)⟩

/-- The text after the first value of a list. -/
def tailText (f : α → List UInt8) (as : List α) : List UInt8 :=
  as.flatMap fun a => 0x2c :: f a

theorem commaSep_cons (a : α) (as : List α) :
    commaSep ((a :: as).map f) = f a ++ tailText f as := by
  induction as generalizing a with
  | nil => simp [commaSep, tailText]
  | cons b as ih =>
      rw [List.map_cons, List.map_cons, commaSep, ← List.map_cons, ih b]
      · simp [tailText]
      · simp

theorem Closed.tailText {xs : List UInt8} (h : Closed xs) (as : List α) :
    Closed (tailText f as ++ xs) := by
  cases as with
  | nil => exact h
  | cons a as => exact ⟨_, _, rfl, .inl rfl⟩

theorem tailText_inj (hf : Whole f) (hinj : Function.Injective f) {as bs : List α}
    {xs ys : List UInt8}
    (h : tailText f as ++ 0x5d :: xs = tailText f bs ++ 0x5d :: ys) : as = bs := by
  induction as generalizing bs with
  | nil =>
      cases bs with
      | nil => rfl
      | cons b bs => simp [tailText] at h
  | cons a as ih =>
      cases bs with
      | nil => simp [tailText] at h
      | cons b bs =>
          have hrest : f a ++ (tailText f as ++ 0x5d :: xs) =
              f b ++ (tailText f bs ++ 0x5d :: ys) := by
            simpa [tailText] using h
          have hab := hf a b _ _ ((closed_bracket xs).tailText as)
            ((closed_bracket ys).tailText bs) hrest
          rw [hab] at hrest
          rw [hinj hab, ih (List.append_cancel_left hrest)]

/-- An array tells its values and where it ends. -/
theorem array_code (hf : Whole f) (hinj : Function.Injective f) (hempty : Avoids f 0x5d) :
    PrefixCode fun as : List α => array (as.map f) where
  inj {as bs xs ys} h := by
    simp only [array, List.cons_append, List.append_assoc, List.nil_append, List.cons.injEq,
      true_and] at h
    cases as with
    | nil =>
        cases bs with
        | nil => rfl
        | cons b bs =>
            rw [commaSep_cons, List.append_assoc] at h
            exact absurd h.symm (hempty b _ xs)
    | cons a as =>
        cases bs with
        | nil =>
            rw [commaSep_cons, List.append_assoc] at h
            exact absurd h (hempty a _ ys)
        | cons b bs =>
            rw [commaSep_cons, commaSep_cons, List.append_assoc, List.append_assoc] at h
            have hab := hf a b _ _ ((closed_bracket xs).tailText as)
              ((closed_bracket ys).tailText bs) h
            rw [hab] at h
            rw [hinj hab, tailText_inj hf hinj (List.append_cancel_left h)]
  ne_nil _ := List.cons_ne_nil _ _

/-! ### Objects -/

/-- The text of one field. -/
def member (a : α) (p : String × (α → List UInt8)) : List UInt8 := name p.1 ++ 0x3a :: p.2 a

section Members

variable {fields : List (String × (α → List UInt8))} {a b : α} {xs ys : List UInt8}

theorem member_inj {p : String × (α → List UInt8)} (hp : Whole p.2) (hxs : Closed xs)
    (hys : Closed ys) (h : member a p ++ xs = member b p ++ ys) : p.2 a = p.2 b := by
  simp only [member, List.append_assoc, List.cons_append, List.append_cancel_left_eq,
    List.cons.injEq, true_and] at h
  exact hp a b xs ys hxs hys h

theorem members_inj (h : ∀ p ∈ fields, Whole p.2)
    (heq : tailText (member a) fields ++ 0x7d :: xs = tailText (member b) fields ++ 0x7d :: ys) :
    (∀ p ∈ fields, p.2 a = p.2 b) ∧ xs = ys := by
  induction fields with
  | nil => exact ⟨by simp, by simpa [tailText] using heq⟩
  | cons p fields ih =>
      obtain ⟨hp, hfields⟩ := List.forall_mem_cons.mp h
      have hfirst : member a p ++ (tailText (member a) fields ++ 0x7d :: xs) =
          member b p ++ (tailText (member b) fields ++ 0x7d :: ys) := by
        simpa [tailText] using heq
      have hab := member_inj hp ((closed_brace xs).tailText fields)
        ((closed_brace ys).tailText fields) hfirst
      rw [member, member, hab] at hfirst
      obtain ⟨hrest, htail⟩ := ih hfields (List.append_cancel_left hfirst)
      exact ⟨List.forall_mem_cons.mpr ⟨hab, hrest⟩, htail⟩

/-- An object with fixed keys tells the text of each field, and where it ends. -/
theorem object_inj (h : ∀ p ∈ fields, Whole p.2)
    (heq : object (fields.map fun p => (p.1, p.2 a)) ++ xs =
      object (fields.map fun p => (p.1, p.2 b)) ++ ys) :
    (∀ p ∈ fields, p.2 a = p.2 b) ∧ xs = ys := by
  have hmember (c : α) : (fields.map fun p => (p.1, p.2 c)).map (fun f => name f.1 ++ 0x3a :: f.2) =
      fields.map (member c) := by
    rw [List.map_map]
    rfl
  simp only [object, hmember, List.cons_append, List.append_assoc, List.nil_append,
    List.cons.injEq, true_and] at heq
  cases fields with
  | nil => exact ⟨by simp, by simpa [commaSep] using heq⟩
  | cons p fields =>
      obtain ⟨hp, hfields⟩ := List.forall_mem_cons.mp h
      rw [commaSep_cons, commaSep_cons, List.append_assoc, List.append_assoc] at heq
      have hab := member_inj hp ((closed_brace xs).tailText fields)
        ((closed_brace ys).tailText fields) heq
      rw [member, member, hab] at heq
      obtain ⟨hrest, htail⟩ := members_inj hfields (List.append_cancel_left heq)
      exact ⟨List.forall_mem_cons.mpr ⟨hab, hrest⟩, htail⟩

end Members

end Whole

/-! ## The smallest escape can be read back -/

/-- The characters that it escapes. -/
def escaped : List Char := (List.range 0x20).map Char.ofNat ++ ['"', '\\']

theorem escaped_begin {c : Char} (h : c ∈ escaped) : (escapeChar c).head? = some 0x5c := by
  have hall : (escaped.all fun x => decide ((escapeChar x).head? = some 0x5c)) = true := by
    decide +kernel
  exact of_decide_eq_true (List.all_eq_true.mp hall c h)

theorem escaped_apart {a b : Char} (ha : a ∈ escaped) (hb : b ∈ escaped)
    (h : escapeChar a <+: escapeChar b) : a = b := by
  have hpairs : (escaped.all fun x => escaped.all fun y =>
      decide (escapeChar x <+: escapeChar y → x = y)) = true := by
    decide +kernel
  have hrow := List.all_eq_true.mp hpairs a ha
  exact of_decide_eq_true (List.all_eq_true.mp hrow b hb) h

theorem escaped_or_plain (c : Char) :
    c ∈ escaped ∨ (escapeChar c = String.utf8EncodeChar c ∧ c ≠ '"' ∧ c ≠ '\\') := by
  by_cases hlow : c.toNat < 0x20
  · refine .inl (List.mem_append_left _ (List.mem_map.mpr ⟨c.toNat, List.mem_range.mpr hlow, ?_⟩))
    exact Char.ofNat_toNat c
  · by_cases hquote : c = '"'
    · exact .inl (by simp [escaped, hquote])
    · by_cases hslash : c = '\\'
      · exact .inl (by simp [escaped, hslash])
      · exact .inr ⟨by simp [escapeChar, hlow, hquote, hslash], hquote, hslash⟩

theorem escaped_cons {c : Char} (h : c ∈ escaped) : ∃ rest, escapeChar c = 0x5c :: rest := by
  have hhead := escaped_begin h
  cases hc : escapeChar c with
  | nil => simp [hc] at hhead
  | cons b bs =>
      rw [hc, List.head?_cons, Option.some.injEq] at hhead
      exact ⟨bs, by rw [hhead]⟩

/-- A character that is written as it is begins with no other character's byte. -/
theorem plain_begin {c d : Char} {b : UInt8} (hd : String.utf8EncodeChar d = [b]) (hne : c ≠ d)
    (xs rest : List UInt8) : String.utf8EncodeChar c ++ xs ≠ b :: rest := by
  intro h
  have heq : String.utf8EncodeChar c ++ xs = String.utf8EncodeChar d ++ rest := by
    rw [h, hd]
    rfl
  exact hne (utf8EncodeChar_code.inj heq)

theorem minimal_readable : Escape.minimal.Readable where
  code := by
    refine code_of_prefix (fun a b h => ?_) fun c hc => ?_
    · change escapeChar a <+: escapeChar b at h
      obtain ⟨ws, hws⟩ := h
      rcases escaped_or_plain a with ha | ⟨ha, -, haslash⟩ <;>
        rcases escaped_or_plain b with hb | ⟨hb, -, hbslash⟩
      · exact escaped_apart ha hb ⟨ws, hws⟩
      · obtain ⟨rest, hrest⟩ := escaped_cons ha
        rw [hrest, hb, List.cons_append] at hws
        refine absurd ?_ (plain_begin (b := 0x5c) (by decide) hbslash [] (rest ++ ws))
        rw [List.append_nil, ← hws]
      · obtain ⟨rest, hrest⟩ := escaped_cons hb
        rw [hrest, ha] at hws
        exact absurd hws (plain_begin (by decide) haslash ws rest)
      · rw [ha, hb] at hws
        exact utf8EncodeChar_code.inj (hws.trans (List.append_nil _).symm)
    · change escapeChar c = [] at hc
      rcases escaped_or_plain c with hesc | ⟨hplain, -⟩
      · obtain ⟨rest, hrest⟩ := escaped_cons hesc
        rw [hrest] at hc
        cases hc
      · exact String.utf8EncodeChar_ne_nil (hplain.symm.trans hc)
  quote c xs rest h := by
    change escapeChar c ++ xs = 0x22 :: rest at h
    rcases escaped_or_plain c with hesc | ⟨hplain, hquote, -⟩
    · obtain ⟨bs, hbs⟩ := escaped_cons hesc
      rw [hbs] at h
      cases h
    · rw [hplain] at h
      exact plain_begin (by decide) hquote xs rest h

end GdutNet.Json
