import GdutNet.Http

/-!
# ASCII in lossily decoded text

An ASCII byte ends whatever sequence stands open before it, decodes to itself, and
nothing else decodes to an ASCII character. So an ASCII separator is found in
the decoded text exactly where its bytes are, and what stands before it does not
depend on what follows.
-/

namespace GdutNet

/-! ## One character -/

theorem continuation_iff {b : UInt8} :
    continuation b = true ↔ 0x80 ≤ b.toNat ∧ b.toNat ≤ 0xbf := by
  simp [continuation, UInt8.le_iff_toNat_le]

/-- The second byte of a longer sequence, in numbers. -/
theorem secondByte_bounds {first second : UInt8} (h : secondByte first second = true) :
    (0x80 ≤ second.toNat ∧ second.toNat ≤ 0xbf) ∧
      (first.toNat = 0xe0 → 0xa0 ≤ second.toNat) ∧ (first.toNat = 0xed → second.toNat ≤ 0x9f) ∧
      (first.toNat = 0xf0 → 0x90 ≤ second.toNat) ∧ (first.toNat = 0xf4 → second.toNat ≤ 0x8f) := by
  unfold secondByte at h
  simp only [continuation, UInt8.le_iff_toNat_le, ← UInt8.toNat_inj, UInt8.reduceToNat] at h
  split at h
  · simp only [Bool.and_eq_true, decide_eq_true_eq] at h
    omega
  · split at h
    · simp only [Bool.and_eq_true, decide_eq_true_eq] at h
      omega
    · split at h
      · simp only [Bool.and_eq_true, decide_eq_true_eq] at h
        omega
      · split at h
        · simp only [Bool.and_eq_true, decide_eq_true_eq] at h
          omega
        · simp only [Bool.and_eq_true, decide_eq_true_eq] at h
          omega

theorem mem_followers {first : UInt8} {check : UInt8 → Bool} (h : check ∈ followers first)
    {b : UInt8} (hb : check b = true) : continuation b = true := by
  have hsecond (h : secondByte first b = true) := continuation_iff.mpr (secondByte_bounds h).1
  unfold followers at h
  split at h
  · simp only [List.mem_singleton] at h
    rwa [h] at hb
  · split at h
    · simp only [List.mem_cons, List.not_mem_nil, or_false] at h
      rcases h with rfl | rfl
      · exact hsecond hb
      · exact hb
    · split at h
      · simp only [List.mem_cons, List.not_mem_nil, or_false] at h
        rcases h with rfl | rfl | rfl
        · exact hsecond hb
        · exact hb
        · exact hb
      · cases h

theorem present_le (checks : List (UInt8 → Bool)) (bs : List UInt8) :
    present checks bs ≤ bs.length := by
  induction checks generalizing bs with
  | nil => simp [present]
  | cons check checks ih =>
      cases bs with
      | nil => simp [present]
      | cons b bs =>
          rw [present]
          split
          · exact Nat.succ_le_succ (ih bs)
          · exact Nat.zero_le _

/-- No follower is looked for behind an ASCII byte. -/
theorem present_append {checks : List (UInt8 → Bool)} {b : UInt8}
    (hchecks : ∀ check ∈ checks, check b = false) (xs ys : List UInt8) :
    present checks (xs ++ b :: ys) = present checks xs := by
  induction checks generalizing xs with
  | nil => simp [present]
  | cons check checks ih =>
      rw [List.forall_mem_cons] at hchecks
      cases xs with
      | nil => simp [present, hchecks.1]
      | cons x xs => simp [present, ih hchecks.2]

theorem decodeLossy_append (first : UInt8) (xs ys : List UInt8) {b : UInt8} (hb : b.toNat < 0x80) :
    decodeLossy first (xs ++ b :: ys) =
      ((decodeLossy first xs).1, (decodeLossy first xs).2 ++ b :: ys) := by
  have hchecks : ∀ check ∈ followers first, check b = false := by
    intro check hmem
    by_contra hyes
    have hcont := mem_followers hmem (by simpa using hyes)
    have hlow := (continuation_iff.mp hcont).1
    omega
  have hn := present_append hchecks xs ys
  have hle := present_le (followers first) xs
  unfold decodeLossy
  simp only [hn]
  split
  · rfl
  · split
    · rw [List.take_append_of_le_length hle, List.drop_append_of_le_length hle]
    · rw [List.drop_append_of_le_length hle]

theorem decodeLossy_suffix (first : UInt8) (rest : List UInt8) :
    (decodeLossy first rest).2 <:+ rest := by
  unfold decodeLossy
  simp only
  split
  · exact List.suffix_refl _
  · split <;> exact List.drop_suffix _ _

theorem decodeLossy_ascii {first : UInt8} (h : first.toNat < 0x80) (rest : List UInt8) :
    decodeLossy first rest = (.ofNat first.toNat, rest) := by
  unfold decodeLossy
  exact if_pos (UInt8.lt_iff_toNat_lt.mpr h)

/-- All followers are there: the first is, and so are the others. -/
theorem present_cons {check : UInt8 → Bool} {checks : List (UInt8 → Bool)} {bs : List UInt8}
    (h : present (check :: checks) bs = checks.length + 1) :
    ∃ b rest, bs = b :: rest ∧ check b = true ∧ present checks rest = checks.length := by
  cases bs with
  | nil => simp [present] at h
  | cons b rest =>
      rw [present] at h
      split at h
      · rename_i hb
        exact ⟨b, rest, rfl, hb, by omega⟩
      · omega

/-- What a complete sequence spells: a character outside ASCII. -/
theorem sequence_value {first : UInt8} {bs : List UInt8} (hne : followers first ≠ [])
    (hall : present (followers first) bs = (followers first).length) :
    0x80 ≤ (bs.take (followers first).length).foldl (fun v b => v * 64 + b.toNat % 64)
        (leadBits first) ∧
      ((bs.take (followers first).length).foldl (fun v b => v * 64 + b.toNat % 64)
        (leadBits first)).isValidChar := by
  have hlead : leadBits first = if first.toNat ≤ 0xdf then first.toNat % 32
      else if first.toNat ≤ 0xef then first.toNat % 16 else first.toNat % 8 := by
    simp [leadBits, UInt8.le_iff_toNat_le]
  rw [hlead]
  unfold followers at hne hall ⊢
  simp only [Bool.and_eq_true, decide_eq_true_eq, UInt8.le_iff_toNat_le, UInt8.reduceToNat] at *
  split at hne
  · rename_i hrange
    rw [if_pos hrange] at hall ⊢
    obtain ⟨b, rest, rfl, hb, -⟩ := present_cons hall
    have hb' := continuation_iff.mp hb
    rw [if_pos (show first.toNat ≤ 0xdf by omega)]
    simp only [List.length_singleton, List.take_succ_cons, List.take_zero, List.foldl_cons,
      List.foldl_nil, Nat.isValidChar]
    omega
  · rename_i hnot
    rw [if_neg hnot] at hall ⊢
    split at hne
    · rename_i hrange
      rw [if_pos hrange] at hall ⊢
      obtain ⟨b, rest, rfl, hb, hall⟩ := present_cons hall
      obtain ⟨c, rest, rfl, hc, -⟩ := present_cons hall
      have hb' := secondByte_bounds hb
      have hc' := continuation_iff.mp hc
      rw [if_neg (show ¬ first.toNat ≤ 0xdf by omega), if_pos (show first.toNat ≤ 0xef by omega)]
      simp only [List.length_cons, List.length_nil, List.take_succ_cons, List.take_zero,
        List.foldl_cons, List.foldl_nil, Nat.isValidChar]
      omega
    · rename_i hnot'
      rw [if_neg hnot'] at hall ⊢
      split at hne
      · rename_i hrange
        rw [if_pos hrange] at hall ⊢
        obtain ⟨b, rest, rfl, hb, hall⟩ := present_cons hall
        obtain ⟨c, rest, rfl, hc, hall⟩ := present_cons hall
        obtain ⟨d, rest, rfl, hd, -⟩ := present_cons hall
        have hb' := secondByte_bounds hb
        have hc' := continuation_iff.mp hc
        have hd' := continuation_iff.mp hd
        rw [if_neg (show ¬ first.toNat ≤ 0xdf by omega),
          if_neg (show ¬ first.toNat ≤ 0xef by omega)]
        simp only [List.length_cons, List.length_nil, List.take_succ_cons, List.take_zero,
          List.foldl_cons, List.foldl_nil, Nat.isValidChar]
        omega
      · exact absurd rfl hne

/-- A sequence that starts outside ASCII decodes to a character outside ASCII. -/
theorem decodeLossy_nonascii {first : UInt8} (h : 0x80 ≤ first.toNat) (rest : List UInt8) :
    0x80 ≤ (decodeLossy first rest).1.toNat := by
  unfold decodeLossy
  simp only
  split
  · rename_i hlow
    rw [UInt8.lt_iff_toNat_lt] at hlow
    exact absurd hlow (Nat.not_lt.mpr h)
  · split
    · rename_i hfull
      simp only [Bool.and_eq_true, decide_eq_true_eq] at hfull
      obtain ⟨hne, hall⟩ := hfull
      obtain ⟨hlow, hvalid⟩ := sequence_value hne hall
      rw [hall]
      dsimp only
      rw [toNat_ofNat hvalid]
      exact hlow
    · exact (by decide : 0x80 ≤ '\uFFFD'.toNat)

/-! ## Texts -/

theorem lossyChars_eq {k : ℕ} {bs : List UInt8} (h : bs.length ≤ k) :
    lossyChars k bs = fromUtf8Lossy bs := by
  unfold fromUtf8Lossy
  induction k using Nat.strong_induction_on generalizing bs with
  | _ k ih =>
      cases bs with
      | nil => cases k <;> rfl
      | cons first rest =>
          obtain ⟨k, rfl⟩ : ∃ m, k = m + 1 := ⟨k - 1, by rw [List.length_cons] at h; omega⟩
          have hle := (decodeLossy_suffix first rest).length_le
          rw [List.length_cons] at h ⊢
          rw [lossyChars, lossyChars]
          congr 1
          rcases Nat.lt_or_ge rest.length k with hlt | hge
          · rw [ih k (by omega) (by omega), ih rest.length (by omega) hle]
          · rw [show k = rest.length by omega]

theorem fromUtf8Lossy_nil : fromUtf8Lossy [] = [] := rfl

theorem fromUtf8Lossy_cons (first : UInt8) (rest : List UInt8) :
    fromUtf8Lossy (first :: rest) =
      (decodeLossy first rest).1 :: fromUtf8Lossy (decodeLossy first rest).2 := by
  rw [fromUtf8Lossy, List.length_cons, lossyChars,
    lossyChars_eq (decodeLossy_suffix first rest).length_le]

/-- **Decoding is cut at every ASCII byte.** -/
theorem fromUtf8Lossy_append (xs ys : List UInt8) {b : UInt8} (hb : b.toNat < 0x80) :
    fromUtf8Lossy (xs ++ b :: ys) =
      fromUtf8Lossy xs ++ Char.ofNat b.toNat :: fromUtf8Lossy ys := by
  induction hn : xs.length using Nat.strong_induction_on generalizing xs with
  | _ n ih =>
      cases xs with
      | nil => rw [List.nil_append, fromUtf8Lossy_cons, decodeLossy_ascii hb]; rfl
      | cons first rest =>
          have hle := (decodeLossy_suffix first rest).length_le
          rw [List.length_cons] at hn
          rw [List.cons_append, fromUtf8Lossy_cons, decodeLossy_append first rest ys hb,
            ih _ (by omega) (decodeLossy first rest).2 rfl, fromUtf8Lossy_cons, List.cons_append]

/-- **An ASCII character of the text is an ASCII byte**, and the two sides of it are
decoded on their own. -/
theorem fromUtf8Lossy_split {bs : List UInt8} {before after : List Char} {c : Char}
    (hc : c.toNat < 0x80) (h : fromUtf8Lossy bs = before ++ c :: after) :
    ∃ xs b ys, bs = xs ++ b :: ys ∧ b.toNat = c.toNat ∧ fromUtf8Lossy xs = before ∧
      fromUtf8Lossy ys = after := by
  induction hn : bs.length using Nat.strong_induction_on generalizing bs before with
  | _ n ih =>
      cases bs with
      | nil =>
          rw [fromUtf8Lossy_nil] at h
          simp at h
      | cons first rest =>
          rw [fromUtf8Lossy_cons] at h
          have hsuffix := decodeLossy_suffix first rest
          have hle := hsuffix.length_le
          rw [List.length_cons] at hn
          cases before with
          | nil =>
              rw [List.nil_append, List.cons.injEq] at h
              have hfirst : first.toNat < 0x80 := by
                by_contra hhigh
                have := decodeLossy_nonascii (Nat.not_lt.mp hhigh) rest
                rw [h.1] at this
                omega
              rw [decodeLossy_ascii hfirst] at h
              refine ⟨[], first, rest, rfl, ?_, rfl, h.2⟩
              rw [← h.1, toNat_ofNat (.inl (by omega))]
          | cons d before =>
              rw [List.cons_append, List.cons.injEq] at h
              obtain ⟨xs, b, ys, hbs, hb, hxs, hys⟩ := ih _ (by omega) h.2 rfl
              obtain ⟨eaten, heaten⟩ := hsuffix
              have hcut := decodeLossy_append first (eaten ++ xs) ys (hb ▸ hc)
              rw [List.append_assoc, ← hbs, heaten] at hcut
              have hrest := congrArg Prod.snd hcut
              rw [hbs] at hrest
              refine ⟨first :: (eaten ++ xs), b, ys, ?_, hb, ?_, hys⟩
              · rw [List.cons_append, List.append_assoc, ← hbs, heaten]
              · rw [fromUtf8Lossy_cons, ← List.append_cancel_right hrest, hxs, ← h.1, hcut]

/-! ## Separators -/

/-- ASCII bytes as text. -/
def asciiText (bs : List UInt8) : List Char := bs.map fun b => Char.ofNat b.toNat

def Ascii (bs : List UInt8) : Prop := ∀ b ∈ bs, b.toNat < 0x80

instance (bs : List UInt8) : Decidable (Ascii bs) :=
  List.decidableBAll (fun b : UInt8 => b.toNat < 0x80) bs

theorem fromUtf8Lossy_ascii_append {sep : List UInt8} (hsep : Ascii sep) (ys : List UInt8) :
    fromUtf8Lossy (sep ++ ys) = asciiText sep ++ fromUtf8Lossy ys := by
  induction sep with
  | nil => rfl
  | cons b sep ih =>
      obtain ⟨hb, hsep⟩ := List.forall_mem_cons.mp hsep
      rw [List.cons_append, fromUtf8Lossy_cons, decodeLossy_ascii hb, ih hsep]
      rfl

theorem fromUtf8Lossy_append_sep {sep : List UInt8} (hsep : Ascii sep) (hne : sep ≠ [])
    (xs ys : List UInt8) :
    fromUtf8Lossy (xs ++ (sep ++ ys)) = fromUtf8Lossy xs ++ (asciiText sep ++ fromUtf8Lossy ys) := by
  cases sep with
  | nil => exact absurd rfl hne
  | cons b sep =>
      obtain ⟨hb, hsep⟩ := List.forall_mem_cons.mp hsep
      rw [List.cons_append, fromUtf8Lossy_append xs _ hb, fromUtf8Lossy_ascii_append hsep]
      rfl

theorem fromUtf8Lossy_eq_nil {bs : List UInt8} (h : fromUtf8Lossy bs = []) : bs = [] := by
  cases bs with
  | nil => rfl
  | cons first rest =>
      rw [fromUtf8Lossy_cons] at h
      cases h

/-- A text that starts with an ASCII separator comes from bytes that do. -/
theorem ascii_prefix_of_text {sep : List UInt8} (hsep : Ascii sep) {bs : List UInt8}
    {after : List Char} (h : fromUtf8Lossy bs = asciiText sep ++ after) :
    ∃ ys, bs = sep ++ ys ∧ fromUtf8Lossy ys = after := by
  induction sep generalizing bs with
  | nil => exact ⟨bs, rfl, h⟩
  | cons b sep ih =>
      obtain ⟨hb, hrest⟩ := List.forall_mem_cons.mp hsep
      have hchar : (Char.ofNat b.toNat).toNat = b.toNat := toNat_ofNat (.inl (by omega))
      obtain ⟨xs, b', ys, rfl, hb', hxs, hys⟩ :=
        fromUtf8Lossy_split (hchar ▸ hb) (show _ = [] ++ _ :: (asciiText sep ++ after) from h)
      obtain rfl := fromUtf8Lossy_eq_nil hxs
      obtain rfl : b' = b := UInt8.toNat_inj.mp (hb'.trans hchar)
      obtain ⟨zs, rfl, hzs⟩ := ih hrest hys
      exact ⟨zs, rfl, hzs⟩

theorem ascii_infix_of_text {sep : List UInt8} (hsep : Ascii sep) (hne : sep ≠ [])
    {bs : List UInt8} {before after : List Char}
    (h : fromUtf8Lossy bs = before ++ (asciiText sep ++ after)) :
    ∃ xs ys, bs = xs ++ (sep ++ ys) ∧ fromUtf8Lossy xs = before ∧ fromUtf8Lossy ys = after := by
  cases sep with
  | nil => exact absurd rfl hne
  | cons b sep =>
      obtain ⟨hb, hrest⟩ := List.forall_mem_cons.mp hsep
      have hchar : (Char.ofNat b.toNat).toNat = b.toNat := toNat_ofNat (.inl (by omega))
      obtain ⟨xs, b', ys, rfl, hb', hxs, hys⟩ := fromUtf8Lossy_split (hchar ▸ hb) h
      obtain rfl : b' = b := UInt8.toNat_inj.mp (hb'.trans hchar)
      obtain ⟨zs, rfl, hzs⟩ := ascii_prefix_of_text hrest hys
      exact ⟨xs, zs, rfl, hxs, hzs⟩

end GdutNet
