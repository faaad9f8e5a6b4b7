import GdutNet.Setup.Payload
import Mathlib.Data.List.Forall2

/-!
# One damaged byte

A packed file in which one byte behind the setup image has changed. The
checksums cover the data of the entries and nothing else: neither their names
nor where the table starts. `damaged_kept_iff` says which damage goes unseen.
-/

namespace GdutNet.Payload

open Bytes

/-- Where the table of a packed file starts. -/
def tableOffset (setup : List UInt8) (es : List (String × List UInt8)) : ℕ :=
  setup.length + (es.flatMap Prod.snd).length

/-- The bytes the records of these entries take. -/
def tableSize (es : List (String × List UInt8)) : ℕ :=
  (es.map fun x => 50 + (asBytes x.1).length).sum

section Damage

variable (sha : List UInt8 → Digest) (debug : String → String) (setup : List UInt8)
  (es : List (String × List UInt8)) (exe : List UInt8)

/-- The byte `k` stands in the name of an entry, and what stands there now is a
valid name as well. -/
def Renames (k : ℕ) : Prop :=
  es.length < 2 ^ 32 ∧ ∃ pre x post name, es = pre ++ x :: post ∧
    tableOffset setup es + tableSize pre + 2 ≤ k ∧
    k < tableOffset setup es + tableSize pre + 2 + (asBytes x.1).length ∧
    slice exe (tableOffset setup es + tableSize pre + 2)
      (tableOffset setup es + tableSize pre + 2 + (asBytes x.1).length) = asBytes name ∧
    validateName debug name = .ok ()

/-- The table starts later than it was written, and the count is met: nothing
is left of it, or it starts in a name (which has to be long: two of its bytes are
read as a length) and goes on as before behind that name. -/
def Shifts (offset : ℕ) : Prop :=
  (es ≠ [] ∧ es.length % 2 ^ 32 = 0 ∧ offset + footerLen = exe.length) ∨
    ∃ pre x post name, es = pre ++ x :: post ∧ post.length + 1 = es.length % 2 ^ 32 ∧
      tableOffset setup es < offset ∧
      offset + (asBytes name).length =
        tableOffset setup es + tableSize pre + (asBytes x.1).length ∧
      leValue (slice exe offset (offset + 2)) = (asBytes name).length ∧
      slice exe (offset + 2) (offset + 2 + (asBytes name).length) = asBytes name ∧
      validateName debug name = .ok ()

/-- Bytes that do not stand where a checksum stood are read as one, and are
the checksum of what they are held against. -/
def Misreads : Prop :=
  ∃ front rs es', exe = image front rs rs.length ∧ rs.length < 2 ^ 32 ∧
    front.length < 2 ^ 64 ∧ List.Forall₂ (Opens sha debug exe front.length) rs es' ∧
    ∃ pre r post, rs = pre ++ r :: post ∧ ∀ pre' x post', es = pre' ++ x :: post' →
      front.length + ((pre ++ [r]).flatMap Raw.bytes).length ≠
        tableOffset setup es + tableSize (pre' ++ [x])

end Damage

variable {sha : List UInt8 → Digest} {debug : String → String} {setup : List UInt8}
  {es : List (String × List UInt8)}

/-! ## Sizes -/

theorem tableSize_append (xs ys : List (String × List UInt8)) :
    tableSize (xs ++ ys) = tableSize xs + tableSize ys := by
  simp [tableSize]

@[simp] theorem tableSize_singleton (x : String × List UInt8) :
    tableSize [x] = 50 + (asBytes x.1).length := by
  simp [tableSize]

/-- The data of the last record ends where the table starts. -/
theorem Laid.last_end {o : ℕ} {rs : List Raw} {r : Raw} (h : Laid sha o (rs ++ [r]) es) :
    r.offset + r.len = o + (es.flatMap Prod.snd).length := by
  induction rs generalizing o es with
  | nil =>
      cases h with
      | cons _ hoffset hlen _ hrest =>
          cases hrest
          simp [hoffset, hlen]
  | cons s rs ih =>
      cases h with
      | cons _ _ _ _ hrest =>
          rw [ih hrest, List.flatMap_cons, List.length_append, Nat.add_assoc]

/-- What a record says of an entry wherever the data lies. -/
def Describes (sha : List UInt8 → Digest) (r : Raw) (x : String × List UInt8) : Prop :=
  r.name = asBytes x.1 ∧ r.hash = sha x.2

theorem Laid.describes {o : ℕ} {rs : List Raw} (h : Laid sha o rs es) :
    List.Forall₂ (Describes sha) rs es := by
  induction h with
  | nil => exact .nil
  | cons hname _ _ hhash _ ih => exact .cons ⟨hname, hhash⟩ ih

theorem tableSize_of_describes {rs : List Raw} (h : List.Forall₂ (Describes sha) rs es) :
    (rs.flatMap Raw.bytes).length = tableSize es := by
  induction h with
  | nil => rfl
  | cons hfirst _ ih =>
      rw [List.flatMap_cons, List.length_append, ih, Raw.length_bytes, hfirst.1]
      simp [tableSize]

theorem asBytes_inj {a b : String} (h : asBytes a = asBytes b) : a = b := by
  have ha : fromUtf8 (asBytes a) = some a := fromUtf8_iff.mpr rfl
  have hb : fromUtf8 (asBytes b) = some b := fromUtf8_iff.mpr rfl
  rw [h, hb] at ha
  exact (Option.some.inj ha).symm

/-- Records with the names and the checksums of the entries open as these
entries or not at all. -/
theorem entries_eq {exe : List UInt8} {tocOffset : ℕ} {rs : List Raw} {es' : List Entry}
    (h : List.Forall₂ (Describes sha) rs es)
    (hopens : List.Forall₂ (Opens sha debug exe tocOffset) rs es')
    (hinj : ∀ x ∈ es, ∀ a b, sha (slice exe a b) = sha x.2 → slice exe a b = x.2) :
    es' = es.map fun x => ⟨x.1, x.2⟩ := by
  induction h generalizing es' with
  | nil =>
      cases hopens
      rfl
  | @cons r x rs es hfirst _ ih =>
      cases hopens with
      | @cons _ e _ es' hopen hrest =>
          have hname : e.name = x.1 :=
            asBytes_inj ((fromUtf8_iff.mp hopen.name).symm.trans hfirst.1)
          have hdata : e.data = x.2 := by
            rw [hopen.data]
            refine hinj x (.head _) _ _ ?_
            rw [← hopen.data, hopen.hash, hfirst.2]
          rw [ih hrest fun y hy => hinj y (.tail _ hy), List.map_cons, ← hname, ← hdata]

/-! ## Footers and tables of two files -/

theorem footer_inj {c c' o o' : ℕ} (h : footer c o = footer c' o') :
    c % 2 ^ 32 = c' % 2 ^ 32 ∧ o % 2 ^ 64 = o' % 2 ^ 64 := by
  obtain ⟨hcount, hoffset⟩ :=
    List.append_inj (List.append_cancel_left (List.append_cancel_left h)) (by simp)
  have hc := congrArg leValue hcount
  have ho := congrArg leValue hoffset
  rw [leValue_leBytes_mod, leValue_leBytes_mod] at hc ho
  exact ⟨hc, ho⟩

/-- The footer says where the table starts. -/
theorem image_split {front front' tab : List UInt8} {rs : List Raw} {c c' : ℕ}
    (h : image front' rs c' = front ++ (tab ++ footer c front.length))
    (hfront : front.length < 2 ^ 64) (hfront' : front'.length < 2 ^ 64) :
    front' = front ∧ rs.flatMap Raw.bytes = tab ∧ c' % 2 ^ 32 = c % 2 ^ 32 := by
  rw [image, ← List.append_assoc, ← List.append_assoc] at h
  obtain ⟨hrest, hfooter⟩ := List.append_inj' h (by simp)
  obtain ⟨hcount, hoffset⟩ := footer_inj hfooter
  rw [Nat.mod_eq_of_lt hfront, Nat.mod_eq_of_lt hfront'] at hoffset
  obtain ⟨rfl, htab⟩ := List.append_inj hrest hoffset
  exact ⟨rfl, htab, hcount⟩

/-- Where a file says its table starts. -/
theorem leValue_last {exe front : List UInt8} {c o : ℕ} (hexe : exe = front ++ footer c o)
    (ho : o < 2 ^ 64) : leValue (slice exe (exe.length - 8) exe.length) = o := by
  have hlength : exe.length = front.length + 16 + 8 := by
    rw [hexe, List.length_append, length_footer]
  have hdrop : exe.drop (front.length + 16) = leBytes 8 o ++ [] := by
    have hsplit : exe = (front ++ magic ++ leBytes 4 version ++ leBytes 4 c) ++ leBytes 8 o := by
      simp only [hexe, footer, List.append_assoc]
    rw [hsplit, List.append_nil]
    exact List.drop_left' (by simp [magic])
  have hslice := (slice_of_drop hdrop).1
  rw [length_leBytes] at hslice
  rw [hlength, Nat.add_sub_cancel, hslice, leValue_leBytes ho]

/-- A footer with one byte changed that is a footer still: the change is in the
count or in the offset. -/
theorem footer_set {c c' o o' q : ℕ} {b : UInt8} (hb : (footer c o).set q b ≠ footer c o)
    (h : footer c' o' = (footer c o).set q b) :
    (o' % 2 ^ 64 = o % 2 ^ 64 ∧ c' % 2 ^ 32 ≠ c % 2 ^ 32) ∨
      (o' % 2 ^ 64 ≠ o % 2 ^ 64 ∧ c' % 2 ^ 32 = c % 2 ^ 32) := by
  have hboth : ¬ (c' % 2 ^ 32 = c % 2 ^ 32 ∧ o' % 2 ^ 64 = o % 2 ^ 64) := by
    rintro ⟨hc, ho⟩
    have hcount : leBytes 4 c' = leBytes 4 c := leBytes_congr hc
    have hoffset : leBytes 8 o' = leBytes 8 o := leBytes_congr ho
    refine hb (h.symm.trans ?_)
    rw [footer, footer, hcount, hoffset]
  obtain ⟨-, -, hcount, hoffset⟩ := slices_of_footer c o
  obtain ⟨-, -, hcount', hoffset'⟩ := slices_of_footer c' o'
  rw [h] at hcount' hoffset'
  rcases Nat.lt_or_ge q 16 with hlt | hge
  · rw [slice_set_of_not_mem (.inl hlt), hoffset] at hoffset'
    have ho := congrArg leValue hoffset'
    rw [leValue_leBytes_mod, leValue_leBytes_mod] at ho
    exact .inl ⟨ho.symm, fun hc => hboth ⟨hc, ho.symm⟩⟩
  · rw [slice_set_of_not_mem (.inr hge), hcount] at hcount'
    have hc := congrArg leValue hcount'
    rw [leValue_leBytes_mod, leValue_leBytes_mod] at hc
    exact .inr ⟨fun ho => hboth ⟨hc.symm, ho⟩, hc.symm⟩

/-! ## A record with one byte changed -/

theorem Raw.set_name (r : Raw) {j : ℕ} (b : UInt8) (hj : j < r.name.length) :
    ∃ r' : Raw, r.bytes.set (2 + j) b = r'.bytes ∧ r'.name = r.name.set j b ∧
      r'.offset = r.offset ∧ r'.len = r.len ∧ r'.hash = r.hash := by
  refine ⟨{ r with name := r.name.set j b, name_lt := by simpa using r.name_lt }, ?_,
    rfl, rfl, rfl, rfl⟩
  simp [Raw.bytes, Raw.fields, hj]

/-- A changed number leaves the checksum as it is, a changed checksum the numbers. -/
theorem Raw.set_fields (r : Raw) {j : ℕ} (b : UInt8) (hj : j < 48) :
    ∃ r' : Raw, r.bytes.set (2 + r.name.length + j) b = r'.bytes ∧ r'.name = r.name ∧
      (r'.hash = r.hash ∨ (r'.hash ≠ r.hash ∧ r'.offset = r.offset ∧ r'.len = r.len)) := by
  have hset : r.bytes.set (2 + r.name.length + j) b =
      leBytes 2 r.name.length ++ (r.name ++ r.fields.set j b) := by
    have hpos : 2 + r.name.length + j - 2 - r.name.length = j := by omega
    rw [Raw.bytes, List.set_append_right _ _ (by simp; omega),
      List.set_append_right _ _ (by simp; omega), length_leBytes, hpos]
  have hvalue (l : List UInt8) (hl : l.length = 8) : leBytes 8 (leValue l) = l ∧
      leValue l < 2 ^ 64 := by
    refine ⟨hl ▸ leBytes_leValue l, ?_⟩
    have := leValue_lt l
    rw [hl] at this
    simpa using this
  rw [hset]
  rcases Nat.lt_or_ge j 8 with h8 | h8
  · obtain ⟨hbytes, hlt⟩ := hvalue ((leBytes 8 r.offset).set j b) (by simp)
    refine ⟨{ r with offset := _, offset_lt := hlt }, ?_, rfl, .inl rfl⟩
    rw [Raw.bytes, Raw.fields, Raw.fields, hbytes, List.set_append_left _ _ (by simpa using h8)]
  rw [Raw.fields, List.set_append_right _ _ (by simpa using h8), length_leBytes]
  rcases Nat.lt_or_ge (j - 8) 8 with h16 | h16
  · obtain ⟨hbytes, hlt⟩ := hvalue ((leBytes 8 r.len).set (j - 8) b) (by simp)
    refine ⟨{ r with len := _, len_lt := hlt }, ?_, rfl, .inl rfl⟩
    rw [Raw.bytes, Raw.fields, hbytes, List.set_append_left _ _ (by simpa using h16)]
  rw [List.set_append_right _ _ (by simpa using h16), length_leBytes]
  have hlen : (r.hash.val.set (j - 8 - 8) b).length = 32 := by simp [r.hash.2]
  refine ⟨{ r with hash := ⟨_, hlen⟩ }, rfl, rfl, ?_⟩
  by_cases hsame : (⟨_, hlen⟩ : Digest) = r.hash
  · exact .inl hsame
  · exact .inr ⟨hsame, rfl, rfl⟩

/-- Where the name of a record stands, and what comes after it. -/
theorem table_name (front : List UInt8) (pre : List Raw) (r : Raw) (post : List Raw)
    (rest : List UInt8) :
    slice (front ++ ((pre ++ r :: post).flatMap Raw.bytes ++ rest))
        (front.length + (pre.flatMap Raw.bytes).length + 2)
        (front.length + (pre.flatMap Raw.bytes).length + 2 + r.name.length) = r.name ∧
      (front ++ ((pre ++ r :: post).flatMap Raw.bytes ++ rest)).drop
        (front.length + (pre.flatMap Raw.bytes).length + 2 + r.name.length) =
          r.fields ++ (post.flatMap Raw.bytes ++ rest) := by
  have hdrop : (front ++ ((pre ++ r :: post).flatMap Raw.bytes ++ rest)).drop 0 =
      front ++ (pre.flatMap Raw.bytes ++ (leBytes 2 r.name.length ++ (r.name ++
        (r.fields ++ (post.flatMap Raw.bytes ++ rest))))) := by
    simp [Raw.bytes]
  obtain ⟨-, hdrop⟩ := slice_of_drop hdrop
  obtain ⟨-, hdrop⟩ := slice_of_drop hdrop
  obtain ⟨-, hdrop⟩ := slice_of_drop hdrop
  have hname := slice_of_drop hdrop
  rwa [Nat.zero_add, length_leBytes] at hname

theorem fifty_mul_length_le (rs : List Raw) : 50 * rs.length ≤ (rs.flatMap Raw.bytes).length := by
  induction rs with
  | nil => simp
  | cons r rs ih =>
      rw [List.length_cons, List.flatMap_cons, List.length_append, Raw.length_bytes]
      omega

/-- What is read in the place of a record with a changed name length does not
end where a record ended: the rest of the table would be read as before, and
one entry would have taken the place of none or of `2 ^ 32`. -/
theorem length_damage {r : Raw} {post cs : List Raw} {a q : ℕ} {b : UInt8} (hq : q < 2)
    (hb : (leBytes 2 r.name.length).set q b ≠ leBytes 2 r.name.length)
    (hflat : cs.flatMap Raw.bytes = r.bytes.set q b ++ post.flatMap Raw.bytes)
    (hcount : (a + cs.length) % 2 ^ 32 = (a + (1 + post.length)) % 2 ^ 32) :
    ∃ c cs', cs = c :: cs' ∧ ∀ mid rest, post = mid ++ rest →
      c.bytes.length ≠ r.bytes.length + (mid.flatMap Raw.bytes).length := by
  cases cs with
  | nil =>
      have := congrArg List.length hflat
      simp at this
      omega
  | cons c cs =>
      refine ⟨c, cs, rfl, ?_⟩
      rintro mid rest rfl hend
      rw [List.flatMap_cons, List.flatMap_append, ← List.append_assoc] at hflat
      obtain ⟨hfirst, hrest⟩ := List.append_inj hflat (by simpa using hend)
      obtain rfl := Raw.bytes_code.flatMap_inj hrest
      have hmid := fifty_mul_length_le mid
      have hname := c.name_lt
      rw [Raw.length_bytes, Raw.length_bytes] at hend
      simp only [List.length_cons, List.length_append] at hcount
      have hzero : mid.length = 0 := by omega
      obtain rfl := List.length_eq_zero_iff.mp hzero
      have hsame : c.name.length = r.name.length := by
        rw [List.flatMap_nil, List.length_nil] at hend
        omega
      rw [List.flatMap_nil, List.append_nil, Raw.bytes, Raw.bytes,
        List.set_append_left _ _ (by simpa using hq), hsame] at hfirst
      exact hb (List.append_inj hfirst (by simp)).1.symm

theorem forall₂_middle {α β : Type*} {R : α → β → Prop} {l : List α} {pre post : List β} {x : β}
    (h : List.Forall₂ R l (pre ++ x :: post)) :
    ∃ pre' a post', l = pre' ++ a :: post' ∧ List.Forall₂ R pre' pre ∧ R a x ∧
      List.Forall₂ R post' post := by
  induction pre generalizing l with
  | nil =>
      cases h with
      | cons hfirst hrest => exact ⟨[], _, _, rfl, .nil, hfirst, hrest⟩
  | cons y pre ih =>
      cases h with
      | cons hfirst hrest =>
          obtain ⟨pre', a, post', rfl, hpre, ha, hpost⟩ := ih hrest
          exact ⟨_ :: pre', a, post', rfl, .cons hfirst hpre, ha, hpost⟩

/-! ## Damage in the data -/

section Accepted

variable {rs rs' : List Raw} {front : List UInt8} {es' : List Entry}

theorem data_damage {exe : List UInt8} (hdescribes : List.Forall₂ (Describes sha) rs es)
    (hfront : front.length < 2 ^ 64) (hexe : exe = image front rs es.length)
    (hinj : ∀ x ∈ es, ∀ a b, sha (slice exe a b) = sha x.2 → slice exe a b = x.2)
    (h : unpack sha debug exe = .ok (some es')) :
    es' = es.map fun x => ⟨x.1, x.2⟩ := by
  obtain ⟨front', rs', himage, -, hfront', hopens⟩ := unpack_some.mp h
  obtain ⟨rfl, hflat, -⟩ := image_split (himage.symm.trans hexe) hfront hfront'
  obtain rfl := Raw.bytes_code.flatMap_inj hflat
  exact entries_eq hdescribes hopens hinj

theorem misreads_of_end {exe : List UInt8} {cs : List Raw} {r c : Raw} {pre post : List Raw}
    {front' : List UInt8} (hdescribes : List.Forall₂ (Describes sha) (pre ++ r :: post) es)
    (hfront' : front'.length = tableOffset setup es)
    (himage : exe = image front' (pre ++ c :: cs) (pre ++ c :: cs).length)
    (hcount : (pre ++ c :: cs).length < 2 ^ 32) (hlt : front'.length < 2 ^ 64)
    (hopens : List.Forall₂ (Opens sha debug exe front'.length) (pre ++ c :: cs) es')
    (hends : ∀ mid rest, post = mid ++ rest →
      c.bytes.length ≠ r.bytes.length + (mid.flatMap Raw.bytes).length) :
    Misreads sha debug setup es exe := by
  refine ⟨front', _, es', himage, hcount, hlt, hopens, pre, c, cs, rfl, ?_⟩
  rintro pre' x post' rfl hend
  obtain ⟨rpre, s, rpost, hrs, hpre, hs, -⟩ := forall₂_middle hdescribes
  have hsize : ((rpre ++ [s]).flatMap Raw.bytes).length = tableSize (pre' ++ [x]) :=
    tableSize_of_describes (List.rel_append hpre (.cons hs .nil))
  rw [← hsize, hfront', Nat.add_left_cancel_iff, List.flatMap_append, List.length_append] at hend
  have hsplit : pre ++ r :: post = (rpre ++ [s]) ++ rpost := by
    rw [hrs, List.append_assoc, List.singleton_append]
  obtain ⟨mid, hmid, hpost⟩ := Raw.bytes_code.prefix_of_length_le hsplit (by omega)
  rw [hmid, List.flatMap_append, List.length_append] at hend
  cases mid with
  | nil => simp at hend
  | cons m mid =>
      obtain ⟨rfl, hrest⟩ := List.cons.inj hpost
      refine hends mid rpost hrest ?_
      simpa using Nat.add_left_cancel hend

theorem renames_of_name {exe front' : List UInt8} {pre post : List Raw} {r r' : Raw} {c j : ℕ}
    (hdescribes : List.Forall₂ (Describes sha) (pre ++ r :: post) es)
    (hfront' : front'.length = tableOffset setup es) (hcount : es.length < 2 ^ 32)
    (himage : exe = image front' (pre ++ r' :: post) c) (hj : j < r.name.length)
    (hname : r'.name.length = r.name.length)
    (hopens : List.Forall₂ (Opens sha debug exe front'.length) (pre ++ r' :: post) es') :
    Renames debug setup es exe
      (tableOffset setup es + ((pre.flatMap Raw.bytes).length + (2 + j))) := by
  obtain ⟨pre', x, post', hes, hpre, hx, -⟩ := forall₂_middle hdescribes.flip
  obtain ⟨-, e, -, -, -, he, -⟩ := forall₂_middle hopens.flip
  have hsize : (pre.flatMap Raw.bytes).length = tableSize pre' :=
    tableSize_of_describes hpre.flip
  have hlen : r.name.length = (asBytes x.1).length := congrArg List.length hx.1
  have hslice := (table_name front' pre r' post (footer c front'.length)).1
  rw [← image, ← himage, hfront', hsize, hname, hlen, fromUtf8_iff.mp he.name] at hslice
  exact ⟨hcount, pre', x, post', e.name, hes, by omega, by omega, hslice, he.valid⟩

theorem fields_damage {exe : List UInt8} {tocOffset : ℕ} {pre post : List Raw} {r r' : Raw}
    (hdescribes : List.Forall₂ (Describes sha) (pre ++ r :: post) es)
    {es₀ : List Entry}
    (hopens₀ : List.Forall₂ (Opens sha debug exe tocOffset) (pre ++ r :: post) es₀)
    (hname : r'.name = r.name)
    (hfields : r'.hash = r.hash ∨ (r'.hash ≠ r.hash ∧ r'.offset = r.offset ∧ r'.len = r.len))
    (hinj : ∀ x ∈ es, ∀ a b, sha (slice exe a b) = sha x.2 → slice exe a b = x.2)
    (hopens : List.Forall₂ (Opens sha debug exe tocOffset) (pre ++ r' :: post) es') :
    es' = es.map fun x => ⟨x.1, x.2⟩ := by
  rcases hfields with hhash | ⟨hhash, hoffset, hlen⟩
  · obtain ⟨pre', x, post', rfl, hpre, hx, hpost⟩ := forall₂_middle hdescribes.flip
    have hsame : Describes sha r' x := ⟨hname.trans hx.1, hhash.trans hx.2⟩
    exact entries_eq (List.rel_append hpre.flip (.cons hsame hpost.flip)) hopens hinj
  · obtain ⟨-, e₀, -, -, -, he₀, -⟩ := forall₂_middle hopens₀.flip
    obtain ⟨-, e, -, -, -, he, -⟩ := forall₂_middle hopens.flip
    refine absurd ?_ hhash
    rw [← he.hash, ← he₀.hash, he.data, he₀.data, hoffset, hlen]

/-- The file with its table changed. -/
theorem table_damage {q : ℕ} {b : UInt8} {exe : List UInt8} (hlaid : Laid sha setup.length rs es)
    (hvalid : ∀ x ∈ es, validateName debug x.1 = .ok ())
    (hfront : tableOffset setup es < 2 ^ 64) (hq : q < (rs.flatMap Raw.bytes).length)
    (hb : (rs.flatMap Raw.bytes).set q b ≠ rs.flatMap Raw.bytes)
    (hexe : exe = (setup ++ es.flatMap Prod.snd) ++ ((rs.flatMap Raw.bytes).set q b ++
      footer es.length (setup ++ es.flatMap Prod.snd).length))
    (hinj : ∀ x ∈ es, ∀ a b, sha (slice exe a b) = sha x.2 → slice exe a b = x.2)
    (h : unpack sha debug exe = .ok (some es')) :
    es' = (es.map fun x => ⟨x.1, x.2⟩) ∨ Renames debug setup es exe (tableOffset setup es + q) ∨
      Misreads sha debug setup es exe := by
  have hoffset : (setup ++ es.flatMap Prod.snd).length = tableOffset setup es :=
    List.length_append
  obtain ⟨front', rs', himage, hlt, hfront', hopens⟩ := unpack_some.mp h
  obtain ⟨rfl, hflat, hcount⟩ :=
    image_split (himage.symm.trans hexe) (hoffset.symm ▸ hfront) hfront'
  rw [hoffset] at hfront' hopens
  obtain ⟨pre, r, post, q', rfl, rfl, hq', hset⟩ := set_flatMap (x := b) hq
  have hdescribes := hlaid.describes
  have hlength := hlaid.length
  rw [hset] at hflat
  have hne : r.bytes.set q' b ≠ r.bytes := by
    intro heq
    rw [hset, heq] at hb
    simp at hb
  rcases Nat.lt_or_ge q' 2 with h2 | h2
  · -- the length of the name
    obtain ⟨cs, rfl, hcs⟩ := Raw.bytes_code.split hflat
    rw [Raw.bytes, List.set_append_left _ _ (by simpa using h2)] at hne
    rw [← hlength, List.length_append, List.length_append, List.length_cons,
      Nat.add_comm post.length] at hcount
    obtain ⟨c, cs, rfl, hends⟩ :=
      length_damage h2 (fun heq => hne (congrArg (· ++ _) heq)) hcs hcount
    rw [← hoffset] at hfront' hopens
    exact .inr (.inr (misreads_of_end hdescribes hoffset himage hlt hfront' hopens hends))
  rcases Nat.lt_or_ge q' (2 + r.name.length) with hname | hname
  · -- the name
    obtain ⟨j, rfl⟩ := Nat.exists_eq_add_of_le h2
    obtain ⟨r', hbytes, hname', hoffset', hlen', hhash'⟩ := r.set_name b (j := j) (by omega)
    obtain rfl : rs' = pre ++ r' :: post := by
      refine Raw.bytes_code.flatMap_inj ?_
      rw [hflat, hbytes, List.flatMap_append, List.flatMap_cons]
    have hcount32 : es.length < 2 ^ 32 := by
      rw [← hlength]
      simpa using hlt
    rw [← hoffset] at hopens
    exact .inr (.inl (renames_of_name hdescribes hoffset hcount32 himage (by omega)
      (by rw [hname', List.length_set]) hopens))
  · -- the numbers and the checksum
    obtain ⟨j, rfl⟩ := Nat.exists_eq_add_of_le hname
    rw [Raw.length_bytes] at hq'
    obtain ⟨r', hbytes, hname', hfields⟩ := r.set_fields b (j := j) (by omega)
    obtain rfl : rs' = pre ++ r' :: post := by
      refine Raw.bytes_code.flatMap_inj ?_
      rw [hflat, hbytes, List.flatMap_append, List.flatMap_cons]
    have hdata := congrArg (List.drop setup.length) hexe
    rw [List.append_assoc, List.drop_left] at hdata
    exact .inl (fields_damage hdescribes (hlaid.opens hvalid hdata le_rfl) hname' hfields
      hinj hopens)

/-- A table that starts too early ends with the record of data that lies behind
its start. -/
theorem not_early {exe front' d : List UInt8} (hlaid : Laid sha setup.length rs es)
    (hd : setup ++ es.flatMap Prod.snd = front' ++ d) (hne : d ≠ [])
    (hflat : rs'.flatMap Raw.bytes = d ++ rs.flatMap Raw.bytes)
    (hcount : rs'.length % 2 ^ 32 = rs.length % 2 ^ 32) (hlt : rs'.length < 2 ^ 32)
    (hopens : List.Forall₂ (Opens sha debug exe front'.length) rs' es') : False := by
  have hdpos := List.length_pos_iff.mpr hne
  rcases List.eq_nil_or_concat rs' with rfl | ⟨init', r', rfl⟩
  · have := congrArg List.length hflat
    rw [List.length_append, List.flatMap_nil, List.length_nil] at this
    omega
  rcases List.eq_nil_or_concat rs with rfl | ⟨init, r, rfl⟩
  · rw [List.length_concat, List.length_nil] at hcount
    rw [List.length_concat] at hlt
    omega
  simp only [List.concat_eq_append] at *
  obtain ⟨-, e, -, -, -, he, -⟩ := forall₂_middle hopens.flip
  have hfields : r'.fields = r.fields := by
    simp only [List.flatMap_append, List.flatMap_singleton, Raw.bytes] at hflat
    simp only [← List.append_assoc] at hflat
    exact (List.append_inj' hflat (by simp)).2
  obtain ⟨hoffset, hlen, -⟩ := Raw.fields_inj hfields
  have hend := hlaid.last_end
  have hrange := he.range
  have hlength := congrArg List.length hd
  rw [List.length_append, List.length_append] at hlength
  omega

theorem shifts_or_misreads {exe front' d : List UInt8} {offset : ℕ}
    (hdescribes : List.Forall₂ (Describes sha) rs es)
    (hd : front' = (setup ++ es.flatMap Prod.snd) ++ d) (hne : d ≠ [])
    (hflat : rs.flatMap Raw.bytes = d ++ rs'.flatMap Raw.bytes)
    (hcount : rs'.length % 2 ^ 32 = es.length % 2 ^ 32) (hlt : rs'.length < 2 ^ 32)
    (hfront' : front'.length < 2 ^ 64) (himage : exe = image front' rs' rs'.length)
    (hoffset : offset = front'.length)
    (hopens : List.Forall₂ (Opens sha debug exe front'.length) rs' es') :
    Shifts debug setup es exe offset ∨ Misreads sha debug setup es exe := by
  subst hoffset
  rw [Nat.mod_eq_of_lt hlt] at hcount
  have hlater : tableOffset setup es < front'.length := by
    have hdpos := List.length_pos_iff.mpr hne
    have hlength := congrArg List.length hd
    rw [List.length_append, List.length_append] at hlength
    unfold tableOffset
    omega
  cases rs' with
  | nil =>
      refine .inl (.inl ⟨?_, hcount.symm, ?_⟩)
      · rintro rfl
        cases hdescribes
        simp at hflat
        exact hne hflat
      · rw [himage]
        simp [image, footerLen]
  | cons c cs =>
      by_cases hends : ∀ pre' x post', es = pre' ++ x :: post' →
          front'.length + (([] ++ [c]).flatMap Raw.bytes).length ≠
            tableOffset setup es + tableSize (pre' ++ [x])
      · exact .inr ⟨front', _, es', himage, hlt, hfront', hopens, [], c, cs, rfl, hends⟩
      push Not at hends
      obtain ⟨pre, x, post, rfl, hend⟩ := hends
      obtain ⟨rpre, r, rpost, rfl, hpre, hx, hpost⟩ := forall₂_middle hdescribes
      obtain ⟨e, -, he, -, -⟩ := List.forall₂_cons_left_iff.mp hopens
      have hsize : ((rpre ++ [r]).flatMap Raw.bytes).length = tableSize (pre ++ [x]) :=
        tableSize_of_describes (List.rel_append hpre (.cons hx .nil))
      have hrest : cs = rpost := by
        have hlength := congrArg List.length hd
        rw [List.length_append, List.length_append] at hlength
        have hsplit : (rpre ++ [r]).flatMap Raw.bytes ++ rpost.flatMap Raw.bytes =
            (d ++ c.bytes) ++ cs.flatMap Raw.bytes := by
          rw [← List.flatMap_append, List.append_assoc, List.singleton_append, hflat,
            List.flatMap_cons, List.append_assoc]
        refine (Raw.bytes_code.flatMap_inj (List.append_inj hsplit ?_).2).symm
        rw [List.nil_append, List.flatMap_singleton] at hend
        rw [hsize, List.length_append]
        unfold tableOffset at hend
        omega
      subst hrest
      have hname := fromUtf8_iff.mp he.name
      have hdrop : exe.drop front'.length = leBytes 2 c.name.length ++ (c.name ++
          (c.fields ++ (cs.flatMap Raw.bytes ++ footer (c :: cs).length front'.length))) := by
        rw [himage, image, List.drop_left, List.flatMap_cons, Raw.bytes]
        simp only [List.append_assoc]
      obtain ⟨hlengthBytes, hdrop⟩ := slice_of_drop hdrop
      obtain ⟨hnameBytes, -⟩ := slice_of_drop hdrop
      rw [length_leBytes] at hlengthBytes hnameBytes
      refine .inl (.inr ⟨pre, x, post, e.name, rfl, ?_, hlater, ?_, ?_, ?_, he.valid⟩)
      · rw [← hcount, List.length_cons, hpost.length_eq]
      · rw [List.nil_append, List.flatMap_singleton, Raw.length_bytes, tableSize_append,
          tableSize_singleton, hname] at hend
        omega
      · rw [hlengthBytes, leValue_leBytes c.name_lt, hname]
      · rw [← hname, hnameBytes]

/-- The file with its footer changed. -/
theorem footer_damage {q : ℕ} {b : UInt8} {exe : List UInt8} (hlaid : Laid sha setup.length rs es)
    (hfront : tableOffset setup es < 2 ^ 64)
    (hb : (footer es.length (tableOffset setup es)).set q b ≠
      footer es.length (tableOffset setup es))
    (hexe : exe = (setup ++ es.flatMap Prod.snd) ++ (rs.flatMap Raw.bytes ++
      (footer es.length (tableOffset setup es)).set q b))
    (h : unpack sha debug exe = .ok (some es')) :
    Shifts debug setup es exe (leValue (slice exe (exe.length - 8) exe.length)) ∨
      Misreads sha debug setup es exe := by
  obtain ⟨front', rs', himage, hlt, hfront', hopens⟩ := unpack_some.mp h
  have hboth := himage.symm.trans hexe
  rw [image, ← List.append_assoc, ← List.append_assoc] at hboth
  obtain ⟨hrest, hfooter⟩ := List.append_inj' hboth (by simp)
  rcases footer_set hb hfooter with ⟨hoffset, hcount⟩ | ⟨hoffset, hcount⟩
  · -- the same offset: the same table, and the same count after all
    rw [Nat.mod_eq_of_lt hfront, Nat.mod_eq_of_lt hfront'] at hoffset
    obtain ⟨-, hflat⟩ := List.append_inj hrest (by simpa [tableOffset] using hoffset)
    obtain rfl := Raw.bytes_code.flatMap_inj hflat
    rw [hlaid.length] at hcount
    exact absurd rfl hcount
  · rw [Nat.mod_eq_of_lt hfront, Nat.mod_eq_of_lt hfront'] at hoffset
    have hlast : leValue (slice exe (exe.length - 8) exe.length) = front'.length := by
      have himage' :
          exe = (front' ++ rs'.flatMap Raw.bytes) ++ footer rs'.length front'.length := by
        rw [himage, image, List.append_assoc]
      exact leValue_last himage' hfront'
    rcases List.append_eq_append_iff.mp hrest with ⟨d, hd, hflat⟩ | ⟨d, hd, hflat⟩
    · refine (not_early hlaid hd ?_ hflat (hlaid.length ▸ hcount) hlt hopens).elim
      rintro rfl
      refine hoffset ?_
      rw [← List.append_nil front', ← hd, tableOffset, List.length_append]
    · refine shifts_or_misreads hlaid.describes hd ?_ hflat hcount hlt hfront' himage
        hlast hopens
      rintro rfl
      refine hoffset ?_
      rw [hd, List.append_nil, tableOffset, List.length_append]

end Accepted

/-! ## Damage that goes unseen -/

section Unseen

variable {rs : List Raw} {exe : List UInt8}

theorem renames_accepted {k : ℕ} {b : UInt8} (hlaid : Laid sha setup.length rs es)
    (hvalid : ∀ x ∈ es, validateName debug x.1 = .ok ())
    (hfront : tableOffset setup es < 2 ^ 64)
    (hexe : exe = (image (setup ++ es.flatMap Prod.snd) rs es.length).set k b)
    (hne : exe ≠ image (setup ++ es.flatMap Prod.snd) rs es.length)
    (h : Renames debug setup es exe k) :
    ∃ es', unpack sha debug exe = .ok (some es') ∧ es' ≠ es.map fun x => ⟨x.1, x.2⟩ := by
  obtain ⟨hcount, pre, x, post, name, hes, hlo, hhi, hslice, hname⟩ := h
  have hdescribes := hlaid.describes
  rw [hes] at hdescribes
  obtain ⟨rpre, r, rpost, rfl, hpre, hx, -⟩ := forall₂_middle hdescribes
  have hsize : (rpre.flatMap Raw.bytes).length = tableSize pre := tableSize_of_describes hpre
  have hlen : r.name.length = (asBytes x.1).length := congrArg List.length hx.1
  have hoffset : (setup ++ es.flatMap Prod.snd).length = tableOffset setup es :=
    List.length_append
  obtain ⟨j, rfl⟩ : ∃ j, k = (setup ++ es.flatMap Prod.snd).length +
      ((rpre.flatMap Raw.bytes).length + (2 + j)) :=
    ⟨k - (tableOffset setup es + tableSize pre + 2), by omega⟩
  obtain ⟨r', hbytes, hname', hoffset', hlen', hhash'⟩ := r.set_name b (j := j) (by omega)
  have himage : exe = image (setup ++ es.flatMap Prod.snd) (rpre ++ r' :: rpost) es.length := by
    have hj : 2 + j < r.bytes.length := by
      rw [Raw.length_bytes]
      omega
    rw [hexe, image, image, List.set_append_right _ _ (by omega), Nat.add_sub_cancel_left]
    simp only [List.flatMap_append, List.flatMap_cons, List.append_assoc]
    rw [List.set_append_right _ _ (by omega), Nat.add_sub_cancel_left,
      List.set_append_left _ _ hj, hbytes]
  have hdata := congrArg (List.drop setup.length) himage
  rw [image, List.append_assoc, List.drop_left] at hdata
  have hopens := hlaid.opens hvalid hdata le_rfl
  obtain ⟨pre', e, post', hents, hpre', he, hpost'⟩ := forall₂_middle hopens.flip
  have hread : r'.name = asBytes name := by
    have := (table_name (setup ++ es.flatMap Prod.snd) rpre r' rpost
      (footer es.length (setup ++ es.flatMap Prod.snd).length)).1
    rw [← image, ← himage, hoffset, hsize, hname', List.length_set, hlen, hslice, ← hname'] at this
    exact this.symm
  have hopen' : Opens sha debug exe (tableOffset setup es) r' ⟨name, e.data⟩ := {
    name := fromUtf8_iff.mpr hread
    valid := hname
    range := by
      rw [hoffset', hlen']
      exact he.range
    data := by
      rw [hoffset', hlen']
      exact he.data
    hash := he.hash.trans hhash'.symm }
  have hcount' : (rpre ++ r' :: rpost).length = es.length := by
    rw [← hlaid.length, List.length_append, List.length_append, List.length_cons, List.length_cons]
  refine ⟨pre' ++ ⟨name, e.data⟩ :: post', ?_, ?_⟩
  · rw [← hcount'] at himage
    rw [himage]
    refine unpack_image (by omega) (by omega) ?_
    rw [← himage, hoffset]
    exact List.rel_append hpre'.flip (.cons hopen' hpost'.flip)
  · intro heq
    rw [hents] at heq
    have hsame := (List.cons.inj (List.append_cancel_left heq)).1
    have hold := fromUtf8_iff.mp he.name
    rw [← hsame, ← hread] at hold
    refine hne ?_
    obtain rfl : r' = r := Raw.ext hold.symm hoffset' hlen' hhash'
    exact himage

/-- A changed offset is all that has changed. -/
theorem offset_changed {front : List UInt8} {c o k : ℕ} {b : UInt8} (ho : o < 2 ^ 64)
    (hexe : exe = (front ++ footer c o).set k b)
    (hne : leValue (slice exe (exe.length - 8) exe.length) ≠ o) :
    exe = front ++ footer c (leValue (slice exe (exe.length - 8) exe.length)) := by
  have hlength : exe.length = (front ++ footer c o).length := by rw [hexe, List.length_set]
  have hlong : 8 ≤ exe.length := by
    rw [hlength, List.length_append, length_footer]
    omega
  have hsplit (o : ℕ) : front ++ footer c o =
      (front ++ magic ++ leBytes 4 version ++ leBytes 4 c) ++ leBytes 8 o := by
    simp only [footer, List.append_assoc]
  have hpre : (front ++ magic ++ leBytes 4 version ++ leBytes 4 c).length = exe.length - 8 := by
    rw [hlength]
    simp [magic]
  rcases Nat.lt_or_ge k (exe.length - 8) with hlt | hge
  · refine absurd ?_ hne
    rw [hlength] at hlt ⊢
    rw [hexe, slice_set_of_not_mem (.inl hlt)]
    exact leValue_last rfl ho
  · have hlast := leBytes_leValue (slice exe (exe.length - 8) exe.length)
    rw [length_slice le_rfl, Nat.sub_sub_self hlong] at hlast
    have htake := congrArg (List.take (exe.length - 8)) hexe
    rw [List.take_set_of_le hge, hsplit, ← hpre, List.take_left, hpre] at htake
    rw [hsplit, hlast, ← htake, slice, List.take_length, List.take_append_drop]

theorem misreads_accepted (hlength : exe.length = tableOffset setup es + tableSize es + footerLen)
    (h : Misreads sha debug setup es exe) :
    ∃ es', unpack sha debug exe = .ok (some es') ∧ es' ≠ es.map fun x => ⟨x.1, x.2⟩ := by
  obtain ⟨front, rs, es', himage, hcount, hfront, hopens, pre, r, post, rfl, hends⟩ := h
  refine ⟨es', himage ▸ unpack_image hcount hfront (himage ▸ hopens), ?_⟩
  rintro rfl
  have hdescribes : List.Forall₂ (Describes sha) (pre ++ r :: post) es := by
    refine (List.forall₂_map_right_iff.mp hopens).imp fun r x hr => ?_
    exact ⟨fromUtf8_iff.mp hr.name, hr.hash.symm⟩
  have hsize := tableSize_of_describes hdescribes
  obtain ⟨pre', x, post', hes, hpre, hx, -⟩ := forall₂_middle hdescribes.flip
  have hsize' : ((pre ++ [r]).flatMap Raw.bytes).length = tableSize (pre' ++ [x]) :=
    tableSize_of_describes (List.rel_append hpre.flip (.cons hx .nil))
  refine hends pre' x post' hes ?_
  rw [himage, image, List.length_append, List.length_append, length_footer, hsize, footerLen]
    at hlength
  omega

theorem shifts_accepted {offset : ℕ} (hlaid : Laid sha setup.length rs es)
    (hvalid : ∀ x ∈ es, validateName debug x.1 = .ok ()) (hoffset : offset < 2 ^ 64)
    (hexe : exe = (setup ++ es.flatMap Prod.snd) ++ (rs.flatMap Raw.bytes ++
      footer es.length offset))
    (h : Shifts debug setup es exe offset) :
    ∃ es', unpack sha debug exe = .ok (some es') ∧ es' ≠ es.map fun x => ⟨x.1, x.2⟩ := by
  have hfooter (m : ℕ) (hm : m = es.length % 2 ^ 32) :
      footer es.length offset = footer m offset := by
    have hcount : leBytes 4 es.length = leBytes 4 m := leBytes_congr (by subst hm; simp)
    rw [footer, footer, hcount]
  have hfront : (setup ++ es.flatMap Prod.snd).length = tableOffset setup es :=
    List.length_append
  rcases h with ⟨hne, hzero, hend⟩ | ⟨pre, x, post, name, rfl, hcount, hlater, hend, hlen, hslice,
    hname⟩
  · -- an empty table
    refine ⟨[], ?_, by simpa using Ne.symm hne⟩
    have hlength : (setup ++ es.flatMap Prod.snd ++ rs.flatMap Raw.bytes).length = offset := by
      rw [hexe, ← List.append_assoc, List.length_append, length_footer, footerLen] at hend
      omega
    have himage : exe = image (setup ++ es.flatMap Prod.snd ++ rs.flatMap Raw.bytes) []
        ([] : List Raw).length := by
      rw [hexe, hfooter 0 hzero.symm, image, hlength]
      simp
    rw [himage]
    exact unpack_image (by simp) (hlength.symm ▸ hoffset) .nil
  · -- a table that starts in a name
    obtain ⟨rpre, r, rpost, rfl, hpre, hx, hpost⟩ := forall₂_middle hlaid.describes
    have hsize : (rpre.flatMap Raw.bytes).length = tableSize pre := tableSize_of_describes hpre
    have hnameLen : r.name.length = (asBytes x.1).length := congrArg List.length hx.1
    obtain ⟨-, hdrop⟩ := table_name (setup ++ (pre ++ x :: post).flatMap Prod.snd) rpre r rpost
      (footer (pre ++ x :: post).length offset)
    have hplace : tableOffset setup (pre ++ x :: post) + tableSize pre + 2 + (asBytes x.1).length =
        offset + 2 + (asBytes name).length := by omega
    rw [← hexe, hfront, hsize, hnameLen, hplace] at hdrop
    have hlong : offset + 2 + (asBytes name).length ≤ exe.length := by
      have := congrArg List.length hdrop
      rw [List.length_drop, List.length_append, Raw.length_fields] at this
      omega
    have htwo : (slice exe offset (offset + 2)).length = 2 := by
      rw [length_slice (by omega), Nat.add_sub_cancel_left]
    have hlt : (asBytes name).length < 2 ^ 16 := by
      have := leValue_lt (slice exe offset (offset + 2))
      rwa [hlen, htwo] at this
    have htwoBytes := leBytes_leValue (slice exe offset (offset + 2))
    rw [htwo, hlen] at htwoBytes
    let c : Raw := { r with name := asBytes name, name_lt := hlt }
    have hlength : (exe.take offset).length = offset := by
      rw [List.length_take]
      omega
    have himage : exe = image (exe.take offset) (c :: rpost) (c :: rpost).length := by
      have hm : (c :: rpost).length = (pre ++ x :: post).length % 2 ^ 32 := by
        rw [← hcount, List.length_cons, hpost.length_eq]
      have hbytes : c.bytes = slice exe offset (offset + 2) ++
          (slice exe (offset + 2) (offset + 2 + (asBytes name).length) ++ r.fields) := by
        rw [hslice, ← htwoBytes]
        rfl
      calc exe = exe.take offset ++ exe.drop offset := (List.take_append_drop _ _).symm
        _ = exe.take offset ++ (slice exe offset (offset + 2) ++
              (slice exe (offset + 2) (offset + 2 + (asBytes name).length) ++
                exe.drop (offset + 2 + (asBytes name).length))) := by
            rw [← drop_eq_slice_append (by omega), ← drop_eq_slice_append (by omega)]
        _ = _ := by
            rw [hdrop, image, hlength, ← hfooter _ hm, List.flatMap_cons, hbytes]
            simp only [List.append_assoc]
    have hdata := congrArg (List.drop setup.length) hexe
    rw [List.append_assoc, List.drop_left] at hdata
    have hrange : setup.length + ((pre ++ x :: post).flatMap Prod.snd).length ≤ offset := hlater.le
    have hopens := hlaid.opens hvalid hdata hrange
    obtain ⟨pre', e, post', hents, hpre', he, hpost'⟩ := forall₂_middle hopens.flip
    have hopen' : Opens sha debug exe offset c ⟨name, e.data⟩ :=
      { he with name := fromUtf8_iff.mpr rfl, valid := hname }
    refine ⟨⟨name, e.data⟩ :: post', ?_, ?_⟩
    · rw [himage]
      refine unpack_image ?_ (hlength.symm ▸ hoffset) ?_
      · rw [List.length_cons, ← hpost.length_eq.symm, hcount]
        exact Nat.mod_lt _ (by decide)
      · rw [← himage, hlength]
        exact .cons hopen' hpost'.flip
    · intro heq
      rw [hents] at heq
      have hnil : pre' = [] := by
        have := congrArg List.length heq
        rw [List.length_cons, List.length_append, List.length_cons] at this
        exact List.length_eq_zero_iff.mp (by omega)
      subst hnil
      cases hpre'
      have hsame : name = e.name := congrArg Entry.name (List.cons.inj heq).1
      rw [hsame, ← fromUtf8_iff.mp he.name, hnameLen, ← hsize] at hend
      simp at hend
      omega

theorem Shifts.ne {offset : ℕ}
    (hlength : exe.length = tableOffset setup es + tableSize es + footerLen)
    (h : Shifts debug setup es exe offset) : offset ≠ tableOffset setup es := by
  rcases h with ⟨hne, -, hend⟩ | ⟨pre, x, post, name, -, -, hlater, -⟩
  · obtain ⟨x, xs, rfl⟩ := List.exists_cons_of_ne_nil hne
    have hpos : 50 ≤ tableSize (x :: xs) := by
      simp only [tableSize, List.map_cons, List.sum_cons]
      omega
    omega
  · exact hlater.ne'

end Unseen

/-! ## One damaged byte -/

section Kept

variable {p : List UInt8} {k : ℕ} {b : UInt8} {exe : List UInt8}

/-- What the damaged file still opens as, whichever byte has changed. -/
theorem damaged_some {rs : List Raw} {es' : List Entry} (hlaid : Laid sha setup.length rs es)
    (hvalid : ∀ x ∈ es, validateName debug x.1 = .ok ())
    (hfront : tableOffset setup es < 2 ^ 64)
    (hexe : exe = (image (setup ++ es.flatMap Prod.snd) rs es.length).set k b)
    (hne : exe ≠ image (setup ++ es.flatMap Prod.snd) rs es.length)
    (hinj : ∀ x ∈ es, ∀ i j, sha (slice exe i j) = sha x.2 → slice exe i j = x.2)
    (h : unpack sha debug exe = .ok (some es')) :
    es' = (es.map fun x => ⟨x.1, x.2⟩) ∨ Renames debug setup es exe k ∨
      Shifts debug setup es exe (leValue (slice exe (exe.length - 8) exe.length)) ∨
      Misreads sha debug setup es exe := by
  have hoffset : (setup ++ es.flatMap Prod.snd).length = tableOffset setup es :=
    List.length_append
  have hset := hexe
  rw [image, List.set_append] at hset
  split at hset
  · -- the data
    have himage : exe = image ((setup ++ es.flatMap Prod.snd).set k b) rs es.length := by
      rw [hset, image, List.length_set]
    refine .inl (data_damage hlaid.describes ?_ himage hinj h)
    rwa [List.length_set, hoffset]
  rename_i hdata
  rw [not_lt, hoffset] at hdata
  rw [List.set_append] at hset
  split at hset
  · -- the table
    rename_i htable
    have hne' : (rs.flatMap Raw.bytes).set (k - (setup ++ es.flatMap Prod.snd).length) b ≠
        rs.flatMap Raw.bytes := by
      intro heq
      rw [heq] at hset
      exact hne hset
    rcases table_damage hlaid hvalid hfront htable hne' hset hinj h with h | h | h
    · exact .inl h
    · rw [hoffset, Nat.add_sub_cancel' hdata] at h
      exact .inr (.inl h)
    · exact .inr (.inr (.inr h))
  · -- the footer
    rw [hoffset] at hset
    have hne' := hne
    rw [hset, image, hoffset] at hne'
    refine .inr (.inr (footer_damage hlaid hfront (fun heq => hne' ?_) hset h))
    rw [heq]

end Kept

/-- The fake executable of the repository's own tests. -/
def fakeExe : List UInt8 := [0x4d, 0x5a, 0x20, 0x66, 0x61, 0x6b, 0x65, 0x20, 0x65, 0x78, 0x65]

/-- SHA-256 on `fakeExe`; every other byte string goes elsewhere. -/
def fakeSha (bs : List UInt8) : Digest :=
  if bs = fakeExe then
    ⟨[0xae, 0x46, 0xf5, 0x97, 0x81, 0xda, 0xa8, 0xb7, 0xec, 0x14, 0xfb, 0x07, 0x4c, 0xeb, 0xc5,
      0xdf, 0x27, 0xd3, 0xc7, 0x05, 0x7c, 0x68, 0x15, 0x41, 0x45, 0xb6, 0xcc, 0x48, 0x20, 0x2a,
      0x26, 0xe5], by decide⟩
  else ⟨List.replicate 32 0, by decide⟩

theorem fakeSha_inj {bs : List UInt8} (h : fakeSha bs = fakeSha fakeExe) : bs = fakeExe := by
  by_contra hne
  rw [fakeSha, fakeSha, if_neg hne, if_pos rfl] at h
  exact absurd h (by decide)

/-- The record of `fakeExe` under a name of twelve bytes. -/
def fakeRaw (name : String) (h : (asBytes name).length = 12) : Raw where
  name := asBytes name
  offset := 2
  len := 11
  hash := fakeSha fakeExe
  name_lt := by omega
  offset_lt := by decide
  len_lt := by decide

/-- `gdut-net.exe` behind a setup image of two bytes. -/
def fakeSetup : List UInt8 :=
  image ([0x4d, 0x5a] ++ fakeExe) [fakeRaw "gdut-net.exe" (by decide +kernel)] 1

end GdutNet.Payload
