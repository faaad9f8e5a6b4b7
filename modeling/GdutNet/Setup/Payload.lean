import GdutNet.Stream.Bytes
import Mathlib.Data.List.Infix

/-!
# The payload container

`payload.rs`: the setup image, the data of the entries, a table of contents and
a footer of 24 bytes. SHA-256 comes from another crate and is a parameter, a
function to 32 bytes; `debug` is `{:?}` of a string.

`Raw` is one record of the table as it stands in the file. `unpack_some` says
what the files are that `unpack` accepts; the round trip and everything about
damaged files are read off it.
-/

namespace GdutNet.Payload

open Bytes

abbrev Digest : Type := { bs : List UInt8 // bs.length = 32 }

def magic : List UInt8 := [0x47, 0x44, 0x55, 0x54, 0x50, 0x41, 0x4b, 0x31]

def version : ℕ := 1

def footerLen : ℕ := 24

structure Entry where
  name : String
  data : List UInt8
deriving DecidableEq, Repr

/-! ## Names -/

/-- `str::as_bytes`. -/
def asBytes (name : String) : List UInt8 := name.toByteArray.data.toList

/-- `str::from_utf8`. -/
def fromUtf8 (bs : List UInt8) : Option String := String.fromUTF8? ⟨bs.toArray⟩

theorem fromUtf8_iff {bs : List UInt8} {name : String} :
    fromUtf8 bs = some name ↔ bs = asBytes name := by
  unfold fromUtf8 asBytes String.fromUTF8?
  constructor
  · intro h
    split at h
    · obtain rfl := Option.some.inj h
      rfl
    · cases h
  · rintro rfl
    have hvalid := name.isValidUTF8
    simp [hvalid, String.fromUTF8]

def isControl (c : Char) : Bool := c.toNat ≤ 0x1f || (0x7f ≤ c.toNat && c.toNat ≤ 0x9f)

section Container

variable (sha : List UInt8 → Digest) (debug : String → String)

def validateName (name : String) : Except String Unit :=
  if name.isEmpty then .error "payload entry name is empty"
  else if '/' ∈ name.toList || '\\' ∈ name.toList || ['.', '.'] <:+: name.toList ||
      ':' ∈ name.toList then
    .error ("payload entry name " ++ debug name ++
      " must not contain path separators or \"..\"")
  else if name.toList.any isControl then
    .error ("payload entry name " ++ debug name ++ " contains control characters")
  else .ok ()

/-! ## Packing -/

def checkNames (seen : List String) : List (String × List UInt8) → Except String Unit
  | [] => .ok ()
  | (name, _) :: entries => do
      validateName debug name
      if name ∈ seen then .error ("duplicate payload entry name " ++ debug name)
      checkNames (name :: seen) entries

/-- The data goes to `out`, its record to `toc`. -/
def layOut (out toc : List UInt8) :
    List (String × List UInt8) → Except String (List UInt8 × List UInt8)
  | [] => .ok (out, toc)
  | (name, data) :: entries =>
      let offset := out.length
      if 65535 < (asBytes name).length then .error "payload name too long"
      else
        layOut (out ++ data)
          (toc ++ leBytes 2 (asBytes name).length ++ asBytes name ++ leBytes 8 offset ++
            leBytes 8 data.length ++ (sha data).val) entries

def pack (setup : List UInt8) (entries : List (String × List UInt8)) :
    Except String (List UInt8) := do
  checkNames debug [] entries
  let (out, toc) ← layOut sha setup [] entries
  .ok (out ++ toc ++ magic ++ leBytes 4 version ++ leBytes 4 entries.length ++
    leBytes 8 out.length)

/-! ## Unpacking -/

/-- One turn of the loop: the entry and the position after its record. -/
def readEntry (exe : List UInt8) (tocOffset : ℕ) (toc : List UInt8) (pos : ℕ) :
    Except String (Entry × ℕ) :=
  if toc.length < pos + 2 then .error "payload TOC truncated"
  else
    let nameLen := leValue (slice toc pos (pos + 2))
    let pos := pos + 2
    if toc.length < pos + nameLen + 8 + 8 + 32 then .error "payload TOC entry truncated"
    else
      match fromUtf8 (slice toc pos (pos + nameLen)) with
      | none => .error "payload entry name is not UTF-8"
      | some name =>
          match validateName debug name with
          | .error e => .error e
          | .ok () =>
              let pos := pos + nameLen
              let offset := leValue (slice toc pos (pos + 8))
              let pos := pos + 8
              let len := leValue (slice toc pos (pos + 8))
              let pos := pos + 8
              let want := slice toc pos (pos + 32)
              let pos := pos + 32
              if 2 ^ 64 ≤ offset + len || tocOffset < offset + len then
                .error ("payload entry " ++ debug name ++ " out of data range")
              else
                let data := slice exe offset (offset + len)
                if (sha data).val ≠ want then
                  .error ("payload checksum mismatch for " ++ debug name)
                else .ok (⟨name, data⟩, pos)

def readEntries (exe : List UInt8) (tocOffset : ℕ) (toc : List UInt8) :
    ℕ → ℕ → Except String (List Entry × ℕ)
  | 0, pos => .ok ([], pos)
  | count + 1, pos => do
      let (entry, pos) ← readEntry sha debug exe tocOffset toc pos
      let (entries, pos) ← readEntries exe tocOffset toc count pos
      .ok (entry :: entries, pos)

/-- `none` for a file without a payload. -/
def unpack (exe : List UInt8) : Except String (Option (List Entry)) :=
  if exe.length < footerLen then .ok none
  else
    let footer := exe.drop (exe.length - footerLen)
    if footer.take 8 ≠ magic then .ok none
    else if leValue (slice footer 8 12) ≠ version then
      .error ("unsupported payload version " ++ toString (leValue (slice footer 8 12)))
    else
      let count := leValue (slice footer 12 16)
      let tocOffset := leValue (slice footer 16 24)
      let tocEnd := exe.length - footerLen
      if tocEnd < tocOffset then
        .error ("payload TOC offset " ++ toString tocOffset ++ " out of range (len " ++
          toString tocEnd ++ ")")
      else
        let toc := slice exe tocOffset tocEnd
        if toc.length / 51 < count then .error "payload entry count exceeds TOC capacity"
        else
          match readEntries sha debug exe tocOffset toc count 0 with
          | .error e => .error e
          | .ok (entries, pos) =>
              if pos ≠ toc.length then .error "payload TOC has trailing bytes"
              else .ok (some entries)

end Container

/-! ## Records of the table -/

/-- A record with its numbers in range. -/
@[ext]
structure Raw where
  name : List UInt8
  offset : ℕ
  len : ℕ
  hash : Digest
  name_lt : name.length < 2 ^ 16
  offset_lt : offset < 2 ^ 64
  len_lt : len < 2 ^ 64

namespace Raw

/-- The fields behind the name. -/
def fields (r : Raw) : List UInt8 := leBytes 8 r.offset ++ (leBytes 8 r.len ++ r.hash.val)

def bytes (r : Raw) : List UInt8 := leBytes 2 r.name.length ++ (r.name ++ r.fields)

@[simp] theorem length_fields (r : Raw) : r.fields.length = 48 := by
  simp [fields, r.hash.2]

@[simp] theorem length_bytes (r : Raw) : r.bytes.length = 50 + r.name.length := by
  simp [bytes]
  omega

theorem fields_inj {r r' : Raw} (h : r.fields = r'.fields) :
    r.offset = r'.offset ∧ r.len = r'.len ∧ r.hash = r'.hash := by
  obtain ⟨hoffset, h⟩ := List.append_inj h (by simp)
  obtain ⟨hlen, hhash⟩ := List.append_inj h (by simp)
  exact ⟨leBytes_inj r.offset_lt r'.offset_lt hoffset, leBytes_inj r.len_lt r'.len_lt hlen,
    Subtype.ext hhash⟩

theorem bytes_code : PrefixCode bytes where
  inj := by
    intro r r' xs ys h
    simp only [bytes, List.append_assoc] at h
    obtain ⟨hlen, h⟩ := List.append_inj h (by simp)
    have hname : r.name.length = r'.name.length := leBytes_inj r.name_lt r'.name_lt hlen
    obtain ⟨hname, h⟩ := List.append_inj h hname
    obtain ⟨hfields, _⟩ := List.append_inj h (by simp)
    obtain ⟨hoffset, hlen, hhash⟩ := fields_inj hfields
    exact Raw.ext hname hoffset hlen hhash
  ne_nil := by
    intro r h
    have := congrArg List.length h
    simp at this

end Raw

/-- The footer behind the table. -/
def footer (count offset : ℕ) : List UInt8 :=
  magic ++ (leBytes 4 version ++ (leBytes 4 count ++ leBytes 8 offset))

@[simp] theorem length_footer (count offset : ℕ) : (footer count offset).length = 24 := by
  simp [footer, magic]

/-- A file with a payload: data in front of the table, the table, the footer. -/
def image (front : List UInt8) (rs : List Raw) (count : ℕ) : List UInt8 :=
  front ++ (rs.flatMap Raw.bytes ++ footer count front.length)

variable {sha : List UInt8 → Digest} {debug : String → String}

/-- The record `r` of a table at `tocOffset` opens as the entry `e`. -/
structure Opens (sha : List UInt8 → Digest) (debug : String → String) (exe : List UInt8)
    (tocOffset : ℕ) (r : Raw) (e : Entry) : Prop where
  name : fromUtf8 r.name = some e.name
  valid : validateName debug e.name = .ok ()
  range : r.offset + r.len ≤ tocOffset
  data : e.data = slice exe r.offset (r.offset + r.len)
  hash : sha e.data = r.hash

/-! ## What is accepted -/

section Accepted

variable {exe toc : List UInt8} {tocOffset pos pos' : ℕ} {e : Entry}

theorem readEntry_some (h : readEntry sha debug exe tocOffset toc pos = .ok (e, pos')) :
    ∃ r : Raw, toc.drop pos = r.bytes ++ toc.drop pos' ∧ pos' = pos + r.bytes.length ∧
      Opens sha debug exe tocOffset r e := by
  unfold readEntry at h
  split at h
  · cases h
  dsimp only at h
  split at h
  · cases h
  rename_i hlen
  generalize hL : leValue (slice toc pos (pos + 2)) = L at h hlen
  split at h
  · cases h
  rename_i name hname
  split at h
  · cases h
  rename_i hvalid
  split at h
  · cases h
  rename_i hrange
  split at h
  · cases h
  rename_i hsha
  obtain ⟨rfl, rfl⟩ := Prod.mk.inj (Except.ok.inj h)
  have hnameLen : (slice toc (pos + 2) (pos + 2 + L)).length = L := by
    rw [length_slice (by omega)]
    omega
  have hlt : L < 2 ^ 16 := by
    have := leValue_lt (slice toc pos (pos + 2))
    rw [length_slice (by omega), hL] at this
    simpa using this
  have h8 (a : ℕ) (ha : a + 8 ≤ toc.length) : leValue (slice toc a (a + 8)) < 2 ^ 64 := by
    have := leValue_lt (slice toc a (a + 8))
    rw [length_slice ha] at this
    simpa using this
  simp only [Bool.or_eq_true, decide_eq_true_eq, not_or, not_le, not_lt] at hrange
  refine ⟨{ name := slice toc (pos + 2) (pos + 2 + L)
            offset := leValue (slice toc (pos + 2 + L) (pos + 2 + L + 8))
            len := leValue (slice toc (pos + 2 + L + 8) (pos + 2 + L + 8 + 8))
            hash := ⟨slice toc (pos + 2 + L + 8 + 8) (pos + 2 + L + 8 + 8 + 32), by
              rw [length_slice (by omega)]
              omega⟩
            name_lt := by rwa [hnameLen]
            offset_lt := h8 _ (by omega)
            len_lt := h8 _ (by omega) }, ?_, ?_, ?_⟩
  · have hle (k a : ℕ) (ha : a + k ≤ toc.length) :
        leBytes k (leValue (slice toc a (a + k))) = slice toc a (a + k) := by
      have := leBytes_leValue (slice toc a (a + k))
      rwa [length_slice ha, Nat.add_sub_cancel_left] at this
    have hsize : leBytes 2 L = slice toc pos (pos + 2) := hL ▸ hle 2 pos (by omega)
    simp only [Raw.bytes, Raw.fields, hnameLen, hsize, List.append_assoc]
    rw [hle 8 _ (by omega), hle 8 _ (by omega)]
    rw [drop_eq_slice_append (show pos ≤ pos + 2 by omega) toc,
      drop_eq_slice_append (show pos + 2 ≤ pos + 2 + L by omega) toc,
      drop_eq_slice_append (show pos + 2 + L ≤ pos + 2 + L + 8 by omega) toc,
      drop_eq_slice_append (show pos + 2 + L + 8 ≤ pos + 2 + L + 8 + 8 by omega) toc,
      drop_eq_slice_append (show pos + 2 + L + 8 + 8 ≤ pos + 2 + L + 8 + 8 + 32 by omega) toc]
  · simp only [Raw.length_bytes, hnameLen]
    omega
  · exact ⟨hname, hvalid, hrange.2, rfl, Subtype.ext (not_not.mp hsha)⟩

theorem readEntry_of_opens {r : Raw} {post : List UInt8} (hdrop : toc.drop pos = r.bytes ++ post)
    (hopens : Opens sha debug exe tocOffset r e) (htoc : tocOffset < 2 ^ 64) :
    readEntry sha debug exe tocOffset toc pos = .ok (e, pos + r.bytes.length) := by
  have hlen : pos + 50 + r.name.length ≤ toc.length := by
    have := congrArg List.length hdrop
    simp only [List.length_drop, List.length_append, Raw.length_bytes] at this
    omega
  simp only [Raw.bytes, Raw.fields, List.append_assoc] at hdrop
  obtain ⟨hsize, hdrop⟩ := slice_of_drop hdrop
  obtain ⟨hname, hdrop⟩ := slice_of_drop hdrop
  obtain ⟨hoffset, hdrop⟩ := slice_of_drop hdrop
  obtain ⟨hlength, hdrop⟩ := slice_of_drop hdrop
  obtain ⟨hhash, -⟩ := slice_of_drop hdrop
  simp only [length_leBytes, r.hash.2] at hsize hname hoffset hlength hhash
  have hvalue : leValue (slice toc pos (pos + 2)) = r.name.length := by
    rw [hsize, leValue_leBytes r.name_lt]
  have hrange := hopens.range
  unfold readEntry
  rw [if_neg (by omega)]
  have hoffsetValue : leValue (leBytes 8 r.offset) = r.offset := leValue_leBytes r.offset_lt
  have hlenValue : leValue (leBytes 8 r.len) = r.len := leValue_leBytes r.len_lt
  simp only [hvalue, hname, hoffset, hlength, hhash, hopens.name, hopens.valid,
    hoffsetValue, hlenValue, ← hopens.data, hopens.hash]
  rw [if_neg (by omega), if_neg (by simp; omega), if_neg (by simp), Raw.length_bytes]
  simp only [Except.ok.injEq, Prod.mk.injEq, true_and]
  omega

theorem readEntries_some {count : ℕ} {es : List Entry}
    (h : readEntries sha debug exe tocOffset toc count pos = .ok (es, pos')) :
    ∃ rs : List Raw, rs.length = count ∧ toc.drop pos = rs.flatMap Raw.bytes ++ toc.drop pos' ∧
      pos' = pos + (rs.flatMap Raw.bytes).length ∧
      List.Forall₂ (Opens sha debug exe tocOffset) rs es := by
  induction count generalizing pos es with
  | zero =>
      obtain ⟨rfl, rfl⟩ := Prod.mk.inj (Except.ok.inj h)
      exact ⟨[], rfl, rfl, rfl, .nil⟩
  | succ count ih =>
      unfold readEntries at h
      cases hfirst : readEntry sha debug exe tocOffset toc pos with
      | error e => simp [hfirst, bind, Except.bind] at h
      | ok x =>
          obtain ⟨e, mid⟩ := x
          cases hrest : readEntries sha debug exe tocOffset toc count mid with
          | error e => simp [hfirst, hrest, bind, Except.bind] at h
          | ok x =>
              obtain ⟨es', last⟩ := x
              simp only [hfirst, hrest, bind, Except.bind, Except.ok.injEq, Prod.mk.injEq] at h
              obtain ⟨rfl, rfl⟩ := h
              obtain ⟨r, hdrop, rfl, hopens⟩ := readEntry_some hfirst
              obtain ⟨rs, rfl, hdrop', rfl, hall⟩ := ih hrest
              refine ⟨r :: rs, rfl, ?_, ?_, .cons hopens hall⟩
              · rw [hdrop, hdrop', List.flatMap_cons, List.append_assoc]
              · rw [List.flatMap_cons, List.length_append]
                omega

theorem readEntries_of_opens {rs : List Raw} {es : List Entry} {post : List UInt8}
    (hdrop : toc.drop pos = rs.flatMap Raw.bytes ++ post)
    (hopens : List.Forall₂ (Opens sha debug exe tocOffset) rs es) (htoc : tocOffset < 2 ^ 64) :
    readEntries sha debug exe tocOffset toc rs.length pos =
      .ok (es, pos + (rs.flatMap Raw.bytes).length) := by
  induction hopens generalizing pos with
  | nil => rfl
  | cons hfirst _ ih =>
      rename_i r e rs es
      rw [List.flatMap_cons, List.append_assoc] at hdrop
      have hrest := ih (slice_of_drop hdrop).2
      simp only [List.length_cons, readEntries, readEntry_of_opens hdrop hfirst htoc, hrest,
        bind, Except.bind, List.flatMap_cons, List.length_append]
      rw [Nat.add_assoc]

/-- An accepted name is not empty. -/
theorem validateName_ne_nil {name : String} (h : validateName debug name = .ok ()) :
    asBytes name ≠ [] := by
  intro hnil
  unfold validateName at h
  split at h
  · cases h
  · rename_i hne
    refine hne ?_
    have hsize : name.toByteArray = ByteArray.empty := by
      ext1
      simpa [asBytes] using hnil
    rw [String.isEmpty_iff]
    exact String.toByteArray_inj.mp hsize

/-- An entry takes at least 51 bytes of the table. -/
theorem toc_capacity {rs : List Raw} {es : List Entry}
    (hopens : List.Forall₂ (Opens sha debug exe tocOffset) rs es) :
    51 * rs.length ≤ (rs.flatMap Raw.bytes).length := by
  induction hopens with
  | nil => simp
  | cons hfirst _ ih =>
      rename_i r e rs es
      have hname := fromUtf8_iff.mp hfirst.name ▸ validateName_ne_nil hfirst.valid
      have hpos := List.length_pos_iff.mpr hname
      rw [List.length_cons, List.flatMap_cons, List.length_append, Raw.length_bytes]
      omega

theorem footer_of_slices {l : List UInt8} (hlen : l.length = 24) (hmagic : l.take 8 = magic)
    (hversion : leValue (slice l 8 12) = version) :
    l = footer (leValue (slice l 12 16)) (leValue (slice l 16 24)) := by
  have hle (k a : ℕ) (ha : a + k ≤ l.length) :
      leBytes k (leValue (slice l a (a + k))) = slice l a (a + k) := by
    have := leBytes_leValue (slice l a (a + k))
    rwa [length_slice ha, Nat.add_sub_cancel_left] at this
  have hv : leBytes 4 version = slice l 8 12 := hversion ▸ hle 4 8 (by omega)
  rw [footer, ← hmagic, hv, hle 4 12 (by omega), hle 8 16 (by omega)]
  calc l = l.take 8 ++ l.drop 8 := (List.take_append_drop 8 l).symm
    _ = l.take 8 ++ (slice l 8 12 ++ (slice l 12 16 ++ (slice l 16 24 ++ l.drop 24))) := by
        rw [drop_eq_slice_append (show 8 ≤ 12 by omega) l,
          drop_eq_slice_append (show 12 ≤ 16 by omega) l,
          drop_eq_slice_append (show 16 ≤ 24 by omega) l]
    _ = _ := by rw [List.drop_eq_nil_of_le (by omega), List.append_nil]

theorem slices_of_footer (count offset : ℕ) :
    (footer count offset).take 8 = magic ∧
      slice (footer count offset) 8 12 = leBytes 4 version ∧
      slice (footer count offset) 12 16 = leBytes 4 count ∧
      slice (footer count offset) 16 24 = leBytes 8 offset := by
  have hdrop : (footer count offset).drop 8 =
      leBytes 4 version ++ (leBytes 4 count ++ leBytes 8 offset) := by
    rw [footer, List.drop_left' (by rfl)]
  obtain ⟨hversion, hdrop⟩ := slice_of_drop hdrop
  obtain ⟨hcount, hdrop⟩ := slice_of_drop hdrop
  obtain ⟨hoffset, -⟩ := slice_of_drop (hdrop.trans (List.append_nil _).symm)
  simp only [length_leBytes] at hversion hcount hoffset
  exact ⟨List.take_left' (by rfl), hversion, hcount, hoffset⟩

theorem image_of_unpack {es : List Entry} (h : unpack sha debug exe = .ok (some es)) :
    ∃ front rs, exe = image front rs rs.length ∧ rs.length < 2 ^ 32 ∧ front.length < 2 ^ 64 ∧
      List.Forall₂ (Opens sha debug exe front.length) rs es := by
  unfold unpack at h
  split at h
  · cases h
  rename_i hlong
  rw [footerLen, not_lt] at hlong
  dsimp only at h
  have hlast : (exe.drop (exe.length - footerLen)).length = 24 := by
    simp [footerLen]
    omega
  have hparts := footer_of_slices hlast
  have hcount := leValue_lt (slice (exe.drop (exe.length - footerLen)) 12 16)
  have hoffset := leValue_lt (slice (exe.drop (exe.length - footerLen)) 16 24)
  rw [length_slice (by omega)] at hcount hoffset
  generalize leValue (slice (exe.drop (exe.length - footerLen)) 12 16) = count at *
  generalize leValue (slice (exe.drop (exe.length - footerLen)) 16 24) = offset at *
  split at h
  · cases h
  rename_i hmagic
  split at h
  · cases h
  rename_i hversion
  split at h
  · cases h
  rename_i hend
  split at h
  · cases h
  split at h
  · cases h
  rename_i entries pos hread
  split at h
  · cases h
  rename_i hpos
  obtain rfl := Option.some.inj (Except.ok.inj h)
  obtain ⟨rs, rfl, htoc, -, hopens⟩ := readEntries_some hread
  have hfront : (exe.take offset).length = offset := by
    rw [List.length_take]
    omega
  rw [List.drop_zero, not_not.mp hpos, List.drop_length, List.append_nil] at htoc
  refine ⟨exe.take offset, rs, ?_, hcount, hfront.symm ▸ hoffset, hfront.symm ▸ hopens⟩
  calc exe = exe.take offset ++ exe.drop offset := (List.take_append_drop _ _).symm
    _ = exe.take offset ++ (slice exe offset (exe.length - footerLen) ++
          exe.drop (exe.length - footerLen)) := by
        rw [← drop_eq_slice_append (not_lt.mp hend)]
    _ = image (exe.take offset) rs rs.length := by
        rw [image, hfront, htoc, ← hparts (not_not.mp hmagic) (not_not.mp hversion)]

theorem unpack_image {es : List Entry} {front : List UInt8} {rs : List Raw}
    (hcount : rs.length < 2 ^ 32) (hfront : front.length < 2 ^ 64)
    (hopens : List.Forall₂ (Opens sha debug (image front rs rs.length) front.length) rs es) :
    unpack sha debug (image front rs rs.length) = .ok (some es) := by
  have hlength : (image front rs rs.length).length - footerLen =
      front.length + (rs.flatMap Raw.bytes).length := by
    simp only [image, List.length_append, length_footer, footerLen]
    omega
  have hdrop : (image front rs rs.length).drop front.length =
      rs.flatMap Raw.bytes ++ footer rs.length front.length := List.drop_left
  obtain ⟨htoc, hlast⟩ := slice_of_drop hdrop
  obtain ⟨hmagic, hversion, hcountBytes, hoffsetBytes⟩ :=
    slices_of_footer rs.length front.length
  have hversionValue : leValue (leBytes 4 version) = version := leValue_leBytes (by decide)
  have hcountValue : leValue (leBytes 4 rs.length) = rs.length := leValue_leBytes hcount
  have hoffsetValue : leValue (leBytes 8 front.length) = front.length := leValue_leBytes hfront
  have hcapacity := toc_capacity hopens
  unfold unpack
  rw [if_neg (by simp [image, footerLen]; omega)]
  dsimp only
  rw [hlength, hlast, hversion, hcountBytes, hoffsetBytes, hversionValue, hcountValue,
    hoffsetValue, htoc, if_neg (not_not.mpr hmagic), if_neg (not_not.mpr rfl),
    if_neg (by omega), if_neg (by omega)]
  have hread := readEntries_of_opens
    (by simp : (rs.flatMap Raw.bytes).drop 0 = rs.flatMap Raw.bytes ++ []) hopens hfront
  rw [hread]
  simp

/-- The accepted files with a payload. -/
theorem unpack_some {es : List Entry} :
    unpack sha debug exe = .ok (some es) ↔ ∃ front rs, exe = image front rs rs.length ∧
      rs.length < 2 ^ 32 ∧ front.length < 2 ^ 64 ∧
      List.Forall₂ (Opens sha debug exe front.length) rs es := by
  constructor
  · exact image_of_unpack
  · rintro ⟨front, rs, rfl, hcount, hfront, hopens⟩
    exact unpack_image hcount hfront hopens

end Accepted

/-! ## What is packed -/

section Packed

variable {setup : List UInt8} {es : List (String × List UInt8)} {p : List UInt8}

/-- The records of data laid end to end from an offset on. -/
inductive Laid (sha : List UInt8 → Digest) : ℕ → List Raw → List (String × List UInt8) → Prop
  | nil (o : ℕ) : Laid sha o [] []
  | cons {o : ℕ} {r : Raw} {rs : List Raw} {name : String} {data : List UInt8}
      {es : List (String × List UInt8)} (hname : r.name = asBytes name) (hoffset : r.offset = o)
      (hlen : r.len = data.length) (hhash : r.hash = sha data)
      (hrest : Laid sha (o + data.length) rs es) : Laid sha o (r :: rs) ((name, data) :: es)

theorem Laid.length {o : ℕ} {rs : List Raw} (h : Laid sha o rs es) : rs.length = es.length := by
  induction h with
  | nil => rfl
  | cons _ _ _ _ _ ih => rw [List.length_cons, List.length_cons, ih]

/-- A record opens as its entry in every file that still has the data. -/
theorem Laid.opens {o tocOffset : ℕ} {rs : List Raw} {exe post : List UInt8}
    (h : Laid sha o rs es) (hvalid : ∀ x ∈ es, validateName debug x.1 = .ok ())
    (hdata : exe.drop o = es.flatMap Prod.snd ++ post)
    (hrange : o + (es.flatMap Prod.snd).length ≤ tocOffset) :
    List.Forall₂ (Opens sha debug exe tocOffset) rs (es.map fun x => ⟨x.1, x.2⟩) := by
  induction h with
  | nil => exact .nil
  | cons hname hoffset hlen hhash _ ih =>
      rw [List.flatMap_cons, List.append_assoc] at hdata
      simp only [List.flatMap_cons, List.length_append] at hrange
      obtain ⟨hslice, hrest⟩ := slice_of_drop hdata
      refine .cons ?_ (ih (fun x hx => hvalid x (.tail _ hx)) hrest (by omega))
      exact {
        name := by rw [hname, fromUtf8_iff]
        valid := hvalid _ (.head _)
        range := by
          rw [hoffset, hlen]
          omega
        data := by rw [hoffset, hlen, hslice]
        hash := hhash.symm }

theorem layOut_ok {out toc out' toc' : List UInt8}
    (h : layOut sha out toc es = .ok (out', toc')) (hlen : out'.length < 2 ^ 64) :
    ∃ rs, Laid sha out.length rs es ∧ out' = out ++ es.flatMap Prod.snd ∧
      toc' = toc ++ rs.flatMap Raw.bytes := by
  induction es generalizing out toc with
  | nil =>
      obtain ⟨rfl, rfl⟩ := Prod.mk.inj (Except.ok.inj h)
      exact ⟨[], .nil _, by simp, by simp⟩
  | cons x es ih =>
      obtain ⟨name, data⟩ := x
      unfold layOut at h
      dsimp only at h
      split at h
      · cases h
      rename_i hname
      obtain ⟨rs, hlaid, rfl, rfl⟩ := ih h
      simp only [List.length_append] at hlen hlaid
      refine ⟨{ name := asBytes name
                offset := out.length
                len := data.length
                hash := sha data
                name_lt := by omega
                offset_lt := by omega
                len_lt := by omega } :: rs, .cons rfl rfl rfl rfl hlaid, by simp, ?_⟩
      simp [Raw.bytes, Raw.fields]

theorem layOut_isOk {out toc : List UInt8} :
    (∃ r, layOut sha out toc es = .ok r) ↔ ∀ x ∈ es, (asBytes x.1).length ≤ 65535 := by
  induction es generalizing out toc with
  | nil => simp [layOut]
  | cons x es ih =>
      obtain ⟨name, data⟩ := x
      rw [List.forall_mem_cons, layOut]
      dsimp only
      split
      · rename_i hname
        simp
        omega
      · rename_i hname
        rw [ih, and_iff_right (not_lt.mp hname)]

theorem checkNames_ok {seen : List String} :
    checkNames debug seen es = .ok () ↔ (∀ x ∈ es, validateName debug x.1 = .ok ()) ∧
      (es.map Prod.fst).Nodup ∧ ∀ x ∈ es, x.1 ∉ seen := by
  induction es generalizing seen with
  | nil => simp [checkNames]
  | cons x es ih =>
      obtain ⟨name, data⟩ := x
      rw [List.map_cons, List.nodup_cons, List.forall_mem_cons, List.forall_mem_cons, checkNames]
      cases hvalid : validateName debug name with
      | error e => simp [bind, Except.bind]
      | ok _ =>
          by_cases hseen : name ∈ seen
          · simp [bind, Except.bind, hseen]
          · simp only [bind, Except.bind, hseen, if_false, ih, List.mem_cons,
              not_or, not_false_eq_true, true_and]
            grind

/-- Where packing succeeds. -/
theorem pack_isOk :
    (∃ p, pack sha debug setup es = .ok p) ↔
      (∀ x ∈ es, validateName debug x.1 = .ok () ∧ (asBytes x.1).length ≤ 65535) ∧
        (es.map Prod.fst).Nodup := by
  have hnames : checkNames debug [] es = .ok () ↔
      (∀ x ∈ es, validateName debug x.1 = .ok ()) ∧ (es.map Prod.fst).Nodup := by
    simp [checkNames_ok]
  have hlay : (∃ r, layOut sha setup [] es = .ok r) ↔ ∀ x ∈ es, (asBytes x.1).length ≤ 65535 :=
    layOut_isOk
  rw [forall₂_and, and_right_comm, ← hnames, ← hlay]
  unfold pack
  cases checkNames debug [] es with
  | error e => simp [bind, Except.bind]
  | ok _ =>
      cases layOut sha setup [] es with
      | error e => simp [bind, Except.bind]
      | ok r => simp [bind, Except.bind]

/-- What a packed file is made of. -/
theorem pack_ok (h : pack sha debug setup es = .ok p) (hlen : p.length < 2 ^ 64) :
    ∃ rs, Laid sha setup.length rs es ∧
      p = image (setup ++ es.flatMap Prod.snd) rs es.length ∧
      ∀ x ∈ es, validateName debug x.1 = .ok () := by
  have hvalid := (pack_isOk.mp ⟨p, h⟩).1
  unfold pack at h
  cases hnames : checkNames debug [] es with
  | error e => simp [hnames, bind, Except.bind] at h
  | ok _ =>
      cases hlay : layOut sha setup [] es with
      | error e => simp [hnames, hlay, bind, Except.bind] at h
      | ok r =>
          obtain ⟨out, toc⟩ := r
          simp only [hnames, hlay, bind, Except.bind, Except.ok.injEq] at h
          have hout : out.length < 2 ^ 64 := by
            have := congrArg List.length h
            simp only [List.length_append] at this
            omega
          obtain ⟨rs, hlaid, rfl, rfl⟩ := layOut_ok hlay hout
          refine ⟨rs, hlaid, ?_, fun x hx => (hvalid x hx).1⟩
          rw [← h, image, footer]
          simp only [List.nil_append, List.append_assoc]

/-- `unpack` gives back what `pack` took, and `pack` refuses exactly the names
that are invalid, too long or there twice. -/
theorem payload_round_trip (sha : List UInt8 → Digest) (debug : String → String)
    (setup : List UInt8) (es : List (String × List UInt8)) (hcount : es.length < 2 ^ 32) :
    (∀ p, pack sha debug setup es = .ok p → p.length < 2 ^ 64 →
      unpack sha debug p = .ok (some (es.map fun x => ⟨x.1, x.2⟩)) ∧
        p.take setup.length = setup) ∧
    ((∃ e, pack sha debug setup es = .error e) ↔
      (∃ x ∈ es, validateName debug x.1 ≠ .ok ()) ∨
        (∃ x ∈ es, 65535 < (asBytes x.1).length) ∨ ¬ (es.map Prod.fst).Nodup) := by
  constructor
  · intro p h hlen
    obtain ⟨rs, hlaid, rfl, hvalid⟩ := pack_ok h hlen
    constructor
    · rw [← hlaid.length] at hcount ⊢
      have hdrop : (image (setup ++ es.flatMap Prod.snd) rs rs.length).drop setup.length =
          es.flatMap Prod.snd ++ (rs.flatMap Raw.bytes ++
            footer rs.length (setup ++ es.flatMap Prod.snd).length) := by
        rw [image, List.append_assoc, List.drop_left]
      refine unpack_image hcount ?_ (hlaid.opens hvalid hdrop ?_)
      · simp only [image, List.length_append] at hlen ⊢
        omega
      · rw [List.length_append]
    · rw [image, List.append_assoc, List.take_left]
  · have hok : (∃ p, pack sha debug setup es = .ok p) ↔ _ := pack_isOk
    cases hpack : pack sha debug setup es with
    | ok p =>
        obtain ⟨hnames, hnodup⟩ := hok.mp ⟨p, hpack⟩
        have hvalid : ¬ ∃ x ∈ es, validateName debug x.1 ≠ .ok () :=
          fun ⟨x, hx, hne⟩ => hne (hnames x hx).1
        have hlong : ¬ ∃ x ∈ es, 65535 < (asBytes x.1).length :=
          fun ⟨x, hx, hlt⟩ => absurd (hnames x hx).2 (not_le.mpr hlt)
        simp [hvalid, hlong, hnodup]
    | error e =>
        have hbad := (not_congr hok).mp (by simp [hpack])
        refine ⟨fun _ => ?_, fun _ => ⟨e, rfl⟩⟩
        by_contra hgood
        push Not at hgood
        exact hbad ⟨fun x hx => ⟨hgood.1 x hx, hgood.2.1 x hx⟩, hgood.2.2⟩

theorem payload_round_trip_two :
    ∃ p, pack (fun _ => ⟨List.replicate 32 7, by decide⟩) id [0x4d, 0x5a]
        [("a", [1]), ("b", [])] = .ok p ∧
      unpack (fun _ => ⟨List.replicate 32 7, by decide⟩) id p =
        .ok (some [⟨"a", [1]⟩, ⟨"b", []⟩]) ∧
      p.take 2 = [0x4d, 0x5a] :=
  ⟨_, rfl, (payload_round_trip (fun _ => ⟨List.replicate 32 7, by decide⟩) id [0x4d, 0x5a]
    [("a", [1]), ("b", [])] (by decide)).1 _ rfl (by decide +kernel)⟩

end Packed

end GdutNet.Payload
