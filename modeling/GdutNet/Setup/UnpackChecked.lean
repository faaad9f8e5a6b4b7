import GdutNet.Base
import GdutNet.Setup.Payload
import Mathlib.Data.List.Forall2

/-!
# Unpacking with every check spelled out

`unpack` reads lengths, counts and offsets that come from the file. Here every
operation of the source that could panic is explicit, and `none` is the panic: a
sum that leaves `usize`, a range outside its slice, the `unwrap` of a conversion
to a fixed length. `usize` has 64 bits. The allocator is a parameter: it grants
a reservation or not.

`unpackChecked_eq` closes the gap to the model: no panic on any input, because
the cursor never passes the end of the table.
-/

namespace GdutNet.Payload

open Bytes

/-- No Rust slice is longer. -/
def isizeMax : ℕ := 2 ^ 63 - 1

abbrev ByteSlice : Type := { bs : List UInt8 // bs.length ≤ isizeMax }

/-! ## Operations that may panic -/

/-- `xs[from..to]`. -/
def sliceChecked (xs : List UInt8) (a b : ℕ) : Option (List UInt8) :=
  if a ≤ b ∧ b ≤ xs.length then some (slice xs a b) else none

/-- `bs.try_into().unwrap()` to an array of `n` bytes. -/
def fixed (n : ℕ) (bs : List UInt8) : Option (List UInt8) :=
  if bs.length = n then some bs else none

/-- `from_le_bytes` of `n` bytes at a position. -/
def readLe (n : ℕ) (xs : List UInt8) (pos : ℕ) : Option ℕ := do
  let bs ← sliceChecked xs pos (← checkedAdd pos n)
  some (leValue (← fixed n bs))

/-- What a run asked of the allocator, and how it ended. -/
structure Unpacked where
  reserved : Option ℕ
  result : Except String (Option (List Entry))

section Container

variable (sha : List UInt8 → Digest) (debug : String → String)

def readEntryChecked (exe : List UInt8) (tocOffset : ℕ) (toc : List UInt8) (pos : ℕ) :
    Option (Except String (Entry × ℕ)) := do
  if toc.length < (← checkedAdd pos 2) then return .error "payload TOC truncated"
  let nameLen ← readLe 2 toc pos
  let pos ← checkedAdd pos 2
  let record ← checkedAdd (← checkedAdd (← checkedAdd (← checkedAdd pos nameLen) 8) 8) 32
  if toc.length < record then return .error "payload TOC entry truncated"
  match fromUtf8 (← sliceChecked toc pos (← checkedAdd pos nameLen)) with
  | none => return .error "payload entry name is not UTF-8"
  | some name =>
      match validateName debug name with
      | .error e => return .error e
      | .ok () =>
          let pos ← checkedAdd pos nameLen
          let offset ← readLe 8 toc pos
          let pos ← checkedAdd pos 8
          let len ← readLe 8 toc pos
          let pos ← checkedAdd pos 8
          let want ← fixed 32 (← sliceChecked toc pos (← checkedAdd pos 32))
          let pos ← checkedAdd pos 32
          -- The one addition whose overflow the source expects.
          if (checkedAdd offset len).all (tocOffset < ·) then
            return .error ("payload entry " ++ debug name ++ " out of data range")
          let data ← sliceChecked exe offset (← checkedAdd offset len)
          if (sha data).val ≠ want then
            return .error ("payload checksum mismatch for " ++ debug name)
          return .ok (⟨name, data⟩, pos)

def readEntriesChecked (exe : List UInt8) (tocOffset : ℕ) (toc : List UInt8) :
    ℕ → ℕ → Option (Except String (List Entry × ℕ))
  | 0, pos => some (.ok ([], pos))
  | count + 1, pos => do
      match ← readEntryChecked sha debug exe tocOffset toc pos with
      | .error e => return .error e
      | .ok (entry, pos) =>
          match ← readEntriesChecked exe tocOffset toc count pos with
          | .error e => return .error e
          | .ok (entries, pos) => return .ok (entry :: entries, pos)

/-- `grants` is the allocator's answer to `try_reserve_exact`. -/
def unpackChecked (grants : ℕ → Bool) (exe : List UInt8) : Option Unpacked := do
  if exe.length < footerLen then return ⟨none, .ok none⟩
  let footer ← sliceChecked exe (← checkedSub exe.length footerLen) exe.length
  if (← sliceChecked footer 0 8) ≠ magic then return ⟨none, .ok none⟩
  let version' ← readLe 4 footer 8
  if version' ≠ version then
    return ⟨none, .error ("unsupported payload version " ++ toString version')⟩
  let count ← readLe 4 footer 12
  let tocOffset ← readLe 8 footer 16
  let tocEnd ← checkedSub exe.length footerLen
  if tocEnd < tocOffset then
    return ⟨none, .error ("payload TOC offset " ++ toString tocOffset ++
      " out of range (len " ++ toString tocEnd ++ ")")⟩
  let toc ← sliceChecked exe tocOffset tocEnd
  if toc.length / 51 < count then
    return ⟨none, .error "payload entry count exceeds TOC capacity"⟩
  if !grants count then return ⟨some count, .error "Failed to reserve payload entries"⟩
  match ← readEntriesChecked sha debug exe tocOffset toc count 0 with
  | .error e => return ⟨some count, .error e⟩
  | .ok (entries, pos) =>
      if pos ≠ toc.length then
        return ⟨some count, .error "payload TOC has trailing bytes"⟩
      return ⟨some count, .ok (some entries)⟩

end Container

theorem bind_eq {α β : Type} {x : Option α} {a : α} (h : x = some a) (f : α → Option β) :
    (x >>= f) = f a := by
  rw [h]
  rfl

theorem outOfRange_eq (offset len tocOffset : ℕ) :
    (checkedAdd offset len).all (tocOffset < ·) =
      (decide (2 ^ 64 ≤ offset + len) || decide (tocOffset < offset + len)) := by
  unfold checkedAdd u64Max
  split
  · rename_i h
    simp
    omega
  · rename_i h
    simp
    omega

theorem sliceChecked_eq {xs : List UInt8} {a b : ℕ} (hab : a ≤ b) (hb : b ≤ xs.length) :
    sliceChecked xs a b = some (slice xs a b) := if_pos ⟨hab, hb⟩

theorem fixed_slice {xs : List UInt8} {a n : ℕ} (h : a + n ≤ xs.length) :
    fixed n (slice xs a (a + n)) = some (slice xs a (a + n)) := by
  refine if_pos ?_
  rw [length_slice h, Nat.add_sub_cancel_left]

theorem readLe_eq {xs : List UInt8} {n pos : ℕ} (h : pos + n ≤ xs.length)
    (hmax : xs.length ≤ isizeMax) : readLe n xs pos = some (leValue (slice xs pos (pos + n))) := by
  have hsum : pos + n ≤ u64Max := by
    simp only [isizeMax, u64Max] at *
    omega
  simp only [readLe, checkedAdd_eq hsum, sliceChecked_eq (Nat.le_add_right pos n) h,
    fixed_slice h, Option.bind_eq_bind, Option.bind_some]

/-! ## The cursor -/

section Cursor

variable {sha : List UInt8 → Digest} {debug : String → String} {exe toc : List UInt8}
  {tocOffset pos : ℕ}

theorem readEntry_cursor {e : Entry} {pos' : ℕ} (hpos : pos ≤ toc.length)
    (h : readEntry sha debug exe tocOffset toc pos = .ok (e, pos')) : pos' ≤ toc.length := by
  obtain ⟨r, hdrop, rfl, -⟩ := readEntry_some h
  have := congrArg List.length hdrop
  simp only [List.length_append, List.length_drop] at this
  have hsize := r.length_bytes
  omega

theorem readEntryChecked_eq (hpos : pos ≤ toc.length) (htoc : toc.length ≤ isizeMax)
    (hexe : tocOffset ≤ exe.length) :
    readEntryChecked sha debug exe tocOffset toc pos =
      some (readEntry sha debug exe tocOffset toc pos) := by
  have hmax : toc.length + 2 ^ 17 ≤ u64Max := by
    simp only [isizeMax, u64Max] at *
    omega
  have hadd : ∀ {a b : ℕ}, a + b ≤ toc.length + 2 ^ 17 → checkedAdd a b = some (a + b) :=
    fun h => checkedAdd_eq (h.trans hmax)
  unfold readEntryChecked readEntry
  rw [bind_eq (hadd (by omega))]
  split
  · rfl
  rename_i htwo
  have hname := leValue_lt (slice toc pos (pos + 2))
  rw [length_slice (by omega), Nat.add_sub_cancel_left] at hname
  rw [bind_eq (readLe_eq (by omega) htoc), bind_eq (hadd (by omega))]
  generalize leValue (slice toc pos (pos + 2)) = nameLen at hname ⊢
  rw [bind_eq (hadd (by omega)), bind_eq (hadd (by omega)), bind_eq (hadd (by omega)),
    bind_eq (hadd (by omega))]
  dsimp only
  split
  · rfl
  rename_i hrecord
  rw [bind_eq (hadd (by omega)), bind_eq (sliceChecked_eq (by omega) (by omega))]
  cases fromUtf8 (slice toc (pos + 2) (pos + 2 + nameLen)) with
  | none => rfl
  | some name =>
  dsimp only
  cases validateName debug name with
  | error e => rfl
  | ok _ =>
  dsimp only
  rw [bind_eq (hadd (by omega)), bind_eq (readLe_eq (by omega) htoc),
    bind_eq (hadd (by omega)), bind_eq (readLe_eq (by omega) htoc),
    bind_eq (hadd (by omega)), bind_eq (hadd (by omega)),
    bind_eq (sliceChecked_eq (by omega) (by omega)), bind_eq (fixed_slice (by omega)),
    bind_eq (hadd (by omega))]
  generalize leValue (slice toc (pos + 2 + nameLen) (pos + 2 + nameLen + 8)) = offset
  generalize leValue (slice toc (pos + 2 + nameLen + 8) (pos + 2 + nameLen + 8 + 8)) = len
  rw [outOfRange_eq]
  split
  · rfl
  rename_i hrange
  simp only [Bool.or_eq_true, decide_eq_true_eq, not_or, not_le, not_lt] at hrange
  have hend : offset + len ≤ u64Max := by
    simp only [u64Max]
    omega
  rw [bind_eq (checkedAdd_eq hend), bind_eq (sliceChecked_eq (by omega) (by omega))]
  exact (apply_ite some _ _ _).symm

/-- The invariant of the loop is that the cursor is inside the table. -/
theorem readEntriesChecked_eq (count : ℕ) (hpos : pos ≤ toc.length)
    (htoc : toc.length ≤ isizeMax) (hexe : tocOffset ≤ exe.length) :
    readEntriesChecked sha debug exe tocOffset toc count pos =
      some (readEntries sha debug exe tocOffset toc count pos) := by
  induction count generalizing pos with
  | zero => rfl
  | succ count ih =>
      rw [readEntriesChecked, readEntries, bind_eq (readEntryChecked_eq hpos htoc hexe)]
      cases hread : readEntry sha debug exe tocOffset toc pos with
      | error e => rfl
      | ok x =>
          obtain ⟨e, pos'⟩ := x
          dsimp only
          rw [bind_eq (ih (readEntry_cursor hpos hread))]
          cases hrest : readEntries sha debug exe tocOffset toc count pos' with
          | error e => simp [hrest, bind, Except.bind, pure]
          | ok x => simp [hrest, bind, Except.bind, pure]

end Cursor

/-! ## The footer of a file -/

def footerOf (exe : List UInt8) : List UInt8 := exe.drop (exe.length - footerLen)

/-- How many entries the footer announces. -/
def countOf (exe : List UInt8) : ℕ := leValue (slice (footerOf exe) 12 16)

def tocOffsetOf (exe : List UInt8) : ℕ := leValue (slice (footerOf exe) 16 24)

/-- The table, from its offset to the footer. -/
def tocOf (exe : List UInt8) : List UInt8 :=
  slice exe (tocOffsetOf exe) (exe.length - footerLen)

section Unpack

variable {sha : List UInt8 → Digest} {debug : String → String} {grants : ℕ → Bool}
  {exe : List UInt8}

theorem unpack_eq (h : footerLen ≤ exe.length) :
    unpack sha debug exe =
      if (footerOf exe).take 8 ≠ magic then .ok none
      else if leValue (slice (footerOf exe) 8 12) ≠ version then
        .error ("unsupported payload version " ++
          toString (leValue (slice (footerOf exe) 8 12)))
      else if exe.length - footerLen < tocOffsetOf exe then
        .error ("payload TOC offset " ++ toString (tocOffsetOf exe) ++ " out of range (len " ++
          toString (exe.length - footerLen) ++ ")")
      else if (tocOf exe).length / 51 < countOf exe then
        .error "payload entry count exceeds TOC capacity"
      else match readEntries sha debug exe (tocOffsetOf exe) (tocOf exe) (countOf exe) 0 with
        | .error e => .error e
        | .ok (entries, pos) =>
            if pos ≠ (tocOf exe).length then .error "payload TOC has trailing bytes"
            else .ok (some entries) := by
  unfold unpack
  rw [if_neg (not_lt.mpr h)]
  rfl

/-- No panic, and the model's result unless the allocator refuses. Room is asked
for before the first entry is read. -/
theorem unpackChecked_eq (sha : List UInt8 → Digest) (debug : String → String)
    (grants : ℕ → Bool) (hexe : exe.length ≤ isizeMax) :
    ∃ reserved, unpackChecked sha debug grants exe = some ⟨reserved,
        if reserved.all grants then unpack sha debug exe
        else .error "Failed to reserve payload entries"⟩ ∧
      (∀ n ∈ reserved, n = countOf exe ∧ n ≤ (tocOf exe).length / 51) ∧
      (reserved = none → ∀ es, unpack sha debug exe ≠ .ok (some es)) := by
  unfold unpackChecked
  by_cases hlong : exe.length < footerLen
  · rw [if_pos hlong, unpack, if_pos hlong]
    exact ⟨none, rfl, by simp, by simp⟩
  rw [if_neg hlong]
  rw [not_lt] at hlong
  have hsize : (footerOf exe).length = 24 := by
    rw [footerOf, List.length_drop]
    simp only [footerLen] at *
    omega
  have hmax : (footerOf exe).length ≤ isizeMax := by
    rw [hsize]
    decide
  have hfooter : sliceChecked exe (exe.length - footerLen) exe.length = some (footerOf exe) := by
    rw [sliceChecked_eq (by omega) le_rfl, slice, List.take_length, footerOf]
  have hmagic : sliceChecked (footerOf exe) 0 8 = some ((footerOf exe).take 8) :=
    sliceChecked_eq (by omega) (by omega)
  have hversion : readLe 4 (footerOf exe) 8 = some (leValue (slice (footerOf exe) 8 12)) :=
    readLe_eq (by omega) hmax
  have hcount : readLe 4 (footerOf exe) 12 = some (countOf exe) := readLe_eq (by omega) hmax
  have hoffset : readLe 8 (footerOf exe) 16 = some (tocOffsetOf exe) := readLe_eq (by omega) hmax
  rw [bind_eq (checkedSub_eq hlong), bind_eq hfooter, bind_eq hmagic, bind_eq hversion,
    bind_eq hcount, bind_eq hoffset, bind_eq (checkedSub_eq hlong), unpack_eq hlong]
  split
  · exact ⟨none, rfl, by simp, by simp⟩
  split
  · exact ⟨none, rfl, by simp, by simp⟩
  split
  · exact ⟨none, rfl, by simp, by simp⟩
  rename_i htoc
  have hslice : sliceChecked exe (tocOffsetOf exe) (exe.length - footerLen) = some (tocOf exe) :=
    sliceChecked_eq (not_lt.mp htoc) (by omega)
  rw [bind_eq hslice]
  split
  · exact ⟨none, rfl, by simp, by simp⟩
  rename_i hroom
  refine ⟨some (countOf exe), ?_, by simpa using not_lt.mp hroom, by simp⟩
  cases hgrant : grants (countOf exe) with
  | false => simp [hgrant]
  | true =>
      have htocMax : (tocOf exe).length ≤ isizeMax := by
        rw [tocOf, length_slice (by omega)]
        omega
      rw [bind_eq (readEntriesChecked_eq _ (Nat.zero_le _) htocMax (by omega))]
      simp only [hgrant, Option.all_some, Bool.not_true, Bool.false_eq_true, if_false, if_true]
      cases readEntries sha debug exe (tocOffsetOf exe) (tocOf exe) (countOf exe) 0 with
      | error e => rfl
      | ok x => exact (apply_ite (fun r => some (Unpacked.mk _ r)) _ _ _).symm

/-- An accepted file, read by its own footer. -/
theorem unpack_ok {es : List Entry} (h : unpack sha debug exe = .ok (some es)) :
    tocOffsetOf exe ≤ exe.length - footerLen ∧ ∃ rs : List Raw, rs.length = countOf exe ∧
      tocOf exe = rs.flatMap Raw.bytes ∧
      List.Forall₂ (Opens sha debug exe (tocOffsetOf exe)) rs es := by
  have hlong : footerLen ≤ exe.length := by
    by_contra hshort
    rw [unpack, if_pos (not_le.mp hshort)] at h
    cases h
  rw [unpack_eq hlong] at h
  split at h
  · cases h
  split at h
  · cases h
  split at h
  · cases h
  rename_i htoc
  split at h
  · cases h
  split at h
  · cases h
  rename_i entries pos hread
  split at h
  · cases h
  rename_i hpos
  obtain rfl := Option.some.inj (Except.ok.inj h)
  obtain ⟨rs, hcount, hdrop, -, hopens⟩ := readEntries_some hread
  rw [List.drop_zero, not_not.mp hpos, List.drop_length, List.append_nil] at hdrop
  exact ⟨not_lt.mp htoc, rs, hcount, hdrop, hopens⟩

end Unpack

/-! ## Where an entry is written -/

def isSeparator (c : Char) : Bool := c = '/' || c = '\\'

/-- The components that `dir.join(name)` has below `dir`, if `name` starts with
neither a drive nor a separator. -/
def components (name : String) : List (List Char) :=
  (name.toList.splitOnP isSeparator).filter fun part => part ≠ [] && part ≠ ['.']

/-- No drive, no stream, and no way up or into another directory. -/
def Stays (name : String) : Prop :=
  ':' ∉ name.toList ∧ (∀ c ∈ name.toList, isSeparator c = false) ∧
    ∀ part ∈ components name, part = name.toList ∧ part ≠ ['.', '.']

theorem validateName_stays {debug : String → String} {name : String}
    (h : validateName debug name = .ok ()) : Stays name := by
  unfold validateName at h
  split at h
  · cases h
  split at h
  · cases h
  rename_i hfree
  simp only [Bool.or_eq_true, decide_eq_true_eq, not_or] at hfree
  obtain ⟨⟨⟨hslash, hback⟩, hdots⟩, hcolon⟩ := hfree
  have hsep : ∀ c ∈ name.toList, isSeparator c = false := by
    intro c hc
    have hne : c ≠ '/' := fun h => hslash (h ▸ hc)
    have hne' : c ≠ '\\' := fun h => hback (h ▸ hc)
    simp [isSeparator, hne, hne']
  refine ⟨hcolon, hsep, ?_⟩
  intro part hpart
  rw [components, List.splitOnP_eq_singleton hsep] at hpart
  obtain rfl := List.mem_singleton.mp (List.mem_of_mem_filter hpart)
  exact ⟨rfl, fun h => hdots (h ▸ List.infix_refl _)⟩

/-- On every file `unpack` runs without a panic and asks the allocator for no
more entries than the table has room for. The entries it returns are those of
the table, all of it, and each is what its record says. -/
theorem unpack_safe (sha : List UInt8 → Digest) (debug : String → String) (grants : ℕ → Bool)
    (exe : ByteSlice) :
    ∃ u, unpackChecked sha debug grants exe.val = some u ∧
      (∀ n ∈ u.reserved, n ≤ (tocOf exe.val).length / 51) ∧
      ∀ es, u.result = .ok (some es) →
        tocOffsetOf exe.val ≤ exe.val.length - footerLen ∧
        es.length = countOf exe.val ∧ u.reserved = some es.length ∧
        ∃ rs : List Raw, tocOf exe.val = rs.flatMap Raw.bytes ∧
          List.Forall₂ (fun r e => r.name = asBytes e.name ∧
            validateName debug e.name = .ok () ∧ Stays e.name ∧
            r.offset + r.len ≤ tocOffsetOf exe.val ∧
            e.data = slice exe.val r.offset (r.offset + r.len) ∧ sha e.data = r.hash) rs es := by
  obtain ⟨reserved, hrun, hroom, hnone⟩ := unpackChecked_eq sha debug grants exe.2
  refine ⟨_, hrun, fun n hn => (hroom n hn).2, ?_⟩
  intro es hes
  dsimp only at hes
  split at hes
  · obtain ⟨htoc, rs, hcount, hbytes, hopens⟩ := unpack_ok hes
    have hlength : es.length = countOf exe.val := hopens.length_eq ▸ hcount
    refine ⟨htoc, hlength, ?_, rs, hbytes, hopens.imp fun r e h => ?_⟩
    · rcases hres : reserved with _ | n
      · exact absurd hes (hnone hres es)
      · rw [hlength, (hroom n hres).1]
    · exact ⟨fromUtf8_iff.mp h.name, h.valid, validateName_stays h.valid, h.range, h.data, h.hash⟩
  · cases hes

-- A record whose data would end past `u64::MAX`.
example : ∃ u, unpackChecked (fun _ => ⟨List.replicate 32 0, by decide⟩) id (fun _ => true)
    (image [] [⟨[0x61], 2 ^ 64 - 1, 1, ⟨List.replicate 32 0, by decide⟩, by decide, by decide,
      by decide⟩] 1) = some u ∧ u.result = .error "payload entry a out of data range" :=
  ⟨_, rfl, rfl⟩

end GdutNet.Payload
