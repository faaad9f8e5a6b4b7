import GdutNet.Machine.Fallible
import GdutNet.Setup.Payload
import GdutNet.Stream.Sorting
import Mathlib.Data.String.Basic

/-!
# The packer

`packaging.rs`: the files of a directory and some extra files become the payload of one
executable. `read_dir` names them in any order; the file that is written depends on the
files alone, and it unpacks to them, sorted by name.
-/

namespace GdutNet.Payload

open Sorting Fallible

/-- An item of the directory. A name that is not UTF-8 is `none`. -/
structure DirItem where
  name : Option String
  isFile : Except String Bool
  data : Except String (List UInt8)

/-- A file given by its path. -/
structure Extra where
  name : Option String
  data : Except String (List UInt8)

section Pack

variable (sha : List UInt8 → Digest) (debug : String → String)

/-- One turn of the loop of `collect_dir`: directories are passed by. -/
def collectItem (item : Except String DirItem) : Except String (Option Entry) := do
  let item ← item
  if !(← item.isFile) then .ok none
  else
    match item.name with
    | none => .error "Non-UTF-8 file name"
    | some name => do
        validateName debug name
        let data ← item.data
        .ok (some ⟨name, data⟩)

def collectItems : List (Except String DirItem) → Except String (List Entry)
  | [] => .ok []
  | item :: items => do
      let entry ← collectItem debug item
      let entries ← collectItems items
      .ok (entry.toList ++ entries)

def collectDir (dir : Except String (List (Except String DirItem))) :
    Except String (List Entry) := do
  let items ← dir
  let entries ← collectItems debug items
  .ok (sortBy Entry.name entries)

/-- The loop of `pack_into_file` over the extra files. -/
def addExtras (entries : List Entry) : List Extra → Except String (List Entry)
  | [] => .ok entries
  | extra :: extras =>
      match extra.name with
      | none => .error "Non-UTF-8 extra file name"
      | some name => do
          validateName debug name
          if entries.any (fun e => e.name = name) then
            .error ("duplicate payload entry " ++ debug name)
          else do
            let data ← extra.data
            addExtras (entries ++ [⟨name, data⟩]) extras

/-- The bytes that `pack_into_file` writes. -/
def packIntoFile (setup : Except String (List UInt8)) (extras : List Extra)
    (dir : Except String (List (Except String DirItem))) : Except String (List UInt8) := do
  let setup ← setup
  let entries ← collectDir debug dir
  let entries ← addExtras debug entries extras
  pack sha debug setup ((sortBy Entry.name entries).map fun e => (e.name, e.data))

/-! ## What is packed -/

/-- The entry of an item, if it has one. -/
def entryOf (item : Except String DirItem) : Option Entry := (collectItem debug item).toOption.join

/-- The entry of an extra file, if it is accepted. -/
def extraEntry (extra : Extra) : Option Entry :=
  match extra.name, extra.data with
  | some name, .ok data =>
      match validateName debug name with
      | .ok _ => some ⟨name, data⟩
      | .error _ => none
  | _, _ => none

end Pack

variable {sha : List UInt8 → Digest} {debug : String → String}

theorem bind_isOk {α β : Type} {x : Except String α} {f : α → Except String β} {b : β} :
    (x >>= f) = .ok b ↔ ∃ a, x = .ok a ∧ f a = .ok b := by
  refine ⟨bind_ok, ?_⟩
  rintro ⟨a, rfl, h⟩
  exact h

theorem collectItems_ok {items : List (Except String DirItem)} {es : List Entry} :
    collectItems debug items = .ok es ↔
      (∀ item ∈ items, ∃ o, collectItem debug item = .ok o) ∧
        es = items.filterMap (entryOf debug) := by
  induction items generalizing es with
  | nil =>
      rw [collectItems, List.filterMap_nil, Except.ok.injEq, eq_comm]
      simp
  | cons item items ih =>
      rw [List.forall_mem_cons, collectItems, bind_isOk]
      constructor
      · rintro ⟨o, hitem, h⟩
        obtain ⟨rest, hrest, h⟩ := bind_isOk.mp h
        obtain ⟨hall, rfl⟩ := ih.mp hrest
        refine ⟨⟨⟨o, hitem⟩, hall⟩, ?_⟩
        have hentry : entryOf debug item = o := by rw [entryOf, hitem]; rfl
        rw [← Except.ok.inj h, List.filterMap_cons, hentry]
        cases o <;> rfl
      · rintro ⟨⟨⟨o, hitem⟩, hall⟩, rfl⟩
        refine ⟨o, hitem, bind_isOk.mpr ⟨_, ih.mpr ⟨hall, rfl⟩, ?_⟩⟩
        have hentry : entryOf debug item = o := by rw [entryOf, hitem]; rfl
        rw [List.filterMap_cons, hentry]
        cases o <;> rfl

theorem extraEntry_some {extra : Extra} {e : Entry} : extraEntry debug extra = some e ↔
    extra.name = some e.name ∧ validateName debug e.name = .ok () ∧ extra.data = .ok e.data := by
  obtain ⟨name, data⟩ := extra
  obtain ⟨ename, edata⟩ := e
  cases name with
  | none => simp [extraEntry]
  | some name =>
      cases data with
      | error err => simp [extraEntry]
      | ok data =>
          cases hvalid : validateName debug name with
          | error err =>
              simp only [extraEntry, hvalid, Option.some.injEq, Except.ok.injEq]
              constructor
              · intro h
                cases h
              · rintro ⟨rfl, h, -⟩
                rw [hvalid] at h
                cases h
          | ok _ =>
              simp only [extraEntry, hvalid, Option.some.injEq, Except.ok.injEq, Entry.mk.injEq]
              constructor
              · rintro ⟨rfl, rfl⟩
                exact ⟨rfl, hvalid, rfl⟩
              · rintro ⟨rfl, -, rfl⟩
                exact ⟨rfl, rfl⟩

/-- One turn of the loop over the extra files. -/
theorem addExtras_cons {entries : List Entry} {extra : Extra} {extras : List Extra}
    {es : List Entry} :
    addExtras debug entries (extra :: extras) = .ok es ↔
      ∃ e, extraEntry debug extra = some e ∧ (∀ a ∈ entries, a.name ≠ e.name) ∧
        addExtras debug (entries ++ [e]) extras = .ok es := by
  obtain ⟨name, data⟩ := extra
  rw [addExtras]
  cases name with
  | none => simp [extraEntry]
  | some name =>
      dsimp only
      rw [bind_isOk]
      constructor
      · rintro ⟨_, hvalid, h⟩
        split at h
        · cases h
        · rename_i hnew
          obtain ⟨bytes, hdata, h⟩ := bind_isOk.mp h
          refine ⟨⟨name, bytes⟩, extraEntry_some.mpr ⟨rfl, hvalid, hdata⟩, ?_, h⟩
          simpa using hnew
      · rintro ⟨⟨ename, bytes⟩, he, hnew, h⟩
        obtain ⟨hname, hvalid, hdata⟩ := extraEntry_some.mp he
        obtain rfl := Option.some.inj hname
        have hnot : ¬ entries.any (fun e => e.name = name) = true := by simpa using hnew
        refine ⟨(), hvalid, ?_⟩
        rw [if_neg hnot]
        exact bind_isOk.mpr ⟨bytes, hdata, h⟩

theorem addExtras_ok {entries : List Entry} {extras : List Extra} {es : List Entry} :
    addExtras debug entries extras = .ok es ↔
      (∀ extra ∈ extras, ∃ e, extraEntry debug extra = some e) ∧
      (extras.filterMap (extraEntry debug)).Pairwise (fun a b => a.name ≠ b.name) ∧
      (∀ b ∈ extras.filterMap (extraEntry debug), ∀ a ∈ entries, a.name ≠ b.name) ∧
        es = entries ++ extras.filterMap (extraEntry debug) := by
  induction extras generalizing entries with
  | nil =>
      rw [addExtras, Except.ok.injEq, eq_comm]
      simp
  | cons extra extras ih =>
      rw [addExtras_cons, List.forall_mem_cons]
      constructor
      · rintro ⟨e, he, hnew, h⟩
        obtain ⟨hall, hpair, hapart, rfl⟩ := ih.mp h
        rw [List.filterMap_cons_some he, List.pairwise_cons, List.forall_mem_cons]
        refine ⟨⟨⟨e, he⟩, hall⟩, ⟨fun b hb => hapart b hb e (by simp), hpair⟩,
          ⟨hnew, fun b hb a ha => hapart b hb a (List.mem_append_left _ ha)⟩, ?_⟩
        rw [List.append_assoc, List.singleton_append]
      · rintro ⟨⟨⟨e, he⟩, hall⟩, hpair, hapart, hes⟩
        rw [List.filterMap_cons_some he, List.pairwise_cons] at hpair
        rw [List.filterMap_cons_some he, List.forall_mem_cons] at hapart
        rw [List.filterMap_cons_some he] at hes
        refine ⟨e, he, hapart.1, ih.mpr ⟨hall, hpair.2, ?_, ?_⟩⟩
        · intro b hb a ha
          rcases List.mem_append.mp ha with ha | ha
          · exact hapart.2 b hb a ha
          · rw [List.mem_singleton.mp ha]
            exact hpair.1 b hb
        · rw [hes, List.append_assoc, List.singleton_append]

/-- The files that are packed, in the order they are found in. -/
def packed (debug : String → String) (extras : List Extra)
    (items : List (Except String DirItem)) : List Entry :=
  items.filterMap (entryOf debug) ++ extras.filterMap (extraEntry debug)

/-- Sorting twice, as the packer does, is sorting once. -/
theorem sortBy_packed {extras : List Extra} {items : List (Except String DirItem)}
    (h : ((packed debug extras items).map Entry.name).Nodup) :
    sortBy Entry.name (sortBy Entry.name (items.filterMap (entryOf debug)) ++
      extras.filterMap (extraEntry debug)) = sortBy Entry.name (packed debug extras items) :=
  (sortBy_congr h (sortBy_perm.symm.append_right _)).symm

theorem names_sorted {es : List Entry} :
    (((sortBy Entry.name es).map fun e => (e.name, e.data)).map Prod.fst).Nodup ↔
      (es.map Entry.name).Nodup := by
  rw [List.map_map]
  exact (sortBy_perm.map Entry.name).nodup_iff

theorem packIntoFile_ok {setup : Except String (List UInt8)} {extras : List Extra}
    {items : List (Except String DirItem)} {p : List UInt8} :
    packIntoFile sha debug setup extras (.ok items) = .ok p ↔
      (∀ item ∈ items, ∃ o, collectItem debug item = .ok o) ∧
      (∀ extra ∈ extras, ∃ e, extraEntry debug extra = some e) ∧
      ((packed debug extras items).map Entry.name).Nodup ∧
      ∃ bytes, setup = .ok bytes ∧
        pack sha debug bytes ((sortBy Entry.name (packed debug extras items)).map
          fun e => (e.name, e.data)) = .ok p := by
  have hcollect {es : List Entry} : collectDir debug (.ok items) = .ok es ↔
      (∀ item ∈ items, ∃ o, collectItem debug item = .ok o) ∧
        es = sortBy Entry.name (items.filterMap (entryOf debug)) := by
    have hrun : collectDir debug (.ok items) =
        collectItems debug items >>= fun entries => .ok (sortBy Entry.name entries) := rfl
    rw [hrun, bind_isOk]
    constructor
    · rintro ⟨entries, hentries, h⟩
      obtain ⟨hall, rfl⟩ := collectItems_ok.mp hentries
      exact ⟨hall, (Except.ok.inj h).symm⟩
    · rintro ⟨hall, rfl⟩
      exact ⟨_, collectItems_ok.mpr ⟨hall, rfl⟩, rfl⟩
  rw [packIntoFile, bind_isOk]
  constructor
  · rintro ⟨bytes, hsetup, h⟩
    obtain ⟨files, hfiles, h⟩ := bind_isOk.mp h
    obtain ⟨entries, hentries, h⟩ := bind_isOk.mp h
    obtain ⟨hitems, rfl⟩ := hcollect.mp hfiles
    obtain ⟨hextras, -, -, rfl⟩ := addExtras_ok.mp hentries
    have hnodup : ((packed debug extras items).map Entry.name).Nodup := by
      have hnames := names_sorted.mp (pack_isOk.mp ⟨p, h⟩).2
      exact ((sortBy_perm.append_right _).map Entry.name).nodup_iff.mp hnames
    rw [sortBy_packed hnodup] at h
    exact ⟨hitems, hextras, hnodup, bytes, hsetup, h⟩
  · rintro ⟨hitems, hextras, hnodup, bytes, hsetup, h⟩
    refine ⟨bytes, hsetup, bind_isOk.mpr ⟨_, hcollect.mpr ⟨hitems, rfl⟩, bind_isOk.mpr
      ⟨_, addExtras_ok.mpr ⟨hextras, ?_, ?_, rfl⟩, ?_⟩⟩⟩
    · rw [packed, List.map_append] at hnodup
      exact List.pairwise_map.mp hnodup.of_append_right
    · intro b hb a ha hname
      rw [packed, List.map_append] at hnodup
      refine List.disjoint_of_nodup_append hnodup (List.mem_map_of_mem (mem_sortBy.mp ha)) ?_
      rw [hname]
      exact List.mem_map_of_mem hb
    · rwa [sortBy_packed hnodup]

/-- A packed file starts with the setup image and unpacks to what was packed. -/
theorem unpack_of_pack {setup p : List UInt8} {es : List (String × List UInt8)}
    (h : pack sha debug setup es = .ok p) (hlen : p.length < 2 ^ 64)
    (hcount : es.length < 2 ^ 32) :
    p.take setup.length = setup ∧
      unpack sha debug p = .ok (some (es.map fun x => ⟨x.1, x.2⟩)) := by
  obtain ⟨rs, hlaid, rfl, hvalid⟩ := pack_ok h hlen
  have himage : image (setup ++ es.flatMap Prod.snd) rs es.length =
      setup ++ (es.flatMap Prod.snd ++ (rs.flatMap Raw.bytes ++
        footer es.length (setup ++ es.flatMap Prod.snd).length)) := by
    rw [image, List.append_assoc]
  constructor
  · rw [himage, List.take_left]
  · rw [← hlaid.length] at hcount himage hlen ⊢
    have hdrop := congrArg (List.drop setup.length) himage
    rw [List.drop_left] at hdrop
    refine unpack_image hcount ?_ (hlaid.opens hvalid hdrop ?_)
    · rw [image, List.length_append] at hlen
      omega
    · rw [List.length_append]

theorem packed_perm {extras extras' : List Extra} {items items' : List (Except String DirItem)}
    (hextras : extras.Perm extras') (hitems : items.Perm items') :
    (packed debug extras items).Perm (packed debug extras' items') :=
  (hitems.filterMap _).append (hextras.filterMap _)

theorem packIntoFile_perm {setup : Except String (List UInt8)} {extras extras' : List Extra}
    {items items' : List (Except String DirItem)} (hextras : extras.Perm extras')
    (hitems : items.Perm items') {p : List UInt8}
    (h : packIntoFile sha debug setup extras (.ok items) = .ok p) :
    packIntoFile sha debug setup extras' (.ok items') = .ok p := by
  obtain ⟨hall, hextra, hnodup, bytes, hsetup, hpack⟩ := packIntoFile_ok.mp h
  have hperm : (packed debug extras items).Perm (packed debug extras' items') :=
    packed_perm hextras hitems
  refine packIntoFile_ok.mpr ⟨fun item hitem => hall item (hitems.mem_iff.mpr hitem),
    fun extra he => hextra extra (hextras.mem_iff.mpr he),
    (hperm.map Entry.name).nodup_iff.mp hnodup, bytes, hsetup, ?_⟩
  rwa [← sortBy_congr hnodup hperm]

/-- **Packing is reproducible.** The order of the directory and of the extra files decides
neither whether the packer succeeds nor what it writes. What it writes starts with the
setup image and unpacks to the files, each once, in the order of their names. -/
theorem pack_reproducible (sha : List UInt8 → Digest) (debug : String → String)
    (setup : Except String (List UInt8)) {extras extras' : List Extra}
    {items items' : List (Except String DirItem)} (hextras : extras.Perm extras')
    (hitems : items.Perm items') :
    (packIntoFile sha debug setup extras (.ok items)).toOption =
      (packIntoFile sha debug setup extras' (.ok items')).toOption ∧
    ∀ bytes p, setup = .ok bytes → packIntoFile sha debug setup extras (.ok items) = .ok p →
      p.length < 2 ^ 64 → items.length + extras.length < 2 ^ 32 →
      p.take bytes.length = bytes ∧
      ∃ es, unpack sha debug p = .ok (some es) ∧ es.Perm (packed debug extras items) ∧
        es.Pairwise (fun a b => a.name < b.name) := by
  constructor
  · cases hrun : packIntoFile sha debug setup extras (.ok items) with
    | ok p => rw [packIntoFile_perm hextras hitems hrun]
    | error e =>
        cases hrun' : packIntoFile sha debug setup extras' (.ok items') with
        | ok p =>
            rw [packIntoFile_perm hextras.symm hitems.symm hrun'] at hrun
            cases hrun
        | error e' => rfl
  · intro bytes p hsetup hrun hlen hcount
    obtain ⟨-, -, hnodup, bytes', hsetup', hpack⟩ := packIntoFile_ok.mp hrun
    obtain rfl : bytes = bytes' := Except.ok.inj (hsetup.symm.trans hsetup')
    have hfew : ((sortBy Entry.name (packed debug extras items)).map
        fun e => (e.name, e.data)).length < 2 ^ 32 := by
      rw [List.length_map, sortBy_perm.length_eq, packed, List.length_append]
      have hfiles := List.length_filterMap_le (entryOf debug) items
      have hmore := List.length_filterMap_le (extraEntry debug) extras
      omega
    obtain ⟨hfront, hunpack⟩ := unpack_of_pack hpack hlen hfew
    refine ⟨hfront, sortBy Entry.name (packed debug extras items), ?_, sortBy_perm,
      sortBy_strict hnodup⟩
    have hsame : ((sortBy Entry.name (packed debug extras items)).map
        fun e => (e.name, e.data)).map (fun x => (⟨x.1, x.2⟩ : Entry)) =
          sortBy Entry.name (packed debug extras items) := by
      rw [List.map_map]
      exact List.map_id _
    rw [hunpack, hsame]

/-- Two files of a directory. -/
def twoItems : List (Except String DirItem) :=
  [.ok ⟨some "b", .ok true, .ok [2]⟩, .ok ⟨some "sub", .ok false, .ok []⟩,
    .ok ⟨some "a", .ok true, .ok [1]⟩]

/-- A digest of 32 bytes. -/
def sevens (_ : List UInt8) : Digest := ⟨List.replicate 32 7, by decide⟩

theorem pack_reproducible_reversed :
    (packIntoFile sevens id (.ok [0x4d, 0x5a]) [⟨some "c", .ok [3]⟩] (.ok twoItems)).toOption =
      (packIntoFile sevens id (.ok [0x4d, 0x5a]) [⟨some "c", .ok [3]⟩]
        (.ok twoItems.reverse)).toOption :=
  (pack_reproducible sevens id (.ok [0x4d, 0x5a]) (List.Perm.refl [⟨some "c", .ok [3]⟩])
    twoItems.reverse_perm.symm).1

end GdutNet.Payload
