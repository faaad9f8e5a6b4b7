import GdutNet.Stream.Query
import GdutNet.Wireless.Billing

/-!
# The portal's URLs

`build_login_url` and `build_operator_url` put strings of the configuration and
of the user into a query; `parse_url` takes the result apart again. What the
server reads are the strings that were put in, and what the parser sees in front
of the path is what it saw in the configured URL.
-/

namespace GdutNet

/-- `redact_query`: the whole query is hidden. -/
def redactQuery (url : String) : String :=
  match splitOnce ['?'] url.toList with
  | some (head, _) => String.ofList head ++ "?***"
  | none => url

/-- The part after the first `?`. -/
def queryOf (url : String) : List Char := (Query.cut '?' url.toList).2

/-- Nothing that ends a request line, starts a fragment or is not ASCII. -/
def CleanQuery (query : List Char) : Prop :=
  ∀ c ∈ query, c.toNat < 0x80 ∧ c ≠ ' ' ∧ c ≠ '\r' ∧ c ≠ '\n' ∧ c ≠ '#'

/-- Field names and values as UTF-8 bytes. -/
def asBytes (fields : List (String × String)) : List (List UInt8 × List UInt8) :=
  fields.map fun f => (Json.utf8 f.1, Json.utf8 f.2)

def loginFields (user pass : String) (ip : Ipv4Addr) (acIp : String) : List (String × String) :=
  [("callback", "dr1004"), ("login_method", "1"), ("user_account", user),
    ("user_password", pass), ("wlan_user_ip", ip.toText), ("wlan_user_ipv6", ""),
    ("wlan_user_mac", "000000000000"), ("wlan_ac_ip", acIp), ("wlan_ac_name", ""),
    ("jsVersion", "4.1.3"), ("terminal_type", "2"), ("lang", "zh-cn"), ("v", "2041")]

def operatorFields (user : String) (confirm : Bool) : List (String × String) :=
  [("callback", "dr1003"), ("account", user), ("r", if confirm then "1" else "0"),
    ("jsVersion", "4.1.3"), ("lang", "en")]

/-! ## Percent-encoding -/

theorem unreserved_bounds {b : UInt8} (h : unreserved b = true) :
    b.toNat < 0x80 ∧ b.toNat ≠ '%'.toNat ∧ b.toNat ≠ '&'.toNat ∧ 0x23 < b.toNat := by
  simp only [unreserved, Bool.or_eq_true, Bool.and_eq_true, decide_eq_true_eq,
    UInt8.le_iff_toNat_le, ← UInt8.toNat_inj] at h
  have hb : b.toNat < 256 := b.toNat_lt
  simp at h ⊢
  omega

theorem hexUpper_value : ∀ n < 16, Query.hexValue (hexUpper n) = some n := by decide

theorem hexUpper_bounds : ∀ n < 16, (hexUpper n).toNat < 0x80 ∧ hexUpper n ≠ '&' ∧
    0x23 < (hexUpper n).toNat := by decide

/-- What one byte of a value is written as. -/
def encodeByte (b : UInt8) : List Char :=
  if unreserved b then [Char.ofNat b.toNat]
  else ['%', hexUpper (b.toNat / 16), hexUpper (b.toNat % 16)]

theorem toList_urlencode (s : String) : (urlencode s).toList = (Json.utf8 s).flatMap encodeByte :=
  String.toList_ofList

theorem percentDecode_encodeByte (b : UInt8) (cs : List Char) :
    Query.percentDecode (encodeByte b ++ cs) = b :: Query.percentDecode cs := by
  have hb : b.toNat < 256 := b.toNat_lt
  unfold encodeByte
  split
  · rename_i hplain
    obtain ⟨hascii, hpercent, -⟩ := unreserved_bounds hplain
    have hnat := toNat_ofNat (n := b.toNat) (.inl (by omega))
    have hne : Char.ofNat b.toNat ≠ '%' := by
      intro heq
      rw [heq] at hnat
      exact hpercent hnat.symm
    rw [List.singleton_append, Query.percentDecode_cons hne, Query.utf8EncodeChar_ascii (by omega),
      hnat, UInt8.ofNat_toNat]
    rfl
  · rw [List.cons_append, List.cons_append, List.singleton_append,
      Query.percentDecode_hex (hexUpper_value _ (by omega)) (hexUpper_value _ (by omega))]
    congr 1
    rw [Nat.div_add_mod, UInt8.ofNat_toNat]

/-- **An encoded value decodes to its UTF-8 bytes.** -/
theorem percentDecode_urlencode (s : String) :
    Query.percentDecode (urlencode s).toList = Json.utf8 s := by
  rw [toList_urlencode]
  induction Json.utf8 s with
  | nil => rfl
  | cons b bs ih => rw [List.flatMap_cons, percentDecode_encodeByte, ih]

/-- ASCII, printable, and neither a fragment nor a field separator. -/
def FieldChar (c : Char) : Prop := c.toNat < 0x80 ∧ c ≠ '&' ∧ 0x23 < c.toNat

instance (c : Char) : Decidable (FieldChar c) := inferInstanceAs (Decidable (_ ∧ _ ∧ _))

/-- No character of an encoded value separates fields or ends a line. -/
theorem urlencode_fieldChar {s : String} {c : Char} (h : c ∈ (urlencode s).toList) :
    FieldChar c := by
  rw [toList_urlencode] at h
  obtain ⟨b, -, hc⟩ := List.mem_flatMap.mp h
  have hb : b.toNat < 256 := b.toNat_lt
  unfold encodeByte at hc
  split at hc
  · rename_i hplain
    obtain ⟨hascii, -, hand, hlow⟩ := unreserved_bounds hplain
    have hnat := toNat_ofNat (n := b.toNat) (.inl (by omega))
    rw [List.mem_singleton.mp hc]
    refine ⟨by omega, ?_, by omega⟩
    intro heq
    rw [heq] at hnat
    exact hand hnat.symm
  · rcases List.mem_cons.mp hc with rfl | hc
    · decide
    · rcases List.mem_cons.mp hc with rfl | hc
      · exact hexUpper_bounds _ (by omega)
      · rw [List.mem_singleton.mp hc]
        exact hexUpper_bounds _ (by omega)

/-- A dotted address needs no encoding. -/
theorem toText_bounds {ip : Ipv4Addr} {c : Char} (h : c ∈ ip.toText.toList) :
    c.isDigit = true ∨ c = '.' := by
  have hoctet (n : UInt8) : ∀ d ∈ (toString n).toList, d.isDigit = true :=
    fun d hd => Json.isDigit_of_mem_toString (n := n.toNat) hd
  unfold Ipv4Addr.toText at h
  simp only [String.toList_append, List.mem_append] at h
  rcases h with (((((h | h) | h) | h) | h) | h) | h
  · exact .inl (hoctet _ c h)
  · exact .inr (List.mem_singleton.mp h)
  · exact .inl (hoctet _ c h)
  · exact .inr (List.mem_singleton.mp h)
  · exact .inl (hoctet _ c h)
  · exact .inr (List.mem_singleton.mp h)
  · exact .inl (hoctet _ c h)

/-! ## The fields -/

/-- A field as it is written, and what its value means. -/
structure Field where
  name : String
  value : List Char
  meant : String
  name_plain : ∀ c ∈ name.toList, FieldChar c ∧ c ≠ '%' ∧ c ≠ '='
  value_plain : ∀ c ∈ value, FieldChar c
  decodes : Query.percentDecode value = Json.utf8 meant

namespace Field

def written (f : Field) : List Char × List Char := (f.name.toList, f.value)

def meaning (f : Field) : String × String := (f.name, f.meant)

theorem percentDecode_name (f : Field) : Query.percentDecode f.name.toList = Json.utf8 f.name :=
  Query.percentDecode_plain fun h => (f.name_plain _ h).2.1 rfl

theorem written_plain (f : Field) : Query.Plain f.written :=
  ⟨fun h => (f.name_plain _ h).1.2.1 rfl, fun h => (f.name_plain _ h).2.2 rfl,
    fun h => (f.value_plain _ h).2.1 rfl⟩

/-- A value that stands for itself. -/
def literal (name meant : String)
    (hname : ∀ c ∈ name.toList, FieldChar c ∧ c ≠ '%' ∧ c ≠ '=')
    (hmeant : ∀ c ∈ meant.toList, FieldChar c ∧ c ≠ '%') : Field where
  name
  value := meant.toList
  meant
  name_plain := hname
  value_plain c hc := (hmeant c hc).1
  decodes := Query.percentDecode_plain fun h => (hmeant _ h).2 rfl

def encoded (name meant : String)
    (hname : ∀ c ∈ name.toList, FieldChar c ∧ c ≠ '%' ∧ c ≠ '=') : Field where
  name
  value := (urlencode meant).toList
  meant
  name_plain := hname
  value_plain _ hc := urlencode_fieldChar hc
  decodes := percentDecode_urlencode meant

end Field

theorem toText_plain (ip : Ipv4Addr) : ∀ c ∈ ip.toText.toList, FieldChar c ∧ c ≠ '%' := by
  intro c hc
  rcases toText_bounds hc with hdigit | rfl
  · simp only [Char.isDigit, Bool.and_eq_true, decide_eq_true_eq] at hdigit
    have hlo : 48 ≤ c.toNat := hdigit.1
    have hhi : c.toNat ≤ 57 := hdigit.2
    refine ⟨⟨by omega, ?_, by omega⟩, ?_⟩
    · rintro rfl
      exact absurd hlo (by decide)
    · rintro rfl
      exact absurd hlo (by decide)
  · decide

/-- **A form is read as it was meant.** -/
theorem fields_join {form : List Field} (hne : form ≠ []) :
    Query.fields (Query.join (form.map Field.written)) = asBytes (form.map Field.meaning) := by
  rw [Query.fields_join (by simpa using hne)]
  · simp only [asBytes, List.map_map]
    refine List.map_congr_left fun f _ => ?_
    exact Prod.ext f.percentDecode_name f.decodes
  · intro p hp
    obtain ⟨f, -, rfl⟩ := List.mem_map.mp hp
    exact f.written_plain

theorem FieldChar.clean {c : Char} (h : FieldChar c) :
    c.toNat < 0x80 ∧ c ≠ ' ' ∧ c ≠ '\r' ∧ c ≠ '\n' ∧ c ≠ '#' := by
  obtain ⟨hascii, -, hlow⟩ := h
  refine ⟨hascii, ?_, ?_, ?_, ?_⟩
  · rintro rfl
    exact absurd hlow (by decide)
  · rintro rfl
    exact absurd hlow (by decide)
  · rintro rfl
    exact absurd hlow (by decide)
  · rintro rfl
    exact absurd hlow (by decide)

theorem join_clean (form : List Field) : CleanQuery (Query.join (form.map Field.written)) := by
  intro c hc
  rcases Query.mem_join hc with rfl | rfl | ⟨p, hp, hmem⟩
  · decide
  · decide
  · obtain ⟨f, -, rfl⟩ := List.mem_map.mp hp
    rcases hmem with hmem | hmem
    · exact (f.name_plain c hmem).1.clean
    · exact (f.value_plain c hmem).clean

/-! ## The two forms -/

def loginForm (user pass : String) (ip : Ipv4Addr) (acIp : String) : List Field :=
  [.literal "callback" "dr1004" (forall_mem_of_all (by decide)) (forall_mem_of_all (by decide)),
    .literal "login_method" "1" (forall_mem_of_all (by decide)) (forall_mem_of_all (by decide)),
    .encoded "user_account" user (forall_mem_of_all (by decide)),
    .encoded "user_password" pass (forall_mem_of_all (by decide)),
    .literal "wlan_user_ip" ip.toText (forall_mem_of_all (by decide)) (toText_plain ip),
    .literal "wlan_user_ipv6" "" (forall_mem_of_all (by decide)) (forall_mem_of_all (by decide)),
    .literal "wlan_user_mac" "000000000000" (forall_mem_of_all (by decide))
      (forall_mem_of_all (by decide)),
    .encoded "wlan_ac_ip" acIp (forall_mem_of_all (by decide)),
    .literal "wlan_ac_name" "" (forall_mem_of_all (by decide)) (forall_mem_of_all (by decide)),
    .literal "jsVersion" "4.1.3" (forall_mem_of_all (by decide)) (forall_mem_of_all (by decide)),
    .literal "terminal_type" "2" (forall_mem_of_all (by decide)) (forall_mem_of_all (by decide)),
    .literal "lang" "zh-cn" (forall_mem_of_all (by decide)) (forall_mem_of_all (by decide)),
    .literal "v" "2041" (forall_mem_of_all (by decide)) (forall_mem_of_all (by decide))]

def operatorForm (user : String) (confirm : Bool) : List Field :=
  [.literal "callback" "dr1003" (forall_mem_of_all (by decide)) (forall_mem_of_all (by decide)),
    .encoded "account" user (forall_mem_of_all (by decide)),
    .literal "r" (if confirm then "1" else "0") (forall_mem_of_all (by decide))
      (forall_mem_of_all (by revert confirm; decide)),
    .literal "jsVersion" "4.1.3" (forall_mem_of_all (by decide)) (forall_mem_of_all (by decide)),
    .literal "lang" "en" (forall_mem_of_all (by decide)) (forall_mem_of_all (by decide))]

theorem loginForm_meaning (user pass : String) (ip : Ipv4Addr) (acIp : String) :
    (loginForm user pass ip acIp).map Field.meaning = loginFields user pass ip acIp := rfl

theorem operatorForm_meaning (user : String) (confirm : Bool) :
    (operatorForm user confirm).map Field.meaning = operatorFields user confirm := rfl

theorem toList_buildLoginUrl (base user pass : String) (ip : Ipv4Addr) (acIp : String) :
    (buildLoginUrl base user pass ip acIp).toList =
      base.toList ++ '?' :: Query.join ((loginForm user pass ip acIp).map Field.written) := by
  simp [buildLoginUrl, loginForm, Query.join, Field.written, Field.literal, Field.encoded]

theorem toList_operatorUrl (parent user : String) (confirm : Bool) :
    (operatorUrl parent user confirm).toList = parent.toList ++ "/custom/operator".toList ++
      '?' :: Query.join ((operatorForm user confirm).map Field.written) := by
  cases confirm <;>
    simp [operatorUrl, operatorForm, Query.join, Field.written, Field.literal, Field.encoded]

/-! ## The parser's view -/

theorem prefix_http (rest : List Char) :
    "http://".toList.isPrefixOf? ("http://".toList ++ rest) = some rest := by
  rw [List.isPrefixOf?_eq_some_iff_append_eq]

theorem takeWhile_slash {hostport : List Char} (h : '/' ∉ hostport) (path : List Char) :
    (hostport ++ '/' :: path).takeWhile (· ≠ '/') = hostport ∧
      (hostport ++ '/' :: path).dropWhile (· ≠ '/') = '/' :: path := by
  have hne : ∀ c ∈ hostport, decide (c ≠ '/') = true := by
    intro c hc
    exact decide_eq_true (fun heq => h (heq ▸ hc))
  rw [List.takeWhile_append_of_pos hne, List.dropWhile_append_of_pos hne]
  simp

/-- What `parse_url` makes of the part in front of the path. -/
def hostPort (hostport : List Char) : Option (List Char × ℕ) :=
  match rsplitOnce ':' hostport with
  | some (h, p) => (parseU16 p).map (h, ·)
  | none => some (hostport, 80)

theorem parseUrl_eq {url : String} {rest : List Char}
    (hurl : url.toList = "http://".toList ++ rest) :
    parseUrl url =
      if (rest.takeWhile (· ≠ '/')).isEmpty then none
      else (hostPort (rest.takeWhile (· ≠ '/'))).bind fun x =>
        if x.1.isEmpty then none
        else some ⟨x.1, x.2, if '/' ∈ rest then rest.dropWhile (· ≠ '/') else ['/'],
          rest.takeWhile (· ≠ '/')⟩ := by
  unfold parseUrl hostPort
  rw [hurl, prefix_http]
  simp only [Option.bind_eq_bind, Option.bind_some]
  by_cases hempty : (rest.takeWhile (· ≠ '/')).isEmpty = true
  · simp only [if_pos hempty, Option.bind_none]
  · simp only [if_neg hempty]
    cases rsplitOnce ':' (rest.takeWhile (· ≠ '/')) with
    | some x =>
        dsimp only
        cases parseU16 x.2 with
        | none => rfl
        | some n => rfl
    | none =>
        dsimp only
        rw [Option.bind_some, if_neg hempty]

theorem parseUrl_slash {url : String} {hostport path : List Char} (h : '/' ∉ hostport)
    (hurl : url.toList = "http://".toList ++ (hostport ++ '/' :: path)) :
    parseUrl url =
      if hostport.isEmpty then none
      else (hostPort hostport).bind fun x =>
        if x.1.isEmpty then none else some ⟨x.1, x.2, '/' :: path, hostport⟩ := by
  rw [parseUrl_eq hurl, (takeWhile_slash h path).1, (takeWhile_slash h path).2,
    if_pos (show '/' ∈ hostport ++ '/' :: path by simp)]

/-- Host, port and header do not depend on the path. -/
theorem parseUrl_path {url url' : String} {hostport path path' : List Char}
    (h : '/' ∉ hostport)
    (hurl : url.toList = "http://".toList ++ (hostport ++ '/' :: path))
    (hurl' : url'.toList = "http://".toList ++ (hostport ++ '/' :: path'))
    {t : Target} (ht : parseUrl url = some t) :
    parseUrl url' = some { t with path := '/' :: path' } ∧ t.path = '/' :: path := by
  rw [parseUrl_slash h hurl] at ht
  rw [parseUrl_slash h hurl']
  split at ht
  · cases ht
  · rename_i hne
    obtain ⟨x, hx, ht⟩ := Option.bind_eq_some_iff.mp ht
    rw [if_neg hne, hx, Option.bind_some]
    split at ht
    · cases ht
    · rename_i hhost
      obtain rfl := Option.some.inj ht
      rw [if_neg hhost]
      exact ⟨rfl, rfl⟩

theorem parseU16_digits {p : List Char} {n : ℕ} (h : parseU16 p = some n) {c : Char} (hc : c ∈ p) :
    c = '+' ∨ c.isDigit = true := by
  have hall (digits : List Char) (h : (if digits.isEmpty || !digits.all Char.isDigit then none
      else if 65535 < decimal digits then none else some (decimal digits)) = some n) :
      ∀ d ∈ digits, d.isDigit = true := by
    split at h
    · cases h
    · rename_i hok
      simp only [Bool.or_eq_true, not_or, Bool.not_eq_true', Bool.not_eq_false] at hok
      exact List.all_eq_true.mp hok.2
  unfold parseU16 parseUnsigned at h
  dsimp only at h
  split at h
  · rename_i rest
    rcases List.mem_cons.mp hc with hplus | hrest
    · exact .inl hplus
    · exact .inr (hall rest h c hrest)
  · exact .inr (hall p h c hc)

/-- An address and a port do not end in a letter. -/
theorem hostPort_last {cs : List Char} {c : Char} (hdigit : c.isDigit = false)
    (hc : c ≠ '.' ∧ c ≠ ':' ∧ c ≠ '+') {host : List Char} {port : ℕ}
    (hparse : hostPort (cs ++ [c]) = some (host, port)) (ip : Ipv4Addr) :
    parseIpv4 host ≠ some ip := by
  intro hip
  unfold hostPort at hparse
  split at hparse
  · rename_i h' p hsplit
    obtain ⟨n, hn, -⟩ := Option.map_eq_some_iff.mp hparse
    have hmem : c ∈ p := by
      unfold rsplitOnce at hsplit
      split at hsplit
      · rw [Option.some.injEq, Prod.mk.injEq, List.reverse_append] at hsplit
        rw [← hsplit.2]
        simp [hc.2.1]
      · cases hsplit
    rcases parseU16_digits hn hmem with hplus | hd
    · exact hc.2.2 hplus
    · rw [hdigit] at hd
      cases hd
  · cases hparse
    rcases mem_parseIpv4 hip (List.mem_append_right cs (List.mem_singleton_self c)) with hdot | hd
    · exact hc.1 hdot
    · rw [hdigit] at hd
      cases hd

/-- An accepted base that ends in `/login` has a path. -/
theorem slash_mem {base : String} {t : Target} {ip : Ipv4Addr} {rest : List Char}
    (ht : parseUrl base = some t) (hip : parseIpv4 t.host = some ip)
    (hlogin : "/login".toList <:+ base.toList)
    (hbase : base.toList = "http://".toList ++ rest) : '/' ∈ rest := by
  by_contra hno
  have hall : rest.takeWhile (· ≠ '/') = rest := by
    rw [List.takeWhile_eq_self_iff]
    intro c hc
    exact decide_eq_true (fun heq => hno (heq ▸ hc))
  rw [parseUrl_eq hbase, hall] at ht
  split at ht
  · cases ht
  · rename_i hne
    obtain ⟨x, hx, ht⟩ := Option.bind_eq_some_iff.mp ht
    split at ht
    · cases ht
    · obtain rfl := Option.some.inj ht
      rcases List.eq_nil_or_concat rest with rfl | ⟨cs, c, rfl⟩
      · exact hne rfl
      · rw [List.concat_eq_append] at hx hbase
        obtain ⟨pre, hpre⟩ := hlogin
        have hend : (pre ++ "/logi".toList) ++ ['n'] = ("http://".toList ++ cs) ++ [c] := by
          rw [List.append_assoc, List.append_assoc, ← hbase, ← hpre]
          rfl
        obtain rfl : 'n' = c := (List.append_singleton_inj.mp hend).2
        exact hostPort_last (by decide) (by decide) hx ip hip

/-- **The shape of an accepted base that ends in `/login`.** -/
theorem base_shape {base : String} {t : Target} {ip : Ipv4Addr} (ht : parseUrl base = some t)
    (hip : parseIpv4 t.host = some ip) (hlogin : "/login".toList <:+ base.toList) :
    ∃ hostport dir path, '/' ∉ hostport ∧ '/' :: path = dir ++ "/login".toList ∧
      base.toList = "http://".toList ++ (hostport ++ '/' :: path) := by
  obtain ⟨rest, hrest⟩ : ∃ rest, base.toList = "http://".toList ++ rest := by
    unfold parseUrl at ht
    obtain ⟨rest, hrest, -⟩ := Option.bind_eq_some_iff.mp ht
    exact ⟨rest, (List.isPrefixOf?_eq_some_iff_append_eq.mp hrest).symm⟩
  obtain ⟨hostport, path, rfl, hslash⟩ :=
    List.eq_append_cons_of_mem (slash_mem ht hip hlogin hrest)
  have hpath : '/' :: path <:+ base.toList := by
    rw [hrest, ← List.append_assoc]
    exact List.suffix_append _ _
  have hends : "/login".toList <:+ '/' :: path := by
    rcases List.suffix_or_suffix_of_suffix hlogin hpath with h | h
    · exact h
    · -- a shorter path would be a part of `/login` that starts with a slash
      change '/' :: path <:+ ['/', 'l', 'o', 'g', 'i', 'n'] at h
      have hwhole : '/' :: path = "/login".toList := by
        obtain ⟨pre, hpre⟩ := h
        cases pre with
        | nil => exact hpre
        | cons c pre =>
            have hmem : '/' ∈ ['l', 'o', 'g', 'i', 'n'] := by
              rw [← (List.cons.inj hpre).2]
              exact List.mem_append_right pre List.mem_cons_self
            exact absurd hmem (by decide)
      exact ⟨[], hwhole.symm⟩
  obtain ⟨dir, hdir⟩ := hends
  exact ⟨hostport, dir, path, hslash, hdir.symm, hrest⟩

theorem splitOnce_append {sep : Char} {xs : List Char} (h : sep ∉ xs) (ys : List Char) :
    splitOnce [sep] (xs ++ sep :: ys) = some (xs, ys) := by
  induction xs with
  | nil => simp [splitOnce, List.isPrefixOf?]
  | cons c cs ih =>
      rw [List.mem_cons, not_or] at h
      have hno : [sep].isPrefixOf? (c :: (cs ++ sep :: ys)) = none := by
        simp [List.isPrefixOf?, h.1]
      rw [List.cons_append, splitOnce, hno, ih h.2]
      rfl

theorem queryOf_eq {url : String} {head query : List Char} (h : '?' ∉ head)
    (hurl : url.toList = head ++ '?' :: query) : queryOf url = query := by
  rw [queryOf, hurl, Query.cut_append h]

/-- **The portal's URLs keep their origin, and a server reads from them what was put
in.** The strings of the user and of the configuration reach their own field and
nothing else, and the part of the login URL that may be logged does not know them. -/
theorem portal_urls_sound (base text : String) (addr : Ipv4Addr)
    (hbase : parseHttpProbeTarget base = some (addr, text))
    (hlogin : "/login".toList <:+ base.toList) (hquery : '?' ∉ base.toList) :
    ∃ t, parseUrl base = some t ∧
    (∀ user pass ip acIp,
      parseUrl (buildLoginUrl base user pass ip acIp) = some { t with
        path := t.path ++ '?' :: queryOf (buildLoginUrl base user pass ip acIp) } ∧
      Query.fields (queryOf (buildLoginUrl base user pass ip acIp)) =
        asBytes (loginFields user pass ip acIp) ∧
      CleanQuery (queryOf (buildLoginUrl base user pass ip acIp)) ∧
      redactQuery (buildLoginUrl base user pass ip acIp) = base ++ "?***") ∧
    ∀ user confirm, ∃ url path, buildOperatorUrl base user confirm = some url ∧
      parseUrl url = some { t with path } ∧
      Query.fields (queryOf url) = asBytes (operatorFields user confirm) ∧
      CleanQuery (queryOf url) := by
  simp only [parseHttpProbeTarget, Option.bind_eq_bind, Option.bind_eq_some_iff] at hbase
  obtain ⟨t, ht, ip, hip, -⟩ := hbase
  obtain ⟨hostport, dir, path, hslash, hpath, hshape⟩ := base_shape ht hip hlogin
  refine ⟨t, ht, ?_, ?_⟩
  · intro user pass ip acIp
    have hurl := toList_buildLoginUrl base user pass ip acIp
    have hq := queryOf_eq hquery hurl
    rw [hq]
    refine ⟨?_, ?_, join_clean _, ?_⟩
    · have hchars : (buildLoginUrl base user pass ip acIp).toList = "http://".toList ++
          (hostport ++ '/' :: (path ++ '?' ::
            Query.join ((loginForm user pass ip acIp).map Field.written))) := by
        rw [hurl, hshape]
        simp
      obtain ⟨hparse, hdir⟩ := parseUrl_path hslash hshape hchars ht
      rw [hparse, hdir]
      rfl
    · rw [fields_join (by simp [loginForm]), loginForm_meaning]
    · rw [redactQuery, hurl, splitOnce_append hquery]
      simp
  · intro user confirm
    obtain ⟨parent, hparent, hchars⟩ : ∃ parent, stripEnd "/login" base = some parent ∧
        parent.toList = "http://".toList ++ (hostport ++ dir) := by
      refine ⟨String.ofList ("http://".toList ++ (hostport ++ dir)), ?_, String.toList_ofList⟩
      rw [stripEnd, Option.map_eq_some_iff]
      refine ⟨_, List.isSuffixOf?_eq_some_iff_append_eq.mpr ?_, rfl⟩
      rw [hshape, hpath]
      simp
    have hhead : '?' ∉ parent.toList ++ "/custom/operator".toList := by
      rw [stripEnd_eq hparent, String.toList_append, List.mem_append, not_or] at hquery
      rw [List.mem_append, not_or]
      exact ⟨hquery.1, by decide⟩
    have hurl := toList_operatorUrl parent user confirm
    obtain ⟨path', hpath'⟩ : ∃ path', (operatorUrl parent user confirm).toList =
        "http://".toList ++ (hostport ++ '/' :: path') := by
      rw [hurl, hchars]
      cases dir with
      | nil =>
          exact ⟨"custom/operator".toList ++
            '?' :: Query.join ((operatorForm user confirm).map Field.written), by simp⟩
      | cons c dir =>
          rw [List.cons_append, List.cons.injEq] at hpath
          obtain ⟨rfl, -⟩ := hpath
          exact ⟨dir ++ "/custom/operator".toList ++
            '?' :: Query.join ((operatorForm user confirm).map Field.written), by simp⟩
    obtain ⟨hparse, -⟩ := parseUrl_path hslash hshape hpath' ht
    refine ⟨operatorUrl parent user confirm, _, by rw [buildOperatorUrl, hparent]; rfl, hparse, ?_⟩
    rw [queryOf_eq hhead hurl]
    exact ⟨by rw [fields_join (by simp [operatorForm]), operatorForm_meaning], join_clean _⟩

/-- A user name and a password made of separators. -/
theorem portal_urls_sound_separators :
    ∃ t, parseUrl "http://10.0.3.2:801/eportal/portal/login" = some t ∧
      Query.fields (queryOf (buildLoginUrl "http://10.0.3.2:801/eportal/portal/login" "a&b=c"
        "p?#\r\n密码" ⟨10, 1, 2, 3⟩ "172.16.254.2")) =
          asBytes (loginFields "a&b=c" "p?#\r\n密码" ⟨10, 1, 2, 3⟩ "172.16.254.2") := by
  obtain ⟨t, ht, hlogin, -⟩ := portal_urls_sound "http://10.0.3.2:801/eportal/portal/login"
    "10.0.3.2:801" ⟨10, 0, 3, 2⟩ (by decide) (by decide) (by decide)
  exact ⟨t, ht, (hlogin "a&b=c" "p?#\r\n密码" ⟨10, 1, 2, 3⟩ "172.16.254.2").2.1⟩

end GdutNet
