import GdutNet.Stream.JsonTokens
import GdutNet.Wireless.Billing

/-!
# Bare and wrapped replies

The portal answers with JSONP, `callback({...})` or `callback({...});`, and a
bare JSON text is to be read as well. `extract_json` looks for the parentheses
in the text itself. Around a wrapped reply it always finds the right ones; in a
bare reply it finds those in the strings. A text that is cut there may still be
JSON, but no name in it is one the parsers look for.
-/

namespace GdutNet

/-! ## What is extracted -/

theorem findIdx?_eq_none {cs : List Char} {c : Char} (h : c ∉ cs) :
    cs.findIdx? (· = c) = none := by
  rw [List.findIdx?_eq_none_iff]
  intro d hd
  have hne : d ≠ c := fun heq => h (heq ▸ hd)
  simp [hne]

theorem findIdx?_append {pre post : List Char} {c : Char} (h : c ∉ pre) :
    (pre ++ c :: post).findIdx? (· = c) = some pre.length := by
  rw [List.findIdx?_append, findIdx?_eq_none h]
  simp [List.findIdx?_cons]

theorem rfindIdx?_append {pre post : List Char} {c : Char} (h : c ∉ post) :
    rfindIdx? (· = c) (pre ++ c :: post) = some pre.length := by
  have hreverse : (pre ++ c :: post).reverse = post.reverse ++ c :: pre.reverse := by simp
  rw [rfindIdx?, hreverse, findIdx?_append (by simpa using h), Option.map_some, List.length_append,
    List.length_cons, List.length_reverse]
  congr 1
  omega

theorem exists_first {cs : List Char} {c : Char} (h : c ∈ cs) :
    ∃ pre post, cs = pre ++ c :: post ∧ c ∉ pre ∧ cs.findIdx? (· = c) = some pre.length := by
  obtain ⟨pre, post, rfl, hpre⟩ := List.eq_append_cons_of_mem h
  exact ⟨pre, post, rfl, hpre, findIdx?_append hpre⟩

theorem exists_last {cs : List Char} {c : Char} (h : c ∈ cs) :
    ∃ pre post, cs = pre ++ c :: post ∧ c ∉ post ∧ rfindIdx? (· = c) cs = some pre.length := by
  obtain ⟨post, pre, hsplit, hpost⟩ := List.eq_append_cons_of_mem (List.mem_reverse.mpr h)
  have hcs : cs = pre.reverse ++ c :: post.reverse := by
    rw [← cs.reverse_reverse, hsplit]
    simp
  refine ⟨pre.reverse, post.reverse, hcs, by simpa using hpost, ?_⟩
  rw [hcs]
  exact rfindIdx?_append (by simpa using hpost)

/-- A `(` stands before a `)`. -/
def Parenthesized (cs : List Char) : Prop :=
  ∃ pre inner post, cs = pre ++ '(' :: (inner ++ ')' :: post)

/-- What is between the first `(` and the last `)`. -/
theorem extractJson_wrapped {body : String} {pre inner post : List Char}
    (hbody : body.toList = pre ++ '(' :: (inner ++ ')' :: post)) (hpre : '(' ∉ pre)
    (hpost : ')' ∉ post) : extractJson body = String.ofList inner := by
  have hopen : body.toList.findIdx? (· = '(') = some pre.length := by
    rw [hbody]
    exact findIdx?_append hpre
  have hclose : rfindIdx? (· = ')') body.toList = some (pre.length + 1 + inner.length) := by
    have hsplit : body.toList = (pre ++ '(' :: inner) ++ ')' :: post := by
      rw [hbody, List.append_assoc, List.cons_append]
    rw [hsplit, rfindIdx?_append hpost, List.length_append, List.length_cons]
    congr 1
    omega
  have hinner : (body.toList.take (pre.length + 1 + inner.length)).drop (pre.length + 1) =
      inner := by
    have hsplit : body.toList = (pre ++ ['(']) ++ (inner ++ ')' :: post) := by
      rw [hbody, List.append_assoc]
      rfl
    have hlength : pre.length + 1 = (pre ++ ['(']).length := by simp
    rw [hsplit, hlength, List.drop_take, List.drop_left, Nat.add_sub_cancel_left, List.take_left]
  unfold extractJson
  dsimp only
  rw [hopen, hclose]
  dsimp only
  rw [if_pos (by omega), hinner]

theorem Parenthesized.outermost {cs : List Char} (h : Parenthesized cs) :
    ∃ pre inner post, cs = pre ++ '(' :: (inner ++ ')' :: post) ∧ '(' ∉ pre ∧ ')' ∉ post := by
  obtain ⟨pre, inner, post, rfl⟩ := h
  obtain ⟨pre', inner', hopen, hpre, -⟩ := exists_first (show '(' ∈ pre ++ ['('] by simp)
  obtain ⟨inner'', post', hclose, hpost, -⟩ :=
    exists_last (show ')' ∈ inner' ++ (inner ++ ')' :: post) by simp)
  refine ⟨pre', inner'', post', ?_, hpre, hpost⟩
  calc pre ++ '(' :: (inner ++ ')' :: post)
      = (pre ++ ['(']) ++ (inner ++ ')' :: post) := by simp
    _ = pre' ++ '(' :: (inner' ++ (inner ++ ')' :: post)) := by rw [hopen]; simp
    _ = _ := by rw [hclose]

theorem extractJson_bare {body : String} (h : ¬ Parenthesized body.toList) :
    extractJson body = String.ofList (trim body.toList) := by
  unfold extractJson
  dsimp only
  by_cases hopen : '(' ∈ body.toList
  · obtain ⟨pre, rest, hfirst, -, hfind⟩ := exists_first hopen
    rw [hfind]
    by_cases hclose : ')' ∈ body.toList
    · obtain ⟨front, post, hlast, -, hrfind⟩ := exists_last hclose
      rw [hrfind]
      dsimp only
      rw [if_neg]
      intro hlt
      rcases List.append_eq_append_iff.mp (hfirst.symm.trans hlast) with
        ⟨mid, rfl, hmid⟩ | ⟨mid, rfl, -⟩
      · cases mid with
        | nil => simp at hlt
        | cons c mid =>
            obtain ⟨rfl, rfl⟩ := List.cons.inj hmid
            exact h ⟨pre, mid, post, hfirst⟩
      · simp at hlt
    · have hnone : rfindIdx? (· = ')') body.toList = none := by
        rw [rfindIdx?, findIdx?_eq_none (by simpa using hclose), Option.map_none]
      rw [hnone]
  · rw [findIdx?_eq_none hopen]

/-- The forms of a reply. -/
def replyBodies (cb text : String) : List String :=
  [text, cb ++ "(" ++ text ++ ")", cb ++ "(" ++ text ++ ");"]

/-- Both wrapped forms are unwrapped. -/
theorem extractJson_replyBodies {cb text body : String} (hopen : '(' ∉ cb.toList)
    (hbody : body ∈ replyBodies cb text) : body = text ∨ extractJson body = text := by
  simp only [replyBodies, List.mem_cons, List.not_mem_nil, or_false] at hbody
  rcases hbody with rfl | rfl | rfl
  · exact .inl rfl
  · right
    have hsplit : (cb ++ "(" ++ text ++ ")").toList =
        cb.toList ++ '(' :: (text.toList ++ ')' :: []) := by simp
    rw [extractJson_wrapped hsplit hopen (by simp), String.ofList_toList]
  · right
    have hsplit : (cb ++ "(" ++ text ++ ");").toList =
        cb.toList ++ '(' :: (text.toList ++ ')' :: [';']) := by simp
    rw [extractJson_wrapped hsplit hopen (by simp), String.ofList_toList]

theorem trim_braces (members : List Char) :
    trim ('{' :: (members ++ ['}'])) = '{' :: (members ++ ['}']) := by
  have hopen : isWhitespace '{' = false := by decide
  have hclose : isWhitespace '}' = false := by decide
  simp [trim, hopen, hclose]

/-! ## What a reply says -/

/-- `1`, as a string or as a number. -/
def isOne (code : JsonValue) : Prop := code.asStr = some "1" ∨ code.asU64 = some 1

instance (code : JsonValue) : Decidable (isOne code) := inferInstanceAs (Decidable (_ ∨ _))

/-- The status that `code` and `result` determine. -/
def billingOf (v : JsonValue) : BillingStatus :=
  match v.get "code" with
  | none => .malformed
  | some code =>
      if isOne code then
        match (v.get "result").bind JsonValue.asStr with
        | some result =>
            if result = "ok" then .ready
            else if result = "fail" then .confirmationRequired
            else .malformed
        | none => .malformed
      else .rejected

theorem billingOf_malformed {v : JsonValue} (hresult : v.get "result" = none) :
    billingOf v = .malformed ↔ ∀ code ∈ v.get "code", isOne code := by
  unfold billingOf
  rw [hresult]
  cases v.get "code" with
  | none => simp
  | some code => simp

section Reply

variable [SerdeJson]

/-- The result that `result`, `ret_code` and `msg` determine. -/
def portalOf (v : JsonValue) : PortalResult :=
  match (v.get "result").map (fun r => r.asStr.getD (SerdeJson.toText r)) with
  | none => .malformed
  | some r =>
      if r = "1" then .success
      else if r = "0" && retCode v = some 2 then .alreadyOnline
      else .failure (((v.get "msg").bind JsonValue.asStr).getD "no msg")

theorem portalReply_elim (body : String) : parsePortalReply body =
    (SerdeJson.fromStr (extractJson body)).elim .malformed portalOf := by
  unfold parsePortalReply
  cases SerdeJson.fromStr (extractJson body) <;> rfl

theorem billingReply_elim (body : String) : parseBillingReply body =
    (SerdeJson.fromStr (extractJson body)).elim .malformed billingOf := by
  unfold parseBillingReply
  cases SerdeJson.fromStr (extractJson body) with
  | none => rfl
  | some v =>
      simp only [Option.elim, billingOf, isOne, Bool.or_eq_true, decide_eq_true_eq]
      rfl

theorem portalOf_malformed {v : JsonValue} : portalOf v = .malformed ↔ v.get "result" = none := by
  unfold portalOf
  cases v.get "result" with
  | none => simp
  | some r =>
      rw [Option.map_some]
      dsimp only
      split
      · simp
      · split <;> simp

/-! ## The reader and the writer -/

/-- What is documented of `serde_json::from_str`: it accepts JSON only, and a
name of an object is one of the strings of the text, as it stands there if it is
written without escapes. -/
structure ReadsJson : Prop where
  tokens : ∀ text v, SerdeJson.fromStr text = some v → ∃ ts, text.toList = Json.render ts ∧
    ∀ key, (v.get key).isSome → ∃ body h, Json.Token.quoted body h ∈ ts ∧
      ('\\' ∈ body ∨ body = key.toList)

/-- `text` is what a JSON serializer writes for the object `v`: it reads back as
`v`, and has nothing around its braces. -/
structure Serialized (v : JsonValue) (text : String) : Prop where
  reads : SerdeJson.fromStr text = some v
  braces : ∃ members, text.toList = '{' :: (members ++ ['}'])

variable {v : JsonValue} {text : String}

theorem Serialized.bare (h : Serialized v text) (hfree : ¬ Parenthesized text.toList) :
    extractJson text = text := by
  obtain ⟨members, hmembers⟩ := h.braces
  rw [extractJson_bare hfree, hmembers, trim_braces, ← hmembers, String.ofList_toList]

/-- What is read between the parentheses has no name that starts as no token
does. -/
theorem Serialized.cut (hjson : ReadsJson) (h : Serialized v text)
    (hcut : Parenthesized text.toList) {w : JsonValue}
    (hw : SerdeJson.fromStr (extractJson text) = some w) {key : String} {d : Char}
    (hd : d ∈ key.toList.head?) (hkey : Json.Token.starts d = false) : w.get key = none := by
  obtain ⟨pre, inner, post, hsplit, hpre, hpost⟩ := hcut.outermost
  rw [extractJson_wrapped hsplit hpre hpost] at hw
  obtain ⟨ts, hts, -⟩ := hjson.tokens text v h.reads
  obtain ⟨ts', hts', hnames⟩ := hjson.tokens _ w hw
  rw [String.toList_ofList] at hts'
  by_contra hsome
  obtain ⟨name, hname, hmem, hback⟩ := hnames key (Option.isSome_iff_ne_none.mpr hsome)
  obtain ⟨hfree, hstarts⟩ := Json.string_of_shifted (c := '(') (by simp) (hts ▸ hsplit)
    (by rw [hts']) hmem
  rcases hback with hback | rfl
  · exact hfree hback
  · have := hstarts d hd
    rw [hkey] at this
    cases this

/-- So a reply that is cut says nothing. -/
theorem Serialized.malformed (hjson : ReadsJson) (h : Serialized v text)
    (hcut : Parenthesized text.toList) :
    parsePortalReply text = .malformed ∧ parseBillingReply text = .malformed := by
  rw [portalReply_elim, billingReply_elim]
  cases hw : SerdeJson.fromStr (extractJson text) with
  | none => exact ⟨rfl, rfl⟩
  | some w =>
      have hresult : w.get "result" = none :=
        h.cut hjson hcut hw (d := 'r') (by decide) (by decide)
      have hcode : w.get "code" = none := h.cut hjson hcut hw (d := 'c') (by decide) (by decide)
      refine ⟨portalOf_malformed.mpr hresult, (billingOf_malformed hresult).mpr ?_⟩
      rw [hcode]
      simp

/-- A bare reply is read as the wrapped ones are if and only if no `)` in it
follows a `(`, or the fields say nothing anyway. -/
theorem replies_read_alike (hjson : ReadsJson) (v : JsonValue) (text cb : String)
    (h : Serialized v text) (hopen : '(' ∉ cb.toList) :
    (∀ body ∈ replyBodies cb text,
        parsePortalReply body = portalOf v ∧ parseBillingReply body = billingOf v) ↔
      ¬ Parenthesized text.toList ∨
        v.get "result" = none ∧ ∀ code ∈ v.get "code", isOne code := by
  have hread {body : String} (hbody : extractJson body = text) :
      parsePortalReply body = portalOf v ∧ parseBillingReply body = billingOf v := by
    rw [portalReply_elim, billingReply_elim, hbody, h.reads]
    exact ⟨rfl, rfl⟩
  constructor
  · intro hall
    by_cases hcut : Parenthesized text.toList
    · right
      obtain ⟨hportal, hbilling⟩ := hall text (by simp [replyBodies])
      obtain ⟨hportal', hbilling'⟩ := h.malformed hjson hcut
      have hresult := portalOf_malformed.mp (hportal.symm.trans hportal')
      exact ⟨hresult, (billingOf_malformed hresult).mp (hbilling.symm.trans hbilling')⟩
    · exact .inl hcut
  · intro hcond body hbody
    rcases extractJson_replyBodies hopen hbody with rfl | hwrapped
    · by_cases hcut : Parenthesized body.toList
      · obtain ⟨hresult, hcode⟩ := hcond.resolve_left (not_not.mpr hcut)
        obtain ⟨hportal, hbilling⟩ := h.malformed hjson hcut
        rw [hportal, hbilling]
        exact ⟨(portalOf_malformed.mpr hresult).symm, ((billingOf_malformed hresult).mpr hcode).symm⟩
      · exact hread (h.bare hcut)
    · exact hread hwrapped

end Reply

/-! ## A reply of each kind -/

def successText : String := "\x7b\"result\":\"1\"\x7d"

theorem replyJson_readsJson : @ReadsJson replyJson := by
  refine @ReadsJson.mk replyJson fun text v hv => ?_
  unfold SerdeJson.fromStr replyJson at hv
  dsimp only at hv
  split at hv
  · rename_i htext
    obtain rfl := Option.some.inj hv
    have hresult : Json.Body "result".toList := .of_plain (forall_mem_of_all (by decide))
    refine ⟨[.mark '{' (by decide), .quoted "result".toList hresult, .mark ':' (by decide),
      .quoted ['1'] (.of_plain (forall_mem_of_all (by decide))), .mark '}' (by decide)], by rw [htext]; rfl, ?_⟩
    intro key hkey
    refine ⟨"result".toList, hresult, by simp, .inr ?_⟩
    by_cases hsame : "result" = key
    · rw [hsame]
    · simp [JsonValue.get, hsame] at hkey
  · cases hv

theorem replies_read_alike_success :
    (@parsePortalReply replyJson successText = .success ∧
      @parseBillingReply replyJson successText = .malformed) ∧
    (@parsePortalReply replyJson ("dr1004" ++ "(" ++ successText ++ ")") = .success ∧
      @parseBillingReply replyJson ("dr1004" ++ "(" ++ successText ++ ")") = .malformed) := by
  have hall := (@replies_read_alike replyJson replyJson_readsJson (.object [("result", .string "1")])
    successText "dr1004" (@Serialized.mk replyJson _ _ rfl ⟨"\"result\":\"1\"".toList, by decide⟩)
    (by decide)).mpr (.inl fun ⟨pre, inner, post, h⟩ => by
      have hmem : '(' ∈ successText.toList := by
        rw [h]
        simp
      exact absurd hmem (by decide))
  exact ⟨hall _ (by simp [replyBodies]), hall _ (by simp [replyBodies])⟩

def cutText : String := "\x7b\"result\":\"0\",\"msg\":\"a (b) c\"\x7d"

def cutReply : JsonValue := .object [("result", .string "0"), ("msg", .string "a (b) c")]

/-- `serde_json` on the reply with parentheses, and on what is cut out of it. -/
@[reducible] def cutJson : SerdeJson where
  fromStr text := if text = cutText then some cutReply else none
  toText _ := ""

theorem bare_reply_cut :
    @SerdeJson.fromStr cutJson cutText = some cutReply ∧ extractJson cutText = "b" ∧
      @parsePortalReply cutJson cutText = .malformed ∧
      @parsePortalReply cutJson ("dr1004(" ++ cutText ++ ")") = .failure "a (b) c" ∧
      @parsePortalReply cutJson ("dr1004(" ++ cutText ++ ");") = .failure "a (b) c" :=
  ⟨rfl, by decide +kernel, by decide +kernel, by decide +kernel, by decide +kernel⟩

end GdutNet
