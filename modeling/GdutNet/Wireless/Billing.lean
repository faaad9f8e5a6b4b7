import GdutNet.Http
import GdutNet.Stream.Json
import GdutNet.Wireless.Portal

/-!
# The login flow

The request half of `wireless/portal.rs`. A login first asks the portal for the
billing cycle (`r=0`), confirms a new one if the portal wants that (`r=1`), and
only then sends the password. The portal is a function of what it has been
asked so far: any bytes, or no answer. `clearance` is the part before the login
request; it does not know the password.
-/

namespace GdutNet

def billingSettle : Duration := .fromSecs 4

/-- Largest reply that is read. -/
def portalMaxBytes : ℕ := 64 * 1024

/-! ## URLs -/

def hexUpper (n : ℕ) : Char := Char.ofNat (if n < 10 then 48 + n else 55 + n)

/-- RFC 3986 unreserved. -/
def unreserved (b : UInt8) : Bool :=
  (0x41 ≤ b && b ≤ 0x5a) || (0x61 ≤ b && b ≤ 0x7a) || (0x30 ≤ b && b ≤ 0x39) ||
    b = 0x2d || b = 0x2e || b = 0x5f || b = 0x7e

def urlencode (s : String) : String :=
  String.ofList ((Json.utf8 s).flatMap fun b =>
    if unreserved b then [Char.ofNat b.toNat]
    else ['%', hexUpper (b.toNat / 16), hexUpper (b.toNat % 16)])

def buildLoginUrl (base user pass : String) (ip : Ipv4Addr) (acIp : String) : String :=
  base ++ "?callback=dr1004&login_method=1&user_account=" ++ urlencode user ++
    "&user_password=" ++ urlencode pass ++ "&wlan_user_ip=" ++ ip.toText ++
    "&wlan_user_ipv6=&wlan_user_mac=000000000000&wlan_ac_ip=" ++ urlencode acIp ++
    "&wlan_ac_name=&jsVersion=4.1.3&terminal_type=2&lang=zh-cn&v=2041"

/-- `str::strip_suffix`. -/
def stripEnd (ending s : String) : Option String :=
  (ending.toList.isSuffixOf? s.toList).map String.ofList

def operatorUrl (parent user : String) (confirm : Bool) : String :=
  parent ++ "/custom/operator?callback=dr1003&account=" ++ urlencode user ++ "&r=" ++
    (if confirm then "1" else "0") ++ "&jsVersion=4.1.3&lang=en"

/-- The origin and the port stay those of the login URL. -/
def buildOperatorUrl (base user : String) (confirm : Bool) : Option String :=
  (stripEnd "/login" base).map (operatorUrl · user confirm)

theorem stripEnd_eq {ending s parent : String} (h : stripEnd ending s = some parent) :
    s = parent ++ ending := by
  obtain ⟨cs, hcs, rfl⟩ := Option.map_eq_some_iff.mp h
  rw [List.isSuffixOf?_eq_some_iff_append_eq] at hcs
  rw [← String.toList_inj, String.toList_append, String.toList_ofList, hcs]

theorem operatorUrl_ne (parent user : String) :
    operatorUrl parent user false ≠ operatorUrl parent user true := by
  intro h
  have := congrArg String.toList h
  simp [operatorUrl] at this

/-- The login page and the operator page part after the common parent. -/
theorem buildLoginUrl_ne (parent user pass acIp : String) (ip : Ipv4Addr) (confirm : Bool) :
    buildLoginUrl (parent ++ "/login") user pass ip acIp ≠ operatorUrl parent user confirm := by
  intro h
  have := congrArg String.toList h
  simp [operatorUrl, buildLoginUrl] at this

theorem operator_urls {base user query confirm : String}
    (hquery : buildOperatorUrl base user false = some query)
    (hconfirm : buildOperatorUrl base user true = some confirm)
    (srcIp : Ipv4Addr) (pass acIp : String) :
    [query, confirm, buildLoginUrl base user pass srcIp acIp].Nodup := by
  obtain ⟨parent, hparent, rfl⟩ := Option.map_eq_some_iff.mp hquery
  obtain ⟨parent', hparent', rfl⟩ := Option.map_eq_some_iff.mp hconfirm
  obtain rfl : parent = parent' := Option.some.inj (hparent.symm.trans hparent')
  obtain rfl := stripEnd_eq hparent
  have hfalse := buildLoginUrl_ne parent user pass acIp srcIp false
  have htrue := buildLoginUrl_ne parent user pass acIp srcIp true
  simp [operatorUrl_ne, hfalse.symm, htrue.symm]

example : urlencode "a b/你" = "a%20b%2F%E4%BD%A0" := by decide
example : buildOperatorUrl "http://10.0.3.2:801/eportal/portal/login" "3122" true =
    some ("http://10.0.3.2:801/eportal/portal/custom/operator?callback=dr1003&account=3122" ++
      "&r=1&jsVersion=4.1.3&lang=en") := by decide

/-! ## Billing replies -/

inductive BillingStatus where
  | ready
  | confirmationRequired
  | rejected
  | malformed
deriving DecidableEq, Repr

section Flow

variable [SerdeJson]

def parseBillingReply (body : String) : BillingStatus :=
  match SerdeJson.fromStr (extractJson body) with
  | none => .malformed
  | some v =>
      match v.get "code" with
      | none => .malformed
      | some code =>
          if code.asStr = some "1" || code.asU64 = some 1 then
            match (v.get "result").bind JsonValue.asStr with
            | some result =>
                if result = "ok" then .ready
                else if result = "fail" then .confirmationRequired
                else .malformed
            | none => .malformed
          else .rejected

/-! ## The flow -/

inductive PortalStep where
  | request (url : String)
  | settle (wait : Duration)
deriving DecidableEq, Repr

/-- What the portal sends back once it has seen these steps: bytes, or nothing
that arrives in time. -/
abbrev Portal : Type := List PortalStep → Option (List UInt8)

variable (portal : Portal)

def request (past : List PortalStep) : Option Response :=
  getComplete portalMaxBytes (portal past)

/-- `past` ends in the request itself. -/
def billingRequest (past : List PortalStep) : Except String BillingStatus :=
  match request portal past with
  | none => .error "Billing cycle request failed"
  | some reply =>
      if reply.status ≠ 200 then
        .error ("Billing cycle request returned HTTP " ++ toString reply.status)
      else .ok (parseBillingReply reply.body)

/-- `login_inner` up to the login request. -/
def clearance (base user : String) : List PortalStep × Except String Unit :=
  match buildOperatorUrl base user false with
  | none => ([], .error "Portal login URL must end in /login")
  | some query =>
      match billingRequest portal [.request query] with
      | .error e => ([.request query], .error e)
      | .ok .ready => ([.request query], .ok ())
      | .ok .confirmationRequired =>
          match buildOperatorUrl base user true with
          | none => ([.request query], .error "Portal login URL must end in /login")
          | some confirm =>
              match billingRequest portal [.request query, .request confirm] with
              | .error e => ([.request query, .request confirm], .error e)
              | .ok status =>
                  if status ≠ .ready then
                    ([.request query, .request confirm],
                      .error "Billing cycle confirmation rejected; login deferred")
                  else
                    ([.request query, .request confirm, .settle billingSettle], .ok ())
      | .ok .rejected => ([.request query], .error "Billing cycle status query rejected")
      | .ok .malformed => ([.request query], .error "Malformed billing cycle status reply")

def loginInner (srcIp : Ipv4Addr) (base user pass acIp : String) :
    List PortalStep × Except String (ℕ × String) :=
  match clearance portal base user with
  | (past, .error e) => (past, .error e)
  | (past, .ok ()) =>
      let past := past ++ [.request (buildLoginUrl base user pass srcIp acIp)]
      match request portal past with
      | none => (past, .error "Portal login request failed")
      | some reply => (past, .ok (reply.status, reply.body))

/-! ## Replies that clear the way -/

/-- The portal's reply to the last of these steps: HTTP 200, code 1 and this
result. -/
def BillingReply (past : List PortalStep) (result : String) : Prop :=
  ∃ reply v code, request portal past = some reply ∧ reply.status = 200 ∧
    SerdeJson.fromStr (extractJson reply.body) = some v ∧ v.get "code" = some code ∧
    (code.asStr = some "1" ∨ code.asU64 = some 1) ∧
    (v.get "result").bind JsonValue.asStr = some result

theorem parseBillingReply_eq {body : String} {status : BillingStatus} {result : String}
    (hstatus : (status = .ready ∧ result = "ok") ∨
      (status = .confirmationRequired ∧ result = "fail")) :
    parseBillingReply body = status ↔ ∃ v code, SerdeJson.fromStr (extractJson body) = some v ∧
      v.get "code" = some code ∧ (code.asStr = some "1" ∨ code.asU64 = some 1) ∧
      (v.get "result").bind JsonValue.asStr = some result := by
  unfold parseBillingReply
  cases hv : SerdeJson.fromStr (extractJson body) with
  | none => rcases hstatus with ⟨rfl, rfl⟩ | ⟨rfl, rfl⟩ <;> simp
  | some v =>
      cases hcode : v.get "code" with
      | none => rcases hstatus with ⟨rfl, rfl⟩ | ⟨rfl, rfl⟩ <;> simp [hcode]
      | some code =>
          by_cases hone : code.asStr = some "1" ∨ code.asU64 = some 1
          · cases hresult : (v.get "result").bind JsonValue.asStr with
            | none => rcases hstatus with ⟨rfl, rfl⟩ | ⟨rfl, rfl⟩ <;> simp [hcode, hone, hresult]
            | some r =>
                rcases hstatus with ⟨rfl, rfl⟩ | ⟨rfl, rfl⟩ <;>
                  simp [hcode, hone, hresult] <;> grind
          · rcases hstatus with ⟨rfl, rfl⟩ | ⟨rfl, rfl⟩ <;> simp [hcode, hone]

theorem billingRequest_eq {past : List PortalStep} {status : BillingStatus} {result : String}
    (hstatus : (status = .ready ∧ result = "ok") ∨
      (status = .confirmationRequired ∧ result = "fail")) :
    billingRequest portal past = .ok status ↔ BillingReply portal past result := by
  unfold billingRequest BillingReply
  cases hreply : request portal past with
  | none => simp
  | some reply =>
      by_cases hok : reply.status = 200
      · simp [hok, parseBillingReply_eq hstatus]
      · simp [hok]

theorem billingRequest_ready {past : List PortalStep} :
    billingRequest portal past = .ok .ready ↔ BillingReply portal past "ok" :=
  billingRequest_eq portal (.inl ⟨rfl, rfl⟩)

theorem billingRequest_confirm {past : List PortalStep} :
    billingRequest portal past = .ok .confirmationRequired ↔ BillingReply portal past "fail" :=
  billingRequest_eq portal (.inr ⟨rfl, rfl⟩)

/-- The ways of `clearance`. -/
inductive Clears (query confirm : String) : List PortalStep × Except String Unit → Prop
  | refused (e : String) (hok : ¬ BillingReply portal [.request query] "ok")
      (hfail : ¬ BillingReply portal [.request query] "fail") :
      Clears query confirm ([.request query], .error e)
  | ready (hok : BillingReply portal [.request query] "ok") :
      Clears query confirm ([.request query], .ok ())
  | unconfirmed (e : String) (hfail : BillingReply portal [.request query] "fail")
      (hok : ¬ BillingReply portal [.request query, .request confirm] "ok") :
      Clears query confirm ([.request query, .request confirm], .error e)
  | confirmed (hfail : BillingReply portal [.request query] "fail")
      (hok : BillingReply portal [.request query, .request confirm] "ok") :
      Clears query confirm ([.request query, .request confirm, .settle billingSettle], .ok ())

theorem clearance_clears {base user query confirm : String}
    (hquery : buildOperatorUrl base user false = some query)
    (hconfirm : buildOperatorUrl base user true = some confirm) :
    Clears portal query confirm (clearance portal base user) := by
  have hready := @billingRequest_ready _ portal [.request query]
  have hasks := @billingRequest_confirm _ portal [.request query]
  have hready' := @billingRequest_ready _ portal [.request query, .request confirm]
  simp only [clearance, hquery, hconfirm]
  cases hfirst : billingRequest portal [.request query] with
  | error e => exact .refused e (mt hready.mpr (by simp [hfirst])) (mt hasks.mpr (by simp [hfirst]))
  | ok status =>
      cases status with
      | ready => exact .ready (hready.mp hfirst)
      | rejected =>
          exact .refused _ (mt hready.mpr (by simp [hfirst])) (mt hasks.mpr (by simp [hfirst]))
      | malformed =>
          exact .refused _ (mt hready.mpr (by simp [hfirst])) (mt hasks.mpr (by simp [hfirst]))
      | confirmationRequired =>
          have hfail := hasks.mp hfirst
          cases hsecond : billingRequest portal [.request query, .request confirm] with
          | error e => exact .unconfirmed e hfail (mt hready'.mpr (by simp [hsecond]))
          | ok status =>
              dsimp only
              split
              · rename_i hne
                exact .unconfirmed _ hfail (mt hready'.mpr (by simpa [hsecond] using hne))
              · rename_i heq
                refine .confirmed hfail (hready'.mp ?_)
                rw [hsecond, not_not.mp heq]

/-! ## What a run asks -/

def requests (steps : List PortalStep) : List String :=
  steps.filterMap fun
    | .request url => some url
    | .settle _ => none

/-- After the clearance comes the login request or nothing. -/
theorem loginInner_steps (srcIp : Ipv4Addr) (base user pass acIp : String) :
    (∃ e, (clearance portal base user).2 = .error e ∧
      loginInner portal srcIp base user pass acIp = ((clearance portal base user).1, .error e)) ∨
    ((clearance portal base user).2 = .ok () ∧
      (loginInner portal srcIp base user pass acIp).1 =
        (clearance portal base user).1 ++
          [.request (buildLoginUrl base user pass srcIp acIp)]) := by
  unfold loginInner
  rcases clearance portal base user with ⟨past, e | ⟨⟩⟩
  · exact .inl ⟨e, rfl, rfl⟩
  · refine .inr ⟨rfl, ?_⟩
    dsimp only
    split <;> rfl

/-- The four ways a login goes. -/
inductive LoginRun (query confirm login : String) :
    List PortalStep × Except String (ℕ × String) → Prop
  | refused (e : String) (hok : ¬ BillingReply portal [.request query] "ok")
      (hfail : ¬ BillingReply portal [.request query] "fail") :
      LoginRun query confirm login ([.request query], .error e)
  | ready (result : Except String (ℕ × String))
      (hok : BillingReply portal [.request query] "ok") :
      LoginRun query confirm login ([.request query, .request login], result)
  | unconfirmed (e : String) (hfail : BillingReply portal [.request query] "fail")
      (hok : ¬ BillingReply portal [.request query, .request confirm] "ok") :
      LoginRun query confirm login ([.request query, .request confirm], .error e)
  | confirmed (result : Except String (ℕ × String))
      (hfail : BillingReply portal [.request query] "fail")
      (hok : BillingReply portal [.request query, .request confirm] "ok") :
      LoginRun query confirm login
        ([.request query, .request confirm, .settle billingSettle, .request login], result)

theorem loginInner_run {base user query confirm : String}
    (hquery : buildOperatorUrl base user false = some query)
    (hconfirm : buildOperatorUrl base user true = some confirm)
    (srcIp : Ipv4Addr) (pass acIp : String) :
    LoginRun portal query confirm (buildLoginUrl base user pass srcIp acIp)
      (loginInner portal srcIp base user pass acIp) := by
  have hclears := clearance_clears portal hquery hconfirm
  unfold loginInner
  generalize clearance portal base user = c at hclears ⊢
  cases hclears with
  | refused e hok hfail => exact .refused e hok hfail
  | ready hok =>
      dsimp only
      split
      · exact .ready _ hok
      · exact .ready _ hok
  | unconfirmed e hfail hok => exact .unconfirmed e hfail hok
  | confirmed hfail hok =>
      dsimp only
      split
      · exact .confirmed _ hfail hok
      · exact .confirmed _ hfail hok

theorem billingReply_unique {past : List PortalStep} (hok : BillingReply portal past "ok") :
    ¬ BillingReply portal past "fail" := by
  rw [← billingRequest_confirm, (billingRequest_ready portal).mpr hok]
  simp

variable {portal} {query confirm login : String}
  {run : List PortalStep × Except String (ℕ × String)}

theorem LoginRun.requests (h : LoginRun portal query confirm login run) :
    requests run.1 <+: [query, login] ∨ requests run.1 <+: [query, confirm, login] := by
  cases h with
  | refused e hok hfail => exact .inl ⟨[login], rfl⟩
  | ready result hok => exact .inl (List.prefix_refl _)
  | unconfirmed e hfail hok => exact .inr ⟨[login], rfl⟩
  | confirmed result hfail hok => exact .inr (List.prefix_refl _)

theorem LoginRun.before_confirm (h : LoginRun portal query confirm login run)
    (hdistinct : [query, confirm, login].Nodup) {xs ys : List PortalStep}
    (hrun : run.1 = xs ++ .request confirm :: ys) :
    xs = [.request query] ∧ BillingReply portal xs "fail" := by
  cases h <;> rcases xs with _ | ⟨x₁, _ | ⟨x₂, _ | ⟨x₃, _ | ⟨x₄, xs⟩⟩⟩⟩ <;> simp_all

theorem LoginRun.before_login (h : LoginRun portal query confirm login run)
    (hdistinct : [query, confirm, login].Nodup) {xs ys : List PortalStep}
    (hrun : run.1 = xs ++ .request login :: ys) :
    (xs = [.request query] ∧ BillingReply portal xs "ok") ∨
      (xs = [.request query, .request confirm, .settle billingSettle] ∧
        BillingReply portal [.request query, .request confirm] "ok") := by
  cases h <;> rcases xs with _ | ⟨x₁, _ | ⟨x₂, _ | ⟨x₃, _ | ⟨x₄, xs⟩⟩⟩⟩ <;> simp_all

theorem LoginRun.ends_refused (h : LoginRun portal query confirm login run)
    (hok : ¬ BillingReply portal [.request query] "ok")
    (hfail : ¬ BillingReply portal [.request query] "fail") :
    run.1 = [.request query] ∧ ∃ e, run.2 = .error e := by
  cases h with
  | refused e _ _ => exact ⟨rfl, e, rfl⟩
  | ready result h => exact absurd h hok
  | unconfirmed e h _ => exact absurd h hfail
  | confirmed result h _ => exact absurd h hfail

theorem LoginRun.ends_unconfirmed (h : LoginRun portal query confirm login run)
    (hfail : BillingReply portal [.request query] "fail")
    (hok : ¬ BillingReply portal [.request query, .request confirm] "ok") :
    run.1 = [.request query, .request confirm] ∧ ∃ e, run.2 = .error e := by
  cases h with
  | refused e _ h => exact absurd hfail h
  | ready result h => exact absurd hfail (billingReply_unique portal h)
  | unconfirmed e _ _ => exact ⟨rfl, e, rfl⟩
  | confirmed result _ h => exact absurd h hok

end Flow

/-- The password goes out only after the portal cleared the billing cycle. For
any portal: the query comes first, the confirmation only after a 200 reply with
code 1 and result `fail`, the login only after one with result `ok`, and behind
a confirmation only after the settle; any other reply ends the flow. Until the
login request nothing depends on the password. -/
theorem password_after_clearance [SerdeJson] (portal : Portal) (srcIp : Ipv4Addr)
    (base user pass acIp : String) :
    (buildOperatorUrl base user false = none →
      loginInner portal srcIp base user pass acIp =
        ([], .error "Portal login URL must end in /login")) ∧
    (∃ past, ∀ pass', (loginInner portal srcIp base user pass' acIp).1 = past ∨
      (loginInner portal srcIp base user pass' acIp).1 =
        past ++ [.request (buildLoginUrl base user pass' srcIp acIp)]) ∧
    ∀ query confirm, buildOperatorUrl base user false = some query →
      buildOperatorUrl base user true = some confirm →
      let login := buildLoginUrl base user pass srcIp acIp
      let run := loginInner portal srcIp base user pass acIp
      [query, confirm, login].Nodup ∧
      (requests run.1 <+: [query, login] ∨ requests run.1 <+: [query, confirm, login]) ∧
      (∀ xs ys, run.1 = xs ++ .request confirm :: ys →
        xs = [.request query] ∧ BillingReply portal xs "fail") ∧
      (∀ xs ys, run.1 = xs ++ .request login :: ys →
        (xs = [.request query] ∧ BillingReply portal xs "ok") ∨
        (xs = [.request query, .request confirm, .settle (.fromSecs 4)] ∧
          BillingReply portal [.request query, .request confirm] "ok")) ∧
      (¬ BillingReply portal [.request query] "ok" →
        ¬ BillingReply portal [.request query] "fail" →
        run.1 = [.request query] ∧ ∃ e, run.2 = .error e) ∧
      (BillingReply portal [.request query] "fail" →
        ¬ BillingReply portal [.request query, .request confirm] "ok" →
        run.1 = [.request query, .request confirm] ∧ ∃ e, run.2 = .error e) := by
  refine ⟨?_, ?_, ?_⟩
  · intro hnone
    simp [loginInner, clearance, hnone]
  · refine ⟨(clearance portal base user).1, fun pass' => ?_⟩
    rcases loginInner_steps portal srcIp base user pass' acIp with ⟨e, _, hrun⟩ | ⟨_, hrun⟩
    · exact .inl (by rw [hrun])
    · exact .inr hrun
  · intro query confirm hquery hconfirm login run
    have hdistinct := operator_urls hquery hconfirm srcIp pass acIp
    have hrun := loginInner_run portal hquery hconfirm srcIp pass acIp
    exact ⟨hdistinct, hrun.requests, fun xs ys h => hrun.before_confirm hdistinct h,
      fun xs ys h => hrun.before_login hdistinct h, hrun.ends_refused, hrun.ends_unconfirmed⟩

/-- `serde_json` on the two billing replies of the run below. -/
@[reducible] def billingJson : SerdeJson where
  fromStr text :=
    if text = "\x7b\"code\":\"1\",\"result\":\"fail\"\x7d" then
      some (.object [("code", .string "1"), ("result", .string "fail")])
    else if text = "\x7b\"code\":1,\"result\":\"ok\"\x7d" then
      some (.object [("code", .number (.posInt 1)), ("result", .string "ok")])
    else none
  toText _ := ""

/-- Asks for a confirmation first and is content with it. -/
def confirmingPortal : Portal := fun past =>
  some (Json.utf8 ("HTTP/1.0 200 OK\r\n\r\n" ++
    if past.length = 1 then "dr1003(\x7b\"code\":\"1\",\"result\":\"fail\"\x7d)"
    else "dr1003(\x7b\"code\":1,\"result\":\"ok\"\x7d)"))

/-- A new billing cycle: query, confirmation, settle, login. -/
theorem password_after_clearance_confirmed :
    let base := "http://10.0.3.2/login"
    let query := operatorUrl "http://10.0.3.2" "3122" false
    let confirm := operatorUrl "http://10.0.3.2" "3122" true
    let login := buildLoginUrl base "3122" "secret" ⟨10, 30, 1, 7⟩ "172.16.254.2"
    (@loginInner billingJson confirmingPortal ⟨10, 30, 1, 7⟩ base "3122" "secret"
      "172.16.254.2").1 =
        [.request query, .request confirm, .settle (.fromSecs 4), .request login] ∧
    @BillingReply billingJson confirmingPortal [.request query, .request confirm] "ok" := by
  intro base query confirm login
  have hrun : (@loginInner billingJson confirmingPortal ⟨10, 30, 1, 7⟩ base "3122" "secret"
      "172.16.254.2").1 =
        [.request query, .request confirm, .settle (.fromSecs 4), .request login] := by
    decide +kernel
  have hguard := (@password_after_clearance billingJson confirmingPortal ⟨10, 30, 1, 7⟩ base
    "3122" "secret" "172.16.254.2").2.2 query confirm (by decide +kernel) (by decide +kernel)
  refine ⟨hrun, ?_⟩
  rcases hguard.2.2.2.1 [.request query, .request confirm, .settle (.fromSecs 4)] [] hrun with
    ⟨hxs, _⟩ | ⟨_, hok⟩
  · simp at hxs
  · exact hok

end GdutNet
