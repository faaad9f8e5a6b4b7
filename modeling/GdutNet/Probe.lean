import GdutNet.Http.Transport
import GdutNet.Stream.Sorting

/-!
# The prober

`adapter.rs` chooses among the adapters that the system lists, `probe.rs` probes through
the one that was chosen, and `RealProber` of `runtime.rs` puts the two together. What the
system lists, how a ping ends and what arrives over HTTP are inputs; `str::to_lowercase`,
which knows all of Unicode, is the parameter `toLowercase`.
-/

namespace GdutNet

open Sorting

/-! ## Adapters -/

inductive IfType where
  | ethernet
  | wlan
  | ppp
  | other
deriving DecidableEq, Repr

structure RawAdapter where
  ifType : IfType
  name : String
  desc : String
  ipv4 : Option Ipv4Addr
  gateway : Option Ipv4Addr
  ifindex : ℕ
  operUp : Bool
  hasDns : Bool
deriving DecidableEq, Repr

structure AdapterInfo where
  name : String
  ipv4 : Ipv4Addr
  gateway : Option Ipv4Addr
  ifindex : ℕ
deriving DecidableEq, Repr

/-- An adapter with an address. -/
def RawAdapter.info (a : RawAdapter) : Option AdapterInfo :=
  a.ipv4.map fun ipv4 => { name := a.name, ipv4, gateway := a.gateway, ifindex := a.ifindex }

def virtualKeywords : List String :=
  ["wintun", "tun", "tap", "tailscale", "clash", "wireguard", "hyper-v", "vmware", "virtualbox",
    "vethernet", "loopback", "wan miniport"]

section Adapters

variable (toLowercase : String → String)

def isVirtual (nameOrDesc : String) : Bool :=
  virtualKeywords.any fun k => k.toList <:+: (toLowercase nameOrDesc).toList

def RawAdapter.isVirtual (a : RawAdapter) : Bool :=
  GdutNet.isVirtual toLowercase a.name || GdutNet.isVirtual toLowercase a.desc

/-- The adapters of a kind that are up, not virtual and have an address. -/
def candidates (ifType : IfType) (os : List RawAdapter) : List AdapterInfo :=
  ((os.filter fun a => a.ifType = ifType && a.operUp).filter
    fun a => !a.isVirtual toLowercase).filterMap RawAdapter.info

/-- Those with a gateway first; otherwise in the order of the list. -/
def firstCandidate (ifType : IfType) (os : List RawAdapter) : Option AdapterInfo :=
  (sortBy (fun a : AdapterInfo => a.gateway.isNone) (candidates toLowercase ifType os)).head?

/-- What `GetAdaptersAddresses` returns. -/
abbrev Listing : Type := Except String (List RawAdapter)

def physicalAdapter (listing : Listing) : Except String AdapterInfo := do
  let os ← listing
  match firstCandidate toLowercase .ethernet os with
  | some a => .ok a
  | none => .error "No usable physical Ethernet adapter found"

def wlanAdapter (listing : Listing) : Option AdapterInfo :=
  listing.toOption.bind (firstCandidate toLowercase .wlan)

def pppAdapter (listing : Listing) : Option AdapterInfo :=
  listing.toOption.bind fun os =>
    (os.filter fun a => a.ifType = .ppp).findSome? RawAdapter.info

def pppAdapterIp (listing : Listing) : Option Ipv4Addr :=
  listing.toOption.bind fun os =>
    (os.filter fun a => a.ifType = .ppp).findSome? RawAdapter.ipv4

/-- The loop of `ethernet_link_up`. -/
def linkLoop (found up : Bool) : List RawAdapter → Bool × Bool
  | [] => (found, up)
  | a :: os =>
      if a.isVirtual toLowercase then linkLoop found up os
      else linkLoop true (up || a.operUp) os

def ethernetLinkUp (listing : Listing) : Option Bool :=
  listing.toOption.bind fun os =>
    match linkLoop toLowercase false false (os.filter fun a => a.ifType = .ethernet) with
    | (true, up) => some up
    | (false, _) => none

end Adapters

/-! ## A probe -/

def verdictFromHttp (sawRedirect nexturlIsAuth : Bool) : ProbeVerdict :=
  if sawRedirect && nexturlIsAuth then .kicked else .alive

def isAuthRedirect (locationLower : String) : Bool :=
  ["wlanacip", "nexturl", "portal"].any fun k => k.toList <:+: locationLower.toList

def combine : Option Bool → Option ProbeVerdict → ProbeVerdict
  | _, some .kicked => .kicked
  | some true, _ => .alive
  | _, some .alive => .alive
  | _, _ => .linkDown

def httpMaxResponse : ℕ := 16 * 1024

/-- What comes back: `none` if the connection or the request failed. -/
structure HttpAnswer where
  incoming : Option Incoming
  expired : Bool

/-- `http_get_probe`: any failure is `none`. -/
def httpGetProbe (url : String) (answer : HttpAnswer) : Option (ℕ × String) :=
  match targetAddress url, answer.incoming with
  | .ok _, some s =>
      Transport.summary (Transport.getAsync .acceptPartial httpMaxResponse answer.expired s)
  | _, _ => none

def publicProbe : Ipv4Addr := ⟨223, 5, 5, 5⟩

/-- A session's gateway is often `0.0.0.0`. -/
def icmpTarget (gateway : Option Ipv4Addr) : Ipv4Addr :=
  match gateway with
  | some g => if g = .unspecified then publicProbe else g
  | none => publicProbe

/-- `probe_once`; `ping` says whether the echo from one address to another is answered. -/
def probeOnce (ping : Ipv4Addr → Ipv4Addr → Bool) (srcIp : Ipv4Addr) (gateway : Option Ipv4Addr)
    (url : String) (answer : HttpAnswer) : ProbeVerdict :=
  combine (some (ping srcIp (icmpTarget gateway)))
    ((httpGetProbe url answer).map fun r => verdictFromHttp (r.1 = 302) (isAuthRedirect r.2))

structure RealProber where
  interface : String
  httpUrl : String
deriving DecidableEq, Repr

namespace RealProber

variable (toLowercase : String → String)

/-- The session's adapter first. Each of the two looks at a list of its own. -/
def resolveAdapter (p : RealProber) (first second : Listing) (debug : String → String) :
    Except String AdapterInfo :=
  match pppAdapter first with
  | some a => if p.interface = "" ∨ a.name = p.interface then .ok a else resolvePhysical
  | none => resolvePhysical
where
  resolvePhysical : Except String AdapterInfo :=
    match physicalAdapter toLowercase second with
    | .error e => .error e
    | .ok physical =>
        if p.interface = "" ∨ physical.name = p.interface then .ok physical
        else .error ("Config dial.interface=" ++ debug p.interface ++
          " does not match current physical adapter " ++ debug physical.name)

def probe (p : RealProber) (first second : Listing) (debug : String → String)
    (ping : Ipv4Addr → Ipv4Addr → Bool) (answer : AdapterInfo → HttpAnswer) : ProbeVerdict :=
  match p.resolveAdapter toLowercase first second debug with
  | .ok a => probeOnce ping a.ipv4 a.gateway p.httpUrl (answer a)
  | .error _ => .linkDown

end RealProber

/-! ## Which adapter -/

section Choice

variable {toLowercase : String → String}

/-- The first with a gateway, or else the first. -/
theorem firstCandidate_eq (ifType : IfType) (os : List RawAdapter) :
    firstCandidate toLowercase ifType os =
      ((candidates toLowercase ifType os).find? fun a => a.gateway.isSome).or
        (candidates toLowercase ifType os).head? := by
  unfold firstCandidate
  generalize candidates toLowercase ifType os = found
  rw [sortBy_flag, List.head?_append, ← List.head?_filter]
  have hsome : found.filter (fun a => !a.gateway.isNone) =
      found.filter (fun a => a.gateway.isSome) :=
    List.filter_congr (fun a _ => by cases a.gateway <;> rfl)
  rw [hsome]
  cases hgood : found.filter (fun a => a.gateway.isSome) with
  | cons a good => rfl
  | nil =>
      have hall : found.filter (fun a => a.gateway.isNone) = found := by
        rw [List.filter_eq_self]
        intro a ha
        have hnot := List.filter_eq_nil_iff.mp hgood a ha
        simpa using hnot
      rw [hall]

/-- A candidate is an adapter of the list that is up and not virtual. -/
theorem mem_candidates {ifType : IfType} {os : List RawAdapter} {a : AdapterInfo} :
    a ∈ candidates toLowercase ifType os ↔ ∃ raw ∈ os, raw.ifType = ifType ∧ raw.operUp = true ∧
      raw.isVirtual toLowercase = false ∧ raw.info = some a := by
  simp only [candidates, List.mem_filterMap, List.mem_filter, Bool.and_eq_true,
    decide_eq_true_eq, Bool.not_eq_true']
  constructor
  · rintro ⟨raw, ⟨⟨hraw, htype, hup⟩, hreal⟩, hinfo⟩
    exact ⟨raw, hraw, htype, hup, hreal, hinfo⟩
  · rintro ⟨raw, hraw, htype, hup, hreal, hinfo⟩
    exact ⟨raw, ⟨⟨hraw, htype, hup⟩, hreal⟩, hinfo⟩

theorem firstCandidate_mem {ifType : IfType} {os : List RawAdapter} {a : AdapterInfo}
    (h : firstCandidate toLowercase ifType os = some a) :
    a ∈ candidates toLowercase ifType os :=
  mem_sortBy.mp (List.mem_of_head? h)

theorem linkLoop_eq (found up : Bool) (os : List RawAdapter) :
    linkLoop toLowercase found up os =
      (found || os.any fun a => !a.isVirtual toLowercase,
        up || os.any fun a => !a.isVirtual toLowercase && a.operUp) := by
  induction os generalizing found up with
  | nil => simp [linkLoop]
  | cons a os ih =>
      rw [linkLoop]
      cases hvirtual : a.isVirtual toLowercase with
      | true => simp [ih, hvirtual]
      | false => simp [ih, hvirtual, Bool.or_assoc]

/-- The link is up where one card is. -/
theorem ethernetLinkUp_of_card {os : List RawAdapter} {raw : RawAdapter} (hraw : raw ∈ os)
    (htype : raw.ifType = .ethernet) (hup : raw.operUp = true)
    (hreal : raw.isVirtual toLowercase = false) :
    ethernetLinkUp toLowercase (.ok os) = some true := by
  have hcard : raw ∈ os.filter fun a => a.ifType = .ethernet := by
    simpa [htype] using hraw
  have hfound : (os.filter fun a => a.ifType = .ethernet).any
      (fun a => !a.isVirtual toLowercase) = true :=
    List.any_eq_true.mpr ⟨raw, hcard, by simp [hreal]⟩
  have hany : (os.filter fun a => a.ifType = .ethernet).any
      (fun a => !a.isVirtual toLowercase && a.operUp) = true :=
    List.any_eq_true.mpr ⟨raw, hcard, by simp [hreal, hup]⟩
  change (match linkLoop toLowercase false false (os.filter fun a => a.ifType = .ethernet) with
    | (true, up) => some up
    | (false, _) => none) = some true
  rw [linkLoop_eq, hfound, hany]
  rfl

theorem physicalAdapter_ok {os : List RawAdapter} {a : AdapterInfo}
    (h : physicalAdapter toLowercase (.ok os) = .ok a) :
    firstCandidate toLowercase .ethernet os = some a := by
  change (match firstCandidate toLowercase .ethernet os with
    | some a => .ok a
    | none => .error "No usable physical Ethernet adapter found") = Except.ok a at h
  cases hfirst : firstCandidate toLowercase .ethernet os with
  | none =>
      rw [hfirst] at h
      cases h
  | some b =>
      rw [hfirst] at h
      exact congrArg some (Except.ok.inj h)

theorem firstCandidate_linkUp {os : List RawAdapter} {a : AdapterInfo}
    (h : firstCandidate toLowercase .ethernet os = some a) :
    ethernetLinkUp toLowercase (.ok os) = some true := by
  obtain ⟨raw, hraw, htype, hup, hreal, -⟩ := mem_candidates.mp (firstCandidate_mem h)
  exact ethernetLinkUp_of_card hraw htype hup hreal

/-- The physical adapter is only taken without a session of the right name. -/
theorem resolveAdapter_ok {p : RealProber} {first second : Listing} {debug : String → String}
    {a : AdapterInfo} (h : p.resolveAdapter toLowercase first second debug = .ok a) :
    (p.interface = "" ∨ a.name = p.interface) ∧
      (pppAdapter first = some a ∨
        (∀ b, pppAdapter first = some b → p.interface ≠ "" ∧ b.name ≠ p.interface) ∧
        physicalAdapter toLowercase second = .ok a) := by
  have hphysical (hrun : RealProber.resolveAdapter.resolvePhysical toLowercase p second debug =
      .ok a) : (p.interface = "" ∨ a.name = p.interface) ∧
        physicalAdapter toLowercase second = .ok a := by
    unfold RealProber.resolveAdapter.resolvePhysical at hrun
    split at hrun
    · cases hrun
    · rename_i physical hfound
      split at hrun
      · rename_i hname
        obtain rfl := Except.ok.inj hrun
        exact ⟨hname, hfound⟩
      · cases hrun
  unfold RealProber.resolveAdapter at h
  split at h
  · rename_i b hppp
    split at h
    · rename_i hname
      obtain rfl := Except.ok.inj h
      exact ⟨hname, .inl hppp⟩
    · rename_i hname
      obtain ⟨ha, hfound⟩ := hphysical h
      refine ⟨ha, .inr ⟨?_, hfound⟩⟩
      intro c hc
      obtain rfl := Option.some.inj (hppp.symm.trans hc)
      exact not_or.mp hname
  · rename_i hnone
    obtain ⟨ha, hfound⟩ := hphysical h
    refine ⟨ha, .inr ⟨?_, hfound⟩⟩
    intro c hc
    rw [hnone] at hc
    cases hc

end Choice

/-- **The prober binds the right adapter.** It bears the configured name, if there is one.
It is the adapter of the session; without one of that name it is the first physical
adapter with a gateway, or else the first one, and then the link is up. With neither a
session nor a link every probe says that the link is down. -/
theorem prober_binds (toLowercase : String → String) (p : RealProber) (first : Listing)
    (os : List RawAdapter) (debug : String → String) :
    (∀ a, p.resolveAdapter toLowercase first (.ok os) debug = .ok a →
      (p.interface = "" ∨ a.name = p.interface) ∧
      (pppAdapter first = some a ∨
        (∀ b, pppAdapter first = some b → p.interface ≠ "" ∧ b.name ≠ p.interface) ∧
        ((candidates toLowercase .ethernet os).find? fun b => b.gateway.isSome).or
          (candidates toLowercase .ethernet os).head? = some a ∧
        ethernetLinkUp toLowercase (.ok os) = some true)) ∧
    (pppAdapter first = none → ethernetLinkUp toLowercase (.ok os) ≠ some true →
      ∀ ping answer, p.probe toLowercase first (.ok os) debug ping answer = .linkDown) := by
  constructor
  · intro a h
    obtain ⟨hname, hppp | ⟨hother, hphysical⟩⟩ := resolveAdapter_ok h
    · exact ⟨hname, .inl hppp⟩
    · have hfirst := physicalAdapter_ok hphysical
      refine ⟨hname, .inr ⟨hother, ?_, firstCandidate_linkUp hfirst⟩⟩
      rw [← firstCandidate_eq, hfirst]
  · intro hnone hdown ping answer
    unfold RealProber.probe
    split
    · rename_i a h
      obtain ⟨-, hppp | ⟨-, hphysical⟩⟩ := resolveAdapter_ok h
      · rw [hnone] at hppp
        cases hppp
      · exact absurd (firstCandidate_linkUp (physicalAdapter_ok hphysical)) hdown
    · rfl

/-! ## What a probe says -/

theorem summary_response {bs : List UInt8} {status : ℕ} {location : String} :
    Transport.summary (response bs) = some (status, location) ↔
      ∃ head tail, Transport.Headers bs head tail ∧ Transport.statusOf head = some status ∧
        Transport.locationOf head = location := by
  constructor
  · intro h
    obtain ⟨r, hr⟩ := Transport.summary_isSome.mp (by rw [h]; rfl)
    obtain ⟨head, tail, other, hheaders, hstatus⟩ := Transport.response_ok_iff.mp ⟨r, hr⟩
    rw [Transport.response_of_headers hheaders, hstatus] at h
    obtain ⟨rfl, rfl⟩ := Prod.mk.inj (Option.some.inj h)
    exact ⟨head, tail, hheaders, hstatus, rfl⟩
  · rintro ⟨head, tail, hheaders, hstatus, rfl⟩
    rw [Transport.response_of_headers hheaders, hstatus]
    rfl

theorem combine_kicked {icmpOk : Option Bool} {http : Option ProbeVerdict} :
    combine icmpOk http = .kicked ↔ http = some .kicked := by
  rcases icmpOk with _ | _ | _ <;> rcases http with _ | _ | _ | _ <;> decide

theorem combine_linkDown {ok : Bool} {http : Option ProbeVerdict} (h : http ≠ some .linkDown) :
    combine (some ok) http = .linkDown ↔ ok = false ∧ http = none := by
  rcases http with _ | _ | _ | _
  · cases ok <;> decide
  · cases ok <;> decide
  · exact absurd rfl h
  · cases ok <;> decide

theorem icmpTarget_ne (gateway : Option Ipv4Addr) : icmpTarget gateway ≠ .unspecified := by
  unfold icmpTarget
  split
  · split
    · decide
    · assumption
  · decide

/-- **A probe reads the answer as a whole.** It says that the login is needed exactly when
complete headers with status 302 and the address of a login page are among the bytes
received, up to the limit; that the link is down exactly when the ping fails and no
complete headers with a status are among them. How the bytes arrive does not matter, and
the ping never goes to the unspecified address. -/
theorem probe_verdict (ping : Ipv4Addr → Ipv4Addr → Bool) (srcIp : Ipv4Addr)
    (gateway : Option Ipv4Addr) {url : String} {t : Target × SocketAddr}
    (hurl : targetAddress url = .ok t) (s : Incoming) :
    (probeOnce ping srcIp gateway url ⟨some s, false⟩ = .kicked ↔
      ∃ head tail, Transport.Headers (s.bytes.take httpMaxResponse) head tail ∧
        Transport.statusOf head = some 302 ∧
        isAuthRedirect (Transport.locationOf head) = true) ∧
    (probeOnce ping srcIp gateway url ⟨some s, false⟩ = .linkDown ↔
      ping srcIp (icmpTarget gateway) = false ∧
      ¬ ∃ head tail status, Transport.Headers (s.bytes.take httpMaxResponse) head tail ∧
        Transport.statusOf head = some status) ∧
    (∀ s' : Incoming, s'.bytes = s.bytes →
      probeOnce ping srcIp gateway url ⟨some s', false⟩ =
        probeOnce ping srcIp gateway url ⟨some s, false⟩) ∧
    icmpTarget gateway ≠ .unspecified := by
  have hfetch (s' : Incoming) : httpGetProbe url ⟨some s', false⟩ =
      Transport.summary (response (s'.bytes.take httpMaxResponse)) := by
    rw [← Transport.acceptPartial_summary]
    simp only [httpGetProbe, hurl]
  have hverdict (r : ℕ × String) :
      verdictFromHttp (r.1 = 302) (isAuthRedirect r.2) ≠ .linkDown := by
    unfold verdictFromHttp
    split <;> decide
  refine ⟨?_, ?_, ?_, icmpTarget_ne gateway⟩
  · rw [probeOnce, combine_kicked, hfetch, Option.map_eq_some_iff]
    constructor
    · rintro ⟨⟨status, location⟩, hsummary, hkicked⟩
      obtain ⟨head, tail, hheaders, hstatus, rfl⟩ := summary_response.mp hsummary
      unfold verdictFromHttp at hkicked
      split at hkicked
      · rename_i hboth
        obtain ⟨h302, hauth⟩ := Bool.and_eq_true_iff.mp hboth
        obtain rfl : status = 302 := of_decide_eq_true h302
        exact ⟨head, tail, hheaders, hstatus, hauth⟩
      · cases hkicked
    · rintro ⟨head, tail, hheaders, hstatus, hauth⟩
      refine ⟨(302, Transport.locationOf head),
        summary_response.mpr ⟨head, tail, hheaders, hstatus, rfl⟩, ?_⟩
      simp [verdictFromHttp, hauth]
  · have hne : (httpGetProbe url ⟨some s, false⟩).map
        (fun r => verdictFromHttp (r.1 = 302) (isAuthRedirect r.2)) ≠ some .linkDown := by
      intro h
      obtain ⟨r, -, hr⟩ := Option.map_eq_some_iff.mp h
      exact hverdict r hr
    rw [probeOnce, combine_linkDown hne, Option.map_eq_none_iff, hfetch,
      ← Transport.response_ok_iff, ← Transport.summary_isSome]
    simp
  · intro s' hbytes
    rw [probeOnce, probeOnce, hfetch, hfetch, hbytes]

theorem probe_verdict_cut :
    let head := Json.utf8 "HTTP/1.0 302 Found\r\nLocation: http://Portal/"
    let whole := brokenRedirect [head ++ blankLine] (by decide)
    let cut := brokenRedirect [head ++ [0x0d, 0x0a], [0x0d, 0x0a]] (by decide)
    probeOnce (fun _ _ => true) ⟨10, 0, 0, 2⟩ none "http://223.5.5.5/" ⟨some cut, false⟩ =
      probeOnce (fun _ _ => true) ⟨10, 0, 0, 2⟩ none "http://223.5.5.5/" ⟨some whole, false⟩ := by
  intro head whole cut
  have hurl : targetAddress "http://223.5.5.5/" = .ok (⟨"223.5.5.5".toList, 80, ['/'],
      "223.5.5.5".toList⟩, .v4 ⟨223, 5, 5, 5⟩ 80) := by decide
  exact (probe_verdict (fun _ _ => true) ⟨10, 0, 0, 2⟩ none hurl whole).2.2.1 cut (by decide)

end GdutNet
