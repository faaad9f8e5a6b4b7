import GdutNet.Stream.Sorting
import GdutNet.Watchdog.Session
import Mathlib.Data.List.DropRight
import Mathlib.Data.List.Infix

/-!
# Stale sessions and a stuck port

`ras.rs`: a dial that finds the port taken hangs up what occupies it and is made once
more. Where that does not help, the dialer of `runtime.rs` restarts RasMan at every third
failure in a row. What RAS enumerates and answers are inputs.
-/

namespace GdutNet

namespace Ras

/-! ## The session to hang up -/

/-- `str::encode_utf16`. -/
def encodeUtf16 (s : String) : List ℕ :=
  s.toList.flatMap fun c =>
    if c.toNat < 0x10000 then [c.toNat]
    else [0xd800 + (c.toNat - 0x10000) / 0x400, 0xdc00 + (c.toNat - 0x10000) % 0x400]

/-- A connection of `RasEnumConnectionsW`; the texts are UTF-16 up to a zero. -/
structure Connection where
  entryName : List ℕ
  phonebook : List ℕ
  deviceName : List ℕ
  handle : ℕ
deriving DecidableEq, Repr

def entryNameSlice (buf : List ℕ) : List ℕ := buf.takeWhile (· ≠ 0)

/-- `char::from_u32`, with `'\0'` for a surrogate, in lower case if it is a letter. -/
def asciiLower (unit : ℕ) : ℕ :=
  if 0xd800 ≤ unit ∧ unit ≤ 0xdfff then 0
  else if 0x41 ≤ unit ∧ unit ≤ 0x5a then unit + 0x20
  else unit

def pbkEqCi (a b : List ℕ) : Bool :=
  (entryNameSlice a).map asciiLower = (entryNameSlice b).map asciiLower

section Find

variable (pbk name : String)

def sameEntry (c : Connection) : Bool := entryNameSlice c.entryName = encodeUtf16 name

def exactEntry (c : Connection) : Bool :=
  sameEntry name c && pbkEqCi c.phonebook (encodeUtf16 pbk)

def isPppoe (c : Connection) : Bool :=
  encodeUtf16 "PPPoE" <:+: entryNameSlice c.deviceName ||
    encodeUtf16 "PPOE" <:+: entryNameSlice c.deviceName

/-- The entry itself, one of its name, a broadband connection, or any. -/
def findEntryConnection (conns : List Connection) : Option Connection :=
  match conns.find? (exactEntry pbk name) with
  | some c => some c
  | none =>
      match conns.find? (sameEntry name) with
      | some c => some c
      | none =>
          match conns.find? isPppoe with
          | some c => some c
          | none => conns.head?

/-- How far a connection is from being ours. -/
def distance (c : Connection) : ℕ :=
  if exactEntry pbk name c then 0 else if sameEntry name c then 1 else if isPppoe c then 2 else 3

theorem distance_eq (c : Connection) :
    distance pbk name c =
      [exactEntry pbk name, sameEntry name, isPppoe, fun _ => true].findIdx (· c) := by
  unfold distance
  split_ifs <;> simp_all [List.findIdx_cons]

theorem findEntryConnection_eq (conns : List Connection) :
    findEntryConnection pbk name conns =
      [exactEntry pbk name, sameEntry name, isPppoe, fun _ => true].findSome? conns.find? := by
  unfold findEntryConnection
  have hhead : conns.head? = conns.find? fun _ => true := by cases conns <;> rfl
  simp only [List.findSome?_cons, List.findSome?_nil, hhead]
  repeat' split
  all_goals simp_all

variable {pbk name}

/-- The first of the connections that are closest. -/
theorem findEntryConnection_some {conns : List Connection} {c : Connection}
    (h : findEntryConnection pbk name conns = some c) :
    ∃ before after, conns = before ++ c :: after ∧
      (∀ d ∈ before, distance pbk name c < distance pbk name d) ∧
      ∀ d ∈ after, distance pbk name c ≤ distance pbk name d := by
  simp only [distance_eq]
  exact Sorting.findSome_find (findEntryConnection_eq pbk name conns ▸ h)

theorem findEntryConnection_none {conns : List Connection} :
    findEntryConnection pbk name conns = none ↔ conns = [] := by
  rw [findEntryConnection_eq]
  cases conns <;> simp

end Find

/-! ## One dial -/

/-- What RAS does while one dial is made: what the first `RasDialW` answers, what each
enumeration lists (nothing where it fails), and what the second answers. -/
structure Port where
  first : Except ℕ ℕ
  enumerated : ℕ → List Connection
  again : Except ℕ ℕ
  errorString : ℕ → String

inductive Call where
  | rasDial (answer : Except ℕ ℕ)
  | rasHangUp (handle : ℕ)
  | restartRasman

def classify (code : ℕ) : ErrKind := if code = 691 then .auth else .transient

/-- The connection is dialed already, or one before it is still up. -/
def stuck (code : ℕ) : Bool := code = 756 || code = 813

section Dial

variable (pbk name : String)

/-- `hangup_all_ppp` has four turns; it ends early when nothing is enumerated. -/
def hangupTurns (enumerated : ℕ → List Connection) : ℕ → ℕ → List Connection
  | 0, _ => []
  | n + 1, turn =>
      match findEntryConnection pbk name (enumerated turn) with
      | some c => c :: hangupTurns enumerated n (turn + 1)
      | none => []

def hangupAllPpp (enumerated : ℕ → List Connection) : List Connection :=
  hangupTurns pbk name enumerated 4 0

def dialOnce (errorString : ℕ → String) : Except ℕ ℕ → RasAnswer
  | .ok handle => .session handle
  | .error code =>
      match classify code with
      | .auth => .auth
      | .transient => .other code (errorString code)

/-- A port that is taken is cleared, then dialed once more. -/
def dial (port : Port) : RasAnswer × List Call :=
  match dialOnce port.errorString port.first with
  | .other code msg =>
      if stuck code then
        (dialOnce port.errorString port.again,
          .rasDial port.first ::
            ((hangupAllPpp pbk name port.enumerated).map (.rasHangUp ·.handle) ++
              [.rasDial port.again]))
      else (.other code msg, [.rasDial port.first])
  | other => (other, [.rasDial port.first])

/-- A hangup takes the connection off the list that the next turn sees. -/
def Drains (enumerated : ℕ → List Connection) : Prop :=
  ∀ i < 4, ∀ c ∈ findEntryConnection pbk name (enumerated i),
    enumerated (i + 1) = (enumerated i).erase c

instance (enumerated : ℕ → List Connection) : Decidable (Drains pbk name enumerated) :=
  inferInstanceAs (Decidable (∀ i < 4, ∀ c ∈ findEntryConnection pbk name (enumerated i),
    enumerated (i + 1) = (enumerated i).erase c))

variable {pbk name}

/-- The turns then go through the connections in order of their distance. -/
theorem hangupTurns_sorted {enumerated : ℕ → List Connection}
    (hdrains : Drains pbk name enumerated) {n turn : ℕ} (hturn : turn + n ≤ 4) :
    hangupTurns pbk name enumerated n turn =
      (Sorting.sortBy (distance pbk name) (enumerated turn)).take n := by
  induction n generalizing turn with
  | zero => rfl
  | succ n ih =>
      unfold hangupTurns
      split
      · rename_i c hfind
        rw [ih (by omega), hdrains turn (by omega) c hfind]
        obtain ⟨before, after, henum, hbefore, hafter⟩ := findEntryConnection_some hfind
        rw [henum, Sorting.sortBy_take_succ n hbefore hafter]
      · rename_i hfind
        rw [findEntryConnection_none.mp hfind]
        simp [Sorting.sortBy]

theorem enumerated_length {enumerated : ℕ → List Connection}
    (hdrains : Drains pbk name enumerated) {i : ℕ} (hi : i ≤ 4)
    (hlen : i ≤ (enumerated 0).length) : (enumerated i).length = (enumerated 0).length - i := by
  induction i with
  | zero => rfl
  | succ i ih =>
      have hrest := ih (by omega) (by omega)
      cases hfind : findEntryConnection pbk name (enumerated i) with
      | none =>
          rw [findEntryConnection_none.mp hfind, List.length_nil] at hrest
          omega
      | some c =>
          obtain ⟨before, after, henum, -⟩ := findEntryConnection_some hfind
          have hmem : c ∈ enumerated i := by rw [henum]; simp
          rw [hdrains i hi c hfind, List.length_erase_of_mem hmem, hrest]
          omega

theorem dial_stuck {port : Port} {code : ℕ} (hfirst : port.first = .error code)
    (hstuck : stuck code) :
    dial pbk name port = (dialOnce port.errorString port.again,
      .rasDial (.error code) ::
        ((hangupAllPpp pbk name port.enumerated).map (.rasHangUp ·.handle) ++
          [.rasDial port.again])) := by
  have hcode : classify code = .transient := by
    unfold classify stuck at *
    split
    · simp_all
    · rfl
  simp [dial, hfirst, dialOnce, hcode, hstuck]

theorem dial_plain {port : Port} (hfirst : ∀ code, port.first = .error code → stuck code = false) :
    dial pbk name port = (dialOnce port.errorString port.first, [.rasDial port.first]) := by
  unfold dial
  cases hport : port.first with
  | ok handle => rfl
  | error code =>
      have hplain := hfirst code hport
      cases hcode : classify code <;> simp [dialOnce, hcode, hplain]

end Dial

end Ras

open Ras in
/-- **Stale sessions.** A dial that finds the port taken hangs up the four closest
connections, the entry's own first, those of its name next, then other broadband ones,
and is made once more; up to four of them leave none. Any other dial hangs up nothing. -/
theorem stale_sessions (pbk name : String) (port : Port)
    (hdrains : Drains pbk name port.enumerated) :
    (∀ code, port.first = .error code → stuck code →
      dial pbk name port = (dialOnce port.errorString port.again,
        .rasDial (.error code) ::
          (((Sorting.sortBy (distance pbk name) (port.enumerated 0)).take 4).map
            (.rasHangUp ·.handle) ++ [.rasDial port.again]))) ∧
    ((∀ code, port.first = .error code → stuck code = false) →
      dial pbk name port = (dialOnce port.errorString port.first, [.rasDial port.first])) ∧
    ((port.enumerated 0).length ≤ 4 → port.enumerated (port.enumerated 0).length = []) := by
  refine ⟨fun code hfirst hstuck => ?_, dial_plain, fun hlen => ?_⟩
  · rw [dial_stuck hfirst hstuck, hangupAllPpp, hangupTurns_sorted hdrains (by omega)]
  · rw [← List.length_eq_zero_iff, enumerated_length hdrains hlen le_rfl]
    omega

/-- Someone else's connection is enumerated before the entry's own. -/
def Ras.crowdedPort : Ras.Port where
  first := .error 756
  enumerated
    | 0 => [⟨Ras.encodeUtf16 "office" ++ [0, 7], [], [], 2⟩,
        ⟨Ras.encodeUtf16 "gdut", Ras.encodeUtf16 "C:\\NET.PBK", [], 1⟩]
    | 1 => [⟨Ras.encodeUtf16 "office" ++ [0, 7], [], [], 2⟩]
    | _ => []
  again := .ok 5
  errorString := fun _ => ""

theorem stale_sessions_own_first :
    Ras.dial "c:\\net.pbk" "gdut" Ras.crowdedPort = (.session 5,
      [.rasDial (.error 756), .rasHangUp 1, .rasHangUp 2, .rasDial (.ok 5)]) ∧
    Ras.crowdedPort.enumerated 2 = [] := by
  exact ⟨rfl, (stale_sessions "c:\\net.pbk" "gdut" Ras.crowdedPort (by decide +kernel)).2.2
    (by decide)⟩

namespace Ras

/-! ## The guard on top of it -/

/-- A step makes at most one dial; its task may fail to be joined. -/
inductive LinkedCall where
  | runOnce (port : Except String Port) (status : Bool) (probe : ProbeVerdict) (wall : ℕ)
  | requestRedial
  | setEthLink (up : Option Bool)

/-- A call of the guard to its dialer, and what RAS is asked for it. -/
structure Asked where
  dialer : RealDialer
  call : DialerCall
  answer : RasAnswer
  calls : List Call

section Run

variable (pbk name : String)

def attempt : Except String Port → RasAnswer × List Call
  | .ok port => dial pbk name port
  | .error e => (.joinFailed e, [])

/-- The third dial in a row that finds the port taken restarts RasMan. -/
def ask (port : Except String Port) (e : RealDialer × DialerCall) : Asked where
  dialer := e.1
  call := e.2
  answer := (attempt pbk name port).1
  calls :=
    match e.2 with
    | .dial =>
        (attempt pbk name port).2 ++
          if (e.1.dial (attempt pbk name port).1).2.2 then [.restartRasman] else []
    | .hangup => e.1.session.toList.map .rasHangUp
    | .isConnected | .probe => []

def step (g : Guarded) : LinkedCall → Guarded × List Asked
  | .runOnce port status probe wall =>
      let (g, entries) := g.step (.runOnce (attempt pbk name port).1 status probe wall)
      (g, entries.map (ask pbk name port))
  | .requestRedial => ((g.step .requestRedial).1, [])
  | .setEthLink up => ((g.step (.setEthLink up)).1, [])

abbrev Record : Type := Machine.Step Guarded LinkedCall (List Asked)

def history (cfg : WatchdogCfg) (calls : List LinkedCall) : List Record :=
  Machine.trace (step pbk name) { wd := .new cfg } calls

def after (cfg : WatchdogCfg) (calls : List LinkedCall) : Guarded :=
  Machine.final (step pbk name) { wd := .new cfg } calls

end Run

def asked (past : List Record) : List Asked := past.flatMap (·.out)

def callsOf (past : List Record) : List Call := (asked past).flatMap (·.calls)

/-! ## What RAS is asked over a run -/

/-- The handle `RasDialW` returned last and nobody hung up, and the hangups that a port
found taken still allows. -/
structure Conduct where
  held : Option ℕ := none
  turns : ℕ := 0
deriving DecidableEq

/-- No dial over a session. A session of someone else is hung up only to clear the port,
and RasMan restarted only when the last dial found it taken. -/
def Conduct.step (s : Conduct) : Call → Option Conduct
  | .rasDial (.ok handle) => if s.held = none then some ⟨some handle, 0⟩ else none
  | .rasDial (.error code) =>
      if s.held = none then some ⟨none, if stuck code then 4 else 0⟩ else none
  | .rasHangUp handle =>
      if s.held = some handle then some {}
      else if s.held = none ∧ 0 < s.turns then some ⟨none, s.turns - 1⟩
      else none
  | .restartRasman => if s.held = none ∧ 0 < s.turns then some {} else none

/-- The session an answer leaves behind. -/
def session : RasAnswer → Option ℕ
  | .session handle => some handle
  | _ => none

/-- The answer says the port is taken. -/
def wedged (answer : RasAnswer) : Bool :=
  match answer.result with
  | .ok _ => false
  | .error e => stuck e.code

theorem step_rasDial {s : Conduct} (hs : s.held = none) (errorString : ℕ → String)
    (answer : Except ℕ ℕ) :
    s.step (.rasDial answer) = some ⟨session (dialOnce errorString answer),
      if wedged (dialOnce errorString answer) then 4 else 0⟩ := by
  cases answer with
  | ok handle => simp [Conduct.step, hs, dialOnce, session, wedged, RasAnswer.result]
  | error code =>
      by_cases hauth : code = 691
      · subst hauth
        simp [Conduct.step, hs, dialOnce, classify, session, wedged, RasAnswer.result, stuck]
      · simp [Conduct.step, hs, dialOnce, classify, hauth, session, wedged, RasAnswer.result]

theorem conduct_hangups {hung : List Connection} {n : ℕ} (h : hung.length ≤ n) :
    (hung.map (Call.rasHangUp ·.handle)).foldlM Conduct.step ⟨none, n⟩ =
      some ⟨none, n - hung.length⟩ := by
  induction hung generalizing n with
  | nil => rfl
  | cons c hung ih =>
      rw [List.length_cons] at h
      have hstep : Conduct.step ⟨none, n⟩ (.rasHangUp c.handle) = some ⟨none, n - 1⟩ := by
        simp [Conduct.step, show 0 < n by omega]
      rw [List.map_cons, List.foldlM_cons, hstep]
      simp only [Option.bind_eq_bind, Option.bind_some, List.length_cons]
      rw [ih (by omega), Nat.sub_sub, Nat.add_comm]

theorem hangupTurns_length (pbk name : String) (enumerated : ℕ → List Connection) (n turn : ℕ) :
    (hangupTurns pbk name enumerated n turn).length ≤ n := by
  induction n generalizing turn with
  | zero => simp [hangupTurns]
  | succ n ih =>
      unfold hangupTurns
      split
      · simpa using ih (turn + 1)
      · simp

theorem hangupAllPpp_length (pbk name : String) (enumerated : ℕ → List Connection) :
    (hangupAllPpp pbk name enumerated).length ≤ 4 :=
  hangupTurns_length pbk name enumerated 4 0

variable {pbk name : String}

theorem conduct_dial {s : Conduct} (hs : s.held = none) (port : Port) :
    (dial pbk name port).2.foldlM Conduct.step s = some ⟨session (dial pbk name port).1,
      if wedged (dial pbk name port).1 then 4 else 0⟩ := by
  by_cases hfirst : ∃ code, port.first = .error code ∧ stuck code
  · obtain ⟨code, hfirst, hstuck⟩ := hfirst
    rw [dial_stuck hfirst hstuck]
    have hcall : s.step (.rasDial (.error code)) = some ⟨none, 4⟩ := by
      simp [Conduct.step, hs, hstuck]
    rw [List.foldlM_cons, hcall, Option.bind_eq_bind, Option.bind_some, List.foldlM_append,
      conduct_hangups (hangupAllPpp_length _ _ _)]
    simpa using step_rasDial rfl port.errorString port.again
  · rw [dial_plain (by simpa using hfirst)]
    simpa using step_rasDial hs port.errorString port.first

theorem conduct_attempt {s : Conduct} (hs : s.held = none) (port : Except String Port) :
    ∃ s', (attempt pbk name port).2.foldlM Conduct.step s = some s' ∧
      s'.held = session (attempt pbk name port).1 ∧
      (wedged (attempt pbk name port).1 = true → 0 < s'.turns) := by
  cases port with
  | ok port =>
      refine ⟨_, conduct_dial hs port, rfl, fun hwedged => ?_⟩
      rw [attempt] at hwedged
      simp [hwedged]
  | error e =>
      refine ⟨s, rfl, hs, fun hwedged => ?_⟩
      simp [attempt, wedged, RasAnswer.result, stuck] at hwedged

/-- What a dial does to the dialer and whether it restarts RasMan. -/
theorem dial_wedge (d : RealDialer) (answer : RasAnswer) :
    (d.dial answer).1.wedgeFails =
        (if wedged answer ∧ d.wedgeFails + 1 < wedgeRestartAfter then d.wedgeFails + 1 else 0) ∧
      (d.dial answer).2.2 = (wedged answer && wedgeRestartAfter ≤ d.wedgeFails + 1) ∧
      (d.session = none → (d.dial answer).1.session = session answer) := by
  unfold RealDialer.dial wedged
  cases hresult : answer.result with
  | ok handle =>
      cases answer <;> simp_all [RasAnswer.result, session]
  | error e =>
      have hnone : session answer = none := by
        cases answer <;> simp_all [RasAnswer.result, session]
      dsimp only
      split
      · rename_i hstuck
        have hstuck : stuck e.code = true := hstuck
        split
        · rename_i hlimit
          simp [hstuck, hlimit, hnone]
        · rename_i hlimit
          simp [hstuck, hlimit, hnone, Nat.lt_of_not_le hlimit]
      · rename_i hstuck
        have hstuck : stuck e.code = false := Bool.eq_false_iff.mpr hstuck
        simp [hstuck, hnone]

/-- One call of the guard. -/
theorem conduct_ask {s : Conduct} {port : Except String Port} {d : RealDialer} {c : DialerCall}
    (hheld : s.held = d.session) (hdial : c = .dial → d.session = none) :
    ∃ s', (ask pbk name port (d, c)).calls.foldlM Conduct.step s = some s' ∧
      s'.held = (d.perform (attempt pbk name port).1 c).session := by
  cases c with
  | isConnected => exact ⟨s, rfl, hheld⟩
  | probe => exact ⟨s, rfl, hheld⟩
  | hangup =>
      cases hsession : d.session with
      | none => exact ⟨s, by simp [ask, hsession], hheld.trans hsession⟩
      | some handle =>
          refine ⟨{}, ?_, rfl⟩
          simp [ask, hsession, Conduct.step, hheld]
  | dial =>
      obtain ⟨s', hcalls, hs', hturns⟩ :=
        conduct_attempt (hheld.trans (hdial rfl)) port
      obtain ⟨-, hrestart, hsession⟩ := dial_wedge d (attempt pbk name port).1
      have hkept := hsession (hdial rfl)
      simp only [ask, RealDialer.perform]
      rw [hkept, List.foldlM_append, hcalls, Option.bind_eq_bind, Option.bind_some, hrestart]
      cases hwedged : wedged (attempt pbk name port).1 with
      | false => exact ⟨s', by simp, hs'⟩
      | true =>
          have hnone : session (attempt pbk name port).1 = none := by
            cases hanswer : (attempt pbk name port).1 <;>
              simp_all [wedged, RasAnswer.result, session]
          split
          · refine ⟨{}, ?_, hnone.symm⟩
            simp [Conduct.step, hs', hnone, hturns hwedged]
          · exact ⟨s', by simp, hs'⟩

theorem conduct_entries {port : Except String Port} {calls : List DialerCall} :
    ∀ {d : RealDialer} {s : Conduct}, s.held = d.session →
      (∀ d', (d', .dial) ∈ d.entries (attempt pbk name port).1 calls → d'.session = none) →
      ∃ s', ((d.entries (attempt pbk name port).1 calls).flatMap
          fun e => (ask pbk name port e).calls).foldlM Conduct.step s = some s' ∧
        s'.held = (calls.foldl (RealDialer.perform (attempt pbk name port).1) d).session := by
  induction calls with
  | nil => exact fun {d s} hheld _ => ⟨s, rfl, hheld⟩
  | cons c calls ih =>
      intro d s hheld hdials
      rw [RealDialer.entries] at hdials ⊢
      have hdial : c = .dial → d.session = none := fun hc => hdials d (by simp [hc])
      obtain ⟨s', hcall, hs'⟩ := conduct_ask hheld hdial
      obtain ⟨s'', hcalls, hs''⟩ := ih hs' fun d' hd' => hdials d' (List.mem_cons_of_mem _ hd')
      refine ⟨s'', ?_, hs''⟩
      rw [List.flatMap_cons, List.foldlM_append, hcall]
      exact hcalls

theorem step_conduct {g : Guarded} {s : Conduct} (hheld : g.Held)
    (hs : s.held = g.dialer.session) (call : LinkedCall) :
    ∃ s', (((step pbk name g call).2.flatMap (·.calls)).foldlM Conduct.step s) = some s' ∧
      s'.held = (step pbk name g call).1.dialer.session ∧ (step pbk name g call).1.Held := by
  cases call with
  | runOnce port status probe wall =>
      have hstep := g.step_held hheld (.runOnce (attempt pbk name port).1 status probe wall)
      obtain ⟨s', hcalls, hs'⟩ := conduct_entries hs hstep.2
      refine ⟨s', ?_, hs', hstep.1⟩
      simp only [step, List.flatMap_map]
      exact hcalls
  | requestRedial => exact ⟨s, rfl, hs, hheld⟩
  | setEthLink up => exact ⟨s, rfl, hs, hheld⟩

/-! ## RasMan is restarted at every third failure -/

def dialsOf (past : List Record) : List Asked := (asked past).filter (·.call = .dial)

/-- The dials in a row, up to the last, that found the port taken. -/
def streak (dials : List Asked) : ℕ := (dials.rtakeWhile (fun a => wedged a.answer)).length

theorem streak_snoc (dials : List Asked) (a : Asked) :
    streak (dials ++ [a]) = if wedged a.answer then streak dials + 1 else 0 := by
  unfold streak
  rw [List.rtakeWhile_concat]
  split <;> simp

/-- The dials of a run, and the counter after them. -/
structure Counted (dials : List Asked) (d : RealDialer) : Prop where
  counter : d.wedgeFails = streak dials % wedgeRestartAfter
  restarts : ∀ before a rest, dials = before ++ a :: rest →
    (.restartRasman ∈ a.calls ↔
      wedged a.answer = true ∧ wedgeRestartAfter ∣ streak before + 1)

theorem restart_mem_ask {port : Except String Port} {d : RealDialer} :
    .restartRasman ∈ (ask pbk name port (d, .dial)).calls ↔
      (d.dial (attempt pbk name port).1).2.2 = true := by
  have hdial : .restartRasman ∉ (attempt pbk name port).2 := by
    cases port with
    | error e => simp [attempt]
    | ok port =>
        by_cases hfirst : ∃ code, port.first = .error code ∧ stuck code
        · obtain ⟨code, hfirst, hstuck⟩ := hfirst
          simp [attempt, dial_stuck hfirst hstuck]
        · simp [attempt, dial_plain (by simpa using hfirst)]
  simp only [ask]
  split <;> simp_all

theorem Counted.dial {dials : List Asked} {d : RealDialer} (h : Counted dials d)
    (port : Except String Port) :
    Counted (dials ++ [ask pbk name port (d, .dial)]) (d.dial (attempt pbk name port).1).1 := by
  obtain ⟨hcounter, hrestart, -⟩ := dial_wedge d (attempt pbk name port).1
  have hanswer : (ask pbk name port (d, .dial)).answer = (attempt pbk name port).1 := rfl
  have hlt : d.wedgeFails < wedgeRestartAfter := h.counter ▸ Nat.mod_lt _ (by decide)
  refine ⟨?_, fun before a rest hsplit => ?_⟩
  · rw [hcounter, streak_snoc, hanswer]
    have hmod := h.counter
    unfold wedgeRestartAfter at *
    cases wedged (attempt pbk name port).1 with
    | false => simp
    | true =>
        simp only [true_and, if_true]
        split <;> omega
  · rcases List.eq_nil_or_concat rest with rfl | ⟨rest, last, rfl⟩
    · obtain ⟨rfl, hlast⟩ := List.append_inj' hsplit rfl
      obtain rfl := (List.cons.inj hlast).1
      rw [restart_mem_ask, hrestart, hanswer, Bool.and_eq_true, decide_eq_true_eq]
      have hmod := h.counter
      unfold wedgeRestartAfter at *
      exact and_congr_right fun _ => by omega
    · rw [List.concat_eq_append, ← List.cons_append, ← List.append_assoc] at hsplit
      exact h.restarts before a rest (List.append_inj' hsplit rfl).1

theorem Counted.entries {port : Except String Port} {calls : List DialerCall} :
    ∀ {dials : List Asked} {d : RealDialer}, Counted dials d →
      Counted (dials ++ ((d.entries (attempt pbk name port).1 calls).map
          (ask pbk name port)).filter (·.call = .dial))
        (calls.foldl (RealDialer.perform (attempt pbk name port).1) d) := by
  induction calls with
  | nil => exact fun {dials d} h => by simpa [RealDialer.entries] using h
  | cons c calls ih =>
      intro dials d h
      rw [RealDialer.entries, List.map_cons, List.foldl_cons]
      cases c with
      | dial =>
          rw [List.filter_cons_of_pos (by simp [ask]), ← List.singleton_append,
            ← List.append_assoc]
          exact ih (h.dial port)
      | hangup =>
          rw [List.filter_cons_of_neg (by simp [ask])]
          exact ih ⟨h.counter, h.restarts⟩
      | isConnected =>
          rw [List.filter_cons_of_neg (by simp [ask])]
          exact ih h
      | probe =>
          rw [List.filter_cons_of_neg (by simp [ask])]
          exact ih h

theorem Counted.step {past : List Record} {g : Guarded} (h : Counted (dialsOf past) g.dialer)
    (call : LinkedCall) :
    Counted (dialsOf (past ++ [Machine.stepAt (step pbk name) g call]))
      (step pbk name g call).1.dialer := by
  rw [dialsOf, asked, List.flatMap_append, List.filter_append, ← asked, ← dialsOf,
    List.flatMap_singleton]
  cases call with
  | runOnce port status probe wall => exact h.entries
  | requestRedial => simpa [Ras.step, Guarded.step] using h
  | setEthLink up => simpa [Ras.step, Guarded.step] using h

/-! ## Nothing is dialed without a cable -/

theorem mem_of_entries {answer : RasAnswer} {d : RealDialer} {calls : List DialerCall}
    {e : RealDialer × DialerCall} (h : e ∈ d.entries answer calls) : e.2 ∈ calls := by
  induction calls generalizing d with
  | nil => simp [RealDialer.entries] at h
  | cons c calls ih =>
      rcases List.mem_cons.mp h with rfl | h
      · exact List.mem_cons_self
      · exact List.mem_cons_of_mem _ (ih h)

theorem step_gated {g : Guarded} (hlink : g.wd.ethLink = some false) (call : LinkedCall) :
    ∀ a ∈ (step pbk name g call).2, ∀ c ∈ a.calls,
      ∃ handle, a.dialer.session = some handle ∧ c = .rasHangUp handle := by
  cases call with
  | requestRedial => simp [step]
  | setEthLink up => simp [step]
  | runOnce port status probe wall =>
      have hgated := Watchdog.runOnce_gated
        (a := g.answers (attempt pbk name port).1 status probe wall) hlink
      intro a ha c hc
      obtain ⟨⟨d, call⟩, hentry, rfl⟩ := List.mem_map.mp ha
      have hcall : call ∈ (g.wd.runOnce (g.answers (attempt pbk name port).1
          status probe wall)).2.2 := mem_of_entries hentry
      cases call with
      | dial => exact absurd hcall hgated
      | isConnected => simp [ask] at hc
      | probe => simp [ask] at hc
      | hangup =>
          obtain ⟨handle, hhandle, rfl⟩ := List.mem_map.mp hc
          exact ⟨handle, Option.mem_toList.mp hhandle, rfl⟩

end Ras

/-- **The port over a run.** Whatever RAS answers, a session that `RasDialW` returned is
hung up before the next `RasDialW` and before RasMan is restarted, and a session of
someone else only while clearing a port found taken, four at most. -/
theorem ras_conduct (cfg : WatchdogCfg) (pbk name : String) (calls : List Ras.LinkedCall) :
    ∃ s : Ras.Conduct,
      (Ras.callsOf (Ras.history pbk name cfg calls)).foldlM Ras.Conduct.step {} = some s ∧
        s.held = (Ras.after pbk name cfg calls).dialer.session := by
  have hrun : ∃ s : Ras.Conduct,
      (Ras.callsOf (Ras.history pbk name cfg calls)).foldlM Ras.Conduct.step {} = some s ∧
        s.held = (Ras.after pbk name cfg calls).dialer.session ∧
        (Ras.after pbk name cfg calls).Held := by
    refine Machine.history_induction (A := fun _ => True)
      (I := fun past g => ∃ s : Ras.Conduct,
        (Ras.callsOf past).foldlM Ras.Conduct.step {} = some s ∧
          s.held = g.dialer.session ∧ g.Held) ?_ ?_ calls (fun _ _ => trivial)
    · exact ⟨{}, rfl, rfl, by simp [Guarded.Held]⟩
    · rintro past g call ⟨s, hpast, hs, hheld⟩ -
      obtain ⟨s', hcalls, hs', hheld'⟩ := Ras.step_conduct hheld hs call
      refine ⟨s', ?_, hs', hheld'⟩
      rw [Ras.callsOf, Ras.asked, List.flatMap_append, List.flatMap_append, List.foldlM_append,
        ← Ras.asked, ← Ras.callsOf, hpast, List.flatMap_singleton]
      exact hcalls
  obtain ⟨s, hcalls, hs, -⟩ := hrun
  exact ⟨s, hcalls, hs⟩

/-- **RasMan restarts.** A dial restarts RasMan exactly when it found the port taken and
the number of dials in a row that did is a multiple of three; with the cable out nothing
is asked of RAS but to hang up the session of the dialer. -/
theorem rasman_restarts (cfg : WatchdogCfg) (pbk name : String) (calls : List Ras.LinkedCall) :
    (∀ before a rest, Ras.dialsOf (Ras.history pbk name cfg calls) = before ++ a :: rest →
      (.restartRasman ∈ a.calls ↔
        Ras.wedged a.answer = true ∧ wedgeRestartAfter ∣ Ras.streak before + 1)) ∧
    ∀ r ∈ Ras.history pbk name cfg calls, r.pre.wd.ethLink = some false →
      ∀ a ∈ r.out, ∀ c ∈ a.calls,
        ∃ handle, a.dialer.session = some handle ∧ c = .rasHangUp handle := by
  constructor
  · have hrun : Ras.Counted (Ras.dialsOf (Ras.history pbk name cfg calls))
        (Ras.after pbk name cfg calls).dialer := by
      refine Machine.history_induction (A := fun _ => True)
        (I := fun past g => Ras.Counted (Ras.dialsOf past) g.dialer) ?_ ?_ calls
        (fun _ _ => trivial)
      · exact ⟨rfl, fun before a rest h => by simp [Ras.dialsOf, Ras.asked] at h⟩
      · exact fun past g call h _ => h.step call
    exact hrun.restarts
  · intro r hr hlink
    obtain ⟨before, call, _, _, rfl⟩ := Machine.exists_split_of_mem hr
    exact Ras.step_gated hlink call

end GdutNet
