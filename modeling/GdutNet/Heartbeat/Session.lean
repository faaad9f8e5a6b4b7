import Mathlib
import GdutNet.Base
import GdutNet.Heartbeat.Spec
import GdutNet.Ipc.Protocol
import GdutNet.Machine.Trace

/-!
# The heartbeat session

`heartbeat/session.rs`: the rounds of `run_blocking`. What the socket answers, when
the token is cancelled and what is drawn at random is the input of a round; what
the session does with the socket, its sleeps and its status is its output. A
cancelled token stays cancelled. Logging is left out.
-/

set_option mvcgen.warning false

namespace GdutNet.Heartbeat

open Std.Do

def recvTimeoutLimit : ℕ := 5

def ka1ToKa2Delay : Duration := .fromSecs 3

def bindErrMsg : String := "Port 61440 in use, compatibility mode unavailable"

/-- How a `recv` ends: with a datagram, in its timeout of 2 s, or at once with an error. -/
inductive Recv where
  | data (bytes : List UInt8)
  | timeout
  | error
deriving DecidableEq, Repr

inductive Event where
  | sent (pkt : List UInt8)
  | received (answer : Recv)
  /-- a sleep that was not cut short -/
  | slept (total : Duration)
  | status (s : HeartbeatStatus)
deriving DecidableEq, Repr

/-- How `run_blocking` ends. -/
inductive Exit where
  | returned (r : Except String Unit)
  /-- the panic of an arithmetic overflow -/
  | overflow

/-- What the world does in one round: the `i`-th look at the token, the `i`-th
`recv`, `send` and random number. -/
structure RoundEnv where
  cancels : ℕ → Bool
  answer : ℕ → Recv
  sendError : ℕ → Option String
  rand : ℕ → UInt16

/-- The locals of `run_blocking`. -/
structure Locals where
  ka1Cnt : UInt8 := 0x01
  ka2Cnt : UInt8 := 0
  ka1Flag : Flag := #v[0x00, 0x00]
  ka2Flag : Flag := #v[0x00, 0x00]

structure World where
  locals : Locals
  cancelled : Bool
  checks : ℕ := 0
  recvs : ℕ := 0
  sends : ℕ := 0
  rands : ℕ := 0
  log : List Event := []

abbrev Act := EStateM Exit World

section Round

variable (env : RoundEnv)

def isCancelled : Act Bool := do
  let w ← get
  let c := w.cancelled || env.cancels w.checks
  set { w with cancelled := c, checks := w.checks + 1 }
  return c

def emit (e : Event) : Act Unit :=
  modify fun w => { w with log := w.log ++ [e] }

def recv : Act Recv := do
  let w ← get
  set { w with recvs := w.recvs + 1 }
  emit (.received (env.answer w.recvs))
  return env.answer w.recvs

/-- A failed `send` is reported and ends the session. -/
def send (name : String) (pkt : List UInt8) : Act Unit := do
  let w ← get
  set { w with sends := w.sends + 1 }
  match env.sendError w.sends with
  | none => emit (.sent pkt)
  | some e =>
      let msg := name ++ " send failed: " ++ e
      emit (.status (.error msg))
      throw (.returned (.error msg))

def newRand : Act UInt16 := do
  let w ← get
  set { w with rands := w.rands + 1 }
  return env.rand w.rands

/-- The token is looked at again and again; the last look tells. -/
def sleepInterruptible (total : Duration) : Act Bool := do
  if ← isCancelled env then
    return false
  emit (.slept total)
  return true

def recvRetry : ℕ → Act (Option (List UInt8))
  | 0 => return none
  | i + 1 => do
      if ← isCancelled env then
        return none
      match ← recv env with
      | .data bytes => return some bytes
      | .timeout => recvRetry i
      | .error => return none

/-- `next_cnt` of both counters. -/
def advance : Act Unit := do
  let w ← get
  match nextCnt w.locals.ka1Cnt, nextCnt w.locals.ka2Cnt with
  | some c1, some c2 => set { w with locals := { w.locals with ka1Cnt := c1, ka2Cnt := c2 } }
  | _, _ => throw .overflow

def setKa1Flag (f : Option Flag) : Act Unit :=
  modify fun w => { w with locals := { w.locals with ka1Flag := f.getD w.locals.ka1Flag } }

def setKa2Flag (f : Option Flag) : Act Unit :=
  modify fun w => { w with locals := { w.locals with ka2Flag := f.getD w.locals.ka2Flag } }

/-- A reply to `ka2_pkt1`: the key, and the flag if there is one. -/
def learnKey (resp : List UInt8) : Act (Option Key) :=
  match parseKa2Resp resp with
  | none => return none
  | some r => do
      setKa2Flag r.flag
      return some r.key

def sendKa2Pkt1 (name : String) : Act Unit := do
  let rand ← newRand env
  let w ← get
  send env name (ka2Pkt1 w.locals.ka2Cnt w.locals.ka2Flag rand #v[0, 0, 0, 0])

/-- `ka2_pkt1` and its reply, with one retry after a file packet; `none` resets the
round. -/
def exchangeKey : Act (Option Key) := do
  sendKa2Pkt1 env "ka2_pkt1"
  match ← recvRetry env recvTimeoutLimit with
  | none => return none
  | some resp =>
      if resp.head? = some 0x07 ∧ resp[2]? = some 0x10 then
        setKa2Flag ((parseKa2Resp resp).bind Ka2Resp.flag)
        sendKa2Pkt1 env "ka2_pkt1 (retry)"
        match ← recvRetry env recvTimeoutLimit with
        | none => return none
        | some resp => learnKey resp
      else learnKey resp

def ret : Act Unit := throw (.returned (.ok ()))

/-- `ka1_pkt1` and its reply; `none` resets the round. -/
def probe : Act (Option Ka1Init) := do
  let w ← get
  send env "ka1_pkt1" (ka1Pkt1 w.locals.ka1Cnt)
  match ← recvRetry env recvTimeoutLimit with
  | none => return none
  | some resp => return parseKa1Resp resp

variable (interval : Duration)

/-- The second half of a round: the key, `ka2_pkt2`, the counters, the pause. -/
def confirm (hostIp : HostIp) : Act Unit := do
  match ← exchangeKey env with
  | none => return
  | some key =>
      let rand ← newRand env
      let w ← get
      send env "ka2_pkt2" (ka2Pkt2 w.locals.ka2Cnt w.locals.ka2Flag rand key hostIp)
      advance
      if !(← sleepInterruptible env (interval.saturatingSub ka1ToKa2Delay)) then
        ret

variable [Digests]

/-- From a good reply to `ka1_pkt1` on. -/
def keepAlive (init : Ka1Init) : Act Unit := do
  setKa1Flag init.flag
  let w ← get
  send env "ka1_pkt2" (ka1Pkt2 w.locals.ka1Cnt true init.hostIp init.seed w.locals.ka1Flag)
  if !(← sleepInterruptible env ka1ToKa2Delay) then
    ret
  confirm env interval init.hostIp

/-- One pass of the loop. It ends in a `continue`, or with an `Exit`. -/
def round : Act Unit := do
  if ← isCancelled env then
    ret
  match ← probe env with
  | none => return
  | some init => keepAlive env interval init

end Round

/-! ## The session -/

structure Session where
  locals : Locals := {}
  cancelled : Bool := false
  exit : Option Exit := none

/-- What fails before the loop: `bind`, `connect`, `set_read_timeout`. -/
structure Opening where
  bindError : Option String := none
  connectError : Option String := none
  timeoutError : Option String := none

/-- Up to the loop. -/
def openSession (server : Ipv4Addr) (port : ℕ) (o : Opening) : Session × List Event :=
  match o.bindError with
  | some e =>
      ({ exit := some (.returned (.error (bindErrMsg ++ ": " ++ e))) },
        [.status (.error bindErrMsg)])
  | none =>
      let failed (msg : String) : Session × List Event :=
        ({ exit := some (.returned (.error msg)) }, [.status .running, .status (.error msg)])
      match o.connectError, o.timeoutError with
      | some e, _ => failed ("connect " ++ server.toText ++ ":" ++ toString port ++ " failed: " ++ e)
      | none, some e => failed ("Failed to set recv timeout: " ++ e)
      | none, none => ({}, [.status .running])

/-- One round of a session that has not ended. -/
def step [Digests] (interval : Duration) (s : Session) (env : RoundEnv) : Session × List Event :=
  match s.exit with
  | some _ => (s, [])
  | none =>
      match (round env interval).run { locals := s.locals, cancelled := s.cancelled } with
      | .ok _ w => ({ locals := w.locals, cancelled := w.cancelled }, w.log)
      | .error e w => ({ locals := w.locals, cancelled := w.cancelled, exit := some e }, w.log)

/-- `run_blocking`, round after round. -/
def rounds [Digests] (interval : Duration) (start : Session) (envs : List RoundEnv) :
    List (Machine.Step Session RoundEnv (List Event)) :=
  Machine.trace (step interval) start envs

end GdutNet.Heartbeat
