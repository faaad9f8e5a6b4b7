import GdutNet.Supervisor.Takeover
import GdutNet.Wireless.Routes

/-!
# The wireless worker

`WirelessWorker` of `runtime.rs` runs the messages of the wireless lane one by
one. Before each message, and while it idles with something left to clean up,
it retries the pending cleanup. `Service` composes it with the supervisor:
effects go out through the lane, results come back through a channel, both in
order, and any interleaving of the two sides is a run.
-/

namespace GdutNet

/-- `Shutdown` carries the wireless effects of the reaction to `Stop`. -/
inductive LaneMsg where
  | effect (effect : Effect)
  | shutdown (effects : List Effect)

def LaneMsg.effects : LaneMsg → List Effect
  | .effect e => [e]
  | .shutdown es => es

/-- How `portal::login` under its timeout ends. -/
inductive LoginAnswer where
  | replied (status : ℕ) (body : String)
  | failed (error : String)
  | timedOut

def LoginAnswer.attempt : LoginAnswer → PortalAttempt
  | .replied status body => .replied status body
  | .failed error => .failed error
  | .timedOut => .timedOut

/-- What the outside answers to one effect. `stopFirst` and `sendLost` say that
the stop signal won the race against the answer, or against sending it. -/
structure LaneAnswer where
  associate : Except String (Except String Unit) := .ok (.ok ())
  login : LoginAnswer := .timedOut
  verdict : ProbeVerdict := .alive
  stopFirst : Bool := false
  sendLost : Bool := false

inductive WorkerCall where
  | associate (profile : String)
  | disassociate
  | sleep (wait : Duration)
  | login (srcIp : Ipv4Addr) (portalUrl user pass wlanAcIp : String)
  | probeOnce (srcIp : Ipv4Addr) (gateway : Option Ipv4Addr) (url : String)
deriving DecidableEq, Repr

structure WirelessWorker where
  portalUrl : String
  wlanAcIp : String
  user : String
  pass : String
  portalIp : Ipv4Addr
  probeIp : Ipv4Addr
  egress : WirelessEgress RouteGuard
  egressError : Option String := none

namespace WirelessWorker

/-- The same test of the two targets as `Supervisor::new`. -/
def new (cfg : Config) (pass : String) (os : Os) : Option WirelessWorker :=
  match parseHttpProbeTarget cfg.wireless.portalUrl,
      parseIpv4 cfg.wireless.probeHost.toList with
  | some (portalIp, _), some probeIp =>
      some
        { portalUrl := cfg.wireless.portalUrl, wlanAcIp := cfg.wireless.wlanAcIp
          user := cfg.account.studentId, pass, portalIp, probeIp
          egress := .new (RouteGuard.new os) }
  | _, _ => none

/-- The worker as `run` spawns it, owning its two destinations. -/
def spawn (cfg : Config) (pass : String) (os : Os) : Option WirelessWorker :=
  if cfg.wireless.enabled then
    (new cfg pass os).map (fun w =>
      { w with egress := w.egress.ownDestinations [w.portalIp, w.probeIp] })
  else none

/-- A result that is not sent before the stop signal is dropped. -/
def send (a : LaneAnswer) (event : Event) : List Event :=
  if a.sendLost then [] else [event]

/-- `None` if the stop signal came first; without `raceStop` it is not waited for. -/
def raced {α : Type} (a : LaneAnswer) (raceStop : Bool) (value : α) : Option α :=
  if raceStop && a.stopFirst then none else some value

def sendRaced (a : LaneAnswer) (raceStop : Bool) (event : Event) : List Event :=
  match raced a raceStop event with
  | some event => send a event
  | none => []

def associateResult : Except String (Except String Unit) → Except String Unit
  | .error e => .error ("associate task join failed: " ++ e)
  | .ok res => res

def runEffect (w : WirelessWorker) (a : LaneAnswer) (raceStop : Bool) :
    Effect → WirelessWorker × List WorkerCall × List Event
  | .cleanupStaleRoutes =>
      let ops := { w.egress.ops with os := cleanupStale w.egress.ops.os [w.portalIp, w.probeIp] }
      ({ w with egress := { w.egress with ops } }, [], [])
  | .associate profile =>
      (w, [.associate profile],
        sendRaced a raceStop (.associateFinished (associateResult a.associate)))
  | .disassociate => (w, [.disassociate], [])
  | .acquireWirelessEgress endpoint =>
      match w.egress.acquire endpoint with
      | (egress, .ok _) => ({ w with egress, egressError := none }, [], [])
      | (egress, .error e) =>
          ({ w with egress
                    egressError := some ("Wireless Egress acquisition failed: " ++ e) }, [], [])
  | .suppressMetric ifindex target =>
      ({ w with egress := w.egress.suppressMetric ⟨.unspecified, ifindex⟩ target }, [], [])
  | .releaseMetric => ({ w with egress := w.egress.releaseMetric.1 }, [], [])
  | .teardownRoutes => ({ w with egress := w.egress.release.1, egressError := none }, [], [])
  | .settle wait => (w, [.sleep wait], [])
  | .portalAuth srcIp _ =>
      match w.egressError with
      | some error =>
          ({ w with egressError := none }, [], send a (.portalFinished (.failed error)))
      | none =>
          (w, [.login srcIp w.portalUrl w.user w.pass w.wlanAcIp],
            sendRaced a raceStop (.portalFinished a.login.attempt))
  | .wlanProbe srcIp gateway url =>
      (w, [.probeOnce srcIp gateway url], sendRaced a raceStop (.wlanProbeFinished a.verdict))
  -- an effect of the main lane is only logged
  | _ => (w, [], [])

def runEffects (w : WirelessWorker) (answers : ℕ → LaneAnswer) (raceStop : Bool) (k : ℕ) :
    List Effect → WirelessWorker × List WorkerCall × List Event
  | [] => (w, [], [])
  | effect :: effects =>
      let (w, calls, replies) := w.runEffect (answers k) raceStop effect
      let (w, calls', replies') := w.runEffects answers raceStop (k + 1) effects
      (w, calls ++ calls', replies ++ replies')

/-- Failures of the cleanup are only logged. -/
def retryCleanup (w : WirelessWorker) : WirelessWorker :=
  { w with egress := w.egress.retryCleanup.1 }

/-- One message of the loop in `run`; a shutdown is not raced against the stop. -/
def take (w : WirelessWorker) (answers : ℕ → LaneAnswer) (msg : LaneMsg) :
    WirelessWorker × List WorkerCall × List Event :=
  match msg with
  | .effect effect => w.retryCleanup.runEffects answers true 0 [effect]
  | .shutdown effects => w.retryCleanup.runEffects answers false 0 effects

end WirelessWorker

/-! ## The composition -/

/-- A message in the lane. The serial number and the event whose reaction sent
the message are there to be talked about; nothing reads them. -/
structure Sent where
  serial : ℕ
  cause : Event
  msg : LaneMsg

structure Service where
  core : Supervisor
  /-- none if it was never spawned, or has exited -/
  worker : Option WirelessWorker
  lane : List Sent := []
  /-- the result channel; every result has the serial number of its message -/
  results : List (ℕ × Event) := []
  sent : ℕ := 0

/-- The results of the worker; every other event has another source. -/
def Event.fromWorker : Event → Bool
  | .associateFinished _ | .portalFinished _ | .wlanProbeFinished _ => true
  | _ => false

namespace Service

inductive Act where
  /-- an event from any source but the worker -/
  | event (i : Input)
  /-- the oldest result of the worker -/
  | deliver (now wall : ℕ)
  /-- the worker takes the oldest message -/
  | work (answers : ℕ → LaneAnswer)
  /-- the idle timer of the worker -/
  | tick

/-- What one step did, besides the state. -/
structure Outcome where
  input : Option Input := none
  delivered : Option ℕ := none
  sent : List Sent := []
  taken : Option Sent := none
  calls : List WorkerCall := []
  replies : List Event := []

def new (cfg : Config) (pass : String) (os : Os) : Service :=
  { core := Supervisor.new cfg, worker := WirelessWorker.spawn cfg pass os }

/-- The messages a reaction puts into the lane. While stopping they are collected
for the shutdown. -/
def messages (event : Event) (effects : List Effect) : List LaneMsg :=
  match event with
  | .stop => [.shutdown (effects.filter (·.lane = .wireless))]
  | _ => (effects.filter (·.lane = .wireless)).map .effect

def number (event : Event) (k : ℕ) (msgs : List LaneMsg) : List Sent :=
  (msgs.zipIdx k).map (fun p => ⟨p.2, event, p.1⟩)

theorem messages_effects (event : Event) (effects : List Effect) :
    (messages event effects).flatMap LaneMsg.effects =
      effects.filter (·.lane = .wireless) := by
  unfold messages
  split
  · simp [LaneMsg.effects]
  · simp [List.flatMap_map, LaneMsg.effects]

theorem mem_number {event : Event} {k : ℕ} {msgs : List LaneMsg} {s : Sent}
    (h : s ∈ number event k msgs) : s.cause = event ∧ s.msg ∈ msgs := by
  obtain ⟨p, hp, rfl⟩ := List.mem_map.mp h
  exact ⟨rfl, List.fst_mem_of_mem_zipIdx hp⟩

section Steps

variable [SerdeJson]

def react (sv : Service) (i : Input) : Service × List Sent :=
  let (core, reaction) := sv.core.step i
  let sent := number i.event sv.sent (messages i.event reaction.effects)
  ({ sv with core, lane := sv.lane ++ sent, sent := sv.sent + sent.length }, sent)

theorem react_lane (sv : Service) (i : Input) :
    (sv.react i).1.lane = sv.lane ++ (sv.react i).2 ∧ (sv.react i).1.worker = sv.worker :=
  ⟨rfl, rfl⟩

def step (sv : Service) (act : Act) : Service × Outcome :=
  match act with
  | .event i =>
      if i.event.fromWorker then (sv, {})
      else
        let (sv, sent) := sv.react i
        (sv, { input := some i, sent })
  | .deliver now wall =>
      match sv.results with
      | [] => (sv, {})
      | (serial, event) :: results =>
          let (sv, sent) := { sv with results }.react ⟨now, wall, event⟩
          (sv, { input := some ⟨now, wall, event⟩, delivered := some serial, sent })
  | .work answers =>
      match sv.worker, sv.lane with
      | some w, s :: lane =>
          let (w, calls, replies) := w.take answers s.msg
          ({ sv with worker := if s.msg matches .shutdown _ then none else some w
                     lane, results := sv.results ++ replies.map (s.serial, ·) },
            { taken := some s, calls, replies })
      | _, _ => (sv, {})
  | .tick =>
      ({ sv with worker := sv.worker.map (fun w =>
          if w.egress.hasPendingCleanup then w.retryCleanup else w) }, {})

/-- Everything one act can do. -/
inductive Went (sv : Service) (act : Act) : Service × Outcome → Prop
  | idle : Went sv act (sv, {})
  | event {i : Input} (hsource : i.event.fromWorker = false) :
      Went sv act ((sv.react i).1, { input := some i, sent := (sv.react i).2 })
  | deliver {i : Input} {serial : ℕ} {results : List (ℕ × Event)}
      (hresults : sv.results = (serial, i.event) :: results) :
      Went sv act (({ sv with results }.react i).1,
        { input := some i, delivered := some serial, sent := ({ sv with results }.react i).2 })
  | work {answers : ℕ → LaneAnswer} {w : WirelessWorker} {s : Sent} {lane : List Sent}
      (hact : act = .work answers) (hworker : sv.worker = some w) (hlane : sv.lane = s :: lane) :
      Went sv act
        ({ sv with worker := if s.msg matches .shutdown _ then none
                     else some (w.take answers s.msg).1
                   lane
                   results := sv.results ++ (w.take answers s.msg).2.2.map (s.serial, ·) },
          { taken := some s, calls := (w.take answers s.msg).2.1
            replies := (w.take answers s.msg).2.2 })
  | tick : Went sv act
      ({ sv with worker := sv.worker.map (fun w =>
          if w.egress.hasPendingCleanup then w.retryCleanup else w) }, {})

theorem step_went (sv : Service) (act : Act) : sv.Went act (sv.step act) := by
  cases act with
  | event i =>
      unfold step
      dsimp only
      split
      · exact .idle
      · rename_i hsource
        exact .event (by simpa using hsource)
  | deliver now wall =>
      unfold step
      dsimp only
      split
      · exact .idle
      · rename_i serial event results hresults
        exact .deliver (i := ⟨now, wall, event⟩) hresults
  | work answers =>
      unfold step
      dsimp only
      split
      · rename_i w s lane hworker hlane
        exact .work rfl hworker hlane
      · exact .idle
  | tick => exact .tick

abbrev Record : Type := Machine.Step Service Act Outcome

def history (cfg : Config) (pass : String) (os : Os) (acts : List Act) : List Record :=
  Machine.trace step (new cfg pass os) acts

def after (cfg : Config) (pass : String) (os : Os) (acts : List Act) : Service :=
  Machine.final step (new cfg pass os) acts

end Steps

end Service

end GdutNet
