import GdutNet.Ipc.Protocol

/-!
# Configuration

`config.rs` and the URL parsing of `http.rs` and `probe.rs` that decides which
configurations are accepted and give the supervisor a wireless side.
-/

namespace GdutNet

/-! ## Probe targets -/

inductive ProbeVerdict where
  | alive
  | linkDown
  | kicked
deriving DecidableEq, Repr

/-- `Debug` of a verdict, as the event ring shows it. -/
def ProbeVerdict.debug : ProbeVerdict → String
  | .alive => "Alive"
  | .linkDown => "LinkDown"
  | .kicked => "Kicked"

/-- `http::Target`. -/
structure Target where
  host : List Char
  port : ℕ
  path : List Char
  hostHeader : List Char
deriving DecidableEq, Repr

/-- `http://host[:port][/path]`; no port is 80, no path is `/`. -/
def parseUrl (url : String) : Option Target := do
  let rest ← "http://".toList.isPrefixOf? url.toList
  let hostport := rest.takeWhile (· ≠ '/')
  let path := if '/' ∈ rest then rest.dropWhile (· ≠ '/') else ['/']
  if hostport.isEmpty then none
  let (host, port) ← match rsplitOnce ':' hostport with
    | some (h, p) => (parseU16 p).map (h, ·)
    | none => some (hostport, 80)
  if host.isEmpty then none
  some ⟨host, port, path, hostport⟩

/-- A probe target is `http://` and an IPv4 literal: the address and
`host:port`. -/
def parseHttpProbeTarget (url : String) : Option (Ipv4Addr × String) := do
  let t ← parseUrl url
  let ip ← parseIpv4 t.host
  some (ip, String.ofList t.host ++ ":" ++ toString t.port)

/-! ## The configuration file -/

structure Account where
  studentId : String := ""
  passwordBlob : String := ""
deriving DecidableEq, Repr

structure Dial where
  entryName : String := "gdut"
  pbkPath : String := "C:\\ProgramData\\gdut-net\\gdut.pbk"
  interface : String := ""
  probeIntervalSecs : ℕ := 30
  httpProbeUrl : String := "http://223.5.5.5"
deriving DecidableEq, Repr

structure HeartbeatCfg where
  enabled : Bool := false
  module : String := "gdut"
  server : String := "10.0.3.2"
  port : ℕ := 61440
  intervalSecs : ℕ := 20
deriving DecidableEq, Repr

structure LogCfg where
  dir : String := "C:\\ProgramData\\gdut-net\\logs"
  maxSizeMb : ℕ := 5
  rotateKeep : ℕ := 5
  eventLog : Bool := false
deriving DecidableEq, Repr

structure WirelessCfg where
  enabled : Bool := true
  mode : NetMode := .wiredExclusive
  profile : String := "gdut"
  portalUrl : String := "http://10.0.3.2:801/eportal/portal/login"
  wlanAcIp : String := "172.16.254.2"
  probeHost : String := "223.5.5.5"
  takeoverAfterSecs : ℕ := 8
  releaseAfterSecs : ℕ := 10
  standbyMetric : ℕ := 100
deriving DecidableEq, Repr

structure Config where
  account : Account := {}
  dial : Dial := {}
  heartbeat : HeartbeatCfg := {}
  log : LogCfg := {}
  wireless : WirelessCfg := {}
deriving DecidableEq, Repr

def heartbeatModuleGdut : String := "gdut"

/-- `debug` is `{:?}` of a string. -/
def Config.validate (debug : String → String) (c : Config) : Except String Unit := do
  if (trim c.account.studentId.toList).isEmpty then
    .error "account.student_id must not be empty"
  if c.heartbeat.enabled && c.heartbeat.module ≠ heartbeatModuleGdut then
    .error ("heartbeat.module only supports \"" ++ heartbeatModuleGdut ++ "\", got " ++
      debug c.heartbeat.module)
  if c.dial.probeIntervalSecs < 5 then
    .error "dial.probe_interval_secs must be >= 5"
  if (parseHttpProbeTarget c.dial.httpProbeUrl).isNone then
    .error ("dial.http_probe_url must be http:// + IPv4 literal (with optional port), got " ++
      debug c.dial.httpProbeUrl)
  let w := c.wireless
  if w.enabled then
    if (parseHttpProbeTarget w.portalUrl).isNone then
      .error ("wireless.portal_url must be http:// + IPv4 literal (with optional port), got " ++
        debug w.portalUrl)
    if (parseIpv4 w.probeHost.toList).isNone then
      .error ("wireless.probe_host must be an IPv4 literal, got " ++ debug w.probeHost)
    if w.takeoverAfterSecs < 1 || w.releaseAfterSecs < 1 then
      .error "wireless takeover_after_secs/release_after_secs must be >= 1"
    if 9999 < w.standbyMetric then
      .error "wireless.standby_metric must be <= 9999 (0 = disable)"

example : parseHttpProbeTarget "http://10.0.3.2:801/eportal/portal/login" =
    some (⟨10, 0, 3, 2⟩, "10.0.3.2:801") := by decide
example : parseHttpProbeTarget "http://example.com/" = none := by decide

end GdutNet
