import GdutNet.Runtime.Worker
import GdutNet.Wireless.Billing

/-!
# From a configuration to a running service

`run` of `runtime.rs` takes a configuration that `validate` accepted and parses
its strings again, in five places: the heartbeat server, the two targets of the
supervisor and of the worker, the operator URL and the address an HTTP request
connects to. `Runnable` says that none of them is refused; `runnable_iff` is
what validation leaves open.
-/

namespace GdutNet

/-- The heartbeat part of `run`; an error ends the service. -/
def heartbeatServer (debug : String → String) (cfg : Config) : Except String (Option Ipv4Addr) :=
  if cfg.heartbeat.enabled then
    match parseIpv4 cfg.heartbeat.server.toList with
    | some server => .ok (some server)
    | none => .error ("Failed to parse heartbeat.server: " ++ debug cfg.heartbeat.server)
  else .ok none

/-- The probe target and the connection agree on address and port. -/
def SameTarget (url : String) : Prop :=
  ∃ ip text t, parseHttpProbeTarget url = some (ip, text) ∧
    targetAddress url = .ok (t, .v4 ip t.port) ∧
    text = String.ofList t.host ++ ":" ++ toString t.port

/-- Nothing of the assembly that depends on the configuration alone fails. -/
structure Runnable (debug : String → String) (cfg : Config) : Prop where
  heartbeat : ∃ server, heartbeatServer debug cfg = .ok server
  heartbeat_ip : cfg.heartbeat.enabled = true →
    ∃ ip, parseIpv4 cfg.heartbeat.server.toList = some ip
  brain : cfg.wireless.enabled = true → (Supervisor.new cfg).brain.isSome = true
  worker : cfg.wireless.enabled = true → ∀ pass os, ∃ w, WirelessWorker.new cfg pass os = some w ∧
    (Supervisor.new cfg).portalIp = some w.portalIp ∧
    (Supervisor.new cfg).probeIp = some w.probeIp
  operator : cfg.wireless.enabled = true → ∀ user confirm,
    (buildOperatorUrl cfg.wireless.portalUrl user confirm).isSome = true
  probe_target : SameTarget cfg.dial.httpProbeUrl
  portal_target : cfg.wireless.enabled = true → SameTarget cfg.wireless.portalUrl

/-- What `validate` makes sure of, as far as the assembly parses it again. -/
structure Validated (cfg : Config) : Prop where
  probe : (parseHttpProbeTarget cfg.dial.httpProbeUrl).isSome = true
  portal : cfg.wireless.enabled = true →
    (parseHttpProbeTarget cfg.wireless.portalUrl).isSome = true
  probe_host : cfg.wireless.enabled = true →
    (parseIpv4 cfg.wireless.probeHost.toList).isSome = true

variable {debug : String → String} {cfg : Config}

/-- Past a `bail!` the condition did not hold. -/
theorem bail_ok {c : Prop} [Decidable c] {e : String} {k : Except String Unit}
    (h : (if c then (do let _ ← (.error e : Except String Unit); k) else k) = .ok ()) :
    ¬ c ∧ k = .ok () := by
  split at h
  · cases h
  · exact ⟨‹¬ c›, h⟩

theorem validated (h : cfg.validate debug = .ok ()) : Validated cfg := by
  unfold Config.validate at h
  dsimp only at h
  obtain ⟨_, h⟩ := bail_ok h
  obtain ⟨_, h⟩ := bail_ok h
  obtain ⟨_, h⟩ := bail_ok h
  obtain ⟨hprobe, h⟩ := bail_ok h
  have hwireless (hon : cfg.wireless.enabled = true) :
      (parseHttpProbeTarget cfg.wireless.portalUrl).isNone ≠ true ∧
        (parseIpv4 cfg.wireless.probeHost.toList).isNone ≠ true := by
    rw [if_pos hon] at h
    obtain ⟨hportal, h⟩ := bail_ok h
    exact ⟨hportal, (bail_ok h).1⟩
  have hsome {α : Type} {o : Option α} (h : o.isNone ≠ true) : o.isSome = true := by
    simpa [Option.isSome_iff_ne_none] using h
  exact ⟨hsome hprobe, fun hon => hsome (hwireless hon).1, fun hon => hsome (hwireless hon).2⟩

/-! ## The five consumers -/

theorem sameTarget {url : String} (h : (parseHttpProbeTarget url).isSome = true) :
    SameTarget url := by
  obtain ⟨⟨ip, text⟩, hparse⟩ := Option.isSome_iff_exists.mp h
  obtain ⟨t, haddr, htext⟩ := targetAddress_of_probe hparse
  exact ⟨ip, text, t, hparse, haddr, htext⟩

theorem wireless_assembled (h : Validated cfg) (hon : cfg.wireless.enabled = true) :
    (Supervisor.new cfg).brain.isSome = true ∧
    ∀ pass os, ∃ w, WirelessWorker.new cfg pass os = some w ∧
      (Supervisor.new cfg).portalIp = some w.portalIp ∧
      (Supervisor.new cfg).probeIp = some w.probeIp := by
  obtain ⟨⟨portal, text⟩, hportal⟩ := Option.isSome_iff_exists.mp (h.portal hon)
  obtain ⟨probe, hprobe⟩ := Option.isSome_iff_exists.mp (h.probe_host hon)
  have hnew : Supervisor.new cfg =
      { cfg, mode := cfg.wireless.mode, portalIp := some portal, probeIp := some probe
        brain := some (Brain.new cfg.wireless.mode cfg.wireless.takeoverAfterSecs
          cfg.wireless.releaseAfterSecs cfg.dial.probeIntervalSecs) } := by
    simp [Supervisor.new, hon, hportal, hprobe]
  refine ⟨by rw [hnew]; rfl, fun pass os => ?_⟩
  simp [WirelessWorker.new, hnew, hportal, hprobe]

theorem operator_isSome (url user : String) (confirm : Bool) :
    (buildOperatorUrl url user confirm).isSome = true ↔ "/login".toList <:+ url.toList := by
  simp [buildOperatorUrl, stripEnd]

/-- A validated configuration runs exactly if the heartbeat server is an address
where it is used, and the portal URL ends in `/login` where it is used:
validation checks neither. -/
theorem runnable_iff (debug : String → String) (cfg : Config)
    (h : cfg.validate debug = .ok ()) :
    Runnable debug cfg ↔
      (cfg.heartbeat.enabled = true → (parseIpv4 cfg.heartbeat.server.toList).isSome = true) ∧
      (cfg.wireless.enabled = true → "/login".toList <:+ cfg.wireless.portalUrl.toList) := by
  have hvalid := validated h
  constructor
  · intro hrun
    exact ⟨fun hon => Option.isSome_iff_exists.mpr (hrun.heartbeat_ip hon),
      fun hon => (operator_isSome _ _ _).mp (hrun.operator hon "" false)⟩
  · rintro ⟨hserver, hlogin⟩
    constructor
    · unfold heartbeatServer
      split
      · rename_i hon
        obtain ⟨ip, hip⟩ := Option.isSome_iff_exists.mp (hserver hon)
        exact ⟨some ip, by rw [hip]⟩
      · exact ⟨none, rfl⟩
    · exact fun hon => Option.isSome_iff_exists.mp (hserver hon)
    · exact fun hon => (wireless_assembled hvalid hon).1
    · exact fun hon => (wireless_assembled hvalid hon).2
    · exact fun hon user confirm => (operator_isSome _ _ _).mpr (hlogin hon)
    · exact sameTarget hvalid.probe
    · exact fun hon => sameTarget (hvalid.portal hon)

/-- The defaults with a student number. -/
theorem runnable_iff_defaults :
    Runnable id { account := { studentId := "3122000000" } } :=
  (runnable_iff id { account := { studentId := "3122000000" } } (by decide)).mpr (by decide)

/-- A host name as heartbeat server passes validation and ends the service; a
portal URL with a trailing slash passes and can never log in. -/
theorem validated_not_runnable :
    ¬ (∀ cfg : Config, cfg.validate id = .ok () → Runnable id cfg) ∧
    ∃ cfg : Config, cfg.validate id = .ok () ∧ cfg.heartbeat.enabled = false ∧
      ¬ Runnable id cfg := by
  constructor
  · intro h
    have hrun := h
      { account := { studentId := "3122000000" }
        heartbeat := { enabled := true, server := "auth.gdut.edu.cn" } } (by decide)
    obtain ⟨server, hserver⟩ := hrun.heartbeat
    cases hserver
  · refine ⟨{ account := { studentId := "3122000000" }
              wireless := { portalUrl := "http://10.0.3.2:801/eportal/portal/login/" } },
      by decide, rfl, fun hrun => ?_⟩
    have := hrun.operator rfl "3122000000" false
    revert this
    decide

end GdutNet
