import GdutNet.Machine.Trace
import GdutNet.Machine.Purge
import GdutNet.Machine.Requests
import GdutNet.Machine.Debounce
import GdutNet.Machine.Fallible
import GdutNet.Ipc.Wire
import GdutNet.Ipc.Frame
import GdutNet.Ipc.Server
import GdutNet.Ipc.Commands
import GdutNet.Ipc.Session
import GdutNet.Ipc.Pipe
import GdutNet.Watchdog.Session
import GdutNet.Watchdog.Redial
import GdutNet.Watchdog.Ras
import GdutNet.Supervisor.Episodes
import GdutNet.Supervisor.Retry
import GdutNet.Supervisor.Flight
import GdutNet.Supervisor.Toasts
import GdutNet.Supervisor.ModeSwitch
import GdutNet.Supervisor.Journal
import GdutNet.Supervisor.Delivery
import GdutNet.Supervisor.Checked
import GdutNet.Http.Lossy
import GdutNet.Http.Transport
import GdutNet.Stream.Query
import GdutNet.Stream.JsonTokens
import GdutNet.Stream.Base64
import GdutNet.Stream.Lines
import GdutNet.Crypto
import GdutNet.Heartbeat.Runs
import GdutNet.Probe
import GdutNet.Wireless.Ledger
import GdutNet.Wireless.Debounce
import GdutNet.Wireless.Metric
import GdutNet.Wireless.Billing
import GdutNet.Wireless.PortalUrl
import GdutNet.Wireless.Reply
import GdutNet.Runtime.Display
import GdutNet.Runtime.Drain
import GdutNet.Runtime.Lanes
import GdutNet.Runtime.RedialToast
import GdutNet.Runtime.Persist
import GdutNet.Runtime.Login
import GdutNet.Runtime.Verdict
import GdutNet.Runtime.Assembly
import GdutNet.Runtime.Shutdown
import GdutNet.Tray.Pump
import GdutNet.Tray.Window
import GdutNet.Tray.Instances
import GdutNet.Stream.Sorting
import GdutNet.Setup.Payload
import GdutNet.Setup.Packaging
import GdutNet.Setup.Corruption
import GdutNet.Setup.UnpackChecked
import GdutNet.Setup.Backup
import GdutNet.Setup.Restore
import GdutNet.Setup.Replace
import GdutNet.Setup.Steps
import GdutNet.Setup.Transaction
import GdutNet.Setup.Uninstall
import GdutNet.Setup.DnsToggle
import GdutNet.Supervisor.Failing
import GdutNet.Setup.Wizard
import GdutNet.Stream.JsonCode
import GdutNet.Ipc.WireCode
import GdutNet.Wireless.Recovery
