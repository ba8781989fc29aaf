import RaveDeployment.Network.AnyBackend
import RaveDeployment.Network.Recovery
import RaveDeployment.Network.Truthful
import RaveDeployment.Network.NeverStuck
import RaveDeployment.Network.WorkQueue
import RaveDeployment.Network.DhcpOwnership
import RaveDeployment.Network.Busy
import RaveDeployment.Network.Answers
import RaveDeployment.Network.Noninterference
import RaveDeployment.Network.Consistent
import RaveDeployment.Network.Client
import RaveDeployment.Network.Methods
import RaveDeployment.Profiles.Ambiguous
import RaveDeployment.Profiles.SingleFault
import RaveDeployment.Profiles.Crash
import RaveDeployment.Profiles.Lifetimes
import RaveDeployment.Ssh.Effective
import RaveDeployment.Ssh.PublicKey
import RaveDeployment.Decoder.TwoStage
import RaveDeployment.Decoder.ThresholdSweep
import RaveDeployment.Decoder.Grid
import RaveDeployment.Perception.Accounting
import RaveDeployment.ModelStore.Exposed
import RaveDeployment.Storage.Record
import RaveDeployment.Storage.Extents
import RaveDeployment.Network.ScanText
import RaveDeployment.Network.Strongest
import RaveDeployment.Network.Chunks
import RaveDeployment.Network.ScanGap
import RaveDeployment.Network.EscapedFields
import RaveDeployment.Systemd.Units
import RaveDeployment.Systemd.Directives
import RaveDeployment.Profiles.Credentials
import RaveDeployment.Profiles.StationSsid
import RaveDeployment.Python.Base64
import RaveDeployment.Lib.JsonFuel
import RaveDeployment.Hailo.VStreamCheck
import RaveDeployment.Storage.Again
import RaveDeployment.Hailo.Stack
import RaveDeployment.ModelStore.ManifestGate
import RaveDeployment.Web.SystemInfo
import RaveDeployment.Web.NetworkPage
import RaveDeployment.Web.Transition
import RaveDeployment.Lib.Pacing
import RaveDeployment.Perception.Schedule
import RaveDeployment.ModelStore.Failure
import RaveDeployment.Lib.Timers
import RaveDeployment.Web.Display
import RaveDeployment.Web.Refresh
import RaveDeployment.Web.Polling
import RaveDeployment.Web.Api
import RaveDeployment.Web.Routes
import RaveDeployment.Web.EndToEnd
import RaveDeployment.ModelStore.Undisturbed
import RaveDeployment.ModelStore.Recovery
import RaveDeployment.Lib.Journal
import RaveDeployment.Storage.Guarded
import RaveDeployment.Web.WifiForm
import RaveDeployment.Lib.Levels
import RaveDeployment.Network.Levels
import RaveDeployment.Network.Handled
import RaveDeployment.Network.Refines
