import Exasphere.Lib.Assignment
import Exasphere.Lib.Bytes
import Exasphere.Lib.Checked
import Exasphere.Lib.Consecutive
import Exasphere.Lib.Counting
import Exasphere.Lib.Draw
import Exasphere.Lib.Settles
import Exasphere.Lib.Erasure
import Exasphere.Lib.KeyedList
import Exasphere.Lib.Lines
import Exasphere.Lib.Memory
import Exasphere.Lib.Queue
import Exasphere.Lib.Scanner
import Exasphere.Lib.Select
import Exasphere.Lib.Uniprocessor
import Exasphere.Sim.Types
import Exasphere.Sim.Policies
import Exasphere.Sim.Engine
import Exasphere.Sim.Interference
import Exasphere.Sim.Valid
import Exasphere.Sim.Loading
import Exasphere.Sim.Life
import Exasphere.Sim.Machine
import Exasphere.Sim.Placement
import Exasphere.Sim.Multi
import Exasphere.Sim.Single
import Exasphere.Sim.Progress
import Exasphere.Sim.Metrics
import Exasphere.Sim.TraceOrder
import Exasphere.Sim.Results
import Exasphere.Sim.Entries
import Exasphere.Sim.Census
import Exasphere.Sim.Report
import Exasphere.Sim.Comparison
import Exasphere.Sim.Reach
import Exasphere.Sim.Quota
import Exasphere.Sim.OneCore
import Exasphere.Sim.Queues
import Exasphere.Sim.Latency
import Exasphere.Sim.PolicyOrder
import Exasphere.Sim.Fifo
import Exasphere.Sim.Timeline
import Exasphere.Sim.ClosedForm
import Exasphere.Sim.Edf
import Exasphere.Sim.Fairness
import Exasphere.Json.Number
import Exasphere.Json.Value
import Exasphere.Json.Parser
import Exasphere.Json.RoundTrip
import Exasphere.Json.Fuel
import Exasphere.Json.Grammar
import Exasphere.Json.Accepts
import Exasphere.Json.Raises
import Exasphere.Json.Access
import Exasphere.Json.Dump
import Exasphere.Core.RingBuffer
import Exasphere.Core.Privacy
import Exasphere.Core.Event
import Exasphere.Daemon.Protocol
import Exasphere.Daemon.Stdio
import Exasphere.Daemon.Replay
import Exasphere.Collectors.Capture
import Exasphere.Viz.ChromeTrace
import Exasphere.Viz.Journal
import Exasphere.Viz.Stream
import Exasphere.Viz.Lanes
import Exasphere.Ingest
import Exasphere.Py.Str
import Exasphere.Py.Path
import Exasphere.Py.Json
import Exasphere.Py.Regex
import Exasphere.Py.Sha256
import Exasphere.Qa.Common
import Exasphere.Qa.PrivateKeys
import Exasphere.Qa.ProtectedReview
import Exasphere.Qa.EvidenceManifest
import Exasphere.Qa.EvidenceSound
import Exasphere.Qa.DaemonEvents
import Exasphere.Qa.DaemonSound
import Exasphere.Qa.RequiredFreeze
import Exasphere.Qa.FreezeSound
import Exasphere.Qa.MatrixRow
import Exasphere.Qa.RuntimeSample
import Exasphere.Qa.SampleSound
import Exasphere.Qa.BpfArtifacts
import Exasphere.Qa.CComments
import Exasphere.Qa.VerifierLog
import Exasphere.Qa.VerifierSound
import Exasphere.Qa.MatrixWorkload
import Exasphere.Qa.MatrixManifest
import Exasphere.Qa.MatrixSound
import Exasphere.Py.JsonPath
import Exasphere.Py.JsonRoundTrip
import Exasphere.Qa.AuditLedger
import Exasphere.Qa.LedgerSound
import Exasphere.Qa.MicrovmReport
import Exasphere.Qa.ReportLedger
import Exasphere.Sim.Shrink
import Exasphere.Sim.Generate
import Exasphere.Sim.PropertySuite
import Exasphere.Zig.Fmt
import Exasphere.Zig.Mem
import Exasphere.Observability.Snapshot
import Exasphere.Observability.Fixture
import Exasphere.Observability.Comparison
import Exasphere.Proc.Facts
import Exasphere.Proc.Printed
import Exasphere.Advisor.Rules
import Exasphere.Core.Safety
import Exasphere.Cli.Output
import Exasphere.Tui.Layout
import Exasphere.Tui.Actions
import Exasphere.Tui.Args
import Exasphere.Tui.Session
import Exasphere.Tui.SessionSound
import Exasphere.Tui.SessionErrors
import Exasphere.Tui.SessionFocus
import Exasphere.Collectors.Drain
import Exasphere.Collectors.Wakeups
import Exasphere.Viz.Parts
import Exasphere.Viz.Window
import Exasphere.Core.SafePath
import Exasphere.Collectors.Buddyinfo
import Exasphere.Collectors.ProcLines
