import FuzzCampaign.Action
import FuzzCampaign.Campaign.Findings
import FuzzCampaign.Campaign.Host
import FuzzCampaign.Campaign.LineReader
import FuzzCampaign.Campaign.Plan
import FuzzCampaign.Campaign.Question
import FuzzCampaign.Campaign.Run
import FuzzCampaign.Campaign.Settlement
import FuzzCampaign.Campaign.StatusLine
import FuzzCampaign.Campaign.Worker
import FuzzCampaign.Chain.Client
import FuzzCampaign.Chain.Connect
import FuzzCampaign.Chain.Http
import FuzzCampaign.Chain.Network
import FuzzCampaign.Chain.Node
import FuzzCampaign.CommandLine.Argument
import FuzzCampaign.CommandLine.Command
import FuzzCampaign.CommandLine.Console
import FuzzCampaign.CommandLine.Host
import FuzzCampaign.CommandLine.Merging
import FuzzCampaign.CommandLine.NodeCheck
import FuzzCampaign.CommandLine.Program
import FuzzCampaign.CommandLine.Running
import FuzzCampaign.CommandLine.Scan
import FuzzCampaign.CommandLine.Settings
import FuzzCampaign.Count
import FuzzCampaign.Coverage.File
import FuzzCampaign.Coverage.Position
import FuzzCampaign.Coverage.Probe
import FuzzCampaign.Coverage.Record
import FuzzCampaign.Coverage.Sum
import FuzzCampaign.Coverage.Summary
import FuzzCampaign.Coverage.Tally
import FuzzCampaign.Duration
import FuzzCampaign.Error
import FuzzCampaign.Examples.Counter
import FuzzCampaign.Failure.Backtrace
import FuzzCampaign.Failure.Envelope
import FuzzCampaign.Json.Access
import FuzzCampaign.Json.Fault
import FuzzCampaign.Json.Reader
import FuzzCampaign.Json.Record
import FuzzCampaign.Json.Value
import FuzzCampaign.Link.Binary
import FuzzCampaign.Link.Channel
import FuzzCampaign.Link.Frame
import FuzzCampaign.Link.Message
import FuzzCampaign.Link.MessageJson
import FuzzCampaign.Link.Switchboard
import FuzzCampaign.Main
import FuzzCampaign.Path
import FuzzCampaign.Proofs.Agreement
import FuzzCampaign.Proofs.AttachPolicy
import FuzzCampaign.Proofs.BenchWork
import FuzzCampaign.Proofs.BinaryForm
import FuzzCampaign.Proofs.Classification
import FuzzCampaign.Proofs.Conduct
import FuzzCampaign.Proofs.ConfigurationJson
import FuzzCampaign.Proofs.Conversation
import FuzzCampaign.Proofs.Course
import FuzzCampaign.Proofs.CoverageFigures
import FuzzCampaign.Proofs.CoverageFile
import FuzzCampaign.Proofs.CoverageOrigin
import FuzzCampaign.Proofs.CoverageSum
import FuzzCampaign.Proofs.DeclaredDead
import FuzzCampaign.Proofs.Delivery
import FuzzCampaign.Proofs.EnabledCoverage
import FuzzCampaign.Proofs.ExitsLast
import FuzzCampaign.Proofs.FaithfulReport
import FuzzCampaign.Proofs.FilesKept
import FuzzCampaign.Proofs.Floor
import FuzzCampaign.Proofs.FrameStream
import FuzzCampaign.Proofs.HexText
import FuzzCampaign.Proofs.Hub
import FuzzCampaign.Proofs.Invariance
import FuzzCampaign.Proofs.JsonNumbers
import FuzzCampaign.Proofs.JsonShapes
import FuzzCampaign.Proofs.JsonStrings
import FuzzCampaign.Proofs.JsonText
import FuzzCampaign.Proofs.LatestCoverage
import FuzzCampaign.Proofs.Mirroring
import FuzzCampaign.Proofs.NodeLifetime
import FuzzCampaign.Proofs.Outcome
import FuzzCampaign.Proofs.PlanValidity
import FuzzCampaign.Proofs.Preparation
import FuzzCampaign.Proofs.ProbeHistory
import FuzzCampaign.Proofs.PositionText
import FuzzCampaign.Proofs.ReapTime
import FuzzCampaign.Proofs.ReapedOnce
import FuzzCampaign.Proofs.Reaping
import FuzzCampaign.Proofs.Record
import FuzzCampaign.Proofs.Refusal
import FuzzCampaign.Proofs.Roll
import FuzzCampaign.Proofs.Routing
import FuzzCampaign.Proofs.SeedText
import FuzzCampaign.Proofs.SpawnPlan
import FuzzCampaign.Proofs.StagedMerge
import FuzzCampaign.Proofs.SummaryKeys
import FuzzCampaign.Proofs.SummaryTable
import FuzzCampaign.Proofs.Talk
import FuzzCampaign.Proofs.Tending
import FuzzCampaign.Proofs.TestNames
import FuzzCampaign.Proofs.TextBytes
import FuzzCampaign.Proofs.Tracking
import FuzzCampaign.Proofs.WorkerActs
import FuzzCampaign.Random.Digest
import FuzzCampaign.Random.Generator
import FuzzCampaign.Random.Keystream
import FuzzCampaign.Random.Seed
import FuzzCampaign.Scripted.Body
import FuzzCampaign.Scripted.Campaign
import FuzzCampaign.Scripted.Disk
import FuzzCampaign.Scripted.Program
import FuzzCampaign.Scripted.Server
import FuzzCampaign.Scripted.Terminal
import FuzzCampaign.Scripted.Thread
import FuzzCampaign.Scripted.Worker
import FuzzCampaign.SortedMap
import FuzzCampaign.TestCase
import FuzzCampaign.Text.Hex
import FuzzCampaign.Text.Numeral
import FuzzCampaign.Text.Quoted
import FuzzCampaign.Text.Shortest
import FuzzCampaign.Text.Split
import FuzzCampaign.Text.Style
import FuzzCampaign.Text.Utf8
import FuzzCampaign.Text.Visible
import FuzzCampaign.Worker.Bench
import FuzzCampaign.Worker.Debugging
import FuzzCampaign.Worker.PanicGuard
import FuzzCampaign.Worker.Process
import FuzzCampaign.Worker.Run
import FuzzCampaign.Worker.Task
import FuzzCampaign.Proofs.ClosedLinks
import FuzzCampaign.Proofs.GracePeriod
import FuzzCampaign.Proofs.BacktraceText
import FuzzCampaign.Proofs.Terminal
import FuzzCampaign.Proofs.TypedLines
import FuzzCampaign.Proofs.Patience
import FuzzCampaign.Proofs.WatchedValues
import FuzzCampaign.Proofs.FailureReports
import FuzzCampaign.Proofs.NumeralText
import FuzzCampaign.Proofs.PositionGrammar
import FuzzCampaign.Proofs.LogNames
import FuzzCampaign.Proofs.DebuggerSession
import FuzzCampaign.Proofs.PanicCapture
