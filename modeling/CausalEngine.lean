import CausalEngine.Foundations.OrderedMap
import CausalEngine.Foundations.Rounding
import CausalEngine.Foundations.Runs
import CausalEngine.Foundations.Worklist
import CausalEngine.Foundations.Selection
import CausalEngine.Foundations.KeyedBest
import CausalEngine.Correlation.Detectors
import CausalEngine.Correlation.Gate
import CausalEngine.Correlation.Ranking
import CausalEngine.Correlation.ImpactFacts
import CausalEngine.Correlation.Backbone
import CausalEngine.Correlation.Pipeline
import CausalEngine.Correlation.PassEdges
import CausalEngine.Correlation.EdgeGates
import CausalEngine.Correlation.Renaming
import CausalEngine.Correlation.Isolation
import CausalEngine.Foundations.Jaccard
import CausalEngine.Memory.Edges
import CausalEngine.Memory.Baselines
import CausalEngine.Memory.Cases
import CausalEngine.Memory.Merge
import CausalEngine.Memory.EdgeInvariant
import CausalEngine.Memory.CaseLibrary
import CausalEngine.Memory.Restart
import CausalEngine.Correlation.Silence
import CausalEngine.Memory.SteadyState
import CausalEngine.Memory.SingleSignal
import CausalEngine.Foundations.LabelSearch
import CausalEngine.Foundations.Walk
import CausalEngine.Correlation.Routes
import CausalEngine.Memory.MergedBlame
import CausalEngine.Correlation.SameWeights
import CausalEngine.Memory.MergeOrder
import CausalEngine.Correlation.BlastRadius
import CausalEngine.Memory.FloorHistory
import CausalEngine.Memory.BeliefStep
import CausalEngine.Memory.CaseBooks
import CausalEngine.Memory.Rendering
import CausalEngine.Memory.SelfLoops
import CausalEngine.Memory.StormLearning
import CausalEngine.Correlation.Forecast
import CausalEngine.Foundations.SampleHold
import CausalEngine.Service.Window
import CausalEngine.Service.FlatWorkingSet
import CausalEngine.Correlation.SourceOrder
import CausalEngine.Memory.CaseFamilies
import CausalEngine.Correlation.LinearClimb
import CausalEngine.Memory.LeadTimes
import CausalEngine.Foundations.Geometric
import CausalEngine.Memory.QuietPairs
import CausalEngine.Correlation.CausalChains
import CausalEngine.Service.Resampling
import CausalEngine.Correlation.SeedNeutrality
import CausalEngine.Service.Alerts
import CausalEngine.Memory.ShownCase
import CausalEngine.Foundations.Trails
import CausalEngine.Correlation.VictimPaths
import CausalEngine.Foundations.MeanDifference
import CausalEngine.Api.Fairness
import CausalEngine.Api.RightSizing
import CausalEngine.Api.Verdict
import CausalEngine.Api.Narrative
import CausalEngine.Service.SharedNames
import CausalEngine.Foundations.ClampedSums
import CausalEngine.Correlation.AlarmLoop
import CausalEngine.Correlation.WarmUp
import CausalEngine.Correlation.RepeatedOnsets
import CausalEngine.Correlation.RobustScale
import CausalEngine.Correlation.CleanStep
import CausalEngine.Foundations.Connection
import CausalEngine.Memory.PassWrites
import CausalEngine.Memory.FailedPass
import CausalEngine.Foundations.Trimming
import CausalEngine.Aggregator.Pack
import CausalEngine.Aggregator.PackLines
import CausalEngine.Aggregator.FlatPack
import CausalEngine.Aggregator.ReadBack
import CausalEngine.Aggregator.Ring
import CausalEngine.Memory.StartUp
import CausalEngine.Memory.Crashes
import CausalEngine.Foundations.Components
import CausalEngine.Service.Loop
import CausalEngine.Service.LivePods
import CausalEngine.Memory.Hysteresis
import CausalEngine.Aggregator.Alerts
import CausalEngine.Factory.Interlock
import CausalEngine.Factory.Flush
import CausalEngine.Factory.Dispatcher
import CausalEngine.Factory.Ingest
import CausalEngine.Memory.Lifetime
import CausalEngine.Api.NarrativeRuns
import CausalEngine.Service.Telemetry
import CausalEngine.Foundations.Grouping
import CausalEngine.Api.Topology
import CausalEngine.Api.Recommendations
import CausalEngine.Foundations.Json
import CausalEngine.Memory.Columns
import CausalEngine.Correlation.Echo
import CausalEngine.Foundations.LeastSquares
import CausalEngine.Correlation.JitteredClimb
import CausalEngine.Service.Leak
import CausalEngine.Api.Heatmap
import CausalEngine.Soak.Report
