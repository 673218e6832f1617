import VmFleet.Library.Text
import VmFleet.Library.Allotment
import VmFleet.Library.Timeline
import VmFleet.Library.Transition
import VmFleet.Library.Interval
import VmFleet.Library.Fallible
import VmFleet.Library.Counting
import VmFleet.Library.Streak
import VmFleet.Library.Url
import VmFleet.Library.Procedure
import VmFleet.Library.Pipe
import VmFleet.Library.Utf8
import VmFleet.Library.Selection
import VmFleet.Library.Halting
import VmFleet.Library.Comparison
import VmFleet.Library.SemVer
import VmFleet.Library.Toml
import VmFleet.Library.Shell
import VmFleet.Library.Directory
import VmFleet.Library.Publication
import VmFleet.Library.Requests
import VmFleet.Library.Refinement
import VmFleet.Library.Sessions
import VmFleet.Source.Config
import VmFleet.Source.ConfigFile
import VmFleet.Source.Naming
import VmFleet.Source.Version
import VmFleet.Source.Command
import VmFleet.Source.GitHub
import VmFleet.Source.Admission
import VmFleet.Source.Supervisor
import VmFleet.Source.Gc
import VmFleet.Source.Sweep
import VmFleet.Source.Fleet
import VmFleet.Source.WorkerThreads
import VmFleet.Source.HostedWorker
import VmFleet.Source.Queue
import VmFleet.Source.Registration
import VmFleet.Source.Listing
import VmFleet.Source.Site
import VmFleet.Source.Gate
import VmFleet.Source.Uninstall
import VmFleet.Source.BuildBase
import VmFleet.Source.Teardown
import VmFleet.Source.SelfUpdate
import VmFleet.Source.SystemRunner
import VmFleet.Source.UpdateWatch
import VmFleet.Source.ConfigText
import VmFleet.Source.Deadlines
import VmFleet.Source.Labels
import VmFleet.Source.ConfigWrite
import VmFleet.Source.Metrics
import VmFleet.Source.SupervisorRun
import VmFleet.Source.Packaging
import VmFleet.Source.Doctor
import VmFleet.Source.Deregistration
import VmFleet.Source.Install
import VmFleet.Source.Lifecycle
import VmFleet.Source.WorkerLife
import VmFleet.Proof.Config
import VmFleet.Proof.Counts
import VmFleet.Proof.Naming
import VmFleet.Proof.PoolPass
import VmFleet.Proof.Pass
import VmFleet.Proof.LaunchSafety
import VmFleet.Proof.LaunchOrder
import VmFleet.Proof.Ownership
import VmFleet.Proof.IdleStreak
import VmFleet.Proof.Gc
import VmFleet.Proof.Unanswered
import VmFleet.Proof.Sweep
import VmFleet.Proof.Reload
import VmFleet.Proof.GcRace
import VmFleet.Proof.CleanupRace
import VmFleet.Proof.QueueAge
import VmFleet.Proof.PendingLaunches
import VmFleet.Proof.SignalCleanup
import VmFleet.Proof.GcRecords
import VmFleet.Proof.TokenOrigin
import VmFleet.Proof.OneVm
import VmFleet.Proof.OneAdmitted
import VmFleet.Proof.DryRun
import VmFleet.Proof.Uninstall
import VmFleet.Proof.SelfUpdate
import VmFleet.Proof.Staging
import VmFleet.Proof.UpdateToken
import VmFleet.Proof.SystemRunner
import VmFleet.Proof.WedgedSlots
import VmFleet.Proof.SlotRange
import VmFleet.Proof.LongestIdle
import VmFleet.Proof.SlotOverlap
import VmFleet.Proof.SharedSlots
import VmFleet.Proof.QueuedDemand
import VmFleet.Proof.WarmPool
import VmFleet.Proof.Paging
import VmFleet.Proof.NextPage
import VmFleet.Proof.WorkerLife
import VmFleet.Proof.BuildBase
import VmFleet.Proof.MissingBases
import VmFleet.Proof.Teardown
import VmFleet.Proof.HealthMonitor
import VmFleet.Proof.VersionOrder
import VmFleet.Proof.Precedence
import VmFleet.Proof.UpdateWatch
import VmFleet.Proof.ConfigText
import VmFleet.Proof.Deadlines
import VmFleet.Proof.Labels
import VmFleet.Proof.ConfigWrite
import VmFleet.Proof.SupervisorRun
import VmFleet.Proof.Publication
import VmFleet.Proof.Convergence
import VmFleet.Proof.SupervisorHistory
import VmFleet.Proof.Deregistration
import VmFleet.Proof.Install
import VmFleet.Proof.Lifecycle
import VmFleet.Proof.Packaging
import VmFleet.Proof.ReleaseUpdate
import VmFleet.Proof.WorkerRefinement
import VmFleet.Proof.Isolation
import VmFleet.Proof.Doctor
