import DriverHost.Script.Requests
import DriverHost.Script.Run
import DriverHost.Proofs.Masks
import DriverHost.Proofs.Rounding
import DriverHost.Proofs.PageRuns
import DriverHost.Proofs.TaskRun
import DriverHost.Proofs.MemoryBlocks
import DriverHost.Proofs.Description
import DriverHost.Proofs.PartOfState
import DriverHost.Proofs.LockTurns
import DriverHost.Proofs.FragmentTurns
import DriverHost.Proofs.CopyBack
import DriverHost.Proofs.Completion
import DriverHost.Proofs.Crew
import DriverHost.Proofs.Ownership
import DriverHost.Proofs.WriterExclusion
import DriverHost.Proofs.WatchedRun
import DriverHost.Proofs.Rounds
import DriverHost.Proofs.LockRoom
import DriverHost.Proofs.Workload
import DriverHost.Proofs.Finishing
import DriverHost.Proofs.HeaderBlocks
import DriverHost.Proofs.TransferCalls
import DriverHost.Proofs.FragmentConservation
import DriverHost.Proofs.UnitConservation
import DriverHost.Proofs.SerializedUpdates
import DriverHost.Proofs.BringUp
import DriverHost.Proofs.FirmwareCall
import DriverHost.Proofs.SecondBringUp
import DriverHost.Proofs.CutMessages
import DriverHost.Proofs.WriteTransfers
import DriverHost.Proofs.RecordsInStep
import DriverHost.Proofs.DescriptorBlocks
import DriverHost.Proofs.IntactDescriptors
import DriverHost.Proofs.AllocationRuns
import DriverHost.Proofs.PendingSources
import DriverHost.Proofs.SourceMasks
import DriverHost.Proofs.RequestLayout
import DriverHost.Proofs.FewestRuns
import DriverHost.Proofs.Answers
import DriverHost.Proofs.RefusedTransfers
import DriverHost.Proofs.FreshAnswers
import DriverHost.Proofs.ThreadHistory
import DriverHost.Proofs.ThreadLives
import DriverHost.Proofs.NotedCalls
import DriverHost.Proofs.Prerequisites
import DriverHost.Proofs.FirstFailure
import DriverHost.Proofs.RegisterTraffic
import DriverHost.Proofs.GivingUp
import DriverHost.Proofs.PeriodicTicks
import DriverHost.Proofs.TimedWaits
import DriverHost.Proofs.RefusedBlocks
import DriverHost.Proofs.MessageBytes
import DriverHost.Proofs.ForeignMessages
