import Rollout.Main
import Rollout.Proofs.Plan.LeastOrder
import Rollout.Proofs.Run.Requests
import Rollout.Proofs.Ledger.Holdings
import Rollout.Proofs.Run.Report
import Rollout.Proofs.Plan.Checked
import Rollout.Proofs.Run.Position
import Rollout.Proofs.Run.Names
import Rollout.Proofs.Run.Cancellation
import Rollout.Proofs.Naming.Path
import Rollout.Proofs.Run.Places
import Rollout.Proofs.Run.Authority
import Rollout.Proofs.Run.Contracts
import Rollout.Proofs.Run.Idle
import Rollout.Proofs.Run.Rehearsal
import Rollout.Proofs.Run.Precheck
import Rollout.Proofs.Ledger.Reads
import Rollout.Proofs.Run.Fence
import Rollout.Proofs.Run.Scene
import Rollout.Proofs.Run.Faultless
import Rollout.Proofs.Config.Preset
import Rollout.Proofs.Ledger.Owners
import Rollout.Proofs.Ledger.Observation
import Rollout.Proofs.Ledger.Remote
import Rollout.Proofs.Run.Rerun
import Rollout.Proofs.Run.Transactions
import Rollout.Proofs.Ledger.Surfacing
import Rollout.Proofs.Run.Interruption
import Rollout.Proofs.Run.Admission
import Rollout.Proofs.Config.RoundTrip
import Rollout.Proofs.Naming.Collision
import Rollout.Proofs.Run.Polling
import Rollout.Proofs.Artifact.Linking
import Rollout.Proofs.Ledger.Settling
import Rollout.Proofs.Run.Passage
import Rollout.Proofs.Naming.Children
import Rollout.Proofs.Ledger.CallData
import Rollout.Proofs.Plan.Verdict
import Rollout.Proofs.Ledger.Receipts
import Rollout.Proofs.Artifact.Search
import Rollout.Proofs.Run.Atomicity
import Rollout.Proofs.Ledger.Chronicle
