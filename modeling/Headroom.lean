import Headroom.Main
import Headroom.Proofs.AlarmTrace
import Headroom.Proofs.CallOrder
import Headroom.Proofs.Envelopes
import Headroom.Proofs.Orphans
import Headroom.Proofs.Packing
import Headroom.Proofs.Registrations
import Headroom.Proofs.Reports
import Headroom.Proofs.Saturation
import Headroom.Proofs.Schedules
import Headroom.Proofs.WriteAccount
import Headroom.Service.Api
import Headroom.Simulation.Scenario
import Headroom.Telemetry.Counters
import Headroom.Telemetry.Log
import Headroom.Proofs.Admission
import Headroom.Proofs.AlarmOrder
import Headroom.Proofs.Retargeting
import Headroom.Proofs.Places
import Headroom.Proofs.Separation
import Headroom.Proofs.AlarmStates
import Headroom.Proofs.Publishing
import Headroom.Proofs.Ledger
import Headroom.Proofs.SeededRuns
import Headroom.Proofs.Recovery
import Headroom.Proofs.Numbering
import Headroom.Proofs.Addresses
import Headroom.Proofs.Spelling
import Headroom.Proofs.AlarmCommand
import Headroom.Proofs.Growth
import Headroom.Proofs.Candidates
import Headroom.Proofs.FollowingCpu
import Headroom.Proofs.Means
import Headroom.Proofs.Holdings
import Headroom.Proofs.Readings
import Headroom.Proofs.Magnitudes
import Headroom.Proofs.Overflow
import Headroom.Proofs.Limits
import Headroom.Proofs.Truncation
import Headroom.Proofs.Keys
import Headroom.Proofs.Wrapping
import Headroom.Proofs.Backoff
import Headroom.Proofs.Conflicts
import Headroom.Proofs.Extensions
import Headroom.Proofs.Storage
