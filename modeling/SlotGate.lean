import SlotGate.Profile.Binding
import SlotGate.Profile.Parse
import SlotGate.Profile.Written
import SlotGate.Proofs.Accounts
import SlotGate.Proofs.Aloof
import SlotGate.Proofs.Atomic
import SlotGate.Proofs.Binding
import SlotGate.Proofs.Canonical
import SlotGate.Proofs.Consumption
import SlotGate.Proofs.DebugFlag
import SlotGate.Proofs.DefinitionLog
import SlotGate.Proofs.Effort
import SlotGate.Proofs.Fates
import SlotGate.Proofs.FireDecisions
import SlotGate.Proofs.Interruption
import SlotGate.Proofs.LastWrites
import SlotGate.Proofs.LockModes
import SlotGate.Proofs.Merging
import SlotGate.Proofs.Nullness
import SlotGate.Proofs.Outage
import SlotGate.Proofs.ProfileContents
import SlotGate.Proofs.ProfileFaults
import SlotGate.Proofs.Provenance
import SlotGate.Proofs.Readiness
import SlotGate.Proofs.Refinement
import SlotGate.Proofs.Resemblance
import SlotGate.Proofs.RoundTrip
import SlotGate.Proofs.Rounds
import SlotGate.Proofs.SlotIsolation
import SlotGate.Proofs.SlotNames
import SlotGate.Proofs.StoreThenFire
import SlotGate.Proofs.StrayContent
import SlotGate.Proofs.Tracing
import SlotGate.Proofs.Wakeup
import SlotGate.Run.Basic
import SlotGate.Value.UserType
