import Ahci.Bench.Digest
import Ahci.Bench.Session
import Ahci.Bench.Trace
import Ahci.Bench.Trial
import Ahci.Proofs.Addressing
import Ahci.Proofs.BlockLoops
import Ahci.Proofs.BrokenOffRequests
import Ahci.Proofs.Capacities
import Ahci.Proofs.CommandIssue
import Ahci.Proofs.CommandMemory
import Ahci.Proofs.CommandsInFlight
import Ahci.Proofs.DeviceParametricity
import Ahci.Proofs.Discarding
import Ahci.Proofs.Discovery
import Ahci.Proofs.Ejection
import Ahci.Proofs.EngineControl
import Ahci.Proofs.EngineHandshakes
import Ahci.Proofs.FailedBringUp
import Ahci.Proofs.Formats
import Ahci.Proofs.LogThreshold
import Ahci.Proofs.MemoryConfinement
import Ahci.Proofs.MemoryRelocation
import Ahci.Proofs.PortReuse
import Ahci.Proofs.RequestTiling
import Ahci.Proofs.ScatterPieces
import Ahci.Proofs.SenseHistory
import Ahci.Proofs.SessionLocks
import Ahci.Proofs.SlotOwnership
import Ahci.Proofs.TextFields
import Ahci.Proofs.Windows
import Ahci.Simulation.MemoryDisk
