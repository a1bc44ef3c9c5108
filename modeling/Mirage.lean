import Mirage.Proofs.Accept
import Mirage.Proofs.BridgeGate
import Mirage.Proofs.BridgePool
import Mirage.Proofs.Claims
import Mirage.Proofs.Cohort
import Mirage.Proofs.ConnRuns
import Mirage.Proofs.Discovery
import Mirage.Proofs.Driver
import Mirage.Proofs.E2e
import Mirage.Proofs.ExitPolicy
import Mirage.Proofs.Faults
import Mirage.Proofs.Framing
import Mirage.Proofs.Handshake
import Mirage.Proofs.Introduce
import Mirage.Proofs.Link
import Mirage.Proofs.Meek
import Mirage.Proofs.Migration
import Mirage.Proofs.MuxCredit
import Mirage.Proofs.MuxMap
import Mirage.Proofs.MuxReplay
import Mirage.Proofs.MuxWire
import Mirage.Proofs.Paced
import Mirage.Proofs.Probe
import Mirage.Proofs.RateLimit
import Mirage.Proofs.Rations
import Mirage.Proofs.ReplaySet
import Mirage.Proofs.Reservations
import Mirage.Proofs.RotaLog
import Mirage.Proofs.SplitExit
import Mirage.Proofs.Ss2022Pipe
import Mirage.Proofs.StreamFrames
import Mirage.Proofs.Teardown
import Mirage.Proofs.TunFlows
import Mirage.Proofs.Wire
