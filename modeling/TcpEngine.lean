import TcpEngine.Arena.Pool
import TcpEngine.Main
import TcpEngine.Proofs.Checksum
import TcpEngine.Proofs.Segment
import TcpEngine.Proofs.SlotMap
import TcpEngine.Proofs.Sending
import TcpEngine.Proofs.Transitions
import TcpEngine.Proofs.Agreement
import TcpEngine.Proofs.Run
import TcpEngine.Proofs.Registry
import TcpEngine.Proofs.Journal
import TcpEngine.Proofs.Recorder
import TcpEngine.Proofs.Allocation
import TcpEngine.Proofs.Emission
import TcpEngine.Proofs.Handshake
import TcpEngine.Proofs.KeySafety
import TcpEngine.Proofs.SeqNumber
import TcpEngine.Proofs.SequenceSpace
import TcpEngine.Proofs.Isolation
import TcpEngine.Proofs.ArenaDiscipline
import TcpEngine.Proofs.Refusals
import TcpEngine.Proofs.Commutation
import TcpEngine.Proofs.Atomicity
import TcpEngine.Proofs.LifeCycle
import TcpEngine.Proofs.Verification
import TcpEngine.Proofs.Transmission
import TcpEngine.Proofs.Reliability
import TcpEngine.Proofs.Fields
import TcpEngine.Proofs.FlagSequence
import TcpEngine.Proofs.RoundTrip
import TcpEngine.Proofs.Filling
import TcpEngine.Proofs.Detection
import TcpEngine.Proofs.Thresholds
import TcpEngine.Proofs.FaultFreedom
import TcpEngine.Proofs.Noninterference
import TcpEngine.Proofs.InitialNumbers
import TcpEngine.Proofs.Acknowledgment
import TcpEngine.Proofs.Reception
import TcpEngine.Proofs.Lending
import TcpEngine.Proofs.Vacancies
import TcpEngine.Proofs.Transience
import TcpEngine.Proofs.StateChanges
import TcpEngine.Proofs.Dialogue
import TcpEngine.Proofs.Loopback
import TcpEngine.Proofs.Framing
import TcpEngine.Proofs.AddressText
import TcpEngine.Proofs.Arrangement
import TcpEngine.Proofs.OnesComplement
import TcpEngine.Proofs.FieldWrites
