import CommonRpc.Lib.BigEndian
import CommonRpc.Lib.Chrono
import CommonRpc.Lib.Framing
import CommonRpc.Lib.Integral
import CommonRpc.Lib.Table
import CommonRpc.Lib.TokenQueue
import CommonRpc.Lib.Transition
import CommonRpc.Lib.WaitGraph
import CommonRpc.Core.CallMethod
import CommonRpc.Core.Channel
import CommonRpc.Core.Connection
import CommonRpc.Core.Deadlines
import CommonRpc.Core.FutureController
import CommonRpc.Core.FutureGraph
import CommonRpc.Core.Handshake
import CommonRpc.Core.MemBuffer
import CommonRpc.Core.MemBuffers
import CommonRpc.Core.MemPipeEnv
import CommonRpc.Core.MultipleTimer
import CommonRpc.Core.OrderComparator
import CommonRpc.Core.OrderedLock
import CommonRpc.Core.OrderedLockObjects
import CommonRpc.Core.Peers
import CommonRpc.Core.PeriodicTimer
import CommonRpc.Core.Promise
import CommonRpc.Core.ServerConnector
import CommonRpc.Core.ServerConnectorFailures
import CommonRpc.Core.ServerEndpoint
import CommonRpc.Core.Service
import CommonRpc.Core.TcpLink
import CommonRpc.Core.TcpPeers
import CommonRpc.Core.TcpPipeClientEnv
import CommonRpc.Core.TcpPipeEndpoint
import CommonRpc.Core.TcpPipeServerEnv
import CommonRpc.Core.TransferMessage
import CommonRpc.Core.TupleUtils
import CommonRpc.Core.Types
import CommonRpc.Core.WinPipeEndpoint
import CommonRpc.Core.WinPipeReads
import CommonRpc.Spec.FutureSemantics
import CommonRpc.Proofs.CallMethod
import CommonRpc.Proofs.Channel
import CommonRpc.Proofs.Connection
import CommonRpc.Proofs.ConnectionTraffic
import CommonRpc.Proofs.ConnectionWatcher
import CommonRpc.Proofs.Deadlines
import CommonRpc.Proofs.FutureContinuations
import CommonRpc.Proofs.FutureController
import CommonRpc.Proofs.FutureGraph
import CommonRpc.Proofs.Handshake
import CommonRpc.Proofs.HandshakeAgreement
import CommonRpc.Proofs.LockObject
import CommonRpc.Proofs.MemBuffer
import CommonRpc.Proofs.MemBufferInvalidation
import CommonRpc.Proofs.MemBuffers
import CommonRpc.Proofs.MemPipeEnv
import CommonRpc.Proofs.MemPipePairs
import CommonRpc.Proofs.MultipleTimer
import CommonRpc.Proofs.OrderComparator
import CommonRpc.Proofs.OrderedLock
import CommonRpc.Proofs.OrderedLockObjects
import CommonRpc.Proofs.Peer
import CommonRpc.Proofs.PeerFrames
import CommonRpc.Proofs.Peers
import CommonRpc.Proofs.PeriodicTimer
import CommonRpc.Proofs.Promise
import CommonRpc.Proofs.PromiseRuns
import CommonRpc.Proofs.ServerAdmission
import CommonRpc.Proofs.ServerConnector
import CommonRpc.Proofs.ServerConnectorFailures
import CommonRpc.Proofs.ServerEndpoint
import CommonRpc.Proofs.Service
import CommonRpc.Proofs.ServiceAnswers
import CommonRpc.Proofs.SortTuple
import CommonRpc.Proofs.TcpLink
import CommonRpc.Proofs.TcpPeers
import CommonRpc.Proofs.TcpPipeClientEnv
import CommonRpc.Proofs.TcpPipeEndpoint
import CommonRpc.Proofs.TcpPipeFrames
import CommonRpc.Proofs.TcpPipeInvalidation
import CommonRpc.Proofs.TcpPipeOperations
import CommonRpc.Proofs.TcpPipeServerEnv
import CommonRpc.Proofs.TcpPipeServerSockets
import CommonRpc.Proofs.TcpPipeTransfer
import CommonRpc.Proofs.TcpTransport
import CommonRpc.Proofs.TransferMessage
import CommonRpc.Proofs.TransferMessageReading
import CommonRpc.Proofs.WinPipeEndpoint
import CommonRpc.Proofs.WinPipeFlow
import CommonRpc.Proofs.WinPipeMoves
import CommonRpc.Proofs.WinPipeReadBytes
import CommonRpc.Proofs.WinPipeReadMoves
import CommonRpc.Proofs.WinPipeReadSteps
import CommonRpc.Proofs.WinPipeReads
