import TcpMonitor.Core.ClockedSystem
import TcpMonitor.Core.TaskPool
import TcpMonitor.Core.SharedRegister
import TcpMonitor.Core.FifoChannel
import TcpMonitor.Core.PunctualChannel
import TcpMonitor.Core.TextParser
import TcpMonitor.Core.Pacer
import TcpMonitor.Core.WholePrefix
import TcpMonitor.Core.Observation
import TcpMonitor.Core.Simulation
import TcpMonitor.Core.Liveness
import TcpMonitor.Runtime
import TcpMonitor.Configuration
import TcpMonitor.MetricFamilies
import TcpMonitor.SessionBooks
import TcpMonitor.Protocol.ReaderAlignment
import TcpMonitor.Protocol.HandshakeRoundTrip
import TcpMonitor.Protocol.HandshakeTruncation
import TcpMonitor.Validation
import TcpMonitor.Server.InboundSession
import TcpMonitor.Server.SessionPool
import TcpMonitor.Server.SessionGauge
import TcpMonitor.Server.SessionBookkeeping
import TcpMonitor.Server.LabelGrowth
import TcpMonitor.Server.ByteEcho
import TcpMonitor.Server.ReceiveTimeout
import TcpMonitor.Client.Session
import TcpMonitor.Client.SessionLog
import TcpMonitor.Client.MissedHeartbeats
import TcpMonitor.Client.TimeoutRule
import TcpMonitor.Client.HeartbeatSchedule
import TcpMonitor.Client.DetectionTime
import TcpMonitor.Client.FaithfulEcho
import TcpMonitor.Client.EchoTiming
import TcpMonitor.Client.MeasuredTimes
import TcpMonitor.Client.ReconnectLoop
import TcpMonitor.Client.PeerManager
import TcpMonitor.Client.PeerPool
import TcpMonitor.Client.Reconciliation
import TcpMonitor.Client.SessionConservation
import TcpMonitor.Client.TaskProgress
import TcpMonitor.Client.ManagerProgress
import TcpMonitor.Client.AttemptAccounting
import TcpMonitor.EndToEnd
import TcpMonitor.Link.LinkTiming
import TcpMonitor.Link.HealthyLink
import TcpMonitor.WholeProcess
import TcpMonitor.TimerBounds
import TcpMonitor.SettingsInForce
import TcpMonitor.NodeIdentity
import TcpMonitor.Server.SlotTiming
import TcpMonitor.Process.TwoSides
import TcpMonitor.Process.TimeSeries
import TcpMonitor.Process.FairRuns
import TcpMonitor.SocketAddress
import TcpMonitor.Process.Startup
import TcpMonitor.Process.Supervision
import TcpMonitor.Process.ConnectionSlots
import TcpMonitor.Client.AttemptPacing
import TcpMonitor.Process.ReconnectPacing
import TcpMonitor.Process.SessionGauges
