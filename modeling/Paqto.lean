import Paqto.Core.AcceptLoop
import Paqto.Core.AckDuplexDeadlock
import Paqto.Core.Acknowledgement
import Paqto.Core.AcknowledgementStep
import Paqto.Core.ClosingWindow
import Paqto.Core.DeadlineEffects
import Paqto.Core.DialedEndpoints
import Paqto.Core.DuplicateSelection
import Paqto.Core.EventDelivery
import Paqto.Core.FailingClose
import Paqto.Core.HandlerPool
import Paqto.Core.HeartbeatSilence
import Paqto.Core.IdentityBinding
import Paqto.Core.InboundOrder
import Paqto.Core.KnownPeers
import Paqto.Core.LifecycleDeadlock
import Paqto.Core.ManagerFence
import Paqto.Core.MessageChannel
import Paqto.Core.Negotiation
import Paqto.Core.OutboundWaiters
import Paqto.Core.PairOverTcp
import Paqto.Core.ReconnectLoops
import Paqto.Core.ReconnectSuppression
import Paqto.Core.RequestAnswered
import Paqto.Core.RequestReply
import Paqto.Core.SessionFrames
import Paqto.Core.SessionHandOver
import Paqto.Core.SessionKills
import Paqto.Core.SessionReaders
import Paqto.Core.SessionReports
import Paqto.Core.SetupRelease
import Paqto.Core.ShutdownLeftovers
import Paqto.Core.SimultaneousOpenConverges
import Paqto.Core.TrackedTasks
import Paqto.Lan.Acceptance
import Paqto.Lan.AdvertisedHost
import Paqto.Lan.Datagrams
import Paqto.Lan.DiscoveryCache
import Paqto.Lan.DiscoveryExchange
import Paqto.Lan.DiscoveryNetwork
import Paqto.Lan.FrameBoundaries
import Paqto.Lan.ReceivedFrames
import Paqto.Lan.StreamClosing
import Paqto.Lan.TransportLifecycle
import Paqto.Serializers.Forwarding
import Paqto.Serializers.ObjectGraphs
import Paqto.Core.AdaptersConsistent
