import Acktor.Transition
import Acktor.HashMap
import Acktor.DoubleMap
import Acktor.DoubleMapInvariant
import Acktor.Basic
import Acktor.Registry
import Acktor.ActorMgr
import Acktor.ActorMgrLookup
import Acktor.RegistryRouting
import Acktor.Context
import Acktor.LifeCycle
import Acktor.Cron
import Acktor.CronTask
import Acktor.CronStop
import Acktor.Node
import Acktor.NodeSessions
import Acktor.NodeBookkeeping
import Acktor.Varint
import Acktor.Slice
import Acktor.Protobuf
import Acktor.ProtobufField
import Acktor.Codec
import Acktor.DefaultCodec
import Acktor.DefaultRoundTrip
import Acktor.EncodeIn
import Acktor.ProstCodec
import Acktor.ProstWrites
import Acktor.ProstRoundTrip
import Acktor.ControlMessage
import Acktor.EncodedLen
import Acktor.Canonical
import Acktor.Session
import Acktor.Endpoint
import Acktor.SessionPending
import Acktor.SessionServe
import Acktor.Link
import Acktor.LinkCorrelation
import Acktor.LinkOrder
import Acktor.LinkBlock
import Acktor.SessionActors
import Acktor.SessionActorsBlock
import Acktor.Message
import Acktor.RemoteAddressable
import Acktor.RemoteAddress
import Acktor.RemoteCall
import Acktor.AddressReach
import Acktor.DoubleMapInsert
import Acktor.ControlMessageEnum
import Acktor.TupleFraming
import Acktor.ActorMgrLabels
import Acktor.IpcCodec
import Acktor.Adaptor
import Acktor.AdaptorPending
import Acktor.FutureTurn
import Acktor.LoopRun
import Acktor.ErrorReports
import Acktor.PausedCron
import Acktor.Drain
import Acktor.ProtobufGrammar
import Acktor.DefaultFormat
import Acktor.DoubleMapRebuild
import Acktor.HashChain
import Acktor.StableId
import Acktor.StableIdCollision
import Acktor.WebSocket
import Acktor.WebSocketRecv
import Acktor.NodeEvents
import Acktor.NodeListeners
import Acktor.ListenerBookkeeping
import Acktor.Observer
import Acktor.ObserverEvents
import Acktor.IpcRoundTrip
import Acktor.LinkBytes
import Acktor.RemoteLookup
import Acktor.SessionTimer
import Acktor.NodePair
import Acktor.NodeLookup
import Acktor.Channel
import Acktor.Calls
import Acktor.CallAccounts
import Acktor.CallOrder
import Acktor.ActorLink
import Acktor.ActorLinkCalls
import Acktor.ActorLinkReplies
import Acktor.ActorLinkOrder
import Acktor.ActorLinkOneWay
import Acktor.AdaptorLinkServed
