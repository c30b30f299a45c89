import NcxTunnel.Storage
import NcxTunnel.Runs
import NcxTunnel.Streams
import NcxTunnel.Buffer
import NcxTunnel.BufferQueue
import NcxTunnel.BufferGrowth
import NcxTunnel.Framing
import NcxTunnel.FrameStream
import NcxTunnel.PrefixCode
import NcxTunnel.ClientStreams
import NcxTunnel.HonestChannel
import NcxTunnel.HostileFrames
import NcxTunnel.Output
import NcxTunnel.EventLoop
import NcxTunnel.Channel
import NcxTunnel.Pool
import NcxTunnel.Descriptors
import NcxTunnel.Connector
import NcxTunnel.WireFormat
import NcxTunnel.Protocol
import NcxTunnel.CControlChannel
import NcxTunnel.DataChannel
import NcxTunnel.NServer
import NcxTunnel.ConnectionCallbacks
import NcxTunnel.NClient
import NcxTunnel.ControlRegistry
import NcxTunnel.DataPool
import NcxTunnel.CloseCascade
import NcxTunnel.MalformedPayloads
import NcxTunnel.BridgeInvariant
import NcxTunnel.BridgeRuns
import NcxTunnel.BridgeTeardown
import NcxTunnel.CloseEffects
import NcxTunnel.Greetings
import NcxTunnel.Input
import NcxTunnel.ControlConnections
import NcxTunnel.Dispatch
import NcxTunnel.ServerSteps
import NcxTunnel.Tunnel
import NcxTunnel.TunnelInvariant
import NcxTunnel.TunnelActions
import NcxTunnel.TunnelReads
import NcxTunnel.Transparency
import NcxTunnel.Matching
import NcxTunnel.Quiescence
import NcxTunnel.Ranking
import NcxTunnel.Work
import NcxTunnel.Deliveries
import NcxTunnel.Json
import NcxTunnel.JsonText
import NcxTunnel.GatewayModel
import NcxTunnel.ClientConfig
import NcxTunnel.Switchboard
import NcxTunnel.ServerStreams
import NcxTunnel.Listeners
import NcxTunnel.CloseOnce
