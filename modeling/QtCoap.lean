import QtCoap.Framework.OrderedMap
import QtCoap.Framework.Runs
import QtCoap.Codec.Message
import QtCoap.Codec.OptionList
import QtCoap.Codec.InternalReply
import QtCoap.Codec.OptionReading
import QtCoap.Codec.FrameReading
import QtCoap.Codec.FrameSafety
import QtCoap.Codec.RoundTrip
import QtCoap.Codec.RfcEncoding
import QtCoap.Codec.RfcDecoding
import QtCoap.Protocol.InternalRequest
import QtCoap.Protocol.Handlers
import QtCoap.Protocol.Step
import QtCoap.Protocol.Exchange
import QtCoap.Protocol.Refinement
import QtCoap.Protocol.Effect
import QtCoap.Protocol.Invariant
import QtCoap.Protocol.Matching
import QtCoap.Protocol.Acknowledgement
import QtCoap.Protocol.Lifetime
import QtCoap.Reply.Reply
import QtCoap.Reply.System
import QtCoap.Reply.Success
import QtCoap.Framework.Pieces
import QtCoap.Protocol.BlockOption
import QtCoap.Protocol.RequestOptions
import QtCoap.Blockwise.Merging
import QtCoap.Blockwise.Download
import QtCoap.Protocol.Isolation
import QtCoap.Protocol.Reactions
import QtCoap.Protocol.Outcome
import QtCoap.Protocol.Transmission
import QtCoap.Protocol.Retransmission
import QtCoap.Protocol.Waiting
import QtCoap.Reply.Threads
import QtCoap.Reply.Announcements
import QtCoap.Reply.Phase
import QtCoap.Reply.Termination
import QtCoap.Blockwise.Observation
import QtCoap.Blockwise.Observe
import QtCoap.Blockwise.Group
import QtCoap.Blockwise.Gathering
import QtCoap.Blockwise.Multicast
import QtCoap.Blockwise.Responders
import QtCoap.Blockwise.Upload
import QtCoap.Blockwise.BlockReads
import QtCoap.Blockwise.Preconditions
import QtCoap.Protocol.UriOptions
import QtCoap.Protocol.OptionOrder
import QtCoap.Framework.LifeCycle
import QtCoap.Protocol.TransmitSpan
import QtCoap.Reply.CoreLink
import QtCoap.Reply.Discovery
import QtCoap.Reply.LifeCycle
import QtCoap.Protocol.Postable
import QtCoap.Reply.ErrorOrder
import QtCoap.Connection.Connection
import QtCoap.Protocol.Destination
import QtCoap.Client.Send
import QtCoap.Framework.Doubling
import QtCoap.Protocol.Backoff
import QtCoap.Reply.Destruction
import QtCoap.Protocol.ByteOrder
import QtCoap.Blockwise.Slicing
import QtCoap.Framework.Separated
import QtCoap.Reply.Utf8
import QtCoap.Reply.CoreLinkFormat
import QtCoap.Blockwise.Forwarding
import QtCoap.Connection.UdpConnection
import QtCoap.Connection.UdpRefinement
import QtCoap.Connection.Datagrams
import QtCoap.Connection.Handshake
import QtCoap.Connection.Configuration
import QtCoap.Protocol.Identifiers
import QtCoap.Protocol.WireFormat
import QtCoap.Client.Worker
import QtCoap.Protocol.Cancellation
import QtCoap.Reply.UrlCancellation
import QtCoap.Client.Requests
import QtCoap.Reply.Collected
import QtCoap.Reply.Errors
import QtCoap.Blockwise.Delivery
import QtCoap.Blockwise.Lockstep
import QtCoap.Protocol.Independence
