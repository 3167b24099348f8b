import Cypher.Lib.Run
import Cypher.Crypto.Suite
import Cypher.Crypto.Ratchet
import Cypher.Crypto.Verify.Schedule
import Cypher.Crypto.X3dh
import Cypher.Crypto.Verify.Fifo
import Cypher.Client.KeyManager
import Cypher.Client.Verify.Agreement
import Cypher.Crypto.Verify.OutOfOrder
import Cypher.Crypto.Verify.LateMessages
import Cypher.Crypto.Symbolic
import Cypher.Client.Restart
import Cypher.Client.Verify.KeyReuse
import Cypher.Crypto.Verify.AtMostOnce
import Cypher.Lib.Utf8
import Cypher.Proto.Codec
import Cypher.Onion.Bootstrap
import Cypher.Signaling.Inbox
import Cypher.Signaling.Verify.Conservation
import Cypher.Onion.Verify.SignedResponse
import Cypher.Onion.Verify.Binding
import Cypher.Onion.Fetcher
import Cypher.Onion.Verify.Delivery
import Cypher.Lib.Template
import Cypher.Proto.Verify.Layout
import Cypher.Proto.Checked
import Cypher.Proto.Verify.RoundTrip
import Cypher.Lib.Double
import Cypher.Pwa.Proto
import Cypher.Pwa.Verify.Codec
import Cypher.Lib.Stream
import Cypher.Transport.Codec
import Cypher.Transport.Verify.Stream
import Cypher.Client.Messaging
import Cypher.Client.Verify.Verbatim
import Cypher.Lib.Paired
import Cypher.Proto.Fields
import Cypher.Gateway.Routing
import Cypher.Gateway.Sessions
import Cypher.Gateway.Verify.Tables
import Cypher.Lib.Expiring
import Cypher.Signaling.Delivery
import Cypher.Signaling.Verify.Registry
import Cypher.Gateway.Verify.Routing
import Cypher.Lib.Json
import Cypher.Signaling.Directory
import Cypher.Signaling.Verify.Reconnect
import Cypher.Client.Requests
import Cypher.Client.Initiate
import Cypher.Client.Verify.Prekeys
import Cypher.Client.Verify.Usable
import Cypher.Pwa.Requests
import Cypher.Pwa.Verify.Requests
import Cypher.Client.Files
import Cypher.Client.Verify.Completion
import Cypher.Transfer.Verify.Verification
import Cypher.Client.Attempts
import Cypher.Client.Verify.Resume
import Cypher.Client.Inbox
import Cypher.Lib.Increasing
import Cypher.Net
import Cypher.Onion.Circuit
import Cypher.Relay.Forward
import Cypher.Relay.Onion
import Cypher.Relay.OnionConnections
import Cypher.Relay.Sessions
import Cypher.Relay.Verify.Forward
import Cypher.Relay.Verify.Nonces
import Cypher.Relay.Verify.Onion
import Cypher.Relay.Verify.Sessions
import Cypher.Signaling.Stun
import Cypher.Signaling.Verify.Fetchable
import Cypher.Traversal.Dtls
import Cypher.Traversal.Stun
import Cypher.Traversal.Verify.Dtls
import Cypher.Traversal.Verify.Stun
import Cypher.Client.Verify.Accept
import Cypher.Crypto.Verify.FailedDecrypt
import Cypher.Onion.Verify.Padding
import Cypher.Relay.Verify.Unauthenticated
import Cypher.Signaling.Verify.Claims
import Cypher.Signaling.Verify.Framing
import Cypher.Traversal.Checked
import Cypher.Traversal.Verify.Attributes
import Cypher.Client.Sending
import Cypher.Client.Store
import Cypher.Client.Verify.Sending
import Cypher.Client.Verify.Store
import Cypher.Client.Verify.Hex
import Cypher.Client.Verify.RatchetFormats
import Cypher.Crypto.Identity
import Cypher.Crypto.Verify.SkippedKeys
import Cypher.Lib.Bits
import Cypher.Pwa.Identity
import Cypher.Pwa.Verify.Identity
import Cypher.Signaling.LinkId
import Cypher.Signaling.Verify.LinkId
import Cypher.Client.History
import Cypher.Client.Verify.History
import Cypher.Common.RateLimit
import Cypher.Common.SecretFile
import Cypher.Common.Verify.RateLimit
import Cypher.Common.Verify.SecretFile
import Cypher.Gateway.Limiter
import Cypher.Gateway.Verify.Limiter
import Cypher.Lib.Parsing
import Cypher.Proto.Build
import Cypher.Proto.Verify.Generated
import Cypher.Proto.Verify.SchemaText
import Cypher.Onion.Pool
import Cypher.Onion.Verify.Pool
import Cypher.Traversal.Ice
import Cypher.Traversal.Verify.Ice
import Cypher.Gateway.Heartbeat
import Cypher.Gateway.Verify.Heartbeat
import Cypher.Pwa.Files
import Cypher.Pwa.Verify.Files
import Cypher.Client.IdentityStore
import Cypher.Client.Verify.IdentityStore
import Cypher.Onion.Cover
import Cypher.Onion.Verify.Cover
import Cypher.Client.Runtime
import Cypher.Client.Verify.Runtime
