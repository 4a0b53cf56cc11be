import VeilVpn.Bytes
import VeilVpn.Rlp
import VeilVpn.Abi
import VeilVpn.Dns
import VeilVpn.Loop
import VeilVpn.Machine
import VeilVpn.Progress
import VeilVpn.Threads
import VeilVpn.Fifo
import VeilVpn.Ledger
import VeilVpn.HashMap
import VeilVpn.Epoll
import VeilVpn.Arena
import VeilVpn.Pool
import VeilVpn.Window
import VeilVpn.Matching
import VeilVpn.Collision
import VeilVpn.Net
import VeilVpn.Text
import VeilVpn.Lines
import VeilVpn.Attempt
import VeilVpn.Time
import VeilVpn.Json
import VeilVpn.ShiftRegister
import VeilVpn.OnesComplement
import VeilVpn.Noise.Impl.Crypto
import VeilVpn.Noise.Impl.Packet
import VeilVpn.Noise.Impl.Session
import VeilVpn.Noise.Impl.RateLimiter
import VeilVpn.Noise.Impl.Handshake
import VeilVpn.Noise.Impl.Tunn
import VeilVpn.Noise.Impl.Operation
import VeilVpn.Noise.Lemmas.Packet
import VeilVpn.Noise.Lemmas.Handshake
import VeilVpn.Noise.Lemmas.Tunn
import VeilVpn.Noise.Lemmas.Window
import VeilVpn.Noise.Lemmas.Replay
import VeilVpn.Noise.Lemmas.Timestamp
import VeilVpn.Noise.Lemmas.Transport
import VeilVpn.Noise.Lemmas.Timers
import VeilVpn.Noise.Lemmas.Operation
import VeilVpn.Noise.Lemmas.Index
import VeilVpn.Noise.Lemmas.Delivery
import VeilVpn.Noise.Lemmas.Confirmation
import VeilVpn.Noise.Lemmas.Lifetime
import VeilVpn.Noise.Lemmas.Queue
import VeilVpn.Noise.Lemmas.IpPacket
import VeilVpn.Noise.Lemmas.Rejection
import VeilVpn.Noise.Lemmas.Macs
import VeilVpn.Noise.Lemmas.Cookie
import VeilVpn.Relay.Impl.Relay
import VeilVpn.Relay.Lemmas.Transparency
import VeilVpn.Payment.Impl.Quota
import VeilVpn.Payment.Impl.Protocol
import VeilVpn.Payment.Impl.Authorization
import VeilVpn.Payment.Impl.Settlement
import VeilVpn.Payment.Impl.Deposit
import VeilVpn.Payment.Impl.Tx
import VeilVpn.Payment.Lemmas.Quota
import VeilVpn.Payment.Lemmas.Protocol
import VeilVpn.Payment.Lemmas.Checksum
import VeilVpn.Payment.Lemmas.Codec
import VeilVpn.Payment.Lemmas.Authorization
import VeilVpn.Payment.Lemmas.Settlement
import VeilVpn.Payment.Lemmas.Binding
import VeilVpn.Payment.Lemmas.Tx
import VeilVpn.Device.Impl.AllowedIps
import VeilVpn.Device.Impl.Peer
import VeilVpn.Device.Impl.Device
import VeilVpn.Device.Impl.Uapi
import VeilVpn.Device.Impl.Api
import VeilVpn.Device.Impl.Payment
import VeilVpn.Device.Impl.Handlers
import VeilVpn.Device.Lemmas.Frame
import VeilVpn.Device.Lemmas.Step
import VeilVpn.Device.Lemmas.Handlers
import VeilVpn.Device.Lemmas.Payment
import VeilVpn.Device.Lemmas.Quota
import VeilVpn.Device.Lemmas.Invariant
import VeilVpn.Device.Lemmas.Signals
import VeilVpn.Device.Lemmas.Roles
import VeilVpn.Device.Lemmas.Spending
import VeilVpn.Device.Lemmas.Metering
import VeilVpn.Device.Lemmas.Replay
import VeilVpn.Device.Lemmas.Ready
import VeilVpn.Device.Lemmas.Requests
import VeilVpn.Device.Lemmas.Endpoint
import VeilVpn.Device.Lemmas.Tunnels
import VeilVpn.Device.Lemmas.Peers
import VeilVpn.Device.Lemmas.AllowedIps
import VeilVpn.Device.Lemmas.Tables
import VeilVpn.Device.Lemmas.Register
import VeilVpn.Device.Lemmas.Index
import VeilVpn.Device.Lemmas.Revocation
import VeilVpn.Device.Lemmas.Consistency
import VeilVpn.Device.Lemmas.Uapi
import VeilVpn.Device.Lemmas.KeyText
import VeilVpn.Device.Lemmas.Sections
import VeilVpn.Device.Lemmas.Isolation
import VeilVpn.Device.Lemmas.Keys
import VeilVpn.Device.Lemmas.Routing
import VeilVpn.Device.Lemmas.Notification
import VeilVpn.Link.Basic
import VeilVpn.Link.Lemmas.Signals
import VeilVpn.Link.Lemmas.Move
import VeilVpn.Link.Lemmas.Lockout
import VeilVpn.Link.Lemmas.Exchange
import VeilVpn.Registration.Impl.Registration
import VeilVpn.Registration.Impl.Uapi
import VeilVpn.Registration.Impl.Reaper
import VeilVpn.Registration.Impl.WorldId
import VeilVpn.Registration.Lemmas.Pool
import VeilVpn.Registration.Lemmas.WorldId
import VeilVpn.Service.Basic
import VeilVpn.Service.Lemmas.Step
import VeilVpn.Service.Lemmas.Agreement
import VeilVpn.Service.Lemmas.Stale
import VeilVpn.Service.Lemmas.Uapi
import VeilVpn.Client.Impl.Health
import VeilVpn.Client.Impl.Host
import VeilVpn.Client.Impl.Vpn
import VeilVpn.Client.Impl.Ens
import VeilVpn.Client.Lemmas.Health
import VeilVpn.Client.Lemmas.Host
import VeilVpn.Client.Lemmas.Vpn
import VeilVpn.Client.Lemmas.Connect
import VeilVpn.Client.Lemmas.Disconnect
import VeilVpn.Client.Lemmas.Records
import VeilVpn.Client.Lemmas.Names
import VeilVpn.Client.Lemmas.Calldata
import VeilVpn.Service.Lemmas.Reaper
import VeilVpn.Device.Impl.Lock
import VeilVpn.Device.Lemmas.Lock
import VeilVpn.Device.Lemmas.Waiting
import VeilVpn.Device.Impl.Workers
import VeilVpn.Device.Lemmas.Workers
import VeilVpn.Device.Lemmas.EventLoop
import VeilVpn.Device.Impl.EventPoll
import VeilVpn.Device.Lemmas.EventPoll
import VeilVpn.Tee.Impl.Registry
import VeilVpn.Tee.Impl.Discovery
import VeilVpn.Tee.Lemmas.Registry
import VeilVpn.Tee.Lemmas.Discovery
import VeilVpn.Tee.Lemmas.Completion
