import P2pVpn.Lib.Bytes
import P2pVpn.Lib.Prefix
import P2pVpn.Lib.Transition
import P2pVpn.Lib.Flow
import P2pVpn.Lib.Component
import P2pVpn.Lib.Batch
import P2pVpn.Lib.Wire
import P2pVpn.Lib.Record
import P2pVpn.Lib.Checksum
import P2pVpn.Lib.Channel
import P2pVpn.Lib.Slots
import P2pVpn.Lib.Float
import P2pVpn.Lib.Files
import P2pVpn.Lib.Toml
import P2pVpn.Osal
import P2pVpn.Addr.Basic
import P2pVpn.Addr.Schemes
import P2pVpn.Addr.Proofs
import P2pVpn.Addr.Subnet
import P2pVpn.Config
import P2pVpn.Generate
import P2pVpn.Connection
import P2pVpn.Tun.Header
import P2pVpn.Tun.Icmp
import P2pVpn.Tun.Packet
import P2pVpn.Tun.Reply
import P2pVpn.Proto.Basic
import P2pVpn.Proto.Wire
import P2pVpn.Proto.Stream
import P2pVpn.Proto.ReadToEnd
import P2pVpn.Peer.Control
import P2pVpn.Peer.Proofs
import P2pVpn.Peer.Handshake
import P2pVpn.Handshake.Basic
import P2pVpn.Handshake.Steps
import P2pVpn.Handshake.Exchange
import P2pVpn.Handshake.Agreement
import P2pVpn.Handshake.Progress
import P2pVpn.Relay.Basic
import P2pVpn.Relay.Calls
import P2pVpn.Relay.System
import P2pVpn.Relay.Routes
import P2pVpn.Relay.Entries
import P2pVpn.Relay.Guards
import P2pVpn.Relay.Rollback
import P2pVpn.Relay.Reconcile
import P2pVpn.Relay.Progress
import P2pVpn.Session.Basic
import P2pVpn.Session.Steps
import P2pVpn.Session.Granted
import P2pVpn.Session.Relay
import P2pVpn.Session.Connections
import P2pVpn.Session.Dns
import P2pVpn.Session.Routes
import P2pVpn.Dns.Resolve
import P2pVpn.Pool.Basic
import P2pVpn.Pool.Handles
import P2pVpn.Pool.Conservation
import P2pVpn.Pool.Gauge
import P2pVpn.Pool.Contents
import P2pVpn.Pool.Views
import P2pVpn.Route.Ecn
import P2pVpn.Peer.Send
import P2pVpn.Peer.Aqm
import P2pVpn.Tun.RxLoop
import P2pVpn.Process.Basic
import P2pVpn.Process.Steps
import P2pVpn.Process.Buffers
import P2pVpn.Process.Progress
import P2pVpn.Process.Flow
import P2pVpn.Process.Wire
import P2pVpn.Mesh.Basic
import P2pVpn.Mesh.Delivery
