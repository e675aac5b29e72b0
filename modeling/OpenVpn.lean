import OpenVpn.Util.Argv
import OpenVpn.Util.HashRefine
import OpenVpn.Util.Mbuf
import OpenVpn.Util.Otime
import OpenVpn.Control.Delivery
import OpenVpn.Control.TlsCryptV2
import OpenVpn.Control.Commands
import OpenVpn.Link.Packetizer
import OpenVpn.Link.Reassemble
import OpenVpn.Link.Compress
import OpenVpn.Link.Socks
import OpenVpn.PacketId.Refine
import OpenVpn.PacketId.Reaper
import OpenVpn.Epoch.Ring
import OpenVpn.Server.PoolIpv6
import OpenVpn.Server.TokenProvenance
import OpenVpn.Server.Identity
import OpenVpn.Server.ConnectChain
import OpenVpn.Server.Lifetime
import OpenVpn.Server.PeerInfoEnv
import OpenVpn.Management.CommandLine
import OpenVpn.Management.LogHistory
import OpenVpn.Ncp.Defaults
import OpenVpn.Ncp.PeerToPeer
import OpenVpn.Options.Quoting
import OpenVpn.Options.PushReply
import OpenVpn.Options.DnsServers
import OpenVpn.Route.BlockLocal
import OpenVpn.Packet.ClientNat
import OpenVpn.Packet.Icmpv6
import OpenVpn.Control.Retransmit
import OpenVpn.Server.DeferredAuth
import OpenVpn.Crypto.FrameSize
