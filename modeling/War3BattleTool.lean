import War3BattleTool.Client.App
import War3BattleTool.Client.Bridge
import War3BattleTool.Client.BridgeRuns
import War3BattleTool.Client.Cancellation
import War3BattleTool.Client.Commands
import War3BattleTool.Client.Dialling
import War3BattleTool.Client.Gameinfo
import War3BattleTool.Client.GameinfoFormat
import War3BattleTool.Client.GameinfoReads
import War3BattleTool.Client.Inbox
import War3BattleTool.Client.LogPanel
import War3BattleTool.Client.Operations
import War3BattleTool.Client.Provenance
import War3BattleTool.Client.Registration
import War3BattleTool.Client.RelayPhase
import War3BattleTool.Client.Runtime
import War3BattleTool.Client.Settlement
import War3BattleTool.Client.Strategies
import War3BattleTool.Client.SwapHandshake
import War3BattleTool.Client.SwapStream
import War3BattleTool.Client.Tunnels
import War3BattleTool.Client.ViewerUrl
import War3BattleTool.Foundation.Checked
import War3BattleTool.Foundation.Feed
import War3BattleTool.Foundation.FixedWindow
import War3BattleTool.Foundation.JsonCodes
import War3BattleTool.Foundation.JsonText
import War3BattleTool.Foundation.Locks
import War3BattleTool.Foundation.Machine
import War3BattleTool.Foundation.Net
import War3BattleTool.Foundation.Recent
import War3BattleTool.Foundation.Rendezvous
import War3BattleTool.Foundation.RendezvousRuns
import War3BattleTool.Foundation.Seats
import War3BattleTool.Foundation.Slots
import War3BattleTool.Foundation.Splits
import War3BattleTool.Foundation.Subnets
import War3BattleTool.Foundation.Supervisor
import War3BattleTool.Foundation.Sweeps
import War3BattleTool.Foundation.Switchover
import War3BattleTool.Foundation.Table
import War3BattleTool.Foundation.Tally
import War3BattleTool.Foundation.Threads
import War3BattleTool.Foundation.Utf8
import War3BattleTool.Foundation.Vouchers
import War3BattleTool.Protocol.AddrSafety
import War3BattleTool.Protocol.AddrText
import War3BattleTool.Protocol.MessageText
import War3BattleTool.Protocol.Messages
import War3BattleTool.Protocol.SocketAddrText
import War3BattleTool.Protocol.WireText
import War3BattleTool.Server.AppState
import War3BattleTool.Server.Arms
import War3BattleTool.Server.Badges
import War3BattleTool.Server.Broadcast
import War3BattleTool.Server.Callers
import War3BattleTool.Server.Capacity
import War3BattleTool.Server.Credentials
import War3BattleTool.Server.Deliveries
import War3BattleTool.Server.Disclosure
import War3BattleTool.Server.Expiry
import War3BattleTool.Server.Frames
import War3BattleTool.Server.HalfClose
import War3BattleTool.Server.Handlers
import War3BattleTool.Server.Hosting
import War3BattleTool.Server.Http
import War3BattleTool.Server.Joins
import War3BattleTool.Server.Lobby
import War3BattleTool.Server.Locking
import War3BattleTool.Server.Membership
import War3BattleTool.Server.News
import War3BattleTool.Server.Occupancy
import War3BattleTool.Server.Origins
import War3BattleTool.Server.Outboxes
import War3BattleTool.Server.Pairing
import War3BattleTool.Server.Presence
import War3BattleTool.Server.Queues
import War3BattleTool.Server.Rates
import War3BattleTool.Server.Rejoin
import War3BattleTool.Server.RelayRate
import War3BattleTool.Server.RelayStream
import War3BattleTool.Server.Requests
import War3BattleTool.Server.Roles
import War3BattleTool.Server.Roster
import War3BattleTool.Server.Sections
import War3BattleTool.Server.Sends
import War3BattleTool.Server.Slots
import War3BattleTool.Server.Standing
import War3BattleTool.Server.Timeouts
import War3BattleTool.Server.Tokens
import War3BattleTool.Server.TunnelRefinement
import War3BattleTool.Server.TunnelService
import War3BattleTool.Server.TunnelState
import War3BattleTool.System.Conduit
import War3BattleTool.System.Endpoints
import War3BattleTool.System.FirstParty
import War3BattleTool.System.JoinPage
import War3BattleTool.System.Link
import War3BattleTool.System.Mirror
import War3BattleTool.System.OwnHosts
import War3BattleTool.System.Viewing
