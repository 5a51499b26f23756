import War3BattleTool.Foundation.Net
import War3BattleTool.Foundation.Table

set_option autoImplicit false

/-!
# The shared state of the tunnel service (`server/src/tunnel.rs`)

`TunnelState` is the set of maps behind the locks of the tunnel service; every
definition below is the body of one lock-guarded block.  A block that the source
splits over two locks is split here at the same place.
-/

namespace War3BattleTool.Server

open War3BattleTool.Foundation

/-- `PAIRING_TIMEOUT`. -/
def pairingTimeout : Duration := secs 30

/-- `TUNNEL_IDLE_TIMEOUT`: five minutes. -/
def tunnelIdleTimeout : Duration := secs 300

/-- `RELAY_CHANNEL_SIZE`. -/
def relayChannelSize : Nat := 64

/-- `RATE_LIMIT_BYTES_PER_SEC`: 50 KB/s. -/
def rateLimitBytesPerSec : Nat := 50 * 1024

/-- `MAX_TUNNEL_CONNECTIONS_PER_IP`. -/
def maxTunnelConnectionsPerIp : Nat := 12

/-- The time an unused `upnpPending` entry is kept. -/
def upnpPendingTtl : Duration := secs 10

/-- A tunnel connection, in the order of arrival. -/
abbrev ConnId : Type := Nat

/-- The party that waits to be paired.  Both channel ends it carries belong to
the connection that registered it: `tx` is a sender of that connection's relay
inbox, `notify` the sender of its one-shot channel. -/
structure WaitingPeer where
  tx : ConnId
  notify : ConnId
  role : String
  createdAt : Instant
  deriving DecidableEq

/-- The addresses a token is bound to when `JoinRoom` registers it. -/
structure TokenBinding where
  hostIp : IpAddr
  joinerIp : IpAddr
  deriving DecidableEq

/-- The UPnP side of a registered token. -/
structure UPnPPending where
  hostIp : IpAddr
  joinerPlayerId : String
  createdAt : Instant
  deriving DecidableEq

/-- The maps of the tunnel service, each behind a lock of its own. -/
structure TunnelState where
  waiting : Table String WaitingPeer
  tokenBindings : Table String TokenBinding
  connectionsPerIp : Table IpAddr Nat
  upnpPending : Table String UPnPPending

namespace TunnelState

/-- `TunnelState::new`. -/
def new : TunnelState where
  waiting := .empty
  tokenBindings := .empty
  connectionsPerIp := .empty
  upnpPending := .empty

/-- `try_acquire_tunnel_connection`: the new state and whether a slot was
granted. -/
def tryAcquireTunnelConnection (s : TunnelState) (ip : IpAddr) :
    TunnelState × Bool :=
  let acquired := acquireSlot maxTunnelConnectionsPerIp s.connectionsPerIp ip
  ({ s with connectionsPerIp := acquired.1 }, acquired.2)

/-- `release_tunnel_connection`. -/
def releaseTunnelConnection (s : TunnelState) (ip : IpAddr) : TunnelState :=
  { s with connectionsPerIp := releaseSlot s.connectionsPerIp ip }

/-- `register_token`, first block: the entry for the UPnP exchange. -/
def registerTokenPending (s : TunnelState) (now : Instant) (token : String)
    (hostIp : IpAddr) (joinerPlayerId : String) : TunnelState :=
  { s with
    upnpPending := s.upnpPending.insert token ⟨hostIp, joinerPlayerId, now⟩ }

/-- `register_token`, second block: the address binding of the token. -/
def registerTokenBinding (s : TunnelState) (token : String)
    (hostIp joinerIp : IpAddr) : TunnelState :=
  { s with tokenBindings := s.tokenBindings.insert token ⟨hostIp, joinerIp⟩ }

/-- `lookup_upnp_pending`: consume the entry when the claimed address is the
host's. -/
def lookupUpnpPending (s : TunnelState) (token : String) (claimedHostIp : IpAddr) :
    TunnelState × Option String :=
  match s.upnpPending.get? token with
  | none => (s, none)
  | some entry =>
      if entry.hostIp ≠ claimedHostIp then (s, none)
      else
        ({ s with upnpPending := s.upnpPending.remove token },
          some entry.joinerPlayerId)

/-- The lookup touches the UPnP entries only. -/
theorem lookupUpnpPending_frame (s : TunnelState) (token : String) (ip : IpAddr) :
    ∃ pending, (s.lookupUpnpPending token ip).1 = { s with upnpPending := pending } := by
  unfold lookupUpnpPending
  split
  · exact ⟨s.upnpPending, rfl⟩
  · split
    · exact ⟨s.upnpPending, rfl⟩
    · exact ⟨_, rfl⟩

/-- `verify_ip`. -/
def verifyIp (binding : TokenBinding) (role : String) (clientIp : IpAddr) : Bool :=
  if role = "host" then binding.hostIp = clientIp
  else if role = "join" then binding.joinerIp = clientIp
  else false

/-- `handle_tunnel`: a waiting party is stored under the token. -/
def insertWaiting (s : TunnelState) (token : String) (peer : WaitingPeer) :
    TunnelState :=
  { s with waiting := s.waiting.insert token peer }

/-- `handle_tunnel`: whoever waits under the token is removed. -/
def removeWaiting (s : TunnelState) (token : String) : TunnelState :=
  { s with waiting := s.waiting.remove token }

/-- `handle_tunnel`: the token is used up. -/
def removeBinding (s : TunnelState) (token : String) : TunnelState :=
  { s with tokenBindings := s.tokenBindings.remove token }

/-- The test of `cleanup_expired` on a waiting party. -/
def waitingExpired (now : Instant) (w : WaitingPeer) : Bool :=
  pairingTimeout < elapsed now w.createdAt

/-- `cleanup_expired`: the tokens whose waiting party timed out. -/
def expiredTokens (s : TunnelState) (now : Instant) : List String :=
  (s.waiting.entries.filter fun e => waitingExpired now e.2).map (·.1)

/-- `cleanup_expired`, first block: drop the waiting parties that timed out. -/
def removeExpiredWaiting (s : TunnelState) (now : Instant) : TunnelState :=
  { s with waiting := s.waiting.retain fun _ w => !waitingExpired now w }

theorem mem_expiredTokens {s : TunnelState} {now : Instant} {token : String} :
    token ∈ s.expiredTokens now ↔
      ∃ peer, s.waiting.get? token = some peer ∧ waitingExpired now peer = true := by
  simp only [expiredTokens, List.mem_map, List.mem_filter]
  constructor
  · rintro ⟨⟨token', peer⟩, ⟨hmem, hexpired⟩, rfl⟩
    exact ⟨peer, Table.mem_entries_iff.mp hmem, hexpired⟩
  · rintro ⟨peer, hpeer, hexpired⟩
    exact ⟨⟨token, peer⟩, ⟨Table.mem_entries_iff.mpr hpeer, hexpired⟩, rfl⟩

/-- `cleanup_expired`, second block: drop the bindings of the expired tokens. -/
def removeBindings (s : TunnelState) (expired : List String) : TunnelState :=
  { s with
    tokenBindings := s.tokenBindings.retain fun token _ => !expired.contains token }

/-- `cleanup_expired`, third block: the UPnP entries past their time to live. -/
def removeExpiredUpnp (s : TunnelState) (now : Instant) : TunnelState :=
  { s with
    upnpPending := s.upnpPending.retain fun _ v =>
      elapsed now v.createdAt < upnpPendingTtl }

end TunnelState

end War3BattleTool.Server
