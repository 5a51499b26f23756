import War3BattleTool.Foundation.Rendezvous
import War3BattleTool.Server.Http

set_option autoImplicit false

/-!
# The tunnel service as a transition system (`server/src/tunnel.rs`)

One task per tunnel connection runs `handle_tunnel`, one task runs
`cleanup_expired`, and `JoinRoom` handlers register tokens.  Every lock-guarded
block is one step, and so is every branch of a `select!` loop.  A program
counter (`Pc`) says at which `.await` a handler stands; between two such points
the handler runs without interruption.

Channel ends are first-class: a handler, the waiting map and a one-shot channel
hold senders of relay inboxes, and `liveSenders` collects the senders of one
inbox from wherever they are held.  `frames`, `wire` and `pairs` record history;
no step reads them.
-/

namespace War3BattleTool.Server

open War3BattleTool.Foundation

/-! ## The state of one connection -/

/-- The one-shot channel over which a waiting handler receives its peer's
sender, seen from the receiving end. -/
inductive Notify where
  /-- the handler never created the channel -/
  | absent
  /-- nothing sent yet, the sender is alive -/
  | pending
  /-- a sender of the inbox of `tx` sits in the channel -/
  | sent (tx : ConnId)
  /-- the sender was dropped without sending -/
  | closed
  /-- the receiving end is consumed or dropped -/
  | gone
  deriving DecidableEq

/-- The byte-rate window of one relay direction. -/
structure RateWindow where
  bytesThisSecond : Nat
  rateWindowStart : Instant
  deriving DecidableEq

/-- Count a frame of `len` bytes that arrives at `now`: the new window and
whether the frame stays within the limit.  A frame over the limit is counted
too. -/
def RateWindow.count (w : RateWindow) (now : Instant) (len : Nat) :
    RateWindow × Bool :=
  let opened : RateWindow :=
    if secs 1 ≤ elapsed now w.rateWindowStart then ⟨0, now⟩ else w
  let counted := { opened with bytesThisSecond := opened.bytesThisSecond + len }
  (counted, decide (counted.bytesThisSecond ≤ rateLimitBytesPerSec))

/-- The locals of a running `relay` call.  `sending` is the message taken from
the inbox whose `ws_sender.send` has not completed. -/
structure Relay where
  peerTx : ConnId
  window : RateWindow
  idleDeadline : Instant
  sending : Option Message
  deriving DecidableEq

/-- The locals `relay` starts with. -/
def Relay.start (peerTx : ConnId) (now : Instant) : Relay where
  peerTx := peerTx
  window := ⟨0, now⟩
  idleDeadline := now + tunnelIdleTimeout
  sending := none

/-- How a `handle_tunnel` call ended. -/
inductive Exit where
  /-- the token check failed -/
  | rejected
  /-- it looked for a peer but never reached `relay` -/
  | unpaired
  /-- its `relay` call ended -/
  | relayed
  deriving DecidableEq

/-- The `.await` at which a tunnel connection stands. -/
inductive Pc where
  /-- admitted by `tunnel_handler`, upgrade not complete -/
  | upgrading
  /-- the upgrade failed; the `on_upgrade` callback was dropped -/
  | upgradeFailed
  /-- about to read `token_bindings` -/
  | checkBinding
  /-- about to take the waiting peer out of `waiting` -/
  | lookupWaiting
  /-- holds the peer it found; about to remove the token binding -/
  | unbind (peer : WaitingPeer)
  /-- found nobody; about to insert itself into `waiting` -/
  | registerWaiting
  /-- in the `select!` over `notify_rx` and the pairing timeout -/
  | awaitPeer (deadline : Instant)
  /-- timed out; about to remove the token from `waiting` -/
  | unregisterWaiting
  /-- inside `relay` -/
  | relaying (r : Relay)
  /-- `handle_tunnel` returned; about to release its connection slot -/
  | returned (exit : Exit)
  /-- the connection slot is released -/
  | released (exit : Exit)
  deriving DecidableEq

/-- What `relay` did with a binary frame it received. -/
inductive Verdict where
  | rateLimited
  | inboxFull
  | forwarded
  deriving DecidableEq

/-- A received binary frame and what became of it. -/
structure Frame where
  data : Bytes
  verdict : Verdict
  deriving DecidableEq

/-- One tunnel connection: the arguments and locals of its `handle_tunnel` call,
its relay inbox, and the history of its frames.  `frames` are the binary frames
`relay` received from this client, `wire` the messages sent to it. -/
structure TunnelTask where
  clientIp : IpAddr
  token : String
  role : String
  pc : Pc
  myTx : Bool
  notify : Notify
  inbox : List Message
  frames : List Frame
  wire : List Message

/-- The place that holds a sender of a relay inbox. -/
inductive Holder where
  /-- the handler's own `my_tx` -/
  | own (c : ConnId)
  /-- the `tx` of the waiting peer stored under a token -/
  | waiting (token : String)
  /-- the `tx` of the peer a handler has taken out of the map -/
  | taken (c : ConnId)
  /-- the `peer_tx` argument of a running `relay` call -/
  | relay (c : ConnId)
  /-- the value inside the one-shot channel of a connection -/
  | oneshot (c : ConnId)
  deriving DecidableEq

namespace TunnelTask

/-- A connection right after admission. -/
def admitted (clientIp : IpAddr) (token role : String) : TunnelTask where
  clientIp := clientIp
  token := token
  role := role
  pc := .upgrading
  myTx := false
  notify := .absent
  inbox := []
  frames := []
  wire := []

/-- `my_rx` is alive: the inbox accepts messages. -/
def receiverOpen (t : TunnelTask) : Bool :=
  match t.pc with
  | .upgrading | .upgradeFailed | .checkBinding | .returned _ | .released _ => false
  | _ => true

/-- A message written to the client. -/
def send (t : TunnelTask) (m : Message) : TunnelTask :=
  { t with wire := t.wire ++ [m] }

/-- What `relay` remembers of a binary frame it received. -/
def record (t : TunnelTask) (r : Relay) (data : Bytes) (verdict : Verdict) : TunnelTask :=
  { t with pc := .relaying r, frames := t.frames ++ [⟨data, verdict⟩] }

/-- `handle_tunnel` returns: all its locals are dropped. -/
def finish (t : TunnelTask) (exit : Exit) : TunnelTask :=
  { t with
    pc := .returned exit
    myTx := false
    notify := if t.notify = .absent then .absent else .gone
    inbox := [] }

/-- The sender of the one-shot channel is dropped. -/
def dropNotify (t : TunnelTask) : TunnelTask :=
  if t.notify = .pending then { t with notify := .closed } else t

/-- The senders held by connection `c`, each with the inbox it belongs to. -/
def senders (c : ConnId) (t : TunnelTask) : List (Holder × ConnId) :=
  (if t.myTx then [(.own c, c)] else []) ++
    (match t.notify with
      | .sent tx => [(.oneshot c, tx)]
      | _ => []) ++
    match t.pc with
    | .unbind peer => [(.taken c, peer.tx)]
    | .relaying r => [(.relay c, r.peerTx)]
    | _ => []

/-- The frames handed to the peer's inbox. -/
def accepted (t : TunnelTask) : List Bytes :=
  (t.frames.filter (·.verdict = .forwarded)).map (·.data)

/-- All binary payloads received by `relay`. -/
def received (t : TunnelTask) : List Bytes := t.frames.map (·.data)

/-- The binary payloads delivered to the client. -/
def delivered (t : TunnelTask) : List Bytes := binaryPayloads t.wire

end TunnelTask

/-! ## The state of the service -/

/-- Where the cleanup task stands inside `cleanup_expired`. -/
inductive CleanupPc where
  | removeWaiting
  | removeBindings (expired : List String)
  | removeUpnp
  deriving DecidableEq

/-- The whole service.  `issued` are the tokens generated so far, `registering`
the ones whose `register_token` call stands between its two blocks, and `pairs`
the connections put into relay for a token: `first` waited, `second` found it. -/
structure TunnelService where
  now : Instant
  tunnel : TunnelState
  tasks : Table ConnId TunnelTask
  cleanup : CleanupPc
  registering : Table String TokenBinding
  issued : List String
  pairs : List (Meeting String ConnId)

namespace TunnelService

/-- The service after startup. -/
def start : TunnelService where
  now := 0
  tunnel := .new
  tasks := .empty
  cleanup := .removeWaiting
  registering := .empty
  issued := []
  pairs := []

/-- Store the new state of a connection. -/
def setTask (s : TunnelService) (c : ConnId) (t : TunnelTask) : TunnelService :=
  { s with tasks := s.tasks.modify c fun _ => t }

/-- Store the new state of the maps. -/
def setTunnel (s : TunnelService) (tunnel : TunnelState) : TunnelService :=
  { s with tunnel := tunnel }

@[simp] theorem tasks_setTunnel (s : TunnelService) (tunnel : TunnelState) :
    (s.setTunnel tunnel).tasks = s.tasks := rfl

/-- Waiting peers are dropped: their one-shot senders die with them. -/
def dropPeers (s : TunnelService) (peers : List WaitingPeer) : TunnelService :=
  { s with
    tasks := s.tasks.mapValues fun c t =>
      if peers.any (·.notify = c) then t.dropNotify else t }

/-- The live senders of the inbox of `c`, by the place that holds them. -/
def liveSenders (s : TunnelService) (c : ConnId) : List Holder :=
  ((s.tunnel.waiting.entries.map fun e => (Holder.waiting e.1, e.2.tx)) ++
    s.tasks.entries.flatMap fun e => e.2.senders e.1).filterMap fun h =>
      if h.2 = c then some h.1 else none

/-! ## `handle_tunnel` up to `relay` -/

/-- The token check: the token is bound, and to this role's address. -/
def checkBinding (s : TunnelService) (c : ConnId) (t : TunnelTask) : TunnelService :=
  match s.tunnel.tokenBindings.get? t.token with
  | none => s.setTask c ((t.send .close).finish .rejected)
  | some binding =>
      if !TunnelState.verifyIp binding t.role t.clientIp then
        s.setTask c ((t.send .close).finish .rejected)
      else s.setTask c { t with pc := .lookupWaiting, myTx := true }

/-- Take the waiting peer, if somebody waits under the token. -/
def lookupWaiting (s : TunnelService) (c : ConnId) (t : TunnelTask) : TunnelService :=
  match s.tunnel.waiting.get? t.token with
  | some peer =>
      (s.setTunnel (s.tunnel.removeWaiting t.token)).setTask c
        { t with pc := .unbind peer }
  | none => s.setTask c { t with pc := .registerWaiting, notify := .pending }

/-- Second arriver: hand a clone of `my_tx` to the waiting peer, and relay.  The
handler's own `my_tx` stays alive while `relay` runs. -/
def handOver (s : TunnelService) (c : ConnId) (t : TunnelTask) (peer : WaitingPeer)
    (waiter : TunnelTask) : TunnelService :=
  { s with pairs := s.pairs ++ [Meeting.mk t.token peer.notify c] }
    |>.setTask peer.notify { waiter with notify := .sent c }
    |>.setTask c { t with pc := .relaying (.start peer.tx s.now) }

/-- Second arriver: remove the token binding, and join the waiting peer if it is
still there. -/
def unbind (s : TunnelService) (c : ConnId) (t : TunnelTask) (peer : WaitingPeer) :
    TunnelService :=
  let s := s.setTunnel (s.tunnel.removeBinding t.token)
  match s.tasks.get? peer.notify with
  | some waiter =>
      if waiter.notify = .pending then s.handOver c t peer waiter
      else s.setTask c ((t.send .close).finish .unpaired)
  | none => s.setTask c ((t.send .close).finish .unpaired)

/-- First arriver: wait under the token.  A peer already stored there is
dropped. -/
def registerWaiting (s : TunnelService) (c : ConnId) (t : TunnelTask) :
    TunnelService :=
  let peer : WaitingPeer := ⟨c, c, t.role, s.now⟩
  s.setTunnel (s.tunnel.insertWaiting t.token peer)
    |>.dropPeers (s.tunnel.waiting.get? t.token).toList
    |>.setTask c { t with pc := .awaitPeer (s.now + pairingTimeout) }

/-- The `notify_rx` branch of the `select!`: on a peer's sender, drop `my_tx` and
relay; on a closed channel, return. -/
def notified (s : TunnelService) (c : ConnId) (t : TunnelTask) : Option TunnelService :=
  match t.notify with
  | .sent tx =>
      some (s.setTask c
        { t with pc := .relaying (.start tx s.now), myTx := false, notify := .gone })
  | .closed => some (s.setTask c (t.finish .unpaired))
  | _ => none

/-- The pairing timeout: remove whatever waits under the token, and return. -/
def unregisterWaiting (s : TunnelService) (c : ConnId) (t : TunnelTask) :
    TunnelService :=
  s.setTunnel (s.tunnel.removeWaiting t.token)
    |>.dropPeers (s.tunnel.waiting.get? t.token).toList
    |>.setTask c ((t.send .close).finish .unpaired)

/-- After `handle_tunnel`, the callback releases the connection slot. -/
def releaseSlot (s : TunnelService) (c : ConnId) (t : TunnelTask) (exit : Exit) :
    TunnelService :=
  s.setTunnel (s.tunnel.releaseTunnelConnection t.clientIp)
    |>.setTask c { t with pc := .released exit }

/-- The next lock-guarded block of a handler. -/
def block (s : TunnelService) (c : ConnId) (t : TunnelTask) : Option TunnelService :=
  match t.pc with
  | .checkBinding => some (s.checkBinding c t)
  | .lookupWaiting => some (s.lookupWaiting c t)
  | .unbind peer => some (s.unbind c t peer)
  | .registerWaiting => some (s.registerWaiting c t)
  | .unregisterWaiting => some (s.unregisterWaiting c t)
  | .returned exit => some (s.releaseSlot c t exit)
  | _ => none

/-! ## `relay` -/

/-- The `rx.recv()` branch.  An empty inbox yields `None` only once no sender of
it is alive. -/
def recv (s : TunnelService) (c : ConnId) (t : TunnelTask) (r : Relay) :
    Option TunnelService :=
  match t.inbox with
  | m :: rest =>
      some (s.setTask c
        { t with inbox := rest, pc := .relaying { r with sending := some m } })
  | [] =>
      if s.liveSenders c = [] then
        some (s.setTask c ((t.send .close).finish .relayed))
      else none

/-- The pending `ws_sender.send` completes, or fails and ends the relay. -/
def sent (s : TunnelService) (c : ConnId) (t : TunnelTask) (r : Relay) (m : Message)
    (ok : Bool) : TunnelService :=
  if ok then
    s.setTask c
      { t.send m with
        pc := .relaying
          { r with sending := none, idleDeadline := s.now + tunnelIdleTimeout } }
  else s.setTask c (t.finish .relayed)

/-- `peer_tx.try_send`: the message is queued unless the inbox is full or its
receiver is gone. -/
def trySend (s : TunnelService) (peer : ConnId) (m : Message) :
    TunnelService × Bool :=
  match s.tasks.get? peer with
  | some p =>
      if p.receiverOpen && decide (p.inbox.length < relayChannelSize) then
        (s.setTask peer { p with inbox := p.inbox ++ [m] }, true)
      else (s, false)
  | none => (s, false)

/-- A binary frame from the client: limit its rate, then offer it to the peer. -/
def binaryFrame (s : TunnelService) (c : ConnId) (t : TunnelTask) (r : Relay)
    (data : Bytes) : TunnelService :=
  match r.window.count s.now data.length with
  | (window, false) =>
      s.setTask c (t.record { r with window := window } data .rateLimited)
  | (window, true) =>
      let offered := s.trySend r.peerTx (.binary data)
      offered.1.setTask c
        (t.record { r with window := window, idleDeadline := s.now + tunnelIdleTimeout }
          data (if offered.2 then .forwarded else .inboxFull))

/-- The `ws_receiver.next()` branch. -/
def frame (s : TunnelService) (c : ConnId) (t : TunnelTask) (r : Relay) :
    StreamItem → TunnelService
  | .message (.binary data) => s.binaryFrame c t r data
  | .message .close => s.setTask c (t.finish .relayed)
  | .message (.ping data) => s.setTask c (t.send (.pong data))
  | .message (.text _) => s
  | .message (.pong _) => s
  | .error => s.setTask c (t.finish .relayed)
  | .ended => s.setTask c (t.finish .relayed)

/-! ## Registration, admission and cleanup -/

/-- `JoinRoom` calls `register_token` with a fresh token: its first block. -/
def registerPending (s : TunnelService) (token : String) (hostIp joinerIp : IpAddr)
    (joinerPlayerId : String) : Option TunnelService :=
  if token ∈ s.issued then none
  else
    some <|
      { s with
        registering := s.registering.insert token ⟨hostIp, joinerIp⟩
        issued := token :: s.issued }.setTunnel
          (s.tunnel.registerTokenPending s.now token hostIp joinerPlayerId)

/-- The second block of that `register_token` call. -/
def registerBinding (s : TunnelService) (token : String) : Option TunnelService :=
  (s.registering.get? token).map fun binding =>
    { s with registering := s.registering.remove token }.setTunnel
      (s.tunnel.registerTokenBinding token binding.hostIp binding.joinerIp)

/-- `UPnPMapped` consumes the entry of a token. -/
def lookupUpnp (s : TunnelService) (token : String) (claimedHostIp : IpAddr) :
    TunnelService × Option String :=
  let found := s.tunnel.lookupUpnpPending token claimedHostIp
  (s.setTunnel found.1, found.2)

/-- A request for a new tunnel connection. -/
def request (s : TunnelService) (c : ConnId) (originOk : Bool) (clientIp : IpAddr)
    (token role : Option String) : Option TunnelService :=
  match s.tasks.get? c with
  | some _ => none
  | none =>
      match tunnelHandler s.tunnel originOk clientIp token role with
      | (tunnel, .ok (token, role)) =>
          some <|
            { s with tasks := s.tasks.insert c (.admitted clientIp token role) }.setTunnel
              tunnel
      | (tunnel, .error _) => some (s.setTunnel tunnel)

/-- The cleanup task runs its next block. -/
def cleanupStep (s : TunnelService) : TunnelService :=
  match s.cleanup with
  | .removeWaiting =>
      let expired := s.tunnel.expiredTokens s.now
      let peers := s.tunnel.waiting.values.filter (TunnelState.waitingExpired s.now)
      { s with cleanup := if expired.isEmpty then .removeUpnp else .removeBindings expired }
        |>.setTunnel (s.tunnel.removeExpiredWaiting s.now)
        |>.dropPeers peers
  | .removeBindings expired =>
      { s with cleanup := .removeUpnp }.setTunnel (s.tunnel.removeBindings expired)
  | .removeUpnp =>
      { s with cleanup := .removeWaiting }.setTunnel (s.tunnel.removeExpiredUpnp s.now)

/-! ## The transition system -/

/-- What can happen next. -/
inductive Label where
  /-- time passes -/
  | elapse (d : Duration)
  | registerPending (token : String) (hostIp joinerIp : IpAddr) (joinerPlayerId : String)
  | registerBinding (token : String)
  | lookupUpnp (token : String) (claimedHostIp : IpAddr)
  | request (c : ConnId) (originOk : Bool) (clientIp : IpAddr)
      (token role : Option String)
  /-- the WebSocket upgrade completes or fails -/
  | upgrade (c : ConnId) (ok : Bool)
  /-- the handler runs its next lock-guarded block -/
  | block (c : ConnId)
  /-- `notify_rx` resolves -/
  | notified (c : ConnId)
  /-- the pairing timeout fires -/
  | timeout (c : ConnId)
  /-- `rx.recv()` resolves -/
  | recv (c : ConnId)
  /-- the pending `ws_sender.send` resolves -/
  | sent (c : ConnId) (ok : Bool)
  /-- `ws_receiver.next()` resolves -/
  | frame (c : ConnId) (item : StreamItem)
  /-- the idle timeout fires -/
  | idle (c : ConnId)
  | cleanup

/-- A step of a connection that runs `relay` and is not busy sending. -/
def whenSelecting (s : TunnelService) (c : ConnId)
    (k : TunnelTask → Relay → Option TunnelService) : Option TunnelService :=
  match s.tasks.get? c with
  | some t =>
      match t.pc with
      | .relaying r => if r.sending = none then k t r else none
      | _ => none
  | none => none

theorem whenSelecting_eq_some {s s' : TunnelService} {c : ConnId}
    {k : TunnelTask → Relay → Option TunnelService}
    (h : s.whenSelecting c k = some s') :
    ∃ t r, s.tasks.get? c = some t ∧ t.pc = .relaying r ∧ r.sending = none ∧
      k t r = some s' := by
  unfold whenSelecting at h
  split at h
  · next t ht =>
    split at h
    · next r hpc =>
      split at h
      · next hsending => exact ⟨t, r, ht, hpc, hsending, h⟩
      · cases h
    · cases h
  · cases h

/-- One step of the service. -/
def step (s : TunnelService) : Label → Option TunnelService
  | .elapse d => some { s with now := s.now + d }
  | .registerPending token hostIp joinerIp pid =>
      s.registerPending token hostIp joinerIp pid
  | .registerBinding token => s.registerBinding token
  | .lookupUpnp token claimedHostIp => some (s.lookupUpnp token claimedHostIp).1
  | .request c originOk ip token role => s.request c originOk ip token role
  | .upgrade c ok =>
      match s.tasks.get? c with
      | some t =>
          if t.pc = .upgrading then
            some (s.setTask c
              { t with pc := if ok then .checkBinding else .upgradeFailed })
          else none
      | none => none
  | .block c => (s.tasks.get? c).bind (s.block c)
  | .notified c =>
      match s.tasks.get? c with
      | some t =>
          match t.pc with
          | .awaitPeer _ => s.notified c t
          | _ => none
      | none => none
  | .timeout c =>
      match s.tasks.get? c with
      | some t =>
          match t.pc with
          | .awaitPeer deadline =>
              if deadline ≤ s.now then
                some (s.setTask c { t with pc := .unregisterWaiting, notify := .gone })
              else none
          | _ => none
      | none => none
  | .recv c => s.whenSelecting c fun t r => s.recv c t r
  | .sent c ok =>
      match s.tasks.get? c with
      | some t =>
          match t.pc with
          | .relaying r => r.sending.map fun m => s.sent c t r m ok
          | _ => none
      | none => none
  | .frame c item => s.whenSelecting c fun t r => some (s.frame c t r item)
  | .idle c =>
      s.whenSelecting c fun t r =>
        if r.idleDeadline ≤ s.now then
          some (s.setTask c ((t.send .close).finish .relayed))
        else none
  | .cleanup => some s.cleanupStep

/-- The tunnel service as a machine. -/
def machine : Machine TunnelService Label where
  init := start
  step := step

/-- Host `1` waited, joiner `2` found it, and both relay. -/
def bothRelay : List Label :=
  [.registerPending "t" (.v4 1) (.v4 2) "p", .registerBinding "t",
    .request 1 true (.v4 1) (some "t") (some "host"), .upgrade 1 true,
    .request 2 true (.v4 2) (some "t") (some "join"), .upgrade 2 true,
    .block 1, .block 1, .block 1, .block 2, .block 2, .block 2, .notified 1]

end TunnelService

end War3BattleTool.Server
