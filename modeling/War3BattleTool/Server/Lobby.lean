import War3BattleTool.Protocol.AddrSafety
import War3BattleTool.Server.Http
import War3BattleTool.Server.TunnelService

set_option autoImplicit false

/-!
# The lobby server as a transition system (`server/src/ws.rs`, `server/src/main.rs`)

One task per lobby connection runs `handle_socket`, one task runs
`spawn_cleanup_task`, and the tunnel service runs beside them.  Every lock-guarded
block is one step, and takes with it the messages that are sent before the next
`.await`: `Sending` is this server with each of these `try_send`s a step of its own.
A program counter (`HandlerPc`) says at which `.await` a handler stands; the receive
loop of `handle_socket` can be dropped at each of them, because it is one branch of a
`select!`.

A UUID is drawn at the step that publishes it: the step's label supplies a string that
was not drawn before.
-/

namespace War3BattleTool.Server

open War3BattleTool.Foundation War3BattleTool.Protocol

/-- `MAX_MESSAGES_PER_SECOND`. -/
def maxMessagesPerSecond : Nat := 10

/-- `MAX_MESSAGE_SIZE`, in bytes. -/
def maxMessageSize : Nat := 4096

/-- `MAX_TOTAL_PLAYERS`. -/
def maxTotalPlayers : Nat := 500

/-- `MAX_TOTAL_ROOMS`. -/
def maxTotalRooms : Nat := 200

/-- `JOIN_COOLDOWN`. -/
def joinCooldown : Duration := secs 5

/-- `WEB_VIEWER_TIMEOUT`. -/
def webViewerTimeout : Duration := secs 120

/-- `CLEANUP_INTERVAL`. -/
def cleanupInterval : Duration := secs 10

/-! ## The state of one connection -/

/-- The message limit of a connection: a fixed window of one second. -/
structure RateLimiter where
  tokens : Nat
  lastRefill : Instant

namespace RateLimiter

/-- `RateLimiter::new`. -/
def new (now : Instant) : RateLimiter where
  tokens := maxMessagesPerSecond
  lastRefill := now

/-- `RateLimiter::allow`: the new limiter and whether the message may pass. -/
def allow (r : RateLimiter) (now : Instant) : RateLimiter × Bool :=
  let refilled :=
    if secs 1 ≤ elapsed now r.lastRefill then ⟨maxMessagesPerSecond, now⟩ else r
  if 0 < refilled.tokens then ({ refilled with tokens := refilled.tokens - 1 }, true)
  else (refilled, false)

end RateLimiter

/-- The fields of a `CreateRoom` message that passed `validate`. -/
structure RoomRequest where
  roomName : String
  mapName : String
  maxPlayers : Nat
  gameinfo : Bytes
  valid : (ClientMessage.createRoom roomName mapName maxPlayers gameinfo).validate = .ok ()

/-- The locals of `CreateRoom` once the host's entry has been read. -/
structure RoomDraft where
  request : RoomRequest
  nickname : String
  war3Version : War3Version

/-- The room a draft becomes. -/
def RoomDraft.room (draft : RoomDraft) (roomId hostPlayerId : String) : Room where
  roomId := roomId
  hostPlayerId := hostPlayerId
  hostNickname := draft.nickname
  roomName := draft.request.roomName
  mapName := draft.request.mapName
  maxPlayers := draft.request.maxPlayers
  currentPlayers := 1
  war3Version := draft.war3Version
  gameinfo := draft.request.gameinfo

/-- The locals of `JoinRoom` after step 1. -/
structure JoinQuote where
  roomId : String
  hostPlayerId : String
  roomVersion : War3Version
  gameinfo : Bytes

/-- The locals of `JoinRoom` after step 2. -/
structure JoinTicket where
  quote : JoinQuote
  joinerNickname : String
  hostIp : IpAddr
  hostTx : SocketId

/-- The `.await` at which `handle_socket` stands, with the locals it will read. -/
inductive HandlerPc where
  /-- `ws_receiver.next()` -/
  | receiving
  /-- `Register`: about to count the players -/
  | registerCount (nickname : String) (war3Version : War3Version)
  /-- `Register`: about to insert the player, whose first heartbeat is this one -/
  | registerInsert (nickname : String) (war3Version : War3Version) (lastHeartbeat : Instant)
  /-- at the `broadcast_state` that ends a message -/
  | broadcast
  /-- `Heartbeat` -/
  | heartbeat
  /-- `CreateRoom`: about to read the host's entry -/
  | createRead (request : RoomRequest)
  /-- `CreateRoom`: about to count the rooms -/
  | createCount (draft : RoomDraft)
  /-- `CreateRoom`: about to insert the room -/
  | createInsert (draft : RoomDraft)
  /-- `CreateRoom`: about to set the host's `hosting_room` -/
  | createLink (roomId : String)
  /-- `CloseRoom`: about to take the host's `hosting_room` -/
  | closeTake
  /-- `CloseRoom`: about to remove the room -/
  | closeRemove (roomId : String)
  /-- `UPnPMapped`: about to look the token up -/
  | upnpLookup (externalAddr tunnelToken : String)
  /-- `UPnPMapped`: about to find the joiner -/
  | upnpForward (externalAddr joinerPlayerId : String)
  /-- `JoinRoom`, step 1 -/
  | joinRoom (roomId : String)
  /-- `JoinRoom`, step 2 -/
  | joinPlayers (quote : JoinQuote)
  /-- `JoinRoom`, step 3 -/
  | joinReserve (ticket : JoinTicket)
  /-- `JoinRoom`, step 4: the first block of `register_token` -/
  | joinRegisterPending (ticket : JoinTicket)
  /-- `JoinRoom`, step 4: the second block of `register_token` -/
  | joinRegisterBinding (ticket : JoinTicket) (tunnelToken : String)
  /-- `JoinRoom`, step 5: about to record the room with the player -/
  | joinRecord (ticket : JoinTicket)
  /-- `JoinRoom`, step 5: about to count the player out of the old room -/
  | joinReleaseOld (oldId : String)
  /-- after the `select!`, with `registered` set -/
  | leaving
  /-- in the second block of `remove_player` -/
  | removeRooms (hostingRoom joinedRoom : Option String)
  /-- at the last `broadcast_state` -/
  | finalBroadcast
  /-- `handle_socket` returned; about to release the connection slot -/
  | returned
  /-- the connection slot is released -/
  | released

/-- The handler waits for a message, or `handle_socket` has returned. -/
def HandlerPc.resting : HandlerPc → Bool
  | .receiving | .returned | .released => true
  | _ => false

/-- The handler stands inside its receive loop. -/
def HandlerPc.inLoop : HandlerPc → Bool
  | .leaving | .removeRooms _ _ | .finalBroadcast | .returned | .released => false
  | _ => true

/-- The locals of `handle_socket`.  `viewerSince` is the time at which the web-viewer
countdown started. -/
structure Handler where
  clientIp : IpAddr
  playerId : String
  registered : Bool
  isWebViewer : Bool
  rateLimiter : RateLimiter
  lastJoinAt : Option Instant
  viewerSince : Option Instant
  pc : HandlerPc

namespace Handler

/-- The locals `handle_socket` starts with. -/
def start (clientIp : IpAddr) (playerId : String) (now : Instant) : Handler where
  clientIp := clientIp
  playerId := playerId
  registered := false
  isWebViewer := false
  rateLimiter := .new now
  lastJoinAt := none
  viewerSince := none
  pc := .receiving

/-- After the `select!`: a registered connection is torn down, another one returns. -/
def exit (h : Handler) : Handler :=
  { h with pc := if h.registered then .leaving else .returned }

/-- The web-viewer countdown has run out. -/
def viewerTimedOut (h : Handler) (now : Instant) : Bool :=
  match h.viewerSince with
  | some since => since + webViewerTimeout ≤ now
  | none => false

end Handler

/-- What `ws_receiver.next()` yields.  A text frame counts by its length in bytes, by the
message serde makes of it, and by the address in that message's `external_addr`. -/
inductive Incoming where
  | text (len : Nat) (parsed : Option ClientMessage) (externalIp : Option IpAddr)
  | close
  /-- a binary, ping or pong frame -/
  | other
  /-- an error, or the end of the stream -/
  | ended

/-- A connection admitted by `ws_handler`. -/
inductive Socket where
  /-- the WebSocket upgrade is not complete -/
  | upgrading (clientIp : IpAddr)
  /-- the upgrade failed; the `on_upgrade` callback was dropped -/
  | upgradeFailed (clientIp : IpAddr)
  /-- the `on_upgrade` callback runs -/
  | running (h : Handler)

/-- No handler runs, or it rests. -/
def Socket.resting : Socket → Bool
  | .running h => h.pc.resting
  | _ => true

/-! ## The state of the server -/

/-- Where the cleanup task stands. -/
inductive CleanupTask where
  /-- waits for the next tick -/
  | tick
  /-- inside `TunnelState::cleanup_expired` -/
  | tunnels
  | findExpired
  /-- about to remove the first of these players, or to broadcast when none is left -/
  | removePlayers (expired : List String)
  /-- in the second block of `remove_player` -/
  | removeRooms (hostingRoom joinedRoom : Option String) (expired : List String)

/-- The cleanup task waits for its next tick. -/
def CleanupTask.resting : CleanupTask → Bool
  | .tick => true
  | _ => false

/-- The whole server.  The clock is that of the tunnel service; `playerIds` and `roomIds`
are the UUIDs drawn for connections and rooms. -/
structure Lobby where
  tunnel : TunnelService
  app : AppState
  sockets : Table SocketId Socket
  outboxes : Table SocketId Outbox
  cleanup : CleanupTask
  nextTick : Instant
  playerIds : List String
  roomIds : List String

namespace Lobby

/-- The server after startup. -/
def start : Lobby where
  tunnel := .start
  app := .new
  sockets := .empty
  outboxes := .empty
  cleanup := .tick
  nextTick := 0
  playerIds := []
  roomIds := []

/-- The time. -/
def now (s : Lobby) : Instant := s.tunnel.now

/-- Store the locals of a handler. -/
def put (s : Lobby) (c : SocketId) (h : Handler) : Lobby :=
  { s with sockets := s.sockets.modify c fun _ => .running h }

/-- Store the locals of a handler that proceeds to `pc`. -/
def goto (s : Lobby) (c : SocketId) (h : Handler) (pc : HandlerPc) : Lobby :=
  s.put c { h with pc := pc }

/-- Store the maps. -/
def setApp (s : Lobby) (app : AppState) : Lobby := { s with app := app }

/-- Store the tunnel service. -/
def setTunnel (s : Lobby) (tunnel : TunnelService) : Lobby := { s with tunnel := tunnel }

/-- `tx.try_send`. -/
def trySend (s : Lobby) (tx : SocketId) (m : ServerMessage) : Lobby :=
  { s with outboxes := offer s.outboxes tx m }

/-- An `Error` to the client. -/
def error (s : Lobby) (tx : SocketId) (text : String) : Lobby := s.trySend tx (.error text)

/-- `broadcast_state`, with its sends in a row. -/
def broadcastState (s : Lobby) : Lobby :=
  { s with outboxes := s.app.broadcastState s.outboxes }

/-! ## `Register` and `Heartbeat` -/

/-- `Register`, first block: the player limit. -/
def registerCount (s : Lobby) (c : SocketId) (h : Handler) (nickname : String)
    (war3Version : War3Version) : Lobby :=
  if maxTotalPlayers ≤ s.app.players.size then
    (s.goto c h .receiving).error c "伺服器已滿"
  else
    let viewer := isWebViewerName nickname
    s.put c
      { h with
        isWebViewer := viewer
        viewerSince := if viewer then h.viewerSince.or (some s.now) else h.viewerSince
        pc := .registerInsert nickname war3Version s.now }

/-- `Register`, second block: the player is in. -/
def registerInsert (s : Lobby) (c : SocketId) (h : Handler) (nickname : String)
    (war3Version : War3Version) (lastHeartbeat : Instant) : Lobby :=
  let player : ConnectedPlayer := {
    playerId := h.playerId
    nickname := nickname
    war3Version := war3Version
    clientIp := h.clientIp
    lastHeartbeat := lastHeartbeat
    tx := c
    hostingRoom := none
    joinedRoom := none
    disconnectedAt := none }
  let s := (s.setApp (s.app.insertPlayer player)).put c
    { h with registered := true, pc := .broadcast }
  let s := s.trySend c (.welcome h.playerId)
  if h.isWebViewer then s else s.trySend c (.yourObservedAddr h.clientIp)

/-! ## `CreateRoom` and `CloseRoom` -/

/-- `CreateRoom`, first block: the host's entry. -/
def createRead (s : Lobby) (c : SocketId) (h : Handler) (request : RoomRequest) : Lobby :=
  match s.app.players.get? h.playerId with
  | some p =>
      if p.hostingRoom.isSome then (s.goto c h .receiving).error c "已有房間，請先關閉"
      else s.goto c h (.createCount ⟨request, p.nickname, p.war3Version⟩)
  | none => s.goto c h .receiving

/-- `CreateRoom`, second block: the room limit. -/
def createCount (s : Lobby) (c : SocketId) (h : Handler) (draft : RoomDraft) : Lobby :=
  if maxTotalRooms ≤ s.app.rooms.size then (s.goto c h .receiving).error c "伺服器房間已滿"
  else s.goto c h (.createInsert draft)

/-- `CreateRoom`, third block: the room is in. -/
def createInsert (s : Lobby) (c : SocketId) (h : Handler) (draft : RoomDraft)
    (roomId : String) : Option Lobby :=
  if roomId ∈ s.roomIds then none
  else
    some <|
      { s with roomIds := roomId :: s.roomIds }.setApp
          (s.app.insertRoom (draft.room roomId h.playerId))
        |>.goto c h (.createLink roomId)

/-- `CreateRoom`, fourth block: the host's side. -/
def createLink (s : Lobby) (c : SocketId) (h : Handler) (roomId : String) : Lobby :=
  (s.setApp (s.app.setHostingRoom h.playerId roomId)).goto c h .broadcast

/-- `CloseRoom`, first block. -/
def closeTake (s : Lobby) (c : SocketId) (h : Handler) : Lobby :=
  let taken := s.app.takeHostingRoom h.playerId
  (s.setApp taken.1).goto c h <|
    match taken.2 with
    | some roomId => .closeRemove roomId
    | none => .receiving

/-- `CloseRoom`, second block. -/
def closeRemove (s : Lobby) (c : SocketId) (h : Handler) (roomId : String) : Lobby :=
  (s.setApp (s.app.removeRoom roomId)).goto c h .broadcast

/-! ## `UPnPMapped` -/

/-- `UPnPMapped`, first block: the token is used up. -/
def upnpLookup (s : Lobby) (c : SocketId) (h : Handler)
    (externalAddr tunnelToken : String) : Lobby :=
  let found := s.tunnel.lookupUpnp tunnelToken h.clientIp
  (s.setTunnel found.1).goto c h <|
    match found.2 with
    | some joinerPlayerId => .upnpForward externalAddr joinerPlayerId
    | none => .receiving

/-- `UPnPMapped`, second block: the joiner is told. -/
def upnpForward (s : Lobby) (c : SocketId) (h : Handler)
    (externalAddr joinerPlayerId : String) : Lobby :=
  let s := s.goto c h .receiving
  match s.app.players.values.find? fun p => p.playerId = joinerPlayerId && p.online with
  | some p => s.trySend p.tx (.peerUPnPAddr externalAddr)
  | none => s

/-! ## `JoinRoom` -/

/-- `JoinRoom`, step 1: the room's data. -/
def joinRoom (s : Lobby) (c : SocketId) (h : Handler) (roomId : String) : Lobby :=
  match s.app.rooms.get? roomId with
  | some r => s.goto c h (.joinPlayers ⟨roomId, r.hostPlayerId, r.war3Version, r.gameinfo⟩)
  | none => (s.goto c h .receiving).trySend c .joinFailure

/-- `JoinRoom`, step 2: the players' data. -/
def joinPlayers (s : Lobby) (c : SocketId) (h : Handler) (quote : JoinQuote) : Lobby :=
  match s.app.players.get? h.playerId with
  | none => s.goto c h .receiving
  | some joiner =>
      if joiner.war3Version ≠ quote.roomVersion then
        (s.goto c h .receiving).trySend c .joinFailure
      else
        match (s.app.players.get? quote.hostPlayerId).filter (·.online) with
        | some host =>
            s.goto c h (.joinReserve ⟨quote, joiner.nickname, host.clientIp, host.tx⟩)
        | none => (s.goto c h .receiving).trySend c .joinFailure

/-- `JoinRoom`, step 3: reserve a slot. -/
def joinReserve (s : Lobby) (c : SocketId) (h : Handler) (ticket : JoinTicket) : Lobby :=
  match s.app.reserveSlot ticket.quote.roomId with
  | (app, true) => (s.setApp app).goto c h (.joinRegisterPending ticket)
  | (_, false) => (s.goto c h .receiving).trySend c .joinFailure

/-- `JoinRoom`, step 4: a fresh token, and the first block of `register_token`. -/
def joinRegisterPending (s : Lobby) (c : SocketId) (h : Handler) (ticket : JoinTicket)
    (tunnelToken : String) : Option Lobby :=
  (s.tunnel.registerPending tunnelToken ticket.hostIp h.clientIp h.playerId).map fun tunnel =>
    (s.setTunnel tunnel).goto c h (.joinRegisterBinding ticket tunnelToken)

/-- `JoinRoom`, step 4: the second block of `register_token`, and the messages to both
parties in a row. -/
def joinRegisterBinding (s : Lobby) (c : SocketId) (h : Handler) (ticket : JoinTicket)
    (tunnelToken : String) : Option Lobby :=
  (s.tunnel.registerBinding tunnelToken).map fun tunnel =>
    let gameinfo := ticket.quote.gameinfo
    ((s.setTunnel tunnel).goto c h (.joinRecord ticket))
      |>.trySend c (.stunInfo ticket.hostIp)
      |>.trySend ticket.hostTx (.stunInfo h.clientIp)
      |>.trySend c (.joinResult true (some ticket.quote.roomId) (some tunnelToken)
          (if gameinfo.isEmpty then none else some gameinfo))
      |>.trySend ticket.hostTx (.playerJoined ticket.joinerNickname tunnelToken)

/-- The end of a successful `JoinRoom`: the cooldown starts. -/
def joined (s : Lobby) (c : SocketId) (h : Handler) : Lobby :=
  s.put c { h with lastJoinAt := some s.now, pc := .broadcast }

/-- `JoinRoom`, step 5: the player is in the room. -/
def joinRecord (s : Lobby) (c : SocketId) (h : Handler) (ticket : JoinTicket) : Lobby :=
  let replaced := s.app.replaceJoinedRoom h.playerId ticket.quote.roomId
  match replaced.2 with
  | some oldId => (s.setApp replaced.1).goto c h (.joinReleaseOld oldId)
  | none => (s.setApp replaced.1).joined c h

/-- `JoinRoom`, step 5: the player is out of the old room. -/
def joinReleaseOld (s : Lobby) (c : SocketId) (h : Handler) (oldId : String) : Lobby :=
  (s.setApp (s.app.leaveRoom oldId)).joined c h

/-! ## Tear-down -/

/-- After the `select!`: a web viewer is removed at once, another player is marked. -/
def leaving (s : Lobby) (c : SocketId) (h : Handler) : Lobby :=
  if h.isWebViewer then
    match s.app.takePlayer h.playerId with
    | (app, some (hostingRoom, joinedRoom)) =>
        (s.setApp app).goto c h (.removeRooms hostingRoom joinedRoom)
    | (_, none) => s.goto c h .finalBroadcast
  else (s.setApp (s.app.markDisconnected s.now h.playerId)).goto c h .finalBroadcast

/-- The second block of `remove_player`. -/
def removeRooms (s : Lobby) (c : SocketId) (h : Handler)
    (hostingRoom joinedRoom : Option String) : Lobby :=
  (s.setApp (s.app.clearRooms hostingRoom joinedRoom)).goto c h .finalBroadcast

/-- The next lock-guarded block of a handler; `fresh` is the UUID it may draw. -/
def block (s : Lobby) (c : SocketId) (h : Handler) (fresh : String) : Option Lobby :=
  match h.pc with
  | .receiving => none
  | .registerCount nickname war3Version => some (s.registerCount c h nickname war3Version)
  | .registerInsert nickname war3Version lastHeartbeat =>
      some (s.registerInsert c h nickname war3Version lastHeartbeat)
  | .broadcast => some (s.broadcastState.goto c h .receiving)
  | .heartbeat => some ((s.setApp (s.app.heartbeat s.now h.playerId)).goto c h .receiving)
  | .createRead request => some (s.createRead c h request)
  | .createCount draft => some (s.createCount c h draft)
  | .createInsert draft => s.createInsert c h draft fresh
  | .createLink roomId => some (s.createLink c h roomId)
  | .closeTake => some (s.closeTake c h)
  | .closeRemove roomId => some (s.closeRemove c h roomId)
  | .upnpLookup externalAddr tunnelToken => some (s.upnpLookup c h externalAddr tunnelToken)
  | .upnpForward externalAddr joinerPlayerId =>
      some (s.upnpForward c h externalAddr joinerPlayerId)
  | .joinRoom roomId => some (s.joinRoom c h roomId)
  | .joinPlayers quote => some (s.joinPlayers c h quote)
  | .joinReserve ticket => some (s.joinReserve c h ticket)
  | .joinRegisterPending ticket => s.joinRegisterPending c h ticket fresh
  | .joinRegisterBinding ticket tunnelToken => s.joinRegisterBinding c h ticket tunnelToken
  | .joinRecord ticket => some (s.joinRecord c h ticket)
  | .joinReleaseOld oldId => some (s.joinReleaseOld c h oldId)
  | .leaving => some (s.leaving c h)
  | .removeRooms hostingRoom joinedRoom => some (s.removeRooms c h hostingRoom joinedRoom)
  | .finalBroadcast => some (s.broadcastState.goto c h .returned)
  | .returned => some ((s.setApp (s.app.releaseConnection h.clientIp)).goto c h .released)
  | .released => none

/-! ## The receive loop -/

/-- A message that passed the checks, up to its first `.await`.  `externalIp` is the
address part of `external_addr`, where it parses. -/
def dispatch (s : Lobby) (c : SocketId) (h : Handler) (m : ValidMessage)
    (externalIp : Option IpAddr) : Lobby :=
  match m with
  | ⟨.register nickname war3Version _, _⟩ =>
      if h.registered then s.error c "已經註冊過了"
      else s.goto c h (.registerCount nickname war3Version)
  | ⟨.heartbeat, _⟩ => s.goto c h .heartbeat
  | ⟨.createRoom roomName mapName maxPlayers gameinfo, valid⟩ =>
      if !h.registered || h.isWebViewer then s
      else s.goto c h (.createRead ⟨roomName, mapName, maxPlayers, gameinfo, valid⟩)
  | ⟨.closeRoom, _⟩ =>
      if !h.registered || h.isWebViewer then s else s.goto c h .closeTake
  | ⟨.ping ts, _⟩ => s.trySend c (.pong ts)
  | ⟨.upnpMapped externalAddr tunnelToken, _⟩ =>
      if !h.registered || h.isWebViewer then s
      else if !externalIp.any isSafeExternalAddr then s
      else s.goto c h (.upnpLookup externalAddr tunnelToken)
  | ⟨.joinRoom roomId, _⟩ =>
      if !h.registered || h.isWebViewer then s
      else if h.lastJoinAt.any fun last => elapsed s.now last < joinCooldown then
        s.error c "加入太頻繁，請稍後再試"
      else s.goto c h (.joinRoom roomId)

/-- A text frame: size, rate, syntax and fields are checked in this order. -/
def text (s : Lobby) (c : SocketId) (h : Handler) (len : Nat)
    (parsed : Option ClientMessage) (externalIp : Option IpAddr) : Lobby :=
  if maxMessageSize < len then s.error c "訊息過大"
  else
    let allowed := h.rateLimiter.allow s.now
    let h := { h with rateLimiter := allowed.1 }
    let s := s.put c h
    if !allowed.2 then s.error c "訊息發送太頻繁，請稍後再試"
    else
      match parsed with
      | none => s.error c "無法解析訊息"
      | some m =>
          match m.check with
          | .error text => s.error c text
          | .ok m => s.dispatch c h m externalIp

/-- One turn of the receive loop, up to its first `.await`.  The loop ends at a close
frame, an error and the end of the stream. -/
def frame (s : Lobby) (c : SocketId) (h : Handler) : Incoming → Lobby
  | .text len parsed externalIp => s.text c h len parsed externalIp
  | .close | .ended => s.put c h.exit
  | .other => s

/-- The receive loop loses the `select!`: the send task has ended, or the web-viewer
countdown has. -/
def loopLoses (s : Lobby) (c : SocketId) (h : Handler) : Bool :=
  h.pc.inLoop &&
    (((s.outboxes.get? c).any fun o => !o.rxOpen) || h.viewerTimedOut s.now)

/-! ## Admission and cleanup -/

/-- A request for a lobby connection. -/
def request (s : Lobby) (c : SocketId) (originOk : Bool) (clientIp : IpAddr) :
    Option Lobby :=
  match s.sockets.get? c with
  | some _ => none
  | none =>
      match wsHandler s.app originOk clientIp with
      | (app, .ok ()) =>
          some <| { s with sockets := s.sockets.insert c (.upgrading clientIp) }.setApp app
      | (app, .error _) => some (s.setApp app)

/-- The WebSocket upgrade completes, and `handle_socket` starts under a fresh id. -/
def upgraded (s : Lobby) (c : SocketId) (clientIp : IpAddr) (playerId : String) :
    Option Lobby :=
  if playerId ∈ s.playerIds then none
  else
    some
      ({ s with
        playerIds := playerId :: s.playerIds
        outboxes := s.outboxes.insert c .new }.put c (.start clientIp playerId s.now))

/-- The cleanup task runs its next block. -/
def cleanupStep (s : Lobby) : Option Lobby :=
  match s.cleanup with
  | .tick =>
      if s.nextTick ≤ s.now then
        some { s with cleanup := .tunnels, nextTick := s.nextTick + cleanupInterval }
      else none
  | .tunnels =>
      let tunnel := s.tunnel.cleanupStep
      some { s with
        tunnel := tunnel
        cleanup := if tunnel.cleanup = .removeWaiting then .findExpired else .tunnels }
  | .findExpired =>
      let expired := s.app.findExpired s.now
      some { s with cleanup := if expired.isEmpty then .tick else .removePlayers expired }
  | .removePlayers [] => some { s.broadcastState with cleanup := .tick }
  | .removePlayers (playerId :: rest) =>
      let taken := s.app.takePlayer playerId
      some { s with
        app := taken.1
        cleanup :=
          match taken.2 with
          | some (hostingRoom, joinedRoom) => .removeRooms hostingRoom joinedRoom rest
          | none => .removePlayers rest }
  | .removeRooms hostingRoom joinedRoom rest =>
      some { s with
        app := s.app.clearRooms hostingRoom joinedRoom
        cleanup := .removePlayers rest }

/-! ## The transition system -/

/-- What can happen next. -/
inductive Label where
  /-- time passes -/
  | elapse (d : Duration)
  /-- a step of the tunnel service that the lobby takes no part in -/
  | tunnel (l : TunnelService.Label)
  | request (c : SocketId) (originOk : Bool) (clientIp : IpAddr)
  /-- the WebSocket upgrade completes under this player id, or fails -/
  | upgrade (c : SocketId) (playerId : Option String)
  /-- `ws_receiver.next()` resolves -/
  | frame (c : SocketId) (item : Incoming)
  /-- the handler runs its next lock-guarded block -/
  | block (c : SocketId) (fresh : String)
  /-- the receive loop is dropped -/
  | drop (c : SocketId)
  /-- the send task's pending `ws_sender.send` resolves -/
  | sent (c : SocketId) (ok : Bool)
  | cleanup

/-- The step is one of the tunnel connections' own. -/
def isTunnelStep : TunnelService.Label → Bool
  | .elapse _ | .registerPending _ _ _ _ | .registerBinding _ | .lookupUpnp _ _
  | .cleanup => false
  | _ => true

/-- A step of a running handler. -/
def whenRunning (s : Lobby) (c : SocketId) (k : Handler → Option Lobby) : Option Lobby :=
  match s.sockets.get? c with
  | some (.running h) => k h
  | _ => none

theorem whenRunning_eq_some {s s' : Lobby} {c : SocketId} {k : Handler → Option Lobby}
    (h : s.whenRunning c k = some s') :
    ∃ handler, s.sockets.get? c = some (.running handler) ∧ k handler = some s' := by
  unfold whenRunning at h
  split at h
  · next handler hc => exact ⟨handler, hc, h⟩
  · cases h

/-- One step of the server. -/
def step (s : Lobby) : Label → Option Lobby
  | .elapse d => some (s.setTunnel { s.tunnel with now := s.tunnel.now + d })
  | .tunnel l => if isTunnelStep l then (s.tunnel.step l).map s.setTunnel else none
  | .request c originOk clientIp => s.request c originOk clientIp
  | .upgrade c playerId =>
      match s.sockets.get? c with
      | some (.upgrading clientIp) =>
          match playerId with
          | some playerId => s.upgraded c clientIp playerId
          | none =>
              some { s with sockets := s.sockets.modify c fun _ => .upgradeFailed clientIp }
      | _ => none
  | .frame c item =>
      s.whenRunning c fun h =>
        match h.pc with
        | .receiving => some (s.frame c h item)
        | _ => none
  | .block c fresh => s.whenRunning c fun h => s.block c h fresh
  | .drop c =>
      s.whenRunning c fun h => if s.loopLoses c h then some (s.put c h.exit) else none
  | .sent c ok =>
      (s.outboxes.get? c).bind fun o =>
        (o.pop ok).map fun o' => { s with outboxes := s.outboxes.modify c fun _ => o' }
  | .cleanup => s.cleanupStep

/-- The lobby server as a machine. -/
def machine : Machine Lobby Label where
  init := start
  step := step

/-- No handler is in the middle of an operation. -/
def quiescent (s : Lobby) : Bool := s.sockets.values.all (·.resting) && s.cleanup.resting

/-- A client connects as `playerId` and registers. -/
def registers (c : SocketId) (playerId : String) : List Label :=
  [.request c true (.v4 0x08080808), .upgrade c (some playerId),
    .frame c (.text 60 (some (.register playerId .v127 none)) none),
    .block c "", .block c "", .block c ""]

/-- A player creates a room for two. -/
def createsRoom (c : SocketId) (roomId : String) : List Label :=
  [.frame c (.text 90 (some (.createRoom "room" "map" 2 [])) none), .block c "", .block c "",
    .block c roomId, .block c "", .block c ""]

/-- A player asks to join a room, and holds a slot of it. -/
def reservesSlot (c : SocketId) (roomId : String) : List Label :=
  [.frame c (.text 40 (some (.joinRoom roomId)) none), .block c "", .block c "", .block c ""]

/-- The rest of a successful `JoinRoom`, with the old room's slot released if there is
one. -/
def joinsRoom (c : SocketId) (token : String) : List Label :=
  [.block c token, .block c "", .block c "", .block c ""]

/-- The client is gone: a send fails, the loop is dropped, and the player is marked. -/
def breaks (c : SocketId) : List Label :=
  [.sent c false, .drop c, .block c "", .block c ""]

end Lobby

end War3BattleTool.Server
