import War3BattleTool.Foundation.Table
import War3BattleTool.Protocol.Messages

set_option autoImplicit false

/-!
# The shared state of the lobby (`server/src/state.rs`, `server/src/ws.rs`)

`AppState` is the set of maps behind the locks of the lobby.  Every definition
below is the body of one lock-guarded block, of `AppState`'s own methods or of
`handle_socket`; a method that takes two locks in turn is split in two.
-/

namespace War3BattleTool.Server

open War3BattleTool.Foundation War3BattleTool.Protocol

/-- `MAX_CONNECTIONS_PER_IP`. -/
def maxConnectionsPerIp : Nat := 10

/-- `HEARTBEAT_TIMEOUT`. -/
def heartbeatTimeout : Duration := secs 30

/-- `GRACE_PERIOD`. -/
def gracePeriod : Duration := secs 60

/-- `WEB_VIEWER_PREFIX`. -/
def webViewerPrefix : String := "__web-viewer-"

/-- `nickname.starts_with(WEB_VIEWER_PREFIX)`. -/
def isWebViewerName (nickname : String) : Bool :=
  webViewerPrefix.toList.isPrefixOf nickname.toList

/-- The capacity of the outgoing queue of a connection. -/
def sendQueueSize : Nat := 64

/-- A lobby connection, in the order of arrival.  It stands for the sender of its
outgoing queue as well. -/
abbrev SocketId : Type := Nat

/-- A player in the lobby.  `tx` is the connection whose queue the player's messages
go to. -/
structure ConnectedPlayer where
  playerId : String
  nickname : String
  war3Version : War3Version
  clientIp : IpAddr
  lastHeartbeat : Instant
  tx : SocketId
  hostingRoom : Option String
  joinedRoom : Option String
  disconnectedAt : Option Instant

/-- A room.  The two player counts are `u8`. -/
structure Room where
  roomId : String
  hostPlayerId : String
  hostNickname : String
  roomName : String
  mapName : String
  maxPlayers : Nat
  currentPlayers : Nat
  war3Version : War3Version
  gameinfo : Bytes

/-- The outgoing queue of a connection and the send task that empties it.  `rxOpen`
says that the task runs; `accepted` is everything the queue took, in order.  No step
reads it. -/
structure Outbox where
  queue : List ServerMessage
  rxOpen : Bool
  accepted : List ServerMessage

namespace Outbox

/-- The queue `handle_socket` creates. -/
def new : Outbox where
  queue := []
  rxOpen := true
  accepted := []

/-- `tx.try_send`, whose result is only logged: a full queue drops the message, and so
does one without a send task. -/
def trySend (o : Outbox) (m : ServerMessage) : Outbox :=
  if o.rxOpen && o.queue.length < sendQueueSize then
    { o with queue := o.queue ++ [m], accepted := o.accepted ++ [m] }
  else o

/-- The send task hands the first message to the socket; a failed send ends it. -/
def pop (o : Outbox) (ok : Bool) : Option Outbox :=
  match o.queue with
  | _ :: rest =>
      some (if ok then { o with queue := rest } else { o with queue := [], rxOpen := false })
  | [] => none

end Outbox

/-- Offer a message to the queue of `tx`. -/
def offer (outboxes : Table SocketId Outbox) (tx : SocketId) (m : ServerMessage) :
    Table SocketId Outbox :=
  outboxes.modify tx (·.trySend m)

/-- The maps of the lobby, each behind a lock of its own. -/
structure AppState where
  players : Table String ConnectedPlayer
  rooms : Table String Room
  connectionsPerIp : Table IpAddr Nat

namespace Room

/-- `current_players.saturating_add(1)` on a `u8`. -/
def increment (r : Room) : Room := { r with currentPlayers := min (r.currentPlayers + 1) 255 }

/-- `current_players.saturating_sub(1)`. -/
def decrement (r : Room) : Room := { r with currentPlayers := r.currentPlayers - 1 }

/-- The entry of the room in a `RoomUpdate`. -/
def info (r : Room) : RoomInfo where
  roomId := r.roomId
  hostNickname := r.hostNickname
  roomName := r.roomName
  mapName := r.mapName
  maxPlayers := r.maxPlayers
  currentPlayers := r.currentPlayers
  war3Version := r.war3Version

end Room

namespace ConnectedPlayer

/-- The entry of the player in a `PlayerUpdate`. -/
def info (p : ConnectedPlayer) : PlayerInfo where
  playerId := p.playerId
  nickname := p.nickname
  war3Version := p.war3Version
  isHosting := p.hostingRoom.isSome

/-- The player is connected. -/
def online (p : ConnectedPlayer) : Bool := p.disconnectedAt.isNone

/-- The test of `find_expired`. -/
def expired (now : Instant) (p : ConnectedPlayer) : Bool :=
  match p.disconnectedAt with
  | some at_ => gracePeriod < elapsed now at_
  | none => heartbeatTimeout < elapsed now p.lastHeartbeat

end ConnectedPlayer

namespace AppState

/-- `AppState::new`. -/
def new : AppState where
  players := .empty
  rooms := .empty
  connectionsPerIp := .empty

/-- `try_acquire_connection`: the new state and whether a slot was granted. -/
def tryAcquireConnection (a : AppState) (ip : IpAddr) : AppState × Bool :=
  let acquired := acquireSlot maxConnectionsPerIp a.connectionsPerIp ip
  ({ a with connectionsPerIp := acquired.1 }, acquired.2)

/-- `release_connection`. -/
def releaseConnection (a : AppState) (ip : IpAddr) : AppState :=
  { a with connectionsPerIp := releaseSlot a.connectionsPerIp ip }

/-! ## Players -/

/-- Change the entry of a player, if there is one. -/
def modifyPlayer (a : AppState) (playerId : String)
    (f : ConnectedPlayer → ConnectedPlayer) : AppState :=
  { a with players := a.players.modify playerId f }

/-- `Register`: the new player. -/
def insertPlayer (a : AppState) (p : ConnectedPlayer) : AppState :=
  { a with players := a.players.insert p.playerId p }

/-- `Heartbeat`. -/
def heartbeat (a : AppState) (now : Instant) (playerId : String) : AppState :=
  a.modifyPlayer playerId fun p => { p with lastHeartbeat := now }

/-- `mark_disconnected`. -/
def markDisconnected (a : AppState) (now : Instant) (playerId : String) : AppState :=
  a.modifyPlayer playerId fun p => { p with disconnectedAt := some now }

/-- `CreateRoom`: the host's side of a new room. -/
def setHostingRoom (a : AppState) (playerId roomId : String) : AppState :=
  a.modifyPlayer playerId fun p => { p with hostingRoom := some roomId }

/-- `CloseRoom`: `hosting_room.take()`. -/
def takeHostingRoom (a : AppState) (playerId : String) : AppState × Option String :=
  (a.modifyPlayer playerId fun p => { p with hostingRoom := none },
    (a.players.get? playerId).bind (·.hostingRoom))

/-- `JoinRoom`, step 5: `joined_room.replace(room_id)`. -/
def replaceJoinedRoom (a : AppState) (playerId roomId : String) :
    AppState × Option String :=
  (a.modifyPlayer playerId fun p => { p with joinedRoom := some roomId },
    (a.players.get? playerId).bind (·.joinedRoom))

/-- `remove_player`, first block: the entry is taken out, and its rooms are
remembered. -/
def takePlayer (a : AppState) (playerId : String) :
    AppState × Option (Option String × Option String) :=
  ({ a with players := a.players.remove playerId },
    (a.players.get? playerId).map fun p => (p.hostingRoom, p.joinedRoom))

/-- `find_expired`. -/
def findExpired (a : AppState) (now : Instant) : List String :=
  (a.players.entries.filter fun e => e.2.expired now).map (·.1)

/-! ## Rooms -/

/-- Change a room, if it is there. -/
def modifyRoom (a : AppState) (roomId : String) (f : Room → Room) : AppState :=
  { a with rooms := a.rooms.modify roomId f }

/-- `CreateRoom`: the new room. -/
def insertRoom (a : AppState) (r : Room) : AppState :=
  { a with rooms := a.rooms.insert r.roomId r }

/-- `CloseRoom`: the room is removed. -/
def removeRoom (a : AppState) (roomId : String) : AppState :=
  { a with rooms := a.rooms.remove roomId }

/-- `JoinRoom`, step 3: the atomic check and increment. -/
def reserveSlot (a : AppState) (roomId : String) : AppState × Bool :=
  match a.rooms.get? roomId with
  | some r =>
      if r.maxPlayers ≤ r.currentPlayers then (a, false)
      else (a.modifyRoom roomId Room.increment, true)
  | none => (a, false)

/-- `JoinRoom`, step 5: the count of the room left. -/
def leaveRoom (a : AppState) (roomId : String) : AppState :=
  a.modifyRoom roomId Room.decrement

/-- `remove_player`, second block: the room of a host goes, and the room the player had
joined loses one. -/
def clearRooms (a : AppState) (hostingRoom joinedRoom : Option String) : AppState :=
  let closed :=
    match hostingRoom with
    | some roomId => a.removeRoom roomId
    | none => a
  match joinedRoom with
  | some roomId => closed.leaveRoom roomId
  | none => closed

/-! ## The lists sent to the players -/

/-- The `PlayerUpdate` of `broadcast_state`. -/
def playerUpdate (a : AppState) : ServerMessage :=
  .playerUpdate <|
    (a.players.values.filter fun p => p.online && !isWebViewerName p.nickname).map (·.info)

/-- The `RoomUpdate` of `broadcast_state`: the rooms whose host is connected. -/
def roomUpdate (a : AppState) : ServerMessage :=
  .roomUpdate <|
    (a.rooms.values.filter fun r =>
      ((a.players.get? r.hostPlayerId).map (·.online)).getD false).map (·.info)

/-- `broadcast_state`: both lists go to the queue of every connected player. -/
def broadcastState (a : AppState) (outboxes : Table SocketId Outbox) :
    Table SocketId Outbox :=
  (a.players.values.filter (·.online)).foldl
    (fun outboxes p => offer (offer outboxes p.tx a.playerUpdate) p.tx a.roomUpdate) outboxes

end AppState

end War3BattleTool.Server
