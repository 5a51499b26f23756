import War3BattleTool.Protocol.AddrSafety
import War3BattleTool.Protocol.Messages

set_option autoImplicit false

/-!
# The desktop client (`client/src/app.rs`)

`War3App` is the state of the UI thread.  `Process` is the client process around it: the
queues to and from the network task, the queue of tunnel events, and the tasks that the app
has spawned.  The functions of this module are those of `impl War3App`; they keep the order
in which the source takes from a queue, sets a field, spawns and aborts.

Three things are ghosts, which no branch reads: the number of a tunnel, the number of an
operation (a click on "join" or "create"), and what a server message answers.
-/

namespace War3BattleTool.Client

open War3BattleTool.Foundation War3BattleTool.Protocol

/-! ## Data -/

/-- The tunnels are numbered in the order in which the app starts them. -/
abbrev TunnelId : Type := Nat

/-- The operations are numbered in the order in which the user begins them. -/
abbrev OpId : Type := Nat

/-- What the user asked for. -/
inductive Operation where
  | join (roomId roomName : String)
  | create (maxPlayers : Nat)
  deriving DecidableEq

/-- `Transport`. -/
inductive Transport where
  | relay
  | direct
  deriving DecidableEq

/-- `StrategyKind`. -/
inductive StrategyKind where
  | quicDirect
  | upnp
  deriving DecidableEq

/-- `StrategyOutcome`; the reason of a failure stands for its text. -/
inductive StrategyOutcome where
  | success
  | failed (reason : String)
  | skipped
  deriving DecidableEq

/-- `StrategyResult`. -/
structure StrategyResult where
  method : StrategyKind
  outcome : StrategyOutcome
  durationMs : Nat
  deriving DecidableEq

/-- What a tunnel reports: `TunnelEvent` without `GameinfoCaptured`. -/
inductive TunnelEvent where
  | proxyReady
  | transportSelected (t : Transport)
  | transportUpgraded
  | finished (error : Option String)
  | strategyResults (results : List StrategyResult)
  deriving DecidableEq

/-- An entry of the queue of `TunnelEvent`s: what a tunnel reports, or the `GameinfoCaptured` of
an operation. -/
inductive Posted where
  | tunnel (k : TunnelId) (event : TunnelEvent)
  | gameinfoCaptured (op : OpId) (roomName mapName : String) (maxPlayers : Nat)
      (gameinfo : Bytes)
  deriving DecidableEq

/-- A message from the server: how the address of a `PeerUPnPAddr` parses, the operation whose
command the server was working on, and the operations it was done with. -/
structure Letter where
  message : ServerMessage
  externalAddr : Option SocketAddr
  answers : Option OpId
  processed : List OpId
  deriving DecidableEq

/-- `NetEvent`. -/
inductive NetEvent where
  | connected
  | disconnected
  | reconnecting (attempt : Nat)
  | serverMessage (letter : Letter)
  deriving DecidableEq

/-- A message for the server, and the operation it is for. -/
structure Command where
  message : ClientMessage
  op : Option OpId
  deriving DecidableEq

/-- `ConnectionState`. -/
inductive ConnectionState where
  | disconnected
  | connected
  | reconnecting (attempt : Nat)
  deriving DecidableEq

/-- `PendingAction`. -/
inductive PendingAction where
  | joining (roomName : String) (op : OpId)
  | joinSuccess
  | joinFailed (reason : String)
  | creatingRoom (roomName : String) (op : OpId)
  | serverError (message : String)
  deriving DecidableEq

/-- `PendingAction::is_in_flight`. -/
def PendingAction.isInFlight : PendingAction → Bool
  | .joining _ _ | .creatingRoom _ _ => true
  | _ => false

/-- The operation that the app shows a spinner for. -/
def PendingAction.op : PendingAction → Option OpId
  | .joining _ op | .creatingRoom _ op => some op
  | _ => none

/-- The fields of `AppConfig` that the app reads. -/
structure AppConfig where
  nickname : String
  war3Version : War3Version
  deriving DecidableEq

/-- `AppConfig::is_configured`. -/
def AppConfig.isConfigured (config : AppConfig) : Bool := !isBlank config.nickname

/-- A value that the app keeps for a tunnel. -/
structure Kept (α : Type) where
  tunnel : TunnelId
  value : α
  deriving DecidableEq

/-- `War3App`.  `wizard` tells whether the set-up wizard is open, `injectionHandle` the GAMEINFO
that the injection task repeats, and `upnpAddrSender` the tunnel that waits for an address. -/
structure War3App where
  config : AppConfig
  wizard : Bool
  connectionState : ConnectionState
  everConnected : Bool
  myPlayerId : Option String
  players : List PlayerInfo
  rooms : List RoomInfo
  showCreateDialog : Bool
  pendingAction : Option PendingAction
  pendingGameinfo : Option (Kept Bytes)
  injectionHandle : Option (Kept Bytes)
  tunnelHandle : Option TunnelId
  myObservedIp : Option IpAddr
  peerAddr : Option IpAddr
  transport : Option (Kept Transport)
  upnpAddrSender : Option TunnelId
  connectionDiagnostics : List StrategyResult
  deriving DecidableEq

/-- The end of a tunnel that this client is. -/
inductive TunnelRole where
  | joiner
  | host
  deriving DecidableEq

/-- Where `run_joiner_tunnel` or `run_host_tunnel` stands. -/
inductive TunnelPc where
  /-- a joiner's `TcpListener::bind` -/
  | binding
  /-- a host's task that has not run yet -/
  | starting
  /-- `connect_async` -/
  | connecting
  /-- `accept_war3_tcp` or `connect_war3_tcp` -/
  | pairing
  /-- the bridge over the relay -/
  | relaying
  /-- the bridge over QUIC -/
  | direct
  | finished
  /-- the runtime has dropped the aborted task -/
  | dropped
  deriving DecidableEq

/-- A tunnel task: its arguments, what its oneshot received, whether its background tasks may
still report, and whether `abort` was called.  A joiner's tunnel was started for an operation. -/
structure TunnelTask where
  role : TunnelRole
  op : Option OpId
  token : String
  peerAddr : Option IpAddr
  observedIp : Option IpAddr
  upnpAddr : Option SocketAddr
  pc : TunnelPc
  diagnosing : Bool
  mapping : Bool
  aborted : Bool
  deriving DecidableEq

/-- The background task of "create": it asks the local War3 for its GAMEINFO. -/
structure Capture where
  op : OpId
  maxPlayers : Nat
  deriving DecidableEq

/-- A WebSocket session: the commands of `cmd_rx` sent in it, what is on the way, and the command
that the server is working on. -/
structure Session where
  sent : List ClientMessage
  toServer : List Command
  serving : Option Command
  toClient : List Letter
  deriving DecidableEq

/-- Where `run_connection` stands. -/
inductive NetworkTask where
  /-- `connect_async` -/
  | connecting (attempt : Nat)
  /-- `handle_session` -/
  | session (x : Session)
  /-- about to report that it will reconnect -/
  | reporting (attempt : Nat)
  /-- the delay before the next attempt -/
  | waiting (attempt : Nat)
  /-- the task is gone, and `cmd_rx` with it -/
  | stopped
  deriving DecidableEq

/-- Where a frame of the UI thread stands: the loops of `process_network_events`, and the
rest of `update`. -/
inductive FramePc where
  | events
  | upnp
  | tunnels
  | show
  deriving DecidableEq

/-- The client process.  `upnpMapped` holds pairs of a token and the text of an address;
`closed` are the commands sent in each session that has ended, the latest first. -/
structure Process where
  app : War3App
  frame : FramePc
  cmds : List Command
  events : List NetEvent
  tunnelEvents : List Posted
  upnpMapped : List (String × String)
  tunnels : List TunnelTask
  captures : List Capture
  network : NetworkTask
  closed : List (List ClientMessage)
  ops : List Operation
  processed : List OpId
  deriving DecidableEq

namespace War3App

/-- `War3App::new`. -/
def new (config : AppConfig) : War3App where
  config := config
  wizard := !config.isConfigured
  connectionState := .disconnected
  everConnected := false
  myPlayerId := none
  players := []
  rooms := []
  showCreateDialog := false
  pendingAction := none
  pendingGameinfo := none
  injectionHandle := none
  tunnelHandle := none
  myObservedIp := none
  peerAddr := none
  transport := none
  upnpAddrSender := none
  connectionDiagnostics := []

/-- `is_registered`. -/
def isRegistered (a : War3App) : Bool := a.myPlayerId.isSome

/-- `is_hosting`. -/
def isHosting (a : War3App) : Bool :=
  a.myPlayerId.any fun myId => a.players.any fun p => p.playerId = myId && p.isHosting

/-- The action in flight is cancelled: its answer cannot come any more. -/
def cancelInFlight (a : War3App) : War3App :=
  if a.pendingAction.any (·.isInFlight) then
    { a with pendingAction := some (.serverError "與伺服器中斷連線，操作已取消") }
  else a

/-- A connection clears the error of the disconnection. -/
def clearServerError (a : War3App) : War3App :=
  match a.pendingAction with
  | some (.serverError _) => { a with pendingAction := none }
  | _ => a

/-- A server error ends the action in flight, and does not hide another message. -/
def surfaceError (a : War3App) (message : String) : War3App :=
  match a.pendingAction with
  | some (.joining _ _) => { a with pendingAction := some (.joinFailed message) }
  | some (.creatingRoom _ _) | none => { a with pendingAction := some (.serverError message) }
  | some _ => a

end War3App

namespace Process

/-! ## Sending and tunnels -/

/-- The fields of the app are set. -/
def setApp (s : Process) (app : War3App) : Process := { s with app := app }

/-- `self.pending_action = pending`. -/
def setPending (s : Process) (pending : Option PendingAction) : Process :=
  s.setApp { s.app with pendingAction := pending }

/-- `CmdSender::send_or_warn`, and whether the command was sent. -/
def sendOrWarn (s : Process) (c : Command) : Process × Bool :=
  if s.network = .stopped then (s, false) else ({ s with cmds := s.cmds ++ [c] }, true)

/-- `CARGO_PKG_VERSION`. -/
def clientVersion : String := "0.4.2"

/-- `send_register`. -/
def sendRegister (s : Process) : Process :=
  (s.sendOrWarn
    ⟨.register s.app.config.nickname s.app.config.war3Version (some clientVersion), none⟩).1

/-- `abort_tunnel`. -/
def abortTunnel (s : Process) : Process :=
  match s.app.tunnelHandle with
  | some k =>
      { s with
        app := { s.app with tunnelHandle := none }
        tunnels := s.tunnels.modify k fun t => { t with aborted := true } }
  | none => s

/-- A tunnel task is spawned, and its handle stored. -/
def spawnTunnel (s : Process) (t : TunnelTask) : Process :=
  { s with
    app := { s.app with tunnelHandle := some s.tunnels.length, connectionDiagnostics := [] }
    tunnels := s.tunnels ++ [t] }

/-- `start_joiner_tunnel`. -/
def startJoinerTunnel (s : Process) (op : Option OpId) (tunnelToken : String)
    (gameinfo : Bytes) : Process :=
  let k := s.tunnels.length
  let s := s.abortTunnel.spawnTunnel
    { role := .joiner, op := op, token := tunnelToken, peerAddr := s.app.peerAddr,
      observedIp := none, upnpAddr := none, pc := .binding, diagnosing := false,
      mapping := false, aborted := false }
  s.setApp { s.app with
    peerAddr := none
    upnpAddrSender := some k
    pendingGameinfo := some ⟨k, gameinfo⟩ }

/-- `start_host_tunnel`. -/
def startHostTunnel (s : Process) (tunnelToken : String) : Process :=
  let s := s.abortTunnel.spawnTunnel
    { role := .host, op := none, token := tunnelToken, peerAddr := s.app.peerAddr,
      observedIp := s.app.myObservedIp, upnpAddr := none, pc := .starting,
      diagnosing := false, mapping := false, aborted := false }
  s.setApp { s.app with peerAddr := none }

/-- `start_gameinfo_injection`. -/
def startGameinfoInjection (s : Process) : Process :=
  s.setApp { s.app with
    pendingGameinfo := none
    injectionHandle := s.app.pendingGameinfo.filter fun gameinfo => !gameinfo.value.isEmpty }

/-! ## Server messages -/

/-- `JoinResult`: a result that the app does not wait for is ignored. -/
def joinResult (s : Process) (op : Option OpId) (success : Bool) (tunnelToken : Option String)
    (gameinfo : Option Bytes) : Process :=
  match s.app.pendingAction with
  | some (.joining _ _) =>
      if success then
        match tunnelToken, gameinfo with
        | some token, some gameinfo =>
            (s.setPending (some .joinSuccess)).startJoinerTunnel op token gameinfo
        | _, _ => s.setPending (some .joinSuccess)
      else s.setPending (some (.joinFailed "房間可能已關閉"))
  | _ => s

/-- `RoomUpdate`: any room list ends a create in flight. -/
def roomUpdate (s : Process) (rooms : List RoomInfo) : Process :=
  match s.app.pendingAction with
  | some (.creatingRoom _ _) => s.setApp { s.app with pendingAction := none, rooms := rooms }
  | _ => s.setApp { s.app with rooms := rooms }

/-- `PeerUPnPAddr`: a safe address goes to the tunnel that waits for one. -/
def peerUPnPAddr (s : Process) (externalAddr : Option SocketAddr) : Process :=
  match externalAddr.filter (isSafeExternalAddr ·.ip) with
  | some addr =>
      match s.app.upnpAddrSender with
      | some k =>
          { s.setApp { s.app with upnpAddrSender := none } with
            tunnels := s.tunnels.modify k fun t => { t with upnpAddr := some addr } }
      | none => s
  | none => s

/-- `handle_server_message`. -/
def handleServerMessage (s : Process) (letter : Letter) : Process :=
  match letter.message with
  | .welcome playerId => s.setApp { s.app with myPlayerId := some playerId }
  | .yourObservedAddr ip => s.setApp { s.app with myObservedIp := some ip }
  | .playerUpdate players => s.setApp { s.app with players := players }
  | .roomUpdate rooms => s.roomUpdate rooms
  | .joinResult success _ tunnelToken gameinfo =>
      s.joinResult letter.answers success tunnelToken gameinfo
  | .playerJoined _ tunnelToken | .tunnelReady tunnelToken => s.startHostTunnel tunnelToken
  | .stunInfo peerAddr => s.setApp { s.app with peerAddr := some peerAddr }
  | .peerUPnPAddr _ => s.peerUPnPAddr letter.externalAddr
  | .error message => s.setApp (s.app.surfaceError message)
  | .pong _ | .unknown => s

/-! ## The loops of `process_network_events` -/

/-- `NetEvent::Connected`: a client without a player id registers. -/
def netConnected (s : Process) : Process :=
  let s := s.setApp
    ({ s.app with connectionState := .connected, everConnected := true }.clearServerError)
  if !s.app.isRegistered && s.app.config.isConfigured then s.sendRegister else s

/-- `NetEvent::Disconnected`. -/
def netDisconnected (s : Process) : Process :=
  s.setApp
    ({ s.app with
        connectionState := .disconnected
        myPlayerId := none
        players := []
        rooms := [] }.cancelInFlight)

/-- One event of the network task. -/
def netEvent (s : Process) : NetEvent → Process
  | .connected => s.netConnected
  | .disconnected => s.netDisconnected
  | .reconnecting attempt =>
      s.setApp ({ s.app with connectionState := .reconnecting attempt }.cancelInFlight)
  | .serverMessage letter => s.handleServerMessage letter

/-- One address that a host's UPnP mapping found; the loop ends when the network task is gone. -/
def upnpEvent (s : Process) (tunnelToken externalAddr : String) : Process :=
  let sent := s.sendOrWarn ⟨.upnpMapped externalAddr tunnelToken, none⟩
  if sent.2 then sent.1 else { sent.1 with frame := .tunnels }

/-- `GameinfoCaptured`: the room is created with what was captured. -/
def gameinfoCaptured (s : Process) (op : OpId) (roomName mapName : String) (maxPlayers : Nat)
    (gameinfo : Bytes) : Process :=
  if gameinfo.isEmpty then s.setPending none
  else
    let sent := s.sendOrWarn ⟨.createRoom roomName mapName maxPlayers gameinfo, some op⟩
    if sent.2 then sent.1 else sent.1.setPending none

/-- `TunnelEvent::Finished`, with an error or without. -/
def tunnelFinished (s : Process) : Process :=
  s.setApp { s.app with injectionHandle := none, tunnelHandle := none, transport := none }

/-- What the app does with an event of a tunnel.  It does not know whose event it is: `k` is
only noted with the transport. -/
def tunnelEvent (s : Process) (k : TunnelId) : TunnelEvent → Process
  | .proxyReady => s.startGameinfoInjection
  | .transportSelected t => s.setApp { s.app with transport := some ⟨k, t⟩ }
  | .transportUpgraded => s.setApp { s.app with transport := some ⟨k, .direct⟩ }
  | .finished _ => s.tunnelFinished
  | .strategyResults results => s.setApp { s.app with connectionDiagnostics := results }

/-- One entry of the queue of tunnel events. -/
def posted (s : Process) : Posted → Process
  | .tunnel k event => s.tunnelEvent k event
  | .gameinfoCaptured op roomName mapName maxPlayers gameinfo =>
      s.gameinfoCaptured op roomName mapName maxPlayers gameinfo

/-- One `try_recv` of `process_network_events`; an empty queue ends its loop. -/
def poll (s : Process) : Option Process :=
  match s.frame with
  | .events =>
      match s.events with
      | e :: rest => some ({ s with events := rest }.netEvent e)
      | [] => some { s with frame := .upnp }
  | .upnp =>
      match s.upnpMapped with
      | (token, addr) :: rest => some ({ s with upnpMapped := rest }.upnpEvent token addr)
      | [] => some { s with frame := .tunnels }
  | .tunnels =>
      match s.tunnelEvents with
      | p :: rest => some ({ s with tunnelEvents := rest }.posted p)
      | [] => some { s with frame := .show }
  | .show => none

/-! ## The rest of `update` -/

/-- What the user does in a frame. -/
inductive Input where
  | idle
  /-- the wizard is done -/
  | finishWizard (nickname : String) (war3Version : War3Version)
  /-- the settings page -/
  | settings (config : AppConfig)
  /-- "OK" in the banner of a finished action -/
  | dismiss
  | join (room : RoomInfo)
  | closeRoom
  | openDialog
  | cancelDialog
  /-- "create" in the dialog -/
  | create (maxPlayers : Nat)
  deriving DecidableEq

/-- `show_connection_overlay` leaves the lobby visible. -/
def showsLobby (s : Process) : Bool :=
  match s.app.connectionState with
  | .connected => true
  | .disconnected => s.app.everConnected
  | .reconnecting _ => false

/-- The room has a "join" button: it is somebody else's, and not full. -/
def canJoin (s : Process) (room : RoomInfo) : Bool :=
  room ∈ s.app.rooms && !(s.app.config.isConfigured && room.hostNickname = s.app.config.nickname) &&
    room.currentPlayers < room.maxPlayers

/-- The user begins an operation. -/
def begin (s : Process) (operation : Operation) : Process := { s with ops := s.ops ++ [operation] }

/-- "Join": the app waits for the answer if the command was sent. -/
def clickJoin (s : Process) (room : RoomInfo) : Process :=
  let op := s.ops.length
  let sent := s.sendOrWarn ⟨.joinRoom room.roomId, some op⟩
  if sent.2 then
    (sent.1.begin (.join room.roomId room.roomName)).setPending (some (.joining room.roomName op))
  else sent.1

/-- "Create": a background task captures the GAMEINFO. -/
def clickCreate (s : Process) (maxPlayers : Nat) : Process :=
  let op := s.ops.length
  let s : Process := { s.begin (.create maxPlayers) with
    captures := s.captures ++ [⟨op, maxPlayers⟩] }
  s.setApp
    { s.app with
      showCreateDialog := false
      pendingAction := some (.creatingRoom "偵測中..." op) }

/-- A click in the lobby. -/
def click (s : Process) : Input → Option Process
  | .dismiss =>
      match s.app.pendingAction with
      | some pending => if pending.isInFlight then none else some (s.setPending none)
      | none => none
  | .join room => if s.canJoin room then some (s.clickJoin room) else none
  | .closeRoom =>
      if s.app.isHosting then some (s.sendOrWarn ⟨.closeRoom, none⟩).1 else none
  | .openDialog =>
      if s.app.isHosting then none else some (s.setApp { s.app with showCreateDialog := true })
  | .cancelDialog =>
      if s.app.showCreateDialog then some (s.setApp { s.app with showCreateDialog := false })
      else none
  | .create maxPlayers =>
      if s.app.showCreateDialog && 2 ≤ maxPlayers && maxPlayers ≤ 12 then
        some (s.clickCreate maxPlayers)
      else none
  | _ => none

/-- The wizard is done: the config is set, and a connected client registers. -/
def finishWizard (s : Process) (nickname : String) (war3Version : War3Version) : Process :=
  let s := s.setApp { s.app with config := ⟨nickname, war3Version⟩, wizard := false }
  if s.app.connectionState = .connected then s.sendRegister else s

/-- The frame after `process_network_events`: the wizard, or the main window. -/
def showFrame (s : Process) (input : Input) : Option Process :=
  match input with
  | .idle => some s
  | .finishWizard nickname war3Version =>
      if s.app.wizard && !isBlank nickname then some (s.finishWizard nickname war3Version)
      else none
  | .settings config =>
      if s.app.wizard then none else some (s.setApp { s.app with config := config })
  | _ => if !s.app.wizard && s.showsLobby then s.click input else none

/-- The frame ends. -/
def input (s : Process) (input : Input) : Option Process :=
  if s.frame = .show then (s.showFrame input).map ({ · with frame := .events }) else none

end Process

end War3BattleTool.Client
