import War3BattleTool.Client.Inbox
import War3BattleTool.Client.Provenance
import War3BattleTool.Protocol.SocketAddrText
import War3BattleTool.Server.News
import War3BattleTool.Server.Requests

set_option autoImplicit false

/-!
# One client and the server

The lobby server and one of its clients, with what is on the way between them.  The server
reads the commands of the client from its session, and what the queue of the connection takes
arrives there in order.  The other clients are an environment that puts frames of its own on
their connections.

A `JoinRoom` handler holds no lock while it sends its four messages, so other handlers may send
between them: the block that registers the token leaves the messages to be sent one by one
(`owed`).  Each message on the way is noted with the token that it is about; neither program
looks at that note.
-/

namespace War3BattleTool.System

open War3BattleTool.Foundation War3BattleTool.Protocol War3BattleTool.Server
open War3BattleTool.Client

/-- A message that a handler has still to send, and the token of its join. -/
structure Post where
  tx : SocketId
  message : ServerMessage
  token : String

/-- The server and one client.

`conn` is the connection of the client's session, `owed` what each handler has still to send, and
`about` the token that each handler looked up last.  `wire` holds what the queue of the
connection has taken and the app has not read, oldest first; `heard` sums up what the queue has
taken, and `notes` what the app has read. -/
structure Link where
  lobby : Lobby
  client : Process
  conn : Option SocketId
  owed : SocketId → List Post
  about : SocketId → Option String
  wire : List Parcel
  heard : Heard
  notes : Notes

namespace Link

/-- The server starts, and the client. -/
def start (config : AppConfig) : Link where
  lobby := .start
  client := .start config
  conn := none
  owed := fun _ => []
  about := fun _ => none
  wire := []
  heard := .start
  notes := .start

/-! ## Steps of the server -/

/-- What the queue of the client's connection takes as the server goes on to `lobby`. -/
def parcels (s : Link) (lobby : Lobby) (token : Option String) : List Parcel :=
  match s.conn with
  | some c =>
      ((accepted lobby.outboxes c).drop (accepted s.lobby.outboxes c).length).map (⟨·, token⟩)
  | none => []

/-- The server goes on to `lobby`; what it sends to the client is about `token`. -/
def advance (s : Link) (token : Option String) (lobby : Lobby) : Link :=
  { s with
    lobby := lobby
    wire := s.wire ++ s.parcels lobby token
    heard := (s.parcels lobby token).foldl Heard.hear s.heard }

/-- A block of a handler.  The one that registers a token sends nothing yet. -/
def block (s : Link) (c : SocketId) (fresh : String) : Option Link :=
  (s.lobby.handler c).bind fun h =>
    (s.lobby.step (.block c fresh)).map fun lobby =>
      match h.pc with
      | .joinRegisterBinding ticket token =>
          { s with
            lobby := { lobby with outboxes := s.lobby.outboxes }
            owed := Function.update s.owed c <|
              (Lobby.joinLetters c h ticket token).map fun letter => ⟨letter.1, letter.2, token⟩ }
      | .upnpLookup _ token =>
          { s.advance none lobby with about := Function.update s.about c (some token) }
      | .upnpForward _ _ => s.advance (s.about c) lobby
      | _ => s.advance none lobby

/-- A handler sends the first of the messages that it owes. -/
def send (s : Link) (c : SocketId) : Option Link :=
  match s.owed c with
  | post :: rest =>
      some { s.advance (some post.token) (s.lobby.trySend post.tx post.message) with
        owed := Function.update s.owed c rest }
  | [] => none

/-- The letters that have reached the client and wait there. -/
def waiting (s : Link) : List Letter := s.client.unread ++ s.client.network.arrived

/-- How many messages wait in the queue of a connection. -/
def queued (s : Link) (c : SocketId) : Nat :=
  ((s.lobby.outboxes.get? c).map (·.queue.length)).getD 0

/-- The send task of a connection ends: what is in its queue is lost. -/
def sendFails (s : Link) (c : SocketId) (lobby : Lobby) : Link :=
  if s.conn = some c then
    { s with
      lobby := lobby
      wire := s.wire.take (max s.waiting.length (s.wire.length - s.queued c))
      heard := .start }
  else { s with lobby := lobby }

/-- A step of the server.  The text frames of the client's connection come from the client. -/
def server (s : Link) (l : Lobby.Label) : Option Link :=
  match l with
  | .block c fresh => if (s.owed c).isEmpty then s.block c fresh else none
  | .drop c =>
      if (s.owed c).isEmpty then (s.lobby.step (.drop c)).map (s.advance none) else none
  | .sent c false => (s.lobby.step (.sent c false)).map (s.sendFails c)
  | .frame c (.text len parsed externalIp) =>
      if s.conn = some c then none
      else (s.lobby.step (.frame c (.text len parsed externalIp))).map (s.advance none)
  | l => (s.lobby.step l).map (s.advance none)

/-! ## Steps between the server and the client -/

/-- The client's session begins, over a connection on which nothing has been sent. -/
def connect (s : Link) (c : SocketId) : Option Link :=
  if (s.lobby.handler c).isSome && (accepted s.lobby.outboxes c).isEmpty then
    (s.client.step (.connect true)).map fun client =>
      { s with
        client := client
        conn := some c
        wire := s.wire.take s.client.unread.length
        heard := .start }
  else none

/-- The address in the message, as the server reads it. -/
def externalIp : ClientMessage → Option IpAddr
  | .upnpMapped externalAddr _ => (parseSocketAddr externalAddr).map (·.ip)
  | _ => none

/-- The next command on the client's session. -/
def nextCommand (s : Process) : Option Command :=
  match s.network with
  | .session x => x.toServer.head?
  | _ => none

/-- The server reads the next command of the client, as a text of `len` bytes. -/
def upload (s : Link) (len : Nat) : Option Link :=
  s.conn.bind fun c =>
    (nextCommand s.client).bind fun cmd =>
      (s.lobby.step (.frame c (.text len (some cmd.message) (externalIp cmd.message)))).bind
        fun lobby =>
          ((s.client.step .serve).bind (·.step .served)).map fun client =>
            { s.advance none lobby with client := client }

/-- The message as the client reads it. -/
def letterOf (processed : List OpId) (m : ServerMessage) : Letter where
  message := m
  externalAddr :=
    match m with
    | .peerUPnPAddr externalAddr => parseSocketAddr externalAddr
    | _ => none
  answers := none
  processed := processed

/-- A message that has left the queue of the connection arrives at the client. -/
def arrive (s : Link) : Option Link :=
  match s.conn, s.client.network with
  | some c, .session x =>
      if s.waiting.length + s.queued c < s.wire.length then
        s.wire[s.waiting.length]?.map fun p =>
          { s with
            client := { s.client with
              network := .session { x with
                toClient := x.toClient ++ [letterOf s.client.processed p.message] } } }
      else none
  | _, _ => none

/-! ## Steps of the client -/

/-- The letter that the UI thread is about to take. -/
def nextLetter (s : Process) : Option Letter :=
  match s.frame, s.events with
  | .events, .serverMessage letter :: _ => some letter
  | _, _ => none

/-- The app reads the first message. -/
def read (s : Link) (letter : Letter) : Link :=
  match s.wire with
  | p :: rest =>
      { s with
        wire := rest
        notes := s.notes.handle s.client.dialler s.client.app.waitsForJoin p letter.externalAddr }
  | [] => s

/-- What a step of the client takes off the wire. -/
def track (s : Link) (l : Process.Label) : Link :=
  match l with
  | .poll =>
      match nextLetter s.client with
      | some letter => s.read letter
      | none => s
  | .deliver =>
      if s.client.network.arrived.head?.any fun letter => isPong letter.message then
        { s with wire := s.wire.eraseIdx s.client.unread.length }
      else s
  | _ => s

/-- The client goes on to `client`; at the end of the session, what is on it is lost. -/
def goOn (s : Link) (client : Process) : Link :=
  if client.network.inSession then { s with client := client }
  else
    { s with
      client := client
      conn := none
      wire := s.wire.take client.unread.length
      heard := .start }

/-- The step is one that the client takes on its own. -/
def isLocal : Process.Label → Bool
  | .connect true | .serve | .served | .reply _ _ _ => false
  | _ => true

/-- A step of the client. -/
def run (s : Link) (l : Process.Label) : Option Link :=
  if isLocal l then (s.client.step l).map (s.track l).goOn else none

/-! ## The transition system -/

/-- What happens next. -/
inductive Label where
  | server (l : Lobby.Label)
  /-- a handler sends the next message of its join -/
  | send (c : SocketId)
  /-- the WebSocket of the client opens -/
  | connect (c : SocketId)
  /-- the server reads a command of the client -/
  | upload (len : Nat)
  /-- a message of the server arrives -/
  | arrive
  | client (l : Process.Label)

/-- One step of the server, the client or the network between them. -/
def step (s : Link) : Label → Option Link
  | .server l => s.server l
  | .send c => s.send c
  | .connect c => s.connect c
  | .upload len => s.upload len
  | .arrive => s.arrive
  | .client l => s.run l

/-- The client and the server as a machine. -/
def machine (config : AppConfig) : Machine Link Label where
  init := start config
  step := step

/-- Every joiner's tunnel was given addresses that were issued for its own join. -/
def Own (s : Link) : Prop := List.Forall₂ IssuedFor s.client.dialler.tunnels s.notes.origins

/-- The app may read its next letter: an address that is for a tunnel comes after the last
confirmed join has started its own. -/
def mayRead (s : Link) : Bool :=
  match nextLetter s.client with
  | some ⟨.peerUPnPAddr _, _, _, _⟩ => s.notes.started || s.client.app.upnpAddrSender.isNone
  | _ => true

/-- The step sends messages in order, and the app reads them so. -/
def orderly (s : Link) (l : Label) : Bool :=
  match l with
  | .client .poll => s.mayRead
  | l => (s.step l).all fun s' => s.heard.admitsAll (s'.wire.drop s.wire.length)

/-! ## The server of the link is the lobby server -/

variable {s : Link}

/-- A handler that is not interrupted sends all that it owes. -/
theorem exec_sends (config : AppConfig) {c : SocketId} {posts : List Post}
    (howed : s.owed c = posts) :
    ∃ s', (machine config).exec s (List.replicate posts.length (.send c)) = some s' ∧
      s'.lobby = { s.lobby with
        outboxes := mail s.lobby.outboxes (posts.map fun post => (post.tx, post.message)) } := by
  induction posts generalizing s with
  | nil => exact ⟨s, rfl, rfl⟩
  | cons post rest ih =>
      let next : Link :=
        { s.advance (some post.token) (s.lobby.trySend post.tx post.message) with
          owed := Function.update s.owed c rest }
      have hsend : (machine config).step s (.send c) = some next := by
        change s.send c = some next
        rw [send, howed]
      obtain ⟨s', hrest, hlobby⟩ := ih (s := next) (Function.update_self ..)
      refine ⟨s', ?_, hlobby⟩
      rw [List.length_cons, List.replicate_succ, Machine.exec, hsend]
      exact hrest

/-- A join whose messages are sent at once is the block of the lobby server. -/
theorem exec_join (config : AppConfig) {c : SocketId} {fresh token : String} {h : Handler}
    {ticket : JoinTicket} {lobby : Lobby} (hc : s.lobby.handler c = some h)
    (hpc : h.pc = .joinRegisterBinding ticket token) (howed : s.owed c = [])
    (hstep : s.lobby.step (.block c fresh) = some lobby) :
    ∃ s', (machine config).exec s (.server (.block c fresh) :: List.replicate 4 (.send c)) =
      some s' ∧ s'.lobby = lobby := by
  have houtboxes : lobby.outboxes = mail s.lobby.outboxes (Lobby.joinLetters c h ticket token) := by
    obtain ⟨h', hc', hblock⟩ := Lobby.whenRunning_eq_some hstep
    obtain rfl : h = h' := Option.some.inj (hc.symm.trans (Lobby.handler_eq_some.mpr hc'))
    simp only [Lobby.block, hpc] at hblock
    obtain ⟨tunnel, _, rfl⟩ := Option.map_eq_some_iff.mp hblock
    rfl
  let posts : List Post :=
    (Lobby.joinLetters c h ticket token).map fun letter => ⟨letter.1, letter.2, token⟩
  let next : Link :=
    { s with
      lobby := { lobby with outboxes := s.lobby.outboxes }
      owed := Function.update s.owed c posts }
  have hnext : (machine config).step s (.server (.block c fresh)) = some next := by
    change s.server (.block c fresh) = some next
    simp only [server, howed, List.isEmpty_nil, if_true, block, hc, hstep, Option.bind_some,
      Option.map_some, hpc]
    rfl
  obtain ⟨s', hrest, hlobby⟩ := exec_sends config (s := next) (Function.update_self c posts s.owed)
  refine ⟨s', ?_, ?_⟩
  · rw [Machine.exec, hnext]
    exact hrest
  · rw [hlobby]
    have hposts : posts.map (fun post => (post.tx, post.message)) =
        Lobby.joinLetters c h ticket token := List.map_map.trans (List.map_id _)
    change { lobby with outboxes := mail s.lobby.outboxes (posts.map _) } = lobby
    rw [hposts, ← houtboxes]

end Link

end War3BattleTool.System
