import Mathlib.Data.List.Induction
import Mathlib.Data.Set.List
import War3BattleTool.Server.Broadcast
import War3BattleTool.Server.Queues
import War3BattleTool.System.OwnHosts

set_option autoImplicit false

/-!
# What the client shows of the server

The lobby of the client shows the last list of players and the last list of rooms that it was
sent.  What is still on the way will be shown in the order in which the server sent it: once
everything has arrived, the client shows what its queue has taken (`coming_of_reachable`), and the
maps of the server as they are if its queue took the last broadcast and nobody is in the middle of
an operation (`shownBy_of_trace`).  A lost session leaves nothing to show.
-/

namespace War3BattleTool.System

open War3BattleTool.Foundation War3BattleTool.Protocol War3BattleTool.Server
open War3BattleTool.Client

/-- What the lobby of the client shows: the client's own id, the players and the rooms. -/
structure Shown where
  myPlayerId : Option String
  players : List PlayerInfo
  rooms : List RoomInfo

namespace Shown

/-- Nothing is shown. -/
def nothing : Shown := ⟨none, [], []⟩

/-- What the app shows. -/
def ofApp (a : War3App) : Shown := ⟨a.myPlayerId, a.players, a.rooms⟩

/-- A message of the server is shown. -/
def hear (v : Shown) : ServerMessage → Shown
  | .welcome playerId => { v with myPlayerId := some playerId }
  | .playerUpdate players => { v with players := players }
  | .roomUpdate rooms => { v with rooms := rooms }
  | _ => v

/-- An event of the network task is shown: nothing is left of a session that has ended. -/
def take (v : Shown) : NetEvent → Shown
  | .disconnected => nothing
  | .serverMessage letter => v.hear letter.message
  | _ => v

/-- Messages are shown in their order. -/
def hearAll (v : Shown) (ms : List ServerMessage) : Shown := ms.foldl hear v

variable {v : Shown} {ms : List ServerMessage}

theorem hearAll_append (v : Shown) (ms ms' : List ServerMessage) :
    v.hearAll (ms ++ ms') = (v.hearAll ms).hearAll ms' := List.foldl_append

theorem hear_pong {m : ServerMessage} (hm : isPong m = true) : v.hear m = v := by
  cases m with
  | pong ts => rfl
  | _ => cases hm

/-- The rooms shown are those of the last list. -/
theorem rooms_hearAll {rooms : List RoomInfo}
    (h : (ms.filter isRoomUpdate).getLast? = some (.roomUpdate rooms)) :
    (v.hearAll ms).rooms = rooms := by
  induction ms using List.reverseRecOn with
  | nil => cases h
  | append_singleton before m ih =>
      rw [List.filter_append] at h
      rw [hearAll_append]
      cases m with
      | roomUpdate rooms' =>
          rw [show [ServerMessage.roomUpdate rooms'].filter isRoomUpdate = [.roomUpdate rooms']
            from rfl, List.getLast?_concat] at h
          cases h
          rfl
      | _ => exact ih (by simpa [isRoomUpdate] using h)

/-- The players shown are those of the last list. -/
theorem players_hearAll {players : List PlayerInfo}
    (h : (ms.filter isPlayerUpdate).getLast? = some (.playerUpdate players)) :
    (v.hearAll ms).players = players := by
  induction ms using List.reverseRecOn with
  | nil => cases h
  | append_singleton before m ih =>
      rw [List.filter_append] at h
      rw [hearAll_append]
      cases m with
      | playerUpdate players' =>
          rw [show [ServerMessage.playerUpdate players'].filter isPlayerUpdate =
            [.playerUpdate players'] from rfl, List.getLast?_concat] at h
          cases h
          rfl
      | _ => exact ih (by simpa [isPlayerUpdate] using h)

end Shown

/-! ## The client on its own -/

/-- What the client will show once it has handled the events that wait. -/
def settled (client : Process) : Shown := client.events.foldl Shown.take (.ofApp client.app)

section Process

variable {s s' : Process}

theorem settled_congr (hevents : s'.events = s.events)
    (hshown : Shown.ofApp s'.app = .ofApp s.app) : settled s' = settled s := by
  unfold settled
  rw [hevents, hshown]

theorem settled_append {events : List NetEvent} (happ : s'.app = s.app)
    (hevents : s'.events = s.events ++ events) :
    settled s' = events.foldl Shown.take (settled s) := by
  unfold settled
  rw [happ, hevents, List.foldl_append]

theorem ofApp_sendOrWarn (s : Process) (c : Command) :
    Shown.ofApp (s.sendOrWarn c).1.app = .ofApp s.app := by
  rw [Process.fst_sendOrWarn]

theorem ofApp_cancelInFlight (a : War3App) : Shown.ofApp a.cancelInFlight = .ofApp a := by
  unfold War3App.cancelInFlight
  split <;> rfl

theorem ofApp_netConnected (s : Process) : Shown.ofApp s.netConnected.app = .ofApp s.app := by
  have hclear : ∀ a : War3App, Shown.ofApp a.clearServerError = .ofApp a := by
    intro a
    unfold War3App.clearServerError
    split <;> rfl
  unfold Process.netConnected Process.sendRegister
  dsimp only
  split
  · rw [ofApp_sendOrWarn]
    exact hclear _
  · exact hclear _

theorem ofApp_abortTunnel (s : Process) : Shown.ofApp s.abortTunnel.app = .ofApp s.app := by
  unfold Process.abortTunnel
  split <;> rfl

theorem ofApp_startJoinerTunnel (s : Process) (op : Option OpId) (token : String)
    (gameinfo : Bytes) :
    Shown.ofApp (s.startJoinerTunnel op token gameinfo).app = .ofApp s.app :=
  ofApp_abortTunnel s

theorem ofApp_joinResult (s : Process) (op : Option OpId) (success : Bool)
    (token : Option String) (gameinfo : Option Bytes) :
    Shown.ofApp (s.joinResult op success token gameinfo).app = .ofApp s.app := by
  unfold Process.joinResult
  split
  · split
    · split
      · exact ofApp_startJoinerTunnel _ _ _ _
      · rfl
    · rfl
  · rfl

/-- The app shows what a message of the server says. -/
theorem ofApp_handleServerMessage (s : Process) (letter : Letter) :
    Shown.ofApp (s.handleServerMessage letter).app = (Shown.ofApp s.app).hear letter.message := by
  obtain ⟨m, externalAddr, answers, processed⟩ := letter
  cases m with
  | roomUpdate rooms =>
      simp only [Process.handleServerMessage, Process.roomUpdate]
      split <;> rfl
  | joinResult success roomId token gameinfo =>
      exact ofApp_joinResult s answers success token gameinfo
  | playerJoined nickname token | tunnelReady token => exact ofApp_abortTunnel s
  | peerUPnPAddr text =>
      simp only [Process.handleServerMessage, Process.peerUPnPAddr]
      split
      · split <;> rfl
      · rfl
  | error message =>
      simp only [Process.handleServerMessage, War3App.surfaceError]
      split <;> rfl
  | _ => rfl

theorem ofApp_netEvent (s : Process) (e : NetEvent) :
    Shown.ofApp (s.netEvent e).app = (Shown.ofApp s.app).take e := by
  cases e with
  | connected => exact ofApp_netConnected s
  | disconnected => exact ofApp_cancelInFlight _
  | reconnecting attempt => exact ofApp_cancelInFlight _
  | serverMessage letter => exact ofApp_handleServerMessage s letter

theorem ofApp_upnpEvent (s : Process) (token addr : String) :
    Shown.ofApp (s.upnpEvent token addr).app = .ofApp s.app := by
  unfold Process.upnpEvent
  dsimp only
  split <;> exact ofApp_sendOrWarn s _

theorem ofApp_posted (s : Process) (p : Posted) :
    Shown.ofApp (s.posted p).app = .ofApp s.app := by
  cases p with
  | tunnel k event => cases event <;> rfl
  | gameinfoCaptured op roomName mapName maxPlayers gameinfo =>
      simp only [Process.posted, Process.gameinfoCaptured]
      split
      · rfl
      · split <;> exact ofApp_sendOrWarn s _

/-- What the UI thread takes from its queues is shown already, once it has settled. -/
theorem settled_poll (h : s.poll = some s') : settled s' = settled s := by
  cases Process.polls_of_poll h with
  | @event e rest hframe hevents =>
      have hsends := Process.sends_netEvent { s with events := rest } e
      unfold settled
      rw [hsends.events, ofApp_netEvent, hevents]
      rfl
  | @upnp token addr rest hframe hmapped =>
      have hsends := Process.sends_upnpEvent { s with upnpMapped := rest } token addr
      exact settled_congr hsends.events (ofApp_upnpEvent _ token addr)
  | @posted p rest hframe hevents =>
      have hsends := Process.sends_posted { s with tunnelEvents := rest } p
      exact settled_congr hsends.events (ofApp_posted _ p)
  | ends hqueued => exact settled_congr rfl rfl

theorem ofApp_click {i : Process.Input} (h : s.click i = some s') :
    Shown.ofApp s'.app = .ofApp s.app := by
  unfold Process.click at h
  split at h
  · split at h
    · split at h <;> cases h
      rfl
    · cases h
  · split at h <;> cases h
    unfold Process.clickJoin
    dsimp only
    split
    · exact ofApp_sendOrWarn _ _
    · exact ofApp_sendOrWarn _ _
  · split at h <;> cases h
    exact ofApp_sendOrWarn _ _
  · split at h <;> cases h
    rfl
  · split at h <;> cases h
    rfl
  · split at h <;> cases h
    rfl
  · cases h

/-- The user changes nothing of what the server sent. -/
theorem ofApp_input {i : Process.Input} (h : s.input i = some s') :
    Shown.ofApp s'.app = .ofApp s.app := by
  unfold Process.input at h
  split at h
  · obtain ⟨next, hnext, rfl⟩ := Option.map_eq_some_iff.mp h
    change Shown.ofApp next.app = .ofApp s.app
    unfold Process.showFrame at hnext
    split at hnext
    · cases hnext
      rfl
    · split at hnext <;> cases hnext
      unfold Process.finishWizard Process.sendRegister
      dsimp only
      split
      · rw [ofApp_sendOrWarn]
        rfl
      · rfl
    · split at hnext <;> cases hnext
      rfl
    · split at hnext
      · exact ofApp_click hnext
      · cases hnext
  · cases h

/-- The steps of the client's own tasks change nothing of what it will show. -/
theorem settled_of_local {l : Process.Label} (hl : l.isRemote = false) (h : s.step l = some s') :
    settled s' = settled s := by
  cases l with
  | poll => exact settled_poll h
  | input i => exact settled_congr (Process.queues_of_input h).1 (ofApp_input h)
  | tunnel k move =>
      obtain ⟨_, _, rfl⟩ := Option.map_eq_some_iff.mp h
      exact settled_congr rfl rfl
  | report k r =>
      obtain ⟨t, _, h⟩ := Option.bind_eq_some_iff.mp h
      cases r <;> simp only at h <;> split at h <;> cases h <;> exact settled_congr rfl rfl
  | captured op gameinfo fields =>
      obtain ⟨c, _, rfl⟩ := Option.map_eq_some_iff.mp h
      exact settled_congr rfl rfl
  | _ => cases hl

/-- A letter that reaches the queue of the UI thread will be shown. -/
theorem settled_letters {letters : List Letter} (happ : s'.app = s.app)
    (hevents : s'.events = s.events ++ letters.map .serverMessage) :
    s'.unread = s.unread ++ letters ∧
      settled s' = (settled s).hearAll (letters.map (·.message)) := by
  constructor
  · have hletters : (letters.map NetEvent.serverMessage).filterMap (·.letter?) = letters := by
      rw [List.filterMap_map]
      exact List.filterMap_some
    rw [Process.unread, hevents, List.filterMap_append, hletters]
    rfl
  · rw [settled_append happ hevents, Shown.hearAll, List.foldl_map, List.foldl_map]
    rfl

/-- What a step of the network task or of the server does to what the client will show.  A lost
session leaves nothing; otherwise what the step brings will be shown. -/
inductive Settles (s s' : Process) : Prop
  | nothing (hsession : s'.network.inSession = false) (hsettled : settled s' = .nothing)
  | shows (letters : List Letter) (hunread : s'.unread = s.unread ++ letters)
      (hsettled : settled s' = (settled s).hearAll (letters.map (·.message)))
      (hbetween : s'.network.isBetween = true →
        s.network.isBetween = true ∧ settled s' = settled s)

theorem settles_quietly (hunread : s'.unread = s.unread) (hsettled : settled s' = settled s)
    (hbetween : s'.network.isBetween = true → s.network.isBetween = true) : Settles s s' :=
  .shows [] (by rw [hunread, List.append_nil]) hsettled fun h => ⟨hbetween h, hsettled⟩

theorem settles_of_remote {l : Process.Label} (hl : l.isRemote = true) (h : s.step l = some s') :
    Settles s s' := by
  have happ : s'.app = s.app := (Process.keepsUi_of_remote hl h).app
  cases Process.remoteStep_of_step hl h with
  | connects hnetwork =>
      refine settles_quietly (Process.unread_append (fun e he => ?_) rfl) ?_ Bool.noConfusion
      · rw [List.mem_singleton.mp he]
        rfl
      · rw [settled_append happ rfl]
        rfl
  | sends hnetwork hcmds => exact settles_quietly rfl rfl Bool.noConfusion
  | ends hnetwork hcmds =>
      refine .nothing rfl ?_
      rw [settled_append happ rfl]
      rfl
  | @works _ x y new processed hnetwork hsent hnew =>
      obtain ⟨letters, rfl⟩ : new ∈ Set.range (List.map NetEvent.serverMessage) := by
        rw [Set.range_list_map]
        intro e he
        obtain ⟨letter, rfl⟩ := hnew e he
        exact ⟨letter, rfl⟩
      obtain ⟨hunread, hsettled⟩ := settled_letters happ rfl
      exact .shows letters hunread hsettled Bool.noConfusion
  | @waits _ network new hold hnetwork hnew =>
      refine settles_quietly (Process.unread_append (fun e he => ?_) rfl) ?_ fun _ => hold
      · obtain ⟨attempt, rfl⟩ := hnew e he
        rfl
      · rw [settled_append happ rfl]
        refine List.foldlRecOn (motive := (· = settled s)) new Shown.take rfl fun v hv e he => ?_
        obtain ⟨attempt, rfl⟩ := hnew e he
        exact hv
  | stops hclosed => exact settles_quietly rfl rfl Bool.noConfusion

theorem not_isBetween {network : NetworkTask} (hin : network.inSession = true) :
    network.isBetween = false := by
  cases network with
  | session x => rfl
  | _ => cases hin

/-- The first letter of the session will be shown, and a `Pong` shows nothing. -/
theorem settled_deliver {letter : Letter} (hstep : s.step .deliver = some s')
    (hin : s'.network.inSession = true)
    (hunread : s'.unread = s.unread ++ if isPong letter.message then [] else [letter]) :
    settled s' = (settled s).hear letter.message := by
  cases settles_of_remote rfl hstep with
  | nothing hend hsettled => cases hend.symm.trans hin
  | shows letters hletters hsettled hbetween =>
      have hsame := List.append_cancel_left (hletters.symm.trans hunread)
      rw [hsettled, hsame]
      cases hpong : isPong letter.message with
      | true => exact (Shown.hear_pong hpong).symm
      | false => rfl

end Process

/-! ## The client and the server -/

namespace Link

variable {s s' : Link} {c : SocketId}

/-- What the client will show once everything on the wire has arrived. -/
def coming (s : Link) : Shown :=
  (settled s.client).hearAll ((s.wire.drop s.client.unread.length).map (·.message))

/-- Without a session the client will show nothing; with one it will show what its queue has
taken, as long as the send task runs. -/
structure Mirrors (s : Link) : Prop where
  waiting : s.waiting.map (·.message) <+: s.wire.map (·.message)
  idle : s.client.network.isBetween = true → settled s.client = .nothing
  handler : ∀ c, s.conn = some c → (s.lobby.handler c).isSome
  session : ∀ c, s.conn = some c → s.client.network.inSession = true → s.lobby.sends c = true →
    s.coming = Shown.nothing.hearAll (accepted s.lobby.outboxes c)

theorem mirrors_start (config : AppConfig) : Mirrors (start config) where
  waiting := List.prefix_rfl
  idle := fun _ => rfl
  handler := by rintro c ⟨⟩
  session := by rintro c ⟨⟩

namespace Mirrors

theorem unread_le (h : Mirrors s) : s.client.unread.length ≤ s.wire.length := by
  have hlength := h.waiting.length_le
  rw [List.length_map, List.length_map, Link.waiting, List.length_append] at hlength
  omega

/-! ### Steps of the server -/

/-- The queue of the connection takes what goes on the wire. -/
theorem advance {token : Option String} {lobby : Lobby}
    (hhandler : ∀ c, (s.lobby.handler c).isSome → (lobby.handler c).isSome)
    (haccepted : ∀ c, (s.lobby.handler c).isSome →
      (∃ new, accepted lobby.outboxes c = accepted s.lobby.outboxes c ++ new) ∧
        (lobby.sends c = true → s.lobby.sends c = true))
    (h : Mirrors s) : Mirrors (s.advance token lobby) where
  waiting := by
    refine h.waiting.trans ?_
    rw [Link.advance, List.map_append]
    exact List.prefix_append _ _
  idle := h.idle
  handler := fun c hc => hhandler c (h.handler c hc)
  session := by
    intro c hc hin hsends
    obtain ⟨⟨new, hnew⟩, hopen⟩ := haccepted c (h.handler c hc)
    have hparcels : (s.parcels lobby token).map (·.message) = new := by
      simp only [Link.parcels, show s.conn = some c from hc, hnew, List.drop_left, List.map_map]
      exact List.map_id new
    have hcoming : (s.advance token lobby).coming = s.coming.hearAll new := by
      simp only [coming, Link.advance]
      rw [List.drop_append_of_le_length h.unread_le, List.map_append, hparcels,
        Shown.hearAll_append]
    rw [hcoming, h.session c hc hin (hopen hsends), ← Shown.hearAll_append, ← hnew]
    rfl

theorem advance_step {l : Lobby.Label} {lobby : Lobby} {token : Option String}
    (hstep : s.lobby.step l = some lobby) (h : Mirrors s) : Mirrors (s.advance token lobby) :=
  h.advance (fun _ => Lobby.handler_of_step hstep) fun _ => Lobby.accepted_of_step hstep

/-- The handler has run, and its messages are still to be sent. -/
theorem owes {lobby : Lobby} {owed : SocketId → List Post}
    (hhandler : ∀ c, (s.lobby.handler c).isSome → (lobby.handler c).isSome)
    (houtboxes : lobby.outboxes = s.lobby.outboxes) (h : Mirrors s) :
    Mirrors { s with lobby := lobby, owed := owed } where
  waiting := h.waiting
  idle := h.idle
  handler := fun c hc => hhandler c (h.handler c hc)
  session := by
    intro c hc hin hsends
    simp only [Lobby.sends, houtboxes] at hsends ⊢
    exact h.session c hc hin hsends

theorem block {fresh : String} (hstep : s.block c fresh = some s') (h : Mirrors s) :
    Mirrors s' := by
  obtain ⟨handler, hhandler, hstep⟩ := Option.bind_eq_some_iff.mp hstep
  obtain ⟨lobby, hlobby, heq⟩ := Option.map_eq_some_iff.mp hstep
  split at heq
  next =>
    subst heq
    have hkept : ∀ c', (s.lobby.handler c').isSome → (lobby.handler c').isSome :=
      fun _ => Lobby.handler_of_step hlobby
    exact h.owes hkept rfl
  next =>
    subst heq
    have hmirrors : Mirrors (s.advance none lobby) := h.advance_step hlobby
    exact ⟨hmirrors.waiting, hmirrors.idle, hmirrors.handler, hmirrors.session⟩
  next => exact heq ▸ h.advance_step hlobby
  next => exact heq ▸ h.advance_step hlobby

theorem send (hstep : s.send c = some s') (h : Mirrors s) : Mirrors s' := by
  unfold Link.send at hstep
  split at hstep
  next post rest _ =>
    cases hstep
    have hmirrors : Mirrors (s.advance (some post.token)
        (s.lobby.trySend post.tx post.message)) := by
      refine h.advance (fun c hc => hc) fun c hc => ⟨⟨_, accepted_offer⟩, fun hsends => ?_⟩
      exact (Lobby.sends_offer post.tx post.message).symm.trans hsends
    exact ⟨hmirrors.waiting, hmirrors.idle, hmirrors.handler, hmirrors.session⟩
  next => cases hstep

theorem sendFails {lobby : Lobby} (hstep : s.lobby.step (.sent c false) = some lobby)
    (h : Mirrors s) : Mirrors (s.sendFails c lobby) := by
  have hhandler : ∀ c', (s.lobby.handler c').isSome → (lobby.handler c').isSome :=
    fun _ => Lobby.handler_of_step hstep
  obtain ⟨o, ho, hpops⟩ := Option.bind_eq_some_iff.mp hstep
  obtain ⟨o', hpop, rfl⟩ := Option.map_eq_some_iff.mp hpops
  unfold Link.sendFails
  split
  next hconn =>
    refine ⟨?_, h.idle, fun c' hc' => hhandler c' (h.handler c' hc'), fun c' hc' _ hsends => ?_⟩
    · change s.waiting.map (·.message) <+: (s.wire.take _).map (·.message)
      rw [List.map_take, List.prefix_take_iff, List.length_map]
      exact ⟨h.waiting, Nat.le_max_left _ _⟩
    · obtain rfl : c = c' := Option.some.inj (hconn.symm.trans hc')
      cases hsends.symm.trans (Lobby.sends_of_failed hstep)
  next hconn =>
    refine ⟨h.waiting, h.idle, fun c' hc' => hhandler c' (h.handler c' hc'),
      fun c' hc' hin hsends => ?_⟩
    have haccepted := accepted_pop ho hpop c'
    refine (h.session c' hc' hin ?_).trans ?_
    · exact (Lobby.accepted_of_step hstep (h.handler c' hc')).2 hsends
    · rw [haccepted]

theorem server {l : Lobby.Label} (hstep : s.server l = some s') (h : Mirrors s) :
    Mirrors s' := by
  have hadvance : ∀ {l : Lobby.Label}, (s.lobby.step l).map (s.advance none) = some s' →
      Mirrors s' := by
    intro l hstep
    obtain ⟨lobby, hlobby, rfl⟩ := Option.map_eq_some_iff.mp hstep
    exact h.advance_step hlobby
  unfold Link.server at hstep
  split at hstep
  · split at hstep
    · exact h.block hstep
    · cases hstep
  · split at hstep
    · exact hadvance hstep
    · cases hstep
  · obtain ⟨lobby, hlobby, rfl⟩ := Option.map_eq_some_iff.mp hstep
    exact h.sendFails hlobby
  · split at hstep
    · cases hstep
    · exact hadvance hstep
  · exact hadvance hstep

/-! ### Steps between the server and the client -/

/-- The client goes on in its session and will show the same, or its session is over. -/
theorem keeps {client : Process} (hkeeps : Process.KeepsLetters s.client client)
    (hsettled : client.network.inSession = true →
      s.client.network.inSession = true ∧ settled client = settled s.client)
    (hidle : client.network.isBetween = true → settled client = .nothing) (h : Mirrors s) :
    Mirrors { s with client := client } where
  waiting := ((waiting_of_keepsLetters hkeeps).map _).trans h.waiting
  idle := hidle
  handler := h.handler
  session := by
    intro c hc hin hsends
    obtain ⟨hin, hsettled⟩ := hsettled hin
    rw [← h.session c hc hin hsends]
    simp only [coming, hkeeps.unread, hsettled]

/-- A step of the client that leaves the letters where they are. -/
theorem keeps_step {l : Process.Label} {client : Process} (hstep : s.client.step l = some client)
    (hkeeps : Process.KeepsLetters s.client client) (h : Mirrors s) :
    Mirrors { s with client := client } := by
  cases hl : l.isRemote with
  | false =>
      have hsettled := settled_of_local hl hstep
      have hnetwork : client.network = s.client.network :=
        (Process.sendsStep_of_local hl hstep).network
      refine h.keeps hkeeps (fun hin => ⟨hnetwork ▸ hin, hsettled⟩) fun hidle => ?_
      exact hsettled.trans (h.idle (hnetwork ▸ hidle))
  | true =>
      cases settles_of_remote hl hstep with
      | nothing hsession hsettled =>
          refine h.keeps hkeeps (fun hin => ?_) fun _ => hsettled
          cases hsession.symm.trans hin
      | shows letters hunread hsettled hbetween =>
          obtain rfl : letters = [] :=
            List.append_right_eq_self.mp (hunread.symm.trans hkeeps.unread)
          refine h.keeps hkeeps (fun hin => ⟨?_, hsettled⟩) fun hidle => ?_
          · rcases hkeeps.network with hend | ⟨hsame, _⟩
            · cases hend.symm.trans hin
            · exact hsame ▸ hin
          · obtain ⟨hidle, hsettled⟩ := hbetween hidle
            exact hsettled.trans (h.idle hidle)

/-- Nothing waits on the session, so what is on the wire is what the UI thread has to read. -/
theorem cut {client : Process} {conn : Option SocketId} (hunread : client.unread = s.client.unread)
    (harrived : client.network.arrived = [])
    (hidle : client.network.isBetween = true → settled client = .nothing)
    (hconn : ∀ c, conn = some c → settled client = .nothing ∧ (s.lobby.handler c).isSome ∧
      accepted s.lobby.outboxes c = []) (h : Mirrors s) : Mirrors { s with
      client := client
      conn := conn
      wire := s.wire.take s.client.unread.length
      heard := .start } where
  waiting := by
    rw [Link.waiting, harrived, List.append_nil, List.map_take, List.prefix_take_iff,
      List.length_map, hunread]
    refine ⟨List.IsPrefix.trans ?_ h.waiting, Nat.le_refl _⟩
    rw [Link.waiting, List.map_append]
    exact List.prefix_append _ _
  idle := hidle
  handler := fun c hc => (hconn c hc).2.1
  session := by
    intro c hc _ _
    change _ = Shown.nothing.hearAll (accepted s.lobby.outboxes c)
    obtain ⟨hsettled, _, hnone⟩ := hconn c hc
    rw [hnone, coming]
    dsimp only
    rw [hunread, hsettled, List.drop_of_length_le (List.length_take_le ..)]
    rfl

theorem connect (hstep : s.connect c = some s') (h : Mirrors s) : Mirrors s' := by
  unfold Link.connect at hstep
  split at hstep
  next hopen =>
    rw [Bool.and_eq_true, List.isEmpty_iff] at hopen
    obtain ⟨client, hclient, rfl⟩ := Option.map_eq_some_iff.mp hstep
    simp only [Process.step, Process.connect] at hclient
    split at hclient
    next attempt hnetwork =>
      cases hclient
      refine h.cut (Process.unread_append (fun e he => ?_) rfl) rfl Bool.noConfusion
        fun c' hc' => ?_
      · rw [List.mem_singleton.mp he]
        rfl
      · cases hc'
        refine ⟨?_, hopen⟩
        unfold settled
        rw [List.foldl_append]
        exact h.idle (by rw [hnetwork]; rfl)
    next => cases hclient
  · cases hstep

theorem arrive (hstep : s.arrive = some s') (h : Mirrors s) : Mirrors s' := by
  unfold Link.arrive at hstep
  split at hstep
  next c x hconn hx =>
    split at hstep
    · obtain ⟨p, hp, rfl⟩ := Option.map_eq_some_iff.mp hstep
      have hin : s.client.network.inSession = true := by rw [hx]; rfl
      refine ⟨?_, Bool.noConfusion, h.handler, fun c' hc' _ => h.session c' hc' hin⟩
      have hnext : (s.wire.map (·.message))[(s.waiting.map (·.message)).length]? =
          some p.message := by
        rw [List.length_map, List.getElem?_map, hp]
        rfl
      have hfront := prefix_concat h.waiting hnext
      rw [Link.waiting, hx, List.map_append] at hfront
      change List.map (·.message) (s.client.unread ++ (x.toClient ++ [_])) <+: _
      rwa [List.map_append, List.map_append, ← List.append_assoc]
    · cases hstep
  next => cases hstep

theorem upload {len : Nat} (hstep : s.upload len = some s') (h : Mirrors s) : Mirrors s' := by
  obtain ⟨c, _, hstep⟩ := Option.bind_eq_some_iff.mp hstep
  obtain ⟨cmd, _, hstep⟩ := Option.bind_eq_some_iff.mp hstep
  obtain ⟨lobby, hlobby, hstep⟩ := Option.bind_eq_some_iff.mp hstep
  obtain ⟨client, hclient, rfl⟩ := Option.map_eq_some_iff.mp hstep
  obtain ⟨serving, hserve, hserved⟩ := Option.bind_eq_some_iff.mp hclient
  have hserves : Process.LetterStep s.client .serve serving :=
    Process.letterStep_of_step nofun (fun _ _ _ => nofun) hserve
  have hserveds : Process.LetterStep serving .served client :=
    Process.letterStep_of_step nofun (fun _ _ _ => nofun) hserved
  cases hserves with
  | keeps hkeeps =>
      cases hserveds with
      | keeps hkeeps' =>
          have hmirrors : Mirrors { s.advance none lobby with client := serving } :=
            keeps_step (s := s.advance none lobby) hserve hkeeps (h.advance_step hlobby)
          exact keeps_step (s := { s.advance none lobby with client := serving }) hserved hkeeps'
            hmirrors

/-! ### Steps of the client -/

/-- The app reads the first message on the wire. -/
theorem reads {client : Process} {letter : Letter} {rest : List NetEvent}
    (hevents : s.client.events = .serverMessage letter :: rest)
    (hkeeps : Process.KeepsLetters { s.client with events := rest } client)
    (hnetwork : client.network = s.client.network)
    (hsettled : settled client = settled s.client) (h : Mirrors s) :
    Mirrors { s.read letter with client := client } := by
  have hunread : s.client.unread = letter :: rest.filterMap (·.letter?) := by
    rw [Process.unread, hevents]
    rfl
  have hwaiting := h.waiting
  rw [Link.waiting, hunread, List.cons_append, List.map_cons] at hwaiting
  obtain ⟨p, ps, hwire⟩ : ∃ p ps, s.wire = p :: ps := by
    cases hwire : s.wire with
    | nil =>
        rw [hwire] at hwaiting
        cases List.prefix_nil.mp hwaiting
    | cons p ps => exact ⟨p, ps, rfl⟩
  rw [hwire, List.map_cons, List.cons_prefix_cons] at hwaiting
  have hread : s.read letter = { s with
      wire := ps
      notes := s.notes.handle s.client.dialler s.client.app.waitsForJoin p
        letter.externalAddr } := by
    rw [read, hwire]
  rw [hread]
  refine ⟨?_, fun hidle => hsettled.trans (h.idle (hnetwork ▸ hidle)), h.handler,
    fun c hc hin hsends => ?_⟩
  · exact ((waiting_of_keepsLetters (s := { s with client := { s.client with events := rest } })
      hkeeps).map _).trans hwaiting.2
  · rw [← h.session c hc (hnetwork ▸ hin) hsends, coming, coming, hsettled, hwire, hunread]
    dsimp only
    rw [hkeeps.unread]
    rfl

/-- The network task hands the first letter of the session on, or keeps a `Pong` to itself. -/
theorem delivers {client : Process} {letter : Letter} {rest : List Letter}
    (hstep : s.client.step .deliver = some client)
    (hin : s.client.network.inSession = true ∧ client.network.inSession = true)
    (harrived : s.client.network.arrived = letter :: rest) (hrest : client.network.arrived = rest)
    (hunread : client.unread =
      s.client.unread ++ if isPong letter.message then [] else [letter])
    (h : Mirrors s) : Mirrors { s.track .deliver with client := client } := by
  have hwaiting := h.waiting
  rw [Link.waiting, harrived, List.map_append, List.map_cons] at hwaiting
  obtain ⟨more, hmore⟩ := hwaiting
  rw [List.append_assoc, List.cons_append] at hmore
  obtain ⟨ws, vs, hwire, hws, hvs⟩ := List.map_eq_append_iff.mp hmore.symm
  obtain ⟨p, ps, rfl, hp, hps⟩ := List.map_eq_cons_iff.mp hvs
  have hlength : ws.length = s.client.unread.length := by
    rw [← List.length_map (·.message), hws, List.length_map]
  have hsettled := settled_deliver hstep hin.2 hunread
  have hcoming : s.coming = (settled client).hearAll (ps.map (·.message)) := by
    rw [coming, hwire, ← hlength, List.drop_left, hsettled, ← hp]
    rfl
  have hidle : client.network.isBetween = true → settled client = .nothing := by
    rw [not_isBetween hin.2]
    exact Bool.noConfusion
  cases hpong : isPong letter.message with
  | false =>
      have htrack : s.track .deliver = s := by simp [track, harrived, hpong]
      rw [hpong] at hunread
      rw [htrack]
      refine ⟨?_, hidle, h.handler, fun c hc _ hsends => ?_⟩
      · refine ⟨more, ?_⟩
        rw [Link.waiting, hunread, hrest, hwire]
        simp [hws, hp, hps]
      · rw [← h.session c hc hin.1 hsends, hcoming, coming, hunread, hwire]
        simp [← hlength]
  | true =>
      have herase : s.wire.eraseIdx s.client.unread.length = ws ++ ps := by
        rw [hwire, ← hlength, List.eraseIdx_append_of_length_le (Nat.le_refl _), Nat.sub_self]
        rfl
      have htrack : s.track .deliver = { s with wire := ws ++ ps } := by
        rw [← herase]
        simp [track, harrived, hpong]
      rw [hpong] at hunread
      rw [htrack]
      refine ⟨?_, hidle, h.handler, fun c hc _ hsends => ?_⟩
      · refine ⟨more, ?_⟩
        rw [Link.waiting, hunread, hrest]
        simp [hws, hps]
      · rw [← h.session c hc hin.1 hsends, hcoming, coming, hunread]
        simp [← hlength]

theorem goOn {client : Process} (h : Mirrors { s with client := client }) :
    Mirrors (s.goOn client) := by
  unfold Link.goOn
  split
  · exact h
  next hend =>
    have harrived := NetworkTask.arrived_eq_nil (Bool.eq_false_iff.mpr hend)
    refine cut (s := { s with client := client }) rfl harrived h.idle (fun c hc => ?_) h
    cases hc

theorem run {l : Process.Label} (hstep : s.run l = some s') (h : Mirrors s) : Mirrors s' := by
  unfold Link.run at hstep
  split at hstep
  next hlocal =>
    obtain ⟨client, hclient, rfl⟩ := Option.map_eq_some_iff.mp hstep
    have hconnect : l ≠ .connect true := by
      rintro rfl
      cases hlocal
    have hreply : ∀ m externalAddr own, l ≠ .reply m externalAddr own := by
      rintro m externalAddr own rfl
      cases hlocal
    apply goOn
    cases Process.letterStep_of_step hconnect hreply hclient with
    | @takes letter rest hframe hevents =>
        have hnext := nextLetter_eq_some.mpr ⟨hframe, rest, hevents⟩
        have htrack : s.track .poll = s.read letter := by rw [track, hnext]
        rw [htrack]
        exact h.reads hevents (Process.keepsLetters_handleServerMessage _ letter)
          (Process.sends_netEvent _ (.serverMessage letter)).network (settled_poll hclient)
    | delivers hin harrived hrest hunread hdialler =>
        exact h.delivers hclient hin harrived hrest hunread
    | keeps hkeeps hdialler hdeliver hpoll =>
        have htrack : s.track l = s := by
          unfold track
          split
          next =>
            split
            next letter hletter =>
              obtain ⟨hframe, rest, hevents⟩ := nextLetter_eq_some.mp hletter
              exact absurd hevents (hpoll rfl letter rest hframe)
            next => rfl
          next => exact absurd rfl hdeliver
          next => rfl
        rw [htrack]
        exact h.keeps_step hclient hkeeps
  next => cases hstep

/-! ### Runs -/

theorem step {l : Label} (hstep : s.step l = some s') (h : Mirrors s) : Mirrors s' := by
  cases l with
  | server l => exact h.server hstep
  | send c => exact h.send hstep
  | connect c => exact h.connect hstep
  | upload len => exact h.upload hstep
  | arrive => exact h.arrive hstep
  | client l => exact h.run hstep

end Mirrors

theorem mirrors_of_reachable {config : AppConfig} (h : (machine config).Reachable s) :
    Mirrors s :=
  h.invariant (mirrors_start config) fun _ _ _ _ hs hstep => hs.step hstep

/-- In every run a client without a session will show nothing of the server, and a client in a
session will show exactly what the queue of its connection has taken. -/
theorem coming_of_reachable {config : AppConfig} (h : (machine config).Reachable s) :
    (s.client.network.isBetween = true → settled s.client = .nothing) ∧
    ∀ c, s.conn = some c → s.client.network.inSession = true → s.lobby.sends c = true →
      s.coming = Shown.nothing.hearAll (accepted s.lobby.outboxes c) :=
  ⟨(mirrors_of_reachable h).idle, (mirrors_of_reachable h).session⟩

/-- A client has registered, and its welcome is still on the way. -/
theorem coming_entering : ∃ s : Link, s.wire ≠ [] ∧
    s.coming = Shown.nothing.hearAll (accepted s.lobby.outboxes 0) := by
  have hrun : ((machine Process.somebody).exec (machine Process.somebody).init
      (enters.take 11)).any (fun s => decide (s.conn = some 0) && s.client.network.inSession &&
        s.lobby.sends 0 && !s.wire.isEmpty) = true := by decide
  obtain ⟨s, _, hreach, htest⟩ := Machine.exists_reachable_of_exec hrun
  simp only [Bool.and_eq_true, decide_eq_true_eq] at htest
  obtain ⟨⟨⟨hconn, hin⟩, hsends⟩, hwire⟩ := htest
  refine ⟨s, fun hnone => ?_, (coming_of_reachable hreach).2 0 hconn hin hsends⟩
  rw [hnone] at hwire
  cases hwire

/-! ## The maps of the server -/

/-- The broadcast that a step makes. -/
def issues (s : Link) : Label → List (Issue Snapshot SocketId ServerMessage)
  | .server l => s.lobby.issues l
  | _ => []

/-- The handlers stand where they may, and none owes a snapshot to anybody. -/
structure Fed (s : Link) : Prop where
  attended : s.lobby.Attended
  owed : ∀ c, ∀ post ∈ s.owed c, isSnapshot post.message = false

theorem eq_issue_of_mem {l : Label} {e : Issue Snapshot SocketId ServerMessage}
    (he : e ∈ s.issues l) : e = s.lobby.issue := by
  cases l with
  | server l => exact Lobby.eq_issue_of_mem he
  | _ => cases he

/-- The step keeps the feed of the server, with these broadcasts. -/
def Feeds (s s' : Link) (new : List (Issue Snapshot SocketId ServerMessage)) : Prop :=
  Fed s' ∧ Feed.Step s.lobby.feed s'.lobby.feed new

theorem feeds_rests (hlobby : s'.lobby = s.lobby) (howed : s'.owed = s.owed) (h : Fed s) :
    Feeds s s' [] :=
  ⟨⟨hlobby ▸ h.attended, howed ▸ h.owed⟩, hlobby ▸ .rests rfl id rfl⟩

theorem feeds_step {l : Lobby.Label} (hstep : s.lobby.step l = some s'.lobby)
    (howed : s'.owed = s.owed) (h : Fed s) : Feeds s s' (s.lobby.issues l) := by
  obtain ⟨hattended, hfeed⟩ := Lobby.fed_step h.attended hstep
  exact ⟨⟨hattended, howed ▸ h.owed⟩, hfeed⟩

/-- The block that registers a token publishes nothing, now or later. -/
theorem feeds_owes {fresh token : String} {handler : Handler} {ticket : JoinTicket} {lobby : Lobby}
    (hc : s.lobby.handler c = some handler) (hpc : handler.pc = .joinRegisterBinding ticket token)
    (hstep : s.lobby.step (.block c fresh) = some lobby) (h : Fed s) :
    Feeds s { s with
      lobby := { lobby with outboxes := s.lobby.outboxes }
      owed := Function.update s.owed c <|
        (Lobby.joinLetters c handler ticket token).map fun letter =>
          ⟨letter.1, letter.2, token⟩ } (s.lobby.issues (.block c fresh)) := by
  have hissues : s.lobby.issues (.block c fresh) = [] := by
    simp [Lobby.issues, Lobby.handler_eq_some.mp hc, hpc, Lobby.broadcastsTo]
  obtain ⟨hattended, hfeed⟩ := Lobby.fed_step h.attended hstep
  rw [hissues] at hfeed ⊢
  have hsame : Lobby.feed { lobby with outboxes := s.lobby.outboxes } = lobby.feed := by
    have hinbox : lobby.feed.inbox = s.lobby.feed.inbox := by
      cases hfeed with
      | edits _ hinbox => exact hinbox
      | rests _ _ hinbox => exact hinbox
    exact (congrArg (fun inbox => { lobby.feed with inbox := inbox }) hinbox).symm
  refine ⟨⟨⟨hattended.guarded, fun {c'} ho => ?_, hattended.tx⟩, fun c' post hpost => ?_⟩, ?_⟩
  · obtain ⟨k, hk⟩ := h.attended.outbox ho
    have hkept := Lobby.handler_of_step hstep (c := c') (by rw [Lobby.handler_eq_some.mpr hk]; rfl)
    obtain ⟨k', hk'⟩ := Option.isSome_iff_exists.mp hkept
    exact ⟨k', Lobby.handler_eq_some.mp hk'⟩
  · by_cases heq : c' = c
    · subst heq
      simp only [Function.update_self, Lobby.joinLetters, List.map_cons, List.map_nil] at hpost
      simp only [List.mem_cons, List.not_mem_nil, or_false] at hpost
      rcases hpost with rfl | rfl | rfl | rfl <;> rfl
    · simp only [Function.update_of_ne heq] at hpost
      exact h.owed c' post hpost
  · rw [hsame]
    exact hfeed

theorem feeds_block {fresh : String} (hstep : s.block c fresh = some s') (h : Fed s) :
    Feeds s s' (s.lobby.issues (.block c fresh)) := by
  obtain ⟨handler, hhandler, hstep⟩ := Option.bind_eq_some_iff.mp hstep
  obtain ⟨lobby, hlobby, heq⟩ := Option.map_eq_some_iff.mp hstep
  split at heq
  next hpc => exact heq ▸ feeds_owes hhandler hpc hlobby h
  next => exact heq ▸ feeds_step hlobby rfl h
  next => exact heq ▸ feeds_step hlobby rfl h
  next => exact heq ▸ feeds_step hlobby rfl h

theorem feeds_server {l : Lobby.Label} (hstep : s.server l = some s') (h : Fed s) :
    Feeds s s' (s.lobby.issues l) := by
  have hadvance : ∀ {l : Lobby.Label}, (s.lobby.step l).map (s.advance none) = some s' →
      Feeds s s' (s.lobby.issues l) := by
    intro l hstep
    obtain ⟨lobby, hlobby, rfl⟩ := Option.map_eq_some_iff.mp hstep
    exact feeds_step hlobby rfl h
  unfold Link.server at hstep
  split at hstep
  · split at hstep
    · exact feeds_block hstep h
    · cases hstep
  · split at hstep
    · exact hadvance hstep
    · cases hstep
  · obtain ⟨lobby, hlobby, rfl⟩ := Option.map_eq_some_iff.mp hstep
    unfold Link.sendFails
    split <;> exact feeds_step hlobby rfl h
  · split at hstep
    · cases hstep
    · exact hadvance hstep
  · exact hadvance hstep

/-- A message that a handler owed is no snapshot. -/
theorem feeds_send (hstep : s.send c = some s') (h : Fed s) : Feeds s s' [] := by
  unfold Link.send at hstep
  split at hstep
  next post rest howed =>
    cases hstep
    have hpost : isSnapshot post.message = false := h.owed c post (by simp [howed])
    have hletters : noSnapshot [(post.tx, post.message)] = true := by simp [noSnapshot, hpost]
    refine ⟨⟨?_, fun c' post' hpost' => ?_⟩, ?_⟩
    · refine h.attended.of_players rfl (fun c' => ?_) id
      change ((mail s.lobby.outboxes [(post.tx, post.message)]).get? c').isSome = _
      exact isSome_mail
    · by_cases heq : c' = c
      · subst heq
        simp only [Function.update_self] at hpost'
        exact h.owed c' post' (by simp [howed, hpost'])
      · simp only [Function.update_of_ne heq] at hpost'
        exact h.owed c' post' hpost'
    · refine .rests rfl id (funext fun c' => ?_)
      exact Lobby.inbox_mail hletters c'
  next => cases hstep

/-- The client does nothing to the server. -/
theorem goOn_track (l : Process.Label) (client : Process) :
    ((s.track l).goOn client).lobby = s.lobby ∧ ((s.track l).goOn client).owed = s.owed := by
  have htrack : (s.track l).lobby = s.lobby ∧ (s.track l).owed = s.owed := by
    unfold track
    split
    · split
      · unfold read
        split <;> exact ⟨rfl, rfl⟩
      · exact ⟨rfl, rfl⟩
    · split <;> exact ⟨rfl, rfl⟩
    · exact ⟨rfl, rfl⟩
  unfold goOn
  split <;> exact htrack

theorem feeds_of_step {l : Label} (hstep : s.step l = some s') (h : Fed s) :
    Feeds s s' (s.issues l) := by
  cases l with
  | server l => exact feeds_server hstep h
  | send c => exact feeds_send hstep h
  | connect c =>
      simp only [Link.step, Link.connect] at hstep
      split at hstep
      · obtain ⟨client, _, rfl⟩ := Option.map_eq_some_iff.mp hstep
        exact feeds_rests rfl rfl h
      · cases hstep
  | upload len =>
      obtain ⟨c, _, hstep⟩ := Option.bind_eq_some_iff.mp hstep
      obtain ⟨cmd, _, hstep⟩ := Option.bind_eq_some_iff.mp hstep
      obtain ⟨lobby, hlobby, hstep⟩ := Option.bind_eq_some_iff.mp hstep
      obtain ⟨client, _, rfl⟩ := Option.map_eq_some_iff.mp hstep
      have hfeeds : Feeds s { s.advance none lobby with client := client } (s.lobby.issues _) :=
        feeds_step hlobby rfl h
      exact hfeeds
  | arrive =>
      simp only [Link.step, Link.arrive] at hstep
      split at hstep
      · split at hstep
        · obtain ⟨p, _, rfl⟩ := Option.map_eq_some_iff.mp hstep
          exact feeds_rests rfl rfl h
        · cases hstep
      · cases hstep
  | client l =>
      simp only [Link.step, Link.run] at hstep
      split at hstep
      · obtain ⟨client, _, rfl⟩ := Option.map_eq_some_iff.mp hstep
        obtain ⟨hlobby, howed⟩ := goOn_track (s := s) l client
        exact feeds_rests hlobby howed h
      · cases hstep

/-- In every run of the client and the server the queues follow the broadcasts made. -/
theorem follows_of_trace {config : AppConfig} {log : List (Issue Snapshot SocketId ServerMessage)}
    (htrace : (machine config).Trace issues log s) :
    Fed s ∧ s.lobby.feed.Follows log ∧ ∀ e ∈ log, ∀ c,
      (e.taken c).Sublist [e.content.players, e.content.rooms] := by
  refine htrace.invariant (I := fun log s => Fed s ∧ s.lobby.feed.Follows log ∧ ∀ e ∈ log, ∀ c,
    (e.taken c).Sublist [e.content.players, e.content.rooms]) ?_ ?_
  · exact ⟨⟨Lobby.attended_start, fun c post hpost => by cases hpost⟩, .start fun _ => rfl, by simp⟩
  · intro log s l s' _ ⟨hfed, hfollows, hown⟩ hstep
    obtain ⟨hfed', hfeed⟩ := feeds_of_step hstep hfed
    refine ⟨hfed', hfollows.step hfeed, fun e he c => ?_⟩
    rcases List.mem_append.mp he with he | he
    · exact hown e he c
    · rw [eq_issue_of_mem he]
      exact hfed.attended.sublist_taken_issue c

/-- Between operations of the server, with nothing left on the way, the lobby of the client shows
the players and the rooms of the server as they are, if the queue took the last broadcast. -/
theorem shownBy_of_trace {config : AppConfig} {log : List (Issue Snapshot SocketId ServerMessage)}
    {last : Issue Snapshot SocketId ServerMessage} (htrace : (machine config).Trace issues log s)
    (hconn : s.conn = some c) (hin : s.client.network.inSession = true)
    (hsends : s.lobby.sends c = true) (hquiet : s.lobby.quiescent = true)
    (hlast : last ∈ log.getLast?) (hreaches : Lobby.Reaches last c) (hwire : s.wire = [])
    (hevents : s.client.events = []) :
    s.lobby.app.ShownBy s.client.app.players s.client.app.rooms := by
  obtain ⟨-, hfollows, hown⟩ := follows_of_trace htrace
  obtain ⟨players, rooms, hp, hr, hshown⟩ := s.lobby.app.shownBy_snapshot
  obtain ⟨hlatestPlayers, hlatestRooms⟩ :=
    Lobby.latest_of_reaches hfollows hown hquiet hlast hreaches
  rw [hp] at hlatestPlayers
  rw [hr] at hlatestRooms
  -- Nothing is on the way, so the app shows what the queue has taken.
  have hsettled : Shown.ofApp s.client.app = s.coming := by
    rw [coming, settled, hevents, hwire, List.drop_nil]
    rfl
  rw [(mirrors_of_reachable htrace.reachable).session c hconn hin hsends] at hsettled
  have happPlayers : s.client.app.players = players :=
    (congrArg Shown.players hsettled).trans (Shown.players_hearAll hlatestPlayers)
  have happRooms : s.client.app.rooms = rooms :=
    (congrArg Shown.rooms hsettled).trans (Shown.rooms_hearAll hlatestRooms)
  rw [happPlayers, happRooms]
  exact hshown

/-- A client registers, and its lobby shows it as the server knows it. -/
theorem shownBy_entered : ∃ s : Link, s.client.app.players.map (·.nickname) = ["a"] ∧
    s.lobby.app.ShownBy s.client.app.players s.client.app.rooms := by
  have hrun : ((machine Process.somebody).exec (machine Process.somebody).init enters).any
      (fun s => decide (s.conn = some 0) && s.client.network.inSession && s.lobby.sends 0 &&
        s.lobby.quiescent && s.wire.isEmpty && s.client.events.isEmpty &&
        decide (s.client.app.players.map (·.nickname) = ["a"])) = true := by decide
  have hlog : ((machine Process.somebody).report issues (machine Process.somebody).init
      enters).getLast?.any (fun last =>
        decide (last.taken 0 = [last.content.players, last.content.rooms])) = true := by decide
  obtain ⟨s, hexec, _, htest⟩ := Machine.exists_reachable_of_exec hrun
  simp only [Bool.and_eq_true, decide_eq_true_eq, List.isEmpty_iff] at htest
  obtain ⟨⟨⟨⟨⟨⟨hconn, hin⟩, hsends⟩, hquiet⟩, hwire⟩, hevents⟩, hnames⟩ := htest
  obtain ⟨last, hlast, htaken⟩ := (Option.any_eq_true _ _).mp hlog
  have hreaches : Lobby.Reaches last 0 := by simp [Lobby.Reaches, of_decide_eq_true htaken]
  have htrace := Machine.trace_of_exec (f := issues) hexec
  exact ⟨s, hnames, shownBy_of_trace htrace hconn hin hsends hquiet hlast hreaches hwire hevents⟩

end Link

end War3BattleTool.System
