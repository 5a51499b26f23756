import War3BattleTool.Server.News
import War3BattleTool.Server.Sections
import War3BattleTool.Server.Tokens

set_option autoImplicit false

/-!
# Who is shown an address or a token

Four kinds of letters show a client an address, a token or the id it was given (`Shows`); every
other message of the server is plain (`shown_of_step`).  The ids of the players are no secret: a
broadcast lists them all, and is plain.  A run keeps record of what clients asked for and what the
server agreed to (`Ground`), and every address and token that a queue takes is warranted by that
record (`entitled_of_trace`): nobody but the two parties of a join is told of it.
-/

namespace War3BattleTool.Server

open War3BattleTool.Foundation War3BattleTool.Protocol

/-- The message carries no address and no token, and is no `Welcome`. -/
def isPlain : ServerMessage → Bool
  | .playerUpdate _ | .roomUpdate _ | .pong _ | .error _ => true
  | .joinResult _ _ tunnelToken _ => tunnelToken.isNone
  | _ => false

namespace Lobby

variable {s s' : Lobby} {c : SocketId} {h : Handler}

/-! ## Letters -/

/-- The letters that a handler sends at a position and that are not plain. -/
inductive Shows (s : Lobby) (c : SocketId) (h : Handler) :
    HandlerPc → SocketId × ServerMessage → Prop
  | welcome {nickname : String} {war3Version : War3Version} {lastHeartbeat : Instant} :
      Shows s c h (.registerInsert nickname war3Version lastHeartbeat) (c, .welcome h.playerId)
  | observed {nickname : String} {war3Version : War3Version} {lastHeartbeat : Instant} :
      Shows s c h (.registerInsert nickname war3Version lastHeartbeat)
        (c, .yourObservedAddr h.clientIp)
  | party {ticket : JoinTicket} {tunnelToken : String} {letter : SocketId × ServerMessage}
      (hletter : letter ∈ joinLetters c h ticket tunnelToken) :
      Shows s c h (.joinRegisterBinding ticket tunnelToken) letter
  | forward {externalAddr joinerPlayerId : String} {letter : SocketId × ServerMessage}
      (hletter : letter ∈ s.forwardLetters externalAddr joinerPlayerId) :
      Shows s c h (.upnpForward externalAddr joinerPlayerId) letter

/-- A step mails letters of its position, and plain ones. -/
def Mails (s : Lobby) (c : SocketId) (h : Handler) (pc : HandlerPc) (s' : Lobby) : Prop :=
  ∃ letters, s'.outboxes = mail s.outboxes letters ∧
    ∀ letter ∈ letters, isPlain letter.2 = true ∨ Shows s c h pc letter

theorem mails_nothing {pc : HandlerPc} (houtboxes : s'.outboxes = s.outboxes) :
    Mails s c h pc s' :=
  ⟨[], houtboxes, fun _ hmem => absurd hmem List.not_mem_nil⟩

theorem mails_plain {pc : HandlerPc} {tx : SocketId} {m : ServerMessage} (hm : isPlain m = true)
    (houtboxes : s'.outboxes = offer s.outboxes tx m) : Mails s c h pc s' :=
  ⟨[(tx, m)], houtboxes, fun letter hmem => .inl (by rwa [List.mem_singleton.mp hmem])⟩

theorem mails_broadcast {pc : HandlerPc}
    (houtboxes : s'.outboxes = s.app.broadcastState s.outboxes) : Mails s c h pc s' := by
  refine ⟨_, houtboxes.trans (s.app.broadcastState_eq s.outboxes), fun letter hletter => .inl ?_⟩
  rcases AppState.mem_broadcastLetters hletter with heq | heq <;> rw [heq] <;> rfl

theorem mails_block {fresh : String} (hstep : s.block c h fresh = some s') :
    Mails s c h h.pc s' := by
  have harm := arm_of_block hstep
  generalize h.pc = pc at harm
  cases harm with
  | registerInsert nickname war3Version lastHeartbeat =>
      unfold registerInsert
      dsimp only
      split
      · refine ⟨[(c, .welcome h.playerId)], rfl, fun letter hmem => .inr ?_⟩
        rw [List.mem_singleton.mp hmem]
        exact .welcome
      · refine ⟨[(c, .welcome h.playerId), (c, .yourObservedAddr h.clientIp)], rfl,
          fun letter hmem => .inr ?_⟩
        rcases List.mem_pair.mp hmem with rfl | rfl
        · exact .welcome
        · exact .observed
  | joinRegisterBinding ticket tunnelToken hstep =>
      obtain ⟨tunnel, _, rfl⟩ := Option.map_eq_some_iff.mp hstep
      exact ⟨joinLetters c h ticket tunnelToken, rfl, fun _ hmem => .inr (.party hmem)⟩
  | upnpForward externalAddr joinerPlayerId =>
      exact ⟨_, outboxes_upnpForward externalAddr joinerPlayerId,
        fun _ hmem => .inr (.forward hmem)⟩
  | broadcast | finalBroadcast => exact mails_broadcast rfl
  | createInsert draft hstep =>
      unfold createInsert at hstep
      split at hstep <;> cases hstep
      exact mails_nothing rfl
  | joinRegisterPending ticket hstep =>
      obtain ⟨tunnel, _, rfl⟩ := Option.map_eq_some_iff.mp hstep
      exact mails_nothing rfl
  | registerCount nickname war3Version =>
      unfold registerCount
      split
      · exact mails_plain rfl rfl
      · exact mails_nothing rfl
  | createRead request =>
      unfold createRead
      split
      · split
        · exact mails_plain rfl rfl
        · exact mails_nothing rfl
      · exact mails_nothing rfl
  | createCount draft =>
      unfold createCount
      split
      · exact mails_plain rfl rfl
      · exact mails_nothing rfl
  | joinRoom roomId =>
      unfold joinRoom
      split
      · exact mails_nothing rfl
      · exact mails_plain rfl rfl
  | joinPlayers quote =>
      unfold joinPlayers
      split
      · exact mails_nothing rfl
      · split
        · exact mails_plain rfl rfl
        · split
          · exact mails_nothing rfl
          · exact mails_plain rfl rfl
  | joinReserve ticket =>
      unfold joinReserve
      split
      · exact mails_nothing rfl
      · exact mails_plain rfl rfl
  | joinRecord ticket =>
      dsimp only [joinRecord]
      split <;> exact mails_nothing rfl
  | leaving =>
      unfold leaving
      split
      · split <;> exact mails_nothing rfl
      · exact mails_nothing rfl
  | _ => exact mails_nothing rfl

theorem mails_frame (item : Incoming) : Mails s c h h.pc (s.frame c h item) := by
  have hframed := framed s c h item
  generalize s.frame c h item = s' at hframed ⊢
  cases hframed with
  | tooLong | refused => exact mails_plain rfl rfl
  | @passed len externalIp m =>
      have hdispatched := dispatched (s.put c (s.counted h)) c (s.counted h) m externalIp
      generalize (s.put c (s.counted h)).dispatch c (s.counted h) m externalIp = s''
        at hdispatched ⊢
      cases hdispatched with
      | refused | answered => exact mails_plain rfl rfl
      | _ => exact mails_nothing rfl
  | _ => exact mails_nothing rfl

theorem mem_accepted_mail {outboxes : Table SocketId Outbox}
    {letters : List (SocketId × ServerMessage)} {m : ServerMessage}
    (hm : m ∈ accepted (mail outboxes letters) c) :
    m ∈ accepted outboxes c ∨ (c, m) ∈ letters := by
  rw [accepted_mail] at hm
  exact (List.mem_append.mp hm).imp_right fun hnew => mem_addressed.mp (List.mem_of_mem_take hnew)

theorem Mails.mem {pc : HandlerPc} (h' : Mails s c h pc s') {tx : SocketId} {m : ServerMessage}
    (hm : m ∈ accepted s'.outboxes tx) :
    m ∈ accepted s.outboxes tx ∨ isPlain m = true ∨ Shows s c h pc (tx, m) := by
  obtain ⟨letters, houtboxes, hletters⟩ := h'
  rw [houtboxes] at hm
  exact (mem_accepted_mail hm).imp_right fun hletter => hletters _ hletter

/-- A message that a queue takes in a step is plain, or shown by the block that the step is. -/
theorem shown_of_step {l : Label} {tx : SocketId} {m : ServerMessage}
    (hstep : s.step l = some s') (hm : m ∈ accepted s'.outboxes tx) :
    m ∈ accepted s.outboxes tx ∨ isPlain m = true ∨ ∃ c fresh h, l = .block c fresh ∧
      s.sockets.get? c = some (.running h) ∧ Shows s c h h.pc (tx, m) := by
  cases l with
  | elapse d =>
      cases hstep
      exact .inl hm
  | tunnel l =>
      simp only [step] at hstep
      split at hstep
      · obtain ⟨tunnel, _, rfl⟩ := Option.map_eq_some_iff.mp hstep
        exact .inl hm
      · cases hstep
  | request c originOk clientIp =>
      simp only [step, request] at hstep
      split at hstep
      · cases hstep
      · split at hstep <;> cases hstep <;> exact .inl hm
  | upgrade c playerId =>
      simp only [step] at hstep
      split at hstep
      · split at hstep
        · unfold upgraded at hstep
          split at hstep <;> cases hstep
          simp only [accepted, put, Table.get?_insert] at hm
          split at hm
          · cases hm
          · exact .inl hm
        · cases hstep
          exact .inl hm
      · cases hstep
  | frame c item =>
      obtain ⟨h, _, hframe⟩ := whenRunning_eq_some hstep
      split at hframe <;> cases hframe
      next hpc =>
        refine ((mails_frame item).mem hm).imp_right fun hnew => hnew.imp_right fun hshows => ?_
        rw [hpc] at hshows
        cases hshows
  | block c fresh =>
      obtain ⟨h, hc, hblock⟩ := whenRunning_eq_some hstep
      exact ((mails_block hblock).mem hm).imp_right fun hnew => hnew.imp_right fun hshows =>
        ⟨c, fresh, h, rfl, hc, hshows⟩
  | drop c =>
      obtain ⟨h, _, hdrop⟩ := whenRunning_eq_some hstep
      split at hdrop <;> cases hdrop
      exact .inl hm
  | sent c ok =>
      obtain ⟨o, ho, hsent⟩ := Option.bind_eq_some_iff.mp hstep
      obtain ⟨o', hpop, rfl⟩ := Option.map_eq_some_iff.mp hsent
      rw [accepted_pop ho hpop] at hm
      exact .inl hm
  | cleanup =>
      simp only [step, cleanupStep] at hstep
      split at hstep
      · split at hstep <;> cases hstep
        exact .inl hm
      · cases hstep
        exact .inl hm
      · cases hstep
        exact .inl hm
      · cases hstep
        rw [show (s.broadcastState).outboxes = _ from s.app.broadcastState_eq s.outboxes] at hm
        refine (mem_accepted_mail hm).imp_right fun hletter => .inl ?_
        rcases AppState.mem_broadcastLetters hletter with heq | heq <;>
          exact congrArg isPlain heq
      · cases hstep
        exact .inl hm
      · cases hstep
        exact .inl hm

end Lobby

/-! ## The record of a run -/

/-- A join that the server agreed to: the token, the room, and the two connections with their
addresses. -/
structure Deal where
  token : String
  roomId : String
  joiner : SocketId
  host : SocketId
  joinerIp : IpAddr
  hostIp : IpAddr
  joinerId : String

/-- What the record of a run holds. -/
inductive Ground where
  /-- the client asked to join this room -/
  | asked (c : SocketId) (roomId : String)
  /-- the client said that this address is mapped to it for the join of the token, and the address
  is safe -/
  | mapped (c : SocketId) (externalAddr tunnelToken : String)
  /-- the client's room is there -/
  | created (c : SocketId) (roomId : String)
  /-- the server agreed to a join -/
  | deal (d : Deal)

namespace Lobby

/-- What the block at a position adds to the record. -/
def blockGrounds (c : SocketId) (h : Handler) (fresh : String) : HandlerPc → List Ground
  | .createInsert _ => [.created c fresh]
  | .joinRegisterPending ticket =>
      [.deal ⟨fresh, ticket.quote.roomId, c, ticket.hostTx, h.clientIp, ticket.hostIp,
        h.playerId⟩]
  | _ => []

/-- What a step adds to the record. -/
def grounds (s : Lobby) : Label → List Ground
  | .frame c (.text _ (some (.joinRoom roomId)) _) => [.asked c roomId]
  | .frame c (.text _ (some (.upnpMapped externalAddr tunnelToken)) (some ip)) =>
      if isSafeExternalAddr ip then [.mapped c externalAddr tunnelToken] else []
  | .block c fresh =>
      match s.handler c with
      | some h => blockGrounds c h fresh h.pc
      | none => []
  | _ => []

/-- The id and the address of a connection. -/
def who (s : Lobby) (c : SocketId) : Option (String × IpAddr) :=
  (s.handler c).map fun h => (h.playerId, h.clientIp)

/-- The record justifies the deal: the joiner asked for the room, the host created it, and the
addresses are theirs. -/
structure Genuine (s : Lobby) (log : List Ground) (d : Deal) : Prop where
  asked : .asked d.joiner d.roomId ∈ log
  created : .created d.host d.roomId ∈ log
  joiner : s.who d.joiner = some (d.joinerId, d.joinerIp)
  host : ∃ hostId, s.who d.host = some (hostId, d.hostIp)

/-- The record entitles the client of a connection to a message. -/
def Entitled (s : Lobby) (log : List Ground) (c : SocketId) : ServerMessage → Prop
  | .welcome playerId => ∃ ip, s.who c = some (playerId, ip)
  | .yourObservedAddr ip => ∃ playerId, s.who c = some (playerId, ip)
  | .stunInfo ip => ∃ d, .deal d ∈ log ∧
      (d.joiner = c ∧ d.hostIp = ip ∨ d.host = c ∧ d.joinerIp = ip)
  | .joinResult _ _ tunnelToken _ =>
      ∀ token ∈ tunnelToken, ∃ d, .deal d ∈ log ∧ d.joiner = c ∧ d.token = token
  | .playerJoined _ token => ∃ d, .deal d ∈ log ∧ d.host = c ∧ d.token = token
  | .peerUPnPAddr externalAddr => ∃ d sender hostId, .deal d ∈ log ∧ d.joiner = c ∧
      s.who sender = some (hostId, d.hostIp) ∧ .mapped sender externalAddr d.token ∈ log
  | .tunnelReady _ | .unknown => False
  | .playerUpdate _ | .roomUpdate _ | .pong _ | .error _ => True

variable {s s' : Lobby} {c : SocketId} {h : Handler} {log log' : List Ground}

theorem entitled_of_plain {m : ServerMessage} (hm : isPlain m = true) : Entitled s log c m := by
  cases m with
  | joinResult success roomId tunnelToken gameinfo =>
      rintro token rfl
      cases hm
  | playerUpdate | roomUpdate | pong | error => trivial
  | _ => cases hm

/-! ## Who is who -/

theorem who_running (hc : s.sockets.get? c = some (.running h)) :
    s.who c = some (h.playerId, h.clientIp) := by
  rw [who, handler_eq_some.mpr hc]
  rfl

/-- A connection keeps its id and its address. -/
theorem who_of_step {l : Label} (hstep : s.step l = some s') {w : String × IpAddr}
    (hw : s.who c = some w) : s'.who c = some w := by
  obtain ⟨h, hc, rfl⟩ := Option.map_eq_some_iff.mp hw
  rw [handler_eq_some] at hc
  cases hown : isOwn c s l with
  | true =>
      obtain ⟨k, h', hk, hm⟩ := moves_of_own hstep hown
      obtain rfl : h = k := by simpa [hk] using hc.symm
      rw [who_running hm.get?_self, hm.playerId, hm.clientIp]
  | false => exact who_running (get?_sockets_of_other hstep hc hown)

/-- No two connections have the same id. -/
theorem who_unique (hreach : machine.Reachable s) {c' : SocketId} {id : String} {ip ip' : IpAddr}
    (hc : s.who c = some (id, ip)) (hc' : s.who c' = some (id, ip')) : c = c' := by
  obtain ⟨h, hh, heq⟩ := Option.map_eq_some_iff.mp hc
  obtain ⟨h', hh', heq'⟩ := Option.map_eq_some_iff.mp hc'
  rw [handler_eq_some] at hh hh'
  have hout : ∀ h : Handler, h.party.stage ≠ .outside := by
    intro h hstage
    cases hpc : h.pc <;> simp [Handler.party, hpc, HandlerPc.stage] at hstage
  refine (sound_of_reachable hreach).unique (parties_roster hh) (parties_roster hh') (hout h)
    (hout h') ?_
  exact (congrArg Prod.fst heq).trans (congrArg Prod.fst heq').symm

/-! ## What the record says of the server -/

/-- The room was created on a connection with this id. -/
def RoomOf (s : Lobby) (log : List Ground) (roomId hostId : String) : Prop :=
  ∃ c ip, .created c roomId ∈ log ∧ s.who c = some (hostId, ip)

/-- The locals of a handler are warranted by the record. -/
def Warranted (s : Lobby) (log : List Ground) (c : SocketId) (h : Handler) : HandlerPc → Prop
  | .joinRoom roomId => .asked c roomId ∈ log
  | .joinPlayers quote => .asked c quote.roomId ∈ log ∧ s.RoomOf log quote.roomId quote.hostPlayerId
  | .joinReserve ticket | .joinRegisterPending ticket => .asked c ticket.quote.roomId ∈ log ∧
      .created ticket.hostTx ticket.quote.roomId ∈ log ∧
        ∃ hostId, s.who ticket.hostTx = some (hostId, ticket.hostIp)
  | .joinRegisterBinding ticket tunnelToken =>
      .deal ⟨tunnelToken, ticket.quote.roomId, c, ticket.hostTx, h.clientIp, ticket.hostIp,
        h.playerId⟩ ∈ log
  | .upnpLookup externalAddr tunnelToken => .mapped c externalAddr tunnelToken ∈ log
  | .upnpForward externalAddr joinerPlayerId => ∃ d, .deal d ∈ log ∧
      .mapped c externalAddr d.token ∈ log ∧ d.hostIp = h.clientIp ∧ d.joinerId = joinerPlayerId
  | _ => True

/-- The record accounts for everything that the server knows and has sent. -/
structure Grounded (s : Lobby) (log : List Ground) : Prop where
  players : ∀ {id p}, s.app.players.get? id = some p → s.who p.tx = some (id, p.clientIp)
  rooms : ∀ {roomId r}, s.app.rooms.get? roomId = some r → s.RoomOf log roomId r.hostPlayerId
  handlers : ∀ {c h}, s.sockets.get? c = some (.running h) → s.Warranted log c h h.pc
  deals : ∀ {d}, .deal d ∈ log → s.Genuine log d
  pending : ∀ {token e}, s.tunnel.tunnel.upnpPending.get? token = some e →
    ∃ d, .deal d ∈ log ∧ d.token = token ∧ d.hostIp = e.hostIp ∧ d.joinerId = e.joinerPlayerId
  queues : ∀ {c m}, m ∈ accepted s.outboxes c → s.Entitled log c m

/-- The record grows, and connections stay who they are. -/
structure Grows (s : Lobby) (log : List Ground) (s' : Lobby) (log' : List Ground) : Prop where
  log : log ⊆ log'
  who : ∀ {c w}, s.who c = some w → s'.who c = some w

variable {roomId hostId : String} {d : Deal} {m : ServerMessage}

theorem RoomOf.mono (hg : Grows s log s' log') (h : s.RoomOf log roomId hostId) :
    s'.RoomOf log' roomId hostId := by
  obtain ⟨c, ip, hcreated, hwho⟩ := h
  exact ⟨c, ip, hg.log hcreated, hg.who hwho⟩

theorem Genuine.mono (hg : Grows s log s' log') (h : s.Genuine log d) : s'.Genuine log' d where
  asked := hg.log h.asked
  created := hg.log h.created
  joiner := hg.who h.joiner
  host := h.host.imp fun _ hhost => hg.who hhost

theorem Warranted.mono (hg : Grows s log s' log') {pc : HandlerPc}
    (hw : s.Warranted log c h pc) : s'.Warranted log' c h pc := by
  cases pc with
  | joinRoom | upnpLookup | joinRegisterBinding => exact hg.log hw
  | joinPlayers quote => exact ⟨hg.log hw.1, hw.2.mono hg⟩
  | joinReserve ticket | joinRegisterPending ticket =>
      exact ⟨hg.log hw.1, hg.log hw.2.1, hw.2.2.imp fun _ hhost => hg.who hhost⟩
  | upnpForward => exact hw.imp fun _ hd => ⟨hg.log hd.1, hg.log hd.2.1, hd.2.2⟩
  | _ => trivial

theorem Entitled.mono (hg : Grows s log s' log') (he : s.Entitled log c m) :
    s'.Entitled log' c m := by
  cases m with
  | welcome | yourObservedAddr => exact he.imp fun _ hwho => hg.who hwho
  | stunInfo | playerJoined => exact he.imp fun _ hd => ⟨hg.log hd.1, hd.2⟩
  | joinResult => exact fun token htoken => (he token htoken).imp fun _ hd => ⟨hg.log hd.1, hd.2⟩
  | peerUPnPAddr =>
      obtain ⟨d, sender, hostId, hd, hjoiner, hsender, hmapped⟩ := he
      exact ⟨d, sender, hostId, hg.log hd, hjoiner, hg.who hsender, hg.log hmapped⟩
  | tunnelReady | unknown => exact he
  | playerUpdate | roomUpdate | pong | error => trivial

/-! ## What a step does to players and rooms -/

/-- Every player was there, with the same queue and address. -/
def SourcesKept (a a' : AppState) : Prop :=
  ∀ id p', a'.players.get? id = some p' →
    ∃ p, a.players.get? id = some p ∧ p'.tx = p.tx ∧ p'.clientIp = p.clientIp

/-- Every room was there, with the same host. -/
def HostsKept (a a' : AppState) : Prop :=
  ∀ id r', a'.rooms.get? id = some r' →
    ∃ r, a.rooms.get? id = some r ∧ r'.hostPlayerId = r.hostPlayerId

section Kept

variable {a a' : AppState}

theorem sourcesKept_of_players (hsame : a'.players = a.players) : SourcesKept a a' :=
  fun _ p' hp' => ⟨p', hsame ▸ hp', rfl, rfl⟩

theorem sourcesKept_modify (id : String) {f : ConnectedPlayer → ConnectedPlayer}
    (htx : ∀ p, (f p).tx = p.tx) (hip : ∀ p, (f p).clientIp = p.clientIp) :
    SourcesKept a (a.modifyPlayer id f) := by
  intro id' p' hp'
  simp only [AppState.modifyPlayer, Table.get?_modify] at hp'
  split at hp'
  · obtain ⟨p, hp, rfl⟩ := Option.map_eq_some_iff.mp hp'
    exact ⟨p, hp, htx p, hip p⟩
  · exact ⟨p', hp', rfl, rfl⟩

theorem sourcesKept_take (id : String) : SourcesKept a (a.takePlayer id).1 := by
  intro id' p' hp'
  simp only [AppState.takePlayer, Table.get?_remove] at hp'
  split at hp'
  · cases hp'
  · exact ⟨p', hp', rfl, rfl⟩

theorem hostsKept_of_rooms (hsame : a'.rooms = a.rooms) : HostsKept a a' :=
  fun _ r' hr' => ⟨r', hsame ▸ hr', rfl⟩

theorem hostsKept_modify (id : String) {f : Room → Room}
    (hf : ∀ r, (f r).hostPlayerId = r.hostPlayerId) : HostsKept a (a.modifyRoom id f) := by
  intro id' r' hr'
  simp only [AppState.modifyRoom, Table.get?_modify] at hr'
  split at hr'
  · obtain ⟨r, hr, rfl⟩ := Option.map_eq_some_iff.mp hr'
    exact ⟨r, hr, hf r⟩
  · exact ⟨r', hr', rfl⟩

theorem hostsKept_remove (id : String) : HostsKept a (a.removeRoom id) := by
  intro id' r' hr'
  simp only [AppState.removeRoom, Table.get?_remove] at hr'
  split at hr'
  · cases hr'
  · exact ⟨r', hr', rfl⟩

theorem hostsKept_clear (hostingRoom joinedRoom : Option String) :
    HostsKept a (a.clearRooms hostingRoom joinedRoom) := by
  intro id r' hr'
  rw [clearRooms_eq] at hr'
  obtain ⟨r, n, hr, rfl⟩ := get?_clearRooms hr'
  exact ⟨r, hr, rfl⟩

end Kept

/-- A player was there, or enters from its own connection. -/
theorem player_of_step {l : Label} (hstep : s.step l = some s') {id : String}
    {p' : ConnectedPlayer} (hp' : s'.app.players.get? id = some p') :
    (∃ p, s.app.players.get? id = some p ∧ p'.tx = p.tx ∧ p'.clientIp = p.clientIp) ∨
      s'.who p'.tx = some (id, p'.clientIp) := by
  rcases writer_of_step hstep (.inl rfl) with hsame | ⟨c, fresh, h, rfl, hc, hlock, hblock⟩ |
    ⟨rfl, hcleanup⟩
  · exact .inl (sourcesKept_of_players hsame id p' hp')
  · have hwho := who_of_step hstep (who_running hc)
    have harm := arm_of_block hblock
    generalize h.pc = pc at harm hlock
    cases harm with
    | registerInsert nickname war3Version lastHeartbeat =>
        have happ : (s.registerInsert c h nickname war3Version lastHeartbeat).app =
            s.app.insertPlayer ⟨h.playerId, nickname, war3Version, h.clientIp, lastHeartbeat, c,
              none, none, none⟩ := by
          unfold registerInsert
          dsimp only
          split <;> rfl
        rw [happ, AppState.insertPlayer, Table.get?_insert] at hp'
        split at hp'
        next heq =>
          cases hp'
          rw [heq]
          exact .inr hwho
        next => exact .inl ⟨p', hp', rfl, rfl⟩
    | heartbeat | createLink | closeTake =>
        refine .inl ((?_ : SourcesKept s.app _) id p' hp')
        exact sourcesKept_modify _ (fun _ => rfl) fun _ => rfl
    | joinRecord ticket =>
        left
        unfold joinRecord at hp'
        dsimp only at hp'
        split at hp' <;> refine (?_ : SourcesKept s.app _) id p' hp' <;>
          exact sourcesKept_modify _ (fun _ => rfl) fun _ => rfl
    | leaving =>
        left
        unfold leaving at hp'
        split at hp'
        · split at hp'
          next app hostingRoom joinedRoom htaken =>
            obtain rfl : _ = app := congrArg Prod.fst htaken
            exact sourcesKept_take _ id p' hp'
          next => exact ⟨p', hp', rfl, rfl⟩
        · refine (?_ : SourcesKept s.app _) id p' hp'
          exact sourcesKept_modify _ (fun _ => rfl) fun _ => rfl
    | _ => simp [HandlerPc.locks, broadcastLocks] at hlock
  · left
    unfold cleanupStep at hcleanup
    split at hcleanup
    · split at hcleanup <;> cases hcleanup
      exact ⟨p', hp', rfl, rfl⟩
    · cases hcleanup
      exact ⟨p', hp', rfl, rfl⟩
    · cases hcleanup
      exact ⟨p', hp', rfl, rfl⟩
    · cases hcleanup
      exact ⟨p', hp', rfl, rfl⟩
    · cases hcleanup
      exact sourcesKept_take _ id p' hp'
    · cases hcleanup
      exact sourcesKept_of_players
        (by rw [clearRooms_eq]) id p' hp'

/-- A room was there, or its host creates it. -/
theorem room_of_step {l : Label} (hstep : s.step l = some s') {id : String} {r' : Room}
    (hr' : s'.app.rooms.get? id = some r') :
    (∃ r, s.app.rooms.get? id = some r ∧ r'.hostPlayerId = r.hostPlayerId) ∨
      ∃ c, .created c id ∈ s.grounds l ∧ ∃ ip, s.who c = some (r'.hostPlayerId, ip) := by
  rcases writer_of_step hstep (.inr rfl) with hsame | ⟨c, fresh, h, rfl, hc, hlock, hblock⟩ |
    ⟨rfl, hcleanup⟩
  · exact .inl (hostsKept_of_rooms hsame id r' hr')
  · have hgrounds : s.grounds (.block c fresh) = blockGrounds c h fresh h.pc := by
      simp only [grounds, handler_eq_some.mpr hc]
    have harm := arm_of_block hblock
    generalize h.pc = pc at harm hlock hgrounds
    cases harm with
    | createInsert draft hcreate =>
        unfold createInsert at hcreate
        split at hcreate <;> cases hcreate
        replace hr' : (s.app.rooms.insert fresh (draft.room fresh h.playerId)).get? id =
          some r' := hr'
        rw [Table.get?_insert] at hr'
        split at hr'
        next heq =>
          cases hr'
          rw [hgrounds, heq]
          exact .inr ⟨c, List.mem_singleton_self _, h.clientIp, who_running hc⟩
        next => exact .inl ⟨r', hr', rfl⟩
    | closeRemove roomId => exact .inl (hostsKept_remove roomId id r' hr')
    | joinReserve ticket =>
        left
        unfold joinReserve at hr'
        split at hr'
        next app hreserve =>
          unfold AppState.reserveSlot at hreserve
          split at hreserve
          · split at hreserve <;> cases hreserve
            refine (?_ : HostsKept s.app _) id r' hr'
            exact hostsKept_modify _ fun _ => rfl
          · cases hreserve
        next => exact ⟨r', hr', rfl⟩
    | joinReleaseOld oldId =>
        refine .inl ((?_ : HostsKept s.app _) id r' hr')
        exact hostsKept_modify _ fun _ => rfl
    | removeRooms hostingRoom joinedRoom => exact .inl (hostsKept_clear _ _ id r' hr')
    | _ => simp [HandlerPc.locks, broadcastLocks] at hlock
  · left
    unfold cleanupStep at hcleanup
    split at hcleanup
    · split at hcleanup <;> cases hcleanup
      exact ⟨r', hr', rfl⟩
    · cases hcleanup
      exact ⟨r', hr', rfl⟩
    · cases hcleanup
      exact ⟨r', hr', rfl⟩
    · cases hcleanup
      exact ⟨r', hr', rfl⟩
    · cases hcleanup
      exact ⟨r', hr', rfl⟩
    · cases hcleanup
      exact hostsKept_clear _ _ id r' hr'

/-! ## What a step does to a handler -/

variable {h' : Handler} {fresh : String}

theorem grounds_block (hc : s.sockets.get? c = some (.running h)) :
    s.grounds (.block c fresh) = blockGrounds c h fresh h.pc := by
  simp only [grounds, handler_eq_some.mpr hc]

/-- A frame leaves the handler where nothing is claimed of it, or begins the arm of a message
that is on record. -/
theorem warranted_frame (hc : s.sockets.get? c = some (.running h)) (hpc : h.pc = .receiving)
    (item : Incoming) (hc' : (s.frame c h item).sockets.get? c = some (.running h')) :
    s.Warranted (s.grounds (.frame c item)) c h' h'.pc := by
  have hput : ∀ k, (s.put c k).sockets.get? c = some (.running k) := by
    intro k
    rw [get?_put hc, Function.update_self]
  have hresting : ∀ {k : Handler}, k.pc = .receiving →
      s.Warranted (s.grounds (.frame c item)) c k k.pc := by
    intro k hk
    rw [hk]
    trivial
  have hcounted : (s.counted h).pc = .receiving := hpc
  have hframed := framed s c h item
  generalize s.frame c h item = s' at hframed hc'
  cases hframed with
  | left =>
      rw [hput] at hc'
      cases hc'
      unfold Handler.exit
      dsimp only
      split <;> trivial
  | ignored | tooLong =>
      replace hc' : s.sockets.get? c = some (.running h') := hc'
      rw [hc] at hc'
      cases hc'
      exact hresting hpc
  | refused =>
      replace hc' : (s.put c (s.counted h)).sockets.get? c = some (.running h') := hc'
      rw [hput] at hc'
      cases hc'
      exact hresting hcounted
  | @passed len externalIp m =>
      have hdispatched := dispatched (s.put c (s.counted h)) c (s.counted h) m externalIp
      generalize (s.put c (s.counted h)).dispatch c (s.counted h) m externalIp = s''
        at hdispatched hc'
      cases hdispatched with
      | ignored | refused | answered =>
          replace hc' : (s.put c (s.counted h)).sockets.get? c = some (.running h') := hc'
          rw [hput] at hc'
          cases hc'
          exact hresting hcounted
      | @begun pc hbegins =>
          replace hc' : ((s.put c (s.counted h)).put c
            { s.counted h with pc := pc }).sockets.get? c = some (.running h') := hc'
          rw [get?_put (hput _), Function.update_self] at hc'
          cases hc'
          generalize m.message = m at hbegins
          cases hbegins with
          | joinRoom => exact List.mem_singleton_self _
          | @upnpMapped externalAddr tunnelToken _ hsafe =>
              cases externalIp with
              | none => cases hsafe
              | some ip =>
                  rw [Option.any_some] at hsafe
                  simp [Warranted, grounds, hsafe]
          | _ => trivial

theorem entry_of_lookup {tunnel : TunnelService} {token id : String} {ip : IpAddr}
    (hfound : (tunnel.lookupUpnp token ip).2 = some id) : ∃ e,
      tunnel.tunnel.upnpPending.get? token = some e ∧ e.hostIp = ip ∧ e.joinerPlayerId = id := by
  simp only [TunnelService.lookupUpnp, TunnelState.lookupUpnpPending] at hfound
  split at hfound
  · cases hfound
  next e he =>
    split at hfound
    · cases hfound
    next hip => exact ⟨e, he, of_not_not hip, Option.some.inj hfound⟩

/-- An entry for a mapped address was there, or is that of a join that is agreed to. -/
theorem entry_of_step {l : Label} (hstep : s.step l = some s') {token : String}
    {e : UPnPPending} (he : s'.tunnel.tunnel.upnpPending.get? token = some e) :
    s.tunnel.tunnel.upnpPending.get? token = some e ∨
      ∃ d, .deal d ∈ s.grounds l ∧ d.token = token ∧ d.hostIp = e.hostIp ∧
        d.joinerId = e.joinerPlayerId := by
  obtain hsame | ⟨m, htunnel, hmoves⟩ := tunnel_cases hstep
  · rw [hsame] at he
    exact .inl he
  obtain hold | ⟨_, _, _, rfl, rfl⟩ := TunnelService.upnpPending_of_step hmoves he
  · exact .inl hold
  -- Only the block of a join that is agreed to draws a token.
  right
  cases l with
  | block c fresh =>
      obtain ⟨h, hc, _⟩ := whenRunning_eq_some hstep
      rw [grounds_block hc]
      simp only [tunnelLabel, hc, blockTunnelLabel] at htunnel
      split at htunnel <;> cases htunnel
      next hpc _ =>
        rw [hpc]
        exact ⟨_, List.mem_singleton_self _, rfl, rfl, rfl⟩
  | tunnel l =>
      cases htunnel
      cases hstep
  | cleanup =>
      simp only [tunnelLabel] at htunnel
      split at htunnel <;> cases htunnel
  | elapse | request | upgrade | frame | drop | sent => cases htunnel

/-- The player under an id is the host whose connection created the room. -/
theorem host_of_room (hg : s.Grounded log) (hreach : machine.Reachable s) {host : ConnectedPlayer}
    (hroom : s.RoomOf log roomId hostId) (hhost : s.app.players.get? hostId = some host) :
    .created host.tx roomId ∈ log ∧ s.who host.tx = some (hostId, host.clientIp) := by
  obtain ⟨c, ip, hcreated, hwho⟩ := hroom
  obtain rfl := who_unique hreach hwho (hg.players hhost)
  exact ⟨hcreated, hg.players hhost⟩

/-- A join goes on with the room it found. -/
theorem warranted_joinRoom (hg : s.Grounded log) (hc : s.sockets.get? c = some (.running h))
    {quote' : JoinQuote} (hwarranted : s.Warranted log c h (.joinRoom roomId)) (hlog : log ⊆ log')
    (hc' : (s.joinRoom c h roomId).sockets.get? c = some (.running h'))
    (hpc' : h'.pc = .joinPlayers quote') : s.Warranted log' c h' (.joinPlayers quote') := by
  unfold joinRoom at hc'
  split at hc'
  next room hroom =>
    let quote : JoinQuote := ⟨roomId, room.hostPlayerId, room.war3Version, room.gameinfo⟩
    have heq := eq_of_put (k := { h with pc := .joinPlayers quote }) hc hc' rfl
    rw [heq] at hpc'
    obtain rfl : quote = quote' := HandlerPc.joinPlayers.inj hpc'
    exact ⟨hlog hwarranted, (hg.rooms hroom).mono ⟨hlog, id⟩⟩
  next =>
    have heq := eq_of_put (k := { h with pc := .receiving }) hc hc' rfl
    rw [heq] at hpc'
    cases hpc'

/-- It goes on with the connected player that hosts the room. -/
theorem warranted_joinPlayers (hg : s.Grounded log) (hreach : machine.Reachable s)
    (hc : s.sockets.get? c = some (.running h)) {quote : JoinQuote} {ticket' : JoinTicket}
    (hwarranted : s.Warranted log c h (.joinPlayers quote)) (hlog : log ⊆ log')
    (hc' : (s.joinPlayers c h quote).sockets.get? c = some (.running h'))
    (hpc' : h'.pc = .joinReserve ticket') : s.Warranted log' c h' (.joinReserve ticket') := by
  have hrefused : ∀ {k : Handler}, k.pc = .receiving → h' ≠ k := by
    rintro k hk rfl
    rw [hpc'] at hk
    cases hk
  unfold joinPlayers at hc'
  split at hc'
  next =>
    exact absurd (eq_of_put (k := { h with pc := .receiving }) hc hc' rfl) (hrefused rfl)
  next joiner hjoiner =>
    split at hc'
    next =>
      exact absurd (eq_of_put (k := { h with pc := .receiving }) hc hc' rfl) (hrefused rfl)
    next =>
      split at hc'
      next host hhost =>
        let ticket : JoinTicket := ⟨quote, joiner.nickname, host.clientIp, host.tx⟩
        have heq := eq_of_put (k := { h with pc := .joinReserve ticket }) hc hc' rfl
        rw [heq] at hpc'
        obtain rfl : ticket = ticket' := HandlerPc.joinReserve.inj hpc'
        obtain ⟨hhost, _⟩ := Option.filter_eq_some_iff.mp hhost
        obtain ⟨hcreated, hwho⟩ := host_of_room hg hreach hwarranted.2 hhost
        exact ⟨hlog hwarranted.1, hlog hcreated, quote.hostPlayerId, hwho⟩
      next =>
        exact absurd (eq_of_put (k := { h with pc := .receiving }) hc hc' rfl) (hrefused rfl)

/-- A mapped address goes to the joiner of the deal that its token was drawn for. -/
theorem warranted_upnpLookup (hg : s.Grounded log) (hc : s.sockets.get? c = some (.running h))
    {externalAddr externalAddr' tunnelToken joinerPlayerId : String}
    (hwarranted : s.Warranted log c h (.upnpLookup externalAddr tunnelToken)) (hlog : log ⊆ log')
    (hc' : (s.upnpLookup c h externalAddr tunnelToken).sockets.get? c = some (.running h'))
    (hpc' : h'.pc = .upnpForward externalAddr' joinerPlayerId) :
    s.Warranted log' c h' (.upnpForward externalAddr' joinerPlayerId) := by
  unfold upnpLookup at hc'
  dsimp only at hc'
  cases hfound : (s.tunnel.lookupUpnp tunnelToken h.clientIp).2 with
  | none =>
      rw [hfound] at hc'
      have heq := eq_of_put (k := { h with pc := .receiving }) hc hc' rfl
      rw [heq] at hpc'
      cases hpc'
  | some id =>
      rw [hfound] at hc'
      have heq := eq_of_put (k := { h with pc := .upnpForward externalAddr id }) hc hc' rfl
      rw [heq] at hpc' ⊢
      cases hpc'
      obtain ⟨e, he, hip, rfl⟩ := entry_of_lookup hfound
      obtain ⟨d, hd, rfl, hhost, hjoiner⟩ := hg.pending he
      exact ⟨d, hlog hd, hlog hwarranted, hhost.trans hip, hjoiner⟩

/-- A handler that proceeds takes its locals from what is on record. -/
theorem warranted_block (hg : s.Grounded log) (hreach : machine.Reachable s)
    (hc : s.sockets.get? c = some (.running h)) (hblock : s.block c h fresh = some s')
    (hc' : s'.sockets.get? c = some (.running h')) :
    s.Warranted (log ++ blockGrounds c h fresh h.pc) c h' h'.pc := by
  obtain ⟨k, hm, hleads⟩ := leadsTo_block hc hblock
  obtain rfl := hm.eq_of_running hc'
  have hwarranted := hg.handlers hc
  have harm := arm_of_block hblock
  generalize h.pc = pc at hleads harm hwarranted
  have hlog : log ⊆ log ++ blockGrounds c h fresh pc := List.subset_append_left ..
  cases hpc' : h'.pc with
  | joinPlayers quote =>
      rw [hpc'] at hleads
      cases hleads
      cases harm
      exact warranted_joinRoom hg hc hwarranted hlog hc' hpc'
  | joinReserve ticket =>
      rw [hpc'] at hleads
      cases hleads
      cases harm
      exact warranted_joinPlayers hg hreach hc hwarranted hlog hc' hpc'
  | joinRegisterPending ticket =>
      rw [hpc'] at hleads
      cases hleads
      cases harm
      exact ⟨hlog hwarranted.1, hlog hwarranted.2.1, hwarranted.2.2⟩
  | joinRegisterBinding ticket tunnelToken =>
      rw [hpc'] at hleads
      cases hleads with
      | joinRegisterPending =>
        cases harm with
        | joinRegisterPending _ hpending =>
          obtain ⟨tunnel, _, rfl⟩ := Option.map_eq_some_iff.mp hpending
          have heq := eq_of_put (k := { h with pc := .joinRegisterBinding ticket fresh }) hc hc' rfl
          rw [heq] at hpc' ⊢
          cases hpc'
          exact List.mem_append_right _ (List.mem_singleton_self _)
  | upnpForward externalAddr joinerPlayerId =>
      rw [hpc'] at hleads
      cases hleads
      cases harm
      exact warranted_upnpLookup hg hc hwarranted hlog hc' hpc'
  | joinRoom | upnpLookup =>
      rw [hpc'] at hleads
      cases hleads
  | _ => trivial

/-! ## Runs -/

/-- What a block shows is warranted by the record. -/
theorem entitled_of_shows (hg : s.Grounded log) (hreach : machine.Reachable s)
    (hc : s.sockets.get? c = some (.running h)) {tx : SocketId}
    (hshows : Shows s c h h.pc (tx, m)) : s.Entitled log tx m := by
  have hwarranted := hg.handlers hc
  generalize h.pc = pc at hshows hwarranted
  cases hshows with
  | welcome => exact ⟨h.clientIp, who_running hc⟩
  | observed => exact ⟨h.playerId, who_running hc⟩
  | @party ticket tunnelToken _ hletter =>
      simp only [joinLetters, List.mem_cons, Prod.mk.injEq, List.not_mem_nil, or_false] at hletter
      rcases hletter with ⟨rfl, rfl⟩ | ⟨rfl, rfl⟩ | ⟨rfl, rfl⟩ | ⟨rfl, rfl⟩
      · exact ⟨_, hwarranted, .inl ⟨rfl, rfl⟩⟩
      · exact ⟨_, hwarranted, .inr ⟨rfl, rfl⟩⟩
      · rintro token ⟨⟩
        exact ⟨_, hwarranted, rfl, rfl⟩
      · exact ⟨_, hwarranted, rfl, rfl⟩
  | @forward externalAddr joinerPlayerId _ hletter =>
      obtain ⟨p, hp, hletter⟩ := Option.map_eq_some_iff.mp (Option.mem_toList.mp hletter)
      cases hletter
      obtain ⟨d, hd, hmapped, hhost, hjoiner⟩ := hwarranted
      -- The player that is found is the one on whose connection the join was asked for.
      have hid := List.find?_some hp
      obtain ⟨id, hmem⟩ := Table.mem_values_iff.mp (List.mem_of_find?_eq_some hp)
      have hkey := (sound_of_reachable hreach).player hmem
      rw [Bool.and_eq_true, decide_eq_true_eq] at hid
      have hwho := hg.players hmem
      rw [← hkey, hid.1, ← hjoiner] at hwho
      refine ⟨d, c, h.playerId, hd, ?_, ?_, hmapped⟩
      · exact who_unique hreach (hg.deals hd).joiner hwho
      · rw [hhost]
        exact who_running hc

/-- The server agrees to a join in the first block of `register_token`. -/
theorem deal_of_grounds {l : Label} (hd : .deal d ∈ s.grounds l) :
    ∃ c fresh h ticket, s.sockets.get? c = some (.running h) ∧
      h.pc = .joinRegisterPending ticket ∧ d = ⟨fresh, ticket.quote.roomId, c, ticket.hostTx,
        h.clientIp, ticket.hostIp, h.playerId⟩ := by
  unfold grounds at hd
  split at hd
  · simp at hd
  · split at hd <;> simp at hd
  next c fresh =>
    split at hd
    next h hh =>
      unfold blockGrounds at hd
      split at hd
      · simp at hd
      next ticket hpc =>
        simp only [List.mem_singleton, Ground.deal.injEq] at hd
        exact ⟨c, fresh, h, ticket, handler_eq_some.mp hh, hpc, hd⟩
      · simp at hd
    next => simp at hd
  · simp at hd

/-- A handler of the next state is warranted by the longer record. -/
theorem warranted_of_step {l : Label} (hreach : machine.Reachable s) (hg : s.Grounded log)
    (hstep : s.step l = some s') (hc' : s'.sockets.get? c = some (.running h')) :
    s'.Warranted (log ++ s.grounds l) c h' h'.pc := by
  have hwho : ∀ {c w}, s.who c = some w → s'.who c = some w := who_of_step hstep
  rcases running_of_step hstep hc' with hown | ⟨clientIp, playerId, rfl⟩ | hold
  · cases l with
    | frame c' item =>
        obtain rfl : c' = c := by simpa [isOwn] using hown
        obtain ⟨h, hc, hframe⟩ := whenRunning_eq_some hstep
        split at hframe <;> cases hframe
        next hpc =>
          exact (warranted_frame hc hpc item hc').mono ⟨List.subset_append_right .., hwho⟩
    | block c' fresh =>
        obtain rfl : c' = c := by simpa [isOwn] using hown
        obtain ⟨h, hc, hblock⟩ := whenRunning_eq_some hstep
        rw [grounds_block hc]
        exact (warranted_block hg hreach hc hblock hc').mono ⟨List.Subset.refl _, hwho⟩
    | drop c' =>
        obtain rfl : c' = c := by simpa [isOwn] using hown
        obtain ⟨h, hc, hdrop⟩ := whenRunning_eq_some hstep
        split at hdrop <;> cases hdrop
        obtain rfl := eq_of_put (k := h.exit) hc hc' rfl
        unfold Handler.exit
        dsimp only
        split <;> trivial
    | _ => cases hown
  · trivial
  · exact (hg.handlers hold).mono ⟨List.subset_append_left .., hwho⟩

theorem grounded_start : Grounded start [] where
  players := by simp [start, AppState.new]
  rooms := by simp [start, AppState.new]
  handlers := by simp [start]
  deals := by simp
  pending := by simp [start, TunnelService.start, TunnelState.new]
  queues := by simp [accepted, start]

theorem Grounded.step {l : Label} (hreach : machine.Reachable s) (hg : s.Grounded log)
    (hstep : s.step l = some s') : s'.Grounded (log ++ s.grounds l) := by
  have hgrows : Grows s log s' (log ++ s.grounds l) :=
    ⟨List.subset_append_left .., who_of_step hstep⟩
  constructor
  · intro id p' hp'
    rcases player_of_step hstep hp' with ⟨p, hp, htx, hip⟩ | hwho
    · rw [htx, hip]
      exact hgrows.who (hg.players hp)
    · exact hwho
  · intro roomId r' hr'
    rcases room_of_step hstep hr' with ⟨r, hr, hhost⟩ | ⟨c, hcreated, ip, hwho⟩
    · rw [hhost]
      exact (hg.rooms hr).mono hgrows
    · exact ⟨c, ip, List.mem_append_right _ hcreated, hgrows.who hwho⟩
  · exact warranted_of_step hreach hg hstep
  · intro d hd
    rcases List.mem_append.mp hd with hold | hnew
    · exact (hg.deals hold).mono hgrows
    · obtain ⟨c, fresh, h, ticket, hc, hpc, rfl⟩ := deal_of_grounds hnew
      have hwarranted := hg.handlers hc
      rw [hpc] at hwarranted
      obtain ⟨hasked, hcreated, hhost⟩ := hwarranted
      exact Genuine.mono hgrows ⟨hasked, hcreated, who_running hc, hhost⟩
  · intro token e he
    rcases entry_of_step hstep he with hold | ⟨d, hd, hjoin⟩
    · obtain ⟨d, hd, hjoin⟩ := hg.pending hold
      exact ⟨d, hgrows.log hd, hjoin⟩
    · exact ⟨d, List.mem_append_right _ hd, hjoin⟩
  · intro tx m hm
    rcases shown_of_step hstep hm with hold | hplain | ⟨c, fresh, h, rfl, hc, hshows⟩
    · exact (hg.queues hold).mono hgrows
    · exact entitled_of_plain hplain
    · exact (entitled_of_shows hg hreach hc hshows).mono hgrows

theorem grounded_of_trace (h : machine.Trace grounds log s) : s.Grounded log :=
  h.invariant (I := fun log s => s.Grounded log) grounded_start
    fun _ _ _ _ hreach hg hstep => hg.step hreach hstep

/-- Whatever address or token a client is told in a run is its own, or is shared with it by a join:
the joiner asked for the room that the host created, and each is told of the other; an address
mapped for a join goes to its joiner, from a client at the host's address that gave the token of
that join; and the id in a `Welcome` is the client's own. -/
theorem entitled_of_trace (h : machine.Trace grounds log s) :
    (∀ d, .deal d ∈ log → s.Genuine log d) ∧
      ∀ c m, m ∈ accepted s.outboxes c → s.Entitled log c m :=
  ⟨fun _ hd => (grounded_of_trace h).deals hd, fun _ _ hm => (grounded_of_trace h).queues hm⟩

/-- The host says that an address is mapped to it for the join of a token. -/
def mapsAddr (c : SocketId) (externalAddr tunnelToken : String) (ip : IpAddr) : List Label :=
  [.frame c (.text 80 (some (.upnpMapped externalAddr tunnelToken)) (some ip)), .block c "",
    .block c ""]

/-- Player `b` joins the room of player `a`, is told the address of `a`, and then the one that `a`
has mapped for the join. -/
theorem entitled_joined : ∃ s log, machine.Trace grounds log s ∧
    (.stunInfo (.v4 0x08080808) ∈ accepted s.outboxes 1 ∧ ∃ d, .deal d ∈ log ∧ s.Genuine log d ∧
      (d.joiner = 1 ∧ d.hostIp = .v4 0x08080808 ∨ d.host = 1 ∧ d.joinerIp = .v4 0x08080808)) ∧
    .peerUPnPAddr "8.8.8.8:6113" ∈ accepted s.outboxes 1 ∧ ∃ d sender hostId, .deal d ∈ log ∧
      d.joiner = 1 ∧ s.who sender = some (hostId, d.hostIp) ∧
      .mapped sender "8.8.8.8:6113" d.token ∈ log := by
  have hrun : (machine.exec machine.init (registers 0 "a" ++ createsRoom 0 "r" ++
      registers 1 "b" ++ reservesSlot 1 "r" ++ joinsRoom 1 "t" ++
      mapsAddr 0 "8.8.8.8:6113" "t" (.v4 0x08080808))).any (fun s =>
        decide (.stunInfo (.v4 0x08080808) ∈ accepted s.outboxes 1 ∧
          .peerUPnPAddr "8.8.8.8:6113" ∈ accepted s.outboxes 1)) = true := by decide
  obtain ⟨s, hexec, _, hshown⟩ := Machine.exists_reachable_of_exec hrun
  have htrace := Machine.trace_of_exec (f := grounds) hexec
  obtain ⟨hdeals, hentitled⟩ := entitled_of_trace htrace
  obtain ⟨htold, hmapped⟩ := of_decide_eq_true hshown
  obtain ⟨d, hd, hparty⟩ := hentitled 1 _ htold
  exact ⟨s, _, htrace, ⟨htold, d, hd, hdeals d hd, hparty⟩, hmapped, hentitled 1 _ hmapped⟩

end Lobby

end War3BattleTool.Server
