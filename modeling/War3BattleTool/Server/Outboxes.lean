import War3BattleTool.Server.Handlers

set_option autoImplicit false

/-!
# What a step puts into the outgoing queues

The queues change by letters (`mail`) only, and a letter that finds no room is lost.  Except
at its two broadcasts a handler sends no list of players or rooms; `Turn` says what one of its
steps may do to those lists, and that a change leaves the handler bound to broadcast.
-/

namespace War3BattleTool.Server

open War3BattleTool.Foundation War3BattleTool.Protocol

/-! ## Letters -/

/-- Offer messages to queues, in order. -/
def mail (outboxes : Table SocketId Outbox) (letters : List (SocketId × ServerMessage)) :
    Table SocketId Outbox :=
  letters.foldl (fun outboxes letter => offer outboxes letter.1 letter.2) outboxes

/-- Everything the queue of a connection has taken. -/
def accepted (outboxes : Table SocketId Outbox) (c : SocketId) : List ServerMessage :=
  ((outboxes.get? c).map (·.accepted)).getD []

/-- The messages of the letters to a connection. -/
def addressed (letters : List (SocketId × ServerMessage)) (c : SocketId) :
    List ServerMessage :=
  (letters.filter (·.1 = c)).map (·.2)

/-- The free places in the queue of a connection; a queue without a send task has none. -/
def freeSlots (outboxes : Table SocketId Outbox) (c : SocketId) : Nat :=
  ((outboxes.get? c).map fun o =>
    if o.rxOpen then sendQueueSize - o.queue.length else 0).getD 0

theorem addressed_append (letters letters' : List (SocketId × ServerMessage)) (c : SocketId) :
    addressed (letters ++ letters') c = addressed letters c ++ addressed letters' c := by
  simp [addressed]

theorem mem_addressed {letters : List (SocketId × ServerMessage)} {c : SocketId}
    {m : ServerMessage} : m ∈ addressed letters c ↔ (c, m) ∈ letters := by
  simp only [addressed, List.mem_map, List.mem_filter, decide_eq_true_eq]
  constructor
  · rintro ⟨⟨tx, m'⟩, ⟨hmem, rfl⟩, rfl⟩
    exact hmem
  · intro hmem
    exact ⟨(c, m), ⟨hmem, rfl⟩, rfl⟩

section Mail

variable {outboxes : Table SocketId Outbox} {letters : List (SocketId × ServerMessage)}
  {c tx : SocketId} {m : ServerMessage}

theorem get?_offer : (offer outboxes tx m).get? c =
    if c = tx then (outboxes.get? c).map (·.trySend m) else outboxes.get? c :=
  Table.get?_modify _ _ _ _

theorem isSome_mail : ((mail outboxes letters).get? c).isSome = (outboxes.get? c).isSome := by
  induction letters generalizing outboxes with
  | nil => rfl
  | cons letter rest ih =>
      rw [mail, List.foldl_cons]
      refine ih.trans ?_
      rw [get?_offer]
      split <;> simp

theorem accepted_offer : accepted (offer outboxes tx m) c = accepted outboxes c ++
    (addressed [(tx, m)] c).take (freeSlots outboxes c) := by
  unfold accepted freeSlots addressed
  rw [get?_offer]
  by_cases htx : tx = c
  · subst htx
    cases outboxes.get? tx with
    | none => simp
    | some o =>
        simp only [if_true, Option.map_some, Option.getD_some, Outbox.trySend]
        cases o.rxOpen with
        | false => simp
        | true =>
            by_cases hfree : o.queue.length < sendQueueSize
            · obtain ⟨n, hn⟩ := Nat.exists_eq_add_of_lt hfree
              simp [hfree, show sendQueueSize - o.queue.length = n + 1 by omega]
            · simp [hfree, show sendQueueSize - o.queue.length = 0 by omega]
  · simp [Ne.symm htx, htx]

/-- A letter takes one free place of the queue it is addressed to. -/
theorem freeSlots_offer : freeSlots (offer outboxes tx m) c =
    freeSlots outboxes c - (addressed [(tx, m)] c).length := by
  unfold freeSlots addressed
  rw [get?_offer]
  by_cases htx : tx = c
  · subst htx
    cases outboxes.get? tx with
    | none => simp
    | some o =>
        simp only [if_true, Option.map_some, Option.getD_some, Outbox.trySend]
        cases hopen : o.rxOpen with
        | false => simp [hopen]
        | true =>
            by_cases hfree : o.queue.length < sendQueueSize
            · simp [hfree, Nat.sub_add_eq]
            · simp [hfree, hopen]
              omega
  · simp [Ne.symm htx, htx]

/-- A queue takes the letters addressed to it, in order, as long as it has room. -/
theorem accepted_mail : accepted (mail outboxes letters) c =
    accepted outboxes c ++ (addressed letters c).take (freeSlots outboxes c) := by
  induction letters generalizing outboxes with
  | nil => simp [mail, addressed]
  | cons letter rest ih =>
      obtain ⟨tx, m⟩ := letter
      have hsplit : addressed ((tx, m) :: rest) c = addressed [(tx, m)] c ++ addressed rest c := by
        rw [← List.singleton_append, addressed_append]
      rw [mail, List.foldl_cons]
      refine ih.trans ?_
      rw [accepted_offer, freeSlots_offer, List.append_assoc, hsplit, List.take_append]

/-- The send task takes a message out of the queue, not out of its history. -/
theorem accepted_pop {o o' : Outbox} {ok : Bool} (ho : outboxes.get? c = some o)
    (hpop : o.pop ok = some o') (c' : SocketId) :
    accepted (outboxes.modify c fun _ => o') c' = accepted outboxes c' := by
  have hsame : o'.accepted = o.accepted := by
    unfold Outbox.pop at hpop
    split at hpop
    · cases hpop
      split <;> rfl
    · cases hpop
  unfold accepted
  rw [Table.get?_modify]
  split
  · next heq => simp [heq, ho, hsame]
  · rfl

end Mail

/-! ## Snapshots -/

/-- The message lists the players. -/
def isPlayerUpdate : ServerMessage → Bool
  | .playerUpdate _ => true
  | _ => false

/-- The message lists the rooms. -/
def isRoomUpdate : ServerMessage → Bool
  | .roomUpdate _ => true
  | _ => false

/-- The message is one half of a snapshot. -/
def isSnapshot (m : ServerMessage) : Bool := isPlayerUpdate m || isRoomUpdate m

/-- No letter is half of a snapshot. -/
def noSnapshot (letters : List (SocketId × ServerMessage)) : Bool :=
  letters.all fun letter => !isSnapshot letter.2

/-- The two messages that `broadcast_state` sends to a player. -/
structure Snapshot where
  players : ServerMessage
  rooms : ServerMessage
  deriving DecidableEq

/-- The snapshot of the maps. -/
def AppState.snapshot (a : AppState) : Snapshot where
  players := a.playerUpdate
  rooms := a.roomUpdate

/-- The snapshot does not show a change of a player that keeps the player's entry in the
list. -/
theorem AppState.snapshot_modifyPlayer (a : AppState) (playerId : String)
    {f : ConnectedPlayer → ConnectedPlayer} (hinfo : ∀ p, (f p).info = p.info)
    (honline : ∀ p, (f p).online = p.online) :
    (a.modifyPlayer playerId f).snapshot = a.snapshot := by
  have hnickname : ∀ p, (f p).nickname = p.nickname := fun p =>
    congrArg PlayerInfo.nickname (hinfo p)
  have hplayers : (a.modifyPlayer playerId f).playerUpdate = a.playerUpdate := by
    simp only [playerUpdate, modifyPlayer, Table.values, Table.modify, Table.mapValues,
      List.map_map, List.filter_map]
    congr 2
    · funext e
      simp only [Function.comp_apply]
      split <;> simp [hinfo]
    · congr 1
      funext e
      simp only [Function.comp_apply]
      split <;> simp [honline, hnickname]
  have hrooms : (a.modifyPlayer playerId f).roomUpdate = a.roomUpdate := by
    have hhost : ∀ id, ((a.players.modify playerId f).get? id).map (·.online) =
        (a.players.get? id).map (·.online) := by
      intro id
      rw [Table.get?_modify]
      split
      · rw [Option.map_map]
        congr 1
        funext p
        exact honline p
      · rfl
    simp only [roomUpdate, modifyPlayer, hhost]
  simp only [snapshot, hplayers, hrooms]

/-- The letters of a broadcast. -/
def AppState.broadcastLetters (a : AppState) : List (SocketId × ServerMessage) :=
  (a.players.values.filter (·.online)).flatMap fun p =>
    [(p.tx, a.playerUpdate), (p.tx, a.roomUpdate)]

theorem AppState.broadcastState_eq (a : AppState) (outboxes : Table SocketId Outbox) :
    a.broadcastState outboxes = mail outboxes a.broadcastLetters := by
  simp only [broadcastState, broadcastLetters, mail]
  induction a.players.values.filter (·.online) generalizing outboxes with
  | nil => rfl
  | cons p rest ih => exact ih _

theorem AppState.mem_broadcastLetters {a : AppState} {letter : SocketId × ServerMessage}
    (h : letter ∈ a.broadcastLetters) :
    letter.2 = a.playerUpdate ∨ letter.2 = a.roomUpdate := by
  obtain ⟨p, _, hletter⟩ := List.mem_flatMap.mp h
  rcases List.mem_pair.mp hletter with rfl | rfl
  · exact .inl rfl
  · exact .inr rfl

/-! ## Turns of a handler -/

/-- The handler, or the cleanup task, is bound to broadcast. -/
def HandlerPc.owes : HandlerPc → Bool
  | .broadcast | .createLink _ | .closeRemove _ | .joinRegisterPending _
  | .joinRegisterBinding _ _ | .joinRecord _ | .joinReleaseOld _ | .leaving
  | .removeRooms _ _ | .finalBroadcast => true
  | _ => false

/-- The handler stands where only a registered one can. -/
def HandlerPc.guarded : HandlerPc → Bool
  | .receiving | .registerCount _ _ | .registerInsert _ _ _ | .heartbeat => false
  | pc => pc.inLoop

/-- The handler is registered where it has to be. -/
def Handler.Guarded (h : Handler) : Prop := h.pc.guarded = true → h.registered = true

theorem HandlerPc.guarded_of_owes {pc : HandlerPc} (howes : pc.owes = true)
    (hloop : pc.inLoop = true) : pc.guarded = true := by
  cases pc <;> simp_all [owes, inLoop, guarded]

/-- Every player keeps the queue its messages go to, and a new one is this handler's. -/
def TxKept (a a' : AppState) (playerId : String) (c : SocketId) : Prop :=
  ∀ id p', a'.players.get? id = some p' →
    (∃ p, a.players.get? id = some p ∧ p'.tx = p.tx) ∨ id = playerId ∧ p'.tx = c

namespace TxKept

variable {a : AppState} {playerId : String} {c : SocketId}

theorem of_players {a' : AppState} (h : a'.players = a.players) : TxKept a a' playerId c :=
  fun _ p' hp' => .inl ⟨p', h ▸ hp', rfl⟩

theorem modify (id : String) {f : ConnectedPlayer → ConnectedPlayer}
    (hf : ∀ p, (f p).tx = p.tx) : TxKept a (a.modifyPlayer id f) playerId c := by
  intro id' p' hp'
  simp only [AppState.modifyPlayer, Table.get?_modify] at hp'
  split at hp'
  · obtain ⟨p, hp, rfl⟩ := Option.map_eq_some_iff.mp hp'
    exact .inl ⟨p, hp, hf p⟩
  · exact .inl ⟨p', hp', rfl⟩

theorem remove (id : String) : TxKept a (a.takePlayer id).1 playerId c := by
  intro id' p' hp'
  simp only [AppState.takePlayer, Table.get?_remove] at hp'
  split at hp'
  · cases hp'
  · exact .inl ⟨p', hp', rfl⟩

theorem insert {p : ConnectedPlayer} (hid : p.playerId = playerId) (htx : p.tx = c) :
    TxKept a (a.insertPlayer p) playerId c := by
  intro id' p' hp'
  simp only [AppState.insertPlayer, Table.get?_insert] at hp'
  split at hp'
  · next heq =>
    cases hp'
    exact .inr ⟨heq.trans hid, htx⟩
  · exact .inl ⟨p', hp', rfl⟩

theorem clearRooms (hostingRoom joinedRoom : Option String) :
    TxKept a (a.clearRooms hostingRoom joinedRoom) playerId c := by
  refine of_players ?_
  cases hostingRoom <;> cases joinedRoom <;> rfl

end TxKept

namespace Lobby

/-- What a step of a handler writes besides its own locals. -/
structure Writes where
  tunnel : TunnelService
  app : AppState
  roomIds : List String
  letters : List (SocketId × ServerMessage)

/-- The server after a step of a handler that is not a broadcast. -/
def written (s : Lobby) (c : SocketId) (h' : Handler) (w : Writes) : Lobby :=
  { s with
    tunnel := w.tunnel
    app := w.app
    roomIds := w.roomIds
    outboxes := mail s.outboxes w.letters }.put c h'

/-- The handler of `c` takes a step that is not a broadcast. -/
structure Turn (s s' : Lobby) (c : SocketId) (h h' : Handler) : Prop where
  moves : Moves s s' c h h'
  cleanup : s'.cleanup = s.cleanup
  mailed : ∃ letters, noSnapshot letters = true ∧ s'.outboxes = mail s.outboxes letters
  /-- whoever changes what a snapshot shows owes a broadcast -/
  duty : s'.app.snapshot = s.app.snapshot ∧ h.pc.owes = false ∨ h'.pc.owes = true
  guarded : h.Guarded → h'.Guarded
  tx : TxKept s.app s'.app h.playerId c

variable {s s' : Lobby} {c : SocketId} {h h' : Handler}

namespace Turn

theorem of_writes (hc : s.sockets.get? c = some (.running h)) (h' : Handler) (w : Writes)
    (hip : h'.clientIp = h.clientIp) (hid : h'.playerId = h.playerId)
    (hletters : noSnapshot w.letters = true)
    (hduty : w.app.snapshot = s.app.snapshot ∧ h.pc.owes = false ∨ h'.pc.owes = true)
    (hguarded : h.Guarded → h'.Guarded) (htx : TxKept s.app w.app h.playerId c) :
    Turn s (s.written c h' w) c h h' where
  moves := .put hc hip hid rfl
  cleanup := rfl
  mailed := ⟨w.letters, hletters, rfl⟩
  duty := hduty
  guarded := hguarded
  tx := htx

/-- The handler only reads the maps. -/
theorem reads (hc : s.sockets.get? c = some (.running h)) (pc : HandlerPc)
    (tunnel : TunnelService) (letters : List (SocketId × ServerMessage))
    (hletters : noSnapshot letters = true) (howes : h.pc.owes = false)
    (hguarded : pc.guarded = true → h.pc.guarded = true) :
    Turn s (s.written c { h with pc := pc } ⟨tunnel, s.app, s.roomIds, letters⟩) c h
      { h with pc := pc } :=
  .of_writes hc _ _ rfl rfl hletters (.inl ⟨rfl, howes⟩) (fun hg hpc => hg (hguarded hpc))
    (.of_players rfl)

/-- The handler writes to the maps, and is bound to broadcast. -/
theorem writes (hc : s.sockets.get? c = some (.running h)) (pc : HandlerPc) (w : Writes)
    (hletters : noSnapshot w.letters = true) (howes : pc.owes = true)
    (hguarded : pc.guarded = true → h.pc.guarded = true)
    (htx : TxKept s.app w.app h.playerId c) :
    Turn s (s.written c { h with pc := pc } w) c h { h with pc := pc } :=
  .of_writes hc _ w rfl rfl hletters (.inr howes) (fun hg hpc => hg (hguarded hpc)) htx

end Turn

/-! ### Blocks -/

section Blocks

variable (hc : s.sockets.get? c = some (.running h))

include hc

theorem turn_registerCount {nickname : String} {war3Version : War3Version}
    (hpc : h.pc = .registerCount nickname war3Version) :
    ∃ h', Turn s (s.registerCount c h nickname war3Version) c h h' := by
  have howes : h.pc.owes = false := by rw [hpc]; rfl
  unfold registerCount
  split
  · exact ⟨_, .reads hc .receiving s.tunnel [(c, .error "伺服器已滿")] rfl howes (nomatch ·)⟩
  · exact ⟨_, .of_writes hc { h with
      isWebViewer := isWebViewerName nickname
      viewerSince :=
        if isWebViewerName nickname then h.viewerSince.or (some s.now) else h.viewerSince
      pc := .registerInsert nickname war3Version s.now } ⟨s.tunnel, s.app, s.roomIds, []⟩ rfl
      rfl rfl (.inl ⟨rfl, howes⟩) (fun _ => by rintro ⟨⟩) (.of_players rfl)⟩

theorem turn_registerInsert (nickname : String) (war3Version : War3Version)
    (lastHeartbeat : Instant) :
    ∃ h', Turn s (s.registerInsert c h nickname war3Version lastHeartbeat) c h h' := by
  let player : ConnectedPlayer :=
    ⟨h.playerId, nickname, war3Version, h.clientIp, lastHeartbeat, c, none, none, none⟩
  let h' : Handler := { h with registered := true, pc := .broadcast }
  have hturn : ∀ letters, noSnapshot letters = true →
      Turn s (s.written c h' ⟨s.tunnel, s.app.insertPlayer player, s.roomIds, letters⟩) c h h' :=
    fun letters hletters => .of_writes hc _ _ rfl rfl hletters (.inr rfl) (fun _ _ => rfl)
      (.insert rfl rfl)
  refine ⟨h', ?_⟩
  unfold registerInsert
  dsimp only
  split
  · exact hturn [(c, .welcome h.playerId)] rfl
  · exact hturn [(c, .welcome h.playerId), (c, .yourObservedAddr h.clientIp)] rfl

theorem turn_heartbeat (hpc : h.pc = .heartbeat) :
    Turn s ((s.setApp (s.app.heartbeat s.now h.playerId)).goto c h .receiving) c h
      { h with pc := .receiving } :=
  .of_writes hc _ ⟨s.tunnel, s.app.heartbeat s.now h.playerId, s.roomIds, []⟩ rfl rfl rfl
    (.inl ⟨s.app.snapshot_modifyPlayer h.playerId (fun _ => rfl) fun _ => rfl,
      by rw [hpc]; rfl⟩) (fun _ => by rintro ⟨⟩) (.modify h.playerId fun _ => rfl)

theorem turn_createRead {request : RoomRequest} (hpc : h.pc = .createRead request) :
    ∃ h', Turn s (s.createRead c h request) c h h' := by
  have howes : h.pc.owes = false := by rw [hpc]; rfl
  unfold createRead
  split
  · split
    · exact ⟨_, .reads hc .receiving s.tunnel [(c, .error "已有房間，請先關閉")] rfl howes
        (nomatch ·)⟩
    · exact ⟨_, .reads hc (.createCount _) s.tunnel [] rfl howes fun _ => by rw [hpc]; rfl⟩
  · exact ⟨_, .reads hc .receiving s.tunnel [] rfl howes (nomatch ·)⟩

theorem turn_createCount {draft : RoomDraft} (hpc : h.pc = .createCount draft) :
    ∃ h', Turn s (s.createCount c h draft) c h h' := by
  have howes : h.pc.owes = false := by rw [hpc]; rfl
  unfold createCount
  split
  · exact ⟨_, .reads hc .receiving s.tunnel [(c, .error "伺服器房間已滿")] rfl howes
      (nomatch ·)⟩
  · exact ⟨_, .reads hc (.createInsert draft) s.tunnel [] rfl howes fun _ => by rw [hpc]; rfl⟩

theorem turn_createInsert {draft : RoomDraft} {roomId : String}
    (hpc : h.pc = .createInsert draft) (hstep : s.createInsert c h draft roomId = some s') :
    ∃ h', Turn s s' c h h' := by
  unfold createInsert at hstep
  split at hstep
  · cases hstep
  · cases hstep
    exact ⟨_, .writes hc (.createLink roomId) ⟨s.tunnel,
      s.app.insertRoom (draft.room roomId h.playerId), roomId :: s.roomIds, []⟩ rfl rfl
      (fun _ => by rw [hpc]; rfl) (.of_players rfl)⟩

theorem turn_createLink {roomId : String} (hpc : h.pc = .createLink roomId) :
    ∃ h', Turn s (s.createLink c h roomId) c h h' :=
  ⟨_, .writes hc .broadcast ⟨s.tunnel, s.app.setHostingRoom h.playerId roomId, s.roomIds, []⟩
    rfl rfl (fun _ => by rw [hpc]; rfl) (.modify h.playerId fun _ => rfl)⟩

theorem turn_closeTake (hpc : h.pc = .closeTake) : ∃ h', Turn s (s.closeTake c h) c h h' := by
  dsimp only [closeTake]
  cases htaken : (s.app.takeHostingRoom h.playerId).2 with
  | some roomId =>
      exact ⟨_, .writes hc (.closeRemove roomId)
        ⟨s.tunnel, (s.app.takeHostingRoom h.playerId).1, s.roomIds, []⟩ rfl rfl
        (fun _ => by rw [hpc]; rfl) (.modify h.playerId fun _ => rfl)⟩
  | none =>
      -- A player without a room keeps its entry.
      have hsame : (s.app.takeHostingRoom h.playerId).1 = s.app := by
        simp only [AppState.takeHostingRoom, AppState.modifyPlayer]
        rw [Table.modify_eq_self]
        intro p hp
        have hnone : p.hostingRoom = none := by
          simpa [AppState.takeHostingRoom, hp] using htaken
        rw [← hnone]
      rw [hsame]
      exact ⟨_, .reads hc .receiving s.tunnel [] rfl (by rw [hpc]; rfl) Bool.noConfusion⟩

theorem turn_closeRemove {roomId : String} (hpc : h.pc = .closeRemove roomId) :
    ∃ h', Turn s (s.closeRemove c h roomId) c h h' :=
  ⟨_, .writes hc .broadcast ⟨s.tunnel, s.app.removeRoom roomId, s.roomIds, []⟩ rfl rfl
    (fun _ => by rw [hpc]; rfl) (.of_players rfl)⟩

theorem turn_upnpLookup {externalAddr tunnelToken : String}
    (hpc : h.pc = .upnpLookup externalAddr tunnelToken) :
    ∃ h', Turn s (s.upnpLookup c h externalAddr tunnelToken) c h h' := by
  have howes : h.pc.owes = false := by rw [hpc]; rfl
  dsimp only [upnpLookup]
  cases (s.tunnel.lookupUpnp tunnelToken h.clientIp).2 with
  | some joinerPlayerId =>
      exact ⟨_, .reads hc (.upnpForward externalAddr joinerPlayerId)
        (s.tunnel.lookupUpnp tunnelToken h.clientIp).1 [] rfl howes fun _ => by rw [hpc]; rfl⟩
  | none =>
      exact ⟨_, .reads hc .receiving (s.tunnel.lookupUpnp tunnelToken h.clientIp).1 [] rfl howes
        (nomatch ·)⟩

theorem turn_upnpForward {externalAddr joinerPlayerId : String}
    (hpc : h.pc = .upnpForward externalAddr joinerPlayerId) :
    ∃ h', Turn s (s.upnpForward c h externalAddr joinerPlayerId) c h h' := by
  have howes : h.pc.owes = false := by rw [hpc]; rfl
  dsimp only [upnpForward]
  split
  · next p _ =>
    exact ⟨_, .reads hc .receiving s.tunnel [(p.tx, .peerUPnPAddr externalAddr)] rfl howes
      (nomatch ·)⟩
  · exact ⟨_, .reads hc .receiving s.tunnel [] rfl howes (nomatch ·)⟩

theorem turn_joinRoom {roomId : String} (hpc : h.pc = .joinRoom roomId) :
    ∃ h', Turn s (s.joinRoom c h roomId) c h h' := by
  have howes : h.pc.owes = false := by rw [hpc]; rfl
  unfold joinRoom
  split
  · exact ⟨_, .reads hc (.joinPlayers _) s.tunnel [] rfl howes fun _ => by rw [hpc]; rfl⟩
  · exact ⟨_, .reads hc .receiving s.tunnel [(c, .joinFailure)] rfl howes (nomatch ·)⟩

theorem turn_joinPlayers {quote : JoinQuote} (hpc : h.pc = .joinPlayers quote) :
    ∃ h', Turn s (s.joinPlayers c h quote) c h h' := by
  have howes : h.pc.owes = false := by rw [hpc]; rfl
  unfold joinPlayers
  split
  · exact ⟨_, .reads hc .receiving s.tunnel [] rfl howes (nomatch ·)⟩
  · split
    · exact ⟨_, .reads hc .receiving s.tunnel [(c, .joinFailure)] rfl howes (nomatch ·)⟩
    · split
      · exact ⟨_, .reads hc (.joinReserve _) s.tunnel [] rfl howes fun _ => by rw [hpc]; rfl⟩
      · exact ⟨_, .reads hc .receiving s.tunnel [(c, .joinFailure)] rfl howes (nomatch ·)⟩

theorem turn_joinReserve {ticket : JoinTicket} (hpc : h.pc = .joinReserve ticket) :
    ∃ h', Turn s (s.joinReserve c h ticket) c h h' := by
  have hrefused : Turn s ((s.goto c h .receiving).trySend c .joinFailure) c h
      { h with pc := .receiving } :=
    .reads hc .receiving s.tunnel [(c, .joinFailure)] rfl (by rw [hpc]; rfl) (nomatch ·)
  unfold joinReserve AppState.reserveSlot
  cases s.app.rooms.get? ticket.quote.roomId with
  | none => exact ⟨_, hrefused⟩
  | some r =>
      by_cases hfull : r.maxPlayers ≤ r.currentPlayers
      · simp only [hfull, if_true]
        exact ⟨_, hrefused⟩
      · simp only [hfull, if_false]
        exact ⟨_, .writes hc (.joinRegisterPending ticket) ⟨s.tunnel,
          s.app.modifyRoom ticket.quote.roomId Room.increment, s.roomIds, []⟩ rfl rfl
          (fun _ => by rw [hpc]; rfl) (.of_players rfl)⟩

theorem turn_joinRegisterPending {ticket : JoinTicket} {tunnelToken : String}
    (hpc : h.pc = .joinRegisterPending ticket)
    (hstep : s.joinRegisterPending c h ticket tunnelToken = some s') :
    ∃ h', Turn s s' c h h' := by
  obtain ⟨tunnel, _, rfl⟩ := Option.map_eq_some_iff.mp hstep
  exact ⟨_, .writes hc (.joinRegisterBinding ticket tunnelToken)
    ⟨tunnel, s.app, s.roomIds, []⟩ rfl rfl (fun _ => by rw [hpc]; rfl) (.of_players rfl)⟩

/-- The messages to both parties of a successful `JoinRoom`. -/
def joinLetters (c : SocketId) (h : Handler) (ticket : JoinTicket) (tunnelToken : String) :
    List (SocketId × ServerMessage) :=
  let gameinfo := ticket.quote.gameinfo
  [(c, .stunInfo ticket.hostIp), (ticket.hostTx, .stunInfo h.clientIp),
    (c, .joinResult true (some ticket.quote.roomId) (some tunnelToken)
      (if gameinfo.isEmpty then none else some gameinfo)),
    (ticket.hostTx, .playerJoined ticket.joinerNickname tunnelToken)]

theorem turn_joinRegisterBinding {ticket : JoinTicket} {tunnelToken : String}
    (hpc : h.pc = .joinRegisterBinding ticket tunnelToken)
    (hstep : s.joinRegisterBinding c h ticket tunnelToken = some s') :
    ∃ h', Turn s s' c h h' := by
  obtain ⟨tunnel, _, rfl⟩ := Option.map_eq_some_iff.mp hstep
  exact ⟨_, .writes hc (.joinRecord ticket)
    ⟨tunnel, s.app, s.roomIds, joinLetters c h ticket tunnelToken⟩ rfl rfl
    (fun _ => by rw [hpc]; rfl) (.of_players rfl)⟩

theorem turn_joined (hpc : h.pc.guarded = true) {app : AppState}
    (htx : TxKept s.app app h.playerId c) : ∃ h', Turn s ((s.setApp app).joined c h) c h h' :=
  ⟨_, .of_writes hc { h with lastJoinAt := some s.now, pc := .broadcast }
    ⟨s.tunnel, app, s.roomIds, []⟩ rfl rfl rfl (.inr rfl) (fun hg _ => hg hpc) htx⟩

theorem turn_joinRecord {ticket : JoinTicket} (hpc : h.pc = .joinRecord ticket) :
    ∃ h', Turn s (s.joinRecord c h ticket) c h h' := by
  have htx : TxKept s.app (s.app.replaceJoinedRoom h.playerId ticket.quote.roomId).1
      h.playerId c := .modify h.playerId fun _ => rfl
  dsimp only [joinRecord]
  cases (s.app.replaceJoinedRoom h.playerId ticket.quote.roomId).2 with
  | some oldId =>
      exact ⟨_, .writes hc (.joinReleaseOld oldId) ⟨s.tunnel,
        (s.app.replaceJoinedRoom h.playerId ticket.quote.roomId).1, s.roomIds, []⟩ rfl rfl
        (fun _ => by rw [hpc]; rfl) htx⟩
  | none => exact turn_joined hc (by rw [hpc]; rfl) htx

theorem turn_joinReleaseOld {oldId : String} (hpc : h.pc = .joinReleaseOld oldId) :
    ∃ h', Turn s (s.joinReleaseOld c h oldId) c h h' :=
  turn_joined hc (by rw [hpc]; rfl) (.of_players rfl)

theorem turn_leaving : ∃ h', Turn s (s.leaving c h) c h h' := by
  unfold leaving AppState.takePlayer
  split
  · cases s.app.players.get? h.playerId with
    | some p =>
        exact ⟨_, .writes hc (.removeRooms p.hostingRoom p.joinedRoom)
          ⟨s.tunnel, (s.app.takePlayer h.playerId).1, s.roomIds, []⟩ rfl rfl (by rintro ⟨⟩)
          (.remove h.playerId)⟩
    | none =>
        exact ⟨_, .writes hc .finalBroadcast ⟨s.tunnel, s.app, s.roomIds, []⟩ rfl rfl (by rintro ⟨⟩)
          (.of_players rfl)⟩
  · exact ⟨_, .writes hc .finalBroadcast
      ⟨s.tunnel, s.app.markDisconnected s.now h.playerId, s.roomIds, []⟩ rfl rfl (by rintro ⟨⟩)
      (.modify h.playerId fun _ => rfl)⟩

theorem turn_removeRooms (hostingRoom joinedRoom : Option String) :
    ∃ h', Turn s (s.removeRooms c h hostingRoom joinedRoom) c h h' :=
  ⟨_, .writes hc .finalBroadcast
    ⟨s.tunnel, s.app.clearRooms hostingRoom joinedRoom, s.roomIds, []⟩ rfl rfl (by rintro ⟨⟩)
    (.clearRooms hostingRoom joinedRoom)⟩

theorem turn_returned (hpc : h.pc = .returned) :
    ∃ h', Turn s ((s.setApp (s.app.releaseConnection h.clientIp)).goto c h .released) c h h' :=
  ⟨_, .of_writes hc _ ⟨s.tunnel, s.app.releaseConnection h.clientIp, s.roomIds, []⟩ rfl rfl rfl
    (.inl ⟨rfl, by rw [hpc]; rfl⟩) (fun _ => by rintro ⟨⟩) (.of_players rfl)⟩

end Blocks

/-- Where a handler that broadcasts goes on. -/
def broadcastsTo : HandlerPc → Option HandlerPc
  | .broadcast => some .receiving
  | .finalBroadcast => some .returned
  | _ => none

/-- Every block but the two broadcasts is a turn. -/
theorem turn_block (hc : s.sockets.get? c = some (.running h)) {fresh : String}
    (hstep : s.block c h fresh = some s') (hquiet : broadcastsTo h.pc = none) :
    ∃ h', Turn s s' c h h' := by
  have harm := arm_of_block hstep
  generalize hpc : h.pc = pc at harm hquiet
  cases harm with
  | broadcast | finalBroadcast => cases hquiet
  | createInsert draft hstep => exact turn_createInsert hc hpc hstep
  | joinRegisterPending ticket hstep => exact turn_joinRegisterPending hc hpc hstep
  | joinRegisterBinding ticket token hstep => exact turn_joinRegisterBinding hc hpc hstep
  | registerCount nickname war3Version => exact turn_registerCount hc hpc
  | registerInsert nickname war3Version lastHeartbeat =>
      exact turn_registerInsert hc nickname war3Version lastHeartbeat
  | heartbeat => exact ⟨_, turn_heartbeat hc hpc⟩
  | createRead request => exact turn_createRead hc hpc
  | createCount draft => exact turn_createCount hc hpc
  | createLink roomId => exact turn_createLink hc hpc
  | closeTake => exact turn_closeTake hc hpc
  | closeRemove roomId => exact turn_closeRemove hc hpc
  | upnpLookup externalAddr tunnelToken => exact turn_upnpLookup hc hpc
  | upnpForward externalAddr joinerPlayerId => exact turn_upnpForward hc hpc
  | joinRoom roomId => exact turn_joinRoom hc hpc
  | joinPlayers quote => exact turn_joinPlayers hc hpc
  | joinReserve ticket => exact turn_joinReserve hc hpc
  | joinRecord ticket => exact turn_joinRecord hc hpc
  | joinReleaseOld oldId => exact turn_joinReleaseOld hc hpc
  | leaving => exact turn_leaving hc
  | removeRooms hostingRoom joinedRoom => exact turn_removeRooms hc hostingRoom joinedRoom
  | returned => exact turn_returned hc hpc

/-! ### The receive loop -/

section Loop

variable (hc : s.sockets.get? c = some (.running h))

include hc

/-- A registered handler that leaves the loop is bound to broadcast; another one owed
nothing. -/
theorem turn_exit (hguarded : h.Guarded) (hloop : h.pc.inLoop = true) :
    Turn s (s.put c h.exit) c h h.exit := by
  have hduty : s.app.snapshot = s.app.snapshot ∧ h.pc.owes = false ∨ h.exit.pc.owes = true := by
    cases howes : h.pc.owes with
    | false => exact .inl ⟨rfl, rfl⟩
    | true =>
        have hregistered := hguarded (HandlerPc.guarded_of_owes howes hloop)
        simp [Handler.exit, hregistered, HandlerPc.owes]
  refine .of_writes hc h.exit ⟨s.tunnel, s.app, s.roomIds, []⟩ rfl rfl rfl hduty ?_
    (.of_players rfl)
  intro _ hpc
  unfold Handler.exit at hpc
  split at hpc <;> cases hpc

/-- The handler answers at once, and goes on reading. -/
theorem turn_answers (hpc : h.pc = .receiving) (letters : List (SocketId × ServerMessage))
    (hletters : noSnapshot letters = true) :
    Turn s { s with outboxes := mail s.outboxes letters } c h h where
  moves := ⟨by rw [← hc, Function.update_eq_self], rfl, rfl⟩
  cleanup := rfl
  mailed := ⟨letters, hletters, rfl⟩
  duty := .inl ⟨rfl, by rw [hpc]; rfl⟩
  guarded := id
  tx := .of_players rfl

omit hc in
/-- An arm that needs a registered player begins only for one. -/
theorem Begins.registered {externalIp : Option IpAddr} {m : ClientMessage} {pc : HandlerPc}
    (hbegins : Begins s h externalIp m pc) (hpc : pc.guarded = true) : h.registered = true := by
  cases hbegins with
  | register | heartbeat => cases hpc
  | createRoom request hplayer | closeRoom hplayer | upnpMapped hplayer | joinRoom hplayer =>
      rw [Bool.or_eq_false_iff, Bool.not_eq_false'] at hplayer
      exact hplayer.1

/-- A message that passed the checks begins one arm of the loop, or none. -/
theorem turn_dispatch (hpc : h.pc = .receiving) (m : ValidMessage)
    (externalIp : Option IpAddr) :
    ∃ h', Turn s (s.dispatch c h m externalIp) c h h' := by
  have howes : h.pc.owes = false := by rw [hpc]; rfl
  have hdispatched := dispatched s c h m externalIp
  generalize s.dispatch c h m externalIp = s' at hdispatched ⊢
  cases hdispatched with
  | ignored => exact ⟨h, turn_answers hc hpc [] rfl⟩
  | refused text => exact ⟨h, turn_answers hc hpc [(c, .error text)] rfl⟩
  | answered ts => exact ⟨h, turn_answers hc hpc [(c, .pong ts)] rfl⟩
  | @begun pc hbegins =>
      exact ⟨_, .of_writes hc { h with pc := pc } ⟨s.tunnel, s.app, s.roomIds, []⟩ rfl rfl rfl
        (.inl ⟨rfl, howes⟩) (fun _ => hbegins.registered) (.of_players rfl)⟩

/-- The rate limiter counts before the rest of the turn. -/
theorem turn_after_allow (r : RateLimiter)
    (hturn : ∃ h', Turn (s.put c { h with rateLimiter := r }) s' c { h with rateLimiter := r } h') :
    ∃ h', Turn s s' c h h' := by
  obtain ⟨h', hturn⟩ := hturn
  have hmoves : Moves s s' c h h' := by
    refine ⟨?_, hturn.moves.clientIp, hturn.moves.playerId⟩
    rw [hturn.moves.sockets, get?_put hc, Function.update_idem]
  exact ⟨h', hmoves, hturn.cleanup, hturn.mailed, hturn.duty, hturn.guarded, hturn.tx⟩

theorem turn_frame (hpc : h.pc = .receiving) (item : Incoming) :
    ∃ h', Turn s (s.frame c h item) c h h' := by
  have hguarded : h.Guarded := by
    intro hpc'
    rw [hpc] at hpc'
    cases hpc'
  have hc₁ : (s.put c (s.counted h)).sockets.get? c = some (.running (s.counted h)) := by
    rw [get?_put hc, Function.update_self]
  have hframed := framed s c h item
  generalize s.frame c h item = s' at hframed ⊢
  cases hframed with
  | left => exact ⟨h.exit, turn_exit hc hguarded (by rw [hpc]; rfl)⟩
  | ignored => exact ⟨h, turn_answers hc hpc [] rfl⟩
  | tooLong text => exact ⟨h, turn_answers hc hpc [(c, .error text)] rfl⟩
  | refused text =>
      exact turn_after_allow hc _ ⟨s.counted h, turn_answers hc₁ hpc [(c, .error text)] rfl⟩
  | passed m => exact turn_after_allow hc _ (turn_dispatch hc₁ hpc m _)

end Loop

end Lobby

end War3BattleTool.Server
