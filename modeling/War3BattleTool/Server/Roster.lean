import War3BattleTool.Server.Arms

set_option autoImplicit false

/-!
# What a step of the lobby does to players and rooms

A `Roster` is what occupancy, hosting and presence are about: the players, the rooms, and
what every handler (`Party`) and the cleanup task still have to do to them.  `Effect` lists
what one step can do to a roster, and `effect_of_step` says that every step of the server
is one of these.  `report` names the steps after which something is left undone.
-/

namespace War3BattleTool.Server

open War3BattleTool.Foundation War3BattleTool.Protocol

/-- What a step of the server leaves behind. -/
inductive Event where
  /-- a slot of the room stays counted, and nobody will count it out -/
  | leaked (roomId : String)
  /-- the room stays, and nobody will remove it -/
  | orphaned (roomId : String)
  /-- `find_expired` finds a connected player whose heartbeat is too old -/
  | silent (playerId : String)
  deriving DecidableEq

/-! ## What a handler still has to do -/

/-- The part of a program counter that concerns players and rooms. -/
inductive HandlerStage where
  /-- `handle_socket` does not run yet -/
  | outside
  /-- in the receive loop, with nothing begun -/
  | idle
  /-- about to insert its player -/
  | entering
  /-- read the version of a room -/
  | quoted (roomId : String) (version : War3Version)
  /-- and compared it with the player's -/
  | checked (roomId : String) (version : War3Version)
  /-- holds a slot of the room that no player is recorded for -/
  | reserved (roomId : String) (version : War3Version)
  /-- holds a slot of the room its player has left -/
  | releasing (roomId : String)
  /-- found its player without a room -/
  | planning
  /-- inserted the room, which its player does not know of -/
  | linking (roomId : String)
  /-- holds the room, which its player does not know of any more -/
  | unlinking (roomId : String)
  | leaving
  /-- took its player out, and holds the rooms it was in -/
  | removing (hostingRoom joinedRoom : Option String)
  | gone
  deriving DecidableEq

namespace HandlerStage

/-- In the receive loop. -/
def inLoop : HandlerStage → Bool
  | .outside | .leaving | .removing _ _ | .gone => false
  | _ => true

/-- The connection is there, and its tear-down has not begun. -/
def present (stage : HandlerStage) : Bool := stage.inLoop || stage = .leaving

/-- In the receive loop, with nothing written yet. -/
def free : HandlerStage → Bool
  | .entering | .quoted _ _ | .checked _ _ | .planning => true
  | _ => false

/-- What is left behind when the receive loop is dropped. -/
def left : HandlerStage → List Event
  | .reserved roomId _ | .releasing roomId => [.leaked roomId]
  | .linking roomId | .unlinking roomId => [.orphaned roomId]
  | _ => []

/-- Where the loop leads when it ends. -/
def exit (registered : Bool) : HandlerStage := if registered then .leaving else .gone

end HandlerStage

/-- The stage of a program counter. -/
def HandlerPc.stage : HandlerPc → HandlerStage
  | .registerCount _ _ | .registerInsert _ _ _ => .entering
  | .joinPlayers quote => .quoted quote.roomId quote.roomVersion
  | .joinReserve ticket => .checked ticket.quote.roomId ticket.quote.roomVersion
  | .joinRegisterPending ticket | .joinRegisterBinding ticket _ | .joinRecord ticket =>
      .reserved ticket.quote.roomId ticket.quote.roomVersion
  | .joinReleaseOld oldId => .releasing oldId
  | .createCount _ | .createInsert _ => .planning
  | .createLink roomId => .linking roomId
  | .closeRemove roomId => .unlinking roomId
  | .leaving => .leaving
  | .removeRooms hostingRoom joinedRoom => .removing hostingRoom joinedRoom
  | .finalBroadcast | .returned | .released => .gone
  | _ => .idle

theorem HandlerPc.inLoop_stage (pc : HandlerPc) : pc.stage.inLoop = pc.inLoop := by
  cases pc <;> rfl

/-- A connection as the roster sees it. -/
structure Party where
  playerId : String
  registered : Bool
  stage : HandlerStage
  deriving DecidableEq

/-- A connection whose handler does not run. -/
def Party.outside : Party := ⟨"", false, .outside⟩

/-- The handler's part of the roster. -/
def Handler.party (h : Handler) : Party := ⟨h.playerId, h.registered, h.pc.stage⟩

/-- The connection's part of the roster. -/
def Socket.party : Socket → Party
  | .running h => h.party
  | .upgrading _ | .upgradeFailed _ => .outside

/-! ## Rosters -/

/-- Players, rooms, and what is still to be done to them.  `expired` and `sweep` are the
players and the rooms the cleanup task is about to remove. -/
structure Roster where
  players : Table String ConnectedPlayer
  rooms : Table String Room
  parties : Table SocketId Party
  expired : List String
  sweep : Option (Option String × Option String)
  playerIds : List String
  roomIds : List String

/-- The rooms after the second block of `remove_player`. -/
def clearRooms (rooms : Table String Room) (hostingRoom joinedRoom : Option String) :
    Table String Room :=
  let closed := hostingRoom.elim rooms rooms.remove
  joinedRoom.elim closed (closed.modify · Room.decrement)

theorem clearRooms_eq (a : AppState) (hostingRoom joinedRoom : Option String) :
    (a.clearRooms hostingRoom joinedRoom) =
      { a with rooms := clearRooms a.rooms hostingRoom joinedRoom } := by
  cases hostingRoom <;> cases joinedRoom <;> rfl

/-- Store what a connection still has to do. -/
def Roster.set (r : Roster) (c : SocketId) (P : Party) : Roster :=
  { r with parties := r.parties.modify c fun _ => P }

theorem Roster.set_self {r : Roster} {c : SocketId} {P : Party}
    (hc : r.parties.get? c = some P) : r.set c P = r := by
  have hsame : (r.parties.modify c fun _ => P) = r.parties :=
    Table.modify_eq_self (by simp [hc])
  simp only [Roster.set, hsame]

/-- The players of the cleanup task's list. -/
def CleanupTask.expired : CleanupTask → List String
  | .removePlayers expired | .removeRooms _ _ expired => expired
  | _ => []

/-- The rooms the cleanup task holds. -/
def CleanupTask.sweep : CleanupTask → Option (Option String × Option String)
  | .removeRooms hostingRoom joinedRoom _ => some (hostingRoom, joinedRoom)
  | _ => none

/-- The roster of the server. -/
def Lobby.roster (s : Lobby) : Roster where
  players := s.app.players
  rooms := s.app.rooms
  parties := s.sockets.mapValues fun _ k => k.party
  expired := s.cleanup.expired
  sweep := s.cleanup.sweep
  playerIds := s.playerIds
  roomIds := s.roomIds

/-- What one step can do to a roster, and what it leaves behind. -/
inductive Effect : Roster → Roster → List Event → Prop
  | still {r : Roster} : Effect r r []
  | admitted {r : Roster} {c : SocketId} (hc : r.parties.get? c = none) :
      Effect r { r with parties := r.parties.insert c .outside } []
  | started {r : Roster} {c : SocketId} {id : String}
      (hc : r.parties.get? c = some .outside) (hid : id ∉ r.playerIds) :
      Effect r ({ r with playerIds := id :: r.playerIds }.set c ⟨id, false, .idle⟩) []
  | entering {r : Roster} {c : SocketId} {id : String}
      (hc : r.parties.get? c = some ⟨id, false, .idle⟩) :
      Effect r (r.set c ⟨id, false, .entering⟩) []
  | entered {r : Roster} {c : SocketId} {registered : Bool} {p : ConnectedPlayer}
      (hc : r.parties.get? c = some ⟨p.playerId, registered, .entering⟩)
      (hhosting : p.hostingRoom = none) (hjoined : p.joinedRoom = none)
      (honline : p.disconnectedAt = none) :
      Effect r ({ r with players := r.players.insert p.playerId p }.set c
        ⟨p.playerId, true, .idle⟩) []
  | touched {r : Roster} (id : String) (now : Instant) :
      Effect r { r with
        players := r.players.modify id fun p => { p with lastHeartbeat := now } } []
  | quoted {r : Roster} {c : SocketId} {id roomId : String} {registered : Bool} {room : Room}
      (hc : r.parties.get? c = some ⟨id, registered, .idle⟩)
      (hroom : r.rooms.get? roomId = some room) :
      Effect r (r.set c ⟨id, registered, .quoted roomId room.war3Version⟩) []
  | checked {r : Roster} {c : SocketId} {id roomId : String} {registered : Bool}
      {p : ConnectedPlayer}
      (hc : r.parties.get? c = some ⟨id, registered, .quoted roomId p.war3Version⟩)
      (hp : r.players.get? id = some p) :
      Effect r (r.set c ⟨id, registered, .checked roomId p.war3Version⟩) []
  | planned {r : Roster} {c : SocketId} {id : String} {registered : Bool}
      {p : ConnectedPlayer} (hc : r.parties.get? c = some ⟨id, registered, .idle⟩)
      (hp : r.players.get? id = some p) (hhosting : p.hostingRoom = none) :
      Effect r (r.set c ⟨id, registered, .planning⟩) []
  | gaveUp {r : Roster} {c : SocketId} {id : String} {registered : Bool} {stage : HandlerStage}
      (hc : r.parties.get? c = some ⟨id, registered, stage⟩) (hfree : stage.free = true) :
      Effect r (r.set c ⟨id, registered, .idle⟩) []
  | opened {r : Roster} {c : SocketId} {registered : Bool} {room : Room}
      (hc : r.parties.get? c = some ⟨room.hostPlayerId, registered, .planning⟩)
      (hid : room.roomId ∉ r.roomIds) (hcurrent : room.currentPlayers = 1)
      (hmax : 2 ≤ room.maxPlayers ∧ room.maxPlayers ≤ 12) :
      Effect r ({ r with
        rooms := r.rooms.insert room.roomId room
        roomIds := room.roomId :: r.roomIds }.set c
          ⟨room.hostPlayerId, registered, .linking room.roomId⟩) []
  | linked {r : Roster} {c : SocketId} {id roomId : String} {registered : Bool}
      {p : ConnectedPlayer} (hc : r.parties.get? c = some ⟨id, registered, .linking roomId⟩)
      (hp : r.players.get? id = some p) :
      Effect r ({ r with
        players := r.players.modify id fun p => { p with hostingRoom := some roomId } }.set c
          ⟨id, registered, .idle⟩) []
  | orphaned {r : Roster} {c : SocketId} {id roomId : String} {registered : Bool}
      (hc : r.parties.get? c = some ⟨id, registered, .linking roomId⟩)
      (hp : r.players.get? id = none) :
      Effect r (r.set c ⟨id, registered, .idle⟩) [.orphaned roomId]
  | unlinked {r : Roster} {c : SocketId} {id roomId : String} {registered : Bool}
      {p : ConnectedPlayer} (hc : r.parties.get? c = some ⟨id, registered, .idle⟩)
      (hp : r.players.get? id = some p) (hhosting : p.hostingRoom = some roomId) :
      Effect r ({ r with
        players := r.players.modify id fun p => { p with hostingRoom := none } }.set c
          ⟨id, registered, .unlinking roomId⟩) []
  | closed {r : Roster} {c : SocketId} {id roomId : String} {registered : Bool}
      (hc : r.parties.get? c = some ⟨id, registered, .unlinking roomId⟩) :
      Effect r ({ r with rooms := r.rooms.remove roomId }.set c ⟨id, registered, .idle⟩) []
  | reserved {r : Roster} {c : SocketId} {id roomId : String} {registered : Bool}
      {version : War3Version} {room : Room}
      (hc : r.parties.get? c = some ⟨id, registered, .checked roomId version⟩)
      (hroom : r.rooms.get? roomId = some room)
      (hfree : room.currentPlayers < room.maxPlayers) :
      Effect r ({ r with rooms := r.rooms.modify roomId Room.increment }.set c
        ⟨id, registered, .reserved roomId version⟩) []
  | recorded {r : Roster} {c : SocketId} {id roomId : String} {registered : Bool}
      {version : War3Version} {p : ConnectedPlayer}
      (hc : r.parties.get? c = some ⟨id, registered, .reserved roomId version⟩)
      (hp : r.players.get? id = some p) :
      Effect r ({ r with
        players := r.players.modify id fun p => { p with joinedRoom := some roomId } }.set c
          ⟨id, registered, p.joinedRoom.elim .idle .releasing⟩) []
  | lost {r : Roster} {c : SocketId} {id roomId : String} {registered : Bool}
      {version : War3Version}
      (hc : r.parties.get? c = some ⟨id, registered, .reserved roomId version⟩)
      (hp : r.players.get? id = none) :
      Effect r (r.set c ⟨id, registered, .idle⟩) [.leaked roomId]
  | released {r : Roster} {c : SocketId} {id roomId : String} {registered : Bool}
      (hc : r.parties.get? c = some ⟨id, registered, .releasing roomId⟩) :
      Effect r ({ r with rooms := r.rooms.modify roomId Room.decrement }.set c
        ⟨id, registered, .idle⟩) []
  | dropped {r : Roster} {c : SocketId} {id : String} {registered : Bool} {stage : HandlerStage}
      (hc : r.parties.get? c = some ⟨id, registered, stage⟩) (hloop : stage.inLoop = true) :
      Effect r (r.set c ⟨id, registered, .exit registered⟩) stage.left
  | marked {r : Roster} {c : SocketId} {id : String} {registered : Bool} (now : Instant)
      (hc : r.parties.get? c = some ⟨id, registered, .leaving⟩) :
      Effect r ({ r with
        players := r.players.modify id fun p => { p with disconnectedAt := some now } }.set c
          ⟨id, registered, .gone⟩) []
  | taken {r : Roster} {c : SocketId} {id : String} {registered : Bool}
      {p : ConnectedPlayer} (hc : r.parties.get? c = some ⟨id, registered, .leaving⟩)
      (hp : r.players.get? id = some p) :
      Effect r ({ r with players := r.players.remove id }.set c
        ⟨id, registered, .removing p.hostingRoom p.joinedRoom⟩) []
  | missing {r : Roster} {c : SocketId} {id : String} {registered : Bool}
      (hc : r.parties.get? c = some ⟨id, registered, .leaving⟩)
      (hp : r.players.get? id = none) :
      Effect r (r.set c ⟨id, registered, .gone⟩) []
  | cleared {r : Roster} {c : SocketId} {id : String} {registered : Bool}
      {hostingRoom joinedRoom : Option String}
      (hc : r.parties.get? c = some ⟨id, registered, .removing hostingRoom joinedRoom⟩) :
      Effect r ({ r with rooms := clearRooms r.rooms hostingRoom joinedRoom }.set c
        ⟨id, registered, .gone⟩) []
  | found {r : Roster} {expired silent : List String} (hexpired : r.expired = [])
      (hsweep : r.sweep = none)
      (hfound : ∀ id ∈ expired, ∃ p, r.players.get? id = some p ∧
        (p.disconnectedAt = none → id ∈ silent))
      (hsilent : ∀ id ∈ silent, id ∈ expired) :
      Effect r { r with expired := expired } (silent.map .silent)
  | removed {r : Roster} {id : String} {rest : List String} {p : ConnectedPlayer}
      (hexpired : r.expired = id :: rest) (hsweep : r.sweep = none)
      (hp : r.players.get? id = some p) :
      Effect r { r with
        players := r.players.remove id
        expired := rest
        sweep := some (p.hostingRoom, p.joinedRoom) } []
  | skipped {r : Roster} {id : String} {rest : List String}
      (hexpired : r.expired = id :: rest) (hsweep : r.sweep = none)
      (hp : r.players.get? id = none) :
      Effect r { r with expired := rest } []
  | swept {r : Roster} {hostingRoom joinedRoom : Option String}
      (hsweep : r.sweep = some (hostingRoom, joinedRoom)) :
      Effect r { r with
        rooms := clearRooms r.rooms hostingRoom joinedRoom
        sweep := none } []

namespace Lobby

/-! ## Reports -/

/-- The connected players whose heartbeat is too old. -/
def silentPlayers (s : Lobby) : List String :=
  (s.app.players.entries.filter fun e => e.2.online && e.2.expired s.now).map (·.1)

/-- What the next block of a handler leaves behind: its player is not there any more. -/
def blockReport (s : Lobby) (h : Handler) : List Event :=
  if (s.app.players.get? h.playerId).isSome then []
  else
    match h.pc with
    | .joinRecord ticket => [.leaked ticket.quote.roomId]
    | .createLink roomId => [.orphaned roomId]
    | _ => []

/-- What the next block of the cleanup task finds. -/
def cleanupReport (s : Lobby) : List Event :=
  match s.cleanup with
  | .findExpired => s.silentPlayers.map .silent
  | _ => []

/-- What a step leaves behind. -/
def report (s : Lobby) : Label → List Event
  | .block c _ =>
      match s.sockets.get? c with
      | some (.running h) => s.blockReport h
      | _ => []
  | .drop c =>
      match s.sockets.get? c with
      | some (.running h) => h.pc.stage.left
      | _ => []
  | .cleanup => s.cleanupReport
  | _ => []

/-! ## Every step is an effect -/

variable {s s' : Lobby} {c : SocketId} {h h' : Handler} {stage : HandlerStage}

@[simp] theorem roster_trySend (s : Lobby) (tx : SocketId) (m : ServerMessage) :
    (s.trySend tx m).roster = s.roster := rfl

@[simp] theorem roster_error (s : Lobby) (tx : SocketId) (text : String) :
    (s.error tx text).roster = s.roster := rfl

@[simp] theorem roster_broadcastState (s : Lobby) : s.broadcastState.roster = s.roster := rfl

@[simp] theorem roster_setTunnel (s : Lobby) (tunnel : TunnelService) :
    (s.setTunnel tunnel).roster = s.roster := rfl

theorem roster_setApp (s : Lobby) (app : AppState) :
    (s.setApp app).roster = { s.roster with players := app.players, rooms := app.rooms } := rfl

theorem roster_put (s : Lobby) (c : SocketId) (h' : Handler) :
    (s.put c h').roster = s.roster.set c h'.party := by
  have hparties := Table.mapValues_modify s.sockets c (fun _ => .running h') Socket.party
    h'.party (by simp [Socket.party])
  simp only [roster, put, Roster.set, hparties]

theorem roster_goto (s : Lobby) (c : SocketId) (h : Handler) (pc : HandlerPc) :
    (s.goto c h pc).roster = s.roster.set c ⟨h.playerId, h.registered, pc.stage⟩ :=
  roster_put s c _

theorem roster_joined (s : Lobby) (c : SocketId) (h : Handler) :
    (s.joined c h).roster = s.roster.set c ⟨h.playerId, h.registered, .idle⟩ :=
  roster_put s c _

theorem parties_roster (hc : s.sockets.get? c = some (.running h)) :
    s.roster.parties.get? c = some h.party := by
  simp [roster, Table.get?_mapValues, hc, Socket.party]

theorem parties_of_pc (hc : s.sockets.get? c = some (.running h)) (hstage : h.pc.stage = stage) :
    s.roster.parties.get? c = some ⟨h.playerId, h.registered, stage⟩ := by
  rw [parties_roster hc, Handler.party, hstage]

/-- A step that changes locals only. -/
theorem effect_put (hc : s.sockets.get? c = some (.running h)) (hparty : h'.party = h.party) :
    Effect s.roster (s.put c h').roster [] := by
  rw [roster_put, hparty, Roster.set_self (parties_roster hc)]
  exact .still

/-- A step that proceeds within a stage. -/
theorem effect_goto {pc : HandlerPc} (hc : s.sockets.get? c = some (.running h))
    (hstage : pc.stage = h.pc.stage) : Effect s.roster (s.goto c h pc).roster [] :=
  effect_put hc (by simp [Handler.party, hstage])

/-- A step that goes back to the start of the loop. -/
theorem effect_giveUp (hc : s.sockets.get? c = some (.running h))
    (hfree : h.pc.stage.free = true) : Effect s.roster (s.goto c h .receiving).roster [] := by
  rw [roster_goto]
  exact .gaveUp (parties_of_pc hc rfl) hfree

/-- The loop ends, at whatever point. -/
theorem effect_exit (hc : s.sockets.get? c = some (.running h)) (hloop : h.pc.inLoop = true) :
    Effect s.roster (s.put c h.exit).roster h.pc.stage.left := by
  have hparty : h.exit.party = ⟨h.playerId, h.registered, .exit h.registered⟩ := by
    cases hreg : h.registered <;> simp [Handler.exit, Handler.party, HandlerStage.exit, hreg,
      HandlerPc.stage]
  rw [roster_put, hparty]
  exact .dropped (parties_of_pc hc rfl) (HandlerPc.inLoop_stage _ ▸ hloop)

theorem blockReport_eq_nil (hrecord : ∀ ticket, h.pc ≠ .joinRecord ticket)
    (hlink : ∀ roomId, h.pc ≠ .createLink roomId) : s.blockReport h = [] := by
  unfold blockReport
  split
  · rfl
  · split
    · next ticket hpc => exact absurd hpc (hrecord ticket)
    · next roomId hpc => exact absurd hpc (hlink roomId)
    · rfl

section Blocks

variable (hc : s.sockets.get? c = some (.running h))
include hc

theorem effect_registerCount {nickname : String} {war3Version : War3Version}
    (hpc : h.pc = .registerCount nickname war3Version) :
    Effect s.roster (s.registerCount c h nickname war3Version).roster [] := by
  have hstage : h.pc.stage = .entering := by rw [hpc]; rfl
  unfold registerCount
  split
  · exact effect_giveUp hc (by rw [hstage]; rfl)
  · refine effect_put hc ?_
    simp only [Handler.party, hstage]
    rfl

theorem effect_registerInsert {nickname : String} {war3Version : War3Version}
    {lastHeartbeat : Instant}
    (hpc : h.pc = .registerInsert nickname war3Version lastHeartbeat) :
    Effect s.roster (s.registerInsert c h nickname war3Version lastHeartbeat).roster [] := by
  have hparty : s.roster.parties.get? c = some ⟨h.playerId, h.registered, .entering⟩ :=
    parties_of_pc hc (by rw [hpc]; rfl)
  unfold registerInsert
  split
  all_goals
    simp only [roster_trySend, roster_put, roster_setApp]
    exact .entered (p := ⟨h.playerId, _, _, _, _, _, _, _, _⟩) hparty rfl rfl rfl

theorem effect_heartbeat (hpc : h.pc = .heartbeat) :
    Effect s.roster ((s.setApp (s.app.heartbeat s.now h.playerId)).goto c h .receiving).roster
      [] := by
  have hparty : s.roster.parties.get? c = some ⟨h.playerId, h.registered, .idle⟩ :=
    parties_of_pc hc (by rw [hpc]; rfl)
  simp only [roster_goto, roster_setApp]
  have hsame := Roster.set_self (r := (s.setApp (s.app.heartbeat s.now h.playerId)).roster) hparty
  exact hsame.symm ▸ .touched h.playerId s.now

theorem effect_createRead {request : RoomRequest} (hpc : h.pc = .createRead request) :
    Effect s.roster (s.createRead c h request).roster [] := by
  have hstage : h.pc.stage = .idle := by rw [hpc]; rfl
  unfold createRead
  split
  · next p hp =>
    split
    · exact effect_goto hc hstage.symm
    · next hhosting =>
      simp only [roster_goto]
      exact .planned (parties_of_pc hc hstage) hp (by simpa using hhosting)
  · exact effect_goto hc hstage.symm

theorem effect_createCount {draft : RoomDraft} (hpc : h.pc = .createCount draft) :
    Effect s.roster (s.createCount c h draft).roster [] := by
  unfold createCount
  split
  · exact effect_giveUp hc (by rw [hpc]; rfl)
  · exact effect_goto hc (by rw [hpc]; rfl)

theorem effect_createInsert {draft : RoomDraft} {roomId : String}
    (hpc : h.pc = .createInsert draft) (hstep : s.createInsert c h draft roomId = some s') :
    Effect s.roster s'.roster [] := by
  unfold createInsert at hstep
  split at hstep
  · cases hstep
  · next hfresh =>
    cases hstep
    simp only [roster_goto, roster_setApp]
    have hparty : s.roster.parties.get? c = some ⟨h.playerId, h.registered, .planning⟩ :=
      parties_of_pc hc (by rw [hpc]; rfl)
    have hmax : 2 ≤ (draft.room roomId h.playerId).maxPlayers ∧
        (draft.room roomId h.playerId).maxPlayers ≤ 12 :=
      maxPlayers_of_validate draft.request.valid
    exact .opened hparty hfresh rfl hmax

theorem effect_createLink {roomId : String} (hpc : h.pc = .createLink roomId) :
    Effect s.roster (s.createLink c h roomId).roster (s.blockReport h) := by
  have hparty : s.roster.parties.get? c = some ⟨h.playerId, h.registered, .linking roomId⟩ :=
    parties_of_pc hc (by rw [hpc]; rfl)
  simp only [createLink, roster_goto, roster_setApp]
  cases hp : s.app.players.get? h.playerId with
  | some p =>
      have hreport : s.blockReport h = [] := by simp [blockReport, hp]
      rw [hreport]
      exact .linked hparty hp
  | none =>
      have hreport : s.blockReport h = [.orphaned roomId] := by simp [blockReport, hp, hpc]
      simp only [hreport, AppState.setHostingRoom, AppState.modifyPlayer,
        Table.modify_of_get?_eq_none _ hp]
      exact .orphaned hparty hp

theorem effect_closeTake (hpc : h.pc = .closeTake) :
    Effect s.roster (s.closeTake c h).roster [] := by
  have hparty : s.roster.parties.get? c = some ⟨h.playerId, h.registered, .idle⟩ :=
    parties_of_pc hc (by rw [hpc]; rfl)
  simp only [closeTake, AppState.takeHostingRoom, AppState.modifyPlayer, roster_goto,
    roster_setApp]
  cases hhosting : (s.app.players.get? h.playerId).bind (·.hostingRoom) with
  | some roomId =>
      obtain ⟨p, hp, hroom⟩ := Option.bind_eq_some_iff.mp hhosting
      exact .unlinked hparty hp hroom
  | none =>
      have hsame : (s.app.players.modify h.playerId fun p => { p with hostingRoom := none }) =
          s.app.players := by
        refine Table.modify_eq_self fun p hp => ?_
        have hnone : p.hostingRoom = none := by simpa [hp] using hhosting
        rw [← hnone]
      rw [hsame]
      exact (Roster.set_self hparty).symm ▸ .still

theorem effect_closeRemove {roomId : String} (hpc : h.pc = .closeRemove roomId) :
    Effect s.roster (s.closeRemove c h roomId).roster [] := by
  simp only [closeRemove, roster_goto, roster_setApp]
  exact .closed (parties_of_pc hc (by rw [hpc]; rfl))

theorem effect_upnpLookup {externalAddr tunnelToken : String}
    (hpc : h.pc = .upnpLookup externalAddr tunnelToken) :
    Effect s.roster (s.upnpLookup c h externalAddr tunnelToken).roster [] := by
  unfold upnpLookup
  refine effect_goto (s := s.setTunnel _) hc ?_
  split <;> rw [hpc] <;> rfl

theorem effect_upnpForward {externalAddr joinerPlayerId : String}
    (hpc : h.pc = .upnpForward externalAddr joinerPlayerId) :
    Effect s.roster (s.upnpForward c h externalAddr joinerPlayerId).roster [] := by
  unfold upnpForward
  have heffect : Effect s.roster (s.goto c h .receiving).roster [] :=
    effect_goto hc (by rw [hpc]; rfl)
  dsimp only
  split <;> exact heffect

theorem effect_joinRoom {roomId : String} (hpc : h.pc = .joinRoom roomId) :
    Effect s.roster (s.joinRoom c h roomId).roster [] := by
  have hstage : h.pc.stage = .idle := by rw [hpc]; rfl
  unfold joinRoom
  split
  · next room hroom =>
    simp only [roster_goto]
    exact .quoted (parties_of_pc hc hstage) hroom
  · exact effect_goto hc hstage.symm

theorem effect_joinPlayers {quote : JoinQuote} (hpc : h.pc = .joinPlayers quote) :
    Effect s.roster (s.joinPlayers c h quote).roster [] := by
  have hstage : h.pc.stage = .quoted quote.roomId quote.roomVersion := by rw [hpc]; rfl
  have hback := effect_giveUp hc (by rw [hstage]; rfl)
  unfold joinPlayers
  split
  · exact hback
  · next joiner hp =>
    split
    · exact hback
    · next hversion =>
      split
      · simp only [roster_goto]
        rw [← not_not.mp hversion] at hstage
        have heffect := Effect.checked (parties_of_pc hc hstage) hp
        rwa [not_not.mp hversion] at heffect
      · exact hback

theorem effect_joinReserve {ticket : JoinTicket} (hpc : h.pc = .joinReserve ticket) :
    Effect s.roster (s.joinReserve c h ticket).roster [] := by
  have hstage : h.pc.stage = .checked ticket.quote.roomId ticket.quote.roomVersion := by
    rw [hpc]
    rfl
  have hback := effect_giveUp hc (by rw [hstage]; rfl)
  unfold joinReserve AppState.reserveSlot
  cases hroom : s.app.rooms.get? ticket.quote.roomId with
  | none => exact hback
  | some room =>
      by_cases hfull : room.maxPlayers ≤ room.currentPlayers
      · simp only [hfull, if_true]
        exact hback
      · simp only [hfull, if_false, roster_goto, roster_setApp]
        exact .reserved (parties_of_pc hc hstage) hroom (Nat.lt_of_not_le hfull)

theorem effect_joinRegisterPending {ticket : JoinTicket} {token : String}
    (hpc : h.pc = .joinRegisterPending ticket)
    (hstep : s.joinRegisterPending c h ticket token = some s') :
    Effect s.roster s'.roster [] := by
  obtain ⟨tunnel, _, rfl⟩ := Option.map_eq_some_iff.mp hstep
  exact effect_goto (s := s.setTunnel tunnel) hc (by rw [hpc]; rfl)

theorem effect_joinRegisterBinding {ticket : JoinTicket} {token : String}
    (hpc : h.pc = .joinRegisterBinding ticket token)
    (hstep : s.joinRegisterBinding c h ticket token = some s') :
    Effect s.roster s'.roster [] := by
  obtain ⟨tunnel, _, rfl⟩ := Option.map_eq_some_iff.mp hstep
  exact effect_goto (s := s.setTunnel tunnel) hc (by rw [hpc]; rfl)

theorem effect_joinRecord {ticket : JoinTicket} (hpc : h.pc = .joinRecord ticket) :
    Effect s.roster (s.joinRecord c h ticket).roster (s.blockReport h) := by
  have hparty : s.roster.parties.get? c = some ⟨h.playerId, h.registered,
      .reserved ticket.quote.roomId ticket.quote.roomVersion⟩ :=
    parties_of_pc hc (by rw [hpc]; rfl)
  simp only [joinRecord, AppState.replaceJoinedRoom, AppState.modifyPlayer]
  cases hp : s.app.players.get? h.playerId with
  | some p =>
      have hreport : s.blockReport h = [] := by simp [blockReport, hp]
      rw [hreport]
      have heffect := Effect.recorded hparty hp
      cases hold : p.joinedRoom with
      | some oldId =>
          simp only [Option.bind_some, hold, roster_goto, roster_setApp]
          rw [hold] at heffect
          exact heffect
      | none =>
          simp only [Option.bind_some, hold, roster_joined, roster_setApp]
          rw [hold] at heffect
          exact heffect
  | none =>
      have hreport : s.blockReport h = [.leaked ticket.quote.roomId] := by
        simp [blockReport, hp, hpc]
      simp only [hreport, Option.bind_none, roster_joined, roster_setApp,
        Table.modify_of_get?_eq_none _ hp]
      exact .lost hparty hp

theorem effect_joinReleaseOld {oldId : String} (hpc : h.pc = .joinReleaseOld oldId) :
    Effect s.roster (s.joinReleaseOld c h oldId).roster [] := by
  simp only [joinReleaseOld, roster_joined, roster_setApp]
  exact .released (parties_of_pc hc (by rw [hpc]; rfl))

theorem effect_leaving (hpc : h.pc = .leaving) :
    Effect s.roster (s.leaving c h).roster [] := by
  have hparty : s.roster.parties.get? c = some ⟨h.playerId, h.registered, .leaving⟩ :=
    parties_of_pc hc (by rw [hpc]; rfl)
  unfold leaving
  split
  · simp only [AppState.takePlayer]
    cases hp : s.app.players.get? h.playerId with
    | some p =>
        simp only [Option.map_some, roster_goto, roster_setApp]
        exact .taken hparty hp
    | none =>
        simp only [Option.map_none, goto, roster_put]
        exact .missing hparty hp
  · simp only [roster_goto, roster_setApp]
    exact .marked s.now hparty

theorem effect_removeRooms {hostingRoom joinedRoom : Option String}
    (hpc : h.pc = .removeRooms hostingRoom joinedRoom) :
    Effect s.roster (s.removeRooms c h hostingRoom joinedRoom).roster [] := by
  simp only [removeRooms, roster_goto, roster_setApp, clearRooms_eq]
  exact .cleared (parties_of_pc hc (by rw [hpc]; rfl))

/-- The next block of a handler is one effect, which leaves nothing behind unless its
player is not there any more. -/
theorem effect_quietBlock {fresh : String} (hstep : s.block c h fresh = some s')
    (hrecord : ∀ ticket, h.pc ≠ .joinRecord ticket)
    (hlink : ∀ roomId, h.pc ≠ .createLink roomId) : Effect s.roster s'.roster [] := by
  have harm := arm_of_block hstep
  generalize hpc : h.pc = pc at harm
  cases harm with
  | joinRecord ticket => exact absurd hpc (hrecord ticket)
  | createLink roomId => exact absurd hpc (hlink roomId)
  | createInsert draft hstep => exact effect_createInsert hc hpc hstep
  | joinRegisterPending ticket hstep => exact effect_joinRegisterPending hc hpc hstep
  | joinRegisterBinding ticket token hstep => exact effect_joinRegisterBinding hc hpc hstep
  | registerCount nickname war3Version => exact effect_registerCount hc hpc
  | registerInsert nickname war3Version lastHeartbeat => exact effect_registerInsert hc hpc
  | broadcast => exact effect_goto (s := s.broadcastState) hc (by rw [hpc]; rfl)
  | heartbeat => exact effect_heartbeat hc hpc
  | createRead request => exact effect_createRead hc hpc
  | createCount draft => exact effect_createCount hc hpc
  | closeTake => exact effect_closeTake hc hpc
  | closeRemove roomId => exact effect_closeRemove hc hpc
  | upnpLookup externalAddr tunnelToken => exact effect_upnpLookup hc hpc
  | upnpForward externalAddr joinerPlayerId => exact effect_upnpForward hc hpc
  | joinRoom roomId => exact effect_joinRoom hc hpc
  | joinPlayers quote => exact effect_joinPlayers hc hpc
  | joinReserve ticket => exact effect_joinReserve hc hpc
  | joinReleaseOld oldId => exact effect_joinReleaseOld hc hpc
  | leaving => exact effect_leaving hc hpc
  | removeRooms hostingRoom joinedRoom => exact effect_removeRooms hc hpc
  | finalBroadcast => exact effect_goto (s := s.broadcastState) hc (by rw [hpc]; rfl)
  | returned => exact effect_goto (s := s.setApp _) hc (by rw [hpc]; rfl)

theorem effect_block {fresh : String} (hstep : s.block c h fresh = some s') :
    Effect s.roster s'.roster (s.blockReport h) := by
  by_cases hrecord : ∃ ticket, h.pc = .joinRecord ticket
  · obtain ⟨ticket, hpc⟩ := hrecord
    simp only [block, hpc, Option.some.injEq] at hstep
    exact hstep ▸ effect_joinRecord hc hpc
  · by_cases hlink : ∃ roomId, h.pc = .createLink roomId
    · obtain ⟨roomId, hpc⟩ := hlink
      simp only [block, hpc, Option.some.injEq] at hstep
      exact hstep ▸ effect_createLink hc hpc
    · rw [blockReport_eq_nil (not_exists.mp hrecord) (not_exists.mp hlink)]
      exact effect_quietBlock hc hstep (not_exists.mp hrecord) (not_exists.mp hlink)

/-! ### The receive loop -/

/-- A message that passed the checks begins one arm of the loop, or none. -/
theorem effect_dispatch (hpc : h.pc = .receiving) (m : ValidMessage)
    (externalIp : Option IpAddr) :
    Effect s.roster (s.dispatch c h m externalIp).roster [] := by
  have hdispatched := dispatched s c h m externalIp
  generalize s.dispatch c h m externalIp = s' at hdispatched ⊢
  cases hdispatched with
  | ignored | refused | answered => exact .still
  | begun hbegins =>
      generalize m.message = message at hbegins
      cases hbegins with
      | register hnew =>
          have hparty : s.roster.parties.get? c = some ⟨h.playerId, h.registered, .idle⟩ :=
            parties_of_pc hc (by rw [hpc]; rfl)
          rw [roster_goto, hnew]
          exact .entering (hnew ▸ hparty)
      | _ => exact effect_goto hc (by rw [hpc]; rfl)

theorem effect_frame (hpc : h.pc = .receiving) (item : Incoming) :
    Effect s.roster (s.frame c h item).roster [] := by
  have hput : (s.put c (s.counted h)).roster = s.roster :=
    (roster_put s c (s.counted h)).trans (Roster.set_self (P := h.party) (parties_roster hc))
  have hc' : (s.put c (s.counted h)).sockets.get? c = some (.running (s.counted h)) := by
    simp [put, Table.get?_modify, hc]
  have hframed := framed s c h item
  generalize s.frame c h item = s' at hframed ⊢
  cases hframed with
  | left =>
      have heffect := effect_exit hc (by rw [hpc]; rfl)
      rwa [hpc] at heffect
  | ignored | tooLong => exact .still
  | refused text =>
      rw [← hput]
      exact .still
  | passed m =>
      rw [← hput]
      exact effect_dispatch hc' hpc m _

end Blocks

/-! ### Admission, upgrade and cleanup -/

theorem effect_request {originOk : Bool} {ip : IpAddr}
    (hstep : s.request c originOk ip = some s') : Effect s.roster s'.roster [] := by
  obtain ⟨conns, hframe⟩ := wsHandler_frame s.app originOk ip
  unfold request at hstep
  split at hstep
  · cases hstep
  · next hc =>
    have hparty : s.roster.parties.get? c = none := by
      simp [roster, Table.get?_mapValues, hc]
    split at hstep
    · next app hok =>
      cases hstep
      obtain rfl : app = _ := (congrArg Prod.fst hok).symm.trans hframe
      have hparties := Table.mapValues_insert Socket.party (.upgrading ip) hc
      simp only [setApp, roster, hparties]
      exact .admitted hparty
    · next app _ hok =>
      cases hstep
      obtain rfl : app = _ := (congrArg Prod.fst hok).symm.trans hframe
      exact .still

theorem effect_upgraded {ip : IpAddr} {playerId : String}
    (hc : s.sockets.get? c = some (.upgrading ip))
    (hstep : s.upgraded c ip playerId = some s') : Effect s.roster s'.roster [] := by
  have hparty : s.roster.parties.get? c = some .outside := by
    simp [roster, Table.get?_mapValues, hc, Socket.party]
  unfold upgraded at hstep
  split at hstep
  · cases hstep
  · next hfresh =>
    cases hstep
    rw [roster_put]
    exact .started hparty hfresh

theorem effect_upgradeFailed {ip : IpAddr} (hc : s.sockets.get? c = some (.upgrading ip)) :
    Effect s.roster
      { s with sockets := s.sockets.modify c fun _ => .upgradeFailed ip }.roster [] := by
  have hparty : s.roster.parties.get? c = some .outside := by
    simp [roster, Table.get?_mapValues, hc, Socket.party]
  have hparties := Table.mapValues_modify s.sockets c (fun _ => .upgradeFailed ip) Socket.party
    .outside (by simp [Socket.party])
  have hsame : { s with sockets := s.sockets.modify c fun _ => .upgradeFailed ip }.roster =
      s.roster.set c .outside := by
    simp only [roster, Roster.set, hparties]
  rw [hsame, Roster.set_self hparty]
  exact .still

/-- The players found expired are in the lobby, and the connected ones are silent. -/
theorem mem_findExpired {id : String} (hid : id ∈ s.app.findExpired s.now) :
    ∃ p, s.app.players.get? id = some p ∧
      (p.disconnectedAt = none → id ∈ s.silentPlayers) := by
  simp only [AppState.findExpired, List.mem_map, List.mem_filter] at hid
  obtain ⟨⟨id, p⟩, ⟨hmem, hexpired⟩, rfl⟩ := hid
  refine ⟨p, Table.mem_entries_iff.mp hmem, fun honline => ?_⟩
  simp only [silentPlayers, List.mem_map, List.mem_filter]
  exact ⟨⟨id, p⟩, ⟨hmem, by simp [ConnectedPlayer.online, honline, hexpired]⟩, rfl⟩

theorem findExpired_of_silent {id : String} (hid : id ∈ s.silentPlayers) :
    id ∈ s.app.findExpired s.now := by
  simp only [silentPlayers, List.mem_map, List.mem_filter, Bool.and_eq_true] at hid
  obtain ⟨e, ⟨hmem, _, hexpired⟩, rfl⟩ := hid
  exact List.mem_map.mpr ⟨e, List.mem_filter.mpr ⟨hmem, hexpired⟩, rfl⟩

theorem effect_cleanup (hstep : s.cleanupStep = some s') :
    Effect s.roster s'.roster s.cleanupReport := by
  have hexpired : s.roster.expired = s.cleanup.expired := rfl
  have hsweep : s.roster.sweep = s.cleanup.sweep := rfl
  unfold cleanupStep at hstep
  unfold cleanupReport
  cases hpc : s.cleanup with
  | tick =>
      simp only [hpc] at hstep
      split at hstep
      · cases hstep
        simp only [roster, hpc]
        exact .still
      · cases hstep
  | tunnels =>
      simp only [hpc, Option.some.injEq] at hstep
      subst hstep
      simp only [roster, hpc]
      split <;> exact .still
  | findExpired =>
      simp only [hpc, Option.some.injEq] at hstep
      subst hstep
      have heffect := Effect.found (r := s.roster) (by rw [hexpired, hpc]; rfl)
        (by rw [hsweep, hpc]; rfl) (fun id hid => mem_findExpired hid)
        fun id hid => findExpired_of_silent hid
      simp only [roster, hpc] at heffect ⊢
      split
      · next hnone =>
        rw [List.isEmpty_iff.mp hnone] at heffect
        exact heffect
      · exact heffect
  | removePlayers ids =>
      cases ids with
      | nil =>
          simp only [hpc, Option.some.injEq] at hstep
          subst hstep
          simp only [roster, hpc]
          exact .still
      | cons id rest =>
          simp only [hpc, Option.some.injEq] at hstep
          subst hstep
          rw [hpc] at hexpired hsweep
          simp only [AppState.takePlayer]
          cases hp : s.app.players.get? id with
          | some p => exact .removed hexpired hsweep hp
          | none =>
              have heffect := Effect.skipped hexpired hsweep hp
              simp only [roster, hpc] at heffect ⊢
              rw [Table.remove_of_get?_eq_none hp]
              exact heffect
  | removeRooms hostingRoom joinedRoom rest =>
      simp only [hpc, Option.some.injEq] at hstep
      subst hstep
      rw [hpc] at hsweep
      have heffect := Effect.swept hsweep
      simp only [roster, hpc] at heffect ⊢
      rw [clearRooms_eq]
      exact heffect

/-- Every step of the server is one effect on its roster. -/
theorem effect_of_step {l : Label} (hstep : s.step l = some s') :
    Effect s.roster s'.roster (s.report l) := by
  cases l with
  | elapse d =>
      cases hstep
      exact .still
  | tunnel l =>
      simp only [step] at hstep
      split at hstep
      · obtain ⟨tunnel, _, rfl⟩ := Option.map_eq_some_iff.mp hstep
        exact .still
      · cases hstep
  | request c originOk ip => exact effect_request hstep
  | upgrade c playerId =>
      simp only [step] at hstep
      split at hstep
      · next ip hc =>
        split at hstep
        · exact effect_upgraded hc hstep
        · cases hstep
          exact effect_upgradeFailed hc
      · cases hstep
  | frame c item =>
      obtain ⟨h, hc, hstep⟩ := whenRunning_eq_some hstep
      split at hstep
      · next hpc =>
        cases hstep
        exact effect_frame hc hpc item
      · cases hstep
  | block c fresh =>
      obtain ⟨h, hc, hstep⟩ := whenRunning_eq_some hstep
      simpa only [report, hc] using effect_block hc hstep
  | drop c =>
      obtain ⟨h, hc, hstep⟩ := whenRunning_eq_some hstep
      split at hstep
      · next hloses =>
        cases hstep
        simp only [loopLoses, Bool.and_eq_true] at hloses
        simpa only [report, hc] using effect_exit hc hloses.1
      · cases hstep
  | sent c ok =>
      obtain ⟨o, _, hstep⟩ := Option.bind_eq_some_iff.mp hstep
      obtain ⟨o', _, rfl⟩ := Option.map_eq_some_iff.mp hstep
      exact .still
  | cleanup => exact effect_cleanup hstep

end Lobby

end War3BattleTool.Server
