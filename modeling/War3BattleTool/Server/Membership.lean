import War3BattleTool.Server.Roster

set_option autoImplicit false

/-!
# What a roster never forgets

The facts that hold in every state of the server, also between the blocks of its handlers:
player ids and room ids are never reused, a player in the map belongs to a registered
connection, and what a handler read about a room or about its own player stays true for as
long as the room or the player is there.
-/

namespace War3BattleTool.Server

open War3BattleTool.Foundation War3BattleTool.Protocol

/-! ## What an effect does to the rooms, to the players and to the connections -/

section Cases

variable {r r' : Roster} {events : List Event}

@[simp] theorem Roster.players_set (r : Roster) (c : SocketId) (P : Party) :
    (r.set c P).players = r.players := rfl

@[simp] theorem Roster.rooms_set (r : Roster) (c : SocketId) (P : Party) :
    (r.set c P).rooms = r.rooms := rfl

@[simp] theorem Roster.roomIds_set (r : Roster) (c : SocketId) (P : Party) :
    (r.set c P).roomIds = r.roomIds := rfl

@[simp] theorem Roster.playerIds_set (r : Roster) (c : SocketId) (P : Party) :
    (r.set c P).playerIds = r.playerIds := rfl

@[simp] theorem Roster.expired_set (r : Roster) (c : SocketId) (P : Party) :
    (r.set c P).expired = r.expired := rfl

@[simp] theorem Roster.sweep_set (r : Roster) (c : SocketId) (P : Party) :
    (r.set c P).sweep = r.sweep := rfl

theorem Roster.parties_set {r : Roster} {c c' : SocketId} {P P' : Party} :
    (r.set c P).parties.get? c' = some P' ↔
      c' = c ∧ P' = P ∧ (r.parties.get? c).isSome = true ∨
        c' ≠ c ∧ r.parties.get? c' = some P' := by
  simp only [Roster.set, Table.get?_modify]
  by_cases hc : c' = c
  · subst hc
    cases r.parties.get? c' <;> simp [eq_comm]
  · simp [hc]

/-- A room that survives the second block of `remove_player` was there before. -/
theorem get?_clearRooms {rooms : Table String Room} {hostingRoom joinedRoom : Option String}
    {id : String} {room' : Room}
    (h : (clearRooms rooms hostingRoom joinedRoom).get? id = some room') :
    ∃ room n, rooms.get? id = some room ∧ room' = { room with currentPlayers := n } := by
  have hclosed : ∀ {room}, (hostingRoom.elim rooms rooms.remove).get? id = some room →
      rooms.get? id = some room := by
    intro room hroom
    cases hostingRoom with
    | none => exact hroom
    | some closedId =>
        simp only [Option.elim_some, Table.get?_remove] at hroom
        split at hroom
        · cases hroom
        · exact hroom
  cases joinedRoom with
  | none => exact ⟨room', room'.currentPlayers, hclosed h, rfl⟩
  | some leftId =>
      simp only [clearRooms, Option.elim_some, Table.get?_modify] at h
      split at h
      · obtain ⟨room, hroom, rfl⟩ := Option.map_eq_some_iff.mp h
        exact ⟨room, _, hclosed hroom, rfl⟩
      · exact ⟨room', room'.currentPlayers, hclosed h, rfl⟩

/-- A room is new under a fresh id, or it was there and only its counter changed. -/
theorem Effect.room_cases (h : Effect r r' events) {id : String} {room' : Room}
    (hroom : r'.rooms.get? id = some room') :
    (∃ room n, r.rooms.get? id = some room ∧ room' = { room with currentPlayers := n }) ∨
      id ∉ r.roomIds ∧ r'.roomIds = id :: r.roomIds ∧ room'.roomId = id ∧
        2 ≤ room'.maxPlayers ∧ room'.maxPlayers ≤ 12 := by
  have hsame : r.rooms.get? id = some room' →
      ∃ room n, r.rooms.get? id = some room ∧ room' = { room with currentPlayers := n } :=
    fun hroom => ⟨room', room'.currentPlayers, hroom, rfl⟩
  cases h with
  | opened hc hid hcurrent hmax =>
      simp only [Roster.rooms_set, Table.get?_insert] at hroom
      split at hroom
      · next heq =>
        cases hroom
        exact .inr ⟨heq ▸ hid, heq ▸ rfl, heq.symm, hmax⟩
      · exact .inl (hsame hroom)
  | closed hc =>
      simp only [Roster.rooms_set, Table.get?_remove] at hroom
      split at hroom
      · cases hroom
      · exact .inl (hsame hroom)
  | reserved | released =>
      simp only [Roster.rooms_set, Table.get?_modify] at hroom
      split at hroom
      · obtain ⟨room, hold, rfl⟩ := Option.map_eq_some_iff.mp hroom
        exact .inl ⟨room, _, hold, rfl⟩
      · exact .inl (hsame hroom)
  | cleared | swept => exact .inl (get?_clearRooms hroom)
  | _ => exact .inl (hsame hroom)

theorem Effect.roomIds (h : Effect r r' events) : r'.roomIds = r.roomIds ∨
    ∃ id, r'.roomIds = id :: r.roomIds := by
  cases h with
  | opened => exact .inr ⟨_, rfl⟩
  | _ => exact .inl rfl

/-- A player's room to host is the one it hosted, none, or the one its handler links. -/
def HostingBy (r r' : Roster) (id : String) (p p' : ConnectedPlayer) : Prop :=
  p'.hostingRoom = p.hostingRoom ∨ p'.hostingRoom = none ∨
    ∃ c registered roomId, r.parties.get? c = some ⟨id, registered, .linking roomId⟩ ∧
      r'.parties.get? c = some ⟨id, registered, .idle⟩ ∧ p'.hostingRoom = some roomId

/-- A player's room is the one it was in, or the one its handler holds a slot of. -/
def JoinedBy (r : Roster) (id : String) (p p' : ConnectedPlayer) : Prop :=
  p'.joinedRoom = p.joinedRoom ∨
    ∃ c registered roomId version,
      r.parties.get? c = some ⟨id, registered, .reserved roomId version⟩ ∧
        p'.joinedRoom = some roomId

/-- A player is new, or it was there and its handler or its heartbeat changed it. -/
theorem Effect.player_cases (h : Effect r r' events) {id : String} {p' : ConnectedPlayer}
    (hp' : r'.players.get? id = some p') :
    (∃ p, r.players.get? id = some p ∧ p'.playerId = p.playerId ∧
        p'.war3Version = p.war3Version ∧ HostingBy r r' id p p' ∧ JoinedBy r id p p') ∨
      p'.playerId = id ∧ p'.hostingRoom = none ∧ p'.joinedRoom = none ∧
        ∃ c registered, r.parties.get? c = some ⟨id, registered, .entering⟩ ∧
          r'.parties.get? c = some ⟨id, true, .idle⟩ := by
  have hset : ∀ {players : Table String ConnectedPlayer} {c : SocketId} {P P₀ : Party},
      r.parties.get? c = some P →
        ({ r with players := players }.set c P₀).parties.get? c = some P₀ :=
    fun hc => Roster.parties_set.mpr (.inl ⟨rfl, rfl, by simp [hc]⟩)
  have hsame : r.players.get? id = some p' →
      ∃ p, r.players.get? id = some p ∧ p'.playerId = p.playerId ∧
        p'.war3Version = p.war3Version ∧ HostingBy r r' id p p' ∧ JoinedBy r id p p' :=
    fun hp => ⟨p', hp, rfl, rfl, .inl rfl, .inl rfl⟩
  cases h with
  | entered hc hhosting hjoined honline =>
      simp only [Roster.players_set, Table.get?_insert] at hp'
      split at hp'
      · next heq =>
        subst heq
        cases hp'
        refine .inr ⟨rfl, hhosting, hjoined, _, _, hc, ?_⟩
        exact hset hc
      · exact .inl (hsame hp')
  | touched | marked | unlinked =>
      simp only [Roster.players_set, Table.get?_modify] at hp'
      split at hp'
      · obtain ⟨p, hold, rfl⟩ := Option.map_eq_some_iff.mp hp'
        exact .inl ⟨p, hold, rfl, rfl, by simp [HostingBy], .inl rfl⟩
      · exact .inl (hsame hp')
  | linked hc =>
      simp only [Roster.players_set, Table.get?_modify] at hp'
      split at hp'
      · next heq =>
        subst heq
        obtain ⟨p, hold, rfl⟩ := Option.map_eq_some_iff.mp hp'
        refine .inl ⟨p, hold, rfl, rfl, .inr (.inr ?_), .inl rfl⟩
        exact ⟨_, _, _, hc, hset hc, rfl⟩
      · exact .inl (hsame hp')
  | recorded hc =>
      simp only [Roster.players_set, Table.get?_modify] at hp'
      split at hp'
      · next heq =>
        obtain ⟨p, hold, rfl⟩ := Option.map_eq_some_iff.mp hp'
        exact .inl ⟨p, hold, rfl, rfl, .inl rfl, .inr ⟨_, _, _, _, heq ▸ hc, rfl⟩⟩
      · exact .inl (hsame hp')
  | taken | removed =>
      simp only [Roster.players_set, Table.get?_remove] at hp'
      split at hp'
      · cases hp'
      · exact .inl (hsame hp')
  | _ => exact .inl (hsame hp')

theorem HandlerStage.exit_ne_outside (registered : Bool) :
    HandlerStage.exit registered ≠ .outside := by
  cases registered <;> simp [HandlerStage.exit]

theorem HandlerStage.ne_outside_of_inLoop {stage : HandlerStage} (h : stage.inLoop = true) :
    stage ≠ .outside := by
  rintro rfl
  simp [HandlerStage.inLoop] at h

theorem HandlerStage.inLoop_of_free {stage : HandlerStage} (h : stage.free = true) :
    stage.inLoop = true := by
  cases stage <;> simp [HandlerStage.free, HandlerStage.inLoop] at h ⊢

/-- A connection keeps its player id for as long as its handler runs. -/
def SameId (r : Roster) (c : SocketId) (P' : Party) : Prop :=
  ∃ P, r.parties.get? c = some P ∧ P.playerId = P'.playerId ∧
    (P.stage = .outside ↔ P'.stage = .outside)

theorem sameId_of_set {r₁ : Roster} {c c₀ : SocketId} {P P₀ P' : Party}
    (hP' : (r₁.set c₀ P₀).parties.get? c = some P') (hr₁ : r₁.parties = r.parties)
    (hc : r.parties.get? c₀ = some P) (hid : P.playerId = P₀.playerId)
    (hout : P.stage ≠ .outside) (hout₀ : P₀.stage ≠ .outside) : SameId r c P' := by
  obtain ⟨rfl, rfl, _⟩ | ⟨_, hP'⟩ := Roster.parties_set.mp hP'
  · exact ⟨P, hc, hid, by simp [hout, hout₀]⟩
  · exact ⟨P', hr₁ ▸ hP', rfl, Iff.rfl⟩

/-- A connection is new, its handler starts under a fresh id, or it keeps its id. -/
theorem Effect.party_cases (h : Effect r r' events) {c : SocketId} {P' : Party}
    (hP' : r'.parties.get? c = some P') :
    r'.playerIds = r.playerIds ∧ (SameId r c P' ∨ P' = .outside) ∨
      P'.playerId ∉ r.playerIds ∧ r'.playerIds = P'.playerId :: r.playerIds ∧
        (∀ c' ≠ c, r'.parties.get? c' = r.parties.get? c') ∨
      SameId r c P' ∧ ∃ id, r'.playerIds = id :: r.playerIds := by
  have hsame : r.parties.get? c = some P' → SameId r c P' :=
    fun hP => ⟨P', hP, rfl, Iff.rfl⟩
  cases h with
  | admitted hc =>
      refine .inl ⟨rfl, ?_⟩
      simp only [Table.get?_insert] at hP'
      split at hP'
      · exact .inr (Option.some.inj hP').symm
      · exact .inl (hsame hP')
  | started hc hid =>
      obtain ⟨rfl, rfl, _⟩ | ⟨_, hP'⟩ := Roster.parties_set.mp hP'
      · refine .inr (.inl ⟨hid, rfl, fun c' hne => ?_⟩)
        simp [Roster.set, Table.get?_modify, hne]
      · exact .inr (.inr ⟨hsame hP', _, rfl⟩)
  | gaveUp hc hfree =>
      exact .inl ⟨rfl, .inl (sameId_of_set hP' rfl hc rfl
        (HandlerStage.ne_outside_of_inLoop (HandlerStage.inLoop_of_free hfree)) (by simp))⟩
  | dropped hc hloop =>
      exact .inl ⟨rfl, .inl (sameId_of_set hP' rfl hc rfl
        (HandlerStage.ne_outside_of_inLoop hloop) (HandlerStage.exit_ne_outside _))⟩
  | @recorded c₀ id roomId registered version p hc hp =>
      have hstage : p.joinedRoom.elim HandlerStage.idle .releasing ≠ .outside := by
        cases p.joinedRoom <;> simp
      exact .inl ⟨rfl, .inl (sameId_of_set hP' rfl hc rfl (by simp) hstage)⟩
  | still | touched | found | removed | skipped | swept =>
      exact .inl ⟨rfl, .inl (hsame hP')⟩
  | entering hc | entered hc | quoted hc | checked hc | planned hc | opened hc | linked hc
  | orphaned hc | unlinked hc | closed hc | reserved hc | lost hc | released hc
  | marked _ hc | taken hc | missing hc | cleared hc =>
      exact .inl ⟨rfl, .inl (sameId_of_set hP' rfl hc rfl (by simp) (by simp))⟩

end Cases

/-! ## What a handler knows -/

namespace Roster

/-- The room has this version, for as long as it is there. -/
def HasVersion (r : Roster) (roomId : String) (version : War3Version) : Prop :=
  roomId ∈ r.roomIds ∧
    ∀ room, r.rooms.get? roomId = some room → room.war3Version = version

/-- The room has this host, for as long as it is there. -/
def HostedBy (r : Roster) (roomId playerId : String) : Prop :=
  roomId ∈ r.roomIds ∧
    ∀ room, r.rooms.get? roomId = some room → room.hostPlayerId = playerId

/-- The player plays this version, for as long as it is there. -/
def Plays (r : Roster) (playerId : String) (version : War3Version) : Prop :=
  ∀ p, r.players.get? playerId = some p → p.war3Version = version

/-- The player hosts no room. -/
def HostsNothing (r : Roster) (playerId : String) : Prop :=
  ∀ p, r.players.get? playerId = some p → p.hostingRoom = none

/-- What a handler at this stage can rely on. -/
def Knows (r : Roster) (P : Party) : Prop :=
  match P.stage with
  | .outside | .entering => P.registered = false
  | .quoted roomId version => r.HasVersion roomId version
  | .checked roomId version | .reserved roomId version =>
      r.HasVersion roomId version ∧ r.Plays P.playerId version
  | .planning => r.HostsNothing P.playerId
  | .linking roomId | .unlinking roomId =>
      r.HostedBy roomId P.playerId ∧ r.HostsNothing P.playerId
  | .leaving => P.registered = true
  | _ => True

/-- The player belongs to a registered connection, and is marked disconnected once the
tear-down of that connection has come that far. -/
def Owned (r : Roster) (playerId : String) (p : ConnectedPlayer) : Prop :=
  ∃ c P, r.parties.get? c = some P ∧ P.playerId = playerId ∧ P.registered = true ∧
    (p.disconnectedAt = none ↔ P.stage.present = true)

/-- The facts that hold in every state of the server. -/
structure Sound (r : Roster) : Prop where
  player : ∀ {id p}, r.players.get? id = some p → p.playerId = id
  room : ∀ {id room}, r.rooms.get? id = some room →
    room.roomId = id ∧ id ∈ r.roomIds ∧ 2 ≤ room.maxPlayers ∧ room.maxPlayers ≤ 12
  hosting : ∀ {id p roomId}, r.players.get? id = some p → p.hostingRoom = some roomId →
    r.HostedBy roomId id
  joined : ∀ {id p roomId}, r.players.get? id = some p → p.joinedRoom = some roomId →
    r.HasVersion roomId p.war3Version
  issued : ∀ {c P}, r.parties.get? c = some P → P.stage ≠ .outside → P.playerId ∈ r.playerIds
  unique : ∀ {c c' P P'}, r.parties.get? c = some P → r.parties.get? c' = some P' →
    P.stage ≠ .outside → P'.stage ≠ .outside → P.playerId = P'.playerId → c = c'
  knows : ∀ {c P}, r.parties.get? c = some P → r.Knows P
  owned : ∀ {id p}, r.players.get? id = some p → r.Owned id p

end Roster

/-! ## Every effect keeps the facts -/

section Step

open Roster

variable {r r' : Roster} {events : List Event}

theorem Effect.mem_roomIds (h : Effect r r' events) {id : String} (hid : id ∈ r.roomIds) :
    id ∈ r'.roomIds := by
  obtain heq | ⟨_, heq⟩ := h.roomIds
  · exact heq ▸ hid
  · exact heq ▸ List.mem_cons_of_mem _ hid

theorem Effect.hasVersion (h : Effect r r' events) {roomId : String} {version : War3Version}
    (hversion : r.HasVersion roomId version) : r'.HasVersion roomId version := by
  refine ⟨h.mem_roomIds hversion.1, fun room' hroom' => ?_⟩
  obtain ⟨room, n, hroom, rfl⟩ | ⟨hfresh, _⟩ := h.room_cases hroom'
  · exact hversion.2 room hroom
  · exact absurd hversion.1 hfresh

theorem Effect.hostedBy (h : Effect r r' events) {roomId playerId : String}
    (hhost : r.HostedBy roomId playerId) : r'.HostedBy roomId playerId := by
  refine ⟨h.mem_roomIds hhost.1, fun room' hroom' => ?_⟩
  obtain ⟨room, n, hroom, rfl⟩ | ⟨hfresh, _⟩ := h.room_cases hroom'
  · exact hhost.2 room hroom
  · exact absurd hhost.1 hfresh

theorem Roster.Sound.ne_outside (hs : r.Sound) {c : SocketId} {P : Party}
    (hP : r.parties.get? c = some P) (hreg : P.registered = true) : P.stage ≠ .outside := by
  intro hout
  have hknows := hs.knows hP
  simp [Knows, hout, hreg] at hknows

/-- A connection that is about to insert its player has none in the map. -/
theorem Roster.Sound.absent (hs : r.Sound) {c : SocketId} {id : String} {registered : Bool}
    (hc : r.parties.get? c = some ⟨id, registered, .entering⟩) : r.players.get? id = none := by
  by_contra hpresent
  obtain ⟨p, hp⟩ := Option.ne_none_iff_exists'.mp hpresent
  obtain ⟨c', P, hP, hid, hreg, _⟩ := hs.owned hp
  obtain rfl := hs.unique hc hP (by simp) (hs.ne_outside hP hreg) hid.symm
  rw [hc] at hP
  cases hP
  have hfresh : registered = false := hs.knows hc
  simp [hfresh] at hreg

/-- Only its own handler changes what a player hosts and brings a player in, so what a
handler relies on outlives the steps of the others. -/
theorem Roster.Sound.knows_of_unmoved (hs : r.Sound) (h : Effect r r' events) {c : SocketId}
    {P : Party} (hP : r.parties.get? c = some P) (hP' : r'.parties.get? c = some P) :
    r'.Knows P := by
  have hknows := hs.knows hP
  -- A handler that brought the player in or linked its room has moved on.
  have hother : P.stage ≠ .outside → ∀ {c₀ reg stage reg'},
      r.parties.get? c₀ = some ⟨P.playerId, reg, stage⟩ → stage ≠ .outside →
      stage ≠ .idle → r'.parties.get? c₀ = some ⟨P.playerId, reg', .idle⟩ → False := by
    intro hout c₀ reg stage reg' hc₀ hstage hidle hc₀'
    obtain rfl := hs.unique hP hc₀ hout hstage rfl
    rw [hP'] at hc₀'
    rw [hP, hc₀'] at hc₀
    simp only [Option.some.injEq, Party.mk.injEq] at hc₀
    exact hidle hc₀.2.2.symm
  have hplays : P.stage ≠ .outside → ∀ {version}, r.Plays P.playerId version →
      r'.Plays P.playerId version := by
    intro hout version hplays p' hp'
    obtain ⟨p, hp, _, hversion, _⟩ | ⟨_, _, _, c₀, reg, hc₀, hc₀'⟩ := h.player_cases hp'
    · exact hversion.trans (hplays p hp)
    · exact (hother hout hc₀ (by simp) (by simp) hc₀').elim
  have hnothing : P.stage ≠ .outside → r.HostsNothing P.playerId →
      r'.HostsNothing P.playerId := by
    intro hout hnothing p' hp'
    obtain ⟨p, hp, _, _, hhosting, _⟩ | ⟨_, hhosting, _⟩ := h.player_cases hp'
    · obtain hsame | hnone | ⟨c₀, reg, roomId, hc₀, hc₀', _⟩ := hhosting
      · exact hsame.trans (hnothing p hp)
      · exact hnone
      · exact (hother hout hc₀ (by simp) (by simp) hc₀').elim
    · exact hhosting
  cases hstage : P.stage with
  | outside | entering | leaving => simpa only [Knows, hstage] using hknows
  | quoted roomId version =>
      simp only [Knows, hstage] at hknows ⊢
      exact h.hasVersion hknows
  | checked roomId version | reserved roomId version =>
      simp only [Knows, hstage] at hknows ⊢
      exact ⟨h.hasVersion hknows.1, hplays (by simp [hstage]) hknows.2⟩
  | planning =>
      simp only [Knows, hstage] at hknows ⊢
      exact hnothing (by simp [hstage]) hknows
  | linking roomId | unlinking roomId =>
      simp only [Knows, hstage] at hknows ⊢
      exact ⟨h.hostedBy hknows.1, hnothing (by simp [hstage]) hknows.2⟩
  | idle | releasing roomId | removing hostingRoom joinedRoom | gone =>
      simp only [Knows, hstage]

/-- What a handler relies on after its own step. -/
theorem Roster.Sound.knows_of_moved (hs : r.Sound) (h : Effect r r' events) {c : SocketId}
    {P' : Party} (hP' : r'.parties.get? c = some P')
    (hmoved : r'.parties.get? c ≠ r.parties.get? c) : r'.Knows P' := by
  have hset : ∀ {r₁ : Roster} {c₀ : SocketId} {P₀ : Party}, r' = r₁.set c₀ P₀ →
      r₁.parties = r.parties → c = c₀ ∧ P' = P₀ := by
    rintro r₁ c₀ P₀ rfl hr₁
    obtain ⟨hc, hP, _⟩ | ⟨_, hP⟩ := Roster.parties_set.mp hP'
    · exact ⟨hc, hP⟩
    · exact absurd (hP'.trans (hr₁ ▸ hP).symm) hmoved
  have hversion : ∀ roomId version, r.HasVersion roomId version → r'.HasVersion roomId version :=
    fun _ _ => h.hasVersion
  have hhost : ∀ roomId playerId, r.HostedBy roomId playerId → r'.HostedBy roomId playerId :=
    fun _ _ => h.hostedBy
  cases h with
  | still | touched | found | removed | skipped | swept => exact absurd rfl hmoved
  | admitted hc =>
      simp only [Table.get?_insert] at hP'
      split at hP'
      · cases hP'
        simp [Knows, Party.outside]
      · next hne => simp [Table.get?_insert, hne] at hmoved
  | entering hc =>
      obtain ⟨_, rfl⟩ := hset rfl rfl
      simp [Knows]
  | @quoted c₀ id roomId registered room hc hroom =>
      obtain ⟨_, rfl⟩ := hset rfl rfl
      refine ⟨(hs.room hroom).2.1, fun room' hroom' => ?_⟩
      rw [Roster.rooms_set, hroom] at hroom'
      exact congrArg Room.war3Version (Option.some.inj hroom').symm
  | @checked c₀ id roomId registered p hc hp =>
      obtain ⟨_, rfl⟩ := hset rfl rfl
      refine ⟨hs.knows hc, fun p' hp' => ?_⟩
      rw [Roster.players_set, hp] at hp'
      exact congrArg ConnectedPlayer.war3Version (Option.some.inj hp').symm
  | @planned c₀ id registered p hc hp hhosting =>
      obtain ⟨_, rfl⟩ := hset rfl rfl
      intro p' hp'
      rw [Roster.players_set, hp] at hp'
      cases hp'
      exact hhosting
  | @opened c₀ registered room hc hid hcurrent hmax =>
      obtain ⟨_, rfl⟩ := hset rfl rfl
      refine ⟨⟨by simp, fun room' hroom' => ?_⟩, hs.knows hc⟩
      simp only [Roster.rooms_set, Table.get?_insert, if_true] at hroom'
      exact congrArg Room.hostPlayerId (Option.some.inj hroom').symm
  | @unlinked c₀ id roomId registered p hc hp hhosting =>
      obtain ⟨_, rfl⟩ := hset rfl rfl
      refine ⟨hs.hosting hp hhosting, fun p' hp' => ?_⟩
      simp only [Roster.players_set, Table.get?_modify, if_true] at hp'
      obtain ⟨p, _, rfl⟩ := Option.map_eq_some_iff.mp hp'
      rfl
  | reserved hc hroom hfree =>
      obtain ⟨_, rfl⟩ := hset rfl rfl
      have hknows := hs.knows hc
      exact ⟨hversion _ _ hknows.1, hknows.2⟩
  | @dropped c₀ id registered stage hc hloop =>
      obtain ⟨_, rfl⟩ := hset rfl rfl
      cases registered <;> simp [Knows, HandlerStage.exit]
  | @recorded c₀ id roomId registered version p hc hp =>
      obtain ⟨_, rfl⟩ := hset rfl rfl
      cases p.joinedRoom <;> simp [Knows]
  | started | entered | gaveUp | linked | orphaned | closed | lost | released | marked
  | taken | missing | cleared =>
      obtain ⟨_, rfl⟩ := hset rfl rfl
      simp [Knows]

/-- The owner of a player stays its owner, unless the owner itself moves on. -/
theorem Roster.Owned.set {r₁ : Roster} {c : SocketId} {P P' : Party} {id : String}
    {p p' : ConnectedPlayer} (ho : r.Owned id p) (hr₁ : r₁.parties = r.parties)
    (hc : r.parties.get? c = some P) (hid : P'.playerId = P.playerId)
    (hdisconnected : p'.disconnectedAt = p.disconnectedAt)
    (hadvance : id = P.playerId → P.registered = true →
      P'.registered = true ∧ P'.stage.present = P.stage.present) :
    (r₁.set c P').Owned id p' := by
  obtain ⟨c', Q, hc', hQ, hreg, hpresent⟩ := ho
  by_cases heq : c' = c
  · subst heq
    obtain rfl : Q = P := by simpa [hc] using hc'.symm
    obtain ⟨hreg', hpresent'⟩ := hadvance hQ.symm hreg
    refine ⟨c', P', ?_, hid.trans hQ, hreg', ?_⟩
    · exact Roster.parties_set.mpr (.inl ⟨rfl, rfl, by simp [hr₁, hc]⟩)
    · rw [hdisconnected, hpresent', hpresent]
  · refine ⟨c', Q, ?_, hQ, hreg, by rw [hdisconnected, hpresent]⟩
    exact Roster.parties_set.mpr (.inr ⟨heq, hr₁ ▸ hc'⟩)

/-- Another connection's step leaves the owner of a player in place. -/
theorem Roster.Owned.of_ne {r₁ : Roster} {c : SocketId} {P P' : Party} {id : String}
    {p : ConnectedPlayer} (ho : r.Owned id p) (hr₁ : r₁.parties = r.parties)
    (hc : r.parties.get? c = some P) (hid : P'.playerId = P.playerId)
    (hne : id ≠ P.playerId) : (r₁.set c P').Owned id p :=
  ho.set hr₁ hc hid rfl fun heq => absurd heq hne

/-- A player that is removed from the map leaves the others there. -/
theorem get?_players_remove {players : Table String ConnectedPlayer} {id id' : String}
    {p : ConnectedPlayer} (h : (players.remove id).get? id' = some p) :
    id' ≠ id ∧ players.get? id' = some p := by
  rw [Table.get?_remove] at h
  split at h
  · cases h
  · next hne => exact ⟨hne, h⟩

theorem Roster.Sound.owned_step (hs : r.Sound) (h : Effect r r' events) {id : String}
    {p' : ConnectedPlayer} (hp' : r'.players.get? id = some p') : r'.Owned id p' := by
  have hpresent : ∀ {stage : HandlerStage}, stage.free = true → stage.present = true := by
    intro stage hfree
    simp [HandlerStage.present, HandlerStage.inLoop_of_free hfree]
  cases h with
  | still | found | skipped | swept => exact hs.owned hp'
  | touched id₀ now =>
      simp only [Table.get?_modify] at hp'
      split at hp'
      · obtain ⟨p, hp, rfl⟩ := Option.map_eq_some_iff.mp hp'
        exact hs.owned (p := p) hp
      · exact hs.owned hp'
  | removed => exact hs.owned (get?_players_remove hp').2
  | admitted hc =>
      obtain ⟨c, P, hP, howner⟩ := hs.owned hp'
      refine ⟨c, P, ?_, howner⟩
      rw [Table.get?_insert, if_neg]
      · exact hP
      · rintro rfl
        rw [hc] at hP
        cases hP
  | started hc hid =>
      obtain ⟨c, P, hP, howner⟩ := hs.owned hp'
      refine ⟨c, P, Roster.parties_set.mpr (.inr ⟨?_, hP⟩), howner⟩
      rintro rfl
      rw [hc] at hP
      exact hs.ne_outside (hc.trans hP) howner.2.1 (by cases hP; rfl)
  | @entered c registered p hc hhosting hjoined honline =>
      simp only [Roster.players_set, Table.get?_insert] at hp'
      split at hp'
      · next heq =>
        obtain rfl : p = p' := Option.some.inj hp'
        refine ⟨c, _, Roster.parties_set.mpr (.inl ⟨rfl, rfl, by simp [hc]⟩), heq.symm, rfl, ?_⟩
        simp [honline, HandlerStage.present, HandlerStage.inLoop]
      · next hne => exact (hs.owned hp').of_ne rfl hc rfl hne
  | linked hc | unlinked hc =>
      simp only [Roster.players_set, Table.get?_modify] at hp'
      split at hp'
      · obtain ⟨p, hp, rfl⟩ := Option.map_eq_some_iff.mp hp'
        exact (hs.owned hp).set rfl hc rfl rfl fun _ hreg => ⟨hreg, rfl⟩
      · next hne => exact (hs.owned hp').of_ne rfl hc rfl hne
  | @recorded c id₀ roomId registered version p₀ hc hp₀ =>
      have hpresent : (p₀.joinedRoom.elim HandlerStage.idle .releasing).present = true := by
        cases p₀.joinedRoom <;> rfl
      simp only [Roster.players_set, Table.get?_modify] at hp'
      split at hp'
      · obtain ⟨p, hp, rfl⟩ := Option.map_eq_some_iff.mp hp'
        exact (hs.owned hp).set rfl hc rfl rfl fun _ hreg => ⟨hreg, hpresent⟩
      · next hne => exact (hs.owned hp').of_ne rfl hc rfl hne
  | marked now hc =>
      simp only [Roster.players_set, Table.get?_modify] at hp'
      split at hp'
      · next heq =>
        subst heq
        obtain ⟨p, hp, rfl⟩ := Option.map_eq_some_iff.mp hp'
        refine ⟨_, _, Roster.parties_set.mpr (.inl ⟨rfl, rfl, by simp [hc]⟩), rfl, hs.knows hc, ?_⟩
        simp [HandlerStage.present, HandlerStage.inLoop]
      · next hne => exact (hs.owned hp').of_ne rfl hc rfl hne
  | taken hc hp =>
      obtain ⟨hne, hp'⟩ := get?_players_remove hp'
      exact (hs.owned hp').of_ne rfl hc rfl hne
  | missing hc hp =>
      refine (hs.owned hp').of_ne rfl hc rfl ?_
      rintro rfl
      rw [Roster.players_set, hp] at hp'
      cases hp'
  | gaveUp hc hfree =>
      exact (hs.owned hp').set rfl hc rfl rfl fun _ hreg => ⟨hreg, (hpresent hfree).symm⟩
  | dropped hc hloop =>
      refine (hs.owned hp').set rfl hc rfl rfl fun _ hreg => ⟨hreg, ?_⟩
      obtain rfl := hreg
      simp [HandlerStage.exit, HandlerStage.present, hloop]
  | entering hc | quoted hc | checked hc | planned hc | opened hc | orphaned hc | closed hc
  | reserved hc | lost hc | released hc | cleared hc =>
      exact (hs.owned hp').set rfl hc rfl rfl fun _ hreg => ⟨hreg, rfl⟩

/-- Every step of the server keeps the facts. -/
theorem Roster.Sound.step (hs : r.Sound) (h : Effect r r' events) : r'.Sound where
  player := by
    intro id p' hp'
    obtain ⟨p, hp, hid, _⟩ | ⟨hid, _⟩ := h.player_cases hp'
    · exact hid.trans (hs.player hp)
    · exact hid
  room := by
    intro id room' hroom'
    obtain ⟨room, n, hroom, rfl⟩ | ⟨_, hids, hid, hmax⟩ := h.room_cases hroom'
    · obtain ⟨hid, hissued, hmax⟩ := hs.room hroom
      exact ⟨hid, h.mem_roomIds hissued, hmax⟩
    · exact ⟨hid, hids ▸ List.mem_cons_self, hmax⟩
  hosting := by
    intro id p' roomId hp' hhosting'
    obtain ⟨p, hp, _, _, hhosting, _⟩ | ⟨_, hnone, _⟩ := h.player_cases hp'
    · obtain hsame | hnone | ⟨c, registered, roomId', hc, _, hlinked⟩ := hhosting
      · exact h.hostedBy (hs.hosting hp (hsame ▸ hhosting'))
      · simp [hnone] at hhosting'
      · obtain rfl : roomId' = roomId := by simpa [hlinked] using hhosting'
        exact h.hostedBy (hs.knows hc).1
    · simp [hnone] at hhosting'
  joined := by
    intro id p' roomId hp' hjoined'
    obtain ⟨p, hp, _, hversion, _, hjoined⟩ | ⟨_, _, hnone, _⟩ := h.player_cases hp'
    · rw [hversion]
      obtain hsame | ⟨c, registered, roomId', version, hc, hrecorded⟩ := hjoined
      · exact h.hasVersion (hs.joined hp (hsame ▸ hjoined'))
      · obtain rfl : roomId' = roomId := by simpa [hrecorded] using hjoined'
        have hknows := hs.knows hc
        exact h.hasVersion (hknows.2 p hp ▸ hknows.1)
    · simp [hnone] at hjoined'
  issued := by
    intro c P' hP' hout'
    obtain ⟨hids, ⟨P, hP, hid, hout⟩ | rfl⟩ | ⟨_, hids, _⟩ | ⟨⟨P, hP, hid, hout⟩, id, hids⟩ :=
      h.party_cases hP'
    · rw [hids, ← hid]
      exact hs.issued hP (hout.not.mpr hout')
    · exact absurd rfl hout'
    · exact hids ▸ List.mem_cons_self
    · rw [hids, ← hid]
      exact List.mem_cons_of_mem _ (hs.issued hP (hout.not.mpr hout'))
  unique := by
    intro c c' P P' hP hP' hout hout' hid
    have hcases : ∀ {c P}, r'.parties.get? c = some P → P.stage ≠ .outside →
        (∃ Q, r.parties.get? c = some Q ∧ Q.playerId = P.playerId ∧ Q.stage ≠ .outside) ∨
          P.playerId ∉ r.playerIds ∧ ∀ c' ≠ c, r'.parties.get? c' = r.parties.get? c' := by
      intro c P hP hout
      obtain ⟨_, ⟨Q, hQ, hid, hiff⟩ | rfl⟩ | ⟨hfresh, _, hrest⟩ | ⟨⟨Q, hQ, hid, hiff⟩, _⟩ :=
        h.party_cases hP
      · exact .inl ⟨Q, hQ, hid, hiff.not.mpr hout⟩
      · exact absurd rfl hout
      · exact .inr ⟨hfresh, hrest⟩
      · exact .inl ⟨Q, hQ, hid, hiff.not.mpr hout⟩
    obtain ⟨Q, hQ, hQid, hQout⟩ | ⟨hfresh, hrest⟩ := hcases hP hout
    · obtain ⟨Q', hQ', hQid', hQout'⟩ | ⟨hfresh', _⟩ := hcases hP' hout'
      · exact hs.unique hQ hQ' hQout hQout' (by rw [hQid, hQid', hid])
      · exact absurd (hs.issued hQ hQout) (by rwa [hQid, hid])
    · -- The id of `c` is fresh, so no other connection has it.
      by_contra hne
      rw [hrest c' (Ne.symm hne)] at hP'
      exact hfresh (hid ▸ hs.issued hP' hout')
  knows := by
    intro c P' hP'
    by_cases hmoved : r'.parties.get? c = r.parties.get? c
    · exact hs.knows_of_unmoved h (hmoved ▸ hP') hP'
    · exact hs.knows_of_moved h hP' hmoved
  owned := hs.owned_step h

end Step

namespace Lobby

theorem sound_start : start.roster.Sound where
  player := by simp [roster, start, AppState.new]
  room := by simp [roster, start, AppState.new]
  hosting := by simp [roster, start, AppState.new]
  joined := by simp [roster, start, AppState.new]
  issued := by simp [roster, start, Table.get?_mapValues]
  unique := by simp [roster, start, Table.get?_mapValues]
  knows := by simp [roster, start, Table.get?_mapValues]
  owned := by simp [roster, start, AppState.new]

/-- When no handler is in the middle of an operation, nothing is begun or left to do. -/
theorem parties_of_quiescent {s : Lobby} (h : s.quiescent = true) {c : SocketId} {P : Party}
    (hP : s.roster.parties.get? c = some P) :
    P.stage = .outside ∨ P.stage = .idle ∨ P.stage = .gone := by
  simp only [quiescent, Bool.and_eq_true, List.all_eq_true] at h
  simp only [roster, Table.get?_mapValues] at hP
  obtain ⟨k, hk, rfl⟩ := Option.map_eq_some_iff.mp hP
  have hresting := h.1 k (Table.mem_values_iff.mpr ⟨c, hk⟩)
  cases k with
  | upgrading ip | upgradeFailed ip => exact .inl rfl
  | running handler =>
      simp only [Socket.resting] at hresting
      simp only [Socket.party, Handler.party]
      cases hpc : handler.pc with
      | receiving => exact .inr (.inl rfl)
      | returned | released => exact .inr (.inr rfl)
      | _ => simp [hpc, HandlerPc.resting] at hresting

theorem sweep_of_quiescent {s : Lobby} (h : s.quiescent = true) : s.roster.sweep = none := by
  simp only [quiescent, Bool.and_eq_true] at h
  have hresting := h.2
  simp only [roster]
  cases hpc : s.cleanup with
  | removeRooms hostingRoom joinedRoom expired => simp [hpc, CleanupTask.resting] at hresting
  | _ => rfl

/-- The facts hold in every reachable state of the server. -/
theorem sound_of_reachable {s : Lobby} (h : machine.Reachable s) : s.roster.Sound :=
  h.invariant (I := fun s => s.roster.Sound) sound_start fun _ _ _ _ hs hstep =>
    hs.step (effect_of_step hstep)

end Lobby

end War3BattleTool.Server
