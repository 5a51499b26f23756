import War3BattleTool.Foundation.Tally
import War3BattleTool.Server.Membership

set_option autoImplicit false

/-!
# Rooms and their hosts

A room and its host name each other, and the two names are written under different locks.
Between the two blocks the handler that runs them keeps the room: it alone knows that the
room is to be linked or removed.  The law is that a room has exactly one keeper, its host's
entry or a task, or that it was orphaned by the task that kept it.
-/

namespace War3BattleTool.Server

open War3BattleTool.Foundation War3BattleTool.Protocol

/-- The room a handler keeps. -/
def HandlerStage.keeps : HandlerStage → Option String
  | .linking roomId | .unlinking roomId => some roomId
  | .removing hostingRoom _ => hostingRoom
  | _ => none

/-- The room an event orphans. -/
def Event.orphanedRoom : Event → Option String
  | .orphaned roomId => some roomId
  | _ => none

/-- The keepers of a room: entries of players, handlers, and the cleanup task. -/
def Roster.keepers (r : Roster) (roomId : String) : Nat :=
  r.players.tally ConnectedPlayer.hostingRoom roomId +
    r.parties.tally (·.stage.keeps) roomId + single (r.sweep.bind (·.1)) roomId

/-- The room is there. -/
def Roster.isOpen (r : Roster) (roomId : String) : Bool := (r.rooms.get? roomId).isSome

/-- A room has one keeper, or it was orphaned. -/
def Kept (r : Roster) (orphans : List String) : Prop :=
  ∀ roomId, r.keepers roomId + orphans.count roomId = (r.isOpen roomId).toNat

section Step

variable {r r₁ r' : Roster} {events : List Event} {orphans : List String} {c : SocketId}
  {P P' : Party}

theorem Roster.keepers_set (P' : Party) (hplayers : r₁.players = r.players)
    (hparties : r₁.parties = r.parties) (hsweep : r₁.sweep = r.sweep)
    (hc : r.parties.get? c = some P) :
    Shifts r.keepers (r₁.set c P').keepers P.stage.keeps P'.stage.keeps := by
  intro roomId
  have hshift := Table.tally_modify (·.stage.keeps) (fun _ => P') hc roomId
  simp only [Roster.keepers, Roster.set, hplayers, hparties, hsweep]
  omega

theorem Roster.keepers_set_of_same (hplayers : r₁.players = r.players)
    (hparties : r₁.parties = r.parties) (hsweep : r₁.sweep = r.sweep)
    (hc : r.parties.get? c = some P) (hkeeps : P'.stage.keeps = P.stage.keeps) :
    (r₁.set c P').keepers = r.keepers := by
  have hshift := keepers_set P' hplayers hparties hsweep hc
  rw [hkeeps] at hshift
  exact hshift.eq

/-- A handler's step on its player moves what the two keep. -/
theorem Roster.keepers_modify {id : String} {p : ConnectedPlayer}
    {f : ConnectedPlayer → ConnectedPlayer} (hp : r.players.get? id = some p)
    (hc : r.parties.get? c = some P)
    (hmoved : p.hostingRoom = P'.stage.keeps ∧ P.stage.keeps = (f p).hostingRoom ∨
      p.hostingRoom = (f p).hostingRoom ∧ P.stage.keeps = P'.stage.keeps) :
    ({ r with players := r.players.modify id f }.set c P').keepers = r.keepers := by
  funext roomId
  have hplayer := Table.tally_modify ConnectedPlayer.hostingRoom f hp roomId
  have hparty := Table.tally_modify (·.stage.keeps) (fun _ => P') hc roomId
  simp only [Roster.keepers, Roster.set]
  obtain ⟨hout, hin⟩ | ⟨hout, hin⟩ := hmoved
  · rw [hout, ← hin] at hplayer
    omega
  · rw [hout] at hplayer
    rw [hin] at hparty
    omega

theorem isSome_modify (rooms : Table String Room) (id : String) (f : Room → Room)
    (roomId : String) : ((rooms.modify id f).get? roomId).isSome = (rooms.get? roomId).isSome := by
  rw [Table.get?_modify]
  split <;> simp

theorem isSome_remove (rooms : Table String Room) (id roomId : String) :
    ((rooms.remove id).get? roomId).isSome = ((rooms.get? roomId).isSome && roomId ≠ id) := by
  rw [Table.get?_remove]
  split
  · next heq => simp [heq]
  · next hne => simp [hne]

theorem isSome_clearRooms (rooms : Table String Room) (hostingRoom joinedRoom : Option String)
    (roomId : String) :
    ((clearRooms rooms hostingRoom joinedRoom).get? roomId).isSome =
      ((rooms.get? roomId).isSome && hostingRoom ≠ some roomId) := by
  have hclosed : ((hostingRoom.elim rooms rooms.remove).get? roomId).isSome =
      ((rooms.get? roomId).isSome && hostingRoom ≠ some roomId) := by
    cases hostingRoom with
    | none => simp
    | some closedId => simp [isSome_remove, eq_comm]
  cases joinedRoom with
  | none => exact hclosed
  | some leftId => rw [← hclosed]; exact isSome_modify _ _ _ _

/-- The law is kept when neither keepers nor rooms change. -/
theorem Kept.of_same (hk : Kept r orphans) (hkeepers : r'.keepers = r.keepers)
    (hrooms : ∀ roomId, r'.isOpen roomId = r.isOpen roomId) : Kept r' orphans := by
  intro roomId
  rw [hkeepers, hrooms]
  exact hk roomId

/-- The law is kept when a room is opened by its keeper. -/
theorem Kept.open (hk : Kept r orphans) {id : String} (habsent : r.isOpen id = false)
    (hkeepers : Shifts r.keepers r'.keepers none (some id))
    (hrooms : ∀ roomId, r'.isOpen roomId = (r.isOpen roomId || roomId = id)) :
    Kept r' orphans := by
  intro roomId
  have hlaw := hk roomId
  have hshift := hkeepers roomId
  rw [hrooms]
  by_cases hid : roomId = id
  · subst hid
    simp [habsent] at hlaw hshift ⊢
    omega
  · simp [hid, single_some_of_ne hid] at hshift ⊢
    omega

/-- The law is kept when a keeper removes its room. -/
theorem Kept.close (hk : Kept r orphans) {d : Option String}
    (hkeepers : Shifts r.keepers r'.keepers d none)
    (hrooms : ∀ roomId, r'.isOpen roomId = (r.isOpen roomId && d ≠ some roomId)) :
    Kept r' orphans := by
  intro roomId
  have hlaw := hk roomId
  have hshift := hkeepers roomId
  rw [hrooms]
  by_cases hd : d = some roomId
  · cases hopen : r.isOpen roomId <;> simp [hd, hopen] at hlaw hshift ⊢ <;> omega
  · simp only [single_of_ne hd, single_none] at hshift
    simp only [ne_eq, hd, not_false_eq_true, decide_true, Bool.and_true]
    omega

/-- The law is kept when a keeper orphans its room. -/
theorem Kept.orphan (hk : Kept r orphans) {d : Option String}
    (hkeepers : Shifts r.keepers r'.keepers d none)
    (hrooms : ∀ roomId, r'.isOpen roomId = r.isOpen roomId) :
    Kept r' (orphans ++ d.toList) := by
  intro roomId
  have hlaw := hk roomId
  have hshift := hkeepers roomId
  rw [hrooms]
  cases d with
  | none =>
      simp at hshift ⊢
      omega
  | some orphan =>
      by_cases hd : roomId = orphan
      · subst hd
        simp at hshift ⊢
        omega
      · simp [single_some_of_ne hd, Ne.symm hd] at hshift ⊢
        omega

/-! What each effect does to the keepers. -/

theorem Roster.keepers_admitted (hc : r.parties.get? c = none) :
    { r with parties := r.parties.insert c .outside }.keepers = r.keepers := by
  have hshift := Table.tally_insert (v := Party.outside) (·.stage.keeps) hc
  funext roomId
  simp only [Roster.keepers]
  rw [hshift.eq]

theorem Roster.keepers_touched (r : Roster) (id : String) (now : Instant) :
    { r with
      players := r.players.modify id fun p => { p with lastHeartbeat := now } }.keepers =
        r.keepers := by
  have htally : (r.players.modify id fun p => { p with lastHeartbeat := now }).tally
      ConnectedPlayer.hostingRoom = r.players.tally ConnectedPlayer.hostingRoom :=
    Table.tally_modify_of_same id fun _ => rfl
  funext roomId
  simp only [Roster.keepers, htally]

/-- A new player hosts nothing. -/
theorem Roster.keepers_entered {p : ConnectedPlayer} (habsent : r.players.get? p.playerId = none)
    (hhosting : p.hostingRoom = none) (hc : r.parties.get? c = some P)
    (hkeeps : P'.stage.keeps = P.stage.keeps) :
    ({ r with players := r.players.insert p.playerId p }.set c P').keepers = r.keepers := by
  have hplayer := Table.tally_insert (v := p) ConnectedPlayer.hostingRoom habsent
  rw [hhosting] at hplayer
  rw [← Roster.keepers_set_of_same rfl rfl rfl hc hkeeps]
  funext roomId
  simp only [Roster.keepers, Roster.players_set]
  rw [hplayer.eq]
  rfl

/-- A player that is there or not is marked as gone. -/
theorem Roster.keepers_marked (id : String) (now : Instant) (hc : r.parties.get? c = some P)
    (hkeeps : P'.stage.keeps = P.stage.keeps) :
    ({ r with
      players := r.players.modify id fun p => { p with disconnectedAt := some now } }.set c
        P').keepers = r.keepers := by
  cases hp : r.players.get? id with
  | some p => exact Roster.keepers_modify hp hc (.inr ⟨rfl, hkeeps.symm⟩)
  | none =>
      have hsame := Table.modify_of_get?_eq_none (fun p : ConnectedPlayer =>
        { p with disconnectedAt := some now }) hp
      exact Roster.keepers_set_of_same hsame rfl rfl hc hkeeps

/-- The handler that takes a player out of the map keeps its room. -/
theorem Roster.keepers_taken {id : String} {p : ConnectedPlayer} (hp : r.players.get? id = some p)
    (hc : r.parties.get? c = some P) (hnothing : P.stage.keeps = none)
    (hkeeps : P'.stage.keeps = p.hostingRoom) :
    ({ r with players := r.players.remove id }.set c P').keepers = r.keepers := by
  funext roomId
  have hout := Table.tally_remove ConnectedPlayer.hostingRoom hp roomId
  have hin := Table.tally_modify (·.stage.keeps) (fun _ => P') hc roomId
  rw [hnothing, hkeeps] at hin
  simp only [Roster.keepers, Roster.set]
  omega

/-- So does the cleanup task. -/
theorem Roster.keepers_removed {id : String} {p : ConnectedPlayer} (rest : List String)
    (hsweep : r.sweep = none) (hp : r.players.get? id = some p) :
    { r with
      players := r.players.remove id
      expired := rest
      sweep := some (p.hostingRoom, p.joinedRoom) }.keepers = r.keepers := by
  funext roomId
  have hplayer := Table.tally_remove ConnectedPlayer.hostingRoom hp roomId
  simp only [single_none] at hplayer
  simp only [Roster.keepers, hsweep, Option.bind_some, Option.bind_none, single_none]
  omega

/-- A room is opened, and its handler keeps it. -/
theorem Kept.opened (hs : r.Sound) (hk : Kept r orphans) {room : Room} {roomIds : List String}
    (hid : room.roomId ∉ r.roomIds) (hc : r.parties.get? c = some P)
    (hnothing : P.stage.keeps = none) (hkeeps : P'.stage.keeps = some room.roomId) :
    Kept ({ r with rooms := r.rooms.insert room.roomId room, roomIds := roomIds }.set c P')
      orphans := by
  have habsent : r.isOpen room.roomId = false := by
    cases hroom : r.rooms.get? room.roomId with
    | none => simp [Roster.isOpen, hroom]
    | some old => exact absurd (hs.room hroom).2.1 hid
  have hshift : Shifts r.keepers ({ r with
      rooms := r.rooms.insert room.roomId room, roomIds := roomIds }.set c P').keepers
        P.stage.keeps P'.stage.keeps := Roster.keepers_set P' rfl rfl rfl hc
  rw [hnothing, hkeeps] at hshift
  refine hk.open habsent hshift fun roomId => ?_
  simp only [Roster.isOpen, Roster.rooms_set, Table.get?_insert]
  split
  · next heq => simp [heq]
  · next hne => simp [hne]

/-- A handler that is dropped orphans the room it keeps. -/
theorem Kept.dropped (hk : Kept r orphans) {id : String} {registered : Bool}
    {stage : HandlerStage} (hc : r.parties.get? c = some ⟨id, registered, stage⟩)
    (hloop : stage.inLoop = true) :
    Kept (r.set c ⟨id, registered, .exit registered⟩)
      (orphans ++ stage.left.filterMap Event.orphanedRoom) := by
  have hleft : stage.left.filterMap Event.orphanedRoom = stage.keeps.toList := by
    cases stage <;> first | rfl | simp [HandlerStage.inLoop] at hloop
  have hkeeps : (HandlerStage.exit registered).keeps = none := by cases registered <;> rfl
  have hshift : Shifts r.keepers (r.set c ⟨id, registered, .exit registered⟩).keepers
      stage.keeps (HandlerStage.exit registered).keeps :=
    Roster.keepers_set _ rfl rfl rfl hc
  rw [hkeeps] at hshift
  rw [hleft]
  exact hk.orphan hshift fun _ => rfl

/-- The cleanup task removes the room it keeps. -/
theorem Kept.swept (hk : Kept r orphans) {hostingRoom joinedRoom : Option String}
    (hsweep : r.sweep = some (hostingRoom, joinedRoom)) :
    Kept { r with rooms := clearRooms r.rooms hostingRoom joinedRoom, sweep := none }
      orphans := by
  refine hk.close (d := hostingRoom) (fun roomId => ?_) ?_
  · simp only [Roster.keepers, hsweep, Option.bind_some, Option.bind_none, single_none]
    omega
  · exact isSome_clearRooms _ _ _

/-- Every effect keeps the law, for the rooms it orphans. -/
theorem Kept.step (hs : r.Sound) (hk : Kept r orphans) (h : Effect r r' events) :
    Kept r' (orphans ++ events.filterMap Event.orphanedRoom) := by
  have hquiet : Kept r' orphans → Kept r' (orphans ++ []) := fun hk => by simpa using hk
  cases h with
  | still | skipped => exact hquiet hk
  | found =>
      simp only [List.filterMap_map, Function.comp_def, Event.orphanedRoom, List.filterMap_none]
      exact hquiet hk
  | admitted hc => exact hquiet (hk.of_same (Roster.keepers_admitted hc) fun _ => rfl)
  | touched id now => exact hquiet (hk.of_same (Roster.keepers_touched r id now) fun _ => rfl)
  | entered hc hhosting =>
      exact hquiet (hk.of_same (Roster.keepers_entered (hs.absent hc) hhosting hc rfl) fun _ => rfl)
  | marked now hc =>
      exact hquiet (hk.of_same (Roster.keepers_marked _ now hc rfl) fun _ => rfl)
  | started hc | entering hc | quoted hc | checked hc | planned hc | lost hc | missing hc =>
      exact hquiet (hk.of_same (Roster.keepers_set_of_same rfl rfl rfl hc rfl) fun _ => rfl)
  | @gaveUp c id registered stage hc hfree =>
      have hkeeps : HandlerStage.idle.keeps = stage.keeps := by
        cases stage <;> first | rfl | simp [HandlerStage.free] at hfree
      exact hquiet (hk.of_same (Roster.keepers_set_of_same rfl rfl rfl hc hkeeps) fun _ => rfl)
  | opened hc hid => exact hquiet (hk.opened hs hid hc rfl rfl)
  | linked hc hp =>
      exact hquiet (hk.of_same (Roster.keepers_modify hp hc (.inl ⟨(hs.knows hc).2 _ hp, rfl⟩))
        fun _ => rfl)
  | @orphaned c id roomId registered hc =>
      exact hk.orphan (Roster.keepers_set ⟨id, registered, .idle⟩ rfl rfl rfl hc) fun _ => rfl
  | unlinked hc hp hhosting =>
      exact hquiet (hk.of_same (Roster.keepers_modify hp hc (.inl ⟨hhosting, rfl⟩)) fun _ => rfl)
  | @closed c id roomId registered hc =>
      refine hquiet (hk.close (d := some roomId) (Roster.keepers_set _ rfl rfl rfl hc) ?_)
      intro roomId'
      simp [Roster.isOpen, isSome_remove, eq_comm]
  | reserved hc | released hc =>
      refine hquiet (hk.of_same (Roster.keepers_set_of_same rfl rfl rfl hc rfl) ?_)
      exact isSome_modify _ _ _
  | @recorded c id roomId registered version p hc hp =>
      have hkeeps : none = (p.joinedRoom.elim HandlerStage.idle .releasing).keeps := by
        cases p.joinedRoom <;> rfl
      exact hquiet (hk.of_same (Roster.keepers_modify hp hc (.inr ⟨rfl, hkeeps⟩)) fun _ => rfl)
  | dropped hc hloop => exact hk.dropped hc hloop
  | taken hc hp =>
      exact hquiet (hk.of_same (Roster.keepers_taken hp hc rfl rfl) fun _ => rfl)
  | @cleared c id registered hostingRoom joinedRoom hc =>
      refine hquiet (hk.close (d := hostingRoom) (Roster.keepers_set _ rfl rfl rfl hc) ?_)
      exact isSome_clearRooms _ _ _
  | removed _ hsweep hp =>
      exact hquiet (hk.of_same (Roster.keepers_removed _ hsweep hp) fun _ => rfl)
  | swept hsweep => exact hquiet (hk.swept hsweep)

end Step

namespace Lobby

/-- The law holds after any run, for the rooms orphaned on the way. -/
theorem kept_of_trace {s : Lobby} {events : List Event} (h : machine.Trace report events s) :
    Kept s.roster (events.filterMap Event.orphanedRoom) := by
  refine h.invariant (I := fun events s =>
    Kept s.roster (events.filterMap Event.orphanedRoom)) (fun roomId => ?_) ?_
  · rfl
  · intro events s l s' hreach hk hstep
    rw [List.filterMap_append]
    exact hk.step (sound_of_reachable hreach) (effect_of_step hstep)

/-- When no handler is in the middle of an operation, only players keep rooms. -/
theorem kept_of_quiescent {s : Lobby} {events : List Event} (h : machine.Trace report events s)
    (hquiescent : s.quiescent = true) (roomId : String) :
    s.app.players.tally ConnectedPlayer.hostingRoom roomId +
      (events.filterMap Event.orphanedRoom).count roomId = (s.roster.isOpen roomId).toNat := by
  have hparties : s.roster.parties.tally (·.stage.keeps) roomId = 0 := by
    refine Table.tally_eq_zero fun c P hP => ?_
    obtain hstage | hstage | hstage := parties_of_quiescent hquiescent hP <;>
      simp [hstage, HandlerStage.keeps]
  have hlaw := kept_of_trace h roomId
  simp only [Roster.keepers, hparties, sweep_of_quiescent hquiescent, Option.bind_none,
    single_none, Nat.add_zero] at hlaw
  exact hlaw

theorem mem_orphanedRoom {events : List Event} {roomId : String} :
    roomId ∈ events.filterMap Event.orphanedRoom ↔ Event.orphaned roomId ∈ events := by
  simp only [List.mem_filterMap]
  constructor
  · rintro ⟨event, hmem, hevent⟩
    cases event with
    | orphaned id =>
        obtain rfl : id = roomId := Option.some.inj hevent
        exact hmem
    | _ => cases hevent
  · exact fun hmem => ⟨_, hmem, rfl⟩

/-- Every room has its host in the lobby, and the host hosts it. -/
def Hosted (s : Lobby) : Prop :=
  ∀ id room, s.app.rooms.get? id = some room →
    ∃ p, s.app.players.get? room.hostPlayerId = some p ∧ p.hostingRoom = some room.roomId

/-- Every player that hosts a room is the host of a room that is there. -/
def Hosting (s : Lobby) : Prop :=
  ∀ playerId p id, s.app.players.get? playerId = some p → p.hostingRoom = some id →
    ∃ room, s.app.rooms.get? id = some room ∧ room.hostPlayerId = playerId

/-- The second link holds at every moment. -/
theorem hosting_of_reachable {s : Lobby} (h : machine.Reachable s) : s.Hosting := by
  intro playerId p id hp hhosting
  obtain ⟨events, htrace⟩ := h.exists_trace report
  have hlaw := kept_of_trace htrace id
  have hpos : 0 < s.roster.players.tally ConnectedPlayer.hostingRoom id :=
    Table.tally_pos hp hhosting
  have hopen : s.roster.isOpen id = true := by
    by_contra hclosed
    rw [Bool.not_eq_true] at hclosed
    simp only [Roster.keepers, hclosed, Bool.toNat_false] at hlaw
    omega
  obtain ⟨room, hroom⟩ := Option.isSome_iff_exists.mp hopen
  exact ⟨room, hroom, ((sound_of_reachable h).hosting hp hhosting).2 room hroom⟩

/-- When no handler is in the middle of an operation, rooms and hosts name each other if and
only if no room was orphaned on the way. -/
theorem hosted_iff {s : Lobby} {events : List Event} (h : machine.Trace report events s)
    (hquiescent : s.quiescent = true) :
    s.Hosted ∧ s.Hosting ↔ ∀ id, Event.orphaned id ∉ events := by
  have hsound := sound_of_reachable h.reachable
  constructor
  · rintro ⟨hhosted, _⟩ id horphaned
    have hlaw := kept_of_quiescent h hquiescent id
    have hcount : 0 < (events.filterMap Event.orphanedRoom).count id :=
      List.count_pos_iff.mpr (mem_orphanedRoom.mpr horphaned)
    have hopen : s.roster.isOpen id = true := by
      by_contra hclosed
      rw [Bool.not_eq_true] at hclosed
      rw [hclosed, Bool.toNat_false] at hlaw
      omega
    obtain ⟨room, hroom⟩ := Option.isSome_iff_exists.mp hopen
    obtain ⟨p, hp, hhosting⟩ := hhosted id room hroom
    rw [(hsound.room hroom).1] at hhosting
    have hpos := Table.tally_pos hp hhosting
    rw [hopen, Bool.toNat_true] at hlaw
    omega
  · intro hnone
    refine ⟨fun id room hroom => ?_, hosting_of_reachable h.reachable⟩
    have hcount : (events.filterMap Event.orphanedRoom).count id = 0 :=
      List.count_eq_zero.mpr fun hmem => hnone id (mem_orphanedRoom.mp hmem)
    have hopen : s.roster.isOpen id = true := Option.isSome_iff_exists.mpr ⟨room, hroom⟩
    have hlaw := kept_of_quiescent h hquiescent id
    rw [hcount, hopen, Bool.toNat_true] at hlaw
    have hpos : 0 < s.app.players.tally ConnectedPlayer.hostingRoom id := by omega
    obtain ⟨playerId, p, hp, hhosting⟩ := Table.exists_of_tally_pos hpos
    obtain rfl := (hsound.hosting hp hhosting).2 room hroom
    exact ⟨p, hp, (hsound.room hroom).1 ▸ hhosting⟩

/-- The host's connection breaks between the last two blocks of `CreateRoom`. -/
def orphaningRun : List Label :=
  registers 1 "a" ++ (createsRoom 1 "r").take 4 ++ breaks 1

/-- A room can be left without a host. -/
theorem not_always_hosted :
    ¬ ∀ s, machine.Reachable s → s.quiescent = true → s.Hosted ∧ s.Hosting := by
  intro hclaim
  have hrun : (machine.exec machine.init orphaningRun).any (fun s =>
      s.quiescent && (s.app.rooms.get? "r").any fun room =>
        decide ((s.app.players.get? room.hostPlayerId).bind (·.hostingRoom) = none)) =
          true := by
    decide
  obtain ⟨s, _, hreach, htest⟩ := Machine.exists_reachable_of_exec hrun
  simp only [Bool.and_eq_true, Option.any_eq_true, decide_eq_true_eq] at htest
  obtain ⟨hquiescent, room, hroom, hnone⟩ := htest
  obtain ⟨p, hp, hhosting⟩ := (hclaim s hreach hquiescent).1 _ room hroom
  simp [hp, hhosting] at hnone

/-- A player that creates a room hosts it. -/
theorem hosted_created :
    ∃ s room, machine.Reachable s ∧ s.app.rooms.get? "r" = some room ∧
      s.Hosted ∧ s.Hosting := by
  have hrun : (machine.exec machine.init (registers 1 "a" ++ createsRoom 1 "r")).any
      (fun s => s.quiescent && (s.app.rooms.get? "r").isSome) = true := by
    decide
  have hreport : machine.report report machine.init (registers 1 "a" ++ createsRoom 1 "r") =
      [] := by
    decide
  obtain ⟨s, hexec, hreach, htest⟩ := Machine.exists_reachable_of_exec hrun
  simp only [Bool.and_eq_true, Option.isSome_iff_exists] at htest
  obtain ⟨hquiescent, room, hroom⟩ := htest
  have htrace := Machine.trace_of_exec (f := report) hexec
  rw [hreport] at htrace
  exact ⟨s, room, hreach, hroom, (hosted_iff htrace hquiescent).mpr (by simp)⟩

end Lobby

end War3BattleTool.Server
