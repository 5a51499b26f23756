import War3BattleTool.Foundation.Seats
import War3BattleTool.Server.Membership

set_option autoImplicit false

/-!
# Room occupancy

The counter of a room and the players recorded in it are written under different locks.
The roster implements `Seats`: a player with a `joined_room` is seated, and a handler or the
cleanup task between two blocks holds a pending slot.  The law of the counter then gives
the bounds that hold at every moment, and the runs after which the counter is exact.
-/

namespace War3BattleTool.Server

open War3BattleTool.Foundation War3BattleTool.Protocol

/-- The room of which a handler holds a slot. -/
def HandlerStage.slot : HandlerStage → Option String
  | .reserved roomId _ | .releasing roomId => some roomId
  | .removing _ joinedRoom => joinedRoom
  | _ => none

/-- The counters of the rooms. -/
def counters (rooms : Table String Room) (roomId : String) : Option Counter :=
  (rooms.get? roomId).map fun room => ⟨room.currentPlayers, room.maxPlayers⟩

namespace Roster

/-- The players recorded in a room. -/
def seated (r : Roster) : String → Nat := r.players.tally (·.joinedRoom)

/-- The slots of a room held between two blocks. -/
def pending (r : Roster) (roomId : String) : Nat :=
  r.parties.tally (·.stage.slot) roomId + single (r.sweep.bind (·.2)) roomId

/-- The roster as rooms with seats. -/
def seats (r : Roster) : Seats String where
  opened := r.roomIds
  room := counters r.rooms
  seated := r.seated
  pending := r.pending

end Roster

/-- The room an event leaks a slot of. -/
def Event.leakedRoom : Event → Option String
  | .leaked roomId => some roomId
  | _ => none

section Effects

variable {r r₁ r' : Roster} {c : SocketId} {P P' : Party} {events : List Event}

/-- A handler's step moves the slot it holds. -/
theorem Roster.pending_set (r₁ : Roster) (P' : Party) (hparties : r₁.parties = r.parties)
    (hsweep : r₁.sweep = r.sweep) (hc : r.parties.get? c = some P) :
    Shifts r.pending (r₁.set c P').pending P.stage.slot P'.stage.slot := by
  intro id
  have hcount := Table.tally_modify (·.stage.slot) (fun _ => P') hc id
  simp only [Roster.pending, Roster.set, hparties, hsweep]
  omega

theorem Roster.pending_set_of_same (hparties : r₁.parties = r.parties)
    (hsweep : r₁.sweep = r.sweep) (hc : r.parties.get? c = some P)
    (hslot : P'.stage.slot = P.stage.slot) : (r₁.set c P').pending = r.pending := by
  have hshift := pending_set r₁ P' hparties hsweep hc
  rw [hslot] at hshift
  exact hshift.eq

/-! ## The counters -/

theorem counters_insert (rooms : Table String Room) (id : String) (room : Room) :
    counters (rooms.insert id room) =
      Function.update (counters rooms) id (some ⟨room.currentPlayers, room.maxPlayers⟩) := by
  funext id'
  rw [Function.update_apply]
  simp only [counters, Table.get?_insert]
  split <;> rfl

theorem counters_remove (rooms : Table String Room) (id : String) :
    counters (rooms.remove id) = Function.update (counters rooms) id none := by
  funext id'
  rw [Function.update_apply]
  simp only [counters, Table.get?_remove]
  split <;> rfl

theorem counters_decrement (rooms : Table String Room) (id : String) :
    counters (rooms.modify id Room.decrement) =
      Function.update (counters rooms) id
        ((counters rooms id).map fun n => { n with count := n.count - 1 }) := by
  funext id'
  rw [Function.update_apply]
  simp only [counters, Table.get?_modify]
  split
  · next heq =>
    subst heq
    simp [Option.map_map, Function.comp_def, Room.decrement]
  · rfl

theorem counters_increment {rooms : Table String Room} {id : String} {room : Room}
    (hroom : rooms.get? id = some room) (hlt : room.currentPlayers < 255) :
    counters (rooms.modify id Room.increment) =
      Function.update (counters rooms) id
        (some ⟨room.currentPlayers + 1, room.maxPlayers⟩) := by
  funext id'
  rw [Function.update_apply]
  simp only [counters, Table.get?_modify]
  split
  · next heq =>
    subst heq
    have hmin : min (room.currentPlayers + 1) 255 = room.currentPlayers + 1 := by omega
    simp [hroom, Room.increment, hmin]
  · rfl

/-! ## The moves of an effect -/

/-- The second block of `remove_player`: the room of a host is closed, and the slot of
the other room is released. -/
theorem runs_clearRooms {S : Seats String} {rooms : Table String Room}
    {hostingRoom joinedRoom : Option String} {pending : String → Nat}
    (hroom : S.room = counters rooms) (hshift : Shifts S.pending pending joinedRoom none) :
    Seats.machine.Runs Seats.report S []
      { S with
        room := counters (clearRooms rooms hostingRoom joinedRoom)
        pending := pending } := by
  have hclose : Seats.machine.Runs Seats.report S []
      { S with room := counters (hostingRoom.elim rooms rooms.remove) } := by
    cases hostingRoom with
    | none =>
        simp only [Option.elim_none, ← hroom]
        exact .refl _ _
    | some closedId =>
        have hstep : Seats.machine.step S (.closeRoom closedId) =
            some { S with room := counters (rooms.remove closedId) } := by
          rw [counters_remove, ← hroom]
          rfl
        exact .one hstep
  have hrelease : ∀ {closed : Table String Room} {S : Seats String},
      S.room = counters closed → Shifts S.pending pending joinedRoom none →
      Seats.machine.Runs Seats.report S []
        { S with
          room := counters (joinedRoom.elim closed (closed.modify · Room.decrement))
          pending := pending } := by
    intro closed S hroom hshift
    cases joinedRoom with
    | none =>
        rw [hshift.eq, Option.elim_none, ← hroom]
        exact .refl _ _
    | some leftId =>
        have hstep := Seats.step_release hshift
        rw [hroom, ← counters_decrement] at hstep
        exact .one hstep
  exact hclose.trans (hrelease rfl hshift)

/-- A player that leaves its room: its seat becomes a pending slot. -/
theorem runs_unseat {S : Seats String} {seated pending : String → Nat} {d : Option String}
    (hseated : Shifts S.seated seated d none)
    (hpending : Shifts S.pending pending none d) :
    Seats.machine.Runs Seats.report S [] { S with seated := seated, pending := pending } := by
  cases d with
  | none =>
      rw [hseated.eq, hpending.eq]
      exact .refl _ _
  | some roomId => exact .one (Seats.step_unseat hseated hpending)

/-- A player that is recorded in a room gives up the room it was in, if any. -/
theorem runs_record {S : Seats String} {seated pending : String → Nat} {old : Option String}
    {roomId : String} (hold : ∀ oldId, old = some oldId → S.seated oldId ≠ 0)
    (hseated : Shifts S.seated seated old (some roomId))
    (hpending : Shifts S.pending pending (some roomId) old) :
    Seats.machine.Runs Seats.report S [] { S with seated := seated, pending := pending } := by
  cases old with
  | none => exact .one (Seats.step_seat hpending hseated)
  | some oldId =>
      obtain ⟨seated₁, hout, hin⟩ := hseated.split_left (hold oldId rfl)
      obtain ⟨pending₁, hgained, hsettled⟩ := hpending.split_right
      have hunseat := Machine.Runs.one (M := Seats.machine) (f := Seats.report)
        (Seats.step_unseat hout hgained)
      have hseat := Machine.Runs.one (M := Seats.machine) (f := Seats.report)
        (Seats.step_seat (s := { S with seated := seated₁, pending := pending₁ }) hsettled hin)
      exact hunseat.trans hseat

/-- A handler that forgets the slot it holds. -/
theorem runs_lose {S : Seats String} {pending : String → Nat} {stage : HandlerStage}
    (hloop : stage.inLoop = true) (hpending : Shifts S.pending pending stage.slot none) :
    Seats.machine.Runs Seats.report S (stage.left.filterMap Event.leakedRoom)
      { S with pending := pending } := by
  cases stage with
  | reserved roomId version | releasing roomId => exact .one (Seats.step_lose hpending)
  | removing hostingRoom joinedRoom => simp [HandlerStage.inLoop] at hloop
  | _ =>
      rw [hpending.eq]
      exact .refl _ _

/-- A step that moves neither counters nor seats nor slots. -/
theorem runs_of_same (hids : r'.roomIds = r.roomIds) (hrooms : r'.rooms = r.rooms)
    (hseated : r'.seated = r.seated) (hpending : r'.pending = r.pending) :
    Seats.machine.Runs Seats.report r.seats [] r'.seats := by
  simp only [Roster.seats, hids, hrooms, hseated, hpending]
  exact .refl _ _

/-- A room is opened with its owner in it. -/
theorem runs_opened {room : Room} (hid : room.roomId ∉ r.roomIds)
    (hcurrent : room.currentPlayers = 1) (hmax : room.maxPlayers ≠ 0)
    (hc : r.parties.get? c = some P) (hslot : P'.stage.slot = P.stage.slot) :
    Seats.machine.Runs Seats.report r.seats []
      ({ r with
        rooms := r.rooms.insert room.roomId room
        roomIds := room.roomId :: r.roomIds }.set c P').seats := by
  have hstep : Seats.machine.step r.seats (.openRoom room.roomId room.maxPlayers) =
      some { r.seats with
        opened := room.roomId :: r.roomIds
        room := counters (r.rooms.insert room.roomId room) } := by
    rw [counters_insert, hcurrent]
    exact if_neg (not_or.mpr ⟨hid, hmax⟩)
  have hpending : ({ r with
      rooms := r.rooms.insert room.roomId room
      roomIds := room.roomId :: r.roomIds }.set c P').pending = r.pending :=
    Roster.pending_set_of_same rfl rfl hc hslot
  exact (Machine.Runs.one hstep).of_eq (Seats.ext rfl rfl rfl hpending.symm)

theorem runs_closed (roomId : String) (hc : r.parties.get? c = some P)
    (hslot : P'.stage.slot = P.stage.slot) :
    Seats.machine.Runs Seats.report r.seats []
      ({ r with rooms := r.rooms.remove roomId }.set c P').seats := by
  have hstep : Seats.machine.step r.seats (.closeRoom roomId) =
      some { r.seats with room := counters (r.rooms.remove roomId) } := by
    rw [counters_remove]
    rfl
  have hpending : ({ r with rooms := r.rooms.remove roomId }.set c P').pending = r.pending :=
    Roster.pending_set_of_same rfl rfl hc hslot
  exact (Machine.Runs.one hstep).of_eq (Seats.ext rfl rfl rfl hpending.symm)

theorem runs_reserved (hs : r.Sound) {roomId : String} {room : Room}
    (hroom : r.rooms.get? roomId = some room) (hfree : room.currentPlayers < room.maxPlayers)
    (hc : r.parties.get? c = some P) (hslot : P.stage.slot = none)
    (hslot' : P'.stage.slot = some roomId) :
    Seats.machine.Runs Seats.report r.seats []
      ({ r with rooms := r.rooms.modify roomId Room.increment }.set c P').seats := by
  have hcounter : r.seats.room roomId = some ⟨room.currentPlayers, room.maxPlayers⟩ := by
    simp [Roster.seats, counters, hroom]
  have hmax := (hs.room hroom).2.2.2
  have hpending :=
    Roster.pending_set { r with rooms := r.rooms.modify roomId Room.increment } P' rfl rfl hc
  rw [hslot, hslot'] at hpending
  refine (Machine.Runs.one (Seats.step_reserve hcounter hfree hpending)).of_eq
    (Seats.ext rfl ?_ rfl rfl)
  exact (counters_increment hroom (by omega)).symm

/-- The player's entry names the new room, and its handler is to release the old one. -/
theorem runs_recorded {id roomId : String} {p : ConnectedPlayer}
    (hp : r.players.get? id = some p) (hc : r.parties.get? c = some P)
    (hslot : P.stage.slot = some roomId) (hslot' : P'.stage.slot = p.joinedRoom) :
    Seats.machine.Runs Seats.report r.seats []
      ({ r with
        players := r.players.modify id fun p => { p with joinedRoom := some roomId } }.set c
          P').seats := by
  let record (p : ConnectedPlayer) : ConnectedPlayer := { p with joinedRoom := some roomId }
  have hseated := Table.tally_modify ConnectedPlayer.joinedRoom record hp
  have hpending := Roster.pending_set { r with players := r.players.modify id record } P' rfl rfl hc
  rw [hslot, hslot'] at hpending
  refine runs_record (S := r.seats) (fun oldId hold => ?_) hseated hpending
  exact (Table.tally_pos hp hold).ne'

/-- Every effect on a roster is a run of its seats, which loses the slots it leaks. -/
theorem Roster.Sound.runs_seats (hs : r.Sound) (h : Effect r r' events) :
    Seats.machine.Runs Seats.report r.seats (events.filterMap Event.leakedRoom) r'.seats := by
  cases h with
  | still => exact .refl _ _
  | skipped hexpired hsweep hp => exact runs_of_same rfl rfl rfl rfl
  | found =>
      simp only [List.filterMap_map, Function.comp_def, Event.leakedRoom, List.filterMap_none]
      exact runs_of_same rfl rfl rfl rfl
  | admitted hc =>
      have hshift := Table.tally_insert (v := Party.outside) (·.stage.slot) hc
      refine runs_of_same rfl rfl rfl (funext fun id => ?_)
      simp only [Roster.pending]
      rw [hshift.eq]
  | touched id now =>
      exact runs_of_same rfl rfl (Table.tally_modify_of_same id fun _ => rfl) rfl
  | @entered c registered p hc hhosting hjoined honline =>
      have habsent : r.players.get? p.playerId = none := hs.absent hc
      have hshift := Table.tally_insert (v := p) (·.joinedRoom) habsent
      rw [hjoined] at hshift
      exact runs_of_same rfl rfl hshift.eq (pending_set_of_same rfl rfl hc rfl)
  | @marked c id registered now hc =>
      exact runs_of_same rfl rfl (Table.tally_modify_of_same id fun _ => rfl)
        (pending_set_of_same rfl rfl hc rfl)
  | @linked c id roomId registered p hc hp =>
      exact runs_of_same rfl rfl (Table.tally_modify_of_same id fun _ => rfl)
        (pending_set_of_same rfl rfl hc rfl)
  | @unlinked c id roomId registered p hc hp hhosting =>
      exact runs_of_same rfl rfl (Table.tally_modify_of_same id fun _ => rfl)
        (pending_set_of_same rfl rfl hc rfl)
  | started hc | entering hc | quoted hc | checked hc | planned hc | orphaned hc | missing hc =>
      exact runs_of_same rfl rfl rfl (pending_set_of_same rfl rfl hc rfl)
  | gaveUp hc hfree =>
      refine runs_of_same rfl rfl rfl (pending_set_of_same rfl rfl hc ?_)
      rename_i stage
      cases stage <;> first | rfl | simp [HandlerStage.free] at hfree
  | opened hc hid hcurrent hmax => exact runs_opened hid hcurrent (by omega) hc rfl
  | closed hc => exact runs_closed _ hc rfl
  | reserved hc hroom hfree => exact runs_reserved hs hroom hfree hc rfl rfl
  | recorded hc hp => exact runs_recorded hp hc rfl (by cases ConnectedPlayer.joinedRoom _ <;> rfl)
  | @lost c id roomId registered version hc hp =>
      have hloop : (HandlerStage.reserved roomId version).inLoop = true := rfl
      exact runs_lose (S := r.seats) hloop (pending_set r ⟨id, registered, .idle⟩ rfl rfl hc)
  | @released c id roomId registered hc =>
      have hstep := Seats.step_release (s := r.seats) (pending_set
        { r with rooms := r.rooms.modify roomId Room.decrement } ⟨id, registered, .idle⟩
          rfl rfl hc)
      refine (Machine.Runs.one hstep).of_eq (Seats.ext rfl ?_ rfl rfl)
      exact (counters_decrement r.rooms roomId).symm
  | @dropped c id registered stage hc hloop =>
      have hslot : (HandlerStage.exit registered).slot = none := by cases registered <;> rfl
      have hpending := pending_set r ⟨id, registered, .exit registered⟩ rfl rfl hc
      rw [hslot] at hpending
      exact runs_lose (S := r.seats) hloop hpending
  | @taken c id registered p hc hp =>
      exact runs_unseat (S := r.seats) (Table.tally_remove ConnectedPlayer.joinedRoom hp)
        (pending_set { r with players := r.players.remove id }
          ⟨id, registered, .removing p.hostingRoom p.joinedRoom⟩ rfl rfl hc)
  | @cleared c id registered hostingRoom joinedRoom hc =>
      exact runs_clearRooms (S := r.seats) rfl
        (pending_set { r with rooms := clearRooms r.rooms hostingRoom joinedRoom }
          ⟨id, registered, .gone⟩ rfl rfl hc)
  | @removed id rest p hexpired hsweep hp =>
      refine runs_unseat (S := r.seats) (Table.tally_remove ConnectedPlayer.joinedRoom hp) ?_
      intro roomId
      simp [Roster.seats, Roster.pending, hsweep]
  | @swept hostingRoom joinedRoom hsweep =>
      refine runs_clearRooms (S := r.seats) rfl ?_
      intro roomId
      simp [Roster.seats, Roster.pending, hsweep]

end Effects

namespace Lobby

/-- The server implements its seats. -/
theorem implements_seats : Machine.Implements machine Seats.machine (fun s => s.roster.seats)
    report Seats.report Event.leakedRoom where
  init := Seats.ext rfl rfl rfl rfl
  step := fun hreach hstep => (sound_of_reachable hreach).runs_seats (effect_of_step hstep)

/-- The law of the counter, after any run. -/
theorem seats_sound {s : Lobby} {events : List Event} (h : machine.Trace report events s) :
    s.roster.seats.Sound (events.filterMap Event.leakedRoom) :=
  Seats.sound_of_trace (implements_seats.trace h)

theorem pending_of_quiescent {s : Lobby} (h : s.quiescent = true) (roomId : String) :
    s.roster.pending roomId = 0 := by
  have hparties : s.roster.parties.tally (·.stage.slot) roomId = 0 := by
    refine Table.tally_eq_zero fun c P hP => ?_
    obtain hstage | hstage | hstage := parties_of_quiescent h hP <;>
      simp [hstage, HandlerStage.slot]
  simp [Roster.pending, hparties, sweep_of_quiescent h]

theorem mem_leakedRoom {events : List Event} {roomId : String} :
    roomId ∈ events.filterMap Event.leakedRoom ↔ Event.leaked roomId ∈ events := by
  simp only [List.mem_filterMap]
  constructor
  · rintro ⟨event, hmem, hevent⟩
    cases event with
    | leaked id =>
        obtain rfl : id = roomId := Option.some.inj hevent
        exact hmem
    | _ => cases hevent
  · exact fun hmem => ⟨_, hmem, rfl⟩

/-! ## Bounds that hold at every moment -/

/-- The players recorded in a room. -/
def recorded (s : Lobby) (roomId : String) : Nat :=
  s.app.players.count fun p => p.joinedRoom = some roomId

/-- A room never admits more players than it may, its counter never saturates, and
everybody recorded in it plays its version. -/
theorem recorded_le {s : Lobby} (h : machine.Reachable s) {id : String} {room : Room}
    (hroom : s.app.rooms.get? id = some room) :
    1 + s.recorded room.roomId ≤ room.currentPlayers ∧
      room.currentPlayers ≤ room.maxPlayers ∧ room.maxPlayers ≤ 12 ∧
      room.decrement.currentPlayers + 1 = room.currentPlayers ∧
      room.increment.currentPlayers = room.currentPlayers + 1 ∧
      ∀ playerId p, s.app.players.get? playerId = some p →
        p.joinedRoom = some room.roomId → p.war3Version = room.war3Version := by
  have hsound := sound_of_reachable h
  obtain ⟨hid, _, _, hmax⟩ := hsound.room hroom
  obtain ⟨events, htrace⟩ := h.exists_trace report
  have hcounter : s.roster.seats.room room.roomId =
      some ⟨room.currentPlayers, room.maxPlayers⟩ := by
    rw [hid]
    simp only [Roster.seats, counters, roster, hroom, Option.map_some]
  obtain ⟨hseated, hle⟩ : 1 + s.recorded room.roomId ≤ room.currentPlayers ∧
      room.currentPlayers ≤ room.maxPlayers := (seats_sound htrace).seated_le hcounter
  refine ⟨hseated, hle, hmax, ?_, ?_, ?_⟩
  · simp only [Room.decrement]
    omega
  · simp only [Room.increment]
    omega
  · intro playerId p hp hjoined
    rw [hid] at hjoined
    exact ((hsound.joined hp hjoined).2 room hroom).symm

/-- A room whose counter shows two has at most one player recorded in it. -/
theorem recorded_le_full :
    ∃ s room, machine.Reachable s ∧ s.app.rooms.get? "r" = some room ∧
      room.currentPlayers = 2 ∧ s.recorded room.roomId ≤ 1 := by
  have hrun : (machine.exec machine.init
      (registers 1 "a" ++ createsRoom 1 "r" ++ registers 2 "b" ++ reservesSlot 2 "r")).any
      (fun s => (s.app.rooms.get? "r").any fun room => decide (room.currentPlayers = 2)) =
        true := by
    decide
  obtain ⟨s, _, hreach, htest⟩ := Machine.exists_reachable_of_exec hrun
  simp only [Option.any_eq_true, decide_eq_true_eq] at htest
  obtain ⟨room, hroom, htwo⟩ := htest
  have hle := (recorded_le hreach hroom).1
  exact ⟨s, room, hreach, hroom, htwo, by omega⟩

/-! ## Exactness -/

/-- Every counter shows the host and the players recorded in its room. -/
def ExactOccupancy (s : Lobby) : Prop :=
  ∀ id room, s.app.rooms.get? id = some room →
    room.currentPlayers = 1 + s.recorded room.roomId

/-- When no handler is in the middle of an operation, the counters are exact if and only if
no slot of a room that is still open was leaked on the way. -/
theorem exactOccupancy_iff {s : Lobby} {events : List Event}
    (h : machine.Trace report events s) (hquiescent : s.quiescent = true) :
    s.ExactOccupancy ↔
      ∀ id room, s.app.rooms.get? id = some room → Event.leaked id ∉ events := by
  have hsound := sound_of_reachable h.reachable
  refine forall_congr' fun id => forall_congr' fun room => imp_congr_right fun hroom => ?_
  have hcounter : s.roster.seats.room id = some ⟨room.currentPlayers, room.maxPlayers⟩ := by
    simp only [Roster.seats, counters, roster, hroom, Option.map_some]
  have hexact := (seats_sound h).exact_iff hcounter (pending_of_quiescent hquiescent id)
  rw [(hsound.room hroom).1, ← mem_leakedRoom]
  exact hexact

/-- The joiner's connection breaks while its handler holds a slot: the room stays full. -/
def leakingRun : List Label :=
  registers 1 "a" ++ createsRoom 1 "r" ++ registers 2 "b" ++ reservesSlot 2 "r" ++ breaks 2

/-- Not every state at rest is exact. -/
theorem not_always_exactOccupancy :
    ¬ ∀ s, machine.Reachable s → s.quiescent = true → s.ExactOccupancy := by
  intro hclaim
  have hrun : (machine.exec machine.init leakingRun).any (fun s =>
      s.quiescent && (s.app.rooms.get? "r").any fun room =>
        decide (room.currentPlayers ≠ 1 + s.recorded room.roomId)) = true := by
    decide
  obtain ⟨s, _, hreach, htest⟩ := Machine.exists_reachable_of_exec hrun
  simp only [Bool.and_eq_true, Option.any_eq_true, decide_eq_true_eq] at htest
  obtain ⟨hquiescent, room, hroom, hne⟩ := htest
  exact hne (hclaim s hreach hquiescent _ room hroom)

/-- A player that joins a room is counted. -/
theorem exactOccupancy_joined :
    ∃ s, machine.Reachable s ∧ s.ExactOccupancy ∧ s.recorded "r" = 1 := by
  have hrun : (machine.exec machine.init (registers 1 "a" ++ createsRoom 1 "r" ++
      registers 2 "b" ++ reservesSlot 2 "r" ++ joinsRoom 2 "t")).any
      (fun s => s.quiescent && decide (s.recorded "r" = 1)) = true := by
    decide
  have hreport : machine.report report machine.init (registers 1 "a" ++ createsRoom 1 "r" ++
      registers 2 "b" ++ reservesSlot 2 "r" ++ joinsRoom 2 "t") = [] := by
    decide
  obtain ⟨s, hexec, hreach, htest⟩ := Machine.exists_reachable_of_exec hrun
  simp only [Bool.and_eq_true, decide_eq_true_eq] at htest
  have htrace := Machine.trace_of_exec (f := report) hexec
  rw [hreport] at htrace
  exact ⟨s, hreach, (exactOccupancy_iff htrace htest.1).mpr (by simp), htest.2⟩

end Lobby

end War3BattleTool.Server
