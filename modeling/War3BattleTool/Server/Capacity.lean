import War3BattleTool.Foundation.Tally
import War3BattleTool.Server.Handlers

set_option autoImplicit false

/-!
# The player limit and the room limit

`Register` counts the players under one lock and inserts the new one under another, and
`CreateRoom` does so with the rooms.  Between the two blocks a handler holds a `Seat` that
no count sees.  The limits hold as long as whoever passes a count leaves room for those
who have passed it before (`leavesRoom`).
-/

namespace War3BattleTool.Server

open War3BattleTool.Foundation War3BattleTool.Protocol

/-- What a handler that has passed a limit is about to insert. -/
inductive Seat where
  | player
  | room
  deriving DecidableEq

/-- `MAX_TOTAL_PLAYERS` and `MAX_TOTAL_ROOMS`. -/
def Seat.limit : Seat → Nat
  | .player => maxTotalPlayers
  | .room => maxTotalRooms

/-- The number of entries. -/
def AppState.taken (a : AppState) : Seat → Nat
  | .player => a.players.size
  | .room => a.rooms.size

/-- What a handler that stands here is about to insert. -/
def HandlerPc.seat : HandlerPc → Option Seat
  | .registerInsert _ _ _ => some .player
  | .createInsert _ => some .room
  | _ => none

/-- The seat whose limit a handler that stands here is about to check. -/
def HandlerPc.counting : HandlerPc → Option Seat
  | .registerCount _ _ => some .player
  | .createCount _ => some .room
  | _ => none

/-- What the handler of a connection is about to insert. -/
def Socket.seat : Socket → Option Seat
  | .running h => h.pc.seat
  | .upgrading _ | .upgradeFailed _ => none

/-! ## The maps that shrink, or stay as large as they are -/

/-- No map has grown. -/
structure AppState.NoLarger (a' a : AppState) : Prop where
  players : a'.players.size ≤ a.players.size
  rooms : a'.rooms.size ≤ a.rooms.size

namespace AppState

variable {a a' : AppState}

theorem NoLarger.taken (h : a'.NoLarger a) (x : Seat) : a'.taken x ≤ a.taken x := by
  cases x with
  | player => exact h.players
  | room => exact h.rooms

theorem NoLarger.refl (a : AppState) : a.NoLarger a := ⟨Nat.le_refl _, Nat.le_refl _⟩

theorem NoLarger.trans {a'' : AppState} (h' : a''.NoLarger a') (h : a'.NoLarger a) :
    a''.NoLarger a :=
  ⟨h'.players.trans h.players, h'.rooms.trans h.rooms⟩

theorem noLarger_modifyPlayer (a : AppState) (playerId : String)
    (f : ConnectedPlayer → ConnectedPlayer) : (a.modifyPlayer playerId f).NoLarger a :=
  ⟨by simp [modifyPlayer], Nat.le_refl _⟩

theorem noLarger_modifyRoom (a : AppState) (roomId : String) (f : Room → Room) :
    (a.modifyRoom roomId f).NoLarger a :=
  ⟨Nat.le_refl _, by simp [modifyRoom]⟩

theorem noLarger_takePlayer (a : AppState) (playerId : String) :
    (a.takePlayer playerId).1.NoLarger a :=
  ⟨Table.size_remove_le .., Nat.le_refl _⟩

theorem noLarger_removeRoom (a : AppState) (roomId : String) : (a.removeRoom roomId).NoLarger a :=
  ⟨Nat.le_refl _, Table.size_remove_le ..⟩

theorem noLarger_reserveSlot (a : AppState) (roomId : String) :
    (a.reserveSlot roomId).1.NoLarger a := by
  unfold reserveSlot
  split
  · split
    · exact .refl a
    · exact noLarger_modifyRoom ..
  · exact .refl a

theorem noLarger_clearRooms (a : AppState) (hostingRoom joinedRoom : Option String) :
    (a.clearRooms hostingRoom joinedRoom).NoLarger a := by
  cases hostingRoom with
  | none =>
      cases joinedRoom with
      | none => exact .refl a
      | some joined => exact noLarger_modifyRoom ..
  | some hosting =>
      cases joinedRoom with
      | none => exact noLarger_removeRoom ..
      | some joined =>
          exact (noLarger_modifyRoom (a.removeRoom hosting) joined Room.decrement).trans
            (noLarger_removeRoom a hosting)

end AppState

namespace Lobby

/-- The handlers that have passed the limit and not inserted yet. -/
def pending (s : Lobby) (x : Seat) : Nat := s.sockets.tally Socket.seat x

/-- Whoever passes a limit leaves room for those who have passed it and not inserted yet. -/
def leavesRoom (s : Lobby) : Label → Prop
  | .block c _ =>
      match s.sockets.get? c with
      | some (.running h) =>
          match h.pc.counting with
          | some x => s.app.taken x < x.limit → s.app.taken x + s.pending x < x.limit
          | none => True
      | _ => True
  | _ => True

instance (s : Lobby) (l : Label) : Decidable (s.leavesRoom l) := by
  unfold leavesRoom
  repeat' split
  all_goals infer_instance

/-- Every handler that has passed a limit still finds room. -/
def WithinLimits (s : Lobby) : Prop := ∀ x : Seat, s.app.taken x + s.pending x ≤ x.limit

/-! ## What a step does to the seats -/

/-- The handler moves, and inserts no more than the seat it holds allows. -/
def Settles (s s' : Lobby) (c : SocketId) (h : Handler) : Prop :=
  ∃ h', Moves s s' c h h' ∧
    ∀ x, s'.app.taken x + single h'.pc.seat x ≤ s.app.taken x + single h.pc.seat x

variable {s s' : Lobby} {c : SocketId} {h : Handler}

/-- Handlers move along, and the sum of the entries and the seats does not grow. -/
theorem Settles.sum_le (hc : s.sockets.get? c = some (.running h)) (hs : Settles s s' c h)
    (x : Seat) : s'.app.taken x + s'.pending x ≤ s.app.taken x + s.pending x := by
  obtain ⟨h', hmoves, hle⟩ := hs
  have hshift := Table.tally_of_entry Socket.seat hc hmoves.sockets x
  have := hle x
  simp only [pending, Socket.seat] at hshift ⊢
  omega

section Blocks

variable (hc : s.sockets.get? c = some (.running h))

include hc

/-- The handler's locals change, and it holds no seat afterwards. -/
theorem Settles.put (h' : Handler) (hip : h'.clientIp = h.clientIp)
    (hid : h'.playerId = h.playerId) (hseat : h'.pc.seat = none)
    (hsockets : s'.sockets = (s.put c h').sockets) (happ : s'.app.NoLarger s.app) :
    Settles s s' c h := by
  refine ⟨h', .put hc hip hid hsockets, fun x => ?_⟩
  have := happ.taken x
  simp only [hseat, single_none]
  omega

/-- The handler proceeds to `pc`. -/
theorem Settles.goto (pc : HandlerPc) (hseat : pc.seat = none)
    (hsockets : s'.sockets = (s.goto c h pc).sockets) (happ : s'.app.NoLarger s.app) :
    Settles s s' c h :=
  .put hc { h with pc := pc } rfl rfl hseat hsockets happ

/-- The handler stays where it is, at the start of the loop. -/
theorem Settles.stay (hsockets : s'.sockets = s.sockets) (happ : s'.app.NoLarger s.app) :
    Settles s s' c h := by
  refine ⟨h, ⟨by rw [hsockets, ← hc, Function.update_eq_self], rfl, rfl⟩, fun x => ?_⟩
  have := happ.taken x
  omega

/-- The seat is filled. -/
theorem settles_registerInsert {nickname : String} {war3Version : War3Version}
    {lastHeartbeat : Instant} (hpc : h.pc = .registerInsert nickname war3Version lastHeartbeat) :
    Settles s (s.registerInsert c h nickname war3Version lastHeartbeat) c h := by
  refine ⟨{ h with registered := true, pc := .broadcast }, .put hc rfl rfl ?_, fun x => ?_⟩
  · dsimp only [registerInsert]
    split <;> rfl
  · have hplayers : (s.registerInsert c h nickname war3Version lastHeartbeat).app.players.size ≤
        s.app.players.size + 1 := by
      dsimp only [registerInsert]
      split <;> exact Table.size_insert_le ..
    have hrooms : (s.registerInsert c h nickname war3Version lastHeartbeat).app.rooms =
        s.app.rooms := by
      dsimp only [registerInsert]
      split <;> rfl
    cases x with
    | player => simpa [hpc, HandlerPc.seat, AppState.taken] using hplayers
    | room => simp [hpc, HandlerPc.seat, AppState.taken, hrooms, single]

theorem settles_createInsert {draft : RoomDraft} {roomId : String}
    (hpc : h.pc = .createInsert draft) (hstep : s.createInsert c h draft roomId = some s') :
    Settles s s' c h := by
  unfold createInsert at hstep
  split at hstep
  · cases hstep
  · cases hstep
    refine ⟨{ h with pc := .createLink roomId }, .put hc rfl rfl rfl, fun x => ?_⟩
    cases x with
    | player => exact Nat.le_add_right ..
    | room =>
        rw [hpc]
        exact Table.size_insert_le s.app.rooms roomId (draft.room roomId h.playerId)

/-- Every block but the two counts. -/
theorem settles_block {fresh : String} (hcounting : h.pc.counting = none)
    (hstep : s.block c h fresh = some s') : Settles s s' c h := by
  have harm := arm_of_block hstep
  generalize hpc : h.pc = pc at harm hcounting
  cases harm with
  | registerCount | createCount => cases hcounting
  | registerInsert nickname war3Version lastHeartbeat => exact settles_registerInsert hc hpc
  | createInsert draft hstep => exact settles_createInsert hc hpc hstep
  | joinRegisterPending ticket hstep =>
      obtain ⟨tunnel, _, rfl⟩ := Option.map_eq_some_iff.mp hstep
      exact .goto hc (.joinRegisterBinding ticket fresh) rfl rfl (.refl _)
  | joinRegisterBinding ticket token hstep =>
      obtain ⟨tunnel, _, rfl⟩ := Option.map_eq_some_iff.mp hstep
      exact .goto hc (.joinRecord ticket) rfl rfl (.refl _)
  | broadcast => exact .goto hc .receiving rfl rfl (.refl _)
  | heartbeat => exact .goto hc .receiving rfl rfl (AppState.noLarger_modifyPlayer ..)
  | createRead request =>
      unfold createRead
      split
      · split
        · exact .goto hc .receiving rfl rfl (.refl _)
        · exact .goto hc (.createCount _) rfl rfl (.refl _)
      · exact .goto hc .receiving rfl rfl (.refl _)
  | createLink roomId => exact .goto hc .broadcast rfl rfl (AppState.noLarger_modifyPlayer ..)
  | closeTake =>
      dsimp only [closeTake]
      cases (s.app.takeHostingRoom h.playerId).2 with
      | some roomId =>
          exact .goto hc (.closeRemove roomId) rfl rfl (AppState.noLarger_modifyPlayer ..)
      | none => exact .goto hc .receiving rfl rfl (AppState.noLarger_modifyPlayer ..)
  | closeRemove roomId => exact .goto hc .broadcast rfl rfl (AppState.noLarger_removeRoom ..)
  | upnpLookup externalAddr tunnelToken =>
      dsimp only [upnpLookup]
      cases (s.tunnel.lookupUpnp tunnelToken h.clientIp).2 with
      | some pid => exact .goto hc (.upnpForward externalAddr pid) rfl rfl (.refl _)
      | none => exact .goto hc .receiving rfl rfl (.refl _)
  | upnpForward externalAddr joinerPlayerId =>
      dsimp only [upnpForward]
      split <;> exact .goto hc .receiving rfl rfl (.refl _)
  | joinRoom roomId =>
      unfold joinRoom
      split
      · exact .goto hc (.joinPlayers _) rfl rfl (.refl _)
      · exact .goto hc .receiving rfl rfl (.refl _)
  | joinPlayers quote =>
      unfold joinPlayers
      split
      · exact .goto hc .receiving rfl rfl (.refl _)
      · split
        · exact .goto hc .receiving rfl rfl (.refl _)
        · split
          · exact .goto hc (.joinReserve _) rfl rfl (.refl _)
          · exact .goto hc .receiving rfl rfl (.refl _)
  | joinReserve ticket =>
      have hsmaller := AppState.noLarger_reserveSlot s.app ticket.quote.roomId
      unfold joinReserve
      split
      · next app heq =>
        rw [heq] at hsmaller
        exact .goto hc (.joinRegisterPending ticket) rfl rfl hsmaller
      · exact .goto hc .receiving rfl rfl (.refl _)
  | joinRecord ticket =>
      dsimp only [joinRecord]
      cases (s.app.replaceJoinedRoom h.playerId ticket.quote.roomId).2 with
      | some oldId =>
          exact .goto hc (.joinReleaseOld oldId) rfl rfl (AppState.noLarger_modifyPlayer ..)
      | none =>
          exact .put hc { h with lastJoinAt := some s.now, pc := .broadcast } rfl rfl rfl rfl
            (AppState.noLarger_modifyPlayer ..)
  | joinReleaseOld oldId =>
      exact .put hc { h with lastJoinAt := some s.now, pc := .broadcast } rfl rfl rfl rfl
        (AppState.noLarger_modifyRoom ..)
  | leaving =>
      have hsmaller := AppState.noLarger_takePlayer s.app h.playerId
      unfold leaving
      split
      · split
        · next app hostingRoom joinedRoom heq =>
          rw [heq] at hsmaller
          exact .goto hc (.removeRooms hostingRoom joinedRoom) rfl rfl hsmaller
        · exact .goto hc .finalBroadcast rfl rfl (.refl _)
      · exact .goto hc .finalBroadcast rfl rfl (AppState.noLarger_modifyPlayer ..)
  | removeRooms hostingRoom joinedRoom =>
      exact .goto hc .finalBroadcast rfl rfl (AppState.noLarger_clearRooms ..)
  | finalBroadcast => exact .goto hc .returned rfl rfl (.refl _)
  | returned => exact .goto hc .released rfl rfl ⟨Nat.le_refl _, Nat.le_refl _⟩

/-- Whoever passes a limit takes a seat, and found the limit not reached. -/
theorem counts_block {fresh : String} {x : Seat} (hcounting : h.pc.counting = some x)
    (hstep : s.block c h fresh = some s') :
    Settles s s' c h ∨ s.app.taken x < x.limit ∧
      ∀ y, s'.app.taken y + s'.pending y = s.app.taken y + s.pending y + single (some x) y := by
  have hpasses {h' : Handler} (hip : h'.clientIp = h.clientIp) (hid : h'.playerId = h.playerId)
      (hseat : h'.pc.seat = some x) (hnone : h.pc.seat = none) (y : Seat) :
      (s.put c h').app.taken y + (s.put c h').pending y =
        s.app.taken y + s.pending y + single (some x) y := by
    have hmoves : Moves s (s.put c h') c h h' := .put hc hip hid rfl
    have hshift := Table.tally_of_entry Socket.seat hc hmoves.sockets y
    simp only [Socket.seat, hseat, hnone, single_none, Nat.add_zero] at hshift
    simp only [pending, hshift]
    exact (Nat.add_assoc ..).symm
  unfold block at hstep
  cases hpc : h.pc with
  | registerCount nickname war3Version =>
      simp only [hpc, Option.some.injEq] at hstep
      obtain rfl : x = .player := by simpa [hpc, HandlerPc.counting, eq_comm] using hcounting
      subst hstep
      unfold registerCount
      split
      · exact .inl (.goto hc .receiving rfl rfl (.refl _))
      · next hfree =>
        exact .inr ⟨Nat.lt_of_not_le hfree, hpasses rfl rfl rfl (by simp [hpc, HandlerPc.seat])⟩
  | createCount draft =>
      simp only [hpc, Option.some.injEq] at hstep
      obtain rfl : x = .room := by simpa [hpc, HandlerPc.counting, eq_comm] using hcounting
      subst hstep
      unfold createCount
      split
      · exact .inl (.goto hc .receiving rfl rfl (.refl _))
      · next hfree =>
        exact .inr ⟨Nat.lt_of_not_le hfree, hpasses rfl rfl rfl (by simp [hpc, HandlerPc.seat])⟩
  | _ => simp [hpc, HandlerPc.counting] at hcounting

/-! ### The receive loop -/

theorem settles_exit : Settles s (s.put c h.exit) c h := by
  refine .put hc h.exit rfl rfl ?_ rfl (.refl _)
  unfold Handler.exit
  split <;> rfl

theorem settles_dispatch (m : ValidMessage) (externalIp : Option IpAddr) :
    Settles s (s.dispatch c h m externalIp) c h := by
  have hdispatched := dispatched s c h m externalIp
  generalize s.dispatch c h m externalIp = s' at hdispatched ⊢
  cases hdispatched with
  | begun hbegins =>
      generalize m.message = message at hbegins
      cases hbegins <;> exact .goto hc _ rfl rfl (.refl _)
  | _ => exact .stay hc rfl (.refl _)

theorem settles_frame (item : Incoming) : Settles s (s.frame c h item) c h := by
  -- the rate limiter of the handler changes before the message is dispatched
  have hmoves : Moves s (s.put c (s.counted h)) c h (s.counted h) := .put hc rfl rfl rfl
  have hthen {s'' : Lobby} (hs : Settles (s.put c (s.counted h)) s'' c (s.counted h)) :
      Settles s s'' c h := by
    obtain ⟨h₂, hmoves', hle⟩ := hs
    exact ⟨h₂, ⟨by rw [hmoves'.sockets, hmoves.sockets, Function.update_idem],
      hmoves'.clientIp, hmoves'.playerId⟩, hle⟩
  have hframed := framed s c h item
  generalize s.frame c h item = s' at hframed ⊢
  cases hframed with
  | left => exact settles_exit hc
  | ignored | tooLong => exact .stay hc rfl (.refl _)
  | refused text => exact hthen (.stay hmoves.get?_self rfl (.refl _))
  | passed m => exact hthen (settles_dispatch hmoves.get?_self m _)

end Blocks

/-! ## Runs -/

/-- A step that no handler makes. -/
theorem sum_le_of_idle (happ : s'.app.NoLarger s.app)
    (hpending : s'.sockets.tally Socket.seat = s.sockets.tally Socket.seat) (x : Seat) :
    s'.app.taken x + s'.pending x ≤ s.app.taken x + s.pending x := by
  have := happ.taken x
  simp only [pending, hpending]
  omega

theorem noLarger_cleanup (hstep : s.cleanupStep = some s') :
    s'.app.NoLarger s.app ∧ s'.sockets = s.sockets := by
  unfold cleanupStep at hstep
  split at hstep
  · split at hstep
    · cases hstep
      exact ⟨.refl _, rfl⟩
    · cases hstep
  · cases hstep
    exact ⟨.refl _, rfl⟩
  · cases hstep
    exact ⟨.refl _, rfl⟩
  · cases hstep
    exact ⟨.refl _, rfl⟩
  · cases hstep
    exact ⟨AppState.noLarger_takePlayer .., rfl⟩
  · cases hstep
    exact ⟨AppState.noLarger_clearRooms .., rfl⟩

theorem sum_le_of_request {originOk : Bool} {ip : IpAddr}
    (hstep : s.request c originOk ip = some s') (x : Seat) :
    s'.app.taken x + s'.pending x ≤ s.app.taken x + s.pending x := by
  obtain ⟨conns, hconns⟩ := wsHandler_frame s.app originOk ip
  unfold request at hstep
  split at hstep
  · cases hstep
  · next hnew =>
    have hshift : Shifts (s.sockets.tally Socket.seat)
        ((s.sockets.insert c (.upgrading ip)).tally Socket.seat) none none :=
      Table.tally_insert Socket.seat hnew
    split at hstep
    · next app heq =>
      obtain rfl : app = _ := (congrArg Prod.fst heq).symm.trans hconns
      have happ : s'.app.NoLarger s.app := by
        cases hstep
        exact ⟨Nat.le_refl _, Nat.le_refl _⟩
      have hsockets : s'.sockets = s.sockets.insert c (.upgrading ip) := by
        cases hstep
        rfl
      rw [← hsockets] at hshift
      exact sum_le_of_idle happ hshift.eq x
    · next app error heq =>
      obtain rfl : app = _ := (congrArg Prod.fst heq).symm.trans hconns
      cases hstep
      cases x with
      | player => exact Nat.le_refl _
      | room => exact Nat.le_refl _

theorem sum_le_of_upgrade {playerId : Option String}
    (hstep : s.step (.upgrade c playerId) = some s') (x : Seat) :
    s'.app.taken x + s'.pending x ≤ s.app.taken x + s.pending x := by
  have hkept (k : Socket) {ip : IpAddr} (hc : s.sockets.get? c = some (.upgrading ip))
      (hk : k.seat = none) (happ : s'.app = s.app)
      (hsockets : s'.sockets = s.sockets.modify c fun _ => k) :
      s'.app.taken x + s'.pending x ≤ s.app.taken x + s.pending x := by
    have hshift := Table.tally_modify Socket.seat (fun _ => k) hc
    rw [hk, ← hsockets] at hshift
    exact sum_le_of_idle (happ ▸ .refl _) hshift.eq x
  simp only [step] at hstep
  split at hstep
  · next ip hc =>
    cases playerId with
    | none =>
        cases hstep
        exact hkept (.upgradeFailed ip) hc rfl rfl rfl
    | some playerId =>
        simp only [upgraded] at hstep
        split at hstep
        · cases hstep
        · cases hstep
          exact hkept (.running (.start ip playerId s.now)) hc rfl rfl rfl
  · cases hstep

/-- A step that leaves room keeps within the limits. -/
theorem WithinLimits.step {l : Label} (hs : s.WithinLimits) (hok : s.leavesRoom l)
    (hstep : s.step l = some s') : s'.WithinLimits := by
  intro x
  have hidle (hle : s'.app.taken x + s'.pending x ≤ s.app.taken x + s.pending x) :
      s'.app.taken x + s'.pending x ≤ x.limit := hle.trans (hs x)
  cases l with
  | elapse d =>
      cases hstep
      exact hs x
  | tunnel l =>
      simp only [Lobby.step] at hstep
      split at hstep
      · obtain ⟨tunnel, _, rfl⟩ := Option.map_eq_some_iff.mp hstep
        exact hs x
      · cases hstep
  | request c originOk ip => exact hidle (sum_le_of_request hstep x)
  | upgrade c playerId => exact hidle (sum_le_of_upgrade hstep x)
  | frame c item =>
      obtain ⟨h, hc, hstep⟩ := whenRunning_eq_some hstep
      split at hstep
      · cases hstep
        exact hidle ((settles_frame hc item).sum_le hc x)
      · cases hstep
  | block c fresh =>
      obtain ⟨h, hc, hstep⟩ := whenRunning_eq_some hstep
      cases hcounting : h.pc.counting with
      | none => exact hidle ((settles_block hc hcounting hstep).sum_le hc x)
      | some y =>
          rcases counts_block hc hcounting hstep with hsettles | ⟨hfree, hsum⟩
          · exact hidle (hsettles.sum_le hc x)
          · simp only [leavesRoom, hc, hcounting] at hok
            have hroom := hok hfree
            have hx := hs x
            rw [hsum x]
            by_cases hxy : x = y
            · subst hxy
              simp only [single_self]
              omega
            · simp only [single_some_of_ne hxy]
              exact hx
  | drop c =>
      obtain ⟨h, hc, hstep⟩ := whenRunning_eq_some hstep
      split at hstep
      · cases hstep
        exact hidle ((settles_exit hc).sum_le hc x)
      · cases hstep
  | sent c ok =>
      obtain ⟨o, _, hstep⟩ := Option.bind_eq_some_iff.mp hstep
      obtain ⟨o', _, rfl⟩ := Option.map_eq_some_iff.mp hstep
      exact hs x
  | cleanup =>
      obtain ⟨happ, hsockets⟩ := noLarger_cleanup hstep
      exact hidle (sum_le_of_idle happ (by rw [hsockets]) x)

theorem withinLimits_of_reachable (h : (machine.restrict leavesRoom).Reachable s) :
    s.WithinLimits := by
  refine Machine.Reachable.invariant (I := WithinLimits) ?_ ?_ h
  · intro x
    cases x with
    | player => exact Nat.zero_le _
    | room => exact Nat.zero_le _
  · intro s l s' _ hs hstep
    obtain ⟨hok, hstep⟩ := Machine.restrict_step.mp hstep
    exact hs.step hok hstep

/-- The global caps. -/
def WithinCaps (s : Lobby) : Prop :=
  s.app.players.size ≤ maxTotalPlayers ∧ s.app.rooms.size ≤ maxTotalRooms

/-- The caps hold in every run in which whoever passes a limit leaves room for those who have
passed it before. -/
theorem withinCaps_of_reachable (h : (machine.restrict leavesRoom).Reachable s) :
    s.WithinCaps := by
  have hs := withinLimits_of_reachable h
  exact ⟨(Nat.le_add_right _ _).trans (hs .player), (Nat.le_add_right _ _).trans (hs .room)⟩

/-- Two players register one after the other, and one of them creates a room. -/
theorem withinCaps_of_two :
    ∃ s : Lobby, (machine.restrict leavesRoom).Reachable s ∧ s.app.players.size = 2 ∧
      s.app.rooms.size = 1 ∧ s.WithinCaps := by
  have hrun : ((machine.restrict leavesRoom).exec start
      (registers 1 "a" ++ registers 2 "b" ++ createsRoom 1 "r")).any
      (fun s => s.app.players.size = 2 && s.app.rooms.size = 1) = true := by rfl
  obtain ⟨s, _, hreach, htest⟩ :=
    Machine.exists_reachable_of_exec (M := machine.restrict leavesRoom) hrun
  obtain ⟨hplayers, hrooms⟩ := Bool.and_eq_true_iff.mp htest
  exact ⟨s, hreach, of_decide_eq_true hplayers, of_decide_eq_true hrooms,
    withinCaps_of_reachable hreach⟩

/-! ## A crowd between the count and the insert -/

/-- The player id of the `n`th connection. -/
def crowdId (n : Nat) : String := String.ofList (List.replicate n 'a')

/-- The address of the `n`th connection. -/
def crowdIp (n : Nat) : IpAddr := .v4 (BitVec.ofNat 32 n)

/-- The `n`th client connects, and its `Register` passes the player limit. -/
def passesLimit (n : Nat) : List Label :=
  [.request n true (crowdIp n), .upgrade n (some (crowdId n)),
    .frame n (.text 60 (some (.register "p" .v127 none)) none), .block n ""]

/-- Connections `0` to `n - 1` have passed the player limit, and nobody has inserted a player. -/
structure Crowd (n : Nat) (s : Lobby) : Prop where
  waiting : ∀ c, c < n → ∃ h, s.sockets.get? c = some (.running h) ∧
    h.pc = .registerInsert "p" .v127 0 ∧ h.playerId = crowdId c
  absent : ∀ c, n ≤ c → s.sockets.get? c = none
  players : s.app.players = .empty
  freshId : ∀ c, n ≤ c → crowdId c ∉ s.playerIds
  freshIp : ∀ c, n ≤ c → c < 1000 → s.app.connectionsPerIp.get? (crowdIp c) = none
  now : s.now = 0

theorem crowdId_inj {m n : Nat} (h : crowdId m = crowdId n) : m = n := by
  have hlength := congrArg (fun s : String => s.toList.length) h
  simpa [crowdId] using hlength

theorem crowdIp_inj {m n : Nat} (hm : m < 1000) (hn : n < 1000) (h : crowdIp m = crowdIp n) :
    m = n := by
  have hnat := congrArg BitVec.toNat (IpAddr.v4.inj h)
  simp only [BitVec.toNat_ofNat] at hnat
  omega

/-- A new client is admitted. -/
theorem step_request_new {ip : IpAddr} (hsocket : s.sockets.get? c = none)
    (hip : s.app.connectionsPerIp.get? ip = none) :
    ∃ s', s.step (.request c true ip) = some s' ∧
      s'.sockets.get? = Function.update s.sockets.get? c (some (.upgrading ip)) ∧
      s'.app.players = s.app.players ∧ s'.playerIds = s.playerIds ∧ s'.now = s.now ∧
      ∀ ip', ip' ≠ ip → s'.app.connectionsPerIp.get? ip' = s.app.connectionsPerIp.get? ip' := by
  refine ⟨{ s with
    sockets := s.sockets.insert c (.upgrading ip)
    app := { s.app with
      connectionsPerIp := (s.app.connectionsPerIp.insert ip 0).modify ip (· + 1) } },
    ?_, ?_, rfl, rfl, rfl, fun ip' hne => ?_⟩
  · simp [step, request, hsocket, wsHandler, AppState.tryAcquireConnection, acquireSlot, hip,
      maxConnectionsPerIp, setApp]
  · funext c'
    rw [Table.get?_insert, Function.update_apply]
  · rw [Table.get?_modify, if_neg hne, Table.get?_insert, if_neg hne]

/-- A new client starts under a fresh id. -/
theorem step_upgrade_new {ip : IpAddr} {playerId : String}
    (hsocket : s.sockets.get? c = some (.upgrading ip)) (hid : playerId ∉ s.playerIds) :
    ∃ s', s.step (.upgrade c (some playerId)) = some s' ∧
      s'.sockets.get? =
        Function.update s.sockets.get? c (some (.running (.start ip playerId s.now))) ∧
      s'.app = s.app ∧ s'.playerIds = playerId :: s.playerIds ∧ s'.now = s.now := by
  refine ⟨{ s with
    playerIds := playerId :: s.playerIds
    outboxes := s.outboxes.insert c .new }.put c (.start ip playerId s.now),
    ?_, ?_, rfl, rfl, rfl⟩
  · simp [step, hsocket, upgraded, hid]
  · funext c'
    rw [Function.update_apply]
    change (s.sockets.modify c fun _ => _).get? c' = _
    rw [Table.get?_modify]
    split
    · next heq => simp [heq, hsocket]
    · rfl

/-- The first message of a client is its `Register`. -/
theorem step_register_new {ip : IpAddr} {playerId : String} {now : Instant}
    (hsocket : s.sockets.get? c = some (.running (.start ip playerId now))) :
    ∃ h, h.pc = .registerCount "p" .v127 ∧ h.playerId = playerId ∧
      s.step (.frame c (.text 60 (some (.register "p" .v127 none)) none)) = some (s.put c h) := by
  have hallow : ((Handler.start ip playerId now).rateLimiter.allow s.now).2 = true := by
    simp only [Handler.start, RateLimiter.new, RateLimiter.allow]
    by_cases hlate : secs 1 ≤ elapsed s.now now
    · simp [hlate, maxMessagesPerSecond]
    · simp [hlate, maxMessagesPerSecond]
  have hframe : s.step (.frame c (.text 60 (some (.register "p" .v127 none)) none)) =
      some (s.text c (.start ip playerId now) 60 (some (.register "p" .v127 none)) none) := by
    simp only [step, whenRunning, hsocket]
    rfl
  have hcheck : (ClientMessage.register "p" .v127 none).check =
      .ok ⟨.register "p" .v127 none, rfl⟩ := rfl
  refine ⟨{ Handler.start ip playerId now with
    rateLimiter := ((Handler.start ip playerId now).rateLimiter.allow s.now).1
    pc := .registerCount "p" .v127 }, rfl, rfl, hframe.trans (congrArg some ?_)⟩
  have hsize : ¬ maxMessageSize < 60 := by decide
  simp only [text, if_neg hsize, hallow, hcheck, Bool.not_true, Bool.false_eq_true, if_false]
  simp only [dispatch, goto, put, Handler.start, Bool.false_eq_true, if_false,
    Table.modify_modify]

/-- A client passes the player limit on an empty server. -/
theorem step_count_new (hsocket : s.sockets.get? c = some (.running h))
    (hpc : h.pc = .registerCount "p" .v127) (hplayers : s.app.players = .empty) :
    ∃ h', h'.pc = .registerInsert "p" .v127 s.now ∧ h'.playerId = h.playerId ∧
      s.step (.block c "") = some (s.put c h') := by
  have hfree : ¬ maxTotalPlayers ≤ s.app.players.size := by
    rw [hplayers]
    decide
  refine ⟨_, ?_, ?_, (?_ : _ = some (s.put c { h with
    isWebViewer := isWebViewerName "p"
    viewerSince := if isWebViewerName "p" then h.viewerSince.or (some s.now) else h.viewerSince
    pc := .registerInsert "p" .v127 s.now }))⟩
  · rfl
  · rfl
  · simp only [step, whenRunning, hsocket, block, hpc, registerCount, if_neg hfree]

/-- One more client joins the crowd. -/
theorem Crowd.grow {n : Nat} {s : Lobby} (hs : Crowd n s) (hn : n < 1000) :
    ∃ s', machine.exec s (passesLimit n) = some s' ∧ Crowd (n + 1) s' := by
  obtain ⟨s₁, hrequest, hsockets₁, hplayers₁, hids₁, hnow₁, hconns₁⟩ :=
    step_request_new (hs.absent n (Nat.le_refl n)) (hs.freshIp n (Nat.le_refl n) hn)
  have hat₁ : s₁.sockets.get? n = some (.upgrading (crowdIp n)) := by
    rw [hsockets₁, Function.update_self]
  have hid : crowdId n ∉ s₁.playerIds := hids₁ ▸ hs.freshId n (Nat.le_refl n)
  obtain ⟨s₂, hupgrade, hsockets₂, happ₂, hids₂, hnow₂⟩ := step_upgrade_new hat₁ hid
  have hat₂ : s₂.sockets.get? n =
      some (.running (.start (crowdIp n) (crowdId n) s₁.now)) := by
    rw [hsockets₂, Function.update_self]
  obtain ⟨h₃, hpc₃, hplayerId₃, hframe⟩ := step_register_new hat₂
  have hat₃ : (s₂.put n h₃).sockets.get? n = some (.running h₃) := by
    rw [get?_put hat₂, Function.update_self]
  have hplayers₃ : (s₂.put n h₃).app.players = .empty := by
    change s₂.app.players = .empty
    rw [happ₂, hplayers₁, hs.players]
  obtain ⟨h₄, hpc₄, hplayerId₄, hblock⟩ := step_count_new hat₃ hpc₃ hplayers₃
  have hnow : (s₂.put n h₃).now = 0 := hnow₂.trans (hnow₁.trans hs.now)
  have hsockets : ((s₂.put n h₃).put n h₄).sockets.get? =
      Function.update s.sockets.get? n (some (.running h₄)) := by
    rw [get?_put hat₃, get?_put hat₂, hsockets₂, hsockets₁]
    simp only [Function.update_idem]
  refine ⟨(s₂.put n h₃).put n h₄, ?_, ?_⟩
  · simp only [passesLimit, Machine.exec, machine, hrequest, hupgrade, hframe, hblock,
      Option.bind_some]
  · refine ⟨fun c hc => ?_, fun c hc => ?_, hplayers₃, fun c hc => ?_, fun c hc hlt => ?_, hnow⟩
    · rw [hsockets]
      by_cases heq : c = n
      · subst heq
        exact ⟨h₄, Function.update_self .., hnow ▸ hpc₄, hplayerId₄.trans hplayerId₃⟩
      · rw [Function.update_of_ne heq]
        exact hs.waiting c (by omega)
    · rw [hsockets, Function.update_of_ne (show c ≠ n by omega)]
      exact hs.absent c (by omega)
    · change crowdId c ∉ s₂.playerIds
      rw [hids₂, List.mem_cons, not_or]
      exact ⟨fun heq => by have := crowdId_inj heq; omega, hids₁ ▸ hs.freshId c (by omega)⟩
    · have hne : crowdIp c ≠ crowdIp n := fun heq => by
        have := crowdIp_inj hlt hn heq
        omega
      change s₂.app.connectionsPerIp.get? (crowdIp c) = none
      rw [happ₂, hconns₁ _ hne]
      exact hs.freshIp c (by omega) hlt

theorem exists_crowd (n : Nat) (hn : n ≤ 1000) : ∃ s, machine.Reachable s ∧ Crowd n s := by
  induction n with
  | zero =>
      refine ⟨start, .init, nofun, fun _ _ => rfl, rfl, nofun, fun _ _ _ => rfl, rfl⟩
  | succ n ih =>
      obtain ⟨s, hreach, hs⟩ := ih (by omega)
      obtain ⟨s', hexec, hs'⟩ := hs.grow (by omega)
      exact ⟨s', hreach.exec hexec, hs'⟩

/-- Of `n` connections that passed the limit, the first `k` have inserted their player. -/
structure Seated (k n : Nat) (s : Lobby) : Prop where
  waiting : ∀ c, k ≤ c → c < n → ∃ h, s.sockets.get? c = some (.running h) ∧
    h.pc = .registerInsert "p" .v127 0 ∧ h.playerId = crowdId c
  players : s.app.players.size = k
  fresh : ∀ c, k ≤ c → s.app.players.get? (crowdId c) = none

theorem Seated.grow {k n : Nat} {s : Lobby} (hs : Seated k n s) (hk : k < n) :
    ∃ s', s.step (.block k "") = some s' ∧ Seated (k + 1) n s' := by
  obtain ⟨h, hsocket, hpc, hid⟩ := hs.waiting k (Nat.le_refl k) hk
  have hplayers : ∃ p, (s.registerInsert k h "p" .v127 0).app.players =
      s.app.players.insert (crowdId k) p := by
    refine ⟨{
      playerId := crowdId k
      nickname := "p"
      war3Version := .v127
      clientIp := h.clientIp
      lastHeartbeat := 0
      tx := k
      hostingRoom := none
      joinedRoom := none
      disconnectedAt := none }, ?_⟩
    rw [← hid]
    dsimp only [registerInsert]
    split <;> rfl
  have hsockets : (s.registerInsert k h "p" .v127 0).sockets =
      (s.put k { h with registered := true, pc := .broadcast }).sockets := by
    dsimp only [registerInsert]
    split <;> rfl
  obtain ⟨p, hplayers⟩ := hplayers
  refine ⟨s.registerInsert k h "p" .v127 0, ?_, fun c hc hlt => ?_, ?_, fun c hc => ?_⟩
  · simp only [step, whenRunning, hsocket, block, hpc]
  · rw [hsockets, get?_put hsocket, Function.update_of_ne (show c ≠ k by omega)]
    exact hs.waiting c (by omega) hlt
  · rw [hplayers, Table.size_insert (hs.fresh k (Nat.le_refl k)), hs.players]
  · have hne : crowdId c ≠ crowdId k := fun heq => by
      have := crowdId_inj heq
      omega
    rw [hplayers, Table.get?_insert, if_neg hne]
    exact hs.fresh c (by omega)

theorem exists_seated (n : Nat) (hn : n ≤ 1000) (k : Nat) (hk : k ≤ n) :
    ∃ s, machine.Reachable s ∧ Seated k n s := by
  induction k with
  | zero =>
      obtain ⟨s, hreach, hs⟩ := exists_crowd n hn
      refine ⟨s, hreach, fun c _ hlt => hs.waiting c hlt, ?_, fun c _ => ?_⟩
      · rw [hs.players]
        rfl
      · rw [hs.players, Table.get?_empty]
  | succ k ih =>
      obtain ⟨s, hreach, hs⟩ := ih (by omega)
      obtain ⟨s', hstep, hs'⟩ := hs.grow (by omega)
      have hnext : machine.step s (.block k "") = some s' := hstep
      exact ⟨s', .step hreach hnext, hs'⟩

/-- The players can be more than the cap: each of 501 connections was counted before the
first of them inserted its player. -/
theorem not_always_withinCaps : ¬ ∀ s, machine.Reachable s → s.WithinCaps := by
  intro h
  obtain ⟨s, hreach, hs⟩ := exists_seated 501 (by decide) 501 (by decide)
  have hcap := (h s hreach).1
  rw [hs.players] at hcap
  exact absurd hcap (by decide)

end Lobby

end War3BattleTool.Server
