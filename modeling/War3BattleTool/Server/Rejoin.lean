import Mathlib.Data.Fintype.EquivFin
import War3BattleTool.Server.Joins
import War3BattleTool.Server.Occupancy

set_option autoImplicit false

/-!
# Joining the room one is in

`JoinRoom` counts the player into the room before it counts it out of the room it was in.  When
the two are the same room, the counter ends where it began; but the check in step 3 finds a
full room, in which the player's own slot is counted too, full.
-/

namespace War3BattleTool.Server

open War3BattleTool.Foundation War3BattleTool.Protocol

/-- The blocks that a handler has still to run for a `JoinRoom`, with the broadcast after it. -/
def HandlerPc.blocksLeft : HandlerPc → Nat
  | .joinRoom _ => 8
  | .joinPlayers _ => 7
  | .joinReserve _ => 6
  | .joinRegisterPending _ => 5
  | .joinRegisterBinding _ _ => 4
  | .joinRecord _ => 3
  | .joinReleaseOld _ => 2
  | .broadcast => 1
  | _ => 0

/-- Only a message leads into `JoinRoom`. -/
theorem LeadsTo.joining {pc pc' : HandlerPc} (h : LeadsTo pc pc') (hpc : pc.joining = false) :
    pc'.joining = false := by
  cases h <;> first | rfl | cases hpc

namespace Lobby

/-! ## A web viewer joins nothing -/

/-- The handler is no web viewer's, or it is outside `JoinRoom` and its player is in no room. -/
def Detached (s : Lobby) (h : Handler) : Prop :=
  h.isWebViewer = true → h.pc.joining = false ∧
    ∀ p, s.app.players.get? h.playerId = some p → p.joinedRoom = none

section Viewers

variable {s s' : Lobby} {c : SocketId} {h h' : Handler}

/-- Outside `JoinRoom` a handler records no room with its player. -/
theorem joinedRoom_of_step {l : Label} (hreach : machine.Reachable s)
    (hstep : s.step l = some s') (hc : s.sockets.get? c = some (.running h))
    (hpc : h.pc.joining = false)
    (hnone : ∀ p, s.app.players.get? h.playerId = some p → p.joinedRoom = none)
    {p' : ConnectedPlayer} (hp' : s'.app.players.get? h.playerId = some p') :
    p'.joinedRoom = none := by
  have hs := sound_of_reachable hreach
  have hparty := parties_roster hc
  obtain ⟨p, hp, _, _, _, hjoined⟩ | ⟨_, _, hnew, _⟩ := (effect_of_step hstep).player_cases hp'
  · obtain hsame | ⟨c₀, registered, roomId, version, hc₀, _⟩ := hjoined
    · rw [hsame]
      exact hnone p hp
    · -- The handler that holds the slot would be this one.
      have hout : h.party.stage ≠ .outside := by
        intro hstage
        cases hh : h.pc <;> simp [Handler.party, hh, HandlerPc.stage] at hstage
      obtain rfl := hs.unique hparty hc₀ hout (by simp) rfl
      rw [hparty, Option.some.injEq] at hc₀
      have hstage := congrArg Party.stage hc₀
      cases hh : h.pc <;> simp [Handler.party, hh, HandlerPc.stage, HandlerPc.joining] at hstage hpc
  · exact hnew

/-- Only `Register` says that a handler is a web viewer's. -/
theorem isWebViewer_block {fresh : String} (hstep : s.block c h fresh = some s')
    (hpc : h.pc.stage ≠ .entering) :
    ∃ k, s'.sockets = (s.put c k).sockets ∧ k.isWebViewer = h.isWebViewer := by
  have harm := arm_of_block hstep
  generalize h.pc = pc at harm hpc
  cases harm with
  | registerCount | registerInsert => exact absurd rfl hpc
  | createInsert draft hstep =>
      unfold createInsert at hstep
      split at hstep <;> cases hstep
      exact ⟨_, rfl, rfl⟩
  | joinRegisterPending ticket hstep | joinRegisterBinding ticket token hstep =>
      obtain ⟨tunnel, htunnel, rfl⟩ := Option.map_eq_some_iff.mp hstep
      exact ⟨_, rfl, rfl⟩
  | broadcast | heartbeat | createLink | closeTake | closeRemove | upnpLookup | joinReleaseOld
  | removeRooms | finalBroadcast | returned => exact ⟨_, rfl, rfl⟩
  | createRead | createCount | upnpForward | joinRoom | joinPlayers | joinReserve | joinRecord
  | leaving =>
      dsimp only [createRead, createCount, upnpForward, joinRoom, joinPlayers, joinReserve,
        joinRecord, leaving]
      repeat' split
      all_goals exact ⟨_, rfl, rfl⟩

/-- A message begins no `JoinRoom` for a web viewer. -/
theorem Begins.joining {externalIp : Option IpAddr} {m : ClientMessage} {pc : HandlerPc}
    (hbegins : Begins s h externalIp m pc) (hviewer : h.isWebViewer = true) :
    pc.joining = false := by
  cases hbegins with
  | joinRoom hplayer _ => simp [hviewer] at hplayer
  | _ => rfl

/-- A frame leaves the handler outside `JoinRoom`, if it is a web viewer's. -/
theorem joining_frame (item : Incoming) (hc : s.sockets.get? c = some (.running h))
    (hpc : h.pc = .receiving) (hc' : (s.frame c h item).sockets.get? c = some (.running h')) :
    h'.isWebViewer = h.isWebViewer ∧ (h.isWebViewer = true → h'.pc.joining = false) := by
  have hm : Moves s (s.put c (s.counted h)) c h (s.counted h) := .put hc rfl rfl rfl
  have hframed := framed s c h item
  generalize s.frame c h item = s' at hframed hc'
  cases hframed with
  | left =>
      obtain rfl := eq_of_put hc hc' rfl
      exact ⟨rfl, fun _ => h.joining_exit⟩
  | ignored | tooLong =>
      obtain rfl := Socket.running.inj (Option.some.inj (hc.symm.trans hc'))
      exact ⟨rfl, fun _ => by rw [hpc]; rfl⟩
  | refused text =>
      obtain rfl := eq_of_put hc hc' rfl
      exact ⟨rfl, fun _ => by simp [counted, hpc, HandlerPc.joining]⟩
  | @passed len externalIp m =>
      have hdispatched := dispatched (s.put c (s.counted h)) c (s.counted h) m externalIp
      generalize (s.put c (s.counted h)).dispatch c (s.counted h) m externalIp = s'
        at hdispatched hc'
      cases hdispatched with
      | begun hbegins =>
          obtain rfl := eq_of_put hm.get?_self hc' rfl
          exact ⟨rfl, hbegins.joining⟩
      | ignored | refused | answered =>
          obtain rfl := eq_of_put hc hc' rfl
          exact ⟨rfl, fun _ => by simp [counted, hpc, HandlerPc.joining]⟩

/-- What a step of a handler makes of its locals. -/
theorem viewer_of_own {l : Label} (hstep : s.step l = some s') (hown : isOwn c s l = true)
    (hc' : s'.sockets.get? c = some (.running h')) (hviewer : h'.isWebViewer = true) :
    ∃ h, s.sockets.get? c = some (.running h) ∧ h'.playerId = h.playerId ∧
      (h.pc.stage = .entering ∧ h'.pc.joining = false ∨
        h.isWebViewer = true ∧ (h.pc.joining = false → h'.pc.joining = false)) := by
  obtain ⟨h, k, hc, hm⟩ := moves_of_own hstep hown
  obtain rfl := hm.eq_of_running hc'
  refine ⟨h, hc, hm.playerId, ?_⟩
  cases l with
  | frame c' item =>
      obtain rfl : c' = c := by simpa [isOwn] using hown
      obtain ⟨k, hk, hframe⟩ := whenRunning_eq_some hstep
      obtain rfl : h = k := by simpa [hk] using hc.symm
      split at hframe
      · next hpc =>
        cases hframe
        obtain ⟨hsame, hjoining⟩ := joining_frame item hc hpc hc'
        rw [hsame] at hviewer
        exact .inr ⟨hviewer, fun _ => hjoining hviewer⟩
      · cases hframe
  | block c' fresh =>
      obtain rfl : c' = c := by simpa [isOwn] using hown
      obtain ⟨k, hk, hblock⟩ := whenRunning_eq_some hstep
      obtain rfl : h = k := by simpa [hk] using hc.symm
      obtain ⟨k, hmoves, hleads⟩ := leadsTo_block hc hblock
      obtain rfl := hmoves.eq_of_running hc'
      by_cases hentering : h.pc.stage = .entering
      · refine .inl ⟨hentering, hleads.joining ?_⟩
        cases hpc : h.pc <;> simp [hpc, HandlerPc.stage] at hentering <;> rfl
      · obtain ⟨k, hsockets, hsame⟩ := isWebViewer_block hblock hentering
        obtain rfl := eq_of_put hc hc' hsockets
        exact .inr ⟨hsame ▸ hviewer, hleads.joining⟩
  | drop c' =>
      obtain rfl : c' = c := by simpa [isOwn] using hown
      obtain ⟨k, hk, hdrop⟩ := whenRunning_eq_some hstep
      obtain rfl : h = k := by simpa [hk] using hc.symm
      split at hdrop
      · cases hdrop
        obtain rfl := eq_of_put hc hc' rfl
        exact .inr ⟨hviewer, fun _ => h.joining_exit⟩
      · cases hdrop
  | _ => simp [isOwn] at hown

theorem detached_step {l : Label} (hreach : machine.Reachable s)
    (hall : ∀ c h, s.sockets.get? c = some (.running h) → Detached s h)
    (hstep : s.step l = some s') (hc' : s'.sockets.get? c = some (.running h')) :
    Detached s' h' := by
  intro hviewer
  rcases running_of_step hstep hc' with hown | ⟨_, _, rfl⟩ | hc
  · obtain ⟨h, hc, hid, ⟨hentering, hjoining⟩ | ⟨hv, hjoining⟩⟩ :=
      viewer_of_own hstep hown hc' hviewer
    · refine ⟨hjoining, fun p hp => ?_⟩
      have hparty := parties_of_pc hc hentering
      have habsent := (sound_of_reachable hreach).absent hparty
      refine joinedRoom_of_step hreach hstep hc ?_ ?_ (hid ▸ hp)
      · cases hpc : h.pc <;> simp [hpc, HandlerPc.stage] at hentering <;> rfl
      · intro p hp
        rw [roster] at habsent
        simp [hp] at habsent
    · obtain ⟨hpc, hnone⟩ := hall c h hc hv
      exact ⟨hjoining hpc, fun p hp => joinedRoom_of_step hreach hstep hc hpc hnone (hid ▸ hp)⟩
  · cases hviewer
  · obtain ⟨hpc, hnone⟩ := hall c h' hc hviewer
    exact ⟨hpc, fun p hp => joinedRoom_of_step hreach hstep hc hpc hnone hp⟩

theorem detached_of_reachable (hreach : machine.Reachable s)
    (hc : s.sockets.get? c = some (.running h)) : Detached s h := by
  refine hreach.invariant (I := fun s => ∀ c h, s.sockets.get? c = some (.running h) →
    Detached s h) (by simp [machine, start]) ?_ c h hc
  intro s l s' hreach hall hstep c h hc
  exact detached_step hreach hall hstep hc

end Viewers

/-! ## Processing the request -/

/-- Steps of the handler of `c`, of the clock and of the send tasks. -/
def beside (c : SocketId) : Label → Bool
  | .block c' _ => c' = c
  | .elapse _ | .sent _ _ => true
  | _ => false

/-- The handler of `c` has run its blocks to the end, and no other handler has moved. -/
structure RunsOut (c : SocketId) (s : Lobby) (labels : List Label) (s' : Lobby) : Prop where
  run : machine.exec s labels = some s'
  beside : ∀ l ∈ labels, beside c l = true
  done : ∃ h', s'.sockets.get? c = some (.running h') ∧ h'.pc = .receiving

/-- A player that is in a room and may ask to join it: the host of the room is connected, the
versions match, and the cooldown has passed.  Its handler waits for a message, and lets this one
pass. -/
structure Rejoiner (s : Lobby) (c : SocketId) (roomId : String) where
  h : Handler
  p : ConnectedPlayer
  room : Room
  host : ConnectedPlayer
  handler : s.sockets.get? c = some (.running h)
  receiving : h.pc = .receiving
  player : s.app.players.get? h.playerId = some p
  joined : p.joinedRoom = some roomId
  opened : s.app.rooms.get? roomId = some room
  hosted : s.app.players.get? room.hostPlayerId = some host
  online : host.online = true
  version : p.war3Version = room.war3Version
  cooled : (h.lastJoinAt.any fun last => elapsed s.now last < joinCooldown) = false
  len : Nat
  externalIp : Option IpAddr
  short : len ≤ maxMessageSize
  rate : (h.rateLimiter.allow s.now).2 = true
  valid : (ClientMessage.joinRoom roomId).validate = .ok ()

variable {s t t' : Lobby} {c : SocketId} {roomId : String} {k : Handler}

namespace Rejoiner

variable (R : Rejoiner s c roomId)

/-- The request. -/
def frame : Label := .frame c (.text R.len (some (.joinRoom roomId)) R.externalIp)

/-- The room is full. -/
def Full : Prop := R.room.maxPlayers ≤ R.room.currentPlayers

/-- What step 1 reads. -/
def quote : JoinQuote := ⟨roomId, R.room.hostPlayerId, R.room.war3Version, R.room.gameinfo⟩

/-- What step 2 reads. -/
def ticket : JoinTicket := ⟨R.quote, R.p.nickname, R.host.clientIp, R.host.tx⟩

/-- The `JoinResult` of a success. -/
def success (token : String) : ServerMessage :=
  .joinResult true (some roomId) (some token)
    (if R.room.gameinfo.isEmpty then none else some R.room.gameinfo)

/-- The addresses of the two parties. -/
def binding : TokenBinding := ⟨R.host.clientIp, R.h.clientIp⟩

/-- The handler once its limiter has counted the message. -/
def counted : Handler := s.counted R.h

/-- The maps after step 3. -/
def reserved (_ : Rejoiner s c roomId) : AppState := s.app.modifyRoom roomId Room.increment

/-- The maps with the player recorded. -/
def recorded : AppState := (R.reserved.replaceJoinedRoom R.h.playerId roomId).1

/-- The maps with the old slot given back. -/
def done : AppState := R.recorded.leaveRoom roomId

/-- How far the handler has come, what it has left in the maps, and what it has sent. -/
inductive Along (log : List (SocketId × ServerMessage)) (t : Lobby) : Handler → Prop
  | asks (happ : t.app = s.app) (hissued : t.tunnel.issued = s.tunnel.issued) :
      Along log t { R.counted with pc := .joinRoom roomId }
  | quotes (happ : t.app = s.app) (hissued : t.tunnel.issued = s.tunnel.issued) :
      Along log t { R.counted with pc := .joinPlayers R.quote }
  | checks (happ : t.app = s.app) (hissued : t.tunnel.issued = s.tunnel.issued) :
      Along log t { R.counted with pc := .joinReserve R.ticket }
  | refused (hfull : R.Full) (happ : t.app = s.app) :
      Along log t { R.counted with pc := .receiving }
  | reserves (hfree : ¬ R.Full) (happ : t.app = R.reserved)
      (hissued : t.tunnel.issued = s.tunnel.issued) :
      Along log t { R.counted with pc := .joinRegisterPending R.ticket }
  | registers (hfree : ¬ R.Full) (happ : t.app = R.reserved) {token : String}
      (hfresh : token ∉ s.tunnel.issued)
      (hregistering : t.tunnel.registering.get? token = some R.binding) :
      Along log t { R.counted with pc := .joinRegisterBinding R.ticket token }
  | records (hfree : ¬ R.Full) (happ : t.app = R.reserved) {token : String}
      (hfresh : token ∉ s.tunnel.issued)
      (hbound : t.tunnel.tunnel.tokenBindings.get? token = some R.binding)
      (htold : (c, R.success token) ∈ log) :
      Along log t { R.counted with pc := .joinRecord R.ticket }
  | releases (hfree : ¬ R.Full) (happ : t.app = R.recorded) {token : String}
      (hfresh : token ∉ s.tunnel.issued)
      (hbound : t.tunnel.tunnel.tokenBindings.get? token = some R.binding)
      (htold : (c, R.success token) ∈ log) :
      Along log t { R.counted with pc := .joinReleaseOld roomId }
  | joins (hfree : ¬ R.Full) (happ : t.app = R.done) {token : String}
      (hfresh : token ∉ s.tunnel.issued)
      (hbound : t.tunnel.tunnel.tokenBindings.get? token = some R.binding)
      (htold : (c, R.success token) ∈ log) {at_ : Instant}
      (hnow : s.now ≤ at_) {pc : HandlerPc} (hpc : pc = .broadcast ∨ pc = .receiving) :
      Along log t { R.counted with lastJoinAt := some at_, pc := pc }

variable {R}

variable {log log' : List (SocketId × ServerMessage)}

/-- The clock and the send tasks do not matter. -/
theorem Along.congr (h : R.Along log t k) (now : Instant) (happ : t'.app = t.app)
    (htunnel : t'.tunnel = { t.tunnel with now := now }) : R.Along log t' k := by
  cases h with
  | asks h hissued => exact .asks (happ.trans h) (htunnel ▸ hissued)
  | quotes h hissued => exact .quotes (happ.trans h) (htunnel ▸ hissued)
  | checks h hissued => exact .checks (happ.trans h) (htunnel ▸ hissued)
  | refused hfull h => exact .refused hfull (happ.trans h)
  | reserves hfree h hissued => exact .reserves hfree (happ.trans h) (htunnel ▸ hissued)
  | registers hfree h hfresh hpending =>
      exact .registers hfree (happ.trans h) hfresh (htunnel ▸ hpending)
  | records hfree h hfresh hbound htold =>
      exact .records hfree (happ.trans h) hfresh (htunnel ▸ hbound) htold
  | releases hfree h hfresh hbound htold =>
      exact .releases hfree (happ.trans h) hfresh (htunnel ▸ hbound) htold
  | joins hfree h hfresh hbound htold hnow hpc =>
      exact .joins hfree (happ.trans h) hfresh (htunnel ▸ hbound) htold hnow hpc

/-- The handler proceeds. -/
theorem get?_goto (hc : t.sockets.get? c = some (.running k)) {pc : HandlerPc}
    (hsockets : t'.sockets = (t.goto c k pc).sockets) :
    t'.sockets.get? c = some (.running { k with pc := pc }) := by
  have hm : Moves t t' c k { k with pc := pc } := .put hc rfl rfl hsockets
  exact hm.get?_self

/-- A block of the handler takes it one step further. -/
theorem Along.block (h : R.Along log t k) (hnow : s.now ≤ t.now)
    (hc : t.sockets.get? c = some (.running k)) {fresh : String}
    (hstep : t.block c k fresh = some t') :
    ∃ k', t'.sockets.get? c = some (.running k') ∧ t'.now = t.now ∧
      R.Along (log ++ t.blockLetters c k) t' k' ∧ k'.pc.blocksLeft < k.pc.blocksLeft := by
  cases h with
  | asks happ hissued =>
      simp only [Lobby.block, joinRoom, happ, R.opened, Option.some.injEq] at hstep
      subst hstep
      exact ⟨_, get?_goto hc rfl, rfl, .quotes happ hissued, Nat.lt_succ_self 7⟩
  | quotes happ hissued =>
      have hplayer : t.app.players.get? R.counted.playerId = some R.p := happ ▸ R.player
      have hhost : (t.app.players.get? R.quote.hostPlayerId).filter (·.online) = some R.host := by
        rw [happ, quote, R.hosted, Option.filter_some, if_pos R.online]
      have hversion : ¬ R.p.war3Version ≠ R.quote.roomVersion := not_not.mpr R.version
      simp only [Lobby.block, joinPlayers, hplayer, hhost, if_neg hversion, Option.some.injEq]
        at hstep
      subst hstep
      exact ⟨_, get?_goto hc rfl, rfl, .checks happ hissued, Nat.lt_succ_self 6⟩
  | checks happ hissued =>
      have hroom : t.app.rooms.get? R.ticket.quote.roomId = some R.room := happ ▸ R.opened
      simp only [Lobby.block, joinReserve, AppState.reserveSlot, hroom] at hstep
      by_cases hfull : R.room.maxPlayers ≤ R.room.currentPlayers
      · rw [if_pos hfull] at hstep
        simp only [Option.some.injEq] at hstep
        subst hstep
        exact ⟨_, get?_goto hc rfl, rfl, .refused hfull happ, Nat.succ_pos 5⟩
      · rw [if_neg hfull] at hstep
        simp only [Option.some.injEq] at hstep
        subst hstep
        have hreserved : t.app.modifyRoom roomId Room.increment = R.reserved := by
          rw [happ, reserved]
        exact ⟨_, get?_goto hc rfl, rfl, .reserves hfull hreserved hissued, Nat.lt_succ_self 5⟩
  | refused => cases hstep
  | reserves hfree happ hissued =>
      simp only [Lobby.block, joinRegisterPending, TunnelService.registerPending] at hstep
      split at hstep
      · cases hstep
      · next hfresh =>
        obtain rfl := Option.some.inj hstep
        rw [hissued] at hfresh
        have hregistering : (t.tunnel.registering.insert fresh R.binding).get? fresh =
            some R.binding := by
          rw [Table.get?_insert, if_pos rfl]
        refine ⟨_, get?_goto hc rfl, rfl, ?_, Nat.lt_succ_self 4⟩
        refine .registers hfree ?_ hfresh ?_
        · exact happ
        · exact hregistering
  | @registers hfree happ token hfresh hregistering =>
      simp only [Lobby.block, joinRegisterBinding, TunnelService.registerBinding, hregistering,
        Option.map_some, Option.some.injEq] at hstep
      subst hstep
      have hbound : (t.tunnel.tunnel.tokenBindings.insert token R.binding).get? token =
          some R.binding := by
        rw [Table.get?_insert, if_pos rfl]
      have htold : (c, R.success token) ∈ joinLetters c
          { R.counted with pc := .joinRegisterBinding R.ticket token } R.ticket token := by
        simp [joinLetters, success, ticket, quote]
      exact ⟨_, get?_goto hc rfl, rfl,
        .records hfree happ hfresh hbound (List.mem_append_right _ htold), Nat.lt_succ_self 3⟩
  | records hfree happ hfresh hbound htold =>
      have hold : (t.app.replaceJoinedRoom R.counted.playerId R.ticket.quote.roomId).2 =
          some roomId := by
        have hplayer : t.app.players.get? R.counted.playerId = some R.p := happ ▸ R.player
        rw [AppState.replaceJoinedRoom, hplayer, Option.bind_some, R.joined]
      simp only [Lobby.block, joinRecord, hold, Option.some.injEq] at hstep
      subst hstep
      have hrecorded : (t.app.replaceJoinedRoom R.counted.playerId R.ticket.quote.roomId).1 =
          R.recorded := by
        rw [happ]
        rfl
      exact ⟨_, get?_goto hc rfl, rfl,
        .releases hfree hrecorded hfresh hbound (List.mem_append_left _ htold), Nat.lt_succ_self 2⟩
  | releases hfree happ hfresh hbound htold =>
      simp only [Lobby.block, joinReleaseOld, Option.some.injEq] at hstep
      subst hstep
      have hdone : t.app.leaveRoom roomId = R.done := by rw [happ, done]
      let k : Handler := { R.counted with lastJoinAt := some t.now, pc := .broadcast }
      have hm : Moves t ((t.setApp R.done).put c k) c
          { R.counted with pc := .joinReleaseOld roomId } k := .put hc rfl rfl rfl
      refine ⟨k, hdone ▸ hm.get?_self, rfl, ?_, Nat.lt_succ_self 1⟩
      exact .joins (t := (t.setApp _).put c k) hfree hdone hfresh hbound
        (List.mem_append_left _ htold) hnow (.inl rfl)
  | joins hfree happ hfresh hbound htold hthen hpc =>
      obtain rfl | rfl := hpc
      · simp only [Lobby.block, Option.some.injEq] at hstep
        subst hstep
        refine ⟨_, get?_goto hc rfl, rfl, ?_, Nat.lt_succ_self 0⟩
        exact .joins (t := t.broadcastState.goto c _ _) hfree happ hfresh hbound
          (List.mem_append_left _ htold) hthen (.inr rfl)
      · cases hstep

/-- The handler can always run its next block. -/
theorem Along.exists_block (h : R.Along log t k) (hpc : k.pc ≠ .receiving) :
    ∃ fresh t', t.block c k fresh = some t' := by
  cases h with
  | refused => exact absurd rfl hpc
  | reserves =>
      obtain ⟨fresh, hfresh⟩ := Infinite.exists_notMem_finset t.tunnel.issued.toFinset
      rw [List.mem_toFinset] at hfresh
      refine ⟨fresh, ?_⟩
      simp only [Lobby.block, joinRegisterPending, TunnelService.registerPending, if_neg hfresh,
        Option.map_some]
      exact ⟨_, rfl⟩
  | registers _ _ _ hregistering =>
      refine ⟨"", ?_⟩
      simp only [Lobby.block, joinRegisterBinding, TunnelService.registerBinding, hregistering,
        Option.map_some]
      exact ⟨_, rfl⟩
  | joins _ _ _ _ _ _ hdone =>
      obtain rfl | rfl := hdone
      · exact ⟨"", _, rfl⟩
      · exact absurd rfl hpc
  | asks | quotes | checks | records | releases => exact ⟨"", _, rfl⟩

variable (R) in
/-- The handler is on its way through the arm. -/
def Underway (log : List (SocketId × ServerMessage)) (t : Lobby) : Prop :=
  s.now ≤ t.now ∧ ∃ k, t.sockets.get? c = some (.running k) ∧ R.Along log t k

theorem underway_step {l : Label} (hl : beside c l = true) (h : R.Underway log t)
    (hstep : machine.step t l = some t') : R.Underway (log ++ t.letters l) t' := by
  obtain ⟨hnow, k, hc, halong⟩ := h
  cases l with
  | elapse d =>
      cases hstep
      have hsilent : t.letters (.elapse d) = [] := rfl
      rw [hsilent, List.append_nil]
      exact ⟨Nat.le_trans hnow (Nat.le_add_right _ _), k, hc, halong.congr (t.now + d) rfl rfl⟩
  | sent c' ok =>
      obtain ⟨o, _, hsent⟩ := Option.bind_eq_some_iff.mp hstep
      obtain ⟨o', _, rfl⟩ := Option.map_eq_some_iff.mp hsent
      have hsilent : t.letters (.sent c' ok) = [] := rfl
      rw [hsilent, List.append_nil]
      exact ⟨hnow, k, hc, halong.congr t.now rfl rfl⟩
  | block c' fresh =>
      obtain rfl : c' = c := by simpa [beside] using hl
      obtain ⟨h, hh, hblock⟩ := whenRunning_eq_some hstep
      obtain rfl : k = h := by simpa [hh] using hc.symm
      obtain ⟨k', hc', hsame, halong', _⟩ := halong.block hnow hc hblock
      rw [letters, handler_eq_some.mpr hc, Option.map_some, Option.getD_some]
      exact ⟨hsame ▸ hnow, k', hc', halong'⟩
  | _ => simp [beside] at hl

/-- The handler can run its arm to the end. -/
theorem exists_runsOut (n : Nat) (h : R.Underway log t)
    (hn : ∀ k, t.sockets.get? c = some (.running k) → k.pc.blocksLeft ≤ n) :
    ∃ labels t', RunsOut c t labels t' := by
  induction n generalizing t log with
  | zero =>
      obtain ⟨_, k, hc, halong⟩ := h
      refine ⟨[], t, rfl, by simp, k, hc, ?_⟩
      have hzero := Nat.le_zero.mp (hn k hc)
      cases halong with
      | refused => rfl
      | joins _ _ _ _ _ _ hpc =>
          obtain rfl | rfl := hpc
          · cases hzero
          · rfl
      | asks | quotes | checks | reserves | registers | records | releases => cases hzero
  | succ n ih =>
      have hunderway := h
      obtain ⟨hnow, k, hc, halong⟩ := h
      by_cases hpc : k.pc = .receiving
      · exact ⟨[], t, rfl, by simp, k, hc, hpc⟩
      · obtain ⟨fresh, t₁, hblock⟩ := halong.exists_block hpc
        obtain ⟨k', hc', _, _, hlt⟩ := halong.block hnow hc hblock
        have hstep : machine.step t (.block c fresh) = some t₁ := by
          simp only [machine, Lobby.step, whenRunning, hc, hblock]
        have hbeside : beside c (.block c fresh) = true := by simp [beside]
        obtain ⟨labels, t', hruns⟩ := ih (underway_step hbeside hunderway hstep) (by
          intro h hh
          obtain rfl : k' = h := by simpa [hh] using hc'.symm
          exact Nat.le_of_lt_succ (Nat.lt_of_lt_of_le hlt (hn k hc)))
        refine ⟨.block c fresh :: labels, t', ?_, ?_, hruns.done⟩
        · rw [Machine.exec, hstep, Option.bind_some, hruns.run]
        · exact List.forall_mem_cons.mpr ⟨hbeside, hruns.beside⟩

/-! ## The request -/

variable (R) in
/-- The player is registered, and no web viewer. -/
theorem mayJoin (hreach : machine.Reachable s) :
    (!R.h.registered || R.h.isWebViewer) = false := by
  have hs := sound_of_reachable hreach
  have hparty := parties_roster R.handler
  have hout : R.h.party.stage ≠ .outside := by
    simp [Handler.party, R.receiving, HandlerPc.stage]
  obtain ⟨c', P, hP, hid, hregistered, _⟩ := hs.owned R.player
  obtain rfl := hs.unique hP hparty (hs.ne_outside hP hregistered) hout hid
  obtain rfl : P = R.h.party := Option.some.inj (hP.symm.trans hparty)
  have hviewer : R.h.isWebViewer = false := by
    by_contra hviewer
    have hnone := (detached_of_reachable hreach R.handler (Bool.not_eq_false _ ▸ hviewer)).2 R.p
      R.player
    rw [R.joined] at hnone
    cases hnone
  rw [hviewer, Bool.or_false, Bool.not_eq_false']
  exact hregistered

variable (R) in
/-- The request leads the handler into the arm. -/
theorem exists_frame (hreach : machine.Reachable s) :
    ∃ t, machine.step s R.frame = some t ∧ R.Underway (s.letters R.frame) t ∧
      ∀ k, t.sockets.get? c = some (.running k) → k.pc.blocksLeft ≤ 8 := by
  let t : Lobby := (s.put c R.counted).goto c R.counted (.joinRoom roomId)
  have hframe : s.frame c R.h (.text R.len (some (.joinRoom roomId)) R.externalIp) = t := by
    have hnow : (s.put c R.counted).now = s.now := rfl
    simp only [Lobby.frame, text, if_neg (Nat.not_lt.mpr R.short), R.rate, check_eq_ok R.valid,
      Bool.not_true, Bool.false_eq_true, if_false]
    have hmay : (!R.counted.registered || R.counted.isWebViewer) = false := R.mayJoin hreach
    have hcooled : (R.counted.lastJoinAt.any fun last =>
        elapsed (s.put c R.counted).now last < joinCooldown) = false := hnow ▸ R.cooled
    show (s.put c R.counted).dispatch c R.counted _ R.externalIp = t
    simp only [dispatch, hmay, hcooled, Bool.false_eq_true, if_false]
    rfl
  have hm : Moves s (s.put c R.counted) c R.h R.counted := .put R.handler rfl rfl rfl
  have hsocket : t.sockets.get? c = some (.running { R.counted with pc := .joinRoom roomId }) :=
    get?_goto hm.get?_self rfl
  refine ⟨t, ?_, ⟨Nat.le_refl _, _, hsocket, .asks rfl rfl⟩, ?_⟩
  · simp only [machine, Lobby.step, Rejoiner.frame, whenRunning, R.handler, R.receiving, hframe]
  · intro k hk
    obtain rfl := Socket.running.inj (Option.some.inj (hsocket.symm.trans hk))
    exact Nat.le_refl 8

variable (R) in
/-- The request is processed, and no other handler has moved. -/
def Processed (labels : List Label) (s' : Lobby) : Prop :=
  ∃ t, machine.step s R.frame = some t ∧ RunsOut c t labels s'

variable (R) in
/-- The join succeeds: a fresh token is bound to the addresses of both parties and sent to the
player in a `JoinResult`, the player is in the room, and the cooldown starts anew. -/
structure Rejoined (labels : List Label) (s' : Lobby) : Prop where
  bound : ∃ token, token ∉ s.tunnel.issued ∧
    s'.tunnel.tunnel.tokenBindings.get? token = some R.binding ∧
      (c, R.success token) ∈ machine.report letters s (R.frame :: labels)
  recorded : ∃ p', s'.app.players.get? R.h.playerId = some p' ∧ p'.joinedRoom = some roomId
  cooling : ∃ h' at_, s'.sockets.get? c = some (.running h') ∧ h'.lastJoinAt = some at_ ∧
    s.now ≤ at_

/-- No room shows another number of players. -/
def Neutral (s s' : Lobby) : Prop :=
  ∀ id, (s'.app.rooms.get? id).map (·.currentPlayers) = (s.app.rooms.get? id).map (·.currentPlayers)

variable (R) in
/-- The request can be processed, it succeeds, and it changes no room's number of players. -/
def RejoinsNeutrally : Prop :=
  (∃ labels s', R.Processed labels s') ∧
    ∀ labels s', R.Processed labels s' → R.Rejoined labels s' ∧ Neutral s s'

/-- How the request ends: the room was full and nothing has changed, or the join succeeded. -/
theorem along_of_processed {labels : List Label} {s' : Lobby} (hreach : machine.Reachable s)
    (h : R.Processed labels s') : ∃ k, s'.sockets.get? c = some (.running k) ∧
      k.pc = .receiving ∧ R.Along (machine.report letters s (R.frame :: labels)) s' k := by
  obtain ⟨t, hframe, hruns⟩ := h
  obtain ⟨t₁, hframe₁, hunderway, _⟩ := R.exists_frame hreach
  obtain rfl := Option.some.inj (hframe₁.symm.trans hframe)
  have hstep : ∀ log t l t', beside c l = true → R.Underway log t → machine.step t l = some t' →
      R.Underway (log ++ t.letters l) t' := fun _ _ _ _ hl h hstep => underway_step hl h hstep
  obtain ⟨_, k, hc, halong⟩ :=
    Machine.exec_report_invariant hstep _ hunderway hruns.beside hruns.run
  have hreport : machine.report letters s (R.frame :: labels) =
      s.letters R.frame ++ machine.report letters t₁ labels := by
    rw [Machine.report, hframe]
  rw [hreport]
  obtain ⟨k', hc', hpc⟩ := hruns.done
  obtain rfl := Socket.running.inj (Option.some.inj (hc.symm.trans hc'))
  exact ⟨k, hc, hpc, halong⟩

variable (R) in
/-- Counting the player in and out again leaves the counters as they were. -/
theorem neutral_done (hreach : machine.Reachable s) (hfree : ¬ R.Full) {s' : Lobby}
    (happ : s'.app = R.done) : Neutral s s' := by
  obtain ⟨_, _, hmax, _⟩ := recorded_le hreach R.opened
  have hlt : R.room.currentPlayers < 255 := by
    rw [Full] at hfree
    omega
  have hcounters : counters s'.app.rooms = counters s.app.rooms := by
    rw [happ]
    show counters ((s.app.rooms.modify roomId Room.increment).modify roomId Room.decrement) = _
    rw [counters_decrement, counters_increment R.opened hlt, Function.update_self,
      Function.update_idem, Function.update_eq_self_iff]
    simp [counters, R.opened]
  intro id
  have hcounter := congrArg (Option.map Counter.count) (congrFun hcounters id)
  simpa [counters, Option.map_map, Function.comp_def] using hcounter

variable (R) in
/-- Joining the room one is in succeeds and changes no number of players, if and only if the room
is not full. -/
theorem rejoinsNeutrally_iff (hreach : machine.Reachable s) :
    R.RejoinsNeutrally ↔ R.room.currentPlayers < R.room.maxPlayers := by
  obtain ⟨t, hframe, hunderway, hleft⟩ := R.exists_frame hreach
  obtain ⟨labels, s', hruns⟩ := exists_runsOut 8 hunderway hleft
  constructor
  · rintro ⟨_, hall⟩
    by_contra hfull
    have hprocessed : R.Processed labels s' := ⟨t, hframe, hruns⟩
    obtain ⟨hjoined, _⟩ := hall labels s' hprocessed
    obtain ⟨k, hc, hpc, halong⟩ := along_of_processed hreach hprocessed
    have hR : R.Full := Nat.le_of_not_lt hfull
    cases halong with
    | refused =>
        -- The cooldown still runs from the last success, which is over.
        obtain ⟨h', at_, hc', hlast, hle⟩ := hjoined.cooling
        obtain rfl := Socket.running.inj (Option.some.inj (hc.symm.trans hc'))
        have hlast : R.h.lastJoinAt = some at_ := hlast
        have hcooled := R.cooled
        rw [hlast, Option.any_some] at hcooled
        have hpassed := Nat.le_of_not_lt (of_decide_eq_false hcooled)
        simp only [elapsed, joinCooldown, secs] at hpassed
        exact absurd (Nat.sub_eq_zero_of_le hle) (by omega)
    | joins hfree => exact hfree hR
    | asks | quotes | checks | reserves | registers | records | releases => cases hpc
  · intro hfree
    refine ⟨⟨labels, s', t, hframe, hruns⟩, fun labels s' hprocessed => ?_⟩
    obtain ⟨k, hc, hpc, halong⟩ := along_of_processed hreach hprocessed
    cases halong with
    | refused hfull => exact absurd hfree (Nat.not_lt.mpr hfull)
    | @joins hfree happ token hfresh hbound htold at_ hnow pc _ =>
        refine ⟨⟨⟨token, hfresh, hbound, htold⟩, ?_, _, at_, hc, rfl, hnow⟩,
          R.neutral_done hreach hfree happ⟩
        refine ⟨{ R.p with joinedRoom := some roomId }, ?_, rfl⟩
        rw [happ]
        show (s.app.players.modify R.h.playerId _).get? R.h.playerId = _
        rw [Table.get?_modify, if_pos rfl, R.player, Option.map_some]
    | asks | quotes | checks | reserves | registers | records | releases => cases hpc

end Rejoiner

/-- The player of `c` is in the room `roomId`, whose counters meet the test, and may ask to join
it. -/
def mayRejoin (c : SocketId) (roomId : String) (test : Room → Bool) (s : Lobby) : Bool :=
  s.quiescent && (s.handler c).any fun h =>
    (h.pc.resting && h.pc.inLoop && (h.rateLimiter.allow s.now).2 &&
      !(h.lastJoinAt.any fun last => elapsed s.now last < joinCooldown)) &&
    (s.app.players.get? h.playerId).any fun p =>
      p.joinedRoom = some roomId && (s.app.rooms.get? roomId).any fun room =>
        test room && (s.app.players.get? room.hostPlayerId).any fun host =>
          host.online && decide (p.war3Version = room.war3Version)

theorem exists_rejoiner {test : Room → Bool} {run : List Label}
    (hvalid : (ClientMessage.joinRoom roomId).validate = .ok ())
    (hrun : (machine.exec machine.init run).any (mayRejoin c roomId test) = true) :
    ∃ s, ∃ R : Rejoiner s c roomId, machine.Reachable s ∧ s.quiescent = true ∧
      test R.room = true := by
  obtain ⟨s, _, hreach, hmay⟩ := Machine.exists_reachable_of_exec hrun
  simp only [mayRejoin, Bool.and_eq_true, Option.any_eq_true, decide_eq_true_eq,
    Bool.not_eq_true'] at hmay
  obtain ⟨hquiescent, h, hh, ⟨⟨⟨hresting, hloop⟩, hrate⟩, hcooled⟩, p, hp, hjoined, room, hroom,
    htest, host, hhost, honline, hversion⟩ := hmay
  have hpc : h.pc = .receiving := by
    cases hpc : h.pc <;> simp [hpc, HandlerPc.resting, HandlerPc.inLoop] at hresting hloop ⊢
  exact ⟨s, ⟨h, p, room, host, handler_eq_some.mp hh, hpc, hp, hjoined, hroom, hhost, honline,
    hversion, hcooled, 40, none, by decide, hrate, hvalid⟩, hreach, hquiescent, htest⟩

/-- The player of connection 2 joins the room of connection 1, for `size` players, and the
cooldown passes. -/
def joinsOnce (size : Nat) : List Label :=
  registers 1 "a" ++
    [.frame 1 (.text 90 (some (.createRoom "room" "map" size [])) none), .block 1 "", .block 1 "",
      .block 1 "r", .block 1 "", .block 1 ""] ++
    registers 2 "b" ++ reservesSlot 2 "r" ++ joinsRoom 2 "token" ++ [.elapse (secs 5)]

/-- In a room for three, the guest joins once more. -/
theorem rejoins_free : ∃ s c roomId, ∃ R : Rejoiner s c roomId, machine.Reachable s ∧
    s.quiescent = true ∧ R.RejoinsNeutrally := by
  have hrun : (machine.exec machine.init (joinsOnce 3)).any
      (mayRejoin 2 "r" fun room => room.currentPlayers < room.maxPlayers) = true := by
    decide
  obtain ⟨s, R, hreach, hquiescent, hfree⟩ := exists_rejoiner (by decide) hrun
  exact ⟨s, 2, "r", R, hreach, hquiescent,
    (Rejoiner.rejoinsNeutrally_iff R hreach).mpr (of_decide_eq_true hfree)⟩

/-- In a room for two, the guest is refused: the room is full, with the guest. -/
theorem not_always_rejoins : ¬ ∀ s c roomId (R : Rejoiner s c roomId), machine.Reachable s →
    s.quiescent = true → R.RejoinsNeutrally := by
  intro hclaim
  have hrun : (machine.exec machine.init (joinsOnce 2)).any
      (mayRejoin 2 "r" fun room => room.maxPlayers ≤ room.currentPlayers) = true := by
    decide
  obtain ⟨s, R, hreach, hquiescent, hfull⟩ := exists_rejoiner (by decide) hrun
  have hfree := (Rejoiner.rejoinsNeutrally_iff R hreach).mp (hclaim s 2 "r" R hreach hquiescent)
  exact Nat.not_le_of_lt hfree (of_decide_eq_true hfull)

end Lobby

end War3BattleTool.Server
