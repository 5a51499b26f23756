import War3BattleTool.Server.Lobby

set_option autoImplicit false

/-!
# The arms of a handler

What one step of a handler can be: a block of the arm in which it stands (`Arm`), a message that
begins an arm, is answered at once or is ignored (`Dispatched`), and a frame (`Framed`).
`LeadsTo` says to which position a block leads.
-/

namespace War3BattleTool.Server

open War3BattleTool.Foundation War3BattleTool.Protocol

/-- The block may end the arm. -/
def HandlerPc.mayEnd : HandlerPc → Bool
  | .registerCount _ _ | .broadcast | .heartbeat | .createRead _ | .createCount _ | .closeTake
  | .upnpLookup _ _ | .upnpForward _ _ | .joinRoom _ | .joinPlayers _ | .joinReserve _ => true
  | _ => false

/-- The positions to which the block at a position leads. -/
inductive LeadsTo : HandlerPc → HandlerPc → Prop
  | registerCount {nickname : String} {war3Version : War3Version} {now : Instant} :
      LeadsTo (.registerCount nickname war3Version) (.registerInsert nickname war3Version now)
  | registerInsert {nickname : String} {war3Version : War3Version} {now : Instant} :
      LeadsTo (.registerInsert nickname war3Version now) .broadcast
  | createRead {request : RoomRequest} {draft : RoomDraft} :
      LeadsTo (.createRead request) (.createCount draft)
  | createCount {draft : RoomDraft} : LeadsTo (.createCount draft) (.createInsert draft)
  | createInsert {draft : RoomDraft} {roomId : String} :
      LeadsTo (.createInsert draft) (.createLink roomId)
  | createLink {roomId : String} : LeadsTo (.createLink roomId) .broadcast
  | closeTake {roomId : String} : LeadsTo .closeTake (.closeRemove roomId)
  | closeRemove {roomId : String} : LeadsTo (.closeRemove roomId) .broadcast
  | upnpLookup {externalAddr tunnelToken joinerPlayerId : String} :
      LeadsTo (.upnpLookup externalAddr tunnelToken) (.upnpForward externalAddr joinerPlayerId)
  | joinRoom {roomId : String} {quote : JoinQuote} : LeadsTo (.joinRoom roomId) (.joinPlayers quote)
  | joinPlayers {quote : JoinQuote} {ticket : JoinTicket} :
      LeadsTo (.joinPlayers quote) (.joinReserve ticket)
  | joinReserve {ticket : JoinTicket} : LeadsTo (.joinReserve ticket) (.joinRegisterPending ticket)
  | joinRegisterPending {ticket : JoinTicket} {tunnelToken : String} :
      LeadsTo (.joinRegisterPending ticket) (.joinRegisterBinding ticket tunnelToken)
  | joinRegisterBinding {ticket : JoinTicket} {tunnelToken : String} :
      LeadsTo (.joinRegisterBinding ticket tunnelToken) (.joinRecord ticket)
  | joinRecord {ticket : JoinTicket} {oldId : String} :
      LeadsTo (.joinRecord ticket) (.joinReleaseOld oldId)
  | joined {ticket : JoinTicket} : LeadsTo (.joinRecord ticket) .broadcast
  | joinReleaseOld {oldId : String} : LeadsTo (.joinReleaseOld oldId) .broadcast
  | leaving {hostingRoom joinedRoom : Option String} :
      LeadsTo .leaving (.removeRooms hostingRoom joinedRoom)
  | marked : LeadsTo .leaving .finalBroadcast
  | removeRooms {hostingRoom joinedRoom : Option String} :
      LeadsTo (.removeRooms hostingRoom joinedRoom) .finalBroadcast
  | finalBroadcast : LeadsTo .finalBroadcast .returned
  | returned : LeadsTo .returned .released
  /-- the arm ends -/
  | ends {pc : HandlerPc} (hpc : pc.mayEnd = true) : LeadsTo pc .receiving

/-- Only the last block releases the connection slot. -/
theorem LeadsTo.ne_released {pc pc' : HandlerPc} (h : LeadsTo pc pc') (hpc : pc ≠ .returned) :
    pc' ≠ .released := by
  rintro rfl
  cases h
  exact hpc rfl

namespace Lobby

/-! ## Blocks -/

/-- The block of a handler at a position. -/
inductive Arm (s : Lobby) (c : SocketId) (h : Handler) (fresh : String) :
    HandlerPc → Lobby → Prop
  | registerCount (nickname : String) (war3Version : War3Version) :
      Arm s c h fresh (.registerCount nickname war3Version)
        (s.registerCount c h nickname war3Version)
  | registerInsert (nickname : String) (war3Version : War3Version) (lastHeartbeat : Instant) :
      Arm s c h fresh (.registerInsert nickname war3Version lastHeartbeat)
        (s.registerInsert c h nickname war3Version lastHeartbeat)
  | broadcast : Arm s c h fresh .broadcast (s.broadcastState.goto c h .receiving)
  | heartbeat :
      Arm s c h fresh .heartbeat ((s.setApp (s.app.heartbeat s.now h.playerId)).goto c h .receiving)
  | createRead (request : RoomRequest) :
      Arm s c h fresh (.createRead request) (s.createRead c h request)
  | createCount (draft : RoomDraft) :
      Arm s c h fresh (.createCount draft) (s.createCount c h draft)
  | createInsert (draft : RoomDraft) {s' : Lobby}
      (hstep : s.createInsert c h draft fresh = some s') :
      Arm s c h fresh (.createInsert draft) s'
  | createLink (roomId : String) :
      Arm s c h fresh (.createLink roomId) (s.createLink c h roomId)
  | closeTake : Arm s c h fresh .closeTake (s.closeTake c h)
  | closeRemove (roomId : String) :
      Arm s c h fresh (.closeRemove roomId) (s.closeRemove c h roomId)
  | upnpLookup (externalAddr tunnelToken : String) :
      Arm s c h fresh (.upnpLookup externalAddr tunnelToken)
        (s.upnpLookup c h externalAddr tunnelToken)
  | upnpForward (externalAddr joinerPlayerId : String) :
      Arm s c h fresh (.upnpForward externalAddr joinerPlayerId)
        (s.upnpForward c h externalAddr joinerPlayerId)
  | joinRoom (roomId : String) : Arm s c h fresh (.joinRoom roomId) (s.joinRoom c h roomId)
  | joinPlayers (quote : JoinQuote) :
      Arm s c h fresh (.joinPlayers quote) (s.joinPlayers c h quote)
  | joinReserve (ticket : JoinTicket) :
      Arm s c h fresh (.joinReserve ticket) (s.joinReserve c h ticket)
  | joinRegisterPending (ticket : JoinTicket) {s' : Lobby}
      (hstep : s.joinRegisterPending c h ticket fresh = some s') :
      Arm s c h fresh (.joinRegisterPending ticket) s'
  | joinRegisterBinding (ticket : JoinTicket) (tunnelToken : String) {s' : Lobby}
      (hstep : s.joinRegisterBinding c h ticket tunnelToken = some s') :
      Arm s c h fresh (.joinRegisterBinding ticket tunnelToken) s'
  | joinRecord (ticket : JoinTicket) :
      Arm s c h fresh (.joinRecord ticket) (s.joinRecord c h ticket)
  | joinReleaseOld (oldId : String) :
      Arm s c h fresh (.joinReleaseOld oldId) (s.joinReleaseOld c h oldId)
  | leaving : Arm s c h fresh .leaving (s.leaving c h)
  | removeRooms (hostingRoom joinedRoom : Option String) :
      Arm s c h fresh (.removeRooms hostingRoom joinedRoom)
        (s.removeRooms c h hostingRoom joinedRoom)
  | finalBroadcast : Arm s c h fresh .finalBroadcast (s.broadcastState.goto c h .returned)
  | returned :
      Arm s c h fresh .returned
        ((s.setApp (s.app.releaseConnection h.clientIp)).goto c h .released)

variable {s s' : Lobby} {c : SocketId} {h : Handler}

theorem arm_of_block {fresh : String} (hstep : s.block c h fresh = some s') :
    Arm s c h fresh h.pc s' := by
  unfold block at hstep
  cases hpc : h.pc with
  | receiving | released => simp [hpc] at hstep
  | createInsert draft =>
      rw [hpc] at hstep
      exact .createInsert draft hstep
  | joinRegisterPending ticket =>
      rw [hpc] at hstep
      exact .joinRegisterPending ticket hstep
  | joinRegisterBinding ticket tunnelToken =>
      rw [hpc] at hstep
      exact .joinRegisterBinding ticket tunnelToken hstep
  | _ =>
      rw [hpc] at hstep
      cases hstep
      constructor

/-! ## Messages and frames -/

/-- The message begins an arm. -/
inductive Begins (s : Lobby) (h : Handler) (externalIp : Option IpAddr) :
    ClientMessage → HandlerPc → Prop
  | register {nickname : String} {war3Version : War3Version} {clientVersion : Option String}
      (hnew : h.registered = false) :
      Begins s h externalIp (.register nickname war3Version clientVersion)
        (.registerCount nickname war3Version)
  | heartbeat : Begins s h externalIp .heartbeat .heartbeat
  | createRoom (request : RoomRequest) (hplayer : (!h.registered || h.isWebViewer) = false) :
      Begins s h externalIp
        (.createRoom request.roomName request.mapName request.maxPlayers request.gameinfo)
        (.createRead request)
  | closeRoom (hplayer : (!h.registered || h.isWebViewer) = false) :
      Begins s h externalIp .closeRoom .closeTake
  | upnpMapped {externalAddr tunnelToken : String}
      (hplayer : (!h.registered || h.isWebViewer) = false)
      (hsafe : externalIp.any isSafeExternalAddr = true) :
      Begins s h externalIp (.upnpMapped externalAddr tunnelToken)
        (.upnpLookup externalAddr tunnelToken)
  | joinRoom {roomId : String} (hplayer : (!h.registered || h.isWebViewer) = false)
      (hcooled : (h.lastJoinAt.any fun last => elapsed s.now last < joinCooldown) = false) :
      Begins s h externalIp (.joinRoom roomId) (.joinRoom roomId)

/-- What a message that passed the checks leads to. -/
inductive Dispatched (s : Lobby) (c : SocketId) (h : Handler) (externalIp : Option IpAddr)
    (m : ClientMessage) : Lobby → Prop
  | ignored : Dispatched s c h externalIp m s
  | refused (text : String) : Dispatched s c h externalIp m (s.error c text)
  | answered (ts : Nat) : Dispatched s c h externalIp m (s.trySend c (.pong ts))
  | begun {pc : HandlerPc} (hbegins : Begins s h externalIp m pc) :
      Dispatched s c h externalIp m (s.goto c h pc)

theorem dispatched (s : Lobby) (c : SocketId) (h : Handler) (m : ValidMessage)
    (externalIp : Option IpAddr) :
    Dispatched s c h externalIp m.message (s.dispatch c h m externalIp) := by
  obtain ⟨m, hvalid⟩ := m
  cases m with
  | register nickname war3Version clientVersion =>
      simp only [dispatch]
      split
      · exact .refused _
      next hnew => exact .begun (.register (Bool.eq_false_iff.mpr hnew))
  | heartbeat => exact .begun .heartbeat
  | createRoom roomName mapName maxPlayers gameinfo =>
      simp only [dispatch]
      split
      · exact .ignored
      next hplayer =>
        exact .begun (.createRoom ⟨_, _, _, _, hvalid⟩ (Bool.eq_false_iff.mpr hplayer))
  | closeRoom =>
      simp only [dispatch]
      split
      · exact .ignored
      next hplayer => exact .begun (.closeRoom (Bool.eq_false_iff.mpr hplayer))
  | ping ts => exact .answered ts
  | upnpMapped externalAddr tunnelToken =>
      simp only [dispatch]
      split
      · exact .ignored
      next hplayer =>
        split
        · exact .ignored
        next hsafe =>
          rw [Bool.not_eq_true', Bool.not_eq_false] at hsafe
          exact .begun (.upnpMapped (Bool.eq_false_iff.mpr hplayer) hsafe)
  | joinRoom roomId =>
      simp only [dispatch]
      split
      · exact .ignored
      next hplayer =>
        split
        · exact .refused _
        next hcooled =>
          exact .begun (.joinRoom (Bool.eq_false_iff.mpr hplayer) (Bool.eq_false_iff.mpr hcooled))

/-- The handler after the rate limiter has counted a message. -/
def counted (s : Lobby) (h : Handler) : Handler :=
  { h with rateLimiter := (h.rateLimiter.allow s.now).1 }

/-- What `ws_receiver.next()` leads to. -/
inductive Framed (s : Lobby) (c : SocketId) (h : Handler) : Incoming → Lobby → Prop
  | left {item : Incoming} : Framed s c h item (s.put c h.exit)
  | ignored {item : Incoming} : Framed s c h item s
  | tooLong {item : Incoming} (text : String) : Framed s c h item (s.error c text)
  | refused {item : Incoming} (text : String) :
      Framed s c h item ((s.put c (s.counted h)).error c text)
  | passed {len : Nat} {externalIp : Option IpAddr} (m : ValidMessage) :
      Framed s c h (.text len (some m.message) externalIp)
        ((s.put c (s.counted h)).dispatch c (s.counted h) m externalIp)

theorem message_of_check {m : ClientMessage} {valid : ValidMessage} (h : m.check = .ok valid) :
    valid.message = m := by
  unfold ClientMessage.check at h
  split at h <;> cases h
  rfl

theorem framed (s : Lobby) (c : SocketId) (h : Handler) (item : Incoming) :
    Framed s c h item (s.frame c h item) := by
  cases item with
  | close | ended => exact .left
  | other => exact .ignored
  | text len parsed externalIp =>
      simp only [frame, text]
      split
      · exact .tooLong _
      · split
        · exact .refused _
        · split
          · exact .refused _
          next m =>
            split
            next text _ => exact .refused text
            next valid hcheck =>
              obtain rfl := message_of_check hcheck
              exact .passed valid

end Lobby

end War3BattleTool.Server
