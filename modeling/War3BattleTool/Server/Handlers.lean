import War3BattleTool.Server.Arms

set_option autoImplicit false

/-!
# What a step of a handler leaves alone

A step of a running handler moves that handler only (`Moves`): the locals of every other
connection stay, and so do the handler's own address and player id.  The connection counters
change in one block only, the last one.
-/

namespace War3BattleTool.Server

open War3BattleTool.Foundation War3BattleTool.Protocol

theorem AppState.connectionsPerIp_clearRooms (a : AppState)
    (hostingRoom joinedRoom : Option String) :
    (a.clearRooms hostingRoom joinedRoom).connectionsPerIp = a.connectionsPerIp := by
  cases hostingRoom <;> cases joinedRoom <;> rfl

namespace Lobby

/-- The handler of `c` moves from `h` to `h'`, and nobody else moves. -/
structure Moves (s s' : Lobby) (c : SocketId) (h h' : Handler) : Prop where
  sockets : s'.sockets.get? = Function.update s.sockets.get? c (some (.running h'))
  clientIp : h'.clientIp = h.clientIp
  playerId : h'.playerId = h.playerId

/-- The handler moves, and does not give back its connection slot. -/
def Proceeds (s s' : Lobby) (c : SocketId) (h : Handler) : Prop :=
  ∃ h', Moves s s' c h h' ∧ h'.pc ≠ .released ∧
    s'.app.connectionsPerIp = s.app.connectionsPerIp

variable {s s' : Lobby} {c : SocketId} {h h' : Handler}

theorem get?_put (hc : s.sockets.get? c = some (.running h)) (h' : Handler) :
    (s.put c h').sockets.get? = Function.update s.sockets.get? c (some (.running h')) := by
  funext c'
  rw [Function.update_apply, put, Table.get?_modify]
  split
  · next heq => simp [heq, hc]
  · rfl

theorem Moves.put (hc : s.sockets.get? c = some (.running h)) (hip : h'.clientIp = h.clientIp)
    (hid : h'.playerId = h.playerId) (hsockets : s'.sockets = (s.put c h').sockets) :
    Moves s s' c h h' :=
  ⟨hsockets ▸ get?_put hc h', hip, hid⟩

theorem Moves.get?_self (hm : Moves s s' c h h') : s'.sockets.get? c = some (.running h') := by
  rw [hm.sockets, Function.update_self]

theorem Moves.get?_of_ne (hm : Moves s s' c h h') {c' : SocketId} (hne : c' ≠ c) :
    s'.sockets.get? c' = s.sockets.get? c' := by
  rw [hm.sockets, Function.update_of_ne hne]

theorem Moves.eq_of_running {k : Handler} (hm : Moves s s' c h k)
    (hc' : s'.sockets.get? c = some (.running h')) : h' = k :=
  Socket.running.inj (Option.some.inj (hc'.symm.trans hm.get?_self))

/-- Nobody moves. -/
theorem Proceeds.refl (hc : s.sockets.get? c = some (.running h)) (hpc : h.pc ≠ .released)
    (hsockets : s'.sockets = s.sockets)
    (hconns : s'.app.connectionsPerIp = s.app.connectionsPerIp) : Proceeds s s' c h :=
  ⟨h, ⟨by rw [hsockets, ← hc, Function.update_eq_self], rfl, rfl⟩, hpc, hconns⟩

/-- The handler's locals change; what else the step writes is in `s'`. -/
theorem Proceeds.put (hc : s.sockets.get? c = some (.running h)) (h' : Handler)
    (hip : h'.clientIp = h.clientIp) (hid : h'.playerId = h.playerId)
    (hpc : h'.pc ≠ .released) (hsockets : s'.sockets = (s.put c h').sockets)
    (hconns : s'.app.connectionsPerIp = s.app.connectionsPerIp) : Proceeds s s' c h :=
  ⟨h', .put hc hip hid hsockets, hpc, hconns⟩

/-- The handler proceeds to `pc`. -/
theorem Proceeds.goto (hc : s.sockets.get? c = some (.running h)) (pc : HandlerPc)
    (hpc : pc ≠ .released) (hsockets : s'.sockets = (s.goto c h pc).sockets)
    (hconns : s'.app.connectionsPerIp = s.app.connectionsPerIp) : Proceeds s s' c h :=
  .put hc { h with pc := pc } rfl rfl hpc hsockets hconns

/-! ## Blocks -/

/-- The handler moves on to a position to which `pc` leads, and the connection counters stay. -/
def Advances (s s' : Lobby) (c : SocketId) (h : Handler) (pc : HandlerPc) : Prop :=
  ∃ h', Moves s s' c h h' ∧ LeadsTo pc h'.pc ∧
    s'.app.connectionsPerIp = s.app.connectionsPerIp

section Blocks

variable (hc : s.sockets.get? c = some (.running h))

include hc

/-- The handler goes to `pc'`; what else the step writes is in `s'`. -/
theorem Advances.goto {pc : HandlerPc} (pc' : HandlerPc) (hpc : LeadsTo pc pc')
    (hsockets : s'.sockets = (s.goto c h pc').sockets)
    (hconns : s'.app.connectionsPerIp = s.app.connectionsPerIp) : Advances s s' c h pc :=
  ⟨{ h with pc := pc' }, .put hc rfl rfl hsockets, hpc, hconns⟩

/-- The handler goes back to the start of the loop. -/
theorem Advances.giveUp {pc : HandlerPc} (hpc : pc.mayEnd = true)
    (hsockets : s'.sockets = (s.goto c h .receiving).sockets)
    (hconns : s'.app.connectionsPerIp = s.app.connectionsPerIp) : Advances s s' c h pc :=
  .goto hc .receiving (.ends hpc) hsockets hconns

theorem advances_registerCount (nickname : String) (war3Version : War3Version) :
    Advances s (s.registerCount c h nickname war3Version) c h
      (.registerCount nickname war3Version) := by
  unfold registerCount
  split
  · exact .giveUp hc rfl rfl rfl
  · exact ⟨{ h with
      isWebViewer := isWebViewerName nickname
      viewerSince :=
        if isWebViewerName nickname then h.viewerSince.or (some s.now) else h.viewerSince
      pc := .registerInsert nickname war3Version s.now }, .put hc rfl rfl rfl, .registerCount, rfl⟩

theorem advances_registerInsert (nickname : String) (war3Version : War3Version)
    (lastHeartbeat : Instant) :
    Advances s (s.registerInsert c h nickname war3Version lastHeartbeat) c h
      (.registerInsert nickname war3Version lastHeartbeat) := by
  refine ⟨{ h with registered := true, pc := .broadcast }, .put hc rfl rfl ?_, .registerInsert, ?_⟩
  · dsimp only [registerInsert]
    split <;> rfl
  · dsimp only [registerInsert]
    split <;> rfl

theorem advances_createRead (request : RoomRequest) :
    Advances s (s.createRead c h request) c h (.createRead request) := by
  unfold createRead
  split
  · split
    · exact .giveUp hc rfl rfl rfl
    · exact .goto hc (.createCount _) .createRead rfl rfl
  · exact .giveUp hc rfl rfl rfl

theorem advances_createCount (draft : RoomDraft) :
    Advances s (s.createCount c h draft) c h (.createCount draft) := by
  unfold createCount
  split
  · exact .giveUp hc rfl rfl rfl
  · exact .goto hc (.createInsert draft) .createCount rfl rfl

theorem advances_createInsert {draft : RoomDraft} {roomId : String}
    (hstep : s.createInsert c h draft roomId = some s') :
    Advances s s' c h (.createInsert draft) := by
  unfold createInsert at hstep
  split at hstep <;> cases hstep
  exact .goto hc (.createLink roomId) .createInsert rfl rfl

theorem advances_closeTake : Advances s (s.closeTake c h) c h .closeTake := by
  dsimp only [closeTake]
  cases (s.app.takeHostingRoom h.playerId).2 with
  | some roomId => exact .goto hc (.closeRemove roomId) .closeTake rfl rfl
  | none => exact .giveUp hc rfl rfl rfl

theorem advances_upnpLookup (externalAddr tunnelToken : String) :
    Advances s (s.upnpLookup c h externalAddr tunnelToken) c h
      (.upnpLookup externalAddr tunnelToken) := by
  dsimp only [upnpLookup]
  cases (s.tunnel.lookupUpnp tunnelToken h.clientIp).2 with
  | some pid => exact .goto hc (.upnpForward externalAddr pid) .upnpLookup rfl rfl
  | none => exact .giveUp hc rfl rfl rfl

theorem advances_upnpForward (externalAddr joinerPlayerId : String) :
    Advances s (s.upnpForward c h externalAddr joinerPlayerId) c h
      (.upnpForward externalAddr joinerPlayerId) := by
  dsimp only [upnpForward]
  split <;> exact .giveUp hc rfl rfl rfl

theorem advances_joinRoom (roomId : String) :
    Advances s (s.joinRoom c h roomId) c h (.joinRoom roomId) := by
  unfold joinRoom
  split
  · exact .goto hc (.joinPlayers _) .joinRoom rfl rfl
  · exact .giveUp hc rfl rfl rfl

theorem advances_joinPlayers (quote : JoinQuote) :
    Advances s (s.joinPlayers c h quote) c h (.joinPlayers quote) := by
  unfold joinPlayers
  split
  · exact .giveUp hc rfl rfl rfl
  · split
    · exact .giveUp hc rfl rfl rfl
    · split
      · exact .goto hc (.joinReserve _) .joinPlayers rfl rfl
      · exact .giveUp hc rfl rfl rfl

theorem advances_joinReserve (ticket : JoinTicket) :
    Advances s (s.joinReserve c h ticket) c h (.joinReserve ticket) := by
  unfold joinReserve AppState.reserveSlot
  cases s.app.rooms.get? ticket.quote.roomId with
  | none => exact .giveUp hc rfl rfl rfl
  | some r =>
      by_cases hfull : r.maxPlayers ≤ r.currentPlayers
      · simp only [hfull, if_true]
        exact .giveUp hc rfl rfl rfl
      · simp only [hfull, if_false]
        exact .goto hc (.joinRegisterPending ticket) .joinReserve rfl rfl

theorem advances_joinRegisterPending {ticket : JoinTicket} {tunnelToken : String}
    (hstep : s.joinRegisterPending c h ticket tunnelToken = some s') :
    Advances s s' c h (.joinRegisterPending ticket) := by
  obtain ⟨tunnel, _, rfl⟩ := Option.map_eq_some_iff.mp hstep
  exact .goto hc (.joinRegisterBinding ticket tunnelToken) .joinRegisterPending rfl rfl

theorem advances_joinRegisterBinding {ticket : JoinTicket} {tunnelToken : String}
    (hstep : s.joinRegisterBinding c h ticket tunnelToken = some s') :
    Advances s s' c h (.joinRegisterBinding ticket tunnelToken) := by
  obtain ⟨tunnel, _, rfl⟩ := Option.map_eq_some_iff.mp hstep
  exact .goto hc (.joinRecord ticket) .joinRegisterBinding rfl rfl

/-- The end of a successful `JoinRoom`. -/
theorem advances_joined {pc : HandlerPc} {app : AppState} (hpc : LeadsTo pc .broadcast)
    (hconns : app.connectionsPerIp = s.app.connectionsPerIp) :
    Advances s ((s.setApp app).joined c h) c h pc :=
  ⟨{ h with lastJoinAt := some s.now, pc := .broadcast }, .put hc rfl rfl rfl, hpc, hconns⟩

theorem advances_joinRecord (ticket : JoinTicket) :
    Advances s (s.joinRecord c h ticket) c h (.joinRecord ticket) := by
  dsimp only [joinRecord]
  cases (s.app.replaceJoinedRoom h.playerId ticket.quote.roomId).2 with
  | some oldId => exact .goto hc (.joinReleaseOld oldId) .joinRecord rfl rfl
  | none => exact advances_joined hc .joined rfl

theorem advances_leaving : Advances s (s.leaving c h) c h .leaving := by
  unfold leaving AppState.takePlayer
  split
  · cases s.app.players.get? h.playerId with
    | some p => exact .goto hc (.removeRooms p.hostingRoom p.joinedRoom) .leaving rfl rfl
    | none => exact .goto hc .finalBroadcast .marked rfl rfl
  · exact .goto hc .finalBroadcast .marked rfl rfl

/-- Every block but the last keeps the connection slot. -/
theorem advances_arm {fresh : String} {pc : HandlerPc} (harm : Arm s c h fresh pc s')
    (hpc : pc ≠ .returned) : Advances s s' c h pc := by
  cases harm with
  | returned => exact absurd rfl hpc
  | registerCount nickname war3Version => exact advances_registerCount hc nickname war3Version
  | registerInsert nickname war3Version lastHeartbeat =>
      exact advances_registerInsert hc nickname war3Version lastHeartbeat
  | broadcast | heartbeat => exact .giveUp hc rfl rfl rfl
  | createRead request => exact advances_createRead hc request
  | createCount draft => exact advances_createCount hc draft
  | createInsert draft hstep => exact advances_createInsert hc hstep
  | createLink roomId => exact .goto hc .broadcast .createLink rfl rfl
  | closeTake => exact advances_closeTake hc
  | closeRemove roomId => exact .goto hc .broadcast .closeRemove rfl rfl
  | upnpLookup externalAddr tunnelToken => exact advances_upnpLookup hc externalAddr tunnelToken
  | upnpForward externalAddr joinerPlayerId =>
      exact advances_upnpForward hc externalAddr joinerPlayerId
  | joinRoom roomId => exact advances_joinRoom hc roomId
  | joinPlayers quote => exact advances_joinPlayers hc quote
  | joinReserve ticket => exact advances_joinReserve hc ticket
  | joinRegisterPending ticket hstep => exact advances_joinRegisterPending hc hstep
  | joinRegisterBinding ticket tunnelToken hstep => exact advances_joinRegisterBinding hc hstep
  | joinRecord ticket => exact advances_joinRecord hc ticket
  | joinReleaseOld oldId => exact advances_joined hc .joinReleaseOld rfl
  | leaving => exact advances_leaving hc
  | removeRooms hostingRoom joinedRoom =>
      exact .goto hc .finalBroadcast .removeRooms rfl
        (s.app.connectionsPerIp_clearRooms hostingRoom joinedRoom)
  | finalBroadcast => exact .goto hc .returned .finalBroadcast rfl rfl

theorem proceeds_block {fresh : String} (hstep : s.block c h fresh = some s')
    (hpc : h.pc ≠ .returned) : Proceeds s s' c h := by
  obtain ⟨h', hmoves, hleads, hconns⟩ := advances_arm hc (arm_of_block hstep) hpc
  exact ⟨h', hmoves, hleads.ne_released hpc, hconns⟩

/-- A block moves the handler on to a position to which its own leads. -/
theorem leadsTo_block {fresh : String} (hstep : s.block c h fresh = some s') :
    ∃ h', Moves s s' c h h' ∧ LeadsTo h.pc h'.pc := by
  by_cases hpc : h.pc = .returned
  · simp only [block, hpc, Option.some.injEq] at hstep
    rw [hpc, ← hstep]
    exact ⟨{ h with pc := .released }, .put hc rfl rfl rfl, .returned⟩
  · obtain ⟨h', hmoves, hleads, _⟩ := advances_arm hc (arm_of_block hstep) hpc
    exact ⟨h', hmoves, hleads⟩

/-! ### The receive loop -/

theorem proceeds_exit : Proceeds s (s.put c h.exit) c h := by
  refine .put hc h.exit rfl rfl ?_ rfl rfl
  unfold Handler.exit
  split <;> simp

omit hc in
/-- An arm begins inside the loop. -/
theorem Begins.ne_released {externalIp : Option IpAddr} {m : ClientMessage} {pc : HandlerPc}
    (h : Begins s h externalIp m pc) : pc ≠ .released := by
  cases h <;> exact nofun

/-- A message that passed the checks begins one arm of the loop, or none. -/
theorem proceeds_dispatch (hpc : h.pc ≠ .released) (m : ValidMessage)
    (externalIp : Option IpAddr) : Proceeds s (s.dispatch c h m externalIp) c h := by
  have hdispatched := dispatched s c h m externalIp
  generalize s.dispatch c h m externalIp = s' at hdispatched ⊢
  cases hdispatched with
  | begun hbegins => exact .goto hc _ hbegins.ne_released rfl rfl
  | _ => exact .refl hc hpc rfl rfl

omit hc in
theorem Proceeds.trans {s'' : Lobby} (hm : Moves s s' c h h')
    (hconns : s'.app.connectionsPerIp = s.app.connectionsPerIp)
    (hp : Proceeds s' s'' c h') : Proceeds s s'' c h := by
  obtain ⟨h'', hm', hpc, hconns'⟩ := hp
  exact ⟨h'', ⟨by rw [hm'.sockets, hm.sockets, Function.update_idem],
    hm'.clientIp.trans hm.clientIp, hm'.playerId.trans hm.playerId⟩, hpc, hconns'.trans hconns⟩

theorem proceeds_frame (hpc : h.pc ≠ .released) (item : Incoming) :
    Proceeds s (s.frame c h item) c h := by
  -- Only the rate limiter of the handler changes before a message is dispatched.
  have hm : Moves s (s.put c (s.counted h)) c h (s.counted h) := .put hc rfl rfl rfl
  have hframed := framed s c h item
  generalize s.frame c h item = s' at hframed ⊢
  cases hframed with
  | left => exact proceeds_exit hc
  | ignored | tooLong => exact .refl hc hpc rfl rfl
  | refused text => exact .trans hm rfl (.refl hm.get?_self hpc rfl rfl)
  | passed m => exact .trans hm rfl (proceeds_dispatch hm.get?_self hpc m _)

end Blocks

/-! ## The tunnel service beside the lobby -/

/-- The step of the tunnel service that the next block of a handler makes. -/
def blockTunnelLabel (h : Handler) (fresh : String) : Option TunnelService.Label :=
  match h.pc with
  | .upnpLookup _ tunnelToken => some (.lookupUpnp tunnelToken h.clientIp)
  | .joinRegisterPending ticket =>
      some (.registerPending fresh ticket.hostIp h.clientIp h.playerId)
  | .joinRegisterBinding _ tunnelToken => some (.registerBinding tunnelToken)
  | _ => none

/-- The step of the tunnel service that a step of the server makes. -/
def tunnelLabel (s : Lobby) : Label → Option TunnelService.Label
  | .elapse d => some (.elapse d)
  | .tunnel l => some l
  | .block c fresh =>
      match s.sockets.get? c with
      | some (.running h) => blockTunnelLabel h fresh
      | _ => none
  | .cleanup =>
      match s.cleanup with
      | .tunnels => some .cleanup
      | _ => none
  | .request _ _ _ | .upgrade _ _ | .frame _ _ | .drop _ | .sent _ _ => none

/-- The tunnel service makes the step `l`, or stands still. -/
def TunnelMoves (s s' : Lobby) (l : Option TunnelService.Label) : Prop :=
  match l with
  | some l => s.tunnel.step l = some s'.tunnel
  | none => s'.tunnel = s.tunnel

theorem tunnel_frame (item : Incoming) : (s.frame c h item).tunnel = s.tunnel := by
  have hdispatch : ∀ (s : Lobby) (h : Handler) (m : ValidMessage) (externalIp : Option IpAddr),
      (s.dispatch c h m externalIp).tunnel = s.tunnel := by
    intro s h m externalIp
    have hdispatched := dispatched s c h m externalIp
    generalize s.dispatch c h m externalIp = s' at hdispatched ⊢
    cases hdispatched <;> rfl
  have hframed := framed s c h item
  generalize s.frame c h item = s' at hframed ⊢
  cases hframed with
  | passed m => exact hdispatch _ _ m _
  | _ => rfl

theorem tunnelMoves_block {fresh : String} (hstep : s.block c h fresh = some s') :
    TunnelMoves s s' (blockTunnelLabel h fresh) := by
  have harm := arm_of_block hstep
  unfold blockTunnelLabel
  generalize h.pc = pc at harm
  cases harm with
  | createInsert draft hstep =>
      unfold createInsert at hstep
      split at hstep <;> cases hstep
      rfl
  | joinRegisterPending ticket hstep | joinRegisterBinding ticket token hstep =>
      obtain ⟨tunnel, htunnel, rfl⟩ := Option.map_eq_some_iff.mp hstep
      exact htunnel
  | broadcast | heartbeat | createLink | closeTake | closeRemove | upnpLookup | joinReleaseOld
  | removeRooms | finalBroadcast | returned => rfl
  | registerCount | registerInsert | createRead | createCount | upnpForward | joinRoom
  | joinPlayers | joinReserve | joinRecord | leaving =>
      dsimp only [TunnelMoves, registerCount, registerInsert, createRead, createCount,
        upnpForward, joinRoom, joinPlayers, joinReserve, joinRecord, leaving]
      repeat' split
      all_goals rfl

/-- Every step of the server is a step of the tunnel service, or leaves it as it is. -/
theorem tunnelMoves_of_step {l : Label} (hstep : s.step l = some s') :
    TunnelMoves s s' (s.tunnelLabel l) := by
  cases l with
  | elapse d =>
      cases hstep
      rfl
  | tunnel l =>
      simp only [step] at hstep
      split at hstep
      · obtain ⟨tunnel, htunnel, rfl⟩ := Option.map_eq_some_iff.mp hstep
        exact htunnel
      · cases hstep
  | request c originOk ip =>
      simp only [step, request] at hstep
      repeat' split at hstep
      all_goals cases hstep
      all_goals rfl
  | upgrade c playerId =>
      simp only [step, upgraded] at hstep
      repeat' split at hstep
      all_goals cases hstep
      all_goals rfl
  | frame c item =>
      obtain ⟨h, hc, hframe⟩ := whenRunning_eq_some hstep
      split at hframe
      · cases hframe
        exact tunnel_frame item
      · cases hframe
  | block c fresh =>
      obtain ⟨h, hc, hblock⟩ := whenRunning_eq_some hstep
      simp only [tunnelLabel, hc]
      exact tunnelMoves_block hblock
  | drop c =>
      obtain ⟨h, hc, hdrop⟩ := whenRunning_eq_some hstep
      split at hdrop
      · cases hdrop
        rfl
      · cases hdrop
  | sent c ok =>
      obtain ⟨o, _, hsent⟩ := Option.bind_eq_some_iff.mp hstep
      obtain ⟨o', _, rfl⟩ := Option.map_eq_some_iff.mp hsent
      rfl
  | cleanup =>
      simp only [step, cleanupStep] at hstep
      simp only [tunnelLabel]
      cases hpc : s.cleanup with
      | tick =>
          simp only [hpc] at hstep
          split at hstep
          · cases hstep
            rfl
          · cases hstep
      | tunnels | findExpired | removeRooms =>
          simp only [hpc, Option.some.injEq] at hstep
          exact hstep ▸ rfl
      | removePlayers expired =>
          cases expired with
          | nil | cons =>
              simp only [hpc, Option.some.injEq] at hstep
              exact hstep ▸ rfl

/-- The tunnel service stands still, or makes the step that goes with the label. -/
theorem tunnel_cases {l : Label} (hstep : s.step l = some s') :
    s'.tunnel = s.tunnel ∨ ∃ m, s.tunnelLabel l = some m ∧ s.tunnel.step m = some s'.tunnel := by
  have hmoves := tunnelMoves_of_step hstep
  cases hl : s.tunnelLabel l with
  | none =>
      rw [hl] at hmoves
      exact .inl hmoves
  | some m =>
      rw [hl] at hmoves
      exact .inr ⟨m, rfl, hmoves⟩

/-- What the server reports of a step of the tunnel service. -/
def reportTunnel {ε : Type} (g : TunnelService → TunnelService.Label → List ε) (s : Lobby)
    (l : Label) : List ε :=
  match s.tunnelLabel l with
  | some l => g s.tunnel l
  | none => []

/-- A run of the server is a run of the tunnel service. -/
theorem trace_tunnel {ε : Type} {f : Lobby → Label → List ε}
    {g : TunnelService → TunnelService.Label → List ε}
    (hfg : ∀ s l s', s.step l = some s' → f s l = s.reportTunnel g l) {events : List ε}
    {s : Lobby} (h : machine.Trace f events s) :
    TunnelService.machine.Trace g events s.tunnel := by
  induction h with
  | init => exact .init
  | @step events s s' l htrace hstep ih =>
      have hmoves := tunnelMoves_of_step hstep
      rw [hfg s l s' hstep, reportTunnel]
      cases hl : s.tunnelLabel l with
      | none =>
          rw [hl] at hmoves
          have htunnel : s'.tunnel = s.tunnel := hmoves
          simpa [htunnel] using ih
      | some l' =>
          rw [hl] at hmoves
          exact .step ih hmoves

end Lobby

end War3BattleTool.Server
