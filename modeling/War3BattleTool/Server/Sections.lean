import Mathlib.Order.Fin.Basic
import War3BattleTool.Foundation.Locks
import War3BattleTool.Server.Requests
import War3BattleTool.Server.TunnelSteps

set_option autoImplicit false

/-!
# Locks and the blocks under them

Each map of `AppState` and `TunnelState` has a lock, and each block of a task takes the locks of
the maps that it uses (`Lobby.wanted`).  Only `broadcast_state` holds two locks at a time; every
task takes the players before the rooms (`rising_wanted`).  A step changes no map whose lock its
task has not taken for writing (`sameMap_of_step`).
-/

namespace War3BattleTool.Server

open War3BattleTool.Foundation War3BattleTool.Protocol

/-- The lock of a map: `AppState::connections_per_ip` is `connections`, the map of that name in
`TunnelState` is `tunnelConnections`. -/
inductive MapLock where
  | players
  | rooms
  | connections
  | waiting
  | tokenBindings
  | tunnelConnections
  | upnpPending
  deriving DecidableEq

/-- The order in which locks are taken. -/
def MapLock.rank : MapLock → Fin 2
  | .rooms => 1
  | _ => 0

/-- The locks of `broadcast_state`. -/
def broadcastLocks : List (MapLock × LockMode) := [(.players, .read), (.rooms, .read)]

/-- The locks of the next block of a handler. -/
def HandlerPc.locks : HandlerPc → List (MapLock × LockMode)
  | .receiving | .released => []
  | .registerCount _ _ | .createRead _ | .upnpForward _ _ | .joinPlayers _ => [(.players, .read)]
  | .registerInsert _ _ _ | .heartbeat | .createLink _ | .closeTake | .joinRecord _ | .leaving =>
      [(.players, .write)]
  | .createCount _ | .joinRoom _ => [(.rooms, .read)]
  | .createInsert _ | .closeRemove _ | .joinReserve _ | .joinReleaseOld _ | .removeRooms _ _ =>
      [(.rooms, .write)]
  | .broadcast | .finalBroadcast => broadcastLocks
  | .upnpLookup _ _ | .joinRegisterPending _ => [(.upnpPending, .write)]
  | .joinRegisterBinding _ _ => [(.tokenBindings, .write)]
  | .returned => [(.connections, .write)]

/-- The locks of the next block of a tunnel connection.  A refused one is sent its `Close` under
the lock; the send counts to the block. -/
def Pc.locks : Pc → List (MapLock × LockMode)
  | .checkBinding => [(.tokenBindings, .read)]
  | .lookupWaiting | .registerWaiting | .unregisterWaiting => [(.waiting, .write)]
  | .unbind _ => [(.tokenBindings, .write)]
  | .returned _ => [(.tunnelConnections, .write)]
  | _ => []

/-- The locks of the next block of `cleanup_expired`. -/
def CleanupPc.locks : CleanupPc → List (MapLock × LockMode)
  | .removeWaiting => [(.waiting, .write)]
  | .removeBindings _ => [(.tokenBindings, .write)]
  | .removeUpnp => [(.upnpPending, .write)]

/-- Where the handler of a tunnel connection stands. -/
def TunnelService.pcOf (s : TunnelService) (c : ConnId) : Option Pc :=
  (s.tasks.get? c).map (·.pc)

/-- The locks of the next block of a lobby connection.  A new one acquires its slot. -/
def socketLocks : Option Socket → List (MapLock × LockMode)
  | none => [(.connections, .write)]
  | some (.running h) => h.pc.locks
  | some _ => []

/-- The locks of the next block of a tunnel connection.  A new one acquires its slot. -/
def tunnelLocks : Option Pc → List (MapLock × LockMode)
  | none => [(.tunnelConnections, .write)]
  | some pc => pc.locks

/-- The locks of the next block of the cleanup task. -/
def cleanupLocks (tunnels : CleanupPc) : CleanupTask → List (MapLock × LockMode)
  | .tick => []
  | .tunnels => tunnels.locks
  | .findExpired => [(.players, .read)]
  | .removePlayers [] => broadcastLocks
  | .removePlayers (_ :: _) => [(.players, .write)]
  | .removeRooms _ _ _ => [(.rooms, .write)]

/-- A task of the server: that of a lobby connection or a tunnel connection, from its request on,
or the cleanup task. -/
inductive ServerTask where
  | socket (c : SocketId)
  | tunnel (c : ConnId)
  | cleanup
  deriving DecidableEq

namespace Lobby

/-- The locks of the next block of a task. -/
def wanted (s : Lobby) : ServerTask → List (MapLock × LockMode)
  | .socket c => socketLocks (s.sockets.get? c)
  | .tunnel c => tunnelLocks (s.tunnel.pcOf c)
  | .cleanup => cleanupLocks s.tunnel.cleanup s.cleanup

/-- The request reaches `try_acquire_tunnel_connection`. -/
def acquiresTunnel (originOk : Bool) (token role : Option String) : Bool :=
  originOk && token.any (fun token => token ≠ "") &&
    role.any fun role => role = "host" || role = "join"

/-- The task whose block a step is. -/
def Label.task : Label → Option ServerTask
  | .block c _ => some (.socket c)
  | .request c originOk _ => if originOk then some (.socket c) else none
  | .tunnel (.block c) => some (.tunnel c)
  | .tunnel (.request c originOk _ token role) =>
      if acquiresTunnel originOk token role then some (.tunnel c) else none
  | .cleanup => some .cleanup
  | _ => none

/-- Every task takes the players before the rooms. -/
theorem rising_wanted (s : Lobby) (t : ServerTask) : Locks.Rising MapLock.rank (s.wanted t) := by
  have hnil : Locks.Rising MapLock.rank [] := List.Pairwise.nil
  have hone : ∀ a, Locks.Rising MapLock.rank [a] := fun a => List.pairwise_singleton _ a
  have hbroadcast : Locks.Rising MapLock.rank broadcastLocks := by
    simp [Locks.Rising, broadcastLocks, MapLock.rank]
  cases t with
  | socket c =>
      simp only [wanted, socketLocks]
      split
      · exact hone _
      · unfold HandlerPc.locks
        split <;> first | exact hnil | exact hone _ | exact hbroadcast
      · exact hnil
  | tunnel c =>
      simp only [wanted, tunnelLocks]
      split
      · exact hone _
      · unfold Pc.locks
        split <;> first | exact hnil | exact hone _
  | cleanup =>
      simp only [wanted, cleanupLocks]
      split
      · exact hnil
      · unfold CleanupPc.locks
        split <;> exact hone _
      · exact hone _
      · exact hbroadcast
      · exact hone _
      · exact hone _

/-! ## What a block changes -/

/-- The map of a lock is as it was. -/
def SameMap (s s' : Lobby) : MapLock → Prop
  | .players => s'.app.players = s.app.players
  | .rooms => s'.app.rooms = s.app.rooms
  | .connections => s'.app.connectionsPerIp = s.app.connectionsPerIp
  | .waiting => s'.tunnel.tunnel.waiting = s.tunnel.tunnel.waiting
  | .tokenBindings => s'.tunnel.tunnel.tokenBindings = s.tunnel.tunnel.tokenBindings
  | .tunnelConnections => s'.tunnel.tunnel.connectionsPerIp = s.tunnel.tunnel.connectionsPerIp
  | .upnpPending => s'.tunnel.tunnel.upnpPending = s.tunnel.tunnel.upnpPending

variable {s s' : Lobby} {c : SocketId} {h : Handler} {k : MapLock}

theorem sameMap_of_maps (happ : s'.app = s.app) (htunnel : s'.tunnel.tunnel = s.tunnel.tunnel) :
    SameMap s s' k := by
  cases k with
  | players | rooms | connections => rw [SameMap, happ]
  | waiting | tokenBindings | tunnelConnections | upnpPending => rw [SameMap, htunnel]

/-- A task that has the players for writing changes the players only. -/
theorem sameMap_of_players (hrooms : s'.app.rooms = s.app.rooms)
    (hconnections : s'.app.connectionsPerIp = s.app.connectionsPerIp)
    (htunnel : s'.tunnel.tunnel = s.tunnel.tunnel)
    (hk : (k, LockMode.write) ∉ [(.players, .write)]) :
    SameMap s s' k := by
  cases k with
  | players => exact absurd (List.mem_singleton_self _) hk
  | rooms => exact hrooms
  | connections => exact hconnections
  | waiting | tokenBindings | tunnelConnections | upnpPending => rw [SameMap, htunnel]

/-- A task that has the rooms for writing changes the rooms only. -/
theorem sameMap_of_rooms (hplayers : s'.app.players = s.app.players)
    (hconnections : s'.app.connectionsPerIp = s.app.connectionsPerIp)
    (htunnel : s'.tunnel.tunnel = s.tunnel.tunnel) (hk : (k, LockMode.write) ∉ [(.rooms, .write)]) :
    SameMap s s' k := by
  cases k with
  | players => exact hplayers
  | rooms => exact absurd (List.mem_singleton_self _) hk
  | connections => exact hconnections
  | waiting | tokenBindings | tunnelConnections | upnpPending => rw [SameMap, htunnel]

theorem sameMap_of_upnpPending {pending : Table String UPnPPending} (happ : s'.app = s.app)
    (htunnel : s'.tunnel.tunnel = { s.tunnel.tunnel with upnpPending := pending })
    (hk : (k, LockMode.write) ∉ [(.upnpPending, .write)]) : SameMap s s' k := by
  cases k with
  | players | rooms | connections => rw [SameMap, happ]
  | waiting | tokenBindings | tunnelConnections => rw [SameMap, htunnel]
  | upnpPending => exact absurd (List.mem_singleton_self _) hk

theorem sameMap_of_tokenBindings {bindings : Table String TokenBinding} (happ : s'.app = s.app)
    (htunnel : s'.tunnel.tunnel = { s.tunnel.tunnel with tokenBindings := bindings })
    (hk : (k, LockMode.write) ∉ [(.tokenBindings, .write)]) : SameMap s s' k := by
  cases k with
  | players | rooms | connections => rw [SameMap, happ]
  | waiting | tunnelConnections | upnpPending => rw [SameMap, htunnel]
  | tokenBindings => exact absurd (List.mem_singleton_self _) hk

theorem sameMap_clearRooms {hostingRoom joinedRoom : Option String}
    (happ : s'.app = s.app.clearRooms hostingRoom joinedRoom)
    (htunnel : s'.tunnel.tunnel = s.tunnel.tunnel) (hk : (k, LockMode.write) ∉ [(.rooms, .write)]) :
    SameMap s s' k := by
  refine sameMap_of_rooms ?_ ?_ htunnel hk <;> rw [happ] <;> cases hostingRoom <;>
    cases joinedRoom <;> rfl

theorem sameMap_block {fresh : String} (hstep : s.block c h fresh = some s')
    (hk : (k, .write) ∉ h.pc.locks) : SameMap s s' k := by
  have harm := arm_of_block hstep
  generalize h.pc = pc at harm hk
  cases harm with
  | registerCount nickname war3Version =>
      unfold registerCount
      dsimp only
      split <;> exact sameMap_of_maps rfl rfl
  | registerInsert nickname war3Version lastHeartbeat =>
      unfold registerInsert
      dsimp only
      split <;> exact sameMap_of_players rfl rfl rfl hk
  | broadcast | finalBroadcast => exact sameMap_of_maps rfl rfl
  | heartbeat | createLink | closeTake => exact sameMap_of_players rfl rfl rfl hk
  | createRead request =>
      unfold createRead
      split
      · split <;> exact sameMap_of_maps rfl rfl
      · exact sameMap_of_maps rfl rfl
  | createCount draft =>
      unfold createCount
      split <;> exact sameMap_of_maps rfl rfl
  | createInsert draft hstep =>
      unfold createInsert at hstep
      split at hstep <;> cases hstep
      exact sameMap_of_rooms rfl rfl rfl hk
  | closeRemove roomId => exact sameMap_of_rooms rfl rfl rfl hk
  | upnpLookup externalAddr tunnelToken =>
      obtain ⟨pending, hpending⟩ := s.tunnel.tunnel.lookupUpnpPending_frame tunnelToken h.clientIp
      have htunnel : (s.upnpLookup c h externalAddr tunnelToken).tunnel.tunnel =
          { s.tunnel.tunnel with upnpPending := pending } := hpending
      refine sameMap_of_upnpPending rfl htunnel hk
  | upnpForward externalAddr joinerPlayerId =>
      unfold upnpForward
      dsimp only
      split <;> exact sameMap_of_maps rfl rfl
  | joinRoom roomId =>
      unfold joinRoom
      split <;> exact sameMap_of_maps rfl rfl
  | joinPlayers quote =>
      unfold joinPlayers
      split
      · exact sameMap_of_maps rfl rfl
      · split
        · exact sameMap_of_maps rfl rfl
        · split <;> exact sameMap_of_maps rfl rfl
  | joinReserve ticket =>
      unfold joinReserve
      split
      · next app hreserve =>
        unfold AppState.reserveSlot at hreserve
        split at hreserve
        · split at hreserve <;> cases hreserve
          exact sameMap_of_rooms rfl rfl rfl hk
        · cases hreserve
      · exact sameMap_of_maps rfl rfl
  | joinRegisterPending ticket hstep =>
      obtain ⟨tunnel, htunnel, rfl⟩ := Option.map_eq_some_iff.mp hstep
      obtain ⟨_, rfl⟩ := TunnelService.registerPending_of_step htunnel
      exact sameMap_of_upnpPending rfl rfl hk
  | joinRegisterBinding ticket tunnelToken hstep =>
      obtain ⟨tunnel, htunnel, rfl⟩ := Option.map_eq_some_iff.mp hstep
      obtain ⟨binding, _, rfl⟩ := Option.map_eq_some_iff.mp htunnel
      exact sameMap_of_tokenBindings rfl rfl hk
  | joinRecord ticket =>
      unfold joinRecord
      dsimp only
      split <;> exact sameMap_of_players rfl rfl rfl hk
  | joinReleaseOld oldId => exact sameMap_of_rooms rfl rfl rfl hk
  | leaving =>
      unfold leaving
      split
      · split
        · next app hostingRoom joinedRoom htaken =>
          obtain rfl : _ = app := congrArg Prod.fst htaken
          exact sameMap_of_players rfl rfl rfl hk
        · exact sameMap_of_maps rfl rfl
      · exact sameMap_of_players rfl rfl rfl hk
  | removeRooms hostingRoom joinedRoom => exact sameMap_clearRooms rfl rfl hk
  | returned =>
      cases k with
      | connections => exact absurd (List.mem_singleton_self _) hk
      | _ => rfl

/-! ## Steps of tunnel connections -/

theorem sameMap_of_waiting {waiting : Table String WaitingPeer} (happ : s'.app = s.app)
    (htunnel : s'.tunnel.tunnel = { s.tunnel.tunnel with waiting := waiting })
    (hk : (k, LockMode.write) ∉ [(.waiting, .write)]) : SameMap s s' k := by
  cases k with
  | players | rooms | connections => rw [SameMap, happ]
  | tokenBindings | tunnelConnections | upnpPending => rw [SameMap, htunnel]
  | waiting => exact absurd (List.mem_singleton_self _) hk

theorem sameMap_of_tunnelConnections {conns : Table IpAddr Nat} (happ : s'.app = s.app)
    (htunnel : s'.tunnel.tunnel = { s.tunnel.tunnel with connectionsPerIp := conns })
    (hk : (k, LockMode.write) ∉ [(.tunnelConnections, .write)]) : SameMap s s' k := by
  cases k with
  | players | rooms | connections => rw [SameMap, happ]
  | waiting | tokenBindings | upnpPending => rw [SameMap, htunnel]
  | tunnelConnections => exact absurd (List.mem_singleton_self _) hk

theorem tunnelHandler_of_not_acquires (tunnel : TunnelState) (clientIp : IpAddr) {originOk : Bool}
    {token role : Option String} (h : acquiresTunnel originOk token role = false) :
    ∃ status, tunnelHandler tunnel originOk clientIp token role = (tunnel, .error status) := by
  unfold tunnelHandler
  cases originOk with
  | false => exact ⟨_, rfl⟩
  | true =>
      cases token with
      | none => exact ⟨_, rfl⟩
      | some token =>
          by_cases htoken : token = ""
          · simp [htoken]
          · cases role with
            | none => simp [htoken]
            | some role =>
                have hrole : ¬ (role = "host" ∨ role = "join") := by
                  simpa [acquiresTunnel, htoken] using h
                simp [htoken, hrole]

/-- A request changes the count of connections if it reaches the count. -/
theorem sameMap_tunnelRequest {originOk : Bool} {clientIp : IpAddr} {token role : Option String}
    {tunnel : TunnelService} {conns : Table IpAddr Nat}
    {result : Except Rejection (String × String)}
    (hresult : tunnelHandler s.tunnel.tunnel originOk clientIp token role =
      ({ s.tunnel.tunnel with connectionsPerIp := conns }, result))
    (htunnel : tunnel.tunnel = { s.tunnel.tunnel with connectionsPerIp := conns })
    (hk : acquiresTunnel originOk token role = true →
      (k, LockMode.write) ∉ [(.tunnelConnections, .write)]) : SameMap s (s.setTunnel tunnel) k := by
  cases hacquires : acquiresTunnel originOk token role with
  | true => exact sameMap_of_tunnelConnections rfl htunnel (hk hacquires)
  | false =>
      obtain ⟨status, herror⟩ := tunnelHandler_of_not_acquires s.tunnel.tunnel clientIp hacquires
      have hsame : s.tunnel.tunnel = { s.tunnel.tunnel with connectionsPerIp := conns } :=
        congrArg Prod.fst (herror.symm.trans hresult)
      exact sameMap_of_maps rfl (htunnel.trans hsame.symm)

/-- A step of a tunnel connection. -/
theorem sameMap_tunnel {l : TunnelService.Label} {tunnel : TunnelService}
    (hl : isTunnelStep l = true) (hstep : s.tunnel.step l = some tunnel)
    (hk : ∀ t, (Label.tunnel l).task = some t → (k, .write) ∉ s.wanted t) :
    SameMap s (s.setTunnel tunnel) k := by
  have hblock : ∀ {c t}, l = .block c → s.tunnel.tasks.get? c = some t →
      (k, .write) ∉ t.pc.locks := by
    rintro c t rfl ht
    have hk := hk (.tunnel c) rfl
    simpa only [wanted, TunnelService.pcOf, ht, Option.map_some, tunnelLocks] using hk
  have hrequest : ∀ {c originOk clientIp token role}, l = .request c originOk clientIp token role →
      s.tunnel.tasks.get? c = none → acquiresTunnel originOk token role = true →
        (k, LockMode.write) ∉ [(.tunnelConnections, .write)] := by
    rintro c originOk clientIp token role rfl hnew hacquires
    have hk := hk (.tunnel c) (by simp [Label.task, hacquires])
    simpa only [wanted, TunnelService.pcOf, hnew, Option.map_none, tunnelLocks] using hk
  cases TunnelService.Step.of_step hstep with
  | elapse | registerPending | registerBinding | lookupUpnp | cleanup => cases hl
  | own | forwards | ignores => exact sameMap_of_maps rfl rfl
  | denied hnew herror => exact sameMap_tunnelRequest herror rfl (hrequest rfl hnew)
  | admitted hnew hok => exact sameMap_tunnelRequest hok rfl (hrequest rfl hnew)
  | found ht hpc | waits ht hpc | stopsWaiting ht hpc =>
      have hk := hblock rfl ht
      rw [hpc] at hk
      exact sameMap_of_waiting rfl rfl hk
  | joins ht hpc | misses ht hpc =>
      have hk := hblock rfl ht
      rw [hpc] at hk
      exact sameMap_of_tokenBindings rfl rfl hk
  | releases ht hpc =>
      have hk := hblock rfl ht
      rw [hpc] at hk
      exact sameMap_of_tunnelConnections rfl rfl hk

theorem app_frame (item : Incoming) : (s.frame c h item).app = s.app := by
  have hframed := framed s c h item
  generalize s.frame c h item = s' at hframed ⊢
  cases hframed with
  | @passed len externalIp m =>
      have hdispatched := dispatched (s.put c (s.counted h)) c (s.counted h) m externalIp
      generalize (s.put c (s.counted h)).dispatch c (s.counted h) m externalIp = s''
        at hdispatched ⊢
      cases hdispatched <;> rfl
  | _ => rfl

theorem sameMap_cleanup (hstep : s.cleanupStep = some s')
    (hk : (k, .write) ∉ s.wanted .cleanup) : SameMap s s' k := by
  simp only [wanted, cleanupLocks] at hk
  unfold cleanupStep at hstep
  split at hstep
  · split at hstep <;> cases hstep
    exact sameMap_of_maps rfl rfl
  · next hpc =>
    rw [hpc] at hk
    cases hstep
    dsimp only at hk
    unfold TunnelService.cleanupStep
    split
    · next hcleanup =>
      rw [hcleanup] at hk
      exact sameMap_of_waiting rfl rfl hk
    · next expired hcleanup =>
      rw [hcleanup] at hk
      exact sameMap_of_tokenBindings rfl rfl hk
    · next hcleanup =>
      rw [hcleanup] at hk
      exact sameMap_of_upnpPending rfl rfl hk
  · cases hstep
    exact sameMap_of_maps rfl rfl
  · cases hstep
    exact sameMap_of_maps rfl rfl
  · next playerId rest hpc =>
    rw [hpc] at hk
    cases hstep
    exact sameMap_of_players rfl rfl rfl hk
  · next hostingRoom joinedRoom rest hpc =>
    rw [hpc] at hk
    cases hstep
    exact sameMap_clearRooms rfl rfl hk

/-! ## Every step -/

/-- A step changes no map whose lock its task has not taken for writing. -/
theorem sameMap_of_step {l : Label} (hstep : s.step l = some s')
    (hk : ∀ t, l.task = some t → (k, .write) ∉ s.wanted t) : SameMap s s' k := by
  cases l with
  | elapse d =>
      cases hstep
      exact sameMap_of_maps rfl rfl
  | tunnel l =>
      simp only [step] at hstep
      split at hstep
      next hl =>
        obtain ⟨tunnel, htunnel, rfl⟩ := Option.map_eq_some_iff.mp hstep
        exact sameMap_tunnel hl htunnel hk
      next => cases hstep
  | request c originOk clientIp =>
      simp only [step, request] at hstep
      split at hstep
      · cases hstep
      next hnone =>
        have happ : s'.app = (wsHandler s.app originOk clientIp).1 ∧ s'.tunnel = s.tunnel := by
          split at hstep <;> next heq => cases hstep; exact ⟨(congrArg Prod.fst heq).symm, rfl⟩
        cases originOk with
        | false => exact sameMap_of_maps happ.1 (congrArg _ happ.2)
        | true =>
            have hk := hk (.socket c) rfl
            simp only [wanted, hnone, socketLocks] at hk
            obtain ⟨conns, hconns⟩ := wsHandler_frame s.app true clientIp
            rw [hconns] at happ
            cases k with
            | connections => exact absurd (List.mem_singleton_self _) hk
            | players | rooms => rw [SameMap, happ.1]
            | waiting | tokenBindings | tunnelConnections | upnpPending => rw [SameMap, happ.2]
  | upgrade c playerId =>
      simp only [step] at hstep
      split at hstep
      · split at hstep
        · unfold upgraded at hstep
          split at hstep <;> cases hstep
          exact sameMap_of_maps rfl rfl
        · cases hstep
          exact sameMap_of_maps rfl rfl
      · cases hstep
  | frame c item =>
      obtain ⟨h, _, hstep⟩ := whenRunning_eq_some hstep
      split at hstep <;> cases hstep
      exact sameMap_of_maps (app_frame item) (congrArg _ (tunnel_frame item))
  | block c fresh =>
      obtain ⟨h, hc, hstep⟩ := whenRunning_eq_some hstep
      have hk := hk (.socket c) rfl
      simp only [wanted, hc, socketLocks] at hk
      exact sameMap_block hstep hk
  | drop c =>
      obtain ⟨h, _, hstep⟩ := whenRunning_eq_some hstep
      split at hstep <;> cases hstep
      exact sameMap_of_maps rfl rfl
  | sent c ok =>
      obtain ⟨o, _, hsent⟩ := Option.bind_eq_some_iff.mp hstep
      obtain ⟨o', _, rfl⟩ := Option.map_eq_some_iff.mp hsent
      exact sameMap_of_maps rfl rfl
  | cleanup =>
      exact sameMap_cleanup hstep (hk .cleanup rfl)

/-- The players and the rooms are changed by the block of a handler that has their lock, and by
the cleanup task. -/
theorem writer_of_step {l : Label} (hstep : s.step l = some s') (hk : k = .players ∨ k = .rooms) :
    SameMap s s' k ∨
      (∃ c fresh h, l = .block c fresh ∧ s.sockets.get? c = some (.running h) ∧
        (k, .write) ∈ h.pc.locks ∧ s.block c h fresh = some s') ∨
      (l = .cleanup ∧ s.cleanupStep = some s') := by
  by_cases hwriter : ∃ t, l.task = some t ∧ (k, .write) ∈ s.wanted t
  · right
    obtain ⟨t, htask, hwrite⟩ := hwriter
    cases l with
    | block c fresh =>
        cases htask
        obtain ⟨h, hc, hblock⟩ := whenRunning_eq_some hstep
        rw [wanted, hc] at hwrite
        exact .inl ⟨c, fresh, h, rfl, hc, hwrite, hblock⟩
    | cleanup => exact .inr ⟨rfl, hstep⟩
    | request c originOk clientIp =>
        simp only [Label.task] at htask
        split at htask <;> cases htask
        simp only [step, request] at hstep
        split at hstep
        · cases hstep
        next hnone =>
          rw [wanted, hnone] at hwrite
          rcases hk with rfl | rfl <;> simp [socketLocks] at hwrite
    | tunnel l =>
        have htunnel : ∃ c, t = .tunnel c := by
          cases l with
          | block c => exact ⟨c, (Option.some.inj htask).symm⟩
          | request c originOk clientIp token role =>
              simp only [Label.task] at htask
              split at htask <;> cases htask
              exact ⟨c, rfl⟩
          | _ => cases htask
        obtain ⟨c, rfl⟩ := htunnel
        rw [wanted] at hwrite
        exfalso
        cases hpc : s.tunnel.pcOf c with
        | none => rcases hk with rfl | rfl <;> simp [hpc, tunnelLocks] at hwrite
        | some pc =>
            rw [hpc] at hwrite
            rcases hk with rfl | rfl <;> cases pc <;> simp [tunnelLocks, Pc.locks] at hwrite
    | _ => cases htask
  · left
    exact sameMap_of_step hstep fun t htask hwrite => hwriter ⟨t, htask, hwrite⟩

end Lobby

end War3BattleTool.Server
