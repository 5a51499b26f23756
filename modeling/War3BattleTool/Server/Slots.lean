import War3BattleTool.Foundation.Slots
import War3BattleTool.Server.Badges
import War3BattleTool.Server.Handlers

set_option autoImplicit false

/-!
# Connection slots of the two services

`ws_handler` and `tunnel_handler` take a slot before the WebSocket upgrade, and the
`on_upgrade` callback gives it back.  `ledger` is the counter of a service next to the slots
its connections hold, and `ledger_step` says what each step of the server does to it.  The
callback of an upgrade that fails never runs: `rightCount_iff` says that a counter is right
exactly for the addresses of which no upgrade failed.
-/

namespace War3BattleTool.Server

open War3BattleTool.Foundation War3BattleTool.Protocol

/-- The services with a counter of their own: `/ws` and `/tunnel`. -/
inductive Service where
  | lobby
  | tunnel

/-- The limit of a service. -/
def Service.limit : Service → Nat
  | .lobby => maxConnectionsPerIp
  | .tunnel => maxTunnelConnectionsPerIp

theorem Service.limit_pos (service : Service) : 0 < service.limit := by
  cases service <;> decide

/-! ## The slots that connections hold -/

namespace Socket

/-- The address of the client. -/
def clientIp : Socket → IpAddr
  | .upgrading ip | .upgradeFailed ip => ip
  | .running h => h.clientIp

/-- The address of a connection that has neither ended nor failed to upgrade. -/
def live : Socket → Option IpAddr
  | .upgrading ip => some ip
  | .upgradeFailed _ => none
  | .running h =>
      match h.pc with
      | .released => none
      | _ => some h.clientIp

/-- The address of a connection that failed to upgrade. -/
def lost : Socket → Option IpAddr
  | .upgradeFailed ip => some ip
  | .upgrading _ | .running _ => none

theorem live_running {h : Handler} (hpc : h.pc ≠ .released) :
    (running h).live = some h.clientIp := by
  cases hpc' : h.pc <;> simp_all [live]

end Socket

namespace TunnelTask

/-- The address of a connection that has neither ended nor failed to upgrade. -/
def live (t : TunnelTask) : Option IpAddr :=
  match t.pc with
  | .upgradeFailed | .released _ => none
  | _ => some t.clientIp

/-- The address of a connection that failed to upgrade. -/
def lost (t : TunnelTask) : Option IpAddr :=
  if t.pc = .upgradeFailed then some t.clientIp else none

end TunnelTask

namespace Badge

/-- `TunnelTask.live`, by the badge. -/
def live (b : Badge) : Option IpAddr := if b.holdsSlot && !b.lost then some b.clientIp else none

/-- `TunnelTask.lost`, by the badge. -/
def lostIp (b : Badge) : Option IpAddr := if b.lost then some b.clientIp else none

theorem live_badge (t : TunnelTask) : t.badge.live = t.live := by
  unfold TunnelTask.live
  cases hpc : t.pc <;> simp [live, TunnelTask.badge, TunnelTask.holdsSlot, hpc]

theorem lostIp_badge (t : TunnelTask) : t.badge.lostIp = t.lost := by
  simp [lostIp, TunnelTask.badge, TunnelTask.lost]

end Badge

namespace TunnelService

/-- The counter of the service, and the slots its connections hold. -/
def ledger (s : TunnelService) : Ledger where
  conns := s.tunnel.connectionsPerIp
  live := s.tasks.tally TunnelTask.live
  lost := s.tasks.tally TunnelTask.lost

/-- The address whose traffic a step is. -/
def actor (s : TunnelService) : Label → Option IpAddr
  | .request _ _ ip _ _ => some ip
  | .upgrade c _ | .block c | .notified c | .timeout c | .recv c | .sent c _ | .frame c _
  | .idle c => (s.tasks.get? c).map (·.clientIp)
  | .elapse _ | .registerPending _ _ _ _ | .registerBinding _ | .lookupUpnp _ _ | .cleanup => none

/-- The address of an upgrade that fails. -/
def failures (s : TunnelService) : Label → List IpAddr
  | .upgrade c false => ((s.tasks.get? c).map (·.clientIp)).toList
  | _ => []

theorem tally_live (s : TunnelService) :
    s.tasks.tally TunnelTask.live = s.tasks.tally fun t => t.badge.live := by
  simp only [Badge.live_badge]

theorem tally_lost (s : TunnelService) :
    s.tasks.tally TunnelTask.lost = s.tasks.tally fun t => t.badge.lostIp := by
  simp only [Badge.lostIp_badge]

section Steps

variable {s s' : TunnelService} {c : ConnId} {b b' : Badge}

theorem clientIp_of_badge (hb : s.badge c = some b) :
    (s.tasks.get? c).map (·.clientIp) = some b.clientIp := by
  obtain ⟨t, ht, rfl⟩ := Option.map_eq_some_iff.mp hb
  simp [ht, TunnelTask.badge]

/-- The badge of one connection changes. -/
theorem shifts_of_badge (hb : s.badge c = some b)
    (h : s'.badge = Function.update s.badge c (some b')) :
    Shifts s.ledger.live s'.ledger.live b.live b'.live ∧
      Shifts s.ledger.lost s'.ledger.lost b.lostIp b'.lostIp := by
  simp only [ledger, tally_live, tally_lost]
  exact ⟨Table.tally_of_update Badge.live rfl rfl hb h,
    Table.tally_of_update Badge.lostIp rfl rfl hb h⟩

/-- What a step does to the slots. -/
theorem ledger_step {l : Label} (h : s.step l = some s') :
    Ledger.Step maxTunnelConnectionsPerIp s.ledger s'.ledger (s.actor l) (s.failures l) := by
  by_cases hfails : ∃ c, l = .upgrade c false
  · obtain ⟨c, rfl⟩ := hfails
    obtain ⟨b, hb, hholds, hlost, hbadge, hconns⟩ := badge_upgradeFails h
    obtain ⟨hlive', hlost'⟩ := shifts_of_badge hb hbadge
    have hip : (s.tasks.get? c).map (·.clientIp) = some b.clientIp := clientIp_of_badge hb
    simp only [actor, failures, hip, Option.toList]
    exact .loses (by simpa [Badge.live, hholds, hlost] using hlive')
      (by simpa [Badge.lostIp, hlost] using hlost') hconns
  · have hnone : s.failures l = [] := by cases l <;> simp_all [failures]
    have hsame : s'.badge = s.badge → s'.ledger.live = s.ledger.live ∧
        s'.ledger.lost = s.ledger.lost := by
      intro hbadge
      simp only [ledger, tally_live, tally_lost]
      exact ⟨Table.tally_of_same Badge.live rfl rfl hbadge,
        Table.tally_of_same Badge.lostIp rfl rfl hbadge⟩
    rw [hnone]
    cases handles_step h with
    | keeps hbadge hconns => exact .keeps (hsame hbadge).1 (hsame hbadge).2 hconns
    | refuses hbadge hfull hconns =>
        exact .refuses hfull (hsame hbadge).1 (hsame hbadge).2 hconns
    | @admits c _ ip token role hfresh _ hbadge hfree hconns =>
        refine .admits hfree ?_ ?_ hconns
        · simp only [ledger, tally_live]
          exact Table.tally_of_new Badge.live rfl rfl hfresh hbadge
        · simp only [ledger, tally_lost]
          exact (Table.tally_of_new Badge.lostIp rfl rfl hfresh hbadge).eq
    | @loses c => exact absurd ⟨c, rfl⟩ hfails
    | @verifies c b binding hb _ _ hbadge hconns =>
        obtain ⟨hlive, hlost⟩ := shifts_of_badge hb hbadge
        exact .keeps hlive.eq hlost.eq hconns
    | @releases c b hb hholds hlost hbadge hconns =>
        obtain ⟨hlive', hlost'⟩ := shifts_of_badge hb hbadge
        have hip : (s.tasks.get? c).map (·.clientIp) = some b.clientIp := clientIp_of_badge hb
        simp only [actor, hip]
        refine .releases ?_ hlost'.eq hconns
        simpa [Badge.live, hholds, hlost] using hlive'

end Steps

end TunnelService

namespace Lobby

/-- The counter of a service, and the slots its connections hold. -/
def ledger (s : Lobby) : Service → Ledger
  | .lobby =>
      { conns := s.app.connectionsPerIp
        live := s.sockets.tally Socket.live
        lost := s.sockets.tally Socket.lost }
  | .tunnel => s.tunnel.ledger

/-- The stored count of an address. -/
def stored (s : Lobby) (service : Service) (ip : IpAddr) : Option Nat :=
  (s.ledger service).conns.get? ip

/-- The number of admitted connections of an address that have neither ended nor failed to
upgrade. -/
def live (s : Lobby) (service : Service) (ip : IpAddr) : Nat := (s.ledger service).live ip

/-- The address whose traffic at the service a step is. -/
def actor (s : Lobby) (service : Service) (l : Label) : Option IpAddr :=
  match service, l with
  | .lobby, .request _ _ ip => some ip
  | .lobby, .upgrade c _ | .lobby, .frame c _ | .lobby, .block c _ | .lobby, .drop c
  | .lobby, .sent c _ => (s.sockets.get? c).map (·.clientIp)
  | .tunnel, .tunnel l => s.tunnel.actor l
  | _, _ => none

/-- The address of an upgrade at the service that fails. -/
def failures (service : Service) (s : Lobby) (l : Label) : List IpAddr :=
  match service, l with
  | .lobby, .upgrade c none => ((s.sockets.get? c).map (·.clientIp)).toList
  | .tunnel, .tunnel l => s.tunnel.failures l
  | _, _ => []

variable {s s' : Lobby} {c : SocketId}

/-- The steps that the lobby makes on the tunnel service are no traffic there. -/
theorem traffic_blockTunnelLabel {tunnel : TunnelService} {h : Handler} {fresh : String}
    {l : TunnelService.Label} (hl : blockTunnelLabel h fresh = some l) :
    tunnel.actor l = none ∧ tunnel.failures l = [] := by
  unfold blockTunnelLabel at hl
  split at hl
  all_goals cases hl
  all_goals exact ⟨rfl, rfl⟩

/-- What a step does to the slots of the tunnel service. -/
theorem ledger_step_tunnel {l : Label} (hstep : s.step l = some s') :
    Ledger.Step maxTunnelConnectionsPerIp (s.ledger .tunnel) (s'.ledger .tunnel)
      (s.actor .tunnel l) (failures .tunnel s l) := by
  have hmoves := tunnelMoves_of_step hstep
  -- A step that is no traffic at the tunnel service, whether that service moves or not.
  have hquiet : ∀ l', TunnelMoves s s' l' →
      (∀ l'', l' = some l'' → s.tunnel.actor l'' = none ∧ s.tunnel.failures l'' = []) →
      Ledger.Step maxTunnelConnectionsPerIp (s.ledger .tunnel) (s'.ledger .tunnel) none [] := by
    intro l' hl' htraffic
    cases l' with
    | none =>
        have htunnel : s'.tunnel = s.tunnel := hl'
        simp only [ledger, htunnel]
        exact .keeps rfl rfl rfl
    | some l'' =>
        obtain ⟨hactor, hfailures⟩ := htraffic l'' rfl
        have hledger := TunnelService.ledger_step hl'
        rwa [hactor, hfailures] at hledger
  cases l with
  | tunnel l => exact TunnelService.ledger_step hmoves
  | elapse d => exact TunnelService.ledger_step hmoves
  | request | upgrade | frame | drop | sent => exact hquiet _ hmoves (by simp [tunnelLabel])
  | cleanup =>
      refine hquiet _ hmoves fun l'' hl'' => ?_
      simp only [tunnelLabel] at hl''
      split at hl''
      all_goals cases hl''
      exact ⟨rfl, rfl⟩
  | block c fresh =>
      refine hquiet _ hmoves fun l'' hl'' => ?_
      simp only [tunnelLabel] at hl''
      split at hl''
      · exact traffic_blockTunnelLabel hl''
      · cases hl''

/-- One socket changes. -/
theorem shifts_of_sockets {x x' : Socket} {sockets' : Table SocketId Socket}
    (hc : s.sockets.get? c = some x)
    (h : sockets'.get? = Function.update s.sockets.get? c (some x')) :
    Shifts (s.ledger .lobby).live (sockets'.tally Socket.live) x.live x'.live ∧
      Shifts (s.ledger .lobby).lost (sockets'.tally Socket.lost) x.lost x'.lost :=
  ⟨Table.tally_of_entry Socket.live hc h, Table.tally_of_entry Socket.lost hc h⟩

/-- A handler that keeps its slot. -/
theorem ledger_step_proceeds {h : Handler} {actor : Option IpAddr}
    (hc : s.sockets.get? c = some (.running h)) (hpc : h.pc ≠ .released)
    (hproceeds : Proceeds s s' c h) :
    Ledger.Step maxConnectionsPerIp (s.ledger .lobby) (s'.ledger .lobby) actor [] := by
  obtain ⟨h', hmoves, hpc', hconns⟩ := hproceeds
  obtain ⟨hlive, hlost⟩ := shifts_of_sockets hc hmoves.sockets
  rw [Socket.live_running hpc, Socket.live_running hpc', hmoves.clientIp] at hlive
  exact .keeps hlive.eq hlost.eq hconns

theorem get?_modify_sockets {x : Socket} (hc : s.sockets.get? c = some x) (x' : Socket) :
    (s.sockets.modify c fun _ => x').get? = Function.update s.sockets.get? c (some x') := by
  funext c'
  rw [Function.update_apply, Table.get?_modify]
  split
  · next heq => simp [heq, hc]
  · rfl

/-- The outcome of admission, by the counters it leaves. -/
theorem wsHandler_cases (a : AppState) (originOk : Bool) (ip : IpAddr) :
    let acquired := acquireSlot maxConnectionsPerIp a.connectionsPerIp ip
    match wsHandler a originOk ip with
    | (a', .ok _) => acquired.2 = true ∧ a'.connectionsPerIp = acquired.1
    | (a', .error _) => a' = a ∨ acquired.2 = false ∧ a'.connectionsPerIp = acquired.1 := by
  dsimp only
  unfold wsHandler
  cases originOk with
  | false => exact .inl rfl
  | true =>
      simp only [Bool.not_true, Bool.false_eq_true, if_false, AppState.tryAcquireConnection]
      -- The handler branches on what `try_acquire` answers.
      cases hslot : acquireSlot maxConnectionsPerIp a.connectionsPerIp ip with
      | mk connections acquired =>
          cases acquired with
          | true => exact ⟨rfl, rfl⟩
          | false => exact .inr ⟨rfl, rfl⟩

theorem ledger_step_request {originOk : Bool} {ip : IpAddr}
    (hstep : s.step (.request c originOk ip) = some s') :
    Ledger.Step maxConnectionsPerIp (s.ledger .lobby) (s'.ledger .lobby) (some ip) [] := by
  have hcases := wsHandler_cases s.app originOk ip
  simp only [step, request] at hstep
  split at hstep
  · cases hstep
  · next hfresh =>
    split at hstep
    · next app hok =>
      cases hstep
      simp only [hok] at hcases
      refine .admits hcases.1 ?_ ?_ hcases.2
      · exact Table.tally_insert Socket.live hfresh
      · have hlost := Table.tally_insert (v := .upgrading ip) Socket.lost hfresh
        exact hlost.eq
    · next app error herror =>
      cases hstep
      simp only [herror] at hcases
      obtain rfl | ⟨hfull, hconns⟩ := hcases
      · exact .keeps rfl rfl rfl
      · exact .refuses hfull rfl rfl hconns

theorem cleanupStep_frame (hstep : s.cleanupStep = some s') :
    s'.sockets = s.sockets ∧ s'.app.connectionsPerIp = s.app.connectionsPerIp := by
  unfold cleanupStep at hstep
  split at hstep
  · split at hstep
    · cases hstep
      exact ⟨rfl, rfl⟩
    · cases hstep
  · cases hstep
    exact ⟨rfl, rfl⟩
  · cases hstep
    exact ⟨rfl, rfl⟩
  · cases hstep
    exact ⟨rfl, rfl⟩
  · cases hstep
    exact ⟨rfl, rfl⟩
  · cases hstep
    exact ⟨rfl, s.app.connectionsPerIp_clearRooms _ _⟩

/-- What a step does to the slots of the lobby. -/
theorem ledger_step_lobby {l : Label} (hstep : s.step l = some s') :
    Ledger.Step maxConnectionsPerIp (s.ledger .lobby) (s'.ledger .lobby) (s.actor .lobby l)
      (failures .lobby s l) := by
  cases l with
  | elapse d =>
      cases hstep
      exact .keeps rfl rfl rfl
  | tunnel l =>
      simp only [step] at hstep
      split at hstep
      · obtain ⟨tunnel, _, rfl⟩ := Option.map_eq_some_iff.mp hstep
        exact .keeps rfl rfl rfl
      · cases hstep
  | request c originOk ip => exact ledger_step_request hstep
  | upgrade c playerId =>
      simp only [step] at hstep
      split at hstep
      · next ip hc =>
        cases playerId with
        | some playerId =>
            simp only [upgraded] at hstep
            split at hstep
            · cases hstep
            · cases hstep
              obtain ⟨hlive, hlost⟩ := shifts_of_sockets hc
                (get?_modify_sockets hc (.running (.start ip playerId s.now)))
              exact .keeps hlive.eq hlost.eq rfl
        | none =>
            cases hstep
            obtain ⟨hlive, hlost⟩ := shifts_of_sockets hc
              (get?_modify_sockets hc (.upgradeFailed ip))
            simp only [actor, failures, hc]
            exact .loses hlive hlost rfl
      · cases hstep
  | frame c item =>
      obtain ⟨h, hc, hframe⟩ := whenRunning_eq_some hstep
      cases hpc : h.pc with
      | receiving =>
          simp only [hpc, Option.some.injEq] at hframe
          subst hframe
          exact ledger_step_proceeds hc (by simp [hpc]) (proceeds_frame hc (by simp [hpc]) item)
      | _ => simp [hpc] at hframe
  | block c fresh =>
      obtain ⟨h, hc, hblock⟩ := whenRunning_eq_some hstep
      by_cases hpc : h.pc = .returned
      · simp only [block, hpc, Option.some.injEq] at hblock
        subst hblock
        obtain ⟨hlive, hlost⟩ := shifts_of_sockets hc
          (get?_modify_sockets hc (.running { h with pc := .released }))
        rw [Socket.live_running (by simp [hpc])] at hlive
        simp only [actor, hc, Option.map_some]
        exact .releases hlive hlost.eq rfl
      · refine ledger_step_proceeds hc ?_ (proceeds_block hc hblock hpc)
        intro hpc'
        simp [block, hpc'] at hblock
  | drop c =>
      obtain ⟨h, hc, hdrop⟩ := whenRunning_eq_some hstep
      split at hdrop
      · next hloses =>
        cases hdrop
        refine ledger_step_proceeds hc ?_ (proceeds_exit hc)
        intro hpc
        simp [loopLoses, hpc, HandlerPc.inLoop] at hloses
      · cases hdrop
  | sent c ok =>
      obtain ⟨o, _, hsent⟩ := Option.bind_eq_some_iff.mp hstep
      obtain ⟨o', _, rfl⟩ := Option.map_eq_some_iff.mp hsent
      exact .keeps rfl rfl rfl
  | cleanup =>
      obtain ⟨hsockets, hconns⟩ := cleanupStep_frame hstep
      exact .keeps (by simp [ledger, hsockets]) (by simp [ledger, hsockets]) hconns

theorem ledger_step (service : Service) {l : Label} (hstep : s.step l = some s') :
    Ledger.Step service.limit (s.ledger service) (s'.ledger service) (s.actor service l)
      (failures service s l) := by
  cases service with
  | lobby => exact ledger_step_lobby hstep
  | tunnel => exact ledger_step_tunnel hstep

/-! ## Whole runs -/

/-- In every run the counters show the slots held, and every slot lost is one of an upgrade
that failed. -/
theorem ledger_of_trace {service : Service} {events : List IpAddr}
    (htrace : machine.Trace (failures service) events s) :
    (s.ledger service).Sound service.limit ∧
      ∀ ip, (s.ledger service).lost ip = events.count ip := by
  refine htrace.invariant (I := fun events s => (s.ledger service).Sound service.limit ∧
    ∀ ip, (s.ledger service).lost ip = events.count ip) ?_ ?_
  · cases service with
    | lobby | tunnel => exact ⟨.empty, fun _ => rfl⟩
  · intro events s l s' _ ⟨hsound, hlost⟩ hstep
    have hledger := ledger_step service hstep
    refine ⟨hsound.step service.limit_pos hledger, fun ip => ?_⟩
    rw [hledger.lost, hlost, List.count_append]

/-- A request to the service that is turned away. -/
inductive Rejected (s : Lobby) : Service → Label → Prop
  | lobby {c : SocketId} {originOk : Bool} {ip : IpAddr} {r : Rejection}
      (h : (wsHandler s.app originOk ip).2 = .error r) :
      Rejected s .lobby (.request c originOk ip)
  | tunnel {c : ConnId} {originOk : Bool} {ip : IpAddr} {token role : Option String}
      {r : Rejection} (h : (tunnelHandler s.tunnel.tunnel originOk ip token role).2 = .error r) :
      Rejected s .tunnel (.tunnel (.request c originOk ip token role))

/-- Every well-formed request of the address to the service would be admitted. -/
def CanConnect (s : Lobby) (ip : IpAddr) : Service → Prop
  | .lobby => (wsHandler s.app true ip).2 = .ok ()
  | .tunnel => ∀ token role, token ≠ "" → (role = "host" ∨ role = "join") →
      (tunnelHandler s.tunnel.tunnel true ip (some token) (some role)).2 = .ok (token, role)

/-- The counter of an address at a service is right. -/
structure RightCount (s : Lobby) (service : Service) (ip : IpAddr) : Prop where
  /-- it shows the live connections, and nothing when there is none -/
  exact : s.stored service ip =
    if s.live service ip = 0 then none else some (s.live service ip)
  bounded : ∀ n, s.stored service ip = some n → n ≤ service.limit
  /-- a rejected request leaves it unchanged -/
  rejected : ∀ l s', s.Rejected service l → s.step l = some s' →
    s'.stored service ip = s.stored service ip
  /-- and so does the traffic of another address -/
  others : ∀ l s', s.actor service l ≠ some ip → s.step l = some s' →
    s'.stored service ip = s.stored service ip
  /-- without a live connection, the address can always connect -/
  admits : s.live service ip = 0 → s.CanConnect ip service

/-- A rejected request leaves every counter unchanged. -/
theorem stored_of_rejected {service : Service} {l : Label} {ip : IpAddr}
    (hsound : (s.ledger service).Sound service.limit) (hrejected : s.Rejected service l)
    (hstep : s.step l = some s') : s'.stored service ip = s.stored service ip := by
  cases hrejected with
  | @lobby c originOk ip' r hr =>
      have hcases := wsHandler_cases s.app originOk ip'
      simp only [step, request] at hstep
      split at hstep
      · cases hstep
      · split at hstep
        · next app hok => simp [hok] at hr
        · next app error herror =>
          cases hstep
          simp only [herror] at hcases
          obtain rfl | ⟨hfull, hconns⟩ := hcases
          · rfl
          · exact (congrArg (·.get? ip) hconns).trans
              (hsound.refuse (Service.limit_pos .lobby) hfull ip)
  | @tunnel c originOk ip' token role r hr =>
      have hcases := TunnelService.tunnelHandler_cases s.tunnel.tunnel originOk ip' token role
      simp only [step, isTunnelStep, if_true] at hstep
      obtain ⟨tunnel, htunnel, rfl⟩ := Option.map_eq_some_iff.mp hstep
      cases TunnelService.Step.of_step htunnel with
      | own _ hown => cases hown
      | admitted _ hok => simp [hok] at hr
      | denied _ herror =>
          simp only [herror] at hcases
          obtain hsame | ⟨hfull, hconns⟩ := hcases
          · exact congrArg (·.connectionsPerIp.get? ip) hsame
          · exact (congrArg (·.get? ip) hconns).trans
              (hsound.refuse (Service.limit_pos .tunnel) hfull ip)

/-- Below the limit every well-formed request is admitted. -/
theorem canConnect_of_lt {service : Service} {ip : IpAddr}
    (hsound : (s.ledger service).Sound service.limit)
    (hfree : (s.ledger service).held ip < service.limit) : s.CanConnect ip service := by
  have hgranted := hsound.acquire_iff.mpr hfree
  cases service with
  | lobby =>
      have hacquired : (s.app.tryAcquireConnection ip).2 = true := hgranted
      unfold CanConnect wsHandler
      rw [← Prod.mk.eta (p := s.app.tryAcquireConnection ip), hacquired]
      rfl
  | tunnel =>
      have hacquired : (s.tunnel.tunnel.tryAcquireTunnelConnection ip).2 = true := hgranted
      intro token role htoken hrole
      simp only [tunnelHandler, Bool.not_true, Bool.false_eq_true, if_false, htoken, hrole,
        if_true]
      rw [← Prod.mk.eta (p := s.tunnel.tunnel.tryAcquireTunnelConnection ip), hacquired]

/-- The counter of an address is right if and only if no upgrade of that address failed. -/
theorem rightCount_iff {service : Service} {events : List IpAddr} {ip : IpAddr}
    (htrace : machine.Trace (failures service) events s) :
    s.RightCount service ip ↔ ip ∉ events := by
  obtain ⟨hsound, hlost⟩ := ledger_of_trace htrace
  rw [← List.count_eq_zero, ← hlost ip]
  constructor
  · intro hright
    exact hsound.eq_live_iff.mp hright.exact
  · intro hzero
    have hheld : (s.ledger service).held ip = s.live service ip := by
      simp [Ledger.held, live, hzero]
    refine ⟨hsound.eq_live_iff.mpr hzero, ?_, ?_, ?_, ?_⟩
    · intro n hn
      have hcount := hsound.counts.getD_eq ip
      have hbound := hsound.bounded ip
      rw [show (s.ledger service).conns.get? ip = some n from hn] at hcount
      simp only [Option.getD_some] at hcount
      omega
    · intro l s' hrejected hstep
      exact stored_of_rejected hsound hrejected hstep
    · intro l s' hactor hstep
      exact hsound.other service.limit_pos (ledger_step service hstep) hactor
    · intro hlive
      refine canConnect_of_lt hsound ?_
      rw [hheld, hlive]
      exact service.limit_pos

/-- A client connects, and its upgrade completes. -/
theorem rightCount_connected : ∃ s, machine.exec start
    [.request 1 true (.v4 7), .upgrade 1 (some "a")] = some s ∧
      s.live .lobby (.v4 7) = 1 ∧ s.RightCount .lobby (.v4 7) := by
  have hrun : (machine.exec machine.init
      [.request 1 true (.v4 7), .upgrade 1 (some "a")]).any
        (fun s => decide (s.live .lobby (.v4 7) = 1)) = true := by decide
  obtain ⟨s, hexec, _, hlive⟩ := Machine.exists_reachable_of_exec hrun
  refine ⟨s, hexec, by simpa using hlive, ?_⟩
  exact (rightCount_iff (Machine.trace_of_exec hexec)).mpr (by decide)

/-- The same client asks ten times, and every upgrade fails. -/
def failsToUpgrade (ip : IpAddr) : List Label :=
  (List.range 10).flatMap fun c => [.request c true ip, .upgrade c none]

/-- After ten failed upgrades the address has no connection, and can get none. -/
theorem not_always_rightCount : ¬ ∀ s, machine.Reachable s → ∀ service ip,
    s.RightCount service ip := by
  intro hall
  have hrun : (machine.exec machine.init (failsToUpgrade (.v4 7))).any
      (fun s => decide (s.live .lobby (.v4 7) = 0) &&
        match (wsHandler s.app true (.v4 7)).2 with
        | .ok _ => false
        | .error _ => true) = true := by decide
  obtain ⟨s, _, hreach, hs⟩ := Machine.exists_reachable_of_exec hrun
  obtain ⟨hlive, hrefused⟩ := Bool.and_eq_true_iff.mp hs
  have hadmits : (wsHandler s.app true (.v4 7)).2 = .ok () :=
    (hall s hreach .lobby (.v4 7)).admits (by simpa using hlive)
  rw [hadmits] at hrefused
  cases hrefused

end Lobby

end War3BattleTool.Server
