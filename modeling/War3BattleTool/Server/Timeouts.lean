import War3BattleTool.Foundation.Sweeps
import War3BattleTool.Server.Expiry
import War3BattleTool.Server.Standing

set_option autoImplicit false

/-!
# Nothing outlives its timeout

The cleanup task sweeps three tables: the players, the parties that wait for their peer, and the
UPnP entries (`Foundation.Sweep`).  If the server does its own work promptly (`prompt`), no entry
of them is overdue by more than the interval of the cleanup (`overdue_of_reachable`).  The
discipline never stops the clock (`clock_goes_on`).
-/

namespace War3BattleTool.Server

open War3BattleTool.Foundation War3BattleTool.Protocol

/-! ## Deadlines -/

/-- When `find_expired` begins to list the player. -/
def ConnectedPlayer.deadline (p : ConnectedPlayer) : Instant :=
  match p.disconnectedAt with
  | some at_ => at_ + gracePeriod
  | none => p.lastHeartbeat + heartbeatTimeout

/-- When a waiting party times out. -/
def WaitingPeer.deadline (w : WaitingPeer) : Instant := w.createdAt + pairingTimeout

/-- When a UPnP entry is past its time to live. -/
def UPnPPending.deadline (e : UPnPPending) : Instant := e.createdAt + upnpPendingTtl

/-- The handler is about to insert its player. -/
def HandlerPc.inserts : HandlerPc → Bool
  | .registerInsert _ _ _ => true
  | _ => false

/-- The cleanup task as a sweeper of the players. -/
def CleanupTask.playersPhase : CleanupTask → SweepPhase String
  | .tick => .rest
  | .tunnels | .findExpired => .ahead
  | .removePlayers expired | .removeRooms _ _ expired => .removing expired

/-- The cleanup task as a sweeper of the waiting parties, which it removes in one block. -/
def CleanupTask.waitingPhase (cleanup : CleanupTask) (tunnel : CleanupPc) : SweepPhase String :=
  match cleanup, tunnel with
  | .tick, _ => .rest
  | .tunnels, .removeWaiting => .ahead
  | _, _ => .removing []

/-- The cleanup task as a sweeper of the UPnP entries. -/
def CleanupTask.upnpPhase : CleanupTask → SweepPhase String
  | .tick => .rest
  | .tunnels => .ahead
  | _ => .removing []

theorem ConnectedPlayer.le_deadline {p : ConnectedPlayer} {now : Instant}
    (h : p.expired now = false) : now ≤ p.deadline := by
  cases hat : p.disconnectedAt with
  | some at_ =>
      simp only [expired, hat] at h
      simp only [deadline, hat]
      exact Nat.sub_le_iff_le_add'.mp (Nat.le_of_not_lt (of_decide_eq_false h))
  | none =>
      simp only [expired, hat] at h
      simp only [deadline, hat]
      exact Nat.sub_le_iff_le_add'.mp (Nat.le_of_not_lt (of_decide_eq_false h))

theorem UPnPPending.le_deadline {e : UPnPPending} {now : Instant}
    (h : elapsed now e.createdAt < upnpPendingTtl) : now ≤ e.deadline :=
  Nat.sub_le_iff_le_add'.mp (Nat.le_of_lt h)

theorem WaitingPeer.le_deadline {w : WaitingPeer} {now : Instant}
    (h : TunnelState.waitingExpired now w = false) : now ≤ w.deadline :=
  Nat.sub_le_iff_le_add'.mp (Nat.le_of_not_lt (of_decide_eq_false h))

/-- Only the block of the player limit leads to the insert of a player. -/
theorem LeadsTo.registerInsert_cases {pc : HandlerPc} {nickname : String}
    {war3Version : War3Version} {now : Instant}
    (h : LeadsTo pc (.registerInsert nickname war3Version now)) :
    pc = .registerCount nickname war3Version := by
  cases h
  rfl

/-! ## The tables of the tunnel service -/

/-- The tables of the tunnel service hold what they held before, and what was put in now. -/
structure TunnelService.Ages (s s' : TunnelService) : Prop where
  now : s'.now = s.now
  waiting : ∀ {token peer}, s'.tunnel.waiting.get? token = some peer →
    s.tunnel.waiting.get? token = some peer ∨ peer.createdAt = s.now
  upnp : ∀ {token entry}, s'.tunnel.upnpPending.get? token = some entry →
    s.tunnel.upnpPending.get? token = some entry ∨ entry.createdAt = s.now

namespace TunnelService

variable {s s' : TunnelService} {c : ConnId} {t : TunnelTask}

theorem Ages.of_maps (hnow : s'.now = s.now) (hwaiting : s'.tunnel.waiting = s.tunnel.waiting)
    (hupnp : s'.tunnel.upnpPending = s.tunnel.upnpPending) : Ages s s' where
  now := hnow
  waiting h := .inl (hwaiting ▸ h)
  upnp h := .inl (hupnp ▸ h)

/-- Who waits under a token is removed. -/
theorem Ages.remove {token : String} (hnow : s'.now = s.now)
    (hwaiting : s'.tunnel.waiting = s.tunnel.waiting.remove token)
    (hupnp : s'.tunnel.upnpPending = s.tunnel.upnpPending) : Ages s s' where
  now := hnow
  waiting h := .inl (Table.get?_of_remove (hwaiting ▸ h))
  upnp h := .inl (hupnp ▸ h)

theorem ages_registerWaiting : Ages s (s.registerWaiting c t) := by
  refine ⟨rfl, fun {token peer} h => ?_, fun h => .inl h⟩
  have h : (s.tunnel.waiting.insert t.token ⟨c, c, t.role, s.now⟩).get? token = some peer := h
  rw [Table.get?_insert] at h
  split at h
  · cases h
    exact .inr rfl
  · exact .inl h

/-- Nobody but the clock and the cleanup takes an entry of the tables for an older one. -/
theorem ages_of_step {l : Label} (helapse : ∀ d, l ≠ .elapse d) (hcleanup : l ≠ .cleanup)
    (h : s.step l = some s') : Ages s s' := by
  cases Step.of_step h with
  | elapse d => exact absurd rfl (helapse d)
  | cleanup => exact absurd rfl hcleanup
  | registerPending | lookupUpnp =>
      refine ⟨rfl, .inl, fun hentry => ?_⟩
      obtain hold | ⟨_, _, _, _, rfl⟩ := upnpPending_of_step h hentry
      · exact .inl hold
      · exact .inr rfl
  | registerBinding | denied | admitted | own | joins | misses | releases | forwards | ignores =>
      exact .of_maps rfl rfl rfl
  | found | stopsWaiting => exact .remove rfl rfl rfl
  | waits => exact ages_registerWaiting

theorem now_cleanupStep (s : TunnelService) : s.cleanupStep.now = s.now := by
  unfold cleanupStep
  split <;> rfl

end TunnelService

namespace Lobby

variable {s s' : Lobby} {c : SocketId} {h : Handler}

/-! ## The players -/

/-- Every player was there before, due no later, or is not due yet. -/
def RenewsPlayers (s s' : Lobby) : Prop :=
  ∀ id p', s'.app.players.get? id = some p' →
    (∃ p, s.app.players.get? id = some p ∧ p.deadline ≤ p'.deadline) ∨ s.now ≤ p'.deadline

theorem RenewsPlayers.of_players (hplayers : s'.app.players = s.app.players) :
    RenewsPlayers s s' :=
  fun _ p' hp' => .inl ⟨p', hplayers ▸ hp', Nat.le_refl _⟩

/-- One player changes, and is due no earlier or not due yet. -/
theorem RenewsPlayers.of_modify {playerId : String} {f : ConnectedPlayer → ConnectedPlayer}
    (hplayers : s'.app.players = s.app.players.modify playerId f)
    (hf : ∀ p, p.deadline ≤ (f p).deadline ∨ s.now ≤ (f p).deadline) : RenewsPlayers s s' := by
  intro id p' hp'
  rw [hplayers, Table.get?_modify] at hp'
  split at hp'
  · obtain ⟨p, hp, rfl⟩ := Option.map_eq_some_iff.mp hp'
    exact (hf p).imp_left fun hle => ⟨p, hp, hle⟩
  · exact .inl ⟨p', hp', Nat.le_refl _⟩

/-- A player comes in that is not due yet. -/
theorem RenewsPlayers.of_insert {playerId : String} {player : ConnectedPlayer}
    (hplayers : s'.app.players = s.app.players.insert playerId player)
    (hnew : s.now ≤ player.deadline) : RenewsPlayers s s' := by
  intro id p' hp'
  rw [hplayers, Table.get?_insert] at hp'
  split at hp'
  · cases hp'
    exact .inr hnew
  · exact .inl ⟨p', hp', Nat.le_refl _⟩

theorem RenewsPlayers.of_remove {playerId : String}
    (hplayers : s'.app.players = s.app.players.remove playerId) : RenewsPlayers s s' := by
  intro id p' hp'
  rw [hplayers] at hp'
  exact .inl ⟨p', Table.get?_of_remove hp', Nat.le_refl _⟩

/-- A heartbeat puts the deadline of a player off. -/
theorem deadline_heartbeat (now : Instant) (p : ConnectedPlayer) :
    p.deadline ≤ { p with lastHeartbeat := now }.deadline ∨
      now ≤ { p with lastHeartbeat := now }.deadline := by
  unfold ConnectedPlayer.deadline
  cases hat : p.disconnectedAt with
  | some at_ => exact .inl (by simp)
  | none => exact .inr (by simp)

/-- A handler that is about to insert its player took the time just now. -/
structure Punctual (s : Lobby) : Prop where
  time : ∀ {c h nickname war3Version lastHeartbeat}, s.sockets.get? c = some (.running h) →
    h.pc = .registerInsert nickname war3Version lastHeartbeat → lastHeartbeat = s.now

theorem renewsPlayers_arm {fresh : String} {pc : HandlerPc} (harm : Arm s c h fresh pc s')
    (hpunctual : ∀ nickname war3Version lastHeartbeat,
      pc = .registerInsert nickname war3Version lastHeartbeat → lastHeartbeat = s.now) :
    RenewsPlayers s s' := by
  cases harm with
  | registerInsert nickname war3Version lastHeartbeat =>
      obtain rfl := hpunctual nickname war3Version lastHeartbeat rfl
      unfold registerInsert
      split
      · exact .of_insert rfl (Nat.le_add_right _ _)
      · exact .of_insert rfl (Nat.le_add_right _ _)
  | heartbeat =>
      exact .of_modify (f := fun p => { p with lastHeartbeat := s.now }) rfl
        (deadline_heartbeat s.now)
  | leaving =>
      unfold leaving
      split
      · unfold AppState.takePlayer
        cases hp : s.app.players.get? h.playerId with
        | some p => exact .of_remove rfl
        | none => exact .of_players rfl
      · exact .of_modify (f := fun p => { p with disconnectedAt := some s.now }) rfl
          fun _ => .inr (Nat.le_add_right _ _)
  | createLink roomId =>
      exact .of_modify (f := fun p => { p with hostingRoom := some roomId }) rfl
        fun _ => .inl (Nat.le_refl _)
  | closeTake =>
      exact .of_modify (f := fun p => { p with hostingRoom := none }) rfl
        fun _ => .inl (Nat.le_refl _)
  | joinRecord ticket =>
      have hjoined : ∀ p : ConnectedPlayer, p.deadline ≤
          { p with joinedRoom := some ticket.quote.roomId }.deadline ∨
            s.now ≤ { p with joinedRoom := some ticket.quote.roomId }.deadline :=
        fun _ => .inl (Nat.le_refl _)
      unfold joinRecord
      dsimp only
      split
      · exact .of_modify rfl hjoined
      · exact .of_modify rfl hjoined
  | createInsert draft hstep =>
      unfold createInsert at hstep
      split at hstep
      · cases hstep
      · obtain rfl := Option.some.inj hstep
        exact .of_players rfl
  | joinRegisterPending ticket hstep | joinRegisterBinding ticket tunnelToken hstep =>
      obtain ⟨_, _, rfl⟩ := Option.map_eq_some_iff.mp hstep
      exact .of_players rfl
  | joinReserve ticket =>
      unfold joinReserve AppState.reserveSlot
      cases s.app.rooms.get? ticket.quote.roomId with
      | none => exact .of_players rfl
      | some room =>
          dsimp only
          by_cases hfull : room.maxPlayers ≤ room.currentPlayers
          · rw [if_pos hfull]
            exact .of_players rfl
          · rw [if_neg hfull]
            exact .of_players rfl
  | removeRooms hostingRoom joinedRoom =>
      unfold removeRooms
      rw [clearRooms_eq]
      exact .of_players rfl
  | registerCount | createRead | createCount | upnpForward | joinRoom | joinPlayers =>
      dsimp only [registerCount, createRead, createCount, upnpForward, joinRoom, joinPlayers]
      repeat' split
      all_goals exact .of_players rfl
  | broadcast | closeRemove | upnpLookup | joinReleaseOld | finalBroadcast | returned =>
      exact .of_players rfl

theorem players_frame (item : Incoming) : (s.frame c h item).app.players = s.app.players := by
  have hframed := framed s c h item
  generalize s.frame c h item = s' at hframed ⊢
  cases hframed with
  | @passed len externalIp m =>
      have hdispatched := dispatched (s.put c (s.counted h)) c (s.counted h) m externalIp
      generalize (s.put c (s.counted h)).dispatch c (s.counted h) m externalIp = s''
        at hdispatched ⊢
      cases hdispatched <;> rfl
  | _ => rfl

theorem renewsPlayers_of_step {l : Label} (hl : l ≠ .cleanup) (hpunctual : s.Punctual)
    (hstep : s.step l = some s') : RenewsPlayers s s' := by
  cases l with
  | cleanup => exact absurd rfl hl
  | elapse d =>
      cases hstep
      exact .of_players rfl
  | tunnel l =>
      simp only [step] at hstep
      split at hstep
      · obtain ⟨_, _, rfl⟩ := Option.map_eq_some_iff.mp hstep
        exact .of_players rfl
      · cases hstep
  | request c originOk ip =>
      obtain ⟨conns, hframe⟩ := wsHandler_frame s.app originOk ip
      simp only [step, request] at hstep
      split at hstep
      · cases hstep
      · split at hstep
        next app hok =>
          obtain rfl := Option.some.inj hstep
          obtain rfl : app = _ := (congrArg Prod.fst hok).symm.trans hframe
          exact .of_players rfl
        next app _ hok =>
          obtain rfl := Option.some.inj hstep
          obtain rfl : app = _ := (congrArg Prod.fst hok).symm.trans hframe
          exact .of_players rfl
  | upgrade c playerId =>
      simp only [step, upgraded] at hstep
      repeat' split at hstep
      all_goals cases hstep
      all_goals exact .of_players rfl
  | frame c item =>
      obtain ⟨h, _, hframe⟩ := whenRunning_eq_some hstep
      split at hframe <;> cases hframe
      exact .of_players (players_frame item)
  | block c fresh =>
      obtain ⟨h, hc, hblock⟩ := whenRunning_eq_some hstep
      exact renewsPlayers_arm (arm_of_block hblock) fun _ _ _ hpc => hpunctual.time hc hpc
  | drop c =>
      obtain ⟨h, _, hdrop⟩ := whenRunning_eq_some hstep
      split at hdrop <;> cases hdrop
      exact .of_players rfl
  | sent c ok =>
      obtain ⟨o, _, hsent⟩ := Option.bind_eq_some_iff.mp hstep
      obtain ⟨o', _, rfl⟩ := Option.map_eq_some_iff.mp hsent
      exact .of_players rfl

/-! ## Promptness -/

/-- Time passes only while the cleanup task waits for its tick, and not past it, and while no
handler is about to insert a player. -/
def prompt (s : Lobby) : Label → Bool
  | .elapse d =>
      s.cleanup.resting && decide (s.now + d ≤ s.nextTick) &&
        s.sockets.values.all fun
          | .running h => !h.pc.inserts
          | _ => true
  | _ => true

/-- The clock stands still in every other step. -/
theorem ages_of_step {l : Label} (helapse : ∀ d, l ≠ .elapse d) (hcleanup : l ≠ .cleanup)
    (hstep : s.step l = some s') : TunnelService.Ages s.tunnel s'.tunnel := by
  obtain htunnel | ⟨m, hlabel, hmoves⟩ := tunnel_cases hstep
  · rw [htunnel]
    exact .of_maps rfl rfl rfl
  · refine TunnelService.ages_of_step ?_ ?_ hmoves
    · rintro d rfl
      exact helapse d (eq_elapse_of_tunnelLabel hstep hlabel)
    · rintro rfl
      exact hcleanup (eq_cleanup_of_tunnelLabel hstep hlabel)

/-- Nobody but the clock moves the clock. -/
theorem now_of_step {l : Label} (helapse : ∀ d, l ≠ .elapse d) (hstep : s.step l = some s') :
    s'.now = s.now := by
  by_cases hcleanup : l = .cleanup
  · subst hcleanup
    obtain htunnel | ⟨m, hlabel, hmoves⟩ := tunnel_cases hstep
    · exact congrArg TunnelService.now htunnel
    · simp only [tunnelLabel] at hlabel
      split at hlabel <;> cases hlabel
      exact (congrArg TunnelService.now (Option.some.inj hmoves)).symm.trans
        s.tunnel.now_cleanupStep
  · exact (ages_of_step helapse hcleanup hstep).now

theorem punctual_block {fresh nickname : String} {war3Version : War3Version} {h' : Handler}
    {lastHeartbeat : Instant} (hc : s.sockets.get? c = some (.running h))
    (hstep : s.block c h fresh = some s') (hc' : s'.sockets.get? c = some (.running h'))
    (hpc : h'.pc = .registerInsert nickname war3Version lastHeartbeat) :
    lastHeartbeat = s.now := by
  obtain ⟨k, hm, hleads⟩ := leadsTo_block hc hstep
  obtain rfl := hm.eq_of_running hc'
  rw [hpc] at hleads
  have harm := arm_of_block hstep
  rw [hleads.registerInsert_cases] at harm
  cases harm
  unfold registerCount at hc'
  split at hc'
  · obtain rfl := eq_of_put hc hc' rfl
    cases hpc
  · obtain rfl := eq_of_put hc hc' rfl
    cases hpc
    rfl

theorem inserts_exit (h : Handler) : h.exit.pc.inserts = false := by
  unfold Handler.exit
  split <;> rfl

theorem Begins.inserts {externalIp : Option IpAddr} {m : ClientMessage} {pc : HandlerPc}
    (hbegins : Begins s h externalIp m pc) : pc.inserts = false := by
  cases hbegins <;> rfl

/-- No message leads to the insert of a player at once. -/
theorem inserts_frame {h' : Handler} (item : Incoming)
    (hc : s.sockets.get? c = some (.running h)) (hpc : h.pc = .receiving)
    (hc' : (s.frame c h item).sockets.get? c = some (.running h')) : h'.pc.inserts = false := by
  have hm : Moves s (s.put c (s.counted h)) c h (s.counted h) := .put hc rfl rfl rfl
  have hframed := framed s c h item
  generalize s.frame c h item = s' at hframed hc'
  cases hframed with
  | left =>
      obtain rfl := eq_of_put hc hc' rfl
      exact inserts_exit h
  | ignored | tooLong =>
      obtain rfl := Socket.running.inj (Option.some.inj (hc.symm.trans hc'))
      rw [hpc]
      rfl
  | refused text =>
      obtain rfl := eq_of_put hc hc' rfl
      simp [counted, hpc, HandlerPc.inserts]
  | @passed len externalIp m =>
      have hdispatched := dispatched (s.put c (s.counted h)) c (s.counted h) m externalIp
      generalize (s.put c (s.counted h)).dispatch c (s.counted h) m externalIp = s'
        at hdispatched hc'
      cases hdispatched with
      | begun hbegins =>
          obtain rfl := eq_of_put hm.get?_self hc' rfl
          exact hbegins.inserts
      | ignored | refused | answered =>
          obtain rfl := eq_of_put hc hc' rfl
          simp [counted, hpc, HandlerPc.inserts]

theorem punctual_of_own {l : Label} {h' : Handler} {nickname : String} {war3Version : War3Version}
    {lastHeartbeat : Instant} (hstep : s.step l = some s') (hown : isOwn c s l = true)
    (hc' : s'.sockets.get? c = some (.running h'))
    (hpc' : h'.pc = .registerInsert nickname war3Version lastHeartbeat) :
    lastHeartbeat = s.now := by
  have hinserts : h'.pc.inserts = true := by
    rw [hpc']
    rfl
  cases l with
  | frame c' item =>
      obtain rfl : c' = c := by simpa [isOwn] using hown
      obtain ⟨h, hc, hframe⟩ := whenRunning_eq_some hstep
      split at hframe
      · next hpc =>
        cases hframe
        rw [inserts_frame item hc hpc hc'] at hinserts
        cases hinserts
      · cases hframe
  | block c' fresh =>
      obtain rfl : c' = c := by simpa [isOwn] using hown
      obtain ⟨h, hc, hblock⟩ := whenRunning_eq_some hstep
      exact punctual_block hc hblock hc' hpc'
  | drop c' =>
      obtain rfl : c' = c := by simpa [isOwn] using hown
      obtain ⟨h, hc, hdrop⟩ := whenRunning_eq_some hstep
      split at hdrop
      · cases hdrop
        obtain rfl := eq_of_put hc hc' rfl
        rw [inserts_exit h] at hinserts
        cases hinserts
      · cases hdrop
  | _ => simp [isOwn] at hown

/-- In a prompt run a handler that inserts its player has the time right. -/
theorem Punctual.step {l : Label} (h : s.Punctual) (hprompt : s.prompt l = true)
    (hstep : s.step l = some s') : s'.Punctual := by
  refine ⟨fun {c h' nickname war3Version lastHeartbeat} hc' hpc' => ?_⟩
  cases l with
  | elapse d =>
      cases hstep
      have hquiet := (Bool.and_eq_true_iff.mp hprompt).2
      have hnone := List.all_eq_true.mp hquiet _ (Table.mem_values_iff.mpr ⟨c, hc'⟩)
      simp [hpc', HandlerPc.inserts] at hnone
  | _ =>
      rw [now_of_step (by simp) hstep]
      rcases running_of_step hstep hc' with hown | ⟨_, _, rfl⟩ | hc
      · exact punctual_of_own hstep hown hc' hpc'
      · cases hpc'
      · exact h.time hc hpc'

/-! ## The three sweeps -/

/-- A table whose entries have deadlines, and the clock of the server. -/
def sweep {α : Type} (s : Lobby) (deadline : α → Instant) (table : Table String α)
    (phase : SweepPhase String) : Sweep String where
  now := s.now
  nextTick := s.nextTick
  due := fun k => (table.get? k).map deadline
  phase := phase

/-- No table holds an entry that is overdue by more than the interval of the cleanup. -/
structure InTime (s : Lobby) : Prop where
  players : (s.sweep ConnectedPlayer.deadline s.app.players s.cleanup.playersPhase).InTime
    cleanupInterval
  waiting : (s.sweep WaitingPeer.deadline s.tunnel.tunnel.waiting
    (s.cleanup.waitingPhase s.tunnel.cleanup)).InTime cleanupInterval
  upnp : (s.sweep UPnPPending.deadline s.tunnel.tunnel.upnpPending s.cleanup.upnpPhase).InTime
    cleanupInterval

section Sweeps

variable {α : Type} {deadline : α → Instant} {table table' : Table String α}
  {phase phase' : SweepPhase String}

theorem due_sweep {k : String} {d : Instant}
    (h : (s.sweep deadline table phase).due k = some d) :
    ∃ a, table.get? k = some a ∧ deadline a = d :=
  Option.map_eq_some_iff.mp h

/-- A table that others change while the clock and the cleanup task stand still. -/
theorem renews_sweep
    (h : ∀ k a', table'.get? k = some a' →
      (∃ a, table.get? k = some a ∧ deadline a ≤ deadline a') ∨ s.now ≤ deadline a') :
    (s.sweep deadline table phase).Renews (s'.sweep deadline table' phase') := by
  intro k d' hd'
  obtain ⟨a', ha', rfl⟩ := due_sweep hd'
  refine (h k a' ha').imp_left ?_
  rintro ⟨a, ha, hle⟩
  exact ⟨deadline a, congrArg (Option.map deadline) ha, hle⟩

/-- Entries are only taken out. -/
theorem shrinks_sweep (h : ∀ k a, table'.get? k = some a → table.get? k = some a) :
    (s.sweep deadline table phase).Shrinks (s'.sweep deadline table' phase') := by
  intro k d hd
  obtain ⟨a, ha, rfl⟩ := due_sweep hd
  exact congrArg (Option.map deadline) (h k a ha)

/-- The steps of everyone but the cleanup task are steps of a sweep. -/
theorem step_sweep {l : Label} (hcleanup : l ≠ .cleanup) (hprompt : s.prompt l = true)
    (hstep : s.step l = some s') (hrest : s.cleanup = .tick → phase = .rest)
    (hclock : ∀ d, l = .elapse d → table' = table)
    (hothers : (∀ d, l ≠ .elapse d) → ∀ k a', table'.get? k = some a' →
      (∃ a, table.get? k = some a ∧ deadline a ≤ deadline a') ∨ s.now ≤ deadline a') :
    Sweep.Step cleanupInterval (s.sweep deadline table phase)
      (s'.sweep deadline table' phase) := by
  have hsame := sameSweeper_of_step hstep hcleanup
  by_cases helapse : ∃ d, l = .elapse d
  · obtain ⟨d, rfl⟩ := helapse
    simp only [prompt, Bool.and_eq_true, decide_eq_true_eq] at hprompt
    obtain ⟨⟨hresting, hnext⟩, _⟩ := hprompt
    have htick : s.cleanup = .tick := by
      cases hpc : s.cleanup <;> simp [hpc, CleanupTask.resting] at hresting
      rfl
    cases hstep
    obtain rfl := hclock d rfl
    exact .elapses (hrest htick) (hrest htick) rfl hnext rfl (Nat.le_add_right _ d)
  · have hothers := hothers fun d hd => helapse ⟨d, hd⟩
    have hnow := now_of_step (fun d hd => helapse ⟨d, hd⟩) hstep
    exact .renews ⟨hnow, hsame.nextTick⟩ (renews_sweep hothers) rfl

end Sweeps

/-- Everyone but the cleanup task keeps the tables in time. -/
theorem InTime.others {l : Label} (h : s.InTime) (hcleanup : l ≠ .cleanup)
    (hpunctual : s.Punctual) (hprompt : s.prompt l = true) (hstep : s.step l = some s') :
    s'.InTime := by
  have hsame := sameSweeper_of_step hstep hcleanup
  have htunnel := tunnelCleanup_of_step hstep hcleanup
  refine ⟨?_, ?_, ?_⟩
  · rw [hsame.cleanup]
    refine h.players.step (step_sweep hcleanup hprompt hstep ?_ ?_ fun _ => ?_)
    · intro htick
      rw [htick]
      rfl
    · rintro d rfl
      cases hstep
      rfl
    · exact renewsPlayers_of_step hcleanup hpunctual hstep
  · rw [hsame.cleanup, htunnel]
    refine h.waiting.step (step_sweep hcleanup hprompt hstep ?_ ?_ fun helapse => ?_)
    · intro htick
      rw [htick]
      rfl
    · rintro d rfl
      cases hstep
      rfl
    · intro token peer hpeer
      obtain hold | hnew := (ages_of_step helapse hcleanup hstep).waiting hpeer
      · exact .inl ⟨peer, hold, Nat.le_refl _⟩
      · exact .inr (hnew.symm.le.trans (Nat.le_add_right _ pairingTimeout))
  · rw [hsame.cleanup]
    refine h.upnp.step (step_sweep hcleanup hprompt hstep ?_ ?_ fun helapse => ?_)
    · intro htick
      rw [htick]
      rfl
    · rintro d rfl
      cases hstep
      rfl
    · intro token entry hentry
      obtain hold | hnew := (ages_of_step helapse hcleanup hstep).upnp hentry
      · exact .inl ⟨entry, hold, Nat.le_refl _⟩
      · exact .inr (hnew.symm.le.trans (Nat.le_add_right _ upnpPendingTtl))

/-! ### The blocks of the cleanup task -/

/-- Outside `cleanup_expired` the cleanup of the tunnel service is at its start. -/
def Aligned (s : Lobby) : Prop := s.cleanup ≠ .tunnels → s.tunnel.cleanup = .removeWaiting

theorem mem_findExpired_of_expired {id : String} {p : ConnectedPlayer}
    (hp : s.app.players.get? id = some p) (hexpired : p.expired s.now = true) :
    id ∈ s.app.findExpired s.now :=
  List.mem_map.mpr ⟨⟨id, p⟩, List.mem_filter.mpr ⟨Table.mem_entries_iff.mpr hp, hexpired⟩, rfl⟩

/-- The cleanup task wakes up. -/
theorem InTime.tick (h : s.InTime) (hpc : s.cleanup = .tick)
    (hcleanup : s.tunnel.cleanup = .removeWaiting) (hlate : s.nextTick ≤ s.now) :
    InTime { s with cleanup := .tunnels, nextTick := s.nextTick + cleanupInterval } := by
  obtain ⟨hplayers, hwaiting, hupnp⟩ := h
  rw [hpc] at hplayers hwaiting hupnp
  refine ⟨?_, ?_, ?_⟩
  · exact hplayers.step (.ticks rfl rfl rfl hlate rfl rfl)
  · refine hwaiting.step (.ticks rfl ?_ rfl hlate rfl rfl)
    dsimp only [sweep]
    rw [hcleanup]
    rfl
  · exact hupnp.step (.ticks rfl rfl rfl hlate rfl rfl)

/-- The first block of `cleanup_expired` takes out who has waited too long. -/
theorem InTime.removeWaiting (h : s.InTime) (hpc : s.cleanup = .tunnels)
    (hcleanup : s.tunnel.cleanup = .removeWaiting) {peers : List WaitingPeer} {cleanup : CleanupPc}
    (hnext : cleanup ≠ .removeWaiting) :
    InTime { s with
      tunnel := ({ s.tunnel with cleanup := cleanup }.setTunnel
        (s.tunnel.tunnel.removeExpiredWaiting s.tunnel.now)).dropPeers peers
      cleanup := .tunnels } := by
  obtain ⟨hplayers, hwaiting, hupnp⟩ := h
  rw [hpc] at hplayers hwaiting hupnp
  rw [hcleanup] at hwaiting
  refine ⟨hplayers.same ⟨rfl, rfl⟩ rfl rfl, ?_, hupnp.same ⟨rfl, rfl⟩ rfl rfl⟩
  have hphase : CleanupTask.waitingPhase .tunnels cleanup = .removing [] := by
    cases cleanup with
    | removeWaiting => exact absurd rfl hnext
    | removeBindings expired | removeUpnp => rfl
  have hkept : ∀ token peer,
      (s.tunnel.tunnel.waiting.retain fun _ w => !TunnelState.waitingExpired s.tunnel.now w).get?
        token = some peer →
      s.tunnel.tunnel.waiting.get? token = some peer ∧
        TunnelState.waitingExpired s.tunnel.now peer = false := by
    intro token peer hpeer
    rw [Table.get?_retain, Option.filter_eq_some_iff] at hpeer
    exact ⟨hpeer.1, by simpa using hpeer.2⟩
  refine hwaiting.step (.looks [] rfl hphase ⟨rfl, rfl⟩ ?_ ?_)
  · exact shrinks_sweep fun token peer hpeer => (hkept token peer hpeer).1
  · intro token d hd
    obtain ⟨peer, hpeer, rfl⟩ := due_sweep hd
    exact .inr (WaitingPeer.le_deadline (hkept token peer hpeer).2)

/-- The last block of `cleanup_expired` takes out the UPnP entries past their time to live. -/
theorem InTime.removeUpnp (h : s.InTime) (hpc : s.cleanup = .tunnels)
    (hcleanup : s.tunnel.cleanup = .removeUpnp) :
    InTime { s with
      tunnel := { s.tunnel with cleanup := .removeWaiting }.setTunnel
        (s.tunnel.tunnel.removeExpiredUpnp s.tunnel.now)
      cleanup := .findExpired } := by
  obtain ⟨hplayers, hwaiting, hupnp⟩ := h
  rw [hpc] at hplayers hwaiting hupnp
  rw [hcleanup] at hwaiting
  refine ⟨hplayers.same ⟨rfl, rfl⟩ rfl rfl, hwaiting.same ⟨rfl, rfl⟩ rfl rfl, ?_⟩
  have hkept : ∀ token entry,
      (s.tunnel.tunnel.upnpPending.retain fun _ v =>
        elapsed s.tunnel.now v.createdAt < upnpPendingTtl).get? token = some entry →
      s.tunnel.tunnel.upnpPending.get? token = some entry ∧
        elapsed s.tunnel.now entry.createdAt < upnpPendingTtl := by
    intro token entry hentry
    rw [Table.get?_retain, Option.filter_eq_some_iff] at hentry
    exact ⟨hentry.1, of_decide_eq_true hentry.2⟩
  refine hupnp.step (.looks [] rfl rfl ⟨rfl, rfl⟩ ?_ ?_)
  · exact shrinks_sweep fun token entry hentry => (hkept token entry hentry).1
  · intro token d hd
    obtain ⟨entry, hentry, rfl⟩ := due_sweep hd
    exact .inr (UPnPPending.le_deadline (hkept token entry hentry).2)

/-- A block of `cleanup_expired`. -/
theorem InTime.tunnels (h : s.InTime) (hpc : s.cleanup = .tunnels) :
    InTime { s with
      tunnel := s.tunnel.cleanupStep
      cleanup := if s.tunnel.cleanupStep.cleanup = .removeWaiting then .findExpired
        else .tunnels } := by
  unfold TunnelService.cleanupStep
  cases hcleanup : s.tunnel.cleanup with
  | removeWaiting =>
      dsimp only
      cases hlist : s.tunnel.tunnel.expiredTokens s.tunnel.now with
      | nil => exact h.removeWaiting hpc hcleanup (by simp)
      | cons token rest => exact h.removeWaiting hpc hcleanup (by simp)
  | removeBindings expired =>
      obtain ⟨hplayers, hwaiting, hupnp⟩ := h
      rw [hpc] at hplayers hwaiting hupnp
      rw [hcleanup] at hwaiting
      exact ⟨hplayers.same ⟨rfl, rfl⟩ rfl rfl, hwaiting.same ⟨rfl, rfl⟩ rfl rfl,
        hupnp.same ⟨rfl, rfl⟩ rfl rfl⟩
  | removeUpnp => exact h.removeUpnp hpc hcleanup

/-- `find_expired` lists the players that are due. -/
theorem InTime.findExpired (h : s.InTime) (hpc : s.cleanup = .findExpired) :
    InTime { s with
      cleanup := if (s.app.findExpired s.now).isEmpty then .tick
        else .removePlayers (s.app.findExpired s.now) } := by
  obtain ⟨hplayers, hwaiting, hupnp⟩ := h
  rw [hpc] at hplayers hwaiting hupnp
  have hplayers : (s.sweep ConnectedPlayer.deadline s.app.players
      (.removing (s.app.findExpired s.now))).InTime cleanupInterval := by
    refine hplayers.step (.looks _ rfl rfl ⟨rfl, rfl⟩ (shrinks_sweep fun _ _ h => h) ?_)
    intro id d hd
    obtain ⟨p, hp, rfl⟩ := due_sweep hd
    cases hexpired : p.expired s.now with
    | true => exact .inl (mem_findExpired_of_expired hp hexpired)
    | false => exact .inr (ConnectedPlayer.le_deadline hexpired)
  cases hlist : s.app.findExpired s.now with
  | nil =>
      rw [hlist] at hplayers
      refine ⟨?_, ?_, ?_⟩
      · exact hplayers.step (.ends rfl rfl ⟨rfl, rfl⟩ rfl)
      · exact hwaiting.step (.ends rfl rfl ⟨rfl, rfl⟩ rfl)
      · exact hupnp.step (.ends rfl rfl ⟨rfl, rfl⟩ rfl)
  | cons id rest =>
      rw [hlist] at hplayers
      exact ⟨hplayers, hwaiting.same ⟨rfl, rfl⟩ rfl rfl, hupnp.same ⟨rfl, rfl⟩ rfl rfl⟩

/-- All listed players are out. -/
theorem InTime.broadcast (h : s.InTime) (hpc : s.cleanup = .removePlayers []) :
    InTime { s.broadcastState with cleanup := .tick } := by
  obtain ⟨hplayers, hwaiting, hupnp⟩ := h
  rw [hpc] at hplayers hwaiting hupnp
  refine ⟨?_, ?_, ?_⟩
  · exact hplayers.step (.ends rfl rfl ⟨rfl, rfl⟩ rfl)
  · exact hwaiting.step (.ends rfl rfl ⟨rfl, rfl⟩ rfl)
  · exact hupnp.step (.ends rfl rfl ⟨rfl, rfl⟩ rfl)

/-- `remove_player` takes a listed player out. -/
theorem InTime.takePlayer {playerId : String} {rest : List String} (h : s.InTime)
    (hpc : s.cleanup = .removePlayers (playerId :: rest)) {cleanup : CleanupTask}
    (hcleanup : cleanup = .removePlayers rest ∨
      ∃ hostingRoom joinedRoom, cleanup = .removeRooms hostingRoom joinedRoom rest) :
    InTime { s with app := (s.app.takePlayer playerId).1, cleanup := cleanup } := by
  obtain ⟨hplayers, hwaiting, hupnp⟩ := h
  rw [hpc] at hplayers hwaiting hupnp
  have hgone : (s.app.players.remove playerId).get? playerId = none := by
    rw [Table.get?_remove, if_pos rfl]
  have hplayers : (s.sweep ConnectedPlayer.deadline (s.app.players.remove playerId)
      (.removing rest)).InTime cleanupInterval := by
    refine hplayers.step (.removes _ rest rfl rfl ⟨rfl, rfl⟩
      (shrinks_sweep fun _ _ => Table.get?_of_remove) ?_)
    intro id hid
    obtain rfl | hid := List.mem_cons.mp hid
    · exact .inr (congrArg (Option.map ConnectedPlayer.deadline) hgone)
    · exact .inl hid
  obtain rfl | ⟨hostingRoom, joinedRoom, rfl⟩ := hcleanup
  · exact ⟨hplayers, hwaiting.same ⟨rfl, rfl⟩ rfl rfl, hupnp.same ⟨rfl, rfl⟩ rfl rfl⟩
  · exact ⟨hplayers, hwaiting.same ⟨rfl, rfl⟩ rfl rfl, hupnp.same ⟨rfl, rfl⟩ rfl rfl⟩

/-- `remove_player` clears the rooms of a player. -/
theorem InTime.clearRooms {hostingRoom joinedRoom : Option String} {rest : List String}
    (h : s.InTime) (hpc : s.cleanup = .removeRooms hostingRoom joinedRoom rest) :
    InTime { s with
      app := s.app.clearRooms hostingRoom joinedRoom
      cleanup := .removePlayers rest } := by
  obtain ⟨hplayers, hwaiting, hupnp⟩ := h
  rw [hpc] at hplayers hwaiting hupnp
  rw [clearRooms_eq]
  exact ⟨hplayers.same ⟨rfl, rfl⟩ rfl rfl, hwaiting.same ⟨rfl, rfl⟩ rfl rfl,
    hupnp.same ⟨rfl, rfl⟩ rfl rfl⟩

/-- The cleanup task keeps the tables in time. -/
theorem InTime.cleanup (h : s.InTime) (haligned : s.Aligned) (hstep : s.cleanupStep = some s') :
    s'.InTime ∧ s'.Aligned := by
  have hcleanup : s.cleanup ≠ .tunnels → s.tunnel.cleanup = .removeWaiting := haligned
  unfold cleanupStep at hstep
  cases hpc : s.cleanup with
  | tick =>
      simp only [hpc] at hstep
      split at hstep
      next hlate =>
        obtain rfl := Option.some.inj hstep
        exact ⟨h.tick hpc (hcleanup (by simp [hpc])) hlate, fun hne => absurd rfl hne⟩
      next => cases hstep
  | tunnels =>
      simp only [hpc] at hstep
      obtain rfl := Option.some.inj hstep
      refine ⟨h.tunnels hpc, fun hne => ?_⟩
      dsimp only at hne ⊢
      split at hne
      next hdone => exact hdone
      next => exact absurd rfl hne
  | findExpired =>
      simp only [hpc] at hstep
      obtain rfl := Option.some.inj hstep
      exact ⟨h.findExpired hpc, fun _ => hcleanup (by simp [hpc])⟩
  | removePlayers expired =>
      cases expired with
      | nil =>
          simp only [hpc] at hstep
          obtain rfl := Option.some.inj hstep
          exact ⟨h.broadcast hpc, fun _ => hcleanup (by simp [hpc])⟩
      | cons playerId rest =>
          simp only [hpc] at hstep
          obtain rfl := Option.some.inj hstep
          refine ⟨h.takePlayer hpc ?_, fun _ => hcleanup (by simp [hpc])⟩
          split
          next hostingRoom joinedRoom _ => exact .inr ⟨hostingRoom, joinedRoom, rfl⟩
          next => exact .inl rfl
  | removeRooms hostingRoom joinedRoom rest =>
      simp only [hpc] at hstep
      obtain rfl := Option.some.inj hstep
      exact ⟨h.clearRooms hpc, fun _ => hcleanup (by simp [hpc])⟩

/-! ## Whole runs -/

/-- What holds in a prompt run. -/
structure Timed (s : Lobby) : Prop where
  punctual : s.Punctual
  aligned : s.Aligned
  inTime : s.InTime

theorem timed_start : start.Timed where
  punctual := ⟨fun hc => by cases hc⟩
  aligned _ := rfl
  inTime := {
    players := Sweep.inTime_empty (Nat.le_refl _) (Nat.zero_le _)
    waiting := Sweep.inTime_empty (Nat.le_refl _) (Nat.zero_le _)
    upnp := Sweep.inTime_empty (Nat.le_refl _) (Nat.zero_le _) }

theorem Timed.step {l : Label} (h : s.Timed) (hprompt : s.prompt l = true)
    (hstep : s.step l = some s') : s'.Timed := by
  have hpunctual := h.punctual.step hprompt hstep
  by_cases hcleanup : l = .cleanup
  · subst hcleanup
    obtain ⟨hinTime, haligned⟩ := h.inTime.cleanup h.aligned hstep
    exact ⟨hpunctual, haligned, hinTime⟩
  · have hsame := sameSweeper_of_step hstep hcleanup
    have htunnel := tunnelCleanup_of_step hstep hcleanup
    refine ⟨hpunctual, fun hne => ?_, h.inTime.others hcleanup h.punctual hprompt hstep⟩
    rw [htunnel]
    exact h.aligned (hsame.cleanup ▸ hne)

theorem timed_of_reachable (h : (machine.restrict fun s l => s.prompt l = true).Reachable s) :
    s.Timed := by
  apply h.invariant (I := Timed)
  · exact timed_start
  · intro s l s' _ htimed hs
    obtain ⟨hprompt, hstep⟩ := Machine.restrict_step.mp hs
    exact htimed.step hprompt hstep

/-- In a prompt run every player, waiting party and UPnP entry is gone at the latest one interval
of the cleanup after its deadline. -/
theorem overdue_of_reachable (h : (machine.restrict fun s l => s.prompt l = true).Reachable s) :
    (∀ id p, s.app.players.get? id = some p → s.now ≤ p.deadline + cleanupInterval) ∧
      (∀ token w, s.tunnel.tunnel.waiting.get? token = some w →
        s.now ≤ w.deadline + cleanupInterval) ∧
      ∀ token e, s.tunnel.tunnel.upnpPending.get? token = some e →
        s.now ≤ e.deadline + cleanupInterval := by
  obtain ⟨hplayers, hwaiting, hupnp⟩ := (timed_of_reachable h).inTime
  refine ⟨fun id p hp => ?_, fun token w hw => ?_, fun token e he => ?_⟩
  · exact hplayers.bound id p.deadline (congrArg (Option.map ConnectedPlayer.deadline) hp)
  · exact hwaiting.bound token w.deadline (congrArg (Option.map WaitingPeer.deadline) hw)
  · exact hupnp.bound token e.deadline (congrArg (Option.map UPnPPending.deadline) he)

/-- A player falls silent, and the cleanup task comes by every ten seconds. -/
def fallsSilent : List Label :=
  registers 1 "a" ++
    (List.replicate 4 (List.replicate 4 .cleanup ++ [.elapse cleanupInterval])).flatten

/-- The silent player is still there a whole interval after its deadline. -/
theorem overdue_silent :
    ∃ s p, (machine.restrict fun s l => s.prompt l = true).Reachable s ∧
      s.app.players.get? "a" = some p ∧ s.now = p.deadline + cleanupInterval ∧
        s.now ≤ p.deadline + cleanupInterval := by
  have hrun : ((machine.restrict fun s l => s.prompt l = true).exec machine.init
      fallsSilent).any
      (fun s => (s.app.players.get? "a").any fun p =>
        decide (s.now = p.deadline + cleanupInterval)) = true := by
    decide
  obtain ⟨s, _, hreach, htest⟩ := Machine.exists_reachable_of_exec
    (M := machine.restrict fun s l => s.prompt l = true) hrun
  obtain ⟨p, hp, hdue⟩ := (Option.any_eq_true _ _).mp htest
  exact ⟨s, p, hreach, hp, of_decide_eq_true hdue, (overdue_of_reachable hreach).1 "a" p hp⟩

/-! ## Time goes on

Promptness never stops the clock: the server can always do its own work and then wait. -/

/-- A step of the server alone that takes no time: one of the cleanup task, or the block in which
a handler inserts its player. -/
inductive Instantly (s s' : Lobby) : Prop
  | cleanup (hstep : s.step .cleanup = some s')
  | inserts {c : SocketId} {h : Handler} (hc : s.sockets.get? c = some (.running h))
      (hinserts : h.pc.inserts = true) (hstep : s.step (.block c "") = some s')

/-- The cleanup task can come to rest at once, and nobody else moves. -/
def Rests (s : Lobby) : Prop :=
  ∃ s', Relation.ReflTransGen Instantly s s' ∧ s'.cleanup = .tick ∧ s'.sockets = s.sockets ∧
    s'.nextTick = s.nextTick

theorem now_of_instantly (h : Relation.ReflTransGen Instantly s s') : s'.now = s.now := by
  induction h with
  | refl => rfl
  | tail _ hlast ih =>
      cases hlast with
      | cleanup hstep => exact (now_of_step (by simp) hstep).trans ih
      | inserts _ _ hstep => exact (now_of_step (by simp) hstep).trans ih

theorem Rests.step (hstep : s.cleanupStep = some s') (htick : s'.nextTick = s.nextTick)
    (h : s'.Rests) : s.Rests := by
  obtain ⟨s'', hsteps, hcleanup, hsockets, hnext⟩ := h
  refine ⟨s'', .head (.cleanup hstep) hsteps, hcleanup, ?_, hnext.trans htick⟩
  exact hsockets.trans (cleanupStep_frame hstep).1

theorem rests_tick (hpc : s.cleanup = .tick) : s.Rests := ⟨s, .refl, hpc, rfl, rfl⟩

theorem rests_removeRooms {hostingRoom joinedRoom : Option String} {expired : List String}
    (hpc : s.cleanup = .removeRooms hostingRoom joinedRoom expired)
    (h : Rests { s with
      app := s.app.clearRooms hostingRoom joinedRoom
      cleanup := .removePlayers expired }) : s.Rests := by
  have hstep : s.cleanupStep = some { s with
      app := s.app.clearRooms hostingRoom joinedRoom
      cleanup := .removePlayers expired } := by
    simp only [cleanupStep, hpc]
  exact .step hstep rfl h

/-- The list of the cleanup task comes to an end. -/
theorem rests_removePlayers (expired : List String) (hpc : s.cleanup = .removePlayers expired) :
    s.Rests := by
  induction expired generalizing s with
  | nil =>
      have hstep : s.cleanupStep = some { s.broadcastState with cleanup := .tick } := by
        simp only [cleanupStep, hpc]
      exact .step hstep rfl (rests_tick rfl)
  | cons playerId rest ih =>
      cases htaken : (s.app.takePlayer playerId).2 with
      | none =>
          have hstep : s.cleanupStep = some { s with
              app := (s.app.takePlayer playerId).1
              cleanup := .removePlayers rest } := by
            simp only [cleanupStep, hpc, htaken]
          exact .step hstep rfl (ih rfl)
      | some rooms =>
          have hstep : s.cleanupStep = some { s with
              app := (s.app.takePlayer playerId).1
              cleanup := .removeRooms rooms.1 rooms.2 rest } := by
            simp only [cleanupStep, hpc, htaken]
          exact .step hstep rfl (rests_removeRooms rfl (ih rfl))

theorem rests_findExpired (hpc : s.cleanup = .findExpired) : s.Rests := by
  have hstep : s.cleanupStep = some { s with
      cleanup := if (s.app.findExpired s.now).isEmpty then .tick
        else .removePlayers (s.app.findExpired s.now) } := by
    simp only [cleanupStep, hpc]
  refine .step hstep rfl ?_
  cases (s.app.findExpired s.now).isEmpty with
  | true => exact rests_tick rfl
  | false => exact rests_removePlayers _ rfl

/-- `cleanup_expired` comes to an end. -/
theorem rests_tunnels (hpc : s.cleanup = .tunnels) : s.Rests := by
  have hstep : ∀ s : Lobby, s.cleanup = .tunnels → s.cleanupStep = some { s with
      tunnel := s.tunnel.cleanupStep
      cleanup := if s.tunnel.cleanupStep.cleanup = .removeWaiting then .findExpired
        else .tunnels } := by
    intro s hpc
    simp only [cleanupStep, hpc]
  have hupnp : ∀ s : Lobby, s.cleanup = .tunnels → s.tunnel.cleanup = .removeUpnp → s.Rests := by
    intro s hpc hcleanup
    have hlast : s.tunnel.cleanupStep.cleanup = .removeWaiting := by
      simp only [TunnelService.cleanupStep, hcleanup]
      rfl
    refine .step (hstep s hpc) rfl (rests_findExpired ?_)
    exact if_pos hlast
  have hbindings : ∀ (s : Lobby) (expired : List String), s.cleanup = .tunnels →
      s.tunnel.cleanup = .removeBindings expired → s.Rests := by
    intro s expired hpc hcleanup
    have hnext : s.tunnel.cleanupStep.cleanup = .removeUpnp := by
      simp only [TunnelService.cleanupStep, hcleanup]
      rfl
    refine .step (hstep s hpc) rfl (hupnp _ ?_ hnext)
    exact if_neg (by simp [hnext])
  cases hcleanup : s.tunnel.cleanup with
  | removeUpnp => exact hupnp s hpc hcleanup
  | removeBindings expired => exact hbindings s expired hpc hcleanup
  | removeWaiting =>
      have hnext : s.tunnel.cleanupStep.cleanup = .removeUpnp ∨
          ∃ expired, s.tunnel.cleanupStep.cleanup = .removeBindings expired := by
        simp only [TunnelService.cleanupStep, hcleanup]
        cases s.tunnel.tunnel.expiredTokens s.tunnel.now with
        | nil => exact .inl rfl
        | cons token rest => exact .inr ⟨token :: rest, rfl⟩
      refine .step (hstep s hpc) rfl ?_
      obtain hthen | ⟨expired, hthen⟩ := hnext
      · exact hupnp _ (if_neg (by simp [hthen])) hthen
      · exact hbindings _ expired (if_neg (by simp [hthen])) hthen

theorem rests (s : Lobby) : s.Rests := by
  cases hpc : s.cleanup with
  | tick => exact rests_tick hpc
  | tunnels => exact rests_tunnels hpc
  | findExpired => exact rests_findExpired hpc
  | removePlayers expired => exact rests_removePlayers expired hpc
  | removeRooms hostingRoom joinedRoom rest =>
      exact rests_removeRooms hpc (rests_removePlayers rest rfl)

/-- A handler that is about to insert its player can do so. -/
theorem exists_insert (hc : s.sockets.get? c = some (.running h)) (hinserts : h.pc.inserts = true) :
    ∃ s' k, s.step (.block c "") = some s' ∧ Moves s s' c h k ∧ k.pc.inserts = false := by
  have hblock : ∃ s', s.block c h "" = some s' := by
    unfold block
    cases hpc : h.pc <;> simp [hpc, HandlerPc.inserts] at hinserts ⊢
  obtain ⟨s', hblock⟩ := hblock
  obtain ⟨k, hm, hleads⟩ := leadsTo_block hc hblock
  refine ⟨s', k, by simp only [step, whenRunning, hc, hblock], hm, ?_⟩
  cases hpc : h.pc <;> simp [hpc, HandlerPc.inserts] at hinserts
  rw [hpc] at hleads
  generalize k.pc = pc' at hleads
  cases hleads with
  | registerInsert => rfl
  | ends hends => cases hends

/-- The handlers of `cs` can insert their players at once. -/
theorem exists_inserted (cs : List SocketId) (s : Lobby) :
    ∃ s', Relation.ReflTransGen Instantly s s' ∧ ∀ c h',
      s'.sockets.get? c = some (.running h') → h'.pc.inserts = true →
        c ∉ cs ∧ ∃ h, s.sockets.get? c = some (.running h) ∧ h.pc.inserts = true := by
  induction cs generalizing s with
  | nil => exact ⟨s, .refl, fun c h' hc' hinserts => ⟨by simp, h', hc', hinserts⟩⟩
  | cons c cs ih =>
      by_cases hfirst : ∃ h, s.sockets.get? c = some (.running h) ∧ h.pc.inserts = true
      · obtain ⟨h, hc, hinserts⟩ := hfirst
        obtain ⟨s₁, k, hstep, hm, hk⟩ := exists_insert hc hinserts
        obtain ⟨s', hsteps, hrest⟩ := ih s₁
        refine ⟨s', .head (.inserts hc hinserts hstep) hsteps, fun c' h' hc' hinserts' => ?_⟩
        obtain ⟨hnot, h₁, hc₁, hinserts₁⟩ := hrest c' h' hc' hinserts'
        have hne : c' ≠ c := by
          rintro rfl
          obtain rfl := hm.eq_of_running hc₁
          rw [hk] at hinserts₁
          cases hinserts₁
        exact ⟨by simp [hne, hnot], h₁, hm.get?_of_ne hne ▸ hc₁, hinserts₁⟩
      · obtain ⟨s', hsteps, hrest⟩ := ih s
        refine ⟨s', hsteps, fun c' h' hc' hinserts' => ?_⟩
        obtain ⟨hnot, h₁, hc₁, hinserts₁⟩ := hrest c' h' hc' hinserts'
        refine ⟨fun hmem => ?_, h₁, hc₁, hinserts₁⟩
        obtain rfl | hmem := List.mem_cons.mp hmem
        · exact hfirst ⟨h₁, hc₁, hinserts₁⟩
        · exact hnot hmem

theorem reachable_of_instantly
    (h : (machine.restrict fun s l => s.prompt l = true).Reachable s)
    (hsteps : Relation.ReflTransGen Instantly s s') :
    (machine.restrict fun s l => s.prompt l = true).Reachable s' := by
  induction hsteps with
  | refl => exact h
  | tail _ hlast ih =>
      cases hlast with
      | cleanup hstep => exact .step (l := .cleanup) ih (Machine.restrict_step.mpr ⟨rfl, hstep⟩)
      | @inserts c _ _ _ hstep =>
          exact .step (l := .block c "") ih (Machine.restrict_step.mpr ⟨rfl, hstep⟩)

theorem waits (hcleanup : s.cleanup = .tick)
    (hquiet : ∀ c h, s.sockets.get? c = some (.running h) → h.pc.inserts = false) (d : Duration)
    (hd : s.now + d ≤ s.nextTick) : s.prompt (.elapse d) = true := by
  simp only [prompt, hcleanup, CleanupTask.resting, Bool.true_and, Bool.and_eq_true,
    decide_eq_true_eq]
  refine ⟨hd, List.all_eq_true.mpr fun socket hsocket => ?_⟩
  obtain ⟨c, hc⟩ := Table.mem_values_iff.mp hsocket
  cases socket with
  | running h => simp [hquiet c h hc]
  | _ => rfl

/-- In a prompt run the clock can always go on to the next tick, which is still ahead. -/
theorem clock_goes_on (h : (machine.restrict fun s l => s.prompt l = true).Reachable s) :
    ∃ s', Relation.ReflTransGen Instantly s s' ∧ s'.now = s.now ∧ s'.now < s'.nextTick ∧
      ∀ d, s'.now + d ≤ s'.nextTick → s'.prompt (.elapse d) = true := by
  obtain ⟨s₁, hsteps₁, hinserted⟩ := exists_inserted (s.sockets.entries.map (·.1)) s
  obtain ⟨s₂, hsteps₂, hcleanup₂, hsockets₂, _⟩ := rests s₁
  have hquiet : ∀ c h', s₂.sockets.get? c = some (.running h') → h'.pc.inserts = false := by
    intro c h' hc'
    rw [hsockets₂] at hc'
    by_contra hinserts
    obtain ⟨hnot, h₀, hc₀, _⟩ := hinserted c h' hc' (by simpa using hinserts)
    exact hnot (List.mem_map.mpr ⟨⟨c, _⟩, Table.mem_entries_iff.mpr hc₀, rfl⟩)
  have hsteps₂ := hsteps₁.trans hsteps₂
  have hreach₂ := reachable_of_instantly h hsteps₂
  have hearly₂ : s₂.now ≤ s₂.nextTick := (timed_of_reachable hreach₂).inTime.players.early
  obtain hlater | hlate := Nat.lt_or_ge s₂.now s₂.nextTick
  · exact ⟨s₂, hsteps₂, now_of_instantly hsteps₂, hlater, waits hcleanup₂ hquiet⟩
  -- The tick is due: the cleanup task makes its round, and the next one is an interval away.
  have htick : s₂.cleanupStep = some { s₂ with
      cleanup := .tunnels
      nextTick := s₂.nextTick + cleanupInterval } := by
    simp only [cleanupStep, hcleanup₂, if_pos hlate]
  obtain ⟨s₃, hsteps₃, hcleanup₃, hsockets₃, hnext₃⟩ := rests { s₂ with
    cleanup := .tunnels
    nextTick := s₂.nextTick + cleanupInterval }
  have hsteps₃ := hsteps₂.trans (.head (.cleanup htick) hsteps₃)
  have hnow₃ := now_of_instantly hsteps₃
  refine ⟨s₃, hsteps₃, hnow₃, ?_, waits hcleanup₃ fun c h' hc' => hquiet c h' (hsockets₃ ▸ hc')⟩
  rw [hnow₃, ← now_of_instantly hsteps₂, hnext₃]
  exact Nat.lt_of_le_of_lt hearly₂ (Nat.lt_add_of_pos_right (by decide))

/-- The cleanup task is about to remove the silent player, and will wait for its tick again. -/
theorem clock_goes_on_silent :
    ∃ s, (machine.restrict fun s l => s.prompt l = true).Reachable s ∧
      s.cleanup.expired = ["a"] ∧
        ∃ s', Relation.ReflTransGen Instantly s s' ∧ s'.now = s.now ∧ s'.now < s'.nextTick ∧
          ∀ d, s'.now + d ≤ s'.nextTick → s'.prompt (.elapse d) = true := by
  have hrun : ((machine.restrict fun s l => s.prompt l = true).exec machine.init
      (fallsSilent ++ List.replicate 4 .cleanup)).any
      (fun s => decide (s.cleanup.expired = ["a"])) = true := by
    decide
  obtain ⟨s, _, hreach, hexpired⟩ := Machine.exists_reachable_of_exec
    (M := machine.restrict fun s l => s.prompt l = true) hrun
  exact ⟨s, hreach, of_decide_eq_true hexpired, clock_goes_on hreach⟩

end Lobby

end War3BattleTool.Server
