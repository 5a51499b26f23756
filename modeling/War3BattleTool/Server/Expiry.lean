import War3BattleTool.Server.Handlers
import War3BattleTool.Server.Presence
import War3BattleTool.Server.Tokens

set_option autoImplicit false

/-!
# Whom the cleanup task removes

`find_expired` lists the expired players under one lock, and `remove_player` takes them out
one by one under others.  A listed player that is still in the map has not been heard of in
between, unless its handler has answered a heartbeat, or has marked it disconnected.  As long
as neither happens to a listed player, whoever is removed is expired
(`removesExpired_of_reachable`).
-/

namespace War3BattleTool.Server

open War3BattleTool.Foundation War3BattleTool.Protocol

/-- A player that is expired stays so while its times stand still. -/
theorem ConnectedPlayer.expired_mono {p p' : ConnectedPlayer} {now now' : Instant}
    (h : p.expired now = true) (hheartbeat : p'.lastHeartbeat = p.lastHeartbeat)
    (hdisconnected : p'.disconnectedAt = p.disconnectedAt) (hnow : now ≤ now') :
    p'.expired now' = true := by
  unfold expired at h ⊢
  rw [hdisconnected, hheartbeat]
  cases hat : p.disconnectedAt with
  | some at_ =>
      rw [hat] at h
      exact decide_eq_true ((of_decide_eq_true h).trans_le (Nat.sub_le_sub_right hnow at_))
  | none =>
      rw [hat] at h
      exact decide_eq_true ((of_decide_eq_true h).trans_le (Nat.sub_le_sub_right hnow _))

/-- Time does not run backwards in the tunnel service. -/
theorem TunnelService.now_le_of_step {s s' : TunnelService} {l : Label}
    (hstep : s.step l = some s') : s.now ≤ s'.now := by
  cases Step.of_step hstep with
  | elapse d => exact Nat.le_add_right _ _
  | cleanup =>
      unfold cleanupStep
      split
      · exact Nat.le_refl _
      · exact Nat.le_refl _
      · exact Nat.le_refl _
  | _ => exact Nat.le_refl _

/-- The next block of the handler writes the heartbeat of its player, or the time at which it
disconnected. -/
def Handler.refreshes (h : Handler) : Bool :=
  match h.pc with
  | .heartbeat => true
  | .leaving => !h.isWebViewer
  | _ => false

namespace Lobby

variable {s s' : Lobby} {c : SocketId} {h : Handler} {id : String}

/-- Time does not run backwards. -/
theorem now_le_of_step {l : Label} (hstep : s.step l = some s') : s.now ≤ s'.now := by
  obtain htunnel | ⟨m, _, hmoves⟩ := tunnel_cases hstep
  · exact Nat.le_of_eq (congrArg TunnelService.now htunnel.symm)
  · exact TunnelService.now_le_of_step hmoves

/-! ## Steps that leave the times of the listed players alone -/

/-- The cleanup task stands still, and a player of its list that is in the map was there before,
with the times that `find_expired` looks at. -/
structure KeepsListed (s s' : Lobby) : Prop where
  cleanup : s'.cleanup = s.cleanup
  times : ∀ id ∈ s.cleanup.expired, ∀ p', s'.app.players.get? id = some p' →
    ∃ p, s.app.players.get? id = some p ∧
      p'.lastHeartbeat = p.lastHeartbeat ∧ p'.disconnectedAt = p.disconnectedAt

theorem KeepsListed.of_players (hcleanup : s'.cleanup = s.cleanup)
    (hplayers : s'.app.players = s.app.players) : KeepsListed s s' where
  cleanup := hcleanup
  times := fun _ _ p' hp' => ⟨p', hplayers ▸ hp', rfl, rfl⟩

/-- A change of one player that leaves its times alone. -/
theorem KeepsListed.of_modify {playerId : String} {f : ConnectedPlayer → ConnectedPlayer}
    (hcleanup : s'.cleanup = s.cleanup)
    (hplayers : s'.app.players = s.app.players.modify playerId f)
    (hf : ∀ p, (f p).lastHeartbeat = p.lastHeartbeat ∧ (f p).disconnectedAt = p.disconnectedAt) :
    KeepsListed s s' where
  cleanup := hcleanup
  times := by
    intro id _ p' hp'
    rw [hplayers, Table.get?_modify] at hp'
    split at hp'
    · obtain ⟨p, hp, rfl⟩ := Option.map_eq_some_iff.mp hp'
      exact ⟨p, hp, hf p⟩
    · exact ⟨p', hp', rfl, rfl⟩

/-- A change of a player that is not listed. -/
theorem KeepsListed.of_modify_other {playerId : String} {f : ConnectedPlayer → ConnectedPlayer}
    (hcleanup : s'.cleanup = s.cleanup)
    (hplayers : s'.app.players = s.app.players.modify playerId f)
    (hother : playerId ∉ s.cleanup.expired) : KeepsListed s s' where
  cleanup := hcleanup
  times := by
    intro id hid p' hp'
    rw [hplayers, Table.get?_modify, if_neg (ne_of_mem_of_not_mem hid hother)] at hp'
    exact ⟨p', hp', rfl, rfl⟩

/-- A new player, that is not listed. -/
theorem KeepsListed.of_insert {playerId : String} {player : ConnectedPlayer}
    (hcleanup : s'.cleanup = s.cleanup)
    (hplayers : s'.app.players = s.app.players.insert playerId player)
    (hother : playerId ∉ s.cleanup.expired) : KeepsListed s s' where
  cleanup := hcleanup
  times := by
    intro id hid p' hp'
    rw [hplayers, Table.get?_insert, if_neg (ne_of_mem_of_not_mem hid hother)] at hp'
    exact ⟨p', hp', rfl, rfl⟩

theorem KeepsListed.of_remove {playerId : String} (hcleanup : s'.cleanup = s.cleanup)
    (hplayers : s'.app.players = s.app.players.remove playerId) : KeepsListed s s' where
  cleanup := hcleanup
  times := by
    intro id _ p' hp'
    rw [hplayers, Table.get?_remove] at hp'
    split at hp'
    · cases hp'
    · exact ⟨p', hp', rfl, rfl⟩

/-- A block that neither refreshes a listed player nor inserts one. -/
theorem keepsListed_arm {fresh : String} {pc : HandlerPc} (harm : Arm s c h fresh pc s')
    (hpc : h.pc = pc) (hrefreshes : h.refreshes = true → h.playerId ∉ s.cleanup.expired)
    (hentering : pc.stage = .entering → h.playerId ∉ s.cleanup.expired) :
    KeepsListed s s' := by
  unfold Handler.refreshes at hrefreshes
  rw [hpc] at hrefreshes
  cases harm with
  | registerInsert nickname war3Version lastHeartbeat =>
      unfold registerInsert
      split
      · exact .of_insert rfl rfl (hentering rfl)
      · exact .of_insert rfl rfl (hentering rfl)
  | heartbeat =>
      exact .of_modify_other (f := fun p => { p with lastHeartbeat := s.now }) rfl rfl
        (hrefreshes rfl)
  | leaving =>
      unfold leaving
      split
      · unfold AppState.takePlayer
        cases hp : s.app.players.get? h.playerId with
        | some p => exact .of_remove rfl rfl
        | none => exact .of_players rfl rfl
      next hviewer =>
        exact .of_modify_other (f := fun p => { p with disconnectedAt := some s.now }) rfl rfl
          (hrefreshes (by simpa using hviewer))
  | createLink roomId =>
      exact .of_modify (f := fun p => { p with hostingRoom := some roomId }) rfl rfl
        fun _ => ⟨rfl, rfl⟩
  | closeTake =>
      exact .of_modify (f := fun p => { p with hostingRoom := none }) rfl rfl fun _ => ⟨rfl, rfl⟩
  | joinRecord ticket =>
      have hjoined : ∀ p : ConnectedPlayer,
          { p with joinedRoom := some ticket.quote.roomId }.lastHeartbeat = p.lastHeartbeat ∧
            { p with joinedRoom := some ticket.quote.roomId }.disconnectedAt = p.disconnectedAt :=
        fun _ => ⟨rfl, rfl⟩
      unfold joinRecord
      dsimp only
      split
      · exact .of_modify rfl rfl hjoined
      · exact .of_modify rfl rfl hjoined
  | createInsert draft hstep =>
      unfold createInsert at hstep
      split at hstep
      · cases hstep
      · obtain rfl := Option.some.inj hstep
        exact .of_players rfl rfl
  | joinRegisterPending ticket hstep =>
      obtain ⟨_, _, rfl⟩ := Option.map_eq_some_iff.mp hstep
      exact .of_players rfl rfl
  | joinRegisterBinding ticket tunnelToken hstep =>
      obtain ⟨_, _, rfl⟩ := Option.map_eq_some_iff.mp hstep
      exact .of_players rfl rfl
  | joinReserve ticket =>
      unfold joinReserve AppState.reserveSlot
      cases s.app.rooms.get? ticket.quote.roomId with
      | none => exact .of_players rfl rfl
      | some room =>
          dsimp only
          by_cases hfull : room.maxPlayers ≤ room.currentPlayers
          · rw [if_pos hfull]
            exact .of_players rfl rfl
          · rw [if_neg hfull]
            exact .of_players rfl rfl
  | removeRooms hostingRoom joinedRoom =>
      unfold removeRooms
      rw [clearRooms_eq]
      exact .of_players rfl rfl
  | registerCount | createRead | createCount | upnpForward | joinRoom | joinPlayers =>
      dsimp only [registerCount, createRead, createCount, upnpForward, joinRoom, joinPlayers]
      repeat' split
      all_goals exact .of_players rfl rfl
  | broadcast | closeRemove | upnpLookup | joinReleaseOld | finalBroadcast | returned =>
      exact .of_players rfl rfl

/-! ## The list of the expired -/

/-- The step does not refresh a player that the cleanup task is about to remove. -/
def sparesExpired (s : Lobby) : Label → Bool
  | .block c _ =>
      match s.sockets.get? c with
      | some (.running h) => !h.refreshes || h.playerId ∉ s.cleanup.expired
      | _ => true
  | _ => true

/-- A frame is handled without a look at the players. -/
theorem keepsListed_frame (item : Incoming) : KeepsListed s (s.frame c h item) := by
  have hdispatch : ∀ (s : Lobby) (h : Handler) (m : ValidMessage) (externalIp : Option IpAddr),
      KeepsListed s (s.dispatch c h m externalIp) := by
    intro s h m externalIp
    have hdispatched := dispatched s c h m externalIp
    generalize s.dispatch c h m externalIp = s' at hdispatched ⊢
    cases hdispatched with
    | ignored | refused | answered | begun => exact .of_players rfl rfl
  have hframed := framed s c h item
  generalize s.frame c h item = s' at hframed ⊢
  cases hframed with
  | left | ignored | tooLong | refused => exact .of_players rfl rfl
  | passed m =>
      obtain ⟨hcleanup, htimes⟩ := hdispatch (s.put c (s.counted h)) (s.counted h) m _
      exact ⟨hcleanup, htimes⟩

/-- A player on the list is not one that a handler is about to insert. -/
theorem not_mem_expired_of_entering (hreach : machine.Reachable s) {registered : Bool}
    (hc : s.roster.parties.get? c = some ⟨id, registered, .entering⟩) :
    id ∉ s.cleanup.expired := by
  intro hid
  obtain ⟨events, htrace⟩ := hreach.exists_trace report
  obtain ⟨c', P, howns⟩ := (tracks_of_trace htrace).known (.inr hid)
  exact (sound_of_reachable hreach).not_entering howns hc

/-- Whatever the other tasks do, the times of the listed players stay as they are. -/
theorem keepsListed_of_step {l : Label} (hl : l ≠ .cleanup) (hreach : machine.Reachable s)
    (hstep : s.step l = some s') (hspared : s.sparesExpired l = true) : KeepsListed s s' := by
  cases l with
  | elapse d =>
      obtain rfl := Option.some.inj hstep
      exact .of_players rfl rfl
  | tunnel l =>
      simp only [step] at hstep
      split at hstep
      · obtain ⟨_, _, rfl⟩ := Option.map_eq_some_iff.mp hstep
        exact .of_players rfl rfl
      · cases hstep
  | request c originOk ip =>
      obtain ⟨conns, hframe⟩ := wsHandler_frame s.app originOk ip
      simp only [step, request] at hstep
      split at hstep
      · cases hstep
      · split at hstep
        next app hok =>
          obtain rfl := Option.some.inj hstep
          obtain rfl : app = _ := (congrArg Prod.fst hok).symm.trans hframe
          exact .of_players rfl rfl
        next app _ hok =>
          obtain rfl := Option.some.inj hstep
          obtain rfl : app = _ := (congrArg Prod.fst hok).symm.trans hframe
          exact .of_players rfl rfl
  | upgrade c playerId =>
      simp only [step, upgraded] at hstep
      repeat' split at hstep
      all_goals cases hstep
      all_goals exact .of_players rfl rfl
  | frame c item =>
      obtain ⟨h, _, hframe⟩ := whenRunning_eq_some hstep
      split at hframe
      · obtain rfl := Option.some.inj hframe
        exact keepsListed_frame item
      · cases hframe
  | block c fresh =>
      obtain ⟨h, hc, hblock⟩ := whenRunning_eq_some hstep
      apply keepsListed_arm (arm_of_block hblock) rfl
      · intro hrefreshes
        simpa [sparesExpired, hc, hrefreshes] using hspared
      · intro hstage
        exact not_mem_expired_of_entering hreach (parties_of_pc hc hstage)
  | drop c =>
      obtain ⟨h, _, hdrop⟩ := whenRunning_eq_some hstep
      split at hdrop
      · obtain rfl := Option.some.inj hdrop
        exact .of_players rfl rfl
      · cases hdrop
  | sent c ok =>
      obtain ⟨o, _, hsent⟩ := Option.bind_eq_some_iff.mp hstep
      obtain ⟨o', _, rfl⟩ := Option.map_eq_some_iff.mp hsent
      exact .of_players rfl rfl
  | cleanup => exact absurd rfl hl

/-- Whoever is on the list of the cleanup task, and still in the map, is expired. -/
def ListsExpired (s : Lobby) : Prop :=
  ∀ id ∈ s.cleanup.expired, ∀ p, s.app.players.get? id = some p → p.expired s.now = true

theorem expired_of_mem_findExpired {p : ConnectedPlayer} (hid : id ∈ s.app.findExpired s.now)
    (hp : s.app.players.get? id = some p) : p.expired s.now = true := by
  obtain ⟨⟨_, p'⟩, hmem, rfl⟩ := List.mem_map.mp hid
  obtain ⟨hentry, hexpired⟩ := List.mem_filter.mp hmem
  obtain rfl := Option.some.inj ((Table.mem_entries_iff.mp hentry).symm.trans hp)
  exact hexpired

/-- The cleanup task lists who is expired, and works its list off. -/
theorem ListsExpired.cleanup (hlists : s.ListsExpired) (hstep : s.cleanupStep = some s') :
    s'.ListsExpired := by
  intro id hid p' hp'
  unfold ListsExpired at hlists
  unfold cleanupStep at hstep
  cases hpc : s.cleanup with
  | tick =>
      simp only [hpc] at hstep
      split at hstep
      · obtain rfl := Option.some.inj hstep
        cases hid
      · cases hstep
  | tunnels =>
      simp only [hpc] at hstep
      obtain rfl := Option.some.inj hstep
      dsimp only at hid
      split at hid
      · cases hid
      · cases hid
  | findExpired =>
      simp only [hpc] at hstep
      obtain rfl := Option.some.inj hstep
      dsimp only at hid
      split at hid
      · cases hid
      · exact expired_of_mem_findExpired hid hp'
  | removePlayers expired =>
      rw [hpc] at hlists
      cases expired with
      | nil =>
          simp only [hpc] at hstep
          obtain rfl := Option.some.inj hstep
          cases hid
      | cons playerId rest =>
          simp only [hpc] at hstep
          obtain rfl := Option.some.inj hstep
          have hrest : id ∈ rest := by
            dsimp only at hid
            split at hid
            · exact hid
            · exact hid
          simp only [AppState.takePlayer, Table.get?_remove] at hp'
          split at hp'
          · cases hp'
          · exact hlists id (List.mem_cons_of_mem _ hrest) p' hp'
  | removeRooms hostingRoom joinedRoom rest =>
      rw [hpc] at hlists
      simp only [hpc, clearRooms_eq] at hstep
      obtain rfl := Option.some.inj hstep
      exact hlists id hid p' hp'

/-- While no listed player is refreshed, whoever is on the list is expired. -/
theorem listsExpired_of_reachable
    (h : (machine.restrict fun s l => s.sparesExpired l = true).Reachable s) :
    s.ListsExpired := by
  apply h.invariant (I := ListsExpired)
  · intro id hid
    cases hid
  · intro s l s' hreach hlists hs
    obtain ⟨hspared, hs⟩ := Machine.restrict_step.mp hs
    by_cases hl : l = .cleanup
    · subst hl
      exact hlists.cleanup hs
    · have hkeeps := keepsListed_of_step hl hreach.of_restrict hs hspared
      intro id hid p' hp'
      rw [hkeeps.cleanup] at hid
      obtain ⟨p, hp, hheartbeat, hdisconnected⟩ := hkeeps.times id hid p' hp'
      exact ConnectedPlayer.expired_mono (hlists id hid p hp) hheartbeat hdisconnected
        (now_le_of_step hs)

/-! ## Removals -/

/-- Whoever the cleanup task removes with its next block is expired at that moment. -/
def RemovesExpired (s : Lobby) : Prop :=
  ∀ s' id p, s.step .cleanup = some s' → s.app.players.get? id = some p →
    s'.app.players.get? id = none → p.expired s.now = true

/-- The cleanup task removes nobody but the first player of its list. -/
theorem mem_expired_of_removed {p : ConnectedPlayer} (hstep : s.cleanupStep = some s')
    (hp : s.app.players.get? id = some p) (hgone : s'.app.players.get? id = none) :
    id ∈ s.cleanup.expired := by
  have hkept : s'.app.players = s.app.players → id ∈ s.cleanup.expired := by
    intro hplayers
    rw [hplayers, hp] at hgone
    cases hgone
  unfold cleanupStep at hstep
  cases hpc : s.cleanup with
  | tick =>
      simp only [hpc] at hstep
      split at hstep
      · obtain rfl := Option.some.inj hstep
        exact hpc ▸ hkept rfl
      · cases hstep
  | tunnels =>
      simp only [hpc] at hstep
      obtain rfl := Option.some.inj hstep
      exact hpc ▸ hkept rfl
  | findExpired =>
      simp only [hpc] at hstep
      obtain rfl := Option.some.inj hstep
      exact hpc ▸ hkept rfl
  | removePlayers expired =>
      cases expired with
      | nil =>
          simp only [hpc] at hstep
          obtain rfl := Option.some.inj hstep
          exact hpc ▸ hkept rfl
      | cons playerId rest =>
          simp only [hpc] at hstep
          obtain rfl := Option.some.inj hstep
          simp only [AppState.takePlayer, Table.get?_remove] at hgone
          split at hgone
          next heq => exact heq ▸ List.mem_cons_self
          · rw [hp] at hgone
            cases hgone
  | removeRooms hostingRoom joinedRoom rest =>
      simp only [hpc, clearRooms_eq] at hstep
      obtain rfl := Option.some.inj hstep
      exact hpc ▸ hkept rfl

/-- If no listed player is refreshed before it is removed, the cleanup task removes expired
players only. -/
theorem removesExpired_of_reachable
    (h : (machine.restrict fun s l => s.sparesExpired l = true).Reachable s) :
    s.RemovesExpired := by
  intro s' id p hstep hp hgone
  exact listsExpired_of_reachable h id (mem_expired_of_removed hstep hp hgone) p hp

/-- A player falls silent, and the cleanup task lists it. -/
def listsSilent : List Label :=
  registers 1 "a" ++ [.elapse (secs 31)] ++ List.replicate 4 .cleanup

/-- A silent player is listed, and will be removed. -/
theorem removesExpired_silent :
    ∃ s, (machine.restrict fun s l => s.sparesExpired l = true).Reachable s ∧
      s.cleanup.expired = ["a"] ∧ (s.app.players.get? "a").isSome = true ∧
        s.RemovesExpired := by
  have hrun : ((machine.restrict fun s l => s.sparesExpired l = true).exec machine.init
      listsSilent).any
      (fun s => decide (s.cleanup.expired = ["a"]) && (s.app.players.get? "a").isSome) = true := by
    decide
  obtain ⟨s, _, hreach, htest⟩ := Machine.exists_reachable_of_exec
    (M := machine.restrict fun s l => s.sparesExpired l = true) hrun
  obtain ⟨hexpired, hplayer⟩ := Bool.and_eq_true_iff.mp htest
  exact ⟨s, hreach, of_decide_eq_true hexpired, hplayer, removesExpired_of_reachable hreach⟩

/-- The heartbeat of a silent player arrives after it was listed, and the player is removed
all the same. -/
theorem not_removesExpired : ∃ s, machine.Reachable s ∧ ¬ s.RemovesExpired := by
  have hrun : (machine.exec machine.init
      (listsSilent ++ [.frame 1 (.text 20 (some .heartbeat) none), .block 1 ""])).any
      (fun s => (s.app.players.get? "a").any (fun p => !p.expired s.now) &&
        (s.step .cleanup).any fun s' => (s'.app.players.get? "a").isNone) = true := by
    decide
  obtain ⟨s, _, hreach, htest⟩ := Machine.exists_reachable_of_exec hrun
  obtain ⟨hfresh, hremoved⟩ := Bool.and_eq_true_iff.mp htest
  obtain ⟨p, hp, hfresh⟩ := (Option.any_eq_true _ _).mp hfresh
  obtain ⟨s', hstep, hgone⟩ := (Option.any_eq_true _ _).mp hremoved
  refine ⟨s, hreach, fun hremoves => ?_⟩
  rw [hremoves s' "a" p hstep hp (Option.isNone_iff_eq_none.mp hgone)] at hfresh
  cases hfresh

end Lobby

end War3BattleTool.Server
