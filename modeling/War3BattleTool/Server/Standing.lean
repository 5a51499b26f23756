import Mathlib.Data.Fintype.EquivFin
import War3BattleTool.Server.Credentials
import War3BattleTool.Server.Sections
import War3BattleTool.Server.Tokens

set_option autoImplicit false

/-!
# Where a task stands

Nobody but a task itself changes the section before which it stands, unless it is cancelled
(`wanted_of_step`), and a task that has the locks of its section can run it (`exists_act`).
-/

namespace War3BattleTool.Server

open War3BattleTool.Foundation War3BattleTool.Protocol

/-- The token of a handler that stands between the two blocks of `register_token`. -/
def HandlerPc.draws : HandlerPc → Option String
  | .joinRegisterBinding _ tunnelToken => some tunnelToken
  | _ => none

/-! ## Tunnel connections -/

namespace TunnelService

variable {s s' : TunnelService} {c c' : ConnId} {t t' : TunnelTask}

theorem pcOf_setTask_of_ne (hne : c ≠ c') : (s.setTask c' t).pcOf c = s.pcOf c := by
  rw [pcOf, setTask, Table.get?_modify, if_neg hne]
  rfl

theorem pcOf_setTask_of_same (ht : s.tasks.get? c' = some t) (hpc : t'.pc = t.pc) :
    (s.setTask c' t').pcOf c = s.pcOf c := by
  rw [pcOf, setTask, Table.get?_modify]
  split
  next heq =>
    subst heq
    simp [pcOf, ht, hpc]
  next => rfl

theorem pcOf_dropPeers (peers : List WaitingPeer) : (s.dropPeers peers).pcOf c = s.pcOf c := by
  have hdrop : ∀ t : TunnelTask, t.dropNotify.pc = t.pc := by
    intro t
    unfold TunnelTask.dropNotify
    split <;> rfl
  rw [pcOf, dropPeers, Table.get?_mapValues, pcOf, Option.map_map]
  congr 1
  funext t
  simp only [Function.comp_apply]
  split
  · exact hdrop t
  · rfl

/-- A step of somebody else leaves the handler of a connection where it stands. -/
theorem pcOf_of_other {l : Label} (hstep : s.step l = some s') (hl : l.conn ≠ some c) :
    s'.pcOf c = s.pcOf c := by
  have hne : ∀ {c'}, l.conn = some c' → c ≠ c' := by
    rintro c' hconn rfl
    exact hl hconn
  cases Step.of_step hstep with
  | elapse | registerPending | registerBinding | lookupUpnp | denied | ignores => rfl
  | admitted =>
      rw [pcOf, tasks_setTunnel, Table.get?_insert, if_neg (hne rfl)]
      rfl
  | own _ hown => exact pcOf_setTask_of_ne (hne hown.conn)
  | found | misses | releases => exact pcOf_setTask_of_ne (hne rfl)
  | joins _ _ hwaiter =>
      refine (pcOf_setTask_of_ne (hne rfl)).trans ?_
      exact pcOf_setTask_of_same hwaiter rfl
  | waits | stopsWaiting => exact (pcOf_setTask_of_ne (hne rfl)).trans (pcOf_dropPeers _)
  | forwards _ _ _ _ hp =>
      exact (pcOf_setTask_of_ne (hne rfl)).trans (pcOf_setTask_of_same hp rfl)
  | cleanup =>
      unfold cleanupStep
      split
      · exact pcOf_dropPeers _
      · rfl
      · rfl

theorem OwnStep.locks {l : Label} (h : OwnStep s c t l t') (hblock : l ≠ .block c) :
    t.pc.locks = [] := by
  cases h with
  | rejected | verified | alone => exact absurd rfl hblock
  | upgraded _ hpc | notified hpc | forsaken hpc | timedOut hpc | takes hpc | drained hpc
  | sent hpc | unsent hpc | limited hpc | overflows hpc | pinged hpc | hungUp hpc | idled hpc =>
      rw [hpc]
      rfl

/-- A step of a connection that is no block and no request finds no section open. -/
theorem locks_of_own {l : Label} (hstep : s.step l = some s') (hl : l.conn = some c)
    (hblock : l ≠ .block c)
    (hrequest : ∀ originOk clientIp token role, l ≠ .request c originOk clientIp token role) :
    ∃ pc, s.pcOf c = some pc ∧ pc.locks = [] := by
  have hpc : ∀ {t}, s.tasks.get? c = some t → t.pc.locks = [] →
      ∃ pc, s.pcOf c = some pc ∧ pc.locks = [] :=
    fun {t} ht hlocks => ⟨t.pc, by rw [pcOf, ht]; rfl, hlocks⟩
  cases Step.of_step hstep with
  | elapse | registerPending | registerBinding | lookupUpnp | cleanup => cases hl
  | denied | admitted =>
      cases hl
      exact absurd rfl (hrequest _ _ _ _)
  | found | joins | misses | waits | stopsWaiting | releases =>
      cases hl
      exact absurd rfl hblock
  | own ht hown =>
      obtain rfl := Option.some.inj (hown.conn.symm.trans hl)
      exact hpc ht (hown.locks hblock)
  | forwards ht hrelays | ignores ht hrelays =>
      cases hl
      exact hpc ht (by rw [hrelays]; rfl)

/-- Between the two blocks of `register_token` a token stays on record. -/
theorem registering_of_step {l : Label} {token : String} (hstep : s.step l = some s')
    (hl : l ≠ .registerBinding token) (hon : (s.registering.get? token).isSome = true) :
    (s'.registering.get? token).isSome = true := by
  cases Step.of_step hstep with
  | registerPending =>
      simp only [setTunnel, Table.get?_insert]
      split
      · rfl
      · exact hon
  | @registerBinding token' =>
      have hne : token ≠ token' := by
        rintro rfl
        exact hl rfl
      simp only [setTunnel, Table.get?_remove, if_neg hne]
      exact hon
  | cleanup =>
      unfold cleanupStep
      split
      · exact hon
      · exact hon
      · exact hon
  | _ => exact hon

/-- A token is new when it is drawn. -/
theorem drawn_of_registerPending {token playerId : String} {hostIp joinerIp : IpAddr}
    (hstep : s.step (.registerPending token hostIp joinerIp playerId) = some s') :
    token ∉ s.issued ∧ token ∈ s'.issued ∧ (s'.registering.get? token).isSome = true := by
  obtain ⟨hnew, rfl⟩ := registerPending_of_step hstep
  refine ⟨hnew, List.mem_cons_self .., ?_⟩
  simp [setTunnel, Table.get?_insert]

end TunnelService

/-! ## All tasks -/

namespace Lobby

variable {s s' : Lobby} {t : ServerTask} {c : SocketId}

/-- Only its request admits a lobby connection. -/
theorem get?_sockets_none {l : Label} (hstep : s.step l = some s')
    (hl : l.task ≠ some (.socket c)) (hnone : s.sockets.get? c = none) :
    s'.sockets.get? c = none := by
  have hmoved : ∀ c', isOwn c' s l = true → s'.sockets.get? c = none := by
    intro c' hown
    obtain ⟨h, h', hc', hm⟩ := moves_of_own hstep hown
    have hne : c ≠ c' := by
      rintro rfl
      rw [hnone] at hc'
      cases hc'
    rw [hm.get?_of_ne hne, hnone]
  cases l with
  | elapse d =>
      cases hstep
      exact hnone
  | tunnel l =>
      simp only [step] at hstep
      split at hstep
      · obtain ⟨tunnel, _, rfl⟩ := Option.map_eq_some_iff.mp hstep
        exact hnone
      · cases hstep
  | request c' originOk clientIp =>
      simp only [step, request] at hstep
      split at hstep
      · cases hstep
      · split at hstep <;> cases hstep
        · next hadmitted =>
          cases originOk with
          | false => cases hadmitted
          | true =>
              have hne : c ≠ c' := by
                rintro rfl
                exact hl rfl
              rw [setApp, Table.get?_insert, if_neg hne, hnone]
        · exact hnone
  | upgrade c' playerId =>
      simp only [step] at hstep
      split at hstep
      · next clientIp hc' =>
        have hne : c ≠ c' := by
          rintro rfl
          rw [hnone] at hc'
          cases hc'
        cases playerId with
        | some playerId =>
            simp only [upgraded] at hstep
            split at hstep <;> cases hstep
            simp only [put, Table.get?_modify, if_neg hne]
            exact hnone
        | none =>
            cases hstep
            simp only [Table.get?_modify, if_neg hne]
            exact hnone
      · cases hstep
  | frame c' item | block c' fresh | drop c' => exact hmoved c' (by simp [isOwn])
  | sent c' ok =>
      obtain ⟨o, _, hsent⟩ := Option.bind_eq_some_iff.mp hstep
      obtain ⟨o', _, rfl⟩ := Option.map_eq_some_iff.mp hsent
      exact hnone
  | cleanup =>
      rw [(cleanupStep_frame hstep).1]
      exact hnone

/-- Nobody else changes the section before which a lobby connection stands. -/
theorem wanted_socket {l : Label} (hstep : s.step l = some s') (hl : l.task ≠ some (.socket c))
    (hdrop : l ≠ .drop c) (hopen : s.wanted (.socket c) ≠ []) :
    s'.wanted (.socket c) = s.wanted (.socket c) := by
  have hsame : s'.sockets.get? c = s.sockets.get? c := by
    cases hc : s.sockets.get? c with
    | none => exact get?_sockets_none hstep hl hc
    | some socket =>
        simp only [wanted, hc] at hopen
        cases socket with
        | upgrading | upgradeFailed => exact absurd rfl hopen
        | running h =>
            refine get?_sockets_of_other hstep hc ?_
            cases l with
            | frame c' item =>
                obtain ⟨h', hc', hframe⟩ := whenRunning_eq_some hstep
                refine decide_eq_false ?_
                rintro rfl
                obtain rfl : h = h' := by simpa [hc] using hc'
                split at hframe
                · next hpc => simp [socketLocks, hpc, HandlerPc.locks] at hopen
                · cases hframe
            | block c' fresh =>
                refine decide_eq_false ?_
                rintro rfl
                exact hl rfl
            | drop c' =>
                refine decide_eq_false ?_
                rintro rfl
                exact hdrop rfl
            | _ => rfl
  rw [wanted, wanted, hsame]

/-- Only a step of a tunnel connection itself is a step of its handler. -/
theorem eq_tunnel_of_conn {c : ConnId} {l : Label} {m : TunnelService.Label}
    (hl : s.tunnelLabel l = some m) (hm : m.conn = some c) : l = .tunnel m := by
  cases l with
  | tunnel l => exact congrArg _ (Option.some.inj hl)
  | elapse d =>
      cases hl
      cases hm
  | block c' fresh =>
      simp only [tunnelLabel, blockTunnelLabel] at hl
      repeat' split at hl
      all_goals cases hl
      all_goals cases hm
  | cleanup =>
      simp only [tunnelLabel] at hl
      split at hl <;> cases hl
      cases hm
  | request | upgrade | frame | drop | sent => cases hl

/-- A step of a tunnel connection that is not the one that its section is for leaves the handler
where it stands. -/
theorem pcOf_of_own {c : ConnId} {m : TunnelService.Label} {tunnel : TunnelService}
    (hstep : s.tunnel.step m = some tunnel) (hm : m.conn = some c)
    (hl : (Label.tunnel m).task ≠ some (.tunnel c)) (hopen : s.wanted (.tunnel c) ≠ []) :
    tunnel.pcOf c = s.tunnel.pcOf c := by
  by_cases hblock : m = .block c
  · exact absurd (by rw [hblock]; rfl) hl
  by_cases hrequest : ∃ originOk clientIp token role, m = .request c originOk clientIp token role
  · obtain ⟨originOk, clientIp, token, role, rfl⟩ := hrequest
    have hacquires : acquiresTunnel originOk token role = false := by
      by_contra hacquires
      exact hl (by simp [Label.task, hacquires])
    obtain ⟨status, herror⟩ := tunnelHandler_of_not_acquires s.tunnel.tunnel clientIp
      hacquires
    cases TunnelService.Step.of_step hstep with
    | denied => rfl
    | admitted _ hok => simp [herror] at hok
    | own _ hown => cases hown
  · obtain ⟨pc, hpc, hlocks⟩ := TunnelService.locks_of_own hstep hm hblock
      fun originOk clientIp token role heq => hrequest ⟨originOk, clientIp, token, role, heq⟩
    rw [wanted, hpc] at hopen
    exact absurd hlocks hopen

/-- Nobody else changes the section before which a tunnel connection stands. -/
theorem wanted_tunnel {c : ConnId} {l : Label} (hstep : s.step l = some s')
    (hl : l.task ≠ some (.tunnel c)) (hopen : s.wanted (.tunnel c) ≠ []) :
    s'.wanted (.tunnel c) = s.wanted (.tunnel c) := by
  have hsame : s'.tunnel.pcOf c = s.tunnel.pcOf c := by
    obtain hsame | ⟨m, hlabel, hmoves⟩ := tunnel_cases hstep
    · rw [hsame]
    · by_cases hconn : m.conn = some c
      · obtain rfl := eq_tunnel_of_conn hlabel hconn
        exact pcOf_of_own hmoves hconn hl hopen
      · exact TunnelService.pcOf_of_other hmoves hconn
  rw [wanted, wanted, hsame]

/-- The cleanup task stands where it stood, and waits for the same tick. -/
structure SameSweeper (s s' : Lobby) : Prop where
  cleanup : s'.cleanup = s.cleanup
  nextTick : s'.nextTick = s.nextTick

theorem sameSweeper_frame {h : Handler} (item : Incoming) :
    SameSweeper s (s.frame c h item) := by
  have hframed := framed s c h item
  generalize s.frame c h item = s' at hframed ⊢
  cases hframed with
  | @passed len externalIp m =>
      have hdispatched := dispatched (s.put c (s.counted h)) c (s.counted h) m externalIp
      generalize (s.put c (s.counted h)).dispatch c (s.counted h) m externalIp = s''
        at hdispatched ⊢
      cases hdispatched <;> exact ⟨rfl, rfl⟩
  | _ => exact ⟨rfl, rfl⟩

theorem sameSweeper_block {h : Handler} {fresh : String} (hstep : s.block c h fresh = some s') :
    SameSweeper s s' := by
  have harm := arm_of_block hstep
  generalize h.pc = pc at harm
  cases harm with
  | createInsert draft hstep =>
      unfold createInsert at hstep
      split at hstep <;> cases hstep
      exact ⟨rfl, rfl⟩
  | joinRegisterPending ticket hstep | joinRegisterBinding ticket token hstep =>
      obtain ⟨tunnel, _, rfl⟩ := Option.map_eq_some_iff.mp hstep
      exact ⟨rfl, rfl⟩
  | broadcast | heartbeat | createLink | closeTake | closeRemove | upnpLookup | joinReleaseOld
  | removeRooms | finalBroadcast | returned => exact ⟨rfl, rfl⟩
  | registerCount | registerInsert | createRead | createCount | upnpForward | joinRoom
  | joinPlayers | joinReserve | joinRecord | leaving =>
      dsimp only [registerCount, registerInsert, createRead, createCount, upnpForward, joinRoom,
        joinPlayers, joinReserve, joinRecord, leaving]
      repeat' split
      all_goals exact ⟨rfl, rfl⟩

/-- Only the cleanup task moves the cleanup task. -/
theorem sameSweeper_of_step {l : Label} (hstep : s.step l = some s') (hl : l ≠ .cleanup) :
    SameSweeper s s' := by
  cases l with
  | cleanup => exact absurd rfl hl
  | elapse d =>
      cases hstep
      exact ⟨rfl, rfl⟩
  | tunnel l =>
      simp only [step] at hstep
      split at hstep
      · obtain ⟨tunnel, _, rfl⟩ := Option.map_eq_some_iff.mp hstep
        exact ⟨rfl, rfl⟩
      · cases hstep
  | request c originOk clientIp =>
      simp only [step, request] at hstep
      repeat' split at hstep
      all_goals cases hstep
      all_goals exact ⟨rfl, rfl⟩
  | upgrade c playerId =>
      simp only [step, upgraded] at hstep
      repeat' split at hstep
      all_goals cases hstep
      all_goals exact ⟨rfl, rfl⟩
  | frame c item =>
      obtain ⟨h, _, hframe⟩ := whenRunning_eq_some hstep
      split at hframe <;> cases hframe
      exact sameSweeper_frame item
  | block c fresh =>
      obtain ⟨h, _, hblock⟩ := whenRunning_eq_some hstep
      exact sameSweeper_block hblock
  | drop c =>
      obtain ⟨h, _, hdrop⟩ := whenRunning_eq_some hstep
      split at hdrop <;> cases hdrop
      exact ⟨rfl, rfl⟩
  | sent c ok =>
      obtain ⟨o, _, hsent⟩ := Option.bind_eq_some_iff.mp hstep
      obtain ⟨o', _, rfl⟩ := Option.map_eq_some_iff.mp hsent
      exact ⟨rfl, rfl⟩

/-- Only the cleanup task runs the cleanup of the tunnel service. -/
theorem eq_cleanup_of_tunnelLabel {l : Label} (hstep : s.step l = some s')
    (hl : s.tunnelLabel l = some .cleanup) : l = .cleanup := by
  cases l with
  | cleanup => rfl
  | tunnel m =>
      cases hl
      cases hstep
  | block c fresh =>
      simp only [tunnelLabel, blockTunnelLabel] at hl
      repeat' split at hl
      all_goals cases hl
  | elapse | request | upgrade | frame | drop | sent => cases hl

/-- Time passes for the tunnel service when it passes for the server. -/
theorem eq_elapse_of_tunnelLabel {l : Label} {d : Duration} (hstep : s.step l = some s')
    (hl : s.tunnelLabel l = some (.elapse d)) : l = .elapse d := by
  cases l with
  | elapse d' =>
      cases hl
      rfl
  | tunnel m =>
      cases hl
      cases hstep
  | block c fresh =>
      simp only [tunnelLabel, blockTunnelLabel] at hl
      repeat' split at hl
      all_goals cases hl
  | cleanup =>
      simp only [tunnelLabel] at hl
      split at hl <;> cases hl
  | request | upgrade | frame | drop | sent => cases hl

theorem tunnelCleanup_of_step {l : Label} (hstep : s.step l = some s') (hl : l ≠ .cleanup) :
    s'.tunnel.cleanup = s.tunnel.cleanup := by
  obtain htunnel | ⟨m, hlabel, hmoves⟩ := tunnel_cases hstep
  · rw [htunnel]
  generalize s'.tunnel = tunnel at hmoves ⊢
  cases TunnelService.Step.of_step hmoves with
  | cleanup => exact absurd (eq_cleanup_of_tunnelLabel hstep hlabel) hl
  | _ => rfl

/-- Nobody else changes the section before which the cleanup task stands. -/
theorem wanted_cleanup {l : Label} (hstep : s.step l = some s') (hl : l ≠ .cleanup) :
    s'.wanted .cleanup = s.wanted .cleanup := by
  rw [wanted, wanted, (sameSweeper_of_step hstep hl).cleanup, tunnelCleanup_of_step hstep hl]

/-- The task whose section a step ends: the one that runs its block, or the one that is
dropped. -/
def Label.ends : Label → Option ServerTask
  | .drop c => some (.socket c)
  | l => l.task

/-- Nobody else changes the section before which a task stands. -/
theorem wanted_of_step {l : Label} (hstep : s.step l = some s') (hl : l.ends ≠ some t)
    (hopen : s.wanted t ≠ []) : s'.wanted t = s.wanted t := by
  have htask : l.task ≠ some t := by
    intro htask
    cases l with
    | drop c => cases htask
    | _ => exact hl htask
  cases t with
  | socket c =>
      refine wanted_socket hstep htask ?_ hopen
      rintro rfl
      exact hl rfl
  | tunnel c => exact wanted_tunnel hstep htask hopen
  | cleanup =>
      refine wanted_cleanup hstep ?_
      rintro rfl
      exact hl rfl

/-! ## A section can be run -/

/-- The token that the handler of a connection registers. -/
def draws (s : Lobby) (c : SocketId) : Option String := (s.handler c).bind (·.pc.draws)

/-- A token between the two blocks of `register_token` is that of one handler, and its parties
are on record. -/
structure DrawsOnce (s : Lobby) : Prop where
  registering : ∀ {c token}, s.draws c = some token →
    token ∈ s.tunnel.issued ∧ (s.tunnel.registering.get? token).isSome = true
  unique : ∀ {c c' token}, s.draws c = some token → s.draws c' = some token → c' = c

variable {token : String} {h : Handler}

theorem draws_running (hc : s.sockets.get? c = some (.running h)) : s.draws c = h.pc.draws := by
  rw [draws, handler_eq_some.mpr hc, Option.bind_some]

theorem draws_put (hc : s.sockets.get? c = some (.running h)) (k : Handler) :
    (s.put c k).draws c = k.pc.draws := by
  refine draws_running ?_
  rw [get?_put hc, Function.update_self]

/-- No arm begins between the two blocks. -/
theorem Begins.draws {externalIp : Option IpAddr} {m : ClientMessage} {pc : HandlerPc}
    (h : Begins s h externalIp m pc) : pc.draws = none := by
  cases h <;> rfl

theorem draws_frame (hc : s.sockets.get? c = some (.running h)) (hpc : h.pc = .receiving)
    (item : Incoming) : (s.frame c h item).draws c = none := by
  have hput : (s.put c (s.counted h)).draws c = none := by
    rw [draws_put hc]
    exact congrArg _ hpc
  have hframed := framed s c h item
  generalize s.frame c h item = s' at hframed ⊢
  cases hframed with
  | left =>
      rw [draws_put hc, Handler.exit]
      dsimp only
      split <;> rfl
  | ignored | tooLong =>
      refine (draws_running hc).trans ?_
      rw [hpc]
      rfl
  | refused => exact hput
  | @passed len externalIp m =>
      have hdispatched := dispatched (s.put c (s.counted h)) c (s.counted h) m externalIp
      generalize (s.put c (s.counted h)).dispatch c (s.counted h) m externalIp = s''
        at hdispatched ⊢
      cases hdispatched with
      | ignored | refused | answered => exact hput
      | begun hbegins =>
          rw [goto, draws_put (h := s.counted h) (by rw [get?_put hc, Function.update_self])]
          exact hbegins.draws

/-- The handler draws its token in the first block of `register_token`. -/
theorem draws_block {fresh : String} (hc : s.sockets.get? c = some (.running h))
    (hstep : s.block c h fresh = some s') (hdraws : s'.draws c = some token) :
    fresh = token ∧ ∃ hostIp joinerIp playerId,
      blockTunnelLabel h fresh = some (.registerPending token hostIp joinerIp playerId) := by
  obtain ⟨k, hm, hleads⟩ := leadsTo_block hc hstep
  rw [draws_running hm.get?_self] at hdraws
  cases hpc' : k.pc with
  | joinRegisterBinding ticket drawn =>
      rw [hpc'] at hleads hdraws
      obtain rfl : drawn = token := Option.some.inj hdraws
      generalize hpc : h.pc = pc at hleads
      cases hleads
      have hput := hstep
      simp only [block, hpc, joinRegisterPending] at hput
      obtain ⟨tunnel, _, rfl⟩ := Option.map_eq_some_iff.mp hput
      have heq := eq_of_put (k := { h with pc := .joinRegisterBinding ticket fresh }) hc
        hm.get?_self rfl
      rw [heq] at hpc'
      cases hpc'
      exact ⟨rfl, ticket.hostIp, h.clientIp, h.playerId, by rw [blockTunnelLabel, hpc]⟩
  | _ =>
      rw [hpc'] at hdraws
      cases hdraws

/-- A handler that registers a token drew it in this step, or stands where it stood. -/
theorem draws_of_step {l : Label} (hstep : s.step l = some s') (hdraws : s'.draws c = some token) :
    (∃ hostIp joinerIp playerId, l = .block c token ∧
        s.tunnelLabel l = some (.registerPending token hostIp joinerIp playerId)) ∨
      (isOwn c s l = false ∧ s.draws c = some token) := by
  cases hown : isOwn c s l with
  | false =>
      right
      obtain ⟨h', hc', hpc'⟩ := Option.bind_eq_some_iff.mp hdraws
      rw [handler_eq_some] at hc'
      rcases running_of_step hstep hc' with hown' | ⟨clientIp, playerId, rfl⟩ | hc
      · rw [hown] at hown'
        cases hown'
      · cases hpc'
      · exact ⟨rfl, (draws_running hc).trans hpc'⟩
  | true =>
      left
      cases l with
      | frame c' item =>
          obtain rfl : c' = c := by simpa [isOwn] using hown
          obtain ⟨h, hc, hframe⟩ := whenRunning_eq_some hstep
          split at hframe <;> cases hframe
          next hpc =>
            rw [draws_frame hc hpc item] at hdraws
            cases hdraws
      | block c' fresh =>
          obtain rfl : c' = c := by simpa [isOwn] using hown
          obtain ⟨h, hc, hblock⟩ := whenRunning_eq_some hstep
          obtain ⟨rfl, hostIp, joinerIp, playerId, hlabel⟩ := draws_block hc hblock hdraws
          exact ⟨hostIp, joinerIp, playerId, rfl, by rw [tunnelLabel, hc]; exact hlabel⟩
      | drop c' =>
          obtain rfl : c' = c := by simpa [isOwn] using hown
          obtain ⟨h, hc, hdrop⟩ := whenRunning_eq_some hstep
          split at hdrop <;> cases hdrop
          rw [draws_put hc, Handler.exit] at hdraws
          dsimp only at hdraws
          split at hdraws <;> cases hdraws
      | _ => cases hown

/-- Only the handler that drew a token ends its registration. -/
theorem draws_of_registerBinding {l : Label} (hstep : s.step l = some s')
    (hl : s.tunnelLabel l = some (.registerBinding token)) :
    ∃ c, s.draws c = some token ∧ isOwn c s l = true := by
  cases l with
  | elapse d => cases hl
  | tunnel l =>
      cases hl
      cases hstep
  | block c fresh =>
      obtain ⟨h, hc, _⟩ := whenRunning_eq_some hstep
      simp only [tunnelLabel, hc, blockTunnelLabel] at hl
      split at hl <;> cases hl
      next ticket hpc => exact ⟨c, by rw [draws_running hc, hpc]; rfl, decide_eq_true rfl⟩
  | cleanup =>
      simp only [tunnelLabel] at hl
      split at hl <;> cases hl
  | request | upgrade | frame | drop | sent => cases hl

/-- Each step of the server keeps its registrations apart. -/
theorem DrawsOnce.step {l : Label} (hs : s.DrawsOnce) (hstep : s.step l = some s') :
    s'.DrawsOnce := by
  have hmoves := tunnelMoves_of_step hstep
  have hdrawn : ∀ token hostIp joinerIp playerId,
      s.tunnelLabel l = some (.registerPending token hostIp joinerIp playerId) →
        token ∉ s.tunnel.issued ∧ token ∈ s'.tunnel.issued ∧
          (s'.tunnel.registering.get? token).isSome = true := by
    intro token hostIp joinerIp playerId hlabel
    rw [hlabel] at hmoves
    exact TunnelService.drawn_of_registerPending hmoves
  constructor
  · intro c token hdraws
    rcases draws_of_step hstep hdraws with ⟨_, _, _, _, hlabel⟩ | ⟨hown, hold⟩
    · exact (hdrawn _ _ _ _ hlabel).2
    · obtain ⟨hissued, hon⟩ := hs.registering hold
      cases htunnel : s.tunnelLabel l with
      | none =>
          rw [htunnel] at hmoves
          rw [show s'.tunnel = s.tunnel from hmoves]
          exact ⟨hissued, hon⟩
      | some m =>
          rw [htunnel] at hmoves
          refine ⟨?_, TunnelService.registering_of_step hmoves ?_ hon⟩
          · rw [(TunnelService.registers_step hmoves).issued]
            exact List.mem_append_right _ hissued
          · rintro rfl
            obtain ⟨c', hold', hown'⟩ := draws_of_registerBinding hstep htunnel
            rw [hs.unique hold hold', hown] at hown'
            cases hown'
  · intro c c' token hdraws hdraws'
    rcases draws_of_step hstep hdraws with ⟨_, _, _, hl, hlabel⟩ | ⟨_, hold⟩
    · rcases draws_of_step hstep hdraws' with ⟨_, _, _, hl', _⟩ | ⟨_, hold'⟩
      · rw [hl] at hl'
        cases hl'
        rfl
      · exact absurd (hs.registering hold').1 (hdrawn _ _ _ _ hlabel).1
    · rcases draws_of_step hstep hdraws' with ⟨_, _, _, _, hlabel'⟩ | ⟨_, hold'⟩
      · exact absurd (hs.registering hold).1 (hdrawn _ _ _ _ hlabel').1
      · exact hs.unique hold hold'

theorem drawsOnce_of_reachable (h : machine.Reachable s) : s.DrawsOnce := by
  refine h.invariant ?_ fun _ _ _ _ hs hstep => hs.step hstep
  constructor
  · intro c token hdraws
    cases hdraws
  · intro c c' token hdraws
    cases hdraws

/-- The block of a handler that has its locks can be run. -/
theorem exists_block (hs : s.DrawsOnce) (hc : s.sockets.get? c = some (.running h))
    (hopen : h.pc.locks ≠ []) : ∃ fresh s', s.block c h fresh = some s' := by
  obtain ⟨fresh, hfresh⟩ := Infinite.exists_notMem_finset (s.roomIds ++ s.tunnel.issued).toFinset
  rw [List.mem_toFinset, List.mem_append, not_or] at hfresh
  refine ⟨fresh, Option.isSome_iff_exists.mp ?_⟩
  unfold block
  cases hpc : h.pc with
  | receiving | released =>
      rw [hpc] at hopen
      exact absurd rfl hopen
  | createInsert draft =>
      dsimp only
      rw [createInsert, if_neg hfresh.1]
      rfl
  | joinRegisterPending ticket =>
      dsimp only
      rw [joinRegisterPending, TunnelService.registerPending, if_neg hfresh.2]
      rfl
  | joinRegisterBinding ticket token =>
      have hdraws : s.draws c = some token := by
        rw [draws_running hc, hpc]
        rfl
      obtain ⟨binding, hbinding⟩ := Option.isSome_iff_exists.mp (hs.registering hdraws).2
      dsimp only
      rw [joinRegisterBinding, TunnelService.registerBinding, hbinding]
      rfl
  | _ => rfl

theorem exists_tunnelBlock {c : ConnId} {t : TunnelTask} (hopen : t.pc.locks ≠ []) :
    (s.tunnel.block c t).isSome = true := by
  unfold TunnelService.block
  cases hpc : t.pc with
  | upgrading | upgradeFailed | awaitPeer | relaying | released =>
      rw [hpc] at hopen
      exact absurd rfl hopen
  | _ => rfl

/-- A task that has the locks of its section can run it. -/
theorem exists_act (hs : s.DrawsOnce) (hopen : s.wanted t ≠ []) :
    ∃ l s', l.task = some t ∧ s.step l = some s' := by
  cases t with
  | socket c =>
      cases hc : s.sockets.get? c with
      | none =>
          refine ⟨.request c true (.v4 0), ?_⟩
          simp only [step, request, hc]
          split <;> exact ⟨_, rfl, rfl⟩
      | some socket =>
          simp only [wanted, hc] at hopen
          cases socket with
          | upgrading | upgradeFailed => exact absurd rfl hopen
          | running h =>
              obtain ⟨fresh, s', hblock⟩ := exists_block hs hc hopen
              exact ⟨.block c fresh, s', rfl, by simp only [step, whenRunning, hc, hblock]⟩
  | tunnel c =>
      cases hc : s.tunnel.tasks.get? c with
      | none =>
          obtain ⟨tunnel, hrequest⟩ : ∃ tunnel,
              s.tunnel.request c true (.v4 0) (some "t") (some "host") = some tunnel := by
            simp only [TunnelService.request, hc]
            split <;> exact ⟨_, rfl⟩
          refine ⟨.tunnel (.request c true (.v4 0) (some "t") (some "host")),
            s.setTunnel tunnel, rfl, ?_⟩
          simp only [step, isTunnelStep, TunnelService.step, hrequest, Option.map_some, if_true]
      | some task =>
          simp only [wanted, TunnelService.pcOf, hc] at hopen
          obtain ⟨tunnel, hblock⟩ := Option.isSome_iff_exists.mp
            (exists_tunnelBlock (s := s) (c := c) (t := task) hopen)
          refine ⟨.tunnel (.block c), s.setTunnel tunnel, rfl, ?_⟩
          simp only [step, isTunnelStep, TunnelService.step, hc, Option.bind_some, hblock,
            Option.map_some, if_true]
  | cleanup =>
      refine ⟨.cleanup, ?_⟩
      simp only [step, cleanupStep]
      cases hpc : s.cleanup with
      | tick =>
          rw [wanted, hpc] at hopen
          exact absurd rfl hopen
      | removePlayers expired => cases expired <;> exact ⟨_, rfl, rfl⟩
      | tunnels | findExpired | removeRooms => exact ⟨_, rfl, rfl⟩

end Lobby

end War3BattleTool.Server
