import War3BattleTool.Server.TunnelSteps

set_option autoImplicit false

/-!
# The tunnel service is a rendezvous board

`board` forgets everything about the tunnel service but who waits for whom, and
`boardMove` says which move of the rendezvous board a step of the service is.
`simulates` proves that every run of the service is a run of the board, so what
holds of the board in every run holds of the service.

The proof needs what a connection's locals look like at each `.await`; this is
`TunnelTask.WellFormed`.
-/

namespace War3BattleTool.Server

open War3BattleTool.Foundation

/-! ## The abstraction -/

/-- The standing of a connection at the board. -/
def TunnelTask.standing (t : TunnelTask) : Standing ConnId :=
  match t.pc with
  | .upgrading | .upgradeFailed | .checkBinding => .entering
  | .lookupWaiting => .admitted
  | .unbind peer => .holding peer.notify
  | .registerWaiting => .enlisting
  | .awaitPeer _ =>
      match t.notify with
      | .pending => .waiting
      | .sent tx => .chosen tx
      | _ => .dismissed
  | .unregisterWaiting => .withdrawing
  | .relaying r => if t.notify = .absent then .second r.peerTx else .first r.peerTx
  | .returned exit | .released exit =>
      if exit = .rejected then .refused
      else if t.notify = .absent then .left else .departed

namespace TunnelService

/-- The stage of a token. -/
def tokenStage (s : TunnelService) (token : String) : Stage :=
  match s.registering.get? token, s.tunnel.tokenBindings.get? token with
  | some _, _ => .pending
  | none, some _ => .valid
  | none, none => if token ∈ s.issued then .void else .unissued

/-- The service as a rendezvous board. -/
def board (s : TunnelService) : Board String ConnId where
  stage := s.tokenStage
  standing := fun c => (s.tasks.get? c).map fun t => (t.token, t.standing)
  notice := fun token => (s.tunnel.waiting.get? token).map (·.notify)
  meetings := s.pairs

/-- The move of a connection that leaves. -/
def leaving (c : ConnId) (t : TunnelTask) (exit : Exit) : Board.Move String ConnId :=
  .advance c (t.finish exit).standing

/-- The move that the next lock-guarded block of a connection is. -/
def blockMove (s : TunnelService) (c : ConnId) (t : TunnelTask) :
    Board.Move String ConnId :=
  match t.pc with
  | .checkBinding =>
      match s.tunnel.tokenBindings.get? t.token with
      | none => .advance c .refused
      | some binding =>
          if TunnelState.verifyIp binding t.role t.clientIp then .accept c
          else .advance c .refused
  | .lookupWaiting => .look c
  | .unbind _ => .meet c
  | .registerWaiting => .enlist c
  | .unregisterWaiting => .withdraw c
  | _ => .idle

/-- The move of the board that a step of the service is. -/
def boardMove (s : TunnelService) : Label → Board.Move String ConnId
  | .registerPending token _ _ _ => .issue token
  | .registerBinding token => .validate token
  | .request c originOk ip token role =>
      match (tunnelHandler s.tunnel originOk ip token role).2 with
      | .ok (token, _) => .enter c token
      | .error _ => .idle
  | .block c =>
      match s.tasks.get? c with
      | some t => s.blockMove c t
      | none => .idle
  | .notified c =>
      match s.tasks.get? c with
      | some t =>
          match t.notify with
          | .sent tx => .advance c (.first tx)
          | _ => leaving c t .unpaired
      | none => .idle
  | .timeout c => .advance c .withdrawing
  | .recv c =>
      match s.tasks.get? c with
      | some t => if t.inbox = [] then leaving c t .relayed else .idle
      | none => .idle
  | .sent c ok =>
      match s.tasks.get? c with
      | some t => if ok then .idle else leaving c t .relayed
      | none => .idle
  | .frame c item =>
      match s.tasks.get? c with
      | some t =>
          if item = .message .close ∨ item = .error ∨ item = .ended then
            leaving c t .relayed
          else .idle
      | none => .idle
  | .idle c =>
      match s.tasks.get? c with
      | some t => leaving c t .relayed
      | none => .idle
  | .cleanup =>
      match s.cleanup with
      | .removeWaiting => .expire fun token => token ∈ s.tunnel.expiredTokens s.now
      | .removeBindings expired => .void fun token => expired.contains token
      | .removeUpnp => .idle
  | .elapse _ | .lookupUpnp _ _ | .upgrade _ _ => .idle

end TunnelService

/-! ## The locals of a connection -/

namespace TunnelTask

/-- No message has passed. -/
def Silent (t : TunnelTask) : Prop := t.frames = [] ∧ t.wire = []

/-- What the locals of a connection look like at each `.await`. -/
def WellFormed (t : TunnelTask) : Prop :=
  match t.pc with
  | .upgrading | .upgradeFailed | .checkBinding =>
      t.notify = .absent ∧ t.myTx = false ∧ t.inbox = [] ∧ t.Silent
  | .lookupWaiting => t.notify = .absent ∧ t.myTx = true ∧ t.inbox = [] ∧ t.Silent
  | .unbind peer =>
      t.notify = .absent ∧ t.myTx = true ∧ t.inbox = [] ∧ t.Silent ∧
        peer.tx = peer.notify
  | .registerWaiting => t.notify = .pending ∧ t.myTx = true ∧ t.inbox = [] ∧ t.Silent
  | .awaitPeer _ =>
      t.notify ≠ .absent ∧ t.notify ≠ .gone ∧ t.Silent ∧
        (t.notify = .pending → t.inbox = [])
  | .unregisterWaiting => t.notify = .gone ∧ t.Silent
  | .relaying _ =>
      t.notify = .absent ∧ t.myTx = true ∨ t.notify = .gone ∧ t.myTx = false
  | .returned _ | .released _ =>
      (t.notify = .absent ∨ t.notify = .gone) ∧ t.myTx = false

/-- A connection in its `select!` stands by what has become of its one-shot channel. -/
theorem standing_awaitPeer {t : TunnelTask} {deadline : Nat} (hpc : t.pc = .awaitPeer deadline) :
    (t.standing = .waiting ∧ t.notify = .pending) ∨
      (∃ tx, t.standing = .chosen tx ∧ t.notify = .sent tx) ∨
      (t.standing = .dismissed ∧ t.notify ≠ .pending) := by
  simp only [standing, hpc]
  cases t.notify with
  | pending => exact .inl ⟨rfl, rfl⟩
  | sent tx => exact .inr (.inl ⟨tx, rfl, rfl⟩)
  | absent | closed | gone => exact .inr (.inr ⟨rfl, by simp⟩)

theorem standing_relaying {t : TunnelTask} {r : Relay} (hpc : t.pc = .relaying r) :
    t.standing = .first r.peerTx ∨ t.standing = .second r.peerTx := by
  simp only [standing, hpc]
  split
  · exact .inr rfl
  · exact .inl rfl

/-- A connection that has returned is refused, or it has left or departed. -/
theorem standing_over {t : TunnelTask} {exit : Exit}
    (hpc : t.pc = .returned exit ∨ t.pc = .released exit) :
    (t.standing = .refused ∧ exit = .rejected) ∨
      ((t.standing = .left ∨ t.standing = .departed) ∧ exit ≠ .rejected) := by
  have hst : t.standing = if exit = .rejected then .refused
      else if t.notify = .absent then .left else .departed := by
    obtain hpc | hpc := hpc
    · simp only [standing, hpc]
    · simp only [standing, hpc]
  rw [hst]
  by_cases hexit : exit = .rejected
  · exact .inl ⟨if_pos hexit, hexit⟩
  · refine .inr ⟨?_, hexit⟩
    rw [if_neg hexit]
    split
    · exact .inl rfl
    · exact .inr rfl

/-- What the standing of a connection that is still at the board says of the
block it is at. -/
theorem block_of_standing (t : TunnelTask) :
    match t.standing with
    | .admitted => t.pc = .lookupWaiting
    | .holding c => ∃ peer, t.pc = .unbind peer ∧ peer.notify = c
    | .enlisting => t.pc = .registerWaiting
    | .waiting => (∃ deadline, t.pc = .awaitPeer deadline) ∧ t.notify = .pending
    | _ => True := by
  cases hpc : t.pc with
  | lookupWaiting | registerWaiting => simp [standing, hpc]
  | unbind peer =>
      simp only [standing, hpc]
      exact ⟨peer, rfl, rfl⟩
  | awaitPeer deadline =>
      obtain ⟨hst, hnotify⟩ | ⟨tx, hst, _⟩ | ⟨hst, _⟩ := standing_awaitPeer hpc
      · rw [hst]
        exact ⟨⟨deadline, rfl⟩, hnotify⟩
      · simp only [hst]
      · simp only [hst]
  | relaying r =>
      obtain hst | hst := standing_relaying hpc
      all_goals simp only [hst]
  | returned exit =>
      obtain ⟨hst, _⟩ | ⟨hst | hst, _⟩ := standing_over (.inl hpc)
      all_goals simp only [hst]
  | released exit =>
      obtain ⟨hst, _⟩ | ⟨hst | hst, _⟩ := standing_over (.inr hpc)
      all_goals simp only [hst]
  | upgrading | upgradeFailed | checkBinding | unregisterWaiting => simp only [standing, hpc]

/-- A connection waits while it is in its `select!` and nothing has arrived. -/
theorem standing_eq_waiting {t : TunnelTask} :
    t.standing = .waiting ↔ (∃ deadline, t.pc = .awaitPeer deadline) ∧ t.notify = .pending := by
  constructor
  · intro hst
    have hblock := t.block_of_standing
    rwa [hst] at hblock
  · rintro ⟨⟨deadline, hpc⟩, hnotify⟩
    simp [standing, hpc, hnotify]

theorem WellFormed.admitted (ip : IpAddr) (token role : String) :
    (admitted ip token role).WellFormed := ⟨rfl, rfl, rfl, rfl, rfl⟩

/-- A connection that leaves keeps its one-shot receiver's past. -/
theorem notify_finish (t : TunnelTask) (exit : Exit) :
    (t.finish exit).notify = if t.notify = .absent then .absent else .gone := rfl

theorem WellFormed.finish (t : TunnelTask) (exit : Exit) : (t.finish exit).WellFormed := by
  refine ⟨?_, rfl⟩
  rw [notify_finish]
  split
  · exact .inl rfl
  · exact .inr rfl

/-- A dropped one-shot sender dismisses a connection that waits, and nobody
else. -/
theorem standing_dropNotify (t : TunnelTask) :
    t.dropNotify.standing = if t.standing = .waiting then .dismissed else t.standing := by
  unfold dropNotify
  split
  · next h =>
    cases hpc : t.pc with
    | relaying r => simp [standing, h, hpc]
    | returned exit | released exit =>
        cases exit with
        | rejected | unpaired | relayed => simp [standing, h, hpc]
    | _ => simp [standing, h, hpc]
  · next h =>
    exact (if_neg fun hwaiting => h (standing_eq_waiting.mp hwaiting).2).symm

theorem token_dropNotify (t : TunnelTask) : t.dropNotify.token = t.token := by
  unfold dropNotify
  split <;> rfl

theorem WellFormed.dropNotify {t : TunnelTask} (h : t.WellFormed)
    (hpc : t.pc ≠ .registerWaiting) : t.dropNotify.WellFormed := by
  unfold TunnelTask.dropNotify
  split
  · next hpending =>
    unfold WellFormed at h ⊢
    cases hpc' : t.pc <;> simp_all [Silent]
  · exact h

end TunnelTask

namespace TunnelService

/-! ## Steps of the service are moves of the board -/

/-- What the service maintains on its own. -/
structure Consistent (s : TunnelService) : Prop where
  tasks : ∀ {c t}, s.tasks.get? c = some t → t.WellFormed
  waiting : ∀ {token peer}, s.tunnel.waiting.get? token = some peer →
    peer.tx = peer.notify
  registering : ∀ {token binding}, s.registering.get? token = some binding →
    token ∈ s.issued ∧ s.tunnel.tokenBindings.get? token = none
  bindings : ∀ {token binding}, s.tunnel.tokenBindings.get? token = some binding →
    token ∈ s.issued

/-- The step makes the move `m` of the board and keeps the service consistent. -/
structure Refines (s : TunnelService) (m : Board.Move String ConnId)
    (s' : TunnelService) : Prop where
  move : Board.Step s.board m s'.board
  consistent : s'.Consistent

section Steps

variable {s s' : TunnelService} {c : ConnId} {t t' : TunnelTask}

theorem standing_board (h : s.tasks.get? c = some t) :
    s.board.standing c = some (t.token, t.standing) := by
  simp [board, h]

theorem get?_setTask (c' : ConnId) : (s.setTask c t').tasks.get? c' =
    if c' = c then (s.tasks.get? c').map fun _ => t' else s.tasks.get? c' :=
  Table.get?_modify ..

theorem get?_setTask_self (ht : s.tasks.get? c = some t) :
    (s.setTask c t').tasks.get? c = some t' := by
  simp [get?_setTask, ht]

theorem board_setTask (h : s.tasks.get? c = some t) (htoken : t'.token = t.token) :
    (s.setTask c t').board = s.board.place c t.token t'.standing := by
  have hstanding : (s.setTask c t').board.standing =
      (s.board.place c t.token t'.standing).standing := by
    funext c'
    rw [Board.standing_place]
    simp only [board, get?_setTask]
    split
    · next heq => simp [heq, h, htoken]
    · rfl
  exact congrArg (Board.mk s.tokenStage · s.board.notice s.pairs) hstanding

theorem Consistent.setTask (hs : s.Consistent) (hwf : t'.WellFormed) :
    (s.setTask c t').Consistent where
  tasks := by
    intro c' t'' ht''
    rw [get?_setTask] at ht''
    split at ht''
    · obtain ⟨_, _, rfl⟩ := Option.map_eq_some_iff.mp ht''
      exact hwf
    · exact hs.tasks ht''
  waiting := hs.waiting
  registering := hs.registering
  bindings := hs.bindings

/-- A step that ends with a change of one connection. -/
theorem Refines.setTask {m : Board.Move String ConnId} (hs' : s'.Consistent)
    (h : s'.tasks.get? c = some t) (htoken : t'.token = t.token) (hwf : t'.WellFormed)
    (hmove : Board.Step s.board m (s'.board.place c t.token t'.standing)) :
    Refines s m (s'.setTask c t') where
  move := board_setTask h htoken ▸ hmove
  consistent := hs'.setTask hwf

/-- A step the board does not see may come first. -/
theorem Refines.of_idle {s₁ : TunnelService} {m : Board.Move String ConnId}
    (h₁ : Refines s .idle s₁) (h₂ : Refines s₁ m s') : Refines s m s' := by
  have hboard : s.board = s₁.board := by
    simpa [Board.step] using Board.step_iff.mpr h₁.move
  exact ⟨hboard ▸ h₂.move, h₂.consistent⟩

/-- A step of one connection that the board does not see. -/
theorem Refines.setTask_idle (hs : s.Consistent) (h : s.tasks.get? c = some t)
    (htoken : t'.token = t.token) (hwf : t'.WellFormed)
    (hstanding : t'.standing = t.standing) : Refines s .idle (s.setTask c t') := by
  refine .setTask hs h htoken hwf ?_
  have hsame : s.board.place c t.token t'.standing = s.board := by
    have := standing_board h
    simp only [Board.place, hstanding, ← this, Function.update_eq_self]
  exact hsame.symm ▸ .idle

/-- A connection leaves. -/
theorem Refines.leave {exit : Exit} (hs : s.Consistent) (h : s.tasks.get? c = some t)
    (hsent : ∃ wire, t' = { t with wire := wire }.finish exit)
    (hadvances : t.standing.advances (t.finish exit).standing = true) :
    Refines s (leaving c t exit) (s.setTask c t') := by
  obtain ⟨wire, rfl⟩ := hsent
  exact .setTask hs h rfl (.finish _ _) (.advance (standing_board h) hadvances)

/-! ### Before `relay` -/

/-- The token check fails. -/
theorem refines_rejected (hs : s.Consistent) (h : s.tasks.get? c = some t)
    (hpc : t.pc = .checkBinding)
    (hforeign : ∀ binding, s.tunnel.tokenBindings.get? t.token = some binding →
      TunnelState.verifyIp binding t.role t.clientIp = false) :
    Refines s (s.boardMove (.block c)) (s.setTask c ((t.send .close).finish .rejected)) := by
  have hentering : t.standing = .entering := by simp [TunnelTask.standing, hpc]
  have hmove : s.boardMove (.block c) = .advance c .refused := by
    simp only [boardMove, h, blockMove, hpc]
    split
    · rfl
    · next binding hbinding => rw [hforeign binding hbinding, if_neg Bool.false_ne_true]
  rw [hmove]
  exact .setTask hs h rfl (.finish _ _)
    (.advance (standing_board h) (by simp [hentering, Standing.advances]))

/-- The token check is passed. -/
theorem refines_verified (hs : s.Consistent) (h : s.tasks.get? c = some t)
    (hpc : t.pc = .checkBinding) {binding : TokenBinding}
    (hbinding : s.tunnel.tokenBindings.get? t.token = some binding)
    (hverify : TunnelState.verifyIp binding t.role t.clientIp = true) :
    Refines s (s.boardMove (.block c))
      (s.setTask c { t with pc := .lookupWaiting, myTx := true }) := by
  have hentering : t.standing = .entering := by simp [TunnelTask.standing, hpc]
  have hwf := hs.tasks h
  simp only [TunnelTask.WellFormed, hpc] at hwf
  have hvalid : s.board.stage t.token = .valid := by
    have hnone : s.registering.get? t.token = none := by
      by_contra hsome
      obtain ⟨b, hb⟩ := Option.ne_none_iff_exists'.mp hsome
      simp [(hs.registering hb).2] at hbinding
    simp [board, tokenStage, hnone, hbinding]
  simp only [boardMove, h, blockMove, hpc, hbinding, hverify, if_true]
  refine .setTask hs h rfl ⟨hwf.1, rfl, hwf.2.2⟩ ?_
  exact .accept (hentering ▸ standing_board h) hvalid

/-- The maps the board sees are the waiting map and the bindings. -/
theorem board_setTunnel (tunnel : TunnelState)
    (hbindings : tunnel.tokenBindings = s.tunnel.tokenBindings) :
    (s.setTunnel tunnel).board =
      Board.mk s.board.stage s.board.standing
        (fun token => (tunnel.waiting.get? token).map (·.notify)) s.board.meetings := by
  have hstage : (s.setTunnel tunnel).tokenStage = s.tokenStage := by
    funext token
    dsimp only [tokenStage, setTunnel]
    rw [hbindings]
  exact congrArg (Board.mk · s.board.standing _ s.pairs) hstage

theorem Consistent.setTunnel (hs : s.Consistent) {tunnel : TunnelState}
    (hwaiting : ∀ {token peer}, tunnel.waiting.get? token = some peer →
      peer.tx = peer.notify)
    (hbindings : ∀ {token binding}, tunnel.tokenBindings.get? token = some binding →
      s.tunnel.tokenBindings.get? token = some binding) :
    (s.setTunnel tunnel).Consistent where
  tasks := hs.tasks
  waiting := hwaiting
  registering := by
    intro token binding hreg
    obtain ⟨hissued, hnone⟩ := hs.registering hreg
    refine ⟨hissued, ?_⟩
    by_contra hsome
    obtain ⟨b, hb⟩ := Option.ne_none_iff_exists'.mp hsome
    simp [hbindings hb] at hnone
  bindings := fun hb => hs.bindings (hbindings hb)

/-- Somebody waits under the token. -/
theorem refines_found (hs : s.Consistent) (h : s.tasks.get? c = some t)
    (hpc : t.pc = .lookupWaiting) {peer : WaitingPeer}
    (hpeer : s.tunnel.waiting.get? t.token = some peer) :
    Refines s (.look c)
      ((s.setTunnel (s.tunnel.removeWaiting t.token)).setTask c { t with pc := .unbind peer }) := by
  have hadmitted : s.board.standing c = some (t.token, .admitted) := by
    simp [standing_board h, TunnelTask.standing, hpc]
  have hwf := hs.tasks h
  simp only [TunnelTask.WellFormed, hpc] at hwf
  have hlook := Board.Step.look hadmitted
  have hnotice : s.board.notice t.token = some peer.notify := by simp [board, hpeer]
  have hremoved : (s.setTunnel (s.tunnel.removeWaiting t.token)).board =
      Board.mk s.board.stage s.board.standing
        (Function.update s.board.notice t.token none) s.board.meetings := by
    rw [board_setTunnel (s.tunnel.removeWaiting t.token) rfl]
    congr
    funext token
    rw [Function.update_apply, TunnelState.removeWaiting, Table.get?_remove]
    split
    · rfl
    · rfl
  have hconsistent : (s.setTunnel (s.tunnel.removeWaiting t.token)).Consistent :=
    hs.setTunnel (fun hpeer' => hs.waiting (Table.get?_of_remove hpeer')) id
  refine .setTask hconsistent h rfl ?_ ?_
  · exact ⟨hwf.1, hwf.2.1, hwf.2.2.1, hwf.2.2.2, hs.waiting hpeer⟩
  · rw [hremoved]
    simp only [Board.lookAt, hnotice] at hlook
    exact hlook

/-- Nobody waits under the token. -/
theorem refines_alone (hs : s.Consistent) (h : s.tasks.get? c = some t)
    (hpc : t.pc = .lookupWaiting) (hnone : s.tunnel.waiting.get? t.token = none) :
    Refines s (.look c) (s.setTask c { t with pc := .registerWaiting, notify := .pending }) := by
  have hadmitted : s.board.standing c = some (t.token, .admitted) := by
    simp [standing_board h, TunnelTask.standing, hpc]
  have hwf := hs.tasks h
  simp only [TunnelTask.WellFormed, hpc] at hwf
  have hlook := Board.Step.look hadmitted
  have hnotice : s.board.notice t.token = none := by simp [board, hnone]
  simp only [Board.lookAt, hnotice] at hlook
  exact .setTask hs h rfl ⟨rfl, hwf.2⟩ hlook

/-- Removing bindings voids their tokens. -/
theorem board_removeBindings (hs : s.Consistent) {tunnel : TunnelState}
    {gone : String → Bool} (hwaiting : tunnel.waiting = s.tunnel.waiting)
    (hbindings : ∀ token, tunnel.tokenBindings.get? token =
      if gone token then none else s.tunnel.tokenBindings.get? token) :
    (s.setTunnel tunnel).board = s.board.voidKeys gone := by
  have hnotice : (s.setTunnel tunnel).board.notice = s.board.notice := by
    simp [board, setTunnel, hwaiting]
  have hstage : (s.setTunnel tunnel).board.stage = (s.board.voidKeys gone).stage := by
    funext token
    dsimp only [board, Board.voidKeys, tokenStage, setTunnel]
    rw [hbindings]
    cases hreg : s.registering.get? token with
    | some binding => simp [Stage.voided]
    | none =>
        cases hb : s.tunnel.tokenBindings.get? token with
        | none => simp [Stage.voided]; grind
        | some binding =>
            have hissued := hs.bindings hb
            cases gone token with
            | false => simp
            | true => simp [Stage.voided, hissued]
  exact congr (congrArg (Board.mk · s.board.standing) hstage) hnotice |> congrFun <| s.pairs

theorem Consistent.removeBinding (hs : s.Consistent) (token : String) :
    (s.setTunnel (s.tunnel.removeBinding token)).Consistent :=
  hs.setTunnel hs.waiting Table.get?_of_remove

/-- The connection uses up its token. -/
theorem board_removeBinding (hs : s.Consistent) (token : String) :
    (s.setTunnel (s.tunnel.removeBinding token)).board = s.board.voidKeys (· = token) := by
  refine board_removeBindings hs rfl fun token' => ?_
  simp [TunnelState.removeBinding, Table.get?_remove]

/-- A waiting handler whose one-shot sender was handed over is pending exactly
when it stands by its notice. -/
theorem notify_eq_pending_iff {waiter : TunnelTask} (hwf : waiter.WellFormed)
    (hgave : waiter.standing.gave = true) :
    waiter.notify = .pending ↔ waiter.standing = .waiting := by
  cases hpc : waiter.pc with
  | awaitPeer deadline =>
      obtain ⟨hst, hnotify⟩ | ⟨tx, hst, hnotify⟩ | ⟨hst, hnotify⟩ :=
        TunnelTask.standing_awaitPeer hpc
      all_goals simp [hst, hnotify]
  | unregisterWaiting =>
      have hgone : waiter.notify = .gone := by
        simp only [TunnelTask.WellFormed, hpc] at hwf
        exact hwf.1
      simp [TunnelTask.standing, hpc, hgone]
  | relaying r =>
      obtain hst | hst := TunnelTask.standing_relaying hpc
      all_goals simp [hst, Standing.gave] at hgave
  | returned exit | released exit =>
      have hnotify : waiter.notify = .absent ∨ waiter.notify = .gone := by
        simp only [TunnelTask.WellFormed, hpc] at hwf
        exact hwf.1
      have hwaiting : waiter.standing ≠ .waiting := fun h => by
        obtain ⟨⟨deadline, hawait⟩, _⟩ := TunnelTask.standing_eq_waiting.mp h
        simp [hpc] at hawait
      obtain hnotify | hnotify := hnotify
      all_goals simp [hnotify, hwaiting]
  | _ => simp [TunnelTask.standing, hpc, Standing.gave] at hgave

/-- The waiting peer is joined. -/
theorem refines_handOver {m : Board.Move String ConnId} {peer : WaitingPeer}
    {waiter : TunnelTask} (hs' : s'.Consistent) (h : s'.tasks.get? c = some t)
    (hpc : t.pc = .unbind peer) (hwaiter : s'.tasks.get? peer.notify = some waiter)
    (hne : c ≠ peer.notify) (htoken : waiter.token = t.token)
    (hwaiting : waiter.standing = .waiting)
    (hmove : Board.Step s.board m (s'.board.join c t.token peer.notify)) :
    Refines s m (s'.handOver c t peer waiter) := by
  have hwf := hs'.tasks h
  simp only [TunnelTask.WellFormed, hpc] at hwf
  obtain ⟨hnotify, hmyTx, _, _, htx⟩ := hwf
  have hwwf := hs'.tasks hwaiter
  let paired : TunnelService :=
    { s' with pairs := s'.pairs ++ [Meeting.mk t.token peer.notify c] }
  have hpaired : paired.Consistent :=
    ⟨hs'.tasks, hs'.waiting, hs'.registering, hs'.bindings⟩
  obtain ⟨⟨deadline, hwpc⟩, _⟩ := TunnelTask.standing_eq_waiting.mp hwaiting
  simp only [TunnelTask.WellFormed, hwpc] at hwwf
  have hsent : (paired.setTask peer.notify { waiter with notify := .sent c }).Consistent := by
    refine hpaired.setTask ?_
    simp [TunnelTask.WellFormed, hwpc, TunnelTask.Silent, hwwf.2.2.1.1, hwwf.2.2.1.2]
  have htask : (paired.setTask peer.notify { waiter with notify := .sent c }).tasks.get? c =
      some t := by
    rw [get?_setTask, if_neg hne]
    exact h
  refine Refines.setTask hsent htask rfl (.inl ⟨hnotify, hmyTx⟩) ?_
  have hboard : (paired.setTask peer.notify { waiter with notify := .sent c }).board =
      paired.board.place peer.notify t.token (.chosen c) := by
    have hchosen : { waiter with notify := .sent c }.standing = .chosen c := by
      simp [TunnelTask.standing, hwpc]
    rw [← htoken, ← hchosen]
    exact board_setTask hwaiter rfl
  have hsecond : { t with pc := .relaying (.start peer.tx paired.now) }.standing =
      .second peer.notify := by
    simp [TunnelTask.standing, hnotify, Relay.start, htx]
  rw [hboard]
  exact hsecond ▸ hmove

/-- Whoever was taken out of the map is still there, since nobody else took its notice. -/
theorem waiter_of_unbind (hs : s.Consistent) (hsound : s.board.Sound)
    (h : s.tasks.get? c = some t) {peer : WaitingPeer} (hpc : t.pc = .unbind peer) :
    ∃ waiter, s.tasks.get? peer.notify = some waiter ∧ waiter.token = t.token ∧
      c ≠ peer.notify ∧ (waiter.notify = .pending ↔ waiter.standing = .waiting) ∧
        Board.Step s.board (.meet c) (s.board.meetWith c t.token peer.notify) ∧
          s.board.standing peer.notify = some (t.token, waiter.standing) := by
  have hholding : s.board.standing c = some (t.token, .holding peer.notify) := by
    simp [standing_board h, TunnelTask.standing, hpc]
  obtain ⟨st, hhost, hgave⟩ := hsound.held hholding
  obtain ⟨waiter, hwaiter, hst⟩ : ∃ waiter, s.tasks.get? peer.notify = some waiter ∧
      (waiter.token, waiter.standing) = (t.token, st) := by
    simpa [board] using hhost
  obtain ⟨htoken, rfl⟩ : waiter.token = t.token ∧ waiter.standing = st := by
    simpa using hst
  refine ⟨waiter, hwaiter, htoken, ?_, notify_eq_pending_iff (hs.tasks hwaiter) hgave,
    .meet hholding, hhost⟩
  rintro rfl
  obtain rfl : waiter = t := by simpa [h] using hwaiter.symm
  simp [TunnelTask.standing, hpc, Standing.gave] at hgave

/-- The peer that was taken out of the map still waits. -/
theorem refines_joins (hs : s.Consistent) (hsound : s.board.Sound)
    (h : s.tasks.get? c = some t) {peer : WaitingPeer} (hpc : t.pc = .unbind peer)
    {waiter : TunnelTask} (hwaiter : s.tasks.get? peer.notify = some waiter)
    (hnotify : waiter.notify = .pending) :
    Refines s (.meet c)
      ((s.setTunnel (s.tunnel.removeBinding t.token)).handOver c t peer waiter) := by
  obtain ⟨waiter', hwaiter', htoken, hne, hpending, hmeet, hhost⟩ :=
    waiter_of_unbind hs hsound h hpc
  obtain rfl := Option.some.inj (hwaiter.symm.trans hwaiter')
  have hwaiting := hpending.mp hnotify
  refine refines_handOver (hs.removeBinding t.token) h hpc hwaiter hne htoken hwaiting ?_
  simpa [Board.meetWith, hhost, hwaiting, board_removeBinding hs] using hmeet

/-- It waits no longer. -/
theorem refines_misses (hs : s.Consistent) (hsound : s.board.Sound)
    (h : s.tasks.get? c = some t) {peer : WaitingPeer} (hpc : t.pc = .unbind peer)
    (hgone : ∀ waiter, s.tasks.get? peer.notify = some waiter → waiter.notify ≠ .pending) :
    Refines s (.meet c)
      ((s.setTunnel (s.tunnel.removeBinding t.token)).setTask c
        ((t.send .close).finish .unpaired)) := by
  obtain ⟨waiter, hwaiter, _, _, hpending, hmeet, hhost⟩ := waiter_of_unbind hs hsound h hpc
  have hwaiting : waiter.standing ≠ .waiting :=
    fun heq => hgone waiter hwaiter (hpending.mpr heq)
  have hleft : ((t.send .close).finish .unpaired).standing = .left := by
    have hwf := hs.tasks h
    simp only [TunnelTask.WellFormed, hpc] at hwf
    simp [TunnelTask.standing, TunnelTask.finish, TunnelTask.send, hwf.1]
  refine .setTask (hs.removeBinding t.token) h rfl (.finish _ _) ?_
  rw [board_removeBinding hs, hleft]
  simp only [Board.meetWith, hhost] at hmeet
  split at hmeet
  · next heq => exact absurd (Prod.ext_iff.mp (Option.some.inj heq)).2 hwaiting
  · exact hmeet

/-! Entries of the waiting map are thrown out for the tokens `gone`, and `peers`
are the waiting peers among them. -/

section ThrownOut

variable {tunnel : TunnelState} {gone : String → Bool} {peers : List WaitingPeer}

/-- Whether the notice of a connection is thrown away. -/
theorem any_notify_iff (hsound : s.board.Sound)
    (hpeers : ∀ peer, peer ∈ peers ↔
      ∃ token, gone token = true ∧ s.tunnel.waiting.get? token = some peer)
    (h : s.tasks.get? c = some t) :
    peers.any (·.notify = c) = true ↔
      gone t.token = true ∧ s.board.notice t.token = some c := by
  simp only [List.any_eq_true, decide_eq_true_eq]
  constructor
  · rintro ⟨peer, hmem, rfl⟩
    obtain ⟨token, hgone, hpeer⟩ := (hpeers peer).mp hmem
    have hnotice : s.board.notice token = some peer.notify := by simp [board, hpeer]
    -- The poster of a notice presents the token it hangs under.
    obtain ⟨st, hst, _⟩ := hsound.posted hnotice
    obtain ⟨rfl, _⟩ : t.token = token ∧ t.standing = st := by
      simpa [standing_board h] using hst
    exact ⟨hgone, hnotice⟩
  · rintro ⟨hgone, hnotice⟩
    obtain ⟨peer, hpeer, rfl⟩ : ∃ peer, s.tunnel.waiting.get? t.token = some peer ∧
        peer.notify = c := by
      simpa [board] using hnotice
    exact ⟨peer, (hpeers peer).mpr ⟨t.token, hgone, hpeer⟩, rfl⟩

/-- Peers thrown out of the waiting map are notices thrown away. -/
theorem board_dropPeers (hsound : s.board.Sound)
    (hbindings : tunnel.tokenBindings = s.tunnel.tokenBindings)
    (hwaiting : ∀ token, tunnel.waiting.get? token =
      if gone token then none else s.tunnel.waiting.get? token)
    (hpeers : ∀ peer, peer ∈ peers ↔
      ∃ token, gone token = true ∧ s.tunnel.waiting.get? token = some peer) :
    ((s.setTunnel tunnel).dropPeers peers).board = s.board.takeDown gone := by
  have hnotice : ((s.setTunnel tunnel).dropPeers peers).board.notice =
      (s.board.takeDown gone).notice := by
    funext token
    simp only [board, TunnelService.dropPeers, setTunnel, hwaiting, Board.takeDown]
    split
    · rfl
    · rfl
  have hstage : ((s.setTunnel tunnel).dropPeers peers).tokenStage = s.tokenStage := by
    funext token
    dsimp only [tokenStage, setTunnel, TunnelService.dropPeers]
    rw [hbindings]
  have hstanding : ((s.setTunnel tunnel).dropPeers peers).board.standing =
      (s.board.takeDown gone).standing := by
    funext c
    simp only [board, TunnelService.dropPeers, setTunnel, Table.get?_mapValues,
      Board.takeDown, Option.map_map]
    cases h : s.tasks.get? c with
    | none => rfl
    | some t =>
        have hany := any_notify_iff hsound hpeers h
        simp only [board] at hany
        simp only [Option.map_some, Function.comp_apply, Option.some.injEq]
        by_cases hdropped : peers.any (·.notify = c) = true
        · simp only [hdropped, if_true, TunnelTask.token_dropNotify,
            TunnelTask.standing_dropNotify, (hany.mp hdropped).1, (hany.mp hdropped).2,
            true_and]
          split <;> rfl
        · have : ¬ (gone t.token = true ∧
              (s.tunnel.waiting.get? t.token).map (·.notify) = some c ∧
                t.standing = .waiting) :=
            fun hgone => hdropped (hany.mpr ⟨hgone.1, hgone.2.1⟩)
          simp only [hdropped, this, if_false, Bool.false_eq_true]
  calc ((s.setTunnel tunnel).dropPeers peers).board
      = Board.mk ((s.setTunnel tunnel).dropPeers peers).tokenStage
          ((s.setTunnel tunnel).dropPeers peers).board.standing
          ((s.setTunnel tunnel).dropPeers peers).board.notice s.pairs := rfl
    _ = s.board.takeDown gone := by rw [hstage, hstanding, hnotice]; rfl

theorem Consistent.dropPeers (hs : s.Consistent) (hsound : s.board.Sound)
    (hpeers : ∀ peer, peer ∈ peers ↔
      ∃ token, gone token = true ∧ s.tunnel.waiting.get? token = some peer)
    (hs' : (s.setTunnel tunnel).Consistent) :
    ((s.setTunnel tunnel).dropPeers peers).Consistent where
  tasks := by
    intro c t ht
    simp only [TunnelService.dropPeers, Table.get?_mapValues] at ht
    obtain ⟨t₀, ht₀, rfl⟩ := Option.map_eq_some_iff.mp ht
    have ht₀ : s.tasks.get? c = some t₀ := ht₀
    split
    · next hdropped =>
      refine (hs.tasks ht₀).dropNotify fun hpc => ?_
      -- A connection that has not posted its notice has none to lose.
      obtain ⟨_, hnotice⟩ := (any_notify_iff hsound hpeers ht₀).mp hdropped
      obtain ⟨st, hst, hposts⟩ := hsound.posted hnotice
      obtain rfl : t₀.standing = st := by simpa [standing_board ht₀] using hst
      simp [TunnelTask.standing, hpc, Standing.posts] at hposts
    · exact hs.tasks ht₀
  waiting := hs'.waiting
  registering := hs'.registering
  bindings := hs'.bindings

end ThrownOut

/-- The service once whoever waits under a token is thrown out. -/
def evict (s : TunnelService) (token : String) : TunnelService :=
  (s.setTunnel (s.tunnel.removeWaiting token)).dropPeers
    (s.tunnel.waiting.get? token).toList

theorem get?_removeWaiting (token token' : String) :
    (s.tunnel.removeWaiting token).waiting.get? token' =
      if decide (token' = token) then none else s.tunnel.waiting.get? token' := by
  simp [TunnelState.removeWaiting, Table.get?_remove]

theorem mem_toList_waiting (token : String) (peer : WaitingPeer) :
    peer ∈ (s.tunnel.waiting.get? token).toList ↔
      ∃ token', decide (token' = token) = true ∧
        s.tunnel.waiting.get? token' = some peer := by
  simp [Option.mem_toList]

theorem board_evict (hsound : s.board.Sound) (token : String) :
    (s.evict token).board = s.board.takeDown (· = token) :=
  board_dropPeers hsound rfl (get?_removeWaiting token) (mem_toList_waiting token)

theorem Consistent.evict (hs : s.Consistent) (hsound : s.board.Sound) (token : String) :
    (s.evict token).Consistent := by
  exact hs.dropPeers hsound (mem_toList_waiting token)
    (hs.setTunnel (fun hpeer => hs.waiting (Table.get?_of_remove hpeer)) id)

/-- A connection that does not wait is not affected. -/
theorem get?_evict (h : s.tasks.get? c = some t) (ht : t.notify ≠ .pending ∨
      ∀ peer, s.tunnel.waiting.get? t.token = some peer → peer.notify ≠ c) :
    (s.evict t.token).tasks.get? c = some t := by
  have hget : (s.evict t.token).tasks.get? c = (s.tasks.get? c).map fun t' =>
      if (s.tunnel.waiting.get? t.token).toList.any (·.notify = c) then t'.dropNotify
      else t' :=
    Table.get?_mapValues ..
  rw [hget, h]
  simp only [Option.map_some, Option.some.injEq]
  split
  · next hany =>
    obtain hnotify | hother := ht
    · simp [TunnelTask.dropNotify, hnotify]
    · obtain ⟨peer, hpeer, rfl⟩ : ∃ peer, s.tunnel.waiting.get? t.token = some peer ∧
          peer.notify = c := by
        simpa [List.any_eq_true, Option.mem_toList] using hany
      exact absurd rfl (hother peer hpeer)
  · rfl

theorem refines_registerWaiting (hs : s.Consistent) (hsound : s.board.Sound)
    (h : s.tasks.get? c = some t) (hpc : t.pc = .registerWaiting) :
    Refines s (.enlist c) (s.registerWaiting c t) := by
  have henlisting : s.board.standing c = some (t.token, .enlisting) := by
    simp [standing_board h, TunnelTask.standing, hpc]
  have hwf := hs.tasks h
  simp only [TunnelTask.WellFormed, hpc] at hwf
  have hevicted : (s.evict t.token).tasks.get? c = some t := by
    refine get?_evict h (.inr ?_)
    rintro peer hpeer rfl
    obtain ⟨st, hst, hposts⟩ := hsound.posted (k := t.token) (a := peer.notify)
      (by simp [board, hpeer])
    obtain rfl : .enlisting = st := by simpa [henlisting] using hst
    simp [Standing.posts] at hposts
  let peer : WaitingPeer := ⟨c, c, t.role, s.now⟩
  let posted := (s.evict t.token).setTunnel (s.tunnel.insertWaiting t.token peer)
  have hposted : posted.Consistent := by
    refine (hs.evict hsound t.token).setTunnel ?_ id
    intro token' peer' hpeer'
    rw [TunnelState.insertWaiting, Table.get?_insert] at hpeer'
    split at hpeer'
    · obtain rfl : peer = peer' := by simpa using hpeer'
      rfl
    · exact hs.waiting hpeer'
  have hboard : posted.board = Board.mk (s.board.takeDown (· = t.token)).stage
      (s.board.takeDown (· = t.token)).standing
      (Function.update (s.board.takeDown (· = t.token)).notice t.token (some c))
      s.board.meetings := by
    have hset := board_setTunnel (s := s.evict t.token)
      (s.tunnel.insertWaiting t.token peer) rfl
    rw [board_evict hsound] at hset
    refine hset.trans (congrArg (Board.mk _ _ · s.board.meetings) ?_)
    funext token'
    rw [Function.update_apply, TunnelState.insertWaiting, Table.get?_insert]
    split
    · rfl
    · next hne => simp [Board.takeDown, board, hne]
  have hunfold : s.registerWaiting c t =
      posted.setTask c { t with pc := .awaitPeer (s.now + pairingTimeout) } := rfl
  rw [hunfold]
  refine .setTask hposted hevicted rfl ?_ ?_
  · exact ⟨by simp [hwf.1], by simp [hwf.1], hwf.2.2.2, fun _ => hwf.2.2.1⟩
  · have hwaiting : { t with pc := .awaitPeer (s.now + pairingTimeout) }.standing =
        .waiting := by
      simp [TunnelTask.standing, hwf.1]
    rw [hboard, hwaiting]
    exact .enlist henlisting

theorem refines_unregisterWaiting (hs : s.Consistent) (hsound : s.board.Sound)
    (h : s.tasks.get? c = some t) (hpc : t.pc = .unregisterWaiting) :
    Refines s (.withdraw c) (s.unregisterWaiting c t) := by
  have hwithdrawing : s.board.standing c = some (t.token, .withdrawing) := by
    simp [standing_board h, TunnelTask.standing, hpc]
  have hwf := hs.tasks h
  simp only [TunnelTask.WellFormed, hpc] at hwf
  have hevicted : (s.evict t.token).tasks.get? c = some t :=
    get?_evict h (.inl (by simp [hwf.1]))
  have hunfold : s.unregisterWaiting c t =
      (s.evict t.token).setTask c ((t.send .close).finish .unpaired) := rfl
  rw [hunfold]
  refine .setTask (hs.evict hsound t.token) hevicted rfl (.finish _ _) ?_
  have hdeparted : ((t.send .close).finish .unpaired).standing = .departed := by
    simp [TunnelTask.standing, TunnelTask.finish, TunnelTask.send, hwf.1]
  rw [board_evict hsound, hdeparted]
  exact .withdraw hwithdrawing

theorem refines_releaseSlot (hs : s.Consistent) (h : s.tasks.get? c = some t)
    {exit : Exit} (hpc : t.pc = .returned exit) :
    Refines s .idle (s.releaseSlot c t exit) := by
  have hwf := hs.tasks h
  simp only [TunnelTask.WellFormed, hpc] at hwf
  have hs' : (s.setTunnel (s.tunnel.releaseTunnelConnection t.clientIp)).Consistent :=
    ⟨hs.tasks, hs.waiting, hs.registering, hs.bindings⟩
  have hidle : Refines (s.setTunnel (s.tunnel.releaseTunnelConnection t.clientIp)) .idle
      (s.releaseSlot c t exit) :=
    .setTask_idle hs' h rfl hwf (by simp [TunnelTask.standing, hpc])
  have hboard : (s.setTunnel (s.tunnel.releaseTunnelConnection t.clientIp)).board =
      s.board := rfl
  exact ⟨hboard ▸ hidle.move, hidle.consistent⟩

/-! ### Waiting -/

theorem refines_upgrade (hs : s.Consistent) (h : s.tasks.get? c = some t)
    (hpc : t.pc = .upgrading) (ok : Bool) :
    Refines s .idle
      (s.setTask c { t with pc := if ok then .checkBinding else .upgradeFailed }) := by
  have hwf := hs.tasks h
  simp only [TunnelTask.WellFormed, hpc] at hwf
  cases ok with
  | false => exact .setTask_idle hs h rfl hwf (by simp [TunnelTask.standing, hpc])
  | true => exact .setTask_idle hs h rfl hwf (by simp [TunnelTask.standing, hpc])

theorem refines_notified (hs : s.Consistent) (h : s.tasks.get? c = some t)
    {deadline : Instant} (hpc : t.pc = .awaitPeer deadline) {tx : ConnId}
    (hnotify : t.notify = .sent tx) :
    Refines s (.advance c (.first tx))
      (s.setTask c
        { t with pc := .relaying (.start tx s.now), myTx := false, notify := .gone }) := by
  have hchosen : s.board.standing c = some (t.token, .chosen tx) := by
    simp [standing_board h, TunnelTask.standing, hpc, hnotify]
  refine .setTask hs h rfl (.inr ⟨rfl, rfl⟩) ?_
  have hfirst : ({ t with pc := .relaying (.start tx s.now), myTx := false, notify := .gone } :
      TunnelTask).standing = .first tx := rfl
  rw [hfirst]
  exact .advance hchosen (by simp [Standing.advances])

theorem refines_forsaken (hs : s.Consistent) (h : s.tasks.get? c = some t)
    {deadline : Instant} (hpc : t.pc = .awaitPeer deadline) (hnotify : t.notify = .closed) :
    Refines s (leaving c t .unpaired) (s.setTask c (t.finish .unpaired)) := by
  refine .leave hs h ⟨t.wire, rfl⟩ ?_
  simp [TunnelTask.standing, TunnelTask.finish, hpc, hnotify, Standing.advances]

theorem refines_timeout (hs : s.Consistent) (h : s.tasks.get? c = some t)
    {deadline : Instant} (hpc : t.pc = .awaitPeer deadline) :
    Refines s (.advance c .withdrawing)
      (s.setTask c { t with pc := .unregisterWaiting, notify := .gone }) := by
  have hwf := hs.tasks h
  simp only [TunnelTask.WellFormed, hpc] at hwf
  refine .setTask hs h rfl ⟨rfl, hwf.2.2.1⟩ ?_
  have hadvances : t.standing.advances .withdrawing = true := by
    simp only [TunnelTask.standing, hpc]
    split <;> rfl
  exact .advance (standing_board h) hadvances

/-! ### `relay` -/

/-- A connection leaves `relay`. -/
theorem refines_leaveRelay (hs : s.Consistent) (h : s.tasks.get? c = some t)
    {r : Relay} (hpc : t.pc = .relaying r)
    (hsent : ∃ wire, t' = { t with wire := wire }.finish .relayed) :
    Refines s (leaving c t .relayed) (s.setTask c t') := by
  refine .leave hs h hsent ?_
  simp only [TunnelTask.standing, hpc, TunnelTask.finish]
  by_cases hnotify : t.notify = .absent
  · simp [hnotify, Standing.advances]
  · simp [hnotify, Standing.advances]

/-- A connection goes on relaying to the same peer. -/
theorem refines_goOn (hs : s.Consistent) (h : s.tasks.get? c = some t)
    {r r' : Relay} (hpc : t.pc = .relaying r) (hpc' : t'.pc = .relaying r')
    (hpeer : r'.peerTx = r.peerTx) (htoken : t'.token = t.token)
    (hnotify : t'.notify = t.notify) (hmyTx : t'.myTx = t.myTx) :
    Refines s .idle (s.setTask c t') := by
  have hwf := hs.tasks h
  simp only [TunnelTask.WellFormed, hpc] at hwf
  refine .setTask_idle hs h htoken ?_ ?_
  · simpa only [TunnelTask.WellFormed, hpc', hnotify, hmyTx] using hwf
  · simp [TunnelTask.standing, hpc, hpc', hnotify, hpeer]

/-- A step that changes one connection. -/
theorem refines_own {l : Label} (hs : s.Consistent) (h : s.tasks.get? c = some t)
    (hown : OwnStep s c t l t') : Refines s (s.boardMove l) (s.setTask c t') := by
  cases hown with
  | upgraded ok hpc => exact refines_upgrade hs h hpc ok
  | rejected hpc hforeign => exact refines_rejected hs h hpc hforeign
  | verified hpc hbinding hverify => exact refines_verified hs h hpc hbinding hverify
  | alone hpc hnone =>
      simp only [boardMove, h, blockMove, hpc]
      exact refines_alone hs h hpc hnone
  | notified hpc hnotify =>
      simp only [boardMove, h, hnotify]
      exact refines_notified hs h hpc hnotify
  | forsaken hpc hnotify =>
      simp only [boardMove, h, hnotify]
      exact refines_forsaken hs h hpc hnotify
  | timedOut hpc => exact refines_timeout hs h hpc
  | takes hpc hidle hinbox =>
      simp only [boardMove, h, hinbox, List.cons_ne_nil, if_false]
      exact refines_goOn hs h hpc rfl rfl rfl rfl rfl
  | drained hpc hidle hinbox =>
      simp only [boardMove, h, hinbox, if_true]
      exact refines_leaveRelay hs h hpc ⟨t.wire ++ [.close], rfl⟩
  | sent hpc =>
      simp only [boardMove, h, if_true]
      exact refines_goOn hs h hpc rfl rfl rfl rfl rfl
  | unsent hpc =>
      simp only [boardMove, h, Bool.false_eq_true, if_false]
      exact refines_leaveRelay hs h hpc ⟨t.wire, rfl⟩
  | limited hpc | overflows hpc =>
      simp only [boardMove, h, reduceCtorEq, StreamItem.message.injEq, or_self, if_false]
      exact refines_goOn hs h hpc rfl rfl rfl rfl rfl
  | pinged hpc =>
      simp only [boardMove, h, reduceCtorEq, StreamItem.message.injEq, or_self, if_false]
      exact refines_goOn hs h hpc hpc rfl rfl rfl rfl
  | hungUp hpc hidle hitem =>
      simp only [boardMove, h, if_pos hitem]
      exact refines_leaveRelay hs h hpc ⟨t.wire, rfl⟩
  | idled hpc =>
      simp only [boardMove, h]
      exact refines_leaveRelay hs h hpc ⟨t.wire ++ [.close], rfl⟩

/-- The connection a running `relay` sends to is its partner, which has at least
been chosen. -/
theorem peer_of_relaying (hsound : s.board.Sound) (hs : s.Consistent)
    (h : s.tasks.get? c = some t) {r : Relay} (hpc : t.pc = .relaying r) :
    (⟨t.token, c, r.peerTx⟩ ∈ s.pairs ∧ t.notify = .gone ∧ t.myTx = false) ∨
      (⟨t.token, r.peerTx, c⟩ ∈ s.pairs ∧ t.notify = .absent ∧ t.myTx = true) := by
  have hwf := hs.tasks h
  simp only [TunnelTask.WellFormed, hpc] at hwf
  have hst := standing_board h
  simp only [TunnelTask.standing, hpc] at hst
  obtain ⟨hnotify, hmyTx⟩ | ⟨hnotify, hmyTx⟩ := hwf
  · right
    simp only [hnotify, if_true] at hst
    exact ⟨hsound.second hst, hnotify, hmyTx⟩
  · left
    simp only [hnotify, reduceCtorEq, if_false] at hst
    exact ⟨hsound.engaged hst (by simp [Standing.engaged]), hnotify, hmyTx⟩

/-- How the locals of a paired connection look: it waits no more for a peer. -/
theorem wellFormed_of_paired (hsound : s.board.Sound) (hs : s.Consistent)
    (h : s.tasks.get? c = some t) {m : Meeting String ConnId} (hm : m ∈ s.pairs)
    (hc : m.first = c ∨ m.second = c) (inbox : List Message) :
    { t with inbox := inbox }.WellFormed := by
  have hwf := hs.tasks h
  have hst : t.standing.metFirst m.second = true ∨ t.standing.metSecond m.first = true := by
    obtain rfl | rfl := hc
    · obtain ⟨st, hst, hfirst⟩ := hsound.metFirst hm
      simp_all [standing_board h]
    · obtain ⟨st, hst, hsecond⟩ := hsound.metSecond hm
      simp_all [standing_board h]
  unfold TunnelTask.WellFormed at hwf ⊢
  cases hpc : t.pc with
  | awaitPeer deadline =>
      have hpending : t.notify ≠ .pending := by
        intro hnotify
        simp [TunnelTask.standing, hpc, hnotify, Standing.metFirst, Standing.metSecond] at hst
      simp_all [TunnelTask.Silent]
  | _ => simp_all [TunnelTask.standing, Standing.metFirst, Standing.metSecond, TunnelTask.Silent]

/-- A frame queued for the partner is none of the board's business. -/
theorem refines_forwards (hs : s.Consistent) (hsound : s.board.Sound)
    (h : s.tasks.get? c = some t) {r r' : Relay} (hpc : t.pc = .relaying r)
    (hpeer : r'.peerTx = r.peerTx) {p : TunnelTask} (hp : s.tasks.get? r.peerTx = some p)
    (data : Bytes) :
    Refines s .idle
      ((s.setTask r.peerTx { p with inbox := p.inbox ++ [.binary data] }).setTask c
        (t.record r' data .forwarded)) := by
  obtain ⟨m, hm, hpartner, hne⟩ : ∃ m ∈ s.pairs, (m.first = r.peerTx ∨ m.second = r.peerTx) ∧
      c ≠ r.peerTx := by
    obtain ⟨hm, _⟩ | ⟨hm, _⟩ := peer_of_relaying hsound hs h hpc
    · exact ⟨_, hm, .inr rfl, hsound.first_ne_second hm hm⟩
    · exact ⟨_, hm, .inl rfl, (hsound.first_ne_second hm hm).symm⟩
  have hsent : Refines s .idle
      (s.setTask r.peerTx { p with inbox := p.inbox ++ [.binary data] }) :=
    .setTask_idle hs hp rfl (wellFormed_of_paired hsound hs hp hm hpartner _) rfl
  have htask : (s.setTask r.peerTx { p with inbox := p.inbox ++ [.binary data] }).tasks.get? c =
      some t := by
    rw [get?_setTask, if_neg hne]
    exact h
  exact hsent.of_idle (refines_goOn hsent.consistent htask hpc rfl hpeer rfl rfl rfl)

/-! ### Registration, admission and cleanup -/

theorem refines_registerPending (hs : s.Consistent) {token : String} {hostIp joinerIp : IpAddr}
    {pid : String} (hfresh : token ∉ s.issued) :
    Refines s (.issue token)
      ({ s with
        registering := s.registering.insert token ⟨hostIp, joinerIp⟩
        issued := token :: s.issued }.setTunnel
          (s.tunnel.registerTokenPending s.now token hostIp pid)) := by
  have hreg : s.registering.get? token = none := by
    by_contra hsome
    obtain ⟨binding, hb⟩ := Option.ne_none_iff_exists'.mp hsome
    exact hfresh (hs.registering hb).1
  have hunbound : s.tunnel.tokenBindings.get? token = none := by
    by_contra hsome
    obtain ⟨binding, hb⟩ := Option.ne_none_iff_exists'.mp hsome
    exact hfresh (hs.bindings hb)
  refine ⟨?_, hs.tasks, hs.waiting, ?_, fun hb => List.mem_cons_of_mem _ (hs.bindings hb)⟩
  · have hunissued : s.board.stage token = .unissued := by
      simp [board, tokenStage, hreg, hunbound, hfresh]
    have hstage : tokenStage (setTunnel
        { s with
          registering := s.registering.insert token ⟨hostIp, joinerIp⟩
          issued := token :: s.issued }
        (s.tunnel.registerTokenPending s.now token hostIp pid)) =
        Function.update s.board.stage token .pending := by
      funext token'
      dsimp only [tokenStage, setTunnel, TunnelState.registerTokenPending, board]
      rw [Function.update_apply, Table.get?_insert]
      by_cases heq : token' = token
      · simp [heq]
      · simp [heq, tokenStage]
    have hboard := congrArg (Board.mk · s.board.standing s.board.notice s.pairs) hstage
    exact (Board.Step.issue hunissued).of_eq hboard
  · intro token' binding hb
    simp only [setTunnel, Table.get?_insert] at hb
    split at hb
    · next heq => exact ⟨heq ▸ List.mem_cons_self, heq ▸ hunbound⟩
    · exact ⟨List.mem_cons_of_mem _ (hs.registering hb).1, (hs.registering hb).2⟩

theorem refines_registerBinding (hs : s.Consistent) {token : String} {binding : TokenBinding}
    (hreg : s.registering.get? token = some binding) :
    Refines s (.validate token)
      ({ s with registering := s.registering.remove token }.setTunnel
        (s.tunnel.registerTokenBinding token binding.hostIp binding.joinerIp)) := by
  refine ⟨?_, hs.tasks, hs.waiting, ?_, ?_⟩
  · have hpending : s.board.stage token = .pending := by
      simp [board, tokenStage, hreg]
    have hstage : tokenStage (setTunnel
        { s with registering := s.registering.remove token }
        (s.tunnel.registerTokenBinding token binding.hostIp binding.joinerIp)) =
        Function.update s.board.stage token .valid := by
      funext token'
      dsimp only [tokenStage, setTunnel, TunnelState.registerTokenBinding, board]
      rw [Function.update_apply, Table.get?_insert, Table.get?_remove]
      by_cases heq : token' = token
      · simp [heq]
      · simp [heq, tokenStage]
    have hboard := congrArg (Board.mk · s.board.standing s.board.notice s.pairs) hstage
    exact (Board.Step.validate hpending).of_eq hboard
  · intro token' binding' hb
    simp only [setTunnel, Table.get?_remove] at hb
    split at hb
    · cases hb
    · next hne =>
      refine ⟨(hs.registering hb).1, ?_⟩
      simp only [setTunnel, TunnelState.registerTokenBinding, Table.get?_insert]
      rw [if_neg hne]
      exact (hs.registering hb).2
  · intro token' binding' hb
    simp only [setTunnel, TunnelState.registerTokenBinding, Table.get?_insert] at hb
    split at hb
    · next heq => exact heq ▸ (hs.registering hreg).1
    · exact hs.bindings hb

theorem refines_admitted (hs : s.Consistent) (hfresh : s.tasks.get? c = none) (ip : IpAddr)
    (token role : String) (conns : Table IpAddr Nat) :
    Refines s (.enter c token)
      ({ s with tasks := s.tasks.insert c (.admitted ip token role) }.setTunnel
        { s.tunnel with connectionsPerIp := conns }) := by
  refine ⟨?_, ?_, hs.waiting, hs.registering, hs.bindings⟩
  · have hnone : s.board.standing c = none := by simp [board, hfresh]
    have hstanding : (fun c' => ((s.tasks.insert c (.admitted ip token role)).get? c').map
        fun t => (t.token, t.standing)) =
        Function.update s.board.standing c (some (token, .entering)) := by
      funext c'
      rw [Function.update_apply, Table.get?_insert]
      split
      · rfl
      · rfl
    have hboard := congrArg (Board.mk s.board.stage · s.board.notice s.pairs) hstanding
    exact (Board.Step.enter hnone).of_eq hboard
  · intro c' t' ht'
    simp only [setTunnel, Table.get?_insert] at ht'
    split at ht'
    · cases ht'
      exact .admitted ..
    · exact hs.tasks ht'

theorem refines_cleanup (hsound : s.board.Sound) (hs : s.Consistent) :
    Refines s (s.boardMove .cleanup) s.cleanupStep := by
  cases hpc : s.cleanup with
  | removeWaiting =>
    simp only [boardMove, cleanupStep, hpc]
    have hmem : ∀ token, decide (token ∈ s.tunnel.expiredTokens s.now) = true ↔
        ∃ peer, s.tunnel.waiting.get? token = some peer ∧
          TunnelState.waitingExpired s.now peer = true := by
      intro token
      simp only [decide_eq_true_eq]
      exact TunnelState.mem_expiredTokens
    have hget : ∀ token, (s.tunnel.removeExpiredWaiting s.now).waiting.get? token =
        if decide (token ∈ s.tunnel.expiredTokens s.now) then none
        else s.tunnel.waiting.get? token := by
      intro token
      have hexpired := hmem token
      simp only [TunnelState.removeExpiredWaiting, Table.get?_retain]
      cases hpeer : s.tunnel.waiting.get? token with
      | none => simp
      | some peer =>
          simp only [hpeer, Option.some.injEq, exists_eq_left'] at hexpired
          cases hw : TunnelState.waitingExpired s.now peer <;> simp_all
    have hpeers : ∀ peer, peer ∈ s.tunnel.waiting.values.filter
        (TunnelState.waitingExpired s.now) ↔
        ∃ token, decide (token ∈ s.tunnel.expiredTokens s.now) = true ∧
          s.tunnel.waiting.get? token = some peer := by
      intro peer
      simp only [List.mem_filter, Table.mem_values_iff]
      constructor
      · rintro ⟨⟨token, hpeer⟩, hexpired⟩
        exact ⟨token, (hmem token).mpr ⟨peer, hpeer, hexpired⟩, hpeer⟩
      · rintro ⟨token, hexpired, hpeer⟩
        obtain ⟨peer', hpeer', hexpired⟩ := (hmem token).mp hexpired
        obtain rfl : peer = peer' := by simpa [hpeer] using hpeer'
        exact ⟨⟨token, hpeer⟩, hexpired⟩
    have hs' : (s.setTunnel (s.tunnel.removeExpiredWaiting s.now)).Consistent := by
      refine hs.setTunnel ?_ id
      intro token peer hpeer
      rw [hget] at hpeer
      split at hpeer
      · cases hpeer
      · exact hs.waiting hpeer
    have hdropped := hs.dropPeers hsound hpeers hs'
    refine ⟨?_, hdropped.tasks, hdropped.waiting, hdropped.registering, hdropped.bindings⟩
    exact Board.Step.expire.of_eq (board_dropPeers hsound rfl hget hpeers)
  | removeBindings expired =>
    simp only [boardMove, cleanupStep, hpc]
    have hget : ∀ token, (s.tunnel.removeBindings expired).tokenBindings.get? token =
        if expired.contains token then none else s.tunnel.tokenBindings.get? token := by
      intro token
      simp only [TunnelState.removeBindings, Table.get?_retain]
      cases s.tunnel.tokenBindings.get? token with
      | none => simp
      | some binding => by_cases hmem : token ∈ expired <;> simp [hmem]
    refine ⟨?_, ?_⟩
    · have hboard : (s.setTunnel (s.tunnel.removeBindings expired)).board =
          s.board.voidKeys fun token => expired.contains token :=
        board_removeBindings hs rfl hget
      exact Board.Step.void.of_eq hboard
    · have hs' : (s.setTunnel (s.tunnel.removeBindings expired)).Consistent := by
        refine hs.setTunnel hs.waiting ?_
        intro token binding hb
        rw [hget] at hb
        split at hb
        · cases hb
        · exact hb
      exact ⟨hs'.tasks, hs'.waiting, hs'.registering, hs'.bindings⟩
  | removeUpnp =>
    simp only [boardMove, cleanupStep, hpc]
    exact ⟨.idle, hs.tasks, hs.waiting, hs.registering, hs.bindings⟩

end Steps

/-- Every step of the service is a move of the board. -/
theorem refines_step {s s' : TunnelService} {l : Label} (hsound : s.board.Sound)
    (hs : s.Consistent) (h : s.step l = some s') : Refines s (s.boardMove l) s' := by
  cases Step.of_step h with
  | elapse | lookupUpnp =>
      exact ⟨.idle, hs.tasks, hs.waiting, hs.registering, hs.bindings⟩
  | registerPending _ _ _ hnew => exact refines_registerPending hs hnew
  | registerBinding hbinding => exact refines_registerBinding hs hbinding
  | denied _ herror =>
      simp only [boardMove, herror]
      exact ⟨.idle, hs.tasks, hs.waiting, hs.registering, hs.bindings⟩
  | admitted hnew hok =>
      simp only [boardMove, hok]
      exact refines_admitted hs hnew ..
  | own ht hown => exact refines_own hs ht hown
  | found ht hpc hpeer =>
      simp only [boardMove, ht, blockMove, hpc]
      exact refines_found hs ht hpc hpeer
  | joins ht hpc hwaiter hnotify =>
      simp only [boardMove, ht, blockMove, hpc]
      exact refines_joins hs hsound ht hpc hwaiter hnotify
  | misses ht hpc hgone =>
      simp only [boardMove, ht, blockMove, hpc]
      exact refines_misses hs hsound ht hpc hgone
  | waits ht hpc =>
      simp only [boardMove, ht, blockMove, hpc]
      exact refines_registerWaiting hs hsound ht hpc
  | stopsWaiting ht hpc =>
      simp only [boardMove, ht, blockMove, hpc]
      exact refines_unregisterWaiting hs hsound ht hpc
  | releases ht hpc =>
      simp only [boardMove, ht, blockMove, hpc]
      exact refines_releaseSlot hs ht hpc
  | forwards ht hpc _ _ hp =>
      simp only [boardMove, ht, reduceCtorEq, StreamItem.message.injEq, or_self, if_false]
      exact refines_forwards hs hsound ht hpc (by rfl) hp _
  | ignores ht hpc _ hm =>
      obtain ⟨text, rfl⟩ | ⟨data, rfl⟩ := hm
      all_goals
        simp only [boardMove, ht, reduceCtorEq, StreamItem.message.injEq, or_self, if_false]
        exact ⟨.idle, hs⟩
  | cleanup => exact refines_cleanup hsound hs

theorem Consistent.start : start.Consistent := by
  constructor <;> simp [TunnelService.start, TunnelState.new]

theorem board_start : start.board = Board.empty := by
  have hstage : start.tokenStage = fun _ => .unissued := by
    funext token
    simp [tokenStage, start, TunnelState.new]
  have hstanding : start.board.standing = fun _ => none := by
    funext c
    simp [board, start]
  have hnotice : start.board.notice = fun _ => none := by
    funext token
    simp [board, start, TunnelState.new]
  exact congr (congr (congrArg Board.mk hstage) hstanding) hnotice |> congrFun <| []

/-- In every reachable state the service is consistent and its board is sound. -/
theorem consistent_of_reachable {s : TunnelService} (h : machine.Reachable s) :
    s.Consistent ∧ s.board.Sound := by
  induction h with
  | init =>
      have hstart : machine.init.board = Board.empty := board_start
      exact ⟨.start, hstart ▸ Board.Sound.empty⟩
  | step _ hstep ih =>
      have hrefines := refines_step ih.2 ih.1 hstep
      exact ⟨hrefines.consistent, ih.2.step hrefines.move⟩

/-- The tunnel service simulates the rendezvous board. -/
theorem simulates : Machine.Simulates machine Board.machine board boardMove where
  init := board_start
  step := by
    intro s l s' hreach hstep
    obtain ⟨hs, hsound⟩ := consistent_of_reachable hreach
    exact Board.step_iff.mpr (refines_step hsound hs hstep).move

end TunnelService

end War3BattleTool.Server
