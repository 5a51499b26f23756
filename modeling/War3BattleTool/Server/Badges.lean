import War3BattleTool.Server.TunnelRefinement

set_option autoImplicit false

/-!
# What a tunnel connection was admitted with

A connection keeps the address, the token and the role it was admitted with.  Two things
are decided later: whether they passed the token check, and when its connection slot is
given back.  `badge_cases` says that no step of the service does more to them.
-/

namespace War3BattleTool.Server

open War3BattleTool.Foundation

/-- What a connection was admitted with, and what has been decided about it. -/
structure Badge where
  clientIp : IpAddr
  token : String
  role : String
  /-- the token check is passed -/
  verified : Bool
  /-- the connection slot is not given back -/
  holdsSlot : Bool
  /-- the upgrade failed -/
  lost : Bool
  deriving DecidableEq

namespace TunnelTask

/-- The connection has passed the token check. -/
def verified (t : TunnelTask) : Bool :=
  match t.pc with
  | .upgrading | .upgradeFailed | .checkBinding | .returned .rejected | .released .rejected =>
      false
  | _ => true

/-- The connection holds its slot. -/
def holdsSlot (t : TunnelTask) : Bool :=
  match t.pc with
  | .released _ => false
  | _ => true

/-- The badge of a connection. -/
def badge (t : TunnelTask) : Badge where
  clientIp := t.clientIp
  token := t.token
  role := t.role
  verified := t.verified
  holdsSlot := t.holdsSlot
  lost := t.pc = .upgradeFailed

theorem badge_dropNotify (t : TunnelTask) : t.dropNotify.badge = t.badge := by
  unfold dropNotify
  split <;> rfl

/-- The badge of a connection inside `handle_tunnel`, past the token check. -/
theorem badge_of_verified {t : TunnelTask} (hverified : t.verified = true)
    (hholds : t.holdsSlot = true) : t.badge = ⟨t.clientIp, t.token, t.role, true, true, false⟩ := by
  have hlost : t.pc ≠ .upgradeFailed := by
    intro hpc
    simp [verified, hpc] at hverified
  simp [badge, hverified, hholds, hlost]

/-- A connection that passed the check keeps its badge when it returns. -/
theorem badge_finish {t : TunnelTask} (hverified : t.verified = true)
    (hholds : t.holdsSlot = true) (exit : Exit) (hexit : exit ≠ .rejected)
    (wire : List Message) : ({ t with wire := wire }.finish exit).badge = t.badge := by
  rw [badge_of_verified hverified hholds]
  cases exit with
  | rejected => exact absurd rfl hexit
  | unpaired | relayed => rfl

end TunnelTask

namespace TunnelService

/-- The badge of a connection that was admitted. -/
def badge (s : TunnelService) (c : ConnId) : Option Badge := (s.tasks.get? c).map (·.badge)

section Steps

variable {s s' : TunnelService} {c : ConnId} {t t' : TunnelTask}

theorem badge_setTask (ht : s.tasks.get? c = some t) :
    (s.setTask c t').badge = Function.update s.badge c (some t'.badge) := by
  funext c'
  rw [Function.update_apply]
  simp only [badge, get?_setTask]
  split
  · next heq => simp [heq, ht]
  · rfl

/-- A change that keeps the badge of the connection keeps all badges. -/
theorem badge_setTask_of_same (ht : s.tasks.get? c = some t) (hbadge : t'.badge = t.badge) :
    (s.setTask c t').badge = s.badge := by
  rw [badge_setTask ht, hbadge]
  have hc : s.badge c = some t.badge := by simp [badge, ht]
  rw [← hc, Function.update_eq_self]

theorem badge_dropPeers (s : TunnelService) (peers : List WaitingPeer) :
    (s.dropPeers peers).badge = s.badge := by
  funext c
  simp only [badge, dropPeers, Table.get?_mapValues, Option.map_map]
  congr 1
  funext t
  simp only [Function.comp_apply]
  split
  · exact t.badge_dropNotify
  · rfl

/-! ## What a step does -/

/-- What the step `l` does to the badges and to the connection counters. -/
inductive Handles (s s' : TunnelService) : Label → Prop
  /-- nothing -/
  | keeps {l} (hbadge : s'.badge = s.badge)
      (hconns : s'.tunnel.connectionsPerIp = s.tunnel.connectionsPerIp) : Handles s s' l
  /-- the request is turned away at the connection limit -/
  | refuses {c originOk ip token role} (hbadge : s'.badge = s.badge)
      (hfull : (acquireSlot maxTunnelConnectionsPerIp s.tunnel.connectionsPerIp ip).2 = false)
      (hconns : s'.tunnel.connectionsPerIp =
        (acquireSlot maxTunnelConnectionsPerIp s.tunnel.connectionsPerIp ip).1) :
      Handles s s' (.request c originOk ip token role)
  /-- the request is admitted -/
  | admits {c originOk ip token role} (hfresh : s.badge c = none)
      (hrole : role = "host" ∨ role = "join")
      (hbadge : s'.badge = Function.update s.badge c (some ⟨ip, token, role, false, true, false⟩))
      (hfree : (acquireSlot maxTunnelConnectionsPerIp s.tunnel.connectionsPerIp ip).2 = true)
      (hconns : s'.tunnel.connectionsPerIp =
        (acquireSlot maxTunnelConnectionsPerIp s.tunnel.connectionsPerIp ip).1) :
      Handles s s' (.request c originOk ip (some token) (some role))
  /-- the upgrade fails -/
  | loses {c b} (hb : s.badge c = some b) (hholds : b.holdsSlot = true) (hlost : b.lost = false)
      (hbadge : s'.badge = Function.update s.badge c (some { b with lost := true }))
      (hconns : s'.tunnel.connectionsPerIp = s.tunnel.connectionsPerIp) :
      Handles s s' (.upgrade c false)
  /-- the token check is passed -/
  | verifies {c b binding} (hb : s.badge c = some b)
      (hbinding : s.tunnel.tokenBindings.get? b.token = some binding)
      (hverify : TunnelState.verifyIp binding b.role b.clientIp = true)
      (hbadge : s'.badge = Function.update s.badge c (some { b with verified := true }))
      (hconns : s'.tunnel.connectionsPerIp = s.tunnel.connectionsPerIp) :
      Handles s s' (.block c)
  /-- the slot is given back -/
  | releases {c b} (hb : s.badge c = some b) (hholds : b.holdsSlot = true)
      (hlost : b.lost = false)
      (hbadge : s'.badge = Function.update s.badge c (some { b with holdsSlot := false }))
      (hconns : s'.tunnel.connectionsPerIp =
        Foundation.releaseSlot s.tunnel.connectionsPerIp b.clientIp) :
      Handles s s' (.block c)

theorem badge_of_get? (ht : s.tasks.get? c = some t) : s.badge c = some t.badge := by
  simp [badge, ht]

/-- A step of one connection that keeps its badge. -/
theorem Handles.setTask {l : Label} (ht : s.tasks.get? c = some t)
    (hbadge : t'.badge = t.badge) : Handles s (s.setTask c t') l :=
  .keeps (badge_setTask_of_same ht hbadge) rfl

/-- A connection past the token check leaves. -/
theorem Handles.finish {l : Label} (ht : s.tasks.get? c = some t)
    (hverified : t.verified = true) (hholds : t.holdsSlot = true) (exit : Exit)
    (hexit : exit ≠ .rejected) (wire : List Message) :
    Handles s (s.setTask c ({ t with wire := wire }.finish exit)) l :=
  .setTask ht (TunnelTask.badge_finish hverified hholds exit hexit wire)

/-- A connection inside `relay` has passed the token check and holds its slot. -/
theorem Handles.leaveRelay {l : Label} (ht : s.tasks.get? c = some t) {r : Relay}
    (hpc : t.pc = .relaying r) (wire : List Message) :
    Handles s (s.setTask c ({ t with wire := wire }.finish .relayed)) l :=
  .finish ht (by simp [TunnelTask.verified, hpc]) (by simp [TunnelTask.holdsSlot, hpc]) .relayed
    (by simp) wire

/-- The upgrade of a connection fails, and its slot stays taken. -/
theorem loses_of_upgrading (ht : s.tasks.get? c = some t) (hpc : t.pc = .upgrading) :
    t.badge.holdsSlot = true ∧ t.badge.lost = false ∧
      (s.setTask c { t with pc := .upgradeFailed }).badge =
        Function.update s.badge c (some { t.badge with lost := true }) := by
  refine ⟨?_, ?_, ?_⟩
  · simp [TunnelTask.badge, TunnelTask.holdsSlot, hpc]
  · simp [TunnelTask.badge, hpc]
  · rw [badge_setTask ht]
    simp [TunnelTask.badge, TunnelTask.verified, TunnelTask.holdsSlot, hpc]

theorem badge_upgradeFails (h : s.step (.upgrade c false) = some s') :
    ∃ b, s.badge c = some b ∧ b.holdsSlot = true ∧ b.lost = false ∧
      s'.badge = Function.update s.badge c (some { b with lost := true }) ∧
      s'.tunnel.connectionsPerIp = s.tunnel.connectionsPerIp := by
  cases Step.of_step h with
  | own ht hown =>
      cases hown with
      | upgraded _ hpc =>
          obtain ⟨hholds, hlost, hbadge⟩ := loses_of_upgrading ht hpc
          exact ⟨_, badge_of_get? ht, hholds, hlost, hbadge, rfl⟩

/-- A step of one connection fails its upgrade, passes its token check, or keeps its badge. -/
theorem handles_own {l : Label} (ht : s.tasks.get? c = some t) (h : OwnStep s c t l t') :
    Handles s (s.setTask c t') l := by
  cases h with
  | upgraded ok hpc =>
      cases ok with
      | false =>
          obtain ⟨hholds, hlost, hbadge⟩ := loses_of_upgrading ht hpc
          exact .loses (badge_of_get? ht) hholds hlost hbadge rfl
      | true =>
          refine .setTask ht ?_
          simp [TunnelTask.badge, TunnelTask.verified, TunnelTask.holdsSlot, hpc]
  | rejected hpc =>
      refine .setTask ht ?_
      simp [TunnelTask.badge, TunnelTask.finish, TunnelTask.send, TunnelTask.verified,
        TunnelTask.holdsSlot, hpc]
  | verified hpc hbinding hverify =>
      refine .verifies (badge_of_get? ht) hbinding hverify ?_ rfl
      rw [badge_setTask ht]
      simp [TunnelTask.badge, TunnelTask.verified, TunnelTask.holdsSlot, hpc]
  | alone hpc | notified hpc | timedOut hpc | takes hpc | sent hpc | limited hpc
  | overflows hpc =>
      refine .setTask ht ?_
      simp [TunnelTask.badge, TunnelTask.verified, TunnelTask.holdsSlot, TunnelTask.send,
        TunnelTask.record, hpc]
  | forsaken hpc =>
      refine .finish ht ?_ ?_ .unpaired (by simp) t.wire
      · simp [TunnelTask.verified, hpc]
      · simp [TunnelTask.holdsSlot, hpc]
  | unsent hpc | hungUp hpc => exact .leaveRelay ht hpc t.wire
  | drained hpc | idled hpc => exact .leaveRelay ht hpc (t.wire ++ [Message.close])
  | pinged => exact .setTask ht rfl

/-- A step of a handler that changes the bindings or the waiting map, and its own locals. -/
theorem handles_setTunnel {l : Label} (ht : s.tasks.get? c = some t) {tunnel : TunnelState}
    (hconns : tunnel.connectionsPerIp = s.tunnel.connectionsPerIp)
    (hbadge : t'.badge = t.badge) : Handles s ((s.setTunnel tunnel).setTask c t') l :=
  .keeps (badge_setTask_of_same (s := s.setTunnel tunnel) ht hbadge) hconns

/-- The waiting peer's one-shot channel is no part of its badge. -/
theorem handles_joins (ht : s.tasks.get? c = some t) {peer : WaitingPeer}
    (hpc : t.pc = .unbind peer) {waiter : TunnelTask}
    (hwaiter : s.tasks.get? peer.notify = some waiter) :
    Handles s ((s.setTunnel (s.tunnel.removeBinding t.token)).handOver c t peer waiter)
      (.block c) := by
  refine .keeps ?_ rfl
  let sent := (s.setTunnel (s.tunnel.removeBinding t.token)).setTask peer.notify
    { waiter with notify := .sent c }
  have hsent : sent.badge = s.badge := badge_setTask_of_same (s := s.setTunnel _) hwaiter rfl
  obtain ⟨t', ht', hsame⟩ : ∃ t', sent.tasks.get? c = some t' ∧ t'.badge = t.badge := by
    have hc : sent.badge c = some t.badge := hsent ▸ badge_of_get? ht
    simpa [badge] using hc
  refine Eq.trans ?_ hsent
  refine badge_setTask_of_same (s := { sent with pairs := _ }) ht' (.trans ?_ hsame.symm)
  simp [TunnelTask.badge, TunnelTask.verified, TunnelTask.holdsSlot, hpc]

theorem handles_evict {token : String} (ht : s.tasks.get? c = some t) {tunnel : TunnelState}
    (hconns : tunnel.connectionsPerIp = s.tunnel.connectionsPerIp)
    (hbadge : t'.badge = t.badge) :
    Handles s (((s.setTunnel tunnel).dropPeers (s.tunnel.waiting.get? token).toList).setTask c t')
      (.block c) := by
  have hdropped := badge_dropPeers (s.setTunnel tunnel) (s.tunnel.waiting.get? token).toList
  obtain ⟨t₁, ht₁, hsame⟩ : ∃ t₁, ((s.setTunnel tunnel).dropPeers
      (s.tunnel.waiting.get? token).toList).tasks.get? c = some t₁ ∧ t₁.badge = t.badge := by
    have hc := congrFun hdropped c
    rw [show (s.setTunnel tunnel).badge c = some t.badge from badge_of_get? ht] at hc
    simpa [badge] using hc
  exact .keeps ((badge_setTask_of_same ht₁ (hbadge.trans hsame.symm)).trans hdropped) hconns

theorem handles_releases (ht : s.tasks.get? c = some t) {exit : Exit}
    (hpc : t.pc = .returned exit) : Handles s (s.releaseSlot c t exit) (.block c) := by
  refine .releases (badge_of_get? ht) ?_ ?_ ?_ rfl
  · simp [TunnelTask.badge, TunnelTask.holdsSlot, hpc]
  · simp [TunnelTask.badge, hpc]
  · rw [releaseSlot,
      badge_setTask (s := s.setTunnel (s.tunnel.releaseTunnelConnection t.clientIp)) ht]
    cases exit with
    | rejected | unpaired | relayed =>
        simp only [TunnelTask.badge, TunnelTask.verified, TunnelTask.holdsSlot, hpc,
          reduceCtorEq, decide_false]
        rfl

/-- The outcome of admission, by the counters it leaves. -/
theorem tunnelHandler_cases (tunnel : TunnelState) (originOk : Bool) (ip : IpAddr)
    (tokenParam roleParam : Option String) :
    let acquired := acquireSlot maxTunnelConnectionsPerIp tunnel.connectionsPerIp ip
    match tunnelHandler tunnel originOk ip tokenParam roleParam with
    | (tunnel', .ok _) => acquired.2 = true ∧ tunnel'.connectionsPerIp = acquired.1
    | (tunnel', .error _) => tunnel' = tunnel ∨
        acquired.2 = false ∧ tunnel'.connectionsPerIp = acquired.1 := by
  dsimp only
  unfold tunnelHandler
  cases originOk with
  | false => exact .inl rfl
  | true =>
    simp only [Bool.not_true, Bool.false_eq_true, if_false]
    cases tokenParam with
    | none => exact .inl rfl
    | some token =>
      by_cases htoken : token = ""
      · simp only [if_pos htoken]
        exact .inl trivial
      cases roleParam with
      | none => simp [htoken]
      | some role =>
        by_cases hrole : role = "host" ∨ role = "join"
        · -- Only a well-formed request reaches `try_acquire_tunnel_connection`.
          simp only [if_neg htoken, if_pos hrole, TunnelState.tryAcquireTunnelConnection]
          cases acquireSlot maxTunnelConnectionsPerIp tunnel.connectionsPerIp ip with
          | mk connections acquired =>
              cases acquired with
              | true => exact ⟨rfl, rfl⟩
              | false => exact .inr ⟨rfl, rfl⟩
        · simp only [if_neg htoken, if_neg hrole]
          exact .inl trivial

theorem handles_denied {originOk : Bool} {ip : IpAddr} {token role : Option String}
    {tunnel : TunnelState} {rejection : Rejection}
    (herror : tunnelHandler s.tunnel originOk ip token role = (tunnel, .error rejection)) :
    Handles s (s.setTunnel tunnel) (.request c originOk ip token role) := by
  have hcases := tunnelHandler_cases s.tunnel originOk ip token role
  simp only [herror] at hcases
  obtain rfl | ⟨hfull, hconns⟩ := hcases
  · exact .keeps rfl rfl
  · exact .refuses rfl hfull hconns

theorem handles_admitted (hnew : s.tasks.get? c = none) {originOk : Bool} {ip : IpAddr}
    {tokenParam roleParam : Option String} {tunnel : TunnelState} {token role : String}
    (hok : tunnelHandler s.tunnel originOk ip tokenParam roleParam = (tunnel, .ok (token, role))) :
    Handles s ({ s with tasks := s.tasks.insert c (.admitted ip token role) }.setTunnel tunnel)
      (.request c originOk ip tokenParam roleParam) := by
  have hcases := tunnelHandler_cases s.tunnel originOk ip tokenParam roleParam
  obtain ⟨rfl, rfl, hrole⟩ := tunnelHandler_ok hok
  simp only [hok] at hcases
  refine .admits (by simp [badge, hnew]) hrole ?_ hcases.1 hcases.2
  funext c'
  rw [Function.update_apply]
  simp only [badge, setTunnel, Table.get?_insert]
  split
  · rfl
  · rfl

/-- A frame queued for the peer is no part of its badge. -/
theorem handles_forwards {l : Label} (ht : s.tasks.get? c = some t) {r r' : Relay}
    (hpc : t.pc = .relaying r) {p : TunnelTask} (hp : s.tasks.get? r.peerTx = some p)
    (data : Bytes) (verdict : Verdict) :
    Handles s ((s.setTask r.peerTx { p with inbox := p.inbox ++ [.binary data] }).setTask c
      (t.record r' data verdict)) l := by
  let queued := s.setTask r.peerTx { p with inbox := p.inbox ++ [.binary data] }
  have hqueued : queued.badge = s.badge := badge_setTask_of_same hp rfl
  obtain ⟨t₁, ht₁, hsame⟩ : ∃ t₁, queued.tasks.get? c = some t₁ ∧ t₁.badge = t.badge := by
    have hc : queued.badge c = some t.badge := hqueued ▸ badge_of_get? ht
    simpa [badge] using hc
  have hbadge : (t.record r' data verdict).badge = t.badge := by
    simp [TunnelTask.badge, TunnelTask.record, TunnelTask.verified, TunnelTask.holdsSlot, hpc]
  exact .keeps ((badge_setTask_of_same ht₁ (hbadge.trans hsame.symm)).trans hqueued) rfl

/-- What every step does to the badges and to the connection counters. -/
theorem handles_step {l : Label} (h : s.step l = some s') : Handles s s' l := by
  cases Step.of_step h with
  | elapse | registerPending | registerBinding | lookupUpnp | ignores => exact .keeps rfl rfl
  | denied _ herror => exact handles_denied herror
  | admitted hnew hok => exact handles_admitted hnew hok
  | own ht hown => exact handles_own ht hown
  | found ht hpc =>
      refine handles_setTunnel ht rfl ?_
      simp [TunnelTask.badge, TunnelTask.verified, TunnelTask.holdsSlot, hpc]
  | joins ht hpc hwaiter => exact handles_joins ht hpc hwaiter
  | @misses _ t ht _ hpc =>
      refine handles_setTunnel ht rfl
        (TunnelTask.badge_finish ?_ ?_ .unpaired (by simp) (t.wire ++ [Message.close]))
      · simp [TunnelTask.verified, hpc]
      · simp [TunnelTask.holdsSlot, hpc]
  | waits ht hpc =>
      refine handles_evict ht rfl ?_
      simp [TunnelTask.badge, TunnelTask.verified, TunnelTask.holdsSlot, hpc]
  | @stopsWaiting _ t ht hpc =>
      refine handles_evict ht rfl
        (TunnelTask.badge_finish ?_ ?_ .unpaired (by simp) (t.wire ++ [Message.close]))
      · simp [TunnelTask.verified, hpc]
      · simp [TunnelTask.holdsSlot, hpc]
  | releases ht hpc => exact handles_releases ht hpc
  | forwards ht hpc _ _ hp => exact handles_forwards ht hpc hp _ _
  | cleanup =>
      unfold cleanupStep
      split
      · exact .keeps (badge_dropPeers _ _) rfl
      · exact .keeps rfl rfl
      · exact .keeps rfl rfl

end Steps

end TunnelService

end War3BattleTool.Server
