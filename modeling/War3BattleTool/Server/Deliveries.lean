import War3BattleTool.Server.RelayRate

set_option autoImplicit false

/-!
# What the tunnel service writes to a client

A step of the service writes to the end of what a client was sent, and payloads only while the
connection relays (`delivers_step`).  So a connection that no pair has was sent none
(`delivered_of_alone`), and of two connections that relay to nobody but each other, either was
sent a prefix of what the other forwarded, from the start of the service on
(`sentTo_isPrefix_taken`).
-/

namespace War3BattleTool.Server

open War3BattleTool.Foundation

/-! ## One connection -/

/-- What a step may write to the client of a connection. -/
def TunnelTask.Extends (t t' : TunnelTask) : Prop :=
  ∃ new, t'.wire = t.wire ++ new ∧ ((∃ r, t.pc = .relaying r) ∨ binaryPayloads new = [])

namespace TunnelTask.Extends

variable {t t' : TunnelTask}

theorem of_wire (hwire : t'.wire = t.wire) : t.Extends t' :=
  ⟨[], by rw [hwire, List.append_nil], .inr rfl⟩

/-- The connection says goodbye. -/
theorem close (t : TunnelTask) (exit : Exit) : t.Extends ((t.send .close).finish exit) :=
  ⟨[.close], rfl, .inr rfl⟩

theorem send {r : Relay} (hpc : t.pc = .relaying r) (m : Message)
    (hwire : t'.wire = (t.send m).wire) : t.Extends t' :=
  ⟨[m], hwire, .inl ⟨r, hpc⟩⟩

/-- What a pair does not have is no payload. -/
theorem delivered (h : t.Extends t') (hpc : ∀ r, t.pc ≠ .relaying r) :
    t'.delivered = t.delivered := by
  obtain ⟨new, hwire, ⟨r, hr⟩ | hnew⟩ := h
  · exact absurd hr (hpc r)
  · rw [TunnelTask.delivered, hwire, binaryPayloads_append, hnew, List.append_nil]
    rfl

end TunnelTask.Extends

namespace TunnelService

/-! ## A step -/

/-- Every connection is there after the step, and was sent at most something more. -/
def Delivers (s s' : TunnelService) : Prop :=
  ∀ c t, s.tasks.get? c = some t → ∃ t', s'.tasks.get? c = some t' ∧ t.Extends t'

/-- Nothing was sent, and nobody changed its place. -/
def Unsent (s s' : TunnelService) : Prop :=
  ∀ c t, s.tasks.get? c = some t →
    ∃ t', s'.tasks.get? c = some t' ∧ t'.wire = t.wire ∧ t'.pc = t.pc

section Steps

variable {s s₁ s' : TunnelService} {c c₀ : ConnId} {t t' : TunnelTask}

theorem Delivers.of_tasks (htasks : s'.tasks = s.tasks) : Delivers s s' :=
  fun _ t ht => ⟨t, by rw [htasks]; exact ht, .of_wire rfl⟩

theorem Unsent.of_tasks (htasks : s'.tasks = s.tasks) : Unsent s s' :=
  fun _ t ht => ⟨t, by rw [htasks]; exact ht, rfl, rfl⟩

theorem Unsent.delivers (h : Unsent s s₁) (h' : Delivers s₁ s') : Delivers s s' := by
  intro c t ht
  obtain ⟨t₁, ht₁, hwire, hpc⟩ := h c t ht
  obtain ⟨t', ht', new, hnew, hplain⟩ := h' c t₁ ht₁
  refine ⟨t', ht', new, by rw [hnew, hwire], ?_⟩
  rwa [hpc] at hplain

theorem delivers_setTask (ht : s.tasks.get? c₀ = some t) (hext : t.Extends t') :
    Delivers s (s.setTask c₀ t') := by
  intro c u hu
  rw [get?_setTask]
  split
  next heq =>
    subst heq
    obtain rfl : t = u := Option.some.inj (ht.symm.trans hu)
    exact ⟨t', by rw [hu]; rfl, hext⟩
  next => exact ⟨u, hu, .of_wire rfl⟩

theorem unsent_setTask (ht : s.tasks.get? c₀ = some t) (hwire : t'.wire = t.wire)
    (hpc : t'.pc = t.pc) : Unsent s (s.setTask c₀ t') := by
  intro c u hu
  rw [get?_setTask]
  split
  next heq =>
    subst heq
    obtain rfl : t = u := Option.some.inj (ht.symm.trans hu)
    exact ⟨t', by rw [hu]; rfl, hwire, hpc⟩
  next => exact ⟨u, hu, rfl, rfl⟩

theorem unsent_dropPeers (htasks : s₁.tasks = s.tasks) (peers : List WaitingPeer) :
    Unsent s (s₁.dropPeers peers) := by
  intro c t ht
  have hget : (s₁.dropPeers peers).tasks.get? c = (s.tasks.get? c).map fun t =>
      if peers.any (·.notify = c) then t.dropNotify else t := by
    rw [← htasks]
    exact Table.get?_mapValues ..
  rw [hget, ht, Option.map_some]
  refine ⟨_, rfl, ?_⟩
  split
  · unfold TunnelTask.dropNotify
    split <;> exact ⟨rfl, rfl⟩
  · exact ⟨rfl, rfl⟩

/-- The maps change, and one connection. -/
theorem delivers_setTunnel_setTask (ht : s.tasks.get? c₀ = some t) (tunnel : TunnelState)
    (hext : t.Extends t') : Delivers s ((s.setTunnel tunnel).setTask c₀ t') :=
  (Unsent.of_tasks (by rfl) : Unsent s (s.setTunnel tunnel)).delivers
    (delivers_setTask (s := s.setTunnel tunnel) ht hext)

/-- Whoever waits under the token is thrown out, and one connection changes. -/
theorem delivers_evict_setTask (ht : s.tasks.get? c₀ = some t) (tunnel : TunnelState)
    (peers : List WaitingPeer) {wire : List Message}
    (hwire : t'.wire = t.wire ++ wire) (hplain : binaryPayloads wire = []) :
    Delivers s (((s.setTunnel tunnel).dropPeers peers).setTask c₀ t') := by
  have hdrop : Unsent s ((s.setTunnel tunnel).dropPeers peers) :=
    unsent_dropPeers (by rfl) peers
  obtain ⟨t₁, ht₁, hwire₁, _⟩ := hdrop c₀ t ht
  exact hdrop.delivers (delivers_setTask ht₁ ⟨wire, by rw [hwire, hwire₁], .inr hplain⟩)

/-- A connection is sent at most something more, and a payload only while it relays. -/
theorem OwnStep.writes {l : Label} (h : OwnStep s c t l t') : t.Extends t' := by
  cases h with
  | upgraded | verified | alone | notified | forsaken | timedOut | takes | unsent | limited
  | overflows | hungUp => exact .of_wire rfl
  | rejected | drained | idled => exact .close t _
  | sent hpc => exact .send hpc _ rfl
  | pinged hpc => exact .send hpc _ rfl

theorem delivers_step {l : Label} (hstep : s.step l = some s') : Delivers s s' := by
  cases Step.of_step hstep with
  | elapse | registerPending | registerBinding | lookupUpnp | denied | ignores =>
      exact .of_tasks rfl
  | admitted hnew =>
      intro c t ht
      refine ⟨t, (Table.get?_insert ..).trans ((if_neg ?_).trans ht), .of_wire rfl⟩
      rintro rfl
      rw [hnew] at ht
      cases ht
  | own ht hown => exact delivers_setTask ht hown.writes
  | found ht | releases ht => exact delivers_setTunnel_setTask ht _ (.of_wire rfl)
  | @joins c₀ t ht peer _ waiter hwaiter =>
      -- The waiting peer is told first, then the connection goes on to relay.
      have hall : Unsent s ((s.setTunnel (s.tunnel.removeBinding t.token)).setTask peer.notify
          { waiter with notify := .sent c₀ }) :=
        unsent_setTask (s := s.setTunnel (s.tunnel.removeBinding t.token)) hwaiter rfl rfl
      obtain ⟨t₁, ht₁, hwire, _⟩ := hall c₀ t ht
      exact hall.delivers (delivers_setTask ht₁ (.of_wire hwire.symm))
  | misses ht => exact delivers_setTunnel_setTask ht _ (.close _ _)
  | waits ht => exact delivers_evict_setTask ht _ _ (List.append_nil _).symm rfl
  | @stopsWaiting _ t ht => exact delivers_evict_setTask ht _ _ (rfl : _ = t.wire ++ [.close]) rfl
  | @forwards c₀ t ht r _ _ data _ _ p hp =>
      have hoffer : Unsent s (s.setTask r.peerTx { p with inbox := p.inbox ++ [.binary data] }) :=
        unsent_setTask hp rfl rfl
      obtain ⟨t₁, ht₁, hwire, _⟩ := hoffer c₀ t ht
      exact hoffer.delivers (delivers_setTask ht₁ (.of_wire hwire.symm))
  | cleanup =>
      unfold cleanupStep
      split
      · exact Unsent.delivers (unsent_dropPeers (by rfl) _) (.of_tasks rfl)
      · exact .of_tasks rfl
      · exact .of_tasks rfl

/-! ## Runs -/

/-- The messages that a client was sent. -/
def sentTo (s : TunnelService) (c : ConnId) : List Message :=
  ((s.tasks.get? c).map (·.wire)).getD []

/-- The payloads that were forwarded for a connection. -/
def takenFrom (s : TunnelService) (c : ConnId) : List Bytes :=
  ((s.tasks.get? c).map (·.accepted)).getD []

/-- All binary frames of a connection were forwarded. -/
def forwardsAll (s : TunnelService) (c : ConnId) : Bool :=
  (s.tasks.get? c).all fun t => t.frames.all fun f => decide (f.verdict = .forwarded)

/-- The payload of `c` that a step takes. -/
def carried (c : ConnId) : Label → List Bytes
  | .frame c₀ (.message (.binary data)) => if c₀ = c then [data] else []
  | _ => []

theorem sentTo_step (c : ConnId) {l : Label} (hstep : s.step l = some s') :
    ∃ new, s'.sentTo c = s.sentTo c ++ new := by
  cases ht : s.tasks.get? c with
  | none => exact ⟨s'.sentTo c, by simp [sentTo, ht]⟩
  | some t =>
      obtain ⟨t', ht', new, hwire, _⟩ := delivers_step hstep c t ht
      exact ⟨new, by simp [sentTo, ht, ht', hwire]⟩

theorem carried_eq {l : Label} (hstep : s.step l = some s') :
    carried c l = (arrivals c s l).map (·.1.data) := by
  cases l with
  | frame c₀ item =>
      obtain ⟨t, r, ht, hpc, _, _⟩ := whenSelecting_eq_some hstep
      cases item with
      | message m =>
          cases m with
          | binary data =>
              simp only [carried, arrivals]
              split
              next heq =>
                subst heq
                simp [ht, hpc]
              next => rfl
          | _ => rfl
      | _ => rfl
  | _ => rfl

/-- As long as every frame is forwarded, what was forwarded grows by what is taken. -/
theorem takenFrom_step (hs : s.Consistent) {l : Label} (hstep : s.step l = some s')
    (hall : s'.forwardsAll c = true) : s'.takenFrom c = s.takenFrom c ++ carried c l := by
  rw [carried_eq hstep]
  have hmoves := moves_step (c := c) hs hstep
  revert hmoves
  generalize arrivals c s l = events
  intro hmoves
  cases hmoves with
  | quiet h =>
      cases ht : s.tasks.get? c with
      | none => simp [takenFrom, ht, h.absent ht]
      | some t =>
          obtain ⟨t', ht', hstill⟩ := h.kept ht
          simp [takenFrom, ht, ht', TunnelTask.accepted, hstill.frames]
  | admitted _ hnew ht' => simp [takenFrom, hnew, ht', TunnelTask.accepted, TunnelTask.admitted]
  | @frame t r r' verdict ht hpc data _ ht' =>
      have hverdict : verdict = .forwarded := by
        simp only [forwardsAll, ht', Option.all_some, TunnelTask.record, List.all_append,
          List.all_cons, List.all_nil, Bool.and_true, Bool.and_eq_true, decide_eq_true_eq] at hall
        exact hall.2
      simp [takenFrom, ht, ht', TunnelTask.accepted, TunnelTask.record, hverdict]

end Steps

/-- A pair stays. -/
theorem pairs_subset {s s' : TunnelService} (hs : s.Consistent) (hsound : s.board.Sound)
    {l : Label} (hstep : s.step l = some s') : s.pairs ⊆ s'.pairs := by
  have hmeetings : s'.pairs = s.pairs ∨ ∃ a k host, s.boardMove l = .meet a ∧
      s.board.standing a = some (k, .holding host) ∧ s'.pairs = s.pairs ++ [⟨k, host, a⟩] :=
    (refines_step hsound hs hstep).move.meetings
  rcases hmeetings with hsame | ⟨_, _, _, _, _, hpairs⟩
  · rw [hsame]
    exact List.Subset.refl _
  · rw [hpairs]
    exact List.subset_append_left ..

/-- A connection that no pair has was sent no payload. -/
theorem delivered_of_alone {s : TunnelService} (h : machine.Reachable s) {c : ConnId}
    {t : TunnelTask} (ht : s.tasks.get? c = some t)
    (halone : ∀ m ∈ s.pairs, ∀ c', ¬m.Joins c c') : t.delivered = [] := by
  induction h generalizing t with
  | init => cases ht
  | @step s s' l hreach hstep ih =>
      obtain ⟨hs, hsound⟩ := consistent_of_reachable hreach
      have hbefore : ∀ m ∈ s.pairs, ∀ c', ¬m.Joins c c' :=
        fun m hm => halone m (pairs_subset hs hsound hstep hm)
      cases hold : s.tasks.get? c with
      | none =>
          have hmoves := moves_step (c := c) hs hstep
          revert hmoves
          generalize arrivals c s l = events
          intro hmoves
          cases hmoves with
          | quiet hquiet => simp [hquiet.absent hold] at ht
          | admitted _ _ hnew =>
              obtain rfl := Option.some.inj (hnew.symm.trans ht)
              rfl
          | frame ht₀ => simp [hold] at ht₀
      | some t₀ =>
          obtain ⟨t', ht', hext⟩ := delivers_step hstep c t₀ hold
          obtain rfl : t' = t := Option.some.inj (ht'.symm.trans ht)
          rw [hext.delivered fun r hpc => ?_]
          · exact ih hold hbefore
          · obtain ⟨m, hm, hjoins⟩ := joins_of_relaying hs hsound hold hpc
            exact hbefore m hm _ hjoins

/-- What a connection was sent is a prefix of what was forwarded for the only one that it may be
paired with. -/
theorem sentTo_isPrefix_taken {s : TunnelService} (h : machine.Reachable s) {x y : ConnId}
    (hpairs : ∀ m ∈ s.pairs, ∀ z, m.Joins y z → z = x) :
    binaryPayloads (s.sentTo y) <+: s.takenFrom x := by
  obtain ⟨_, hsound⟩ := consistent_of_reachable h
  cases hdst : s.tasks.get? y with
  | none => simp [sentTo, hdst]
  | some dst =>
      by_cases hpaired : ∃ m ∈ s.pairs, ∃ z, m.Joins y z
      · obtain ⟨m, hm, z, hjoins⟩ := hpaired
        obtain rfl := hpairs m hm z hjoins
        obtain ⟨src, hsrc⟩ := exists_task_of_joins hsound hm hjoins.symm
        have hflow := streams_of_reachable h m hm _ _ hjoins.symm src dst hsrc hdst
        have hprefix : binaryPayloads dst.wire <+: src.accepted := hflow.isPrefix_accepted
        simpa [sentTo, takenFrom, hdst, hsrc] using hprefix
      · have hnone : dst.delivered = [] :=
          delivered_of_alone h hdst fun m hm z hjoins => hpaired ⟨m, hm, z, hjoins⟩
        have hempty : binaryPayloads dst.wire = [] := hnone
        simp [sentTo, hdst, hempty]

end TunnelService

end War3BattleTool.Server
