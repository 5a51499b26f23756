import War3BattleTool.Server.TunnelRefinement

set_option autoImplicit false

/-!
# Half-close of a tunnel

When the relay of one party ends, the other party learns of it through its
inbox: `rx.recv()` yields `None` once the inbox is empty and none of its senders
is alive.  `own_of_mem_liveSenders` finds what is left of the senders of the
inbox, `exec_drain` runs the relay from there to its end, and `halfCloses_iff`
draws the conclusion.

The party that waited drops its own `my_tx` before it relays, so its peer holds
the only sender of its inbox.  The party that found it keeps its `my_tx` while it
relays, and waits for itself.
-/

namespace War3BattleTool.Server

open War3BattleTool.Foundation

namespace TunnelService

/-- The `relay` call of a connection has ended. -/
def relayEnded (s : TunnelService) (c : ConnId) : Prop :=
  ∃ t, s.tasks.get? c = some t ∧ (t.pc = .returned .relayed ∨ t.pc = .released .relayed)

/-- The labels by which a relaying connection empties its inbox and reads once
more. -/
def drain (c : ConnId) (r : Relay) (inbox : List Message) : List Label :=
  (r.sending.toList.map fun _ => .sent c true) ++
    (inbox.flatMap fun _ => [.recv c, .sent c true]) ++ [.recv c]

/-- No sender of the inbox of `c` is alive; and once `c` has delivered what is in
its inbox it sends `Close` and its relay ends. -/
def HalfCloses (s : TunnelService) (c : ConnId) : Prop :=
  s.liveSenders c = [] ∧
    ∀ t r, s.tasks.get? c = some t → t.pc = .relaying r →
      ∃ s' t', machine.exec s (drain c r t.inbox) = some s' ∧
        s'.tasks.get? c = some t' ∧ t'.pc = .returned .relayed ∧
        t'.wire = t.wire ++ r.sending.toList ++ t.inbox ++ [.close]

section Senders

variable {s s' : TunnelService} {c c' : ConnId} {t t' : TunnelTask} {holder : Holder}

theorem mem_liveSenders : holder ∈ s.liveSenders c ↔
    (∃ token peer, s.tunnel.waiting.get? token = some peer ∧ peer.tx = c ∧
        holder = .waiting token) ∨
      ∃ c' t, s.tasks.get? c' = some t ∧ (holder, c) ∈ t.senders c' := by
  simp only [liveSenders, List.mem_filterMap, List.mem_append, List.mem_map,
    List.mem_flatMap]
  constructor
  · rintro ⟨⟨holder', c''⟩, hmem, hheld⟩
    obtain ⟨rfl, rfl⟩ : c'' = c ∧ holder' = holder := by simpa using hheld
    obtain ⟨⟨token, peer⟩, hpeer, heq⟩ | ⟨⟨c', t⟩, ht, hsender⟩ := hmem
    · obtain ⟨rfl, rfl⟩ : holder' = .waiting token ∧ c'' = peer.tx := by
        simpa [eq_comm] using heq
      exact .inl ⟨token, peer, Table.mem_entries_iff.mp hpeer, rfl, rfl⟩
    · exact .inr ⟨c', t, Table.mem_entries_iff.mp ht, hsender⟩
  · rintro (⟨token, peer, hpeer, rfl, rfl⟩ | ⟨c', t, ht, hsender⟩)
    · exact ⟨(.waiting token, peer.tx),
        .inl ⟨⟨token, peer⟩, Table.mem_entries_iff.mpr hpeer, rfl⟩, by simp⟩
    · exact ⟨(holder, c), .inr ⟨⟨c', t⟩, Table.mem_entries_iff.mpr ht, hsender⟩, by simp⟩

theorem mem_senders : (holder, c) ∈ t.senders c' ↔
    (holder = .own c' ∧ c = c' ∧ t.myTx = true) ∨
      (holder = .oneshot c' ∧ t.notify = .sent c) ∨
      (holder = .taken c' ∧ ∃ peer, t.pc = .unbind peer ∧ peer.tx = c) ∨
      (holder = .relay c' ∧ ∃ r, t.pc = .relaying r ∧ r.peerTx = c) := by
  unfold TunnelTask.senders
  rw [List.mem_append, List.mem_append, or_assoc]
  refine or_congr ?_ (or_congr ?_ ?_)
  · cases t.myTx with
    | true => simp
    | false => simp
  · cases t.notify with
    | sent tx => simp [eq_comm]
    | _ => simp
  · cases t.pc with
    | unbind peer => simp [eq_comm]
    | relaying r => simp [eq_comm]
    | _ => simp

/-- A one-shot channel holds a sender only while its owner waits. -/
theorem awaitPeer_of_sent (hwf : t.WellFormed) (hnotify : t.notify = .sent c) :
    t.standing = .chosen c ∧ ∃ deadline, t.pc = .awaitPeer deadline := by
  cases hpc : t.pc with
  | awaitPeer deadline =>
      refine ⟨?_, deadline, rfl⟩
      simp only [TunnelTask.standing, hpc, hnotify]
  | _ => simp [TunnelTask.WellFormed, hpc, hnotify] at hwf

/-- Once the relay of its partner has ended, a relaying connection has at most its
own `my_tx` left, and that only if it found its partner waiting. -/
theorem own_of_mem_liveSenders (hs : s.Consistent) (hsound : s.board.Sound)
    {m : Meeting String ConnId} (hm : m ∈ s.pairs) {partner : ConnId}
    (hjoins : m.Joins c partner)
    (ht : s.tasks.get? c = some t) {r : Relay} (hpc : t.pc = .relaying r)
    (hended : s.relayEnded partner) (h : holder ∈ s.liveSenders c) :
    holder = .own c ∧ c = m.second := by
  have hst := standing_board ht
  have hbusy : t.standing.posts = false ∧ t.standing.gave = false := by
    simp only [TunnelTask.standing, hpc]
    split
    · exact ⟨rfl, rfl⟩
    · exact ⟨rfl, rfl⟩
  -- A connection that met `c` is its partner, and its relay has ended.
  have hpartner : ∀ {m' : Meeting String ConnId} {c'}, m' ∈ s.pairs → m'.Joins c c' →
      c' = partner := by
    intro m' c' hm' hjoins'
    obtain rfl := hsound.meeting_unique hm' hm hjoins' hjoins
    exact hjoins'.unique hjoins
  obtain ⟨tp, htp, hreturned⟩ := hended
  obtain ⟨token, peer, hpeer, rfl, _⟩ | ⟨c', t', ht', hsender⟩ := mem_liveSenders.mp h
  · have hnotice : s.board.notice token = some peer.tx := by
      simp [board, hpeer, hs.waiting hpeer]
    obtain ⟨st, hst', hposts⟩ := hsound.posted hnotice
    obtain rfl : t.standing = st := by
      simp only [hst, Option.some.injEq, Prod.mk.injEq] at hst'
      exact hst'.2
    simp [hbusy.1] at hposts
  obtain ⟨rfl, rfl, hmyTx⟩ | ⟨rfl, hnotify⟩ | ⟨rfl, peer, hpc', rfl⟩ | ⟨rfl, r', hpc', rfl⟩ :=
    mem_senders.mp hsender
  · obtain rfl : t = t' := by simpa [ht] using ht'
    obtain ⟨_, _, hdropped⟩ | ⟨hm', _⟩ := peer_of_relaying hsound hs ht hpc
    · simp [hdropped] at hmyTx
    · obtain ⟨rfl, _⟩ | ⟨hc, _⟩ := hjoins
      · exact absurd rfl (hsound.first_ne_second hm hm')
      · exact ⟨rfl, hc⟩
  · obtain ⟨hchosen, deadline, hpc'⟩ := awaitPeer_of_sent (hs.tasks ht') hnotify
    have hm' : ⟨t'.token, c', c⟩ ∈ s.pairs :=
      hsound.engaged (hchosen ▸ standing_board ht') (by simp [Standing.engaged])
    obtain rfl := hpartner hm' (.inr ⟨rfl, rfl⟩)
    obtain rfl : t' = tp := by simpa [ht'] using htp
    simp [hpc'] at hreturned
  · have htx : peer.tx = peer.notify := by
      have hwf := hs.tasks ht'
      simp only [TunnelTask.WellFormed, hpc'] at hwf
      exact hwf.2.2.2.2
    have hholding : s.board.standing c' = some (t'.token, .holding peer.tx) := by
      simp [standing_board ht', TunnelTask.standing, hpc', htx]
    obtain ⟨st, hst', hgave⟩ := hsound.held hholding
    obtain rfl : t.standing = st := by
      simp only [hst, Option.some.injEq, Prod.mk.injEq] at hst'
      exact hst'.2
    simp [hbusy.2] at hgave
  · obtain rfl : c' = partner := by
      obtain ⟨hm', _⟩ | ⟨hm', _⟩ := peer_of_relaying hsound hs ht' hpc'
      · exact hpartner hm' (.inr ⟨rfl, rfl⟩)
      · exact hpartner hm' (.inl ⟨rfl, rfl⟩)
    obtain rfl : t' = tp := by simpa [ht'] using htp
    simp [hpc'] at hreturned

end Senders

/-! ## Draining the inbox -/

section Drain

variable {s : TunnelService} {c : ConnId} {t t' : TunnelTask} {r : Relay}

/-- A connection that gains no sender leaves the inbox without one. -/
theorem liveSenders_setTask (h : s.liveSenders c = []) (ht : s.tasks.get? c = some t)
    (hsenders : t'.senders c = t.senders c) : (s.setTask c t').liveSenders c = [] := by
  rw [List.eq_nil_iff_forall_not_mem] at h ⊢
  intro holder hmem
  refine h holder (mem_liveSenders.mpr ?_)
  obtain hwaiting | ⟨c', t'', ht'', hsender⟩ := mem_liveSenders.mp hmem
  · exact .inl hwaiting
  · rw [get?_setTask] at ht''
    split at ht''
    · next heq =>
      subst heq
      obtain ⟨_, _, rfl⟩ := Option.map_eq_some_iff.mp ht''
      exact .inr ⟨c', t, ht, hsenders ▸ hsender⟩
    · exact .inr ⟨c', t'', ht'', hsender⟩

/-- The step that takes a message out of the inbox. -/
theorem step_recv {m : Message} {rest : List Message} (ht : s.tasks.get? c = some t)
    (hpc : t.pc = .relaying r) (hidle : r.sending = none) (hinbox : t.inbox = m :: rest) :
    s.step (.recv c) = some (s.setTask c
      { t with inbox := rest, pc := .relaying { r with sending := some m } }) := by
  simp [step, whenSelecting, ht, hpc, hidle, recv, hinbox]

/-- The step that delivers the message taken. -/
theorem step_sent {m : Message} (ht : s.tasks.get? c = some t)
    (hpc : t.pc = .relaying r) (hsending : r.sending = some m) :
    s.step (.sent c true) = some (s.setTask c
      { t.send m with
        pc := .relaying
          { r with sending := none, idleDeadline := s.now + tunnelIdleTimeout } }) := by
  simp [step, ht, hpc, hsending, sent]

/-- The step that ends the relay: the inbox is empty and nobody can fill it. -/
theorem step_recv_none (ht : s.tasks.get? c = some t) (hpc : t.pc = .relaying r)
    (hidle : r.sending = none) (hinbox : t.inbox = []) (hlive : s.liveSenders c = []) :
    s.step (.recv c) = some (s.setTask c ((t.send .close).finish .relayed)) := by
  simp [step, whenSelecting, ht, hpc, hidle, recv, hinbox, hlive]

/-- A relaying connection whose inbox has lost its last sender delivers what is
left, sends `Close` and ends. -/
theorem exec_drain_idle {inbox : List Message} (hlive : s.liveSenders c = [])
    (ht : s.tasks.get? c = some t) (hpc : t.pc = .relaying r) (hinbox : t.inbox = inbox)
    (hidle : r.sending = none) :
    ∃ s' t', machine.exec s ((inbox.flatMap fun _ => [.recv c, .sent c true]) ++ [.recv c]) =
        some s' ∧
      s'.tasks.get? c = some t' ∧ t'.pc = .returned .relayed ∧
        t'.wire = t.wire ++ inbox ++ [.close] := by
  induction inbox generalizing s t r with
  | nil =>
      refine ⟨_, (t.send .close).finish .relayed, ?_, get?_setTask_self ht, rfl, ?_⟩
      · simp [Machine.exec, machine, step_recv_none ht hpc hidle hinbox hlive]
      · simp [TunnelTask.finish, TunnelTask.send]
  | cons m rest ih =>
      let taken : TunnelTask :=
        { t with inbox := rest, pc := .relaying { r with sending := some m } }
      let delivered : TunnelTask :=
        { taken.send m with
          pc := .relaying
            { r with sending := none, idleDeadline := s.now + tunnelIdleTimeout } }
      have htaken : (s.setTask c taken).tasks.get? c = some taken := get?_setTask_self ht
      have hlive₁ : (s.setTask c taken).liveSenders c = [] :=
        liveSenders_setTask hlive ht (by simp [TunnelTask.senders, taken, hpc])
      have hlive₂ : ((s.setTask c taken).setTask c delivered).liveSenders c = [] :=
        liveSenders_setTask hlive₁ htaken rfl
      obtain ⟨s', t', hexec, ht', hpc', hwire⟩ :=
        ih hlive₂ (get?_setTask_self htaken) rfl rfl rfl
      refine ⟨s', t', ?_, ht', hpc', ?_⟩
      · have hrecv : machine.step s (.recv c) = some (s.setTask c taken) :=
          step_recv ht hpc hidle hinbox
        have hsent : machine.step (s.setTask c taken) (.sent c true) =
            some ((s.setTask c taken).setTask c delivered) :=
          step_sent (r := { r with sending := some m }) htaken rfl rfl
        simpa [Machine.exec, hrecv, hsent] using hexec
      · simpa [delivered, taken, TunnelTask.send] using hwire

/-- The same for a connection that may still be sending. -/
theorem exec_drain (hlive : s.liveSenders c = []) (ht : s.tasks.get? c = some t)
    (hpc : t.pc = .relaying r) :
    ∃ s' t', machine.exec s (drain c r t.inbox) = some s' ∧ s'.tasks.get? c = some t' ∧
      t'.pc = .returned .relayed ∧
        t'.wire = t.wire ++ r.sending.toList ++ t.inbox ++ [.close] := by
  cases hsending : r.sending with
  | none => simpa [drain, hsending] using exec_drain_idle hlive ht hpc rfl hsending
  | some m =>
      let delivered : TunnelTask :=
        { t.send m with
          pc := .relaying
            { r with sending := none, idleDeadline := s.now + tunnelIdleTimeout } }
      have hlive' : (s.setTask c delivered).liveSenders c = [] :=
        liveSenders_setTask hlive ht
          (by simp [TunnelTask.senders, delivered, TunnelTask.send, hpc])
      have hinbox : delivered.inbox = t.inbox := rfl
      obtain ⟨s', t', hexec, ht', hpc', hwire⟩ :=
        exec_drain_idle hlive' (get?_setTask_self ht) rfl hinbox rfl
      refine ⟨s', t', ?_, ht', hpc', by simpa [delivered, TunnelTask.send] using hwire⟩
      have hsent : machine.step s (.sent c true) = some (s.setTask c delivered) :=
        step_sent ht hpc hsending
      simpa [drain, hsending, Machine.exec, hsent] using hexec

end Drain

/-- After the relay of one of two paired connections has ended, the relay of the
other half-closes exactly when the other is the one that had waited. -/
theorem halfCloses_iff {s : TunnelService} (h : machine.Reachable s)
    {m : Meeting String ConnId} (hm : m ∈ s.pairs) {x y : ConnId}
    (hjoins : m.Joins y x) (hx : s.relayEnded x)
    (hy : ∃ t r, s.tasks.get? y = some t ∧ t.pc = .relaying r) :
    s.HalfCloses y ↔ y = m.first := by
  obtain ⟨hs, hsound⟩ := consistent_of_reachable h
  obtain ⟨t, r, ht, hpc⟩ := hy
  constructor
  · rintro ⟨hlive, _⟩
    obtain ⟨hfirst, _⟩ | ⟨rfl, _⟩ := hjoins
    · exact hfirst
    · -- Its own sender keeps the inbox of the finder open.
      exfalso
      obtain ⟨hm', _⟩ | ⟨_, _, hmyTx⟩ := peer_of_relaying hsound hs ht hpc
      · exact hsound.first_ne_second hm' hm rfl
      · have hown : Holder.own m.second ∈ s.liveSenders m.second :=
          mem_liveSenders.mpr
            (.inr ⟨m.second, t, ht, mem_senders.mpr (.inl ⟨rfl, rfl, hmyTx⟩)⟩)
        simp [hlive] at hown
  · intro hfirst
    have hlive : s.liveSenders y = [] := by
      refine List.eq_nil_iff_forall_not_mem.mpr fun holder hmem => ?_
      obtain ⟨_, hsecond⟩ := own_of_mem_liveSenders hs hsound hm hjoins ht hpc hx hmem
      exact hsound.first_ne_second hm hm (hfirst.symm.trans hsecond)
    refine ⟨hlive, fun t' r' ht' hpc' => ?_⟩
    exact exec_drain hlive ht' hpc'

/-- The relay of `c` runs, and that of `ended` is over. -/
def oneRelayEnded (ended c : ConnId) (s : TunnelService) : Bool :=
  (match s.tasks.get? ended with
    | some t => t.pc = .returned .relayed
    | none => false) &&
  match s.tasks.get? c with
  | some t =>
      match t.pc with
      | .relaying _ => true
      | _ => false
  | none => false

theorem relayEnded_of_oneRelayEnded {ended c : ConnId} {s : TunnelService}
    (h : oneRelayEnded ended c s = true) :
    s.relayEnded ended ∧ ∃ t r, s.tasks.get? c = some t ∧ t.pc = .relaying r := by
  simp only [oneRelayEnded, Bool.and_eq_true] at h
  obtain ⟨hended, hrelaying⟩ := h
  constructor
  · cases ht : s.tasks.get? ended with
    | none => simp [ht] at hended
    | some t => exact ⟨t, ht, .inl (by simpa [ht] using hended)⟩
  · cases ht : s.tasks.get? c with
    | none => simp [ht] at hrelaying
    | some t =>
        cases hpc : t.pc with
        | relaying r => exact ⟨t, r, rfl, hpc⟩
        | _ => simp [ht, hpc] at hrelaying

/-- The joiner closes: the host's relay half-closes. -/
theorem halfCloses_first :
    ∃ s, machine.Reachable s ∧ s.relayEnded 2 ∧ s.HalfCloses 1 := by
  have hrun : (machine.exec machine.init (bothRelay ++ [.frame 2 (.message .close)])).any
      (fun s => decide (⟨"t", 1, 2⟩ ∈ s.pairs) && oneRelayEnded 2 1 s) = true := by
    decide
  obtain ⟨s, _, hreach, htest⟩ := Machine.exists_reachable_of_exec hrun
  simp only [Bool.and_eq_true, decide_eq_true_eq] at htest
  obtain ⟨hended, hrelaying⟩ := relayEnded_of_oneRelayEnded htest.2
  exact ⟨s, hreach, hended,
    (halfCloses_iff hreach htest.1 (.inl ⟨rfl, rfl⟩) hended hrelaying).mpr rfl⟩

/-- The host closes: the joiner, which found it waiting, holds its own inbox open. -/
theorem not_always_halfCloses :
    ¬ ∀ (s : TunnelService) (m : Meeting String ConnId) (x y : ConnId),
      machine.Reachable s → m ∈ s.pairs → m.Joins y x → s.relayEnded x →
      (∃ t r, s.tasks.get? y = some t ∧ t.pc = .relaying r) → s.HalfCloses y := by
  intro hclaim
  have hrun : (machine.exec machine.init (bothRelay ++ [.frame 1 (.message .close)])).any
      (fun s => decide (⟨"t", 1, 2⟩ ∈ s.pairs) && oneRelayEnded 1 2 s &&
        decide (s.liveSenders 2 ≠ [])) = true := by
    decide
  obtain ⟨s, _, hreach, htest⟩ := Machine.exists_reachable_of_exec hrun
  simp only [Bool.and_eq_true, decide_eq_true_eq] at htest
  obtain ⟨⟨hpair, hended⟩, hlive⟩ := htest
  obtain ⟨hended, hrelaying⟩ := relayEnded_of_oneRelayEnded hended
  exact hlive (hclaim s _ 1 2 hreach hpair (.inr ⟨rfl, rfl⟩) hended hrelaying).1

end TunnelService

end War3BattleTool.Server
