import War3BattleTool.Server.Credentials

set_option autoImplicit false

/-!
# The roles of the two ends of a relay

A handler that finds a waiting peer knows the role of that peer, and does not compare it with
its own.  The two ends of a relay are a host and a joiner exactly as long as nobody takes over
a waiting peer of its own role (`complementary_iff`).
-/

namespace War3BattleTool.Server

open War3BattleTool.Foundation

namespace TunnelService

variable {s s' : TunnelService} {c : ConnId} {t : TunnelTask}

/-- A block that is not the take-over of a waiting peer pairs nobody. -/
theorem boardMove_eq_meet {l : Label} {a : ConnId} (hmove : s.boardMove l = .meet a) :
    l = .block a ∧ ∃ t peer, s.tasks.get? a = some t ∧ t.pc = .unbind peer := by
  cases l with
  | block c =>
      simp only [boardMove] at hmove
      split at hmove
      · next t ht =>
        unfold blockMove at hmove
        split at hmove
        · split at hmove
          · cases hmove
          · split at hmove <;> cases hmove
        · cases hmove
        · next peer hpc =>
          cases hmove
          exact ⟨rfl, t, peer, ht, hpc⟩
        · cases hmove
        · cases hmove
        · cases hmove
      · cases hmove
  | cleanup =>
      simp only [boardMove] at hmove
      split at hmove <;> cases hmove
  | request | notified | recv | sent | frame | idle =>
      simp only [boardMove, leaving] at hmove
      repeat' split at hmove
      all_goals cases hmove
  | elapse | lookupUpnp | upgrade | registerPending | registerBinding | timeout =>
      cases hmove

/-- A handler that takes over a waiting peer is paired with it if the peer still waits. -/
theorem pairs_unbind {peer : WaitingPeer} {w : TunnelTask}
    (hw : s.tasks.get? peer.notify = some w) : (s.unbind c t peer).pairs =
      if w.notify = .pending then s.pairs ++ [⟨t.token, peer.notify, c⟩] else s.pairs := by
  simp only [unbind, tasks_setTunnel, hw]
  split <;> rfl

/-- A reported take-over: the handler holds a peer of its own role, which waits. -/
theorem takesOwnRole_iff : s.takesOwnRole t = true ↔ ∃ peer w, t.pc = .unbind peer ∧
    s.tasks.get? peer.notify = some w ∧ w.notify = .pending ∧ w.role = t.role := by
  unfold takesOwnRole
  split
  · next peer hpc => simp [Option.any_eq_true, hpc]
  · next hpc =>
    simp only [Bool.false_eq_true, false_iff, not_exists, not_and]
    intro peer w hpc'
    exact absurd hpc' (hpc peer)

/-- Either nobody is paired and no take-over is reported, or two connections are paired, and a
take-over is reported exactly when their roles are the same. -/
theorem pairs_step {l : Label} (hs : s.Consistent) (hsound : s.board.Sound)
    (h : s.step l = some s') :
    (s'.pairs = s.pairs ∧ ∀ token, .sameRole token ∉ s.tokenEvents l) ∨
      ∃ c t host w, s.tasks.get? c = some t ∧ s.tasks.get? host = some w ∧
        s'.pairs = s.pairs ++ [⟨t.token, host, c⟩] ∧
        ∀ token, .sameRole token ∈ s.tokenEvents l ↔ token = t.token ∧ w.role = t.role := by
  have hmeetings : s'.pairs = s.pairs ∨ ∃ a k host, s.boardMove l = .meet a ∧
      s.board.standing a = some (k, .holding host) ∧ s'.pairs = s.pairs ++ [⟨k, host, a⟩] :=
    (refines_step hsound hs h).move.meetings
  rcases hmeetings with hsame | ⟨c, k, host, hmove, hholding, hpairs⟩
  · refine .inl ⟨hsame, fun token hmem => ?_⟩
    -- A reported take-over pairs the handler with the peer it holds.
    cases l with
    | block c =>
        obtain ⟨t, ht, hblock⟩ := Option.bind_eq_some_iff.mp h
        simp only [tokenEvents, ht] at hmem
        split at hmem
        · next htakes =>
          obtain ⟨peer, w, hpc, hw, hpending, _⟩ := takesOwnRole_iff.mp htakes
          simp only [block, hpc, Option.some.injEq] at hblock
          rw [← hblock, pairs_unbind hw, if_pos hpending] at hsame
          simp at hsame
        · cases hmem
    | _ => simp [tokenEvents] at hmem
  · obtain ⟨rfl, t, peer, ht, hpc⟩ := boardMove_eq_meet hmove
    have hst : s.board.standing c = some (t.token, .holding peer.notify) := by
      simp [standing_board ht, TunnelTask.standing, hpc]
    obtain ⟨rfl, rfl⟩ : t.token = k ∧ peer.notify = host := by
      simpa [hst] using hholding
    obtain ⟨st, hhost, _⟩ := hsound.held hst
    obtain ⟨w, hw, _⟩ : ∃ w, s.tasks.get? peer.notify = some w ∧
        (w.token, w.standing) = (t.token, st) := by
      simpa [board] using hhost
    have hpending : w.notify = .pending := by
      by_contra hnot
      obtain ⟨t', ht', hblock⟩ := Option.bind_eq_some_iff.mp h
      obtain rfl : t = t' := by simpa [ht] using ht'
      simp only [block, hpc, Option.some.injEq] at hblock
      rw [← hblock, pairs_unbind hw, if_neg hnot] at hpairs
      simp at hpairs
    refine .inr ⟨c, t, peer.notify, w, ht, hw, hpairs, fun token => ?_⟩
    have htakes : s.takesOwnRole t = true ↔ w.role = t.role := by
      rw [takesOwnRole_iff]
      constructor
      · rintro ⟨peer', w', hpc', hw', _, hrole⟩
        obtain rfl : peer = peer' := by simpa [hpc] using hpc'
        obtain rfl : w = w' := by simpa [hw] using hw'
        exact hrole
      · exact fun hrole => ⟨peer, w, hpc, hw, hpending, hrole⟩
    simp only [tokenEvents, ht]
    by_cases hrole : w.role = t.role
    · simp [htakes.mpr hrole, hrole]
    · simp [mt htakes.mp hrole, hrole]

/-- The two parties of a meeting were admitted with one role. -/
def SameRole (s : TunnelService) (m : Meeting String ConnId) : Prop :=
  ∃ first second, s.badge m.first = some first ∧ s.badge m.second = some second ∧
    first.role = second.role

/-- One party was admitted as the host of the token, and the other as its joiner. -/
def Complementary (events : List TokenEvent) (s : TunnelService) (m : Meeting String ConnId) :
    Prop :=
  ∃ first second binding, s.tasks.get? m.first = some first ∧
    s.tasks.get? m.second = some second ∧ .registered m.key binding ∈ events ∧
    (first.role = "host" ∧ first.clientIp = binding.hostIp ∧
        second.role = "join" ∧ second.clientIp = binding.joinerIp ∨
      first.role = "join" ∧ first.clientIp = binding.joinerIp ∧
        second.role = "host" ∧ second.clientIp = binding.hostIp)

theorem exists_badge_of_standing {token : String} {st : Standing ConnId}
    (hst : s.board.standing c = some (token, st)) : ∃ b, s.badge c = some b := by
  obtain ⟨t, ht, _⟩ : ∃ t, s.tasks.get? c = some t ∧ (t.token, t.standing) = (token, st) := by
    simpa [board] using hst
  exact ⟨t.badge, badge_of_get? ht⟩

/-- The roles of a pair stay. -/
theorem sameRole_step {l : Label} (hsound : s.board.Sound) (h : s.step l = some s')
    {m : Meeting String ConnId} (hm : m ∈ s.pairs) : SameRole s' m ↔ SameRole s m := by
  obtain ⟨_, hfirst, _⟩ := hsound.metFirst hm
  obtain ⟨_, hsecond, _⟩ := hsound.metSecond hm
  obtain ⟨b, hb⟩ := exists_badge_of_standing hfirst
  obtain ⟨b', hb'⟩ := exists_badge_of_standing hsecond
  obtain ⟨b₁, hb₁, _, hrole, _⟩ := exists_badge_step h hb
  obtain ⟨b₁', hb₁', _, hrole', _⟩ := exists_badge_step h hb'
  simp [SameRole, hb, hb', hb₁, hb₁', hrole, hrole']

/-- Every pair of one role is reported, and no other one is. -/
structure RolesReported (events : List TokenEvent) (s : TunnelService) : Prop where
  reported : ∀ {m : Meeting String ConnId}, m ∈ s.pairs → SameRole s m →
    .sameRole m.key ∈ events
  paired : ∀ {token}, .sameRole token ∈ events →
    ∃ m ∈ s.pairs, m.key = token ∧ SameRole s m

theorem RolesReported.step {events : List TokenEvent} {l : Label} (hr : RolesReported events s)
    (hs : s.Consistent) (hsound : s.board.Sound) (h : s.step l = some s') :
    RolesReported (events ++ s.tokenEvents l) s' := by
  rcases pairs_step hs hsound h with ⟨hpairs, hnone⟩ | ⟨c, t, host, w, ht, hw, hpairs, hevents⟩
  · refine ⟨fun {m} hm hsame => ?_, fun {token} hmem => ?_⟩
    · rw [hpairs] at hm
      exact List.mem_append_left _ (hr.reported hm ((sameRole_step hsound h hm).mp hsame))
    · rcases List.mem_append.mp hmem with hold | hnew
      · obtain ⟨m, hm, hkey, hsame⟩ := hr.paired hold
        exact ⟨m, hpairs ▸ hm, hkey, (sameRole_step hsound h hm).mpr hsame⟩
      · exact absurd hnew (hnone token)
  · -- The new pair has one role after the step if and only if it had one before.
    obtain ⟨b, hb, _, hrole, _⟩ := exists_badge_step h (badge_of_get? hw)
    obtain ⟨b', hb', _, hrole', _⟩ := exists_badge_step h (badge_of_get? ht)
    have hnew : SameRole s' ⟨t.token, host, c⟩ ↔ w.role = t.role := by
      simp [SameRole, hb, hb', hrole, hrole', TunnelTask.badge]
    refine ⟨fun {m} hm hsame => ?_, fun {token} hmem => ?_⟩
    · rw [hpairs, List.mem_append, List.mem_singleton] at hm
      rcases hm with hm | rfl
      · exact List.mem_append_left _ (hr.reported hm ((sameRole_step hsound h hm).mp hsame))
      · exact List.mem_append_right _ ((hevents t.token).mpr ⟨rfl, hnew.mp hsame⟩)
    · rcases List.mem_append.mp hmem with hold | hmem
      · obtain ⟨m, hm, hkey, hsame⟩ := hr.paired hold
        refine ⟨m, ?_, hkey, (sameRole_step hsound h hm).mpr hsame⟩
        rw [hpairs]
        exact List.mem_append_left _ hm
      · obtain ⟨rfl, hsame⟩ := (hevents token).mp hmem
        refine ⟨⟨t.token, host, c⟩, ?_, rfl, hnew.mpr hsame⟩
        rw [hpairs]
        exact List.mem_append_right _ (List.mem_singleton_self _)

theorem rolesReported_of_trace {events : List TokenEvent}
    (htrace : machine.Trace tokenEvents events s) : RolesReported events s := by
  refine htrace.invariant (I := RolesReported) ?_ fun events s l s' hreach hr h => ?_
  · constructor <;> simp [machine, start]
  · obtain ⟨hs, hsound⟩ := consistent_of_reachable hreach
    exact hr.step hs hsound h

/-- The pairs of a token are complementary if and only if nobody took over a waiting peer of
its own role. -/
theorem complementary_of_trace {events : List TokenEvent} {token : String}
    (htrace : machine.Trace tokenEvents events s) :
    (∀ m ∈ s.pairs, m.key = token → Complementary events s m) ↔
      .sameRole token ∉ events := by
  obtain ⟨hs, hsound⟩ := consistent_of_reachable htrace.reachable
  have hc := credited_of_trace htrace
  have hr := rolesReported_of_trace htrace
  constructor
  · intro hall hmem
    obtain ⟨m, hm, hkey, b, b', hb, hb', hsame⟩ := hr.paired hmem
    obtain ⟨first, second, _, hfirst, hsecond, _, hroles⟩ := hall m hm hkey
    obtain rfl : first.badge = b := by simpa [badge_of_get? hfirst] using hb
    obtain rfl : second.badge = b' := by simpa [badge_of_get? hsecond] using hb'
    have hsame : first.role = second.role := hsame
    rcases hroles with ⟨hhost, _, hjoin, _⟩ | ⟨hjoin, _, hhost, _⟩
    · simp [hhost, hjoin] at hsame
    · simp [hhost, hjoin] at hsame
  · rintro hnone m hm rfl
    obtain ⟨⟨first, binding, hfirst, _, hmem, hrole⟩,
        second, binding', hsecond, _, hmem', hrole'⟩ := authorised_of_mem_pairs hc hsound hm
    obtain rfl := hc.once hmem hmem'
    have hdiffer : first.role ≠ second.role := fun hsame =>
      hnone (hr.reported hm ⟨_, _, badge_of_get? hfirst, badge_of_get? hsecond, hsame⟩)
    refine ⟨first, second, binding, hfirst, hsecond, hmem, ?_⟩
    rcases hrole with ⟨hhost, hip⟩ | ⟨hjoin, hip⟩
    · rcases hrole' with ⟨hhost', _⟩ | ⟨hjoin', hip'⟩
      · exact absurd (hhost.trans hhost'.symm) hdiffer
      · exact .inl ⟨hhost, hip, hjoin', hip'⟩
    · rcases hrole' with ⟨hhost', hip'⟩ | ⟨hjoin', _⟩
      · exact .inr ⟨hjoin, hip, hhost', hip'⟩
      · exact absurd (hjoin.trans hjoin'.symm) hdiffer

end TunnelService

namespace Lobby

/-- The pairs of a token are a host and a joiner, in every run of the server in which nobody
takes over a waiting peer of its own role, and in no other run. -/
theorem complementary_iff {events : List TokenEvent} {s : Lobby} {token : String}
    (htrace : machine.Trace tokenEvents events s) :
    (∀ m ∈ s.tunnel.pairs, m.key = token → s.tunnel.Complementary events m) ↔
      .sameRole token ∉ events :=
  TunnelService.complementary_of_trace (trace_tunnel tokenEvents_eq htrace)

/-- A host and a joiner meet, and nobody took over a peer of its own role. -/
theorem complementary_paired : ∃ s events, machine.Trace tokenEvents events s ∧
    s.tunnel.pairs ≠ [] ∧ ∀ m ∈ s.tunnel.pairs, m.key = "t" → s.tunnel.Complementary events m := by
  have hrun : (machine.exec machine.init (tunnelRun "t" "host" "join")).any
      (fun s => !s.tunnel.pairs.isEmpty) = true := by
    decide
  have hnone : .sameRole "t" ∉ machine.report tokenEvents machine.init
      (tunnelRun "t" "host" "join") := by
    decide
  obtain ⟨s, hexec, _, hpaired⟩ := Machine.exists_reachable_of_exec hrun
  have htrace := Machine.trace_of_exec (f := tokenEvents) hexec
  exact ⟨s, _, htrace, by simpa using hpaired, (complementary_iff htrace).mpr hnone⟩

/-- Two connections of the host present the token, and are relayed to each other. -/
theorem not_always_complementary : ¬ ∀ events s, machine.Trace tokenEvents events s →
    ∀ m ∈ s.tunnel.pairs, s.tunnel.Complementary events m := by
  intro hclaim
  have hrun : (machine.exec machine.init (tunnelRun "t" "host" "host")).any
      (fun s => decide (⟨"t", 1, 2⟩ ∈ s.tunnel.pairs) &&
        (s.tunnel.tasks.get? 1).all (·.role = "host") &&
        (s.tunnel.tasks.get? 2).all (·.role = "host")) = true := by
    decide
  obtain ⟨s, hexec, _, htest⟩ := Machine.exists_reachable_of_exec hrun
  have htrace := Machine.trace_of_exec (f := tokenEvents) hexec
  simp only [Bool.and_eq_true, decide_eq_true_eq] at htest
  obtain ⟨⟨hm, hfirst⟩, hsecond⟩ := htest
  obtain ⟨first, second, _, h₁, h₂, _, hroles⟩ := hclaim _ s htrace _ hm
  simp only [h₁, h₂, Option.all_some, decide_eq_true_eq] at hfirst hsecond
  rcases hroles with ⟨_, _, hjoin, _⟩ | ⟨hjoin, _, _, _⟩
  · simp [hsecond] at hjoin
  · simp [hfirst] at hjoin

end Lobby

end War3BattleTool.Server
