import War3BattleTool.Foundation.RendezvousRuns
import War3BattleTool.Server.TunnelRefinement

set_option autoImplicit false

/-!
# Who is paired with whom

Two questions about the pairing of tunnel connections, both answered at the
rendezvous board and carried to the service by `simulates`.

* Do two connections that present the same token find each other?  The lookup
  and the insertion into the waiting map are separate blocks, so both can look
  before either is there to be found; the second insertion then throws out the
  first.  They find each other exactly when that did not happen
  (`xor_pairsWith_iff`).
* Is a token used once?  The check of the binding and its removal are separate
  blocks too, so a connection that passed the check can look later.  A token is
  used once in every run in which nobody takes a waiting peer under a token that
  is used up (`countP_pairs_le_one`).
-/

namespace War3BattleTool.Server

open War3BattleTool.Foundation

/-- The connection is past its lookup in the waiting map. -/
def TunnelTask.pastLookup (t : TunnelTask) : Bool :=
  match t.pc with
  | .upgrading | .upgradeFailed | .checkBinding | .lookupWaiting => false
  | .returned .rejected | .released .rejected => false
  | _ => true

/-- The connection waits, and nobody has handed itself over. -/
def TunnelTask.waits (t : TunnelTask) : Bool :=
  match t.pc with
  | .awaitPeer _ => t.notify = .pending
  | _ => false

/-- The connection holds the waiting peer that `c` registered. -/
def TunnelTask.holdsPeer (t : TunnelTask) (c : ConnId) : Bool :=
  match t.pc with
  | .unbind peer => peer.notify = c
  | _ => false

/-- The connection holds a waiting peer. -/
def TunnelTask.unbinding (t : TunnelTask) : Bool :=
  match t.pc with
  | .unbind _ => true
  | _ => false

namespace TunnelService

/-- A connection with the token that passes the test. -/
def hasTask (s : TunnelService) (token : String) (c : ConnId)
    (test : TunnelTask → Bool) : Bool :=
  match s.tasks.get? c with
  | some t => decide (t.token = token) && test t
  | none => false

/-- `finder` was put into relay with `waiter`, or holds it while it still
waits. -/
def pairsWith (s : TunnelService) (token : String) (waiter finder : ConnId) : Bool :=
  decide (⟨token, waiter, finder⟩ ∈ s.pairs) ||
    (s.hasTask token finder (·.holdsPeer waiter) && s.hasTask token waiter (·.waits))

/-! ## Two connections with one token -/

/-- `c` looks while `other` is between its lookup and its insertion. -/
def looksDuring (s : TunnelService) (token : String) (c other : ConnId) : Bool :=
  s.hasTask token c (·.pc = .lookupWaiting) &&
    s.hasTask token other (·.pc = .registerWaiting)

/-- The lookups of `a` and `b` that miss the other. -/
def races (a b : ConnId) (token : String) (s : TunnelService) : Label → List ConnId
  | .block c =>
      if c = a ∧ s.looksDuring token a b ∨ c = b ∧ s.looksDuring token b a then [c]
      else []
  | _ => []

/-- Only `a` and `b` present the token, neither times out, and the cleanup task
does not find their entry expired. -/
def undisturbed (a b : ConnId) (token : String) (s : TunnelService) : Label → Bool
  | .request c _ _ (some token') _ => token' ≠ token ∨ c = a ∨ c = b
  | .timeout c => c ≠ a ∧ c ≠ b
  | .cleanup => s.cleanup ≠ .removeWaiting ∨ token ∉ s.tunnel.expiredTokens s.now
  | _ => true

theorem looked_standing (t : TunnelTask) : t.standing.looked = t.pastLookup := by
  unfold TunnelTask.standing TunnelTask.pastLookup
  cases t.pc with
  | awaitPeer deadline => cases t.notify <;> rfl
  | relaying r =>
      simp only
      split
      · rfl
      · rfl
  | returned exit | released exit =>
      cases exit with
      | rejected => rfl
      | unpaired | relayed =>
          simp only [reduceCtorEq, if_false]
          split
          · rfl
          · rfl
  | _ => rfl

theorem standing_eq_admitted (t : TunnelTask) :
    t.standing = .admitted ↔ decide (t.pc = .lookupWaiting) = true := by
  rw [decide_eq_true_eq]
  constructor
  · intro hst
    have hblock := t.block_of_standing
    rwa [hst] at hblock
  · intro hpc
    simp only [TunnelTask.standing, hpc]

theorem standing_eq_enlisting (t : TunnelTask) :
    t.standing = .enlisting ↔ decide (t.pc = .registerWaiting) = true := by
  rw [decide_eq_true_eq]
  constructor
  · intro hst
    have hblock := t.block_of_standing
    rwa [hst] at hblock
  · intro hpc
    simp only [TunnelTask.standing, hpc]

theorem standing_eq_waiting (t : TunnelTask) : t.standing = .waiting ↔ t.waits = true := by
  rw [TunnelTask.standing_eq_waiting]
  cases hpc : t.pc with
  | awaitPeer deadline => simp [TunnelTask.waits, hpc]
  | _ => simp [TunnelTask.waits, hpc]

theorem standing_eq_holding (c : ConnId) (t : TunnelTask) :
    t.standing = .holding c ↔ t.holdsPeer c = true := by
  constructor
  · intro hst
    have hblock := t.block_of_standing
    rw [hst] at hblock
    obtain ⟨peer, hpc, rfl⟩ := hblock
    simp [TunnelTask.holdsPeer, hpc]
  · intro hholds
    cases hpc : t.pc with
    | unbind peer =>
        obtain rfl : peer.notify = c := by simpa [TunnelTask.holdsPeer, hpc] using hholds
        simp only [TunnelTask.standing, hpc]
    | _ => simp [TunnelTask.holdsPeer, hpc] at hholds

section Board

variable {s : TunnelService} {token : String} {c : ConnId}

/-- A standing at the board is a test of the connection. -/
theorem standing_board_iff {st : Standing ConnId} {test : TunnelTask → Bool}
    (htest : ∀ t, t.standing = st ↔ test t = true) :
    s.board.standing c = some (token, st) ↔ s.hasTask token c test = true := by
  simp only [board, hasTask]
  cases s.tasks.get? c with
  | none => simp
  | some t => simp [htest]

theorem looked_iff : s.board.Looked token c ↔ s.hasTask token c (·.pastLookup) = true := by
  simp only [Board.Looked, board, hasTask]
  cases s.tasks.get? c with
  | none => simp
  | some t => simp [← looked_standing]

theorem pairsWith_iff {waiter finder : ConnId} :
    s.board.PairsWith token waiter finder ↔ s.pairsWith token waiter finder = true := by
  simp only [Board.PairsWith, pairsWith, Bool.or_eq_true, Bool.and_eq_true,
    decide_eq_true_eq, standing_board_iff (standing_eq_holding waiter),
    standing_board_iff standing_eq_waiting]
  rfl

theorem racesAgainst_iff {other : ConnId} :
    s.board.racesAgainst token c other ↔ s.looksDuring token c other = true := by
  simp only [Board.racesAgainst, looksDuring, Bool.and_eq_true,
    standing_board_iff standing_eq_admitted, standing_board_iff standing_eq_enlisting]

end Board

theorem blockMove_eq_look {s : TunnelService} {c c' : ConnId} {t : TunnelTask} :
    s.blockMove c' t = .look c ↔ t.pc = .lookupWaiting ∧ c' = c := by
  unfold blockMove
  cases hpc : t.pc with
  | checkBinding =>
      simp only [reduceCtorEq, false_and, iff_false]
      cases s.tunnel.tokenBindings.get? t.token with
      | none => simp
      | some binding =>
          simp only
          split
          · simp
          · simp
  | _ => simp

/-- The board is looked at by the lookup in the waiting map. -/
theorem boardMove_eq_look {s : TunnelService} {l : Label} {c : ConnId} :
    s.boardMove l = .look c ↔
      l = .block c ∧ ∃ t, s.tasks.get? c = some t ∧ t.pc = .lookupWaiting := by
  constructor
  · intro hlook
    cases l with
    | block c' =>
        simp only [boardMove] at hlook
        cases ht : s.tasks.get? c' with
        | none => simp [ht] at hlook
        | some t =>
            simp only [ht] at hlook
            obtain ⟨hpc, rfl⟩ := blockMove_eq_look.mp hlook
            exact ⟨rfl, t, ht, hpc⟩
    | request c' originOk ip token role =>
        simp only [boardMove] at hlook
        split at hlook
        · cases hlook
        · cases hlook
    | notified c' =>
        simp only [boardMove] at hlook
        cases ht : s.tasks.get? c' with
        | none => simp [ht] at hlook
        | some t =>
            simp only [ht] at hlook
            split at hlook
            · cases hlook
            · cases hlook
    | recv c' | sent c' ok | frame c' item =>
        simp only [boardMove] at hlook
        cases ht : s.tasks.get? c' with
        | none => simp [ht] at hlook
        | some t =>
            simp only [ht, leaving] at hlook
            split at hlook
            · cases hlook
            · cases hlook
    | idle c' =>
        simp only [boardMove] at hlook
        cases ht : s.tasks.get? c' with
        | none => simp [ht] at hlook
        | some t => simp [ht, leaving] at hlook
    | cleanup =>
        simp only [boardMove] at hlook
        cases hcleanup : s.cleanup with
        | removeWaiting => simp [hcleanup] at hlook
        | _ => simp [hcleanup] at hlook
    | _ => simp [boardMove] at hlook
  · rintro ⟨rfl, t, ht, hpc⟩
    simp only [boardMove, ht]
    exact blockMove_eq_look.mpr ⟨hpc, rfl⟩

/-- The races of the service are those of its board. -/
theorem races_boardMove (a b : ConnId) (token : String) (s : TunnelService) (l : Label) :
    races a b token s l = Board.races a b token s.board (s.boardMove l) := by
  by_cases hlook : ∃ c, s.boardMove l = .look c
  · obtain ⟨c, hlook⟩ := hlook
    obtain ⟨rfl, _⟩ := boardMove_eq_look.mp hlook
    simp only [hlook, races, Board.races, racesAgainst_iff]
  · have hboard : Board.races a b token s.board (s.boardMove l) = [] := by
      cases hmove : s.boardMove l with
      | look c => exact absurd ⟨c, hmove⟩ hlook
      | _ => rfl
    rw [hboard]
    cases l with
    | block c =>
        refine if_neg ?_
        have hnot : ∀ other, s.looksDuring token c other = false := by
          intro other
          cases ht : s.tasks.get? c with
          | none => simp [looksDuring, hasTask, ht]
          | some t =>
              have hpc : t.pc ≠ .lookupWaiting := fun hpc =>
                hlook ⟨c, boardMove_eq_look.mpr ⟨rfl, t, ht, hpc⟩⟩
              simp [looksDuring, hasTask, ht, hpc]
        rintro (⟨rfl, hduring⟩ | ⟨rfl, hduring⟩)
        · simp [hnot] at hduring
        · simp [hnot] at hduring
    | _ => rfl

/-- Leaving is not giving up. -/
theorem undisturbed_leaving (a b c : ConnId) (token : String) (board : Board String ConnId)
    (t : TunnelTask) (exit : Exit) :
    Board.undisturbed a b token board (leaving c t exit) := by
  intro hgivesUp
  obtain ⟨hst, _⟩ | ⟨hst | hst, _⟩ := TunnelTask.standing_over (t := t.finish exit) (.inl rfl)
  all_goals
    rw [hst] at hgivesUp
    cases hgivesUp

/-- The discipline of the service is that of its board. -/
theorem undisturbed_boardMove (a b : ConnId) (token : String) (s : TunnelService)
    (l : Label) (h : undisturbed a b token s l = true) :
    Board.undisturbed a b token s.board (s.boardMove l) := by
  cases l with
  | request c originOk ip tokenParam role =>
      simp only [boardMove]
      split
      · next token' role' hok =>
        obtain ⟨rfl, _⟩ := tunnelHandler_ok (Prod.ext rfl hok)
        intro htoken
        simpa [undisturbed, htoken] using h
      · trivial
  | block c =>
      simp only [boardMove]
      cases s.tasks.get? c with
      | none => trivial
      | some t =>
          simp only [blockMove]
          cases t.pc with
          | checkBinding =>
              simp only
              cases s.tunnel.tokenBindings.get? t.token with
              | none => simp [Board.undisturbed]
              | some binding =>
                  simp only
                  split
                  · trivial
                  · simp [Board.undisturbed]
          | _ => trivial
  | timeout c => exact fun _ => by simpa [undisturbed] using h
  | notified c =>
      simp only [boardMove]
      cases s.tasks.get? c with
      | none => trivial
      | some t =>
          simp only
          split
          · simp [Board.undisturbed]
          · exact undisturbed_leaving a b c token s.board t _
  | recv c =>
      simp only [boardMove]
      cases s.tasks.get? c with
      | none => trivial
      | some t =>
          simp only
          split
          · exact undisturbed_leaving a b c token s.board t _
          · trivial
  | sent c ok =>
      simp only [boardMove]
      cases s.tasks.get? c with
      | none => trivial
      | some t =>
          simp only
          split
          · trivial
          · exact undisturbed_leaving a b c token s.board t _
  | frame c item =>
      simp only [boardMove]
      cases s.tasks.get? c with
      | none => trivial
      | some t =>
          simp only
          split
          · exact undisturbed_leaving a b c token s.board t _
          · trivial
  | idle c =>
      simp only [boardMove]
      cases s.tasks.get? c with
      | none => trivial
      | some t => exact undisturbed_leaving a b c token s.board t _
  | cleanup =>
      simp only [boardMove]
      cases hpc : s.cleanup with
      | removeWaiting => simpa [undisturbed, Board.undisturbed, hpc] using h
      | _ => trivial
  | _ => trivial

/-- Two connections with one token that are past their lookup find each other, one
way round, exactly when neither looked while the other was between its lookup and
its insertion. -/
theorem xor_pairsWith_iff {a b : ConnId} {token : String} {events : List ConnId}
    {s : TunnelService} (hne : a ≠ b)
    (h : (machine.restrict fun s l => undisturbed a b token s l = true).Trace
      (races a b token) events s)
    (ha : s.hasTask token a (·.pastLookup) = true)
    (hb : s.hasTask token b (·.pastLookup) = true) :
    Xor (s.pairsWith token a b = true) (s.pairsWith token b a = true) ↔ events = [] := by
  classical
  have sim : Machine.Simulates
      (machine.restrict fun s l => undisturbed a b token s l = true)
      (Board.machine.restrict (Board.undisturbed a b token)) board boardMove :=
    simulates.restrict fun s l _ => undisturbed_boardMove a b token s l
  have htrace := sim.trace (races_boardMove a b token) h
  rw [← pairsWith_iff, ← pairsWith_iff]
  exact Board.pairsWith_xor_iff hne htrace (looked_iff.mpr ha) (looked_iff.mpr hb)

/-- A token is registered and two connections that present it, the host's `1` and
the joiner's `2`, have completed their upgrade. -/
def twoConnections : List Label :=
  [.registerPending "t" (.v4 1) (.v4 2) "p", .registerBinding "t",
    .request 1 true (.v4 1) (some "t") (some "host"), .upgrade 1 true,
    .request 2 true (.v4 2) (some "t") (some "join"), .upgrade 2 true]

/-- The host has inserted itself when the joiner looks: they are paired. -/
theorem xor_pairsWith_orderly :
    ∃ s, (machine.restrict fun s l => undisturbed 1 2 "t" s l = true).Trace
        (races 1 2 "t") [] s ∧
      Xor (s.pairsWith "t" 1 2 = true) (s.pairsWith "t" 2 1 = true) := by
  let M := machine.restrict fun s l => undisturbed 1 2 "t" s l = true
  let run := twoConnections ++ [.block 1, .block 1, .block 1, .block 2, .block 2, .block 2]
  have hrun : (M.exec M.init run).any (fun s =>
      s.hasTask "t" 1 (·.pastLookup) && s.hasTask "t" 2 (·.pastLookup)) = true := by
    decide
  have hraces : M.report (races 1 2 "t") M.init run = [] := by decide
  obtain ⟨s, hs, _, hpast⟩ := Machine.exists_reachable_of_exec hrun
  have htrace := hraces ▸ Machine.trace_of_exec (f := races 1 2 "t") hs
  simp only [Bool.and_eq_true] at hpast
  exact ⟨s, htrace, (xor_pairsWith_iff (by decide) htrace hpast.1 hpast.2).mpr rfl⟩

/-- A host and a joiner that are not disturbed can miss each other: both look
before either is inserted. -/
theorem not_always_xor_pairsWith :
    ¬ ∀ (a b : ConnId) (token : String) (s : TunnelService), a ≠ b →
      (machine.restrict fun s l => undisturbed a b token s l = true).Reachable s →
      s.hasTask token a (fun t => t.role = "host" && t.pastLookup) = true →
      s.hasTask token b (fun t => t.role = "join" && t.pastLookup) = true →
      Xor (s.pairsWith token a b = true) (s.pairsWith token b a = true) := by
  intro hclaim
  let M := machine.restrict fun s l => undisturbed 1 2 "t" s l = true
  let run := twoConnections ++ [.block 1, .block 2, .block 1, .block 2, .block 1, .block 2]
  have hrun : (M.exec M.init run).any (fun s =>
      s.hasTask "t" 1 (fun t => t.role = "host" && t.pastLookup) &&
        s.hasTask "t" 2 (fun t => t.role = "join" && t.pastLookup) &&
        !s.pairsWith "t" 1 2 && !s.pairsWith "t" 2 1) = true := by
    decide
  obtain ⟨s, _, hreach, htest⟩ := Machine.exists_reachable_of_exec hrun
  simp only [Bool.and_eq_true, Bool.not_eq_true'] at htest
  obtain ⟨⟨⟨hhost, hjoin⟩, hforth⟩, hback⟩ := htest
  have hxor := hclaim 1 2 "t" s (by decide) hreach hhost hjoin
  simp [hforth, hback] at hxor

/-! ## One token -/

/-- A waiting peer is taken under the token only while the token is bound and no
other handler is about to unbind it. -/
def takesBound (token : String) (s : TunnelService) : Label → Bool
  | .block c =>
      !(s.hasTask token c (·.pc = .lookupWaiting) &&
          (s.tunnel.waiting.get? token).isSome) ||
        ((s.tunnel.tokenBindings.get? token).isSome &&
          s.tasks.values.all fun t => !(t.token = token && t.unbinding))
  | _ => true

theorem takesBound_boardMove {token : String} {s : TunnelService} {l : Label}
    (hs : s.Consistent) (h : takesBound token s l = true) :
    Board.singleUse token s.board (s.boardMove l) := by
  cases hmove : s.boardMove l with
  | look c =>
      obtain ⟨rfl, _⟩ := boardMove_eq_look.mp hmove
      intro hadmitted hnotice
      have hlookup := (standing_board_iff standing_eq_admitted).mp hadmitted
      have hpeer : (s.tunnel.waiting.get? token).isSome = true := by
        simpa [board, Option.isSome_iff_ne_none] using hnotice
      simp only [takesBound, hlookup, hpeer, Bool.and_true, Bool.not_true, Bool.false_or,
        Bool.and_eq_true, List.all_eq_true] at h
      obtain ⟨hbound, hnobody⟩ := h
      obtain ⟨binding, hbinding⟩ := Option.isSome_iff_exists.mp hbound
      have hregistered : s.registering.get? token = none := by
        by_contra hsome
        obtain ⟨b, hb⟩ := Option.ne_none_iff_exists'.mp hsome
        simp [(hs.registering hb).2] at hbinding
      refine ⟨by simp [board, tokenStage, hregistered, hbinding], fun a' host hholding => ?_⟩
      obtain ⟨t, ht, heq⟩ : ∃ t, s.tasks.get? a' = some t ∧
          (t.token, t.standing) = (token, .holding host) := by
        simpa [board] using hholding
      obtain ⟨rfl, hst⟩ : t.token = token ∧ t.standing = .holding host := by
        simpa using heq
      have hbusy := hnobody t (Table.mem_values_iff.mpr ⟨a', ht⟩)
      have hblock := t.block_of_standing
      rw [hst] at hblock
      obtain ⟨peer, hpc, _⟩ := hblock
      simp [TunnelTask.unbinding, hpc] at hbusy
  | _ => trivial

/-- A token is used for one pair at most, as long as nobody takes a waiting peer
under a token that is used up or about to be. -/
theorem countP_pairs_le_one {token : String} {s : TunnelService}
    (h : (machine.restrict fun s l => takesBound token s l = true).Reachable s) :
    s.pairs.countP (·.key = token) ≤ 1 := by
  classical
  have sim : Machine.Simulates (machine.restrict fun s l => takesBound token s l = true)
      (Board.machine.restrict (Board.singleUse token)) board boardMove :=
    simulates.restrict fun s l hreach =>
      takesBound_boardMove (consistent_of_reachable hreach).1
  exact Board.meetings_le_one (sim.reachable h)

/-- A host and a joiner are paired once. -/
theorem countP_pairs_orderly :
    ∃ s, (machine.restrict fun s l => takesBound "t" s l = true).Reachable s ∧
      s.pairs ≠ [] ∧ s.pairs.countP (·.key = "t") ≤ 1 := by
  let M := machine.restrict fun s l => takesBound "t" s l = true
  let run := twoConnections ++ [.block 1, .block 1, .block 1, .block 2, .block 2, .block 2]
  have hrun : (M.exec M.init run).any (fun s => !s.pairs.isEmpty) = true := by decide
  obtain ⟨s, _, hreach, hpaired⟩ := Machine.exists_reachable_of_exec hrun
  exact ⟨s, hreach, by simpa using hpaired, countP_pairs_le_one hreach⟩

/-- Four connections that pass the check before the first pair is made are put
into relay as two pairs. -/
theorem not_always_countP_pairs_le_one :
    ¬ ∀ (token : String) (s : TunnelService), machine.Reachable s →
      s.pairs.countP (·.key = token) ≤ 1 := by
  intro hclaim
  let run := twoConnections ++
    [.request 3 true (.v4 1) (some "t") (some "host"), .upgrade 3 true,
      .request 4 true (.v4 2) (some "t") (some "join"), .upgrade 4 true,
      .block 1, .block 2, .block 3, .block 4,
      .block 1, .block 1, .block 2, .block 2,
      .block 3, .block 3, .block 4, .block 4]
  have hrun : (machine.exec machine.init run).any
      (fun s => s.pairs.countP (·.key = "t") = 2) = true := by
    decide
  obtain ⟨s, _, hreach, hcount⟩ := Machine.exists_reachable_of_exec hrun
  have hle := hclaim "t" s hreach
  simp only [decide_eq_true_eq] at hcount
  omega

end TunnelService

end War3BattleTool.Server
