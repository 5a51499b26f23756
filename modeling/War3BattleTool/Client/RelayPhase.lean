import War3BattleTool.Client.Bridge
import War3BattleTool.Foundation.Machine

set_option autoImplicit false

/-!
# The sources of the relay loop (`client/src/net/tunnel.rs`)

Phase 1 of `bridge_tcp_ws_with_swap` waits for four sources: the TCP socket, the WebSocket,
`swap_rx` and the ping timer.  Here the sources are part of the state.  What they will yield is
queued until an iteration of the `select!` loop takes it, and the channel of `swap_rx` has a
sender that the background QUIC task drops at its end.

A receive on a closed channel that is empty completes at once, every time.  An iteration that
takes this branch consumes no event and changes nothing, so the loop spins
(`exists_spinning`); it is driven by events only as long as it polls the closed channel no more
than once (`eventDriven_of_reachable`), in particular when the background task does not end
without a stream before Phase 1 does (`consumed_of_handsOver`).
-/

namespace War3BattleTool.Client

open War3BattleTool.Foundation

/-- The channel of `swap_rx`, whose capacity is one. -/
inductive SwapChannel where
  /-- empty, and the background QUIC task has the sender -/
  | empty
  /-- the QUIC stream waits in it -/
  | holding
  /-- empty, and the sender is dropped -/
  | closed
  deriving DecidableEq

/-- The branches of the `select!` loop of Phase 1. -/
inductive RelayBranch where
  | tcpRead
  | wsNext
  | swapRecv
  | pingTick
  deriving DecidableEq

/-- One call of `bridge_tcp_ws_with_swap` in Phase 1, and its sources.  `iterations`,
`consumed` and `closings` record how many iterations have completed, how many external events
they took, and how many took the branch of a closed swap channel. -/
structure RelayLoop where
  now : Instant
  bridge : Bridge
  tcp : List Chunk
  ws : List StreamItem
  swap : SwapChannel
  iterations : Nat
  consumed : Nat
  closings : Nat

namespace RelayLoop

/-- The loop of a bridge that starts at time zero. -/
def start : RelayLoop where
  now := 0
  bridge := .start 0
  tcp := []
  ws := []
  swap := .empty
  iterations := 0
  consumed := 0
  closings := 0

/-- An event is taken from its source. -/
def consume (s : RelayLoop) : RelayLoop := { s with consumed := s.consumed + 1 }

/-- What a branch resolves with, when its source is ready, and what is left of the sources. -/
def poll (s : RelayLoop) : RelayBranch → Option (Event × RelayLoop)
  | .tcpRead =>
      match s.tcp with
      | chunk :: rest => some (.tcpRead chunk, { s.consume with tcp := rest })
      | [] => none
  | .wsNext =>
      match s.ws with
      | item :: rest => some (.wsNext item, { s.consume with ws := rest })
      | [] => none
  | .swapRecv =>
      match s.swap with
      | .empty => none
      | .holding => some (.swapReady, { s.consume with swap := .closed })
      | .closed => some (.swapClosed, { s with closings := s.closings + 1 })
  | .pingTick => if s.bridge.nextPing ≤ s.now then some (.pingTick, s.consume) else none

/-- One iteration of the loop. -/
def iterate (s : RelayLoop) (branch : RelayBranch) (writes : Writes) : Option RelayLoop :=
  if s.bridge.phase = .relay then
    (s.poll branch).bind fun polled =>
      (s.bridge.relayStep s.now writes polled.1).map fun next =>
        { polled.2 with bridge := next.1, iterations := s.iterations + 1 }
  else none

/-- What can happen next. -/
inductive Label where
  /-- time passes -/
  | elapse (d : Duration)
  /-- TCP has something to read -/
  | tcpArrives (chunk : Chunk)
  /-- the WebSocket has a next item -/
  | wsArrives (item : StreamItem)
  /-- the background QUIC task ends, with a stream in the channel or without -/
  | quicEnds (stream : Bool)
  /-- an iteration of the loop takes a branch -/
  | iterate (branch : RelayBranch) (writes : Writes)

/-- One step of the loop or of its sources. -/
def step (s : RelayLoop) : Label → Option RelayLoop
  | .elapse d => some { s with now := s.now + d }
  | .tcpArrives chunk => some { s with tcp := s.tcp ++ [chunk] }
  | .wsArrives item => some { s with ws := s.ws ++ [item] }
  | .quicEnds stream =>
      if s.swap = .empty then some { s with swap := if stream then .holding else .closed }
      else none
  | .iterate branch writes => s.iterate branch writes

/-- The loop and its sources as a machine. -/
def machine : Machine RelayLoop Label where
  init := start
  step := step

/-- The iterations are driven by events: there are no more of them than events were consumed,
but for one in which the swap channel is found closed. -/
def EventDriven (s : RelayLoop) : Prop := s.iterations ≤ s.consumed + 1

instance (s : RelayLoop) : Decidable s.EventDriven :=
  inferInstanceAs (Decidable (s.iterations ≤ s.consumed + 1))

/-- The loop does not take the branch of the closed swap channel again. -/
def closesOnce (s : RelayLoop) : Label → Bool
  | .iterate .swapRecv _ => s.swap ≠ .closed || s.closings = 0
  | _ => true

/-- The background QUIC task does not drop its sender without a stream while the relay goes on. -/
def handsOver (s : RelayLoop) : Label → Bool
  | .quicEnds false => s.bridge.phase ≠ .relay
  | _ => true

/-! ## Iterations and events -/

section Iterations

variable {s s' : RelayLoop}

/-- A branch that resolves takes an event from its source, or finds the swap channel closed. -/
theorem poll_cases {branch : RelayBranch} {polled : Event × RelayLoop}
    (h : s.poll branch = some polled) :
    polled.2.consumed = s.consumed + 1 ∧ polled.2.closings = s.closings ∨
      branch = .swapRecv ∧ s.swap = .closed ∧ polled.2.consumed = s.consumed ∧
        polled.2.closings = s.closings + 1 := by
  cases branch with
  | tcpRead =>
      rw [poll] at h
      split at h
      · obtain rfl := Option.some.inj h
        exact .inl ⟨rfl, rfl⟩
      · cases h
  | wsNext =>
      rw [poll] at h
      split at h
      · obtain rfl := Option.some.inj h
        exact .inl ⟨rfl, rfl⟩
      · cases h
  | swapRecv =>
      rw [poll] at h
      split at h
      · cases h
      · obtain rfl := Option.some.inj h
        exact .inl ⟨rfl, rfl⟩
      next hclosed =>
        obtain rfl := Option.some.inj h
        exact .inr ⟨rfl, hclosed, rfl, rfl⟩
  | pingTick =>
      rw [poll] at h
      split at h
      · obtain rfl := Option.some.inj h
        exact .inl ⟨rfl, rfl⟩
      · cases h

/-- An iteration either consumes an event or finds the swap channel closed. -/
theorem iterate_cases {branch : RelayBranch} {writes : Writes}
    (h : s.iterate branch writes = some s') :
    s'.iterations = s.iterations + 1 ∧
      (s'.consumed = s.consumed + 1 ∧ s'.closings = s.closings ∨
        branch = .swapRecv ∧ s.swap = .closed ∧ s'.consumed = s.consumed ∧
          s'.closings = s.closings + 1) := by
  unfold iterate at h
  split at h
  · obtain ⟨polled, hpoll, h⟩ := Option.bind_eq_some_iff.mp h
    obtain ⟨next, _, rfl⟩ := Option.map_eq_some_iff.mp h
    exact ⟨rfl, poll_cases hpoll⟩
  · cases h

/-- Whatever is no iteration leaves the counts alone. -/
theorem counts_of_step {l : Label} (hother : ∀ branch writes, l ≠ .iterate branch writes)
    (h : s.step l = some s') :
    s'.iterations = s.iterations ∧ s'.consumed = s.consumed ∧ s'.closings = s.closings := by
  cases l with
  | elapse d =>
      obtain rfl := Option.some.inj h
      exact ⟨rfl, rfl, rfl⟩
  | tcpArrives chunk =>
      obtain rfl := Option.some.inj h
      exact ⟨rfl, rfl, rfl⟩
  | wsArrives item =>
      obtain rfl := Option.some.inj h
      exact ⟨rfl, rfl, rfl⟩
  | quicEnds stream =>
      rw [step] at h
      split at h
      · obtain rfl := Option.some.inj h
        exact ⟨rfl, rfl, rfl⟩
      · cases h
  | iterate branch writes => exact absurd rfl (hother branch writes)

/-- Every iteration has consumed an event, or found the swap channel closed. -/
theorem iterations_eq (h : machine.Reachable s) : s.iterations = s.consumed + s.closings := by
  apply h.invariant (I := fun s => s.iterations = s.consumed + s.closings)
  · rfl
  · intro s l s' _ ih hs
    by_cases hiterate : ∃ branch writes, l = .iterate branch writes
    · obtain ⟨branch, writes, rfl⟩ := hiterate
      obtain ⟨hiterations, ⟨hconsumed, hclosings⟩ | ⟨_, _, hconsumed, hclosings⟩⟩ :=
        iterate_cases hs
      · omega
      · omega
    · have hother : ∀ branch writes, l ≠ .iterate branch writes :=
        fun branch writes heq => hiterate ⟨branch, writes, heq⟩
      obtain ⟨hiterations, hconsumed, hclosings⟩ := counts_of_step hother hs
      omega

/-- The loop is driven by events as long as it has found the swap channel closed at most
once. -/
theorem eventDriven_iff (h : machine.Reachable s) : s.EventDriven ↔ s.closings ≤ 1 := by
  have hcount := iterations_eq h
  unfold EventDriven
  omega

/-- If the loop never takes the branch of a closed swap channel again, it is driven by
events. -/
theorem eventDriven_of_reachable
    (h : (machine.restrict fun s l => s.closesOnce l = true).Reachable s) : s.EventDriven := by
  apply (eventDriven_iff h.of_restrict).mpr
  apply h.invariant (I := fun s => s.closings ≤ 1)
  · exact Nat.zero_le 1
  · intro s l s' _ ih hs
    obtain ⟨honce, hs⟩ := Machine.restrict_step.mp hs
    by_cases hiterate : ∃ branch writes, l = .iterate branch writes
    · obtain ⟨branch, writes, rfl⟩ := hiterate
      obtain ⟨_, ⟨_, hclosings⟩ | ⟨rfl, hclosed, _, hclosings⟩⟩ := iterate_cases hs
      · omega
      · have hfirst : s.closings = 0 := by simpa [closesOnce, hclosed] using honce
        omega
    · have hother : ∀ branch writes, l ≠ .iterate branch writes :=
        fun branch writes heq => hiterate ⟨branch, writes, heq⟩
      obtain ⟨_, _, hclosings⟩ := counts_of_step hother hs
      omega

/-- Whether a write succeeds does not matter to the branch of the swap channel. -/
def noWrites : Writes where
  ws := false
  tcp := false
  quic := false

/-- The background task fails, the loop finds its channel closed and goes on to relay. -/
theorem eventDriven_once :
    ∃ s, (machine.restrict fun s l => s.closesOnce l = true).exec machine.init
        [.quicEnds false, .iterate .swapRecv noWrites, .tcpArrives (.data [1]),
          .iterate .tcpRead ⟨true, true, true⟩] = some s ∧
      s.closings = 1 ∧ s.bridge.phase = .relay ∧ s.EventDriven := by
  have hrun : ((machine.restrict fun s l => s.closesOnce l = true).exec machine.init
      [.quicEnds false, .iterate .swapRecv noWrites, .tcpArrives (.data [1]),
        .iterate .tcpRead ⟨true, true, true⟩]).any
      (fun s => decide (s.closings = 1 ∧ s.bridge.phase = .relay)) = true := by
    decide
  obtain ⟨s, hexec, hreach, htest⟩ :=
    Machine.exists_reachable_of_exec (M := machine.restrict fun s l => s.closesOnce l = true) hrun
  obtain ⟨hclosings, hphase⟩ := of_decide_eq_true htest
  exact ⟨s, hexec, hclosings, hphase, eventDriven_of_reachable hreach⟩

/-- The background task fails, and the loop spins. -/
theorem not_eventDriven : ∃ s, machine.Reachable s ∧ ¬ s.EventDriven := by
  have hrun : (machine.exec machine.init
      [.quicEnds false, .iterate .swapRecv noWrites, .iterate .swapRecv noWrites]).any
      (fun s => !decide s.EventDriven) = true := by
    decide
  obtain ⟨s, _, hreach, htest⟩ := Machine.exists_reachable_of_exec hrun
  exact ⟨s, hreach, by simpa using htest⟩

/-- The loop has never found the swap channel closed, and will not: it is closed only behind it. -/
structure HandedOver (s : RelayLoop) : Prop where
  ended : s.swap = .closed → s.bridge.phase ≠ .relay
  unseen : s.closings = 0

/-- An iteration that goes on to relay has not taken the stream from the channel. -/
theorem handedOver_iterate {branch : RelayBranch} {writes : Writes} (hs : s.HandedOver)
    (h : s.iterate branch writes = some s') : s'.HandedOver := by
  unfold iterate at h
  split at h
  next hrelay =>
    have hopen : s.swap ≠ .closed := fun hclosed => hs.ended hclosed hrelay
    obtain ⟨polled, hpoll, h⟩ := Option.bind_eq_some_iff.mp h
    obtain ⟨next, hnext, rfl⟩ := Option.map_eq_some_iff.mp h
    cases branch with
    | swapRecv =>
        rw [poll] at hpoll
        split at hpoll
        · cases hpoll
        · cases hpoll
          cases hnext
          exact ⟨fun _ => by simp, hs.unseen⟩
        next hclosed => exact absurd hclosed hopen
    | tcpRead | wsNext | pingTick =>
        have hsame : polled.2.swap = s.swap ∧ polled.2.closings = s.closings := by
          rw [poll] at hpoll
          split at hpoll <;> cases hpoll
          exact ⟨rfl, rfl⟩
        refine ⟨fun hclosed => absurd (hsame.1.symm.trans hclosed) hopen, ?_⟩
        exact hsame.2.trans hs.unseen
  next => cases h

theorem handedOver_step {l : Label} (hs : s.HandedOver) (hover : s.handsOver l = true)
    (h : s.step l = some s') : s'.HandedOver := by
  cases l with
  | elapse | tcpArrives | wsArrives =>
      obtain rfl := Option.some.inj h
      exact ⟨hs.ended, hs.unseen⟩
  | quicEnds stream =>
      rw [step] at h
      split at h
      · obtain rfl := Option.some.inj h
        refine ⟨fun hclosed => ?_, hs.unseen⟩
        cases stream with
        | true => cases hclosed
        | false => simpa [handsOver] using hover
      · cases h
  | iterate branch writes => exact handedOver_iterate hs h

/-- If the background QUIC task hands its stream over, or ends only after Phase 1, then every
iteration has consumed an event. -/
theorem consumed_of_handsOver
    (h : (machine.restrict fun s l => s.handsOver l = true).Reachable s) :
    s.iterations = s.consumed ∧ s.EventDriven := by
  have hs : s.HandedOver := by
    apply h.invariant (I := HandedOver)
    · exact ⟨fun hclosed => (by cases hclosed), rfl⟩
    · intro s l s' _ ih hs
      obtain ⟨hover, hs⟩ := Machine.restrict_step.mp hs
      exact handedOver_step ih hover hs
  have hcount := iterations_eq h.of_restrict
  rw [hs.unseen, Nat.add_zero] at hcount
  exact ⟨hcount, Nat.le_succ_of_le (Nat.le_of_eq hcount)⟩

/-- While the swap channel is closed and the relay goes on, the loop can iterate as often as it
likes: no time passes, and no event is consumed. -/
theorem exists_spinning (hphase : s.bridge.phase = .relay) (hclosed : s.swap = .closed)
    (n : Nat) : ∃ s', machine.exec s (List.replicate n (.iterate .swapRecv noWrites)) = some s' ∧
      s'.iterations = s.iterations + n ∧ s'.consumed = s.consumed ∧ s'.now = s.now := by
  induction n generalizing s with
  | zero => exact ⟨s, rfl, rfl, rfl, rfl⟩
  | succ n ih =>
      have hstep : machine.step s (.iterate .swapRecv noWrites) =
          some { s with closings := s.closings + 1, iterations := s.iterations + 1 } := by
        change s.iterate .swapRecv noWrites = _
        simp only [iterate, hphase, poll, hclosed, Bridge.relayStep, if_true, Option.bind_some,
          Option.map_some]
      obtain ⟨s', hexec, hiterations, hconsumed, hnow⟩ :=
        ih (s := { s with closings := s.closings + 1, iterations := s.iterations + 1 })
          hphase hclosed
      refine ⟨s', ?_, ?_, hconsumed, hnow⟩
      · rw [List.replicate_succ, Machine.exec, hstep]
        exact hexec
      · dsimp only at hiterations
        omega

end Iterations

end RelayLoop

end War3BattleTool.Client
