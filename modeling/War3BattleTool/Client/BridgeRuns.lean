import Mathlib.Data.List.TakeWhile
import War3BattleTool.Client.SwapStream

set_option autoImplicit false

/-!
# The runs of one bridge

A `BridgeRun` is one call of `bridge_tcp_ws_with_swap` with a record of what its bridge
has read from each of its three connections and written to it.  What arrives is
arbitrary: any branch of the current loop may resolve next, at any time, with any
content.

* `BridgeRun.InOrder`: nothing is reordered or duplicated across the swap, in any run
  whose writes succeed.
* `BridgeRun.Lossless`: whatever arrived for the drain reaches TCP.  It does if and only
  if the drain `RunsDry`.
-/

namespace War3BattleTool.Client

open War3BattleTool.Foundation

namespace Event

/-- The bytes of the stream that a branch took from the WebSocket. -/
def wsBytes : Event → Bytes
  | .wsNext (.message (.binary data)) => data
  | _ => []

/-- What a branch read from the QUIC stream. -/
def quicBytes : Event → Bytes
  | .quicRead (.data bytes) => bytes
  | _ => []

end Event

/-- Every write succeeds. -/
def Writes.allSucceed (writes : Writes) : Bool := writes.ws && writes.tcp && writes.quic

/-- An event, when it resolves, and how the writes of its handler end. -/
structure Occurrence where
  now : Instant
  writes : Writes
  event : Event

/-- One call of `bridge_tcp_ws_with_swap`: the bridge, and the bytes it has read from and
written to each connection so far.  Of the WebSocket these are the payloads of the binary
messages. -/
structure BridgeRun where
  bridge : Bridge
  tcpIn : Bytes
  wsIn : Bytes
  quicIn : Bytes
  tcpOut : Bytes
  wsOut : Bytes
  quicOut : Bytes

namespace BridgeRun

/-- The session of a bridge that has read and written nothing. -/
def fresh (bridge : Bridge) : BridgeRun where
  bridge := bridge
  tcpIn := []
  wsIn := []
  quicIn := []
  tcpOut := []
  wsOut := []
  quicOut := []

/-- One iteration of the loop of the current phase. -/
def step (s : BridgeRun) (o : Occurrence) : Option BridgeRun :=
  (s.bridge.step o.now o.writes o.event).map fun next =>
    { bridge := next.1
      tcpIn := s.tcpIn ++ o.event.tcpBytes
      wsIn := s.wsIn ++ o.event.wsBytes
      quicIn := s.quicIn ++ o.event.quicBytes
      tcpOut := s.tcpOut ++ next.2.tcp
      wsOut := s.wsOut ++ (binaryPayloads next.2.ws).flatten
      quicOut := s.quicOut ++ next.2.quic }

/-- The sessions of a bridge that starts at `now`. -/
def machine (now : Instant) : Machine BridgeRun Occurrence where
  init := fresh (.start now)
  step := step

/-- No write fails. -/
def unfailing (_ : BridgeRun) (o : Occurrence) : Prop := o.writes.allSucceed = true

instance (s : BridgeRun) (o : Occurrence) : Decidable (unfailing s o) :=
  inferInstanceAs (Decidable (o.writes.allSucceed = true))

/-! ## Order across the swap -/

/-- What one bridge does to the two streams through it. -/
structure InOrder (s : BridgeRun) : Prop where
  /-- what went out is what came in, but for what the drain still holds -/
  outbound : s.bridge.phase ≠ .returned → s.wsOut ++ s.quicOut ++ s.bridge.phase.held = s.tcpIn
  /-- and what went out stays a part of it to the end -/
  sent : s.wsOut ++ s.quicOut <+: s.tcpIn
  /-- what the WebSocket brought was written first, then what QUIC brought, in order -/
  inbound : ∃ fromQuic, fromQuic <+: s.quicIn ∧ s.tcpOut = s.wsIn ++ fromQuic
  /-- and nothing is missing but what the drain still holds -/
  complete : s.bridge.phase ≠ .returned →
    s.tcpOut ++ s.bridge.phase.buffer = s.wsIn ++ s.quicIn

/-- Where the bytes are, phase by phase. -/
def Carried (s : BridgeRun) : Phase → Prop
  | .relay => s.tcpIn = s.wsOut ∧ s.quicOut = [] ∧ s.tcpOut = s.wsIn ∧ s.quicIn = []
  | .drain quicBuffer tcpOutboundBuffer _ =>
      s.tcpIn = s.wsOut ++ tcpOutboundBuffer ∧ s.quicOut = [] ∧ s.tcpOut = s.wsIn ∧
        s.quicIn = quicBuffer
  | .direct => s.tcpIn = s.wsOut ++ s.quicOut ∧ s.tcpOut = s.wsIn ++ s.quicIn
  | .returned =>
      s.wsOut ++ s.quicOut <+: s.tcpIn ∧
        ∃ fromQuic, fromQuic <+: s.quicIn ∧ s.tcpOut = s.wsIn ++ fromQuic

/-- `Taken s s' event ws tcp quic`: what `event` brought was read, and the bytes `ws`, `tcp`
and `quic` were written. -/
structure Taken (s s' : BridgeRun) (event : Event) (ws tcp quic : Bytes) : Prop where
  tcpIn : s'.tcpIn = s.tcpIn ++ event.tcpBytes
  wsIn : s'.wsIn = s.wsIn ++ event.wsBytes
  quicIn : s'.quicIn = s.quicIn ++ event.quicBytes
  wsOut : s'.wsOut = s.wsOut ++ ws
  tcpOut : s'.tcpOut = s.tcpOut ++ tcp
  quicOut : s'.quicOut = s.quicOut ++ quic

end BridgeRun

/-! ### One iteration -/

namespace Event

/-- The branch brings no byte. -/
structure Silent (event : Event) : Prop where
  tcp : event.tcpBytes = []
  ws : event.wsBytes = []
  quic : event.quicBytes = []

end Event

theorem Event.length_wsBytes (event : Event) : event.wsBytes.length = event.wsCount := by
  rcases event with _ | ((_ | _ | _ | _ | _) | _ | _) | _ | _ | _ | _ | _ <;> rfl

theorem Event.length_quicBytes (event : Event) : event.quicBytes.length = event.quicCount := by
  rcases event with _ | _ | (_ | _ | _) | _ | _ | _ | _ <;> rfl

theorem Event.silent_of_counts {event : Event}
    (h : event.tcpBytes = [] ∧ event.wsCount = 0 ∧ event.quicCount = 0) : event.Silent where
  tcp := h.1
  ws := List.length_eq_zero_iff.mp (event.length_wsBytes.trans h.2.1)
  quic := List.length_eq_zero_iff.mp (event.length_quicBytes.trans h.2.2)

namespace BridgeRun

variable {s s' : BridgeRun} {phase next : Phase} {event : Event} {ws tcp quic : Bytes}

/-- A bridge may return from any phase. -/
theorem Carried.returned (hs : s.Carried phase) : s.Carried .returned := by
  cases phase with
  | relay =>
      obtain ⟨hout, hquicOut, hin, _⟩ := hs
      refine ⟨?_, [], List.nil_prefix, ?_⟩
      · simp [hout, hquicOut]
      · simp [hin]
  | drain quicBuffer tcpOutboundBuffer deadline =>
      obtain ⟨hout, hquicOut, hin, _⟩ := hs
      refine ⟨?_, [], List.nil_prefix, ?_⟩
      · simp [hout, hquicOut]
      · simp [hin]
  | direct =>
      obtain ⟨hout, hin⟩ := hs
      exact ⟨hout ▸ List.prefix_refl _, s.quicIn, List.prefix_refl _, hin⟩
  | returned => exact hs

/-- What brings nothing and writes nothing keeps every byte where it is. -/
theorem Carried.silent (hs : s.Carried phase) (ht : s.Taken s' event [] [] [])
    (hsilent : event.Silent) : s'.Carried phase := by
  obtain ⟨htcp, hws, hquic⟩ := hsilent
  obtain ⟨htcpIn, hwsIn, hquicIn, hwsOut, htcpOut, hquicOut⟩ := ht
  simp only [htcp, hws, hquic, List.append_nil] at htcpIn hwsIn hquicIn hwsOut htcpOut hquicOut
  cases phase <;>
    simpa [Carried, htcpIn, hwsIn, hquicIn, hwsOut, htcpOut, hquicOut] using hs

/-- What an iteration does to the bytes. -/
theorem Carried.turn (hs : s.Carried phase) (h : Turn phase event next ws tcp quic)
    (ht : s.Taken s' event ws tcp quic) : s'.Carried next := by
  have htaken := ht
  obtain ⟨htcpIn, hwsIn, hquicIn, hwsOut, htcpOut, hquicOut⟩ := ht
  cases h with
  | relayRead bytes =>
      obtain ⟨hout, hquic, hin, hbuffer⟩ := hs
      simp [Carried, *, Event.tcpBytes, Event.wsBytes, Event.quicBytes]
  | relayMessage data =>
      obtain ⟨hout, hquic, hin, hbuffer⟩ := hs
      simp [Carried, *, Event.tcpBytes, Event.wsBytes, Event.quicBytes]
  | swap deadline =>
      obtain ⟨hout, hquic, hin, hbuffer⟩ := hs
      simp [Carried, *, Event.tcpBytes, Event.wsBytes, Event.quicBytes]
  | drainMessage held buffer data deadline =>
      obtain ⟨hout, hquic, hin, hbuffer⟩ := hs
      simp [Carried, *, Event.tcpBytes, Event.wsBytes, Event.quicBytes]
  | drainQuic held buffer bytes deadline =>
      obtain ⟨hout, hquic, hin, hbuffer⟩ := hs
      simp [Carried, *, Event.tcpBytes, Event.wsBytes, Event.quicBytes]
  | drainRead held buffer bytes deadline =>
      obtain ⟨hout, hquic, hin, hbuffer⟩ := hs
      simp [Carried, *, Event.tcpBytes, Event.wsBytes, Event.quicBytes]
  | leaveDrain hleaves =>
      obtain ⟨hout, hquic, hin, hbuffer⟩ := hs
      obtain ⟨_, _, hsilent⟩ := senderMove_leave hleaves
      obtain ⟨htcp, hws, hquicNone⟩ := Event.silent_of_counts hsilent
      simp [Carried, *]
  | directRead bytes =>
      obtain ⟨hout, hin⟩ := hs
      simp [Carried, *, Event.tcpBytes, Event.wsBytes, Event.quicBytes]
  | directQuic bytes =>
      obtain ⟨hout, hin⟩ := hs
      simp [Carried, *, Event.tcpBytes, Event.wsBytes, Event.quicBytes]
  | stop hreturns =>
      obtain ⟨_, _, hsilent⟩ := senderMove_stop hreturns
      exact (hs.silent htaken (Event.silent_of_counts hsilent)).returned
  | control hcontrol =>
      obtain ⟨_, _, hsilent⟩ := senderMove_control hcontrol
      exact hs.silent htaken (Event.silent_of_counts hsilent)

/-- One iteration, all writes succeeding. -/
theorem Carried.step {o : Occurrence} (hs : s.Carried s.bridge.phase)
    (hwrites : o.writes.allSucceed = true) (h : s.step o = some s') :
    s'.Carried s'.bridge.phase := by
  obtain ⟨now, ⟨_ | _, _ | _, _ | _⟩, event⟩ := o <;> cases hwrites
  obtain ⟨⟨b', effects⟩, hstep, rfl⟩ := Option.map_eq_some_iff.mp h
  exact hs.turn (turn_of_step hstep) ⟨rfl, rfl, rfl, rfl, rfl, rfl⟩

/-- Where the bytes are, in every run whose writes succeed. -/
theorem carried_of_reachable {now : Instant}
    (h : ((machine now).restrict unfailing).Reachable s) : s.Carried s.bridge.phase := by
  have hinit : (fresh (.start now)).Carried .relay := ⟨rfl, rfl, rfl, rfl⟩
  refine Machine.Reachable.invariant (I := fun s => s.Carried s.bridge.phase) hinit ?_ h
  intro s o s' _ hs hstep
  obtain ⟨hwrites, hstep⟩ := Machine.restrict_step.mp hstep
  exact hs.step hwrites hstep

/-- What the record of the bytes says about the two streams. -/
theorem Carried.inOrder (hs : s.Carried s.bridge.phase) : s.InOrder where
  outbound := by
    generalize s.bridge.phase = phase at hs ⊢
    cases phase <;> simp_all [Carried, Phase.held]
  sent := hs.returned.1
  inbound := hs.returned.2
  complete := by
    generalize s.bridge.phase = phase at hs ⊢
    cases phase <;> simp_all [Carried, Phase.buffer]

/-- No bridge reorders or duplicates bytes across the swap. -/
theorem inOrder_of_reachable {now : Instant}
    (h : ((machine now).restrict unfailing).Reachable s) : s.InOrder :=
  (carried_of_reachable h).inOrder

/-- A session that swaps while both peers send. -/
theorem inOrder_of_swap :
    ∃ s : BridgeRun,
      ((machine 0).restrict unfailing).Reachable s ∧ s.bridge.phase = .direct ∧
        s.tcpOut = [1, 2, 3] ∧ s.InOrder := by
  let all : Writes := ⟨true, true, true⟩
  let run : List Occurrence :=
    [⟨0, all, .wsNext (.message (.binary [1]))⟩, ⟨0, all, .tcpRead (.data [7])⟩,
      ⟨1, all, .swapReady⟩, ⟨1, all, .quicRead (.data [3])⟩, ⟨1, all, .tcpRead (.data [8])⟩,
      ⟨1, all, .wsNext (.message (.binary [2]))⟩, ⟨secs 1, all, .drainTimeout⟩]
  have hrun : (((machine 0).restrict unfailing).exec (fresh (.start 0)) run).any
      (fun s => s.bridge.phase = .direct && s.tcpOut = [1, 2, 3]) = true := by decide
  obtain ⟨s, _, hreach, htest⟩ :=
    Machine.exists_reachable_of_exec (M := (machine 0).restrict unfailing) hrun
  obtain ⟨hphase, hout⟩ := Bool.and_eq_true_iff.mp htest
  exact ⟨s, hreach, of_decide_eq_true hphase, of_decide_eq_true hout,
    inOrder_of_reachable hreach⟩

end BridgeRun

/-! ## What the drain loses -/

namespace Occurrence

/-- The WebSocket is closed or fails, or the deadline of the drain has passed. -/
def closes (deadline : Instant) (o : Occurrence) : Bool :=
  match o.event with
  | .wsNext (.message .close) | .wsNext .ended | .wsNext .error => true
  | .drainTimeout => deadline ≤ o.now
  | _ => false

/-- The QUIC stream ends or fails. -/
def quicEnds (o : Occurrence) : Bool :=
  match o.event with
  | .quicRead .ended | .quicRead .error => true
  | _ => false

/-- The drain ends: also with a control message, and with the end of either stream. -/
def ends (deadline : Instant) (o : Occurrence) : Bool :=
  match o.event with
  | .wsNext (.message (.binary _)) | .quicRead (.data _) | .tcpRead (.data _) => false
  | .wsNext _ | .quicRead _ | .tcpRead _ => true
  | .drainTimeout => deadline ≤ o.now
  | .swapReady | .swapClosed | .pingTick => false

end Occurrence

namespace BridgeRun

/-- The session of a bridge that begins to drain. -/
def draining (bridge : Bridge) (deadline : Instant) : BridgeRun :=
  fresh { bridge with phase := .drain [] [] deadline }

/-- The session after `o`.  What no branch of the current loop waits for is not read. -/
def hear (s : BridgeRun) (o : Occurrence) : BridgeRun := (s.step o).getD s

/-- The payloads that arrive before the WebSocket is closed and before the deadline. -/
def owed (deadline : Instant) : List Occurrence → Bytes
  | [] => []
  | o :: os => if o.closes deadline then [] else o.event.wsBytes ++ owed deadline os

/-- What the QUIC stream brings. -/
def quicOf (os : List Occurrence) : Bytes := os.flatMap fun o => o.event.quicBytes

/-- What happens during the drain. -/
def duringDrain (deadline : Instant) (os : List Occurrence) : List Occurrence :=
  os.takeWhile fun o => !o.ends deadline

/-- What happens from the event on that ends the drain. -/
def afterDrain (deadline : Instant) (os : List Occurrence) : List Occurrence :=
  os.dropWhile fun o => !o.ends deadline

/-- The session of a bridge that begins to drain, after `os`. -/
def drained (bridge : Bridge) (deadline : Instant) (os : List Occurrence) : BridgeRun :=
  os.foldl hear (draining bridge deadline)

/-- Nothing that arrived for the drain is lost: what was written to TCP, and what the drain
still holds, are the payloads that arrived on the WebSocket before it was closed and before
the deadline, and the bytes read from the QUIC stream. -/
def Lossless (bridge : Bridge) (deadline : Instant) (os : List Occurrence) : Prop :=
  (drained bridge deadline os).tcpOut ++ (drained bridge deadline os).bridge.phase.buffer =
    owed deadline os ++ (drained bridge deadline os).quicIn

instance (bridge : Bridge) (deadline : Instant) (os : List Occurrence) :
    Decidable (Lossless bridge deadline os) :=
  inferInstanceAs (Decidable (_ = _))

/-- The drain ends when nothing more can arrive for it. -/
structure RunsDry (deadline : Instant) (os : List Occurrence) : Prop where
  /-- after its end no payload arrives before the close or the deadline -/
  messages : owed deadline (afterDrain deadline os) = []
  /-- and if the QUIC stream ended it, that had brought nothing -/
  buffered : ∀ o, (afterDrain deadline os).head? = some o → o.quicEnds = true →
    quicOf (duringDrain deadline os) = []

/-! ### The drain, its end, and what follows -/

/-- A session in the drain: `arrived` came from the WebSocket, `brought` from QUIC. -/
structure InDrain (deadline : Instant) (s : BridgeRun) (arrived brought : Bytes) : Prop where
  phase : ∃ tcpOutboundBuffer, s.bridge.phase = .drain brought tcpOutboundBuffer deadline
  tcpOut : s.tcpOut = arrived
  quicIn : s.quicIn = brought

/-- A session that has left the drain. -/
structure PastDrain (s : BridgeRun) (tcpOut quicIn : Bytes) : Prop where
  phase : s.bridge.phase = .direct ∨ s.bridge.phase = .returned
  tcpOut : s.tcpOut = tcpOut
  quicIn : s.quicIn = quicIn

variable {s : BridgeRun} {o : Occurrence} {os : List Occurrence} {deadline : Instant}
variable {arrived brought : Bytes}

theorem hear_of_step {b' : Bridge} {effects : Effects}
    (h : s.bridge.step o.now o.writes o.event = some (b', effects)) :
    (s.hear o).bridge = b' ∧ (s.hear o).tcpOut = s.tcpOut ++ effects.tcp ∧
      (s.hear o).quicIn = s.quicIn ++ o.event.quicBytes := by
  simp [hear, step, h]

theorem hear_of_none (h : s.bridge.step o.now o.writes o.event = none) : s.hear o = s := by
  simp [hear, step, h]

theorem step_drain {held : Bytes} (hphase : s.bridge.phase = .drain brought held deadline) :
    s.bridge.step o.now o.writes o.event =
      s.bridge.drainStep o.now o.writes brought held deadline o.event := by
  simp only [Bridge.step, hphase]

theorem InDrain.hear (hs : InDrain deadline s arrived brought) (htcp : o.writes.tcp = true)
    (hends : o.ends deadline = false) :
    InDrain deadline (s.hear o) (arrived ++ o.event.wsBytes)
      (brought ++ o.event.quicBytes) := by
  obtain ⟨⟨held, hphase⟩, rfl, rfl⟩ := hs
  have hstep := step_drain (o := o) hphase
  have hunread (hnone : s.bridge.step o.now o.writes o.event = none)
      (hws : o.event.wsBytes = []) (hquic : o.event.quicBytes = []) :
      InDrain deadline (s.hear o) (s.tcpOut ++ o.event.wsBytes)
        (s.quicIn ++ o.event.quicBytes) := by
    rw [hear_of_none hnone, hws, hquic, List.append_nil, List.append_nil]
    exact ⟨⟨held, hphase⟩, rfl, rfl⟩
  obtain ⟨now, writes, event⟩ := o
  cases event with
  | wsNext item =>
      cases item with
      | message m =>
          cases m with
          | binary data =>
              obtain ⟨hbridge, htcpOut, hquicIn⟩ := hear_of_step (hstep.trans (if_pos htcp))
              refine ⟨⟨held, ?_⟩, htcpOut, hquicIn⟩
              simpa [hbridge, Event.quicBytes] using hphase
          | _ => cases hends
      | ended => cases hends
      | error => cases hends
  | quicRead chunk =>
      cases chunk with
      | data bytes =>
          obtain ⟨hbridge, htcpOut, hquicIn⟩ := hear_of_step hstep
          refine ⟨⟨held, ?_⟩, htcpOut, hquicIn⟩
          rw [hbridge]
          rfl
      | ended => cases hends
      | error => cases hends
  | tcpRead chunk =>
      cases chunk with
      | data bytes =>
          obtain ⟨hbridge, htcpOut, hquicIn⟩ := hear_of_step hstep
          refine ⟨⟨held ++ bytes, ?_⟩, htcpOut, hquicIn⟩
          rw [hbridge]
          simp [Event.quicBytes]
      | ended => cases hends
      | error => cases hends
  | drainTimeout =>
      have hearly : ¬ deadline ≤ now := of_decide_eq_false hends
      exact hunread (hstep.trans (if_neg hearly)) rfl rfl
  | swapReady => exact hunread hstep rfl rfl
  | swapClosed => exact hunread hstep rfl rfl
  | pingTick => exact hunread hstep rfl rfl

theorem leaveDrain_tcp {b : Bridge} {writes : Writes} {quicBuffer held : Bytes}
    (htcp : writes.tcp = true) :
    ∃ b' effects, b.leaveDrain writes quicBuffer held = (b', effects) ∧
      (b'.phase = .direct ∨ b'.phase = .returned) ∧ effects.tcp = quicBuffer := by
  unfold Bridge.leaveDrain
  split
  · next hfailed => exact absurd (htcp.symm.trans hfailed.2) (by decide)
  · split
    · exact ⟨_, _, rfl, .inr rfl, rfl⟩
    · exact ⟨_, _, rfl, .inl rfl, rfl⟩

/-- The drain flushes what it holds, unless the QUIC stream has ended it. -/
theorem InDrain.leave (hs : InDrain deadline s arrived brought) (htcp : o.writes.tcp = true)
    (hends : o.ends deadline = true) :
    PastDrain (s.hear o) (arrived ++ if o.quicEnds then [] else brought) brought := by
  obtain ⟨⟨held, hphase⟩, rfl, rfl⟩ := hs
  have hstep := step_drain (o := o) hphase
  have hleave
      (hleaves : s.bridge.drainStep o.now o.writes s.quicIn held deadline o.event =
        some (s.bridge.leaveDrain o.writes s.quicIn held))
      (hquic : o.quicEnds = false) (hnone : o.event.quicBytes = []) :
      PastDrain (s.hear o) (s.tcpOut ++ if o.quicEnds then [] else s.quicIn) s.quicIn := by
    obtain ⟨b', effects, heq, hphase', hflushed⟩ := leaveDrain_tcp (b := s.bridge) htcp
    obtain ⟨hbridge, htcpOut, hquicIn⟩ := hear_of_step ((hstep.trans hleaves).trans (by rw [heq]))
    refine ⟨hbridge ▸ hphase', ?_, ?_⟩
    · rw [htcpOut, hflushed, hquic]
      rfl
    · rw [hquicIn, hnone, List.append_nil]
  obtain ⟨now, writes, event⟩ := o
  cases event with
  | wsNext item =>
      cases item with
      | message m =>
          cases m with
          | binary data => cases hends
          | _ => exact hleave rfl rfl rfl
      | ended => exact hleave rfl rfl rfl
      | error => exact hleave rfl rfl rfl
  | quicRead chunk =>
      cases chunk with
      | data bytes => cases hends
      | ended =>
          obtain ⟨hbridge, htcpOut, hquicIn⟩ := hear_of_step hstep
          exact ⟨.inr (by rw [hbridge]; rfl), htcpOut, hquicIn.trans (List.append_nil _)⟩
      | error =>
          obtain ⟨hbridge, htcpOut, hquicIn⟩ := hear_of_step hstep
          exact ⟨.inr (by rw [hbridge]; rfl), htcpOut, hquicIn.trans (List.append_nil _)⟩
  | tcpRead chunk =>
      cases chunk with
      | data bytes => cases hends
      | ended => exact hleave rfl rfl rfl
      | error => exact hleave rfl rfl rfl
  | drainTimeout =>
      have hdue : deadline ≤ now := of_decide_eq_true hends
      exact hleave (if_pos hdue) rfl rfl
  | swapReady => cases hends
  | swapClosed => cases hends
  | pingTick => cases hends

/-- Past the drain, what the QUIC stream brings is written at once. -/
theorem PastDrain.hear {tcpOut quicIn : Bytes} (hs : PastDrain s tcpOut quicIn)
    (htcp : o.writes.tcp = true) :
    ∃ more, PastDrain (s.hear o) (tcpOut ++ more) (quicIn ++ more) := by
  obtain ⟨hphase, rfl, rfl⟩ := hs
  have hunread (hnone : s.bridge.step o.now o.writes o.event = none) :
      ∃ more, PastDrain (s.hear o) (s.tcpOut ++ more) (s.quicIn ++ more) := by
    refine ⟨[], ?_⟩
    rw [hear_of_none hnone, List.append_nil, List.append_nil]
    exact ⟨hphase, rfl, rfl⟩
  rcases hphase with hphase | hphase
  · have hstep : s.bridge.step o.now o.writes o.event =
        s.bridge.directStep o.writes o.event := by
      simp only [Bridge.step, hphase]
    have hread {b' : Bridge} {effects : Effects}
        (hsome : s.bridge.directStep o.writes o.event = some (b', effects))
        (hphase' : b'.phase = .direct ∨ b'.phase = .returned)
        (heq : effects.tcp = o.event.quicBytes) :
        ∃ more, PastDrain (s.hear o) (s.tcpOut ++ more) (s.quicIn ++ more) := by
      obtain ⟨hbridge, htcpOut, hquicIn⟩ := hear_of_step (hstep.trans hsome)
      exact ⟨o.event.quicBytes, hbridge ▸ hphase', heq ▸ htcpOut, hquicIn⟩
    obtain ⟨now, writes, event⟩ := o
    cases event with
    | tcpRead chunk =>
        cases chunk with
        | data bytes =>
            by_cases hquic : writes.quic = true
            · exact hread (if_pos hquic) (.inl hphase) rfl
            · exact hread (if_neg hquic) (.inr rfl) rfl
        | ended => exact hread rfl (.inr rfl) rfl
        | error => exact hread rfl (.inr rfl) rfl
    | quicRead chunk =>
        cases chunk with
        | data bytes => exact hread (if_pos htcp) (.inl hphase) rfl
        | ended => exact hread rfl (.inr rfl) rfl
        | error => exact hread rfl (.inr rfl) rfl
    | _ => exact hunread hstep
  · exact hunread (by simp only [Bridge.step, hphase])

/-! ### Whole drains -/

theorem ends_of_closes (hcloses : o.closes deadline = true) : o.ends deadline = true := by
  obtain ⟨now, writes, event⟩ := o
  cases event with
  | wsNext item =>
      cases item with
      | message m =>
          cases m with
          | close => rfl
          | _ => cases hcloses
      | ended => rfl
      | error => rfl
  | drainTimeout => exact hcloses
  | _ => cases hcloses

/-- What the drain reads is what is owed of it. -/
theorem owed_append {during : List Occurrence}
    (hends : ∀ o ∈ during, o.ends deadline = false) :
    owed deadline (during ++ os) = owed deadline during ++ owed deadline os := by
  induction during with
  | nil => rfl
  | cons o during ih =>
      have hcloses : o.closes deadline = false := by
        by_contra hcloses
        have := ends_of_closes (Bool.eq_true_of_not_eq_false hcloses)
        simp [hends o List.mem_cons_self] at this
      simp [owed, hcloses, ih fun x hx => hends x (List.mem_cons_of_mem o hx)]

theorem InDrain.foldl (hs : InDrain deadline s arrived brought)
    (htcp : ∀ o ∈ os, o.writes.tcp = true) (hends : ∀ o ∈ os, o.ends deadline = false) :
    InDrain deadline (os.foldl BridgeRun.hear s) (arrived ++ owed deadline os)
      (brought ++ quicOf os) := by
  induction os generalizing s arrived brought with
  | nil => simpa [owed, quicOf] using hs
  | cons o os ih =>
      have hfirst : owed deadline (o :: os) = o.event.wsBytes ++ owed deadline os := by
        by_cases hcloses : o.closes deadline = true
        · have := ends_of_closes hcloses
          simp [hends o List.mem_cons_self] at this
        · simp [owed, hcloses]
      have hnext := hs.hear (htcp o List.mem_cons_self) (hends o List.mem_cons_self)
      have hrest := ih hnext (fun x hx => htcp x (List.mem_cons_of_mem o hx))
        fun x hx => hends x (List.mem_cons_of_mem o hx)
      simpa [hfirst, quicOf, List.append_assoc] using hrest

theorem PastDrain.foldl {tcpOut quicIn : Bytes} (hs : PastDrain s tcpOut quicIn)
    (htcp : ∀ o ∈ os, o.writes.tcp = true) :
    ∃ more, PastDrain (os.foldl BridgeRun.hear s) (tcpOut ++ more) (quicIn ++ more) := by
  induction os generalizing s tcpOut quicIn with
  | nil => exact ⟨[], by simpa using hs⟩
  | cons o os ih =>
      obtain ⟨more, hnext⟩ := hs.hear (htcp o List.mem_cons_self)
      obtain ⟨rest, hrest⟩ := ih hnext fun x hx => htcp x (List.mem_cons_of_mem o hx)
      exact ⟨more ++ rest, by simpa [List.append_assoc] using hrest⟩

theorem not_ends_of_during (hmem : o ∈ duringDrain deadline os) :
    o.ends deadline = false := by
  simpa using List.mem_takeWhile_imp hmem

theorem during_append_after (deadline : Instant) (os : List Occurrence) :
    duringDrain deadline os ++ afterDrain deadline os = os :=
  List.takeWhile_append_dropWhile

theorem ends_of_head (hhead : (afterDrain deadline os).head? = some o) :
    o.ends deadline = true := by
  have h := List.head?_dropWhile_not (fun o => !o.ends deadline) os
  change (os.dropWhile fun o => !o.ends deadline).head? = some o at hhead
  rw [hhead] at h
  simpa using h

/-- What is missing at the end is what arrived after the end of the drain, and what the
drain dropped. -/
theorem lossless_bytes_iff {arrived missed brought more : Bytes} (dropped : Bool) :
    (arrived ++ if dropped then [] else brought) ++ more =
        (arrived ++ missed) ++ (brought ++ more) ↔
      missed = [] ∧ (dropped = true → brought = []) := by
  rw [← List.append_assoc, List.append_left_inj, List.append_assoc, List.append_right_inj]
  cases dropped with
  | true => simp [eq_comm]
  | false => simp

/-- The drain of one bridge loses nothing it has received if and only if it runs dry. -/
theorem lossless_iff_runsDry (bridge : Bridge) (deadline : Instant) (os : List Occurrence)
    (htcp : ∀ o ∈ os, o.writes.tcp = true) :
    Lossless bridge deadline os ↔ RunsDry deadline os := by
  have hsplit := during_append_after deadline os
  have hduring (o : Occurrence) (hmem : o ∈ duringDrain deadline os) :
      o.writes.tcp = true := htcp o (hsplit ▸ List.mem_append_left _ hmem)
  have hstart : InDrain deadline (draining bridge deadline) [] [] :=
    ⟨⟨[], rfl⟩, rfl, rfl⟩
  have hdrain := hstart.foldl hduring fun o hmem => not_ends_of_during hmem
  have howed : owed deadline os =
      owed deadline (duringDrain deadline os) ++ owed deadline (afterDrain deadline os) := by
    conv_lhs => rw [← hsplit]
    exact owed_append fun o hmem => not_ends_of_during hmem
  have hrun : drained bridge deadline os =
      (afterDrain deadline os).foldl BridgeRun.hear
        ((duringDrain deadline os).foldl BridgeRun.hear (draining bridge deadline)) := by
    rw [drained, ← List.foldl_append, hsplit]
  unfold Lossless
  cases hafter : afterDrain deadline os with
  | nil =>
      obtain ⟨⟨held, hphase⟩, htcpOut, hquicIn⟩ := hdrain
      rw [hafter, List.foldl_nil] at hrun
      refine iff_of_true ?_ ⟨?_, ?_⟩
      · rw [hrun, howed, hafter, htcpOut, hquicIn, hphase]
        simp [Phase.buffer, owed]
      · simp [hafter, owed]
      · simp [hafter]
  | cons o rest =>
      -- the bytes not written are known at the event that ends the drain
      have hmem (x : Occurrence) (hx : x ∈ o :: rest) : x.writes.tcp = true :=
        htcp x (hsplit ▸ List.mem_append_right _ (hafter ▸ hx))
      have hends : o.ends deadline = true := ends_of_head (by rw [hafter]; rfl)
      have hleft := hdrain.leave (hmem o List.mem_cons_self) hends
      obtain ⟨more, hpast⟩ := hleft.foldl fun x hx => hmem x (List.mem_cons_of_mem o hx)
      rw [hafter, List.foldl_cons] at hrun
      rw [← hrun] at hpast
      obtain ⟨hphase, htcpOut, hquicIn⟩ := hpast
      have hbuffer : (drained bridge deadline os).bridge.phase.buffer = [] := by
        rcases hphase with hphase | hphase <;> rw [hphase] <;> rfl
      rw [hbuffer, htcpOut, hquicIn, howed, hafter]
      simp only [List.nil_append, List.append_nil]
      rw [lossless_bytes_iff]
      constructor
      · rintro ⟨hmissed, hdropped⟩
        refine ⟨hafter ▸ hmissed, fun x hhead hquic => ?_⟩
        obtain rfl : o = x := by simpa [hafter] using hhead
        exact hdropped hquic
      · rintro ⟨hmissed, hdropped⟩
        exact ⟨hafter ▸ hmissed, hdropped o (by rw [hafter]; rfl)⟩

/-- A drain that the deadline ends, with bytes from all three connections. -/
theorem lossless_of_deadline :
    Lossless (.start 0) 5
      [⟨0, ⟨true, true, true⟩, .quicRead (.data [3])⟩,
        ⟨1, ⟨true, true, true⟩, .wsNext (.message (.binary [1]))⟩,
        ⟨2, ⟨true, true, true⟩, .tcpRead (.data [7])⟩,
        ⟨5, ⟨true, true, false⟩, .drainTimeout⟩] := by
  refine (lossless_iff_runsDry (.start 0) 5 _ ?_).mpr ⟨rfl, ?_⟩
  · simp
  · intro o hhead hquic
    cases hhead
    cases hquic

/-- A ping from the server ends the drain, and so does the end of the QUIC stream: the
message that follows and the bytes that were buffered are lost. -/
theorem not_lossless :
    ¬ Lossless (.start 0) 5
        [⟨0, ⟨true, true, true⟩, .wsNext (.message (.ping []))⟩,
          ⟨1, ⟨true, true, true⟩, .wsNext (.message (.binary [1]))⟩] ∧
      ¬ Lossless (.start 0) 5
        [⟨0, ⟨true, true, true⟩, .quicRead (.data [3])⟩,
          ⟨1, ⟨true, true, true⟩, .quicRead .ended⟩] := by
  constructor
  · decide
  · decide

end BridgeRun

end War3BattleTool.Client
