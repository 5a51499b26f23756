import War3BattleTool.Client.Bridge
import War3BattleTool.Client.SwapHandshake
import War3BattleTool.Foundation.Switchover

set_option autoImplicit false

/-!
# Two bridges and the paths between them

Each end of a tunnel runs a bridge.  What a bridge writes to its WebSocket goes to
the server, which passes binary messages on to the other end and answers pings;
what it writes to its QUIC stream goes to the other end directly.  Both paths are
lossless, in order and of any delay, and no connection fails.

`stream` is what one end sends to the other, seen as a stream that moves from the
WebSocket path to the QUIC stream; `simulates` proves that every run of the bridges
is a run of `Switchover`.
-/

namespace War3BattleTool.Client

open War3BattleTool.Foundation

/-- One end of the tunnel: its bridge, what the bridge has read from its TCP socket and
written to it, the messages on the way to and from the server, and the bytes of its
QUIC stream that the other end has not read. -/
structure End where
  bridge : Bridge
  tcpIn : Bytes
  tcpOut : Bytes
  toServer : List Message
  fromServer : List Message
  quicOut : Bytes

/-- Both ends. -/
structure SwapStream where
  now : Instant
  ends : Side → End

namespace Event

/-- What a branch read from the TCP socket. -/
def tcpBytes : Event → Bytes
  | .tcpRead (.data bytes) => bytes
  | _ => []

/-- How much a branch read from the QUIC stream. -/
def quicCount : Event → Nat
  | .quicRead (.data bytes) => bytes.length
  | _ => 0

/-- How many bytes of the stream a branch took from the WebSocket. -/
def wsCount : Event → Nat
  | .wsNext (.message (.binary data)) => data.length
  | _ => 0

/-- The branch took a message from the WebSocket. -/
def takesMessage : Event → Bool
  | .wsNext (.message _) => true
  | _ => false

end Event

namespace End

/-- An end whose bridge starts at `now`. -/
def start (now : Instant) : End where
  bridge := .start now
  tcpIn := []
  tcpOut := []
  toServer := []
  fromServer := []
  quicOut := []

/-- Whether the connections of an end, whose other end is `peer`, can resolve a branch:
no connection fails. -/
def offers (e peer : End) : Event → Bool
  | .tcpRead (.data bytes) => bytes ≠ [] ∧ bytes.length ≤ relayBufSize
  | .tcpRead .ended => true
  | .tcpRead .error => false
  | .wsNext (.message m) => e.fromServer.head? = some m
  | .wsNext .ended => false
  | .wsNext .error => false
  | .quicRead (.data bytes) =>
      bytes ≠ [] ∧ bytes.length ≤ relayBufSize ∧ bytes <+: peer.quicOut
  | .quicRead .ended => peer.quicOut = [] ∧ peer.bridge.phase = .returned
  | .quicRead .error => false
  | .swapReady | .swapClosed | .pingTick | .drainTimeout => true

/-- One iteration of the bridge of an end. -/
def step (e : End) (now : Instant) (event : Event) : Option End :=
  (e.bridge.step now ⟨true, true, true⟩ event).map fun next =>
    { bridge := next.1
      tcpIn := e.tcpIn ++ event.tcpBytes
      tcpOut := e.tcpOut ++ next.2.tcp
      toServer := e.toServer ++ next.2.ws
      fromServer := if event.takesMessage then e.fromServer.tail else e.fromServer
      quicOut := e.quicOut ++ next.2.quic }

/-- What the other end has read is no longer in flight. -/
def afterRead (e : End) (event : Event) : End :=
  { e with quicOut := e.quicOut.drop event.quicCount }

/-- A message arrives from the server. -/
def receive (e : End) (m : Message) : End := { e with fromServer := e.fromServer ++ [m] }

end End

namespace SwapStream

/-- Both bridges have just started. -/
def start : SwapStream where
  now := 0
  ends := fun _ => .start 0

/-- What can happen next. -/
inductive Label where
  /-- time passes -/
  | elapse (d : Duration)
  /-- an iteration of the bridge of `side` -/
  | bridge (side : Side) (event : Event)
  /-- the server takes the next message of `side` -/
  | relay (side : Side)
  /-- the server learns that `side` has closed its WebSocket -/
  | hangUp (side : Side)
  deriving DecidableEq

/-- Change both ends. -/
def setEnds (s : SwapStream) (side : Side) (e peer : End) : SwapStream :=
  { s with ends := fun side' => if side' = side then e else peer }

/-- One step of the two bridges and the server between them. -/
def step (s : SwapStream) : Label → Option SwapStream
  | .elapse d => some { s with now := s.now + d }
  | .bridge side event =>
      let e := s.ends side
      let peer := s.ends side.other
      if e.offers peer event then
        (e.step s.now event).map fun next => s.setEnds side next (peer.afterRead event)
      else none
  | .relay side =>
      let e := s.ends side
      let peer := s.ends side.other
      match e.toServer with
      | [] => none
      | m :: rest =>
          let taken := { e with toServer := rest }
          match m with
          | .binary data => some (s.setEnds side taken (peer.receive (.binary data)))
          | .close => some (s.setEnds side taken (peer.receive .close))
          | .ping data => some (s.setEnds side (taken.receive (.pong data)) peer)
          | .text _ | .pong _ => some (s.setEnds side taken peer)
  | .hangUp side =>
      let e := s.ends side
      let peer := s.ends side.other
      if e.bridge.phase = .returned ∧ e.toServer = [] then
        some (s.setEnds side e (peer.receive .close))
      else none

/-- The two bridges as a machine. -/
def machine : Machine SwapStream Label where
  init := start
  step := step

end SwapStream

/-! ## The stream towards one end -/

namespace Phase

/-- A branch ends the drain. -/
def leavesDrain : Phase → Event → Bool
  | .drain .., .wsNext (.message (.binary _)) => false
  | .drain .., .wsNext _ => true
  | .drain .., .tcpRead .ended => true
  | .drain .., .tcpRead .error => true
  | .drain .., .drainTimeout => true
  | _, _ => false

/-- A branch makes the bridge return, all writes succeeding. -/
def returns : Phase → Event → Bool
  | .relay, .tcpRead .ended => true
  | .relay, .tcpRead .error => true
  | .relay, .wsNext (.message .close) => true
  | .relay, .wsNext .ended => true
  | .relay, .wsNext .error => true
  | .drain .., .quicRead .ended => true
  | .drain .., .quicRead .error => true
  | .direct, .tcpRead .ended => true
  | .direct, .tcpRead .error => true
  | .direct, .quicRead .ended => true
  | .direct, .quicRead .error => true
  | _, _ => false

/-- The sender of a stream, by the phase of its bridge. -/
def sender : Phase → Sender
  | .relay => .old
  | .drain .. => .holding
  | .direct => .new
  | .returned => .stopped

/-- The receiver of a stream, by the phase of its bridge. -/
def receiver : Phase → Receiver
  | .relay => .old
  | .drain .. => .old
  | .direct => .new
  | .returned => .stopped

/-- What the bridge holds for its QUIC stream. -/
def held : Phase → Bytes
  | .drain _ tcpOutboundBuffer _ => tcpOutboundBuffer
  | _ => []

/-- What the bridge buffers from the other's QUIC stream. -/
def buffer : Phase → Bytes
  | .drain quicBuffer _ _ => quicBuffer
  | _ => []

/-- The move of the sender that a branch is. -/
def senderMove (phase : Phase) (event : Event) : Switchover.Move UInt8 :=
  match phase, event with
  | .relay, .tcpRead (.data bytes) => .sendOld bytes
  | .drain .., .tcpRead (.data bytes) => .hold bytes
  | .direct, .tcpRead (.data bytes) => .sendNew bytes
  | .relay, .swapReady => .leaveOld
  | _, _ =>
      if phase.leavesDrain event then .flush
      else if phase.returns event then .stopSender
      else .idle

/-- The move of the receiver that a branch is. -/
def receiverMove (phase : Phase) (event : Event) : Switchover.Move UInt8 :=
  match phase, event with
  | .relay, .wsNext (.message (.binary data)) => .recvOld data.length
  | .drain .., .wsNext (.message (.binary data)) => .recvOld data.length
  | .drain .., .quicRead (.data bytes) => .bufferNew bytes.length
  | .direct, .quicRead (.data bytes) => .recvNew bytes.length
  | _, _ =>
      if phase.leavesDrain event then .switch
      else if phase.returns event then .stopReceiver
      else .idle

end Phase

/-- The stream from one end to another. -/
def streamBetween (src dst : End) : Switchover UInt8 where
  sender := src.bridge.phase.sender
  receiver := dst.bridge.phase.receiver
  input := src.tcpIn
  held := src.bridge.phase.held
  old := (binaryPayloads (dst.fromServer ++ src.toServer)).flatten
  new := src.quicOut
  buffer := dst.bridge.phase.buffer
  output := dst.tcpOut

/-! ### What an iteration of a bridge can do -/

/-- `Turn phase event next ws tcp quic`: with all writes succeeding, the branch `event`
takes a bridge from `phase` to `next` and writes the bytes `ws`, `tcp` and `quic`. -/
inductive Turn : Phase → Event → Phase → Bytes → Bytes → Bytes → Prop
  | relayRead (bytes : Bytes) : Turn .relay (.tcpRead (.data bytes)) .relay bytes [] []
  | relayMessage (data : Bytes) :
      Turn .relay (.wsNext (.message (.binary data))) .relay [] data []
  | swap (deadline : Instant) : Turn .relay .swapReady (.drain [] [] deadline) [] [] []
  | drainMessage (held buffer data : Bytes) (deadline : Instant) :
      Turn (.drain buffer held deadline) (.wsNext (.message (.binary data)))
        (.drain buffer held deadline) [] data []
  | drainQuic (held buffer bytes : Bytes) (deadline : Instant) :
      Turn (.drain buffer held deadline) (.quicRead (.data bytes))
        (.drain (buffer ++ bytes) held deadline) [] [] []
  | drainRead (held buffer bytes : Bytes) (deadline : Instant) :
      Turn (.drain buffer held deadline) (.tcpRead (.data bytes))
        (.drain buffer (held ++ bytes) deadline) [] [] []
  | leaveDrain {held buffer : Bytes} {deadline : Instant} {event : Event}
      (hleaves : (Phase.drain buffer held deadline).leavesDrain event = true) :
      Turn (.drain buffer held deadline) event .direct [] buffer held
  | directRead (bytes : Bytes) : Turn .direct (.tcpRead (.data bytes)) .direct [] [] bytes
  | directQuic (bytes : Bytes) : Turn .direct (.quicRead (.data bytes)) .direct [] bytes []
  | stop {phase : Phase} {event : Event} (hreturns : phase.returns event = true) :
      Turn phase event .returned [] [] []
  /-- control messages, pings and a closed `swap_rx` -/
  | control {event : Event} (hcontrol : event = .swapClosed ∨ event = .pingTick ∨
      ∃ m, event = .wsNext (.message m) ∧ binaryPayloads [m] = [] ∧ m ≠ .close) :
      Turn .relay event .relay [] [] []

section Turn

variable {b b' : Bridge} {now : Instant} {event : Event} {effects : Effects}

theorem phase_pong (b : Bridge) (now : Instant) : (b.pong now).phase = b.phase := by
  unfold Bridge.pong
  split
  · rfl
  · rfl

theorem leaveDrain_ok (b : Bridge) (quicBuffer tcpOutboundBuffer : Bytes) :
    b.leaveDrain ⟨true, true, true⟩ quicBuffer tcpOutboundBuffer =
      ({ b with phase := .direct, upgraded := true },
        { tcp := quicBuffer, quic := tcpOutboundBuffer }) := by
  simp [Bridge.leaveDrain]

theorem turn_of_relayStep (hphase : b.phase = .relay)
    (h : b.relayStep now ⟨true, true, true⟩ event = some (b', effects)) :
    Turn .relay event b'.phase (binaryPayloads effects.ws).flatten effects.tcp
      effects.quic := by
  cases event with
  | tcpRead chunk =>
      cases chunk with
      | data bytes =>
          cases h
          simpa [hphase, binaryPayloads] using Turn.relayRead bytes
      | ended =>
          cases h
          exact .stop rfl
      | error =>
          cases h
          exact .stop rfl
  | wsNext item =>
      cases item with
      | message m =>
          cases m with
          | binary data =>
              cases h
              simpa [hphase] using Turn.relayMessage data
          | close =>
              cases h
              exact .stop rfl
          | ping data =>
              cases h
              rw [hphase]
              exact .control (.inr (.inr ⟨_, rfl, rfl, nofun⟩))
          | pong data =>
              cases h
              rw [phase_pong, hphase]
              exact .control (.inr (.inr ⟨_, rfl, rfl, nofun⟩))
          | text data =>
              cases h
              rw [hphase]
              exact .control (.inr (.inr ⟨_, rfl, rfl, nofun⟩))
      | error =>
          cases h
          exact .stop rfl
      | ended =>
          cases h
          exact .stop rfl
  | swapReady =>
      cases h
      exact .swap _
  | swapClosed =>
      cases h
      rw [hphase]
      exact .control (.inl rfl)
  | pingTick =>
      simp only [Bridge.relayStep] at h
      split at h
      · split at h
        · cases h
          rw [hphase]
          exact .control (.inr (.inl rfl))
        · cases h
          rw [hphase]
          exact .control (.inr (.inl rfl))
      · cases h
  | quicRead chunk => cases h
  | drainTimeout => cases h

theorem turn_of_drainStep {quicBuffer tcpOutboundBuffer : Bytes} {deadline : Instant}
    (hphase : b.phase = .drain quicBuffer tcpOutboundBuffer deadline)
    (h : b.drainStep now ⟨true, true, true⟩ quicBuffer tcpOutboundBuffer deadline event =
      some (b', effects)) :
    Turn (.drain quicBuffer tcpOutboundBuffer deadline) event b'.phase
      (binaryPayloads effects.ws).flatten effects.tcp effects.quic := by
  have hleave : (Phase.drain quicBuffer tcpOutboundBuffer deadline).leavesDrain event = true →
      some (b.leaveDrain ⟨true, true, true⟩ quicBuffer tcpOutboundBuffer) =
        some (b', effects) →
      Turn (.drain quicBuffer tcpOutboundBuffer deadline) event b'.phase
        (binaryPayloads effects.ws).flatten effects.tcp effects.quic := by
    intro hleaves heq
    rw [leaveDrain_ok] at heq
    cases heq
    exact .leaveDrain hleaves
  cases event with
  | tcpRead chunk =>
      cases chunk with
      | data bytes =>
          cases h
          exact .drainRead ..
      | ended => exact hleave rfl h
      | error => exact hleave rfl h
  | wsNext item =>
      cases item with
      | message m =>
          cases m with
          | binary data =>
              cases h
              rw [hphase]
              exact .drainMessage ..
          | _ => exact hleave rfl h
      | error => exact hleave rfl h
      | ended => exact hleave rfl h
  | quicRead chunk =>
      cases chunk with
      | data bytes =>
          cases h
          exact .drainQuic ..
      | ended =>
          cases h
          exact .stop rfl
      | error =>
          cases h
          exact .stop rfl
  | drainTimeout =>
      simp only [Bridge.drainStep] at h
      split at h
      · exact hleave rfl h
      · cases h
  | swapReady => cases h
  | swapClosed => cases h
  | pingTick => cases h

theorem turn_of_directStep (hphase : b.phase = .direct)
    (h : b.directStep ⟨true, true, true⟩ event = some (b', effects)) :
    Turn .direct event b'.phase (binaryPayloads effects.ws).flatten effects.tcp
      effects.quic := by
  cases event with
  | tcpRead chunk =>
      cases chunk with
      | data bytes =>
          cases h
          rw [hphase]
          exact .directRead bytes
      | ended =>
          cases h
          exact .stop rfl
      | error =>
          cases h
          exact .stop rfl
  | quicRead chunk =>
      cases chunk with
      | data bytes =>
          cases h
          rw [hphase]
          exact .directQuic bytes
      | ended =>
          cases h
          exact .stop rfl
      | error =>
          cases h
          exact .stop rfl
  | _ => cases h

/-- Every iteration of a bridge is one of these. -/
theorem turn_of_step (h : b.step now ⟨true, true, true⟩ event = some (b', effects)) :
    Turn b.phase event b'.phase (binaryPayloads effects.ws).flatten effects.tcp
      effects.quic := by
  unfold Bridge.step at h
  split at h
  · next hphase => exact hphase ▸ turn_of_relayStep hphase h
  · next hphase => exact hphase ▸ turn_of_drainStep hphase h
  · next hphase => exact hphase ▸ turn_of_directStep hphase h
  · cases h

/-! ### An iteration as a move of a stream -/

variable {phase next : Phase} {ws tcp quic : Bytes}

theorem senderMove_leave {held buffer : Bytes} {deadline : Instant}
    (hleaves : (Phase.drain buffer held deadline).leavesDrain event = true) :
    (Phase.drain buffer held deadline).senderMove event = .flush ∧
      (Phase.drain buffer held deadline).receiverMove event = .switch ∧
      event.tcpBytes = [] ∧ event.wsCount = 0 ∧ event.quicCount = 0 := by
  unfold Phase.leavesDrain at hleaves
  split at hleaves <;>
    simp_all [Phase.senderMove, Phase.receiverMove, Phase.leavesDrain, Event.tcpBytes,
      Event.wsCount, Event.quicCount]

theorem senderMove_stop (hreturns : phase.returns event = true) :
    phase.senderMove event = .stopSender ∧ phase.receiverMove event = .stopReceiver ∧
      event.tcpBytes = [] ∧ event.wsCount = 0 ∧ event.quicCount = 0 := by
  unfold Phase.returns at hreturns
  split at hreturns <;>
    simp_all [Phase.senderMove, Phase.receiverMove, Phase.leavesDrain, Phase.returns,
      Event.tcpBytes, Event.wsCount, Event.quicCount]

theorem senderMove_control (hcontrol : event = .swapClosed ∨ event = .pingTick ∨
      ∃ m, event = .wsNext (.message m) ∧ binaryPayloads [m] = [] ∧ m ≠ .close) :
    Phase.relay.senderMove event = .idle ∧ Phase.relay.receiverMove event = .idle ∧
      event.tcpBytes = [] ∧ event.wsCount = 0 ∧ event.quicCount = 0 := by
  obtain rfl | rfl | ⟨m, rfl, hpayload, hclose⟩ := hcontrol
  · exact ⟨rfl, rfl, rfl, rfl, rfl⟩
  · exact ⟨rfl, rfl, rfl, rfl, rfl⟩
  · cases m with
    | binary data => simp [binaryPayloads] at hpayload
    | close => exact absurd rfl hclose
    | _ => exact ⟨rfl, rfl, rfl, rfl, rfl⟩

/-- What an iteration does to the stream that its end sends. -/
theorem Turn.sender (h : Turn phase event next ws tcp quic) {b : Switchover UInt8}
    (hsender : b.sender = phase.sender) (hheld : b.held = phase.held) :
    b.step (phase.senderMove event) =
      some { b with
        sender := next.sender
        held := next.held
        input := b.input ++ event.tcpBytes
        old := b.old ++ ws
        new := b.new ++ quic } := by
  obtain ⟨sender, receiver, input, held, old, new, buffer, output⟩ := b
  obtain rfl : sender = phase.sender := hsender
  obtain rfl : held = phase.held := hheld
  cases h with
  | leaveDrain hleaves =>
      obtain ⟨hmove, _, htcp, _⟩ := senderMove_leave hleaves
      simp [hmove, htcp, Switchover.step, Phase.sender, Phase.held]
  | stop hreturns =>
      obtain ⟨hmove, _, htcp, _⟩ := senderMove_stop hreturns
      simp [hmove, htcp, Switchover.step, Phase.sender, Phase.held]
  | control hcontrol =>
      obtain ⟨hmove, _, htcp, _⟩ := senderMove_control hcontrol
      simp [hmove, htcp, Switchover.step]
  | _ =>
      simp [Phase.senderMove, Switchover.step, Phase.sender, Phase.held, Event.tcpBytes,
        Phase.leavesDrain, Phase.returns]

/-- What an iteration does to the stream that its end receives. -/
theorem Turn.receiver (h : Turn phase event next ws tcp quic) {b : Switchover UInt8}
    (hreceiver : b.receiver = phase.receiver) (hbuffer : b.buffer = phase.buffer)
    (hold : ∀ data, event = .wsNext (.message (.binary data)) → data <+: b.old)
    (hnew : ∀ bytes, event = .quicRead (.data bytes) → bytes <+: b.new) :
    b.step (phase.receiverMove event) =
      some { b with
        receiver := next.receiver
        buffer := next.buffer
        output := b.output ++ tcp
        old := b.old.drop event.wsCount
        new := b.new.drop event.quicCount } := by
  obtain ⟨sender, receiver, input, held, old, new, buffer, output⟩ := b
  obtain rfl : receiver = phase.receiver := hreceiver
  obtain rfl : buffer = phase.buffer := hbuffer
  cases h with
  | leaveDrain hleaves =>
      obtain ⟨_, hmove, _, hws, hquic⟩ := senderMove_leave hleaves
      simp [hmove, hws, hquic, Switchover.step, Phase.receiver, Phase.buffer]
  | stop hreturns =>
      obtain ⟨_, hmove, _, hws, hquic⟩ := senderMove_stop hreturns
      simp [hmove, hws, hquic, Switchover.step, Phase.receiver, Phase.buffer]
  | control hcontrol =>
      obtain ⟨_, hmove, _, hws, hquic⟩ := senderMove_control hcontrol
      simp [hmove, hws, hquic, Switchover.step]
  | relayMessage =>
      obtain ⟨rest, rfl⟩ := hold tcp rfl
      simp [Phase.receiverMove, Switchover.step, Phase.receiver, Phase.buffer, Event.wsCount,
        Event.quicCount]
  | drainMessage =>
      obtain ⟨rest, rfl⟩ := hold tcp rfl
      simp [Phase.receiverMove, Switchover.step, Phase.receiver, Phase.buffer, Event.wsCount,
        Event.quicCount]
  | drainQuic _ _ bytes =>
      obtain ⟨rest, rfl⟩ := hnew bytes rfl
      simp [Phase.receiverMove, Switchover.step, Phase.receiver, Phase.buffer, Event.wsCount,
        Event.quicCount]
  | directQuic =>
      obtain ⟨rest, rfl⟩ := hnew tcp rfl
      simp [Phase.receiverMove, Switchover.step, Phase.receiver, Phase.buffer, Event.wsCount,
        Event.quicCount]
  | _ =>
      simp [Phase.receiverMove, Switchover.step, Phase.receiver, Phase.buffer, Event.wsCount,
        Event.quicCount, Phase.leavesDrain, Phase.returns]

end Turn

section Streams

variable {src dst src' dst' : End} {now : Instant} {event : Event}

/-- An iteration of the bridge that sends the stream. -/
theorem streamBetween_sender (hstep : src.step now event = some src') :
    (streamBetween src dst).step (src.bridge.phase.senderMove event) =
      some (streamBetween src' (dst.afterRead event)) := by
  obtain ⟨⟨b', effects⟩, hbridge, rfl⟩ := Option.map_eq_some_iff.mp hstep
  rw [(turn_of_step hbridge).sender (b := streamBetween src dst) rfl rfl]
  simp [streamBetween, End.afterRead]

/-- What is left of the old channel once a message was taken from it. -/
theorem old_take (hoffers : dst.offers src event = true) (rest : List Message) :
    (binaryPayloads ((if event.takesMessage then dst.fromServer.tail else dst.fromServer) ++
        rest)).flatten =
      (binaryPayloads (dst.fromServer ++ rest)).flatten.drop event.wsCount := by
  cases event with
  | wsNext item =>
      cases item with
      | message m =>
          obtain ⟨queue, hqueue⟩ : ∃ queue, dst.fromServer = m :: queue := by
            simpa [End.offers, List.head?_eq_some_iff] using hoffers
          cases m <;>
            simp [hqueue, Event.takesMessage, Event.wsCount, binaryPayloads]
      | _ => simp [Event.takesMessage, Event.wsCount]
  | _ => simp [Event.takesMessage, Event.wsCount]

/-- An iteration of the bridge that receives the stream. -/
theorem streamBetween_receiver (hoffers : dst.offers src event = true)
    (hstep : dst.step now event = some dst') :
    (streamBetween src dst).step (dst.bridge.phase.receiverMove event) =
      some (streamBetween (src.afterRead event) dst') := by
  obtain ⟨⟨b', effects⟩, hbridge, rfl⟩ := Option.map_eq_some_iff.mp hstep
  have hold : ∀ data, event = .wsNext (.message (.binary data)) →
      data <+: (streamBetween src dst).old := by
    rintro data rfl
    obtain ⟨queue, hqueue⟩ : ∃ queue, dst.fromServer = .binary data :: queue := by
      simpa [End.offers, List.head?_eq_some_iff] using hoffers
    simp [streamBetween, hqueue, binaryPayloads]
  have hnew : ∀ bytes, event = .quicRead (.data bytes) →
      bytes <+: (streamBetween src dst).new := by
    rintro bytes rfl
    simp only [End.offers, decide_eq_true_eq] at hoffers
    exact hoffers.2.2
  rw [(turn_of_step hbridge).receiver (b := streamBetween src dst) rfl rfl hold hnew]
  have htake := old_take hoffers src.toServer
  simp only [streamBetween, End.afterRead]
  rw [htake]

end Streams

namespace SwapStream

/-- The stream towards `dst`. -/
def stream (dst : Side) (s : SwapStream) : Switchover UInt8 :=
  streamBetween (s.ends dst.other) (s.ends dst)

/-- The move of the stream towards `dst` that a step is. -/
def move (dst : Side) (s : SwapStream) : Label → Switchover.Move UInt8
  | .bridge side event =>
      if side = dst then (s.ends side).bridge.phase.receiverMove event
      else (s.ends side).bridge.phase.senderMove event
  | _ => .idle

section Ends

variable {s : SwapStream} {side dst : Side} {e peer : End}

theorem stream_setEnds_self : (s.setEnds dst e peer).stream dst = streamBetween peer e := by
  cases dst <;> rfl

theorem stream_setEnds_other (h : side ≠ dst) :
    (s.setEnds side e peer).stream dst = streamBetween e peer := by
  cases side <;> cases dst <;> first | rfl | exact absurd rfl h

theorem stream_self : s.stream dst = streamBetween (s.ends dst.other) (s.ends dst) := rfl

theorem stream_other (h : side ≠ dst) :
    s.stream dst = streamBetween (s.ends side) (s.ends side.other) := by
  cases side <;> cases dst <;> first | rfl | exact absurd rfl h

/-- The server passes messages on in order. -/
theorem stream_relay {s' : SwapStream} (h : s.step (.relay side) = some s') :
    s'.stream dst = s.stream dst := by
  simp only [step] at h
  split at h
  · cases h
  · next m rest hqueue =>
    by_cases hside : side = dst
    · subst hside
      cases m <;> cases h <;> rw [stream_setEnds_self, stream_self] <;>
        simp [streamBetween, End.receive, binaryPayloads]
    · cases m <;> cases h <;> rw [stream_setEnds_other hside, stream_other hside] <;>
        simp [streamBetween, End.receive, hqueue, binaryPayloads]

theorem stream_hangUp {s' : SwapStream} (h : s.step (.hangUp side) = some s') :
    s'.stream dst = s.stream dst := by
  simp only [step] at h
  split at h
  · cases h
    by_cases hside : side = dst
    · subst hside
      rw [stream_setEnds_self, stream_self]
      rfl
    · rw [stream_setEnds_other hside, stream_other hside]
      simp [streamBetween, End.receive, binaryPayloads]
  · cases h

end Ends

/-- Every run of the two bridges is a run of the stream towards either end. -/
theorem simulates (dst : Side) :
    Machine.Simulates machine Switchover.machine (stream dst) (move dst) where
  init := by cases dst <;> rfl
  step := by
    intro s l s' _ hstep
    cases l with
    | elapse d =>
        cases hstep
        rfl
    | bridge side event =>
        simp only [machine, step] at hstep
        split at hstep
        · next hoffers =>
          obtain ⟨next, hnext, rfl⟩ := Option.map_eq_some_iff.mp hstep
          by_cases hside : side = dst
          · subst hside
            simp only [move, if_true]
            rw [stream_setEnds_self]
            exact streamBetween_receiver hoffers hnext
          · simp only [move, hside, if_false]
            rw [stream_setEnds_other hside, stream_other hside]
            exact streamBetween_sender hnext
        · cases hstep
    | relay side => exact congrArg some (stream_relay hstep).symm
    | hangUp side => exact congrArg some (stream_hangUp hstep).symm

/-! ## What arrives -/

/-- A bridge ends its drain only when the other bridge no longer relays over the
WebSocket and none of its binary messages is left on the way. -/
def drainsFully (s : SwapStream) : Label → Bool
  | .bridge side event =>
      !(s.ends side).bridge.phase.leavesDrain event ||
        (decide ((s.ends side.other).bridge.phase ≠ .relay) &&
          (binaryPayloads ((s.ends side).fromServer ++ (s.ends side.other).toServer)).isEmpty)
  | _ => true

theorem leavesDrain_of_switch {phase : Phase} {event : Event}
    (h : phase.receiverMove event = .switch) : phase.leavesDrain event = true := by
  unfold Phase.receiverMove at h
  split at h
  · cases h
  · cases h
  · cases h
  · cases h
  · split at h
    · assumption
    · split at h
      · cases h
      · cases h

theorem senderMove_ne_switch (phase : Phase) (event : Event) :
    phase.senderMove event ≠ .switch := by
  unfold Phase.senderMove
  split
  · simp
  · simp
  · simp
  · simp
  · split
    · simp
    · split
      · simp
      · simp

theorem drained_of_drainsFully {dst : Side} {s : SwapStream} {l : Label}
    (h : drainsFully s l = true) : Switchover.drained (s.stream dst) (move dst s l) := by
  cases hmove : move dst s l with
  | switch =>
      cases l with
      | bridge side event =>
          simp only [move] at hmove
          split at hmove
          · next hside =>
            subst hside
            have hleaves := leavesDrain_of_switch hmove
            simp only [drainsFully, hleaves, Bool.not_true, Bool.false_or, Bool.and_eq_true,
              decide_eq_true_eq, List.isEmpty_iff] at h
            obtain ⟨hphase, hempty⟩ := h
            refine ⟨?_, by simp [stream_self, streamBetween, hempty]⟩
            simp only [stream_self, streamBetween]
            cases hother : (s.ends side.other).bridge.phase <;>
              simp_all [Phase.sender]
          · exact absurd hmove (senderMove_ne_switch _ _)
      | _ => cases hmove
  | _ => trivial

/-- As long as every bridge drains the WebSocket path before it leaves it, what is
written to a TCP socket is a prefix of what was read from the other one. -/
theorem tcpOut_isPrefix_tcpIn {s : SwapStream}
    (h : (machine.restrict fun s l => drainsFully s l = true).Reachable s) (dst : Side) :
    (s.ends dst).tcpOut <+: (s.ends dst.other).tcpIn := by
  classical
  have sim : Machine.Simulates (machine.restrict fun s l => drainsFully s l = true)
      (Switchover.machine.restrict Switchover.drained) (stream dst) (move dst) :=
    (simulates dst).restrict fun s l _ => drained_of_drainsFully
  exact Switchover.isPrefix_of_reachable (sim.reachable h)

/-- The host sends `1` over the WebSocket. -/
def relayOne : List Label := [.bridge .host (.tcpRead (.data [1])), .relay .host]

/-- Both bridges swap; their drains end at the deadline. -/
def swapBoth : List Label :=
  [.bridge .host .swapReady, .bridge .joiner .swapReady, .elapse wsDrainTimeout,
    .bridge .host .drainTimeout, .bridge .joiner .drainTimeout]

/-- The host sends `2` over QUIC, and the joiner reads it. -/
def directTwo : List Label :=
  [.bridge .host (.tcpRead (.data [2])), .bridge .joiner (.quicRead (.data [2]))]

/-- `1` arrives before the swap, and `2` after it. -/
theorem tcpOut_isPrefix_tcpIn_drained :
    ∃ s, (machine.restrict fun s l => drainsFully s l = true).Reachable s ∧
      (s.ends .joiner).tcpOut = [1, 2] ∧
      (s.ends .joiner).tcpOut <+: (s.ends .host).tcpIn := by
  let M := machine.restrict fun s l => drainsFully s l = true
  let run := relayOne ++ [.bridge .joiner (.wsNext (.message (.binary [1])))] ++ swapBoth ++
    directTwo
  have hrun : (M.exec M.init run).any
      (fun s => decide ((s.ends .joiner).tcpOut = [1, 2])) = true := by
    decide
  obtain ⟨s, _, hreach, htest⟩ := Machine.exists_reachable_of_exec hrun
  exact ⟨s, hreach, of_decide_eq_true htest, tcpOut_isPrefix_tcpIn hreach .joiner⟩

/-- `1` is still on the way when the joiner's drain ends: `2` is written without it. -/
theorem not_always_tcpOut_isPrefix_tcpIn :
    ¬ ∀ (s : SwapStream) (dst : Side), machine.Reachable s →
      (s.ends dst).tcpOut <+: (s.ends dst.other).tcpIn := by
  intro hclaim
  have hrun : (machine.exec machine.init (relayOne ++ swapBoth ++ directTwo)).any (fun s =>
      decide ((s.ends .joiner).tcpOut = [2] ∧ (s.ends .host).tcpIn = [1, 2])) = true := by
    decide
  obtain ⟨s, _, hreach, htest⟩ := Machine.exists_reachable_of_exec hrun
  obtain ⟨hout, hin⟩ := of_decide_eq_true htest
  have harrived := hclaim s .joiner hreach
  simp [Side.other, hout, hin] at harrived

end SwapStream

end War3BattleTool.Client
