import War3BattleTool.Foundation.Net

set_option autoImplicit false

/-!
# The bridge of one end (`client/src/net/tunnel.rs`)

`bridge_tcp_ws_with_swap` connects the TCP socket of War3 with the tunnel.  It
relays over the WebSocket; when the QUIC stream arrives it stops writing to the
WebSocket, drains what still comes from it while it buffers what comes from the
QUIC stream and from the TCP socket, flushes both buffers, and bridges over QUIC.

`Bridge.step` is one iteration of the `select!` loop of the current phase: the
branch that `event` resolves, with the writes its handler makes.
-/

namespace War3BattleTool.Client

open War3BattleTool.Foundation

/-- `RELAY_BUF_SIZE`: the most bytes one read yields. -/
def relayBufSize : Nat := 8192

/-- `WS_DRAIN_TIMEOUT`. -/
def wsDrainTimeout : Duration := millis 500

/-- `TUNNEL_PING_INTERVAL`. -/
def tunnelPingInterval : Duration := secs 5

/-- The phases of a bridge. -/
inductive Phase where
  /-- phase 1: TCP and WebSocket -/
  | relay
  /-- phase 2: the WebSocket is drained until `deadline` -/
  | drain (quicBuffer tcpOutboundBuffer : Bytes) (deadline : Instant)
  /-- phase 3: TCP and QUIC -/
  | direct
  | returned
  deriving DecidableEq

/-- What a read yields. -/
inductive Chunk where
  | data (bytes : Bytes)
  | ended
  | error
  deriving DecidableEq

/-- The branches of the `select!` loops. -/
inductive Event where
  | tcpRead (chunk : Chunk)
  | wsNext (item : StreamItem)
  | quicRead (chunk : Chunk)
  /-- `swap_rx` yields the QUIC stream -/
  | swapReady
  /-- `swap_rx` is closed: the attempt failed -/
  | swapClosed
  | pingTick
  | drainTimeout
  deriving DecidableEq

/-- Whether a write to each of the three connections succeeds. -/
structure Writes where
  ws : Bool
  tcp : Bool
  quic : Bool

/-- What the handler of a branch wrote. -/
structure Effects where
  ws : List Message := []
  tcp : Bytes := []
  quic : Bytes := []

/-- The locals of `bridge_tcp_ws_with_swap` that outlive one iteration, the latency it
stores, and whether it has sent `TransportUpgraded`. -/
structure Bridge where
  phase : Phase
  nextPing : Instant
  pingSentAt : Option Instant
  latencyMs : Nat
  upgraded : Bool

namespace Bridge

/-- A bridge that starts at `now`. -/
def start (now : Instant) : Bridge where
  phase := .relay
  nextPing := now + tunnelPingInterval
  pingSentAt := none
  latencyMs := 0
  upgraded := false

/-- The bridge returns. -/
def stop (b : Bridge) : Bridge := { b with phase := .returned }

/-- A `Pong` arrived: the round-trip time of the ping it answers. -/
def pong (b : Bridge) (now : Instant) : Bridge :=
  match b.pingSentAt with
  | some sent => { b with pingSentAt := none, latencyMs := elapsed now sent / millis 1 }
  | none => b

/-- Phase 1.  A failed write may have written a part, but the bridge returns. -/
def relayStep (b : Bridge) (now : Instant) (writes : Writes) : Event → Option (Bridge × Effects)
  | .tcpRead (.data bytes) =>
      if writes.ws then some (b, { ws := [.binary bytes] }) else some (b.stop, {})
  | .tcpRead .ended => some (b.stop, { ws := if writes.ws then [.close] else [] })
  | .tcpRead .error => some (b.stop, {})
  | .wsNext (.message (.binary data)) =>
      if writes.tcp then some (b, { tcp := data }) else some (b.stop, {})
  | .wsNext (.message .close) => some (b.stop, {})
  | .wsNext .ended => some (b.stop, {})
  | .wsNext .error => some (b.stop, {})
  | .wsNext (.message (.ping data)) =>
      some (b, { ws := if writes.ws then [.pong data] else [] })
  | .wsNext (.message (.pong _)) => some (b.pong now, {})
  | .wsNext (.message (.text _)) => some (b, {})
  | .swapReady => some ({ b with phase := .drain [] [] (now + wsDrainTimeout) }, {})
  | .swapClosed => some (b, {})
  | .pingTick =>
      if b.nextPing ≤ now then
        let ticked := { b with nextPing := b.nextPing + tunnelPingInterval }
        match b.pingSentAt with
        | none =>
            some ({ ticked with pingSentAt := some now },
              { ws := if writes.ws then [.ping []] else [] })
        | some _ => some (ticked, {})
      else none
  | .quicRead _ => none
  | .drainTimeout => none

/-- The end of phase 2: both buffers are flushed, and phase 3 begins. -/
def leaveDrain (b : Bridge) (writes : Writes) (quicBuffer tcpOutboundBuffer : Bytes) :
    Bridge × Effects :=
  if quicBuffer ≠ [] ∧ writes.tcp = false then (b.stop, {})
  else if tcpOutboundBuffer ≠ [] ∧ writes.quic = false then (b.stop, { tcp := quicBuffer })
  else
    ({ b with phase := .direct, upgraded := true },
      { tcp := quicBuffer, quic := tcpOutboundBuffer })

/-- Phase 2.  Any message but a binary one ends the drain, and so does the end of the
TCP stream. -/
def drainStep (b : Bridge) (now : Instant) (writes : Writes)
    (quicBuffer tcpOutboundBuffer : Bytes) (deadline : Instant) :
    Event → Option (Bridge × Effects)
  | .wsNext (.message (.binary data)) =>
      if writes.tcp then some (b, { tcp := data }) else some (b.stop, {})
  | .wsNext _ => some (b.leaveDrain writes quicBuffer tcpOutboundBuffer)
  | .quicRead (.data bytes) =>
      some ({ b with phase := .drain (quicBuffer ++ bytes) tcpOutboundBuffer deadline }, {})
  | .quicRead .ended => some (b.stop, {})
  | .quicRead .error => some (b.stop, {})
  | .tcpRead (.data bytes) =>
      some ({ b with phase := .drain quicBuffer (tcpOutboundBuffer ++ bytes) deadline }, {})
  | .tcpRead .ended => some (b.leaveDrain writes quicBuffer tcpOutboundBuffer)
  | .tcpRead .error => some (b.leaveDrain writes quicBuffer tcpOutboundBuffer)
  | .drainTimeout =>
      if deadline ≤ now then some (b.leaveDrain writes quicBuffer tcpOutboundBuffer) else none
  | .swapReady => none
  | .swapClosed => none
  | .pingTick => none

/-- Phase 3. -/
def directStep (b : Bridge) (writes : Writes) : Event → Option (Bridge × Effects)
  | .tcpRead (.data bytes) =>
      if writes.quic then some (b, { quic := bytes }) else some (b.stop, {})
  | .tcpRead .ended => some (b.stop, {})
  | .tcpRead .error => some (b.stop, {})
  | .quicRead (.data bytes) =>
      if writes.tcp then some (b, { tcp := bytes }) else some (b.stop, {})
  | .quicRead .ended => some (b.stop, {})
  | .quicRead .error => some (b.stop, {})
  | _ => none

/-- One iteration of the loop of the current phase. -/
def step (b : Bridge) (now : Instant) (writes : Writes) (event : Event) :
    Option (Bridge × Effects) :=
  match b.phase with
  | .relay => b.relayStep now writes event
  | .drain quicBuffer tcpOutboundBuffer deadline =>
      b.drainStep now writes quicBuffer tcpOutboundBuffer deadline event
  | .direct => b.directStep writes event
  | .returned => none

end Bridge

end War3BattleTool.Client
