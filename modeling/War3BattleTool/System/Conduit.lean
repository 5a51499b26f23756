import War3BattleTool.Client.SwapStream
import War3BattleTool.Server.Deliveries

set_option autoImplicit false

/-!
# Two bridges and the tunnel service between them

A host and a joiner each run a bridge, and the whole tunnel service runs between them: `relay`
reads what the bridges write to their WebSockets and writes what the other end sent, while other
connections are admitted, paired and cleaned up.  A connection may end or fail at any time; a
write to one that has not is not lost.

`stream` is what one end sends to the other, wherever it is: on a WebSocket, in an inbox of the
service, in the hand of a `relay`, or on the QUIC stream.  As long as the service forwards every
frame of the two and pairs them with nobody else, it is a channel that loses and reorders nothing
(`simulates`), so the swap delivers the bytes of one game to the other in order
(`tcpOut_isPrefix_tcpIn_through`).
-/

namespace War3BattleTool.System

open War3BattleTool.Foundation War3BattleTool.Server War3BattleTool.Client

/-- The tunnel service and the two ends. -/
structure Conduit where
  service : TunnelService
  ends : Side → End

/-- The connections of the two ends, and when their bridges start. -/
structure Sockets where
  conn : Side → ConnId
  opens : Side → Instant

namespace Conduit

/-- Nothing was sent. -/
def start (E : Sockets) : Conduit where
  service := .start
  ends := fun side => .start (E.opens side)

/-- What can happen next. -/
inductive Label where
  /-- an iteration of the bridge of `side` -/
  | bridge (side : Side) (event : Client.Event)
  /-- a step of the tunnel service, or time passes -/
  | service (l : TunnelService.Label)

/-- Whether the connections of an end, whose other end is `peer`, can resolve a branch. -/
def offers (e peer : End) : Client.Event → Bool
  | .tcpRead (.data bytes) => bytes ≠ [] ∧ bytes.length ≤ relayBufSize
  | .wsNext (.message m) => e.fromServer.head? = some m
  | .quicRead (.data bytes) =>
      bytes ≠ [] ∧ bytes.length ≤ relayBufSize ∧ bytes <+: peer.quicOut
  | _ => true

/-- Whether the WebSocket of an end yields an item to the service. -/
def yields (e : End) : StreamItem → Bool
  | .message m => e.toServer.head? = some m
  | .error | .ended => true

/-- What a step of the service takes from the WebSocket of a connection. -/
def uplink (c : ConnId) : TunnelService.Label → Option StreamItem
  | .frame c₀ item => if c₀ = c then some item else none
  | _ => none

/-- What the service has taken is no longer on the way. -/
def takeItem (e : End) : Option StreamItem → End
  | some (.message _) => { e with toServer := e.toServer.tail }
  | _ => e

/-- Change both ends. -/
def setEnds (s : Conduit) (side : Side) (e peer : End) : Conduit :=
  { s with ends := fun side' => if side' = side then e else peer }

/-- An iteration of the bridge of `side`. -/
def bridgeStep (E : Sockets) (s : Conduit) (side : Side) (event : Client.Event) : Option Conduit :=
  let e := s.ends side
  let peer := s.ends side.other
  if E.opens side ≤ s.service.now ∧ offers e peer event then
    (e.step s.service.now event).map fun next => s.setEnds side next (peer.afterRead event)
  else none

/-- The ends after a step of the service that took `item` from each of them. -/
def afterService (E : Sockets) (s : Conduit) (l : TunnelService.Label) (service : TunnelService) :
    Conduit where
  service := service
  ends := fun side =>
    let e := takeItem (s.ends side) (uplink (E.conn side) l)
    { e with
      fromServer := e.fromServer ++
        (service.sentTo (E.conn side)).drop (s.service.sentTo (E.conn side)).length }

/-- A step of the service. -/
def serviceStep (E : Sockets) (s : Conduit) (l : TunnelService.Label) : Option Conduit :=
  if [Side.host, .joiner].all fun side => (uplink (E.conn side) l).all (yields (s.ends side)) then
    (s.service.step l).map (s.afterService E l)
  else none

/-- One step. -/
def step (E : Sockets) (s : Conduit) : Label → Option Conduit
  | .bridge side event => s.bridgeStep E side event
  | .service l => s.serviceStep E l

/-- The two bridges and the service as a machine. -/
def machine (E : Sockets) : Machine Conduit Label where
  init := start E
  step := step E

/-! ## The stream towards one end -/

/-- The payloads on their way to `dst`. -/
def onTheWay (E : Sockets) (s : Conduit) (dst : Side) : List Bytes :=
  binaryPayloads (s.ends dst).fromServer ++
    ((s.service.takenFrom (E.conn dst.other)).drop
        (binaryPayloads (s.service.sentTo (E.conn dst))).length ++
      binaryPayloads (s.ends dst.other).toServer)

/-- The stream towards `dst`. -/
def stream (E : Sockets) (dst : Side) (s : Conduit) : Switchover UInt8 :=
  { streamBetween (s.ends dst.other) (s.ends dst) with old := (s.onTheWay E dst).flatten }

/-- The move of the stream towards `dst` that a step is. -/
def move (dst : Side) (s : Conduit) : Label → Switchover.Move UInt8
  | .bridge side event =>
      if side = dst then (s.ends side).bridge.phase.receiverMove event
      else (s.ends side).bridge.phase.senderMove event
  | .service _ => .idle

/-- The connection `x` is paired with nobody but `y`. -/
def pairedOnly (s : TunnelService) (x y : ConnId) : Bool :=
  s.pairs.all fun m => (m.first ≠ x || m.second = y) && (m.second ≠ x || m.first = y)

/-- The service has forwarded every frame of the two ends, and paired them with nobody else. -/
def carries (E : Sockets) (s : TunnelService) : Bool :=
  [Side.host, .joiner].all fun side =>
    s.forwardsAll (E.conn side) && pairedOnly s (E.conn side) (E.conn side.other)

/-- A bridge ends its drain only when the other bridge no longer relays over the WebSocket and
none of its payloads is on the way. -/
def drainsFully (E : Sockets) (s : Conduit) : Label → Bool
  | .bridge side event =>
      !(s.ends side).bridge.phase.leavesDrain event ||
        (decide ((s.ends side.other).bridge.phase ≠ .relay) && (s.onTheWay E side).isEmpty)
  | .service _ => true

/-- A step keeps to what the tunnel relies on. -/
def steady (E : Sockets) (s : Conduit) (l : Label) : Bool :=
  drainsFully E s l && (s.step E l).all fun s' => carries E s'.service

section Steps

variable {E : Sockets} {s s' : Conduit} {side dst : Side}

theorem joins_of_pairedOnly {service : TunnelService} {x y : ConnId}
    (h : pairedOnly service x y = true) :
    ∀ m ∈ service.pairs, ∀ z, m.Joins x z → z = y := by
  intro m hm z hjoins
  have hpair := List.all_eq_true.mp h m hm
  simp only [ne_eq, decide_not, Bool.and_eq_true, Bool.or_eq_true, Bool.not_eq_true',
    decide_eq_false_iff_not, decide_eq_true_eq] at hpair
  rcases hjoins with ⟨rfl, rfl⟩ | ⟨rfl, rfl⟩
  · exact hpair.1.resolve_left (absurd rfl)
  · exact hpair.2.resolve_left (absurd rfl)

theorem carries_iff {service : TunnelService} : carries E service = true ↔
    ∀ side, service.forwardsAll (E.conn side) = true ∧
      pairedOnly service (E.conn side) (E.conn side.other) = true := by
  simp only [carries, List.all_cons, List.all_nil, Bool.and_true, Bool.and_eq_true]
  constructor
  · rintro ⟨hhost, hjoiner⟩ (_ | _)
    · exact hhost
    · exact hjoiner
  · exact fun h => ⟨h .host, h .joiner⟩

/-- The service runs as it does alone. -/
theorem service_of_reachable (h : (machine E).Reachable s) :
    TunnelService.machine.Reachable s.service := by
  induction h with
  | init => exact .init
  | @step s s' l _ hstep ih =>
      cases l with
      | bridge side event =>
          simp only [machine, step, bridgeStep] at hstep
          split at hstep
          · obtain ⟨next, _, rfl⟩ := Option.map_eq_some_iff.mp hstep
            exact ih
          · cases hstep
      | service l =>
          simp only [machine, step, serviceStep] at hstep
          split at hstep
          · obtain ⟨service, hservice, rfl⟩ := Option.map_eq_some_iff.mp hstep
            exact .step ih hservice
          · cases hstep

theorem relay_of_sender {phase : Phase} (h : phase.sender = .old) : phase = .relay := by
  cases phase with
  | relay => rfl
  | _ => cases h

/-! ### A step of the service -/

@[simp] theorem takeItem_bridge (e : End) (item : Option StreamItem) :
    (takeItem e item).bridge = e.bridge := by
  unfold takeItem
  split <;> rfl

@[simp] theorem takeItem_tcpIn (e : End) (item : Option StreamItem) :
    (takeItem e item).tcpIn = e.tcpIn := by
  unfold takeItem
  split <;> rfl

@[simp] theorem takeItem_tcpOut (e : End) (item : Option StreamItem) :
    (takeItem e item).tcpOut = e.tcpOut := by
  unfold takeItem
  split <;> rfl

@[simp] theorem takeItem_quicOut (e : End) (item : Option StreamItem) :
    (takeItem e item).quicOut = e.quicOut := by
  unfold takeItem
  split <;> rfl

@[simp] theorem takeItem_fromServer (e : End) (item : Option StreamItem) :
    (takeItem e item).fromServer = e.fromServer := by
  unfold takeItem
  split <;> rfl

theorem payloads_toServer (e : End) (c : ConnId) (l : TunnelService.Label)
    (hyields : (uplink c l).all (yields e) = true) :
    binaryPayloads e.toServer = TunnelService.carried c l ++
      binaryPayloads (takeItem e (uplink c l)).toServer := by
  cases l with
  | frame c₀ item =>
      by_cases hc : c₀ = c
      · simp only [uplink, hc, if_true, Option.all_some] at hyields ⊢
        cases item with
        | message m =>
            obtain ⟨rest, hrest⟩ : ∃ rest, e.toServer = m :: rest := by
              simpa [yields, List.head?_eq_some_iff] using hyields
            cases m <;> simp [takeItem, TunnelService.carried, hrest, binaryPayloads]
        | error => rfl
        | ended => rfl
      · have hnone : TunnelService.carried c (.frame c₀ item) = [] := by
          cases item with
          | message m => cases m <;> simp [TunnelService.carried, hc]
          | _ => rfl
        simp [uplink, hc, takeItem, hnone]
  | _ => rfl

/-- What goes through the service stays in order. -/
theorem through_append {taken carriedNow sent new : List Bytes}
    (hbefore : sent <+: taken) (hafter : sent ++ new <+: taken ++ carriedNow) :
    new ++ (taken ++ carriedNow).drop (sent ++ new).length =
      taken.drop sent.length ++ carriedNow := by
  obtain ⟨more, rfl⟩ := hbefore
  obtain ⟨rest, hrest⟩ := hafter
  rw [List.append_assoc, List.append_assoc] at hrest
  have hparts := List.append_cancel_left hrest
  rw [← List.drop_append_of_le_length (by simp), List.append_assoc, ← hparts]
  simp

theorem stream_service (hreach : (machine E).Reachable s) (hcarries : carries E s.service = true)
    {l : TunnelService.Label} (hstep : s.serviceStep E l = some s')
    (hcarries' : carries E s'.service = true) : s'.stream E dst = s.stream E dst := by
  unfold serviceStep at hstep
  split at hstep
  next hyields =>
    obtain ⟨service, hservice, rfl⟩ := Option.map_eq_some_iff.mp hstep
    have hsource := service_of_reachable hreach
    have hx := carries_iff.mp hcarries' dst.other
    have hy := carries_iff.mp hcarries' dst
    have hy₀ := carries_iff.mp hcarries dst
    have htaken := TunnelService.takenFrom_step
      (TunnelService.consistent_of_reachable hsource).1 hservice hx.1
    obtain ⟨new, hnew⟩ := TunnelService.sentTo_step (E.conn dst) hservice
    have hbefore := TunnelService.sentTo_isPrefix_taken hsource (joins_of_pairedOnly hy₀.2)
    have hafter := TunnelService.sentTo_isPrefix_taken (.step hsource hservice)
      (joins_of_pairedOnly hy.2)
    rw [hnew, binaryPayloads_append, htaken] at hafter
    have hway := through_append hbefore hafter
    have hyield : (uplink (E.conn dst.other) l).all (yields (s.ends dst.other)) = true := by
      simp only [List.all_cons, List.all_nil, Bool.and_true, Bool.and_eq_true] at hyields
      cases dst
      · exact hyields.2
      · exact hyields.1
    have huplink := payloads_toServer _ _ _ hyield
    have honTheWay : (s.afterService E l service).onTheWay E dst = s.onTheWay E dst := by
      simp only [onTheWay, afterService, takeItem_fromServer, hnew, List.drop_left,
        binaryPayloads_append, htaken, List.append_assoc]
      rw [huplink, ← List.append_assoc (List.drop _ _), ← hway]
      simp only [List.append_assoc]
    simp only [stream, streamBetween, honTheWay]
    simp [afterService]
  next => cases hstep

/-! ### An iteration of a bridge -/

theorem stream_setEnds_self {e peer : End} : (s.setEnds dst e peer).stream E dst =
    { streamBetween peer e with old := ((s.setEnds dst e peer).onTheWay E dst).flatten } := by
  cases dst <;> rfl

theorem stream_setEnds_other {e peer : End} (h : side ≠ dst) :
    (s.setEnds side e peer).stream E dst =
      { streamBetween e peer with old := ((s.setEnds side e peer).onTheWay E dst).flatten } := by
  cases side <;> cases dst <;> first | rfl | exact absurd rfl h

/-- What is left of the payloads once a message was taken from the WebSocket. -/
theorem payloads_take {e peer : End} {event : Client.Event} (hoffers : offers e peer event = true)
    (rest : List Bytes) :
    (binaryPayloads (if event.takesMessage then e.fromServer.tail else e.fromServer) ++
        rest).flatten =
      (binaryPayloads e.fromServer ++ rest).flatten.drop event.wsCount := by
  cases event with
  | wsNext item =>
      cases item with
      | message m =>
          obtain ⟨queue, hqueue⟩ : ∃ queue, e.fromServer = m :: queue := by
            simpa [offers, List.head?_eq_some_iff] using hoffers
          cases m <;> simp [hqueue, Event.takesMessage, Event.wsCount, binaryPayloads]
      | _ => simp [Event.takesMessage, Event.wsCount]
  | _ => simp [Event.takesMessage, Event.wsCount]

/-- An iteration of the bridge that receives the stream. -/
theorem stream_receiver {event : Client.Event} {next : End}
    (hoffers : offers (s.ends dst) (s.ends dst.other) event = true)
    (hnext : (s.ends dst).step s.service.now event = some next) :
    (s.stream E dst).step ((s.ends dst).bridge.phase.receiverMove event) =
      some ((s.setEnds dst next ((s.ends dst.other).afterRead event)).stream E dst) := by
  obtain ⟨⟨b', effects⟩, hbridge, rfl⟩ := Option.map_eq_some_iff.mp hnext
  have hold : ∀ data, event = .wsNext (.message (.binary data)) →
      data <+: (s.stream E dst).old := by
    rintro data rfl
    obtain ⟨queue, hqueue⟩ : ∃ queue, (s.ends dst).fromServer = .binary data :: queue := by
      simpa [offers, List.head?_eq_some_iff] using hoffers
    simp [stream, onTheWay, hqueue, binaryPayloads]
  have hnew : ∀ bytes, event = .quicRead (.data bytes) → bytes <+: (s.stream E dst).new := by
    rintro bytes rfl
    simp only [offers, decide_eq_true_eq] at hoffers
    exact hoffers.2.2
  rw [(turn_of_step hbridge).receiver (b := s.stream E dst) rfl rfl hold hnew,
    stream_setEnds_self]
  have hother : dst.other ≠ dst := by cases dst <;> decide
  simp only [stream, streamBetween, End.afterRead, onTheWay, setEnds, if_true, hother, if_false,
    payloads_take hoffers]

/-- An iteration of the bridge that sends the stream. -/
theorem stream_sender {event : Client.Event} {next : End} (hside : side ≠ dst)
    (hnext : (s.ends side).step s.service.now event = some next) :
    (s.stream E dst).step ((s.ends side).bridge.phase.senderMove event) =
      some ((s.setEnds side next ((s.ends side.other).afterRead event)).stream E dst) := by
  obtain ⟨⟨b', effects⟩, hbridge, rfl⟩ := Option.map_eq_some_iff.mp hnext
  obtain ⟨hother, hpeer⟩ : dst.other = side ∧ side.other = dst := by
    cases side <;> cases dst <;> first | exact ⟨rfl, rfl⟩ | exact absurd rfl hside
  rw [(turn_of_step hbridge).sender (b := s.stream E dst) (by simp only [stream, hother]; rfl)
    (by simp only [stream, hother]; rfl), stream_setEnds_other hside]
  simp only [stream, streamBetween, End.afterRead, onTheWay, setEnds, hother, hpeer, if_true,
    hside.symm, if_false, binaryPayloads_append, List.flatten_append, List.append_assoc]

end Steps

/-- What a steady step leads to is carried. -/
theorem carries_of_reachable {E : Sockets} {s : Conduit}
    (h : ((machine E).restrict fun s l => steady E s l = true).Reachable s) :
    carries E s.service = true := by
  cases h with
  | init => exact carries_iff.mpr fun _ => ⟨rfl, rfl⟩
  | step _ hstep =>
      obtain ⟨hsteady, hstep⟩ := Machine.restrict_step.mp hstep
      have hnext : Conduit.step E _ _ = some s := hstep
      simp only [steady, hnext, Option.all_some, Bool.and_eq_true] at hsteady
      exact hsteady.2

theorem drained_of_drainsFully {E : Sockets} {dst : Side} {s : Conduit} {l : Label}
    (h : drainsFully E s l = true) : Switchover.drained (s.stream E dst) (move dst s l) := by
  cases hmove : move dst s l with
  | switch =>
      cases l with
      | bridge side event =>
          simp only [move] at hmove
          split at hmove
          · next hside =>
            subst hside
            have hleaves := SwapStream.leavesDrain_of_switch hmove
            simp only [drainsFully, hleaves, Bool.not_true, Bool.false_or, Bool.and_eq_true,
              decide_eq_true_eq, List.isEmpty_iff] at h
            obtain ⟨hphase, hempty⟩ := h
            refine ⟨fun hold => hphase ?_, by simp [stream, hempty]⟩
            exact relay_of_sender hold
          · exact absurd hmove (SwapStream.senderMove_ne_switch _ _)
      | service l => cases hmove
  | _ => trivial

/-- While the service carries the two connections, every run is a run of the stream towards
either end. -/
theorem simulates (E : Sockets) (dst : Side)
    [∀ (b : Switchover UInt8) m, Decidable (Switchover.drained b m)] :
    Machine.Simulates ((machine E).restrict fun s l => steady E s l = true)
      (Switchover.machine.restrict Switchover.drained) (stream E dst) (move dst) where
  init := by cases dst <;> rfl
  step := by
    intro s l s' hreach hstep
    have hcarries := carries_of_reachable hreach
    have hcarries' := carries_of_reachable (.step hreach hstep)
    obtain ⟨hsteady, hstep⟩ := Machine.restrict_step.mp hstep
    simp only [steady, Bool.and_eq_true] at hsteady
    refine Machine.restrict_step.mpr ⟨drained_of_drainsFully hsteady.1, ?_⟩
    cases l with
    | bridge side event =>
        simp only [machine, step, bridgeStep] at hstep
        split at hstep
        next hturn =>
          obtain ⟨next, hnext, rfl⟩ := Option.map_eq_some_iff.mp hstep
          by_cases hside : side = dst
          · subst hside
            simp only [move, if_true]
            exact stream_receiver hturn.2 hnext
          · simp only [move, hside, if_false]
            exact stream_sender hside hnext
        next => cases hstep
    | service l =>
        exact congrArg some (stream_service hreach.of_restrict hcarries hstep hcarries').symm

/-! ## What arrives -/

/-- As long as the service forwards every frame of the two connections and pairs them with
nobody else, and the bridges drain the WebSocket path before they leave it, what is written to a
TCP socket is a prefix of what was read from the other one. -/
theorem tcpOut_isPrefix_tcpIn_through {E : Sockets} {s : Conduit}
    (h : ((machine E).restrict fun s l => steady E s l = true).Reachable s) (dst : Side) :
    (s.ends dst).tcpOut <+: (s.ends dst.other).tcpIn := by
  classical
  exact Switchover.isPrefix_of_reachable ((simulates E dst).reachable h)

/-- The host is connection `1`, the joiner connection `2`. -/
def game : Sockets where
  conn
    | .host => 1
    | .joiner => 2
  opens := fun _ => 0

/-- The service relays, and `1` goes through it from the host to the joiner. -/
def passOne : List Label :=
  TunnelService.bothRelay.map .service ++
    [.bridge .host (.tcpRead (.data [1])), .service (.frame 1 (.message (.binary [1]))),
      .service (.recv 2), .service (.sent 2 true),
      .bridge .joiner (.wsNext (.message (.binary [1])))]

/-- Both bridges swap, and `2` goes over QUIC. -/
def passTwo : List Label :=
  [.bridge .host .swapReady, .bridge .joiner .swapReady, .service (.elapse wsDrainTimeout),
    .bridge .host .drainTimeout, .bridge .joiner .drainTimeout,
    .bridge .host (.tcpRead (.data [2])), .bridge .joiner (.quicRead (.data [2]))]

/-- `1` arrives through the service, and `2` after it over QUIC. -/
theorem tcpOut_isPrefix_tcpIn_passed :
    ∃ s, ((machine game).restrict fun s l => steady game s l = true).Reachable s ∧
      (s.ends .joiner).tcpOut = [1, 2] ∧
      (s.ends .joiner).tcpOut <+: (s.ends .host).tcpIn := by
  let M := (machine game).restrict fun s l => steady game s l = true
  have hrun : (M.exec M.init (passOne ++ passTwo)).any
      (fun s => decide ((s.ends .joiner).tcpOut = [1, 2])) = true := by
    decide
  obtain ⟨s, _, hreach, htest⟩ := Machine.exists_reachable_of_exec hrun
  exact ⟨s, hreach, of_decide_eq_true htest, tcpOut_isPrefix_tcpIn_through hreach .joiner⟩

end Conduit

end War3BattleTool.System
