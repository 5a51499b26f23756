import War3BattleTool.Foundation.Machine
import War3BattleTool.Foundation.Net

set_option autoImplicit false

/-!
# The READY/ACK handshake (`client/src/net/tunnel.rs`)

Before the two bridges leave the WS relay, `do_joiner_swap_handshake` writes
`SWAP_READY` to the QUIC stream and waits for `SWAP_ACK`; the handshake in
`background_quic_host` waits for the one and answers with the other.  Both run
under a timeout of three seconds, and each side hands the stream to its bridge
when its own handshake completes.

The host commits when it writes `SWAP_ACK`, the joiner when it reads it.  So the
joiner never switches alone, and the host does exactly when the joiner gives up
between its two bytes while the host's handshake completes.
-/

namespace War3BattleTool.Client

open War3BattleTool.Foundation

/-- `SWAP_READY`. -/
def swapReady : UInt8 := 0x01

/-- `SWAP_ACK`. -/
def swapAck : UInt8 := 0x02

/-- The timeout of either handshake. -/
def swapHandshakeTimeout : Duration := secs 3

/-- The two ends of a tunnel. -/
inductive Side where
  | host
  | joiner
  deriving DecidableEq

/-- The other end. -/
def Side.other : Side → Side
  | .host => .joiner
  | .joiner => .host

/-- The progress of one handshake, whose points of waiting are `α`. -/
inductive Handshake (α : Type) where
  /-- the QUIC stream is not there yet -/
  | connecting
  | running (point : α) (deadline : Instant)
  /-- done; `swap_tx.send` comes next -/
  | completed
  /-- the bridge has the stream -/
  | handedOver
  /-- the bridge had ended, and the stream is dropped -/
  | unused
  /-- timed out, or an error on the stream -/
  | failed
  deriving DecidableEq

/-- The handshake returned with success. -/
def Handshake.succeeded {α : Type} : Handshake α → Bool
  | .completed | .handedOver | .unused => true
  | _ => false

/-- The `.await`s of `do_joiner_swap_handshake`. -/
inductive JoinerPoint where
  | writeReady
  | readAck
  deriving DecidableEq

/-- The `.await`s of the handshake in `background_quic_host`. -/
inductive HostPoint where
  | readReady
  | writeAck
  deriving DecidableEq

/-- Both handshakes, and the bytes in flight on the QUIC stream in either
direction. -/
structure SwapHandshake where
  now : Instant
  joiner : Handshake JoinerPoint
  host : Handshake HostPoint
  toHost : Bytes
  toJoiner : Bytes

namespace SwapHandshake

/-- Before the QUIC connection. -/
def start : SwapHandshake where
  now := 0
  joiner := .connecting
  host := .connecting
  toHost := []
  toJoiner := []

/-- What can happen next. -/
inductive Label where
  /-- time passes -/
  | elapse (d : Duration)
  /-- `connect_direct` or `accept_on_endpoint` returns the stream -/
  | connect (side : Side)
  /-- `write_all` completes -/
  | write (side : Side)
  /-- `read_exact` completes -/
  | read (side : Side)
  | timeout (side : Side)
  /-- a read or write of the handshake fails -/
  | streamError (side : Side)
  /-- `swap_tx.send`; `alive` tells whether the bridge still runs -/
  | handOver (side : Side) (alive : Bool)
  /-- the bridge writes to the stream it was given -/
  | bridgeWrite (side : Side) (data : Bytes)

/-- The stream of one handshake goes to the bridge. -/
def handOver {α : Type} (h : Handshake α) (alive : Bool) : Option (Handshake α) :=
  match h with
  | .completed => some (if alive then .handedOver else .unused)
  | _ => none

/-- The timeout of one handshake. -/
def expire {α : Type} (now : Instant) (h : Handshake α) : Option (Handshake α) :=
  match h with
  | .running _ deadline => if deadline ≤ now then some .failed else none
  | _ => none

/-- A failed read or write of one handshake. -/
def breakOff {α : Type} (h : Handshake α) : Option (Handshake α) :=
  match h with
  | .running _ _ => some .failed
  | _ => none

/-- The joiner reads one byte and expects `SWAP_ACK`. -/
def joinerRead (s : SwapHandshake) : Option SwapHandshake :=
  match s.joiner, s.toJoiner with
  | .running .readAck _, b :: rest =>
      some { s with joiner := if b = swapAck then .completed else .failed, toJoiner := rest }
  | _, _ => none

/-- The host reads one byte and expects `SWAP_READY`. -/
def hostRead (s : SwapHandshake) : Option SwapHandshake :=
  match s.host, s.toHost with
  | .running .readReady deadline, b :: rest =>
      some { s with
        host := if b = swapReady then .running .writeAck deadline else .failed
        toHost := rest }
  | _, _ => none

/-- The joiner writes `SWAP_READY`. -/
def joinerWrite (s : SwapHandshake) : Option SwapHandshake :=
  match s.joiner with
  | .running .writeReady deadline =>
      some { s with
        joiner := .running .readAck deadline
        toHost := s.toHost ++ [swapReady] }
  | _ => none

/-- The host writes `SWAP_ACK`, which completes its handshake. -/
def hostWrite (s : SwapHandshake) : Option SwapHandshake :=
  match s.host with
  | .running .writeAck _ =>
      some { s with host := .completed, toJoiner := s.toJoiner ++ [swapAck] }
  | _ => none

/-- One step of the two handshakes.  The host's stream appears once the joiner has
written to it. -/
def step (s : SwapHandshake) : Label → Option SwapHandshake
  | .elapse d => some { s with now := s.now + d }
  | .connect .joiner =>
      if s.joiner = .connecting then
        some { s with joiner := .running .writeReady (s.now + swapHandshakeTimeout) }
      else none
  | .connect .host =>
      if s.host = .connecting ∧ s.toHost ≠ [] then
        some { s with host := .running .readReady (s.now + swapHandshakeTimeout) }
      else none
  | .write .joiner => s.joinerWrite
  | .write .host => s.hostWrite
  | .read .joiner => s.joinerRead
  | .read .host => s.hostRead
  | .timeout .joiner => (expire s.now s.joiner).map ({ s with joiner := · })
  | .timeout .host => (expire s.now s.host).map ({ s with host := · })
  | .streamError .joiner => (breakOff s.joiner).map ({ s with joiner := · })
  | .streamError .host => (breakOff s.host).map ({ s with host := · })
  | .handOver .joiner alive => (handOver s.joiner alive).map ({ s with joiner := · })
  | .handOver .host alive => (handOver s.host alive).map ({ s with host := · })
  | .bridgeWrite .joiner data =>
      if s.joiner = .handedOver then some { s with toHost := s.toHost ++ data } else none
  | .bridgeWrite .host data =>
      if s.host = .handedOver then some { s with toJoiner := s.toJoiner ++ data } else none

/-- The two handshakes as a machine. -/
def machine : Machine SwapHandshake Label where
  init := start
  step := step

/-- One bridge has the stream, and the handshake of the other side has failed. -/
def Disagree (s : SwapHandshake) : Prop :=
  s.host = .handedOver ∧ s.joiner = .failed ∨ s.joiner = .handedOver ∧ s.host = .failed

/-- Reports the steps in which the joiner gives up although `SWAP_READY` is
written. -/
def gaveUp (s : SwapHandshake) (l : Label) : List Label :=
  match s.joiner, l with
  | .running .readAck _, .timeout .joiner => [l]
  | .running .readAck _, .streamError .joiner => [l]
  | _, _ => []

/-- What holds of the two handshakes after `events` were reported. -/
structure Sound (events : List Label) (s : SwapHandshake) : Prop where
  /-- nothing reaches the joiner before the host has committed -/
  committed : s.toJoiner ≠ [] → s.host.succeeded = true
  /-- the joiner completes after the host -/
  after : s.joiner.succeeded = true → s.host.succeeded = true
  /-- what the joiner waits for is the first byte to arrive -/
  ack : ∀ deadline, s.joiner = .running .readAck deadline → s.toJoiner ≠ [] →
    s.toJoiner.head? = some swapAck
  /-- the host's answer to a joiner that still waits is on its way -/
  answered : ∀ deadline, s.joiner = .running .readAck deadline →
    s.host.succeeded = true → s.toJoiner ≠ []
  /-- before `SWAP_READY` is written there is no handshake of the host -/
  quiet : s.joiner = .connecting ∨ (∃ deadline, s.joiner = .running .writeReady deadline) →
    s.host = .connecting ∧ s.toHost = []
  /-- the joiner gave up, and no later than that -/
  gone : events ≠ [] → s.joiner = .failed
  /-- unless it gave up, the joiner failed before `SWAP_READY` was written -/
  unready : s.joiner = .failed → events = [] → s.host = .connecting ∧ s.toHost = []

section Sound

variable {s s' : SwapHandshake} {events : List Label}

theorem Sound.start : Sound [] SwapHandshake.start where
  committed := by simp [SwapHandshake.start]
  after := by simp [SwapHandshake.start, Handshake.succeeded]
  ack := by simp [SwapHandshake.start]
  answered := by simp [SwapHandshake.start]
  quiet := by simp [SwapHandshake.start]
  gone := by simp
  unready := by simp [SwapHandshake.start]

/-- A step of the host that leaves its success as it is. -/
theorem Sound.hostMoves {next : Handshake HostPoint} {toHost : Bytes} (h : Sound events s)
    (hmoved : s.host ≠ .connecting ∨ s.toHost ≠ [])
    (hsame : next.succeeded = s.host.succeeded) :
    Sound events { s with host := next, toHost := toHost } where
  committed := fun hjoiner => hsame.trans (h.committed hjoiner)
  after := fun hjoiner => hsame.trans (h.after hjoiner)
  ack := h.ack
  answered := fun deadline hwaits hhost => h.answered deadline hwaits (hsame.symm.trans hhost)
  quiet := by
    intro hearly
    obtain ⟨hhost, hstream⟩ := h.quiet hearly
    obtain hne | hne := hmoved
    · exact absurd hhost hne
    · exact absurd hstream hne
  gone := h.gone
  unready := by
    intro hfailed hnone
    obtain ⟨hhost, hstream⟩ := h.unready hfailed hnone
    obtain hne | hne := hmoved
    · exact absurd hhost hne
    · exact absurd hstream hne

/-- The joiner gives up. -/
theorem Sound.joinerFails (h : Sound events s) {point : JoinerPoint} {deadline : Instant}
    (hrunning : s.joiner = .running point deadline) {l : Label}
    (hl : l = .timeout .joiner ∨ l = .streamError .joiner) :
    Sound (events ++ gaveUp s l) { s with joiner := .failed } where
  committed := h.committed
  after := by simp [Handshake.succeeded]
  ack := by simp
  answered := by simp
  quiet := by simp
  gone := fun _ => rfl
  unready := by
    intro _ hnone
    cases point with
    | writeReady => exact h.quiet (.inr ⟨deadline, hrunning⟩)
    | readAck =>
        obtain rfl | rfl := hl
        · simp [gaveUp, hrunning] at hnone
        · simp [gaveUp, hrunning] at hnone

/-- The joiner writes `SWAP_READY`: the host has not answered yet. -/
theorem Sound.joinerWrites (h : Sound events s) {deadline : Instant}
    (hrunning : s.joiner = .running .writeReady deadline) :
    Sound events { s with
      joiner := .running .readAck deadline, toHost := s.toHost ++ [swapReady] } := by
  obtain ⟨hhost, _⟩ := h.quiet (.inr ⟨deadline, hrunning⟩)
  have hpending : s.host.succeeded = false := by simp [hhost, Handshake.succeeded]
  have hempty : s.toJoiner = [] := by
    by_contra hne
    simp [h.committed hne] at hpending
  have hnone : events = [] := by
    by_contra hne
    simp [h.gone hne] at hrunning
  exact {
    committed := h.committed
    after := by simp [Handshake.succeeded]
    ack := by simp [hempty]
    answered := by simp [hpending]
    quiet := by simp
    gone := by simp [hnone]
    unready := by simp }

/-- The joiner reads the answer, and completes after the host. -/
theorem Sound.joinerCompletes (h : Sound events s) {deadline : Instant}
    (hrunning : s.joiner = .running .readAck deadline) (hanswer : s.toJoiner ≠ [])
    (rest : Bytes) : Sound events { s with joiner := .completed, toJoiner := rest } := by
  have hcommitted := h.committed hanswer
  have hnone : events = [] := by
    by_contra hne
    simp [h.gone hne] at hrunning
  exact {
    committed := fun _ => hcommitted
    after := fun _ => hcommitted
    ack := by simp
    answered := by simp
    quiet := by simp
    gone := by simp [hnone]
    unready := by simp }

/-- The host commits. -/
theorem Sound.hostWrites (h : Sound events s) {deadline : Instant}
    (hrunning : s.host = .running .writeAck deadline) :
    Sound events { s with host := .completed, toJoiner := s.toJoiner ++ [swapAck] } := by
  have hempty : s.toJoiner = [] := by
    by_contra hne
    have := h.committed hne
    simp [hrunning, Handshake.succeeded] at this
  have hconnected : s.host ≠ .connecting := by simp [hrunning]
  exact {
    committed := fun _ => rfl
    after := fun _ => rfl
    ack := by simp [hempty]
    answered := by simp
    quiet := fun hearly => absurd (h.quiet hearly).1 hconnected
    gone := h.gone
    unready := fun hfailed hnone => absurd (h.unready hfailed hnone).1 hconnected }

/-- The joiner's handshake is past its last byte, and its stream moves on. -/
theorem Sound.joinerMoves {next : Handshake JoinerPoint} {toHost : Bytes}
    (h : Sound events s) (hdone : s.joiner.succeeded = true)
    (hnext : next.succeeded = true) :
    Sound events { s with joiner := next, toHost := toHost } := by
  have hhost := h.after hdone
  have hnone : events = [] := by
    by_contra hne
    simp [h.gone hne, Handshake.succeeded] at hdone
  cases next with
  | connecting => simp [Handshake.succeeded] at hnext
  | running point deadline => simp [Handshake.succeeded] at hnext
  | failed => simp [Handshake.succeeded] at hnext
  | _ =>
      exact {
        committed := h.committed
        after := fun _ => hhost
        ack := by simp
        answered := by simp
        quiet := by simp
        gone := by simp [hnone]
        unready := by simp }

/-- The host's bridge writes behind the answer. -/
theorem Sound.bridgeWrites (h : Sound events s) (hdone : s.host.succeeded = true)
    (data : Bytes) : Sound events { s with toJoiner := s.toJoiner ++ data } where
  committed := fun _ => hdone
  after := h.after
  ack := by
    intro deadline hwaits _
    have hanswer := h.answered deadline hwaits hdone
    rw [List.head?_append_of_ne_nil _ hanswer]
    exact h.ack deadline hwaits hanswer
  answered := by
    intro deadline hwaits _
    exact List.append_ne_nil_of_left_ne_nil (h.answered deadline hwaits hdone) data
  quiet := h.quiet
  gone := h.gone
  unready := h.unready

/-- The joiner's stream is there. -/
theorem Sound.joinerConnects (h : Sound events s) (hconnecting : s.joiner = .connecting)
    (deadline : Instant) :
    Sound events { s with joiner := .running .writeReady deadline } where
  committed := h.committed
  after := by simp [Handshake.succeeded]
  ack := by simp
  answered := by simp
  quiet := fun _ => h.quiet (.inl hconnecting)
  gone := by
    intro hne
    simp [h.gone hne] at hconnecting
  unready := by simp

theorem gaveUp_eq_nil {l : Label} (htimeout : l ≠ .timeout .joiner)
    (herror : l ≠ .streamError .joiner) : gaveUp s l = [] := by
  unfold gaveUp
  split
  · exact absurd rfl htimeout
  · exact absurd rfl herror
  · rfl

/-! One lemma a label. -/

theorem running_of_expire {α : Type} {now : Instant} {x next : Handshake α}
    (h : expire now x = some next) : (∃ point deadline, x = .running point deadline) ∧
      next = .failed := by
  unfold expire at h
  split at h
  · split at h
    · cases h
      exact ⟨⟨_, _, rfl⟩, rfl⟩
    · cases h
  · cases h

theorem running_of_breakOff {α : Type} {x next : Handshake α} (h : breakOff x = some next) :
    (∃ point deadline, x = .running point deadline) ∧ next = .failed := by
  unfold breakOff at h
  split at h
  · cases h
    exact ⟨⟨_, _, rfl⟩, rfl⟩
  · cases h

theorem completed_of_handOver {α : Type} {x next : Handshake α} {alive : Bool}
    (h : handOver x alive = some next) : x = .completed ∧ next.succeeded = true := by
  unfold handOver at h
  split at h
  · cases h
    refine ⟨rfl, ?_⟩
    cases alive with
    | true => rfl
    | false => rfl
  · cases h

/-- A failure of the host's handshake. -/
theorem Sound.hostFails (h : Sound events s) {next : Handshake HostPoint}
    (hrunning : (∃ point deadline, s.host = .running point deadline) ∧ next = .failed) :
    Sound events { s with host := next } := by
  obtain ⟨⟨point, deadline, hrunning⟩, rfl⟩ := hrunning
  exact h.hostMoves (.inl (by simp [hrunning])) (by simp [hrunning, Handshake.succeeded])

theorem Sound.connect (h : Sound events s) {side : Side}
    (hstep : s.step (.connect side) = some s') : Sound events s' := by
  cases side with
  | joiner =>
      simp only [SwapHandshake.step] at hstep
      split at hstep
      · next hconnecting =>
        cases hstep
        exact h.joinerConnects hconnecting _
      · cases hstep
  | host =>
      simp only [SwapHandshake.step] at hstep
      split at hstep
      · next hconnecting =>
        cases hstep
        exact h.hostMoves (.inr hconnecting.2) (by simp [hconnecting.1, Handshake.succeeded])
      · cases hstep

theorem Sound.write (h : Sound events s) {side : Side}
    (hstep : s.step (.write side) = some s') : Sound events s' := by
  cases side with
  | joiner =>
      simp only [SwapHandshake.step, joinerWrite] at hstep
      split at hstep
      · next hrunning =>
        cases hstep
        exact h.joinerWrites hrunning
      · cases hstep
  | host =>
      simp only [SwapHandshake.step, hostWrite] at hstep
      split at hstep
      · next hrunning =>
        cases hstep
        exact h.hostWrites hrunning
      · cases hstep

theorem Sound.read (h : Sound events s) {side : Side}
    (hstep : s.step (.read side) = some s') : Sound events s' := by
  cases side with
  | joiner =>
      simp only [SwapHandshake.step, joinerRead] at hstep
      split at hstep
      · next deadline b rest hrunning harrived =>
        cases hstep
        have hanswer : s.toJoiner ≠ [] := by simp [harrived]
        obtain rfl : b = swapAck := by
          simpa [harrived] using h.ack deadline hrunning hanswer
        simpa using h.joinerCompletes hrunning hanswer rest
      · cases hstep
  | host =>
      simp only [SwapHandshake.step, hostRead] at hstep
      split at hstep
      · next deadline b rest hrunning harrived =>
        cases hstep
        refine h.hostMoves (.inr (by simp [harrived])) ?_
        split
        · simp [hrunning, Handshake.succeeded]
        · simp [hrunning, Handshake.succeeded]
      · cases hstep

theorem Sound.handOver (h : Sound events s) {side : Side} {alive : Bool}
    (hstep : s.step (.handOver side alive) = some s') : Sound events s' := by
  cases side with
  | joiner =>
      obtain ⟨next, hnext, rfl⟩ := Option.map_eq_some_iff.mp hstep
      obtain ⟨hdone, hsucceeded⟩ := completed_of_handOver hnext
      exact h.joinerMoves (by simp [hdone, Handshake.succeeded]) hsucceeded
  | host =>
      obtain ⟨next, hnext, rfl⟩ := Option.map_eq_some_iff.mp hstep
      obtain ⟨hdone, hsucceeded⟩ := completed_of_handOver hnext
      exact h.hostMoves (.inl (by simp [hdone])) (hsucceeded.trans (by rw [hdone]; rfl))

theorem Sound.bridgeWrite (h : Sound events s) {side : Side} {data : Bytes}
    (hstep : s.step (.bridgeWrite side data) = some s') : Sound events s' := by
  cases side with
  | joiner =>
      simp only [SwapHandshake.step] at hstep
      split at hstep
      · next hdone =>
        cases hstep
        have hsucceeded : s.joiner.succeeded = true := by simp [hdone, Handshake.succeeded]
        exact h.joinerMoves hsucceeded hsucceeded
      · cases hstep
  | host =>
      simp only [SwapHandshake.step] at hstep
      split at hstep
      · next hdone =>
        cases hstep
        exact h.bridgeWrites (by simp [hdone, Handshake.succeeded]) data
      · cases hstep

/-- The one step that is reported: the joiner gives up. -/
theorem Sound.givesUp {l : Label} (h : Sound events s)
    (hl : l = .timeout .joiner ∨ l = .streamError .joiner) (hstep : s.step l = some s') :
    Sound (events ++ gaveUp s l) s' := by
  obtain ⟨⟨point, deadline, hrunning⟩, rfl⟩ :
      (∃ point deadline, s.joiner = .running point deadline) ∧
        s' = { s with joiner := .failed } := by
    obtain rfl | rfl := hl
    · obtain ⟨next, hnext, rfl⟩ := Option.map_eq_some_iff.mp hstep
      obtain ⟨hrunning, rfl⟩ := running_of_expire hnext
      exact ⟨hrunning, rfl⟩
    · obtain ⟨next, hnext, rfl⟩ := Option.map_eq_some_iff.mp hstep
      obtain ⟨hrunning, rfl⟩ := running_of_breakOff hnext
      exact ⟨hrunning, rfl⟩
  exact h.joinerFails hrunning hl

theorem Sound.step {l : Label} (h : Sound events s) (hstep : s.step l = some s') :
    Sound (events ++ gaveUp s l) s' := by
  by_cases hgives : l = .timeout .joiner ∨ l = .streamError .joiner
  · exact h.givesUp hgives hstep
  obtain ⟨htimeout, herror⟩ := not_or.mp hgives
  rw [gaveUp_eq_nil htimeout herror, List.append_nil]
  cases l with
  | elapse d =>
      cases hstep
      exact ⟨h.committed, h.after, h.ack, h.answered, h.quiet, h.gone, h.unready⟩
  | connect side => exact h.connect hstep
  | write side => exact h.write hstep
  | read side => exact h.read hstep
  | timeout side =>
      cases side with
      | joiner => exact absurd rfl htimeout
      | host =>
          obtain ⟨next, hnext, rfl⟩ := Option.map_eq_some_iff.mp hstep
          exact h.hostFails (running_of_expire hnext)
  | streamError side =>
      cases side with
      | joiner => exact absurd rfl herror
      | host =>
          obtain ⟨next, hnext, rfl⟩ := Option.map_eq_some_iff.mp hstep
          exact h.hostFails (running_of_breakOff hnext)
  | handOver side alive => exact h.handOver hstep
  | bridgeWrite side data => exact h.bridgeWrite hstep

end Sound

theorem sound_of_trace {events : List Label} {s : SwapHandshake}
    (h : machine.Trace gaveUp events s) : Sound events s := by
  induction h with
  | init => exact .start
  | step _ hstep ih => exact ih.step hstep

/-- The joiner's handshake succeeds only after the host's; and a state in which one
bridge has the stream while the other side's handshake has failed is one in which
the host switched and the joiner had given up between its two bytes. -/
theorem disagree_iff {events : List Label} {s : SwapHandshake}
    (h : machine.Trace gaveUp events s) :
    (s.joiner.succeeded = true → s.host.succeeded = true) ∧
      (s.Disagree ↔ s.host = .handedOver ∧ events ≠ []) := by
  have hsound := sound_of_trace h
  refine ⟨hsound.after, ?_⟩
  constructor
  · rintro (⟨hhost, hjoiner⟩ | ⟨hjoiner, hhost⟩)
    · refine ⟨hhost, fun hnone => ?_⟩
      have hconnecting := (hsound.unready hjoiner hnone).1
      simp [hhost] at hconnecting
    · have hsucceeded := hsound.after (by simp [hjoiner, Handshake.succeeded])
      simp [hhost, Handshake.succeeded] at hsucceeded
  · rintro ⟨hhost, hgave⟩
    exact .inl ⟨hhost, hsound.gone hgave⟩

/-- Both handshakes up to the host's answer. -/
def answered : List Label :=
  [.connect .joiner, .write .joiner, .connect .host, .read .host, .write .host,
    .handOver .host true]

/-- A handshake in time: both bridges have the stream, and nobody disagrees. -/
theorem disagree_iff_inTime : ∃ s, machine.Trace gaveUp [] s ∧ s.host = .handedOver ∧
    s.joiner = .handedOver ∧ ¬s.Disagree := by
  let run := answered ++ [.read .joiner, .handOver .joiner true]
  have hrun : (machine.exec machine.init run).any (fun s =>
      decide (s.host = .handedOver ∧ s.joiner = .handedOver)) = true := by
    decide
  obtain ⟨s, hexec, _, htest⟩ := Machine.exists_reachable_of_exec hrun
  have htrace : machine.Trace gaveUp [] s := Machine.trace_of_exec hexec
  obtain ⟨hhost, hjoiner⟩ := of_decide_eq_true htest
  refine ⟨s, htrace, hhost, hjoiner, fun hdisagree => ?_⟩
  exact ((disagree_iff htrace).2.mp hdisagree).2 rfl

/-- The joiner's timer fires while `SWAP_ACK` is in flight. -/
theorem exists_disagree : ∃ s, machine.Reachable s ∧ s.Disagree := by
  let run := answered ++ [.elapse swapHandshakeTimeout, .timeout .joiner]
  have hrun : (machine.exec machine.init run).any (fun s =>
      decide (s.host = .handedOver ∧ s.joiner = .failed)) = true := by
    decide
  obtain ⟨s, _, hreach, htest⟩ := Machine.exists_reachable_of_exec hrun
  exact ⟨s, hreach, .inl (of_decide_eq_true htest)⟩

end SwapHandshake

end War3BattleTool.Client
