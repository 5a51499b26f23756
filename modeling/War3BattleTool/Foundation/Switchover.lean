import War3BattleTool.Foundation.Machine

set_option autoImplicit false

/-!
# A stream that moves from one channel to another

A sender takes in a stream and sends it over an old channel; at some time it
leaves that channel, holds what it takes in, and continues on a new channel.  A
receiver puts out what arrives on the old channel, keeps what arrives on the new
one in a buffer, and at some time switches: it puts out the buffer, reads the new
channel and no longer the old one.  Both channels deliver in order and lose
nothing, and each party moves at its own time.

* `Sound`: what was put out is a prefix of what went into the old channel,
  followed by a prefix of what went into the new one.
* `isPrefix_of_reachable`: what was put out is a prefix of what was taken in, as
  long as the receiver switches only once the sender has left the old channel and
  the old channel is empty.
-/

namespace War3BattleTool.Foundation

/-- Where the sender of a stream stands. -/
inductive Sender where
  /-- it sends over the old channel -/
  | old
  /-- it has left the old channel and holds what it takes in -/
  | holding
  /-- it sends over the new channel -/
  | new
  | stopped
  deriving DecidableEq

/-- Where the receiver of a stream stands. -/
inductive Receiver where
  /-- it reads the old channel, and buffers what the new one brings -/
  | old
  /-- it reads the new channel -/
  | new
  | stopped
  deriving DecidableEq

/-- A stream of `α` over two channels.  `input` is what the sender took in, `output`
what the receiver put out; `old` and `new` are in flight. -/
structure Switchover (α : Type) where
  sender : Sender
  receiver : Receiver
  input : List α
  held : List α
  old : List α
  new : List α
  buffer : List α
  output : List α

namespace Switchover

variable {α : Type}

/-- Nothing taken in, nothing sent. -/
def empty : Switchover α where
  sender := .old
  receiver := .old
  input := []
  held := []
  old := []
  new := []
  buffer := []
  output := []

/-- The moves of either party.  `recvOld`, `bufferNew` and `recvNew` take the first
`n` elements of a channel. -/
inductive Move (α : Type) where
  | sendOld (xs : List α)
  | leaveOld
  | hold (xs : List α)
  | flush
  | sendNew (xs : List α)
  | stopSender
  | recvOld (n : Nat)
  | bufferNew (n : Nat)
  | switch
  | recvNew (n : Nat)
  | stopReceiver
  | idle

/-- One move. -/
def step (b : Switchover α) : Move α → Option (Switchover α)
  | .sendOld xs =>
      if b.sender = .old then some { b with input := b.input ++ xs, old := b.old ++ xs }
      else none
  | .leaveOld => if b.sender = .old then some { b with sender := .holding } else none
  | .hold xs =>
      if b.sender = .holding then
        some { b with input := b.input ++ xs, held := b.held ++ xs }
      else none
  | .flush =>
      if b.sender = .holding then
        some { b with sender := .new, new := b.new ++ b.held, held := [] }
      else none
  | .sendNew xs =>
      if b.sender = .new then some { b with input := b.input ++ xs, new := b.new ++ xs }
      else none
  | .stopSender => some { b with sender := .stopped, held := [] }
  | .recvOld n =>
      if b.receiver = .old then
        some { b with output := b.output ++ b.old.take n, old := b.old.drop n }
      else none
  | .bufferNew n =>
      if b.receiver = .old then
        some { b with buffer := b.buffer ++ b.new.take n, new := b.new.drop n }
      else none
  | .switch =>
      if b.receiver = .old then
        some { b with receiver := .new, output := b.output ++ b.buffer, buffer := [] }
      else none
  | .recvNew n =>
      if b.receiver = .new then
        some { b with output := b.output ++ b.new.take n, new := b.new.drop n }
      else none
  | .stopReceiver => some { b with receiver := .stopped, buffer := [] }
  | .idle => some b

/-- The moves with what has to hold for them. -/
inductive Step (b : Switchover α) : Move α → Switchover α → Prop
  | sendOld (xs : List α) (hsender : b.sender = .old) :
      Step b (.sendOld xs) { b with input := b.input ++ xs, old := b.old ++ xs }
  | leaveOld (hsender : b.sender = .old) : Step b .leaveOld { b with sender := .holding }
  | hold (xs : List α) (hsender : b.sender = .holding) :
      Step b (.hold xs) { b with input := b.input ++ xs, held := b.held ++ xs }
  | flush (hsender : b.sender = .holding) :
      Step b .flush { b with sender := .new, new := b.new ++ b.held, held := [] }
  | sendNew (xs : List α) (hsender : b.sender = .new) :
      Step b (.sendNew xs) { b with input := b.input ++ xs, new := b.new ++ xs }
  | stopSender : Step b .stopSender { b with sender := .stopped, held := [] }
  | recvOld (n : Nat) (hreceiver : b.receiver = .old) :
      Step b (.recvOld n) { b with output := b.output ++ b.old.take n, old := b.old.drop n }
  | bufferNew (n : Nat) (hreceiver : b.receiver = .old) :
      Step b (.bufferNew n) { b with buffer := b.buffer ++ b.new.take n, new := b.new.drop n }
  | switch (hreceiver : b.receiver = .old) :
      Step b .switch { b with receiver := .new, output := b.output ++ b.buffer, buffer := [] }
  | recvNew (n : Nat) (hreceiver : b.receiver = .new) :
      Step b (.recvNew n) { b with output := b.output ++ b.new.take n, new := b.new.drop n }
  | stopReceiver : Step b .stopReceiver { b with receiver := .stopped, buffer := [] }
  | idle : Step b .idle b

theorem Step.of_step {b b' : Switchover α} {m : Move α} (h : b.step m = some b') :
    Step b m b' := by
  cases m <;>
    simp only [Switchover.step, Option.ite_none_right_eq_some, Option.some.injEq] at h
  case stopSender | stopReceiver | idle =>
    subst h
    constructor
  all_goals
    obtain ⟨hguard, rfl⟩ := h
    constructor
    exact hguard

/-- The switchover as a machine. -/
def machine : Machine (Switchover α) (Move α) where
  init := empty
  step := step

/-- Where the elements of a stream are: what was put out came first over the old
channel, `fromOld`, and then over the new one, `fromNew`; `lost` is what a sender
that stopped was holding. -/
structure Flow (b : Switchover α) (fromOld fromNew lost : List α) : Prop where
  output : b.output = fromOld ++ fromNew
  input : b.input = fromOld ++ b.old ++ (fromNew ++ b.buffer ++ b.new ++ b.held) ++ lost
  lost : b.sender ≠ .stopped → lost = []
  waits : b.receiver = .old → fromNew = []
  quiet : b.sender = .old → fromNew ++ b.buffer ++ b.new = []

/-- What holds of a stream in every run. -/
structure Sound (b : Switchover α) : Prop where
  flow : b.receiver ≠ .stopped → ∃ fromOld fromNew lost, b.Flow fromOld fromNew lost
  /-- only a sender between the channels holds anything -/
  held : b.sender ≠ .holding → b.held = []
  /-- only a receiver of the old channel keeps a buffer -/
  buffer : b.receiver ≠ .old → b.buffer = []

theorem Sound.empty : Sound (empty : Switchover α) where
  flow := fun _ => ⟨[], [], [], rfl, rfl, fun _ => rfl, fun _ => rfl, fun _ => rfl⟩
  held := fun _ => rfl
  buffer := fun _ => rfl

section Step

variable {b b' : Switchover α}

/-! The moves of the sender. -/

theorem Sound.sendOld (h : Sound b) (hsender : b.sender = .old) (xs : List α) :
    Sound { b with input := b.input ++ xs, old := b.old ++ xs } := by
  have hheld : b.held = [] := h.held (by simp [hsender])
  refine ⟨fun hruns => ?_, h.held, h.buffer⟩
  obtain ⟨fromOld, fromNew, lost, hflow⟩ := h.flow hruns
  have hquiet := hflow.quiet hsender
  have hlost : lost = [] := hflow.lost (by simp [hsender])
  refine ⟨fromOld, fromNew, [], hflow.output, ?_, fun _ => rfl, hflow.waits, hflow.quiet⟩
  simp [hflow.input, hquiet, hheld, hlost]

theorem Sound.leaveOld (h : Sound b) (hsender : b.sender = .old) :
    Sound { b with sender := .holding } := by
  refine ⟨fun hruns => ?_, by simp, h.buffer⟩
  obtain ⟨fromOld, fromNew, lost, hflow⟩ := h.flow hruns
  have hlost : lost = [] := hflow.lost (by simp [hsender])
  exact ⟨fromOld, fromNew, lost, hflow.output, hflow.input, fun _ => hlost, hflow.waits, by simp⟩

theorem Sound.hold (h : Sound b) (hsender : b.sender = .holding) (xs : List α) :
    Sound { b with input := b.input ++ xs, held := b.held ++ xs } := by
  refine ⟨fun hruns => ?_, by simp [hsender], h.buffer⟩
  obtain ⟨fromOld, fromNew, lost, hflow⟩ := h.flow hruns
  have hlost : lost = [] := hflow.lost (by simp [hsender])
  refine ⟨fromOld, fromNew, [], hflow.output, ?_, fun _ => rfl, hflow.waits, by simp [hsender]⟩
  simp [hflow.input, hlost]

theorem Sound.flush (h : Sound b) (hsender : b.sender = .holding) :
    Sound { b with sender := .new, new := b.new ++ b.held, held := [] } := by
  refine ⟨fun hruns => ?_, by simp, h.buffer⟩
  obtain ⟨fromOld, fromNew, lost, hflow⟩ := h.flow hruns
  have hlost : lost = [] := hflow.lost (by simp [hsender])
  refine ⟨fromOld, fromNew, [], hflow.output, ?_, fun _ => rfl, hflow.waits, by simp⟩
  simp [hflow.input, hlost]

theorem Sound.sendNew (h : Sound b) (hsender : b.sender = .new) (xs : List α) :
    Sound { b with input := b.input ++ xs, new := b.new ++ xs } := by
  have hheld : b.held = [] := h.held (by simp [hsender])
  refine ⟨fun hruns => ?_, fun _ => hheld, h.buffer⟩
  obtain ⟨fromOld, fromNew, lost, hflow⟩ := h.flow hruns
  have hlost : lost = [] := hflow.lost (by simp [hsender])
  refine ⟨fromOld, fromNew, [], hflow.output, ?_, fun _ => rfl, hflow.waits, by simp [hsender]⟩
  simp [hflow.input, hheld, hlost]

theorem Sound.stopSender (h : Sound b) : Sound { b with sender := .stopped, held := [] } := by
  refine ⟨fun hruns => ?_, fun _ => rfl, h.buffer⟩
  obtain ⟨fromOld, fromNew, lost, hflow⟩ := h.flow hruns
  refine ⟨fromOld, fromNew, b.held ++ lost, hflow.output, ?_, by simp, hflow.waits, by simp⟩
  simp [hflow.input]

/-! The moves of the receiver. -/

theorem Sound.recvOld (h : Sound b) (hreceiver : b.receiver = .old) (n : Nat) :
    Sound { b with output := b.output ++ b.old.take n, old := b.old.drop n } := by
  refine ⟨fun hruns => ?_, h.held, h.buffer⟩
  obtain ⟨fromOld, fromNew, lost, hflow⟩ := h.flow hruns
  obtain rfl := hflow.waits hreceiver
  refine ⟨fromOld ++ b.old.take n, [], lost, ?_, ?_, hflow.lost, fun _ => rfl, hflow.quiet⟩
  · simp [hflow.output]
  · have hsplit := List.take_append_drop n b.old
    calc b.input
        = fromOld ++ b.old ++ ([] ++ b.buffer ++ b.new ++ b.held) ++ lost := hflow.input
      _ = fromOld ++ (b.old.take n ++ b.old.drop n) ++
            ([] ++ b.buffer ++ b.new ++ b.held) ++ lost := by rw [hsplit]
      _ = _ := by simp

theorem Sound.bufferNew (h : Sound b) (hreceiver : b.receiver = .old) (n : Nat) :
    Sound { b with buffer := b.buffer ++ b.new.take n, new := b.new.drop n } := by
  refine ⟨fun hruns => ?_, h.held, by simp [hreceiver]⟩
  obtain ⟨fromOld, fromNew, lost, hflow⟩ := h.flow hruns
  have hsplit := List.take_append_drop n b.new
  refine ⟨fromOld, fromNew, lost, hflow.output, ?_, hflow.lost, hflow.waits, ?_⟩
  · calc b.input
        = fromOld ++ b.old ++ (fromNew ++ b.buffer ++ b.new ++ b.held) ++ lost := hflow.input
      _ = fromOld ++ b.old ++ (fromNew ++ b.buffer ++ (b.new.take n ++ b.new.drop n) ++
            b.held) ++ lost := by rw [hsplit]
      _ = _ := by simp
  · intro hsender
    have hquiet := hflow.quiet hsender
    rw [← hsplit] at hquiet
    simpa using hquiet

theorem Sound.switch (h : Sound b) (hreceiver : b.receiver = .old) :
    Sound { b with receiver := .new, output := b.output ++ b.buffer, buffer := [] } := by
  refine ⟨fun _ => ?_, h.held, fun _ => rfl⟩
  obtain ⟨fromOld, fromNew, lost, hflow⟩ := h.flow (by simp [hreceiver])
  obtain rfl := hflow.waits hreceiver
  refine ⟨fromOld, b.buffer, lost, ?_, ?_, hflow.lost, by simp, ?_⟩
  · simp [hflow.output]
  · simp [hflow.input]
  · intro hsender
    simpa using hflow.quiet hsender

theorem Sound.recvNew (h : Sound b) (hreceiver : b.receiver = .new) (n : Nat) :
    Sound { b with output := b.output ++ b.new.take n, new := b.new.drop n } := by
  have hbuffer : b.buffer = [] := h.buffer (by simp [hreceiver])
  refine ⟨fun hruns => ?_, h.held, h.buffer⟩
  obtain ⟨fromOld, fromNew, lost, hflow⟩ := h.flow hruns
  have hsplit := List.take_append_drop n b.new
  refine ⟨fromOld, fromNew ++ b.new.take n, lost, ?_, ?_, hflow.lost, by simp [hreceiver], ?_⟩
  · simp [hflow.output]
  · calc b.input
        = fromOld ++ b.old ++ (fromNew ++ b.buffer ++ b.new ++ b.held) ++ lost := hflow.input
      _ = fromOld ++ b.old ++ (fromNew ++ b.buffer ++ (b.new.take n ++ b.new.drop n) ++
            b.held) ++ lost := by rw [hsplit]
      _ = _ := by simp [hbuffer]
  · intro hsender
    have hquiet := hflow.quiet hsender
    rw [← hsplit] at hquiet
    simpa [hbuffer] using hquiet

theorem Sound.stopReceiver (h : Sound b) : Sound { b with receiver := .stopped, buffer := [] } :=
  ⟨by simp, h.held, fun _ => rfl⟩

/-- Every move of either party keeps the stream sound. -/
theorem Sound.step {m : Move α} (h : Sound b) (hstep : b.step m = some b') : Sound b' := by
  cases Step.of_step hstep with
  | sendOld xs hsender => exact h.sendOld hsender xs
  | leaveOld hsender => exact h.leaveOld hsender
  | hold xs hsender => exact h.hold hsender xs
  | flush hsender => exact h.flush hsender
  | sendNew xs hsender => exact h.sendNew hsender xs
  | stopSender => exact h.stopSender
  | recvOld n hreceiver => exact h.recvOld hreceiver n
  | bufferNew n hreceiver => exact h.bufferNew hreceiver n
  | switch hreceiver => exact h.switch hreceiver
  | recvNew n hreceiver => exact h.recvNew hreceiver n
  | stopReceiver => exact h.stopReceiver
  | idle => exact h

end Step

theorem sound_of_reachable {b : Switchover α} (h : machine.Reachable b) : Sound b := by
  induction h with
  | init => exact .empty
  | step _ hstep ih => exact ih.step hstep

/-! ## The stream that arrives -/

/-- The receiver leaves the old channel only once the sender has left it too and
nothing is in flight there. -/
def drained (b : Switchover α) : Move α → Prop
  | .switch => b.sender ≠ .old ∧ b.old = []
  | _ => True

/-- A receiver that reads the new channel has missed nothing. -/
structure Complete (b : Switchover α) : Prop where
  arrived : b.output <+: b.input
  left : b.receiver = .new → b.sender ≠ .old ∧ b.old = []

/-- What a sound stream has put out is a prefix of what was taken in, if the old
channel is read or has nothing left. -/
theorem Sound.isPrefix {b : Switchover α} (h : Sound b) (hruns : b.receiver ≠ .stopped)
    (hread : b.receiver = .old ∨ b.old = []) : b.output <+: b.input := by
  obtain ⟨fromOld, fromNew, lost, hflow⟩ := h.flow hruns
  rw [hflow.output, hflow.input]
  obtain hold | hempty := hread
  · obtain rfl := hflow.waits hold
    simp
  · simp [hempty]

section Complete

variable {b b' : Switchover α} {m : Move α}

/-- The sender forgets nothing it took in. -/
theorem input_step (hstep : b.step m = some b') : b.input <+: b'.input := by
  cases Step.of_step hstep with
  | sendOld xs | hold xs | sendNew xs => exact List.prefix_append b.input xs
  | _ => exact List.prefix_rfl

/-- A receiver that has stopped puts nothing out. -/
theorem output_step (hstep : b.step m = some b') (hstopped : b'.receiver = .stopped) :
    b'.output = b.output := by
  cases Step.of_step hstep with
  | recvOld _ hreceiver | recvNew _ hreceiver => cases hreceiver.symm.trans hstopped
  | switch => cases hstopped
  | _ => rfl

/-- A receiver of the new channel never goes back to the old one, and neither does its
sender. -/
theorem left_step (hok : drained b m) (hleft : b.receiver = .new → b.sender ≠ .old ∧ b.old = [])
    (hstep : b.step m = some b') (hnew : b'.receiver = .new) :
    b'.sender ≠ .old ∧ b'.old = [] := by
  cases Step.of_step hstep with
  | sendOld _ hsender | leaveOld hsender => exact absurd hsender (hleft hnew).1
  | flush | stopSender => exact ⟨nofun, (hleft hnew).2⟩
  | recvOld _ hreceiver => cases hreceiver.symm.trans hnew
  | switch => exact hok
  | stopReceiver => cases hnew
  | hold | sendNew | bufferNew | recvNew | idle => exact hleft hnew

theorem Complete.step (h : Sound b) (hcomplete : Complete b) (hok : drained b m)
    (hstep : b.step m = some b') : Complete b' := by
  have hleft : b'.receiver = .new → b'.sender ≠ .old ∧ b'.old = [] :=
    left_step hok hcomplete.left hstep
  refine ⟨?_, hleft⟩
  cases hreceiver : b'.receiver with
  | old => exact (h.step hstep).isPrefix (by simp [hreceiver]) (.inl hreceiver)
  | new => exact (h.step hstep).isPrefix (by simp [hreceiver]) (.inr (hleft hreceiver).2)
  | stopped =>
      rw [output_step hstep hreceiver]
      exact hcomplete.arrived.trans (input_step hstep)

end Complete

/-- As long as the receiver drains the old channel before it leaves it, what it puts out
is a prefix of what the sender took in. -/
theorem isPrefix_of_reachable [∀ (b : Switchover α) m, Decidable (drained b m)]
    {b : Switchover α} (h : (machine.restrict drained).Reachable b) : b.output <+: b.input := by
  have hcomplete : Complete b := by
    induction h with
    | init => exact ⟨List.prefix_rfl, fun hnew => by cases hnew⟩
    | step hreach hstep ih =>
        obtain ⟨hok, hstep⟩ := Machine.restrict_step.mp hstep
        exact ih.step (sound_of_reachable hreach.of_restrict) hok hstep
  exact hcomplete.arrived

end Switchover

end War3BattleTool.Foundation
