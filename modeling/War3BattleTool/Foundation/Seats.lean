import Mathlib.Data.List.Count
import War3BattleTool.Foundation.Machine
import War3BattleTool.Foundation.Tally

set_option autoImplicit false

/-!
# Seats and their counters

Rooms of limited capacity, whose occupancy is a number kept apart from the occupants.
The owner of a room takes one place of it.  A guest reserves a slot first, which the
counter includes at once, and is seated later; a guest that gives up its seat is counted
out later.  Between the two a slot is *pending*: it is counted, and somebody will seat or
release it.  A pending slot is *lost* when that somebody vanishes; the machine reports
the room.

The law of the counter: what it shows is the owner, the guests seated, the slots pending
and the slots lost, and it never exceeds the capacity.
-/

namespace War3BattleTool.Foundation

/-- The counter of an open room. -/
structure Counter where
  count : Nat
  capacity : Nat
  deriving DecidableEq

/-- Rooms, seated guests and pending slots.  `opened` are the rooms ever opened. -/
@[ext] structure Seats (ρ : Type) where
  opened : List ρ
  room : ρ → Option Counter
  seated : ρ → Nat
  pending : ρ → Nat

namespace Seats

variable {ρ : Type} [DecidableEq ρ]

/-- What can happen to a room. -/
inductive Move (ρ : Type) where
  | openRoom (r : ρ) (capacity : Nat)
  | closeRoom (r : ρ)
  /-- count a slot that is to be seated -/
  | reserve (r : ρ)
  | seat (r : ρ)
  | unseat (r : ρ)
  /-- count out a slot that was given up -/
  | release (r : ρ)
  | lose (r : ρ)

/-- No room was ever opened. -/
def empty : Seats ρ where
  opened := []
  room := fun _ => none
  seated := fun _ => 0
  pending := fun _ => 0

/-- A pending slot of `r` is settled. -/
def settle (s : Seats ρ) (r : ρ) : Seats ρ :=
  { s with pending := Function.update s.pending r (s.pending r - 1) }

/-- One step. -/
def step (s : Seats ρ) : Move ρ → Option (Seats ρ)
  | .openRoom r capacity =>
      if r ∈ s.opened ∨ capacity = 0 then none
      else
        some { s with
          opened := r :: s.opened
          room := Function.update s.room r (some ⟨1, capacity⟩) }
  | .closeRoom r => some { s with room := Function.update s.room r none }
  | .reserve r =>
      (s.room r).bind fun n =>
        if n.count < n.capacity then
          some { s with
            room := Function.update s.room r (some { n with count := n.count + 1 })
            pending := Function.update s.pending r (s.pending r + 1) }
        else none
  | .seat r =>
      if s.pending r = 0 then none
      else some { s.settle r with seated := Function.update s.seated r (s.seated r + 1) }
  | .unseat r =>
      if s.seated r = 0 then none
      else
        some { s with
          seated := Function.update s.seated r (s.seated r - 1)
          pending := Function.update s.pending r (s.pending r + 1) }
  | .release r =>
      if s.pending r = 0 then none
      else
        some { s.settle r with
          room := Function.update s.room r
            ((s.room r).map fun n => { n with count := n.count - 1 }) }
  | .lose r => if s.pending r = 0 then none else some (s.settle r)

/-- The rooms as a machine. -/
def machine : Machine (Seats ρ) (Move ρ) where
  init := empty
  step := step

/-- A slot that gets lost is reported. -/
def report (_ : Seats ρ) : Move ρ → List ρ
  | .lose r => [r]
  | _ => []

/-! ## The steps in terms of what they shift -/

section Steps

variable {s : Seats ρ} {seated pending : ρ → Nat} {r : ρ}

theorem step_reserve {n : Counter} (hn : s.room r = some n) (hfree : n.count < n.capacity)
    (hpending : Shifts s.pending pending none (some r)) :
    machine.step s (.reserve r) = some { s with
      room := Function.update s.room r (some { n with count := n.count + 1 })
      pending := pending } := by
  simp [machine, step, hn, hfree, hpending.gain]

theorem step_seat (hpending : Shifts s.pending pending (some r) none)
    (hseated : Shifts s.seated seated none (some r)) :
    machine.step s (.seat r) = some { s with seated := seated, pending := pending } := by
  obtain ⟨hpos, heq⟩ := hpending.loss
  simp [machine, step, hpos, heq, settle, hseated.gain]

theorem step_unseat (hseated : Shifts s.seated seated (some r) none)
    (hpending : Shifts s.pending pending none (some r)) :
    machine.step s (.unseat r) = some { s with seated := seated, pending := pending } := by
  obtain ⟨hpos, heq⟩ := hseated.loss
  simp [machine, step, hpos, heq, hpending.gain]

theorem step_release (hpending : Shifts s.pending pending (some r) none) :
    machine.step s (.release r) = some { s with
      room := Function.update s.room r ((s.room r).map fun n => { n with count := n.count - 1 })
      pending := pending } := by
  obtain ⟨hpos, heq⟩ := hpending.loss
  simp [machine, step, hpos, heq, settle]

theorem step_lose (hpending : Shifts s.pending pending (some r) none) :
    machine.step s (.lose r) = some { s with pending := pending } := by
  obtain ⟨hpos, heq⟩ := hpending.loss
  simp [machine, step, hpos, heq, settle]

end Steps

/-- The law of the counter, for the slots lost so far. -/
structure Sound (lost : List ρ) (s : Seats ρ) : Prop where
  fresh : ∀ {r}, r ∉ s.opened →
    s.room r = none ∧ s.seated r = 0 ∧ s.pending r = 0 ∧ lost.count r = 0
  count : ∀ {r n}, s.room r = some n →
    n.count = 1 + s.seated r + s.pending r + lost.count r
  le : ∀ {r n}, s.room r = some n → n.count ≤ n.capacity

variable {s s' : Seats ρ} {lost : List ρ} {m : Move ρ}

/-- A slot pending or seated belongs to a room that was opened. -/
theorem Sound.opened (hs : s.Sound lost) {r : ρ}
    (h : 0 < s.seated r + s.pending r) : r ∈ s.opened := by
  by_contra hfresh
  have := hs.fresh hfresh
  omega

/-- The law is kept when the seats of one room change and the law holds there. -/
theorem Sound.update (hs : s.Sound lost) {r : ρ} {lost' : List ρ} (hr : r ∈ s'.opened)
    (hopened : ∀ r' ≠ r, r' ∈ s.opened → r' ∈ s'.opened)
    (hother : ∀ r' ≠ r, s'.room r' = s.room r' ∧ s'.seated r' = s.seated r' ∧
      s'.pending r' = s.pending r' ∧ lost'.count r' = lost.count r')
    (hcount : ∀ n, s'.room r = some n →
      n.count = 1 + s'.seated r + s'.pending r + lost'.count r ∧ n.count ≤ n.capacity) :
    s'.Sound lost' where
  fresh := by
    intro r' hfresh
    have hne : r' ≠ r := by
      rintro rfl
      exact hfresh hr
    obtain ⟨hroom, hseated, hpending, hlost⟩ := hother r' hne
    rw [hroom, hseated, hpending, hlost]
    exact hs.fresh fun hmem => hfresh (hopened r' hne hmem)
  count := by
    intro r' n hn
    by_cases hne : r' = r
    · subst hne
      exact (hcount n hn).1
    · obtain ⟨hroom, hseated, hpending, hlost⟩ := hother r' hne
      rw [hseated, hpending, hlost]
      exact hs.count (hroom ▸ hn)
  le := by
    intro r' n hn
    by_cases hne : r' = r
    · subst hne
      exact (hcount n hn).2
    · exact hs.le ((hother r' hne).1 ▸ hn)

/-- A room is opened by its owner. -/
theorem Sound.openRoom (hs : s.Sound lost) {r : ρ} {capacity : Nat} (hfresh : r ∉ s.opened)
    (hcap : capacity ≠ 0) :
    Sound lost { s with
      opened := r :: s.opened
      room := Function.update s.room r (some ⟨1, capacity⟩) } := by
  obtain ⟨_, hseated, hpending, hlost⟩ := hs.fresh hfresh
  refine hs.update (r := r) (by simp) (by simp_all) ?_ ?_
  · intro r' hne
    simp [Function.update_of_ne hne]
  · intro n hn
    obtain rfl : Counter.mk 1 capacity = n := by simpa using hn
    dsimp only
    omega

/-- A room is closed, whatever its seats are. -/
theorem Sound.closeRoom (hs : s.Sound lost) (r : ρ) :
    Sound lost { s with room := Function.update s.room r none } where
  fresh := by
    intro r' hfresh
    obtain ⟨hroom, hrest⟩ := hs.fresh hfresh
    refine ⟨?_, hrest⟩
    by_cases hne : r' = r
    · simp [hne]
    · simp [Function.update_of_ne hne, hroom]
  count := by
    intro r' n hn
    by_cases hne : r' = r
    · simp [hne] at hn
    · simp only [Function.update_of_ne hne] at hn
      exact hs.count hn
  le := by
    intro r' n hn
    by_cases hne : r' = r
    · simp [hne] at hn
    · simp only [Function.update_of_ne hne] at hn
      exact hs.le hn

/-- A free slot is counted, and pending. -/
theorem Sound.reserve (hs : s.Sound lost) {r : ρ} {n : Counter} (hn : s.room r = some n)
    (hfree : n.count < n.capacity) :
    Sound lost { s with
      room := Function.update s.room r (some { n with count := n.count + 1 })
      pending := Function.update s.pending r (s.pending r + 1) } := by
  have hopened : r ∈ s.opened := by
    by_contra hfresh
    simp [(hs.fresh hfresh).1] at hn
  have hcount := hs.count hn
  refine hs.update (r := r) hopened (by simp) ?_ ?_
  · intro r' hne
    simp [Function.update_of_ne hne]
  · intro n' hn'
    obtain rfl : Counter.mk (n.count + 1) n.capacity = n' := by simpa using hn'
    simp only [Function.update_self]
    omega

/-- A pending slot is taken. -/
theorem Sound.seat (hs : s.Sound lost) {r : ρ} (hpending : s.pending r ≠ 0) :
    Sound lost
      { s.settle r with seated := Function.update s.seated r (s.seated r + 1) } := by
  refine hs.update (r := r) (hs.opened (by omega)) (by simp [settle]) ?_ ?_
  · intro r' hne
    simp [settle, Function.update_of_ne hne]
  · intro n hn
    have hcount := hs.count hn
    have hle := hs.le hn
    simp only [settle, Function.update_self]
    omega

/-- A seat is given up, and its slot is pending again. -/
theorem Sound.unseat (hs : s.Sound lost) {r : ρ} (hseated : s.seated r ≠ 0) :
    Sound lost { s with
      seated := Function.update s.seated r (s.seated r - 1)
      pending := Function.update s.pending r (s.pending r + 1) } := by
  refine hs.update (r := r) (hs.opened (by omega)) (by simp) ?_ ?_
  · intro r' hne
    simp [Function.update_of_ne hne]
  · intro n hn
    have hcount := hs.count hn
    have hle := hs.le hn
    simp only [Function.update_self]
    omega

/-- A pending slot is counted out, if its room is still open. -/
theorem Sound.release (hs : s.Sound lost) {r : ρ} (hpending : s.pending r ≠ 0) :
    Sound lost
      { s.settle r with
        room := Function.update s.room r
          ((s.room r).map fun n => { n with count := n.count - 1 }) } := by
  refine hs.update (r := r) (hs.opened (by omega)) (by simp [settle]) ?_ ?_
  · intro r' hne
    simp [settle, Function.update_of_ne hne]
  · intro n' hn'
    simp only [Function.update_self] at hn'
    obtain ⟨n, hn, rfl⟩ := Option.map_eq_some_iff.mp hn'
    have hcount := hs.count hn
    have hle := hs.le hn
    simp only [settle, Function.update_self]
    omega

/-- A pending slot is lost, and stays counted. -/
theorem Sound.lose (hs : s.Sound lost) {r : ρ} (hpending : s.pending r ≠ 0) :
    Sound (lost ++ [r]) (s.settle r) := by
  refine hs.update (r := r) (hs.opened (by omega)) (by simp [settle]) ?_ ?_
  · intro r' hne
    simp [settle, Function.update_of_ne hne, List.count_append, Ne.symm hne]
  · intro n hn
    have hcount := hs.count hn
    have hle := hs.le hn
    simp only [settle, Function.update_self, List.count_append, List.count_singleton_self]
    omega

/-- Every step keeps the law. -/
theorem Sound.step (hs : s.Sound lost) (h : s.step m = some s') :
    s'.Sound (lost ++ report s m) := by
  have hunreported : s'.Sound lost → s'.Sound (lost ++ []) := by
    rw [List.append_nil]
    exact id
  cases m with
  | openRoom r capacity =>
      obtain ⟨hguard, h⟩ := Option.ite_none_left_eq_some.mp h
      obtain ⟨hfresh, hcap⟩ := not_or.mp hguard
      cases h
      exact hunreported (hs.openRoom hfresh hcap)
  | closeRoom r =>
      cases h
      exact hunreported (hs.closeRoom r)
  | reserve r =>
      obtain ⟨n, hn, h⟩ := Option.bind_eq_some_iff.mp h
      obtain ⟨hfree, h⟩ := Option.ite_none_right_eq_some.mp h
      cases h
      exact hunreported (hs.reserve hn hfree)
  | seat r =>
      obtain ⟨hpending, h⟩ := Option.ite_none_left_eq_some.mp h
      cases h
      exact hunreported (hs.seat hpending)
  | unseat r =>
      obtain ⟨hseated, h⟩ := Option.ite_none_left_eq_some.mp h
      cases h
      exact hunreported (hs.unseat hseated)
  | release r =>
      obtain ⟨hpending, h⟩ := Option.ite_none_left_eq_some.mp h
      cases h
      exact hunreported (hs.release hpending)
  | lose r =>
      obtain ⟨hpending, h⟩ := Option.ite_none_left_eq_some.mp h
      cases h
      exact hs.lose hpending

/-- The law holds in every state a run reaches. -/
theorem sound_of_trace (h : machine.Trace report lost s) : s.Sound lost := by
  refine h.invariant ?_ ?_
  · constructor <;> simp [machine, empty]
  · intro lost s l s' _ hs hstep
    exact hs.step hstep

/-! ## What the law says about an open room -/

namespace Sound

variable {r : ρ} {n : Counter}

/-- Nobody is admitted over the capacity, and everybody seated is counted. -/
theorem seated_le (hs : s.Sound lost) (hn : s.room r = some n) :
    1 + s.seated r ≤ n.count ∧ n.count ≤ n.capacity := by
  have hcount := hs.count hn
  exact ⟨by omega, hs.le hn⟩

/-- Once nothing is pending, the counter is exact unless a slot was lost. -/
theorem exact_iff (hs : s.Sound lost) (hn : s.room r = some n) (hpending : s.pending r = 0) :
    n.count = 1 + s.seated r ↔ r ∉ lost := by
  have hcount := hs.count hn
  rw [← List.count_eq_zero]
  omega

end Sound

end Seats

end War3BattleTool.Foundation
