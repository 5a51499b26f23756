import War3BattleTool.Foundation.Net

set_option autoImplicit false

/-!
# Tables that are swept

A table holds entries with deadlines, and a sweeper comes by once a period: it looks which
entries are overdue, and then takes them out one by one, while others go on to put entries in and
to put deadlines off.  If time passes only between sweeps, and never past the next one, no entry
is overdue by more than a period (`InTime.bound`).
-/

namespace War3BattleTool.Foundation

/-- Where the sweeper stands: between two sweeps, ahead of its look at the table, or behind it,
with the keys that it is about to remove. -/
inductive SweepPhase (κ : Type) where
  | rest
  | ahead
  | removing (found : List κ)

/-- The deadlines of a table, and its sweeper. -/
structure Sweep (κ : Type) where
  now : Instant
  nextTick : Instant
  due : κ → Option Instant
  phase : SweepPhase κ

namespace Sweep

variable {κ : Type} {s s' : Sweep κ} {period : Duration}

/-- Every entry of the new table was in the old one, with no later deadline, or is not due yet. -/
def Renews (s s' : Sweep κ) : Prop :=
  ∀ k d', s'.due k = some d' → (∃ d, s.due k = some d ∧ d ≤ d') ∨ s.now ≤ d'

/-- Every entry of the new table was in the old one. -/
def Shrinks (s s' : Sweep κ) : Prop := ∀ k d, s'.due k = some d → s.due k = some d

/-- The clock and the next sweep stay. -/
def SameTimes (s s' : Sweep κ) : Prop := s'.now = s.now ∧ s'.nextTick = s.nextTick

/-- What can happen. -/
inductive Step (period : Duration) (s s' : Sweep κ) : Prop
  | renews (htimes : SameTimes s s') (hdue : Renews s s') (hphase : s'.phase = s.phase)
  | elapses (hrest : s.phase = .rest) (hphase : s'.phase = .rest) (hdue : s'.due = s.due)
      (hnow : s'.now ≤ s.nextTick) (htick : s'.nextTick = s.nextTick) (hle : s.now ≤ s'.now)
  | ticks (hrest : s.phase = .rest) (hphase : s'.phase = .ahead) (hdue : s'.due = s.due)
      (hlate : s.nextTick ≤ s.now) (hnow : s'.now = s.now)
      (htick : s'.nextTick = s.nextTick + period)
  | looks (found : List κ) (hahead : s.phase = .ahead) (hphase : s'.phase = .removing found)
      (htimes : SameTimes s s') (hdue : Shrinks s s')
      (hfound : ∀ k d, s'.due k = some d → k ∈ found ∨ s.now ≤ d)
  | removes (found found' : List κ) (hfrom : s.phase = .removing found)
      (hphase : s'.phase = .removing found') (htimes : SameTimes s s') (hdue : Shrinks s s')
      (hgone : ∀ k ∈ found, k ∈ found' ∨ s'.due k = none)
  | ends (hfrom : s.phase = .removing []) (hphase : s'.phase = .rest) (htimes : SameTimes s s')
      (hdue : s'.due = s.due)

/-- No entry is overdue by more than a period, and none but those that the sweeper has found was
overdue when it came by. -/
structure InTime (period : Duration) (s : Sweep κ) : Prop where
  early : s.now ≤ s.nextTick
  tick : s.nextTick ≤ s.now + period
  bound : ∀ k d, s.due k = some d → s.now ≤ d + period
  swept : s.phase = .rest → ∀ k d, s.due k = some d → s.nextTick ≤ d + period
  found : ∀ found, s.phase = .removing found → ∀ k d, s.due k = some d → k ∈ found ∨ s.now ≤ d

theorem InTime.renews (h : InTime period s) (htimes : SameTimes s s') (hdue : Renews s s')
    (hphase : s'.phase = s.phase) : InTime period s' := by
  obtain ⟨hnow, htick⟩ := htimes
  refine ⟨by rw [hnow, htick]; exact h.early, by rw [hnow, htick]; exact h.tick, ?_, ?_, ?_⟩
  · intro k d' hd'
    rw [hnow]
    obtain ⟨d, hd, hle⟩ | hle := hdue k d' hd'
    · exact (h.bound k d hd).trans (Nat.add_le_add_right hle period)
    · exact hle.trans (Nat.le_add_right d' period)
  · intro hrest k d' hd'
    rw [htick]
    obtain ⟨d, hd, hle⟩ | hle := hdue k d' hd'
    · exact (h.swept (hphase ▸ hrest) k d hd).trans (Nat.add_le_add_right hle period)
    · exact h.tick.trans (Nat.add_le_add_right hle period)
  · intro found hfound k d' hd'
    rw [hnow]
    obtain ⟨d, hd, hle⟩ | hle := hdue k d' hd'
    · exact (h.found found (hphase ▸ hfound) k d hd).imp_right fun hlate => hlate.trans hle
    · exact .inr hle

/-- Nothing changes. -/
theorem InTime.same (h : InTime period s) (htimes : SameTimes s s') (hdue : s'.due = s.due)
    (hphase : s'.phase = s.phase) : InTime period s' :=
  h.renews htimes (fun _ d' hd' => .inl ⟨d', hdue ▸ hd', Nat.le_refl d'⟩) hphase

/-- The table shrinks while the sweeper is behind its look. -/
theorem InTime.sweeps (h : InTime period s) {found : List κ} (hphase : s'.phase = .removing found)
    (htimes : SameTimes s s') (hdue : Shrinks s s')
    (hfound : ∀ k d, s'.due k = some d → k ∈ found ∨ s.now ≤ d) : InTime period s' := by
  obtain ⟨hnow, htick⟩ := htimes
  refine ⟨by rw [hnow, htick]; exact h.early, by rw [hnow, htick]; exact h.tick, ?_, ?_, ?_⟩
  · intro k d hd
    rw [hnow]
    exact h.bound k d (hdue k d hd)
  · intro hrest
    cases hphase.symm.trans hrest
  · intro found' hfound' k d hd
    obtain rfl : found = found' := SweepPhase.removing.inj (hphase.symm.trans hfound')
    rw [hnow]
    exact hfound k d hd

/-- Every step keeps the entries in time. -/
theorem InTime.step (h : InTime period s) (hstep : Step period s s') : InTime period s' := by
  cases hstep with
  | renews htimes hdue hphase => exact h.renews htimes hdue hphase
  | elapses hrest hphase hdue hnow htick hle =>
      refine ⟨htick ▸ hnow, ?_, ?_, ?_, ?_⟩
      · rw [htick]
        exact h.tick.trans (Nat.add_le_add_right hle period)
      · intro k d hd
        exact hnow.trans (h.swept hrest k d (hdue ▸ hd))
      · intro _ k d hd
        rw [htick]
        exact h.swept hrest k d (hdue ▸ hd)
      · intro found hfound
        cases hphase.symm.trans hfound
  | ticks hrest hphase hdue hlate hnow htick =>
      refine ⟨?_, ?_, ?_, ?_, ?_⟩
      · rw [htick, hnow]
        exact h.early.trans (Nat.le_add_right _ period)
      · rw [htick, hnow]
        exact Nat.add_le_add_right hlate period
      · intro k d hd
        rw [hnow]
        exact h.bound k d (hdue ▸ hd)
      · intro hrest'
        cases hphase.symm.trans hrest'
      · intro found hfound
        cases hphase.symm.trans hfound
  | looks found _ hphase htimes hdue hfound => exact h.sweeps hphase htimes hdue hfound
  | removes found found' hfrom hphase htimes hdue hgone =>
      refine h.sweeps hphase htimes hdue fun k d hd => ?_
      refine (h.found found hfrom k d (hdue k d hd)).imp_left fun hmem => ?_
      refine (hgone k hmem).resolve_right fun hnone => ?_
      cases hnone.symm.trans hd
  | ends hfrom hphase htimes hdue =>
      obtain ⟨hnow, htick⟩ := htimes
      refine ⟨by rw [hnow, htick]; exact h.early, by rw [hnow, htick]; exact h.tick, ?_, ?_, ?_⟩
      · intro k d hd
        rw [hnow]
        exact h.bound k d (hdue ▸ hd)
      · intro _ k d hd
        rw [htick]
        have hlate := (h.found [] hfrom k d (hdue ▸ hd)).resolve_left (by simp)
        exact h.tick.trans (Nat.add_le_add_right hlate period)
      · intro found hfound
        cases hphase.symm.trans hfound

/-- An empty table is in time. -/
theorem inTime_empty {now nextTick : Instant} (hnow : now ≤ nextTick)
    (htick : nextTick ≤ now + period) :
    InTime period
      { now := now, nextTick := nextTick, due := fun _ : κ => none, phase := .rest } where
  early := hnow
  tick := htick
  bound := fun _ _ hd => by cases hd
  swept := fun _ _ _ hd => by cases hd
  found := fun _ hfound => by cases hfound

end Sweep

end War3BattleTool.Foundation
