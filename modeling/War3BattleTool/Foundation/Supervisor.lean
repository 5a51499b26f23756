import Mathlib.Tactic.Common

set_option autoImplicit false

/-!
# One worker at a time

A supervisor starts workers, numbered in order, and holds the latest one: before it starts
another, it stops the one it holds.  A worker that ends leaves a notice; when the supervisor
heeds the notice it lets go of what it holds.  As long as no notice is heeded while a later
worker is held, the live worker is the one held.
-/

namespace War3BattleTool.Foundation

/-- How many workers were started, which one is held, which are live, and the notices of
workers that have ended. -/
structure Supervisor where
  started : Nat
  holds : Option Nat
  live : Nat → Bool
  notices : List Nat

namespace Supervisor

/-- The steps of a supervisor and its workers. -/
inductive Step (s s' : Supervisor) : Prop
  /-- nothing starts or ends -/
  | rests (hstarted : s'.started = s.started) (hholds : s'.holds = s.holds)
      (hlive : ∀ k, s'.live k = true → s.live k = true)
      (hnotices : ∀ k ∈ s'.notices, k ∈ s.notices)
  /-- the held worker is stopped, and another one started -/
  | starts (hstarted : s'.started = s.started + 1) (hholds : s'.holds = some s.started)
      (hlive : ∀ k, s'.live k = true → k = s.started ∨ s.live k = true ∧ s.holds ≠ some k)
      (hnotices : ∀ k ∈ s'.notices, k ∈ s.notices)
  /-- the worker `k` ends -/
  | ends (k : Nat) (hk : k < s.started) (hstarted : s'.started = s.started)
      (hholds : s'.holds = s.holds)
      (hlive : ∀ j, s'.live j = true → s.live j = true ∧ j ≠ k)
      (hnotices : ∀ j ∈ s'.notices, j ∈ s.notices ∨ j = k)
  /-- the notice of the worker `k` is heeded, and no later worker is held -/
  | heeds (k : Nat) (hk : k ∈ s.notices) (htimely : ∀ j, s.holds = some j → j ≤ k)
      (hstarted : s'.started = s.started) (hholds : s'.holds = none)
      (hlive : ∀ j, s'.live j = true → s.live j = true)
      (hnotices : ∀ j ∈ s'.notices, j ∈ s.notices)

/-- The live worker is the one held, and that is the latest. -/
structure Sound (s : Supervisor) : Prop where
  held : ∀ k, s.live k = true → s.holds = some k
  latest : ∀ k, s.holds = some k → k + 1 = s.started
  ended : ∀ k ∈ s.notices, k < s.started ∧ s.live k = false

variable {s s' : Supervisor}

theorem Sound.step (hs : s.Sound) (h : s.Step s') : s'.Sound := by
  have hdead : ∀ {k}, s.live k = false → (s'.live k = true → s.live k = true) →
      s'.live k = false := by
    intro k hk hlive
    by_contra halive
    rw [hlive (Bool.not_eq_false _ ▸ halive)] at hk
    cases hk
  cases h with
  | rests hstarted hholds hlive hnotices =>
      refine ⟨fun k hk => ?_, fun k hk => ?_, fun k hk => ?_⟩
      · rw [hholds]
        exact hs.held k (hlive k hk)
      · rw [hstarted]
        exact hs.latest k (hholds ▸ hk)
      · obtain ⟨hlt, hended⟩ := hs.ended k (hnotices k hk)
        exact ⟨hstarted ▸ hlt, hdead hended (hlive k)⟩
  | starts hstarted hholds hlive hnotices =>
      refine ⟨fun k hk => ?_, fun k hk => ?_, fun k hk => ?_⟩
      · rcases hlive k hk with rfl | ⟨hold, hother⟩
        · exact hholds
        · exact absurd (hs.held k hold) hother
      · rw [hholds, Option.some.injEq] at hk
        rw [hstarted, hk]
      · obtain ⟨hlt, hended⟩ := hs.ended k (hnotices k hk)
        refine ⟨by omega, hdead hended fun halive => ?_⟩
        rcases hlive k halive with rfl | ⟨hold, _⟩
        · exact absurd hlt (Nat.lt_irrefl _)
        · exact hold
  | ends k hk hstarted hholds hlive hnotices =>
      refine ⟨fun j hj => ?_, fun j hj => ?_, fun j hj => ?_⟩
      · rw [hholds]
        exact hs.held j (hlive j hj).1
      · rw [hstarted]
        exact hs.latest j (hholds ▸ hj)
      · rcases hnotices j hj with hold | rfl
        · obtain ⟨hlt, hended⟩ := hs.ended j hold
          exact ⟨hstarted ▸ hlt, hdead hended fun halive => (hlive j halive).1⟩
        · refine ⟨hstarted ▸ hk, ?_⟩
          by_contra halive
          exact (hlive j (Bool.not_eq_false _ ▸ halive)).2 rfl
  | heeds k hk htimely hstarted hholds hlive hnotices =>
      refine ⟨fun j hj => ?_, fun j hj => ?_, fun j hj => ?_⟩
      · -- A live worker would be held and the latest, so it is the one that has ended.
        have hheld := hs.held j (hlive j hj)
        have hlatest := hs.latest j hheld
        obtain ⟨hlt, hended⟩ := hs.ended k hk
        have hle := htimely j hheld
        obtain rfl : j = k := by omega
        rw [hlive j hj] at hended
        cases hended
      · rw [hholds] at hj
        cases hj
      · obtain ⟨hlt, hended⟩ := hs.ended j (hnotices j hj)
        exact ⟨hstarted ▸ hlt, hdead hended (hlive j)⟩

/-- At most one worker is live. -/
theorem Sound.unique (hs : s.Sound) {j k : Nat} (hj : s.live j = true) (hk : s.live k = true) :
    j = k :=
  Option.some.inj ((hs.held j hj).symm.trans (hs.held k hk))

end Supervisor

end War3BattleTool.Foundation
