import Mathlib.Logic.Function.Basic
import War3BattleTool.Foundation.Table

set_option autoImplicit false

/-!
# Tallies

Entries of a table that each hold at most one of some things, and the number of holders of
every thing (`Table.tally`).  An update of the table shifts the tally by what the entry held
before and after (`Shifts`).
-/

namespace War3BattleTool.Foundation

section Shifts

variable {ρ : Type} [DecidableEq ρ]

/-- One where `d` is, and zero elsewhere. -/
def single (d : Option ρ) (r : ρ) : Nat := if d = some r then 1 else 0

@[simp] theorem single_none (r : ρ) : single none r = 0 := rfl

@[simp] theorem single_self (r : ρ) : single (some r) r = 1 := if_pos rfl

theorem single_of_ne {d : Option ρ} {r : ρ} (h : d ≠ some r) : single d r = 0 := if_neg h

theorem single_some_of_ne {r r' : ρ} (h : r' ≠ r) : single (some r) r' = 0 :=
  single_of_ne fun heq => h (Option.some.inj heq).symm

/-- The numbers `g` are the numbers `f` with one of `d` taken away and one of `d'` added. -/
def Shifts (f g : ρ → Nat) (d d' : Option ρ) : Prop :=
  ∀ r, g r + single d r = f r + single d' r

namespace Shifts

variable {f g : ρ → Nat} {d d' : Option ρ} {r : ρ}

theorem eq (h : Shifts f g d d) : g = f := funext fun r => Nat.add_right_cancel (h r)

theorem gain (h : Shifts f g none (some r)) : g = Function.update f r (f r + 1) := by
  funext r'
  have hr' := h r'
  rw [Function.update_apply]
  by_cases heq : r' = r
  · simpa [heq] using hr'
  · simpa [heq, single_some_of_ne heq] using hr'

theorem loss (h : Shifts f g (some r) none) :
    f r ≠ 0 ∧ g = Function.update f r (f r - 1) := by
  have hr : g r + 1 = f r := by simpa using h r
  refine ⟨by omega, funext fun r' => ?_⟩
  rw [Function.update_apply]
  by_cases heq : r' = r
  · subst heq
    rw [if_pos rfl]
    omega
  · simpa [heq, single_some_of_ne heq] using h r'

theorem takeAway (hpos : f r ≠ 0) :
    Shifts f (Function.update f r (f r - 1)) (some r) none := by
  intro r'
  rw [Function.update_apply]
  by_cases heq : r' = r
  · subst heq
    simp
    omega
  · simp [heq, single_some_of_ne heq]

theorem add : Shifts f (Function.update f r (f r + 1)) none (some r) := by
  intro r'
  rw [Function.update_apply]
  by_cases heq : r' = r
  · simp [heq]
  · simp [heq, single_some_of_ne heq]

/-- A shift may take away first. -/
theorem split_left (h : Shifts f g (some r) d') (hpos : f r ≠ 0) :
    ∃ m, Shifts f m (some r) none ∧ Shifts m g none d' := by
  refine ⟨_, takeAway hpos, fun r' => ?_⟩
  have hfirst := takeAway hpos r'
  have hboth := h r'
  simp only [single_none] at hfirst ⊢
  omega

/-- A shift may add first. -/
theorem split_right (h : Shifts f g d (some r)) :
    ∃ m, Shifts f m none (some r) ∧ Shifts m g d none := by
  refine ⟨_, add, fun r' => ?_⟩
  have hfirst := add (f := f) (r := r) r'
  have hboth := h r'
  simp only [single_none] at hfirst ⊢
  omega

end Shifts

end Shifts

namespace Table

variable {κ ν ρ : Type} [DecidableEq κ] [DecidableEq ρ] {t : Table κ ν} {k : κ} {v : ν}

/-- The number of entries that hold `r`. -/
def tally (holds : ν → Option ρ) (t : Table κ ν) (r : ρ) : Nat :=
  t.count fun v => holds v = some r

omit [DecidableEq κ] in
theorem toNat_decide (d : Option ρ) (r : ρ) : (decide (d = some r)).toNat = single d r := by
  unfold single
  split
  · next h => simp [h]
  · next h => simp [h]

theorem tally_insert (holds : ν → Option ρ) (h : t.get? k = none) :
    Shifts (t.tally holds) ((t.insert k v).tally holds) none (holds v) := by
  intro r
  have hcount := count_insert (v := v) (fun v => decide (holds v = some r)) h
  rwa [toNat_decide] at hcount

theorem tally_remove (holds : ν → Option ρ) (h : t.get? k = some v) :
    Shifts (t.tally holds) ((t.remove k).tally holds) (holds v) none := by
  intro r
  have hcount := count_remove (fun v => decide (holds v = some r)) h
  rwa [toNat_decide] at hcount

theorem tally_modify (holds : ν → Option ρ) (f : ν → ν) (h : t.get? k = some v) :
    Shifts (t.tally holds) ((t.modify k f).tally holds) (holds v) (holds (f v)) := by
  intro r
  have hcount := count_modify (fun v => decide (holds v = some r)) f h
  rwa [toNat_decide, toNat_decide] at hcount

/-- A change that keeps what the entry holds keeps the tally. -/
theorem tally_modify_of_same {holds : ν → Option ρ} (k : κ) {f : ν → ν}
    (h : ∀ v, holds (f v) = holds v) : (t.modify k f).tally holds = t.tally holds := by
  funext r
  exact count_modify_of_same k fun v => by rw [h]

/-- If the entries that pass the test hold nothing but `r`, the tally of `r` has them all. -/
theorem countP_le_tally {r : ρ} {test : κ → Bool} (holds : ν → Option ρ)
    (h : ∀ k v r', t.get? k = some v → test k = true → holds v = some r' → r' = r) :
    t.entries.countP (fun e => (holds e.2).isSome && test e.1) ≤ t.tally holds r := by
  rw [tally, count, values, List.countP_map]
  refine List.countP_mono_left fun e he hpass => ?_
  obtain ⟨hholds, htest⟩ := Bool.and_eq_true_iff.mp hpass
  obtain ⟨r', hr'⟩ := Option.isSome_iff_exists.mp hholds
  obtain rfl := h e.1 e.2 r' (mem_entries_iff.mp he) htest hr'
  exact decide_eq_true hr'

theorem tally_eq_zero {holds : ν → Option ρ} {r : ρ}
    (h : ∀ k v, t.get? k = some v → holds v ≠ some r) : t.tally holds r = 0 :=
  count_eq_zero fun k v hk => by simp [h k v hk]

theorem tally_pos {holds : ν → Option ρ} {r : ρ} (h : t.get? k = some v)
    (hv : holds v = some r) : 0 < t.tally holds r := by
  have hshift := tally_remove holds h
  rw [hv] at hshift
  exact Nat.pos_of_ne_zero hshift.loss.1

/-- What is counted is held by some entry. -/
theorem exists_of_tally_pos {holds : ν → Option ρ} {r : ρ} (h : 0 < t.tally holds r) :
    ∃ k v, t.get? k = some v ∧ holds v = some r := by
  by_contra hnone
  have hzero : t.tally holds r = 0 :=
    tally_eq_zero fun k v hk hv => hnone ⟨k, v, hk, hv⟩
  omega

/-! ### Tallies of what is observed -/

omit [DecidableEq κ] in
theorem tally_mapValues {μ : Type} (t : Table κ ν) (obs : ν → μ) (holds : μ → Option ρ) :
    (t.mapValues fun _ => obs).tally holds = t.tally fun v => holds (obs v) := by
  funext r
  have hvalues : (t.mapValues fun _ => obs).values = t.values.map obs := by
    simp [values, mapValues]
  simp [tally, count, hvalues, List.countP_map, Function.comp_def]

/-- A tally does not depend on the order of the entries. -/
theorem tally_congr {t' : Table κ ν} (holds : ν → Option ρ) (h : t'.get? = t.get?) :
    t'.tally holds = t.tally holds := by
  have hperm : t'.entries.Perm t.entries := by
    refine List.lookup_ext t'.nodupKeys t.nodupKeys fun k v => ?_
    have hk : t'.get? k = t.get? k := congrFun h k
    simp only [get?, AList.lookup] at hk
    rw [hk]
  funext r
  exact (hperm.map _).countP_eq _

/-- One entry changes. -/
theorem tally_of_entry {t' : Table κ ν} {v' : ν} (holds : ν → Option ρ) (hk : t.get? k = some v)
    (h : t'.get? = Function.update t.get? k (some v')) :
    Shifts (t.tally holds) (t'.tally holds) (holds v) (holds v') := by
  have hget : t'.get? = (t.modify k fun _ => v').get? := by
    funext k'
    rw [h, Function.update_apply, get?_modify]
    split
    · next heq => simp [heq, hk]
    · rfl
  rw [tally_congr holds hget]
  exact tally_modify holds (fun _ => v') hk

section Observed

variable {μ : Type} {obs : ν → μ} {t' : Table κ ν} {seen seen' : κ → Option μ} {w w' : μ}

omit [DecidableEq ρ] in
theorem get?_observed (t : Table κ ν) (obs : ν → μ) :
    (t.mapValues fun _ => obs).get? = fun k => (t.get? k).map obs :=
  funext fun k => t.get?_mapValues (fun _ => obs) k

/-- One observation changes. -/
theorem tally_of_update (holds : μ → Option ρ) (hseen : seen = fun k => (t.get? k).map obs)
    (hseen' : seen' = fun k => (t'.get? k).map obs) (hk : seen k = some w)
    (h : seen' = Function.update seen k (some w')) :
    Shifts (t.tally fun v => holds (obs v)) (t'.tally fun v => holds (obs v)) (holds w)
      (holds w') := by
  rw [← get?_observed] at hseen hseen'
  subst hseen hseen'
  rw [← tally_mapValues t obs holds, ← tally_mapValues t' obs holds]
  exact tally_of_entry holds hk h

/-- One observation is new. -/
theorem tally_of_new (holds : μ → Option ρ) (hseen : seen = fun k => (t.get? k).map obs)
    (hseen' : seen' = fun k => (t'.get? k).map obs) (hk : seen k = none)
    (h : seen' = Function.update seen k (some w')) :
    Shifts (t.tally fun v => holds (obs v)) (t'.tally fun v => holds (obs v)) none
      (holds w') := by
  rw [← get?_observed] at hseen hseen'
  subst hseen hseen'
  have hget : (t'.mapValues fun _ => obs).get? =
      ((t.mapValues fun _ => obs).insert k w').get? := by
    funext k'
    rw [h, Function.update_apply, get?_insert]
  rw [← tally_mapValues t obs holds, ← tally_mapValues t' obs holds, tally_congr holds hget]
  exact tally_insert holds hk

/-- No observation changes. -/
theorem tally_of_same (holds : μ → Option ρ) (hseen : seen = fun k => (t.get? k).map obs)
    (hseen' : seen' = fun k => (t'.get? k).map obs) (h : seen' = seen) :
    t'.tally (fun v => holds (obs v)) = t.tally fun v => holds (obs v) := by
  rw [← get?_observed] at hseen hseen'
  subst hseen hseen'
  rw [← tally_mapValues t' obs holds, ← tally_mapValues t obs holds]
  exact tally_congr holds h

end Observed

end Table

end War3BattleTool.Foundation
