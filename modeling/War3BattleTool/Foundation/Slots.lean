import War3BattleTool.Foundation.Net
import War3BattleTool.Foundation.Tally

set_option autoImplicit false

/-!
# Connection slots

`acquireSlot` and `releaseSlot` keep one counter for each address.  The counters are right
(`Counts`) when they show how many slots each address holds, and nothing for an address that
holds none.
-/

namespace War3BattleTool.Foundation

/-- The counters show the slots held. -/
def Counts (conns : Table IpAddr Nat) (held : IpAddr → Nat) : Prop :=
  ∀ ip, conns.get? ip = if held ip = 0 then none else some (held ip)

namespace Counts

variable {conns : Table IpAddr Nat} {held held' : IpAddr → Nat} {ip : IpAddr} {limit : Nat}

theorem empty : Counts .empty fun _ => 0 := fun _ => rfl

/-- A missing counter counts as zero. -/
theorem getD_eq (h : Counts conns held) (ip : IpAddr) : (conns.get? ip).getD 0 = held ip := by
  rw [h ip]
  split
  · next hzero => simp [hzero]
  · rfl

/-- A slot is granted below the limit. -/
theorem acquire (h : Counts conns held) (hfree : held ip < limit)
    (hheld : Shifts held held' none (some ip)) :
    (acquireSlot limit conns ip).2 = true ∧ Counts (acquireSlot limit conns ip).1 held' := by
  have hbelow : ¬ limit ≤ held ip := by omega
  simp only [acquireSlot, h.getD_eq ip, if_neg hbelow, true_and]
  intro ip'
  have hmore := hheld ip'
  rw [Table.get?_modify, Table.get?_insert]
  by_cases heq : ip' = ip
  · subst heq
    simp only [single_none, single_self] at hmore
    simp [show held' ip' = held ip' + 1 by omega]
  · simp only [single_none, single_some_of_ne heq] at hmore
    simp only [heq, if_false]
    rw [h ip', show held' ip' = held ip' by omega]

/-- No slot is granted at the limit, and every counter stays as it is. -/
theorem refuse (h : Counts conns held) (hlimit : 0 < limit) (hfull : limit ≤ held ip) :
    (acquireSlot limit conns ip).2 = false ∧
      ∀ ip', (acquireSlot limit conns ip).1.get? ip' = conns.get? ip' := by
  simp only [acquireSlot, h.getD_eq ip, if_pos hfull, true_and]
  intro ip'
  rw [Table.get?_insert]
  split
  · next heq =>
    subst heq
    rw [h ip', if_neg (by omega)]
  · rfl

/-- A slot that is held is given back. -/
theorem release (h : Counts conns held) (hheld : Shifts held held' (some ip) none) :
    Counts (releaseSlot conns ip) held' := by
  have hpos := hheld.loss.1
  intro ip'
  have hless := hheld ip'
  simp only [releaseSlot, h ip, if_neg hpos]
  by_cases heq : ip' = ip
  · subst heq
    simp only [single_none, single_self] at hless
    have hheld' : held' ip' = held ip' - 1 := by omega
    rw [hheld']
    split
    · simp [Table.get?_remove]
    · simp [Table.get?_insert]
  · simp only [single_none, single_some_of_ne heq] at hless
    have hsame : held' ip' = held ip' := by omega
    rw [hsame, ← h ip']
    split
    · simp [Table.get?_remove, heq]
    · simp [Table.get?_insert, heq]

/-- Of the slots held, those of live connections are all if and only if the counter shows
the live connections. -/
theorem eq_live_iff (h : Counts conns held) {live lost : IpAddr → Nat}
    (hsplit : held ip = live ip + lost ip) :
    (conns.get? ip = if live ip = 0 then none else some (live ip)) ↔ lost ip = 0 := by
  rw [h ip]
  constructor
  · intro heq
    by_cases hheld : held ip = 0
    · omega
    · by_cases hlive : live ip = 0
      · simp [hheld, hlive] at heq
      · simp only [hheld, hlive, if_false, Option.some.injEq] at heq
        omega
  · intro hzero
    rw [hsplit, hzero, Nat.add_zero]

end Counts

/-! ## The books of a service -/

/-- The counters of a service, and the slots that its connections hold: those of live
connections, and those of connections that are gone and will not give theirs back. -/
structure Ledger where
  conns : Table IpAddr Nat
  live : IpAddr → Nat
  lost : IpAddr → Nat

namespace Ledger

variable {limit : Nat} {a b : Ledger} {ip : IpAddr}

/-- What one step can do to the books of a service with this limit.  `actor` is the address
whose traffic the step is, and `gone` the addresses that lose a slot. -/
inductive Step (limit : Nat) (a b : Ledger) : Option IpAddr → List IpAddr → Prop
  | keeps {actor : Option IpAddr} (hlive : b.live = a.live) (hlost : b.lost = a.lost)
      (hconns : b.conns = a.conns) : Step limit a b actor []
  /-- a request is turned away at the limit -/
  | refuses {ip : IpAddr} (hfull : (acquireSlot limit a.conns ip).2 = false)
      (hlive : b.live = a.live) (hlost : b.lost = a.lost)
      (hconns : b.conns = (acquireSlot limit a.conns ip).1) :
      Step limit a b (some ip) []
  /-- a request is admitted -/
  | admits {ip : IpAddr} (hfree : (acquireSlot limit a.conns ip).2 = true)
      (hlive : Shifts a.live b.live none (some ip)) (hlost : b.lost = a.lost)
      (hconns : b.conns = (acquireSlot limit a.conns ip).1) : Step limit a b (some ip) []
  /-- a connection ends without giving its slot back -/
  | loses {ip : IpAddr} (hlive : Shifts a.live b.live (some ip) none)
      (hlost : Shifts a.lost b.lost none (some ip)) (hconns : b.conns = a.conns) :
      Step limit a b (some ip) [ip]
  /-- a connection ends -/
  | releases {ip : IpAddr} (hlive : Shifts a.live b.live (some ip) none) (hlost : b.lost = a.lost)
      (hconns : b.conns = releaseSlot a.conns ip) : Step limit a b (some ip) []

/-- The slots an address holds. -/
def held (a : Ledger) (ip : IpAddr) : Nat := a.live ip + a.lost ip

/-- The counters show the slots held, which are within the limit. -/
structure Sound (limit : Nat) (a : Ledger) : Prop where
  counts : Counts a.conns a.held
  bounded : ∀ ip, a.held ip ≤ limit

theorem Sound.empty : Sound limit ⟨.empty, fun _ => 0, fun _ => 0⟩ :=
  ⟨.empty, fun _ => Nat.zero_le _⟩

/-- A slot is granted exactly below the limit. -/
theorem Sound.acquire_iff (h : a.Sound limit) :
    (acquireSlot limit a.conns ip).2 = true ↔ a.held ip < limit := by
  simp only [acquireSlot, h.counts.getD_eq ip]
  split
  · next hfull => simp; omega
  · next hfree => simp; omega

/-- A request that is turned away leaves every counter as it is. -/
theorem Sound.refuse (h : a.Sound limit) (hlimit : 0 < limit)
    (hfull : (acquireSlot limit a.conns ip).2 = false) (ip' : IpAddr) :
    (acquireSlot limit a.conns ip).1.get? ip' = a.conns.get? ip' := by
  have hlimited : limit ≤ a.held ip := by
    have hfree : (acquireSlot limit a.conns ip).2 = true ↔ a.held ip < limit := h.acquire_iff
    simp only [hfull, Bool.false_eq_true, false_iff] at hfree
    omega
  exact (h.counts.refuse hlimit hlimited).2 ip'

theorem Sound.step {actor : Option IpAddr} {gone : List IpAddr} (h : a.Sound limit)
    (hlimit : 0 < limit) (hs : Step limit a b actor gone) : b.Sound limit := by
  cases hs with
  | keeps hlive hlost hconns =>
      have hheld : b.held = a.held := by
        funext ip
        simp [held, hlive, hlost]
      exact ⟨by rw [hconns, hheld]; exact h.counts, by rw [hheld]; exact h.bounded⟩
  | @refuses ip hfull hlive hlost hconns =>
      have hheld : b.held = a.held := by
        funext ip
        simp [held, hlive, hlost]
      refine ⟨fun ip' => ?_, by rw [hheld]; exact h.bounded⟩
      rw [hconns, hheld, h.refuse hlimit hfull ip']
      exact h.counts ip'
  | @admits ip hfree hlive hlost hconns =>
      have hbelow := h.acquire_iff.mp hfree
      have hheld : Shifts a.held b.held none (some ip) := by
        intro ip'
        have := hlive ip'
        simp only [held, hlost]
        omega
      refine ⟨by rw [hconns]; exact (h.counts.acquire hbelow hheld).2, fun ip' => ?_⟩
      have hbound := h.bounded ip'
      rw [hheld.gain, Function.update_apply]
      split
      · omega
      · exact hbound
  | @loses ip hlive hlost hconns =>
      have hheld : b.held = a.held := by
        funext ip'
        have := hlive ip'
        have := hlost ip'
        simp only [held]
        omega
      exact ⟨by rw [hconns, hheld]; exact h.counts, by rw [hheld]; exact h.bounded⟩
  | @releases ip hlive hlost hconns =>
      have hheld : Shifts a.held b.held (some ip) none := by
        intro ip'
        have := hlive ip'
        simp only [held, hlost]
        omega
      refine ⟨by rw [hconns]; exact h.counts.release hheld, fun ip' => ?_⟩
      have hbound := h.bounded ip'
      rw [hheld.loss.2, Function.update_apply]
      split
      · next heq =>
        subst heq
        omega
      · exact hbound

/-- The counter of an address is not touched by the traffic of another one. -/
theorem Sound.other {actor : Option IpAddr} {gone : List IpAddr} (h : a.Sound limit)
    (hlimit : 0 < limit) (hs : Step limit a b actor gone) (hother : actor ≠ some ip) :
    b.conns.get? ip = a.conns.get? ip := by
  have hafter := h.step hlimit hs
  have hheld : b.held ip = a.held ip := by
    cases hs with
    | keeps hlive hlost => simp [held, hlive, hlost]
    | refuses _ hlive hlost => simp [held, hlive, hlost]
    | @admits ip' _ hlive hlost | @releases ip' hlive hlost =>
        have hne : ip ≠ ip' := fun heq => hother (heq ▸ rfl)
        have := hlive ip
        simp only [single_none, single_some_of_ne hne] at this
        simp only [held, hlost]
        omega
    | @loses ip' hlive hlost =>
        have hlive := hlive ip
        have hlost := hlost ip
        simp only [held]
        omega
  rw [hafter.counts ip, h.counts ip, hheld]

/-- An address loses a slot when the step says so, and gets none back. -/
theorem Step.lost {actor : Option IpAddr} {gone : List IpAddr} (hs : Step limit a b actor gone) :
    b.lost ip = a.lost ip + gone.count ip := by
  cases hs with
  | keeps _ hlost | refuses _ _ hlost | admits _ _ hlost | releases _ hlost => simp [hlost]
  | @loses ip' _ hlost =>
      have := hlost ip
      simp only [single_none] at this
      by_cases hip : ip' = ip
      · subst hip
        simpa using this
      · rw [single_some_of_ne (Ne.symm hip)] at this
        simpa [List.count_singleton, hip] using this

/-- The counter shows the live connections if and only if no slot was lost. -/
theorem Sound.eq_live_iff (h : a.Sound limit) :
    (a.conns.get? ip = if a.live ip = 0 then none else some (a.live ip)) ↔ a.lost ip = 0 :=
  h.counts.eq_live_iff rfl

end Ledger

end War3BattleTool.Foundation
