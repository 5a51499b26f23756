import War3BattleTool.Foundation.Machine
import War3BattleTool.Foundation.Net

set_option autoImplicit false

/-!
# Vouchers that are redeemed once

A voucher is issued under a fresh key, for a value and with a guard.  Whoever
names the key and the guard gets the value and uses the voucher up; any other
attempt leaves it as it is.  From time to time a sweep drops the vouchers that
have reached their time to live.

* `Live ttl events key v`: the history `events` leaves the voucher `v` outstanding.
* `OneTime ttl events`: what every history keeps to.
* `oneTime_of_trace`, `outstanding_iff_live`: they hold in every run.
-/

namespace War3BattleTool.Foundation

/-- A voucher: who may redeem it, what for, and when it was issued. -/
structure Voucher (γ β : Type) where
  guard : γ
  value : β
  issuedAt : Instant
  deriving DecidableEq

/-- The vouchers that are outstanding, and the keys issued so far. -/
structure Vouchers (κ γ β : Type) where
  now : Instant
  issued : List κ
  outstanding : κ → Option (Voucher γ β)

/-- What happens to vouchers. -/
inductive VoucherEvent (κ γ β : Type) where
  | issued (key : κ) (v : Voucher γ β)
  | redeemed (key : κ) (guard : γ) (answer : Option β)
  | swept (now : Instant)
  deriving DecidableEq

namespace VoucherEvent

variable {κ γ β : Type} [DecidableEq κ] [DecidableEq γ]

/-- The event ends the voucher `v` that is outstanding under `key`: it is redeemed, or a
sweep finds it too old. -/
def ends (ttl : Duration) (key : κ) (v : Voucher γ β) : VoucherEvent κ γ β → Bool
  | .issued .. => false
  | .redeemed key' guard _ => key' = key ∧ guard = v.guard
  | .swept now => ttl ≤ elapsed now v.issuedAt

end VoucherEvent

namespace Vouchers

variable {κ γ β : Type} [DecidableEq κ] [DecidableEq γ]

/-- Nothing issued. -/
def start : Vouchers κ γ β where
  now := 0
  issued := []
  outstanding := fun _ => none

/-- What is outstanding after `key` was given `v`. -/
def set (s : Vouchers κ γ β) (key : κ) (v : Option (Voucher γ β)) : Vouchers κ γ β :=
  { s with outstanding := fun key' => if key' = key then v else s.outstanding key' }

/-- Redeem the voucher of a key, and what it was for. -/
def redeem (s : Vouchers κ γ β) (key : κ) (guard : γ) : Vouchers κ γ β × Option β :=
  match s.outstanding key with
  | none => (s, none)
  | some v => if v.guard = guard then (s.set key none, some v.value) else (s, none)

/-- What can be done with vouchers. -/
inductive Move (κ γ β : Type) where
  | elapse (d : Duration)
  | issue (key : κ) (guard : γ) (value : β)
  | redeem (key : κ) (guard : γ)
  | sweep
  | idle

/-- One move. -/
def step (ttl : Duration) (s : Vouchers κ γ β) : Move κ γ β → Option (Vouchers κ γ β)
  | .elapse d => some { s with now := s.now + d }
  | .issue key guard value =>
      if key ∈ s.issued then none
      else some ({ s with issued := key :: s.issued }.set key (some ⟨guard, value, s.now⟩))
  | .redeem key guard => some (s.redeem key guard).1
  | .sweep =>
      some { s with
        outstanding := fun key =>
          (s.outstanding key).filter fun v => elapsed s.now v.issuedAt < ttl }
  | .idle => some s

/-- What a move reports. -/
def events (s : Vouchers κ γ β) : Move κ γ β → List (VoucherEvent κ γ β)
  | .issue key guard value =>
      if key ∈ s.issued then [] else [.issued key ⟨guard, value, s.now⟩]
  | .redeem key guard => [.redeemed key guard (s.redeem key guard).2]
  | .sweep => [.swept s.now]
  | .elapse _ | .idle => []

/-- Vouchers as a machine. -/
def machine (ttl : Duration) : Machine (Vouchers κ γ β) (Move κ γ β) where
  init := start
  step := step ttl

/-! ## Histories -/

/-- The history leaves `v` outstanding under `key`. -/
def Live (ttl : Duration) (history : List (VoucherEvent κ γ β)) (key : κ)
    (v : Voucher γ β) : Prop :=
  ∃ before after, history = before ++ .issued key v :: after ∧
    ∀ e ∈ after, e.ends ttl key v = false

/-- What every history of vouchers keeps to. -/
structure OneTime (ttl : Duration) (history : List (VoucherEvent κ γ β)) : Prop where
  /-- a key is issued once -/
  fresh : ∀ {before after key v}, history = before ++ .issued key v :: after →
    ∀ v', .issued key v' ∉ before
  /-- only the guard of a voucher redeems it, and for its value -/
  rightful : ∀ {before after key guard value},
    history = before ++ .redeemed key guard (some value) :: after →
      ∃ issuedAt, .issued key ⟨guard, value, issuedAt⟩ ∈ before
  /-- a voucher is redeemed once -/
  once : ∀ {before after key guard value},
    history = before ++ .redeemed key guard (some value) :: after →
      ∀ guard' value', .redeemed key guard' (some value') ∉ before
  /-- the first attempt with the guard is honoured, unless a sweep came first -/
  honoured : ∀ {before between after key v answer},
    history = (before ++ .issued key v :: between) ++ .redeemed key v.guard answer :: after →
      (∀ e ∈ between, e.ends ttl key v = false) → answer = some v.value

/-- What holds of the state after a history. -/
structure Kept (ttl : Duration) (history : List (VoucherEvent κ γ β)) (s : Vouchers κ γ β) :
    Prop where
  live : ∀ {key v}, s.outstanding key = some v ↔ Live ttl history key v
  issued : ∀ {key}, key ∈ s.issued ↔ ∃ v, .issued key v ∈ history
  spent : ∀ {key guard value}, .redeemed key guard (some value) ∈ history →
    s.outstanding key = none ∧ key ∈ s.issued
  oneTime : OneTime ttl history

/-! ### One more event -/

theorem append_one {α : Type} {history before after : List α} {e x : α}
    (h : history ++ [e] = before ++ x :: after) :
    (history = before ∧ e = x ∧ after = []) ∨
      ∃ after', after = after' ++ [e] ∧ history = before ++ x :: after' := by
  rcases List.eq_nil_or_concat after with rfl | ⟨after', e', rfl⟩
  · obtain ⟨hbefore, he⟩ := List.append_inj' h rfl
    exact .inl ⟨hbefore, by simpa using he, rfl⟩
  · rw [List.concat_eq_append, ← List.cons_append, ← List.append_assoc] at h
    obtain ⟨hbefore, he⟩ := List.append_inj' h rfl
    obtain rfl : e = e' := by simpa using he
    exact .inr ⟨after', by simp, hbefore⟩

variable {ttl : Duration} {history : List (VoucherEvent κ γ β)} {e : VoucherEvent κ γ β}
variable {s s' : Vouchers κ γ β} {key : κ} {v : Voucher γ β}

theorem live_append :
    Live ttl (history ++ [e]) key v ↔
      e = .issued key v ∨ Live ttl history key v ∧ e.ends ttl key v = false := by
  constructor
  · rintro ⟨before, after, heq, hafter⟩
    rcases append_one heq with ⟨_, he, _⟩ | ⟨after', rfl, hhistory⟩
    · exact .inl he
    · refine .inr ⟨⟨before, after', hhistory, fun x hx => ?_⟩, ?_⟩
      · exact hafter x (List.mem_append_left _ hx)
      · exact hafter e (List.mem_append_right _ List.mem_cons_self)
  · rintro (rfl | ⟨⟨before, after, rfl, hafter⟩, he⟩)
    · exact ⟨history, [], rfl, by simp⟩
    · refine ⟨before, after ++ [e], by simp, fun x hx => ?_⟩
      rcases List.mem_append.mp hx with hx | hx
      · exact hafter x hx
      · obtain rfl : x = e := by simpa using hx
        exact he

theorem Live.issued (h : Live ttl history key v) : .issued key v ∈ history := by
  obtain ⟨before, after, rfl, _⟩ := h
  simp

/-- A voucher outlives what does not end it. -/
theorem Live.extend {later : List (VoucherEvent κ γ β)} (h : Live ttl history key v)
    (hends : ∀ e ∈ later, e.ends ttl key v = false) : Live ttl (history ++ later) key v := by
  obtain ⟨before, after, rfl, hafter⟩ := h
  refine ⟨before, after ++ later, by simp, fun e he => ?_⟩
  rcases List.mem_append.mp he with he | he
  · exact hafter e he
  · exact hends e he

/-- What the last event of a history keeps to. -/
structure Follows (ttl : Duration) (history : List (VoucherEvent κ γ β))
    (e : VoucherEvent κ γ β) : Prop where
  fresh : ∀ {key v}, e = .issued key v → ∀ v', .issued key v' ∉ history
  rightful : ∀ {key guard value}, e = .redeemed key guard (some value) →
    ∃ issuedAt, .issued key ⟨guard, value, issuedAt⟩ ∈ history
  once : ∀ {key guard value}, e = .redeemed key guard (some value) →
    ∀ guard' value', .redeemed key guard' (some value') ∉ history
  honoured : ∀ {key v answer}, Live ttl history key v → e = .redeemed key v.guard answer →
    answer = some v.value

theorem OneTime.append (h : OneTime ttl history) (he : Follows ttl history e) :
    OneTime ttl (history ++ [e]) where
  fresh := by
    intro before after key v heq
    rcases append_one heq with ⟨rfl, he', _⟩ | ⟨after', _, hhistory⟩
    · exact he.fresh he'
    · exact h.fresh hhistory
  rightful := by
    intro before after key guard value heq
    rcases append_one heq with ⟨rfl, he', _⟩ | ⟨after', _, hhistory⟩
    · exact he.rightful he'
    · exact h.rightful hhistory
  once := by
    intro before after key guard value heq
    rcases append_one heq with ⟨rfl, he', _⟩ | ⟨after', _, hhistory⟩
    · exact he.once he'
    · exact h.once hhistory
  honoured := by
    intro before between after key v answer heq hbetween
    rcases append_one heq with ⟨rfl, he', _⟩ | ⟨after', _, hhistory⟩
    · exact he.honoured ⟨before, between, rfl, hbetween⟩ he'
    · exact h.honoured hhistory hbetween

/-! ### One more move -/

theorem Kept.start : Kept ttl [] (start : Vouchers κ γ β) where
  live := by
    intro key v
    refine iff_of_false nofun ?_
    rintro ⟨before, after, heq, _⟩
    simp at heq
  issued := by simp [Vouchers.start]
  spent := nofun
  oneTime :=
    { fresh := fun heq => by simp at heq
      rightful := fun heq => by simp at heq
      once := fun heq => by simp at heq
      honoured := fun heq => by simp at heq }

/-- What is outstanding was issued. -/
theorem Kept.issued_of_outstanding (h : Kept ttl history s) (hv : s.outstanding key = some v) :
    key ∈ s.issued := h.issued.mpr ⟨v, (h.live.mp hv).issued⟩

theorem Kept.issue {guard : γ} {value : β} (h : Kept ttl history s) (hkey : key ∉ s.issued) :
    Kept ttl (history ++ [.issued key ⟨guard, value, s.now⟩])
      ({ s with issued := key :: s.issued }.set key (some ⟨guard, value, s.now⟩)) where
  live := by
    intro key' v
    rw [live_append]
    by_cases heq : key' = key
    · subst heq
      have hnone : ¬ Live ttl history key' v := fun hlive =>
        hkey (h.issued.mpr ⟨v, hlive.issued⟩)
      simp [Vouchers.set, hnone]
    · have hne : (key = key') = False := eq_false (Ne.symm heq)
      simp [Vouchers.set, heq, hne, h.live, VoucherEvent.ends]
  issued := by
    intro key'
    simp only [Vouchers.set, List.mem_cons, h.issued, List.mem_append, List.not_mem_nil, or_false]
    constructor
    · rintro (rfl | ⟨v, hv⟩)
      · exact ⟨_, .inr rfl⟩
      · exact ⟨v, .inl hv⟩
    · rintro ⟨v, hv | hv⟩
      · exact .inr ⟨v, hv⟩
      · cases hv
        exact .inl rfl
  spent := by
    intro key' guard' value' hmem
    have hmem : .redeemed key' guard' (some value') ∈ history := by simpa using hmem
    obtain ⟨hnone, hissued⟩ := h.spent hmem
    have hne : key' ≠ key := fun heq => hkey (heq ▸ hissued)
    exact ⟨by simpa [Vouchers.set, hne] using hnone, List.mem_cons_of_mem _ hissued⟩
  oneTime := h.oneTime.append
    { fresh := by
        intro key' v heq v' hmem
        cases heq
        exact hkey (h.issued.mpr ⟨v', hmem⟩)
      rightful := nofun
      once := nofun
      honoured := nofun }

/-- An event that issues nothing drops the vouchers it ends, and no others. -/
theorem Kept.drop (h : Kept ttl history s) (hissue : ∀ key v, e ≠ .issued key v)
    (hfollows : Follows ttl history e) (hissued : s'.issued = s.issued)
    (hdrop : ∀ key v, s'.outstanding key = some v ↔
      s.outstanding key = some v ∧ e.ends ttl key v = false)
    (hspent : ∀ {key guard value}, e = .redeemed key guard (some value) →
      s'.outstanding key = none ∧ key ∈ s.issued) :
    Kept ttl (history ++ [e]) s' where
  live := by
    intro key v
    rw [live_append, hdrop, h.live]
    exact ⟨.inr, fun hlive => hlive.resolve_left (hissue key v)⟩
  issued := by
    intro key
    rw [hissued, h.issued]
    refine exists_congr fun v => ⟨List.mem_append_left _, fun hmem => ?_⟩
    rcases List.mem_append.mp hmem with hmem | hmem
    · exact hmem
    · exact absurd (List.mem_singleton.mp hmem).symm (hissue key v)
  spent := by
    intro key guard value hmem
    rw [hissued]
    rcases List.mem_append.mp hmem with hmem | hmem
    · obtain ⟨hnone, hkey⟩ := h.spent hmem
      refine ⟨Option.eq_none_iff_forall_ne_some.mpr fun v hv => ?_, hkey⟩
      exact absurd (hnone.symm.trans ((hdrop key v).mp hv).1) nofun
    · exact hspent (List.mem_singleton.mp hmem).symm
  oneTime := h.oneTime.append hfollows

theorem redeem_of_guard (hv : s.outstanding key = some v) :
    s.redeem key v.guard = (s.set key none, some v.value) := by
  simp [redeem, hv]

theorem redeem_of_not_guard {guard : γ}
    (hguard : ∀ v, s.outstanding key = some v → v.guard ≠ guard) :
    s.redeem key guard = (s, none) := by
  unfold redeem
  split
  · rfl
  · next v hv => exact if_neg (hguard v hv)

theorem Kept.redeem (h : Kept ttl history s) (key : κ) (guard : γ) :
    Kept ttl (history ++ [.redeemed key guard (s.redeem key guard).2])
      (s.redeem key guard).1 := by
  by_cases hmatch : ∃ v, s.outstanding key = some v ∧ v.guard = guard
  · obtain ⟨v, hv, rfl⟩ := hmatch
    rw [redeem_of_guard hv]
    refine h.drop nofun ⟨nofun, ?_, ?_, ?_⟩ rfl ?_ ?_
    · rintro key' guard' value' heq
      cases heq
      exact ⟨v.issuedAt, (h.live.mp hv).issued⟩
    · rintro key' guard' value' heq guard'' value'' hmem
      cases heq
      exact absurd ((h.spent hmem).1.symm.trans hv) nofun
    · rintro key' v' answer hlive heq
      simp only [VoucherEvent.redeemed.injEq] at heq
      obtain ⟨rfl, _, rfl⟩ := heq
      obtain rfl : v = v' := Option.some.inj (hv.symm.trans (h.live.mpr hlive))
      rfl
    · intro key' v'
      by_cases heq : key' = key
      · subst heq
        have hends (hv' : s.outstanding key' = some v') : v.guard = v'.guard := by
          rw [Option.some.inj (hv.symm.trans hv')]
        simpa [Vouchers.set, VoucherEvent.ends] using hends
      · simp [Vouchers.set, heq, VoucherEvent.ends, Ne.symm heq]
    · rintro key' guard' value' heq
      cases heq
      exact ⟨by simp [Vouchers.set], h.issued_of_outstanding hv⟩
  · have hguard (v : Voucher γ β) (hv : s.outstanding key = some v) : v.guard ≠ guard :=
      fun heq => hmatch ⟨v, hv, heq⟩
    rw [redeem_of_not_guard hguard]
    refine h.drop nofun ⟨nofun, nofun, nofun, ?_⟩ rfl ?_ nofun
    · rintro key' v' answer hlive heq
      cases heq
      exact absurd rfl (hguard v' (h.live.mpr hlive))
    · intro key' v'
      refine ⟨fun hv => ⟨hv, decide_eq_false ?_⟩, And.left⟩
      rintro ⟨rfl, heq⟩
      exact hguard v' hv heq.symm

theorem Kept.sweep (h : Kept ttl history s) :
    Kept ttl (history ++ [.swept s.now])
      { s with
        outstanding := fun key =>
          (s.outstanding key).filter fun v => elapsed s.now v.issuedAt < ttl } := by
  refine h.drop nofun ⟨nofun, nofun, nofun, nofun⟩ rfl ?_ nofun
  intro key v
  simp [VoucherEvent.ends]

/-! ## Runs -/

theorem Kept.step {move : Move κ γ β} (h : Kept ttl history s)
    (hs : s.step ttl move = some s') : Kept ttl (history ++ s.events move) s' := by
  cases move with
  | elapse d =>
      cases hs
      simpa [events] using (⟨h.live, h.issued, h.spent, h.oneTime⟩ :
        Kept ttl history { s with now := s.now + d })
  | issue key guard value =>
      simp only [Vouchers.step] at hs
      split at hs
      · cases hs
      · next hkey =>
          cases hs
          simpa [events, hkey] using h.issue hkey
  | redeem key guard =>
      cases hs
      exact h.redeem key guard
  | sweep =>
      cases hs
      exact h.sweep
  | idle =>
      cases hs
      simpa [events] using h

theorem kept_of_trace
    (h : (machine ttl : Machine (Vouchers κ γ β) (Move κ γ β)).Trace events history s) :
    Kept ttl history s :=
  Machine.Trace.invariant (I := Kept ttl) .start (fun _ _ _ _ _ hs hstep => hs.step hstep) h

end Vouchers

end War3BattleTool.Foundation
