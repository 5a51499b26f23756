import War3BattleTool.Foundation.Rendezvous

set_option autoImplicit false

/-!
# Runs of the rendezvous board

Two results about every run of the board.

* `meetings_le_one`: a key is used for one meeting at most, as long as a notice
  is only taken down under a key that is valid and that nobody is using.
* `pairsWith_xor_iff`: two undisturbed parties that have both looked are paired
  one way round exactly when neither looked while the other stood between its
  look and its notice.
-/

namespace War3BattleTool.Foundation

namespace Board

variable {κ α : Type} [DecidableEq α] [DecidableEq κ]

/-! ## Single use -/

/-- A notice under `k` is only taken down while the key is valid and nobody holds
another notice under it. -/
def singleUse (k : κ) (b : Board κ α) : Move κ α → Prop
  | .look a =>
      b.standing a = some (k, .admitted) → b.notice k ≠ none →
        b.stage k = .valid ∧ ∀ a' host, b.standing a' ≠ some (k, .holding host)
  | _ => True

/-- The key has been valid. -/
def wasValid (b : Board κ α) (k : κ) : Prop :=
  b.stage k = .valid ∨ b.stage k = .void

/-- The key is used at most once, and void from its first use on. -/
structure UsedOnce (k : κ) (b : Board κ α) : Prop where
  /-- a party past the check has seen the key valid -/
  checked : ∀ {a st}, b.standing a = some (k, st) → st ≠ .entering → st ≠ .refused →
    b.wasValid k
  /-- while the key is in use it has not been used -/
  held : ∀ {a host}, b.standing a = some (k, .holding host) →
    ∀ m ∈ b.meetings, m.key ≠ k
  oneHolder : ∀ {a host a' host'}, b.standing a = some (k, .holding host) →
    b.standing a' = some (k, .holding host') → a = a'
  used : ∀ {m}, m ∈ b.meetings → m.key = k → b.stage k = .void
  once : b.meetings.countP (·.key = k) ≤ 1

section UsedOnce

variable {b b' : Board κ α} {k k' : κ} {a host : α} {st next : Standing α}

omit [DecidableEq α] in
/-- A step that takes no notice down and brings nobody together. -/
theorem UsedOnce.frame (h : UsedOnce k b)
    (hvalid : b.wasValid k → b'.wasValid k)
    (hvoid : b.stage k = .void → b'.stage k = .void)
    (hchecked : ∀ {a st}, b'.standing a = some (k, st) → st ≠ .entering →
      st ≠ .refused → b.wasValid k)
    (hheld : ∀ {a host}, b'.standing a = some (k, .holding host) →
      b.standing a = some (k, .holding host))
    (hmeetings : b'.meetings = b.meetings) : UsedOnce k b' where
  checked := fun ha hentering hrefused => hvalid (hchecked ha hentering hrefused)
  held := fun ha => hmeetings ▸ h.held (hheld ha)
  oneHolder := fun ha ha' => h.oneHolder (hheld ha) (hheld ha')
  used := fun hm hk => hvoid (h.used (hmeetings ▸ hm) hk)
  once := hmeetings ▸ h.once

/-- A change of standing that leads past the check or to a notice only from where
one already was. -/
theorem UsedOnce.place (h : UsedOnce k b) (ha : b.standing a = some (k', st))
    (hchecked : next ≠ .refused → st ≠ .entering ∧ st ≠ .refused ∨ b.stage k' = .valid)
    (hholding : ∀ host, next ≠ .holding host) : UsedOnce k (b.place a k' next) := by
  refine h.frame id id ?_ ?_ rfl
  · intro a' st' ha' hentering hrefused
    obtain ⟨rfl, rfl, rfl⟩ | ⟨_, ha'⟩ := standing_place_eq_some.mp ha'
    · obtain ⟨hst, hst'⟩ | hvalid := hchecked hrefused
      · exact h.checked ha hst hst'
      · exact .inl hvalid
    · exact h.checked ha' hentering hrefused
  · intro a' host ha'
    obtain ⟨_, _, heq⟩ | ⟨_, ha'⟩ := standing_place_eq_some.mp ha'
    · exact absurd heq.symm (hholding host)
    · exact ha'

omit [DecidableEq α] in
theorem UsedOnce.voidKeys (h : UsedOnce k b) (gone : κ → Bool) :
    UsedOnce k (b.voidKeys gone) := by
  refine h.frame ?_ ?_ h.checked id rfl
  · simp only [wasValid, Board.voidKeys]
    grind [Stage.voided]
  · simp only [Board.voidKeys]
    grind [Stage.voided]

theorem UsedOnce.takeDown (h : UsedOnce k b) (gone : κ → Bool) :
    UsedOnce k (b.takeDown gone) := by
  refine h.frame id id ?_ (standing_of_takeDown (by simp)) rfl
  intro a st ha hentering hrefused
  obtain ha | ⟨_, ha⟩ := standing_takeDown_cases ha
  · exact h.checked ha hentering hrefused
  · exact h.checked ha (by simp) (by simp)

/-- The party looks while the discipline allows it. -/
theorem UsedOnce.lookAt (h : UsedOnce k b) (ha : b.standing a = some (k', .admitted))
    (hok : singleUse k b (.look a)) : UsedOnce k (b.lookAt a k') := by
  unfold Board.lookAt
  split
  · next host hn =>
    by_cases hk : k' = k
    · subst hk
      obtain ⟨hvalid, hnobody⟩ := hok ha (by simp [hn])
      have hunused : ∀ m ∈ b.meetings, m.key ≠ k' := by
        intro m hm hkey
        have := h.used hm hkey
        simp [hvalid] at this
      have hholder : ∀ {a' host'}, ({ b with notice := Function.update b.notice k' none }
          |>.place a k' (.holding host)).standing a' = some (k', .holding host') →
          a' = a := by
        intro a' host' ha'
        obtain ⟨heq, _⟩ | ⟨_, ha'⟩ := standing_place_eq_some.mp ha'
        · exact heq
        · exact absurd ha' (hnobody a' host')
      exact
        { checked := fun _ _ _ => .inl hvalid
          held := fun _ => hunused
          oneHolder := fun ha₁ ha₂ => (hholder ha₁).trans (hholder ha₂).symm
          used := fun hm hkey => absurd hkey (hunused _ hm)
          once := h.once }
    · -- A notice under another key is not our concern.
      refine h.frame id id ?_ ?_ rfl
      · intro a' st' ha' hentering hrefused
        obtain ⟨_, heq, _⟩ | ⟨_, ha'⟩ := standing_place_eq_some.mp ha'
        · exact absurd heq.symm hk
        · exact h.checked ha' hentering hrefused
      · intro a' host' ha'
        obtain ⟨_, heq, _⟩ | ⟨_, ha'⟩ := standing_place_eq_some.mp ha'
        · exact absurd heq.symm hk
        · exact ha'
  · exact h.place ha (fun _ => by simp) (by simp)

/-- The party joins `host`; from now on nobody holds a notice under the key. -/
theorem UsedOnce.join (h : UsedOnce k b) (ha : b.standing a = some (k', .holding host))
    (hvoid : k' = k → b.stage k = .void) : UsedOnce k (b.join a k' host) := by
  have hheld : ∀ {a' host'}, (b.join a k' host).standing a' = some (k, .holding host') →
      a' ≠ a ∧ b.standing a' = some (k, .holding host') := by
    intro a' host' ha'
    rw [standing_join] at ha'
    grind
  refine
    { checked := ?_
      held := ?_
      oneHolder := fun ha₁ ha₂ => h.oneHolder (hheld ha₁).2 (hheld ha₂).2
      used := ?_
      once := ?_ }
  · intro a' st ha' hentering hrefused
    have hsame : (b.join a k' host).wasValid k ↔ b.wasValid k := .rfl
    rw [standing_join] at ha'
    rw [hsame]
    split at ha'
    · have hk : k' = k := by simp_all
      exact .inr (hvoid hk)
    · split at ha'
      · have hk : k' = k := by simp_all
        exact .inr (hvoid hk)
      · exact h.checked ha' hentering hrefused
  · intro a' host' ha' m hm
    obtain ⟨hne, ha'⟩ := hheld ha'
    obtain hm | rfl := mem_meetings_join.mp hm
    · exact h.held ha' m hm
    · rintro rfl
      exact hne (h.oneHolder ha' ha)
  · intro m hm hk
    obtain hm | rfl := mem_meetings_join.mp hm
    · exact h.used hm hk
    · exact hvoid hk
  · have hcount : (b.join a k' host).meetings = b.meetings ++ [⟨k', host, a⟩] := rfl
    rw [hcount, List.countP_append]
    by_cases hk : k' = k
    · subst hk
      have hnone : b.meetings.countP (·.key = k') = 0 :=
        List.countP_eq_zero.mpr fun m hm => by simpa using h.held ha m hm
      simp [hnone]
    · simpa [hk] using h.once

theorem UsedOnce.meetWith (h : UsedOnce k b)
    (ha : b.standing a = some (k', .holding host)) : UsedOnce k (b.meetWith a k' host) := by
  have hvoid := h.voidKeys (· = k')
  unfold Board.meetWith
  split
  · refine hvoid.join ha ?_
    rintro rfl
    obtain hvalid | hvoid := h.checked ha (by simp) (by simp)
    · simp [Board.voidKeys, Stage.voided, hvalid]
    · simp [Board.voidKeys, Stage.voided, hvoid]
  · exact hvoid.place ha (fun _ => by simp) (by simp)

theorem UsedOnce.step {m : Move κ α} (h : UsedOnce k b) (hok : singleUse k b m)
    (hs : Step b m b') : UsedOnce k b' := by
  cases hs with
  | idle => exact h
  | issue hk =>
      refine h.frame ?_ ?_ h.checked id rfl
      · simp only [wasValid, Function.update_apply]
        grind
      · simp only [Function.update_apply]
        grind
  | validate hk =>
      refine h.frame ?_ ?_ h.checked id rfl
      · simp only [wasValid, Function.update_apply]
        grind
      · simp only [Function.update_apply]
        grind
  | void => exact h.voidKeys _
  | enter ha =>
      refine h.frame id id ?_ ?_ rfl
      · intro a' st' ha' hentering hrefused
        obtain ⟨_, _, heq⟩ | ⟨_, ha'⟩ := standing_place_eq_some.mp ha'
        · exact absurd heq hentering
        · exact h.checked ha' hentering hrefused
      · intro a' host' ha'
        obtain ⟨_, _, heq⟩ | ⟨_, ha'⟩ := standing_place_eq_some.mp ha'
        · cases heq
        · exact ha'
  | accept ha hk => exact h.place ha (fun _ => .inr hk) (by simp)
  | @advance a k' st next ha hnext =>
      refine h.place ha (fun hrefused => .inl ?_) ?_
      · cases Standing.advance_of_advances hnext with
        | refuse => exact absurd rfl hrefused
        | _ => exact ⟨nofun, nofun⟩
      · intro host
        exact Standing.ne_holding_of_advances hnext
  | look ha => exact h.lookAt ha hok
  | meet ha => exact h.meetWith ha
  | @enlist a k' ha =>
      have hwait : UsedOnce k ((b.takeDown (· = k')).place a k' .waiting) :=
        (h.takeDown _).place (standing_takeDown ha fun _ _ => by simp)
          (fun _ => by simp) (by simp)
      exact hwait.frame id id hwait.checked id rfl
  | withdraw ha =>
      exact (h.takeDown _).place (standing_takeDown ha fun _ _ => by simp)
        (fun _ => by simp) (by simp)
  | expire => exact h.takeDown _

omit [DecidableEq α] in
theorem UsedOnce.empty : UsedOnce k (empty : Board κ α) := by
  constructor <;> simp [Board.empty]

/-- Under the discipline a key is used for one meeting at most. -/
theorem meetings_le_one [∀ (b : Board κ α) m, Decidable (singleUse k b m)]
    (h : (machine.restrict (singleUse k)).Reachable b) :
    b.meetings.countP (·.key = k) ≤ 1 := by
  have hused : UsedOnce k b := by
    refine h.invariant UsedOnce.empty fun _ _ _ _ hused hs => ?_
    obtain ⟨hok, hs⟩ := Machine.restrict_step.mp hs
    exact hused.step hok (step_iff.mp hs)
  exact hused.once

end UsedOnce

/-! ## Two undisturbed parties -/

/-- Only `a` and `b` present the key, neither gives up, and no notice under the
key is thrown away. -/
def undisturbed (a b : α) (k : κ) (_ : Board κ α) : Move κ α → Prop
  | .enter c k' => k' = k → c = a ∨ c = b
  | .advance c next => next = .withdrawing → c ≠ a ∧ c ≠ b
  | .expire gone => gone k = false
  | _ => True

/-- `c` looks while `other` stands between its look and its notice. -/
def racesAgainst (s : Board κ α) (k : κ) (c other : α) : Prop :=
  s.standing c = some (k, .admitted) ∧ s.standing other = some (k, .enlisting)

instance (s : Board κ α) (k : κ) (c other : α) :
    Decidable (s.racesAgainst k c other) := by
  unfold racesAgainst
  exact inferInstance

/-- The races between `a` and `b`. -/
def races (a b : α) (k : κ) (s : Board κ α) : Move κ α → List α
  | .look c =>
      if c = a ∧ s.racesAgainst k a b ∨ c = b ∧ s.racesAgainst k b a then [c] else []
  | _ => []

/-- `finder` has met `waiter`, or holds its notice while it still waits. -/
def PairsWith (s : Board κ α) (k : κ) (waiter finder : α) : Prop :=
  ⟨k, waiter, finder⟩ ∈ s.meetings ∨
    s.standing finder = some (k, .holding waiter) ∧
      s.standing waiter = some (k, .waiting)

/-- The party is past its look at the board. -/
def Looked (s : Board κ α) (k : κ) (a : α) : Prop :=
  ∃ st, s.standing a = some (k, st) ∧ st.looked = true

/-- Both have looked, and nothing will bring them together any more. -/
structure Missed (s : Board κ α) (k : κ) (a b : α) : Prop where
  looked : ∀ c, c = a ∨ c = b → s.Looked k c
  holding : ∀ c host, c = a ∨ c = b → s.standing c ≠ some (k, .holding host)
  meetings : ∀ m ∈ s.meetings, m.key ≠ k

/-- How far `waiter` and `finder`, the only two under the key, have come. -/
inductive Course (s : Board κ α) (k : κ) (waiter finder : α) : Bool → Prop
  | apart (hw : ¬ s.Looked k waiter) (hf : ¬ s.Looked k finder)
      (hn : s.notice k = none) : Course s k waiter finder false
  | enlisting (hw : s.standing waiter = some (k, .enlisting))
      (hf : ¬ s.Looked k finder) (hn : s.notice k = none) :
      Course s k waiter finder false
  | waiting (hw : s.standing waiter = some (k, .waiting))
      (hf : ¬ s.Looked k finder) (hn : s.notice k = some waiter) :
      Course s k waiter finder false
  | holding (hw : s.standing waiter = some (k, .waiting))
      (hf : s.standing finder = some (k, .holding waiter)) :
      Course s k waiter finder false
  | met (hm : ⟨k, waiter, finder⟩ ∈ s.meetings) : Course s k waiter finder false
  | missed (h : s.Missed k waiter finder) : Course s k waiter finder true

/-! ### Moves under other keys -/

/-- Nothing under the key differs. -/
structure SameUnder (k : κ) (s s' : Board κ α) : Prop where
  standing : ∀ c st, s'.standing c = some (k, st) ↔ s.standing c = some (k, st)
  notice : s'.notice k = s.notice k
  meetings : ∀ m, m.key = k → (m ∈ s'.meetings ↔ m ∈ s.meetings)

section SameUnder

variable {s s' s'' : Board κ α} {k k' : κ} {a host : α} {st next : Standing α}

omit [DecidableEq α] [DecidableEq κ] in
theorem SameUnder.refl : SameUnder k s s := ⟨fun _ _ => .rfl, rfl, fun _ _ => .rfl⟩

omit [DecidableEq α] [DecidableEq κ] in
theorem SameUnder.trans (h : SameUnder k s s') (h' : SameUnder k s' s'') :
    SameUnder k s s'' where
  standing := fun c st => (h'.standing c st).trans (h.standing c st)
  notice := h'.notice.trans h.notice
  meetings := fun m hm => (h'.meetings m hm).trans (h.meetings m hm)

omit [DecidableEq κ] in
theorem SameUnder.place (hk : k' ≠ k)
    (ha : s.standing a = none ∨ ∃ st, s.standing a = some (k', st)) :
    SameUnder k s (s.place a k' next) where
  standing := by
    intro c st
    rw [standing_place]
    grind
  notice := rfl
  meetings := fun _ _ => .rfl

omit [DecidableEq κ] in
theorem SameUnder.takeDown {gone : κ → Bool} (hk : gone k = false) :
    SameUnder k s (s.takeDown gone) where
  standing := by
    intro c st
    refine ⟨fun h => ?_, fun h => standing_takeDown h (by simp [hk])⟩
    simp only [Board.takeDown, Option.map_eq_some_iff] at h
    obtain ⟨⟨k', st'⟩, hc, heq⟩ := h
    split at heq
    · grind
    · exact heq ▸ hc
  notice := by simp [Board.takeDown, hk]
  meetings := fun _ _ => .rfl

omit [DecidableEq α] in
theorem SameUnder.notice_update {host : Option α} (hk : k' ≠ k) :
    SameUnder k s { s with notice := Function.update s.notice k' host } where
  standing := fun _ _ => .rfl
  notice := by simp [hk.symm]
  meetings := fun _ _ => .rfl

omit [DecidableEq α] [DecidableEq κ] in
theorem SameUnder.voidKeys {gone : κ → Bool} : SameUnder k s (s.voidKeys gone) :=
  ⟨fun _ _ => .rfl, rfl, fun _ _ => .rfl⟩

omit [DecidableEq κ] in
theorem SameUnder.join (hk : k' ≠ k) (ha : s.standing a = some (k', st))
    (hhost : s.standing host = some (k', next)) : SameUnder k s (s.join a k' host) where
  standing := by
    intro c st
    rw [standing_join]
    grind
  notice := rfl
  meetings := by
    intro m hm
    rw [mem_meetings_join]
    grind

end SameUnder

/-- The party that makes a move. -/
def Move.party : Move κ α → Option α
  | .enter a _ | .accept a | .advance a _ | .look a | .meet a | .enlist a
  | .withdraw a => some a
  | _ => none

/-- A move either leaves everything under the key as it is, or is made by a party
that presents the key. -/
theorem Step.sameUnder_or_party {s s' : Board κ α} {m : Move κ α} {k : κ}
    (hsound : Sound s) (hs : Step s m s') (hexpire : ∀ gone, m = .expire gone → gone k = false) :
    SameUnder k s s' ∨ (∃ c, m = .enter c k) ∨
      ∃ c st, m.party = some c ∧ s.standing c = some (k, st) := by
  by_cases hparty : (∃ c, m = .enter c k) ∨
      ∃ c st, m.party = some c ∧ s.standing c = some (k, st)
  · exact .inr hparty
  left
  have hother : ∀ {c k' st}, m.party = some c → s.standing c = some (k', st) → k' ≠ k := by
    rintro c k' st hc hst rfl
    exact hparty (.inr ⟨c, st, hc, hst⟩)
  cases hs with
  | idle => exact .refl
  | issue => exact ⟨fun _ _ => .rfl, rfl, fun _ _ => .rfl⟩
  | validate => exact ⟨fun _ _ => .rfl, rfl, fun _ _ => .rfl⟩
  | void => exact .voidKeys
  | @enter a k' ha =>
      have hk : k' ≠ k := by
        rintro rfl
        exact hparty (.inl ⟨a, rfl⟩)
      exact .place hk (.inl ha)
  | accept ha => exact .place (hother rfl ha) (.inr ⟨_, ha⟩)
  | advance ha => exact .place (hother rfl ha) (.inr ⟨_, ha⟩)
  | @look a k' ha =>
      have hk := hother rfl ha
      unfold Board.lookAt
      split
      · exact (SameUnder.notice_update hk).trans (.place hk (.inr ⟨_, ha⟩))
      · exact .place hk (.inr ⟨_, ha⟩)
  | @meet a k' host ha =>
      have hk := hother rfl ha
      obtain ⟨st, hst, _⟩ := hsound.held ha
      unfold Board.meetWith
      split
      · exact SameUnder.voidKeys.trans (.join hk ha hst)
      · exact SameUnder.voidKeys.trans (.place hk (.inr ⟨_, ha⟩))
  | @enlist a k' ha =>
      have hk := hother rfl ha
      have htake : SameUnder k s (s.takeDown (· = k')) :=
        .takeDown (by simpa using hk.symm)
      have ha' : (s.takeDown (· = k')).standing a = some (k', .enlisting) :=
        standing_takeDown ha fun _ _ => by simp
      exact (htake.trans (.notice_update hk)).trans (.place hk (.inr ⟨_, ha'⟩))
  | @withdraw a k' ha =>
      have hk := hother rfl ha
      have htake : SameUnder k s (s.takeDown (· = k')) :=
        .takeDown (by simpa using hk.symm)
      exact htake.trans
        (.place hk (.inr ⟨_, standing_takeDown ha fun _ _ => by simp⟩))
  | @expire gone => exact .takeDown (hexpire gone rfl)

/-! ### The course of two parties -/

section Course

variable {s s' : Board κ α} {k : κ} {w f : α} {raced : Bool}

omit [DecidableEq α] [DecidableEq κ] in
theorem Looked.same (h : SameUnder k s s') {c : α} : s'.Looked k c ↔ s.Looked k c := by
  simp only [Looked, h.standing]

omit [DecidableEq α] [DecidableEq κ] in
theorem Missed.same (h : s.Missed k w f) (hsame : SameUnder k s s') :
    s'.Missed k w f where
  looked := fun c hc => (Looked.same hsame).mpr (h.looked c hc)
  holding := fun c host hc hst => h.holding c host hc ((hsame.standing _ _).mp hst)
  meetings := fun m hm hk => h.meetings m ((hsame.meetings m hk).mp hm) hk

omit [DecidableEq α] [DecidableEq κ] in
theorem Course.same (hcourse : Course s k w f raced) (h : SameUnder k s s') :
    Course s' k w f raced := by
  cases hcourse with
  | apart hw hf hn =>
      exact .apart (by rwa [Looked.same h]) (by rwa [Looked.same h]) (h.notice ▸ hn)
  | enlisting hw hf hn =>
      exact .enlisting ((h.standing _ _).mpr hw) (by rwa [Looked.same h]) (h.notice ▸ hn)
  | waiting hw hf hn =>
      exact .waiting ((h.standing _ _).mpr hw) (by rwa [Looked.same h]) (h.notice ▸ hn)
  | holding hw hf => exact .holding ((h.standing _ _).mpr hw) ((h.standing _ _).mpr hf)
  | met hm => exact .met ((h.meetings _ rfl).mpr hm)
  | missed hmissed => exact .missed (hmissed.same h)

omit [DecidableEq κ] in
theorem looked_place {c c' : α} {next : Standing α} :
    (s.place c k next).Looked k c' ↔
      if c' = c then next.looked = true else s.Looked k c' := by
  simp only [Looked, standing_place]
  split <;> simp

omit [DecidableEq κ] in
theorem Looked.takeDown {gone : κ → Bool} {c : α} (h : s.Looked k c) :
    (s.takeDown gone).Looked k c := by
  obtain ⟨st, hst, hlooked⟩ := h
  by_cases hgone : gone k = true ∧ s.notice k = some c ∧ st = .waiting
  · exact ⟨.dismissed, by simp [Board.takeDown, hst, hgone], rfl⟩
  · refine ⟨st, standing_takeDown hst fun h1 h2 h3 => hgone ⟨h1, h2, h3⟩, hlooked⟩

omit [DecidableEq κ] in
theorem Looked.of_takeDown {gone : κ → Bool} {c : α}
    (h : (s.takeDown gone).Looked k c) : s.Looked k c := by
  obtain ⟨st, hst, hlooked⟩ := h
  obtain hst | ⟨_, hst⟩ := standing_takeDown_cases hst
  · exact ⟨st, hst, hlooked⟩
  · exact ⟨.waiting, hst, rfl⟩

omit [DecidableEq κ] in
/-- A party that stands before its look, and still does, changes nothing. -/
theorem Course.placeUnlooked {c : α} {next : Standing α}
    (hcourse : Course s k w f raced) (hc : ¬ s.Looked k c)
    (hnext : next.looked = false) : Course (s.place c k next) k w f raced := by
  cases hcourse with
  | apart hw hf hn => exact .apart (by grind [looked_place]) (by grind [looked_place]) hn
  | enlisting hw hf hn =>
      have hne : w ≠ c := fun heq => hc ⟨_, heq ▸ hw, rfl⟩
      exact .enlisting (standing_place_eq_some.mpr (.inr ⟨hne, hw⟩))
        (by grind [looked_place]) hn
  | waiting hw hf hn =>
      have hne : w ≠ c := fun heq => hc ⟨_, heq ▸ hw, rfl⟩
      exact .waiting (standing_place_eq_some.mpr (.inr ⟨hne, hw⟩))
        (by grind [looked_place]) hn
  | holding hw hf =>
      have hwc : w ≠ c := fun heq => hc ⟨_, heq ▸ hw, rfl⟩
      have hfc : f ≠ c := fun heq => hc ⟨_, heq ▸ hf, rfl⟩
      exact .holding (standing_place_eq_some.mpr (.inr ⟨hwc, hw⟩))
        (standing_place_eq_some.mpr (.inr ⟨hfc, hf⟩))
  | met hm => exact .met hm
  | missed h =>
      refine .missed ⟨fun c' hc' => ?_, fun c' host hc' => ?_, h.meetings⟩
      · have hne : c' ≠ c := fun heq => hc (heq ▸ h.looked c' hc')
        exact looked_place.mpr (by simpa [hne] using h.looked c' hc')
      · have hne : c' ≠ c := fun heq => hc (heq ▸ h.looked c' hc')
        rw [standing_place, if_neg hne]
        exact h.holding c' host hc'

omit [DecidableEq κ] in
theorem Missed.place {c : α} {next : Standing α} (h : s.Missed k w f)
    (hnext : next.looked = true) (hholding : ∀ host, next ≠ .holding host) :
    (s.place c k next).Missed k w f where
  looked := by
    intro c' hc'
    have := h.looked c' hc'
    rw [looked_place]
    split
    · exact hnext
    · exact this
  holding := by
    intro c' host hc'
    have := h.holding c' host hc'
    rw [standing_place]
    split
    · simpa using hholding host
    · exact this
  meetings := h.meetings

omit [DecidableEq κ] in
theorem Missed.takeDown {gone : κ → Bool} (h : s.Missed k w f) :
    (s.takeDown gone).Missed k w f where
  looked := fun c hc => (h.looked c hc).takeDown
  holding := fun c host hc hst => h.holding c host hc (standing_of_takeDown (by simp) hst)
  meetings := h.meetings

/-- Two parties that missed each other keep doing so. -/
theorem Missed.step {m : Move κ α} {c : α} (h : s.Missed k w f) (hs : Step s m s')
    (hc : m.party = some c) (hcw : c = w ∨ c = f)
    (hkey : (∃ st, s.standing c = some (k, st)) ∨ m = .enter c k) : s'.Missed k w f := by
  obtain ⟨st, hst, hlooked⟩ := h.looked c hcw
  cases hs with
  | idle | issue | validate | void | expire => simp [Move.party] at hc
  | enter ha =>
      obtain rfl : _ = c := by simpa [Move.party] using hc
      simp [ha] at hst
  | accept ha =>
      obtain rfl : _ = c := by simpa [Move.party] using hc
      obtain ⟨rfl, rfl⟩ : _ = k ∧ Standing.entering = st := by simpa [ha] using hst
      simp [Standing.looked] at hlooked
  | @advance a k' st' next ha hnext =>
      obtain rfl : a = c := by simpa [Move.party] using hc
      obtain ⟨rfl, rfl⟩ : k' = k ∧ st' = st := by simpa [ha] using hst
      refine h.place ?_ ?_
      · rw [Standing.looked_of_advances hnext]
        exact hlooked
      · intro host
        exact Standing.ne_holding_of_advances hnext
  | look ha =>
      obtain rfl : _ = c := by simpa [Move.party] using hc
      obtain ⟨rfl, rfl⟩ : _ = k ∧ Standing.admitted = st := by simpa [ha] using hst
      simp [Standing.looked] at hlooked
  | @meet a k' host ha =>
      obtain rfl : a = c := by simpa [Move.party] using hc
      obtain ⟨rfl, rfl⟩ : k' = k ∧ Standing.holding host = st := by simpa [ha] using hst
      exact absurd ha (h.holding a host hcw)
  | @enlist a k' ha =>
      obtain rfl : a = c := by simpa [Move.party] using hc
      obtain ⟨rfl, rfl⟩ : k' = k ∧ Standing.enlisting = st := by simpa [ha] using hst
      have hwait : ((s.takeDown (· = k')).place a k' .waiting).Missed k' w f :=
        h.takeDown.place rfl (by simp)
      exact ⟨hwait.looked, hwait.holding, hwait.meetings⟩
  | @withdraw a k' ha =>
      obtain rfl : a = c := by simpa [Move.party] using hc
      obtain ⟨rfl, rfl⟩ : k' = k ∧ Standing.withdrawing = st := by simpa [ha] using hst
      exact h.takeDown.place rfl (by simp)

/-- A meeting stays a meeting. -/
theorem Step.meetings_subset {m : Move κ α} {x : Meeting κ α} (hs : Step s m s')
    (hx : x ∈ s.meetings) : x ∈ s'.meetings := by
  cases hs with
  | @look a k' ha =>
      unfold Board.lookAt
      split
      · exact hx
      · exact hx
  | @meet a k' host ha =>
      unfold Board.meetWith
      split
      · exact mem_meetings_join.mpr (.inl hx)
      · exact hx
  | _ => exact hx

theorem races_eq_nil {m : Move κ α}
    (h : ∀ c, m = .look c → ¬ s.racesAgainst k w f ∧ ¬ s.racesAgainst k f w) :
    races w f k s m = [] := by
  cases m with
  | look c =>
      obtain ⟨hw, hf⟩ := h c rfl
      simp [races, hw, hf]
  | _ => rfl

/-- What a party can do that has not looked yet. -/
theorem Step.of_not_looked {m : Move κ α} {c : α} (hs : Step s m s')
    (hc : m.party = some c)
    (hkey : (∃ st, s.standing c = some (k, st)) ∨ m = .enter c k)
    (hnot : ¬ s.Looked k c) :
    (∃ next, s' = s.place c k next ∧ next.looked = false ∧ ∀ c', m ≠ .look c') ∨
      m = .look c ∧ s' = s.lookAt c k ∧ s.standing c = some (k, .admitted) := by
  have hst : ∀ {k' st}, s.standing c = some (k', st) → k' = k ∧ st.looked = false := by
    intro k' st hst
    cases hs with
    | enter ha =>
        obtain rfl : _ = c := by simpa [Move.party] using hc
        simp [ha] at hst
    | _ =>
        obtain ⟨st', hst'⟩ | heq := hkey
        · obtain ⟨rfl, rfl⟩ : k' = k ∧ st = st' := by simpa [hst] using hst'
          exact ⟨rfl, by simpa using fun hlooked => hnot ⟨st, hst, hlooked⟩⟩
        · cases heq
  cases hs with
  | idle | issue | validate | void | expire => simp [Move.party] at hc
  | @enter a k' ha =>
      obtain rfl : a = c := by simpa [Move.party] using hc
      obtain ⟨st, hst⟩ | heq := hkey
      · simp [ha] at hst
      · obtain rfl : k' = k := by simpa using heq
        exact .inl ⟨.entering, rfl, rfl, by simp⟩
  | @accept a k' ha =>
      obtain rfl : a = c := by simpa [Move.party] using hc
      obtain ⟨rfl, _⟩ := hst ha
      exact .inl ⟨.admitted, rfl, rfl, by simp⟩
  | @advance a k' st next ha hnext =>
      obtain rfl : a = c := by simpa [Move.party] using hc
      obtain ⟨rfl, hlooked⟩ := hst ha
      refine .inl ⟨next, rfl, ?_, by simp⟩
      rw [Standing.looked_of_advances hnext]
      exact hlooked
  | @look a k' ha =>
      obtain rfl : a = c := by simpa [Move.party] using hc
      obtain ⟨rfl, _⟩ := hst ha
      exact .inr ⟨rfl, rfl, ha⟩
  | meet ha | enlist ha | withdraw ha =>
      obtain rfl : _ = c := by simpa [Move.party] using hc
      simpa [Standing.looked] using (hst ha).2

/-- What a party can do that is about to post its notice. -/
theorem Step.of_enlisting {m : Move κ α} {c : α} (hs : Step s m s')
    (hc : m.party = some c) (hst : s.standing c = some (k, .enlisting)) :
    m = .enlist c ∧ s' = s.post c k := by
  cases hs with
  | @advance a k' st next ha hnext =>
      obtain rfl : a = c := by simpa [Move.party] using hc
      obtain ⟨rfl, rfl⟩ : k' = k ∧ st = .enlisting := by simpa [hst] using ha.symm
      cases Standing.advance_of_advances hnext
  | _ => simp_all [Move.party]

/-- What a party can do that waits by its notice. -/
theorem Step.of_waiting {m : Move κ α} {c : α} (hs : Step s m s')
    (hc : m.party = some c) (hst : s.standing c = some (k, .waiting)) :
    m = .advance c .withdrawing := by
  cases hs with
  | @advance a k' st next ha hnext =>
      obtain rfl : a = c := by simpa [Move.party] using hc
      obtain ⟨rfl, rfl⟩ : k' = k ∧ st = .waiting := by simpa [hst] using ha.symm
      cases Standing.advance_of_advances hnext
      rfl
  | _ => simp_all [Move.party]

/-- What a party can do that holds a notice. -/
theorem Step.of_holding {m : Move κ α} {c host : α} (hs : Step s m s')
    (hc : m.party = some c) (hst : s.standing c = some (k, .holding host)) :
    m = .meet c ∧ s' = s.meetWith c k host := by
  cases hs with
  | @advance a k' st next ha hnext =>
      obtain rfl : a = c := by simpa [Move.party] using hc
      obtain ⟨rfl, rfl⟩ : k' = k ∧ st = .holding host := by simpa [hst] using ha.symm
      cases Standing.advance_of_advances hnext
  | _ => simp_all [Move.party]

/-- A party that finds no notice enlists. -/
theorem lookAt_of_notice_eq_none {c : α} (hn : s.notice k = none) :
    s.lookAt c k = s.place c k .enlisting := by
  simp [Board.lookAt, hn]

/-! ### A step of one of the two, by how far they have come -/

/-- A pair that met stays a pair. -/
theorem Course.stepMet {m : Move κ α} (hsound : Sound s) (hs : Step s m s')
    (hm : ⟨k, w, f⟩ ∈ s.meetings) :
    Course s' k w f (false || !(races w f k s m).isEmpty) := by
  have hraces : races w f k s m = [] := by
    obtain ⟨stw, hw, hfirst⟩ := hsound.metFirst hm
    obtain ⟨stf, hf, hsecond⟩ := hsound.metSecond hm
    refine races_eq_nil fun _ _ => ⟨?_, ?_⟩
    · rintro ⟨hw', _⟩
      obtain rfl : stw = .admitted := by simpa [hw] using hw'
      simp [Standing.metFirst] at hfirst
    · rintro ⟨hf', _⟩
      obtain rfl : stf = .admitted := by simpa [hf] using hf'
      simp [Standing.metSecond] at hsecond
  rw [hraces]
  exact .met (hs.meetings_subset hm)

/-- The first of the two to look becomes the waiter. -/
theorem Course.stepApart {m : Move κ α} {c : α} (hne : w ≠ f) (hs : Step s m s')
    (hc : m.party = some c) (hcw : c = w ∨ c = f)
    (hkey : (∃ st, s.standing c = some (k, st)) ∨ m = .enter c k)
    (hw : ¬ s.Looked k w) (hf : ¬ s.Looked k f) (hn : s.notice k = none) :
    Course s' k w f (false || !(races w f k s m).isEmpty) ∨
      Course s' k f w (false || !(races w f k s m).isEmpty) := by
  have hnot : ¬ s.Looked k c := by
    obtain rfl | rfl := hcw
    · exact hw
    · exact hf
  have hraces : races w f k s m = [] :=
    races_eq_nil fun _ _ => ⟨fun h => hf ⟨_, h.2, rfl⟩, fun h => hw ⟨_, h.2, rfl⟩⟩
  rw [hraces]
  obtain ⟨next, rfl, hnext, _⟩ | ⟨_, rfl, _⟩ := hs.of_not_looked hc hkey hnot
  · exact .inl ((Course.apart hw hf hn).placeUnlooked hnot hnext)
  · rw [lookAt_of_notice_eq_none hn]
    obtain rfl | rfl := hcw
    · exact .inl (.enlisting (by simp [standing_place])
        (by simpa [looked_place, hne.symm] using hf) hn)
    · exact .inr (.enlisting (by simp [standing_place])
        (by simpa [looked_place, hne] using hw) hn)

/-- The waiter posts its notice. -/
theorem Course.stepEnlisted {m : Move κ α} (hne : w ≠ f) (hs : Step s m s')
    (hc : m.party = some w) (hw : s.standing w = some (k, .enlisting)) (hf : ¬ s.Looked k f) :
    Course s' k w f (false || !(races w f k s m).isEmpty) := by
  obtain ⟨rfl, rfl⟩ := hs.of_enlisting hc hw
  have hraces : races w f k s (.enlist w) = [] := rfl
  rw [hraces]
  refine .waiting (by simp [Board.post, standing_place]) ?_ (by simp [Board.post, Board.place])
  rintro ⟨st, hst, hlooked⟩
  obtain ⟨heq, _⟩ | ⟨_, hst⟩ := standing_place_eq_some.mp hst
  · exact hne heq.symm
  · have hst : (s.takeDown (· = k)).standing f = some (k, st) := hst
    exact hf (Looked.of_takeDown ⟨st, hst, hlooked⟩)

/-- The finder moves while the waiter stands between its look and its notice: a look of the
finder races against it. -/
theorem Course.stepBesides {m : Move κ α} (hne : w ≠ f) (hsound : Sound s)
    (honly : ∀ {c st}, s.standing c = some (k, st) → c = w ∨ c = f) (hs : Step s m s')
    (hc : m.party = some f) (hkey : (∃ st, s.standing f = some (k, st)) ∨ m = .enter f k)
    (hw : s.standing w = some (k, .enlisting)) (hf : ¬ s.Looked k f) (hn : s.notice k = none) :
    Course s' k w f (false || !(races w f k s m).isEmpty) := by
  obtain ⟨next, rfl, hnext, hlook⟩ | ⟨rfl, rfl, hst⟩ := hs.of_not_looked hc hkey hf
  · have hraces : races w f k s m = [] := races_eq_nil fun c' heq => absurd heq (hlook c')
    rw [hraces]
    exact (Course.enlisting hw hf hn).placeUnlooked hf hnext
  · have hraces : races w f k s (.look f) = [f] := by
      simp [races, racesAgainst, hst, hw]
    rw [hraces, lookAt_of_notice_eq_none hn]
    have hboth : ∀ c', c' = w ∨ c' = f →
        (s.place f k .enlisting).standing c' = some (k, .enlisting) := by
      rintro c' (rfl | rfl)
      · simp [standing_place, hne, hw]
      · simp [standing_place]
    refine .missed ⟨fun c' hc' => ⟨_, hboth c' hc', rfl⟩, fun c' host hc' => ?_, ?_⟩
    · simp [hboth c' hc']
    · -- Neither has met anybody before.
      rintro x hx rfl
      obtain ⟨st, hst', hfirst⟩ := hsound.metFirst hx
      obtain heq | heq := honly hst'
      · obtain rfl : st = .enlisting := by simpa [heq, hw] using hst'.symm
        simp [Standing.metFirst] at hfirst
      · obtain rfl : st = .admitted := by simpa [heq, hst] using hst'.symm
        simp [Standing.metFirst] at hfirst

/-- The finder moves while the notice of the waiter is posted. -/
theorem Course.stepWaiting {m : Move κ α} (hne : w ≠ f) (hs : Step s m s')
    (hc : m.party = some f) (hkey : (∃ st, s.standing f = some (k, st)) ∨ m = .enter f k)
    (hw : s.standing w = some (k, .waiting)) (hf : ¬ s.Looked k f) (hn : s.notice k = some w) :
    Course s' k w f (false || !(races w f k s m).isEmpty) := by
  have hraces : races w f k s m = [] := by
    refine races_eq_nil fun _ _ => ⟨?_, ?_⟩
    · rintro ⟨hw', _⟩
      simp [hw] at hw'
    · rintro ⟨_, hw'⟩
      simp [hw] at hw'
  rw [hraces]
  obtain ⟨next, rfl, hnext, _⟩ | ⟨_, rfl, _⟩ := hs.of_not_looked hc hkey hf
  · exact (Course.waiting hw hf hn).placeUnlooked hf hnext
  · simp only [Board.lookAt, hn]
    exact .holding (by simp [standing_place, hne, hw]) (by simp [standing_place])

/-- The finder meets the waiter whose notice it took down. -/
theorem Course.stepHolding {m : Move κ α} (hs : Step s m s') (hc : m.party = some f)
    (hw : s.standing w = some (k, .waiting)) (hf : s.standing f = some (k, .holding w)) :
    Course s' k w f (false || !(races w f k s m).isEmpty) := by
  obtain ⟨rfl, rfl⟩ := hs.of_holding hc hf
  have hraces : races w f k s (.meet f) = [] := rfl
  rw [hraces]
  simp only [Board.meetWith, hw]
  exact .met (mem_meetings_join.mpr (.inr rfl))

/-- A step of one of the two. -/
theorem Course.stepParty {m : Move κ α} {c : α} (hne : w ≠ f) (hsound : Sound s)
    (honly : ∀ {c st}, s.standing c = some (k, st) → c = w ∨ c = f)
    (hcourse : Course s k w f raced) (hs : Step s m s') (hc : m.party = some c)
    (hcw : c = w ∨ c = f)
    (hkey : (∃ st, s.standing c = some (k, st)) ∨ m = .enter c k)
    (hstay : m ≠ .advance c .withdrawing) :
    Course s' k w f (raced || !(races w f k s m).isEmpty) ∨
      Course s' k f w (raced || !(races w f k s m).isEmpty) := by
  cases hcourse with
  | met hm => exact .inl (.stepMet hsound hs hm)
  | missed h => exact .inl (.missed (h.step hs hc hcw hkey))
  | apart hw hf hn => exact Course.stepApart hne hs hc hcw hkey hw hf hn
  | enlisting hw hf hn =>
      obtain rfl | rfl := hcw
      · exact .inl (.stepEnlisted hne hs hc hw hf)
      · exact .inl (.stepBesides hne hsound honly hs hc hkey hw hf hn)
  | waiting hw hf hn =>
      obtain rfl | rfl := hcw
      · exact absurd (hs.of_waiting hc hw) hstay
      · exact .inl (.stepWaiting hne hs hc hkey hw hf hn)
  | holding hw hf =>
      obtain rfl | rfl := hcw
      · exact absurd (hs.of_waiting hc hw) hstay
      · exact .inl (.stepHolding hs hc hw hf)

theorem races_swap (m : Move κ α) : races f w k s m = races w f k s m := by
  cases m <;> simp [races, or_comm]

/-- One step of an undisturbed run. -/
theorem Course.step {m : Move κ α} (hne : w ≠ f) (hsound : Sound s)
    (honly : ∀ {c st}, s.standing c = some (k, st) → c = w ∨ c = f)
    (hcourse : Course s k w f raced) (hok : undisturbed w f k s m) (hs : Step s m s') :
    Course s' k w f (raced || !(races w f k s m).isEmpty) ∨
      Course s' k f w (raced || !(races w f k s m).isEmpty) := by
  have hexpire : ∀ gone, m = .expire gone → gone k = false := by
    rintro gone rfl
    exact hok
  have hstay : ∀ {c}, c = w ∨ c = f → m ≠ .advance c .withdrawing := by
    rintro c hc rfl
    have := hok rfl
    grind
  by_cases hparty : ∃ c, m.party = some c ∧
      ((∃ st, s.standing c = some (k, st)) ∨ m = .enter c k)
  · obtain ⟨c, hc, hkey⟩ := hparty
    have hcw : c = w ∨ c = f := by
      obtain ⟨st, hst⟩ | rfl := hkey
      · exact honly hst
      · exact hok rfl
    exact hcourse.stepParty hne hsound honly hs hc hcw hkey (hstay hcw)
  · left
    have hsame : SameUnder k s s' := by
      obtain hsame | ⟨c, rfl⟩ | ⟨c, st, hc, hst⟩ := hs.sameUnder_or_party hsound hexpire
      · exact hsame
      · exact absurd ⟨c, rfl, .inr rfl⟩ hparty
      · exact absurd ⟨c, hc, .inl ⟨st, hst⟩⟩ hparty
    have hraces : races w f k s m = [] := by
      cases m with
      | look c =>
          refine if_neg ?_
          rintro (⟨rfl, hst, _⟩ | ⟨rfl, hst, _⟩)
          · exact hparty ⟨c, rfl, .inl ⟨_, hst⟩⟩
          · exact hparty ⟨c, rfl, .inl ⟨_, hst⟩⟩
      | _ => rfl
    simpa [hraces] using hcourse.same hsame

end Course

/-- A party presents the same key all along. -/
theorem Step.key_of_standing {s s' : Board κ α} {m : Move κ α} {c : α} {k : κ}
    {st : Standing α} (hsound : Sound s) (hs : Step s m s')
    (hst : s'.standing c = some (k, st)) :
    (∃ st', s.standing c = some (k, st')) ∨ m = .enter c k := by
  have hplace : ∀ {t : Board κ α} {a k' st' next}, t.standing a = some (k', st') →
      (t.place a k' next).standing c = some (k, st) →
        ∃ st', t.standing c = some (k, st') := by
    intro t a k' st' next ha hst
    obtain ⟨rfl, rfl, _⟩ | ⟨_, hst⟩ := standing_place_eq_some.mp hst
    · exact ⟨st', ha⟩
    · exact ⟨st, hst⟩
  have htake : ∀ {gone st'}, (s.takeDown gone).standing c = some (k, st') →
      ∃ st', s.standing c = some (k, st') := by
    intro gone st' hst
    obtain hst | ⟨_, hst⟩ := standing_takeDown_cases hst
    · exact ⟨_, hst⟩
    · exact ⟨_, hst⟩
  cases hs with
  | idle | issue | validate | void => exact .inl ⟨st, hst⟩
  | enter ha =>
      obtain ⟨rfl, rfl, _⟩ | ⟨_, hst⟩ := standing_place_eq_some.mp hst
      · exact .inr rfl
      · exact .inl ⟨st, hst⟩
  | accept ha | advance ha => exact .inl (hplace ha hst)
  | @look a k' ha =>
      unfold Board.lookAt at hst
      split at hst
      · exact .inl (hplace (t := { s with notice := _ }) ha hst)
      · exact .inl (hplace ha hst)
  | @meet a k' host ha =>
      obtain ⟨st', hhost, _⟩ := hsound.held ha
      unfold Board.meetWith at hst
      split at hst
      · rw [standing_join] at hst
        left
        have : s.standing c = (s.voidKeys (· = k')).standing c := rfl
        grind
      · exact .inl (hplace (t := s.voidKeys _) ha hst)
  | @enlist a k' ha =>
      have ha' : (s.takeDown (· = k')).standing a = some (k', .enlisting) :=
        standing_takeDown ha fun _ _ => by simp
      have hst : ((s.takeDown (· = k')).place a k' .waiting).standing c = some (k, st) :=
        hst
      obtain ⟨st', hst⟩ := hplace ha' hst
      exact .inl (htake hst)
  | @withdraw a k' ha =>
      have ha' : (s.takeDown (· = k')).standing a = some (k', .withdrawing) :=
        standing_takeDown ha fun _ _ => by simp
      obtain ⟨st', hst⟩ := hplace ha' hst
      exact .inl (htake hst)
  | expire => exact .inl (htake hst)

omit [DecidableEq κ] in
/-- Whether the two are paired can be read off their course. -/
theorem Course.xor_iff {s : Board κ α} {k : κ} {w f : α} {raced : Bool}
    (hsound : Sound s) (hcourse : Course s k w f raced) (hw : s.Looked k w)
    (hf : s.Looked k f) :
    Xor (s.PairsWith k w f) (s.PairsWith k f w) ↔ raced = false := by
  cases hcourse with
  | apart hw' => exact absurd hw hw'
  | enlisting _ hf' => exact absurd hf hf'
  | waiting _ hf' => exact absurd hf hf'
  | holding hwait hhold =>
      refine iff_of_true (.inl ⟨.inr ⟨hhold, hwait⟩, ?_⟩) rfl
      rintro (hm | ⟨hw', _⟩)
      · obtain ⟨st, hst, hfirst⟩ := hsound.metFirst hm
        obtain rfl : st = .holding w := by simpa [hhold] using hst.symm
        simp [Standing.metFirst] at hfirst
      · simp [hwait] at hw'
  | met hm =>
      obtain ⟨stw, hstw, hfirst⟩ := hsound.metFirst hm
      obtain ⟨stf, hstf, hsecond⟩ := hsound.metSecond hm
      refine iff_of_true (.inl ⟨.inl hm, ?_⟩) rfl
      rintro (hm' | ⟨hw', _⟩)
      · exact hsound.first_ne_second hm hm' rfl
      · obtain rfl : stw = .holding f := by simpa [hstw] using hw'
        simp [Standing.metFirst] at hfirst
  | missed hmissed =>
      refine iff_of_false ?_ (by simp)
      rintro (⟨hm | ⟨hhold, _⟩, _⟩ | ⟨hm | ⟨hhold, _⟩, _⟩)
      · exact hmissed.meetings _ hm rfl
      · exact hmissed.holding f w (.inr rfl) hhold
      · exact hmissed.meetings _ hm rfl
      · exact hmissed.holding w f (.inl rfl) hhold

section

variable {a b : α} {k : κ} [∀ (s : Board κ α) m, Decidable (undisturbed a b k s m)]

/-- In an undisturbed run only the two present the key. -/
theorem only_of_undisturbed {s : Board κ α}
    (h : (machine.restrict (undisturbed a b k)).Reachable s) :
    ∀ {c st}, s.standing c = some (k, st) → c = a ∨ c = b := by
  induction h with
  | init => simp [machine, Machine.restrict, Board.empty]
  | step hreach hs ih =>
      intro c st hst
      obtain ⟨hok, hs⟩ := Machine.restrict_step.mp hs
      have hsound := sound_of_reachable hreach.of_restrict
      obtain ⟨st', hst⟩ | rfl := (step_iff.mp hs).key_of_standing hsound hst
      · exact ih hst
      · exact hok rfl

/-- Two undisturbed parties that have both looked are paired one way round, not
both, exactly when no race took place between them. -/
theorem pairsWith_xor_iff {events : List α} {s : Board κ α} (hne : a ≠ b)
    (h : (machine.restrict (undisturbed a b k)).Trace (races a b k) events s)
    (ha : s.Looked k a) (hb : s.Looked k b) :
    Xor (s.PairsWith k a b) (s.PairsWith k b a) ↔ events = [] := by
  have hsound : Sound s := sound_of_reachable h.reachable.of_restrict
  have hcourse : Course s k a b (!events.isEmpty) ∨ Course s k b a (!events.isEmpty) := by
    clear ha hb hsound
    induction h with
    | init =>
        exact .inl (.apart (by simp [Looked, machine, Machine.restrict, Board.empty])
          (by simp [Looked, machine, Machine.restrict, Board.empty]) rfl)
    | @step events s s' m h hs ih =>
        obtain ⟨hok, hs⟩ := Machine.restrict_step.mp hs
        have hs := step_iff.mp hs
        have hsound := sound_of_reachable h.reachable.of_restrict
        have honly : ∀ {c st}, s.standing c = some (k, st) → c = a ∨ c = b :=
          only_of_undisturbed h.reachable
        have hevents : (!(events ++ races a b k s m).isEmpty) =
            (!events.isEmpty || !(races a b k s m).isEmpty) := by
          cases events <;> simp
        rw [hevents]
        rcases ih with hcourse | hcourse
        · exact hcourse.step hne hsound honly hok hs
        · have hok' : undisturbed b a k s m := by
            cases m <;> simp_all [undisturbed, or_comm]
          rw [← races_swap]
          exact (hcourse.step hne.symm hsound (fun hst => (honly hst).symm) hok' hs).symm
  have hempty : (!events.isEmpty) = false ↔ events = [] := by simp
  rw [← hempty]
  rcases hcourse with hcourse | hcourse
  · exact hcourse.xor_iff hsound ha hb
  · rw [xor_comm]
    exact hcourse.xor_iff hsound hb ha

end

end Board

end War3BattleTool.Foundation
