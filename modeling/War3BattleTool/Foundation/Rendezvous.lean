import Mathlib.Logic.Function.Basic
import War3BattleTool.Foundation.Machine

set_option autoImplicit false

/-!
# Two parties meet under a key

A rendezvous board pairs parties that present the same key.  A key is issued,
becomes valid, and is voided at its first use.  A party that presents a valid
key looks at the board: if a notice hangs there under the key, the party takes
it down and hands itself over to the poster; otherwise it enlists, that is, it
posts a notice of its own and waits.  Looking and posting are separate steps, so
others may move in between.

The board is a `Machine` over arbitrary keys and parties.  `Sound` is its
invariant: every notice, every notice taken down and every meeting belongs to a
party that stands accordingly, and nobody's notice is in two places.
-/

namespace War3BattleTool.Foundation

/-- Two parties that met under a key: `first` had posted the notice, `second`
took it down. -/
structure Meeting (κ α : Type) where
  key : κ
  first : α
  second : α
  deriving DecidableEq

/-- `a` and `b` are the two parties of the meeting. -/
def Meeting.Joins {κ α : Type} (m : Meeting κ α) (a b : α) : Prop :=
  a = m.first ∧ b = m.second ∨ a = m.second ∧ b = m.first

theorem Meeting.Joins.symm {κ α : Type} {m : Meeting κ α} {a b : α} (h : m.Joins a b) :
    m.Joins b a := by
  obtain ⟨ha, hb⟩ | ⟨ha, hb⟩ := h
  · exact .inr ⟨hb, ha⟩
  · exact .inl ⟨hb, ha⟩

/-- A party of a meeting has one partner there. -/
theorem Meeting.Joins.unique {κ α : Type} {m : Meeting κ α} {a b b' : α}
    (h : m.Joins a b) (h' : m.Joins a b') : b = b' := by
  obtain ⟨rfl, rfl⟩ | ⟨rfl, rfl⟩ := h
  · obtain ⟨_, rfl⟩ | ⟨heq, rfl⟩ := h'
    · rfl
    · exact heq.symm
  · obtain ⟨heq, rfl⟩ | ⟨_, rfl⟩ := h'
    · exact heq.symm
    · rfl

/-- The life of a key. -/
inductive Stage where
  | unissued
  | pending
  | valid
  | void
  deriving DecidableEq

/-- A valid key is void once it is used. -/
def Stage.voided : Stage → Stage
  | .valid => .void
  | stage => stage

/-- How far a party has come. -/
inductive Standing (α : Type) where
  | entering
  /-- its key was not accepted -/
  | refused
  /-- its key was accepted; it has not looked at the board -/
  | admitted
  /-- took down the notice of `host` -/
  | holding (host : α)
  /-- saw no notice and has not posted its own -/
  | enlisting
  /-- its notice is posted -/
  | waiting
  /-- `partner` handed itself over -/
  | chosen (partner : α)
  /-- its notice was thrown away -/
  | dismissed
  /-- gave up and is about to take its notice back -/
  | withdrawing
  /-- engaged with `partner`, as the one who waited -/
  | first (partner : α)
  /-- engaged with `partner`, as the one who found the notice -/
  | second (partner : α)
  /-- gone, after having enlisted -/
  | departed
  /-- gone, without ever having enlisted -/
  | left
  deriving DecidableEq

namespace Standing

variable {α : Type}

/-- The changes of standing that concern the party alone. -/
def advances [DecidableEq α] : Standing α → Standing α → Bool
  | .entering, .refused => true
  | .chosen partner, .first partner' => partner = partner'
  | .waiting, .withdrawing => true
  | .chosen _, .withdrawing => true
  | .dismissed, .withdrawing => true
  | .dismissed, .departed => true
  | .first _, .departed => true
  | .second _, .left => true
  | _, _ => false

/-- The party has looked at the board. -/
def looked : Standing α → Bool
  | .entering | .refused | .admitted => false
  | _ => true

/-- How the poster of a notice can stand. -/
def posts : Standing α → Bool
  | .waiting | .withdrawing => true
  | _ => false

/-- How the poster of a notice can stand once the notice is taken down. -/
def gave : Standing α → Bool
  | .waiting | .withdrawing | .departed => true
  | _ => false

/-- How the party that waited can stand after a meeting with `partner`. -/
def metFirst [DecidableEq α] (partner : α) : Standing α → Bool
  | .chosen other | .first other => other = partner
  | .withdrawing | .departed => true
  | _ => false

/-- How the party that found the notice can stand after a meeting with
`partner`. -/
def metSecond [DecidableEq α] (partner : α) : Standing α → Bool
  | .second other => other = partner
  | .left => true
  | _ => false

/-- The party is engaged with `partner`, as the one who waited. -/
def engaged [DecidableEq α] (partner : α) : Standing α → Bool
  | .chosen other | .first other => other = partner
  | _ => false

/-- A party that changes from `st` to `next` still fits every notice taken down
and every meeting it fitted, and fits no new one. -/
structure Follows [DecidableEq α] (st next : Standing α) : Prop where
  gave : st.gave = true → next.gave = true
  metFirst : ∀ partner, st.metFirst partner = true → next.metFirst partner = true
  metSecond : ∀ partner, st.metSecond partner = true → next.metSecond partner = true
  engaged : ∀ partner, next.engaged partner = true → st.engaged partner = true
  second : ∀ partner, next = .second partner → st = .second partner
  holding : ∀ host, next = .holding host → st = .holding host

/-- The changes of standing that `advances` allows, one by one. -/
inductive Advance : Standing α → Standing α → Prop
  | refuse : Advance .entering .refused
  | begin (partner : α) : Advance (.chosen partner) (.first partner)
  | cease : Advance .waiting .withdrawing
  | decline (partner : α) : Advance (.chosen partner) .withdrawing
  | withdraw : Advance .dismissed .withdrawing
  | depart : Advance .dismissed .departed
  | finish (partner : α) : Advance (.first partner) .departed
  | leave (partner : α) : Advance (.second partner) .left

theorem advance_of_advances [DecidableEq α] {st next : Standing α}
    (h : st.advances next = true) : Advance st next := by
  unfold advances at h
  split at h
  case h_2 partner partner' =>
    obtain rfl : partner = partner' := of_decide_eq_true h
    exact .begin partner
  case h_9 => cases h
  all_goals constructor

theorem follows_of_advances [DecidableEq α] {st next : Standing α}
    (h : st.advances next = true) : Follows st next := by
  cases advance_of_advances h <;>
    constructor <;>
      simp [Standing.gave, Standing.metFirst, Standing.metSecond, Standing.engaged]

theorem posts_of_advances [DecidableEq α] {st next : Standing α}
    (h : st.advances next = true) (hposts : st.posts = true) : next.posts = true := by
  cases advance_of_advances h with
  | cease => rfl
  | _ => cases hposts

/-- No party looks at the board on its own. -/
theorem looked_of_advances [DecidableEq α] {st next : Standing α}
    (h : st.advances next = true) : next.looked = st.looked := by
  cases advance_of_advances h <;> rfl

theorem ne_holding_of_advances [DecidableEq α] {st next : Standing α} {host : α}
    (h : st.advances next = true) : next ≠ .holding host := by
  cases advance_of_advances h <;> exact nofun

end Standing

/-- The board: the stage of every key, the key and standing of every party, the
notices, and the meetings so far. -/
structure Board (κ α : Type) where
  stage : κ → Stage
  standing : α → Option (κ × Standing α)
  notice : κ → Option α
  meetings : List (Meeting κ α)

namespace Board

/-- What can happen at the board. -/
inductive Move (κ α : Type) where
  | idle
  | issue (k : κ)
  | validate (k : κ)
  /-- the valid keys among `gone` become void -/
  | void (gone : κ → Bool)
  | enter (a : α) (k : κ)
  | accept (a : α)
  | advance (a : α) (next : Standing α)
  | look (a : α)
  /-- hand oneself over to the party whose notice one holds -/
  | meet (a : α)
  /-- post a notice, throwing away the one that hangs there -/
  | enlist (a : α)
  /-- take down whatever hangs under one's key, and leave -/
  | withdraw (a : α)
  /-- the notices under the keys `gone` are thrown away -/
  | expire (gone : κ → Bool)

variable {κ α : Type}

/-- An empty board. -/
def empty : Board κ α where
  stage := fun _ => .unissued
  standing := fun _ => none
  notice := fun _ => none
  meetings := []

/-- The valid keys among `gone` become void. -/
def voidKeys (b : Board κ α) (gone : κ → Bool) : Board κ α :=
  { b with
    stage := fun k => if gone k then (b.stage k).voided else b.stage k }

variable [DecidableEq α]

/-- A party takes a standing. -/
def place (b : Board κ α) (a : α) (k : κ) (st : Standing α) : Board κ α :=
  { b with standing := Function.update b.standing a (some (k, st)) }

/-- The notices under the keys `gone` are thrown away, and the parties that wait
by them are dismissed. -/
def takeDown (b : Board κ α) (gone : κ → Bool) : Board κ α :=
  { b with
    notice := fun k => if gone k then none else b.notice k
    standing := fun a => (b.standing a).map fun x =>
      if gone x.1 ∧ b.notice x.1 = some a ∧ x.2 = .waiting then (x.1, .dismissed)
      else x }

variable [DecidableEq κ]

/-- Take down the notice under one's key, or be about to post one. -/
def lookAt (b : Board κ α) (a : α) (k : κ) : Board κ α :=
  match b.notice k with
  | some host =>
      { b with notice := Function.update b.notice k none }.place a k (.holding host)
  | none => b.place a k .enlisting

/-- The board after `a` joined `host`. -/
def join (b : Board κ α) (a : α) (k : κ) (host : α) : Board κ α :=
  { b with meetings := b.meetings ++ [Meeting.mk k host a] }
    |>.place host k (.chosen a)
    |>.place a k (.second host)

/-- Void the key and join the poster of the notice, who must still wait. -/
def meetWith (b : Board κ α) (a : α) (k : κ) (host : α) : Board κ α :=
  match b.standing host with
  | some (_, .waiting) => (b.voidKeys (· = k)).join a k host
  | _ => (b.voidKeys (· = k)).place a k .left

/-- Post a notice. -/
def post (b : Board κ α) (a : α) (k : κ) : Board κ α :=
  let b := b.takeDown (· = k)
  { b with notice := Function.update b.notice k (some a) }.place a k .waiting

/-- One move. -/
def step (b : Board κ α) : Move κ α → Option (Board κ α)
  | .idle => some b
  | .issue k =>
      if b.stage k = .unissued then
        some { b with stage := Function.update b.stage k .pending }
      else none
  | .validate k =>
      if b.stage k = .pending then
        some { b with stage := Function.update b.stage k .valid }
      else none
  | .void gone => some (b.voidKeys gone)
  | .enter a k => if b.standing a = none then some (b.place a k .entering) else none
  | .accept a =>
      match b.standing a with
      | some (k, .entering) =>
          if b.stage k = .valid then some (b.place a k .admitted) else none
      | _ => none
  | .advance a next =>
      match b.standing a with
      | some (k, st) => if st.advances next then some (b.place a k next) else none
      | none => none
  | .look a =>
      match b.standing a with
      | some (k, .admitted) => some (b.lookAt a k)
      | _ => none
  | .meet a =>
      match b.standing a with
      | some (k, .holding host) => some (b.meetWith a k host)
      | _ => none
  | .enlist a =>
      match b.standing a with
      | some (k, .enlisting) => some (b.post a k)
      | _ => none
  | .withdraw a =>
      match b.standing a with
      | some (k, .withdrawing) => some ((b.takeDown (· = k)).place a k .departed)
      | _ => none
  | .expire gone => some (b.takeDown gone)

/-- The board as a machine. -/
def machine : Machine (Board κ α) (Move κ α) where
  init := empty
  step := step

/-! ## Soundness -/

/-- The places where the notice of a party can be. -/
inductive Place (κ α : Type) where
  | posted (k : κ)
  | held (holder : α)
  | used (m : Meeting κ α)

omit [DecidableEq α] [DecidableEq κ] in
/-- The notice of `a` is at the place. -/
def NoticeAt (b : Board κ α) (a : α) : Place κ α → Prop
  | .posted k => b.notice k = some a
  | .held holder => ∃ k, b.standing holder = some (k, .holding a)
  | .used m => m ∈ b.meetings ∧ m.first = a

/-- Parties stand as notices, holders and meetings say. -/
structure Sound (b : Board κ α) : Prop where
  posted : ∀ {k a}, b.notice k = some a →
    ∃ st, b.standing a = some (k, st) ∧ st.posts = true
  held : ∀ {k a host}, b.standing a = some (k, .holding host) →
    ∃ st, b.standing host = some (k, st) ∧ st.gave = true
  metFirst : ∀ {m}, m ∈ b.meetings →
    ∃ st, b.standing m.first = some (m.key, st) ∧ st.metFirst m.second = true
  metSecond : ∀ {m}, m ∈ b.meetings →
    ∃ st, b.standing m.second = some (m.key, st) ∧ st.metSecond m.first = true
  engaged : ∀ {k a partner st}, b.standing a = some (k, st) →
    st.engaged partner = true → ⟨k, a, partner⟩ ∈ b.meetings
  second : ∀ {k a partner}, b.standing a = some (k, .second partner) →
    ⟨k, partner, a⟩ ∈ b.meetings
  /-- a party has one notice, in one place -/
  oneNotice : ∀ {a p q}, b.NoticeAt a p → b.NoticeAt a q → p = q
  /-- a party finds one notice -/
  oneSecond : ∀ {m m'}, m ∈ b.meetings → m' ∈ b.meetings →
    m.second = m'.second → m = m'

omit [DecidableEq κ] in
theorem Sound.empty : Sound (empty : Board κ α) where
  posted := by simp [Board.empty]
  held := by simp [Board.empty]
  metFirst := by simp [Board.empty]
  metSecond := by simp [Board.empty]
  engaged := by simp [Board.empty]
  second := by simp [Board.empty]
  oneNotice := by
    intro a p q hp _
    cases p <;> simp [NoticeAt, Board.empty] at hp
  oneSecond := by simp [Board.empty]

omit [DecidableEq κ] in
/-- Nobody both waits for a meeting and finds a notice. -/
theorem Sound.first_ne_second {b : Board κ α} (h : Sound b) {m m' : Meeting κ α}
    (hm : m ∈ b.meetings) (hm' : m' ∈ b.meetings) : m.first ≠ m'.second := by
  intro heq
  obtain ⟨st, hst, hfirst⟩ := h.metFirst hm
  obtain ⟨st', hst', hsecond⟩ := h.metSecond hm'
  obtain rfl : st = st' := by
    rw [heq] at hst
    simp only [hst, Option.some.injEq, Prod.mk.injEq] at hst'
    exact hst'.2
  cases st <;> simp_all [Standing.metFirst, Standing.metSecond]

omit [DecidableEq κ] in
/-- A party takes part in one meeting. -/
theorem Sound.meeting_unique {b : Board κ α} (h : Sound b) {m m' : Meeting κ α}
    {a x y : α} (hm : m ∈ b.meetings) (hm' : m' ∈ b.meetings) (hx : m.Joins a x)
    (hy : m'.Joins a y) : m = m' := by
  obtain ⟨rfl, _⟩ | ⟨rfl, _⟩ := hx
  · obtain ⟨heq, _⟩ | ⟨heq, _⟩ := hy
    · have hused := h.oneNotice (p := .used m) (q := .used m') ⟨hm, rfl⟩ ⟨hm', heq.symm⟩
      simpa using hused
    · exact absurd heq (h.first_ne_second hm hm')
  · obtain ⟨heq, _⟩ | ⟨heq, _⟩ := hy
    · exact absurd heq.symm (h.first_ne_second hm' hm)
    · exact h.oneSecond hm hm' heq

/-! ### Changes of one standing -/

section Place

variable {b : Board κ α} {a a' : α} {k k' : κ} {st st' next : Standing α}

omit [DecidableEq κ] in
theorem standing_place :
    (b.place a k next).standing a' =
      if a' = a then some (k, next) else b.standing a' := by
  simp [place, Function.update_apply]

omit [DecidableEq κ] in
theorem standing_place_eq_some :
    (b.place a k next).standing a' = some (k', st') ↔
      a' = a ∧ k' = k ∧ st' = next ∨ a' ≠ a ∧ b.standing a' = some (k', st') := by
  rw [standing_place]
  split <;> simp_all [eq_comm]

omit [DecidableEq κ] in
/-- What a party is required to be survives a change that preserves it. -/
theorem exists_standing_place {P : Standing α → Prop}
    (hst : b.standing a = some (k, st)) (hP : a' = a → P st → P next)
    (h : ∃ st', b.standing a' = some (k', st') ∧ P st') :
    ∃ st', (b.place a k next).standing a' = some (k', st') ∧ P st' := by
  obtain ⟨st', hst', hp⟩ := h
  by_cases ha : a' = a
  · subst ha
    obtain ⟨rfl, rfl⟩ : k = k' ∧ st = st' := by simpa [hst] using hst'
    exact ⟨next, standing_place_eq_some.mpr (.inl ⟨rfl, rfl, rfl⟩), hP rfl hp⟩
  · exact ⟨st', standing_place_eq_some.mpr (.inr ⟨ha, hst'⟩), hp⟩

omit [DecidableEq κ] in
/-- A change of standing moves no notice, unless the party now holds one. -/
theorem noticeAt_of_place {p : Place κ α} (hst : b.standing a = some (k, st))
    (hholding : ∀ host, next = .holding host → st = .holding host)
    (h : (b.place a k next).NoticeAt a' p) : b.NoticeAt a' p := by
  cases p with
  | posted k' => exact h
  | held holder =>
      obtain ⟨k', h⟩ := h
      obtain ⟨rfl, rfl, hnext⟩ | ⟨_, h⟩ := standing_place_eq_some.mp h
      · exact ⟨k', hholding a' hnext.symm ▸ hst⟩
      · exact ⟨k', h⟩
  | used m => exact h

omit [DecidableEq κ] in
/-- A party may change to a standing that follows from its own; one whose notice
is posted must also remain a poster. -/
theorem Sound.place (h : Sound b) (hst : b.standing a = some (k, st))
    (hnext : Standing.Follows st next)
    (hposts : ∀ k', b.notice k' = some a → next.posts = true) :
    Sound (b.place a k next) where
  posted := by
    intro k' a' hn
    exact exists_standing_place hst (fun ha _ => hposts k' (ha ▸ hn)) (h.posted hn)
  held := by
    intro k' a' host ha'
    have hheld : b.standing a' = some (k', .holding host) := by
      obtain ⟨rfl, rfl, heq⟩ | ⟨_, ha'⟩ := standing_place_eq_some.mp ha'
      · exact hnext.holding host heq.symm ▸ hst
      · exact ha'
    exact exists_standing_place hst (fun _ => hnext.gave) (h.held hheld)
  metFirst := fun hm =>
    exists_standing_place hst (fun _ => hnext.metFirst _) (h.metFirst hm)
  metSecond := fun hm =>
    exists_standing_place hst (fun _ => hnext.metSecond _) (h.metSecond hm)
  engaged := by
    intro k' a' partner st' ha' hengaged
    obtain ⟨rfl, rfl, rfl⟩ | ⟨_, ha'⟩ := standing_place_eq_some.mp ha'
    · exact h.engaged hst (hnext.engaged partner hengaged)
    · exact h.engaged ha' hengaged
  second := by
    intro k' a' partner ha'
    obtain ⟨rfl, rfl, heq⟩ | ⟨_, ha'⟩ := standing_place_eq_some.mp ha'
    · exact h.second (hnext.second partner heq.symm ▸ hst)
    · exact h.second ha'
  oneNotice := fun hp hq =>
    h.oneNotice (noticeAt_of_place hst hnext.holding hp)
      (noticeAt_of_place hst hnext.holding hq)
  oneSecond := h.oneSecond

omit [DecidableEq κ] in
theorem exists_standing_enter {P : Standing α → Prop} (ha : b.standing a = none)
    (h : ∃ st', b.standing a' = some (k', st') ∧ P st') :
    ∃ st', (b.place a k next).standing a' = some (k', st') ∧ P st' := by
  obtain ⟨st', hst', hp⟩ := h
  have hne : a' ≠ a := by
    rintro rfl
    simp [ha] at hst'
  exact ⟨st', standing_place_eq_some.mpr (.inr ⟨hne, hst'⟩), hp⟩

omit [DecidableEq κ] in
/-- A newcomer disturbs nothing. -/
theorem Sound.enter (h : Sound b) (ha : b.standing a = none) :
    Sound (b.place a k .entering) where
  posted := fun hn => exists_standing_enter ha (h.posted hn)
  held := by
    intro k' a' host ha'
    obtain ⟨_, _, ha'⟩ | ⟨_, ha'⟩ := standing_place_eq_some.mp ha'
    · cases ha'
    · exact exists_standing_enter ha (h.held ha')
  metFirst := fun hm => exists_standing_enter ha (h.metFirst hm)
  metSecond := fun hm => exists_standing_enter ha (h.metSecond hm)
  engaged := by
    intro k' a' partner st' ha' hengaged
    obtain ⟨_, _, rfl⟩ | ⟨_, ha'⟩ := standing_place_eq_some.mp ha'
    · simp [Standing.engaged] at hengaged
    · exact h.engaged ha' hengaged
  second := by
    intro k' a' partner ha'
    obtain ⟨_, _, ha'⟩ | ⟨_, ha'⟩ := standing_place_eq_some.mp ha'
    · cases ha'
    · exact h.second ha'
  oneNotice := by
    have hback : ∀ {a' p}, (b.place a k .entering).NoticeAt a' p → b.NoticeAt a' p := by
      intro a' p hp
      cases p with
      | posted k' => exact hp
      | held holder =>
          obtain ⟨k', hp⟩ := hp
          obtain ⟨_, _, hp⟩ | ⟨_, hp⟩ := standing_place_eq_some.mp hp
          · cases hp
          · exact ⟨k', hp⟩
      | used m => exact hp
    intro a' p q hp hq
    exact h.oneNotice (hback hp) (hback hq)
  oneSecond := h.oneSecond

end Place

/-! ### Notices thrown away -/

section TakeDown

variable {b : Board κ α} {gone : κ → Bool} {a : α} {k : κ} {st : Standing α}

omit [DecidableEq κ] in
/-- A party stands as before, or was dismissed while it waited. -/
theorem standing_takeDown_cases (h : (b.takeDown gone).standing a = some (k, st)) :
    b.standing a = some (k, st) ∨
      st = .dismissed ∧ b.standing a = some (k, .waiting) := by
  simp only [Board.takeDown, Option.map_eq_some_iff] at h
  obtain ⟨⟨k', st'⟩, ha, heq⟩ := h
  split at heq
  · next hwait =>
    obtain ⟨rfl, rfl⟩ : k' = k ∧ .dismissed = st := by simpa using heq
    obtain rfl : st' = .waiting := hwait.2.2
    exact .inr ⟨rfl, ha⟩
  · exact .inl (heq ▸ ha)

omit [DecidableEq κ] in
theorem standing_of_takeDown (hst : st ≠ .dismissed)
    (h : (b.takeDown gone).standing a = some (k, st)) :
    b.standing a = some (k, st) :=
  (standing_takeDown_cases h).resolve_right fun hdismissed => hst hdismissed.1

omit [DecidableEq κ] in
/-- A party stands as before unless it waits by a notice that is gone. -/
theorem standing_takeDown (h : b.standing a = some (k, st))
    (hkeep : gone k = true → b.notice k = some a → st ≠ .waiting) :
    (b.takeDown gone).standing a = some (k, st) := by
  have : ¬ (gone k = true ∧ b.notice k = some a ∧ st = .waiting) :=
    fun hgone => hkeep hgone.1 hgone.2.1 hgone.2.2
  simp [Board.takeDown, h, this]

omit [DecidableEq κ] in
theorem Sound.takeDown (h : Sound b) : Sound (b.takeDown gone) where
  posted := by
    intro k a hn
    have hn : gone k = false ∧ b.notice k = some a := by
      simpa [Board.takeDown] using hn
    obtain ⟨st, hst, hp⟩ := h.posted hn.2
    exact ⟨st, standing_takeDown hst (by simp [hn.1]), hp⟩
  held := by
    intro k a host ha
    have ha := standing_of_takeDown (by simp) ha
    obtain ⟨st, hst, hp⟩ := h.held ha
    refine ⟨st, standing_takeDown hst fun _ hn => ?_, hp⟩
    -- A notice that `a` holds does not hang at the board.
    have := h.oneNotice (p := .posted k) (q := .held a) hn ⟨k, ha⟩
    cases this
  metFirst := by
    intro m hm
    obtain ⟨st, hst, hp⟩ := h.metFirst hm
    refine ⟨st, standing_takeDown hst fun _ _ heq => ?_, hp⟩
    simp [heq, Standing.metFirst] at hp
  metSecond := by
    intro m hm
    obtain ⟨st, hst, hp⟩ := h.metSecond hm
    refine ⟨st, standing_takeDown hst fun _ _ heq => ?_, hp⟩
    simp [heq, Standing.metSecond] at hp
  engaged := by
    intro k a partner st ha hengaged
    refine h.engaged (standing_of_takeDown (fun heq => ?_) ha) hengaged
    simp [heq, Standing.engaged] at hengaged
  second := fun ha => h.second (standing_of_takeDown (by simp) ha)
  oneNotice := by
    have hback : ∀ {a p}, (b.takeDown gone).NoticeAt a p → b.NoticeAt a p := by
      intro a p hp
      cases p with
      | posted k =>
          have hn : gone k = false ∧ b.notice k = some a := by
            simpa [NoticeAt, Board.takeDown] using hp
          exact hn.2
      | held holder => exact hp.imp fun k hk => standing_of_takeDown (by simp) hk
      | used m => exact hp
    intro a' p q hp hq
    exact h.oneNotice (hback hp) (hback hq)
  oneSecond := h.oneSecond

end TakeDown

/-! ### Looking, meeting and posting -/

section Look

variable {b : Board κ α} {a host : α} {k : κ}

/-- The party takes down the notice of `host`. -/
theorem Sound.lookAt_found (h : Sound b) (ha : b.standing a = some (k, .admitted))
    (hn : b.notice k = some host) :
    Sound ({ b with notice := Function.update b.notice k none }.place a k
      (.holding host)) where
  posted := by
    intro k' a' hn'
    have hn' : k' ≠ k ∧ b.notice k' = some a' := by
      simpa [Board.place, Function.update_apply] using hn'
    exact exists_standing_place ha (fun _ hp => by simp [Standing.posts] at hp)
      (h.posted hn'.2)
  held := by
    intro k' a' host' ha'
    refine exists_standing_place ha (fun _ hp => by simp [Standing.gave] at hp) ?_
    obtain ⟨rfl, rfl, heq⟩ | ⟨_, ha'⟩ := standing_place_eq_some.mp ha'
    · obtain rfl : host' = host := by simpa using heq
      obtain ⟨st, hst, hp⟩ := h.posted hn
      exact ⟨st, hst, by cases st <;> simp_all [Standing.posts, Standing.gave]⟩
    · exact h.held ha'
  metFirst := fun hm =>
    exists_standing_place ha (fun _ hp => by simp [Standing.metFirst] at hp)
      (h.metFirst hm)
  metSecond := fun hm =>
    exists_standing_place ha (fun _ hp => by simp [Standing.metSecond] at hp)
      (h.metSecond hm)
  engaged := by
    intro k' a' partner st' ha' hengaged
    obtain ⟨_, _, rfl⟩ | ⟨_, ha'⟩ := standing_place_eq_some.mp ha'
    · simp [Standing.engaged] at hengaged
    · exact h.engaged ha' hengaged
  second := by
    intro k' a' partner ha'
    obtain ⟨_, _, ha'⟩ | ⟨_, ha'⟩ := standing_place_eq_some.mp ha'
    · cases ha'
    · exact h.second ha'
  oneNotice := by
    -- The notice of `host` now is with `a` instead of at the board.
    have hback : ∀ {a' p}, ({ b with notice := Function.update b.notice k none }.place
        a k (.holding host)).NoticeAt a' p →
        p = .held a ∧ a' = host ∨ b.NoticeAt a' p ∧ p ≠ .posted k := by
      intro a' p hp
      cases p with
      | posted k' =>
          have hp : k' ≠ k ∧ b.notice k' = some a' := by
            simpa [NoticeAt, Board.place, Function.update_apply] using hp
          exact .inr ⟨hp.2, by simpa using hp.1⟩
      | held holder =>
          obtain ⟨k', hp⟩ := hp
          obtain ⟨rfl, _, heq⟩ | ⟨_, hp⟩ := standing_place_eq_some.mp hp
          · exact .inl ⟨rfl, by simpa using heq⟩
          · exact .inr ⟨⟨k', hp⟩, by simp⟩
      | used m => exact .inr ⟨hp, by simp⟩
    intro a' p q hp hq
    have hhost : b.NoticeAt host (.posted k) := hn
    have hp := hback hp
    have hq := hback hq
    grind [h.oneNotice]
  oneSecond := h.oneSecond

theorem Sound.lookAt (h : Sound b) (ha : b.standing a = some (k, .admitted)) :
    Sound (b.lookAt a k) := by
  unfold Board.lookAt
  split
  · next host hn => exact h.lookAt_found ha hn
  · refine h.place ha ?_ fun k' hn => ?_
    · constructor <;> simp [Standing.gave, Standing.metFirst, Standing.metSecond,
        Standing.engaged]
    · obtain ⟨st, hst, hp⟩ := h.posted hn
      obtain ⟨_, rfl⟩ : k = k' ∧ .admitted = st := by simpa [ha] using hst
      simp [Standing.posts] at hp

end Look

section Meet

variable {b : Board κ α} {a host : α} {k : κ}

omit [DecidableEq κ] in
theorem standing_join {a' : α} : (b.join a k host).standing a' =
    if a' = a then some (k, .second host)
    else if a' = host then some (k, .chosen a)
    else b.standing a' := by
  simp only [join, standing_place]

omit [DecidableEq κ] in
theorem mem_meetings_join {m : Meeting κ α} :
    m ∈ (b.join a k host).meetings ↔ m ∈ b.meetings ∨ m = ⟨k, host, a⟩ := by
  simp [join, Board.place]

omit [DecidableEq κ] in
/-- The party joins `host`, who waits. -/
theorem Sound.join (h : Sound b) (ha : b.standing a = some (k, .holding host))
    (hhost : b.standing host = some (k, .waiting)) : Sound (b.join a k host) where
  posted := by
    intro k' a' hn
    have hn : b.notice k' = some a' := hn
    obtain ⟨st, hst, hp⟩ := h.posted hn
    have hne : a' ≠ host := by
      rintro rfl
      have := h.oneNotice (p := .posted k') (q := .held a) hn ⟨k, ha⟩
      cases this
    rw [standing_join]
    grind [Standing.posts]
  held := by
    intro k' a' host' ha'
    rw [standing_join] at ha'
    have ha'' : a' ≠ a ∧ b.standing a' = some (k', .holding host') := by grind
    obtain ⟨st, hst, hp⟩ := h.held ha''.2
    have hne : host' ≠ host := by
      rintro rfl
      have := h.oneNotice (p := .held a') (q := .held a) ⟨k', ha''.2⟩ ⟨k, ha⟩
      simp [ha''.1] at this
    rw [standing_join]
    grind [Standing.gave]
  metFirst := by
    intro m hm
    rw [standing_join]
    obtain hm | rfl := mem_meetings_join.mp hm
    · obtain ⟨st, hst, hp⟩ := h.metFirst hm
      grind [Standing.metFirst]
    · grind [Standing.metFirst]
  metSecond := by
    intro m hm
    rw [standing_join]
    obtain hm | rfl := mem_meetings_join.mp hm
    · obtain ⟨st, hst, hp⟩ := h.metSecond hm
      grind [Standing.metSecond]
    · grind [Standing.metSecond]
  engaged := by
    intro k' a' partner st ha' hengaged
    rw [standing_join] at ha'
    rw [mem_meetings_join]
    have := @h.engaged k' a' partner st
    grind [Standing.engaged]
  second := by
    intro k' a' partner ha'
    rw [standing_join] at ha'
    rw [mem_meetings_join]
    have := @h.second k' a' partner
    grind
  oneNotice := by
    -- The notice of `host` now is used instead of with `a`.
    have hback : ∀ {a' p}, (b.join a k host).NoticeAt a' p →
        p = .used ⟨k, host, a⟩ ∧ a' = host ∨ b.NoticeAt a' p ∧ p ≠ .held a := by
      intro a' p hp
      cases p with
      | posted k' => exact .inr ⟨hp, by simp⟩
      | held holder =>
          obtain ⟨k', hp⟩ := hp
          rw [standing_join] at hp
          have hp : holder ≠ a ∧ b.standing holder = some (k', .holding a') := by grind
          exact .inr ⟨⟨k', hp.2⟩, by simpa using hp.1⟩
      | used m =>
          obtain ⟨hm, rfl⟩ := hp
          obtain hm | rfl := mem_meetings_join.mp hm
          · exact .inr ⟨⟨hm, rfl⟩, by simp⟩
          · exact .inl ⟨rfl, rfl⟩
    intro a' p q hp hq
    have hheld : b.NoticeAt host (.held a) := ⟨k, ha⟩
    have hp := hback hp
    have hq := hback hq
    grind [h.oneNotice]
  oneSecond := by
    have hnew : ∀ m ∈ b.meetings, m.second ≠ a := by
      rintro m hm rfl
      obtain ⟨st, hst, hp⟩ := h.metSecond hm
      obtain ⟨_, rfl⟩ : k = m.key ∧ .holding host = st := by simpa [ha] using hst
      simp [Standing.metSecond] at hp
    intro m m' hm hm' hsecond
    obtain hm | rfl := mem_meetings_join.mp hm
    · obtain hm' | rfl := mem_meetings_join.mp hm'
      · exact h.oneSecond hm hm' hsecond
      · exact absurd hsecond (hnew m hm)
    · obtain hm' | rfl := mem_meetings_join.mp hm'
      · exact absurd hsecond.symm (hnew m' hm')
      · rfl

omit [DecidableEq α] [DecidableEq κ] in
/-- Voiding keys concerns no party. -/
theorem Sound.voidKeys [DecidableEq α] (h : Sound b) (gone : κ → Bool) :
    Sound (b.voidKeys gone) :=
  ⟨h.posted, h.held, h.metFirst, h.metSecond, h.engaged, h.second, h.oneNotice,
    h.oneSecond⟩

theorem Sound.meetWith (h : Sound b) (ha : b.standing a = some (k, .holding host)) :
    Sound (b.meetWith a k host) := by
  have hvoid := h.voidKeys fun k' => decide (k' = k)
  obtain ⟨st, hst, _⟩ := h.held ha
  unfold Board.meetWith
  split
  · next k' hhost =>
    obtain ⟨rfl, _⟩ : k = k' ∧ st = .waiting := by simpa [hst] using hhost
    exact hvoid.join ha hhost
  · refine hvoid.place ha ?_ fun k' hn => ?_
    · constructor <;> simp [Standing.gave, Standing.metFirst, Standing.metSecond,
        Standing.engaged]
    · obtain ⟨st, hst, hp⟩ := h.posted hn
      obtain ⟨_, rfl⟩ : k = k' ∧ .holding host = st := by simpa [ha] using hst
      simp [Standing.posts] at hp

end Meet

/-- The party posts a notice where none hangs. -/
theorem Sound.postAt {b : Board κ α} (h : Sound b) {a : α} {k : κ}
    (ha : b.standing a = some (k, .enlisting)) (hn : b.notice k = none) :
    Sound ({ b with notice := Function.update b.notice k (some a) }.place a k
      .waiting) where
  posted := by
    intro k' a' hn'
    have hn' : k' = k ∧ a' = a ∨ b.notice k' = some a' := by
      simp only [Board.place, Function.update_apply] at hn'
      grind
    obtain ⟨rfl, rfl⟩ | hn' := hn'
    · exact ⟨.waiting, standing_place_eq_some.mpr (.inl ⟨rfl, rfl, rfl⟩), rfl⟩
    · exact exists_standing_place ha (fun _ hp => by simp [Standing.posts] at hp)
        (h.posted hn')
  held := by
    intro k' a' host ha'
    obtain ⟨_, _, ha'⟩ | ⟨_, ha'⟩ := standing_place_eq_some.mp ha'
    · cases ha'
    · exact exists_standing_place ha (fun _ hp => by simp [Standing.gave] at hp)
        (h.held ha')
  metFirst := fun hm =>
    exists_standing_place ha (fun _ hp => by simp [Standing.metFirst] at hp)
      (h.metFirst hm)
  metSecond := fun hm =>
    exists_standing_place ha (fun _ hp => by simp [Standing.metSecond] at hp)
      (h.metSecond hm)
  engaged := by
    intro k' a' partner st' ha' hengaged
    obtain ⟨_, _, rfl⟩ | ⟨_, ha'⟩ := standing_place_eq_some.mp ha'
    · simp [Standing.engaged] at hengaged
    · exact h.engaged ha' hengaged
  second := by
    intro k' a' partner ha'
    obtain ⟨_, _, ha'⟩ | ⟨_, ha'⟩ := standing_place_eq_some.mp ha'
    · cases ha'
    · exact h.second ha'
  oneNotice := by
    -- Until now `a` had no notice anywhere.
    have hnone : ∀ p, ¬ b.NoticeAt a p := by
      intro p hp
      cases p with
      | posted k' =>
          obtain ⟨st, hst, hp⟩ := h.posted hp
          grind [Standing.posts]
      | held holder =>
          obtain ⟨k', hp⟩ := hp
          obtain ⟨st, hst, hp⟩ := h.held hp
          grind [Standing.gave]
      | used m =>
          obtain ⟨hm, rfl⟩ := hp
          obtain ⟨st, hst, hp⟩ := h.metFirst hm
          grind [Standing.metFirst]
    have hback : ∀ {a' p}, ({ b with notice := Function.update b.notice k (some a) }
        |>.place a k .waiting).NoticeAt a' p →
        p = .posted k ∧ a' = a ∨ b.NoticeAt a' p := by
      intro a' p hp
      cases p with
      | posted k' =>
          simp only [NoticeAt, Board.place, Function.update_apply] at hp
          split at hp
          · next hk => exact .inl ⟨hk ▸ rfl, (Option.some.inj hp).symm⟩
          · exact .inr hp
      | held holder =>
          obtain ⟨k', hp⟩ := hp
          obtain ⟨_, _, hp⟩ | ⟨_, hp⟩ := standing_place_eq_some.mp hp
          · cases hp
          · exact .inr ⟨k', hp⟩
      | used m => exact .inr hp
    intro a' p q hp hq
    have hp := hback hp
    have hq := hback hq
    grind [h.oneNotice]
  oneSecond := h.oneSecond

theorem Sound.post {b : Board κ α} (h : Sound b) {a : α} {k : κ}
    (ha : b.standing a = some (k, .enlisting)) : Sound (b.post a k) := by
  refine h.takeDown.postAt (standing_takeDown ha fun _ _ => by simp) ?_
  simp [Board.takeDown]

/-- The party takes its notice back and leaves. -/
theorem Sound.withdraw {b : Board κ α} (h : Sound b) {a : α} {k : κ}
    (ha : b.standing a = some (k, .withdrawing)) :
    Sound ((b.takeDown (· = k)).place a k .departed) := by
  refine h.takeDown.place (standing_takeDown ha fun _ _ => by simp) ?_ fun k' hn => ?_
  · constructor <;> simp [Standing.gave, Standing.metFirst, Standing.metSecond,
      Standing.engaged]
  · -- Only the notice under its own key could be its own, and that one is gone.
    have hn : k' ≠ k ∧ b.notice k' = some a := by
      simpa [Board.takeDown] using hn
    obtain ⟨st, hst, _⟩ := h.posted hn.2
    have : k = k' := by
      have := ha.symm.trans hst
      simp only [Option.some.injEq, Prod.mk.injEq] at this
      exact this.1
    exact absurd this.symm hn.1

/-! ### Whole runs -/

/-- What a move can do. -/
inductive Step (b : Board κ α) : Move κ α → Board κ α → Prop
  | idle : Step b .idle b
  | issue {k} (hk : b.stage k = .unissued) :
      Step b (.issue k) { b with stage := Function.update b.stage k .pending }
  | validate {k} (hk : b.stage k = .pending) :
      Step b (.validate k) { b with stage := Function.update b.stage k .valid }
  | void {gone} : Step b (.void gone) (b.voidKeys gone)
  | enter {a k} (ha : b.standing a = none) : Step b (.enter a k) (b.place a k .entering)
  | accept {a k} (ha : b.standing a = some (k, .entering)) (hk : b.stage k = .valid) :
      Step b (.accept a) (b.place a k .admitted)
  | advance {a k st next} (ha : b.standing a = some (k, st))
      (hnext : st.advances next = true) : Step b (.advance a next) (b.place a k next)
  | look {a k} (ha : b.standing a = some (k, .admitted)) :
      Step b (.look a) (b.lookAt a k)
  | meet {a k host} (ha : b.standing a = some (k, .holding host)) :
      Step b (.meet a) (b.meetWith a k host)
  | enlist {a k} (ha : b.standing a = some (k, .enlisting)) :
      Step b (.enlist a) (b.post a k)
  | withdraw {a k} (ha : b.standing a = some (k, .withdrawing)) :
      Step b (.withdraw a) ((b.takeDown (· = k)).place a k .departed)
  | expire {gone} : Step b (.expire gone) (b.takeDown gone)

theorem Step.of_eq {b b' b'' : Board κ α} {m : Move κ α} (h : Step b m b')
    (heq : b'' = b') : Step b m b'' := heq ▸ h

theorem step_iff {b b' : Board κ α} {m : Move κ α} :
    b.step m = some b' ↔ Step b m b' := by
  constructor
  · intro h
    cases m <;> simp only [step] at h
    case idle => cases h; exact .idle
    case void gone => cases h; exact .void
    case expire gone => cases h; exact .expire
    case issue k => split at h <;> cases h; exact .issue ‹_›
    case validate k => split at h <;> cases h; exact .validate ‹_›
    case enter a k => split at h <;> cases h; exact .enter ‹_›
    case accept a =>
      split at h
      · split at h <;> cases h; exact .accept ‹_› ‹_›
      · cases h
    case advance a next =>
      split at h
      · split at h <;> cases h; exact .advance ‹_› ‹_›
      · cases h
    case look a => split at h <;> cases h; exact .look ‹_›
    case meet a => split at h <;> cases h; exact .meet ‹_›
    case enlist a => split at h <;> cases h; exact .enlist ‹_›
    case withdraw a => split at h <;> cases h; exact .withdraw ‹_›
  · intro h
    cases h <;> simp_all [step]

/-- Parties meet when one of them takes over a notice whose poster waits, and in no other
move. -/
theorem Step.meetings {b b' : Board κ α} {m : Move κ α} (hs : Step b m b') :
    b'.meetings = b.meetings ∨ ∃ a k host, m = .meet a ∧
      b.standing a = some (k, .holding host) ∧
      b'.meetings = b.meetings ++ [⟨k, host, a⟩] := by
  cases hs with
  | @look a k =>
      refine .inl ?_
      unfold lookAt
      split <;> rfl
  | @meet a k host ha =>
      unfold meetWith
      split
      · exact .inr ⟨a, k, host, rfl, ha, rfl⟩
      · exact .inl rfl
  | _ => exact .inl rfl

/-- Every move keeps the board sound. -/
theorem Sound.step {b b' : Board κ α} {m : Move κ α} (h : Sound b)
    (hs : Step b m b') : Sound b' := by
  cases hs with
  | idle => exact h
  | issue | validate =>
      exact ⟨h.posted, h.held, h.metFirst, h.metSecond, h.engaged, h.second,
        h.oneNotice, h.oneSecond⟩
  | void => exact h.voidKeys _
  | enter ha => exact h.enter ha
  | @accept a k ha =>
      refine h.place ha ?_ fun k' hn => ?_
      · constructor <;> simp [Standing.gave, Standing.metFirst, Standing.metSecond,
          Standing.engaged]
      · obtain ⟨st, hst, hp⟩ := h.posted hn
        grind [Standing.posts]
  | advance ha hnext =>
      refine h.place ha (Standing.follows_of_advances hnext) fun k' hn => ?_
      obtain ⟨st, hst, hp⟩ := h.posted hn
      obtain ⟨_, rfl⟩ : k' = _ ∧ st = _ := by simpa [ha] using hst.symm
      exact Standing.posts_of_advances hnext hp
  | look ha => exact h.lookAt ha
  | meet ha => exact h.meetWith ha
  | enlist ha => exact h.post ha
  | withdraw ha => exact h.withdraw ha
  | expire => exact h.takeDown

theorem sound_of_reachable {b : Board κ α} (h : machine.Reachable b) : Sound b :=
  h.invariant Sound.empty fun _ _ _ _ hsound hs => hsound.step (step_iff.mp hs)

end Board

end War3BattleTool.Foundation
