import Mathlib.Algebra.Order.Archimedean.Real.Basic
import Mathlib.Algebra.Order.Floor.Semiring
import War3BattleTool.Foundation.FixedWindow
import War3BattleTool.Server.Lobby

set_option autoImplicit false

/-!
# The message limit of a lobby connection

`RateLimiter` is a fixed-window limiter in which every call weighs one.  So of the calls within
any span of `T` seconds it allows at most `10 * (⌈T⌉ + 1)`, twice ten in any second, and it
allows every call of a client that never makes more than ten in a second.
-/

namespace War3BattleTool.Server

open War3BattleTool.Foundation

/-! ## Intervals of time -/

/-- A time in seconds. -/
noncomputable def seconds (now : Instant) : ℝ := now / 1000000000

open Classical in
/-- The half-open interval of length `T` seconds that begins at `a`. -/
noncomputable def inInterval (a T : ℝ) (now : Instant) : Bool := seconds now ∈ Set.Ico a (a + T)

theorem inInterval_eq_true {a T : ℝ} {now : Instant} :
    inInterval a T now = true ↔ a ≤ seconds now ∧ seconds now < a + T := by
  simp [inInterval]

/-- The times within an interval are less than its length apart, rounded up to seconds. -/
theorem lt_of_inInterval {a T : ℝ} {now later : Instant} (h : inInterval a T now = true)
    (h' : inInterval a T later = true) : later < now + ⌈T⌉₊ • secs 1 := by
  rw [inInterval_eq_true] at h h'
  have hspan : seconds later < seconds now + ⌈T⌉₊ :=
    calc seconds later < a + T := h'.2
      _ ≤ seconds now + ⌈T⌉₊ := add_le_add h.1 (Nat.le_ceil T)
  have hcast : (later : ℝ) < ((now + ⌈T⌉₊ * 1000000000 : Nat) : ℝ) := by
    simp only [seconds] at hspan
    push_cast
    linarith
  exact Nat.cast_lt.mp hcast

/-- The window of one second that begins at `start`. -/
theorem inInterval_seconds (start now : Instant) : inInterval (seconds start) 1 now = true ↔
    start ≤ now ∧ now < start + secs 1 := by
  have hle : seconds start ≤ seconds now ↔ start ≤ now := by
    rw [seconds, seconds, div_le_div_iff_of_pos_right (by norm_num), Nat.cast_le]
  have hlt : seconds now < seconds start + 1 ↔ now < start + secs 1 := by
    have hsum : seconds start + 1 = seconds (start + secs 1) := by
      simp only [seconds, secs]
      push_cast
      ring
    rw [hsum, seconds, seconds, div_lt_div_iff_of_pos_right (by norm_num), Nat.cast_lt]
  rw [inInterval_eq_true, hle, hlt]

/-- A second has passed. -/
theorem second_le_elapsed (now start : Instant) :
    secs 1 ≤ elapsed now start ↔ start + secs 1 ≤ now := by
  have hsub : ∀ a b d : Nat, 0 < d → (d ≤ b - a ↔ a + d ≤ b) := by
    intro a b d hd
    omega
  exact hsub start now (secs 1) (Nat.succ_pos _)

/-! ## The limiter -/

/-- The limit of messages: every message weighs one. -/
def messageLimiter : Limiter Instant Instant where
  width := secs 1
  limit := maxMessagesPerSecond
  time := id
  weight := fun _ => 1

namespace RateLimiter

/-- Calls of `allow` at these times, each with what it returns. -/
def calls : RateLimiter → List Instant → List (Instant × Bool)
  | _, [] => []
  | r, now :: later => (now, (r.allow now).2) :: calls (r.allow now).1 later

/-- The tokens are what is left of the window. -/
structure Matches (r : RateLimiter) (w : FixedWindow Instant) : Prop where
  tokens : r.tokens = maxMessagesPerSecond - w.count
  lastRefill : r.lastRefill = w.start

/-- The first half of `allow`: the tokens are refilled once a second has passed. -/
def refill (r : RateLimiter) (now : Instant) : RateLimiter :=
  if secs 1 ≤ elapsed now r.lastRefill then ⟨maxMessagesPerSecond, now⟩ else r

/-- The second half: a token is spent, if there is one. -/
def spend (r : RateLimiter) : RateLimiter × Bool :=
  if 0 < r.tokens then ({ r with tokens := r.tokens - 1 }, true) else (r, false)

theorem allow_eq (r : RateLimiter) (now : Instant) : r.allow now = (r.refill now).spend := rfl

section Matches

variable {r : RateLimiter} {w : FixedWindow Instant}

/-- Refilling is the beginning of a new window. -/
theorem Matches.refill (h : r.Matches w) (now : Instant) :
    (r.refill now).Matches (messageLimiter.renew w now) := by
  unfold RateLimiter.refill
  rw [h.lastRefill]
  by_cases hpassed : w.start + secs 1 ≤ now
  · rw [if_pos ((second_le_elapsed _ _).mpr hpassed), Limiter.renew_of_le hpassed]
    exact ⟨rfl, rfl⟩
  · rw [if_neg (mt (second_le_elapsed _ _).mp hpassed), Limiter.renew_of_lt (lt_of_not_ge hpassed)]
    exact h

/-- A token is left as long as the limit is not reached. -/
theorem Matches.spend (h : r.Matches w) : r.spend.1.Matches ⟨w.count + 1, w.start⟩ ∧
    r.spend.2 = decide (w.count + 1 ≤ maxMessagesPerSecond) := by
  obtain ⟨htokens, hlast⟩ := h
  unfold RateLimiter.spend
  split
  · refine ⟨⟨?_, hlast⟩, (decide_eq_true (by omega)).symm⟩
    show r.tokens - 1 = maxMessagesPerSecond - (w.count + 1)
    omega
  · refine ⟨⟨?_, hlast⟩, (decide_eq_false (by omega)).symm⟩
    show r.tokens = maxMessagesPerSecond - (w.count + 1)
    omega

/-- The limiter answers as a window does, and goes on to match it. -/
theorem Matches.allow (h : r.Matches w) (now : Instant) :
    (r.allow now).1.Matches (messageLimiter.offer w now) ∧
      (r.allow now).2 = messageLimiter.admits w now := by
  rw [allow_eq]
  exact (h.refill now).spend

theorem Matches.calls (h : r.Matches w) (times : List Instant) :
    r.calls times = messageLimiter.verdicts w times := by
  induction times generalizing r w with
  | nil => rfl
  | cons now later ih =>
      obtain ⟨hnext, hanswer⟩ := h.allow now
      rw [RateLimiter.calls, Limiter.verdicts, hanswer, ih hnext]

end Matches

theorem matches_new (created : Instant) : (RateLimiter.new created).Matches ⟨0, created⟩ :=
  ⟨rfl, rfl⟩

/-- Every message weighs one, so a load is a number of messages. -/
theorem load_messageLimiter (p : Instant → Bool) (times : List Instant) :
    messageLimiter.load p times = times.countP p := by
  induction times with
  | nil => rfl
  | cons now later ih =>
      rw [Limiter.load_cons, ih, List.countP_cons, Nat.add_comm]
      rfl

/-- Of the calls within `T` seconds `allow` lets at most `10 * (⌈T⌉ + 1)` pass; if no second has
more than ten calls, it lets every call pass. -/
theorem calls_new (created : Instant) (times : List Instant)
    (hordered : (created :: times).Pairwise (· ≤ ·)) :
    (∀ a T : ℝ, 0 < T →
      ((RateLimiter.new created).calls times).countP (fun call => call.2 && inInterval a T call.1) ≤
        10 * (⌈T⌉₊ + 1)) ∧
      (∀ a : ℝ, ((RateLimiter.new created).calls times).countP
        (fun call => call.2 && inInterval a 1 call.1) ≤ 20) ∧
      ((∀ a : ℝ, times.countP (inInterval a 1) ≤ 10) →
        ∀ call ∈ (RateLimiter.new created).calls times, call.2 = true) := by
  have hstart : messageLimiter.Ordered ⟨0, created⟩ times := by
    rwa [Limiter.Ordered, messageLimiter, List.map_id]
  have hsound : ∀ a T : ℝ,
      ((RateLimiter.new created).calls times).countP (fun call => call.2 && inInterval a T call.1) ≤
        10 * (⌈T⌉₊ + 1) := by
    intro a T
    have hspan : ∀ t t', inInterval a T t = true → inInterval a T t' = true →
        t' < t + ⌈T⌉₊ • messageLimiter.width := fun _ _ => lt_of_inInterval
    have hload := Limiter.load_passed_le (Nat.zero_le _) hstart hspan
    rw [Limiter.load_passed, ← (matches_new created).calls] at hload
    rw [List.countP_eq_length_filter]
    simpa [messageLimiter, maxMessagesPerSecond] using hload
  refine ⟨fun a T _ => hsound a T, fun a => ?_, fun hconforming => ?_⟩
  · have hone := hsound a 1
    rwa [Nat.ceil_one] at hone
  · rw [(matches_new created).calls]
    apply Limiter.verdicts_of_passed
    apply Limiter.passed_of_conforming (Nat.succ_pos _) hstart rfl
    intro start
    rw [load_messageLimiter]
    refine (List.countP_mono_left fun now _ hin => ?_).trans (hconforming (seconds start))
    exact (inInterval_seconds start now).mpr (Limiter.inWindow_eq_true.mp hin)

/-- Two bursts, at the end of one window and at the beginning of the next; and a client that
makes ten calls at once, and no more. -/
theorem calls_new_bursts :
    (∀ a : ℝ, ((RateLimiter.new 0).calls (List.replicate 10 (millis 950) ++
      List.replicate 10 (millis 1010))).countP (fun call => call.2 && inInterval a 1 call.1) ≤
        20) ∧
      ∀ call ∈ (RateLimiter.new 0).calls (List.replicate 10 (millis 950)), call.2 = true :=
  ⟨(calls_new 0 _ (by decide)).2.1,
    (calls_new 0 _ (by decide)).2.2 fun _ => List.countP_le_length⟩

end RateLimiter

end War3BattleTool.Server
