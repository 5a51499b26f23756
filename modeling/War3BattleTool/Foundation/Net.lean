import War3BattleTool.Foundation.Table

set_option autoImplicit false

/-!
# Monotonic time, addresses, connection slots, WebSocket frames and futures

The vocabulary a network program shares with its runtime: the monotonic clock
(`Instant`, in nanoseconds), IP addresses, byte strings, the number of connections
an address may hold, and the messages and items of a WebSocket stream.

A `Future` says what becomes of an asynchronous computation that is polled from now on and
never dropped: after which time it completes, and with what; or that it never does.

* `map`, `andThen`, `tryThen`, `timed`, `timeout`: code that awaits one future after another.
* `select`: two futures race.  The first to complete wins, whatever it yields, and the other
  one is dropped.
-/

namespace War3BattleTool.Foundation

/-- A reading of the monotonic clock, in nanoseconds. -/
abbrev Instant : Type := Nat

/-- A span of time, in nanoseconds. -/
abbrev Duration : Type := Nat

/-- A whole number of seconds. -/
def secs (n : Nat) : Duration := n * 1000000000

/-- A whole number of milliseconds. -/
def millis (n : Nat) : Duration := n * 1000000

/-- The time that has passed since `t`; zero when `t` lies ahead. -/
def elapsed (now t : Instant) : Duration := now - t

/-- An IPv4 or IPv6 address. -/
inductive IpAddr where
  | v4 (bits : BitVec 32)
  | v6 (bits : BitVec 128)
  deriving DecidableEq

/-- `SocketAddr`: an address and a port. -/
structure SocketAddr where
  ip : IpAddr
  port : Nat
  deriving DecidableEq

/-- Take one of the `limit` connection slots of an address: the new counters and
whether a slot was granted. -/
def acquireSlot (limit : Nat) (conns : Table IpAddr Nat) (ip : IpAddr) :
    Table IpAddr Nat × Bool :=
  let count := (conns.get? ip).getD 0
  let conns := conns.insert ip count
  if limit ≤ count then (conns, false) else (conns.modify ip (· + 1), true)

/-- Give a connection slot of an address back; a counter that reaches zero is
removed. -/
def releaseSlot (conns : Table IpAddr Nat) (ip : IpAddr) : Table IpAddr Nat :=
  match conns.get? ip with
  | none => conns
  | some count =>
      if count - 1 = 0 then conns.remove ip else conns.insert ip (count - 1)

/-- A byte string. -/
abbrev Bytes : Type := List UInt8

/-- A WebSocket message. -/
inductive Message where
  | text (data : String)
  | binary (data : Bytes)
  | ping (data : Bytes)
  | pong (data : Bytes)
  | close
  deriving DecidableEq

/-- What the receiving half of a WebSocket stream yields: a message, an error,
or the end of the stream. -/
inductive StreamItem where
  | message (m : Message)
  | error
  | ended
  deriving DecidableEq

/-- The payloads of the binary messages, in order. -/
def binaryPayloads (ms : List Message) : List Bytes :=
  ms.filterMap fun
    | .binary data => some data
    | _ => none

@[simp] theorem binaryPayloads_nil : binaryPayloads [] = [] := rfl

@[simp] theorem binaryPayloads_append (left right : List Message) :
    binaryPayloads (left ++ right) = binaryPayloads left ++ binaryPayloads right :=
  List.filterMap_append

/-! ## Futures that are left to run, and races between them -/

/-- The time that a computation takes, and what it yields; `none` if it never completes. -/
def Future (α : Type) : Type := Option (Duration × α)

namespace Future

variable {α β ε : Type}

/-- The future completes after the time `d`, and yields `a`. -/
def completesWith (d : Duration) (a : α) : Future α := some (d, a)

/-- The future completes at once. -/
def ready (a : α) : Future α := completesWith 0 a

/-- The future never completes. -/
def never : Future α := none

/-- Change what a future yields. -/
def map (k : α → β) (f : Future α) : Future β := Option.map (fun done => (done.1, k done.2)) f

/-- What a future yields, with the time it took. -/
def timed (f : Future α) : Future (α × Duration) :=
  Option.map (fun done => (done.1, done.2, done.1)) f

/-- One future after another. -/
def andThen (f : Future α) (k : α → Future β) : Future β :=
  Option.bind f fun done => Option.map (fun more => (done.1 + more.1, more.2)) (k done.2)

/-- One future after another, unless the first one fails. -/
def tryThen (f : Future (Except ε α)) (k : α → Future (Except ε β)) : Future (Except ε β) :=
  f.andThen fun
    | .ok a => k a
    | .error e => ready (.error e)

/-- Wait no longer than `limit`: `none` once the time has run out. -/
def timeout (limit : Duration) (f : Future α) : Future (Option α) :=
  match f with
  | some (d, a) => if d ≤ limit then completesWith d (some a) else completesWith limit none
  | none => completesWith limit none

/-- The first of two futures to complete.  When both complete at the same time, `tie` says
whether the left one is chosen. -/
def select (tie : Bool) (f : Future α) (g : Future β) : Future (α ⊕ β) :=
  match f, g with
  | some (d, a), some (e, b) =>
      if d < e ∨ d = e ∧ tie then completesWith d (.inl a) else completesWith e (.inr b)
  | some (d, a), none => completesWith d (.inl a)
  | none, some (e, b) => completesWith e (.inr b)
  | none, none => never

/-- The future completes, and yields a success. -/
def succeeds (f : Future (Except ε α)) : Bool :=
  match f with
  | some (_, .ok _) => true
  | _ => false

@[simp] theorem map_completesWith (k : α → β) (d : Duration) (a : α) :
    (completesWith d a).map k = completesWith d (k a) := rfl

theorem andThen_completesWith {d e : Duration} {a : α} {b : β} {k : α → Future β}
    (h : k a = completesWith e b) :
    (completesWith d a).andThen k = completesWith (d + e) b := by
  simp only [andThen, completesWith, Option.bind_some] at h ⊢
  rw [h, Option.map_some]

theorem completesWith_inj {d e : Duration} {a b : α}
    (h : completesWith d a = completesWith e b) : d = e ∧ a = b :=
  Prod.mk.inj (Option.some.inj h)

theorem completesWith_ne_never (d : Duration) (a : α) : completesWith d a ≠ never :=
  Option.some_ne_none _

/-- A timeout completes. -/
theorem exists_timeout (limit : Duration) (f : Future α) :
    ∃ d a, f.timeout limit = completesWith d a := by
  unfold timeout
  split
  · split
    · exact ⟨_, _, rfl⟩
    · exact ⟨_, _, rfl⟩
  · exact ⟨_, _, rfl⟩

theorem succeeds_iff {f : Future (Except ε α)} :
    f.succeeds = true ↔ ∃ d a, f = completesWith d (.ok a) := by
  unfold succeeds
  split
  next d a => exact ⟨fun _ => ⟨d, a, rfl⟩, fun _ => rfl⟩
  next hno =>
    constructor
    · intro h
      cases h
    · rintro ⟨d, a, hf⟩
      exact absurd hf (hno d a)

/-- The winner of a race is one of the two, and a race without a winner has nobody who
completes. -/
theorem select_cases (tie : Bool) (f : Future α) (g : Future β) :
    (∃ d a, f = completesWith d a ∧ f.select tie g = completesWith d (.inl a)) ∨
      (∃ e b, g = completesWith e b ∧ f.select tie g = completesWith e (.inr b)) ∨
        (f = never ∧ g = never ∧ f.select tie g = never) := by
  unfold select
  split
  · split
    · exact .inl ⟨_, _, rfl, rfl⟩
    · exact .inr (.inl ⟨_, _, rfl, rfl⟩)
  · exact .inl ⟨_, _, rfl, rfl⟩
  · exact .inr (.inl ⟨_, _, rfl, rfl⟩)
  · exact .inr (.inr ⟨rfl, rfl, rfl⟩)

end Future

end War3BattleTool.Foundation
