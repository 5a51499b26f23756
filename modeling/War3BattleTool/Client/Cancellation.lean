import War3BattleTool.Client.Operations
import War3BattleTool.Foundation.Machine

set_option autoImplicit false

/-!
# Cancelled operations

`Disconnected` and `Reconnecting` turn an action in flight into an error that says it was
cancelled.  A cancelled join starts no tunnel, since a `JoinResult` that the app does not wait for
is ignored.  A cancelled create stays cancelled if its `CreateRoom` has left the client by then
(`tidy`): the capture, what it found and the queue of commands all outlive the session.
-/

namespace War3BattleTool.Client

open War3BattleTool.Foundation War3BattleTool.Protocol

/-- What happens to an operation. -/
inductive Deed where
  /-- the user begins it -/
  | begins (op : OpId)
  /-- the app says that it was cancelled -/
  | cancels (op : OpId)
  /-- its `CreateRoom` is put on `cmd_tx`, or sent to the server -/
  | creates (op : OpId)
  /-- a joiner's tunnel is started for it -/
  | joins (op : OpId)
  deriving DecidableEq

/-- The operation that the deed cancels. -/
def Deed.cancelled : Deed → Option OpId
  | .cancels op => some op
  | _ => none

/-- The operation whose room the command creates. -/
def Command.creates (c : Command) : Option OpId :=
  match c.message with
  | .createRoom _ _ _ _ => c.op
  | _ => none

/-- A cancelled operation has no later effect, unless the user begins another one. -/
def StaysCancelled (op : OpId) (events : List Deed) : Prop :=
  Hushed (· = .cancels op) (fun d => ∃ op', d = .begins op')
    (fun d => d = .creates op ∨ d = .joins op) events

namespace Process

/-- The operation for which the next `try_recv` starts a tunnel. -/
def joinsByPoll (s : Process) : Option OpId :=
  s.poll.bind fun s' => (s'.tunnels.drop s.tunnels.length).findSome? (·.op)

/-- What the next `try_recv` does to an operation. -/
def deedOfPoll (s : Process) : Option Deed :=
  match s.frame, s.events with
  | .events, .disconnected :: _ | .events, .reconnecting _ :: _ =>
      (s.app.pendingAction.bind (·.op)).map .cancels
  | .events, .serverMessage _ :: _ => s.joinsByPoll.map .joins
  | .tunnels, _ => (s.queuedByPoll.findSome? (·.creates)).map .creates
  | _, _ => none

/-- What a step does to an operation. -/
def deed (s : Process) : Label → Option Deed
  | .poll => s.deedOfPoll
  | .sendNext true => (s.cmds.head?.bind (·.creates)).map .creates
  | .input i => if s.begun (.input i) = [] then none else some (.begins s.ops.length)
  | _ => none

/-- Nothing in the client will send the `CreateRoom` of the operation. -/
structure Uncreated (op : OpId) (s : Process) : Prop where
  captures : ∀ c ∈ s.captures, c.op ≠ op
  tunnelEvents : ∀ p ∈ s.tunnelEvents, p.creates ≠ some op
  cmds : ∀ c ∈ s.cmds, c.creates ≠ some op

instance (op : OpId) (s : Process) : Decidable (s.Uncreated op) :=
  decidable_of_iff ((∀ c ∈ s.captures, c.op ≠ op) ∧ (∀ p ∈ s.tunnelEvents, p.creates ≠ some op) ∧
      ∀ c ∈ s.cmds, c.creates ≠ some op)
    ⟨fun ⟨hcaptures, htunnelEvents, hcmds⟩ => ⟨hcaptures, htunnelEvents, hcmds⟩,
      fun h => ⟨h.captures, h.tunnelEvents, h.cmds⟩⟩

/-- When an operation is cancelled, nothing in the client will send its `CreateRoom`. -/
def tidy (s : Process) (l : Label) : Prop :=
  ∀ op ∈ (s.deed l).bind (·.cancelled), s.Uncreated op

instance (s : Process) (l : Label) : Decidable (s.tidy l) :=
  inferInstanceAs (Decidable (∀ op ∈ (s.deed l).bind (·.cancelled), _))

/-- The operation is over: the app waits for nothing, and nothing will send its `CreateRoom`. -/
structure Over (op : OpId) (s : Process) : Prop where
  pending : s.app.pendingAction.bind (·.op) = none
  uncreated : s.Uncreated op

variable {s s' : Process} {l : Label} {op : OpId}

/-! ## The deeds -/

/-- How a deed comes about. -/
inductive Does (s : Process) : Label → Deed → Prop
  | begins {i : Input} : Does s (.input i) (.begins s.ops.length)
  | cancels {e : NetEvent} {rest : List NetEvent} {op : OpId} (hframe : s.frame = .events)
      (hevents : s.events = e :: rest)
      (he : e = .disconnected ∨ ∃ attempt, e = .reconnecting attempt) : Does s .poll (.cancels op)
  | puts {c : Command} {op : OpId} (hc : c ∈ s.queued .poll) (hcreates : c.creates = some op) :
      Does s .poll (.creates op)
  | sends {c : Command} {op : OpId} (hc : c ∈ s.cmds) (hcreates : c.creates = some op) :
      Does s (.sendNext true) (.creates op)
  | joins {op : OpId} (hjoins : s.joinsByPoll = some op) : Does s .poll (.joins op)

theorem does_of_deedOfPoll {d : Deed} (h : s.deedOfPoll = some d) : Does s .poll d := by
  unfold deedOfPoll at h
  split at h
  · next hframe hevents =>
    obtain ⟨op, _, rfl⟩ := Option.map_eq_some_iff.mp h
    exact .cancels hframe hevents (.inl rfl)
  · next hframe hevents =>
    obtain ⟨op, _, rfl⟩ := Option.map_eq_some_iff.mp h
    exact .cancels hframe hevents (.inr ⟨_, rfl⟩)
  · obtain ⟨op, hjoins, rfl⟩ := Option.map_eq_some_iff.mp h
    exact .joins hjoins
  · obtain ⟨op, hop, rfl⟩ := Option.map_eq_some_iff.mp h
    obtain ⟨c, hc, hcreates⟩ := List.exists_of_findSome?_eq_some hop
    exact .puts hc hcreates
  · cases h

theorem does_of_deed {d : Deed} (h : s.deed l = some d) : Does s l d := by
  unfold deed at h
  split at h
  · exact does_of_deedOfPoll h
  · obtain ⟨op, hop, rfl⟩ := Option.map_eq_some_iff.mp h
    obtain ⟨c, hc, hcreates⟩ := Option.bind_eq_some_iff.mp hop
    exact .sends (List.mem_of_mem_head? hc) hcreates
  · split at h <;> cases h
    exact .begins
  · cases h

theorem creates_of_mem_queued {c : Command} (hc : c ∈ s.queued l) (h : c.creates = some op) :
    ∃ p ∈ s.tunnelEvents, p.creates = some op := by
  cases queues_of_mem hc with
  | other hop _ hcreate =>
      unfold Command.creates at h
      split at h
      · rw [hop] at h
        cases h
      · cases h
  | joins => cases h
  | creates hp hcreates =>
      cases h
      exact ⟨_, hp, hcreates⟩

theorem joining_of_joinsByPoll (h : s.joinsByPoll = some op) :
    ∃ roomName op', s.app.pendingAction = some (.joining roomName op') := by
  obtain ⟨s', hpoll, h⟩ := Option.bind_eq_some_iff.mp h
  obtain ⟨t, ht, hop⟩ := List.exists_of_findSome?_eq_some h
  rcases starts_of_step (l := .poll) hpoll with hlength | ⟨letter, rest, _, _, _, rfl⟩
  · rw [← hlength, List.drop_length] at ht
    cases ht
  · exact (joins_of_handleServerMessage (s := { s with events := rest }) ht
      (.inr (by rw [hop]; rfl))).2.2

/-! ## From the cancellation to the next operation -/

/-- The app says that the action in flight was cancelled, and waits for nothing. -/
theorem over_of_cancels (htidy : s.tidy l) (h : s.step l = some s')
    (hdeed : s.deed l = some (.cancels op)) : s'.Over op := by
  have huncreated : s.Uncreated op := htidy op (by rw [hdeed]; rfl)
  have hinFlight : ∀ a : War3App, a.cancelInFlight.pendingAction.bind (·.op) = none := by
    intro a
    unfold War3App.cancelInFlight
    split
    · rfl
    · next hidle =>
      cases hpending : a.pendingAction with
      | none => rfl
      | some pending =>
          rw [hpending] at hidle
          cases pending <;> first | rfl | exact absurd rfl hidle
  cases does_of_deed hdeed with
  | @cancels e rest _ hframe hevents he =>
      have hpoll : s.poll = some ({ s with events := rest }.netEvent e) := by
        simp [poll, hframe, hevents]
      obtain rfl := Option.some.inj (hpoll.symm.trans h)
      rcases he with rfl | ⟨attempt, rfl⟩
      · exact ⟨hinFlight _, huncreated.captures, huncreated.tunnelEvents, huncreated.cmds⟩
      · exact ⟨hinFlight _, huncreated.captures, huncreated.tunnelEvents, huncreated.cmds⟩

theorem uncreated_of_local (hs : s.Uncreated op) (hl : l.isRemote = false)
    (hbegun : s.begun l = []) (h : s.step l = some s') : s'.Uncreated op where
  captures := fun c hc => by
    rcases (sendsStep_of_local hl h).captures c hc with hold | hnew
    · exact hs.captures c hold
    · unfold capturesBegun at hnew
      split at hnew
      · cases hbegun
      · cases hnew
  tunnelEvents := fun p hp hcreates => by
    rcases (queues_of_local hl h).2 p hp with hold | hnew
    · exact hs.tunnelEvents p hold hcreates
    · generalize hi : Item.captured op = i at *
      cases hnew i (hi ▸ item_of_creates hcreates) with
      | captured hc =>
          cases hi
          exact hs.captures _ hc rfl
      | _ => cases hi
  cmds := fun c hc hcreates => by
    rw [(sendsStep_of_local hl h).cmds] at hc
    rcases List.mem_append.mp hc with hold | hnew
    · exact hs.cmds c hold hcreates
    · obtain ⟨p, hp, hposted⟩ := creates_of_mem_queued hnew hcreates
      exact hs.tunnelEvents p hp hposted

theorem uncreated_of_remote (hs : s.Uncreated op) (hl : l.isRemote = true)
    (h : s.step l = some s') : s'.Uncreated op := by
  have hui := keepsUi_of_remote hl h
  refine ⟨?_, ?_, fun c hc => hs.cmds c (cmds_of_remote hl h c hc)⟩
  · rw [hui.captures]
    exact hs.captures
  · rw [hui.tunnelEvents]
    exact hs.tunnelEvents

/-- Only the user begins an operation. -/
theorem begun_of_deed (h : ∀ d, s.deed l = some d → ¬ ∃ op, d = .begins op) : s.begun l = [] := by
  by_contra hbegun
  cases l with
  | input i => exact h _ (if_neg hbegun) ⟨_, rfl⟩
  | _ => exact hbegun rfl

theorem Over.step (hs : s.Over op) (hbegun : s.begun l = []) (h : s.step l = some s') :
    s'.Over op where
  pending := by
    have hpending := pending_step h
    generalize s'.app.pendingAction = pending at hpending
    cases hpending with
    | keeps => exact hs.pending
    | settles _ hop => exact hop
    | joins hnetwork => simp [begun, hnetwork] at hbegun
    | creates => cases hbegun
  uncreated := by
    cases hl : l.isRemote with
    | true => exact uncreated_of_remote hs.uncreated hl h
    | false => exact uncreated_of_local hs.uncreated hl hbegun h

/-- What is over has no effect. -/
theorem Over.silent (hs : s.Over op) {d : Deed} (h : s.deed l = some d) :
    ¬ (d = .creates op ∨ d = .joins op) := by
  rintro (rfl | rfl)
  · cases does_of_deed h with
    | puts hc hcreates =>
        obtain ⟨p, hp, hposted⟩ := creates_of_mem_queued hc hcreates
        exact hs.uncreated.tunnelEvents p hp hposted
    | sends hc hcreates => exact hs.uncreated.cmds _ hc hcreates
  · cases does_of_deed h with
    | joins hjoins =>
        obtain ⟨roomName, op', hpending⟩ := joining_of_joinsByPoll hjoins
        have hnone := hs.pending
        rw [hpending] at hnone
        cases hnone

/-- In a tidy run, a cancelled operation has no later effect. -/
theorem staysCancelled_of_tidy (config : AppConfig) {events : List Deed} {s : Process}
    (h : ((machine config).restrict tidy).Trace (fun s l => (s.deed l).toList) events s)
    (op : OpId) : StaysCancelled op events := by
  refine Machine.Quiets.hushed (Q := Over op) ?_ h
  refine ⟨fun _ hstep hdeed hcancels => ?_, fun _ hs hstep hwakes => ?_, fun _ hs _ hdeed => ?_⟩
  · obtain ⟨htidy, hstep⟩ := Machine.restrict_step.mp hstep
    exact over_of_cancels htidy hstep (hcancels ▸ hdeed)
  · exact hs.step (begun_of_deed hwakes) (Machine.restrict_step.mp hstep).2
  · exact hs.silent hdeed

/-- A join is cancelled, and its command is sent in the next session: the answer is ignored. -/
def rejoins : List Label :=
  [.connect true, .poll, .reply (.roomUpdate [foundRoom]) none false, .deliver, .poll] ++
    framed (.join foundRoom) ++ [.sendNext true, .lose, .reconnecting, .poll, .poll] ++
    framed .idle ++ [.retry, .connect true, .poll, .sendNext true, .serve,
      .reply (.joinResult true (some "r") (some "t") (some [1])) none true, .deliver, .poll]

/-- Then a room is created, and the session ends after its command was sent and before the server
has answered: this create is cancelled too, and nothing is left that could send it again. -/
def recreates : List Label :=
  rejoins ++ framed .openDialog ++ framed (.create 2) ++
    [.captured 1 [1] none, .poll, .poll, .poll, .sendNext true, .sendNext true, .poll, .input .idle,
      .lose, .reconnecting, .poll, .poll] ++
    framed .idle ++ [.retry, .connect true, .poll, .sendNext true]

/-- What becomes of the two operations. -/
def recreated : List Deed :=
  [.begins 0, .cancels 0, .begins 1, .creates 1, .creates 1, .cancels 1]

/-- A cancelled join stays cancelled, and so does a cancelled create. -/
theorem staysCancelled_rejoining : ∃ s, s.tunnels = [] ∧
    ((machine somebody).restrict tidy).Trace (fun s l => (s.deed l).toList) recreated s ∧
      StaysCancelled 0 recreated ∧ StaysCancelled 1 recreated := by
  have hrun : (((machine somebody).restrict tidy).exec
      ((machine somebody).restrict tidy).init recreates).any (·.tunnels = []) = true := by
    decide
  have hreport : ((machine somebody).restrict tidy).report (fun s l => (s.deed l).toList)
      ((machine somebody).restrict tidy).init recreates = recreated := by
    decide
  obtain ⟨s, hexec, _, htunnels⟩ := Machine.exists_reachable_of_exec hrun
  have htrace := Machine.trace_of_exec (f := fun s l => (s.deed l).toList) hexec
  rw [hreport] at htrace
  exact ⟨s, of_decide_eq_true htunnels, htrace, staysCancelled_of_tidy somebody htrace 0,
    staysCancelled_of_tidy somebody htrace 1⟩

/-- A create is cancelled while its capture runs, which then finds a game. -/
def createsLate : List Label :=
  [.connect true, .poll, .sendNext true] ++ framed .openDialog ++ framed (.create 2) ++
    [.lose, .poll, .poll, .poll, .captured 0 [1] none, .poll, .reconnecting, .retry, .connect true,
      .sendNext true]

/-- The `CreateRoom` of the cancelled create is put on the queue, and sent in the next session. -/
theorem not_staysCancelled : ∃ s, (machine somebody).Trace (fun s l => (s.deed l).toList)
    [.begins 0, .cancels 0, .creates 0, .creates 0] s ∧
      ¬ StaysCancelled 0 [.begins 0, .cancels 0, .creates 0, .creates 0] := by
  have hrun : ((machine somebody).exec (machine somebody).init createsLate).any
      (fun _ => true) = true := by
    decide
  have hreport : (machine somebody).report (fun s l => (s.deed l).toList)
      (machine somebody).init createsLate = [.begins 0, .cancels 0, .creates 0, .creates 0] := by
    decide
  obtain ⟨s, hexec, _, _⟩ := Machine.exists_reachable_of_exec hrun
  have htrace := Machine.trace_of_exec (f := fun s l => (s.deed l).toList) hexec
  rw [hreport] at htrace
  refine ⟨s, htrace, fun hstays => ?_⟩
  obtain ⟨d, hd, _⟩ := hstays [.begins 0] [] [.creates 0] _ _ rfl rfl (.inl rfl)
  cases hd

end Process

end War3BattleTool.Client
