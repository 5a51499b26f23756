import War3BattleTool.Client.Operations

set_option autoImplicit false

/-!
# What settles a pending action

The app ends a join with any `JoinResult`, a create with any `RoomUpdate`, and either of them with
any `Error` or with a capture that found nothing.  In a run in which the user begins an operation
only when nothing is left that would end it, and the server sends no room list and no error on
behalf of somebody else while it waits (`unhurried`), what ends it is its own answer.
-/

namespace War3BattleTool.Client

open War3BattleTool.Foundation War3BattleTool.Protocol

namespace Item

/-- The item would end the action, or lead to what would. -/
def concerns (i : Item) (pending : PendingAction) : Bool :=
  pending.isInFlight &&
    match i with
    | .capture _ | .captured _ => true
    | .command c =>
        match pending, c.message with
        | .joining _ _, .joinRoom _ => true
        | _, _ => false
    | .letter x => pending.settledBy x.message

/-- The item is a trace of the operation, or a room list that the server sent when it was done
with it. -/
def answersTo (i : Item) (op : OpId) : Bool :=
  i.op = some op ||
    match i with
    | .letter x =>
        match x.message with
        | .roomUpdate _ => op ∈ x.processed
        | _ => false
    | _ => false

theorem answersTo_command {c : Command} {op : OpId} :
    (command c).answersTo op = true ↔ c.op = some op := by
  unfold answersTo
  rw [Bool.or_false, decide_eq_true_iff]
  rfl

end Item

namespace Process

/-- The item that the next `try_recv` takes. -/
def taken (s : Process) : Label → Option Item
  | .poll =>
      match s.frame with
      | .events => s.events.head?.bind (·.item)
      | .tunnels => s.tunnelEvents.head?.bind (·.item)
      | _ => none
  | _ => none

/-- The pending action of the operation that the user begins. -/
def pendingBegun (s : Process) : Label → Option PendingAction
  | .input (.join room) => some (.joining room.roomName s.ops.length)
  | .input (.create _) => some (.creatingRoom "偵測中..." s.ops.length)
  | _ => none

/-- The room list or the error that the server sends. -/
def broadcast (s : Process) : Label → Option Letter
  | .reply m externalAddr own =>
      match s.network with
      | .session x =>
          match m with
          | .roomUpdate _ | .error _ => some
              { message := m, externalAddr := externalAddr,
                answers := if own then x.serving.bind (·.op) else none, processed := s.processed }
          | _ => none
      | _ => none
  | _ => none

/-- When the user begins an operation, nothing is left that would end it; while it is in flight,
the server sends no room list before it has worked on it, and no error that is not an answer
to it. -/
def unhurried (s : Process) (l : Label) : Prop :=
  (∀ pending ∈ s.pendingBegun l, ∀ i ∈ s.items, i.concerns pending = false) ∧
    ∀ x ∈ s.broadcast l, ∀ pending ∈ s.app.pendingAction,
      (Item.letter x).concerns pending = true →
        ∀ op ∈ pending.op, (Item.letter x).answersTo op = true

instance (s : Process) (l : Label) : Decidable (s.unhurried l) :=
  inferInstanceAs (Decidable ((∀ pending ∈ s.pendingBegun l, _) ∧ ∀ x ∈ s.broadcast l, _))

/-- A joiner's tunnel is started with the token that answers the room that the app is joining; a
message that ends an action in flight is of its kind, and answers it; a capture ends no
other action than its own. -/
structure Settled (M : Machine Process Label) (s : Process) : Prop where
  tunnel : ∀ {l s' t}, M.step s l = some s' → t ∈ s'.tunnels.drop s.tunnels.length →
    t.role = .joiner → ∃ letter room gameinfo roomName op roomId,
      s.taken l = some (.letter letter) ∧
        letter.message = .joinResult true room (some t.token) (some gameinfo) ∧
          s.app.pendingAction = some (.joining roomName op) ∧ letter.answers = some op ∧
            s.ops[op]? = some (.join roomId roomName)
  letter : ∀ {l s' letter pending op}, M.step s l = some s' →
    s.taken l = some (.letter letter) → s.app.pendingAction = some pending →
      pending.op = some op → s'.app.pendingAction ≠ some pending →
        pending.settledBy letter.message = true ∧ (Item.letter letter).answersTo op = true
  captured : ∀ {l s' op' pending op}, M.step s l = some s' → s.taken l = some (.captured op') →
    s.app.pendingAction = some pending → pending.op = some op →
      s'.app.pendingAction ≠ some pending →
        op' = op ∧ ∃ roomName, pending = .creatingRoom roomName op

variable {s s' : Process} {l : Label} {i : Item}

/-! ## The traces of the pending action -/

/-- Whatever would end the action in flight is its own. -/
def OwnTraces (s : Process) : Prop :=
  ∀ pending ∈ s.app.pendingAction, ∀ op ∈ pending.op, ∀ i ∈ s.items,
    i.concerns pending = true → i.answersTo op = true

theorem isInFlight_of_op {pending : PendingAction} {op : OpId} (h : pending.op = some op) :
    pending.isInFlight = true := by
  cases pending <;> first | rfl | cases h

theorem not_concerns_command {c : Command} {pending : PendingAction}
    (h : ∀ roomId, c.message ≠ .joinRoom roomId) : (Item.command c).concerns pending = false := by
  unfold Item.concerns
  dsimp only
  split
  · next hm => exact absurd hm (h _)
  · exact Bool.and_false _

/-- While an action is in flight, what comes up that would end it is its own. -/
theorem answersTo_of_born (hs : OwnTraces s) (hunhurried : s.unhurried l) (hbegun : s.begun l = [])
    {pending : PendingAction} (hpending : s.app.pendingAction = some pending) {op : OpId}
    (hop : pending.op = some op) (hi : Born s l i) (hconcerns : i.concerns pending = true) :
    i.answersTo op = true := by
  cases hi with
  | queued hc =>
      cases queues_of_mem hc with
      | other _ hjoin _ =>
          rw [not_concerns_command hjoin] at hconcerns
          cases hconcerns
      | joins hnetwork => simp [begun, hnetwork] at hbegun
      | creates _ _ =>
          rw [not_concerns_command (by simp)] at hconcerns
          cases hconcerns
  | captures hc =>
      unfold capturesBegun at hc
      split at hc
      · cases hbegun
      · cases hc
  | @captured c _ _ hc =>
      have hcapture : (Item.capture c).answersTo op = true := by
        refine hs pending hpending op hop _ (mem_items.mpr (.inl ⟨c, hc, rfl⟩)) ?_
        simp [Item.concerns, isInFlight_of_op hop]
      simpa [Item.answersTo, Item.op] using hcapture
  | ticks hm =>
      rw [not_concerns_command (by rcases hm with rfl | ⟨ts, rfl⟩ <;> simp)] at hconcerns
      cases hconcerns
  | @replies x m externalAddr own hx hmay =>
      by_cases hjoins : ∃ success room token gameinfo, m = .joinResult success room token gameinfo
      · -- The server works on a "join", which is the one in flight.
        obtain ⟨success, room, token, gameinfo, rfl⟩ := hjoins
        obtain ⟨hown, c, roomId, hc, hm⟩ := serving_of_joinResult hmay
        have hserving : (Item.command c).answersTo op = true := by
          refine hs pending hpending op hop _
            (items_of_session hx (mem_session_items.mpr (.inr (.inl ⟨c, hc, rfl⟩)))) ?_
          cases pending with
          | joining => simp [Item.concerns, PendingAction.isInFlight, hm]
          | _ => simp [Item.concerns, PendingAction.settledBy] at hconcerns
        rw [Item.answersTo_command] at hserving
        simp [Item.answersTo, Item.op, hown, hc, hserving]
      · refine hunhurried.2 _ ?_ pending hpending hconcerns op hop
        simp only [Item.concerns, Bool.and_eq_true] at hconcerns
        unfold broadcast
        simp only [hx]
        cases m with
        | joinResult success room token gameinfo => exact absurd ⟨_, _, _, _, rfl⟩ hjoins
        | roomUpdate | error => rfl
        | _ => cases pending <;> simp [PendingAction.settledBy] at hconcerns

/-- The user begins an operation: what is left does not concern it. -/
theorem ownTraces_begins {pending : PendingAction} (hunhurried : s.unhurried l)
    (hpending : s.pendingBegun l = some pending) (hop : pending.op = some s.ops.length)
    (hs' : s'.app.pendingAction = some pending)
    (hitems : ∀ i ∈ s'.items, i.concerns pending = true → i ∈ s.items ∨ i.op = some s.ops.length) :
    OwnTraces s' := by
  intro pending' hpending' op hop' i hi hconcerns
  rw [hs', Option.mem_some_iff] at hpending'
  subst hpending'
  obtain rfl : s.ops.length = op := Option.some.inj (hop.symm.trans hop')
  rcases hitems i hi hconcerns with hold | hnew
  · rw [hunhurried.1 pending hpending i hold] at hconcerns
    cases hconcerns
  · simp [Item.answersTo, hnew]

theorem op_of_born_join {room : RoomInfo} (hi : Born s (.input (.join room)) i)
    {pending : PendingAction} (hconcerns : i.concerns pending = true) :
    i.op = some s.ops.length := by
  cases hi with
  | queued hc =>
      cases queues_of_mem hc with
      | other _ hjoin _ =>
          rw [not_concerns_command hjoin] at hconcerns
          cases hconcerns
      | joins => rfl
  | captures hc => cases hc

theorem op_of_born_create {maxPlayers : Nat} (hi : Born s (.input (.create maxPlayers)) i) :
    i.op = some s.ops.length := by
  cases hi with
  | queued hc => cases hc
  | captures hc =>
      rw [List.mem_singleton.mp hc]
      rfl

theorem OwnTraces.step (hs : OwnTraces s) (hunhurried : s.unhurried l)
    (h : s.step l = some s') : OwnTraces s' := by
  have hpending := pending_step h
  generalize hp : s'.app.pendingAction = p at hpending
  cases hpending with
  | keeps hbegun =>
      intro pending hpending op hop i hi hconcerns
      rw [hp] at hpending
      rcases items_step h hi with hold | hnew
      · exact hs pending hpending op hop i hold hconcerns
      · exact answersTo_of_born hs hunhurried hbegun hpending hop hnew hconcerns
  | settles _ hnone =>
      intro pending hpending op hop
      rw [hp] at hpending
      rw [hpending, Option.bind_some, hop] at hnone
      cases hnone
  | joins =>
      exact ownTraces_begins hunhurried rfl rfl hp fun i hi hconcerns =>
        (items_step h hi).imp_right fun hnew => op_of_born_join hnew hconcerns
  | creates =>
      exact ownTraces_begins hunhurried rfl rfl hp fun i hi _ =>
        (items_step h hi).imp_right op_of_born_create

theorem ownTraces_of_reachable {config : AppConfig}
    (h : ((machine config).restrict unhurried).Reachable s) : OwnTraces s := by
  induction h with
  | init =>
      intro pending hpending
      cases hpending
  | step _ hstep ih =>
      obtain ⟨hunhurried, hstep⟩ := Machine.restrict_step.mp hstep
      exact ih.step hunhurried hstep

/-! ## Settlement -/

/-- An item comes from the queue of the loop that runs. -/
theorem taken_eq_some (h : s.taken l = some i) : l = .poll ∧
    ((∃ e rest, s.frame = .events ∧ s.events = e :: rest ∧ e.item = some i) ∨
      ∃ p rest, s.frame = .tunnels ∧ s.tunnelEvents = p :: rest ∧ p.item = some i) := by
  unfold taken at h
  split at h
  · split at h
    · next hframe =>
      obtain ⟨e, he, hitem⟩ := Option.bind_eq_some_iff.mp h
      obtain ⟨rest, hevents⟩ := List.head?_eq_some_iff.mp he
      exact ⟨rfl, .inl ⟨e, rest, hframe, hevents, hitem⟩⟩
    · next hframe =>
      obtain ⟨p, hp, hitem⟩ := Option.bind_eq_some_iff.mp h
      obtain ⟨rest, hevents⟩ := List.head?_eq_some_iff.mp hp
      exact ⟨rfl, .inr ⟨p, rest, hframe, hevents, hitem⟩⟩
    · cases h
  · cases h

theorem letter_of_taken {letter : Letter} (htaken : s.taken l = some (.letter letter))
    (h : s.step l = some s') : ∃ rest, s.events = .serverMessage letter :: rest ∧
      s' = { s with events := rest }.handleServerMessage letter := by
  obtain ⟨rfl, ⟨e, rest, hframe, hevents, hitem⟩ | ⟨p, _, _, _, hitem⟩⟩ := taken_eq_some htaken
  · obtain rfl : e = .serverMessage letter := by
      cases e <;> cases hitem
      rfl
    have hpoll : s.poll = some ({ s with events := rest }.netEvent (.serverMessage letter)) := by
      simp [poll, hframe, hevents]
    exact ⟨rest, hevents, Option.some.inj (h.symm.trans hpoll)⟩
  · cases p <;> cases hitem

theorem mem_items_of_taken (h : s.taken l = some i) : i ∈ s.items := by
  obtain ⟨_, ⟨e, rest, _, hevents, hitem⟩ | ⟨p, rest, _, hevents, hitem⟩⟩ := taken_eq_some h
  · exact mem_items.mpr (.inr (.inr (.inr (.inr ⟨e, by rw [hevents]; exact .head _, hitem⟩))))
  · exact mem_items.mpr (.inr (.inl ⟨p, by rw [hevents]; exact .head _, hitem⟩))

/-- The traces of the pending action settle it, if they are its own. -/
theorem settled_of_ownTraces {M : Machine Process Label} (hkinds : Kinds s) (hown : OwnTraces s)
    (hM : ∀ {l s'}, M.step s l = some s' → s.step l = some s') : Settled M s where
  letter := by
    intro l s' letter pending op h htaken hpending hop hchanged
    obtain ⟨rest, hevents, rfl⟩ := letter_of_taken htaken (hM h)
    rcases pending_handleServerMessage { s with events := rest } letter with hsame | ⟨_, hsettles⟩
    · exact absurd (hsame.trans hpending) hchanged
    · have hsettled := hsettles pending hpending
      refine ⟨hsettled, hown pending hpending op hop _ (mem_items_of_taken htaken) ?_⟩
      simp [Item.concerns, isInFlight_of_op hop, hsettled]
  captured := by
    intro l s' op' pending op h htaken hpending hop hchanged
    have hanswers : (Item.captured op').answersTo op = true := by
      refine hown pending hpending op hop _ (mem_items_of_taken htaken) ?_
      simp [Item.concerns, isInFlight_of_op hop]
    obtain rfl : op' = op := by simpa [Item.answersTo, Item.op] using hanswers
    refine ⟨rfl, ?_⟩
    -- What was captured is for a create, and the action in flight is of the same operation.
    obtain ⟨n, hcreate⟩ := hkinds.items _ (mem_items_of_taken htaken)
    have hfits := hkinds.pending pending hpending
    cases pending with
    | joining roomName op =>
        cases hop
        obtain ⟨roomId, hjoin⟩ := hfits
        rw [hcreate] at hjoin
        cases hjoin
    | creatingRoom roomName op =>
        cases hop
        exact ⟨roomName, rfl⟩
    | _ => cases hop
  tunnel := by
    intro l s' t h ht hrole
    rcases starts_of_step (hM h) with hlength | ⟨letter, rest, rfl, hframe, hevents, rfl⟩
    · rw [← hlength, List.drop_length] at ht
      cases ht
    · have htaken : s.taken .poll = some (.letter letter) := by
        simp [taken, hframe, hevents, NetEvent.item]
      obtain ⟨_, ⟨room, gameinfo, hm⟩, roomName, op, hpending⟩ :=
        joins_of_handleServerMessage (s := { s with events := rest }) ht (.inl hrole)
      obtain ⟨roomId, hjoin⟩ := hkinds.pending _ hpending
      have hanswers : (Item.letter letter).answersTo op = true := by
        refine hown _ hpending op rfl _ (mem_items_of_taken htaken) ?_
        simp [Item.concerns, PendingAction.isInFlight, PendingAction.settledBy, hm]
      simp only [Item.answersTo, hm, Bool.or_false] at hanswers
      exact ⟨letter, room, gameinfo, roomName, op, roomId, htaken, hm, hpending,
        of_decide_eq_true hanswers, hjoin⟩

/-- In an unhurried run, a pending action is settled only by its own response. -/
theorem settled_of_unhurried (config : AppConfig) {s : Process}
    (h : ((machine config).restrict unhurried).Reachable s) :
    Settled ((machine config).restrict unhurried) s :=
  settled_of_ownTraces (kinds_of_reachable h.of_restrict) (ownTraces_of_reachable h)
    fun hstep => (Machine.restrict_step.mp hstep).2

/-- The user joins a room, and the server answers. -/
def joinsRoom : List Label :=
  [.connect true, .poll, .reply (.roomUpdate [foundRoom]) none false, .deliver, .poll] ++
    framed (.join foundRoom) ++
    [.sendNext true, .sendNext true, .serve, .served, .serve,
      .reply (.joinResult true (some "r") (some "t") (some [1])) none true, .deliver]

/-- The answer is about to start the tunnel of a joiner. -/
theorem settled_joining : ∃ s, s.poll.any (·.tunnels.any (·.role = .joiner)) = true ∧
    Settled ((machine somebody).restrict unhurried) s := by
  have hrun : (((machine somebody).restrict unhurried).exec
      ((machine somebody).restrict unhurried).init joinsRoom).any
        (·.poll.any (·.tunnels.any (·.role = .joiner))) = true := by
    decide
  obtain ⟨s, _, hreach, hjoins⟩ := Machine.exists_reachable_of_exec hrun
  exact ⟨s, hjoins, settled_of_unhurried somebody hreach⟩

/-- The room list that the server sends when somebody else changes a room. -/
def othersList : Letter := ⟨.roomUpdate [], none, none, []⟩

/-- The user creates a room, and the room list of somebody else comes before the capture ends. -/
def createsRoom : List Label :=
  [.connect true, .poll] ++ framed .openDialog ++ framed (.create 2) ++
    [.reply othersList.message none false, .deliver]

/-- The room list ends the create as if it were done, although no command was sent. -/
theorem not_settled : ∃ s, (machine somebody).Reachable s ∧ ¬ Settled (machine somebody) s := by
  have hrun : ((machine somebody).exec (machine somebody).init createsRoom).any (fun s =>
      s.taken .poll = some (.letter othersList) &&
        (s.app.pendingAction = some (.creatingRoom "偵測中..." 0) &&
          s.poll.any (·.app.pendingAction = none))) = true := by
    decide
  obtain ⟨s, _, hreach, htest⟩ := Machine.exists_reachable_of_exec hrun
  simp only [Bool.and_eq_true, decide_eq_true_eq, Option.any_eq_true] at htest
  obtain ⟨htaken, hpending, s', hpoll, hnone⟩ := htest
  refine ⟨s, hreach, fun hsettled => ?_⟩
  have hstep : (machine somebody).step s .poll = some s' := hpoll
  have hanswers := (hsettled.letter hstep htaken hpending rfl (by simp [hnone])).2
  cases hanswers

end Process

end War3BattleTool.Client
