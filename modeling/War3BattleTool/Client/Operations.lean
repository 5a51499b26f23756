import War3BattleTool.Client.Commands
import War3BattleTool.Client.Tunnels

set_option autoImplicit false

/-!
# Operations and their answers

An operation begins with a click.  Its traces run through the tasks and queues of the client and
the session to the server: the capture, what it captured, the command, and the answer.  The
client does not compare an answer with what it waits for, so it is the user who must not begin
an operation while traces of another one are left (`unhurried`); the room list, which ends any
create, must not come before the server has worked on it.
-/

namespace War3BattleTool.Client

open War3BattleTool.Foundation War3BattleTool.Protocol

/-! ## Traces of an operation -/

/-- What an operation leaves in the queues and tasks. -/
inductive Item where
  | capture (c : Capture)
  | captured (op : OpId)
  | command (c : Command)
  | letter (x : Letter)
  deriving DecidableEq

namespace Item

/-- The operation of an item. -/
def op : Item → Option OpId
  | .capture c => some c.op
  | .captured op => some op
  | .command c => c.op
  | .letter x => x.answers

/-- The operation of an item is of the right kind. -/
def Fits (ops : List Operation) : Item → Prop
  | .capture c => ops[c.op]? = some (.create c.maxPlayers)
  | .captured op => ∃ n, ops[op]? = some (.create n)
  | .command c =>
      match c.message with
      | .joinRoom roomId =>
          ∃ op roomName, c.op = some op ∧ ops[op]? = some (.join roomId roomName)
      | .createRoom _ _ _ _ => ∃ op n, c.op = some op ∧ ops[op]? = some (.create n)
      | _ => c.op = none
  | .letter x =>
      match x.message with
      | .joinResult _ _ _ _ =>
          ∃ op roomId roomName, x.answers = some op ∧ ops[op]? = some (.join roomId roomName)
      | _ => True

end Item

/-- The item of an entry of the queue of tunnel events. -/
def Posted.item : Posted → Option Item
  | .gameinfoCaptured op _ _ _ _ => some (.captured op)
  | .tunnel _ _ => none

/-- The create that handling the entry goes on with. -/
def Posted.creates : Posted → Option OpId
  | .gameinfoCaptured op _ _ _ gameinfo => if gameinfo.isEmpty then none else some op
  | .tunnel _ _ => none

/-- The item of an event of the network task. -/
def NetEvent.item : NetEvent → Option Item
  | .serverMessage letter => some (.letter letter)
  | _ => none

/-- What is on the way in a session. -/
def Session.items (x : Session) : List Item :=
  x.toServer.map .command ++ (x.serving.map .command).toList ++ x.toClient.map .letter

/-- What is on the way to and from the server. -/
def NetworkTask.items : NetworkTask → List Item
  | .session x => x.items
  | _ => []

/-- The pending action is that of an operation of the right kind. -/
def PendingAction.Fits (ops : List Operation) : PendingAction → Prop
  | .joining roomName op => ∃ roomId, ops[op]? = some (.join roomId roomName)
  | .creatingRoom _ op => ∃ n, ops[op]? = some (.create n)
  | _ => True

/-- The message can end the action. -/
def PendingAction.settledBy : PendingAction → ServerMessage → Bool
  | .joining _ _, .joinResult _ _ _ _ | .creatingRoom _ _, .roomUpdate _ => true
  | _, .error _ => true
  | _, _ => false

namespace Process

/-- The traces of operations in the process. -/
def items (s : Process) : List Item :=
  s.captures.map .capture ++ s.tunnelEvents.filterMap (·.item) ++ s.cmds.map .command ++
    s.network.items ++ s.events.filterMap (·.item)

/-- The operations of which traces are left. -/
def outstanding (s : Process) : List OpId := s.items.filterMap (·.op)

/-- An item that a step brings up. -/
inductive Born (s : Process) : Label → Item → Prop
  | queued {l : Label} {c : Command} (hc : c ∈ s.queued l) : Born s l (.command c)
  | captures {l : Label} {c : Capture} (hc : c ∈ s.capturesBegun l) : Born s l (.capture c)
  | captured {c : Capture} {gameinfo : Bytes} {fields : Option GameinfoFields}
      (hc : c ∈ s.captures) : Born s (.captured c.op gameinfo fields) (.captured c.op)
  | ticks {m : ClientMessage} {ok : Bool} (hm : m = .heartbeat ∨ ∃ ts, m = .ping ts) :
      Born s (.tick m ok) (.command ⟨m, none⟩)
  | replies {x : Session} {m : ServerMessage} {externalAddr : Option SocketAddr} {own : Bool}
      (hx : s.network = .session x) (hmay : x.maySend m own = true) :
      Born s (.reply m externalAddr own) (.letter
        { message := m, externalAddr := externalAddr,
          answers := if own then x.serving.bind (·.op) else none, processed := s.processed })

variable {s s' : Process} {l : Label} {i : Item}

theorem mem_items : i ∈ s.items ↔ (∃ c ∈ s.captures, .capture c = i) ∨
    (∃ p ∈ s.tunnelEvents, p.item = some i) ∨ (∃ c ∈ s.cmds, .command c = i) ∨
    i ∈ s.network.items ∨ ∃ e ∈ s.events, e.item = some i := by
  simp only [items, List.mem_append, List.mem_map, List.mem_filterMap, or_assoc]

theorem mem_session_items {x : Session} : i ∈ x.items ↔ (∃ c ∈ x.toServer, .command c = i) ∨
    (∃ c, x.serving = some c ∧ .command c = i) ∨ ∃ y ∈ x.toClient, .letter y = i := by
  simp only [Session.items, List.mem_append, List.mem_map, Option.mem_toList,
    Option.map_eq_some_iff, or_assoc]

/-! ## Where items come from -/

/-- The user takes nothing from the queues. -/
theorem queues_of_input {i : Input} (h : s.input i = some s') :
    s'.events = s.events ∧ s'.tunnelEvents = s.tunnelEvents := by
  obtain ⟨_, next, hnext, rfl⟩ := shows_of_input h
  cases hnext with
  | sets => exact ⟨rfl, rfl⟩
  | registers =>
      unfold finishWizard sendRegister
      dsimp only
      rw [fst_sendOrWarn]
      split <;> exact ⟨rfl, rfl⟩
  | joins =>
      unfold clickJoin
      dsimp only
      rw [fst_sendOrWarn]
      split <;> exact ⟨rfl, rfl⟩
  | closes =>
      rw [fst_sendOrWarn]
      exact ⟨rfl, rfl⟩
  | creates => exact ⟨rfl, rfl⟩

/-- What the tasks of the app and the UI thread do to their queues. -/
theorem queues_of_local (hl : l.isRemote = false) (h : s.step l = some s') :
    (∀ e ∈ s'.events, e ∈ s.events) ∧
      ∀ p ∈ s'.tunnelEvents, p ∈ s.tunnelEvents ∨ ∀ i, p.item = some i → Born s l i := by
  cases l with
  | poll =>
      cases polls_of_poll h with
      | @event e rest _ hevents =>
          have hsends := sends_netEvent { s with events := rest } e
          rw [hsends.events, hsends.tunnelEvents, hevents]
          exact ⟨fun e he => List.mem_cons_of_mem _ he, fun p hp => .inl hp⟩
      | @upnp token addr rest _ _ =>
          have hsends := sends_upnpEvent { s with upnpMapped := rest } token addr
          rw [hsends.events, hsends.tunnelEvents]
          exact ⟨fun e he => he, fun p hp => .inl hp⟩
      | @posted p rest _ hevents =>
          have hsends := sends_posted { s with tunnelEvents := rest } p
          rw [hsends.events, hsends.tunnelEvents, hevents]
          exact ⟨fun e he => he, fun p hp => .inl (List.mem_cons_of_mem _ hp)⟩
      | ends => exact ⟨fun e he => he, fun p hp => .inl hp⟩
  | input i =>
      obtain ⟨hevents, htunnelEvents⟩ := queues_of_input h
      rw [hevents, htunnelEvents]
      exact ⟨fun e he => he, fun p hp => .inl hp⟩
  | tunnel k move =>
      obtain ⟨⟨t, emitted⟩, _, rfl⟩ := Option.map_eq_some_iff.mp h
      refine ⟨fun e he => he, fun p hp => ?_⟩
      rcases List.mem_append.mp hp with hp | hp
      · exact .inl hp
      · obtain ⟨event, _, rfl⟩ := List.mem_map.mp hp
        exact .inr fun i hi => by cases hi
  | report k r =>
      obtain ⟨t, _, h⟩ := Option.bind_eq_some_iff.mp h
      cases r <;> simp only at h <;> split at h <;> cases h
      · refine ⟨fun e he => he, fun p hp => ?_⟩
        rcases List.mem_append.mp hp with hp | hp
        · exact .inl hp
        · rw [List.mem_singleton.mp hp]
          exact .inr fun i hi => by cases hi
      all_goals exact ⟨fun e he => he, fun p hp => .inl hp⟩
  | captured op gameinfo fields =>
      obtain ⟨c, hc, rfl⟩ := Option.map_eq_some_iff.mp h
      refine ⟨fun e he => he, fun p hp => ?_⟩
      rcases List.mem_append.mp hp with hp | hp
      · exact .inl hp
      · rw [List.mem_singleton.mp hp]
        have hop : c.op = op := by simpa using List.find?_some hc
        refine .inr fun i hi => ?_
        cases hi
        exact hop ▸ .captured (List.mem_of_find?_eq_some hc)
  | _ => cases hl

theorem items_of_local (hl : l.isRemote = false) (h : s.step l = some s') (hi : i ∈ s'.items) :
    i ∈ s.items ∨ Born s l i := by
  have hstep := sendsStep_of_local hl h
  obtain ⟨hevents, hposted⟩ := queues_of_local hl h
  rw [mem_items] at hi ⊢
  rcases hi with ⟨c, hc, rfl⟩ | ⟨p, hp, hitem⟩ | ⟨c, hc, rfl⟩ | hi | ⟨e, he, hitem⟩
  · rcases hstep.captures c hc with hold | hnew
    · exact .inl (.inl ⟨c, hold, rfl⟩)
    · exact .inr (.captures hnew)
  · rcases hposted p hp with hold | hnew
    · exact .inl (.inr (.inl ⟨p, hold, hitem⟩))
    · exact .inr (hnew i hitem)
  · rw [hstep.cmds] at hc
    rcases List.mem_append.mp hc with hold | hnew
    · exact .inl (.inr (.inr (.inl ⟨c, hold, rfl⟩)))
    · exact .inr (.queued hnew)
  · rw [hstep.network] at hi
    exact .inl (.inr (.inr (.inr (.inl hi))))
  · exact .inl (.inr (.inr (.inr (.inr ⟨e, hevents e he, hitem⟩))))

/-- What is in the queues to and from the network task, and on the way in the session. -/
theorem items_of_network (hui : KeepsUi s s') (hcmds : ∀ c ∈ s'.cmds, c ∈ s.cmds)
    (hnetwork : ∀ i ∈ s'.network.items, i ∈ s.items ∨ Born s l i)
    (hevents : ∀ e ∈ s'.events, e ∈ s.events ∨ ∀ i, e.item = some i → i ∈ s.items)
    (hi : i ∈ s'.items) : i ∈ s.items ∨ Born s l i := by
  rcases mem_items.mp hi with ⟨c, hc, rfl⟩ | ⟨p, hp, hitem⟩ | ⟨c, hc, rfl⟩ | hi | ⟨e, he, hitem⟩
  · exact .inl (mem_items.mpr (.inl ⟨c, hui.captures ▸ hc, rfl⟩))
  · exact .inl (mem_items.mpr (.inr (.inl ⟨p, hui.tunnelEvents ▸ hp, hitem⟩)))
  · exact .inl (mem_items.mpr (.inr (.inr (.inl ⟨c, hcmds c hc, rfl⟩))))
  · exact hnetwork i hi
  · rcases hevents e he with hold | hold
    · exact .inl (mem_items.mpr (.inr (.inr (.inr (.inr ⟨e, hold, hitem⟩)))))
    · exact .inl (hold i hitem)

theorem mem_items_of_network (hi : i ∈ s.network.items) : i ∈ s.items :=
  mem_items.mpr (.inr (.inr (.inr (.inl hi))))

/-- A step that does not touch the session, or ends it, brings up nothing. -/
theorem items_of_report (hui : KeepsUi s s') (hcmds : ∀ c ∈ s'.cmds, c ∈ s.cmds)
    (hnetwork : s'.network.items = [] ∨ s'.network.items = s.network.items)
    (hevents : ∃ new, s'.events = s.events ++ new ∧ new.filterMap (·.item) = [])
    (hi : i ∈ s'.items) : i ∈ s.items ∨ Born s l i := by
  obtain ⟨new, hevents, hnew⟩ := hevents
  refine items_of_network hui hcmds (fun i hi => ?_) (fun e he => ?_) hi
  · rcases hnetwork with hnone | hsame
    · simp [hnone] at hi
    · exact .inl (mem_items_of_network (hsame ▸ hi))
  · rw [hevents] at he
    rcases List.mem_append.mp he with hold | hnews
    · exact .inl hold
    · refine .inr fun i hi => ?_
      have hmem : i ∈ new.filterMap (·.item) := List.mem_filterMap.mpr ⟨e, hnews, hi⟩
      rw [hnew] at hmem
      cases hmem

theorem items_of_session {x : Session} (hx : s.network = .session x) (hi : i ∈ x.items) :
    i ∈ s.items :=
  mem_items_of_network (by rw [hx]; exact hi)

theorem items_of_endSession (hui : KeepsUi s s') (hcmds : ∀ c ∈ s'.cmds, c ∈ s.cmds)
    (hnetwork : s'.network = .reporting 0) (hevents : s'.events = s.events ++ [.disconnected])
    (hi : i ∈ s'.items) : i ∈ s.items ∨ Born s l i :=
  items_of_report hui hcmds (.inl (by rw [hnetwork]; rfl)) ⟨_, hevents, rfl⟩ hi

/-! One lemma for each step of a session. -/

theorem items_of_sendNext {x : Session} (hx : s.network = .session x) {ok : Bool}
    (hui : KeepsUi s s') (h : s.sendNext x ok = some s') (hi : i ∈ s'.items) :
    i ∈ s.items ∨ Born s l i := by
  unfold sendNext at h
  split at h
  · cases h
  · next c rest hcmds =>
    have hmem : ∀ d ∈ rest, d ∈ s.cmds := fun d hd => hcmds ▸ List.mem_cons_of_mem _ hd
    dsimp only at h
    split at h <;> cases h
    · refine items_of_network hui hmem (fun i hi => .inl ?_) (fun e he => .inl he) hi
      -- The command leaves the queue for the session.
      rcases mem_session_items.mp hi with ⟨d, hd, rfl⟩ | hserving | hletter
      · rcases List.mem_append.mp hd with hold | hnew
        · exact items_of_session hx (mem_session_items.mpr (.inl ⟨d, hold, rfl⟩))
        · rw [List.mem_singleton.mp hnew]
          exact mem_items.mpr (.inr (.inr (.inl ⟨c, by simp [hcmds], rfl⟩)))
      · exact items_of_session hx (mem_session_items.mpr (.inr (.inl hserving)))
      · exact items_of_session hx (mem_session_items.mpr (.inr (.inr hletter)))
    · exact items_of_endSession hui hmem rfl rfl hi

/-- A timer's message goes to the server. -/
theorem items_of_ticked {x : Session} (hx : s.network = .session x) {m : ClientMessage} {ok : Bool}
    (hm : m = .heartbeat ∨ ∃ ts, m = .ping ts) (hui : KeepsUi s s')
    (hs' : s' = { s with network := .session { x with toServer := x.toServer ++ [⟨m, none⟩] } })
    (hi : i ∈ s'.items) : i ∈ s.items ∨ Born s (.tick m ok) i := by
  subst hs'
  refine items_of_network hui (fun c hc => hc) (fun i hi => ?_) (fun e he => .inl he) hi
  rcases mem_session_items.mp hi with ⟨d, hd, rfl⟩ | hserving | hletter
  · rcases List.mem_append.mp hd with hold | hnew
    · exact .inl (items_of_session hx (mem_session_items.mpr (.inl ⟨d, hold, rfl⟩)))
    · rw [List.mem_singleton.mp hnew]
      exact .inr (.ticks hm)
  · exact .inl (items_of_session hx (mem_session_items.mpr (.inr (.inl hserving))))
  · exact .inl (items_of_session hx (mem_session_items.mpr (.inr (.inr hletter))))

theorem items_of_tick {x : Session} (hx : s.network = .session x) {m : ClientMessage} {ok : Bool}
    (hui : KeepsUi s s') (h : s.tick x m ok = some s') (hi : i ∈ s'.items) :
    i ∈ s.items ∨ Born s (.tick m ok) i := by
  cases m with
  | heartbeat =>
      simp only [tick] at h
      split at h <;> cases h
      · exact items_of_ticked hx (.inl rfl) hui rfl hi
      · exact items_of_endSession hui (fun c hc => hc) rfl rfl hi
  | ping ts =>
      simp only [tick] at h
      split at h <;> cases h
      · exact items_of_ticked hx (.inr ⟨ts, rfl⟩) hui rfl hi
      · exact items_of_endSession hui (fun c hc => hc) rfl rfl hi
  | _ => cases h

theorem items_of_deliver {x : Session} (hx : s.network = .session x) (hui : KeepsUi s s')
    (h : s.deliver x = some s') (hi : i ∈ s'.items) : i ∈ s.items ∨ Born s l i := by
  unfold deliver at h
  split at h
  · cases h
  · next y rest hclient =>
    have hfirst : .letter y ∈ s.items :=
      items_of_session hx (mem_session_items.mpr (.inr (.inr ⟨y, by simp [hclient], rfl⟩)))
    have hsession : ∀ i ∈ ({ x with toClient := rest } : Session).items, i ∈ s.items := by
      intro i hi
      rcases mem_session_items.mp hi with hserver | hserving | ⟨z, hz, rfl⟩
      · exact items_of_session hx (mem_session_items.mpr (.inl hserver))
      · exact items_of_session hx (mem_session_items.mpr (.inr (.inl hserving)))
      · exact items_of_session hx
          (mem_session_items.mpr (.inr (.inr ⟨z, by simp [hclient, hz], rfl⟩)))
    dsimp only at h
    split at h <;> cases h
    · exact items_of_network hui (fun c hc => hc) (fun i hi => .inl (hsession i hi))
        (fun e he => .inl he) hi
    · refine items_of_network hui (fun c hc => hc) (fun i hi => .inl (hsession i hi))
        (fun e he => ?_) hi
      rcases List.mem_append.mp he with hold | hnew
      · exact .inl hold
      · rw [List.mem_singleton.mp hnew]
        exact .inr fun i hi => by cases hi; exact hfirst

theorem items_of_serve {x : Session} (hx : s.network = .session x) (hui : KeepsUi s s')
    (h : s.serve x = some s') (hi : i ∈ s'.items) : i ∈ s.items ∨ Born s l i := by
  unfold serve at h
  split at h
  · next c rest hserving hserver =>
    cases h
    refine items_of_network hui (fun c hc => hc) (fun i hi => .inl ?_) (fun e he => .inl he) hi
    rcases mem_session_items.mp hi with ⟨d, hd, rfl⟩ | ⟨d, hd, rfl⟩ | hletter
    · have hmem : d ∈ x.toServer := by
        rw [hserver]
        exact List.mem_cons_of_mem _ hd
      exact items_of_session hx (mem_session_items.mpr (.inl ⟨d, hmem, rfl⟩))
    · cases hd
      exact items_of_session hx (mem_session_items.mpr (.inl ⟨c, by simp [hserver], rfl⟩))
    · exact items_of_session hx (mem_session_items.mpr (.inr (.inr hletter)))
  · cases h

theorem items_of_reply {x : Session} (hx : s.network = .session x) {m : ServerMessage}
    {externalAddr : Option SocketAddr} {own : Bool} (hui : KeepsUi s s')
    (h : s.reply x m externalAddr own = some s') (hi : i ∈ s'.items) :
    i ∈ s.items ∨ Born s (.reply m externalAddr own) i := by
  unfold reply at h
  split at h
  · next hmay =>
    cases h
    refine items_of_network hui (fun c hc => hc) (fun i hi => ?_) (fun e he => .inl he) hi
    rcases mem_session_items.mp hi with hserver | hserving | ⟨y, hy, rfl⟩
    · exact .inl (items_of_session hx (mem_session_items.mpr (.inl hserver)))
    · exact .inl (items_of_session hx (mem_session_items.mpr (.inr (.inl hserving))))
    · rcases List.mem_append.mp hy with hold | hnew
      · exact .inl (items_of_session hx (mem_session_items.mpr (.inr (.inr ⟨y, hold, rfl⟩))))
      · rw [List.mem_singleton.mp hnew]
        exact .inr (.replies hx hmay)
  · cases h

theorem items_of_served {x : Session} (hx : s.network = .session x) (hui : KeepsUi s s')
    (h : s.served x = some s') (hi : i ∈ s'.items) : i ∈ s.items ∨ Born s l i := by
  obtain ⟨c, hserving, rfl⟩ := Option.map_eq_some_iff.mp h
  refine items_of_network hui (fun c hc => hc) (fun i hi => .inl ?_) (fun e he => .inl he) hi
  rcases mem_session_items.mp hi with hserver | ⟨d, hd, rfl⟩ | hletter
  · exact items_of_session hx (mem_session_items.mpr (.inl hserver))
  · cases hd
  · exact items_of_session hx (mem_session_items.mpr (.inr (.inr hletter)))

/-- In a session, only what the UI and the server send is new. -/
theorem items_of_remote (hl : l.isRemote = true) (h : s.step l = some s') (hi : i ∈ s'.items) :
    i ∈ s.items ∨ Born s l i := by
  have hui := keepsUi_of_remote hl h
  cases l with
  | poll | input | tunnel | report | captured => cases hl
  | connect ok =>
      simp only [step, connect] at h
      split at h
      · split at h <;> cases h
        · exact items_of_report hui (fun c hc => hc) (.inl rfl) ⟨[.connected], rfl, rfl⟩ hi
        · exact items_of_report hui (fun c hc => hc) (.inl rfl) ⟨[], by simp, rfl⟩ hi
      · cases h
  | reconnecting =>
      simp only [step, reconnecting] at h
      split at h <;> cases h
      exact items_of_report hui (fun c hc => hc) (.inl rfl) ⟨[.reconnecting _], rfl, rfl⟩ hi
  | retry =>
      simp only [step, retry] at h
      split at h <;> cases h
      exact items_of_report hui (fun c hc => hc) (.inl rfl) ⟨[], by simp, rfl⟩ hi
  | stop =>
      simp only [step, stop] at h
      split at h <;> cases h <;>
        exact items_of_report hui (fun c hc => hc) (.inl rfl) ⟨[], by simp, rfl⟩ hi
  | lose =>
      obtain ⟨x, hx, h⟩ := whenInSession_eq_some.mp h
      cases h
      exact items_of_endSession hui (fun c hc => hc) rfl rfl hi
  | sendNext ok =>
      obtain ⟨x, hx, h⟩ := whenInSession_eq_some.mp h
      exact items_of_sendNext hx hui h hi
  | tick m ok =>
      obtain ⟨x, hx, h⟩ := whenInSession_eq_some.mp h
      exact items_of_tick hx hui h hi
  | deliver =>
      obtain ⟨x, hx, h⟩ := whenInSession_eq_some.mp h
      exact items_of_deliver hx hui h hi
  | serve =>
      obtain ⟨x, hx, h⟩ := whenInSession_eq_some.mp h
      exact items_of_serve hx hui h hi
  | reply m externalAddr own =>
      obtain ⟨x, hx, h⟩ := whenInSession_eq_some.mp h
      exact items_of_reply hx hui h hi
  | served =>
      obtain ⟨x, hx, h⟩ := whenInSession_eq_some.mp h
      exact items_of_served hx hui h hi

/-- Every item is an old one, or one that the step brings up. -/
theorem items_step (h : s.step l = some s') (hi : i ∈ s'.items) : i ∈ s.items ∨ Born s l i := by
  cases hl : l.isRemote with
  | true => exact items_of_remote hl h hi
  | false => exact items_of_local hl h hi

theorem ops_step (h : s.step l = some s') : s'.ops = s.ops ++ s.begun l := by
  cases hl : l.isRemote with
  | true =>
      have hbegun : s.begun l = [] := by
        cases l <;> first | rfl | cases hl
      rw [(keepsUi_of_remote hl h).ops, hbegun, List.append_nil]
  | false => exact (sendsStep_of_local hl h).ops

/-! ## The pending action -/

theorem pending_abortTunnel (s : Process) :
    s.abortTunnel.app.pendingAction = s.app.pendingAction := by
  unfold abortTunnel
  split <;> rfl

/-- A message of the server ends an action that it can end, or leaves it. -/
theorem pending_handleServerMessage (s : Process) (letter : Letter) :
    (s.handleServerMessage letter).app.pendingAction = s.app.pendingAction ∨
      (s.handleServerMessage letter).app.pendingAction.bind (·.op) = none ∧
        ∀ pending, s.app.pendingAction = some pending →
          pending.settledBy letter.message = true := by
  unfold handleServerMessage
  split
  case h_4 rooms hm =>
    unfold roomUpdate
    split
    · next hpending =>
      refine .inr ⟨rfl, fun pending hp => ?_⟩
      rw [hpending, Option.some.injEq] at hp
      rw [← hp, hm]
      rfl
    · exact .inl rfl
  case h_5 success _ token gameinfo hm =>
    unfold joinResult
    split
    · next hpending =>
      refine .inr ⟨?_, fun pending hp => ?_⟩
      · split
        · split
          · simp only [startJoinerTunnel, spawnTunnel, setApp]
            rw [pending_abortTunnel]
            rfl
          · rfl
        · rfl
      · rw [hpending, Option.some.injEq] at hp
        rw [← hp, hm]
        rfl
    · exact .inl rfl
  case h_6 | h_7 => exact .inl (pending_abortTunnel s)
  case h_9 =>
    unfold peerUPnPAddr
    repeat' split
    all_goals exact .inl rfl
  case h_10 text hm =>
    simp only [setApp, War3App.surfaceError]
    split
    · next hpending =>
      exact .inr ⟨rfl, fun pending _ => by rw [hm]; cases pending <;> rfl⟩
    · exact .inr ⟨rfl, fun pending _ => by rw [hm]; cases pending <;> rfl⟩
    · exact .inr ⟨rfl, fun pending _ => by rw [hm]; cases pending <;> rfl⟩
    · exact .inl rfl
  all_goals exact .inl rfl

theorem pending_cancelInFlight (a : War3App) :
    a.cancelInFlight.pendingAction = a.pendingAction ∨
      a.cancelInFlight.pendingAction.bind (·.op) = none := by
  unfold War3App.cancelInFlight
  split
  · exact .inr rfl
  · exact .inl rfl

theorem pending_netConnected (s : Process) :
    s.netConnected.app.pendingAction = s.app.pendingAction ∨
      s.netConnected.app.pendingAction.bind (·.op) = none := by
  have happ : s.netConnected.app =
      { s.app with connectionState := .connected, everConnected := true }.clearServerError := by
    unfold netConnected sendRegister
    dsimp only
    split
    · rw [fst_sendOrWarn]
      rfl
    · rfl
  rw [happ]
  unfold War3App.clearServerError
  split
  · exact .inr rfl
  · exact .inl rfl

/-- What ends an action, but a message of the server. -/
theorem pending_netEvent (s : Process) (e : NetEvent) :
    (s.netEvent e).app.pendingAction = s.app.pendingAction ∨
      (s.netEvent e).app.pendingAction.bind (·.op) = none := by
  cases e with
  | connected => exact pending_netConnected s
  | disconnected | reconnecting attempt => exact pending_cancelInFlight _
  | serverMessage letter => exact (pending_handleServerMessage s letter).imp_right And.left

theorem pending_posted (s : Process) (p : Posted) :
    (s.posted p).app.pendingAction = s.app.pendingAction ∨
      (s.posted p).app.pendingAction.bind (·.op) = none ∧ p.item.isSome = true := by
  cases p with
  | tunnel k event => cases event <;> exact .inl rfl
  | gameinfoCaptured op roomName mapName maxPlayers gameinfo =>
      simp only [posted, gameinfoCaptured]
      split
      · exact .inr ⟨rfl, rfl⟩
      · split
        · rw [fst_sendOrWarn]
          exact .inl rfl
        · exact .inr ⟨rfl, rfl⟩

theorem pending_upnpEvent (s : Process) (token addr : String) :
    (s.upnpEvent token addr).app.pendingAction = s.app.pendingAction := by
  unfold upnpEvent
  dsimp only
  rw [fst_sendOrWarn]
  split <;> rfl

/-- What a step does to the pending action. -/
inductive PendingStep (s : Process) : Label → Option PendingAction → Prop
  | keeps {l : Label} (hbegun : s.begun l = []) : PendingStep s l s.app.pendingAction
  | settles {l : Label} {pending : Option PendingAction} (hbegun : s.begun l = [])
      (hop : pending.bind (·.op) = none) : PendingStep s l pending
  | joins {room : RoomInfo} (hnetwork : s.network ≠ .stopped) :
      PendingStep s (.input (.join room)) (some (.joining room.roomName s.ops.length))
  | creates {maxPlayers : Nat} :
      PendingStep s (.input (.create maxPlayers))
        (some (.creatingRoom "偵測中..." s.ops.length))

theorem pendingStep_of_or {pending : Option PendingAction} (hbegun : s.begun l = [])
    (h : pending = s.app.pendingAction ∨ pending.bind (·.op) = none) :
    PendingStep s l pending := by
  rcases h with rfl | hop
  · exact .keeps hbegun
  · exact .settles hbegun hop

theorem pending_poll (h : s.poll = some s') : PendingStep s .poll s'.app.pendingAction := by
  cases polls_of_poll h with
  | @event e rest _ _ => exact pendingStep_of_or rfl (pending_netEvent { s with events := rest } e)
  | @upnp token addr rest _ _ =>
      rw [pending_upnpEvent { s with upnpMapped := rest } token addr]
      exact .keeps rfl
  | @posted p rest _ _ =>
      exact pendingStep_of_or rfl
        ((pending_posted { s with tunnelEvents := rest } p).imp_right And.left)
  | ends => exact .keeps rfl

theorem pending_clickJoin (s : Process) (room : RoomInfo) :
    PendingStep s (.input (.join room)) (s.clickJoin room).app.pendingAction := by
  unfold clickJoin
  dsimp only
  rw [fst_sendOrWarn, snd_sendOrWarn]
  by_cases hstopped : s.network = .stopped
  · simp only [hstopped, ne_eq, not_true_eq_false, decide_false]
    exact .keeps (by simp [begun, hstopped])
  · simp only [ne_eq, hstopped, not_false_eq_true, decide_true]
    exact .joins hstopped

theorem pending_input {i : Input} (h : s.input i = some s') :
    PendingStep s (.input i) s'.app.pendingAction := by
  obtain ⟨_, next, hnext, rfl⟩ := shows_of_input h
  cases hnext with
  | sets app hpending _ _ hbegun _ =>
      exact pendingStep_of_or hbegun (hpending.imp_right fun hnone => by simp [setApp, hnone])
  | @registers nickname war3Version =>
      refine pendingStep_of_or rfl (.inl ?_)
      unfold finishWizard sendRegister
      dsimp only
      rw [fst_sendOrWarn]
      split <;> rfl
  | joins => exact pending_clickJoin s _
  | closes =>
      rw [fst_sendOrWarn]
      exact .keeps rfl
  | creates => exact .creates

theorem pending_step (h : s.step l = some s') : PendingStep s l s'.app.pendingAction := by
  cases hl : l.isRemote with
  | true =>
      rw [(keepsUi_of_remote hl h).app]
      refine .keeps ?_
      cases l <;> first | rfl | cases hl
  | false =>
      cases l with
      | poll => exact pending_poll h
      | input i => exact pending_input h
      | tunnel k move =>
          obtain ⟨_, _, rfl⟩ := Option.map_eq_some_iff.mp h
          exact .keeps rfl
      | report k r =>
          obtain ⟨t, _, h⟩ := Option.bind_eq_some_iff.mp h
          cases r <;> simp only at h <;> split at h <;> cases h <;> exact .keeps rfl
      | captured op gameinfo fields =>
          obtain ⟨c, _, rfl⟩ := Option.map_eq_some_iff.mp h
          exact .keeps rfl
      | _ => cases hl

/-! ## The kinds of operations -/

/-- What a step puts on `cmd_tx`, by the operation it is for. -/
inductive Queues (s : Process) : Label → Command → Prop
  | other {l : Label} {c : Command} (hop : c.op = none)
      (hjoin : ∀ roomId, c.message ≠ .joinRoom roomId)
      (hcreate : ∀ roomName mapName maxPlayers gameinfo,
        c.message ≠ .createRoom roomName mapName maxPlayers gameinfo) : Queues s l c
  | joins {room : RoomInfo} (hnetwork : s.network ≠ .stopped) :
      Queues s (.input (.join room)) ⟨.joinRoom room.roomId, some s.ops.length⟩
  | creates {p : Posted} {op : OpId} {roomName mapName : String} {maxPlayers : Nat}
      {gameinfo : Bytes} (hp : p ∈ s.tunnelEvents) (hcreates : p.creates = some op) :
      Queues s .poll ⟨.createRoom roomName mapName maxPlayers gameinfo, some op⟩

theorem mem_sendable {c d : Command} : c ∈ s.sendable d ↔ s.network ≠ .stopped ∧ c = d := by
  unfold sendable
  split <;> simp_all

theorem item_of_creates {p : Posted} {op : OpId} (h : p.creates = some op) :
    p.item = some (.captured op) := by
  cases p with
  | tunnel k event => cases h
  | gameinfoCaptured op' roomName mapName maxPlayers gameinfo =>
      simp only [Posted.creates] at h
      split at h <;> cases h
      rfl

theorem queues_poll {c : Command} (hc : c ∈ s.queuedByPoll) : Queues s .poll c := by
  unfold queuedByPoll at hc
  split at hc
  · cases hevents : s.events with
    | nil => simp [hevents] at hc
    | cons e rest =>
        simp only [hevents, List.head?_cons, Option.map_some, Option.getD_some] at hc
        unfold queuedByNet at hc
        split at hc
        · split at hc
          · rw [(mem_sendable.mp hc).2]
            exact .other rfl (by simp [register]) (by simp [register])
          · cases hc
        · cases hc
  · cases hmapped : s.upnpMapped with
    | nil => simp [hmapped] at hc
    | cons x rest =>
        simp only [hmapped, List.head?_cons, Option.map_some, Option.getD_some] at hc
        rw [(mem_sendable.mp hc).2]
        exact .other rfl (by simp) (by simp)
  · cases hevents : s.tunnelEvents with
    | nil => simp [hevents] at hc
    | cons p rest =>
        simp only [hevents, List.head?_cons, Option.map_some, Option.getD_some] at hc
        have hhead : p ∈ s.tunnelEvents := by
          rw [hevents]
          exact .head _
        unfold queuedByPosted at hc
        split at hc
        · split at hc
          · cases hc
          · next hgameinfo =>
            rw [(mem_sendable.mp hc).2]
            exact .creates hhead (if_neg hgameinfo)
        · cases hc
  · cases hc

theorem queues_of_mem {c : Command} (hc : c ∈ s.queued l) : Queues s l c := by
  cases l with
  | poll => exact queues_poll hc
  | input i =>
      cases i with
      | finishWizard nickname war3Version =>
          simp only [queued, queuedByInput] at hc
          split at hc
          · rw [(mem_sendable.mp hc).2]
            exact .other rfl (by simp [register]) (by simp [register])
          · cases hc
      | join room =>
          obtain ⟨hnetwork, rfl⟩ := mem_sendable.mp hc
          exact .joins hnetwork
      | closeRoom =>
          rw [(mem_sendable.mp hc).2]
          exact .other rfl (by simp) (by simp)
      | _ => cases hc
  | _ => cases hc

/-- Operations keep their kind. -/
theorem getElem?_ops_append {op : OpId} {x : Operation} {ops : List Operation}
    (new : List Operation) (h : ops[op]? = some x) : (ops ++ new)[op]? = some x := by
  rw [List.getElem?_append_left (List.getElem?_eq_some_iff.mp h).1, h]

theorem fits_append {ops : List Operation} (new : List Operation) (h : i.Fits ops) :
    i.Fits (ops ++ new) := by
  cases i with
  | capture c => exact getElem?_ops_append new h
  | captured op =>
      obtain ⟨n, hop⟩ := h
      exact ⟨n, getElem?_ops_append new hop⟩
  | command c =>
      unfold Item.Fits at h ⊢
      dsimp only at h ⊢
      split at h
      · obtain ⟨op, roomName, hc, hop⟩ := h
        exact ⟨op, roomName, hc, getElem?_ops_append new hop⟩
      · obtain ⟨op, n, hc, hop⟩ := h
        exact ⟨op, n, hc, getElem?_ops_append new hop⟩
      · exact h
  | letter x =>
      unfold Item.Fits at h ⊢
      dsimp only at h ⊢
      split at h
      · obtain ⟨op, roomId, roomName, hanswers, hop⟩ := h
        exact ⟨op, roomId, roomName, hanswers, getElem?_ops_append new hop⟩
      · trivial

theorem fits_queued {c : Command} (hfits : ∀ i ∈ s.items, i.Fits s.ops) (hc : Queues s l c) :
    (Item.command c).Fits (s.ops ++ s.begun l) := by
  cases hc with
  | other hop hjoin hcreate =>
      unfold Item.Fits
      dsimp only
      split
      · next roomId hm => exact absurd hm (hjoin roomId)
      · next hm => exact absurd hm (hcreate _ _ _ _)
      · exact hop
  | @joins room hnetwork =>
      exact ⟨s.ops.length, room.roomName, rfl, by simp [begun, hnetwork]⟩
  | @creates p op _ _ _ _ hp hcreates =>
      obtain ⟨n, hop⟩ := hfits _ (mem_items.mpr (.inr (.inl ⟨p, hp, item_of_creates hcreates⟩)))
      exact ⟨op, n, rfl, getElem?_ops_append _ hop⟩

/-- A `JoinResult` comes while the server works on a `JoinRoom` of this client. -/
theorem serving_of_joinResult {x : Session} {own success : Bool}
    {roomId token : Option String} {gameinfo : Option Bytes}
    (h : x.maySend (.joinResult success roomId token gameinfo) own = true) :
    own = true ∧ ∃ c roomId, x.serving = some c ∧ c.message = .joinRoom roomId := by
  simp only [Session.maySend, Bool.and_eq_true] at h
  obtain ⟨hown, hserving⟩ := h
  cases hc : x.serving with
  | none => simp [hc] at hserving
  | some c =>
      rw [hc, Option.any_some] at hserving
      refine ⟨hown, c, ?_⟩
      split at hserving
      · next roomId hm => exact ⟨roomId, rfl, hm⟩
      · cases hserving

/-- What a step brings up is of the right kind. -/
theorem fits_born (hfits : ∀ i ∈ s.items, i.Fits s.ops) (hi : Born s l i) :
    i.Fits (s.ops ++ s.begun l) := by
  cases hi with
  | queued hc => exact fits_queued hfits (queues_of_mem hc)
  | captures hc =>
      unfold capturesBegun at hc
      split at hc
      · rw [List.mem_singleton.mp hc]
        simp [Item.Fits, begun]
      · cases hc
  | @captured c _ _ hc =>
      have hold : (Item.capture c).Fits s.ops := hfits _ (mem_items.mpr (.inl ⟨c, hc, rfl⟩))
      exact ⟨c.maxPlayers, getElem?_ops_append _ hold⟩
  | ticks hm =>
      rcases hm with rfl | ⟨ts, rfl⟩
      · exact rfl
      · exact rfl
  | @replies x m externalAddr own hx hmay =>
      refine fits_append _ ?_
      unfold Item.Fits
      dsimp only
      split
      · obtain ⟨hown, c, roomId, hc, hm⟩ := serving_of_joinResult hmay
        have hserving : (Item.command c).Fits s.ops :=
          hfits _ (items_of_session hx (mem_session_items.mpr (.inr (.inl ⟨c, hc, rfl⟩))))
        simp only [Item.Fits, hm] at hserving
        obtain ⟨op, roomName, hop, hkind⟩ := hserving
        exact ⟨op, roomId, roomName, by simp [hown, hc, hop], hkind⟩
      · trivial

/-- Every trace of an operation, and the pending action, is of the kind of its operation. -/
structure Kinds (s : Process) : Prop where
  items : ∀ i ∈ s.items, i.Fits s.ops
  pending : ∀ pending, s.app.pendingAction = some pending → pending.Fits s.ops

theorem fits_pendingStep {pending : PendingAction} (hs : Kinds s)
    (h : PendingStep s l (some pending)) : pending.Fits (s.ops ++ s.begun l) := by
  generalize hp : some pending = p at h
  cases h with
  | keeps hbegun =>
      rw [hbegun, List.append_nil]
      exact hs.pending pending hp.symm
  | settles _ hop =>
      rw [← hp] at hop
      cases pending with
      | joining | creatingRoom => cases hop
      | _ => trivial
  | @joins room hnetwork =>
      cases hp
      exact ⟨room.roomId, by simp [begun, hnetwork]⟩
  | creates =>
      cases hp
      exact ⟨_, by simp [begun]; rfl⟩

theorem Kinds.step (hs : Kinds s) (h : s.step l = some s') : Kinds s' where
  items := fun i hi => by
    rw [ops_step h]
    rcases items_step h hi with hold | hnew
    · exact fits_append _ (hs.items i hold)
    · exact fits_born hs.items hnew
  pending := fun pending hp => by
    rw [ops_step h]
    exact fits_pendingStep hs (hp ▸ pending_step h)

theorem kinds_of_reachable {config : AppConfig} (h : (machine config).Reachable s) : Kinds s := by
  induction h with
  | init =>
      refine ⟨fun i hi => ?_, fun pending hp => ?_⟩
      · cases hi
      · cases hp
  | step _ hstep ih => exact ih.step hstep

/-! ## Runs of a user -/

/-- A room that somebody else hosts. -/
def foundRoom : RoomInfo := ⟨"r", "b", "room", "map", 2, 1, .v127⟩

/-- The rest of a frame in which nothing is queued, with what the user does in it. -/
def framed (i : Input) : List Label := [.poll, .poll, .poll, .input i]

end Process

end War3BattleTool.Client
