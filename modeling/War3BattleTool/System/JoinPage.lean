import War3BattleTool.Foundation.Machine
import War3BattleTool.System.FirstParty

set_option autoImplicit false

/-!
# The page behind a share link (`web/join/index.html`)

The script of the page keeps one WebSocket to the server, registers as a viewer when it opens,
and shows the room of the link while the server lists it.  When the socket closes it connects
again after three seconds.

The handlers of all sockets share the variables `ws`, `reconnectTimer` and `state`, so an old
socket could disturb a new one.  `Steady` says that none does: every socket but the last is
closed, and the page shows what the last one has brought (`steady_of_reachable`).
-/

namespace War3BattleTool.System

open War3BattleTool.Foundation War3BattleTool.Protocol

/-! ## The script -/

/-- `readyState`. -/
inductive ReadyState where
  | connecting
  | opened
  | closing
  | closed
  deriving DecidableEq

/-- A WebSocket of the page: what was sent on it, and the messages that it has brought. -/
structure WebSocket where
  readyState : ReadyState
  sent : List ClientMessage
  received : List ServerMessage
  deriving DecidableEq

namespace WebSocket

/-- `new WebSocket`. -/
def new : WebSocket := ⟨.connecting, [], []⟩

/-- `close()`. -/
def close (w : WebSocket) : WebSocket :=
  match w.readyState with
  | .connecting | .opened => { w with readyState := .closing }
  | .closing | .closed => w

/-- `send()`, which throws while the socket connects, and drops the message once it closes. -/
def send (w : WebSocket) (m : ClientMessage) : Option WebSocket :=
  match w.readyState with
  | .connecting => none
  | .opened => some { w with sent := w.sent ++ [m] }
  | .closing | .closed => some w

end WebSocket

/-- The values of `state`. -/
inductive PageState where
  | loading
  | waiting
  | active
  | closed
  | offline
  deriving DecidableEq

/-- What `#content` shows: the text of a state, or a room. -/
inductive PageContent where
  | status (state : PageState)
  | room (room : RoomInfo)
  deriving DecidableEq

/-- The page of a link to `targetRoom`.  The sockets are numbered as they were made; `ws` is the
number of the socket in the variable of that name, and `reconnectTimer` the time at which the
timer fires. -/
structure JoinPage where
  now : Instant
  targetRoom : String
  sockets : List WebSocket
  ws : Option Nat
  reconnectTimer : Option Instant
  state : PageState
  content : PageContent
  deriving DecidableEq

namespace JoinPage

/-- `RECONNECT_DELAY`. -/
def reconnectDelay : Duration := millis 3000

/-- `connect`. -/
def connect (p : JoinPage) : JoinPage :=
  let sockets := p.ws.elim p.sockets fun i => p.sockets.modify i WebSocket.close
  { p with sockets := sockets ++ [.new], ws := some sockets.length }

/-- `setState`; the text of the active state is left to `renderRoom`. -/
def setState (p : JoinPage) (state : PageState) : JoinPage :=
  { p with state := state, content := if state = .active then p.content else .status state }

/-- `renderRoom`. -/
def renderRoom (p : JoinPage) (room : RoomInfo) : JoinPage := { p with content := .room room }

/-- `scheduleReconnect`. -/
def scheduleReconnect (p : JoinPage) : JoinPage :=
  { p with reconnectTimer := some (p.now + reconnectDelay) }

/-- `onopen`: the message goes to the socket in `ws`.  An exception ends the handler. -/
def onopen (p : JoinPage) (id : ViewerId) : JoinPage :=
  let p := { p with reconnectTimer := none }
  match p.ws with
  | some i =>
      match p.sockets[i]?.bind (·.send (viewerRegister id)) with
      | some w => { p with sockets := p.sockets.set i w }.setState .waiting
      | none => p
  | none => p

/-- `onmessage`; `none` is a text that does not parse. -/
def onmessage (p : JoinPage) : Option ServerMessage → JoinPage
  | some (.roomUpdate rooms) =>
      match rooms.find? (·.roomId = p.targetRoom) with
      | some room => (p.renderRoom room).setState .active
      | none => if p.state = .active then p.setState .closed else p
  | _ => p

/-- `onclose`. -/
def onclose (p : JoinPage) : JoinPage :=
  if p.state ≠ .closed then (p.setState .offline).scheduleReconnect else p

/-- The script starts: a link without a room gets no further than a hint. -/
def load (room : Option String) : Option JoinPage :=
  match room with
  | none | some "" => none
  | some targetRoom =>
      some <| connect
        { now := 0, targetRoom := targetRoom, sockets := [], ws := none, reconnectTimer := none,
          state := .loading, content := .status .loading }

/-- What can happen next. -/
inductive Label where
  | elapse (d : Duration)
  /-- the socket `i` opens, and `uuid()` returns `id` -/
  | opened (i : Nat) (id : ViewerId)
  /-- the socket `i` brings a text, that parses or not -/
  | message (i : Nat) (m : Option ServerMessage)
  /-- the socket `i` closes, or could not connect -/
  | closed (i : Nat)
  /-- the timer fires -/
  | reconnect

/-- Change a socket. -/
def setSocket (p : JoinPage) (i : Nat) (w : WebSocket) : JoinPage :=
  { p with sockets := p.sockets.set i w }

/-- One turn of the event loop. -/
def step (p : JoinPage) : Label → Option JoinPage
  | .elapse d => some { p with now := p.now + d }
  | .opened i id =>
      p.sockets[i]?.bind fun w =>
        if w.readyState = .connecting then
          some ((p.setSocket i { w with readyState := .opened }).onopen id)
        else none
  | .message i m =>
      p.sockets[i]?.bind fun w =>
        if w.readyState = .opened then
          some ((p.setSocket i { w with received := w.received ++ m.toList }).onmessage m)
        else none
  | .closed i =>
      p.sockets[i]?.bind fun w =>
        if w.readyState ≠ .closed then
          some (p.setSocket i { w with readyState := .closed }).onclose
        else none
  | .reconnect =>
      p.reconnectTimer.bind fun due =>
        if due ≤ p.now then some { p with reconnectTimer := none }.connect else none

/-- The page that starts as `p` as a machine. -/
def machine (p : JoinPage) : Machine JoinPage Label where
  init := p
  step := step

/-! ## What a page should show -/

/-- The room lists among messages. -/
def roomLists (ms : List ServerMessage) : List (List RoomInfo) :=
  ms.filterMap fun
    | .roomUpdate rooms => some rooms
    | _ => none

/-- The room of the link in a list. -/
def target (targetRoom : String) (rooms : List RoomInfo) : Option RoomInfo :=
  rooms.find? (·.roomId = targetRoom)

/-- What a page should show that has received `ms` in its session: the room if the last list has
it, that it was closed if only an earlier one has, and otherwise that it is awaited. -/
def watched (targetRoom : String) (ms : List ServerMessage) : PageState × PageContent :=
  match (roomLists ms).getLast?.bind (target targetRoom) with
  | some room => (.active, .room room)
  | none =>
      if (roomLists ms).any fun rooms => (target targetRoom rooms).isSome then
        (.closed, .status .closed)
      else (.waiting, .status .waiting)

/-- What the page shows. -/
def shows (p : JoinPage) : PageState × PageContent := (p.state, p.content)

section Steps

variable {p p' : JoinPage} {ms : List ServerMessage}

theorem roomLists_append (ms ms' : List ServerMessage) :
    roomLists (ms ++ ms') = roomLists ms ++ roomLists ms' := List.filterMap_append ..

theorem watched_append {m : ServerMessage} (hm : roomLists [m] = []) (targetRoom : String) :
    watched targetRoom (ms ++ [m]) = watched targetRoom ms := by
  simp only [watched, roomLists_append, hm, List.append_nil]

theorem onmessage_listed {rooms : List RoomInfo} {room : RoomInfo}
    (h : target p.targetRoom rooms = some room) :
    p.onmessage (some (.roomUpdate rooms)) = (p.renderRoom room).setState .active := by
  unfold target at h
  simp only [onmessage, h]

theorem onmessage_unlisted {rooms : List RoomInfo} (h : target p.targetRoom rooms = none) :
    p.onmessage (some (.roomUpdate rooms)) =
      if p.state = .active then p.setState .closed else p := by
  unfold target at h
  simp only [onmessage, h]

theorem watched_of_some {targetRoom : String} {room : RoomInfo}
    (h : (roomLists ms).getLast?.bind (target targetRoom) = some room) :
    watched targetRoom ms = (.active, .room room) := by
  simp only [watched, h]

theorem watched_of_none {targetRoom : String}
    (h : (roomLists ms).getLast?.bind (target targetRoom) = none) :
    watched targetRoom ms =
      if (roomLists ms).any fun rooms => (target targetRoom rooms).isSome then
        (.closed, .status .closed)
      else (.waiting, .status .waiting) := by
  simp only [watched, h]

/-- A list without the room closes a page that showed it. -/
theorem watched_unlisted {rooms : List RoomInfo} {targetRoom : String}
    (h : target targetRoom rooms = none) :
    watched targetRoom (ms ++ [.roomUpdate rooms]) =
      if (watched targetRoom ms).1 = .active then (.closed, .status .closed)
      else watched targetRoom ms := by
  have hlists : roomLists (ms ++ [.roomUpdate rooms]) = roomLists ms ++ [rooms] :=
    roomLists_append ms [.roomUpdate rooms]
  rw [watched_of_none (by rw [hlists, List.getLast?_concat]; exact h), hlists]
  simp only [List.any_append, List.any_cons, List.any_nil, Bool.or_false, h, Option.isSome_none]
  cases hlast : (roomLists ms).getLast?.bind (target targetRoom) with
  | some room =>
      obtain ⟨last, hmem, hroom⟩ := Option.bind_eq_some_iff.mp hlast
      have hany : ((roomLists ms).any fun rooms => (target targetRoom rooms).isSome) = true :=
        List.any_eq_true.mpr ⟨last, List.mem_of_getLast? hmem, by rw [hroom]; rfl⟩
      rw [watched_of_some hlast, if_pos hany, if_pos rfl]
  | none =>
      rw [watched_of_none hlast]
      split <;> rfl

/-- A message keeps the page in step with what it has received. -/
theorem shows_onmessage (h : p.shows = watched p.targetRoom ms) (m : ServerMessage) :
    (p.onmessage (some m)).shows = watched p.targetRoom (ms ++ [m]) := by
  cases m with
  | roomUpdate rooms =>
      cases hroom : target p.targetRoom rooms with
      | some room =>
          have hlists : roomLists (ms ++ [.roomUpdate rooms]) = roomLists ms ++ [rooms] :=
            roomLists_append ms [.roomUpdate rooms]
          rw [onmessage_listed hroom, watched, hlists, List.getLast?_concat, Option.bind_some,
            hroom]
          rfl
      | none =>
          rw [onmessage_unlisted hroom, watched_unlisted hroom, ← h]
          change _ = if p.state = .active then _ else _
          split <;> rfl
  | _ => exact h.trans (watched_append rfl p.targetRoom).symm

/-! ## Runs -/

/-- A socket has sent one `Register`, or has not come to it. -/
def Registers (w : WebSocket) : Prop := w.sent = [] ∨ ∃ id, w.sent = [viewerRegister id]

/-- The last socket, and the page of that socket: every socket before it is closed.  The page
sends one message on a socket, when it opens, and waits for its timer if and only if the last
socket is closed and the page does not show that the room was. -/
inductive Session (p : JoinPage) (w : WebSocket) : Prop
  | connecting (hw : w = .new) (htimer : p.reconnectTimer = none)
      (hshows : p.shows = (.loading, .status .loading) ∨ p.shows = (.offline, .status .offline))
  | opened (id : ViewerId) (hstate : w.readyState = .opened)
      (hsent : w.sent = [viewerRegister id]) (htimer : p.reconnectTimer = none)
      (hshows : p.shows = watched p.targetRoom w.received)
  | lost (due : Instant) (hstate : w.readyState = .closed) (htimer : p.reconnectTimer = some due)
      (hdue : due ≤ p.now + reconnectDelay) (hshows : p.shows = (.offline, .status .offline))
      (hsent : Registers w)
  | ended (hstate : w.readyState = .closed) (htimer : p.reconnectTimer = none)
      (hshows : p.shows = (.closed, .status .closed)) (hsent : Registers w)

/-- No socket disturbs another, and none of the closed ones has sent more than its `Register`. -/
structure Steady (p : JoinPage) (before : List WebSocket) (w : WebSocket) : Prop where
  sockets : p.sockets = before ++ [w]
  ws : p.ws = some before.length
  before : ∀ v ∈ before, v.readyState = .closed ∧ Registers v
  session : Session p w

variable {before : List WebSocket} {w : WebSocket}

theorem Session.registers (h : Session p w) : Registers w := by
  cases h with
  | connecting hw =>
      subst hw
      exact .inl rfl
  | opened id _ hsent => exact .inr ⟨id, hsent⟩
  | lost _ _ _ _ _ hsent | ended _ _ _ hsent => exact hsent

/-- A socket that is not closed is the last. -/
theorem Steady.eq_last (h : Steady p before w) {i : Nat} {v : WebSocket}
    (hi : p.sockets[i]? = some v) (hv : v.readyState ≠ .closed) : i = before.length ∧ v = w := by
  rw [h.sockets] at hi
  rcases Nat.lt_trichotomy i before.length with hlt | rfl | hgt
  · rw [List.getElem?_append_left hlt] at hi
    exact absurd (h.before v (List.mem_of_getElem? hi)).1 hv
  · rw [List.getElem?_concat_length] at hi
    exact ⟨rfl, (Option.some.inj hi).symm⟩
  · rw [List.getElem?_eq_none (by simp; omega)] at hi
    cases hi

/-- The last socket changes. -/
theorem sockets_setSocket (h : p.sockets = before ++ [w]) (v : WebSocket) :
    (p.setSocket before.length v).sockets = before ++ [v] := by
  simp [setSocket, h]

/-- A message changes what is shown, and nothing else. -/
theorem onmessage_frame (p : JoinPage) (m : Option ServerMessage) :
    ∃ state content, p.onmessage m = { p with state := state, content := content } := by
  unfold onmessage
  split
  · split
    · exact ⟨_, _, rfl⟩
    · split
      · exact ⟨_, _, rfl⟩
      · exact ⟨_, _, rfl⟩
  · exact ⟨_, _, rfl⟩

theorem content_of_closed {targetRoom : String} (h : (watched targetRoom ms).1 = .closed) :
    watched targetRoom ms = (.closed, .status .closed) := by
  cases hlast : (roomLists ms).getLast?.bind (target targetRoom) with
  | some room =>
      rw [watched_of_some hlast] at h
      cases h
  | none =>
      rw [watched_of_none hlast] at h ⊢
      split at h
      next hany => rw [if_pos hany]
      next => cases h

theorem Steady.elapse (h : Steady p before w) (d : Duration) :
    Steady { p with now := p.now + d } before w := by
  refine ⟨h.sockets, h.ws, h.before, ?_⟩
  cases h.session with
  | connecting hw htimer hshows => exact .connecting hw htimer hshows
  | opened id hstate hsent htimer hshows => exact .opened id hstate hsent htimer hshows
  | lost due hstate htimer hdue hshows hsent =>
      refine .lost due hstate htimer (hdue.trans ?_) hshows hsent
      exact Nat.add_le_add_right (Nat.le_add_right ..) _
  | ended hstate htimer hshows hsent => exact .ended hstate htimer hshows hsent

theorem Steady.opened (h : Steady p before w) (hw : w.readyState = .connecting) (id : ViewerId) :
    Steady ((p.setSocket before.length { w with readyState := .opened }).onopen id) before
      { w with readyState := .opened, sent := w.sent ++ [viewerRegister id] } := by
  have hopen : (p.setSocket before.length { w with readyState := .opened }).onopen id =
      { p with
        sockets := before ++
          [{ w with readyState := .opened, sent := w.sent ++ [viewerRegister id] }]
        reconnectTimer := none
        state := .waiting
        content := .status .waiting } := by
    simp [onopen, setSocket, h.ws, h.sockets, WebSocket.send, setState]
  rw [hopen]
  refine ⟨rfl, h.ws, h.before, ?_⟩
  cases h.session with
  | connecting hnew =>
      subst hnew
      exact .opened id rfl rfl rfl rfl
  | opened _ hstate | lost _ hstate | ended hstate => cases hstate.symm.trans hw

theorem Steady.message (h : Steady p before w) (hw : w.readyState = .opened)
    (m : Option ServerMessage) :
    Steady ((p.setSocket before.length { w with received := w.received ++ m.toList }).onmessage m)
      before { w with received := w.received ++ m.toList } := by
  generalize hp : p.setSocket before.length { w with received := w.received ++ m.toList } = q
  have hsockets : q.sockets = before ++ [{ w with received := w.received ++ m.toList }] :=
    hp ▸ sockets_setSocket h.sockets _
  have hrest : q.ws = p.ws ∧ q.reconnectTimer = p.reconnectTimer ∧
      q.targetRoom = p.targetRoom ∧ q.shows = p.shows := hp ▸ ⟨rfl, rfl, rfl, rfl⟩
  obtain ⟨hws, htimer, htarget, hshows⟩ := hrest
  cases h.session with
  | opened id hstate hsent htimer₀ hshows₀ =>
      have hmessage : (q.onmessage m).shows =
          watched q.targetRoom (w.received ++ m.toList) := by
        cases m with
        | some m => exact shows_onmessage ((hshows.trans hshows₀).trans (by rw [htarget])) m
        | none =>
            rw [Option.toList_none, List.append_nil, htarget]
            exact hshows.trans hshows₀
      obtain ⟨state, content, hframe⟩ := onmessage_frame q m
      rw [hframe] at hmessage ⊢
      exact ⟨hsockets, hws.trans h.ws, h.before,
        .opened id hstate hsent (htimer.trans htimer₀) hmessage⟩
  | connecting hnew => cases hw.symm.trans (congrArg WebSocket.readyState hnew)
  | lost _ hstate | ended hstate => cases hstate.symm.trans hw

theorem Steady.closed (h : Steady p before w) (hw : w.readyState ≠ .closed) :
    Steady (p.setSocket before.length { w with readyState := .closed }).onclose before
      { w with readyState := .closed } := by
  generalize hp : p.setSocket before.length { w with readyState := .closed } = q
  have hsockets : q.sockets = before ++ [{ w with readyState := .closed }] :=
    hp ▸ sockets_setSocket h.sockets _
  have hws : q.ws = some before.length := hp ▸ h.ws
  have htimer : q.reconnectTimer = p.reconnectTimer := hp ▸ rfl
  have hshows : q.shows = p.shows := hp ▸ rfl
  have hlost : q.state ≠ .closed → Steady q.onclose before { w with readyState := .closed } := by
    intro hstate
    have hclose : q.onclose = (q.setState .offline).scheduleReconnect := if_pos hstate
    rw [hclose]
    exact ⟨hsockets, hws, h.before, .lost _ rfl rfl (Nat.le_refl _) rfl h.session.registers⟩
  cases h.session with
  | connecting _ _ hshown =>
      refine hlost fun hstate => ?_
      have hfirst : p.shows.1 = .closed := hshows ▸ hstate
      rcases hshown with hshown | hshown <;> cases (congrArg Prod.fst hshown).symm.trans hfirst
  | opened id _ _ htimer₀ hshows₀ =>
      by_cases hstate : q.state = .closed
      · have hclose : q.onclose = q := if_neg (not_not_intro hstate)
        rw [hclose]
        have hfirst : (watched p.targetRoom w.received).1 = .closed :=
          hshows₀ ▸ hshows ▸ hstate
        exact ⟨hsockets, hws, h.before, .ended rfl (htimer.trans htimer₀)
          ((hshows.trans hshows₀).trans (content_of_closed hfirst)) h.session.registers⟩
      · exact hlost hstate
  | lost _ hstate | ended hstate => exact absurd hstate hw

theorem Steady.reconnect (h : Steady p before w) {due : Instant}
    (hdue : p.reconnectTimer = some due) :
    Steady { p with reconnectTimer := none }.connect (before ++ [w]) .new := by
  cases h.session with
  | lost _ hstate _ _ hshows hsent =>
      have hclose : w.close = w := by simp [WebSocket.close, hstate]
      have hsockets : p.sockets.modify before.length WebSocket.close = before ++ [w] := by
        rw [h.sockets]
        refine List.ext_getElem? fun i => ?_
        rw [List.getElem?_modify]
        split
        next heq => simp [← heq, hclose]
        next => simp
      refine ⟨?_, ?_, ?_, .connecting rfl rfl (.inr hshows)⟩
      · simp only [connect, h.ws, Option.elim_some, hsockets]
      · simp only [connect, h.ws, Option.elim_some, hsockets]
      · intro v hv
        rcases List.mem_append.mp hv with hold | hlast
        · exact h.before v hold
        · rw [List.mem_singleton.mp hlast]
          exact ⟨hstate, hsent⟩
  | connecting _ htimer | opened _ _ _ htimer | ended _ htimer => cases htimer.symm.trans hdue

theorem targetRoom_onopen (p : JoinPage) (id : ViewerId) :
    (p.onopen id).targetRoom = p.targetRoom := by
  unfold onopen
  dsimp only
  split
  · split
    · rfl
    · rfl
  · rfl

/-- The page stays with the room of its link. -/
theorem targetRoom_step {l : Label} (hstep : p.step l = some p') :
    p'.targetRoom = p.targetRoom := by
  cases l with
  | elapse d =>
      cases hstep
      rfl
  | opened i id =>
      obtain ⟨v, _, hopens⟩ := Option.bind_eq_some_iff.mp hstep
      split at hopens <;> cases hopens
      exact targetRoom_onopen ..
  | message i m =>
      obtain ⟨v, _, hbrings⟩ := Option.bind_eq_some_iff.mp hstep
      split at hbrings <;> cases hbrings
      obtain ⟨_, _, hframe⟩ := onmessage_frame
        (p.setSocket i { v with received := v.received ++ m.toList }) m
      rw [hframe]
      rfl
  | closed i =>
      obtain ⟨v, _, hcloses⟩ := Option.bind_eq_some_iff.mp hstep
      split at hcloses <;> cases hcloses
      unfold onclose
      split <;> rfl
  | reconnect =>
      obtain ⟨due, _, hfires⟩ := Option.bind_eq_some_iff.mp hstep
      split at hfires <;> cases hfires
      rfl

/-- Every turn keeps the page steady; the timer begins a new socket. -/
theorem Steady.step {l : Label} (h : Steady p before w) (hstep : p.step l = some p') :
    ∃ before' w', Steady p' before' w' := by
  cases l with
  | elapse d =>
      cases hstep
      exact ⟨before, w, h.elapse d⟩
  | opened i id =>
      obtain ⟨v, hi, hopens⟩ := Option.bind_eq_some_iff.mp hstep
      split at hopens
      next hstate =>
        cases hopens
        obtain ⟨rfl, rfl⟩ := h.eq_last hi (by simp [hstate])
        exact ⟨before, _, h.opened hstate id⟩
      next => cases hopens
  | message i m =>
      obtain ⟨v, hi, hbrings⟩ := Option.bind_eq_some_iff.mp hstep
      split at hbrings
      next hstate =>
        cases hbrings
        obtain ⟨rfl, rfl⟩ := h.eq_last hi (by simp [hstate])
        exact ⟨before, _, h.message hstate m⟩
      next => cases hbrings
  | closed i =>
      obtain ⟨v, hi, hcloses⟩ := Option.bind_eq_some_iff.mp hstep
      split at hcloses
      next hstate =>
        cases hcloses
        obtain ⟨rfl, rfl⟩ := h.eq_last hi hstate
        exact ⟨before, _, h.closed hstate⟩
      next => cases hcloses
  | reconnect =>
      obtain ⟨due, hdue, hfires⟩ := Option.bind_eq_some_iff.mp hstep
      split at hfires
      next =>
        cases hfires
        exact ⟨_, _, h.reconnect hdue⟩
      next => cases hfires

end Steps

theorem steady_load {room : Option String} {p : JoinPage} (h : load room = some p) :
    Steady p [] .new := by
  unfold load at h
  split at h
  · cases h
  · cases h
  · cases h
    exact ⟨rfl, rfl, by simp, .connecting rfl rfl (.inl rfl)⟩

/-- In every run of the page every socket but the last is closed, none has sent more than one
`Register`, and the page shows what the last one has brought of the room of its link. -/
theorem steady_of_reachable {room : Option String} {p₀ p : JoinPage} (hload : load room = some p₀)
    (h : (machine p₀).Reachable p) :
    p.targetRoom = p₀.targetRoom ∧ ∃ before w, Steady p before w := by
  induction h with
  | init => exact ⟨rfl, [], .new, steady_load hload⟩
  | step _ hstep ih =>
      obtain ⟨htarget, _, _, hsteady⟩ := ih
      exact ⟨(targetRoom_step hstep).trans htarget, hsteady.step hstep⟩

/-- A room is shown, the server restarts, and the page comes back to it. -/
def comesBack (room : RoomInfo) (id : ViewerId) : List Label :=
  [.opened 0 id, .message 0 (some (.roomUpdate [room])), .closed 0, .elapse reconnectDelay,
    .reconnect, .opened 1 id, .message 1 (some (.roomUpdate [room]))]

/-- The page shows the room again, on its second socket. -/
theorem steady_back : ∃ p₀ p, load (some "r") = some p₀ ∧ (machine p₀).Reachable p ∧
    p.shows = (.active, .room Client.Process.foundRoom) ∧ p.sockets.length = 2 ∧
      p.targetRoom = p₀.targetRoom ∧ ∃ before w, Steady p before w := by
  let id : ViewerId := .fallback fun _ => 0
  obtain ⟨p₀, hload⟩ : ∃ p₀, load (some "r") = some p₀ := ⟨_, rfl⟩
  have hrun : ((machine p₀).exec (machine p₀).init (comesBack Client.Process.foundRoom id)).any
      (fun p => decide (p.shows = (.active, .room Client.Process.foundRoom) ∧
        p.sockets.length = 2)) = true := by
    cases hload
    decide
  obtain ⟨p, _, hreach, htest⟩ := Machine.exists_reachable_of_exec hrun
  obtain ⟨hshows, hsockets⟩ := of_decide_eq_true htest
  exact ⟨p₀, p, hload, hreach, hshows, hsockets, steady_of_reachable hload hreach⟩

end JoinPage

end War3BattleTool.System
