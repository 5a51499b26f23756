import War3BattleTool.Server.Queues
import War3BattleTool.System.JoinPage

set_option autoImplicit false

/-!
# A share link and the server

The page of a share link and the lobby server, with what is on the way between them.  The other
clients are an environment that puts frames of its own on their connections.

When everything that the server sent has arrived, the page shows the room of its link if and only
if the server lists it (`shows_iff_listed`).  A browser that has `crypto.randomUUID` never comes
that far: its nickname is refused, and no room is ever shown (`no_room_of_secure`).
-/

namespace War3BattleTool.System

open War3BattleTool.Foundation War3BattleTool.Protocol War3BattleTool.Server

/-- A connection: the number of the socket in the page, and the server's side. -/
structure PageConn where
  socket : Nat
  c : SocketId
  deriving DecidableEq

/-- The page and the server.  `outbound` holds what the page has sent and the server has not read,
and `wire` what has left the queue of the connection and not arrived, oldest first. -/
structure Viewing where
  lobby : Lobby
  page : JoinPage
  conn : Option PageConn
  outbound : List ClientMessage
  wire : List ServerMessage

namespace Viewing

/-- The server starts, and the page is there. -/
def start (page : JoinPage) : Viewing where
  lobby := .start
  page := page
  conn := none
  outbound := []
  wire := []

/-- The server has accepted the connection, and nothing has passed on it. -/
def untouched (s : Lobby) (c : SocketId) : Bool :=
  match s.sockets.get? c with
  | some (.upgrading _) => true
  | some (.running h) => h.pc.resting && !h.registered && (accepted s.outboxes c).isEmpty
  | _ => false

/-- The message that leaves the queue of the page's connection. -/
def departs (v : Viewing) (l : Lobby.Label) : List ServerMessage :=
  v.conn.elim [] fun k => v.lobby.departs k.c l

/-- The step puts a text on the page's connection. -/
def speaksFor (v : Viewing) : Lobby.Label → Bool
  | .frame c (.text _ _ _) => v.conn.any fun k => decide (k.c = c)
  | _ => false

/-- A step of the server.  The texts on the page's connection come from the page. -/
def server (v : Viewing) (l : Lobby.Label) : Option Viewing :=
  if v.speaksFor l then none
  else (v.lobby.step l).map fun lobby => { v with lobby := lobby, wire := v.wire ++ v.departs l }

/-- A socket of the page opens, over a connection to the server. -/
def opens (v : Viewing) (k : PageConn) (id : ViewerId) : Option Viewing :=
  if v.conn = none ∧ untouched v.lobby k.c = true then
    (v.page.step (.opened k.socket id)).map fun page =>
      { v with
        page := page
        conn := some k
        outbound := (page.sockets[k.socket]?.map (·.sent)).getD []
        wire := [] }
  else none

/-- The server reads the next message of the page, as a text of `len` bytes. -/
def upload (v : Viewing) (len : Nat) : Option Viewing :=
  match v.conn, v.outbound with
  | some k, m :: rest =>
      (v.lobby.step (.frame k.c (.text len (some m) none))).map fun lobby =>
        { v with lobby := lobby, outbound := rest }
  | _, _ => none

/-- A message of the server arrives at the page. -/
def arrive (v : Viewing) : Option Viewing :=
  match v.conn, v.wire with
  | some k, m :: rest =>
      (v.page.step (.message k.socket (some m))).map fun page =>
        { v with page := page, wire := rest }
  | _, _ => none

/-- A socket of the page closes, or could not connect.  What is on its way is lost. -/
def closes (v : Viewing) (i : Nat) : Option Viewing :=
  (v.page.step (.closed i)).map fun page =>
    if v.conn.any (fun k => decide (k.socket = i)) then
      { v with page := page, conn := none, outbound := [], wire := [] }
    else { v with page := page }

/-- What happens next. -/
inductive Label where
  | server (l : Lobby.Label)
  | opens (k : PageConn) (id : ViewerId)
  | upload (len : Nat)
  | arrive
  | closes (i : Nat)
  /-- time passes in the browser -/
  | elapse (d : Duration)
  | reconnect

/-- One step of the server, the page or the network between them. -/
def step (v : Viewing) : Label → Option Viewing
  | .server l => v.server l
  | .opens k id => v.opens k id
  | .upload len => v.upload len
  | .arrive => v.arrive
  | .closes i => v.closes i
  | .elapse d => (v.page.step (.elapse d)).map fun page => { v with page := page }
  | .reconnect => (v.page.step .reconnect).map fun page => { v with page := page }

/-- The page and the server as a machine. -/
def machine (page : JoinPage) : Machine Viewing Label where
  init := start page
  step := step

/-- The broadcast that a step makes. -/
def issues (v : Viewing) : Label → List (Issue Snapshot SocketId ServerMessage)
  | .server l => v.lobby.issues l
  | _ => []

/-! ## Nothing is lost between the queue and the page -/

/-- What has left the queue of a connection, in the order in which the queue took it. -/
structure Carries (s : Lobby) (c : SocketId) (left : List ServerMessage) : Prop where
  carried : left <+: accepted s.outboxes c
  whole : s.sends c = true → accepted s.outboxes c = left ++ s.inQueue c

theorem Carries.step {s s' : Lobby} {c : SocketId} {l : Lobby.Label} {left : List ServerMessage}
    (hreach : Lobby.machine.Reachable s) (hstep : s.step l = some s') (h : Carries s c left) :
    Carries s' c (left ++ s.departs c l) := by
  cases Lobby.queueStep_of_step (c := c) (Lobby.attended_of_reachable hreach) hstep with
  | takes new haccepted hqueue hsends hnew hdeparts =>
      rw [hdeparts, List.append_nil]
      refine ⟨haccepted ▸ h.carried.trans (List.prefix_append _ _), fun hopen => ?_⟩
      rw [haccepted, hqueue, h.whole (hsends ▸ hopen), List.append_assoc]
  | leaves m haccepted hqueue hsends hdeparts =>
      have hopen : s.sends c = true := by
        by_contra hends
        rw [Lobby.inQueue_of_ended hreach (Bool.eq_false_iff.mpr hends)] at hqueue
        cases hqueue
      have hwhole : accepted s'.outboxes c = (left ++ [m]) ++ s'.inQueue c := by
        rw [haccepted, h.whole hopen, hqueue, List.append_assoc]
        rfl
      rw [hdeparts]
      exact ⟨⟨_, hwhole.symm⟩, fun _ => hwhole⟩
  | ends haccepted _ hends hdeparts =>
      rw [hdeparts, List.append_nil]
      refine ⟨haccepted ▸ h.carried, fun hopen => ?_⟩
      cases hopen.symm.trans hends

theorem accepted_of_untouched {s : Lobby} {c : SocketId} (ha : s.Attended)
    (h : untouched s c = true) : accepted s.outboxes c = [] := by
  unfold untouched at h
  split at h
  next clientIp hsocket =>
    cases ho : s.outboxes.get? c with
    | none => simp [accepted, ho]
    | some o =>
        obtain ⟨h', hh⟩ := ha.outbox (Option.isSome_iff_exists.mpr ⟨o, ho⟩)
        rw [hsocket] at hh
        cases hh
  next =>
    rw [Bool.and_eq_true] at h
    exact List.isEmpty_iff.mp h.2
  next => cases h

/-- Before a connection has passed anything, its queue has taken nothing. -/
theorem carries_of_untouched {s : Lobby} {c : SocketId} (hreach : Lobby.machine.Reachable s)
    (h : untouched s c = true) : Carries s c [] := by
  have hnone := accepted_of_untouched (Lobby.attended_of_reachable hreach) h
  have hsuffix := Lobby.inQueue_isSuffix (c := c) hreach
  rw [hnone] at hsuffix
  refine ⟨List.nil_prefix, fun _ => ?_⟩
  rw [hnone, List.suffix_nil.mp hsuffix]
  rfl

/-- The page's connection, on its last socket. -/
structure Joined (v : Viewing) (before : List WebSocket) (w : WebSocket) (k : PageConn) : Prop where
  socket : k.socket = before.length
  carries : Carries v.lobby k.c (w.received ++ v.wire)

/-- The page is steady, and its last socket is open as long as the connection is there. -/
structure Tuned (v : Viewing) (before : List WebSocket) (w : WebSocket) : Prop where
  steady : JoinPage.Steady v.page before w
  opened : w.readyState = .opened ↔ v.conn.isSome
  joined : ∀ k ∈ v.conn, Joined v before w k

section Steps

variable {v v' : Viewing} {before : List WebSocket} {w : WebSocket}

theorem tuned_lobby {l : Lobby.Label} (hreach : Lobby.machine.Reachable v.lobby)
    (hstep : v.lobby.step l = some v'.lobby) (hpage : v'.page = v.page) (hconn : v'.conn = v.conn)
    (hwire : v'.wire = v.wire ++ v.departs l) (h : Tuned v before w) : Tuned v' before w := by
  refine ⟨hpage ▸ h.steady, hconn ▸ h.opened, fun k hk => ?_⟩
  rw [hconn] at hk
  obtain ⟨hsocket, hcarries⟩ := h.joined k hk
  refine ⟨hsocket, ?_⟩
  have hdeparts : v.departs l = v.lobby.departs k.c l := by rw [departs, Option.mem_def.mp hk]; rfl
  rw [hwire, ← List.append_assoc, hdeparts]
  exact hcarries.step hreach hstep

theorem tuned_server {l : Lobby.Label} (hreach : Lobby.machine.Reachable v.lobby)
    (hstep : v.server l = some v') (h : Tuned v before w) : Tuned v' before w := by
  unfold server at hstep
  split at hstep
  next => cases hstep
  next =>
    obtain ⟨lobby, hlobby, rfl⟩ := Option.map_eq_some_iff.mp hstep
    exact tuned_lobby hreach hlobby rfl rfl rfl h

theorem tuned_upload {len : Nat} (hreach : Lobby.machine.Reachable v.lobby)
    (hstep : v.upload len = some v') (h : Tuned v before w) : Tuned v' before w := by
  unfold upload at hstep
  split at hstep
  next k m rest hconn hout =>
    obtain ⟨lobby, hlobby, rfl⟩ := Option.map_eq_some_iff.mp hstep
    refine tuned_lobby hreach hlobby rfl rfl ?_ h
    simp [departs, hconn, Lobby.departs]
  next => cases hstep

theorem tuned_opens {k : PageConn} {id : ViewerId} (hreach : Lobby.machine.Reachable v.lobby)
    (hstep : v.opens k id = some v') (h : Tuned v before w) :
    ∃ w', Tuned v' before w' := by
  unfold opens at hstep
  split at hstep
  next hfree =>
    obtain ⟨page, hpage, rfl⟩ := Option.map_eq_some_iff.mp hstep
    obtain ⟨x, hx, hopens⟩ := Option.bind_eq_some_iff.mp hpage
    split at hopens
    next hstate =>
      cases hopens
      obtain ⟨hsocket, rfl⟩ := h.steady.eq_last hx (by simp [hstate])
      have hreceived : x.received = [] := by
        cases h.steady.session with
        | connecting hnew => rw [hnew]; rfl
        | opened _ hopen | lost _ hopen | ended hopen => cases hopen.symm.trans hstate
      rw [hsocket]
      refine ⟨_, h.steady.opened hstate id, by simp, fun k' hk => ?_⟩
      cases hk
      refine ⟨hsocket, ?_⟩
      dsimp only
      rw [hreceived]
      exact carries_of_untouched hreach hfree.2
    next => cases hopens
  next => cases hstep

theorem tuned_arrive (hstep : v.arrive = some v') (h : Tuned v before w) :
    ∃ w', Tuned v' before w' := by
  unfold arrive at hstep
  split at hstep
  next k m rest hconn hwire =>
    obtain ⟨page, hpage, rfl⟩ := Option.map_eq_some_iff.mp hstep
    obtain ⟨x, hx, hbrings⟩ := Option.bind_eq_some_iff.mp hpage
    split at hbrings
    next hstate =>
      cases hbrings
      obtain ⟨hsocket, rfl⟩ := h.steady.eq_last hx (by simp [hstate])
      rw [hsocket]
      refine ⟨_, h.steady.message hstate (some m), ?_, fun k' hk => ?_⟩
      · exact ⟨fun _ => by rw [hconn]; rfl, fun _ => hstate⟩
      · have hjoined := h.joined k' hk
        refine ⟨hjoined.socket, ?_⟩
        dsimp only
        rw [Option.toList_some, List.append_assoc]
        have hcarries := hjoined.carries
        rwa [hwire] at hcarries
    next => cases hbrings
  next => cases hstep

theorem tuned_closes {i : Nat} (hstep : v.closes i = some v') (h : Tuned v before w) :
    Tuned v' before { w with readyState := .closed } := by
  obtain ⟨page, hpage, rfl⟩ := Option.map_eq_some_iff.mp hstep
  obtain ⟨x, hx, hcloses⟩ := Option.bind_eq_some_iff.mp hpage
  split at hcloses
  next hstate =>
    cases hcloses
    obtain ⟨rfl, rfl⟩ := h.steady.eq_last hx hstate
    have hsteady := h.steady.closed hstate
    split
    next => exact ⟨hsteady, by simp, fun k hk => by cases hk⟩
    next hother =>
      have hconn : v.conn = none := by
        cases hconn : v.conn with
        | none => rfl
        | some k => simp [hconn, (h.joined k hconn).socket] at hother
      exact ⟨hsteady, by simp [hconn], fun k hk => by cases hconn.symm.trans hk⟩
  next => cases hcloses

theorem tuned_reconnect {page : JoinPage} (hstep : v.page.step .reconnect = some page)
    (h : Tuned v before w) : ∃ before' w', Tuned { v with page := page } before' w' := by
  obtain ⟨due, hdue, hfires⟩ := Option.bind_eq_some_iff.mp hstep
  split at hfires
  next =>
    cases hfires
    have hconn : v.conn = none := by
      cases hconn : v.conn with
      | none => rfl
      | some k =>
          have hopen := h.opened.mpr (by rw [hconn]; rfl)
          cases h.steady.session with
          | lost _ hstate => cases hstate.symm.trans hopen
          | connecting _ htimer | opened _ _ _ htimer | ended _ htimer =>
              cases htimer.symm.trans hdue
    refine ⟨_, _, h.steady.reconnect hdue, ?_, fun k hk => ?_⟩
    · simp [WebSocket.new, hconn]
    · cases hconn.symm.trans hk
  next => cases hfires

/-- Every step keeps the page tuned. -/
theorem Tuned.step {l : Label} (hreach : Lobby.machine.Reachable v.lobby)
    (hstep : v.step l = some v') (h : Tuned v before w) : ∃ before' w', Tuned v' before' w' := by
  cases l with
  | server l => exact ⟨before, w, tuned_server hreach hstep h⟩
  | opens k id => exact ⟨before, tuned_opens hreach hstep h⟩
  | upload len => exact ⟨before, w, tuned_upload hreach hstep h⟩
  | arrive => exact ⟨before, tuned_arrive hstep h⟩
  | closes i => exact ⟨before, _, tuned_closes hstep h⟩
  | elapse d =>
      cases hstep
      exact ⟨before, w, h.steady.elapse d, h.opened, fun k hk => ⟨(h.joined k hk).socket,
        (h.joined k hk).carries⟩⟩
  | reconnect =>
      obtain ⟨page, hpage, rfl⟩ := Option.map_eq_some_iff.mp hstep
      exact tuned_reconnect hpage h

/-- A step of both is a step of the page or of the server. -/
inductive Moved (v v' : Viewing) (l : Label) : Prop
  | page (l' : JoinPage.Label) (hpage : v.page.step l' = some v'.page)
      (hlobby : v'.lobby = v.lobby) (hissues : v.issues l = [])
  | lobby (l' : Lobby.Label) (hlobby : v.lobby.step l' = some v'.lobby)
      (hpage : v'.page = v.page) (hissues : v.issues l = v.lobby.issues l')

theorem moved_of_step {l : Label} (hstep : v.step l = some v') : Moved v v' l := by
  cases l with
  | server l =>
      simp only [Viewing.step, server] at hstep
      split at hstep
      next => cases hstep
      next =>
        obtain ⟨lobby, hlobby, rfl⟩ := Option.map_eq_some_iff.mp hstep
        exact .lobby l hlobby rfl rfl
  | upload len =>
      simp only [Viewing.step, upload] at hstep
      split at hstep
      next =>
        obtain ⟨lobby, hlobby, rfl⟩ := Option.map_eq_some_iff.mp hstep
        exact .lobby _ hlobby rfl rfl
      next => cases hstep
  | opens k id =>
      simp only [Viewing.step, opens] at hstep
      split at hstep
      next =>
        obtain ⟨page, hpage, rfl⟩ := Option.map_eq_some_iff.mp hstep
        exact .page _ hpage rfl rfl
      next => cases hstep
  | arrive =>
      simp only [Viewing.step, arrive] at hstep
      split at hstep
      next =>
        obtain ⟨page, hpage, rfl⟩ := Option.map_eq_some_iff.mp hstep
        exact .page _ hpage rfl rfl
      next => cases hstep
  | closes i =>
      obtain ⟨page, hpage, rfl⟩ := Option.map_eq_some_iff.mp hstep
      split
      next => exact .page _ hpage rfl rfl
      next => exact .page _ hpage rfl rfl
  | elapse d =>
      cases hstep
      exact .page (.elapse d) rfl rfl rfl
  | reconnect =>
      obtain ⟨page, hpage, rfl⟩ := Option.map_eq_some_iff.mp hstep
      exact .page _ hpage rfl rfl

end Steps

section Runs

variable {p : JoinPage} {v : Viewing}

/-- A run of the page and the server is a run of the server, with the same broadcasts. -/
theorem lobby_trace {log : List (Issue Snapshot SocketId ServerMessage)}
    (h : (machine p).Trace issues log v) : Lobby.machine.Trace Lobby.issues log v.lobby := by
  induction h with
  | init => exact .init
  | @step log v v' l _ hstep ih =>
      cases moved_of_step hstep with
      | page l' _ hlobby hissues =>
          rw [hissues, List.append_nil, hlobby]
          exact ih
      | lobby l' hlobby _ hissues =>
          rw [hissues]
          exact ih.step hlobby

theorem lobby_of_reachable (h : (machine p).Reachable v) : Lobby.machine.Reachable v.lobby := by
  obtain ⟨log, htrace⟩ := h.exists_trace issues
  exact (lobby_trace htrace).reachable

theorem targetRoom_of_reachable (h : (machine p).Reachable v) :
    v.page.targetRoom = p.targetRoom := by
  induction h with
  | init => rfl
  | step _ hstep ih =>
      cases moved_of_step hstep with
      | page l' hpage => exact (JoinPage.targetRoom_step hpage).trans ih
      | lobby l' _ hpage => rw [hpage, ih]

/-- The page is tuned in every run. -/
theorem tuned_of_reachable {room : Option String} (hload : JoinPage.load room = some p)
    (h : (machine p).Reachable v) : ∃ before w, Tuned v before w := by
  induction h with
  | init =>
      exact ⟨[], .new, JoinPage.steady_load hload, by simp [WebSocket.new, machine, start],
        fun k hk => by cases hk⟩
  | step hreach hstep ih =>
      obtain ⟨before, w, htuned⟩ := ih
      exact htuned.step (lobby_of_reachable hreach) hstep

/-! ## What the page shows -/

/-- The room as the server lists it. -/
def listed (a : AppState) (roomId : String) : Option RoomInfo :=
  (a.rooms.get? roomId).bind fun r =>
    if (a.players.get? r.hostPlayerId).any (·.online) then some r.info else none

theorem listed_eq_some {a : AppState} {roomId : String} {info : RoomInfo} :
    listed a roomId = some info ↔ ∃ r, a.rooms.get? roomId = some r ∧
      (∃ host, a.players.get? r.hostPlayerId = some host ∧ host.online = true) ∧
        r.info = info := by
  simp only [listed, Option.bind_eq_some_iff, Option.ite_none_right_eq_some, Option.any_eq_true,
    Option.some.injEq]

/-- What the page looks for in a list is the room as the server lists it. -/
theorem target_eq_listed {s : Lobby} {rooms : List RoomInfo} (hreach : Lobby.machine.Reachable s)
    (hrooms : s.app.roomUpdate = .roomUpdate rooms) (roomId : String) :
    JoinPage.target roomId rooms = listed s.app roomId := by
  have hkey : ∀ {id r}, s.app.rooms.get? id = some r → r.roomId = id :=
    fun hr => ((Lobby.sound_of_reachable hreach).room hr).1
  have hlisted : ∀ info ∈ rooms, info.roomId = roomId → listed s.app roomId = some info := by
    intro info hinfo hid
    obtain ⟨id, r, hr, hhost, rfl⟩ := (AppState.mem_roomUpdate hrooms info).mp hinfo
    obtain rfl : id = roomId := (hkey hr).symm.trans hid
    exact listed_eq_some.mpr ⟨r, hr, hhost, rfl⟩
  cases htarget : JoinPage.target roomId rooms with
  | some info =>
      unfold JoinPage.target at htarget
      have hid : info.roomId = roomId := by simpa using List.find?_some htarget
      exact (hlisted info (List.mem_of_find?_eq_some htarget) hid).symm
  | none =>
      cases hlist : listed s.app roomId with
      | none => rfl
      | some info =>
          obtain ⟨r, hr, hhost, rfl⟩ := listed_eq_some.mp hlist
          have hmem := (AppState.mem_roomUpdate hrooms r.info).mpr ⟨roomId, r, hr, hhost, rfl⟩
          unfold JoinPage.target at htarget
          have hother := List.find?_eq_none.mp htarget r.info hmem
          exact absurd (decide_eq_true (hkey hr)) hother

/-- The last list that the page has received is the last one that the queue took. -/
theorem getLast?_roomLists {ms : List ServerMessage} {rooms : List RoomInfo}
    (h : (ms.filter isRoomUpdate).getLast? = some (.roomUpdate rooms)) :
    (JoinPage.roomLists ms).getLast? = some rooms := by
  have hfilter : JoinPage.roomLists (ms.filter isRoomUpdate) = JoinPage.roomLists ms := by
    unfold JoinPage.roomLists
    rw [List.filterMap_filter]
    refine List.filterMap_congr fun m _ => ?_
    cases m <;> rfl
  obtain ⟨before, hbefore⟩ := List.getLast?_eq_some_iff.mp h
  rw [← hfilter, hbefore, JoinPage.roomLists_append]
  exact List.getLast?_concat

/-- Between operations of the server, with nothing left on the way, the page shows the room of its
link if and only if the server lists it, and shows it as it is listed. -/
theorem shows_iff_listed {room : Option String}
    {log : List (Issue Snapshot SocketId ServerMessage)}
    {last : Issue Snapshot SocketId ServerMessage} {k : PageConn}
    (hload : JoinPage.load room = some p) (htrace : (machine p).Trace issues log v)
    (hconn : v.conn = some k) (hsends : v.lobby.sends k.c = true)
    (hquiet : v.lobby.quiescent = true) (hlast : last ∈ log.getLast?)
    (hreaches : Lobby.Reaches last k.c) (hqueue : v.lobby.inQueue k.c = [])
    (hwire : v.wire = []) :
    (v.page.state = .active ↔ (listed v.lobby.app p.targetRoom).isSome) ∧
      ∀ info, v.page.shows = (.active, .room info) ↔
        listed v.lobby.app p.targetRoom = some info := by
  have hlobby := lobby_trace htrace
  obtain ⟨before, w, hsteady, hopened, hjoined⟩ := tuned_of_reachable hload htrace.reachable
  -- Everything that the queue has taken is with the page.
  have hreceived : accepted v.lobby.outboxes k.c = w.received := by
    have hwhole := (hjoined k hconn).carries.whole hsends
    rwa [hwire, hqueue, List.append_nil, List.append_nil] at hwhole
  obtain ⟨hfollows, hown⟩ := Lobby.follows_of_trace hlobby
  obtain ⟨-, hlatest⟩ := Lobby.latest_of_reaches hfollows hown hquiet hlast hreaches
  obtain ⟨rooms, hrooms⟩ : ∃ rooms, v.lobby.app.roomUpdate = .roomUpdate rooms := ⟨_, rfl⟩
  rw [Lobby.latest, hreceived, hrooms] at hlatest
  have htarget : (JoinPage.roomLists w.received).getLast?.bind (JoinPage.target p.targetRoom) =
      listed v.lobby.app p.targetRoom := by
    rw [getLast?_roomLists hlatest]
    exact target_eq_listed hlobby.reachable hrooms p.targetRoom
  have hshows : v.page.shows = JoinPage.watched p.targetRoom w.received := by
    have hopen := hopened.mpr (by rw [hconn]; rfl)
    cases hsteady.session with
    | opened id hstate hsent htimer hshows =>
        rwa [targetRoom_of_reachable htrace.reachable] at hshows
    | connecting hnew => cases hopen.symm.trans (congrArg WebSocket.readyState hnew)
    | lost _ hstate | ended hstate => cases hstate.symm.trans hopen
  have hstate : v.page.state = (JoinPage.watched p.targetRoom w.received).1 :=
    congrArg Prod.fst hshows
  cases hlist : listed v.lobby.app p.targetRoom with
  | some info =>
      rw [hlist] at htarget
      rw [JoinPage.watched_of_some htarget] at hshows hstate
      simp [hshows, hstate]
  | none =>
      rw [hlist] at htarget
      have hwaits : (JoinPage.watched p.targetRoom w.received).1 ≠ .active := by
        rw [JoinPage.watched_of_none htarget]
        split <;> simp
      rw [hshows, hstate]
      refine ⟨by simp [hwaits], fun info => ?_⟩
      simp only [reduceCtorEq, iff_false]
      exact fun heq => hwaits (congrArg Prod.fst heq)

/-- A player creates a room, and a viewer connects. -/
def meets : List Lobby.Label :=
  Lobby.registers 0 "a" ++ Lobby.createsRoom 0 "r" ++
    [.request 1 true (.v4 0x08080404), .upgrade 1 (some "b")]

/-- The viewer registers, and everything that the server sends to it leaves. -/
def enters : List Lobby.Label :=
  [.block 1 "", .block 1 "", .block 1 "", .sent 1 true, .sent 1 true, .sent 1 true]

/-- A viewer follows the link to a room. -/
def watches (id : ViewerId) : List Label :=
  meets.map .server ++ [.opens ⟨0, 1⟩ id, .upload 90] ++ enters.map .server ++
    [.arrive, .arrive, .arrive]

/-- The viewer sees the room. -/
theorem shows_iff_listed_watched : ∃ p v, JoinPage.load (some "r") = some p ∧
    (machine p).Reachable v ∧ v.page.state = .active ∧
      (v.page.state = .active ↔ (listed v.lobby.app p.targetRoom).isSome) ∧
        ∀ info, v.page.shows = (.active, .room info) ↔
          listed v.lobby.app p.targetRoom = some info := by
  let id : ViewerId := .fallback fun _ => 0
  obtain ⟨p, hload⟩ : ∃ p, JoinPage.load (some "r") = some p := ⟨_, rfl⟩
  have hrun : ((machine p).exec (machine p).init (watches id)).any (fun v =>
      decide (v.conn = some ⟨0, 1⟩) && v.lobby.sends 1 && v.lobby.quiescent &&
        (v.lobby.inQueue 1).isEmpty && v.wire.isEmpty &&
        decide (v.page.state = .active)) = true := by
    cases hload
    decide
  have hlog : ((machine p).report issues (machine p).init (watches id)).getLast?.any (fun last =>
      decide (last.taken 1 = [last.content.players, last.content.rooms])) = true := by
    cases hload
    decide
  obtain ⟨v, hexec, hreach, htest⟩ := Machine.exists_reachable_of_exec hrun
  simp only [Bool.and_eq_true, decide_eq_true_eq, List.isEmpty_iff] at htest
  obtain ⟨⟨⟨⟨⟨hconn, hsends⟩, hquiet⟩, hqueue⟩, hwire⟩, hstate⟩ := htest
  obtain ⟨last, hlast, htaken⟩ := (Option.any_eq_true _ _).mp hlog
  have hreaches : Lobby.Reaches last 1 := by simp [Lobby.Reaches, of_decide_eq_true htaken]
  have htrace := Machine.trace_of_exec (f := issues) hexec
  exact ⟨p, v, hload, hreach, hstate,
    shows_iff_listed hload htrace hconn hsends hquiet hlast hreaches hqueue hwire⟩

end Runs

/-! ## Browsers with `crypto.randomUUID` -/

/-- The ids drawn are whole UUIDs. -/
def Label.isSecure : Label → Bool
  | .opens _ (.fallback _) => false
  | _ => true

/-- The connection has not registered and cannot, and nothing was broadcast to it. -/
structure Refused (v : Viewing) (k : PageConn) : Prop where
  outbound : ∀ m ∈ v.outbound, ∃ bytes, m = viewerRegister (.random bytes)
  handler : v.lobby.Unregistered k.c
  inbox : v.lobby.feed.inbox k.c = []

section Refusals

variable {p : JoinPage} {v v' : Viewing} {before : List WebSocket} {w : WebSocket}

theorem refused_lobby {l : Lobby.Label} {k : PageConn} (hreach : Lobby.machine.Reachable v.lobby)
    (hstep : v.lobby.step l = some v'.lobby) (hl : Lobby.Unfit k.c l)
    (hout : v'.outbound ⊆ v.outbound) (h : Refused v k) : Refused v' k where
  outbound m hm := h.outbound m (hout hm)
  handler := Lobby.unregistered_of_step hstep hl h.handler
  inbox := (Lobby.inbox_of_unregistered hreach hstep h.handler).trans h.inbox

theorem unregistered_of_untouched {s : Lobby} {c : SocketId} (h : untouched s c = true) :
    s.Unregistered c := by
  intro h' hh
  rw [untouched, Lobby.handler_eq_some.mp hh] at h
  simp only [Bool.and_eq_true, Bool.not_eq_true'] at h
  exact ⟨h.1.2, h.1.1⟩

theorem refused_opens {k : PageConn} {bytes : Fin 16 → UInt8}
    (hreach : Lobby.machine.Reachable v.lobby) (htuned : Tuned v before w)
    (hstep : v.opens k (.random bytes) = some v') : ∀ k' ∈ v'.conn, Refused v' k' := by
  unfold opens at hstep
  split at hstep
  next hfree =>
    obtain ⟨page, hpage, rfl⟩ := Option.map_eq_some_iff.mp hstep
    obtain ⟨x, hx, hopens⟩ := Option.bind_eq_some_iff.mp hpage
    split at hopens
    next hstate =>
      cases hopens
      obtain ⟨hsocket, rfl⟩ := htuned.steady.eq_last hx (by simp [hstate])
      have hnew : x = .new := by
        cases htuned.steady.session with
        | connecting hnew => exact hnew
        | opened _ hopen | lost _ hopen | ended hopen => cases hopen.symm.trans hstate
      have hsockets := (htuned.steady.opened hstate (.random bytes)).sockets
      intro k' hk
      cases hk
      refine ⟨fun m hm => ?_, unregistered_of_untouched hfree.2, ?_⟩
      · dsimp only at hm
        rw [hsocket, hsockets, List.getElem?_concat_length, hnew] at hm
        exact ⟨bytes, List.mem_singleton.mp hm⟩
      · have hnone := accepted_of_untouched (Lobby.attended_of_reachable hreach) hfree.2
        simp only [Lobby.feed, hnone, List.filter_nil]
    next => cases hopens
  next => cases hstep

/-- A nickname with a whole UUID does not pass the checks. -/
theorem unfit_random (c : SocketId) (len : Nat) (externalIp : Option IpAddr)
    (bytes : Fin 16 → UInt8) :
    Lobby.Unfit c (.frame c (.text len (some (viewerRegister (.random bytes))) externalIp)) := by
  rintro ⟨m, hvalid⟩ len' externalIp' heq
  obtain rfl : viewerRegister (.random bytes) = m := by
    injection heq with _ hitem
    injection hitem with _ hparsed
    exact Option.some.inj hparsed
  rw [viewerRegister_random] at hvalid
  cases hvalid

/-- Every step of a browser with `crypto.randomUUID` keeps it refused. -/
theorem refused_of_step {l : Label} (hl : l.isSecure = true)
    (hreach : Lobby.machine.Reachable v.lobby) (htuned : Tuned v before w)
    (hstep : v.step l = some v') (h : ∀ k ∈ v.conn, Refused v k) :
    ∀ k ∈ v'.conn, Refused v' k := by
  cases l with
  | server l =>
      simp only [Viewing.step, server] at hstep
      split at hstep
      next => cases hstep
      next hsilent =>
        obtain ⟨lobby, hlobby, rfl⟩ := Option.map_eq_some_iff.mp hstep
        intro k hk
        have hconn : v.conn = some k := hk
        refine refused_lobby hreach hlobby ?_ (List.Subset.refl _) (h k hk)
        rintro m len externalIp rfl
        simp [speaksFor, hconn] at hsilent
  | opens k id =>
      cases id with
      | random bytes => exact refused_opens hreach htuned hstep
      | fallback draw => cases hl
  | upload len =>
      simp only [Viewing.step, upload] at hstep
      split at hstep
      next k m rest hconn hout =>
        obtain ⟨lobby, hlobby, rfl⟩ := Option.map_eq_some_iff.mp hstep
        intro k' hk
        obtain rfl : k = k' := Option.some.inj (hconn.symm.trans hk)
        obtain ⟨bytes, rfl⟩ := (h k hconn).outbound m (by rw [hout]; exact List.mem_cons_self)
        refine refused_lobby hreach hlobby (unfit_random k.c len none bytes) ?_ (h k hconn)
        rw [hout]
        exact List.subset_cons_self _ _
      next => cases hstep
  | arrive =>
      simp only [Viewing.step, arrive] at hstep
      split at hstep
      next =>
        obtain ⟨page, _, rfl⟩ := Option.map_eq_some_iff.mp hstep
        exact fun k hk => ⟨(h k hk).outbound, (h k hk).handler, (h k hk).inbox⟩
      next => cases hstep
  | closes i =>
      obtain ⟨page, _, rfl⟩ := Option.map_eq_some_iff.mp hstep
      split
      next => exact fun k hk => by cases hk
      next => exact fun k hk => ⟨(h k hk).outbound, (h k hk).handler, (h k hk).inbox⟩
  | elapse d =>
      cases hstep
      exact fun k hk => ⟨(h k hk).outbound, (h k hk).handler, (h k hk).inbox⟩
  | reconnect =>
      obtain ⟨page, _, rfl⟩ := Option.map_eq_some_iff.mp hstep
      exact fun k hk => ⟨(h k hk).outbound, (h k hk).handler, (h k hk).inbox⟩

theorem refused_of_reachable {room : Option String} (hload : JoinPage.load room = some p)
    (h : ((machine p).restrict fun _ l => l.isSecure = true).Reachable v) :
    ∀ k ∈ v.conn, Refused v k := by
  induction h with
  | init => exact fun k hk => by cases hk
  | step hreach hstep ih =>
      obtain ⟨hsecure, hstep⟩ := Machine.restrict_step.mp hstep
      have hreach := Machine.Reachable.of_restrict hreach
      obtain ⟨before, w, htuned⟩ := tuned_of_reachable hload hreach
      exact refused_of_step hsecure (lobby_of_reachable hreach) htuned hstep ih

/-- The server has no player on the connection: it has not registered, no player's messages go to
it, and it is not on the list of any broadcast. -/
structure Outsider (s : Lobby) (c : SocketId) : Prop where
  registered : ∀ h, s.handler c = some h → h.registered = false
  player : ∀ id p, s.app.players.get? id = some p → p.tx ≠ c
  letters : addressed s.app.broadcastLetters c = []
  inbox : ∀ m ∈ accepted s.outboxes c, isSnapshot m = false

theorem Refused.outsider {k : PageConn} (hreach : Lobby.machine.Reachable v.lobby)
    (h : Refused v k) : Outsider v.lobby k.c := by
  have hplayer : ∀ id p, v.lobby.app.players.get? id = some p → p.tx ≠ k.c := by
    rintro id p hp htx
    obtain ⟨owner, howner, rfl⟩ := (Lobby.attended_of_reachable hreach).tx hp
    rw [htx] at howner
    have hregistered := (h.handler owner (Lobby.handler_eq_some.mpr howner)).1
    cases hp.symm.trans (Lobby.player_of_unregistered hreach howner hregistered)
  refine ⟨fun owner howner => (h.handler owner howner).1, hplayer, ?_, fun m hm => ?_⟩
  · refine List.eq_nil_iff_forall_not_mem.mpr fun m hm => ?_
    obtain ⟨p, hp, hletter⟩ := List.mem_flatMap.mp (mem_addressed.mp hm)
    obtain ⟨id, hid⟩ := Table.mem_values_iff.mp (List.mem_filter.mp hp).1
    refine hplayer id p hid ?_
    rcases List.mem_pair.mp hletter with heq | heq <;> exact (congrArg Prod.fst heq).symm
  · simpa using List.filter_eq_nil_iff.mp h.inbox m hm

/-- A page that was refused has received no list of rooms. -/
theorem roomLists_of_refused {k : PageConn} (hjoined : Joined v before w k) (h : Refused v k) :
    JoinPage.roomLists w.received = [] := by
  refine List.filterMap_eq_nil_iff.mpr fun m hm => ?_
  have hmem : m ∈ accepted v.lobby.outboxes k.c :=
    hjoined.carries.carried.subset (List.mem_append_left _ hm)
  have hplain := List.filter_eq_nil_iff.mp h.inbox m hmem
  cases m with
  | roomUpdate rooms => exact absurd rfl hplain
  | _ => rfl

/-- What the page of such a browser shows. -/
theorem hidden_of_secure {room : Option String} (hload : JoinPage.load room = some p)
    (h : ((machine p).restrict fun _ l => l.isSecure = true).Reachable v) :
    v.page.state ≠ .active ∧ ∀ info, v.page.content ≠ .room info := by
  obtain ⟨before, w, hsteady, hopened, hjoined⟩ := tuned_of_reachable hload h.of_restrict
  have hshown : ∀ {shown : PageState}, v.page.shows = (shown, .status shown) → shown ≠ .active →
      v.page.state ≠ .active ∧ ∀ info, v.page.content ≠ .room info := by
    intro shown hshows hne
    have hstate : v.page.state = shown := congrArg Prod.fst hshows
    have hcontent : v.page.content = .status shown := congrArg Prod.snd hshows
    rw [hstate, hcontent]
    exact ⟨hne, by simp⟩
  cases hsteady.session with
  | connecting _ _ hshows =>
      obtain hshows | hshows := hshows
      · exact hshown hshows (by simp)
      · exact hshown hshows (by simp)
  | opened id hstate _ _ hshows =>
      obtain ⟨k, hk⟩ := Option.isSome_iff_exists.mp (hopened.mp hstate)
      have hlists := roomLists_of_refused (hjoined k hk) (refused_of_reachable hload h k hk)
      rw [JoinPage.watched, hlists] at hshows
      exact hshown hshows (by simp)
  | lost due _ _ _ hshows _ => exact hshown hshows (by simp)
  | ended _ _ hshows _ => exact hshown hshows (by simp)

/-- In a browser that has `crypto.randomUUID` the page never shows a room, whatever the server and
its other clients do: it never registers, and no broadcast is addressed to it. -/
theorem no_room_of_secure {room : Option String} (hload : JoinPage.load room = some p)
    (h : ((machine p).restrict fun _ l => l.isSecure = true).Reachable v) :
    v.page.state ≠ .active ∧ (∀ info, v.page.content ≠ .room info) ∧
      ∀ k ∈ v.conn, Outsider v.lobby k.c := by
  obtain ⟨hstate, hcontent⟩ := hidden_of_secure hload h
  refine ⟨hstate, hcontent, fun k hk => ?_⟩
  exact (refused_of_reachable hload h k hk).outsider (lobby_of_reachable h.of_restrict)

/-- The server lists the room, and the viewer with its whole UUID is told that its nickname is too
long. -/
theorem no_room_of_secure_refused : ∃ p v, JoinPage.load (some "r") = some p ∧
    ((machine p).restrict fun _ l => l.isSecure = true).Reachable v ∧
      (listed v.lobby.app "r").isSome = true ∧ v.conn = some ⟨0, 1⟩ ∧ v.page.state ≠ .active ∧
        (∀ info, v.page.content ≠ .room info) ∧ Outsider v.lobby 1 := by
  let id : ViewerId := .random fun _ => 0
  obtain ⟨p, hload⟩ : ∃ p, JoinPage.load (some "r") = some p := ⟨_, rfl⟩
  let M := (machine p).restrict fun _ l => l.isSecure = true
  let run : List Label := meets.map .server ++
    [.opens ⟨0, 1⟩ id, .upload 118, .server (.sent 1 true), .arrive]
  have hrun : (M.exec M.init run).any (fun v =>
      (listed v.lobby.app "r").isSome && decide (v.conn = some ⟨0, 1⟩)) = true := by
    cases hload
    decide
  obtain ⟨v, -, hreach, htest⟩ := Machine.exists_reachable_of_exec hrun
  rw [Bool.and_eq_true, decide_eq_true_eq] at htest
  obtain ⟨hstate, hcontent, houtsider⟩ := no_room_of_secure hload hreach
  exact ⟨p, v, hload, hreach, htest.1, htest.2, hstate, hcontent, houtsider _ htest.2⟩

end Refusals

end Viewing

end War3BattleTool.System
