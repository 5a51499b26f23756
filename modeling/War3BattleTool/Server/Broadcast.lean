import War3BattleTool.Foundation.Feed
import War3BattleTool.Server.Outboxes

set_option autoImplicit false

/-!
# Lobby snapshots (`AppState::broadcast_state`)

The lobby is a feed: its view is the snapshot of the maps, its inboxes are the snapshots that
the outgoing queues took, and whoever changes the view owes a broadcast.  So the snapshots in a
queue are in the order of the states they show, and once nobody is in the middle of an
operation the last broadcast shows the maps as they are.

A broadcast is one step: it holds both read locks until its last send, so the maps it shows
are those of every moment in between.
-/

namespace War3BattleTool.Server

open War3BattleTool.Foundation War3BattleTool.Protocol

/-! ## The projection -/

/-- The lists show the connected players that are no web viewers, and the rooms whose host
is connected, each as it is. -/
structure AppState.ShownBy (a : AppState) (players : List PlayerInfo) (rooms : List RoomInfo) :
    Prop where
  players : ∀ info, info ∈ players ↔ ∃ id p, a.players.get? id = some p ∧ p.online = true ∧
    isWebViewerName p.nickname = false ∧ p.info = info
  rooms : ∀ info, info ∈ rooms ↔ ∃ id r, a.rooms.get? id = some r ∧
    (∃ host, a.players.get? r.hostPlayerId = some host ∧ host.online = true) ∧ r.info = info

theorem AppState.mem_playerUpdate {a : AppState} {infos : List PlayerInfo}
    (h : a.playerUpdate = .playerUpdate infos) (info : PlayerInfo) :
    info ∈ infos ↔ ∃ id p, a.players.get? id = some p ∧ p.online = true ∧
      isWebViewerName p.nickname = false ∧ p.info = info := by
  obtain rfl := ServerMessage.playerUpdate.inj h
  simp only [List.mem_map, List.mem_filter, Table.mem_values_iff, Bool.and_eq_true,
    Bool.not_eq_true']
  constructor
  · rintro ⟨p, ⟨⟨id, hp⟩, honline, hname⟩, rfl⟩
    exact ⟨id, p, hp, honline, hname, rfl⟩
  · rintro ⟨id, p, hp, honline, hname, rfl⟩
    exact ⟨p, ⟨⟨id, hp⟩, honline, hname⟩, rfl⟩

theorem AppState.mem_roomUpdate {a : AppState} {infos : List RoomInfo}
    (h : a.roomUpdate = .roomUpdate infos) (info : RoomInfo) :
    info ∈ infos ↔ ∃ id r, a.rooms.get? id = some r ∧
      (∃ host, a.players.get? r.hostPlayerId = some host ∧ host.online = true) ∧
        r.info = info := by
  obtain rfl := ServerMessage.roomUpdate.inj h
  simp only [List.mem_map, List.mem_filter, Table.mem_values_iff]
  constructor
  · rintro ⟨r, ⟨⟨id, hr⟩, hhost⟩, rfl⟩
    cases hp : a.players.get? r.hostPlayerId with
    | none => simp [hp] at hhost
    | some host => exact ⟨id, r, hr, ⟨host, hp, by simpa [hp] using hhost⟩, rfl⟩
  · rintro ⟨id, r, hr, ⟨host, hp, honline⟩, rfl⟩
    exact ⟨r, ⟨⟨id, hr⟩, by simp [hp, honline]⟩, rfl⟩

/-- What `broadcast_state` sends shows the maps. -/
theorem AppState.shownBy_snapshot (a : AppState) : ∃ players rooms,
    a.playerUpdate = .playerUpdate players ∧ a.roomUpdate = .roomUpdate rooms ∧
      a.ShownBy players rooms :=
  ⟨_, _, rfl, rfl, mem_playerUpdate rfl, mem_roomUpdate rfl⟩

/-- The cleanup task is bound to broadcast. -/
def CleanupTask.owes : CleanupTask → Bool
  | .removePlayers _ | .removeRooms _ _ _ => true
  | _ => false

namespace Lobby

/-- Somebody is bound to broadcast. -/
def owing (s : Lobby) : Prop :=
  (∃ c h, s.sockets.get? c = some (.running h) ∧ h.pc.owes = true) ∨ s.cleanup.owes = true

/-- The lobby as a feed of snapshots. -/
def feed (s : Lobby) : Feed Snapshot SocketId ServerMessage where
  view := s.app.snapshot
  owing := s.owing
  inbox := fun c => (accepted s.outboxes c).filter isSnapshot

/-- A broadcast in this state: what it shows, and what each queue takes of it. -/
def issue (s : Lobby) : Issue Snapshot SocketId ServerMessage where
  content := s.app.snapshot
  taken := fun c =>
    (accepted s.broadcastState.outboxes c).drop (accepted s.outboxes c).length

/-- The broadcast a step makes. -/
def issues (s : Lobby) : Label → List (Issue Snapshot SocketId ServerMessage)
  | .block c _ =>
      match s.sockets.get? c with
      | some (.running h) => if (broadcastsTo h.pc).isSome then [s.issue] else []
      | _ => []
  | .cleanup =>
      match s.cleanup with
      | .removePlayers [] => [s.issue]
      | _ => []
  | _ => []

variable {s s' : Lobby} {c : SocketId} {h h' : Handler}

theorem eq_issue_of_mem {l : Label} {e : Issue Snapshot SocketId ServerMessage}
    (he : e ∈ s.issues l) : e = s.issue := by
  unfold issues at he
  split at he
  · split at he
    · split at he
      · exact List.mem_singleton.mp he
      · cases he
    · cases he
  · split at he
    · exact List.mem_singleton.mp he
    · cases he
  · cases he

/-! ## What a broadcast sends -/

/-- Of a broadcast a queue takes the messages addressed to it, as long as it has room. -/
theorem taken_issue (s : Lobby) (c : SocketId) : s.issue.taken c =
    (addressed s.app.broadcastLetters c).take (freeSlots s.outboxes c) := by
  simp only [issue, broadcastState, AppState.broadcastState_eq, accepted_mail, List.drop_left]

theorem accepted_broadcastState (s : Lobby) (c : SocketId) :
    accepted s.broadcastState.outboxes c = accepted s.outboxes c ++ s.issue.taken c := by
  rw [taken_issue, ← accepted_mail, ← AppState.broadcastState_eq]
  rfl

/-- A queue takes only the two messages of a broadcast. -/
theorem mem_taken_issue {m : ServerMessage} (hm : m ∈ s.issue.taken c) :
    m = s.issue.content.players ∨ m = s.issue.content.rooms := by
  rw [taken_issue] at hm
  exact AppState.mem_broadcastLetters (mem_addressed.mp (List.mem_of_mem_take hm))

theorem inbox_broadcastState (s : Lobby) (c : SocketId) :
    (accepted s.broadcastState.outboxes c).filter isSnapshot =
      (accepted s.outboxes c).filter isSnapshot ++ s.issue.taken c := by
  rw [accepted_broadcastState, List.filter_append]
  congr 1
  refine List.filter_eq_self.mpr fun m hm => ?_
  rcases mem_taken_issue hm with rfl | rfl
  · rfl
  · rfl

/-- Other letters add no snapshot. -/
theorem inbox_mail {outboxes : Table SocketId Outbox}
    {letters : List (SocketId × ServerMessage)} (hletters : noSnapshot letters = true)
    (c : SocketId) : (accepted (mail outboxes letters) c).filter isSnapshot =
      (accepted outboxes c).filter isSnapshot := by
  have hnone : ((addressed letters c).take (freeSlots outboxes c)).filter isSnapshot = [] := by
    refine List.filter_eq_nil_iff.mpr fun m hm => ?_
    simpa using List.all_eq_true.mp hletters _ (mem_addressed.mp (List.mem_of_mem_take hm))
  rw [accepted_mail, List.filter_append, hnone, List.append_nil]

/-! ## Who is attended to -/

/-- Handlers stand where they may, and queues belong to connections. -/
structure Attended (s : Lobby) : Prop where
  guarded : ∀ {c h}, s.sockets.get? c = some (.running h) → h.Guarded
  outbox : ∀ {c}, (s.outboxes.get? c).isSome → ∃ h, s.sockets.get? c = some (.running h)
  /-- a player's messages go to the player's own connection -/
  tx : ∀ {id p}, s.app.players.get? id = some p →
    ∃ h, s.sockets.get? p.tx = some (.running h) ∧ h.playerId = id

theorem attended_start : start.Attended where
  guarded := by simp [start]
  outbox := by simp [start]
  tx := by simp [start, AppState.new]

namespace Attended

/-- The handler of a connection moves. -/
theorem moves (ha : s.Attended) (hc : s.sockets.get? c = some (.running h))
    (hm : Moves s s' c h h') (hguarded : h.Guarded → h'.Guarded)
    (houtbox : ∀ c', (s'.outboxes.get? c').isSome = (s.outboxes.get? c').isSome)
    (htx : TxKept s.app s'.app h.playerId c) : s'.Attended where
  guarded := by
    intro c' k hk
    rw [hm.sockets, Function.update_apply] at hk
    split at hk
    · cases hk
      exact hguarded (ha.guarded hc)
    · exact ha.guarded hk
  outbox := by
    intro c' ho
    rw [houtbox] at ho
    obtain ⟨k, hk⟩ := ha.outbox ho
    by_cases heq : c' = c
    · exact ⟨h', heq ▸ hm.get?_self⟩
    · exact ⟨k, (hm.get?_of_ne heq).trans hk⟩
  tx := by
    intro id p' hp'
    rcases htx id p' hp' with ⟨p, hp, hsame⟩ | ⟨rfl, hsame⟩
    · obtain ⟨k, hk, hid⟩ := ha.tx hp
      rw [hsame]
      by_cases heq : p.tx = c
      · rw [heq, hc, Option.some.injEq, Socket.running.injEq] at hk
        exact ⟨h', heq ▸ hm.get?_self, hm.playerId.trans (hk ▸ hid)⟩
      · exact ⟨k, (hm.get?_of_ne heq).trans hk, hid⟩
    · exact ⟨h', hsame ▸ hm.get?_self, hm.playerId⟩

/-- No handler moves, and no player comes in. -/
theorem of_players (ha : s.Attended) (hsockets : s'.sockets = s.sockets)
    (houtbox : ∀ c, (s'.outboxes.get? c).isSome = (s.outboxes.get? c).isSome)
    (hplayers : ∀ {id p}, s'.app.players.get? id = some p → s.app.players.get? id = some p) :
    s'.Attended where
  guarded := hsockets ▸ ha.guarded
  outbox := fun ho => hsockets ▸ ha.outbox (houtbox _ ▸ ho)
  tx := fun hp => hsockets ▸ ha.tx (hplayers hp)

theorem turn (ha : s.Attended) (hc : s.sockets.get? c = some (.running h))
    (hturn : Turn s s' c h h') : s'.Attended := by
  obtain ⟨letters, _, houtboxes⟩ := hturn.mailed
  exact ha.moves hc hturn.moves hturn.guarded (fun c' => by rw [houtboxes, isSome_mail]) hturn.tx

end Attended

/-- Both messages of a broadcast go to a connection whose player is connected, and none to
another one. -/
theorem Attended.addressed_broadcastLetters (ha : s.Attended)
    (hc : s.sockets.get? c = some (.running h)) :
    addressed s.app.broadcastLetters c =
      if (s.app.players.get? h.playerId).any (fun p => decide (p.tx = c) && p.online) then
        [s.app.playerUpdate, s.app.roomUpdate] else [] := by
  have hplayer : (s.app.players.values.filter (·.online)).filter (·.tx = c) =
      ((s.app.players.get? h.playerId).filter fun p => decide (p.tx = c) && p.online).toList := by
    rw [List.filter_filter]
    refine Table.filter_values_of_key fun id p hp hpass => ?_
    simp only [Bool.and_eq_true, decide_eq_true_eq] at hpass
    obtain ⟨k, hk, hid⟩ := ha.tx hp
    rw [hpass.1, hc, Option.some.injEq, Socket.running.injEq] at hk
    rw [← hid, hk]
  have hletters : ∀ ps : List ConnectedPlayer,
      addressed (ps.flatMap fun p => [(p.tx, s.app.playerUpdate), (p.tx, s.app.roomUpdate)]) c =
        (ps.filter (·.tx = c)).flatMap fun _ => [s.app.playerUpdate, s.app.roomUpdate] := by
    intro ps
    induction ps with
    | nil => rfl
    | cons p rest ih =>
        rw [List.flatMap_cons, addressed_append, ih, List.filter_cons]
        by_cases htx : p.tx = c
        · simp [addressed, htx]
        · simp [addressed, htx]
  rw [AppState.broadcastLetters, hletters, hplayer]
  cases s.app.players.get? h.playerId with
  | none => rfl
  | some p => cases hpass : (decide (p.tx = c) && p.online) <;> simp [Option.filter, hpass]

/-- A queue takes the two messages of a broadcast in order, or fewer of them. -/
theorem Attended.sublist_taken_issue (ha : s.Attended) (c : SocketId) :
    (s.issue.taken c).Sublist [s.issue.content.players, s.issue.content.rooms] := by
  rw [taken_issue]
  cases ho : s.outboxes.get? c with
  | none => simp [freeSlots, ho]
  | some o =>
      obtain ⟨h, hc⟩ := ha.outbox (c := c) (by simp [ho])
      refine (List.take_sublist _ _).trans ?_
      rw [ha.addressed_broadcastLetters hc]
      split
      · exact .refl _
      · exact List.nil_sublist _

theorem moves_broadcast (hc : s.sockets.get? c = some (.running h)) (pc : HandlerPc) :
    Moves s (s.broadcastState.goto c h pc) c h { h with pc := pc } :=
  .put (s := s) hc rfl rfl rfl

theorem isSome_broadcastState (s : Lobby) (c : SocketId) :
    (s.broadcastState.outboxes.get? c).isSome = (s.outboxes.get? c).isSome := by
  rw [broadcastState, AppState.broadcastState_eq, isSome_mail]

/-! ## The cleanup task -/

/-- A block of the cleanup task that is not its broadcast. -/
structure Sweeps (s s' : Lobby) : Prop where
  quiet : s.cleanup ≠ .removePlayers []
  sockets : s'.sockets = s.sockets
  outboxes : s'.outboxes = s.outboxes
  players : ∀ {id p}, s'.app.players.get? id = some p → s.app.players.get? id = some p
  duty : s'.app.snapshot = s.app.snapshot ∧ s.cleanup.owes = false ∨ s'.cleanup.owes = true

theorem sweeps_cleanupStep (hstep : s.cleanupStep = some s') :
    Sweeps s s' ∨
      s.cleanup = .removePlayers [] ∧ s' = { s.broadcastState with cleanup := .tick } := by
  unfold cleanupStep at hstep
  cases hpc : s.cleanup with
  | tick =>
      simp only [hpc] at hstep
      split at hstep
      · cases hstep
        exact .inl ⟨by simp [hpc], rfl, rfl, id, .inl ⟨rfl, by rw [hpc]; rfl⟩⟩
      · cases hstep
  | tunnels | findExpired =>
      simp only [hpc, Option.some.injEq] at hstep
      subst hstep
      exact .inl ⟨by simp [hpc], rfl, rfl, id, .inl ⟨rfl, by rw [hpc]; rfl⟩⟩
  | removePlayers expired =>
      cases expired with
      | nil =>
          simp only [hpc, Option.some.injEq] at hstep
          exact .inr ⟨rfl, hstep.symm⟩
      | cons playerId rest =>
          simp only [hpc, Option.some.injEq] at hstep
          subst hstep
          refine .inl ⟨by simp [hpc], rfl, rfl, fun {id p} hp => ?_, .inr ?_⟩
          · simp only [AppState.takePlayer, Table.get?_remove] at hp
            split at hp
            · cases hp
            · exact hp
          · dsimp only
            split <;> rfl
  | removeRooms hostingRoom joinedRoom rest =>
      simp only [hpc, Option.some.injEq] at hstep
      subst hstep
      refine .inl ⟨by simp [hpc], rfl, rfl, fun {id p} hp => ?_, .inr rfl⟩
      cases hostingRoom <;> cases joinedRoom <;> exact hp

/-! ## Every step keeps the feed -/

theorem feed_turn (hc : s.sockets.get? c = some (.running h)) (hturn : Turn s s' c h h') :
    Feed.Step s.feed s'.feed [] := by
  obtain ⟨letters, hletters, houtboxes⟩ := hturn.mailed
  have hinbox : s'.feed.inbox = s.feed.inbox := by
    funext c'
    simp only [feed, houtboxes]
    exact inbox_mail hletters c'
  rcases hturn.duty with ⟨hview, hfree⟩ | howes
  · refine .rests hview (fun howing => ?_) hinbox
    rcases howing with ⟨c', k, hk, howes⟩ | hcleanup
    · refine .inl ⟨c', k, ?_, howes⟩
      rw [hturn.moves.get?_of_ne, hk]
      rintro rfl
      rw [hc, Option.some.injEq, Socket.running.injEq] at hk
      rw [hk, howes] at hfree
      cases hfree
    · exact .inr (hturn.cleanup ▸ hcleanup)
  · exact .edits (.inl ⟨c, h', hturn.moves.get?_self, howes⟩) hinbox

theorem feed_sweeps (hsweeps : Sweeps s s') : Feed.Step s.feed s'.feed [] := by
  have hinbox : s'.feed.inbox = s.feed.inbox := by simp only [feed, hsweeps.outboxes]
  rcases hsweeps.duty with ⟨hview, hfree⟩ | howes
  · refine .rests hview (fun howing => ?_) hinbox
    rcases howing with ⟨c, h, hc, howes⟩ | howes
    · exact .inl ⟨c, h, hsweeps.sockets ▸ hc, howes⟩
    · rw [hfree] at howes
      cases howes
  · exact .edits (.inr howes) hinbox

theorem feed_broadcast (s : Lobby) (hview : s'.app = s.app)
    (houtboxes : s'.outboxes = s.broadcastState.outboxes) :
    Feed.Step s.feed s'.feed [s.issue] := by
  refine .issues s.issue rfl (by simp only [feed, hview]) fun c => ?_
  simp only [feed, houtboxes]
  exact s.inbox_broadcastState c

/-- The step concerns no handler, no list and no inbox. -/
theorem feed_rests (hview : s'.app.snapshot = s.app.snapshot)
    (hsockets : ∀ {c h}, s.sockets.get? c = some (.running h) →
      s'.sockets.get? c = some (.running h))
    (hcleanup : s'.cleanup = s.cleanup)
    (hinbox : ∀ c, accepted s'.outboxes c = accepted s.outboxes c) :
    Feed.Step s.feed s'.feed [] := by
  refine .rests hview (fun howing => ?_) ?_
  · rcases howing with ⟨c, h, hc, howes⟩ | howes
    · exact .inl ⟨c, h, hsockets hc, howes⟩
    · exact .inr (hcleanup ▸ howes)
  · funext c
    simp only [feed, hinbox]

theorem fed_request {originOk : Bool} {ip : IpAddr} (ha : s.Attended)
    (hstep : s.request c originOk ip = some s') :
    s'.Attended ∧ Feed.Step s.feed s'.feed [] := by
  obtain ⟨conns, hframe⟩ := wsHandler_frame s.app originOk ip
  unfold request at hstep
  split at hstep
  · cases hstep
  · next hc =>
    split at hstep
    · next app hok =>
      cases hstep
      obtain rfl : app = _ := (congrArg Prod.fst hok).symm.trans hframe
      have hkept : ∀ {c' k}, s.sockets.get? c' = some (.running k) →
          (s.sockets.insert c (.upgrading ip)).get? c' = some (.running k) := by
        intro c' k hk
        rw [Table.get?_insert, if_neg, hk]
        rintro rfl
        rw [hc] at hk
        cases hk
      refine ⟨⟨fun {c' k} hk => ?_, fun ho => ?_, fun hp => ?_⟩, feed_rests rfl hkept rfl
        fun _ => rfl⟩
      · simp only [setApp, Table.get?_insert] at hk
        split at hk
        · cases hk
        · exact ha.guarded hk
      · obtain ⟨k, hk⟩ := ha.outbox ho
        exact ⟨k, hkept hk⟩
      · obtain ⟨k, hk, hid⟩ := ha.tx hp
        exact ⟨k, hkept hk, hid⟩
    · next app _ hok =>
      cases hstep
      obtain rfl : app = _ := (congrArg Prod.fst hok).symm.trans hframe
      exact ⟨ha.of_players rfl (fun _ => rfl) id, feed_rests rfl id rfl fun _ => rfl⟩

theorem fed_upgrade (outboxes : Table SocketId Outbox) {ip : IpAddr} {k : Socket}
    {playerIds : List String} (ha : s.Attended) (hc : s.sockets.get? c = some (.upgrading ip))
    (hguarded : ∀ h, k = .running h → h.Guarded)
    (houtbox : ∀ c', (outboxes.get? c').isSome → (s.outboxes.get? c').isSome ∨
      c' = c ∧ ∃ h, k = .running h)
    (hinbox : ∀ c', accepted outboxes c' = accepted s.outboxes c') :
    let s' : Lobby := { s with
      sockets := s.sockets.modify c fun _ => k
      outboxes := outboxes
      playerIds := playerIds }
    s'.Attended ∧ Feed.Step s.feed s'.feed [] := by
  have hkept : ∀ {c' h}, s.sockets.get? c' = some (.running h) →
      (s.sockets.modify c fun _ => k).get? c' = some (.running h) := by
    intro c' h hh
    rw [Table.get?_modify, if_neg, hh]
    rintro rfl
    rw [hc] at hh
    cases hh
  refine ⟨⟨fun {c' h} hh => ?_, fun {c'} ho => ?_, fun hp => ?_⟩,
    feed_rests rfl hkept rfl hinbox⟩
  · simp only [Table.get?_modify] at hh
    split at hh
    · next heq =>
      rw [heq, hc, Option.map_some, Option.some.injEq] at hh
      exact hguarded h hh
    · exact ha.guarded hh
  · rcases houtbox c' ho with ho | ⟨rfl, h, rfl⟩
    · obtain ⟨h, hh⟩ := ha.outbox ho
      exact ⟨h, hkept hh⟩
    · exact ⟨h, by simp [Table.get?_modify, hc]⟩
  · obtain ⟨h, hh, hid⟩ := ha.tx hp
    exact ⟨h, hkept hh, hid⟩

theorem fed_upgraded {ip : IpAddr} {playerId : String} (ha : s.Attended)
    (hc : s.sockets.get? c = some (.upgrading ip))
    (hstep : s.upgraded c ip playerId = some s') :
    s'.Attended ∧ Feed.Step s.feed s'.feed [] := by
  -- The connection had no queue before.
  have hfresh : accepted s.outboxes c = [] := by
    unfold accepted
    cases ho : s.outboxes.get? c with
    | none => rfl
    | some o =>
        obtain ⟨h, hh⟩ := ha.outbox (c := c) (by simp [ho])
        rw [hc] at hh
        cases hh
  unfold upgraded at hstep
  split at hstep
  · cases hstep
  · cases hstep
    refine fed_upgrade (s.outboxes.insert c .new) ha hc (fun h hh => ?_)
      (fun c' ho => ?_) fun c' => ?_
    · obtain rfl := Socket.running.inj hh
      rintro ⟨⟩
    · rw [Table.get?_insert] at ho
      split at ho
      · next heq => exact .inr ⟨heq, _, rfl⟩
      · exact .inl ho
    · by_cases heq : c' = c
      · rw [heq, hfresh]
        simp [accepted, Table.get?_insert, Outbox.new]
      · simp [accepted, Table.get?_insert, heq]

theorem fed_block {fresh : String} (ha : s.Attended)
    (hc : s.sockets.get? c = some (.running h)) (hstep : s.block c h fresh = some s') :
    s'.Attended ∧
      Feed.Step s.feed s'.feed (if (broadcastsTo h.pc).isSome then [s.issue] else []) := by
  cases hto : broadcastsTo h.pc with
  | none =>
      obtain ⟨h', hturn⟩ := turn_block hc hstep hto
      exact ⟨ha.turn hc hturn, feed_turn hc hturn⟩
  | some pc =>
      have hs' : s' = s.broadcastState.goto c h pc := by
        unfold broadcastsTo at hto
        unfold block at hstep
        split at hto
        · next hpc =>
          cases hto
          simpa only [hpc, Option.some.injEq] using hstep.symm
        · next hpc =>
          cases hto
          simpa only [hpc, Option.some.injEq] using hstep.symm
        · cases hto
      have hguarded : pc.guarded = false := by
        unfold broadcastsTo at hto
        split at hto <;> cases hto <;> rfl
      subst hs'
      refine ⟨ha.moves hc (moves_broadcast hc pc) (fun _ hpc => ?_) s.isSome_broadcastState
        (.of_players rfl), feed_broadcast s rfl rfl⟩
      rw [hguarded] at hpc
      cases hpc

/-- Every step keeps the feed, and its broadcasts are the ones reported. -/
theorem fed_step {l : Label} (ha : s.Attended) (hstep : s.step l = some s') :
    s'.Attended ∧ Feed.Step s.feed s'.feed (s.issues l) := by
  cases l with
  | elapse d =>
      cases hstep
      exact ⟨ha.of_players rfl (fun _ => rfl) id, feed_rests rfl id rfl fun _ => rfl⟩
  | tunnel l =>
      simp only [step] at hstep
      split at hstep
      · obtain ⟨tunnel, _, rfl⟩ := Option.map_eq_some_iff.mp hstep
        exact ⟨ha.of_players rfl (fun _ => rfl) id, feed_rests rfl id rfl fun _ => rfl⟩
      · cases hstep
  | request c originOk ip => exact fed_request ha hstep
  | upgrade c playerId =>
      simp only [step] at hstep
      split at hstep
      · next ip hc =>
        cases playerId with
        | some playerId => exact fed_upgraded ha hc hstep
        | none =>
            cases hstep
            exact fed_upgrade s.outboxes (k := .upgradeFailed ip) ha hc (fun _ hh => by cases hh)
              (fun _ => .inl) fun _ => rfl
      · cases hstep
  | frame c item =>
      obtain ⟨h, hc, hframe⟩ := whenRunning_eq_some hstep
      split at hframe
      · next hpc =>
        cases hframe
        obtain ⟨h', hturn⟩ := turn_frame hc hpc item
        exact ⟨ha.turn hc hturn, feed_turn hc hturn⟩
      · cases hframe
  | block c fresh =>
      obtain ⟨h, hc, hblock⟩ := whenRunning_eq_some hstep
      simpa only [issues, hc] using fed_block ha hc hblock
  | drop c =>
      obtain ⟨h, hc, hdrop⟩ := whenRunning_eq_some hstep
      split at hdrop
      · next hloses =>
        cases hdrop
        have hturn := turn_exit hc (ha.guarded hc) (Bool.and_eq_true _ _ ▸ hloses).1
        exact ⟨ha.turn hc hturn, feed_turn hc hturn⟩
      · cases hdrop
  | sent c ok =>
      obtain ⟨o, ho, hsent⟩ := Option.bind_eq_some_iff.mp hstep
      obtain ⟨o', hpop, rfl⟩ := Option.map_eq_some_iff.mp hsent
      refine ⟨ha.of_players rfl (fun c' => ?_) id, feed_rests rfl id rfl (accepted_pop ho hpop)⟩
      simp only [Table.get?_modify]
      split <;> simp
  | cleanup =>
      rcases sweeps_cleanupStep hstep with hsweeps | ⟨hpc, rfl⟩
      · have hnone : s.issues .cleanup = [] := by
          simp only [issues]
          split
          · next hpc => exact absurd hpc hsweeps.quiet
          · rfl
        rw [hnone]
        exact ⟨ha.of_players hsweeps.sockets (fun _ => by rw [hsweeps.outboxes]) hsweeps.players,
          feed_sweeps hsweeps⟩
      · simp only [issues, hpc]
        exact ⟨ha.of_players rfl s.isSome_broadcastState id, feed_broadcast s rfl rfl⟩

/-! ## Whole runs -/

theorem attended_of_reachable (h : machine.Reachable s) : s.Attended :=
  h.invariant (I := Attended) attended_start fun _ _ _ _ ha hstep => (fed_step ha hstep).1

variable {log : List (Issue Snapshot SocketId ServerMessage)}

/-- In every run the queues and the maps follow the broadcasts made. -/
theorem follows_of_trace (htrace : machine.Trace issues log s) :
    s.feed.Follows log ∧ ∀ e ∈ log, ∀ c,
      (e.taken c).Sublist [e.content.players, e.content.rooms] := by
  refine htrace.invariant (I := fun log s => s.feed.Follows log ∧ ∀ e ∈ log, ∀ c,
    (e.taken c).Sublist [e.content.players, e.content.rooms]) ?_ ?_
  · exact ⟨.start fun _ => rfl, by simp⟩
  · intro log s l s' hreach ⟨hfollows, hown⟩ hstep
    have ha := attended_of_reachable hreach
    refine ⟨hfollows.step (fed_step ha hstep).2, fun e he c => ?_⟩
    rcases List.mem_append.mp he with he | he
    · exact hown e he c
    · rw [eq_issue_of_mem he]
      exact ha.sublist_taken_issue c

/-- Nothing is owed between operations. -/
theorem not_owing_of_quiescent (h : s.quiescent = true) : ¬ s.owing := by
  simp only [quiescent, Bool.and_eq_true, List.all_eq_true] at h
  rintro (⟨c, k, hc, howes⟩ | howes)
  · have hrest := h.1 _ (Table.mem_values_iff.mpr ⟨c, hc⟩)
    cases hpc : k.pc <;> simp_all [Socket.resting, HandlerPc.resting, HandlerPc.owes]
  · have hrest := h.2
    cases hpc : s.cleanup <;> simp_all [CleanupTask.resting, CleanupTask.owes]

/-- The last message of a kind that a queue took. -/
def latest (s : Lobby) (c : SocketId) (kind : ServerMessage → Bool) : Option ServerMessage :=
  ((accepted s.outboxes c).filter kind).getLast?

/-- Every queue took the snapshots of the broadcasts in their order, and of each broadcast at
most the two messages that show its own state. -/
structure Ordered (s : Lobby) (log : List (Issue Snapshot SocketId ServerMessage)) : Prop where
  history : ∀ c, (accepted s.outboxes c).filter isSnapshot = log.flatMap (·.taken c)
  own : ∀ e ∈ log, ∀ c, (e.taken c).Sublist [e.content.players, e.content.rooms]

/-- The queue took both messages of the broadcast. -/
def Reaches (e : Issue Snapshot SocketId ServerMessage) (c : SocketId) : Prop :=
  e.content.players ∈ e.taken c ∧ e.content.rooms ∈ e.taken c

/-- The connected players that the last broadcast reached were last sent the maps as they
are. -/
def Converged (s : Lobby) (log : List (Issue Snapshot SocketId ServerMessage)) : Prop :=
  ∀ last ∈ log.getLast?, ∀ id p, s.app.players.get? id = some p → p.online = true →
    Reaches last p.tx → ∃ players rooms,
      s.latest p.tx isPlayerUpdate = some (.playerUpdate players) ∧
      s.latest p.tx isRoomUpdate = some (.roomUpdate rooms) ∧
      s.app.playerUpdate = .playerUpdate players ∧ s.app.roomUpdate = .roomUpdate rooms ∧
      s.app.ShownBy players rooms

theorem latest_eq {kind : ServerMessage → Bool} (hkind : ∀ m, kind m = true → isSnapshot m = true)
    {last : Issue Snapshot SocketId ServerMessage} (hfollows : s.feed.Follows log)
    (hlast : last ∈ log.getLast?) {m : ServerMessage} (hm : m ∈ last.taken c)
    (hmkind : kind m = true) (honly : ∀ m' ∈ last.taken c, kind m' = true → m' = m) :
    s.latest c kind = some m := by
  have hfilter : (accepted s.outboxes c).filter kind = (s.feed.inbox c).filter kind := by
    simp only [feed, List.filter_filter]
    refine List.filter_congr fun m _ => ?_
    cases hk : kind m with
    | false => rfl
    | true => simp [hkind m hk]
  rw [latest, hfilter]
  exact hfollows.getLast?_filter hlast hm hmkind honly

/-- Between operations the last messages of both kinds in a queue that took the last broadcast
show the maps as they are. -/
theorem latest_of_reaches {last : Issue Snapshot SocketId ServerMessage}
    (hfollows : s.feed.Follows log)
    (hown : ∀ e ∈ log, ∀ c, (e.taken c).Sublist [e.content.players, e.content.rooms])
    (hquiet : s.quiescent = true) (hlast : last ∈ log.getLast?) (hreaches : Reaches last c) :
    s.latest c isPlayerUpdate = some s.app.playerUpdate ∧
      s.latest c isRoomUpdate = some s.app.roomUpdate := by
  have hcurrent : last.content = s.app.snapshot :=
    hfollows.current.resolve_left (not_owing_of_quiescent hquiet) last hlast
  have hcontent : ∀ m ∈ last.taken c, m = s.app.playerUpdate ∨ m = s.app.roomUpdate := by
    intro m hm
    have hpair := List.mem_pair.mp ((hown last (List.mem_of_getLast? hlast) c).subset hm)
    rwa [hcurrent] at hpair
  obtain ⟨hplayers, hrooms⟩ := hreaches
  rw [hcurrent] at hplayers hrooms
  constructor
  · refine latest_eq (fun m hm => by simp [isSnapshot, hm]) hfollows hlast hplayers rfl
      fun m hm hkind => (hcontent m hm).resolve_right fun heq => ?_
    rw [heq] at hkind
    cases hkind
  · refine latest_eq (fun m hm => by simp [isSnapshot, hm]) hfollows hlast hrooms rfl
      fun m hm hkind => (hcontent m hm).resolve_left fun heq => ?_
    rw [heq] at hkind
    cases hkind

/-- In every run the snapshots in a queue are in the order of the states they were taken from,
and whenever no handler is in the middle of an operation the last broadcast is current. -/
theorem ordered_and_converged (htrace : machine.Trace issues log s) :
    s.Ordered log ∧ (s.quiescent = true → s.Converged log) := by
  obtain ⟨hfollows, hown⟩ := follows_of_trace htrace
  refine ⟨⟨hfollows.history, hown⟩, fun hquiet last hlast id p hp honline hreach => ?_⟩
  have hcurrent : last.content = s.app.snapshot :=
    hfollows.current.resolve_left (not_owing_of_quiescent hquiet) last hlast
  have hmem := List.mem_of_getLast? hlast
  have hown' : ∀ m ∈ last.taken p.tx, m = s.app.playerUpdate ∨ m = s.app.roomUpdate := by
    intro m hm
    have hcontent := List.mem_pair.mp ((hown last hmem p.tx).subset hm)
    rwa [hcurrent] at hcontent
  obtain ⟨hplayers, hrooms⟩ := hreach
  rw [hcurrent] at hplayers hrooms
  obtain ⟨players, rooms, hp', hr', hshown⟩ := s.app.shownBy_snapshot
  refine ⟨players, rooms, ?_, ?_, hp', hr', hshown⟩
  · rw [← hp']
    refine latest_eq (fun m hm => by simp [isSnapshot, hm]) hfollows hlast hplayers rfl
      fun m hm hkind => ?_
    exact (hown' m hm).resolve_right fun heq => by simp [heq, hr', isPlayerUpdate] at hkind
  · rw [← hr']
    refine latest_eq (fun m hm => by simp [isSnapshot, hm]) hfollows hlast hrooms rfl
      fun m hm hkind => ?_
    exact (hown' m hm).resolve_left fun heq => by simp [heq, hp', isRoomUpdate] at hkind

/-- Two players register, and both were last sent the two of them. -/
theorem ordered_and_converged_registered : ∃ s log, machine.Trace issues log s ∧
    log.length = 2 ∧ s.quiescent = true ∧ (∀ last ∈ log.getLast?, Reaches last 0 ∧ Reaches last 1) ∧
      s.Ordered log ∧ s.Converged log := by
  let run : List Label := registers 0 "a" ++ registers 1 "b"
  have hrun : (machine.exec machine.init run).any (·.quiescent) = true := by decide
  have hlog : (machine.report issues machine.init run).length = 2 := by decide
  have hreach : ((machine.report issues machine.init run).getLast?).all (fun last =>
      decide (last.taken 0 = [last.content.players, last.content.rooms]) &&
        decide (last.taken 1 = [last.content.players, last.content.rooms])) = true := by
    decide
  obtain ⟨s, hexec, _, hquiet⟩ := Machine.exists_reachable_of_exec hrun
  have htrace := Machine.trace_of_exec (f := issues) hexec
  obtain ⟨hordered, hconverged⟩ := ordered_and_converged htrace
  refine ⟨s, _, htrace, hlog, hquiet, fun last hlast => ?_, hordered, hconverged hquiet⟩
  rw [hlast] at hreach
  simp only [Option.all_some, Bool.and_eq_true, decide_eq_true_eq] at hreach
  simp [Reaches, hreach.1, hreach.2]

end Lobby

end War3BattleTool.Server
