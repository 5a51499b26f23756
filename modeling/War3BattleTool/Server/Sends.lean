import War3BattleTool.Foundation.Threads
import War3BattleTool.Server.Broadcast
import War3BattleTool.Server.Membership
import War3BattleTool.Server.Slots

set_option autoImplicit false

/-!
# Sends one by one

`broadcast_state` and the arms of `handle_socket` call `try_send` once for each message, and
nothing keeps the other tasks from sending, or a send task from taking a message out of its queue,
between two of these calls.  `Sending` is the lobby server with every `try_send` a step of its own:
a block leaves what it sends to its task (`owed`), which sends it message by message before it goes
on.  A task that sends without a pause takes the steps of the lobby server (`exec_atOnce`).

A task that broadcasts holds both read locks until its last send.  `Sending` lets the others write
to the maps meanwhile, so it has all runs of the server and some more.
-/

namespace War3BattleTool.Server

open War3BattleTool.Foundation War3BattleTool.Protocol

/-- Who sends messages: the task of a connection, or the cleanup task. -/
inductive Sender where
  | socket (c : SocketId)
  | cleanup
  deriving DecidableEq

namespace Lobby

/-! ## The handler as a thread -/

/-- The locals of the handler of a connection. -/
def handler (s : Lobby) (c : SocketId) : Option Handler :=
  match s.sockets.get? c with
  | some (.running h) => some h
  | _ => none

/-- The step is one of the handler's own. -/
def isOwn (c : SocketId) (_ : Lobby) : Label → Bool
  | .frame c' _ | .block c' _ | .drop c' => c' = c
  | _ => false

variable {s s' : Lobby} {c : SocketId} {h h' : Handler}

theorem handler_eq_some : s.handler c = some h ↔ s.sockets.get? c = some (.running h) := by
  unfold handler
  split
  · next h₁ hc =>
    rw [hc]
    simp
  · next hnone =>
    simp only [reduceCtorEq, false_iff]
    exact fun hc => hnone h hc

/-- A step that stores locals of the handler says where the handler stands. -/
theorem eq_of_put {k : Handler} (hc : s.sockets.get? c = some (.running h))
    (hc' : s'.sockets.get? c = some (.running h'))
    (hsockets : s'.sockets = (s.put c k).sockets) : h' = k := by
  rw [hsockets, get?_put hc, Function.update_self, Option.some.injEq,
    Socket.running.injEq] at hc'
  exact hc'.symm

theorem moves_of_block {fresh : String} (hc : s.sockets.get? c = some (.running h))
    (hstep : s.block c h fresh = some s') : ∃ h', Moves s s' c h h' := by
  by_cases hpc : h.pc = .returned
  · simp only [block, hpc, Option.some.injEq] at hstep
    subst hstep
    exact ⟨{ h with pc := .released }, .put hc rfl rfl rfl⟩
  · obtain ⟨h', hm, _⟩ := proceeds_block hc hstep hpc
    exact ⟨h', hm⟩

theorem moves_of_frame (item : Incoming) (hc : s.sockets.get? c = some (.running h))
    (hpc : h.pc = .receiving) : ∃ h', Moves s (s.frame c h item) c h h' := by
  obtain ⟨h', hm, _⟩ := proceeds_frame hc (by simp [hpc]) item
  exact ⟨h', hm⟩

/-- A step of some handler moves that handler. -/
theorem moves_of_own {l : Label} (hstep : s.step l = some s') (hown : isOwn c s l = true) :
    ∃ h h', s.sockets.get? c = some (.running h) ∧ Moves s s' c h h' := by
  cases l with
  | frame c' item =>
      obtain rfl : c' = c := by simpa [isOwn] using hown
      obtain ⟨h, hc, hframe⟩ := whenRunning_eq_some hstep
      split at hframe
      · next hpc =>
        cases hframe
        obtain ⟨h', hm⟩ := moves_of_frame item hc hpc
        exact ⟨h, h', hc, hm⟩
      · cases hframe
  | block c' fresh =>
      obtain rfl : c' = c := by simpa [isOwn] using hown
      obtain ⟨h, hc, hblock⟩ := whenRunning_eq_some hstep
      obtain ⟨h', hm⟩ := moves_of_block hc hblock
      exact ⟨h, h', hc, hm⟩
  | drop c' =>
      obtain rfl : c' = c := by simpa [isOwn] using hown
      obtain ⟨h, hc, hdrop⟩ := whenRunning_eq_some hstep
      split at hdrop
      · cases hdrop
        exact ⟨h, h.exit, hc, .put hc rfl rfl rfl⟩
      · cases hdrop
  | _ => simp [isOwn] at hown

/-- A step of somebody else leaves the handler where it stands. -/
theorem get?_sockets_of_other {l : Label} (hstep : s.step l = some s')
    (hc : s.sockets.get? c = some (.running h)) (hother : isOwn c s l = false) :
    s'.sockets.get? c = some (.running h) := by
  have hmoved : ∀ c', isOwn c' s l = true → c' ≠ c → s'.sockets.get? c = some (.running h) := by
    intro c' hown hne
    obtain ⟨k, k', _, hm⟩ := moves_of_own hstep hown
    rw [hm.get?_of_ne (Ne.symm hne), hc]
  cases l with
  | elapse d =>
      cases hstep
      exact hc
  | tunnel l =>
      simp only [step] at hstep
      split at hstep
      · obtain ⟨tunnel, _, rfl⟩ := Option.map_eq_some_iff.mp hstep
        exact hc
      · cases hstep
  | request c' originOk ip =>
      simp only [step, request] at hstep
      split at hstep
      · cases hstep
      · next hc' =>
        split at hstep
        · cases hstep
          simp only [setApp, Table.get?_insert]
          split
          · next heq =>
            rw [← heq, hc] at hc'
            cases hc'
          · exact hc
        · cases hstep
          exact hc
  | upgrade c' playerId =>
      simp only [step] at hstep
      split at hstep
      · next ip hc' =>
        have hne : c ≠ c' := by
          rintro rfl
          rw [hc] at hc'
          cases hc'
        cases playerId with
        | some playerId =>
            simp only [upgraded] at hstep
            split at hstep
            · cases hstep
            · cases hstep
              simp only [put, Table.get?_modify, if_neg hne]
              exact hc
        | none =>
            cases hstep
            simp only [Table.get?_modify, if_neg hne]
            exact hc
      · cases hstep
  | frame c' item | block c' fresh | drop c' =>
      exact hmoved c' (by simp [isOwn]) (by simpa [isOwn] using hother)
  | sent c' ok =>
      obtain ⟨o, _, hsent⟩ := Option.bind_eq_some_iff.mp hstep
      obtain ⟨o', _, rfl⟩ := Option.map_eq_some_iff.mp hsent
      exact hc
  | cleanup =>
      rw [(cleanupStep_frame hstep).1]
      exact hc

/-- A handler takes a step of its own, starts, or stands where it stood. -/
theorem running_of_step {l : Label} (hstep : s.step l = some s')
    (hc : s'.sockets.get? c = some (.running h')) : isOwn c s l = true ∨
      (∃ clientIp playerId, h' = .start clientIp playerId s.now) ∨
        s.sockets.get? c = some (.running h') := by
  cases hown : isOwn c s l with
  | true => exact .inl rfl
  | false =>
      right
      have hmoved : ∀ c', isOwn c' s l = true → c' ≠ c → s.sockets.get? c = some (.running h') := by
        intro c' hown' hne
        obtain ⟨k, k', _, hm⟩ := moves_of_own hstep hown'
        rwa [hm.get?_of_ne (Ne.symm hne)] at hc
      cases l with
      | elapse d =>
          cases hstep
          exact .inr hc
      | tunnel l =>
          simp only [step] at hstep
          split at hstep
          · obtain ⟨tunnel, _, rfl⟩ := Option.map_eq_some_iff.mp hstep
            exact .inr hc
          · cases hstep
      | request c' originOk ip =>
          simp only [step, request] at hstep
          split at hstep
          · cases hstep
          · split at hstep
            · cases hstep
              simp only [setApp, Table.get?_insert] at hc
              split at hc
              · cases hc
              · exact .inr hc
            · cases hstep
              exact .inr hc
      | upgrade c' playerId =>
          simp only [step] at hstep
          split at hstep
          · cases playerId with
            | some playerId =>
                simp only [upgraded] at hstep
                split at hstep
                · cases hstep
                · cases hstep
                  simp only [put, Table.get?_modify] at hc
                  split at hc
                  · obtain ⟨_, _, hstart⟩ := Option.map_eq_some_iff.mp hc
                    cases hstart
                    exact .inl ⟨_, _, rfl⟩
                  · exact .inr hc
            | none =>
                cases hstep
                simp only [Table.get?_modify] at hc
                split at hc
                · obtain ⟨_, _, hfailed⟩ := Option.map_eq_some_iff.mp hc
                  cases hfailed
                · exact .inr hc
          · cases hstep
      | frame c' item | block c' fresh | drop c' =>
          exact .inr (hmoved c' (by simp [isOwn]) (by simpa [isOwn] using hown))
      | sent c' ok =>
          obtain ⟨o, _, hsent⟩ := Option.bind_eq_some_iff.mp hstep
          obtain ⟨o', _, rfl⟩ := Option.map_eq_some_iff.mp hsent
          exact .inr hc
      | cleanup =>
          rw [(cleanupStep_frame hstep).1] at hc
          exact .inr hc

/-- Nobody else touches the locals of a handler. -/
theorem isolates (c : SocketId) : machine.Isolates (·.handler c) (isOwn c) where
  moved := by
    intro s l s' h hstep _ hown
    obtain ⟨_, h', _, hm⟩ := moves_of_own hstep hown
    exact ⟨h', handler_eq_some.mpr hm.get?_self⟩
  kept := fun hstep hc hother =>
    handler_eq_some.mpr (get?_sockets_of_other hstep (handler_eq_some.mp hc) hother)

/-! ## What a step sends -/

/-- What a block sends, in order. -/
def blockLetters (s : Lobby) (c : SocketId) (h : Handler) : List (SocketId × ServerMessage) :=
  match h.pc with
  | .registerCount _ _ =>
      if maxTotalPlayers ≤ s.app.players.size then [(c, .error "伺服器已滿")] else []
  | .registerInsert _ _ _ =>
      (c, .welcome h.playerId) :: if h.isWebViewer then [] else [(c, .yourObservedAddr h.clientIp)]
  | .broadcast | .finalBroadcast => s.app.broadcastLetters
  | .createRead _ =>
      if (s.app.players.get? h.playerId).any (·.hostingRoom.isSome) then
        [(c, .error "已有房間，請先關閉")]
      else []
  | .createCount _ =>
      if maxTotalRooms ≤ s.app.rooms.size then [(c, .error "伺服器房間已滿")] else []
  | .upnpForward externalAddr joinerPlayerId =>
      match s.app.players.values.find? fun p => p.playerId = joinerPlayerId && p.online with
      | some p => [(p.tx, .peerUPnPAddr externalAddr)]
      | none => []
  | .joinRoom roomId => if (s.app.rooms.get? roomId).isSome then [] else [(c, .joinFailure)]
  | .joinPlayers quote =>
      match s.app.players.get? h.playerId with
      | none => []
      | some joiner =>
          if joiner.war3Version ≠ quote.roomVersion then [(c, .joinFailure)]
          else if (s.app.players.get? quote.hostPlayerId).any (·.online) then []
          else [(c, .joinFailure)]
  | .joinReserve ticket =>
      if (s.app.reserveSlot ticket.quote.roomId).2 then [] else [(c, .joinFailure)]
  | .joinRegisterBinding ticket tunnelToken => joinLetters c h ticket tunnelToken
  | _ => []

/-- What a message that passed the checks sends before its first `.await`. -/
def dispatchLetters (s : Lobby) (c : SocketId) (h : Handler) :
    ClientMessage → List (SocketId × ServerMessage)
  | .register _ _ _ => if h.registered then [(c, .error "已經註冊過了")] else []
  | .ping ts => [(c, .pong ts)]
  | .joinRoom _ =>
      if !h.registered || h.isWebViewer then []
      else if h.lastJoinAt.any fun last => elapsed s.now last < joinCooldown then
        [(c, .error "加入太頻繁，請稍後再試")]
      else []
  | _ => []

/-- What a frame sends before its first `.await`. -/
def frameLetters (s : Lobby) (c : SocketId) (h : Handler) :
    Incoming → List (SocketId × ServerMessage)
  | .text len parsed _ =>
      if maxMessageSize < len then [(c, .error "訊息過大")]
      else if !(h.rateLimiter.allow s.now).2 then [(c, .error "訊息發送太頻繁，請稍後再試")]
      else
        match parsed with
        | none => [(c, .error "無法解析訊息")]
        | some m =>
            match m.check with
            | .error text => [(c, .error text)]
            | .ok m => s.dispatchLetters c h m.message
  | _ => []

/-- What a step of the server sends. -/
def letters (s : Lobby) : Label → List (SocketId × ServerMessage)
  | .frame c item => ((s.handler c).map (s.frameLetters c · item)).getD []
  | .block c _ => ((s.handler c).map (s.blockLetters c)).getD []
  | .cleanup =>
      match s.cleanup with
      | .removePlayers [] => s.app.broadcastLetters
      | _ => []
  | _ => []

/-- The task that takes the step, if it may send. -/
def Label.sender : Label → Option Sender
  | .frame c _ | .block c _ | .drop c => some (.socket c)
  | .cleanup => some .cleanup
  | _ => none

theorem outboxes_block {fresh : String} (hstep : s.block c h fresh = some s') :
    s'.outboxes = mail s.outboxes (s.blockLetters c h) := by
  have harm := arm_of_block hstep
  unfold blockLetters
  generalize h.pc = pc at harm
  cases harm with
  | registerCount =>
      dsimp only [registerCount]
      split <;> rfl
  | registerInsert =>
      dsimp only [registerInsert]
      split <;> rfl
  | broadcast | finalBroadcast => exact s.app.broadcastState_eq s.outboxes
  | createRead =>
      dsimp only [createRead]
      cases s.app.players.get? h.playerId with
      | none => rfl
      | some p => cases hhosting : p.hostingRoom.isSome <;> simp [hhosting] <;> rfl
  | createCount =>
      dsimp only [createCount]
      split <;> rfl
  | createInsert draft hstep =>
      unfold createInsert at hstep
      split at hstep <;> cases hstep
      rfl
  | upnpForward externalAddr joinerPlayerId =>
      have happ : (s.goto c h .receiving).app = s.app := rfl
      simp only [upnpForward, happ]
      cases s.app.players.values.find? fun p => p.playerId = joinerPlayerId && p.online <;> rfl
  | joinRoom roomId =>
      dsimp only [joinRoom]
      cases s.app.rooms.get? roomId <;> rfl
  | joinPlayers quote =>
      dsimp only [joinPlayers]
      cases s.app.players.get? h.playerId with
      | none => rfl
      | some joiner =>
          by_cases hversion : joiner.war3Version ≠ quote.roomVersion
          · simp only [if_pos hversion]
            rfl
          · simp only [if_neg hversion]
            cases s.app.players.get? quote.hostPlayerId with
            | none => rfl
            | some host => cases honline : host.online <;> simp [Option.filter, honline] <;> rfl
  | joinReserve ticket =>
      dsimp only [joinReserve]
      cases hreserved : s.app.reserveSlot ticket.quote.roomId with
      | mk app ok => cases ok <;> rfl
  | joinRegisterPending ticket hstep | joinRegisterBinding ticket token hstep =>
      obtain ⟨tunnel, _, rfl⟩ := Option.map_eq_some_iff.mp hstep
      rfl
  | joinRecord =>
      dsimp only [joinRecord]
      split <;> rfl
  | leaving =>
      dsimp only [leaving]
      repeat' split
      all_goals rfl
  | heartbeat | createLink | closeTake | closeRemove | upnpLookup | joinReleaseOld | removeRooms
  | returned => rfl

theorem outboxes_dispatch (m : ValidMessage) (externalIp : Option IpAddr) :
    (s.dispatch c h m externalIp).outboxes =
      mail s.outboxes (s.dispatchLetters c h m.message) := by
  obtain ⟨m, hvalid⟩ := m
  cases m with
  | register | joinRoom | createRoom | closeRoom | upnpMapped =>
      dsimp only [dispatch, dispatchLetters]
      repeat' split
      all_goals rfl
  | heartbeat | ping => rfl

theorem outboxes_frame (item : Incoming) :
    (s.frame c h item).outboxes = mail s.outboxes (s.frameLetters c h item) := by
  cases item with
  | close | other | ended => rfl
  | text len parsed externalIp =>
      dsimp only [frame, text, frameLetters]
      split
      · rfl
      · split
        · rfl
        · cases parsed with
          | none => rfl
          | some m =>
              cases hcheck : m.check with
              | error text => simp only [hcheck]; rfl
              | ok m => simp only [hcheck]; exact outboxes_dispatch m externalIp

/-- A step of a task that may send mails its letters. -/
theorem outboxes_of_step {l : Label} {task : Sender} (hstep : s.step l = some s')
    (htask : l.sender = some task) : s'.outboxes = mail s.outboxes (s.letters l) := by
  cases l with
  | frame c item =>
      obtain ⟨h, hc, hframe⟩ := whenRunning_eq_some hstep
      split at hframe
      · cases hframe
        simp only [letters, handler_eq_some.mpr hc, Option.map_some, Option.getD_some]
        exact outboxes_frame item
      · cases hframe
  | block c fresh =>
      obtain ⟨h, hc, hblock⟩ := whenRunning_eq_some hstep
      simp only [letters, handler_eq_some.mpr hc, Option.map_some, Option.getD_some]
      exact outboxes_block hblock
  | drop c =>
      obtain ⟨h, hc, hdrop⟩ := whenRunning_eq_some hstep
      split at hdrop <;> cases hdrop
      rfl
  | cleanup =>
      obtain hsweeps | ⟨hpc, rfl⟩ := sweeps_cleanupStep hstep
      · have hnone : s.letters .cleanup = [] := by
          simp only [letters]
          split
          · next hpc => exact absurd hpc hsweeps.quiet
          · rfl
        rw [hnone]
        exact hsweeps.outboxes
      · simp only [letters, hpc]
        exact s.app.broadcastState_eq s.outboxes
  | _ => cases htask

/-- The steps of a handler are those with its sender. -/
theorem isOwn_iff {l : Label} : isOwn c s l = true ↔ l.sender = some (.socket c) := by
  cases l <;> simp [isOwn, Label.sender]

/-- No other step sends. -/
theorem letters_of_sender {l : Label} (htask : l.sender = none) : s.letters l = [] := by
  cases l <;> first | rfl | cases htask

end Lobby

/-- The lobby server, and what each task has still to send. -/
structure Sending where
  lobby : Lobby
  owed : Sender → List (SocketId × ServerMessage)

namespace Sending

/-- The server after startup. -/
def start : Sending where
  lobby := .start
  owed := fun _ => []

/-- What can happen next. -/
inductive Label where
  /-- a step of the server up to what it sends -/
  | server (l : Lobby.Label)
  /-- the next `try_send` of a task -/
  | send (task : Sender)

/-- A step of the server.  A task takes its next one when it owes nothing; there is no `.await`
among the messages it sends. -/
def server (s : Sending) (l : Lobby.Label) : Option Sending :=
  match l.sender with
  | some task =>
      if (s.owed task).isEmpty then
        (s.lobby.step l).map fun lobby =>
          { lobby := { lobby with outboxes := s.lobby.outboxes }
            owed := Function.update s.owed task (s.lobby.letters l) }
      else none
  | none => (s.lobby.step l).map fun lobby => { s with lobby := lobby }

/-- A task sends the first of the messages it owes. -/
def send (s : Sending) (task : Sender) : Option Sending :=
  match s.owed task with
  | letter :: rest =>
      some
        { lobby := s.lobby.trySend letter.1 letter.2
          owed := Function.update s.owed task rest }
  | [] => none

/-- One step. -/
def step (s : Sending) : Label → Option Sending
  | .server l => s.server l
  | .send task => s.send task

/-- The server that sends message by message, as a machine. -/
def machine : Machine Sending Label where
  init := start
  step := step

/-! ## What a step does -/

/-- What the step `l` does. -/
inductive Takes (s : Sending) : Label → Sending → Prop
  | apart {l : Lobby.Label} {lobby : Lobby} (htask : l.sender = none)
      (hstep : s.lobby.step l = some lobby) : Takes s (.server l) { s with lobby := lobby }
  | begins {l : Lobby.Label} {task : Sender} {lobby : Lobby} (htask : l.sender = some task)
      (hidle : s.owed task = []) (hstep : s.lobby.step l = some lobby) :
      Takes s (.server l)
        { lobby := { lobby with outboxes := s.lobby.outboxes }
          owed := Function.update s.owed task (s.lobby.letters l) }
  | sends {task : Sender} {letter : SocketId × ServerMessage}
      {rest : List (SocketId × ServerMessage)} (howed : s.owed task = letter :: rest) :
      Takes s (.send task)
        { lobby := s.lobby.trySend letter.1 letter.2
          owed := Function.update s.owed task rest }

variable {s s' : Sending}

/-- What a step of a task that may send does. -/
theorem server_eq_some {l : Lobby.Label} {task : Sender} (htask : l.sender = some task)
    (hstep : machine.step s (.server l) = some s') :
    s.owed task = [] ∧ ∃ lobby, s.lobby.step l = some lobby ∧ s' =
      { lobby := { lobby with outboxes := s.lobby.outboxes }
        owed := Function.update s.owed task (s.lobby.letters l) } := by
  have hserver : s.server l = some s' := hstep
  simp only [server, htask] at hserver
  split at hserver
  · next hidle =>
    obtain ⟨lobby, hlobby, rfl⟩ := Option.map_eq_some_iff.mp hserver
    exact ⟨List.isEmpty_iff.mp hidle, lobby, hlobby, rfl⟩
  · cases hserver

/-- What a send does. -/
theorem send_eq_some {task : Sender} (hstep : machine.step s (.send task) = some s') :
    ∃ letter rest, s.owed task = letter :: rest ∧ s' =
      { lobby := s.lobby.trySend letter.1 letter.2
        owed := Function.update s.owed task rest } := by
  have hsend : s.send task = some s' := hstep
  unfold send at hsend
  split at hsend
  · next letter rest howed =>
    cases hsend
    exact ⟨letter, rest, howed, rfl⟩
  · cases hsend

theorem takes_of_step {l : Label} (hstep : s.step l = some s') : Takes s l s' := by
  cases l with
  | server l =>
      cases htask : l.sender with
      | none =>
          simp only [step, server, htask] at hstep
          obtain ⟨lobby, hlobby, rfl⟩ := Option.map_eq_some_iff.mp hstep
          exact .apart htask hlobby
      | some task =>
          obtain ⟨hidle, lobby, hlobby, rfl⟩ := server_eq_some htask hstep
          exact .begins htask hidle hlobby
  | send task =>
      obtain ⟨letter, rest, howed, rfl⟩ := send_eq_some hstep
      exact .sends howed

theorem step_begins {l : Lobby.Label} {task : Sender} {lobby : Lobby}
    (htask : l.sender = some task) (hidle : s.owed task = [])
    (hstep : s.lobby.step l = some lobby) :
    machine.step s (.server l) = some
      { lobby := { lobby with outboxes := s.lobby.outboxes }
        owed := Function.update s.owed task (s.lobby.letters l) } := by
  change s.server l = _
  simp only [server, htask, hidle, List.isEmpty_nil, if_true, hstep, Option.map_some]

/-! ## Sends in a row -/

/-- A task that is not interrupted sends all that it owes. -/
theorem exec_sends {task : Sender} {letters : List (SocketId × ServerMessage)}
    (howed : s.owed task = letters) :
    machine.exec s (List.replicate letters.length (.send task)) = some
      { lobby := { s.lobby with outboxes := mail s.lobby.outboxes letters }
        owed := Function.update s.owed task [] } := by
  induction letters generalizing s with
  | nil =>
      have hsame : Function.update s.owed task [] = s.owed := by
        rw [← howed, Function.update_eq_self]
      rw [hsame]
      rfl
  | cons letter rest ih =>
      let next : Sending :=
        { lobby := s.lobby.trySend letter.1 letter.2
          owed := Function.update s.owed task rest }
      have hsend : machine.step s (.send task) = some next := by
        change s.send task = some next
        rw [send, howed]
      rw [List.length_cons, List.replicate_succ, Machine.exec, hsend, Option.bind_some,
        ih (s := next) (Function.update_self ..)]
      simp only [next, Function.update_idem]
      rfl

/-- The steps of the server, each with its sends in a row. -/
def atOnce (s : Lobby) : List Lobby.Label → List Label
  | [] => []
  | l :: rest =>
      (.server l :: (l.sender.map fun task =>
          List.replicate (s.letters l).length (.send task)).getD []) ++
        ((s.step l).map (atOnce · rest)).getD []

/-- A run of the lobby server is a run in which every task sends without a pause. -/
theorem exec_atOnce {s s' : Lobby} {labels : List Lobby.Label}
    (hrun : Lobby.machine.exec s labels = some s') :
    machine.exec ⟨s, fun _ => []⟩ (atOnce s labels) = some ⟨s', fun _ => []⟩ := by
  induction labels generalizing s with
  | nil =>
      obtain rfl : s = s' := by simpa [Machine.exec] using hrun
      rfl
  | cons l labels ih =>
      obtain ⟨next, hstep, hrest⟩ := Option.bind_eq_some_iff.mp hrun
      have hlobby : s.step l = some next := hstep
      rw [atOnce, hlobby, Option.map_some, Option.getD_some]
      refine (Machine.exec_append ?_).trans (ih hrest)
      cases htask : l.sender with
      | none =>
          have hserver : machine.step ⟨s, fun _ => []⟩ (.server l) = some ⟨next, fun _ => []⟩ := by
            change server _ l = _
            simp only [server, htask, hlobby, Option.map_some]
          rw [Option.map_none, Option.getD_none, Machine.exec, hserver]
          rfl
      | some task =>
          have hidle : ∀ letters : List (SocketId × ServerMessage),
              Function.update (Function.update (fun _ => []) task letters) task [] =
                fun _ => ([] : List (SocketId × ServerMessage)) := fun letters => by
            rw [Function.update_idem, Function.update_eq_self_iff]
          rw [Option.map_some, Option.getD_some, Machine.exec,
            step_begins (s := ⟨s, fun _ => []⟩) htask rfl hlobby, Option.bind_some,
            exec_sends (Function.update_self ..), hidle, ← Lobby.outboxes_of_step hlobby htask]

/-- A state of the lobby server is reached with nothing left to send. -/
theorem reachable_atOnce {s : Lobby} {labels : List Lobby.Label}
    (hrun : Lobby.machine.exec Lobby.machine.init labels = some s) :
    machine.Reachable ⟨s, fun _ => []⟩ :=
  Machine.reachable_of_exec (exec_atOnce hrun)

/-! ## Players and handlers -/

/-- What a handler knows of players and connections does not depend on what the queues hold. -/
structure Kept (s : Sending) : Prop where
  sound : s.lobby.roster.Sound
  attended : s.lobby.Attended

theorem kept_step {l : Label} (hk : s.Kept) (hstep : s.step l = some s') : s'.Kept := by
  cases takes_of_step hstep with
  | apart _ hlobby =>
      obtain ⟨hsound, hattended⟩ := hk
      exact ⟨hsound.step (Lobby.effect_of_step hlobby), (Lobby.fed_step hattended hlobby).1⟩
  | @begins l task lobby htask _ hlobby =>
      obtain ⟨hsound, hattended⟩ := hk
      have hsound' : lobby.roster.Sound := hsound.step (Lobby.effect_of_step hlobby)
      refine ⟨hsound', (Lobby.fed_step hattended hlobby).1.of_players rfl (fun c => ?_) id⟩
      rw [Lobby.outboxes_of_step hlobby htask, isSome_mail]
  | sends _ =>
      refine ⟨hk.sound, hk.attended.of_players rfl (fun c => ?_) id⟩
      exact (isSome_mail : ((mail s.lobby.outboxes [_]).get? c).isSome = _)

theorem kept_of_reachable (h : machine.Reachable s) : s.Kept :=
  h.invariant (I := Kept) ⟨Lobby.sound_start, Lobby.attended_start⟩
    fun _ _ _ _ hk hstep => kept_step hk hstep

variable {c : SocketId} {h h' : Handler}

/-- A handler in its receive loop whose player is in the lobby: the player is connected, and
its messages go to the handler's own queue. -/
theorem Kept.own_player {p : ConnectedPlayer} (hk : s.Kept)
    (hc : s.lobby.sockets.get? c = some (.running h)) (hloop : h.pc.inLoop = true)
    (hp : s.lobby.app.players.get? h.playerId = some p) : p.online = true ∧ p.tx = c := by
  obtain ⟨hs, ha⟩ := hk
  have hparty := Lobby.parties_roster hc
  have hout : h.party.stage ≠ .outside := by
    refine HandlerStage.ne_outside_of_inLoop ?_
    rw [← hloop]
    exact HandlerPc.inLoop_stage h.pc
  constructor
  · obtain ⟨c', P, hP, hid, hregistered, hpresent⟩ := hs.owned hp
    obtain rfl := hs.unique hP hparty (hs.ne_outside hP hregistered) hout hid
    obtain rfl : P = h.party := Option.some.inj (hP.symm.trans hparty)
    have hnone := hpresent.mpr (by
      simp only [HandlerStage.present, Handler.party, HandlerPc.inLoop_stage, hloop,
        Bool.true_or])
    simp [ConnectedPlayer.online, hnone]
  · obtain ⟨k, hk, hid⟩ := ha.tx hp
    have hkparty := Lobby.parties_roster hk
    have hkout : k.party.stage ≠ .outside := by
      intro hstage
      cases hpc : k.pc <;> simp [Handler.party, hpc, HandlerPc.stage] at hstage
    exact hs.unique hkparty hparty hkout hout hid

/-- The handler of a connection as a thread: its locals, and what it has still to send. -/
def thread (s : Sending) (c : SocketId) : Option (Handler × List (SocketId × ServerMessage)) :=
  (s.lobby.handler c).map (·, s.owed (.socket c))

/-- The step is one of the handler's own. -/
def isOwn (c : SocketId) (s : Sending) : Label → Bool
  | .server l => Lobby.isOwn c s.lobby l
  | .send task => task = .socket c

theorem thread_eq_some {letters : List (SocketId × ServerMessage)} :
    s.thread c = some (h, letters) ↔
      s.lobby.handler c = some h ∧ s.owed (.socket c) = letters := by
  simp [thread]

/-- Nobody else touches the locals of a handler, or sends for it. -/
theorem isolates (c : SocketId) : machine.Isolates (·.thread c) (isOwn c) where
  moved := by
    intro s l s' v hstep hv hown
    obtain ⟨h, letters⟩ := v
    obtain ⟨hc, _⟩ := thread_eq_some.mp hv
    cases takes_of_step hstep with
    | apart htask _ =>
        rw [isOwn, Lobby.isOwn_iff, htask] at hown
        cases hown
    | begins _ _ hlobby =>
        obtain ⟨h', hc'⟩ := (Lobby.isolates c).moved hlobby hc hown
        exact ⟨_, thread_eq_some.mpr ⟨hc', rfl⟩⟩
    | sends _ => exact ⟨_, thread_eq_some.mpr ⟨hc, rfl⟩⟩
  kept := by
    intro s l s' v hstep hv hother
    obtain ⟨h, letters⟩ := v
    obtain ⟨hc, howed⟩ := thread_eq_some.mp hv
    have hne : ∀ {task : Sender}, task ≠ .socket c → ∀ letters',
        Function.update s.owed task letters' (.socket c) = letters := fun hne letters' => by
      rw [Function.update_of_ne (Ne.symm hne), howed]
    cases takes_of_step hstep with
    | apart _ hlobby => exact thread_eq_some.mpr ⟨(Lobby.isolates c).kept hlobby hc hother, howed⟩
    | @begins l task lobby htask _ hlobby =>
        have hc' : lobby.handler c = some h := (Lobby.isolates c).kept hlobby hc hother
        refine thread_eq_some.mpr ⟨hc', hne ?_ _⟩
        rintro rfl
        rw [isOwn, Lobby.isOwn_iff.mpr htask] at hother
        cases hother
    | sends _ => exact thread_eq_some.mpr ⟨hc, hne (by simpa [isOwn] using hother) _⟩

/-! ## The steps of a handler -/

/-- The steps that the handler of `c` takes in a run. -/
def ownSteps (c : SocketId) (s : Sending) (labels : List Label) : List (Stride Sending Label) :=
  machine.strides (isOwn c) s labels

/-- What the queue of `c` takes in a step. -/
def sentTo (c : SocketId) (t : Stride Sending Label) : List ServerMessage :=
  (accepted t.after.lobby.outboxes c).drop (accepted t.before.lobby.outboxes c).length

/-- The handler of `c` runs a block. -/
structure RunsBlock (c : SocketId) (t : Stride Sending Label) (fresh : String) (h h' : Handler)
    (lobby : Lobby) : Prop where
  label : t.label = .server (.block c fresh)
  before : t.before.lobby.sockets.get? c = some (.running h)
  after : t.after.lobby.sockets.get? c = some (.running h')
  step : t.before.lobby.block c h fresh = some lobby
  sendsLater : t.after.lobby = { lobby with outboxes := t.before.lobby.outboxes }

/-- The handler of `c` sends the letter. -/
structure Sends (c : SocketId) (t : Stride Sending Label) (letter : SocketId × ServerMessage) :
    Prop where
  label : t.label = .send (.socket c)
  owed : (t.before.owed (.socket c)).head? = some letter
  offers : t.after.lobby = t.before.lobby.trySend letter.1 letter.2

/-- The receive loop of the handler of `c` is dropped. -/
structure Drops (c : SocketId) (t : Stride Sending Label) (h : Handler) : Prop where
  label : t.label = .server (.drop c)
  before : t.before.lobby.sockets.get? c = some (.running h)
  exits : t.after.lobby = t.before.lobby.put c h.exit

/-- The handler of `c`, with these letters to send, goes on until it stands outside of `inside`:
it sends what it owes, then runs a block, or its loop is dropped.  `P` holds of its blocks and
drops. -/
inductive Course (c : SocketId) (inside : HandlerPc → Bool) (P : Stride Sending Label → Prop) :
    Handler → List (SocketId × ServerMessage) → List (Stride Sending Label) → Prop
  | ends {h : Handler} (hpc : inside h.pc = false) : Course c inside P h [] []
  | block {h h' : Handler} {t : Stride Sending Label} {fresh : String} {lobby : Lobby}
      {rest : List (Stride Sending Label)} (hpc : inside h.pc = true) (ht : P t)
      (hblock : RunsBlock c t fresh h h' lobby)
      (hrest : Course c inside P h' (t.before.lobby.blockLetters c h) rest) :
      Course c inside P h [] (t :: rest)
  | send {h : Handler} {t : Stride Sending Label} {letter : SocketId × ServerMessage}
      {letters : List (SocketId × ServerMessage)} {rest : List (Stride Sending Label)}
      (hsend : Sends c t letter) (hrest : Course c inside P h letters rest) :
      Course c inside P h (letter :: letters) (t :: rest)
  | drop {h : Handler} {t : Stride Sending Label} {rest : List (Stride Sending Label)}
      (hpc : inside h.pc = true) (ht : P t) (hdrop : Drops c t h)
      (hrest : Course c inside P h.exit [] rest) : Course c inside P h [] (t :: rest)

variable {t : Stride Sending Label} {letter : SocketId × ServerMessage} {lobby : Lobby}
  {fresh : String} {letters letters' : List (SocketId × ServerMessage)}

namespace RunsBlock

theorem app (hb : RunsBlock c t fresh h h' lobby) : t.after.lobby.app = lobby.app := by
  rw [hb.sendsLater]

theorem tunnel (hb : RunsBlock c t fresh h h' lobby) : t.after.lobby.tunnel = lobby.tunnel := by
  rw [hb.sendsLater]

theorem handler (hb : RunsBlock c t fresh h h' lobby) : t.before.lobby.handler c = some h :=
  Lobby.handler_eq_some.mpr hb.before

/-- A block that stores locals of the handler says where the handler stands. -/
theorem eq_of_put (hb : RunsBlock c t fresh h h' lobby) {k : Handler}
    (hsockets : lobby.sockets = (t.before.lobby.put c k).sockets) : h' = k :=
  Lobby.eq_of_put hb.before hb.after (by rw [hb.sendsLater, hsockets])

/-- A block itself sends nothing. -/
theorem silent (hb : RunsBlock c t fresh h h' lobby) (tx : SocketId) : sentTo tx t = [] := by
  rw [sentTo, hb.sendsLater, List.drop_length]

end RunsBlock

theorem Drops.silent (hd : Drops c t h) (tx : SocketId) : sentTo tx t = [] := by
  rw [sentTo, hd.exits]
  exact List.drop_length

namespace Sends

/-- The queue takes the letter that is addressed to it if it has a free place. -/
theorem sentTo_eq (hs : Sends c t letter) (tx : SocketId) :
    sentTo tx t = (addressed [letter] tx).take (freeSlots t.before.lobby.outboxes tx) := by
  have hafter : t.after.lobby.outboxes = offer t.before.lobby.outboxes letter.1 letter.2 := by
    rw [hs.offers]
    rfl
  rw [sentTo, hafter, accepted_offer, List.drop_left]

theorem mem_sentTo (hs : Sends c t letter) {tx : SocketId} {m : ServerMessage} :
    m ∈ sentTo tx t ↔ letter = (tx, m) ∧ 0 < freeSlots t.before.lobby.outboxes tx := by
  rw [hs.sentTo_eq]
  obtain ⟨tx', m'⟩ := letter
  by_cases htx : tx' = tx
  · cases hfree : freeSlots t.before.lobby.outboxes tx with
    | zero => simp
    | succ n => simp [addressed, htx, eq_comm]
  · simp [addressed, htx]

theorem owed_eq (hs : Sends c t letter) : ∃ rest, t.before.owed (.socket c) = letter :: rest :=
  List.head?_eq_some_iff.mp hs.owed

end Sends

/-! ### What a step of a handler is -/

/-- The handler of `c`, in `h` with `letters` to send, takes the step `t`. -/
inductive Acts (c : SocketId) (t : Stride Sending Label) (h : Handler) :
    List (SocketId × ServerMessage) → Handler → List (SocketId × ServerMessage) → Prop
  | reads {h' : Handler} {letters' : List (SocketId × ServerMessage)} (hpc : h.pc = .receiving) :
      Acts c t h [] h' letters'
  | block {fresh : String} {h' : Handler} {lobby : Lobby}
      (hblock : RunsBlock c t fresh h h' lobby) :
      Acts c t h [] h' (t.before.lobby.blockLetters c h)
  | drop (hdrop : Drops c t h) : Acts c t h [] h.exit []
  | send {letter : SocketId × ServerMessage} {letters : List (SocketId × ServerMessage)}
      (hsend : Sends c t letter) : Acts c t h (letter :: letters) h letters

/-- A step of the server that the handler of `c` takes. -/
theorem acts_of_own {l : Lobby.Label} (hstep : t.before.lobby.step l = some lobby)
    (hown : Lobby.isOwn c t.before.lobby l = true) (hlabel : t.label = .server l)
    (hafter : t.after.lobby = { lobby with outboxes := t.before.lobby.outboxes })
    (hbefore : t.before.lobby.handler c = some h) (hc' : t.after.lobby.handler c = some h') :
    Acts c t h [] h' (t.before.lobby.letters l) := by
  rw [Lobby.handler_eq_some] at hbefore hc'
  cases l with
  | frame c' item =>
      obtain rfl : c' = c := by simpa [Lobby.isOwn] using hown
      obtain ⟨k, hk, hframe⟩ := Lobby.whenRunning_eq_some hstep
      obtain rfl : h = k := by simpa [hk] using hbefore.symm
      split at hframe
      · next hpc => exact .reads hpc
      · cases hframe
  | block c' fresh =>
      obtain rfl : c' = c := by simpa [Lobby.isOwn] using hown
      obtain ⟨k, hk, hblock⟩ := Lobby.whenRunning_eq_some hstep
      obtain rfl : h = k := by simpa [hk] using hbefore.symm
      have hletters : t.before.lobby.letters (.block c' fresh) =
          t.before.lobby.blockLetters c' h := by
        simp [Lobby.letters, Lobby.handler_eq_some.mpr hk]
      rw [hletters]
      exact .block ⟨hlabel, hk, hc', hblock, hafter⟩
  | drop c' =>
      obtain rfl : c' = c := by simpa [Lobby.isOwn] using hown
      obtain ⟨k, hk, hdrop⟩ := Lobby.whenRunning_eq_some hstep
      obtain rfl : h = k := by simpa [hk] using hbefore.symm
      split at hdrop
      · cases hdrop
        have hexits : t.after.lobby = t.before.lobby.put c' h.exit := hafter
        obtain rfl := Lobby.eq_of_put hk hc' (by rw [hexits])
        exact .drop ⟨hlabel, hk, hexits⟩
      · cases hdrop
  | _ => simp [Lobby.isOwn] at hown

theorem acts_of_step (hstep : machine.step t.before t.label = some t.after)
    (hown : isOwn c t.before t.label = true) (hv : t.before.thread c = some (h, letters))
    (hv' : t.after.thread c = some (h', letters')) : Acts c t h letters h' letters' := by
  obtain ⟨hc, howed⟩ := thread_eq_some.mp hv
  obtain ⟨hc', howed'⟩ := thread_eq_some.mp hv'
  obtain ⟨before, label, after⟩ := t
  have htakes : Takes before label after := takes_of_step hstep
  cases htakes with
  | apart htask _ =>
      rw [isOwn, Lobby.isOwn_iff, htask] at hown
      cases hown
  | @begins l task lobby htask hidle hlobby =>
      obtain rfl : Sender.socket c = task :=
        Option.some.inj ((Lobby.isOwn_iff (s := before.lobby)).mp hown |>.symm.trans htask)
      obtain rfl : letters = [] := howed.symm.trans hidle
      obtain rfl : letters' = before.lobby.letters l :=
        howed'.symm.trans (Function.update_self ..)
      exact acts_of_own hlobby hown rfl rfl hc hc'
  | @sends task letter rest hletter =>
      obtain rfl : task = .socket c := by simpa [isOwn] using hown
      obtain rfl : letters = letter :: rest := howed.symm.trans hletter
      obtain rfl : letters' = rest := howed'.symm.trans (Function.update_self ..)
      obtain rfl : h' = h := Option.some.inj (hc'.symm.trans hc)
      exact .send ⟨rfl, by rw [hletter]; rfl, rfl⟩

/-! ### Courses -/

section Courses

variable {inside : HandlerPc → Bool} {P : Stride Sending Label → Prop}
  {steps : List (Stride Sending Label)}

/-- A chain of steps inside of `inside` is a course. -/
theorem course_of_chain
    (hchain : machine.Chain (·.thread c) (isOwn c) (h, letters) steps (h', []))
    (hdone : inside h'.pc = false) (hreceiving : inside .receiving = false)
    (hduring : ∀ t ∈ steps, ∀ h, t.before.thread c = some (h, []) → inside h.pc = true)
    (hP : ∀ t ∈ steps, P t) : Course c inside P h letters steps := by
  generalize hv : (h, letters) = v, hw : (h', ([] : List (SocketId × ServerMessage))) = w at hchain
  induction hchain generalizing h letters with
  | nil =>
      obtain ⟨rfl, rfl⟩ := Prod.mk.inj (hv.trans hw.symm)
      exact .ends hdone
  | @cons v v' _ t rest hown hstep hc hc' _ ih =>
      subst hv
      obtain ⟨k, letters'⟩ := v'
      rw [List.forall_mem_cons] at hduring hP
      have hrest : Course c inside P k letters' rest := ih hduring.2 hP.2 rfl hw
      cases acts_of_step hstep hown hc hc' with
      | reads hpc =>
          have hinside := hduring.1 h hc
          rw [hpc, hreceiving] at hinside
          cases hinside
      | block hblock => exact .block (hduring.1 h hc) hP.1 hblock hrest
      | drop hdrop => exact .drop (hduring.1 h hc) hP.1 hdrop hrest
      | send hsend => exact .send hsend hrest

/-- Nothing is left of a course that is over. -/
theorem Course.eq_nil (hcourse : Course c inside P h [] steps) (hpc : inside h.pc = false) :
    steps = [] := by
  cases hcourse with
  | ends => rfl
  | block hinside | drop hinside =>
      rw [hpc] at hinside
      cases hinside

/-- What the handler owes is sent first. -/
theorem Course.sent (hcourse : Course c inside P h letters steps) :
    ∃ sent rest, steps = sent ++ rest ∧ List.Forall₂ (Sends c) sent letters ∧
      Course c inside P h [] rest := by
  induction letters generalizing steps with
  | nil => exact ⟨[], steps, rfl, .nil, hcourse⟩
  | cons letter letters ih =>
      cases hcourse with
      | @send _ t _ _ rest hsend hrest =>
          obtain ⟨sent, rest, rfl, hall, hlater⟩ := ih hrest
          exact ⟨t :: sent, rest, rfl, .cons hsend hall, hlater⟩

/-- A handler that is over sends what it owes, and that is all. -/
theorem Course.sent_of_over (hcourse : Course c inside P h letters steps)
    (hpc : inside h.pc = false) : List.Forall₂ (Sends c) steps letters := by
  obtain ⟨sent, rest, rfl, hall, hrest⟩ := hcourse.sent
  rw [hrest.eq_nil hpc, List.append_nil]
  exact hall

end Courses

end Sending

end War3BattleTool.Server
