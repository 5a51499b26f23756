import War3BattleTool.Server.Outboxes

set_option autoImplicit false

/-!
# Who is told what about tunnels

Some messages bring a client an address or a token (`isNews`).  Two blocks send them: the
second block of `register_token`, to both parties of a join, and the second block of
`UPnPMapped`, to one joiner.  `tells_of_step` says so of every step of the server.
-/

namespace War3BattleTool.Server

open War3BattleTool.Foundation War3BattleTool.Protocol

/-- The message brings an address or a token. -/
def isNews : ServerMessage → Bool
  | .stunInfo _ | .peerUPnPAddr _ | .playerJoined _ _ | .tunnelReady _ => true
  | .joinResult success _ _ _ => success
  | _ => false

/-- No letter brings news. -/
def noNews (letters : List (SocketId × ServerMessage)) : Bool :=
  letters.all fun letter => !isNews letter.2

/-- The next block of the handler sends news. -/
def HandlerPc.tells : HandlerPc → Bool
  | .upnpForward _ _ | .joinRegisterBinding _ _ => true
  | _ => false

namespace Lobby

/-- The letter of `upnpForward`, to the joiner if it is online. -/
def forwardLetters (s : Lobby) (externalAddr joinerPlayerId : String) :
    List (SocketId × ServerMessage) :=
  ((s.app.players.values.find? fun p => p.playerId = joinerPlayerId && p.online).map fun p =>
    (p.tx, .peerUPnPAddr externalAddr)).toList

/-- The step mails letters that bring no news. -/
def KeepsQuiet (s s' : Lobby) : Prop :=
  ∃ letters, noNews letters = true ∧ s'.outboxes = mail s.outboxes letters

variable {s s' : Lobby} {c : SocketId} {h : Handler}

/-- Nothing is mailed. -/
theorem keepsQuiet_of_eq (houtboxes : s'.outboxes = s.outboxes) : KeepsQuiet s s' :=
  ⟨[], rfl, houtboxes⟩

/-- One letter is mailed. -/
theorem keepsQuiet_of_trySend {tx : SocketId} {m : ServerMessage} (hm : isNews m = false)
    (houtboxes : s'.outboxes = offer s.outboxes tx m) : KeepsQuiet s s' :=
  ⟨[(tx, m)], by simp [noNews, hm], houtboxes⟩

theorem keepsQuiet_broadcast (houtboxes : s'.outboxes = s.app.broadcastState s.outboxes) :
    KeepsQuiet s s' := by
  refine ⟨s.app.broadcastLetters, ?_, houtboxes.trans (s.app.broadcastState_eq s.outboxes)⟩
  rw [noNews, List.all_eq_true]
  intro letter hletter
  rcases AppState.mem_broadcastLetters hletter with heq | heq <;> rw [heq] <;> rfl

theorem keepsQuiet_registerInsert (nickname : String) (war3Version : War3Version)
    (lastHeartbeat : Instant) :
    KeepsQuiet s (s.registerInsert c h nickname war3Version lastHeartbeat) := by
  dsimp only [registerInsert]
  split
  · exact keepsQuiet_of_trySend rfl rfl
  · exact ⟨[(c, .welcome h.playerId), (c, .yourObservedAddr h.clientIp)], rfl, rfl⟩

theorem keepsQuiet_joinPlayers (quote : JoinQuote) : KeepsQuiet s (s.joinPlayers c h quote) := by
  unfold joinPlayers
  split
  · exact keepsQuiet_of_eq rfl
  · split
    · exact keepsQuiet_of_trySend rfl rfl
    · split
      · exact keepsQuiet_of_eq rfl
      · exact keepsQuiet_of_trySend rfl rfl

theorem keepsQuiet_leaving : KeepsQuiet s (s.leaving c h) := by
  unfold leaving
  split
  · split <;> exact keepsQuiet_of_eq rfl
  · exact keepsQuiet_of_eq rfl

/-- Two blocks of a handler send news. -/
theorem keepsQuiet_block {fresh : String} (hstep : s.block c h fresh = some s')
    (hquiet : h.pc.tells = false) : KeepsQuiet s s' := by
  have harm := arm_of_block hstep
  generalize h.pc = pc at harm hquiet
  cases harm with
  | upnpForward | joinRegisterBinding => cases hquiet
  | broadcast | finalBroadcast => exact keepsQuiet_broadcast rfl
  | registerInsert nickname war3Version lastHeartbeat =>
      exact keepsQuiet_registerInsert nickname war3Version lastHeartbeat
  | joinPlayers quote => exact keepsQuiet_joinPlayers quote
  | leaving => exact keepsQuiet_leaving
  | createInsert draft hstep =>
      unfold createInsert at hstep
      split at hstep <;> cases hstep
      exact keepsQuiet_of_eq rfl
  | joinRegisterPending ticket hstep =>
      obtain ⟨tunnel, _, rfl⟩ := Option.map_eq_some_iff.mp hstep
      exact keepsQuiet_of_eq rfl
  | registerCount nickname war3Version =>
      unfold registerCount
      split
      · exact keepsQuiet_of_trySend rfl rfl
      · exact keepsQuiet_of_eq rfl
  | createRead request =>
      unfold createRead
      split
      · split
        · exact keepsQuiet_of_trySend rfl rfl
        · exact keepsQuiet_of_eq rfl
      · exact keepsQuiet_of_eq rfl
  | createCount draft =>
      unfold createCount
      split
      · exact keepsQuiet_of_trySend rfl rfl
      · exact keepsQuiet_of_eq rfl
  | joinRoom roomId =>
      unfold joinRoom
      split
      · exact keepsQuiet_of_eq rfl
      · exact keepsQuiet_of_trySend rfl rfl
  | joinReserve ticket =>
      unfold joinReserve
      split
      · exact keepsQuiet_of_eq rfl
      · exact keepsQuiet_of_trySend rfl rfl
  | joinRecord ticket =>
      dsimp only [joinRecord]
      split <;> exact keepsQuiet_of_eq rfl
  | _ => exact keepsQuiet_of_eq rfl

theorem keepsQuiet_dispatch (m : ValidMessage) (externalIp : Option IpAddr) :
    KeepsQuiet s (s.dispatch c h m externalIp) := by
  have hdispatched := dispatched s c h m externalIp
  generalize s.dispatch c h m externalIp = s' at hdispatched ⊢
  cases hdispatched with
  | refused | answered => exact keepsQuiet_of_trySend rfl rfl
  | _ => exact keepsQuiet_of_eq rfl

theorem keepsQuiet_frame (item : Incoming) : KeepsQuiet s (s.frame c h item) := by
  have hframed := framed s c h item
  generalize s.frame c h item = s' at hframed ⊢
  cases hframed with
  | tooLong | refused => exact keepsQuiet_of_trySend rfl rfl
  | passed m => exact keepsQuiet_dispatch (s := s.put c (s.counted h)) m _
  | _ => exact keepsQuiet_of_eq rfl

/-! ## Steps -/

/-- The queue of every connection takes messages that bring no news, or is a new one. -/
def HearsNoNews (s s' : Lobby) : Prop :=
  ∀ c, accepted s'.outboxes c = [] ∨
    ∃ new, accepted s'.outboxes c = accepted s.outboxes c ++ new ∧ ∀ m ∈ new, isNews m = false

theorem KeepsQuiet.hearsNoNews (h : KeepsQuiet s s') : HearsNoNews s s' := by
  obtain ⟨letters, hletters, houtboxes⟩ := h
  refine fun c => .inr ⟨_, by rw [houtboxes, accepted_mail], fun m hm => ?_⟩
  have hletter := List.all_eq_true.mp hletters (c, m) (mem_addressed.mp (List.mem_of_mem_take hm))
  simpa using hletter

theorem hearsNoNews_of_accepted
    (h : ∀ c, accepted s'.outboxes c = [] ∨ accepted s'.outboxes c = accepted s.outboxes c) :
    HearsNoNews s s' :=
  fun c => (h c).imp_right fun heq => ⟨[], by rw [heq, List.append_nil], by simp⟩

/-- Who tells what in a step. -/
inductive Tells (s s' : Lobby) : Label → Prop
  | nothing {l : Label} (hquiet : HearsNoNews s s') : Tells s s' l
  | parties {c : SocketId} {fresh token : String} {h : Handler} {ticket : JoinTicket}
      (hc : s.sockets.get? c = some (.running h)) (hpc : h.pc = .joinRegisterBinding ticket token)
      (houtboxes : s'.outboxes = mail s.outboxes (joinLetters c h ticket token)) :
      Tells s s' (.block c fresh)
  | joiner {c : SocketId} {fresh externalAddr joinerPlayerId : String} {h : Handler}
      (hc : s.sockets.get? c = some (.running h))
      (hpc : h.pc = .upnpForward externalAddr joinerPlayerId)
      (houtboxes : s'.outboxes = mail s.outboxes (s.forwardLetters externalAddr joinerPlayerId)) :
      Tells s s' (.block c fresh)

theorem outboxes_upnpForward (externalAddr joinerPlayerId : String) :
    (s.upnpForward c h externalAddr joinerPlayerId).outboxes =
      mail s.outboxes (s.forwardLetters externalAddr joinerPlayerId) := by
  dsimp only [upnpForward, forwardLetters, goto, put]
  cases s.app.players.values.find? fun p => p.playerId = joinerPlayerId && p.online <;> rfl

theorem tells_block {fresh : String} (hc : s.sockets.get? c = some (.running h))
    (hstep : s.block c h fresh = some s') : Tells s s' (.block c fresh) := by
  cases htells : h.pc.tells with
  | false => exact .nothing (keepsQuiet_block hstep htells).hearsNoNews
  | true =>
      unfold block at hstep
      cases hpc : h.pc with
      | joinRegisterBinding ticket token =>
          simp only [hpc] at hstep
          obtain ⟨tunnel, _, rfl⟩ := Option.map_eq_some_iff.mp hstep
          exact .parties hc hpc rfl
      | upnpForward externalAddr joinerPlayerId =>
          simp only [hpc, Option.some.injEq] at hstep
          refine .joiner hc hpc ?_
          rw [← hstep]
          exact outboxes_upnpForward externalAddr joinerPlayerId
      | _ =>
          rw [hpc] at htells
          cases htells

/-- Two blocks of a handler send news; no other step of the server does. -/
theorem tells_of_step {l : Label} (hstep : s.step l = some s') : Tells s s' l := by
  cases l with
  | elapse d =>
      cases hstep
      exact .nothing (keepsQuiet_of_eq rfl).hearsNoNews
  | tunnel l =>
      simp only [step] at hstep
      split at hstep
      · obtain ⟨tunnel, _, rfl⟩ := Option.map_eq_some_iff.mp hstep
        exact .nothing (keepsQuiet_of_eq rfl).hearsNoNews
      · cases hstep
  | request c originOk clientIp =>
      simp only [step, request] at hstep
      split at hstep
      · cases hstep
      · split at hstep <;> cases hstep <;> exact .nothing (keepsQuiet_of_eq rfl).hearsNoNews
  | upgrade c playerId =>
      simp only [step] at hstep
      split at hstep
      · split at hstep
        · unfold upgraded at hstep
          split at hstep <;> cases hstep
          refine .nothing (hearsNoNews_of_accepted fun c' => ?_)
          simp only [accepted, put, Table.get?_insert]
          split
          · exact .inl rfl
          · exact .inr rfl
        · cases hstep
          exact .nothing (keepsQuiet_of_eq rfl).hearsNoNews
      · cases hstep
  | frame c item =>
      obtain ⟨h, _, hstep⟩ := whenRunning_eq_some hstep
      split at hstep <;> cases hstep
      exact .nothing (keepsQuiet_frame item).hearsNoNews
  | block c fresh =>
      obtain ⟨h, hc, hstep⟩ := whenRunning_eq_some hstep
      exact tells_block hc hstep
  | drop c =>
      obtain ⟨h, _, hstep⟩ := whenRunning_eq_some hstep
      split at hstep <;> cases hstep
      exact .nothing (keepsQuiet_of_eq rfl).hearsNoNews
  | sent c ok =>
      obtain ⟨o, ho, hstep⟩ := Option.bind_eq_some_iff.mp hstep
      obtain ⟨o', hpop, rfl⟩ := Option.map_eq_some_iff.mp hstep
      exact .nothing (hearsNoNews_of_accepted fun c' => .inr (accepted_pop ho hpop c'))
  | cleanup =>
      simp only [step, cleanupStep] at hstep
      split at hstep
      · split at hstep <;> cases hstep
        exact .nothing (keepsQuiet_of_eq rfl).hearsNoNews
      · cases hstep
        exact .nothing (keepsQuiet_of_eq rfl).hearsNoNews
      · cases hstep
        exact .nothing (keepsQuiet_of_eq rfl).hearsNoNews
      · cases hstep
        exact .nothing (keepsQuiet_broadcast rfl).hearsNoNews
      · cases hstep
        exact .nothing (keepsQuiet_of_eq rfl).hearsNoNews
      · cases hstep
        exact .nothing (keepsQuiet_of_eq rfl).hearsNoNews

end Lobby

end War3BattleTool.Server
