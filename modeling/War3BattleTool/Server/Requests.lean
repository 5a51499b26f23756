import War3BattleTool.Server.Sends

set_option autoImplicit false

/-!
# Requests and their answers

A client that asks to join or to create a room waits until one of a few messages comes.  The
handler sends its messages one by one, and everybody else may send, or empty a queue, between two
of them.  It answers every such request, except where it overlooks one (`overlooks`): a test that
drops the request in silence, or a `try_send` of the answer that finds no free place.
-/

namespace War3BattleTool.Server

open War3BattleTool.Foundation War3BattleTool.Protocol

theorem Lobby.check_eq_ok {m : ClientMessage} (hvalid : m.validate = .ok ()) :
    m.check = .ok ⟨m, hvalid⟩ := by
  unfold ClientMessage.check
  split
  · rfl
  · next hfails =>
    rw [hvalid] at hfails
    cases hfails

/-- The handler is in the middle of a message, or its loop has ended. -/
def HandlerPc.busy : HandlerPc → Bool
  | .receiving => false
  | _ => true

theorem HandlerPc.busy_eq_false {pc : HandlerPc} : pc.busy = false ↔ pc = .receiving := by
  cases pc <;> simp [busy]

namespace Sending

/-! ## Answers -/

/-- The message settles the request: it lets the client leave the state in which it waits for
an answer.  The only room list that the handler of a `CreateRoom` sends follows the creation. -/
def settles : ClientMessage → ServerMessage → Bool
  | .joinRoom _, .joinResult _ _ _ _ | .joinRoom _, .error _ => true
  | .createRoom _ _ _ _, .error _ | .createRoom _ _ _ _, .roomUpdate _ => true
  | _, _ => false

/-- The steps send the client a message that settles its request. -/
def Answers (m : ClientMessage) (c : SocketId) (steps : List (Stride Sending Label)) : Prop :=
  ∃ t ∈ steps, ∃ reply ∈ sentTo c t, settles m reply = true

/-- The handler is about to drop the request: its connection may not make one, or its player is
not in the lobby any more. -/
def misses (m : ClientMessage) (s : Lobby) (h : Handler) : Bool :=
  let missing := (s.app.players.get? h.playerId).isNone
  match h.pc with
  | .receiving => !h.registered || h.isWebViewer
  | .createRead _ | .joinPlayers _ => missing
  | .broadcast =>
      match m with
      | .createRoom _ _ _ _ => missing
      | _ => false
  | _ => false

/-- The handler is about to send the answer, and there is no free place for it. -/
def fails (m : ClientMessage) (s : Sending) (c : SocketId) : Bool :=
  match s.owed (.socket c) with
  | (tx, reply) :: _ => tx = c && settles m reply && freeSlots s.lobby.outboxes c = 0
  | [] => false

/-- The handler is about to overlook the request in the step with this label. -/
def overlooks (m : ClientMessage) (s : Sending) (c : SocketId) : Label → Bool
  | .server _ => (s.lobby.handler c).any (misses m s.lobby)
  | .send _ => s.fails m c

/-- The handler overlooks the request in this step. -/
def Overlooks (m : ClientMessage) (c : SocketId) (t : Stride Sending Label) : Prop :=
  overlooks m t.before c t.label = true

instance (m : ClientMessage) (c : SocketId) (t : Stride Sending Label) :
    Decidable (Overlooks m c t) :=
  inferInstanceAs (Decidable (_ = true))

/-- The steps answer the request unless one of them overlooks it. -/
def Verdict (m : ClientMessage) (c : SocketId) (steps : List (Stride Sending Label)) : Prop :=
  Answers m c steps ↔ ∀ t ∈ steps, ¬ Overlooks m c t

/-- The steps have nothing to do with the request. -/
structure Idle (m : ClientMessage) (c : SocketId) (steps : List (Stride Sending Label)) : Prop where
  silent : ¬ Answers m c steps
  sees : ∀ t ∈ steps, ¬ Overlooks m c t

section Verdicts

variable {m : ClientMessage} {c : SocketId} {t : Stride Sending Label}
  {steps steps' : List (Stride Sending Label)}

theorem answers_append :
    Answers m c (steps ++ steps') ↔ Answers m c steps ∨ Answers m c steps' := by
  simp [Answers, or_and_right, exists_or]

theorem answers_singleton :
    Answers m c [t] ↔ ∃ reply ∈ sentTo c t, settles m reply = true := by
  simp [Answers]

theorem idle_nil : Idle m c [] := ⟨by simp [Answers], by simp⟩

theorem Idle.append (h : Idle m c steps) (h' : Idle m c steps') : Idle m c (steps ++ steps') where
  silent := by
    rw [answers_append, not_or]
    exact ⟨h.silent, h'.silent⟩
  sees := List.forall_mem_append.mpr ⟨h.sees, h'.sees⟩

/-- Idle steps before the others change nothing. -/
theorem Idle.verdict (h : Idle m c steps) (h' : Verdict m c steps') :
    Verdict m c (steps ++ steps') := by
  rw [Verdict, answers_append, List.forall_mem_append, or_iff_right h.silent,
    and_iff_right h.sees]
  exact h'

/-- Nor do idle steps behind them. -/
theorem Verdict.idle (h : Verdict m c steps) (h' : Idle m c steps') :
    Verdict m c (steps ++ steps') := by
  rw [Verdict, answers_append, List.forall_mem_append, or_iff_left h'.silent,
    and_iff_left h'.sees]
  exact h

end Verdicts

/-! ## Sends -/

section Letters

variable {m : ClientMessage} {c : SocketId} {t : Stride Sending Label}
  {letter : SocketId × ServerMessage} {letters : List (SocketId × ServerMessage)}
  {sent : List (Stride Sending Label)}

theorem Sends.overlooks_iff (hs : Sends c t letter) : Overlooks m c t ↔
    letter.1 = c ∧ settles m letter.2 = true ∧ freeSlots t.before.lobby.outboxes c = 0 := by
  obtain ⟨rest, howed⟩ := hs.owed_eq
  obtain ⟨tx, reply⟩ := letter
  simp [Overlooks, overlooks, fails, hs.label, howed, and_assoc]

theorem Sends.settles_iff (hs : Sends c t letter) : Answers m c [t] ↔
    letter.1 = c ∧ settles m letter.2 = true ∧ 0 < freeSlots t.before.lobby.outboxes c := by
  rw [answers_singleton]
  constructor
  · rintro ⟨reply, hreply, hsettles⟩
    obtain ⟨rfl, hfree⟩ := hs.mem_sentTo.mp hreply
    exact ⟨rfl, hsettles, hfree⟩
  · rintro ⟨rfl, hsettles, hfree⟩
    exact ⟨letter.2, hs.mem_sentTo.mpr ⟨rfl, hfree⟩, hsettles⟩

/-- The send of the answer decides. -/
theorem Sends.verdict (hs : Sends c t letter) (htx : letter.1 = c)
    (hsettles : settles m letter.2 = true) : Verdict m c [t] := by
  rw [Verdict, hs.settles_iff, List.forall_mem_singleton, hs.overlooks_iff]
  simp [htx, hsettles, Nat.pos_iff_ne_zero]

theorem Sends.idle (hs : Sends c t letter)
    (hother : ¬ (letter.1 = c ∧ settles m letter.2 = true)) : Idle m c [t] where
  silent := by
    rw [hs.settles_iff]
    exact fun ⟨htx, hsettles, _⟩ => hother ⟨htx, hsettles⟩
  sees := by
    rw [List.forall_mem_singleton, hs.overlooks_iff]
    exact fun ⟨htx, hsettles, _⟩ => hother ⟨htx, hsettles⟩

/-- The messages to the client that settle its request. -/
def settling (m : ClientMessage) (c : SocketId) (letters : List (SocketId × ServerMessage)) :
    List ServerMessage :=
  (addressed letters c).filter (settles m)

theorem settling_cons_of_settles (htx : letter.1 = c) (hsettles : settles m letter.2 = true) :
    settling m c (letter :: letters) = letter.2 :: settling m c letters := by
  simp [settling, addressed, htx, hsettles]

theorem settling_cons_of_not (hother : ¬ (letter.1 = c ∧ settles m letter.2 = true)) :
    settling m c (letter :: letters) = settling m c letters := by
  by_cases htx : letter.1 = c
  · have hsettles : ¬ settles m letter.2 = true := fun h => hother ⟨htx, h⟩
    simp [settling, addressed, htx, hsettles]
  · simp [settling, addressed, htx]

/-- Letters that do not settle the request have nothing to do with it. -/
theorem idle_sent (hsent : List.Forall₂ (Sends c) sent letters)
    (hnone : settling m c letters = []) : Idle m c sent := by
  induction hsent with
  | nil => exact idle_nil
  | @cons t letter sent letters hs _ ih =>
      by_cases hsettles : letter.1 = c ∧ settles m letter.2 = true
      · rw [settling_cons_of_settles hsettles.1 hsettles.2] at hnone
        cases hnone
      · rw [settling_cons_of_not hsettles] at hnone
        exact (hs.idle hsettles).append (ih hnone)

/-- One of the letters is the answer. -/
theorem verdict_sent {reply : ServerMessage} (hsent : List.Forall₂ (Sends c) sent letters)
    (hone : settling m c letters = [reply]) : Verdict m c sent := by
  induction hsent with
  | nil => simp [settling, addressed] at hone
  | @cons t letter sent letters hs hrest ih =>
      by_cases hsettles : letter.1 = c ∧ settles m letter.2 = true
      · rw [settling_cons_of_settles hsettles.1 hsettles.2] at hone
        exact (hs.verdict hsettles.1 hsettles.2).idle (idle_sent hrest (List.cons.inj hone).2)
      · rw [settling_cons_of_not hsettles] at hone
        exact (hs.idle hsettles).verdict (ih hone)

end Letters

/-! ## The rest of a request -/

/-- The step does not drop the receive loop, and begins where players and handlers fit together. -/
structure Attends (t : Stride Sending Label) : Prop where
  kept : t.before.Kept
  keepsOn : ∀ c, t.label ≠ .server (.drop c)

/-- The handler, with these letters to send, runs the rest of a request and reads on. -/
def Finishes (c : SocketId) (h : Handler) (letters : List (SocketId × ServerMessage))
    (steps : List (Stride Sending Label)) : Prop :=
  Course c HandlerPc.busy Attends h letters steps

/-- The handler of `c` takes a step of the server, which itself sends nothing. -/
structure Works (c : SocketId) (t : Stride Sending Label) (h : Handler) : Prop where
  label : ∃ l, t.label = .server l
  handler : t.before.lobby.handler c = some h
  silent : sentTo c t = []

section Finishes

variable {m : ClientMessage} {c : SocketId} {t : Stride Sending Label} {h h' : Handler}
  {lobby : Lobby} {fresh : String} {letters : List (SocketId × ServerMessage)}
  {rest steps : List (Stride Sending Label)}

theorem RunsBlock.works (hb : RunsBlock c t fresh h h' lobby) : Works c t h :=
  ⟨⟨_, hb.label⟩, hb.handler, hb.silent c⟩

/-- A handler in the middle of a request runs a block. -/
theorem Finishes.runs (hf : Finishes c h [] steps) (hpc : h.pc.busy = true) :
    ∃ t rest fresh h' lobby, steps = t :: rest ∧ t.before.Kept ∧ RunsBlock c t fresh h h' lobby ∧
      Finishes c h' (t.before.lobby.blockLetters c h) rest := by
  cases hf with
  | ends hends =>
      rw [hpc] at hends
      cases hends
  | @block _ h' t fresh lobby rest _ ht hblock hrest =>
      exact ⟨t, rest, fresh, h', lobby, rfl, ht.kept, hblock, hrest⟩
  | drop _ ht hdrop _ => exact absurd hdrop.label (ht.keepsOn c)

theorem Works.overlooks_iff (hw : Works c t h) :
    Overlooks m c t ↔ misses m t.before.lobby h = true := by
  obtain ⟨l, hl⟩ := hw.label
  simp [Overlooks, overlooks, hl, hw.handler]

theorem Works.silent' (hw : Works c t h) : ¬ Answers m c [t] := by
  simp [answers_singleton, hw.silent]

theorem Works.idle (hw : Works c t h) (hsees : misses m t.before.lobby h = false) :
    Idle m c [t] where
  silent := hw.silent'
  sees := by simp [hw.overlooks_iff, hsees]

/-- The handler goes on without a message to its client. -/
theorem Works.goesOn (hw : Works c t h) (hsees : misses m t.before.lobby h = false)
    (hrest : Verdict m c rest) : Verdict m c (t :: rest) :=
  (hw.idle hsees).verdict hrest

/-- The handler answers, and reads on. -/
theorem Works.replies {reply : ServerMessage} (hw : Works c t h)
    (hsees : misses m t.before.lobby h = false) (hf : Finishes c h' [(c, reply)] rest)
    (hpc : h'.pc = .receiving) (hsettles : settles m reply = true) : Verdict m c (t :: rest) :=
  hw.goesOn hsees <| verdict_sent (hf.sent_of_over (HandlerPc.busy_eq_false.mpr hpc))
    (settling_cons_of_settles rfl hsettles)

/-- The handler reads on without an answer. -/
theorem Works.keepsSilent (hw : Works c t h) (hmisses : misses m t.before.lobby h = true)
    (hf : Finishes c h' [] rest) (hpc : h'.pc = .receiving) : Verdict m c (t :: rest) := by
  obtain rfl := hf.eq_nil (HandlerPc.busy_eq_false.mpr hpc)
  refine iff_of_false hw.silent' ?_
  rw [List.forall_mem_singleton, not_not, hw.overlooks_iff]
  exact hmisses

/-! ### `JoinRoom` -/

/-- A broadcast does not settle a `JoinRoom`. -/
theorem settling_broadcastLetters (roomId : String) (a : AppState) :
    settling (.joinRoom roomId) c a.broadcastLetters = [] := by
  refine List.filter_eq_nil_iff.mpr fun reply hreply => ?_
  rcases AppState.mem_broadcastLetters (mem_addressed.mp hreply) with rfl | rfl <;>
    exact Bool.false_ne_true

/-- What is left of a `JoinRoom` after its answer. -/
theorem idle_broadcast {roomId : String} (hf : Finishes c h [] steps) (hpc : h.pc = .broadcast) :
    Idle (.joinRoom roomId) c steps := by
  obtain ⟨t, rest, fresh, h', lobby, rfl, _, hb, hrest⟩ := hf.runs (by rw [hpc]; rfl)
  have hstep := hb.step
  simp only [Lobby.block, hpc, Option.some.injEq] at hstep
  subst hstep
  obtain rfl := hb.eq_of_put (k := { h with pc := .receiving }) rfl
  simp only [Lobby.blockLetters, hpc] at hrest
  exact (hb.works.idle (by simp [misses, hpc])).append <|
    idle_sent (hrest.sent_of_over rfl) (settling_broadcastLetters roomId _)

theorem idle_joined {roomId : String} {app : AppState}
    (hb : RunsBlock c t fresh h h' ((t.before.lobby.setApp app).joined c h))
    (hf : Finishes c h' [] rest)
    (hsees : misses (.joinRoom roomId) t.before.lobby h = false) :
    Idle (.joinRoom roomId) c (t :: rest) := by
  obtain rfl := hb.eq_of_put
    (k := { h with lastJoinAt := some t.before.lobby.now, pc := .broadcast }) rfl
  exact (hb.works.idle hsees).append (idle_broadcast hf rfl)

theorem idle_joinReleaseOld {roomId oldId : String} (hf : Finishes c h [] steps)
    (hpc : h.pc = .joinReleaseOld oldId) : Idle (.joinRoom roomId) c steps := by
  obtain ⟨t, rest, fresh, h', lobby, rfl, _, hb, hrest⟩ := hf.runs (by rw [hpc]; rfl)
  have hstep := hb.step
  simp only [Lobby.block, hpc, Option.some.injEq] at hstep
  subst hstep
  simp only [Lobby.blockLetters, hpc] at hrest
  exact idle_joined hb hrest (by simp [misses, hpc])

theorem idle_joinRecord (roomId : String) {ticket : JoinTicket} (hf : Finishes c h [] steps)
    (hpc : h.pc = .joinRecord ticket) : Idle (.joinRoom roomId) c steps := by
  obtain ⟨t, rest, fresh, h', lobby, rfl, _, hb, hrest⟩ := hf.runs (by rw [hpc]; rfl)
  have hstep := hb.step
  simp only [Lobby.block, hpc, Option.some.injEq, Lobby.joinRecord] at hstep
  simp only [Lobby.blockLetters, hpc] at hrest
  split at hstep
  · next oldId _ =>
    subst hstep
    obtain rfl := hb.eq_of_put (k := { h with pc := .joinReleaseOld oldId }) rfl
    exact (hb.works.idle (by simp [misses, hpc])).append (idle_joinReleaseOld hrest rfl)
  · subst hstep
    exact idle_joined hb hrest (by simp [misses, hpc])

/-- Of the messages to both parties of a join, the result settles the request. -/
theorem settling_joinLetters (roomId : String) (c : SocketId) (h : Handler) (ticket : JoinTicket)
    (token : String) : settling (.joinRoom roomId) c (Lobby.joinLetters c h ticket token) =
      [.joinResult true (some ticket.quote.roomId) (some token)
        (if ticket.quote.gameinfo.isEmpty then none else some ticket.quote.gameinfo)] := by
  by_cases hself : ticket.hostTx = c
  · simp [settling, addressed, Lobby.joinLetters, settles, hself, List.filter_cons]
  · simp [settling, addressed, Lobby.joinLetters, settles, hself]

/-- The result goes out if there is a free place for it. -/
theorem verdict_joinRegisterBinding {roomId token : String} {ticket : JoinTicket}
    (hf : Finishes c h [] steps) (hpc : h.pc = .joinRegisterBinding ticket token) :
    Verdict (.joinRoom roomId) c steps := by
  obtain ⟨t, rest, fresh, h', lobby, rfl, _, hb, hrest⟩ := hf.runs (by rw [hpc]; rfl)
  have hstep := hb.step
  simp only [Lobby.block, hpc] at hstep
  obtain ⟨tunnel, _, rfl⟩ := Option.map_eq_some_iff.mp hstep
  obtain rfl := hb.eq_of_put (k := { h with pc := .joinRecord ticket }) rfl
  simp only [Lobby.blockLetters, hpc] at hrest
  obtain ⟨sent, later, rfl, hsent, hlater⟩ := hrest.sent
  refine hb.works.goesOn (by simp [misses, hpc]) ?_
  exact (verdict_sent hsent (settling_joinLetters roomId c h ticket token)).idle
    (idle_joinRecord roomId hlater rfl)

theorem verdict_joinRegisterPending {roomId : String} {ticket : JoinTicket}
    (hf : Finishes c h [] steps) (hpc : h.pc = .joinRegisterPending ticket) :
    Verdict (.joinRoom roomId) c steps := by
  obtain ⟨t, rest, fresh, h', lobby, rfl, _, hb, hrest⟩ := hf.runs (by rw [hpc]; rfl)
  have hstep := hb.step
  simp only [Lobby.block, hpc] at hstep
  obtain ⟨tunnel, _, rfl⟩ := Option.map_eq_some_iff.mp hstep
  obtain rfl := hb.eq_of_put (k := { h with pc := .joinRegisterBinding ticket fresh }) rfl
  simp only [Lobby.blockLetters, hpc] at hrest
  exact hb.works.goesOn (by simp [misses, hpc]) (verdict_joinRegisterBinding hrest rfl)

theorem verdict_joinReserve {roomId : String} {ticket : JoinTicket}
    (hf : Finishes c h [] steps) (hpc : h.pc = .joinReserve ticket) :
    Verdict (.joinRoom roomId) c steps := by
  obtain ⟨t, rest, fresh, h', lobby, rfl, _, hb, hrest⟩ := hf.runs (by rw [hpc]; rfl)
  have hstep := hb.step
  have hsees : misses (.joinRoom roomId) t.before.lobby h = false := by simp [misses, hpc]
  simp only [Lobby.block, hpc, Option.some.injEq, Lobby.joinReserve] at hstep
  simp only [Lobby.blockLetters, hpc] at hrest
  split at hstep
  · next app hreserved =>
    subst hstep
    obtain rfl := hb.eq_of_put (k := { h with pc := .joinRegisterPending ticket }) rfl
    rw [hreserved, if_pos rfl] at hrest
    exact hb.works.goesOn hsees (verdict_joinRegisterPending hrest rfl)
  · next app hreserved =>
    subst hstep
    obtain rfl := hb.eq_of_put (k := { h with pc := .receiving }) rfl
    rw [hreserved, if_neg Bool.false_ne_true] at hrest
    exact hb.works.replies hsees hrest rfl rfl

theorem verdict_joinPlayers {roomId : String} {quote : JoinQuote}
    (hf : Finishes c h [] steps) (hpc : h.pc = .joinPlayers quote) :
    Verdict (.joinRoom roomId) c steps := by
  obtain ⟨t, rest, fresh, h', lobby, rfl, _, hb, hrest⟩ := hf.runs (by rw [hpc]; rfl)
  have hstep := hb.step
  simp only [Lobby.block, hpc, Option.some.injEq, Lobby.joinPlayers] at hstep
  simp only [Lobby.blockLetters, hpc] at hrest
  cases hjoiner : t.before.lobby.app.players.get? h.playerId with
  | none =>
      simp only [hjoiner] at hstep hrest
      subst hstep
      obtain rfl := hb.eq_of_put (k := { h with pc := .receiving }) rfl
      exact hb.works.keepsSilent (by simp [misses, hpc, hjoiner]) hrest rfl
  | some joiner =>
      have hsees : misses (.joinRoom roomId) t.before.lobby h = false := by
        simp [misses, hpc, hjoiner]
      simp only [hjoiner] at hstep hrest
      by_cases hversion : joiner.war3Version ≠ quote.roomVersion
      · rw [if_pos hversion] at hstep hrest
        subst hstep
        obtain rfl := hb.eq_of_put (k := { h with pc := .receiving }) rfl
        exact hb.works.replies hsees hrest rfl rfl
      · rw [if_neg hversion] at hstep hrest
        split at hstep
        · next host hhost =>
          obtain ⟨hhost, honline⟩ := Option.filter_eq_some_iff.mp hhost
          subst hstep
          let ticket : JoinTicket := ⟨quote, joiner.nickname, host.clientIp, host.tx⟩
          obtain rfl := hb.eq_of_put (k := { h with pc := .joinReserve ticket }) rfl
          rw [if_pos (by rw [hhost]; exact honline)] at hrest
          exact hb.works.goesOn hsees (verdict_joinReserve hrest rfl)
        · next hhost =>
          subst hstep
          obtain rfl := hb.eq_of_put (k := { h with pc := .receiving }) rfl
          have hoffline :
              ¬ (t.before.lobby.app.players.get? quote.hostPlayerId).any (·.online) := by
            rw [Bool.not_eq_true, Option.any_eq_false]
            simpa [Option.filter_eq_none_iff] using hhost
          rw [if_neg hoffline] at hrest
          exact hb.works.replies hsees hrest rfl rfl

theorem verdict_joinRoom {roomId : String} (hf : Finishes c h [] steps)
    (hpc : h.pc = .joinRoom roomId) : Verdict (.joinRoom roomId) c steps := by
  obtain ⟨t, rest, fresh, h', lobby, rfl, _, hb, hrest⟩ := hf.runs (by rw [hpc]; rfl)
  have hstep := hb.step
  have hsees : misses (.joinRoom roomId) t.before.lobby h = false := by simp [misses, hpc]
  simp only [Lobby.block, hpc, Option.some.injEq, Lobby.joinRoom] at hstep
  simp only [Lobby.blockLetters, hpc] at hrest
  split at hstep
  · next r hroom =>
    subst hstep
    let quote : JoinQuote := ⟨roomId, r.hostPlayerId, r.war3Version, r.gameinfo⟩
    obtain rfl := hb.eq_of_put (k := { h with pc := .joinPlayers quote }) rfl
    simp only [hroom, Option.isSome_some, if_true] at hrest
    exact hb.works.goesOn hsees (verdict_joinPlayers hrest rfl)
  · next hroom =>
    subst hstep
    obtain rfl := hb.eq_of_put (k := { h with pc := .receiving }) rfl
    simp only [hroom, Option.isSome_none, Bool.false_eq_true, if_false] at hrest
    exact hb.works.replies hsees hrest rfl rfl

/-! ### `CreateRoom` -/

/-- The room list goes out if the player is still there, and there is a free place for it. -/
theorem verdict_broadcast {roomName mapName : String} {maxPlayers : Nat} {gameinfo : Bytes}
    (hf : Finishes c h [] steps) (hpc : h.pc = .broadcast) :
    Verdict (.createRoom roomName mapName maxPlayers gameinfo) c steps := by
  obtain ⟨t, rest, fresh, h', lobby, rfl, hk, hb, hrest⟩ := hf.runs (by rw [hpc]; rfl)
  have hstep := hb.step
  simp only [Lobby.block, hpc, Option.some.injEq] at hstep
  subst hstep
  obtain rfl := hb.eq_of_put (k := { h with pc := .receiving }) rfl
  simp only [Lobby.blockLetters, hpc] at hrest
  have hsent := hrest.sent_of_over rfl
  have haddressed := hk.attended.addressed_broadcastLetters hb.before
  cases hp : t.before.lobby.app.players.get? h.playerId with
  | none =>
      rw [hp, Option.any_none, if_neg Bool.false_ne_true] at haddressed
      have hnone : settling (.createRoom roomName mapName maxPlayers gameinfo) c
          t.before.lobby.app.broadcastLetters = [] := by
        rw [settling, haddressed]
        rfl
      refine Verdict.idle (iff_of_false hb.works.silent' ?_) (idle_sent hsent hnone)
      rw [List.forall_mem_singleton, not_not, hb.works.overlooks_iff]
      simp [misses, hpc, hp]
  | some p =>
      obtain ⟨honline, htx⟩ := hk.own_player hb.before (by rw [hpc]; rfl) hp
      rw [hp, Option.any_some, if_pos (by simp [honline, htx])] at haddressed
      have hone : settling (.createRoom roomName mapName maxPlayers gameinfo) c
          t.before.lobby.app.broadcastLetters = [t.before.lobby.app.roomUpdate] := by
        rw [settling, haddressed]
        rfl
      exact hb.works.goesOn (by simp [misses, hpc, hp]) (verdict_sent hsent hone)

theorem verdict_createLink {roomName mapName roomId : String} {maxPlayers : Nat}
    {gameinfo : Bytes} (hf : Finishes c h [] steps) (hpc : h.pc = .createLink roomId) :
    Verdict (.createRoom roomName mapName maxPlayers gameinfo) c steps := by
  obtain ⟨t, rest, fresh, h', lobby, rfl, _, hb, hrest⟩ := hf.runs (by rw [hpc]; rfl)
  have hstep := hb.step
  simp only [Lobby.block, hpc, Option.some.injEq] at hstep
  subst hstep
  obtain rfl := hb.eq_of_put (k := { h with pc := .broadcast }) rfl
  simp only [Lobby.blockLetters, hpc] at hrest
  exact hb.works.goesOn (by simp [misses, hpc]) (verdict_broadcast hrest rfl)

theorem verdict_createInsert {roomName mapName : String} {maxPlayers : Nat}
    {gameinfo : Bytes} {draft : RoomDraft} (hf : Finishes c h [] steps)
    (hpc : h.pc = .createInsert draft) :
    Verdict (.createRoom roomName mapName maxPlayers gameinfo) c steps := by
  obtain ⟨t, rest, fresh, h', lobby, rfl, _, hb, hrest⟩ := hf.runs (by rw [hpc]; rfl)
  have hstep := hb.step
  simp only [Lobby.block, hpc, Lobby.createInsert] at hstep
  simp only [Lobby.blockLetters, hpc] at hrest
  split at hstep
  · cases hstep
  · cases hstep
    obtain rfl := hb.eq_of_put (k := { h with pc := .createLink fresh }) rfl
    exact hb.works.goesOn (by simp [misses, hpc]) (verdict_createLink hrest rfl)

theorem verdict_createCount {roomName mapName : String} {maxPlayers : Nat}
    {gameinfo : Bytes} {draft : RoomDraft} (hf : Finishes c h [] steps)
    (hpc : h.pc = .createCount draft) :
    Verdict (.createRoom roomName mapName maxPlayers gameinfo) c steps := by
  obtain ⟨t, rest, fresh, h', lobby, rfl, _, hb, hrest⟩ := hf.runs (by rw [hpc]; rfl)
  have hstep := hb.step
  have hsees : misses (.createRoom roomName mapName maxPlayers gameinfo) t.before.lobby h =
      false := by
    simp [misses, hpc]
  simp only [Lobby.block, hpc, Option.some.injEq, Lobby.createCount] at hstep
  simp only [Lobby.blockLetters, hpc] at hrest
  split at hstep
  · next hfull =>
    subst hstep
    obtain rfl := hb.eq_of_put (k := { h with pc := .receiving }) rfl
    rw [if_pos hfull] at hrest
    exact hb.works.replies hsees hrest rfl rfl
  · next hfree =>
    subst hstep
    obtain rfl := hb.eq_of_put (k := { h with pc := .createInsert draft }) rfl
    rw [if_neg hfree] at hrest
    exact hb.works.goesOn hsees (verdict_createInsert hrest rfl)

theorem verdict_createRead {roomName mapName : String} {maxPlayers : Nat}
    {gameinfo : Bytes} {request : RoomRequest} (hf : Finishes c h [] steps)
    (hpc : h.pc = .createRead request) :
    Verdict (.createRoom roomName mapName maxPlayers gameinfo) c steps := by
  obtain ⟨t, rest, fresh, h', lobby, rfl, _, hb, hrest⟩ := hf.runs (by rw [hpc]; rfl)
  have hstep := hb.step
  simp only [Lobby.block, hpc, Option.some.injEq, Lobby.createRead] at hstep
  simp only [Lobby.blockLetters, hpc] at hrest
  cases hp : t.before.lobby.app.players.get? h.playerId with
  | none =>
      simp only [hp] at hstep
      subst hstep
      obtain rfl := hb.eq_of_put (k := { h with pc := .receiving }) rfl
      rw [hp, Option.any_none, if_neg Bool.false_ne_true] at hrest
      exact hb.works.keepsSilent (by simp [misses, hpc, hp]) hrest rfl
  | some p =>
      have hsees : misses (.createRoom roomName mapName maxPlayers gameinfo) t.before.lobby h =
          false := by
        simp [misses, hpc, hp]
      simp only [hp] at hstep
      rw [hp, Option.any_some] at hrest
      split at hstep
      · next hhosting =>
        subst hstep
        obtain rfl := hb.eq_of_put (k := { h with pc := .receiving }) rfl
        rw [if_pos hhosting] at hrest
        exact hb.works.replies hsees hrest rfl rfl
      · next hhosting =>
        subst hstep
        let draft : RoomDraft := ⟨request, p.nickname, p.war3Version⟩
        obtain rfl := hb.eq_of_put (k := { h with pc := .createCount draft }) rfl
        rw [if_neg hhosting] at hrest
        exact hb.works.goesOn hsees (verdict_createCount hrest rfl)

/-! ### The frame -/

/-- The message is one that the client awaits an answer to. -/
def awaitsAnswer : ClientMessage → Bool
  | .joinRoom _ | .createRoom _ _ _ _ => true
  | _ => false

/-- A request that passed the checks is refused, overlooked, or begun. -/
theorem verdict_dispatch {externalIp : Option IpAddr} {k : Handler} (hw : Works c t h)
    (hpc : h.pc = .receiving) (hk : k = t.before.lobby.counted h) (hm : awaitsAnswer m = true)
    (hvalid : m.validate = .ok ())
    (hlobby : lobby = (t.before.lobby.put c k).dispatch c k ⟨m, hvalid⟩ externalIp)
    (hput : ∀ k', lobby.sockets = (t.before.lobby.put c k').sockets → h' = k')
    (hf : Finishes c h' (t.before.lobby.dispatchLetters c h m) rest) : Verdict m c (t :: rest) := by
  have hkpc : k.pc = .receiving := by rw [hk, ← hpc]; rfl
  have hflags : misses m t.before.lobby h = (!k.registered || k.isWebViewer) := by
    rw [hk]
    simp [misses, hpc, Lobby.counted]
  have hletters : t.before.lobby.dispatchLetters c h m = t.before.lobby.dispatchLetters c k m := by
    rw [hk]
    rfl
  have hbegins : ∀ pc : HandlerPc, lobby = (t.before.lobby.put c k).goto c k pc →
      h' = { k with pc := pc } := by
    intro pc hgoto
    refine hput _ ?_
    rw [hgoto]
    exact Table.modify_modify _ _ _ _
  have hnow : (t.before.lobby.put c k).now = t.before.lobby.now := rfl
  rw [hletters] at hf
  cases m with
  | joinRoom roomId =>
      simp only [Lobby.dispatch, hnow] at hlobby
      simp only [Lobby.dispatchLetters] at hf
      by_cases hmay : (!k.registered || k.isWebViewer) = true
      · rw [if_pos hmay] at hlobby hf
        obtain rfl := hput k (by rw [hlobby])
        exact hw.keepsSilent (hflags.trans hmay) hf hkpc
      · rw [if_neg hmay] at hlobby hf
        rw [Bool.not_eq_true] at hmay
        split at hf
        · next hcooling =>
          rw [if_pos hcooling] at hlobby
          obtain rfl := hput k (by rw [hlobby]; rfl)
          exact hw.replies (hflags.trans hmay) hf hkpc rfl
        · next hcooled =>
          rw [if_neg hcooled] at hlobby
          obtain rfl := hbegins _ hlobby
          exact hw.goesOn (hflags.trans hmay) (verdict_joinRoom hf rfl)
  | createRoom roomName mapName maxPlayers gameinfo =>
      simp only [Lobby.dispatch] at hlobby
      simp only [Lobby.dispatchLetters] at hf
      by_cases hmay : (!k.registered || k.isWebViewer) = true
      · rw [if_pos hmay] at hlobby
        obtain rfl := hput k (by rw [hlobby])
        exact hw.keepsSilent (hflags.trans hmay) hf hkpc
      · rw [if_neg hmay] at hlobby
        rw [Bool.not_eq_true] at hmay
        obtain rfl := hbegins _ hlobby
        exact hw.goesOn (hflags.trans hmay) (verdict_createRead hf rfl)
  | _ => simp [awaitsAnswer] at hm

end Finishes

/-! ## Whole requests -/

/-- From `s` on the handler of `c` processes a request: a frame that passes the size, rate,
parse and validate checks, and then the blocks and sends of its arm of the loop, while everybody
else does what they like, until it reads on with nothing left to send.  When the frame comes, its
queue has room. -/
structure Processes (m : ClientMessage) (c : SocketId) (s : Sending) (labels : List Label)
    (s' : Sending) : Prop where
  reachable : machine.Reachable s
  run : machine.exec s labels = some s'
  frame : ∃ len externalIp rest,
    labels = .server (.frame c (.text len (some m) externalIp)) :: rest ∧ len ≤ maxMessageSize ∧
      ∀ l ∈ rest, isOwn c s l = true →
        (∃ fresh, l = .server (.block c fresh)) ∨ l = .send (.socket c)
  rate : ∀ h, s.lobby.handler c = some h → (h.rateLimiter.allow s.lobby.now).2 = true
  valid : m.validate = .ok ()
  room : 0 < freeSlots s.lobby.outboxes c
  done : ∃ h, s'.lobby.handler c = some h ∧ h.pc = .receiving ∧ s'.owed (.socket c) = []

section Processes

variable {m : ClientMessage} {c : SocketId} {s s' : Sending}

/-- The blocks and sends behind the frame finish the request. -/
theorem finishes_of_run {h h' : Handler} {letters : List (SocketId × ServerMessage)}
    {labels : List Label} (hreach : machine.Reachable s) (hrun : machine.exec s labels = some s')
    (hv : s.thread c = some (h, letters)) (hv' : s'.thread c = some (h', []))
    (hdone : h'.pc = .receiving)
    (hlabels : ∀ t ∈ ownSteps c s labels,
      (∃ fresh, t.label = .server (.block c fresh)) ∨ t.label = .send (.socket c)) :
    Finishes c h letters (ownSteps c s labels) := by
  obtain ⟨v, hend, hchain⟩ := Machine.chain_of_exec (isolates c) hv hrun
  obtain rfl : v = (h', []) := Option.some.inj (hend.symm.trans hv')
  refine course_of_chain hchain (HandlerPc.busy_eq_false.mpr hdone) rfl (fun t ht k hk => ?_)
    fun t ht => ⟨kept_of_reachable (Machine.reachable_of_mem_strides hreach hrun ht), ?_⟩
  · obtain ⟨hc, howed⟩ := thread_eq_some.mp hk
    obtain ⟨_, hstep, _⟩ := Machine.of_mem_strides ht
    rcases hlabels t ht with ⟨fresh, hlabel⟩ | hlabel
    · rw [hlabel] at hstep
      obtain ⟨_, lobby, hlobby, _⟩ := server_eq_some rfl hstep
      obtain ⟨k', hk', hblock⟩ := Lobby.whenRunning_eq_some hlobby
      obtain rfl : k = k' := Option.some.inj (hc.symm.trans (Lobby.handler_eq_some.mpr hk'))
      cases hpc : k.pc <;> simp [Lobby.block, hpc, HandlerPc.busy] at hblock ⊢
    · rw [hlabel] at hstep
      obtain ⟨letter, rest, hletter, _⟩ := send_eq_some hstep
      rw [howed] at hletter
      cases hletter
  · intro c' hdrop
    rcases hlabels t ht with ⟨fresh, hlabel⟩ | hlabel
    · rw [hlabel] at hdrop
      cases hdrop
    · rw [hlabel] at hdrop
      cases hdrop

/-- A request to join or to create a room is answered, unless a step of its handler
overlooks it. -/
theorem answers_iff {labels : List Label} (hm : awaitsAnswer m = true)
    (hp : Processes m c s labels s') :
    Answers m c (ownSteps c s labels) ↔ ∀ t ∈ ownSteps c s labels, ¬ Overlooks m c t := by
  obtain ⟨len, externalIp, rest, rfl, hlen, hrest⟩ := hp.frame
  obtain ⟨s₁, hstep, hexec⟩ := Option.bind_eq_some_iff.mp hp.run
  have hown : isOwn c s (.server (.frame c (.text len (some m) externalIp))) = true := by
    simp [isOwn, Lobby.isOwn]
  obtain ⟨h', hdone, hreceiving, hpaid⟩ := hp.done
  obtain ⟨hidle, lobby, hlobby, hs₁⟩ := server_eq_some rfl hstep
  obtain ⟨h, hc, hframe⟩ := Lobby.whenRunning_eq_some hlobby
  have hhandler := Lobby.handler_eq_some.mpr hc
  have hrate := hp.rate h hhandler
  split at hframe
  · next hpc =>
    cases hframe
    -- The frame passes the checks, and is dispatched.
    have hdispatch : s.lobby.frame c h (.text len (some m) externalIp) =
        (s.lobby.put c (s.lobby.counted h)).dispatch c (s.lobby.counted h) ⟨m, hp.valid⟩
          externalIp := by
      simp only [Lobby.frame, Lobby.text, if_neg (Nat.not_lt.mpr hlen), hrate,
        Lobby.check_eq_ok hp.valid]
      rfl
    have hletters : s.lobby.letters (.frame c (.text len (some m) externalIp)) =
        s.lobby.dispatchLetters c h m := by
      simp only [Lobby.letters, hhandler, Option.map_some, Option.getD_some, Lobby.frameLetters,
        if_neg (Nat.not_lt.mpr hlen), hrate, Lobby.check_eq_ok hp.valid]
      rfl
    obtain ⟨h₁, hm₁⟩ := Lobby.moves_of_frame (.text len (some m) externalIp) hc hpc
    have hthread : s₁.thread c = some (h₁, s.lobby.dispatchLetters c h m) := by
      rw [thread_eq_some, hs₁, ← hletters]
      exact ⟨Lobby.handler_eq_some.mpr hm₁.get?_self, Function.update_self ..⟩
    have hf := finishes_of_run (.step hp.reachable hstep) hexec hthread
      (thread_eq_some.mpr ⟨hdone, hpaid⟩) hreceiving fun t ht => by
        obtain ⟨hown, _, hmem⟩ := Machine.of_mem_strides ht
        exact hrest t.label hmem hown
    simp only [ownSteps, Machine.strides_cons hstep, hown, if_true, List.singleton_append]
    refine verdict_dispatch ⟨⟨_, rfl⟩, hhandler, ?_⟩ hpc rfl hm hp.valid hdispatch
      (fun k hk => Lobby.eq_of_put hc hm₁.get?_self hk) hf
    rw [sentTo, hs₁, List.drop_length]
  · cases hframe

/-- The state passes the test, and the handler of `c` processes a request from it on. -/
def processesFrom (c : SocketId) (labels : List Label) (test : Sending → Bool) (s : Sending) :
    Bool :=
  test s && (s.lobby.handler c).all (fun h => (h.rateLimiter.allow s.lobby.now).2) &&
    decide (0 < freeSlots s.lobby.outboxes c) &&
      (machine.exec s labels).any fun s' =>
        ((s'.lobby.handler c).any fun h => !h.pc.busy) && (s'.owed (.socket c)).isEmpty

/-- A replay of a request. -/
theorem exists_processes {run : List Lobby.Label} {rest : List Label} {len : Nat}
    {test : Sending → Bool} (hlen : len ≤ maxMessageSize) (hvalid : m.validate = .ok ())
    (hrest : ∀ l ∈ rest, isOwn c start l = true →
      (∃ fresh, l = .server (.block c fresh)) ∨ l = .send (.socket c))
    (hrun : (Lobby.machine.exec Lobby.machine.init run).any (fun s =>
      processesFrom c (.server (.frame c (.text len (some m) none)) :: rest) test
        ⟨s, fun _ => []⟩) = true) :
    ∃ s s', test s = true ∧
      Processes m c s (.server (.frame c (.text len (some m) none)) :: rest) s' := by
  obtain ⟨s, hexec, htest⟩ := (Option.any_eq_true _ _).mp hrun
  simp only [processesFrom, Bool.and_eq_true, decide_eq_true_eq] at htest
  obtain ⟨⟨⟨htest, hrate⟩, hroom⟩, hdone⟩ := htest
  obtain ⟨s', hexec', hdone⟩ := (Option.any_eq_true _ _).mp hdone
  obtain ⟨hdone, hpaid⟩ := Bool.and_eq_true _ _ ▸ hdone
  obtain ⟨h, hh, hpc⟩ := (Option.any_eq_true _ _).mp hdone
  rw [Bool.not_eq_true'] at hpc
  exact ⟨_, s', htest, reachable_atOnce hexec, hexec', ⟨len, none, rest, rfl, hlen, hrest⟩,
    (Option.all_eq_true _ _).mp hrate, hvalid, hroom, h, hh, HandlerPc.busy_eq_false.mp hpc,
    List.isEmpty_iff.mp hpaid⟩

end Processes

/-- A request to create a room, whose handler runs five blocks; between the two messages of its
broadcast the send task takes one out of the queue. -/
def createsSlowly : List Label :=
  .server (.frame 0 (.text 90 (some (.createRoom "room" "map" 2 [])) none)) ::
    (["", "", "r", "", ""].map fun fresh => .server (.block 0 fresh)) ++
      [.send (.socket 0), .server (.sent 0 true), .send (.socket 0)]

/-- A registered player creates a room, and is sent the list that shows it. -/
theorem answers_created : ∃ m s labels s', awaitsAnswer m = true ∧ Processes m 0 s labels s' ∧
    Answers m 0 (ownSteps 0 s labels) := by
  let m : ClientMessage := .createRoom "room" "map" 2 []
  have hrun : (Lobby.machine.exec Lobby.machine.init (Lobby.registers 0 "a")).any (fun s =>
      processesFrom 0 createsSlowly (fun s =>
        decide (∀ t ∈ ownSteps 0 s createsSlowly, ¬ Overlooks m 0 t)) ⟨s, fun _ => []⟩) = true := by
    decide
  obtain ⟨s, s', hlooks, hp⟩ := exists_processes (m := m) (by decide) (by decide) (by
    simp [isOwn, Lobby.isOwn]) hrun
  exact ⟨m, s, createsSlowly, s', rfl, hp, (answers_iff rfl hp).mpr (of_decide_eq_true hlooks)⟩

/-- The heartbeats of a player stop, and the cleanup task removes it; its connection stays. -/
def reapedRun : List Lobby.Label :=
  Lobby.registers 0 "a" ++ [.elapse (secs 31)] ++ List.replicate 7 .cleanup

/-- The server removed the player after its heartbeats had stopped; its request to create a
room is dropped without a word, although its queue has room all along. -/
theorem not_always_answers : ¬ ∀ m c s labels s', awaitsAnswer m = true →
    Processes m c s labels s' →
    (∀ t ∈ ownSteps c s labels, 0 < freeSlots t.before.lobby.outboxes c) →
      Answers m c (ownSteps c s labels) := by
  intro hclaim
  let m : ClientMessage := .createRoom "room" "map" 2 []
  let labels : List Label :=
    [.server (.frame 0 (.text 90 (some m) none)), .server (.block 0 "")]
  have hrun : (Lobby.machine.exec Lobby.machine.init reapedRun).any (fun s =>
      processesFrom 0 labels (fun s => s.lobby.quiescent &&
        decide (∀ t ∈ ownSteps 0 s labels, sentTo 0 t = [] ∧
          0 < freeSlots t.before.lobby.outboxes 0)) ⟨s, fun _ => []⟩) = true := by
    decide
  obtain ⟨s, s', htest, hp⟩ := exists_processes (m := m) (by decide) (by decide) (by simp) hrun
  simp only [Bool.and_eq_true, decide_eq_true_eq] at htest
  obtain ⟨t, ht, reply, hreply, _⟩ := hclaim m 0 s labels s' rfl hp fun t ht => (htest.2 t ht).2
  rw [(htest.2 t ht).1] at hreply
  cases hreply

end Sending

end War3BattleTool.Server
