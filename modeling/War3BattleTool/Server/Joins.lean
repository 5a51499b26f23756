import War3BattleTool.Server.Credentials
import War3BattleTool.Server.Requests

set_option autoImplicit false

/-!
# A join, for both parties

`JoinRoom` takes five steps under four locks, and tells the joiner and the host through two
bounded queues, message by message.  The join is all or nothing when the joiner is refused and
nothing has changed, or both hear the same fresh token after it was registered with both addresses
(`AllOrNothing`).  It is, unless one of the steps or sends meets a mishap (`mishap`).
-/

namespace War3BattleTool.Server

open War3BattleTool.Foundation War3BattleTool.Protocol

/-- Inside the five steps of `JoinRoom`. -/
def HandlerPc.joining : HandlerPc → Bool
  | .joinRoom _ | .joinPlayers _ | .joinReserve _ | .joinRegisterPending _
  | .joinRegisterBinding _ _ | .joinRecord _ | .joinReleaseOld _ => true
  | _ => false

/-- Inside `JoinRoom`, before the messages to both parties. -/
def HandlerPc.undecided : HandlerPc → Bool
  | .joinRecord _ | .joinReleaseOld _ => false
  | pc => pc.joining

/-- About to take the first step of the join of a room. -/
def HandlerPc.begins (roomId : String) : HandlerPc → Bool
  | .joinRoom roomId' => roomId' = roomId
  | _ => false

theorem HandlerPc.begins_eq_true {roomId : String} {pc : HandlerPc} :
    pc.begins roomId = true ↔ pc = .joinRoom roomId := by
  cases pc <;> simp [begins]

theorem Handler.joining_exit (h : Handler) : h.exit.pc.joining = false := by
  unfold Handler.exit
  split <;> rfl

/-- The message tells its receiver how the join went. -/
def tellsOutcome : ServerMessage → Bool
  | .joinResult _ _ _ _ | .playerJoined _ _ => true
  | _ => false

namespace Sending

/-! ## The two outcomes -/

/-- The step leaves the players, the rooms and the token maps as they are. -/
structure LeavesMaps (t : Stride Sending Label) : Prop where
  players : t.after.lobby.app.players = t.before.lobby.app.players
  rooms : t.after.lobby.app.rooms = t.before.lobby.app.rooms
  upnpPending : t.after.lobby.tunnel.tunnel.upnpPending = t.before.lobby.tunnel.tunnel.upnpPending
  tokenBindings :
    t.after.lobby.tunnel.tunnel.tokenBindings = t.before.lobby.tunnel.tunnel.tokenBindings

theorem leavesMaps_of_eq {t : Stride Sending Label}
    (happ : t.after.lobby.app = t.before.lobby.app)
    (htunnel : t.after.lobby.tunnel = t.before.lobby.tunnel) : LeavesMaps t := by
  refine ⟨?_, ?_, ?_, ?_⟩ <;> simp only [happ, htunnel]

/-- The tokens a step generates. -/
def freshTokens (t : Stride Sending Label) : List String :=
  t.after.lobby.tunnel.issued.take
    (t.after.lobby.tunnel.issued.length - t.before.lobby.tunnel.issued.length)

/-- The joiner is sent a failure and no success, and nothing has changed. -/
structure Refused (c : SocketId) (steps : List (Stride Sending Label)) : Prop where
  told : ∃ t ∈ steps, .joinFailure ∈ sentTo c t
  noSuccess : ∀ t ∈ steps, ∀ roomId token gameinfo,
    .joinResult true roomId token gameinfo ∉ sentTo c t
  unchanged : ∀ t ∈ steps, LeavesMaps t

/-- The token of a join: its registration for the host's and for the joiner's address in two steps,
and the messages to both parties. -/
structure Shares (c : SocketId) (h : Handler) (roomId : String) (hostIp : IpAddr)
    (hostTx : SocketId) (token : String) (early : List (Stride Sending Label))
    (first second : Stride Sending Label) (late : List (Stride Sending Label)) : Prop where
  /-- no other token is generated -/
  generated : (early ++ first :: second :: late).flatMap freshTokens = [token]
  unused : token ∉ first.before.lobby.tunnel.issued
  pending : first.after.lobby.tunnel.tunnel.upnpPending.get? token =
    some ⟨hostIp, h.playerId, first.before.lobby.now⟩
  binding : second.after.lobby.tunnel.tunnel.tokenBindings.get? token = some ⟨hostIp, h.clientIp⟩
  /-- nobody is sent anything before the token is registered -/
  registeredFirst : ∀ t ∈ early ++ [first, second], ∀ tx, sentTo tx t = []
  joiner : ∃ t ∈ late, ∃ gameinfo,
    .joinResult true (some roomId) (some token) gameinfo ∈ sentTo c t
  host : ∃ t ∈ late, ∃ nickname, .playerJoined nickname token ∈ sentTo hostTx t

/-- Both parties hear the same token; the host is the connected player whose room it was. -/
def Agreed (c : SocketId) (h : Handler) (roomId : String) (steps : List (Stride Sending Label)) :
    Prop :=
  ∃ room host token early first second late, steps = early ++ first :: second :: late ∧
    (∃ t ∈ early, t.before.lobby.app.rooms.get? roomId = some room) ∧
    (∃ t ∈ early, t.before.lobby.app.players.get? room.hostPlayerId = some host ∧
      host.online = true) ∧
    Shares c h roomId host.clientIp host.tx token early first second late

/-- The join is all or nothing. -/
def AllOrNothing (c : SocketId) (h : Handler) (roomId : String)
    (steps : List (Stride Sending Label)) : Prop :=
  Refused c steps ∨ Agreed c h roomId steps

/-! ## Mishaps -/

/-- What spoils a step of the join: the loop is dropped before the messages go out; the joiner's
player is not in the lobby any more; or a party is about to be told the outcome, and its queue has
no free place (a queue without a send task has none). -/
def mishap (s : Sending) (c : SocketId) : Label → Bool
  | .server (.drop _) => (s.lobby.handler c).any (·.pc.undecided)
  | .server _ =>
      (s.lobby.handler c).any fun h =>
        match h.pc with
        | .joinPlayers _ => (s.lobby.app.players.get? h.playerId).isNone
        | _ => false
  | .send _ =>
      match s.owed (.socket c) with
      | (tx, m) :: _ => tellsOutcome m && freeSlots s.lobby.outboxes tx = 0
      | [] => false

/-- The step of the handler of `c` meets a mishap. -/
def Mishap (c : SocketId) (t : Stride Sending Label) : Prop := mishap t.before c t.label = true

instance (c : SocketId) (t : Stride Sending Label) : Decidable (Mishap c t) :=
  inferInstanceAs (Decidable (_ = true))

/-- No step meets a mishap. -/
def NoMishap (c : SocketId) (steps : List (Stride Sending Label)) : Prop :=
  ∀ t ∈ steps, ¬ Mishap c t

/-! ## The steps of a join -/

/-- The token of a join that stands between the two blocks of `register_token` is registered
for the addresses of this join. -/
def KnowsToken (h : Handler) (s : Lobby) : Prop :=
  ∀ ticket token, h.pc = .joinRegisterBinding ticket token →
    token ∈ s.tunnel.issued ∧ ∀ binding, s.tunnel.registering.get? token = some binding →
      binding = ⟨ticket.hostIp, h.clientIp⟩

/-- The handler of `c`, with these letters to send, takes the rest of a join; the loop may be
dropped on the way. -/
def JoinsOn (c : SocketId) (h : Handler) (letters : List (SocketId × ServerMessage))
    (steps : List (Stride Sending Label)) : Prop :=
  Course c HandlerPc.joining
    (fun t => ∀ h, t.before.lobby.handler c = some h → KnowsToken h t.before.lobby) h letters steps

variable {c : SocketId} {h h' : Handler} {t : Stride Sending Label} {lobby : Lobby}
  {fresh : String} {letter : SocketId × ServerMessage}
  {letters : List (SocketId × ServerMessage)} {rest steps sent : List (Stride Sending Label)}

/-- Inside a join the handler runs a block, or its loop is dropped and the join ends. -/
theorem JoinsOn.runs (hj : JoinsOn c h [] steps) (hpc : h.pc.joining = true) :
    (∃ t rest fresh h' lobby, steps = t :: rest ∧ KnowsToken h t.before.lobby ∧
      RunsBlock c t fresh h h' lobby ∧ JoinsOn c h' (t.before.lobby.blockLetters c h) rest) ∨
    ∃ t, steps = [t] ∧ Drops c t h := by
  cases hj with
  | ends hends =>
      rw [hpc] at hends
      cases hends
  | @block _ h' t fresh lobby rest _ ht hblock hrest =>
      exact .inl ⟨t, rest, fresh, h', lobby, rfl, ht h hblock.handler, hblock, hrest⟩
  | @drop _ t rest _ _ hdrop hrest =>
      obtain rfl := hrest.eq_nil h.joining_exit
      exact .inr ⟨t, rfl, hdrop⟩

theorem Drops.mishap_iff (hd : Drops c t h) : Mishap c t ↔ h.pc.undecided = true := by
  simp [Mishap, mishap, hd.label, Lobby.handler_eq_some.mpr hd.before]

/-- A block meets a mishap if it misses the joiner's player. -/
theorem RunsBlock.mishap_iff (hb : RunsBlock c t fresh h h' lobby) : Mishap c t ↔
    ∃ quote, h.pc = .joinPlayers quote ∧ t.before.lobby.app.players.get? h.playerId = none := by
  cases hpc : h.pc <;> simp [Mishap, mishap, hb.label, hb.handler, hpc]

theorem RunsBlock.noMishap (hb : RunsBlock c t fresh h h' lobby)
    (hpc : ∀ quote, h.pc ≠ .joinPlayers quote) : ¬ Mishap c t := by
  rw [hb.mishap_iff]
  exact fun ⟨quote, hquote, _⟩ => hpc quote hquote

theorem Sends.mishap_iff (hs : Sends c t letter) : Mishap c t ↔
    tellsOutcome letter.2 = true ∧ freeSlots t.before.lobby.outboxes letter.1 = 0 := by
  obtain ⟨rest, howed⟩ := hs.owed_eq
  obtain ⟨tx, m⟩ := letter
  simp [Mishap, mishap, hs.label, howed]

theorem Sends.leavesMaps (hs : Sends c t letter) : LeavesMaps t :=
  leavesMaps_of_eq (by rw [hs.offers]; rfl) (by rw [hs.offers]; rfl)

theorem RunsBlock.leavesMaps (hb : RunsBlock c t fresh h h' lobby)
    (happ : lobby.app = t.before.lobby.app) (htunnel : lobby.tunnel = t.before.lobby.tunnel) :
    LeavesMaps t :=
  leavesMaps_of_eq (hb.app.trans happ) (hb.tunnel.trans htunnel)

theorem freshTokens_eq_nil (hissued : t.after.lobby.tunnel.issued = t.before.lobby.tunnel.issued) :
    freshTokens t = [] := by
  rw [freshTokens, hissued, Nat.sub_self, List.take_zero]

theorem RunsBlock.freshTokens (hb : RunsBlock c t fresh h h' lobby)
    (hissued : lobby.tunnel.issued = t.before.lobby.tunnel.issued) :
    Sending.freshTokens t = [] :=
  freshTokens_eq_nil (by rw [hb.tunnel, hissued])

theorem Sends.freshTokens (hs : Sends c t letter) : Sending.freshTokens t = [] :=
  freshTokens_eq_nil (by rw [hs.offers]; rfl)

theorem Drops.freshTokens (hd : Drops c t h) : Sending.freshTokens t = [] :=
  freshTokens_eq_nil (by rw [hd.exits]; rfl)

/-! ## How a join ends -/

/-- Nobody is sent anything in the step. -/
def Silent (t : Stride Sending Label) : Prop := ∀ tx, sentTo tx t = []

/-- A step met a mishap; the joiner is not refused, and not both parties are told of a deal. -/
structure Failed (c : SocketId) (steps : List (Stride Sending Label)) : Prop where
  mishap : ∃ t ∈ steps, Mishap c t
  noRefusal : ∀ t ∈ steps, .joinFailure ∉ sentTo c t
  noDeal : ∀ t ∈ steps, ∀ t' ∈ steps, ∀ roomId token gameinfo nickname tx,
    .joinResult true (some roomId) (some token) gameinfo ∈ sentTo c t →
      .playerJoined nickname token ∉ sentTo tx t'

/-- How the steps of a join end once its slot is reserved. -/
inductive Settled (c : SocketId) (agreed : Prop) (steps : List (Stride Sending Label)) : Prop
  | agrees (h : agreed) (hno : NoMishap c steps)
  | fails (h : Failed c steps)

/-- How the steps of a join end. -/
inductive Fate (c : SocketId) (agreed : Prop) (steps : List (Stride Sending Label)) : Prop
  | refused (h : Refused c steps) (hno : NoMishap c steps)
  | settled (h : Settled c agreed steps)

variable {agreed agreed' : Prop}

theorem NoMishap.cons (ht : ¬ Mishap c t) (h : NoMishap c rest) : NoMishap c (t :: rest) :=
  List.forall_mem_cons.mpr ⟨ht, h⟩

theorem Failed.cons (hsilent : Silent t) (h : Failed c rest) : Failed c (t :: rest) where
  mishap := by
    obtain ⟨u, hu, hmishap⟩ := h.mishap
    exact ⟨u, List.mem_cons_of_mem _ hu, hmishap⟩
  noRefusal := List.forall_mem_cons.mpr ⟨by simp [hsilent c], h.noRefusal⟩
  noDeal := List.forall_mem_cons.mpr ⟨by simp [hsilent c], fun u hu =>
    List.forall_mem_cons.mpr ⟨by simp [hsilent _], h.noDeal u hu⟩⟩

theorem Settled.cons (hsilent : Silent t) (ht : ¬ Mishap c t) (hagreed : agreed → agreed')
    (h : Settled c agreed rest) : Settled c agreed' (t :: rest) := by
  cases h with
  | agrees h hno => exact .agrees (hagreed h) (hno.cons ht)
  | fails h => exact .fails (h.cons hsilent)

/-- The join goes on, and nothing has changed. -/
theorem Fate.cons (hsilent : Silent t) (hleaves : LeavesMaps t) (ht : ¬ Mishap c t)
    (hagreed : agreed → agreed') (h : Fate c agreed rest) : Fate c agreed' (t :: rest) := by
  cases h with
  | refused h hno =>
      obtain ⟨⟨u, hu, htold⟩, hnone, hall⟩ := h
      exact .refused ⟨⟨u, List.mem_cons_of_mem _ hu, htold⟩,
        List.forall_mem_cons.mpr ⟨by simp [hsilent c], hnone⟩,
        List.forall_mem_cons.mpr ⟨hleaves, hall⟩⟩ (hno.cons ht)
  | settled h => exact .settled (h.cons hsilent ht hagreed)

/-- The join breaks off without a message. -/
theorem failed_of_silent (hsilent : Silent t) (ht : Mishap c t) : Failed c [t] where
  mishap := ⟨t, List.mem_singleton_self t, ht⟩
  noRefusal := by simp [hsilent c]
  noDeal := by simp [hsilent c]

/-- The loop is dropped in the middle of the join. -/
theorem Drops.failed (hd : Drops c t h) (hpc : h.pc.undecided = true) : Failed c [t] :=
  failed_of_silent hd.silent (hd.mishap_iff.mpr hpc)

/-- The joiner is refused, if there is a free place for the refusal. -/
theorem RunsBlock.refuses (hb : RunsBlock c t fresh h h' lobby)
    (hno : ¬ Mishap c t) (hleaves : LeavesMaps t)
    (hj : JoinsOn c h' [(c, .joinFailure)] rest) (hpc : h'.pc = .receiving) :
    Fate c agreed (t :: rest) := by
  have hsent := hj.sent_of_over (by rw [hpc]; rfl)
  cases hsent with
  | @cons u _ _ _ hu hnil =>
      cases hnil
      suffices hrest : Fate c agreed [u] from Fate.cons hb.silent hleaves hno id hrest
      by_cases hfull : freeSlots u.before.lobby.outboxes c = 0
      · refine .settled (.fails ⟨⟨u, List.mem_singleton_self u, hu.mishap_iff.mpr ⟨rfl, hfull⟩⟩,
          ?_, ?_⟩)
        · simp [hu.mem_sentTo, hfull]
        · simp [hu.mem_sentTo, hfull]
      · refine .refused
          ⟨⟨u, List.mem_singleton_self u, hu.mem_sentTo.mpr ⟨rfl, by omega⟩⟩, ?_, ?_⟩ ?_
        · simp [hu.mem_sentTo, ServerMessage.joinFailure]
        · simpa using hu.leavesMaps
        · simpa [NoMishap, hu.mishap_iff] using fun _ => hfull

/-! ### Step 5: after the messages -/

/-- Nothing can go wrong any more; no token is generated, and nothing is sent. -/
structure Aftermath (c : SocketId) (steps : List (Stride Sending Label)) : Prop where
  noMishap : NoMishap c steps
  generated : steps.flatMap freshTokens = []
  silent : ∀ t ∈ steps, Silent t

theorem Aftermath.cons (ht : ¬ Mishap c t) (hfresh : freshTokens t = [])
    (hsilent : Silent t) (h : Aftermath c rest) : Aftermath c (t :: rest) where
  noMishap := h.noMishap.cons ht
  generated := by rw [List.flatMap_cons, hfresh, h.generated, List.nil_append]
  silent := List.forall_mem_cons.mpr ⟨hsilent, h.silent⟩

theorem aftermath_nil : Aftermath c [] := ⟨by simp [NoMishap], rfl, by simp⟩

theorem Drops.aftermath (hd : Drops c t h) (hpc : h.pc.undecided = false) : Aftermath c [t] := by
  refine aftermath_nil.cons ?_ hd.freshTokens hd.silent
  rw [hd.mishap_iff, hpc]
  exact Bool.false_ne_true

theorem aftermath_joined {app : AppState}
    (hb : RunsBlock c t fresh h h' ((t.before.lobby.setApp app).joined c h))
    (hpc : ∀ quote, h.pc ≠ .joinPlayers quote) (hj : JoinsOn c h' [] rest) :
    Aftermath c (t :: rest) := by
  obtain rfl := hb.eq_of_put
    (k := { h with lastJoinAt := some t.before.lobby.now, pc := .broadcast }) rfl
  obtain rfl := hj.eq_nil rfl
  exact aftermath_nil.cons (hb.noMishap hpc) (hb.freshTokens rfl) hb.silent

theorem aftermath_joinReleaseOld {oldId : String} (hj : JoinsOn c h [] steps)
    (hpc : h.pc = .joinReleaseOld oldId) : Aftermath c steps := by
  rcases hj.runs (by rw [hpc]; rfl) with
    ⟨t, rest, fresh, h', lobby, rfl, _, hb, hrest⟩ | ⟨t, rfl, hd⟩
  · have hstep := hb.step
    simp only [Lobby.block, hpc, Option.some.injEq] at hstep
    simp only [Lobby.blockLetters, hpc] at hrest
    subst hstep
    exact aftermath_joined hb (by simp [hpc]) hrest
  · exact hd.aftermath (by rw [hpc]; rfl)

theorem aftermath_joinRecord {ticket : JoinTicket} (hj : JoinsOn c h [] steps)
    (hpc : h.pc = .joinRecord ticket) : Aftermath c steps := by
  rcases hj.runs (by rw [hpc]; rfl) with
    ⟨t, rest, fresh, h', lobby, rfl, _, hb, hrest⟩ | ⟨t, rfl, hd⟩
  · have hstep := hb.step
    simp only [Lobby.block, hpc, Option.some.injEq, Lobby.joinRecord] at hstep
    simp only [Lobby.blockLetters, hpc] at hrest
    split at hstep
    · next oldId _ =>
      subst hstep
      obtain rfl := hb.eq_of_put (k := { h with pc := .joinReleaseOld oldId }) rfl
      exact (aftermath_joinReleaseOld hrest rfl).cons (hb.noMishap (by simp [hpc]))
        (hb.freshTokens rfl) hb.silent
    · subst hstep
      exact aftermath_joined hb (by simp [hpc]) hrest
  · exact hd.aftermath (by rw [hpc]; rfl)

/-! ### Step 4: the token -/

section Deal

variable {ticket : JoinTicket} {token : String} {u₁ u₂ u₃ u₄ : Stride Sending Label}

/-- The four messages of a join, each sent in a step of its own. -/
structure Deal (c : SocketId) (h : Handler) (ticket : JoinTicket) (token : String)
    (u₁ u₂ u₃ u₄ : Stride Sending Label) : Prop where
  stunJoiner : Sends c u₁ (c, .stunInfo ticket.hostIp)
  stunHost : Sends c u₂ (ticket.hostTx, .stunInfo h.clientIp)
  joiner : Sends c u₃ (c, .joinResult true (some ticket.quote.roomId) (some token)
    (if ticket.quote.gameinfo.isEmpty then none else some ticket.quote.gameinfo))
  host : Sends c u₄ (ticket.hostTx, .playerJoined ticket.joinerNickname token)

theorem deal_of_sent (hsent : List.Forall₂ (Sends c) sent (Lobby.joinLetters c h ticket token)) :
    ∃ u₁ u₂ u₃ u₄, sent = [u₁, u₂, u₃, u₄] ∧ Deal c h ticket token u₁ u₂ u₃ u₄ := by
  cases hsent with
  | @cons u₁ _ _ _ h₁ hsent =>
      cases hsent with
      | @cons u₂ _ _ _ h₂ hsent =>
          cases hsent with
          | @cons u₃ _ _ _ h₃ hsent =>
              cases hsent with
              | @cons u₄ _ _ _ h₄ hsent =>
                  cases hsent
                  exact ⟨u₁, u₂, u₃, u₄, rfl, h₁, h₂, h₃, h₄⟩

namespace Deal

variable (hd : Deal c h ticket token u₁ u₂ u₃ u₄)

include hd

/-- The joiner hears of success in one send only. -/
theorem joiner_sent {roomId : String} {token' : String} {gameinfo : Option Bytes}
    (ht : t ∈ [u₁, u₂, u₃, u₄])
    (hm : .joinResult true (some roomId) (some token') gameinfo ∈ sentTo c t) :
    0 < freeSlots u₃.before.lobby.outboxes c := by
  simp only [List.mem_cons, List.not_mem_nil, or_false] at ht
  rcases ht with rfl | rfl | rfl | rfl
  · simp [hd.stunJoiner.mem_sentTo] at hm
  · simp [hd.stunHost.mem_sentTo] at hm
  · exact (hd.joiner.mem_sentTo.mp hm).2
  · simp [hd.host.mem_sentTo] at hm

/-- Nobody but the host hears of the joiner, and it hears in one send only. -/
theorem host_sent {nickname token' : String} {tx : SocketId} (ht : t ∈ [u₁, u₂, u₃, u₄])
    (hm : .playerJoined nickname token' ∈ sentTo tx t) :
    0 < freeSlots u₄.before.lobby.outboxes ticket.hostTx := by
  simp only [List.mem_cons, List.not_mem_nil, or_false] at ht
  rcases ht with rfl | rfl | rfl | rfl
  · simp [hd.stunJoiner.mem_sentTo] at hm
  · simp [hd.stunHost.mem_sentTo] at hm
  · simp [hd.joiner.mem_sentTo] at hm
  · obtain ⟨heq, hfree⟩ := hd.host.mem_sentTo.mp hm
    obtain rfl := (Prod.mk.inj heq).1
    exact hfree

theorem noRefusal (ht : t ∈ [u₁, u₂, u₃, u₄]) : .joinFailure ∉ sentTo c t := by
  simp only [List.mem_cons, List.not_mem_nil, or_false] at ht
  rcases ht with rfl | rfl | rfl | rfl
  · simp [hd.stunJoiner.mem_sentTo, ServerMessage.joinFailure]
  · simp [hd.stunHost.mem_sentTo, ServerMessage.joinFailure]
  · simp [hd.joiner.mem_sentTo, ServerMessage.joinFailure]
  · simp [hd.host.mem_sentTo, ServerMessage.joinFailure]

theorem mishap_iff : (∃ t ∈ [u₁, u₂, u₃, u₄], Mishap c t) ↔
    freeSlots u₃.before.lobby.outboxes c = 0 ∨
      freeSlots u₄.before.lobby.outboxes ticket.hostTx = 0 := by
  simp [hd.stunJoiner.mishap_iff, hd.stunHost.mishap_iff, hd.joiner.mishap_iff,
    hd.host.mishap_iff, tellsOutcome]

theorem generated : [u₁, u₂, u₃, u₄].flatMap Sending.freshTokens = [] := by
  simp [hd.stunJoiner.freshTokens, hd.stunHost.freshTokens, hd.joiner.freshTokens,
    hd.host.freshTokens]

end Deal

/-- The second block of `register_token` and the messages: what is left of a deal. -/
structure Told (c : SocketId) (h : Handler) (ticket : JoinTicket) (token : String)
    (second : Stride Sending Label) (late : List (Stride Sending Label)) : Prop where
  generated : (second :: late).flatMap freshTokens = []
  silent : Silent second
  binding : second.after.lobby.tunnel.tunnel.tokenBindings.get? token =
    some ⟨ticket.hostIp, h.clientIp⟩
  joiner : ∃ t ∈ late, ∃ gameinfo,
    .joinResult true (some ticket.quote.roomId) (some token) gameinfo ∈ sentTo c t
  host : ∃ t ∈ late, ∃ nickname, .playerJoined nickname token ∈ sentTo ticket.hostTx t

end Deal

theorem settled_joinRegisterBinding {ticket : JoinTicket} {token : String}
    (hj : JoinsOn c h [] steps) (hpc : h.pc = .joinRegisterBinding ticket token) :
    Settled c (∃ second late, steps = second :: late ∧ Told c h ticket token second late)
      steps := by
  rcases hj.runs (by rw [hpc]; rfl) with
    ⟨t, rest, fresh, h', lobby, rfl, hknows, hb, hrest⟩ | ⟨t, rfl, hdrop⟩
  swap
  · exact .fails (hdrop.failed (by rw [hpc]; rfl))
  have hstep := hb.step
  simp only [Lobby.block, hpc] at hstep
  simp only [Lobby.blockLetters, hpc] at hrest
  obtain ⟨tunnel, htunnel, rfl⟩ := Option.map_eq_some_iff.mp hstep
  obtain ⟨binding, hbinding, rfl⟩ := Option.map_eq_some_iff.mp htunnel
  -- The entry that the first block left is the one for this join.
  obtain rfl := (hknows ticket token hpc).2 binding hbinding
  obtain rfl := hb.eq_of_put (k := { h with pc := .joinRecord ticket }) rfl
  obtain ⟨sent, later, rfl, hsent, hlater⟩ := hrest.sent
  obtain ⟨u₁, u₂, u₃, u₄, rfl, hdeal⟩ := deal_of_sent hsent
  have hafter := aftermath_joinRecord hlater rfl
  have hlost : ∀ t' ∈ t :: ([u₁, u₂, u₃, u₄] ++ later), t' ∈ [u₁, u₂, u₃, u₄] ∨ Silent t' := by
    intro t' ht'
    rcases List.mem_cons.mp ht' with rfl | ht'
    · exact .inr hb.silent
    · exact (List.mem_append.mp ht').imp_right (hafter.silent t')
  by_cases hfull : freeSlots u₃.before.lobby.outboxes c = 0 ∨
      freeSlots u₄.before.lobby.outboxes ticket.hostTx = 0
  · obtain ⟨u, hu, hmishap⟩ := hdeal.mishap_iff.mpr hfull
    refine .fails ⟨⟨u, by simp at hu ⊢; tauto, hmishap⟩, fun t' ht' hrefused => ?_,
      fun t' ht' t'' ht'' _ _ _ _ tx hjoiner hhost => ?_⟩
    · rcases hlost t' ht' with hmem | hsilent
      · exact hdeal.noRefusal hmem hrefused
      · simp [hsilent c] at hrefused
    · rcases hlost t' ht' with hmem | hsilent
      · rcases hlost t'' ht'' with hmem' | hsilent
        · have hjoinerFree := hdeal.joiner_sent hmem hjoiner
          have hhostFree := hdeal.host_sent hmem' hhost
          omega
        · simp [hsilent tx] at hhost
      · simp [hsilent c] at hjoiner
  · rw [not_or] at hfull
    have hjoiner := hdeal.joiner.mem_sentTo.mpr ⟨rfl, Nat.pos_of_ne_zero hfull.1⟩
    have hhost := hdeal.host.mem_sentTo.mpr ⟨rfl, Nat.pos_of_ne_zero hfull.2⟩
    refine .agrees ⟨t, _, rfl, ?_, hb.silent, ?_, ⟨u₃, by simp, _, hjoiner⟩,
      ⟨u₄, by simp, _, hhost⟩⟩ ?_
    · rw [List.flatMap_cons, List.flatMap_append, hdeal.generated, hafter.generated,
        hb.freshTokens rfl]
      rfl
    · rw [hb.tunnel]
      exact (Table.get?_insert _ _ _ _).trans (if_pos rfl)
    · refine NoMishap.cons (hb.noMishap (by simp [hpc])) fun u hu hmishap => ?_
      rcases List.mem_append.mp hu with hu | hu
      · exact (not_or.mpr hfull) (hdeal.mishap_iff.mp ⟨u, hu, hmishap⟩)
      · exact hafter.noMishap u hu hmishap

/-- A step before the token is generated changes nothing about how it is shared. -/
theorem Shares.cons {pc : HandlerPc} {roomId token : String} {hostIp : IpAddr} {hostTx : SocketId}
    {early late : List (Stride Sending Label)} {first second : Stride Sending Label}
    (hfresh : freshTokens t = []) (hsilent : Silent t)
    (hs : Shares c { h with pc } roomId hostIp hostTx token early first second late) :
    Shares c h roomId hostIp hostTx token (t :: early) first second late where
  generated := by rw [List.cons_append, List.flatMap_cons, hfresh, List.nil_append, hs.generated]
  unused := hs.unused
  pending := hs.pending
  binding := hs.binding
  registeredFirst := List.forall_mem_cons.mpr ⟨hsilent, hs.registeredFirst⟩
  joiner := hs.joiner
  host := hs.host

/-- The steps share a token with the host. -/
def Deals (c : SocketId) (h : Handler) (roomId : String) (hostIp : IpAddr) (hostTx : SocketId)
    (steps : List (Stride Sending Label)) : Prop :=
  ∃ token early first second late, steps = early ++ first :: second :: late ∧
    Shares c h roomId hostIp hostTx token early first second late

theorem Deals.cons {pc : HandlerPc} {roomId : String} {hostIp : IpAddr} {hostTx : SocketId}
    (hfresh : freshTokens t = []) (hsilent : Silent t)
    (hd : Deals c { h with pc } roomId hostIp hostTx rest) :
    Deals c h roomId hostIp hostTx (t :: rest) := by
  obtain ⟨token, early, first, second, late, rfl, hs⟩ := hd
  exact ⟨token, t :: early, first, second, late, rfl, hs.cons hfresh hsilent⟩

theorem settled_joinRegisterPending {ticket : JoinTicket} (hj : JoinsOn c h [] steps)
    (hpc : h.pc = .joinRegisterPending ticket) :
    Settled c (Deals c h ticket.quote.roomId ticket.hostIp ticket.hostTx steps) steps := by
  rcases hj.runs (by rw [hpc]; rfl) with
    ⟨t, rest, fresh, h', lobby, rfl, _, hb, hrest⟩ | ⟨t, rfl, hdrop⟩
  swap
  · exact .fails (hdrop.failed (by rw [hpc]; rfl))
  have hstep := hb.step
  simp only [Lobby.block, hpc] at hstep
  simp only [Lobby.blockLetters, hpc] at hrest
  obtain ⟨tunnel, htunnel, rfl⟩ := Option.map_eq_some_iff.mp hstep
  simp only [TunnelService.registerPending] at htunnel
  split at htunnel
  · cases htunnel
  · next hunused =>
    cases htunnel
    obtain rfl := hb.eq_of_put (k := { h with pc := .joinRegisterBinding ticket fresh }) rfl
    have hfresh : freshTokens t = [fresh] := by
      simp [freshTokens, hb.tunnel, Lobby.goto, Lobby.put, Lobby.setTunnel,
        TunnelService.setTunnel]
    refine (settled_joinRegisterBinding hrest rfl).cons hb.silent (hb.noMishap (by simp [hpc])) ?_
    rintro ⟨second, late, rfl, htold⟩
    refine ⟨fresh, [], t, second, late, rfl, ?_, hunused, ?_, htold.binding, ?_, htold.joiner,
      htold.host⟩
    · rw [List.nil_append, List.flatMap_cons, hfresh, htold.generated, List.append_nil]
    · rw [hb.tunnel]
      exact (Table.get?_insert _ _ _ _).trans (if_pos rfl)
    · exact List.forall_mem_cons.mpr
        ⟨hb.silent, fun u hu => List.mem_singleton.mp hu ▸ htold.silent⟩

/-! ### Steps 1 to 3: the slot -/

theorem fate_joinReserve {ticket : JoinTicket} (hj : JoinsOn c h [] steps)
    (hpc : h.pc = .joinReserve ticket) :
    Fate c (Deals c h ticket.quote.roomId ticket.hostIp ticket.hostTx steps) steps := by
  rcases hj.runs (by rw [hpc]; rfl) with
    ⟨t, rest, fresh, h', lobby, rfl, _, hb, hrest⟩ | ⟨t, rfl, hdrop⟩
  swap
  · exact .settled (.fails (hdrop.failed (by rw [hpc]; rfl)))
  have hstep := hb.step
  simp only [Lobby.block, hpc, Option.some.injEq, Lobby.joinReserve] at hstep
  simp only [Lobby.blockLetters, hpc] at hrest
  have hno : ¬ Mishap c t := hb.noMishap (by simp [hpc])
  split at hstep
  · next app hreserved =>
    subst hstep
    obtain rfl := hb.eq_of_put (k := { h with pc := .joinRegisterPending ticket }) rfl
    rw [hreserved, if_pos rfl] at hrest
    exact .settled ((settled_joinRegisterPending hrest rfl).cons hb.silent hno
      (.cons (hb.freshTokens rfl) hb.silent))
  · next app hreserved =>
    -- A room that is gone, or full, refuses.
    subst hstep
    obtain rfl := hb.eq_of_put (k := { h with pc := .receiving }) rfl
    rw [hreserved, if_neg Bool.false_ne_true] at hrest
    exact hb.refuses hno (hb.leavesMaps rfl rfl) hrest rfl

theorem fate_joinPlayers {quote : JoinQuote} (hj : JoinsOn c h [] steps)
    (hpc : h.pc = .joinPlayers quote) :
    Fate c (∃ host t rest, steps = t :: rest ∧ Silent t ∧ freshTokens t = [] ∧
      t.before.lobby.app.players.get? quote.hostPlayerId = some host ∧ host.online = true ∧
      ∃ pc, Deals c { h with pc } quote.roomId host.clientIp host.tx rest) steps := by
  rcases hj.runs (by rw [hpc]; rfl) with
    ⟨t, rest, fresh, h', lobby, rfl, _, hb, hrest⟩ | ⟨t, rfl, hdrop⟩
  swap
  · exact .settled (.fails (hdrop.failed (by rw [hpc]; rfl)))
  have hstep := hb.step
  simp only [Lobby.block, hpc, Option.some.injEq, Lobby.joinPlayers] at hstep
  simp only [Lobby.blockLetters, hpc] at hrest
  cases hjoiner : t.before.lobby.app.players.get? h.playerId with
  | none =>
      simp only [hjoiner] at hstep hrest
      subst hstep
      obtain rfl := hb.eq_of_put (k := { h with pc := .receiving }) rfl
      obtain rfl := hrest.eq_nil rfl
      exact .settled (.fails (failed_of_silent hb.silent (hb.mishap_iff.mpr ⟨quote, hpc, hjoiner⟩)))
  | some joiner =>
      have hno : ¬ Mishap c t := by simp [hb.mishap_iff, hjoiner]
      simp only [hjoiner] at hstep hrest
      by_cases hversion : joiner.war3Version ≠ quote.roomVersion
      · rw [if_pos hversion] at hstep hrest
        subst hstep
        obtain rfl := hb.eq_of_put (k := { h with pc := .receiving }) rfl
        exact hb.refuses hno (hb.leavesMaps rfl rfl) hrest rfl
      · rw [if_neg hversion] at hstep hrest
        split at hstep
        · next host hhost =>
          obtain ⟨hhost, honline⟩ := Option.filter_eq_some_iff.mp hhost
          subst hstep
          let ticket : JoinTicket := ⟨quote, joiner.nickname, host.clientIp, host.tx⟩
          obtain rfl := hb.eq_of_put (k := { h with pc := .joinReserve ticket }) rfl
          rw [if_pos (by rw [hhost]; exact honline)] at hrest
          refine (fate_joinReserve hrest rfl).cons hb.silent (hb.leavesMaps rfl rfl) hno
            fun hdeals => ?_
          exact ⟨host, t, rest, rfl, hb.silent, hb.freshTokens rfl, hhost, honline, _, hdeals⟩
        · next hhost =>
          subst hstep
          obtain rfl := hb.eq_of_put (k := { h with pc := .receiving }) rfl
          have hoffline :
              ¬ (t.before.lobby.app.players.get? quote.hostPlayerId).any (·.online) := by
            rw [Bool.not_eq_true, Option.any_eq_false]
            simpa [Option.filter_eq_none_iff] using hhost
          rw [if_neg hoffline] at hrest
          exact hb.refuses hno (hb.leavesMaps rfl rfl) hrest rfl

theorem fate_joinRoom {roomId : String} (hj : JoinsOn c h [] steps)
    (hpc : h.pc = .joinRoom roomId) : Fate c (Agreed c h roomId steps) steps := by
  rcases hj.runs (by rw [hpc]; rfl) with
    ⟨t, rest, fresh, h', lobby, rfl, _, hb, hrest⟩ | ⟨t, rfl, hdrop⟩
  swap
  · exact .settled (.fails (hdrop.failed (by rw [hpc]; rfl)))
  have hstep := hb.step
  simp only [Lobby.block, hpc, Option.some.injEq, Lobby.joinRoom] at hstep
  simp only [Lobby.blockLetters, hpc] at hrest
  have hno : ¬ Mishap c t := hb.noMishap (by simp [hpc])
  split at hstep
  · next room hroom =>
    subst hstep
    let quote : JoinQuote := ⟨roomId, room.hostPlayerId, room.war3Version, room.gameinfo⟩
    obtain rfl := hb.eq_of_put (k := { h with pc := .joinPlayers quote }) rfl
    simp only [hroom, Option.isSome_some, if_true] at hrest
    refine (fate_joinPlayers hrest rfl).cons hb.silent (hb.leavesMaps rfl rfl) hno ?_
    rintro ⟨host, t', rest, rfl, hsilent, hfresh, hhost, honline, pc, token, early, first, second,
      late, rfl, hs⟩
    have hs' := (hs.cons (h := { h with pc := _ }) hfresh hsilent).cons (hb.freshTokens rfl)
      hb.silent
    exact ⟨room, host, token, t :: t' :: early, first, second, late, rfl,
      ⟨t, by simp, hroom⟩, ⟨t', by simp, hhost, honline⟩, hs'⟩
  · next hroom =>
    subst hstep
    obtain rfl := hb.eq_of_put (k := { h with pc := .receiving }) rfl
    simp only [hroom, Option.isSome_none, Bool.false_eq_true, if_false] at hrest
    exact hb.refuses hno (hb.leavesMaps rfl rfl) hrest rfl

/-! ## Whole joins -/

/-- No step of anybody touches what a join knows of its token. -/
theorem knowsToken_lobby {s lobby : Lobby} {l : Lobby.Label} (hstep : s.step l = some lobby)
    (hknows : KnowsToken h s) : KnowsToken h lobby := by
  intro ticket token hpc
  obtain ⟨hissued, hbinding⟩ := hknows ticket token hpc
  obtain htunnel | ⟨m, _, hmoves⟩ := Lobby.tunnel_cases hstep
  · rw [htunnel]
    exact ⟨hissued, hbinding⟩
  · have hregisters := TunnelService.registers_step hmoves
    refine ⟨hregisters.issued ▸ List.mem_append_right _ hissued, fun binding hnew => ?_⟩
    rcases hregisters.registering hnew with hold | hfresh
    · exact hbinding binding hold
    · exact absurd hissued (hregisters.unused _ hfresh)

theorem knowsToken_step {s s' : Sending} {l : Label} (hstep : machine.step s l = some s')
    (hknows : KnowsToken h s.lobby) : KnowsToken h s'.lobby := by
  have htakes : Takes s l s' := takes_of_step hstep
  cases htakes with
  | apart _ hlobby => exact knowsToken_lobby hlobby hknows
  | @begins l task lobby _ _ hlobby =>
      have hknows' : KnowsToken h lobby := knowsToken_lobby hlobby hknows
      exact hknows'
  | sends _ => exact hknows

/-- The handler enters the second block of `register_token` from the first one only. -/
theorem RunsBlock.knowsToken (hb : RunsBlock c t fresh h h' lobby) :
    KnowsToken h' t.after.lobby := by
  intro ticket token hpc'
  have hstep := hb.step
  obtain ⟨k, hmoves, hleads⟩ := Lobby.leadsTo_block hb.before hstep
  obtain rfl := hmoves.eq_of_running (by simpa [hb.sendsLater] using hb.after)
  rw [hpc'] at hleads
  rw [hb.tunnel]
  generalize hpc : h.pc = pc at hleads
  cases hleads with
  | joinRegisterPending =>
      simp only [Lobby.block, hpc, Lobby.joinRegisterPending, TunnelService.registerPending]
        at hstep
      split at hstep <;> cases hstep
      obtain rfl := hb.eq_of_put (k := { h with pc := .joinRegisterBinding ticket fresh }) rfl
      cases hpc'
      refine ⟨List.mem_cons_self, fun binding hbinding => ?_⟩
      exact Option.some.inj (hbinding.symm.trans ((Table.get?_insert _ _ _ _).trans (if_pos rfl)))

/-- Every step of the handler inside the join knows its token, if it has one. -/
theorem Acts.knowsToken {letters' : List (SocketId × ServerMessage)}
    (ha : Acts c t h letters h' letters') (hjoining : letters = [] → h.pc ≠ .receiving)
    (hknows : KnowsToken h t.before.lobby) : KnowsToken h' t.after.lobby := by
  cases ha with
  | reads hpc => exact absurd hpc (hjoining rfl)
  | block hblock => exact hblock.knowsToken
  | drop _ =>
      intro ticket token hpc
      have hexit := h.joining_exit
      rw [hpc] at hexit
      cases hexit
  | send hsend =>
      rw [hsend.offers]
      exact hknows

/-- The handler is inside a join, or has still to send what it sends at its end. -/
def inJoin (s : Sending) (c : SocketId) : Bool :=
  (s.lobby.handler c).any (·.pc.joining) || !(s.owed (.socket c)).isEmpty

/-- From `s` on the handler of `c` processes a `JoinRoom` that passed the guards of its arm: its
five steps and its messages, while everybody else does what they like, until the join is over. -/
structure Joins (c : SocketId) (h : Handler) (roomId : String) (s : Sending)
    (labels : List Label) (s' : Sending) : Prop where
  thread : s.thread c = some (h, [])
  begins : h.pc = .joinRoom roomId
  run : machine.exec s labels = some s'
  during : ∀ t ∈ ownSteps c s labels, t.before.inJoin c = true
  done : s'.inJoin c = false

section Joins

variable {s s' : Sending} {roomId : String} {labels : List Label}

theorem Joins.joinsOn (hj : Joins c h roomId s labels s') :
    JoinsOn c h [] (ownSteps c s labels) := by
  obtain ⟨⟨h', letters⟩, hend, hchain⟩ := Machine.chain_of_exec (isolates c) hj.thread hj.run
  obtain ⟨hc', howed⟩ := thread_eq_some.mp hend
  have hdone := hj.done
  simp only [inJoin, hc', howed, Option.any_some, Bool.or_eq_false_iff, Bool.not_eq_false',
    List.isEmpty_iff] at hdone
  obtain ⟨hover, rfl⟩ := hdone
  refine course_of_chain hchain hover rfl (fun t ht k hk => ?_) fun t ht k hk => ?_
  · obtain ⟨hc, howed⟩ := thread_eq_some.mp hk
    simpa [inJoin, hc, howed] using hj.during t ht
  · refine Machine.rely (isolates c) (fun v s => KnowsToken v.1 s.lobby) knowsToken_step hj.thread
      ?_ hj.run ?_ t ht (k, _) (thread_eq_some.mpr ⟨hk, rfl⟩)
    · intro ticket token hpc
      rw [hj.begins] at hpc
      cases hpc
    · rintro t ht ⟨k, letters⟩ ⟨k', letters'⟩ hv hv' hknows
      obtain ⟨hown, hstep, _⟩ := Machine.of_mem_strides ht
      obtain ⟨hc, howed⟩ := thread_eq_some.mp hv
      have hjoining : letters = [] → k.pc ≠ .receiving := by
        rintro rfl hpc
        have hduring := hj.during t ht
        simp [inJoin, hc, howed, hpc, HandlerPc.joining] at hduring
      exact (acts_of_step hstep hown hv hv').knowsToken hjoining hknows

theorem Failed.not_allOrNothing (hfailed : Failed c steps) : ¬ AllOrNothing c h roomId steps := by
  rintro (hrefused | ⟨_, _, _, early, first, second, late, rfl, _, _, hshares⟩)
  · obtain ⟨t, ht, htold⟩ := hrefused.told
    exact hfailed.noRefusal t ht htold
  · obtain ⟨t, ht, gameinfo, hjoiner⟩ := hshares.joiner
    obtain ⟨t', ht', nickname, hhost⟩ := hshares.host
    exact hfailed.noDeal t (by simp [ht]) t' (by simp [ht']) _ _ _ _ _ hjoiner hhost

theorem Fate.iff_noMishap (hf : Fate c (Agreed c h roomId steps) steps) :
    AllOrNothing c h roomId steps ↔ NoMishap c steps := by
  rcases hf with ⟨hrefused, hno⟩ | ⟨⟨hagreed, hno⟩ | hfailed⟩
  · exact iff_of_true (.inl hrefused) hno
  · exact iff_of_true (.inr hagreed) hno
  · refine iff_of_false hfailed.not_allOrNothing fun hno => ?_
    obtain ⟨t, ht, hmishap⟩ := hfailed.mishap
    exact hno t ht hmishap

/-- A join is all or nothing for both parties, unless a step of it meets a mishap. -/
theorem allOrNothing_iff (hj : Joins c h roomId s labels s') :
    AllOrNothing c h roomId (ownSteps c s labels) ↔
      ∀ t ∈ ownSteps c s labels, ¬ Mishap c t :=
  (fate_joinRoom hj.joinsOn hj.begins).iff_noMishap

/-- The handler of `c` processes a join in a replay, and the test holds of its steps. -/
def joinsFrom (c : SocketId) (roomId : String) (labels : List Label)
    (test : List (Stride Sending Label) → Bool) (s : Lobby) : Bool :=
  let s : Sending := ⟨s, fun _ => []⟩
  (s.lobby.handler c).any (fun h => h.pc.begins roomId) && test (ownSteps c s labels) &&
    (ownSteps c s labels).all (fun t => t.before.inJoin c) &&
      (machine.exec s labels).any fun s' => !s'.inJoin c

/-- A replay of a join. -/
theorem exists_joins {run : List Lobby.Label} {test : List (Stride Sending Label) → Bool}
    (hrun : (Lobby.machine.exec Lobby.machine.init run).any (joinsFrom c roomId labels test) =
      true) :
    ∃ h s s', machine.Reachable s ∧ Joins c h roomId s labels s' ∧
      test (ownSteps c s labels) = true := by
  obtain ⟨s, hexec, htest⟩ := (Option.any_eq_true _ _).mp hrun
  simp only [joinsFrom, Bool.and_eq_true, List.all_eq_true] at htest
  obtain ⟨⟨⟨hbegins, htest⟩, hduring⟩, hdone⟩ := htest
  obtain ⟨s', hexec', hdone⟩ := (Option.any_eq_true _ _).mp hdone
  obtain ⟨h, hh, hpc⟩ := (Option.any_eq_true _ _).mp hbegins
  exact ⟨h, _, s', reachable_atOnce hexec, ⟨thread_eq_some.mpr ⟨hh, rfl⟩,
    HandlerPc.begins_eq_true.mp hpc, hexec', hduring, Bool.not_eq_true' _ ▸ hdone⟩, htest⟩

end Joins

/-- A host and its room; another player asks to join it. -/
def asksToJoin : List Lobby.Label :=
  Lobby.registers 0 "a" ++ Lobby.createsRoom 0 "r" ++ Lobby.registers 1 "b" ++
    [.frame 1 (.text 40 (some (.joinRoom "r")) none)]

/-- The first four steps of that join. -/
def joinsAsked : List Label := ["", "", "", "t", ""].map fun fresh => .server (.block 1 fresh)

/-- The player joins, and both parties hear of it; while the messages go out, the host sends a
ping, and its send task takes a message out of its queue. -/
theorem allOrNothing_joined : ∃ h s labels s', Joins 1 h "r" s labels s' ∧
    AllOrNothing 1 h "r" (ownSteps 1 s labels) := by
  let labels : List Label := joinsAsked ++
    [.send (.socket 1), .server (.frame 0 (.text 20 (some (.ping 7)) none)), .send (.socket 1),
      .send (.socket 0), .send (.socket 1), .server (.sent 0 true), .send (.socket 1),
      .server (.block 1 "")]
  have hrun : (Lobby.machine.exec Lobby.machine.init asksToJoin).any
      (joinsFrom 1 "r" labels fun steps => decide (∀ t ∈ steps, ¬ Mishap 1 t)) = true := by
    decide
  obtain ⟨h, s, s', _, hj, htest⟩ := exists_joins hrun
  exact ⟨h, s, labels, s', hj, (allOrNothing_iff hj).mpr (of_decide_eq_true htest)⟩

/-- The send task of the host ends after the joiner was told of success, and before the host is
told of the joiner. -/
theorem not_always_allOrNothing : ∃ h s labels s', machine.Reachable s ∧ Joins 1 h "r" s labels s' ∧
    (∃ t ∈ ownSteps 1 s labels,
      .joinResult true (some "r") (some "t") none ∈ sentTo 1 t) ∧
    (∀ t ∈ ownSteps 1 s labels, ∀ nickname token, .playerJoined nickname token ∉ sentTo 0 t) ∧
    ¬ AllOrNothing 1 h "r" (ownSteps 1 s labels) := by
  let labels : List Label := joinsAsked ++
    [.send (.socket 1), .send (.socket 1), .send (.socket 1), .server (.sent 0 false),
      .send (.socket 1), .server (.block 1 "")]
  have hrun : (Lobby.machine.exec Lobby.machine.init asksToJoin).any
      (joinsFrom 1 "r" labels fun steps =>
        decide ((∃ t ∈ steps, .joinResult true (some "r") (some "t") none ∈ sentTo 1 t) ∧
          (∀ t ∈ steps, ∀ m ∈ sentTo 0 t, m = .stunInfo (.v4 0x08080808)) ∧
            ∃ t ∈ steps, Mishap 1 t)) = true := by
    decide
  obtain ⟨h, s, s', hreach, hj, htest⟩ := exists_joins hrun
  obtain ⟨htold, hsilent, t, ht, hmishap⟩ := of_decide_eq_true htest
  refine ⟨h, s, labels, s', hreach, hj, htold, fun t ht nickname token hm => ?_, fun hall => ?_⟩
  · cases hsilent t ht _ hm
  · exact (fate_joinRoom hj.joinsOn hj.begins).iff_noMishap.mp hall t ht hmishap

end Sending

end War3BattleTool.Server
