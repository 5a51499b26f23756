import War3BattleTool.Server.News
import War3BattleTool.Server.Requests

set_option autoImplicit false

/-!
# The outgoing queue of a connection

A step of the server mails letters, or takes the first message out of one queue, or gives a new
connection its queue (`Queues`).  So the queue of a running connection takes messages behind the
ones it took before, and once its send task has ended it takes none any more.
-/

namespace War3BattleTool.Server

open War3BattleTool.Foundation War3BattleTool.Protocol

namespace Lobby

variable {s s' : Lobby} {c : SocketId}

/-- What a step does to the queues. -/
inductive Queues (s s' : Lobby) (l : Label) : Prop
  | mails (letters : List (SocketId × ServerMessage))
      (houtboxes : s'.outboxes = mail s.outboxes letters) (hl : ∀ tx ok, l ≠ .sent tx ok)
  | pops {tx : SocketId} {o o' : Outbox} {ok : Bool} (ho : s.outboxes.get? tx = some o)
      (hpop : o.pop ok = some o') (houtboxes : s'.outboxes = s.outboxes.modify tx fun _ => o')
      (hl : l = .sent tx ok)
  | opens {tx : SocketId} {clientIp : IpAddr}
      (hsocket : s.sockets.get? tx = some (.upgrading clientIp))
      (houtboxes : s'.outboxes = s.outboxes.insert tx .new) (hl : ∀ tx ok, l ≠ .sent tx ok)

theorem KeepsQuiet.queues {l : Label} (h : KeepsQuiet s s') (hl : ∀ tx ok, l ≠ .sent tx ok) :
    Queues s s' l := by
  obtain ⟨letters, _, houtboxes⟩ := h
  exact .mails letters houtboxes hl

theorem queues_of_eq {l : Label} (houtboxes : s'.outboxes = s.outboxes)
    (hl : ∀ tx ok, l ≠ .sent tx ok) : Queues s s' l := .mails [] houtboxes hl

theorem queues_of_block {l : Label} {h : Handler} {fresh : String}
    (hstep : s.block c h fresh = some s') (hl : ∀ tx ok, l ≠ .sent tx ok) : Queues s s' l := by
  cases htells : h.pc.tells with
  | false => exact (keepsQuiet_block hstep htells).queues hl
  | true =>
      unfold block at hstep
      cases hpc : h.pc with
      | joinRegisterBinding ticket token =>
          simp only [hpc] at hstep
          obtain ⟨tunnel, _, rfl⟩ := Option.map_eq_some_iff.mp hstep
          exact .mails (joinLetters c h ticket token) rfl hl
      | upnpForward externalAddr joinerPlayerId =>
          simp only [hpc, Option.some.injEq] at hstep
          rw [← hstep]
          exact .mails _ (outboxes_upnpForward externalAddr joinerPlayerId) hl
      | _ =>
          rw [hpc] at htells
          cases htells

theorem queues_of_step {l : Label} (hstep : s.step l = some s') : Queues s s' l := by
  cases l with
  | elapse d =>
      cases hstep
      exact queues_of_eq rfl (by simp)
  | tunnel l =>
      simp only [step] at hstep
      split at hstep
      · obtain ⟨tunnel, _, rfl⟩ := Option.map_eq_some_iff.mp hstep
        exact queues_of_eq rfl (by simp)
      · cases hstep
  | request c originOk clientIp =>
      simp only [step, request] at hstep
      split at hstep
      · cases hstep
      · split at hstep <;> cases hstep <;> exact queues_of_eq rfl (by simp)
  | upgrade c playerId =>
      simp only [step] at hstep
      split at hstep
      · next clientIp hsocket =>
        split at hstep
        · unfold upgraded at hstep
          split at hstep <;> cases hstep
          exact .opens hsocket rfl (by simp)
        · cases hstep
          exact queues_of_eq rfl (by simp)
      · cases hstep
  | frame c item =>
      obtain ⟨h, _, hstep⟩ := whenRunning_eq_some hstep
      split at hstep <;> cases hstep
      exact (keepsQuiet_frame item).queues (by simp)
  | block c fresh =>
      obtain ⟨h, _, hstep⟩ := whenRunning_eq_some hstep
      exact queues_of_block hstep (by simp)
  | drop c =>
      obtain ⟨h, _, hstep⟩ := whenRunning_eq_some hstep
      split at hstep <;> cases hstep
      exact queues_of_eq rfl (by simp)
  | sent c ok =>
      obtain ⟨o, ho, hstep⟩ := Option.bind_eq_some_iff.mp hstep
      obtain ⟨o', hpop, rfl⟩ := Option.map_eq_some_iff.mp hstep
      exact .pops ho hpop rfl rfl
  | cleanup =>
      simp only [step, cleanupStep] at hstep
      split at hstep
      · split at hstep <;> cases hstep
        exact queues_of_eq rfl (by simp)
      · cases hstep
        exact queues_of_eq rfl (by simp)
      · cases hstep
        exact queues_of_eq rfl (by simp)
      · cases hstep
        exact (keepsQuiet_broadcast rfl).queues (by simp)
      · cases hstep
        exact queues_of_eq rfl (by simp)
      · cases hstep
        exact queues_of_eq rfl (by simp)

/-! ## The queue of a running connection -/

/-- The send task of the connection runs, if the connection has one. -/
def sends (s : Lobby) (c : SocketId) : Bool := (s.outboxes.get? c).all (·.rxOpen)

theorem rxOpen_trySend (o : Outbox) (m : ServerMessage) : (o.trySend m).rxOpen = o.rxOpen := by
  unfold Outbox.trySend
  split <;> rfl

theorem sends_offer {outboxes : Table SocketId Outbox} (tx : SocketId) (m : ServerMessage) :
    ((offer outboxes tx m).get? c).all (·.rxOpen) = (outboxes.get? c).all (·.rxOpen) := by
  rw [get?_offer]
  split
  · cases outboxes.get? c with
    | none => rfl
    | some o => exact rxOpen_trySend o m
  · rfl

theorem sends_mail {outboxes : Table SocketId Outbox}
    (letters : List (SocketId × ServerMessage)) :
    ((mail outboxes letters).get? c).all (·.rxOpen) = (outboxes.get? c).all (·.rxOpen) := by
  induction letters generalizing outboxes with
  | nil => rfl
  | cons letter rest ih =>
      rw [mail, List.foldl_cons]
      exact ih.trans (sends_offer letter.1 letter.2)

/-- A message that cannot be sent ends the send task. -/
theorem sends_of_failed (hstep : s.step (.sent c false) = some s') : s'.sends c = false := by
  obtain ⟨o, ho, hpops⟩ := Option.bind_eq_some_iff.mp hstep
  obtain ⟨o', hpop, rfl⟩ := Option.map_eq_some_iff.mp hpops
  unfold Outbox.pop at hpop
  split at hpop
  · cases hpop
    simp [sends, Table.get?_modify, ho]
  · cases hpop

/-- The queue of a running connection takes messages behind the ones it took before, and a send
task that has ended does not start again. -/
theorem accepted_of_step {l : Label} (hstep : s.step l = some s') (hc : (s.handler c).isSome) :
    (∃ new, accepted s'.outboxes c = accepted s.outboxes c ++ new) ∧
      (s'.sends c = true → s.sends c = true) := by
  unfold sends
  cases queues_of_step hstep with
  | mails letters houtboxes =>
      rw [houtboxes, sends_mail]
      exact ⟨⟨_, accepted_mail⟩, id⟩
  | @pops tx o o' ok ho hpop houtboxes =>
      rw [houtboxes]
      refine ⟨⟨[], by rw [accepted_pop ho hpop, List.append_nil]⟩, fun hopen => ?_⟩
      rw [Table.get?_modify] at hopen
      split at hopen
      · next heq =>
        subst heq
        rw [ho] at hopen ⊢
        unfold Outbox.pop at hpop
        split at hpop
        · cases ok with
          | true =>
              cases hpop
              exact hopen
          | false =>
              cases hpop
              cases hopen
        · cases hpop
      · exact hopen
  | @opens tx clientIp hsocket houtboxes =>
      have hne : c ≠ tx := by
        rintro rfl
        obtain ⟨h, hh⟩ := Option.isSome_iff_exists.mp hc
        rw [handler_eq_some.mp hh] at hsocket
        cases hsocket
      rw [houtboxes, Table.get?_insert, if_neg hne]
      refine ⟨⟨[], ?_⟩, id⟩
      rw [List.append_nil]
      unfold accepted
      rw [Table.get?_insert, if_neg hne]

/-- What waits in the queue of a connection. -/
def inQueue (s : Lobby) (c : SocketId) : List ServerMessage :=
  ((s.outboxes.get? c).map (·.queue)).getD []

/-- The message that leaves the queue of a connection in a step. -/
def departs (s : Lobby) (c : SocketId) : Label → List ServerMessage
  | .sent c' true => if c' = c then (s.inQueue c).take 1 else []
  | _ => []

theorem departs_of_ne {l : Label} (hl : l ≠ .sent c true) : s.departs c l = [] := by
  unfold departs
  split
  next c' => exact if_neg fun heq => hl (by rw [heq])
  next => rfl

/-- What a step does to the queue of a connection: it takes messages, its first message leaves
it, or its send task ends. -/
inductive QueueStep (s s' : Lobby) (c : SocketId) (l : Label) : Prop
  | takes (new : List ServerMessage)
      (haccepted : accepted s'.outboxes c = accepted s.outboxes c ++ new)
      (hqueue : s'.inQueue c = s.inQueue c ++ new) (hsends : s'.sends c = s.sends c)
      (hnew : s.sends c = false → new = []) (hdeparts : s.departs c l = [])
  | leaves (m : ServerMessage) (haccepted : accepted s'.outboxes c = accepted s.outboxes c)
      (hqueue : s.inQueue c = m :: s'.inQueue c) (hsends : s'.sends c = s.sends c)
      (hdeparts : s.departs c l = [m])
  | ends (haccepted : accepted s'.outboxes c = accepted s.outboxes c)
      (hqueue : s'.inQueue c = []) (hends : s'.sends c = false) (hdeparts : s.departs c l = [])

theorem grows_offer (outboxes : Table SocketId Outbox) (tx : SocketId) (m : ServerMessage) :
    ∃ new, accepted (offer outboxes tx m) c = accepted outboxes c ++ new ∧
      (((offer outboxes tx m).get? c).map (·.queue)).getD [] =
        ((outboxes.get? c).map (·.queue)).getD [] ++ new ∧
      ((outboxes.get? c).all (·.rxOpen) = false → new = []) := by
  simp only [accepted, get?_offer]
  split
  · cases outboxes.get? c with
    | none => exact ⟨[], rfl, rfl, fun _ => rfl⟩
    | some o =>
        simp only [Option.map_some, Option.getD_some, Option.all_some, Outbox.trySend]
        split
        next hroom => exact ⟨[m], rfl, rfl, fun hclosed => by simp [hclosed] at hroom⟩
        next => exact ⟨[], (List.append_nil _).symm, (List.append_nil _).symm, fun _ => rfl⟩
  · exact ⟨[], (List.append_nil _).symm, (List.append_nil _).symm, fun _ => rfl⟩

/-- A queue takes the same messages as its history. -/
theorem grows_mail (outboxes : Table SocketId Outbox)
    (letters : List (SocketId × ServerMessage)) :
    ∃ new, accepted (mail outboxes letters) c = accepted outboxes c ++ new ∧
      (((mail outboxes letters).get? c).map (·.queue)).getD [] =
        ((outboxes.get? c).map (·.queue)).getD [] ++ new ∧
      ((outboxes.get? c).all (·.rxOpen) = false → new = []) := by
  induction letters generalizing outboxes with
  | nil => exact ⟨[], (List.append_nil _).symm, (List.append_nil _).symm, fun _ => rfl⟩
  | cons letter rest ih =>
      obtain ⟨first, haccepted, hqueue, hfirst⟩ := grows_offer (c := c) outboxes letter.1
        letter.2
      obtain ⟨more, haccepted', hqueue', hmore⟩ := ih (offer outboxes letter.1 letter.2)
      rw [mail, List.foldl_cons]
      refine ⟨first ++ more, haccepted'.trans ?_, hqueue'.trans ?_, fun hclosed => ?_⟩
      · rw [haccepted, List.append_assoc]
      · rw [hqueue, List.append_assoc]
      · rw [hfirst hclosed, hmore ((sends_offer letter.1 letter.2).trans hclosed)]
        rfl

/-- A handler stays with its connection. -/
theorem handler_of_step {l : Label} (hstep : s.step l = some s') (hc : (s.handler c).isSome) :
    (s'.handler c).isSome := by
  obtain ⟨h, hh⟩ := Option.isSome_iff_exists.mp hc
  cases hown : isOwn c s l with
  | false => rw [(isolates c).kept hstep hh hown]; rfl
  | true =>
      obtain ⟨h', hh'⟩ := (isolates c).moved hstep hh hown
      rw [hh']; rfl

/-- The queue of every connection changes in one of these ways. -/
theorem queueStep_of_step {l : Label} (ha : s.Attended) (hstep : s.step l = some s') :
    QueueStep s s' c l := by
  cases queues_of_step hstep with
  | mails letters houtboxes hl =>
      obtain ⟨new, haccepted, hqueue, hnew⟩ := grows_mail (c := c) s.outboxes letters
      rw [← houtboxes] at haccepted hqueue
      refine .takes new haccepted hqueue ?_ hnew (departs_of_ne (hl c true))
      rw [sends, houtboxes, sends_mail]
      rfl
  | @pops tx o o' ok ho hpop houtboxes hl =>
      have haccepted : accepted s'.outboxes c = accepted s.outboxes c := by
        rw [houtboxes]
        exact accepted_pop ho hpop c
      by_cases heq : tx = c
      · subst heq
        cases ok with
        | false =>
            rw [hl] at hstep
            refine .ends haccepted ?_ (sends_of_failed hstep) (by rw [hl]; rfl)
            unfold Outbox.pop at hpop
            split at hpop
            · cases hpop
              simp only [inQueue, houtboxes, Table.get?_modify, if_pos, ho, Option.map_some]
              rfl
            · cases hpop
        | true =>
            obtain ⟨m, hqueue, hopen⟩ : ∃ m, o.queue = m :: o'.queue ∧ o'.rxOpen = o.rxOpen := by
              unfold Outbox.pop at hpop
              split at hpop
              next m rest hmore =>
                cases hpop
                exact ⟨m, hmore, rfl⟩
              next => cases hpop
            have hbefore : s.inQueue tx = m :: o'.queue := by simp [inQueue, ho, hqueue]
            refine .leaves m haccepted ?_ ?_ ?_
            · rw [hbefore]
              simp only [inQueue, houtboxes, Table.get?_modify, if_pos, ho, Option.map_some,
                Option.getD_some]
            · simp only [sends, houtboxes, Table.get?_modify, if_pos, ho, Option.map_some,
                Option.all_some, hopen]
            · rw [hl, departs, if_pos rfl, hbefore]
              rfl
      · refine .takes [] (haccepted.trans (List.append_nil _).symm) ?_ ?_ (fun _ => rfl) ?_
        · simp only [inQueue, houtboxes, Table.get?_modify, if_neg (Ne.symm heq),
            List.append_nil]
        · simp only [sends, houtboxes, Table.get?_modify, if_neg (Ne.symm heq)]
        · refine departs_of_ne ?_
          rw [hl]
          rintro ⟨⟩
          exact heq rfl
  | @opens tx clientIp hsocket houtboxes hl =>
      by_cases heq : c = tx
      · -- A connection has no queue before its handler starts.
        subst heq
        have hnone : s.outboxes.get? c = none := by
          cases ho : s.outboxes.get? c with
          | none => rfl
          | some o =>
              obtain ⟨h, hh⟩ := ha.outbox (Option.isSome_iff_exists.mpr ⟨o, ho⟩)
              rw [hsocket] at hh
              cases hh
        refine .takes [] ?_ ?_ ?_ (fun _ => rfl) (departs_of_ne (hl c true))
        · simp only [accepted, houtboxes, Table.get?_insert, if_pos, hnone]
          rfl
        · simp only [inQueue, houtboxes, Table.get?_insert, if_pos, hnone]
          rfl
        · simp only [sends, houtboxes, Table.get?_insert, if_pos, hnone]
          rfl
      · refine .takes [] ?_ ?_ ?_ (fun _ => rfl) (departs_of_ne (hl c true))
        · simp only [accepted, houtboxes, Table.get?_insert, if_neg heq, List.append_nil]
        · simp only [inQueue, houtboxes, Table.get?_insert, if_neg heq, List.append_nil]
        · simp only [sends, houtboxes, Table.get?_insert, if_neg heq]

/-- Nothing waits behind a send task that has ended. -/
theorem inQueue_of_ended (h : machine.Reachable s) (hends : s.sends c = false) :
    s.inQueue c = [] := by
  induction h with
  | init => rfl
  | step hreach hstep ih =>
      cases queueStep_of_step (c := c) (attended_of_reachable hreach) hstep with
      | takes new _ hqueue hsends hnew =>
          rw [hqueue, ih (hsends ▸ hends), hnew (hsends ▸ hends)]
          rfl
      | leaves m _ hqueue hsends =>
          rw [ih (hsends ▸ hends)] at hqueue
          cases hqueue
      | ends _ hqueue => exact hqueue

/-- What waits in a queue is what it took last. -/
theorem inQueue_isSuffix (h : machine.Reachable s) : s.inQueue c <:+ accepted s.outboxes c := by
  induction h with
  | init => exact List.nil_suffix
  | step hreach hstep ih =>
      cases queueStep_of_step (c := c) (attended_of_reachable hreach) hstep with
      | takes new haccepted hqueue =>
          obtain ⟨before, hbefore⟩ := ih
          rw [haccepted, hqueue, ← hbefore, List.append_assoc]
          exact List.suffix_append _ _
      | leaves m haccepted hqueue =>
          rw [haccepted]
          exact (List.suffix_cons m _).trans (hqueue ▸ ih)
      | ends haccepted hqueue =>
          rw [hqueue]
          exact List.nil_suffix

/-! ## A connection that does not register -/

/-- The handler has not registered and stands in no operation. -/
def Unregistered (s : Lobby) (c : SocketId) : Prop :=
  ∀ h, s.handler c = some h → h.registered = false ∧ h.pc.resting = true

/-- The frame brings no message that passes the checks. -/
def Unfit (c : SocketId) (l : Label) : Prop :=
  ∀ (m : ValidMessage) (len : Nat) (externalIp : Option IpAddr),
    l ≠ .frame c (.text len (some m.message) externalIp)

/-- The connection of a player in the map is registered. -/
theorem player_of_unregistered {h : Handler} (hreach : machine.Reachable s)
    (hc : s.sockets.get? c = some (.running h)) (hreg : h.registered = false) :
    s.app.players.get? h.playerId = none := by
  have hs := sound_of_reachable hreach
  by_contra hpresent
  obtain ⟨p, hp⟩ := Option.ne_none_iff_exists'.mp hpresent
  obtain ⟨c', P, hP, hid, hregistered, _⟩ := hs.owned hp
  have hparty := parties_roster hc
  have hout : h.party.stage ≠ .outside := by
    intro hstage
    cases hpc : h.pc <;> simp [Handler.party, hpc, HandlerPc.stage] at hstage
  obtain rfl := hs.unique hP hparty (hs.ne_outside hP hregistered) hout hid
  obtain rfl : P = h.party := Option.some.inj (hP.symm.trans hparty)
  cases hreg.symm.trans hregistered

/-- No broadcast is addressed to it. -/
theorem taken_of_unregistered (hreach : machine.Reachable s) (hquiet : Unregistered s c) :
    s.issue.taken c = [] := by
  have ha := attended_of_reachable hreach
  rw [taken_issue]
  cases ho : s.outboxes.get? c with
  | none => simp [freeSlots, ho]
  | some o =>
      obtain ⟨h, hc⟩ := ha.outbox (Option.isSome_iff_exists.mpr ⟨o, ho⟩)
      have hnone := player_of_unregistered hreach hc (hquiet h (handler_eq_some.mpr hc)).1
      rw [ha.addressed_broadcastLetters hc, hnone]
      simp

theorem inbox_of_unregistered {l : Label} (hreach : machine.Reachable s)
    (hstep : s.step l = some s') (hquiet : Unregistered s c) :
    s'.feed.inbox c = s.feed.inbox c := by
  cases hissues : s.issues l with
  | nil =>
      have hfeed := (fed_step (attended_of_reachable hreach) hstep).2
      rw [hissues] at hfeed
      cases hfeed with
      | edits _ hinbox | rests _ _ hinbox => rw [hinbox]
  | cons e rest =>
      have hfeed := (fed_step (attended_of_reachable hreach) hstep).2
      have he : e = s.issue := eq_issue_of_mem (hissues ▸ List.mem_cons_self)
      rw [hissues] at hfeed
      cases hfeed with
      | issues _ _ _ hinbox => rw [hinbox, he, taken_of_unregistered hreach hquiet, List.append_nil]

theorem unregistered_exit {h : Handler} (hreg : h.registered = false) :
    h.exit.registered = false ∧ h.exit.pc.resting = true := by
  simp [Handler.exit, hreg, HandlerPc.resting]

/-- Without a message that passes the checks it stays so. -/
theorem unregistered_of_step {l : Label} (hstep : s.step l = some s') (hl : Unfit c l)
    (hquiet : Unregistered s c) : Unregistered s' c := by
  intro h' hh'
  have hc' := handler_eq_some.mp hh'
  obtain hown | ⟨clientIp, playerId, rfl⟩ | hsame := running_of_step hstep hc'
  · cases l with
    | frame c' item =>
        obtain rfl : c' = c := by simpa [isOwn] using hown
        obtain ⟨h, hc, hframe⟩ := whenRunning_eq_some hstep
        obtain ⟨hreg, _⟩ := hquiet h (handler_eq_some.mpr hc)
        split at hframe
        next hpc =>
          have hframed := framed s c' h item
          rw [Option.some.inj hframe] at hframed
          cases hframed with
          | left =>
              obtain rfl := eq_of_put (k := h.exit) hc hc' rfl
              exact unregistered_exit hreg
          | ignored => exact hquiet h' (handler_eq_some.mpr hc')
          | tooLong text => exact hquiet h' (handler_eq_some.mpr hc')
          | refused text =>
              obtain rfl := eq_of_put (k := s.counted h) hc hc' rfl
              exact ⟨hreg, by simp [counted, hpc, HandlerPc.resting]⟩
          | passed m => exact absurd rfl (hl m _ _)
        next => cases hframe
    | block c' fresh =>
        obtain rfl : c' = c := by simpa [isOwn] using hown
        obtain ⟨h, hc, hblock⟩ := whenRunning_eq_some hstep
        obtain ⟨hreg, hrest⟩ := hquiet h (handler_eq_some.mpr hc)
        cases hpc : h.pc with
        | returned =>
            simp only [block, hpc, Option.some.injEq] at hblock
            obtain rfl := eq_of_put (k := { h with pc := .released }) hc hc' (by rw [← hblock]; rfl)
            exact ⟨hreg, rfl⟩
        | receiving | released => simp [block, hpc] at hblock
        | _ => simp [hpc, HandlerPc.resting] at hrest
    | drop c' =>
        obtain rfl : c' = c := by simpa [isOwn] using hown
        obtain ⟨h, hc, hdrop⟩ := whenRunning_eq_some hstep
        split at hdrop
        next =>
          cases hdrop
          obtain rfl := eq_of_put (k := h.exit) hc hc' rfl
          exact unregistered_exit (hquiet h (handler_eq_some.mpr hc)).1
        next => cases hdrop
    | _ => simp [isOwn] at hown
  · exact ⟨rfl, rfl⟩
  · exact hquiet h' (handler_eq_some.mpr hsame)

end Lobby

end War3BattleTool.Server
