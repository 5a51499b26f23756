import War3BattleTool.Client.Dialling

set_option autoImplicit false

/-!
# The way of a letter through the client

A letter from the server waits on the session (`arrived`), then in the queue of the UI thread
(`unread`).  The network task hands the first letter of the session on, the UI thread takes
the first of its queue; otherwise letters stay where they are, or the session ends and those
on it are lost (`LetterStep`).
-/

namespace War3BattleTool.Client

open War3BattleTool.Foundation War3BattleTool.Protocol

/-- The letter of an event. -/
def NetEvent.letter? : NetEvent → Option Letter
  | .serverMessage letter => some letter
  | _ => none

/-- The network task is in a session. -/
def NetworkTask.inSession : NetworkTask → Bool
  | .session _ => true
  | _ => false

/-- The letters of the session that were not handed on yet. -/
def NetworkTask.arrived : NetworkTask → List Letter
  | .session x => x.toClient
  | _ => []

theorem NetworkTask.arrived_eq_nil {network : NetworkTask} (h : network.inSession = false) :
    network.arrived = [] := by
  cases network with
  | session x => cases h
  | _ => rfl

/-- `ServerMessage::Pong`, which stays in the network task. -/
def isPong : ServerMessage → Bool
  | .pong _ => true
  | _ => false

namespace Process

/-- The letters in the queue of the UI thread. -/
def unread (s : Process) : List Letter := s.events.filterMap (·.letter?)

/-- The step leaves the letters in the queues, or loses those on the session with it. -/
structure KeepsLetters (s s' : Process) : Prop where
  unread : s'.unread = s.unread
  network : s'.network.inSession = false ∨
    s'.network.inSession = s.network.inSession ∧ s'.network.arrived = s.network.arrived

/-- What a step does with the letters of the server. -/
inductive LetterStep (s : Process) : Label → Process → Prop
  | takes {letter : Letter} {rest : List NetEvent} (hframe : s.frame = .events)
      (hevents : s.events = .serverMessage letter :: rest) :
      LetterStep s .poll ({ s with events := rest }.handleServerMessage letter)
  | delivers {s' : Process} {letter : Letter} {rest : List Letter}
      (hsession : s.network.inSession = true ∧ s'.network.inSession = true)
      (harrived : s.network.arrived = letter :: rest) (hrest : s'.network.arrived = rest)
      (hunread : s'.unread = s.unread ++ if isPong letter.message then [] else [letter])
      (hdialler : s'.dialler = s.dialler) : LetterStep s .deliver s'
  | keeps {l : Label} {s' : Process} (hkeeps : KeepsLetters s s')
      (hdialler : s'.dialler = s.dialler)
      (hdeliver : l ≠ .deliver)
      (hpoll : l = .poll → ∀ letter rest, s.frame = .events →
        s.events ≠ .serverMessage letter :: rest) : LetterStep s l s'

variable {s s' : Process} {l : Label}

/-- What the app does with a letter leaves the letters behind it. -/
theorem keepsLetters_handleServerMessage (s : Process) (letter : Letter) :
    KeepsLetters s (s.handleServerMessage letter) where
  unread := by
    have hevents : (s.handleServerMessage letter).events = s.events :=
      (sends_netEvent s (.serverMessage letter)).events
    rw [unread, hevents, unread]
  network := by
    have hnetwork : (s.handleServerMessage letter).network = s.network :=
      (sends_netEvent s (.serverMessage letter)).network
    rw [hnetwork]
    exact .inr ⟨rfl, rfl⟩

theorem unread_append {new : List NetEvent} (hnew : ∀ e ∈ new, e.letter? = none)
    (hevents : s'.events = s.events ++ new) : s'.unread = s.unread := by
  rw [unread, hevents, List.filterMap_append, List.filterMap_eq_nil_iff.mpr hnew, List.append_nil]
  rfl

theorem keepsLetters_of_eq (hevents : s'.events = s.events) (hnetwork : s'.network = s.network) :
    KeepsLetters s s' where
  unread := by rw [unread, hevents, unread]
  network := by
    rw [hnetwork]
    exact Or.inr ⟨rfl, rfl⟩

theorem keepsLetters_of_work {x : Session} (hx : s.network = .session x)
    (hevents : s'.events = s.events) (hsession : s'.network.inSession = true)
    (harrived : s'.network.arrived = x.toClient) : KeepsLetters s s' where
  unread := by rw [unread, hevents, unread]
  network := by
    right
    rw [hsession, harrived, hx]
    exact ⟨rfl, rfl⟩

/-- The session is over, and what is reported of it is no letter. -/
theorem keepsLetters_of_end (new : List NetEvent) (hnew : ∀ e ∈ new, e.letter? = none)
    (hevents : s'.events = s.events ++ new) (hnetwork : s'.network.inSession = false) :
    KeepsLetters s s' where
  unread := unread_append hnew hevents
  network := Or.inl hnetwork

/-- The session is over, and nothing is reported. -/
theorem keepsLetters_of_quietEnd (hevents : s'.events = s.events)
    (hnetwork : s'.network.inSession = false) : KeepsLetters s s' where
  unread := by rw [unread, hevents, unread]
  network := Or.inl hnetwork

theorem keepsLetters_endSession (x : Session) {cmds : List Command} :
    KeepsLetters s ({ s with cmds := cmds }.endSession x) :=
  keepsLetters_of_end [.disconnected]
    (fun e he => by rw [List.mem_singleton.mp he]; rfl) rfl rfl

/-! ## Steps -/

theorem letterStep_poll (h : s.poll = some s') : LetterStep s .poll s' := by
  by_cases htakes : ∃ letter rest, s.frame = .events ∧ s.events = .serverMessage letter :: rest
  · obtain ⟨letter, rest, hframe, hevents⟩ := htakes
    have hpolled : s.poll = some ({ s with events := rest }.handleServerMessage letter) := by
      unfold poll
      split
      next =>
        rw [hevents]
        rfl
      all_goals
        next hother =>
          rw [hframe] at hother
          cases hother
    cases hpolled.symm.trans h
    exact .takes hframe hevents
  · have hpoll : (Label.poll : Label) = .poll → ∀ letter rest, s.frame = .events →
        s.events ≠ .serverMessage letter :: rest :=
      fun _ letter rest hframe hevents => htakes ⟨letter, rest, hframe, hevents⟩
    cases polls_of_poll h with
    | @event e rest hframe hevents =>
        have he : ∀ letter, e ≠ .serverMessage letter :=
          fun letter heq => htakes ⟨letter, rest, hframe, by rw [hevents, heq]⟩
        have hletter : e.letter? = none := by
          cases e with
          | serverMessage letter => exact absurd rfl (he letter)
          | _ => rfl
        have hsends := sends_netEvent { s with events := rest } e
        refine .keeps ⟨?_, ?_⟩ (dialler_netEvent he) nofun hpoll
        · rw [unread, hsends.events, unread, hevents, List.filterMap_cons_none hletter]
        · rw [hsends.network]
          exact Or.inr ⟨rfl, rfl⟩
    | @upnp token addr rest =>
        have hsends := sends_upnpEvent { s with upnpMapped := rest } token addr
        exact .keeps (keepsLetters_of_eq hsends.events hsends.network) (dialler_upnpEvent _ _ _)
          nofun hpoll
    | @posted p rest =>
        have hsends := sends_posted { s with tunnelEvents := rest } p
        exact .keeps (keepsLetters_of_eq hsends.events hsends.network) (dialler_posted _ _)
          nofun hpoll
    | ends => exact .keeps (keepsLetters_of_eq rfl rfl) rfl nofun hpoll

theorem letterStep_deliver (h : s.step .deliver = some s') : LetterStep s .deliver s' := by
  obtain ⟨x, hx, h⟩ := whenInSession_eq_some.mp h
  unfold deliver at h
  split at h
  · cases h
  next letter rest htoClient =>
    have harrived : s.network.arrived = letter :: rest := by rw [hx]; exact htoClient
    have hsession : s.network.inSession = true := by rw [hx]; rfl
    dsimp only at h
    split at h
    next hpong =>
      cases h
      refine .delivers ⟨hsession, rfl⟩ harrived rfl ?_ rfl
      rw [hpong]
      exact (List.append_nil _).symm
    next hpong =>
      cases h
      refine .delivers ⟨hsession, rfl⟩ harrived rfl ?_ rfl
      have hnot : isPong letter.message = false := by
        unfold isPong
        split
        next ts hts => exact absurd hts (hpong ts)
        next => rfl
      rw [hnot, unread, List.filterMap_append]
      rfl

/-- Every step hands letters on, or leaves them where they are; a new session and a reply of
the server aside. -/
theorem letterStep_of_step (hconnect : l ≠ .connect true)
    (hreply : ∀ m externalAddr own, l ≠ .reply m externalAddr own) (h : s.step l = some s') :
    LetterStep s l s' := by
  cases hl : l.isRemote with
  | false =>
      cases l with
      | poll => exact letterStep_poll h
      | input i =>
          exact .keeps (keepsLetters_of_eq (queues_of_input h).1 (sendsStep_input h).network)
            (dialler_input h) (by rintro ⟨⟩) (by rintro ⟨⟩)
      | tunnel k move =>
          refine .keeps ?_ (dialler_tunnel h) (by rintro ⟨⟩) (by rintro ⟨⟩)
          obtain ⟨_, _, rfl⟩ := Option.map_eq_some_iff.mp h
          exact keepsLetters_of_eq rfl rfl
      | report k r =>
          refine .keeps ?_ (dialler_report h) (by rintro ⟨⟩) (by rintro ⟨⟩)
          obtain ⟨t, _, h⟩ := Option.bind_eq_some_iff.mp h
          cases r <;> simp only at h <;> split at h <;> cases h <;> exact keepsLetters_of_eq rfl rfl
      | captured op gameinfo fields =>
          obtain ⟨c, _, rfl⟩ := Option.map_eq_some_iff.mp h
          exact .keeps (keepsLetters_of_eq rfl rfl) rfl (by rintro ⟨⟩) (by rintro ⟨⟩)
      | _ => cases hl
  | true =>
      have hui := keepsUi_of_remote hl h
      have hdialler : s'.dialler = s.dialler := by rw [dialler, hui.app, hui.tunnels, dialler]
      have hkeeps : ∀ (_ : l ≠ .deliver) (_ : KeepsLetters s s'), LetterStep s l s' :=
        fun hdeliver hk => .keeps hk hdialler hdeliver fun hpoll => by rw [hpoll] at hl; cases hl
      cases l with
      | deliver => exact letterStep_deliver h
      | reply m externalAddr own => exact absurd rfl (hreply m externalAddr own)
      | connect ok =>
          cases ok with
          | true => exact absurd rfl hconnect
          | false =>
              simp only [step, connect] at h
              split at h <;> cases h
              exact hkeeps (by rintro ⟨⟩) (keepsLetters_of_quietEnd rfl rfl)
      | reconnecting =>
          simp only [step, reconnecting] at h
          split at h <;> cases h
          exact hkeeps (by rintro ⟨⟩) (keepsLetters_of_end [.reconnecting _]
            (fun e he => by rw [List.mem_singleton.mp he]; rfl) rfl rfl)
      | retry =>
          simp only [step, retry] at h
          split at h <;> cases h
          exact hkeeps (by rintro ⟨⟩) (keepsLetters_of_quietEnd rfl rfl)
      | stop =>
          simp only [step, stop] at h
          split at h <;> cases h <;>
            exact hkeeps (by rintro ⟨⟩) (keepsLetters_of_quietEnd rfl rfl)
      | sendNext ok =>
          obtain ⟨x, hx, h⟩ := whenInSession_eq_some.mp h
          unfold sendNext at h
          split at h
          · cases h
          · dsimp only at h
            split at h <;> cases h
            · exact hkeeps (by rintro ⟨⟩) (keepsLetters_of_work hx rfl rfl rfl)
            · exact hkeeps (by rintro ⟨⟩) (keepsLetters_endSession x)
      | tick m ok =>
          obtain ⟨x, hx, h⟩ := whenInSession_eq_some.mp h
          unfold tick at h
          split at h
          · split at h <;> cases h
            · exact hkeeps (by rintro ⟨⟩) (keepsLetters_of_work hx rfl rfl rfl)
            · exact hkeeps (by rintro ⟨⟩) (keepsLetters_endSession x)
          · split at h <;> cases h
            · exact hkeeps (by rintro ⟨⟩) (keepsLetters_of_work hx rfl rfl rfl)
            · exact hkeeps (by rintro ⟨⟩) (keepsLetters_endSession x)
          · cases h
      | lose =>
          obtain ⟨x, hx, h⟩ := whenInSession_eq_some.mp h
          cases h
          exact hkeeps (by rintro ⟨⟩) (keepsLetters_endSession x)
      | serve =>
          obtain ⟨x, hx, h⟩ := whenInSession_eq_some.mp h
          unfold serve at h
          split at h <;> cases h
          exact hkeeps (by rintro ⟨⟩) (keepsLetters_of_work hx rfl rfl rfl)
      | served =>
          obtain ⟨x, hx, h⟩ := whenInSession_eq_some.mp h
          obtain ⟨c, _, rfl⟩ := Option.map_eq_some_iff.mp h
          exact hkeeps (by rintro ⟨⟩) (keepsLetters_of_work hx rfl rfl rfl)
      | _ => cases hl

end Process

end War3BattleTool.Client
