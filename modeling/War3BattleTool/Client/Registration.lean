import War3BattleTool.Client.Operations

set_option autoImplicit false

/-!
# One `Register` a session

The app registers when it handles `Connected`, and the network task sends what is in the queue of
commands.  Neither queue is emptied between two sessions.  A session starts with exactly one
`Register` if it finds both of them empty of what is not its own, and no command is queued before
its `Connected` is handled (`prompt`).  The proof looks at the line of a session: what was
sent in it, and what is queued behind.
-/

namespace War3BattleTool.Client

open War3BattleTool.Foundation War3BattleTool.Protocol

/-- The message is a `Register`. -/
def isRegister : ClientMessage → Bool
  | .register _ _ _ => true
  | _ => false

/-- The first message is a `Register`, and no other one is. -/
def Opens (messages : List ClientMessage) : Prop :=
  ∀ m rest, messages = m :: rest → isRegister m = true ∧ ∀ m' ∈ rest, isRegister m' = false

/-- The player id after an event. -/
def NetEvent.playerIdAfter (id : Option String) : NetEvent → Option String
  | .disconnected => none
  | .serverMessage letter =>
      match letter.message with
      | .welcome playerId => some playerId
      | _ => id
  | .connected | .reconnecting _ => id

namespace Process

/-- What was sent in each session. -/
def sessions (s : Process) : List (List ClientMessage) :=
  match s.network with
  | .session x => x.sent :: s.closed
  | _ => s.closed

/-- The step does not leave the client without a nickname. -/
def keepsConfigured : Label → Bool
  | .input (.settings config) => config.isConfigured
  | _ => true

/-- A session begins when no command and no other `Connected` is left, and no other command is
queued before its `Connected` is handled; the client stays configured. -/
def prompt (s : Process) (l : Label) : Prop :=
  (l = .connect true → s.cmds = [] ∧ .connected ∉ s.events) ∧
    (∀ c ∈ s.queued l, isRegister c.message = false → .connected ∉ s.events) ∧
      keepsConfigured l = true

instance (s : Process) (l : Label) : Decidable (s.prompt l) :=
  inferInstanceAs (Decidable ((l = .connect true → s.cmds = [] ∧ .connected ∉ s.events) ∧
    (∀ c ∈ s.queued l, isRegister c.message = false → .connected ∉ s.events) ∧
      keepsConfigured l = true))

variable {s s' : Process} {l : Label}

/-! ## The line of a session -/

theorem opens_of_append {messages more : List ClientMessage} (h : Opens (messages ++ more)) :
    Opens messages := by
  rintro m rest rfl
  obtain ⟨hm, hrest⟩ := h m (rest ++ more) rfl
  exact ⟨hm, fun m' hm' => hrest m' (List.mem_append_left _ hm')⟩

/-- The line of a session: it is empty until the `Connected` of the session is handled, which
finds the client without a player id; from then on it opens with a `Register`. -/
inductive Line (s : Process) (line : List ClientMessage) : Prop
  | awaits {pre post : List NetEvent} (hevents : s.events = pre ++ .connected :: post)
      (hpre : .connected ∉ pre) (hpost : .connected ∉ post)
      (hid : pre.foldl NetEvent.playerIdAfter s.app.myPlayerId = none) (hline : line = [])
  | opened (hevents : .connected ∉ s.events) (hline : Opens line) (hne : line ≠ [])

theorem Line.opens {line : List ClientMessage} (h : Line s line) : Opens line := by
  cases h with
  | awaits _ _ _ _ hline =>
      rw [hline]
      rintro m rest heq
      cases heq
  | opened _ hline _ => exact hline

theorem opens_append {line new : List ClientMessage} (hline : Opens line) (hne : line ≠ [])
    (hnew : ∀ m ∈ new, isRegister m = false) : Opens (line ++ new) := by
  cases line with
  | nil => exact absurd rfl hne
  | cons m rest =>
      obtain ⟨hm, hrest⟩ := hline m rest rfl
      intro m' rest' heq
      rw [List.cons_append, List.cons.injEq] at heq
      obtain ⟨rfl, rfl⟩ := heq
      refine ⟨hm, fun x hx => ?_⟩
      rcases List.mem_append.mp hx with hold | hmore
      · exact hrest x hold
      · exact hnew x hmore

/-- Commands that do not register join the end of the line. -/
theorem Line.extend {line new : List ClientMessage} (h : Line s line)
    (hevents : s'.events = s.events) (hid : s'.app.myPlayerId = s.app.myPlayerId)
    (hnew : ∀ m ∈ new, isRegister m = false ∧ .connected ∉ s.events) :
    Line s' (line ++ new) := by
  cases h with
  | awaits hsplit hpre hpost hnone hline =>
      have hempty : new = [] := by
        cases new with
        | nil => rfl
        | cons m rest =>
            have hgone := (hnew m (.head _)).2
            rw [hsplit] at hgone
            exact absurd (by simp) hgone
      rw [hempty, List.append_nil]
      exact .awaits (hevents.trans hsplit) hpre hpost (hid ▸ hnone) hline
  | opened hgone hline hne =>
      refine .opened (hevents ▸ hgone) ?_ (by simp [hne])
      exact opens_append hline hne fun m hm => (hnew m hm).1

/-- The server's messages and the steps of the network task do not touch the `Connected`. -/
theorem Line.report {line : List ClientMessage} (h : Line s line) {new : List NetEvent}
    (hevents : s'.events = s.events ++ new) (hid : s'.app.myPlayerId = s.app.myPlayerId)
    (hnew : .connected ∉ new) : Line s' line := by
  cases h with
  | @awaits pre post hsplit hpre hpost hnone hline =>
      rw [hsplit, List.append_assoc, List.cons_append] at hevents
      refine .awaits hevents hpre (fun hmem => ?_) (hid ▸ hnone) hline
      rcases List.mem_append.mp hmem with hold | hmore
      · exact hpost hold
      · exact hnew hmore
  | opened hgone hline hne =>
      refine .opened (fun hmem => ?_) hline hne
      rw [hevents] at hmem
      rcases List.mem_append.mp hmem with hold | hmore
      · exact hgone hold
      · exact hnew hmore

/-! ## What the app knows of itself -/

/-- The wizard and the config stay, and `id` is the player id. -/
structure Knows (s : Process) (id : Option String) (s' : Process) : Prop where
  wizard : s'.app.wizard = s.app.wizard
  config : s'.app.config = s.app.config
  playerId : s'.app.myPlayerId = id

theorem knows_abortTunnel (s : Process) : Knows s s.app.myPlayerId s.abortTunnel := by
  unfold abortTunnel
  split <;> exact ⟨rfl, rfl, rfl⟩

theorem knows_joinResult (op : Option OpId) (success : Bool) (token : Option String)
    (gameinfo : Option Bytes) :
    Knows s s.app.myPlayerId (s.joinResult op success token gameinfo) := by
  unfold joinResult
  split
  · split
    · split
      · have habort := knows_abortTunnel (s.setPending (some .joinSuccess))
        exact ⟨habort.wizard, habort.config, habort.playerId⟩
      · exact ⟨rfl, rfl, rfl⟩
    · exact ⟨rfl, rfl, rfl⟩
  · exact ⟨rfl, rfl, rfl⟩

theorem knows_startHostTunnel (s : Process) (token : String) :
    Knows s s.app.myPlayerId (s.startHostTunnel token) := by
  have habort := knows_abortTunnel s
  exact ⟨habort.wizard, habort.config, habort.playerId⟩

theorem knows_handleServerMessage (s : Process) (letter : Letter) :
    Knows s (NetEvent.playerIdAfter s.app.myPlayerId (.serverMessage letter))
      (s.handleServerMessage letter) := by
  obtain ⟨m, externalAddr, answers, processed⟩ := letter
  cases m with
  | roomUpdate rooms =>
      simp only [handleServerMessage, roomUpdate]
      split <;> exact ⟨rfl, rfl, rfl⟩
  | joinResult success room token gameinfo => exact knows_joinResult _ _ _ _
  | playerJoined nickname token => exact knows_startHostTunnel s _
  | tunnelReady token => exact knows_startHostTunnel s _
  | peerUPnPAddr addr =>
      simp only [handleServerMessage, peerUPnPAddr]
      repeat' split
      all_goals exact ⟨rfl, rfl, rfl⟩
  | error message =>
      simp only [handleServerMessage, War3App.surfaceError]
      split <;> exact ⟨rfl, rfl, rfl⟩
  | _ => exact ⟨rfl, rfl, rfl⟩

theorem knows_cancelInFlight (app : War3App) :
    Knows (s.setApp app) app.myPlayerId (s.setApp app.cancelInFlight) := by
  unfold War3App.cancelInFlight
  split <;> exact ⟨rfl, rfl, rfl⟩

theorem knows_netEvent (s : Process) (e : NetEvent) :
    Knows s (NetEvent.playerIdAfter s.app.myPlayerId e) (s.netEvent e) := by
  cases e with
  | connected =>
      simp only [netEvent, netConnected, sendRegister, fst_sendOrWarn]
      unfold War3App.clearServerError
      repeat' split
      all_goals exact ⟨rfl, rfl, rfl⟩
  | disconnected | reconnecting attempt =>
      have hcancel := knows_cancelInFlight (s := s)
      exact ⟨(hcancel _).wizard, (hcancel _).config, (hcancel _).playerId⟩
  | serverMessage letter => exact knows_handleServerMessage s letter

theorem knows_upnpEvent (s : Process) (token addr : String) :
    Knows s s.app.myPlayerId (s.upnpEvent token addr) := by
  unfold upnpEvent
  dsimp only
  rw [fst_sendOrWarn]
  split <;> exact ⟨rfl, rfl, rfl⟩

theorem knows_posted (s : Process) (p : Posted) : Knows s s.app.myPlayerId (s.posted p) := by
  cases p with
  | tunnel k event => cases event <;> exact ⟨rfl, rfl, rfl⟩
  | gameinfoCaptured op roomName mapName maxPlayers gameinfo =>
      simp only [posted, gameinfoCaptured, fst_sendOrWarn]
      repeat' split
      all_goals exact ⟨rfl, rfl, rfl⟩

theorem knows_input {i : Input} (h : s.input i = some s') (hwizard : s.app.wizard = false) :
    s'.app.wizard = false ∧ s'.app.myPlayerId = s.app.myPlayerId ∧
      (s'.app.config = s.app.config ∨ i = .settings s'.app.config) := by
  obtain ⟨_, next, hnext, rfl⟩ := shows_of_input h
  cases hnext with
  | sets app _ _ _ _ _ hsame hid hconfig => exact ⟨hsame.trans hwizard, hid, hconfig⟩
  | registers hopen =>
      rw [hwizard] at hopen
      cases hopen
  | joins =>
      unfold clickJoin
      dsimp only
      rw [fst_sendOrWarn]
      split <;> exact ⟨hwizard, rfl, .inl rfl⟩
  | closes =>
      rw [fst_sendOrWarn]
      exact ⟨hwizard, rfl, .inl rfl⟩
  | creates => exact ⟨hwizard, rfl, .inl rfl⟩

/-! ## Registering -/

theorem queuedByNet_of_ne {e : NetEvent} (h : e ≠ .connected) : s.queuedByNet e = [] := by
  cases e with
  | connected => exact absurd rfl h
  | _ => rfl

/-- A command that registers comes from `Connected` or from the wizard. -/
theorem registers_of_queued {c : Command} (hc : c ∈ s.queued l)
    (hregister : isRegister c.message = true) :
    (l = .poll ∧ s.frame = .events) ∨ ∃ nickname v, l = .input (.finishWizard nickname v) := by
  cases l with
  | poll =>
      refine .inl ⟨rfl, ?_⟩
      simp only [queued, queuedByPoll] at hc
      split at hc
      · next hframe => exact hframe
      · cases hmapped : s.upnpMapped with
        | nil => simp [hmapped] at hc
        | cons x rest =>
            simp only [hmapped, List.head?_cons, Option.map_some, Option.getD_some] at hc
            rw [(mem_sendable.mp hc).2] at hregister
            cases hregister
      · cases hevents : s.tunnelEvents with
        | nil => simp [hevents] at hc
        | cons p rest =>
            simp only [hevents, List.head?_cons, Option.map_some, Option.getD_some] at hc
            unfold queuedByPosted at hc
            split at hc
            · split at hc
              · cases hc
              · rw [(mem_sendable.mp hc).2] at hregister
                cases hregister
            · cases hc
      · cases hc
  | input i =>
      cases i with
      | finishWizard nickname v => exact .inr ⟨nickname, v, rfl⟩
      | join room =>
          rw [(mem_sendable.mp hc).2] at hregister
          cases hregister
      | closeRoom =>
          rw [(mem_sendable.mp hc).2] at hregister
          cases hregister
      | _ => cases hc
  | _ => cases hc

/-- Every session opens with its `Register`; the client is past the wizard, and once a session has
ended its player id will be gone when the events are handled. -/
structure Orderly (s : Process) : Prop where
  wizard : s.app.wizard = false
  configured : s.app.config.isConfigured = true
  closed : ∀ sent ∈ s.closed, Opens sent
  session : ∀ x, s.network = .session x → Line s (x.sent ++ s.cmds.map (·.message))
  between : s.network.isBetween = true →
    s.events.foldl NetEvent.playerIdAfter s.app.myPlayerId = none

theorem Orderly.opens (hs : Orderly s) {x : Session} (hx : s.network = .session x) :
    Opens x.sent :=
  opens_of_append (hs.session x hx).opens

/-- A step that handles no event of the network task. -/
theorem Orderly.queue (hs : Orderly s) (hsends : SendsStep s l s') (hevents : s'.events = s.events)
    (hqueued : ∀ c ∈ s.queued l, isRegister c.message = false ∧ .connected ∉ s.events)
    (hwizard : s'.app.wizard = false) (hconfigured : s'.app.config.isConfigured = true)
    (hid : s'.app.myPlayerId = s.app.myPlayerId) : Orderly s' where
  wizard := hwizard
  configured := hconfigured
  closed := by
    rw [hsends.closed]
    exact hs.closed
  session := by
    intro x hx
    rw [hsends.network] at hx
    rw [hsends.cmds, List.map_append, ← List.append_assoc]
    refine (hs.session x hx).extend hevents hid fun m hm => ?_
    obtain ⟨c, hc, rfl⟩ := List.mem_map.mp hm
    exact hqueued c hc
  between := by
    rw [hsends.network, hevents, hid]
    exact hs.between

/-- Handling an event: only `Connected` sends a command, and only when it is first in line. -/
theorem Line.event {x : Session} {e : NetEvent} {rest : List NetEvent} {sent : List ClientMessage}
    (h : Line s (sent ++ s.cmds.map (·.message))) (hx : s.network = .session x)
    (hconfigured : s.app.config.isConfigured = true) (hevents : s.events = e :: rest)
    (hs' : s' = { s with events := rest }.netEvent e) :
    Line s' (sent ++ s'.cmds.map (·.message)) := by
  subst hs'
  have hsends := sends_netEvent { s with events := rest } e
  have hid := (knows_netEvent { s with events := rest } e).playerId
  cases h with
  | @awaits pre post hsplit hpre hpost hnone hline =>
      rw [hevents] at hsplit
      cases pre with
      | nil =>
          -- The app registers, since its player id is gone.
          obtain ⟨rfl, rfl⟩ := List.cons.inj hsplit
          have hnone : s.app.myPlayerId = none := hnone
          have hqueued : { s with events := rest }.queuedByNet .connected =
              [register s.app.config] := by
            simp [queuedByNet, sendable, War3App.isRegistered, hnone, hconfigured, hx]
          refine .opened ?_ ?_ (by simp [hsends.cmds, hqueued])
          · rw [hsends.events]
            exact hpost
          · rw [hsends.cmds, hqueued, List.map_append, ← List.append_assoc, hline, List.nil_append]
            intro m rest' heq
            obtain ⟨rfl, rfl⟩ := List.cons.inj heq
            refine ⟨rfl, fun m' hm' => ?_⟩
            cases hm'
      | cons e' pre =>
          obtain ⟨rfl, rfl⟩ := List.cons.inj hsplit
          have hne : e ≠ .connected := fun heq => hpre (heq ▸ .head _)
          rw [hsends.cmds, queuedByNet_of_ne hne, List.append_nil]
          refine .awaits hsends.events (fun hmem => hpre (.tail _ hmem)) hpost ?_ hline
          rw [hid]
          exact hnone
  | opened hgone hline hne' =>
      rw [hevents] at hgone
      have hne : e ≠ .connected := fun heq => hgone (heq ▸ .head _)
      rw [hsends.cmds, queuedByNet_of_ne hne, List.append_nil]
      refine .opened ?_ hline hne'
      rw [hsends.events]
      exact fun hmem => hgone (.tail _ hmem)

theorem Orderly.event {e : NetEvent} {rest : List NetEvent} (hs : Orderly s)
    (hevents : s.events = e :: rest) : Orderly ({ s with events := rest }.netEvent e) := by
  have hsends := sends_netEvent { s with events := rest } e
  have hknows := knows_netEvent { s with events := rest } e
  refine ⟨hknows.wizard.trans hs.wizard, ?_, ?_, fun x hx => ?_, fun hbetween => ?_⟩
  · rw [hknows.config]
    exact hs.configured
  · rw [hsends.closed]
    exact hs.closed
  · rw [hsends.network] at hx
    exact (hs.session x hx).event hx hs.configured hevents rfl
  · rw [hsends.network] at hbetween
    have hnone := hs.between hbetween
    rw [hevents] at hnone
    rw [hsends.events, hknows.playerId]
    exact hnone

theorem Orderly.poll (hs : Orderly s) (hprompt : s.prompt .poll) (h : s.poll = some s') :
    Orderly s' := by
  have hsends := sendsStep_poll h
  have hqueued : s.frame ≠ .events → ∀ c ∈ s.queued .poll,
      isRegister c.message = false ∧ .connected ∉ s.events := by
    intro hframe c hc
    have hother : isRegister c.message = false := by
      by_contra hregister
      rcases registers_of_queued hc (Bool.not_eq_false _ ▸ hregister) with ⟨_, hevents⟩ | ⟨_, _, hl⟩
      · exact hframe hevents
      · cases hl
    exact ⟨hother, hprompt.2.1 c hc hother⟩
  cases polls_of_poll h with
  | event _ hevents => exact hs.event hevents
  | @upnp token addr rest hframe _ =>
      have hknows := knows_upnpEvent { s with upnpMapped := rest } token addr
      refine hs.queue hsends (sends_upnpEvent { s with upnpMapped := rest } token addr).events
        (hqueued (by simp [hframe])) (hknows.wizard.trans hs.wizard) ?_ hknows.playerId
      rw [hknows.config]
      exact hs.configured
  | @posted p rest hframe _ =>
      have hknows := knows_posted { s with tunnelEvents := rest } p
      refine hs.queue hsends (sends_posted { s with tunnelEvents := rest } p).events
        (hqueued (by simp [hframe])) (hknows.wizard.trans hs.wizard) ?_ hknows.playerId
      rw [hknows.config]
      exact hs.configured
  | ends hnone =>
      refine hs.queue hsends rfl (fun c hc => ?_) hs.wizard hs.configured rfl
      rw [queued, hnone] at hc
      cases hc

theorem Orderly.input {i : Input} (hs : Orderly s) (hprompt : s.prompt (.input i))
    (h : s.input i = some s') : Orderly s' := by
  obtain ⟨hwizard, hid, hconfig⟩ := knows_input h hs.wizard
  refine hs.queue (sendsStep_input h) (queues_of_input h).1 (fun c hc => ?_) hwizard ?_ hid
  · have hother : isRegister c.message = false := by
      by_contra hregister
      rcases registers_of_queued hc (Bool.not_eq_false _ ▸ hregister) with ⟨hl, _⟩ | ⟨_, _, hl⟩
      · cases hl
      · -- The wizard is closed.
        cases hl
        obtain ⟨_, next, hnext, _⟩ := shows_of_input h
        cases hnext with
        | sets _ _ _ hnone =>
            rw [queued, hnone] at hc
            cases hc
        | registers hopen =>
            rw [hs.wizard] at hopen
            cases hopen
    exact ⟨hother, hprompt.2.1 c hc hother⟩
  · rcases hconfig with hsame | rfl
    · rw [hsame]
      exact hs.configured
    · exact hprompt.2.2

theorem Orderly.step_local (hs : Orderly s) (hprompt : s.prompt l) (hl : l.isRemote = false)
    (h : s.step l = some s') : Orderly s' := by
  have hsends := sendsStep_of_local hl h
  have hquiet : s.queued l = [] → s'.events = s.events → s'.app = s.app → Orderly s' := by
    intro hnone hevents happ
    refine hs.queue hsends hevents (fun c hc => ?_) (happ ▸ hs.wizard) (happ ▸ hs.configured)
      (by rw [happ])
    rw [hnone] at hc
    cases hc
  cases l with
  | poll => exact hs.poll hprompt h
  | input i => exact hs.input hprompt h
  | tunnel k move =>
      obtain ⟨_, _, rfl⟩ := Option.map_eq_some_iff.mp h
      exact hquiet rfl rfl rfl
  | report k r =>
      obtain ⟨t, _, h⟩ := Option.bind_eq_some_iff.mp h
      cases r <;> simp only at h <;> split at h <;> cases h <;> exact hquiet rfl rfl rfl
  | captured op gameinfo fields =>
      obtain ⟨c, _, rfl⟩ := Option.map_eq_some_iff.mp h
      exact hquiet rfl rfl rfl
  | _ => cases hl

/-- `Reconnecting` leaves the player id alone. -/
theorem playerId_of_reconnecting {new : List NetEvent} {id : Option String}
    (hnew : ∀ e ∈ new, ∃ attempt, e = .reconnecting attempt) :
    new.foldl NetEvent.playerIdAfter id = id := by
  induction new with
  | nil => rfl
  | cons e new ih =>
      obtain ⟨attempt, rfl⟩ := hnew e (.head _)
      exact ih fun e he => hnew e (.tail _ he)

/-- The network task sends what is first in line, and reports `Disconnected` when a session ends. -/
theorem Orderly.step_remote (hs : Orderly s) (hprompt : s.prompt l) (h : RemoteStep s l s') :
    Orderly s' := by
  cases h with
  | connects hnetwork =>
      obtain ⟨hcmds, hgone⟩ := hprompt.1 rfl
      have hnone := hs.between (by rw [hnetwork]; rfl)
      refine ⟨hs.wizard, hs.configured, hs.closed, fun x hx => ?_, fun hbetween => ?_⟩
      · cases hx
        exact .awaits rfl hgone (by simp) hnone (by simp [Session.start, hcmds])
      · cases hbetween
  | @sends x c rest hx hcmds =>
      refine ⟨hs.wizard, hs.configured, hs.closed, fun y hy => ?_, fun hbetween => ?_⟩
      · cases hy
        have hline := hs.session x hx
        rw [hcmds, List.map_cons, ← List.singleton_append, ← List.append_assoc] at hline
        exact hline.report (List.append_nil _).symm rfl (by simp)
      · cases hbetween
  | ends hx _ =>
      refine ⟨hs.wizard, hs.configured, fun sent hsent => ?_, fun y hy => ?_, fun _ => ?_⟩
      · rcases List.mem_cons.mp hsent with rfl | hold
        · exact hs.opens hx
        · exact hs.closed sent hold
      · cases hy
      · simp [endSession, NetEvent.playerIdAfter]
  | @works _ x y new _ hx hsent hnew =>
      refine ⟨hs.wizard, hs.configured, hs.closed, fun z hz => ?_, fun hbetween => ?_⟩
      · cases hz
        rw [hsent]
        refine (hs.session x hx).report rfl rfl fun hmem => ?_
        obtain ⟨letter, heq⟩ := hnew _ hmem
        cases heq
      · cases hbetween
  | @waits _ network new hold hnetwork hnew =>
      refine ⟨hs.wizard, hs.configured, hs.closed, fun x hx => ?_, fun _ => ?_⟩
      · rw [show network = .session x from hx] at hnetwork
        cases hnetwork
      · rw [List.foldl_append, playerId_of_reconnecting hnew]
        exact hs.between hold
  | stops hclosed =>
      refine ⟨hs.wizard, hs.configured, fun sent hsent => ?_, fun x hx => ?_, fun hbetween => ?_⟩
      · rcases hclosed with rfl | ⟨x, hx, rfl⟩
        · exact hs.closed sent hsent
        · rcases List.mem_cons.mp hsent with rfl | hold
          · exact hs.opens hx
          · exact hs.closed sent hold
      · cases hx
      · cases hbetween

theorem orderly_of_reachable {config : AppConfig} (hconfig : config.isConfigured = true)
    (h : ((machine config).restrict prompt).Reachable s) : Orderly s := by
  induction h with
  | init =>
      refine ⟨?_, hconfig, fun sent hsent => ?_, fun x hx => ?_, fun _ => rfl⟩
      · simp [machine, Machine.restrict, start, War3App.new, hconfig]
      · cases hsent
      · cases hx
  | @step s s' l _ hstep ih =>
      obtain ⟨hprompt, hstep⟩ := Machine.restrict_step.mp hstep
      cases hl : l.isRemote with
      | true => exact ih.step_remote hprompt (remoteStep_of_step hl hstep)
      | false => exact ih.step_local hprompt hl hstep

/-- In a prompt run of a configured client, every session starts with exactly one `Register`. -/
theorem opens_of_prompt (config : AppConfig) (hconfig : config.isConfigured = true) {s : Process}
    (h : ((machine config).restrict prompt).Reachable s) : ∀ sent ∈ s.sessions, Opens sent := by
  have hs := orderly_of_reachable hconfig h
  intro sent hsent
  unfold sessions at hsent
  split at hsent
  · next x hx =>
    rcases List.mem_cons.mp hsent with rfl | hold
    · exact hs.opens hx
    · exact hs.closed sent hold
  · exact hs.closed sent hsent

/-- A client registers in two sessions. -/
def registersTwice : List Label :=
  [.connect true, .poll, .sendNext true, .lose, .reconnecting, .poll, .poll, .retry,
    .connect true, .poll, .sendNext true]

/-- Both sessions open with their `Register`. -/
theorem opens_registering : ∃ s : Process,
    s.sessions = [[(register somebody).message], [(register somebody).message]] ∧
      ∀ sent ∈ s.sessions, Opens sent := by
  have hrun : (((machine somebody).restrict prompt).exec
      ((machine somebody).restrict prompt).init registersTwice).any
        (·.sessions = [[(register somebody).message], [(register somebody).message]]) = true := by
    decide
  obtain ⟨s, _, hreach, hsessions⟩ := Machine.exists_reachable_of_exec hrun
  exact ⟨s, of_decide_eq_true hsessions, opens_of_prompt somebody (by decide) hreach⟩

/-- The first session is lost before a frame handles its `Connected`. -/
def registersLate : List Label :=
  [.connect true, .lose, .reconnecting, .retry, .connect true, .poll, .poll, .poll, .poll,
    .sendNext true, .sendNext true]

/-- The app handles both `Connected` in the second session, and registers twice in it. -/
theorem not_opens : ∃ s, (machine somebody).Reachable s ∧ ¬ ∀ sent ∈ s.sessions, Opens sent := by
  have hrun : ((machine somebody).exec (machine somebody).init registersLate).any
      (·.sessions = [[(register somebody).message, (register somebody).message], []]) = true := by
    decide
  obtain ⟨s, _, hreach, hsessions⟩ := Machine.exists_reachable_of_exec hrun
  refine ⟨s, hreach, fun hopens => ?_⟩
  rw [of_decide_eq_true hsessions] at hopens
  have hother := (hopens _ (.head _) _ _ rfl).2 _ (.head _)
  cases hother

end Process

end War3BattleTool.Client
