import War3BattleTool.Server.Membership

set_option autoImplicit false

/-!
# Registered connections and online players

That a connection is registered is a local of its `handle_socket`; that its player is online
stands in a map from which the cleanup task removes.  The two agree as long as
`find_expired` finds nobody silent: a player that is still connected leaves the map in no
other way.
-/

namespace War3BattleTool.Server

open War3BattleTool.Foundation War3BattleTool.Protocol

/-- The player an event finds silent. -/
def Event.silentPlayer : Event → Option String
  | .silent playerId => some playerId
  | _ => none

/-- `handle_socket` has returned. -/
def HandlerPc.hasReturned : HandlerPc → Bool
  | .returned | .released => true
  | _ => false

/-- A registered connection of the player. -/
def Roster.Owns (r : Roster) (c : SocketId) (P : Party) (id : String) : Prop :=
  r.parties.get? c = some P ∧ P.playerId = id ∧ P.registered = true

/-! ## What an effect does to owners, to their players and to the list of the expired -/

section Cases

variable {r r' r₁ : Roster} {events : List Event} {c c₀ : SocketId} {P P₀ P' : Party}
  {id : String}

theorem Roster.Owns.set (ho : r.Owns c P id) (hr₁ : r₁.parties = r.parties)
    (hc : r.parties.get? c₀ = some P₀) (hid : P₀.playerId = P'.playerId)
    (hreg : P₀.registered = true → P'.registered = true) :
    ∃ Q, (r₁.set c₀ P').Owns c Q id := by
  obtain ⟨hP, rfl, hregistered⟩ := ho
  by_cases heq : c = c₀
  · subst heq
    obtain rfl : P₀ = P := by simpa [hc] using hP
    refine ⟨P', Roster.parties_set.mpr (.inl ⟨rfl, rfl, ?_⟩), hid.symm, hreg hregistered⟩
    simp [hr₁, hc]
  · exact ⟨P, Roster.parties_set.mpr (.inr ⟨heq, hr₁ ▸ hP⟩), rfl, hregistered⟩

/-- An owner stays an owner. -/
theorem Effect.owns (h : Effect r r' events) (ho : r.Owns c P id) : ∃ Q, r'.Owns c Q id := by
  cases h with
  | still | touched | found | removed | skipped | swept => exact ⟨P, ho⟩
  | admitted hc =>
      refine ⟨P, ?_, ho.2⟩
      rw [Table.get?_insert, if_neg]
      · exact ho.1
      · rintro rfl
        simp [ho.1] at hc
  | @started c₀ id₀ hc hid =>
      obtain ⟨hP, hPid, hreg⟩ := ho
      refine ⟨P, Roster.parties_set.mpr (.inr ⟨?_, hP⟩), hPid, hreg⟩
      rintro rfl
      obtain rfl : Party.outside = P := by simpa [hc] using hP
      cases hreg
  | entered hc => exact ho.set rfl hc rfl fun _ => rfl
  | entering hc | quoted hc | checked hc | planned hc | gaveUp hc | opened hc | linked hc
  | orphaned hc | unlinked hc | closed hc | reserved hc | recorded hc | lost hc | released hc
  | dropped hc | marked _ hc | taken hc | missing hc | cleared hc =>
      exact ho.set rfl hc rfl fun hreg => hreg

/-- The owner owned the player before, and was not further in its tear-down. -/
def Roster.Owned₀ (r : Roster) (c : SocketId) (Q : Party) (id : String) : Prop :=
  ∃ P, r.Owns c P id ∧ (Q.stage.present = true → P.stage.present = true)

theorem owned_of_set {Q : Party} (ho : (r₁.set c₀ P').Owns c Q id)
    (hr₁ : r₁.parties = r.parties) (hc : r.parties.get? c₀ = some P)
    (hid : P.playerId = P'.playerId) (hreg : P'.registered = P.registered)
    (hpresent : P'.stage.present = true → P.stage.present = true) : r.Owned₀ c Q id := by
  obtain ⟨hQ, hQid, hregistered⟩ := ho
  obtain ⟨rfl, rfl, _⟩ | ⟨_, hQ⟩ := Roster.parties_set.mp hQ
  · exact ⟨P, ⟨hc, hid.trans hQid, hreg ▸ hregistered⟩, hpresent⟩
  · exact ⟨Q, ⟨hr₁ ▸ hQ, hQid, hregistered⟩, fun hpresent => hpresent⟩

/-- A connection owned its player before, or it has just inserted it. -/
theorem Effect.owned_cases (h : Effect r r' events) {Q : Party} (ho : r'.Owns c Q id) :
    r.Owned₀ c Q id ∨
      (∃ registered, r.parties.get? c = some ⟨id, registered, .entering⟩) ∧
        (r'.players.get? id).isSome = true := by
  cases h with
  | still | touched | found | removed | skipped | swept => exact .inl ⟨Q, ho, fun h => h⟩
  | admitted hc =>
      obtain ⟨hQ, hQid, hreg⟩ := ho
      rw [Table.get?_insert] at hQ
      split at hQ
      · cases hQ
        cases hreg
      · exact .inl ⟨Q, ⟨hQ, hQid, hreg⟩, fun h => h⟩
  | started hc hid =>
      obtain ⟨hQ, hQid, hreg⟩ := ho
      obtain ⟨_, rfl, _⟩ | ⟨_, hQ⟩ := Roster.parties_set.mp hQ
      · cases hreg
      · exact .inl ⟨Q, ⟨hQ, hQid, hreg⟩, fun h => h⟩
  | @entered c₀ registered p hc hhosting hjoined honline =>
      obtain ⟨hQ, hQid, hreg⟩ := ho
      obtain ⟨rfl, rfl, _⟩ | ⟨_, hQ⟩ := Roster.parties_set.mp hQ
      · obtain rfl : p.playerId = id := hQid
        exact .inr ⟨⟨registered, hc⟩, by simp [Table.get?_insert]⟩
      · exact .inl ⟨Q, ⟨hQ, hQid, hreg⟩, fun h => h⟩
  | gaveUp hc hfree =>
      exact .inl (owned_of_set ho rfl hc rfl rfl fun _ =>
        by simp [HandlerStage.present, HandlerStage.inLoop_of_free hfree])
  | dropped hc hloop =>
      exact .inl (owned_of_set ho rfl hc rfl rfl fun _ => by simp [HandlerStage.present, hloop])
  | entering hc | quoted hc | checked hc | planned hc | opened hc | linked hc | orphaned hc
  | unlinked hc | closed hc | reserved hc | recorded hc | lost hc | released hc | marked _ hc
  | taken hc | missing hc | cleared hc =>
      exact .inl (owned_of_set ho rfl hc rfl rfl
        (by simp [HandlerStage.present, HandlerStage.inLoop]))

/-- A player stays, or its own connection takes it out, or the cleanup task does. -/
theorem Effect.player_kept (h : Effect r r' events) {p : ConnectedPlayer}
    (hp : r.players.get? id = some p) :
    (r'.players.get? id).isSome = true ∨
      (∃ c registered Q, r.parties.get? c = some ⟨id, registered, .leaving⟩ ∧
        r'.parties.get? c = some Q ∧ Q.stage.present = false) ∨
      id ∈ r.expired := by
  have hsame : (r.players.get? id).isSome = true := by simp [hp]
  have hmodify : ∀ (id₀ : String) (f : ConnectedPlayer → ConnectedPlayer),
      ((r.players.modify id₀ f).get? id).isSome = true := by
    intro id₀ f
    rw [Table.get?_modify]
    split <;> simp [hp]
  cases h with
  | touched | marked | linked | unlinked | recorded => exact .inl (hmodify _ _)
  | @entered c registered p₀ hc hhosting hjoined honline =>
      refine .inl ?_
      simp only [Roster.players_set, Table.get?_insert]
      split
      · rfl
      · exact hsame
  | @taken c id₀ registered p₀ hc hp₀ =>
      by_cases heq : id = id₀
      · subst heq
        refine .inr (.inl ⟨c, registered,
          ⟨id, registered, .removing p₀.hostingRoom p₀.joinedRoom⟩, hc, ?_, rfl⟩)
        exact Roster.parties_set.mpr (.inl ⟨rfl, rfl, by simp [hc]⟩)
      · exact .inl (by simp [Table.get?_remove, heq, hp])
  | @removed id₀ rest p₀ hexpired hsweep hp₀ =>
      by_cases heq : id = id₀
      · exact .inr (.inr (by simp [hexpired, heq]))
      · exact .inl (by simp [Table.get?_remove, heq, hp])
  | _ => exact .inl hsame

/-- What `find_expired` found: players of the map, and the silent ones among them. -/
structure Roster.Found (r : Roster) (expired silent : List String) : Prop where
  player : ∀ id ∈ expired, ∃ p, r.players.get? id = some p ∧
    (p.disconnectedAt = none → id ∈ silent)
  silent : ∀ id ∈ silent, id ∈ expired

/-- The list of the expired is worked off, or it is what `find_expired` just found. -/
theorem Effect.expired_cases (h : Effect r r' events) :
    ((∀ id ∈ r'.expired, id ∈ r.expired) ∧
        (∀ id ∈ r.expired, id ∉ r'.expired → r'.players.get? id = none) ∧
        events.filterMap Event.silentPlayer = []) ∨
      ∃ expired, r' = { r with expired := expired } ∧ r.expired = [] ∧
        r.Found expired (events.filterMap Event.silentPlayer) := by
  have hquiet : events.filterMap Event.silentPlayer = [] → r'.expired = r.expired →
      (∀ id ∈ r'.expired, id ∈ r.expired) ∧
        (∀ id ∈ r.expired, id ∉ r'.expired → r'.players.get? id = none) ∧
        events.filterMap Event.silentPlayer = [] := by
    intro hevents hexpired
    rw [hexpired]
    exact ⟨fun _ h => h, fun _ h hn => absurd h hn, hevents⟩
  cases h with
  | @found expired silent hexpired hsweep hfound hsilent =>
      have hevents : (silent.map Event.silent).filterMap Event.silentPlayer = silent := by
        simp [List.filterMap_map, Function.comp_def, Event.silentPlayer]
      rw [hevents]
      exact .inr ⟨expired, rfl, hexpired, hfound, hsilent⟩
  | removed hexpired hsweep hp | skipped hexpired hsweep hp =>
      refine .inl ⟨fun id hid => ?_, fun id hid hnot => ?_, rfl⟩
      · rw [hexpired]
        exact List.mem_cons_of_mem _ hid
      · rw [hexpired] at hid
        obtain rfl := (List.mem_cons.mp hid).resolve_right hnot
        simp [Table.get?_remove, hp]
  | @dropped c id registered stage hc hloop =>
      exact .inl (hquiet (by cases stage <;> rfl) rfl)
  | _ => exact .inl (hquiet rfl rfl)

end Cases

/-! ## Who was found silent -/

/-- How the players found silent so far, the list of the expired and the map agree. -/
structure Roster.Tracks (r : Roster) (silent : List String) : Prop where
  known : ∀ {id}, id ∈ silent ∨ id ∈ r.expired → ∃ c P, r.Owns c P id
  online : ∀ {c P id}, r.Owns c P id → P.stage.present = true → id ∉ silent →
    (r.players.get? id).isSome = true
  expired : ∀ {c P id}, id ∈ r.expired → id ∉ silent → r.Owns c P id →
    P.stage.present = false
  removed : ∀ {id}, id ∈ silent → id ∉ r.expired → r.players.get? id = none

section Step

variable {r r' : Roster} {events : List Event} {silent : List String}

/-- A player has one connection. -/
theorem Roster.Sound.owner_unique (hs : r.Sound) {c c' : SocketId} {P P' : Party} {id : String}
    (ho : r.Owns c P id) (hc' : r.parties.get? c' = some P') (hid : P'.playerId = id)
    (hout : P'.stage ≠ .outside) : c' = c ∧ P' = P := by
  obtain ⟨hc, hPid, hreg⟩ := ho
  obtain rfl := hs.unique hc' hc hout (hs.ne_outside hc hreg) (hid.trans hPid.symm)
  exact ⟨rfl, Option.some.inj (hc'.symm.trans hc)⟩

/-- A connection that is about to insert its player owns nobody. -/
theorem Roster.Sound.not_entering (hs : r.Sound) {c c' : SocketId} {P : Party} {id : String}
    {registered : Bool} (ho : r.Owns c P id)
    (hc' : r.parties.get? c' = some ⟨id, registered, .entering⟩) : False := by
  have hreg : registered = false := hs.knows hc'
  obtain ⟨_, rfl⟩ := hs.owner_unique ho hc' rfl (by simp)
  rw [hreg] at ho
  cases ho.2.2

/-- What `find_expired` finds is tracked from then on. -/
theorem Roster.Tracks.found (hs : r.Sound) (ht : r.Tracks silent) {expired found : List String}
    (hempty : r.expired = []) (hfound : r.Found expired found) :
    { r with expired := expired }.Tracks (silent ++ found) where
  known := by
    intro id hid
    have hcases : id ∈ silent ∨ id ∈ expired := by
      obtain hid | hid := hid
      · exact (List.mem_append.mp hid).imp_right (hfound.silent id)
      · exact .inr hid
    obtain hid | hid := hcases
    · exact ht.known (.inl hid)
    · obtain ⟨p, hp, _⟩ := hfound.player id hid
      obtain ⟨c, P, hP, hPid, hreg, _⟩ := hs.owned hp
      exact ⟨c, P, hP, hPid, hreg⟩
  online := by
    intro c P id ho hpresent hnot
    exact ht.online ho hpresent fun hid => hnot (List.mem_append_left _ hid)
  expired := by
    intro c P id hid hnot ho
    obtain ⟨p, hp, honline⟩ := hfound.player id hid
    obtain ⟨c', P', hP', hPid', hreg', hpresent⟩ := hs.owned hp
    obtain ⟨_, rfl⟩ := hs.owner_unique ho hP' hPid' (hs.ne_outside hP' hreg')
    rw [← Bool.not_eq_true]
    intro hpresent'
    exact hnot (List.mem_append_right _ (honline (hpresent.mpr hpresent')))
  removed := by
    intro id hid hnot
    obtain hid | hid := List.mem_append.mp hid
    · exact ht.removed hid (by simp [hempty])
    · exact absurd (hfound.silent id hid) hnot

/-- Every effect keeps the list of the expired in agreement with the map. -/
theorem Roster.Tracks.step (hs : r.Sound) (ht : r.Tracks silent) (h : Effect r r' events) :
    r'.Tracks (silent ++ events.filterMap Event.silentPlayer) := by
  obtain ⟨hsub, hgone, hevents⟩ | ⟨expired, rfl, hempty, hfound⟩ := h.expired_cases
  · rw [hevents, List.append_nil]
    constructor
    case known =>
      intro id hid
      obtain ⟨c, P, ho⟩ := ht.known (hid.imp_right (hsub id))
      exact ⟨c, h.owns ho⟩
    case online =>
      intro c P' id ho hpresent hnot
      obtain ⟨P, hoP, hmono⟩ | ⟨_, hin⟩ := h.owned_cases ho
      · obtain ⟨p, hp⟩ := Option.isSome_iff_exists.mp (ht.online hoP (hmono hpresent) hnot)
        obtain hin | ⟨c', registered, Q, hc', hQ, hleft⟩ | hexpired := h.player_kept hp
        · exact hin
        · -- The player's own connection took it out, and is not present any more.
          obtain ⟨rfl, _⟩ := hs.owner_unique hoP hc' rfl (by simp)
          obtain rfl : Q = P' := Option.some.inj (hQ.symm.trans ho.1)
          simp [hpresent] at hleft
        · have hleft := ht.expired hexpired hnot hoP
          simp [hmono hpresent] at hleft
      · exact hin
    case expired =>
      intro c P' id hid hnot ho
      obtain ⟨P, hoP, hmono⟩ | ⟨⟨registered, hc⟩, _⟩ := h.owned_cases ho
      · have hleft := ht.expired (hsub id hid) hnot hoP
        rw [← Bool.not_eq_true] at hleft ⊢
        exact fun hpresent => hleft (hmono hpresent)
      · obtain ⟨c', P, hoP⟩ := ht.known (.inr (hsub id hid))
        exact (hs.not_entering hoP hc).elim
    case removed =>
      intro id hid hnot
      by_cases hexpired : id ∈ r.expired
      · exact hgone id hexpired hnot
      · rw [Option.eq_none_iff_forall_ne_some]
        intro p' hp'
        obtain ⟨p, hp, _⟩ | ⟨_, _, _, c, registered, hc, _⟩ := h.player_cases hp'
        · simp [ht.removed hid hexpired] at hp
        · obtain ⟨c', P, hoP⟩ := ht.known (.inl hid)
          exact hs.not_entering hoP hc
  · exact ht.found hs hempty hfound

end Step

namespace Lobby

/-- The agreement holds after any run, for the players found silent on the way. -/
theorem tracks_of_trace {s : Lobby} {events : List Event} (h : machine.Trace report events s) :
    s.roster.Tracks (events.filterMap Event.silentPlayer) := by
  refine h.invariant (I := fun events s =>
    s.roster.Tracks (events.filterMap Event.silentPlayer)) ?_ ?_
  · constructor
    · rintro id (hid | hid) <;> cases hid
    · intro c P id ho
      have hc := ho.1
      simp [machine, start, roster, Table.get?_mapValues] at hc
    · intro c P id hid
      cases hid
    · intro id hid
      cases hid
  · intro events s l s' hreach ht hstep
    rw [List.filterMap_append]
    exact ht.step (sound_of_reachable hreach) (effect_of_step hstep)

theorem expired_of_quiescent {s : Lobby} (h : s.quiescent = true) : s.roster.expired = [] := by
  simp only [quiescent, Bool.and_eq_true] at h
  have hresting := h.2
  simp only [roster]
  cases hpc : s.cleanup with
  | removePlayers expired => simp [hpc, CleanupTask.resting] at hresting
  | removeRooms hostingRoom joinedRoom expired => simp [hpc, CleanupTask.resting] at hresting
  | _ => rfl

theorem mem_silentPlayer {events : List Event} {id : String} :
    id ∈ events.filterMap Event.silentPlayer ↔ Event.silent id ∈ events := by
  simp only [List.mem_filterMap]
  constructor
  · rintro ⟨event, hmem, hevent⟩
    cases event with
    | silent id' =>
        obtain rfl : id' = id := Option.some.inj hevent
        exact hmem
    | _ => cases hevent
  · exact fun hmem => ⟨_, hmem, rfl⟩

/-! ## The correspondence -/

/-- A connection of the player runs `handle_socket`, with `registered` set. -/
def Registered (s : Lobby) (playerId : String) : Prop :=
  ∃ c h, s.sockets.get? c = some (.running h) ∧ h.pc.hasReturned = false ∧
    h.registered = true ∧ h.playerId = playerId

/-- The player is in the map, and not marked disconnected. -/
def Online (s : Lobby) (playerId : String) : Prop :=
  ∃ p, s.app.players.get? playerId = some p ∧ p.disconnectedAt = none

/-- Live registered connections and online players correspond. -/
def Corresponds (s : Lobby) : Prop :=
  ∀ playerId, s.Registered playerId ↔ s.Online playerId

/-- When no handler is in the middle of an operation, a connection that has not returned is
in its receive loop. -/
theorem registered_iff {s : Lobby} (hquiescent : s.quiescent = true) {id : String} :
    s.Registered id ↔ ∃ c P, s.roster.Owns c P id ∧ P.stage.present = true := by
  constructor
  · rintro ⟨c, h, hc, hruns, hreg, rfl⟩
    have hP : s.roster.parties.get? c = some h.party := by
      simp [roster, Table.get?_mapValues, hc, Socket.party]
    refine ⟨c, h.party, ⟨hP, rfl, hreg⟩, ?_⟩
    simp only [quiescent, Bool.and_eq_true, List.all_eq_true] at hquiescent
    have hresting := hquiescent.1 _ (Table.mem_values_iff.mpr ⟨c, hc⟩)
    simp only [Socket.resting] at hresting
    simp only [Handler.party]
    cases hpc : h.pc with
    | receiving => rfl
    | returned | released => simp [hpc, HandlerPc.hasReturned] at hruns
    | _ => simp [hpc, HandlerPc.resting] at hresting
  · rintro ⟨c, P, ⟨hP, rfl, hreg⟩, hpresent⟩
    simp only [roster, Table.get?_mapValues] at hP
    obtain ⟨k, hk, rfl⟩ := Option.map_eq_some_iff.mp hP
    cases k with
    | upgrading ip | upgradeFailed ip => cases hreg
    | running h =>
        refine ⟨c, h, hk, ?_, hreg, rfl⟩
        simp only [Socket.party, Handler.party] at hpresent
        cases hpc : h.pc with
        | returned | released =>
            simp [hpc, HandlerPc.stage, HandlerStage.present, HandlerStage.inLoop] at hpresent
        | _ => rfl

/-- When no handler is in the middle of an operation, live registered connections and online
players correspond if and only if no player with a live connection was found silent on the
way. -/
theorem corresponds_iff {s : Lobby} {events : List Event} (h : machine.Trace report events s)
    (hquiescent : s.quiescent = true) :
    s.Corresponds ↔ ∀ playerId, s.Registered playerId → Event.silent playerId ∉ events := by
  have hsound := sound_of_reachable h.reachable
  have htracks := tracks_of_trace h
  constructor
  · intro hcorresponds id hreg hsilent
    obtain ⟨p, hp, _⟩ := (hcorresponds id).mp hreg
    have hremoved : s.app.players.get? id = none :=
      htracks.removed (mem_silentPlayer.mpr hsilent) (by simp [expired_of_quiescent hquiescent])
    simp [hremoved] at hp
  · intro hheard id
    constructor
    · intro hreg
      obtain ⟨c, P, ho, hpresent⟩ := (registered_iff hquiescent).mp hreg
      have hnot := mem_silentPlayer.not.mpr (hheard id hreg)
      obtain ⟨p, hp⟩ := Option.isSome_iff_exists.mp (htracks.online ho hpresent hnot)
      obtain ⟨c', P', hP', hPid', hreg', honline⟩ := hsound.owned hp
      obtain ⟨_, rfl⟩ := hsound.owner_unique ho hP' hPid' (hsound.ne_outside hP' hreg')
      exact ⟨p, hp, honline.mpr hpresent⟩
    · rintro ⟨p, hp, honline⟩
      obtain ⟨c, P, hP, hPid, hreg, hpresent⟩ := hsound.owned hp
      exact (registered_iff hquiescent).mpr ⟨c, P, ⟨hP, hPid, hreg⟩, hpresent.mp honline⟩

/-- A web viewer registers and sends nothing more, as the join page does (`web/join`).  Its
countdown has not run out when the cleanup task removes it. -/
def silentRun : List Label :=
  [.request 1 true (.v4 0x08080808), .upgrade 1 (some "a"),
    .frame 1 (.text 60 (some (.register "__web-viewer-0__" .v127 none)) none),
    .block 1 "", .block 1 "", .block 1 "", .elapse (secs 31)] ++ List.replicate 7 .cleanup

/-- The handler of the socket has not returned, and has registered the player. -/
def liveAs (playerId : String) : Socket → Bool
  | .running h => !h.pc.hasReturned && h.registered && decide (h.playerId = playerId)
  | _ => false

/-- A registered connection can lose its player. -/
theorem not_always_corresponds :
    ¬ ∀ s, machine.Reachable s → s.quiescent = true → s.Corresponds := by
  intro hclaim
  have hrun : (machine.exec machine.init silentRun).any (fun s =>
      s.quiescent && (s.app.players.get? "a").isNone && (s.sockets.get? 1).any (liveAs "a")) =
        true := by
    decide
  obtain ⟨s, _, hreach, htest⟩ := Machine.exists_reachable_of_exec hrun
  simp only [Bool.and_eq_true, Option.any_eq_true] at htest
  obtain ⟨⟨hquiescent, hgone⟩, k, hk, hlive⟩ := htest
  cases k with
  | upgrading ip | upgradeFailed ip => cases hlive
  | running h =>
      simp only [liveAs, Bool.and_eq_true, Bool.not_eq_true', decide_eq_true_eq] at hlive
      obtain ⟨⟨hruns, hreg⟩, hid⟩ := hlive
      obtain ⟨p, hp, _⟩ := (hclaim s hreach hquiescent "a").mp ⟨1, h, hk, hruns, hreg, hid⟩
      simp [hp] at hgone

/-- A player that registers is online. -/
theorem corresponds_registered :
    ∃ s, machine.Reachable s ∧ s.Corresponds ∧ s.Online "a" := by
  have hrun : (machine.exec machine.init (registers 1 "a")).any (fun s =>
      s.quiescent && (s.app.players.get? "a").any (·.online)) = true := by
    decide
  have hreport : machine.report report machine.init (registers 1 "a") = [] := by
    decide
  obtain ⟨s, hexec, hreach, htest⟩ := Machine.exists_reachable_of_exec hrun
  simp only [Bool.and_eq_true, Option.any_eq_true] at htest
  obtain ⟨hquiescent, p, hp, honline⟩ := htest
  have htrace := Machine.trace_of_exec (f := report) hexec
  rw [hreport] at htrace
  refine ⟨s, hreach, (corresponds_iff htrace hquiescent).mpr (by simp), p, hp, ?_⟩
  simpa [ConnectedPlayer.online] using honline

end Lobby

end War3BattleTool.Server
