import MateHub.Video.Ownership
import MateHub.Video.Turns

/-!
# The registry of voice sessions

The video service keeps its sessions by id, and the session of every channel. A request
makes a session where the channel has none, a connection registers in the session that it
names, and whoever unregisters last removes it. Each of them takes the lock by itself, so
they interleave with one another, and with connections that have lost their slot to a newer
one of the same user.

The two maps are inverse all the same, a session stays with whoever is registered in it, and a
connection that releases its own slot takes the slot out, and the session with it exactly if nobody
is left (`MateHub.Video.sessions_registered`).
-/

namespace MateHub

namespace Video

/-- **The two maps are inverse.** -/
structure AppState.Indexed (app : AppState) : Prop where
  ids : ∀ sid s, app.sessions.lookup sid = some s → s.id = sid
  index : ∀ channelId sid, app.channelToSession.lookup channelId = some sid ↔
    ∃ s, app.sessions.lookup sid = some s ∧ s.channelId = channelId

namespace AppState.Indexed

variable {app app' : AppState}

/-- The sessions stay, with their ids and channels. -/
theorem congr (h : app.Indexed) (hindex : app'.channelToSession = app.channelToSession)
    (hsessions : ∀ sid, (app'.sessions.lookup sid).map (fun s => (s.id, s.channelId)) =
      (app.sessions.lookup sid).map fun s => (s.id, s.channelId)) : app'.Indexed := by
  -- a session there has the id and the channel of the one before
  have hback {app app' : AppState} {sid : SessionId} {s : Session}
      (heq : (app'.sessions.lookup sid).map (fun s => (s.id, s.channelId)) =
        (app.sessions.lookup sid).map fun s => (s.id, s.channelId))
      (hs : app'.sessions.lookup sid = some s) : ∃ s₀, app.sessions.lookup sid = some s₀ ∧
        s₀.id = s.id ∧ s₀.channelId = s.channelId := by
    rw [hs, Option.map_some] at heq
    obtain ⟨s₀, hs₀, heq⟩ := Option.map_eq_some_iff.mp heq.symm
    exact ⟨s₀, hs₀, congrArg Prod.fst heq, congrArg Prod.snd heq⟩
  constructor
  · intro sid s hs
    obtain ⟨s₀, hs₀, hid, -⟩ := hback (hsessions sid) hs
    exact hid.symm.trans (h.ids sid s₀ hs₀)
  · intro channelId sid
    rw [hindex, h.index]
    constructor
    · rintro ⟨s, hs, hchannel⟩
      obtain ⟨s', hs', -, heq⟩ := hback (hsessions sid).symm hs
      exact ⟨s', hs', heq.trans hchannel⟩
    · rintro ⟨s', hs', hchannel⟩
      obtain ⟨s, hs, -, heq⟩ := hback (hsessions sid) hs'
      exact ⟨s, hs, heq.trans hchannel⟩

theorem replace (h : app.Indexed) {sid : SessionId} {s : Session}
    (hs : app.sessions.lookup sid = some s) (participants : Dict ParticipantId Participant) :
    Indexed { app with
      sessions := app.sessions.insert sid { s with participants := participants } } := by
  refine h.congr rfl fun sid' => ?_
  rw [Dict.lookup_insert_eq]
  split
  · rename_i heq
    rw [heq, hs]
    rfl
  · rfl

/-- A session of a new id is made for a channel that has none. -/
theorem create (h : app.Indexed) {channelId : ChannelId} {hubId : HubId} {sid : SessionId}
    (hnone : app.channelToSession.lookup channelId = none)
    (hfresh : app.sessions.lookup sid = none) :
    Indexed ⟨app.sessions.insert sid ⟨sid, channelId, hubId, ∅⟩,
      app.channelToSession.insert channelId sid⟩ := by
  constructor
  · intro sid' s hs
    rw [Dict.lookup_insert_eq] at hs
    split at hs
    · rename_i heq
      obtain rfl := Option.some.inj hs
      exact heq.symm
    · exact h.ids sid' s hs
  · intro channelId' sid'
    dsimp only
    rw [Dict.lookup_insert_eq, Dict.lookup_insert_eq]
    by_cases hchannel : channelId' = channelId
    · subst hchannel
      rw [if_pos rfl]
      constructor
      · rintro ⟨⟩
        exact ⟨_, if_pos rfl, rfl⟩
      · rintro ⟨s, hs, heq⟩
        split at hs
        · rename_i hsid
          rw [hsid]
        · have hindex := (h.index channelId' sid').mpr ⟨s, hs, heq⟩
          rw [hnone] at hindex
          cases hindex
    · rw [if_neg hchannel, h.index]
      by_cases hsid : sid' = sid
      · subst hsid
        rw [hfresh, if_pos rfl]
        constructor
        · rintro ⟨_, ⟨⟩, -⟩
        · rintro ⟨_, ⟨⟩, heq⟩
          exact absurd heq.symm hchannel
      · rw [if_neg hsid]

/-- A session is removed, and its channel with it. -/
theorem remove (h : app.Indexed) {sid : SessionId} {s : Session}
    (hs : app.sessions.lookup sid = some s) :
    Indexed ⟨app.sessions.erase sid, app.channelToSession.erase s.channelId⟩ := by
  have hat : app.channelToSession.lookup s.channelId = some sid :=
    (h.index s.channelId sid).mpr ⟨s, hs, rfl⟩
  constructor
  · intro sid' s' hs'
    rw [Dict.lookup_erase_eq] at hs'
    split at hs'
    · cases hs'
    · exact h.ids sid' s' hs'
  · intro channelId sid'
    dsimp only
    rw [Dict.lookup_erase_eq, Dict.lookup_erase_eq]
    by_cases hsid : sid' = sid
    · subst hsid
      rw [if_pos rfl]
      constructor
      · intro hindex
        split at hindex
        · cases hindex
        · rename_i hne
          obtain ⟨s', hs', heq⟩ := (h.index channelId sid').mp hindex
          rw [hs] at hs'
          obtain rfl := Option.some.inj hs'
          exact absurd heq.symm hne
      · rintro ⟨_, ⟨⟩, -⟩
    · rw [if_neg hsid]
      by_cases hchannel : channelId = s.channelId
      · subst hchannel
        rw [if_pos rfl]
        constructor
        · rintro ⟨⟩
        · intro hsome
          rw [(h.index _ _).mpr hsome] at hat
          exact absurd (Option.some.inj hat) hsid
      · rw [if_neg hchannel]
        exact h.index channelId sid'

end AppState.Indexed

/-- The state of the sessions after a release that is the handler's own. -/
def AppState.released (app : AppState) (sid : SessionId) (s : Session) (pid : ParticipantId) :
    AppState :=
  if Dict.isEmpty (s.participants.erase pid) then
    { sessions := (app.sessions.insert sid
        { s with participants := s.participants.erase pid }).erase sid
      channelToSession := app.channelToSession.erase s.channelId }
  else
    { app with
      sessions := app.sessions.insert sid { s with participants := s.participants.erase pid } }

namespace Service

variable {S : Str0m} {cfg : Config} {w w' : Service S} {a : Act}

/-- The id that a step draws for a new session. -/
def drawn? : Act → Option SessionId
  | .createSession _ _ sid => some sid
  | _ => none

/-- **What is assumed of `Uuid::new_v4`**: it draws no id that a session has. -/
def DrawsFresh (w : Service S) (a : Act) : Prop :=
  ((drawn? a).all fun sid => (w.app.sessions.lookup sid).isNone) = true

instance (w : Service S) (a : Act) : Decidable (w.DrawsFresh a) :=
  inferInstanceAs (Decidable (_ = true))

theorem DrawsFresh.lookup {channelId : ChannelId} {hubId : HubId} {sid : SessionId}
    (h : w.DrawsFresh (.createSession channelId hubId sid)) :
    w.app.sessions.lookup sid = none := Option.isNone_iff_eq_none.mp h

theorem indexed_step (h : w.app.Indexed) (hfresh : w.DrawsFresh a) (hturn : Turn cfg w a w') :
    w'.app.Indexed := by
  cases hturn with
  | idle hapart => exact hapart.app ▸ h
  | works hapart => exact hapart.app ▸ h
  | delivers hapart => exact hapart.app ▸ h
  | complains hapart => exact hapart.app ▸ h
  | creates hnone heq => exact heq ▸ h.create hnone hfresh.lookup
  | connects _ _ _ heq => exact heq ▸ h
  | locates _ _ _ happ => exact happ ▸ h
  | goes _ _ _ happ => exact happ ▸ h
  | publishes _ _ happ => exact happ ▸ h
  | @alters _ _ h' _ _ _ _ _ _ happ =>
    rw [happ]
    refine h.congr rfl fun sid => ?_
    rw [modifySlot, Dict.lookup_modify]
    split
    · rw [Option.map_map]
      rfl
    · rfl
  | registers _ hs _ happ => exact happ ▸ h.replace hs _
  | @releases c h' s _ _ _ hs _ happ =>
    rw [happ]
    split
    · have hlast := h.replace hs (s.participants.erase h'.pid)
      exact hlast.remove (s := { s with participants := s.participants.erase h'.pid })
        (AList.lookup_insert _)
    · exact h.replace hs _

/-- A handler is about to release the slot that it owns. -/
structure Releases (w : Service S) (c : WsTx) (h : Handler) : Prop where
  handler : w.handlers c = some h
  phase : h.phase = .releasing
  owns : w.owns c h = true

/-- **What is left of a session** after the release of a slot: the session without the slot; and,
if nobody is left in it, nothing, nor an entry of its channel. -/
structure Released (w' : Service S) (sid : SessionId) (s : Session) (pid : ParticipantId) :
    Prop where
  last : Dict.isEmpty (s.participants.erase pid) = true →
    w'.app.sessions.lookup sid = none ∧ w'.app.channelToSession.lookup s.channelId = none
  others : Dict.isEmpty (s.participants.erase pid) = false →
    w'.app.sessions.lookup sid = some { s with participants := s.participants.erase pid } ∧
      w'.app.channelToSession.lookup s.channelId = some sid

theorem Released.of_app (hindexed : w.app.Indexed) {sid : SessionId} {s : Session}
    {pid : ParticipantId} (hs : w.app.sessions.lookup sid = some s)
    (happ : w'.app = w.app.released sid s pid) : w'.Released sid s pid := by
  rw [AppState.released] at happ
  constructor
  · intro hempty
    rw [happ, if_pos hempty]
    exact ⟨AList.lookup_erase _ _, AList.lookup_erase _ _⟩
  · intro hothers
    rw [happ, if_neg (Bool.eq_false_iff.mp hothers)]
    exact ⟨AList.lookup_insert _, (hindexed.index s.channelId sid).mpr ⟨s, hs, rfl⟩⟩

/-- A handler that owns its slot, and is past its loop, releases it in its next stretch. -/
theorem Releases.app {c : WsTx} {h : Handler} (hrel : w.Releases c h)
    (hstep : Step cfg w (.advance c) w') : ∃ s, w.app.sessions.lookup h.sid = some s ∧
      w'.app = w.app.released h.sid s h.pid := by
  obtain ⟨hc, hphase, howns⟩ := hrel
  obtain ⟨p, hslot, hp⟩ := (Option.any_eq_true _ _).mp howns
  obtain ⟨s, hs, hp'⟩ := Option.bind_eq_some_iff.mp hslot
  refine ⟨s, hs, ?_⟩
  have hours : ((s.participants.lookup h.pid).any fun p => decide (p.wsTx = c)) = true := by
    rw [hp']
    exact hp
  cases hstep
  simp only [next, hc, advance, hphase, release, hs, if_pos hours, broadcast_eq]
  rw [AppState.released]
  split
  · dsimp only [setPhase]
    rw [app_posted]
    rfl
  · dsimp only [setPhase]
    rw [app_posted]
    rfl

/-- **What becomes of a session**: it stays, with everybody in it; or a handler releases the slot
that it owns in it. -/
theorem session_of_turn (hindexed : w.app.Indexed) (hfresh : w.DrawsFresh a)
    (hturn : Turn cfg w a w') {sid : SessionId} {s : Session}
    (hs : w.app.sessions.lookup sid = some s) :
    (∃ s', w'.app.sessions.lookup sid = some s' ∧ ∀ pid,
      (s.participants.lookup pid).isSome = true → (s'.participants.lookup pid).isSome = true) ∨
    ∃ c h, a = .advance c ∧ w.Releases c h ∧ h.sid = sid ∧ w'.Released sid s h.pid := by
  have hstays (happ : w'.app = w.app) : ∃ s', w'.app.sessions.lookup sid = some s' ∧ ∀ pid,
      (s.participants.lookup pid).isSome = true → (s'.participants.lookup pid).isSome = true :=
    ⟨s, happ ▸ hs, fun _ => id⟩
  cases hturn with
  | idle hapart => exact .inl (hstays hapart.app)
  | works hapart => exact .inl (hstays hapart.app)
  | delivers hapart => exact .inl (hstays hapart.app)
  | complains hapart => exact .inl (hstays hapart.app)
  | creates hnone heq =>
    subst heq
    refine .inl ⟨s, ?_, fun _ => id⟩
    rw [Dict.lookup_insert_eq, if_neg, hs]
    rintro rfl
    rw [hfresh.lookup] at hs
    cases hs
  | connects _ _ _ heq => exact .inl (hstays (by rw [heq]))
  | locates _ _ _ happ => exact .inl (hstays happ)
  | goes _ _ _ happ => exact .inl (hstays happ)
  | publishes _ _ happ => exact .inl (hstays happ)
  | @alters _ _ h' f _ _ _ _ _ happ =>
    rw [happ, modifySlot, Dict.lookup_modify, hs]
    split
    · refine .inl ⟨_, rfl, fun pid hpid => ?_⟩
      -- a slot that is changed is still there
      dsimp only
      rw [Dict.lookup_modify]
      split
      · rwa [Option.isSome_map]
      · exact hpid
    · exact .inl ⟨s, rfl, fun _ => id⟩
  | @registers c h' s' _ _ hs' _ happ =>
    rw [happ, setSession, Dict.lookup_insert_eq]
    split
    · rename_i hsid
      rw [hsid, hs'] at hs
      obtain rfl := Option.some.inj hs
      refine .inl ⟨_, rfl, fun pid hpid => ?_⟩
      dsimp only
      rw [Dict.lookup_insert_eq]
      split
      · rfl
      · exact hpid
    · exact .inl ⟨s, hs, fun _ => id⟩
  | @releases c h' s' _ hphase howns hs' hacts happ =>
    by_cases hsid : sid = h'.sid
    · subst hsid
      rw [hs] at hs'
      obtain rfl := Option.some.inj hs'
      exact .inr ⟨c, h', rfl, ⟨hacts.was, hphase, howns⟩, rfl, .of_app hindexed hs happ⟩
    · refine .inl ⟨s, ?_, fun _ => id⟩
      rw [happ]
      split
      · dsimp only
        rw [AList.lookup_erase_ne hsid, AList.lookup_insert_ne hsid, hs]
      · exact (AList.lookup_insert_ne hsid).trans hs

theorem indexed_of_reach (hw : (system S cfg).Reach DrawsFresh w) : w.app.Indexed := by
  refine hw.invariant (fun w hinit => ?_) fun w a w' h hok hstep =>
    indexed_step h hok (turn_of_step hstep)
  obtain ⟨_, _, rfl⟩ := hinit
  constructor
  · rintro sid s ⟨⟩
  · intro channelId sid
    constructor
    · rintro ⟨⟩
    · rintro ⟨_, ⟨⟩, -⟩

end Service

/-- **The registry of voice sessions.** In every run in which the ids of new sessions are
new, the two maps are inverse, and so no channel has two sessions. In every step from a
state that is reached, a session stays with everybody who is registered in it, unless a handler
releases the slot that it owns there. And such a release takes the slot out: with others in it the
session stays without the slot, and with nobody left the session is gone, and with it the entry of
its channel. -/
theorem sessions_registered {S : Str0m} {cfg : Config} {w : Service S}
    (hw : (Service.system S cfg).Reach Service.DrawsFresh w) :
    (∀ channelId sid, w.app.channelToSession.lookup channelId = some sid ↔
      ∃ s, w.app.sessions.lookup sid = some s ∧ s.channelId = channelId) ∧
    (∀ sid sid' s s', w.app.sessions.lookup sid = some s → w.app.sessions.lookup sid' = some s' →
      s.channelId = s'.channelId → sid = sid') ∧
    (∀ a w', Service.Step cfg w a w' → w.DrawsFresh a → ∀ sid s,
      w.app.sessions.lookup sid = some s →
      (∃ s', w'.app.sessions.lookup sid = some s' ∧ ∀ pid,
        (s.participants.lookup pid).isSome = true → (s'.participants.lookup pid).isSome = true) ∨
      ∃ c h, a = .advance c ∧ w.Releases c h ∧ h.sid = sid ∧ w'.Released sid s h.pid) ∧
    ∀ c h w', w.Releases c h → Service.Step cfg w (.advance c) w' →
      ∃ s, w.app.sessions.lookup h.sid = some s ∧ w'.Released h.sid s h.pid := by
  have hindexed := Service.indexed_of_reach hw
  refine ⟨hindexed.index, fun sid sid' s s' hs hs' heq => ?_, fun a w' hstep hfresh sid s hs => ?_,
    fun c h w' hrel hstep => ?_⟩
  · have hsid := (hindexed.index s.channelId sid).mpr ⟨s, hs, rfl⟩
    have hsid' := (hindexed.index s.channelId sid').mpr ⟨s', hs', heq.symm⟩
    exact Option.some.inj (hsid.symm.trans hsid')
  · exact Service.session_of_turn hindexed hfresh (Service.turn_of_step hstep) hs
  · obtain ⟨s, hs, happ⟩ := hrel.app hstep
    exact ⟨s, hs, .of_app hindexed hs happ⟩

/-- The first connection of a reconnect is about to release a slot that is not its own. -/
def staleRelease : List Service.Act :=
  firstConnection ++ secondConnection ++ [.hangUp 11, .advance 11]

/-- It has done so, and the second connection is about to release the slot, which is its own and
the last one. -/
def lastRelease : List Service.Act :=
  staleRelease ++ [.advance 11, .hangUp 12, .advance 12]

theorem reach_staleRelease : (Service.system scripted reconnectConfig).Reach
    Service.DrawsFresh (reconnectRun staleRelease) :=
  System.Reach.foldl (M := Service.system scripted reconnectConfig) Service.Step.next
    (.start ⟨_, _, rfl⟩) (by decide)

theorem reach_lastRelease : (Service.system scripted reconnectConfig).Reach
    Service.DrawsFresh (reconnectRun lastRelease) :=
  System.Reach.foldl (M := Service.system scripted reconnectConfig) Service.Step.next
    (.start ⟨_, _, rfl⟩) (by decide)

/-- The release of the first connection leaves the slot of the second one, and the session with
it; that of the second one takes the session out, and the entry of the channel. -/
theorem sessions_registered_replaced :
    (∃ s', ((reconnectRun staleRelease).next reconnectConfig (.advance 11)).app.sessions.lookup 7 =
      some s' ∧ (s'.participants.lookup 8).isSome = true) ∧
    ((reconnectRun lastRelease).next reconnectConfig (.advance 12)).app.sessions.lookup 7 = none ∧
    ((reconnectRun lastRelease).next reconnectConfig (.advance 12)).app.channelToSession.lookup 5 =
      none := by
  constructor
  · obtain ⟨hindex, -, hstays, -⟩ := sessions_registered reach_staleRelease
    obtain ⟨s, hs, -⟩ := (hindex 5 7).mp (by decide)
    have hslot : (s.participants.lookup 8).isSome = true := by
      have hthere : (((reconnectRun staleRelease).app.sessions.lookup 7).all fun s =>
        (s.participants.lookup 8).isSome) = true := by decide
      rwa [hs] at hthere
    rcases hstays (.advance 11) _ (.next _ _) (by decide) 7 s hs with
      ⟨s', hs', hkept⟩ | ⟨c, h, ha, hrel, -, -⟩
    · exact ⟨s', hs', hkept 8 hslot⟩
    · obtain rfl := Service.Act.advance.inj ha
      have hstale : ((reconnectRun staleRelease).handlers 11).any
          ((reconnectRun staleRelease).owns 11) = false := by decide
      rw [hrel.handler, Option.any_some, hrel.owns] at hstale
      cases hstale
  · obtain ⟨hindex, -, -, hreleases⟩ := sessions_registered reach_lastRelease
    obtain ⟨h, hc⟩ : ∃ h, (reconnectRun lastRelease).handlers 12 = some h := ⟨_, rfl⟩
    have hlast : ((reconnectRun lastRelease).handlers 12).all (fun h =>
        h.phase = .releasing ∧ h.sid = 7 ∧ h.pid = 8 ∧
          (reconnectRun lastRelease).owns 12 h = true) = true := by decide
    rw [hc, Option.all_some, decide_eq_true_eq] at hlast
    obtain ⟨hphase, hsid, hpid, howns⟩ := hlast
    obtain ⟨s, hs, hreleased⟩ := hreleases 12 h _ ⟨hc, hphase, howns⟩ (.next _ _)
    rw [hsid] at hs hreleased
    have halone : (((reconnectRun lastRelease).app.sessions.lookup 7).all fun s =>
        Dict.isEmpty (s.participants.erase 8) && decide (s.channelId = 5)) = true := by decide
    rw [hs, Option.all_some, Bool.and_eq_true, decide_eq_true_eq, ← hpid] at halone
    exact halone.2 ▸ hreleased.last halone.1

end Video

end MateHub
