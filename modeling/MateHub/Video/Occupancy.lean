import MateHub.Video.Ownership
import MateHub.Video.Turns

/-!
# Who is in which voice channel

The video service tells the hub when a user comes to a voice channel and when the user
leaves: a handler publishes the one after it has registered, and the other when it is done.
The hub keeps the channel of every user, by the last event.

A handler says that its user has left also where the user has another connection, be it one
that has taken the slot over, or one to another channel. Then the hub shows nobody although
the user is there (`MateHub.Video.occupancy_lost`). In the runs in which the last live
connection of a user is gone when a handler says so, the hub is right
(`MateHub.Video.occupancy_coherent`).
-/

namespace MateHub

namespace Video

/-! ### The hub -/

/-- The hashes `voice_occupancy:{hub_id}`, from users to their channels. -/
abbrev VoiceOccupancy := HubId → Dict ℤ ChannelId

namespace VoiceOccupancy

variable (o : VoiceOccupancy)

/-- `voice_occupancy_set`. -/
def set (hubId : HubId) (userId : ℤ) (channelId : ChannelId) : VoiceOccupancy :=
  Function.update o hubId ((o hubId).insert userId channelId)

/-- `voice_occupancy_clear`. -/
def clear (hubId : HubId) (userId : ℤ) : VoiceOccupancy :=
  Function.update o hubId ((o hubId).erase userId)

/-- What the consumer of the hub does with an event; it is subscribed to those about the
occupancy. -/
def handle : NatsEvent → VoiceOccupancy
  | .occupancy hubId userId (some channelId) _ => o.set hubId userId channelId
  | .occupancy hubId userId none _ => o.clear hubId userId
  | .mute _ _ _ _ => o

theorem lookup_set {hubId hubId' : HubId} {userId userId' : ℤ} {channelId : ChannelId} :
    (o.set hubId userId channelId hubId').lookup userId' =
      if hubId' = hubId ∧ userId' = userId then some channelId else (o hubId').lookup userId' := by
  rw [set]
  rcases eq_or_ne hubId' hubId with rfl | hne
  · rw [Function.update_self, Dict.lookup_insert_eq]
    simp only [true_and]
  · rw [Function.update_of_ne hne, if_neg fun h => hne h.1]

theorem lookup_clear {hubId hubId' : HubId} {userId userId' : ℤ} :
    (o.clear hubId userId hubId').lookup userId' =
      if hubId' = hubId ∧ userId' = userId then none else (o hubId').lookup userId' := by
  rw [clear]
  rcases eq_or_ne hubId' hubId with rfl | hne
  · rw [Function.update_self, Dict.lookup_erase_eq]
    simp only [true_and]
  · rw [Function.update_of_ne hne, if_neg fun h => hne h.1]

end VoiceOccupancy

/-- The handler has said that its user is there, and not yet that the user has left. -/
def Phase.present : Phase → Bool
  | .running => true
  | .joined => true
  | .muted _ _ => true
  | .leaving => true
  | .releasing => true
  | .farewell => true
  | _ => false

/-- The handler is about to say that its user is there, or has left. -/
def Phase.Telling (p : Phase) : Prop := p = .registered ∨ p = .farewell

theorem Phase.Next.inLoop {p p' : Phase} (h : p.Next p') (hloop : p'.inLoop = true) :
    p.inLoop = true ∨ p = .registered := by
  cases h <;> first | exact .inl rfl | exact .inr rfl | cases hloop

theorem Phase.Next.present {p p' : Phase} (h : p.Next p') (hpresent : p.present = true) :
    p'.present = true ∨ p = .farewell := by
  cases h <;> first | exact .inl rfl | exact .inr rfl | cases hpresent

namespace Service

variable {S : Str0m} {cfg : Config} {w w' : Service S} {a : Act} {c : WsTx} {h : Handler}

/-- What the hub shows when it has processed all events. -/
def occupancy (w : Service S) : VoiceOccupancy :=
  w.published.foldl VoiceOccupancy.handle fun _ => ∅

/-! ### Live connections -/

/-- A connection of a user in a hub is live: its handler is in its loop and owns its slot. -/
def isLive (w : Service S) (hubId : HubId) (userId : ℤ) (c : WsTx) : Bool :=
  (w.handlers c).any fun h => h.phase.inLoop && w.owns c h &&
    decide (h.userSnowflake = some userId ∧ h.hubId = hubId)

/-- The live connections of a user in a hub. -/
def liveConnections (w : Service S) (hubId : HubId) (userId : ℤ) : List WsTx :=
  (w.app.sessions.values.flatMap fun s => s.participants.values.map Participant.wsTx).filter
    (w.isLive hubId userId)

/-- The handlers of a user are where they stay until something happens to them: they are
done, or in their loop with a slot of their own. -/
def Stable (w : Service S) (userId : ℤ) : Prop :=
  ∀ c h, w.handlers c = some h → h.userSnowflake = some userId →
    h.phase = .done ∨ h.phase = .running ∧ w.owns c h = true

/-- The handler that says in a step that its user has left. -/
def parting? (w : Service S) : Act → Option Handler
  | .advance c => (w.handlers c).filter fun h => h.phase = .farewell
  | _ => none

/-- **The condition on a step**: a handler says that its user has left only where the user
has no live connection in the hub. -/
def LeavesLast (w : Service S) (a : Act) : Prop :=
  ((w.parting? a).all fun h => h.userSnowflake.all fun userId =>
    (w.liveConnections h.hubId userId).isEmpty) = true

instance (w : Service S) (a : Act) : Decidable (w.LeavesLast a) :=
  inferInstanceAs (Decidable (_ = true))

theorem isLive_iff {hubId : HubId} {userId : ℤ} : w.isLive hubId userId c = true ↔
    ∃ h, w.handlers c = some h ∧ h.phase.inLoop = true ∧ w.owns c h = true ∧
      h.userSnowflake = some userId ∧ h.hubId = hubId := by
  simp only [isLive, Option.any_eq_true, Bool.and_eq_true, decide_eq_true_eq, and_assoc]

theorem mem_liveConnections {hubId : HubId} {userId : ℤ} :
    c ∈ w.liveConnections hubId userId ↔ w.isLive hubId userId c = true := by
  rw [liveConnections, List.mem_filter, and_iff_right_iff_imp]
  intro hlive
  obtain ⟨h, -, -, howns, -⟩ := isLive_iff.mp hlive
  obtain ⟨p, hslot, hp⟩ := (Option.any_eq_true _ _).mp howns
  obtain ⟨s, hs, hp'⟩ := Option.bind_eq_some_iff.mp hslot
  refine List.mem_flatMap.mpr ⟨s, Dict.mem_values.mpr ⟨_, hs⟩, ?_⟩
  exact List.mem_map.mpr ⟨p, Dict.mem_values.mpr ⟨_, hp'⟩, of_decide_eq_true hp⟩

/-! ### The invariant -/

/-- **The hub is right**: whom it shows in a channel has a handler that has said so and not
taken it back, and whom it does not show has no live connection. -/
structure Coherent (w : Service S) : Prop where
  shown : ∀ hubId userId channelId, (w.occupancy hubId).lookup userId = some channelId →
    ∃ c h, w.handlers c = some h ∧ h.userSnowflake = some userId ∧ h.hubId = hubId ∧
      h.channelId = channelId ∧ h.phase.present = true
  hidden : ∀ hubId userId, (w.occupancy hubId).lookup userId = none →
    ∀ c, w.isLive hubId userId c = false

/-- A live connection was live before the step, or its handler says now that its user is
there. -/
theorem live_back (hturn : Turn cfg w a w') {hubId : HubId} {userId : ℤ}
    (hlive : w'.isLive hubId userId c = true) : w.isLive hubId userId c = true ∨
      ∃ h, w.handlers c = some h ∧ h.phase = .registered ∧ h.userSnowflake = some userId ∧
        h.hubId = hubId := by
  obtain ⟨h', hc', hloop, howns, huser, hhub⟩ := isLive_iff.mp hlive
  have howns₀ : w.owns c h' = true := by
    rcases owns_back hturn howns with howns | ⟨-, h₁, hc₁, hphase⟩
    · exact howns
    · obtain rfl := Option.some.inj (hc'.symm.trans hc₁)
      rw [hphase] at hloop
      cases hloop
  rcases handler_back hturn hc' with hc | ⟨-, -, hphase⟩ | ⟨h, hc, hmoves⟩
  · exact .inl (isLive_iff.mpr ⟨h', hc, hloop, howns₀, huser, hhub⟩)
  · rw [hphase] at hloop
    cases hloop
  · have hwas : h.phase.inLoop = true ∨ h.phase = .registered := hmoves.phase.inLoop hloop
    have hroom : h'.hubId = h.hubId := by
      rcases hmoves.room with hphase | ⟨-, hhub⟩
      · rw [hphase] at hwas
        rcases hwas with hwas | hwas <;> cases hwas
      · exact hhub
    rw [hmoves.userSnowflake] at huser
    rw [owns, hmoves.sid, hmoves.pid] at howns₀
    rcases hwas with hloop₀ | hphase
    · exact .inl (isLive_iff.mpr ⟨h, hc, hloop₀, howns₀, huser, hroom ▸ hhub⟩)
    · exact .inr ⟨h, hc, hphase, huser, hroom ▸ hhub⟩

/-- A connection is live only since its handler has said that its user is there. -/
theorem live_before (hturn : Turn cfg w a w') {hubId : HubId} {userId : ℤ}
    (hlive : w'.isLive hubId userId c = true)
    (hstays : ∀ h, w.handlers c = some h → h.phase = .registered →
      h.userSnowflake = some userId → h.hubId = hubId → w'.handlers c = some h) :
    w.isLive hubId userId c = true := by
  rcases live_back hturn hlive with hlive₀ | ⟨h, hc, hphase, huser, hhub⟩
  · exact hlive₀
  · obtain ⟨h', hc', hloop, -⟩ := isLive_iff.mp hlive
    rw [hstays h hc hphase huser hhub] at hc'
    obtain rfl := Option.some.inj hc'
    rw [hphase] at hloop
    cases hloop

/-- **What is said in a turn**: nothing, and then nobody who is about to say something goes
on; or what one handler has to say. -/
theorem told_of_turn (hturn : Turn cfg w a w') :
    (w'.published = w.published ∧ ∀ c h, w.handlers c = some h → h.phase.Telling →
      w'.handlers c = some h) ∨
    ∃ c h event phase, a = .advance c ∧ w.handlers c = some h ∧ Tells h h.phase event phase ∧
      w'.handlers = Function.update w.handlers c (some { h with phase := phase }) ∧
      w'.published = (w.publish cfg h.userSnowflake event).published := by
  have hsame (hapart : w.Apart w') (c : WsTx) (h : Handler) (hc : w.handlers c = some h) :
      w'.handlers c = some h := hapart.handlers ▸ hc
  -- the handler of the turn is another one
  have hother {c₀ : WsTx} {h₀ h' : Handler} {msgs : List (WsTx × ServerMessage)}
      (hacts : w.Acts c₀ h₀ h' msgs w') (hne : ¬ h₀.phase.Telling) (c : WsTx) (h : Handler)
      (hc : w.handlers c = some h) (hphase : h.phase.Telling) : w'.handlers c = some h := by
    rw [hacts.handlers, Function.update_of_ne, hc]
    rintro rfl
    obtain rfl := Option.some.inj (hc.symm.trans hacts.was)
    exact hne hphase
  cases hturn with
  | idle hapart => exact .inl ⟨hapart.published, fun c h hc _ => hsame hapart c h hc⟩
  | works hapart => exact .inl ⟨hapart.published, fun c h hc _ => hsame hapart c h hc⟩
  | delivers hapart => exact .inl ⟨hapart.published, fun c h hc _ => hsame hapart c h hc⟩
  | complains hapart => exact .inl ⟨hapart.published, fun c h hc _ => hsame hapart c h hc⟩
  | creates _ heq =>
    subst heq
    exact .inl ⟨rfl, fun _ _ hc _ => hc⟩
  | @connects _ c₀ _ _ _ hnone _ heq =>
    subst heq
    refine .inl ⟨rfl, fun c h hc _ => (Function.update_of_ne ?_ _ _).trans hc⟩
    rintro rfl
    rw [hc] at hnone
    cases hnone
  | locates hphase _ hacts _ hpub => exact .inl ⟨hpub, hother hacts (by simp [hphase, Phase.Telling])⟩
  | @goes _ _ h₀ _ _ hgoes hacts _ _ hpub =>
    refine .inl ⟨hpub, hother hacts ?_⟩
    generalize h₀.phase = p at hgoes
    rintro (rfl | rfl) <;> cases hgoes
  | @publishes c h event phase _ htells hacts _ hpub =>
    exact .inr ⟨c, h, event, phase, rfl, hacts.was, htells, hacts.handlers, hpub⟩
  | @alters _ _ h₀ _ _ _ _ halters hacts _ hpub =>
    refine .inl ⟨hpub, hother hacts ?_⟩
    generalize h₀.phase = p at halters
    rintro (rfl | rfl) <;> cases halters
  | registers hphase _ hacts _ hpub => exact .inl ⟨hpub, hother hacts (by simp [hphase, Phase.Telling])⟩
  | releases hphase _ _ hacts _ hpub => exact .inl ⟨hpub, hother hacts (by simp [hphase, Phase.Telling])⟩

/-- Whoever has said that its user is there has not taken it back, unless it does now. -/
theorem Coherent.shown_on (h : Coherent w) (hturn : Turn cfg w a w') {hubId : HubId} {userId : ℤ}
    {channelId : ChannelId} (hlookup : (w.occupancy hubId).lookup userId = some channelId)
    (hstays : ∀ c h, w.handlers c = some h → h.userSnowflake = some userId → h.hubId = hubId →
      h.phase = .farewell → w'.handlers c = some h) :
    ∃ c h, w'.handlers c = some h ∧ h.userSnowflake = some userId ∧ h.hubId = hubId ∧
      h.channelId = channelId ∧ h.phase.present = true := by
  obtain ⟨c, h, hc, huser, hhub, hchannel, hpresent⟩ := h.shown hubId userId channelId hlookup
  rcases handler_on hturn hc with hc' | ⟨h', hc', hmoves⟩
  · exact ⟨c, h, hc', huser, hhub, hchannel, hpresent⟩
  · rcases hmoves.phase.present hpresent with hpresent' | hfarewell
    · rcases hmoves.room with hphase | ⟨hchannel', hhub'⟩
      · rw [hphase] at hpresent
        cases hpresent
      · exact ⟨c, h', hc', hmoves.userSnowflake.trans huser, hhub'.trans hhub,
          hchannel'.trans hchannel, hpresent'⟩
    · exact ⟨c, h, hstays c h hc huser hhub hfarewell, huser, hhub, hchannel, hpresent⟩

/-- What the hub shows after one more event. -/
theorem occupancy_publish {event : ℤ → NatsEvent} {userId : ℤ} (hnats : cfg.nats = true)
    (hpub : w'.published = (w.publish cfg (some userId) event).published) :
    w'.occupancy = w.occupancy.handle (event userId) := by
  rw [occupancy, hpub, publish, if_pos hnats, List.foldl_append]
  rfl

theorem liveConnections_eq_nil {userId : ℤ} (hok : w.LeavesLast (.advance c))
    (hc : w.handlers c = some h) (hphase : h.phase = .farewell)
    (huser : h.userSnowflake = some userId) : w.liveConnections h.hubId userId = [] := by
  rw [LeavesLast, parting?, hc, Option.filter_some, if_pos (decide_eq_true hphase),
    Option.all_some, huser, Option.all_some] at hok
  exact List.isEmpty_iff.mp hok

/-- A turn of which the hub does not hear. -/
theorem Coherent.keep (h : Coherent w) (hturn : Turn cfg w a w')
    (hocc : w'.occupancy = w.occupancy)
    (hstays : ∀ c h, w.handlers c = some h → h.phase.Telling → h.userSnowflake.isSome →
      w'.handlers c = some h) : Coherent w' := by
  constructor
  · intro hubId userId channelId hlookup
    rw [hocc] at hlookup
    exact h.shown_on hturn hlookup fun c h hc huser _ hphase =>
      hstays c h hc (.inr hphase) (by rw [huser]; rfl)
  · intro hubId userId hlookup c
    rw [hocc] at hlookup
    rw [Bool.eq_false_iff]
    intro hlive
    have hlive₀ := live_before hturn hlive fun h hc hphase huser _ =>
      hstays c h hc (.inl hphase) (by rw [huser]; rfl)
    rw [h.hidden hubId userId hlookup c] at hlive₀
    cases hlive₀

/-- **A step keeps the hub right.** -/
theorem Coherent.step (h : Coherent w) (hnats : cfg.nats = true) (hok : w.LeavesLast a)
    (hstep : Step cfg w a w') : Coherent w' := by
  have hturn := turn_of_step hstep
  rcases told_of_turn hturn with ⟨hpub, hstays⟩ |
    ⟨c₀, h₀, event, phase, rfl, hc₀, htells, hupdate, hpub⟩
  · exact h.keep hturn (by rw [occupancy, occupancy, hpub]) fun c h hc hphase _ =>
      hstays c h hc hphase
  · have hother {c : WsTx} {h : Handler} (hne : c ≠ c₀) (hc : w.handlers c = some h) :
        w'.handlers c = some h := by rw [hupdate, Function.update_of_ne hne, hc]
    cases huser₀ : h₀.userSnowflake with
    | none =>
      rw [huser₀] at hpub
      refine h.keep hturn (by rw [occupancy, occupancy, hpub]; rfl) fun c h hc _ hsome => ?_
      refine hother (fun heq => ?_) hc
      subst heq
      obtain rfl := Option.some.inj (hc.symm.trans hc₀)
      rw [huser₀] at hsome
      cases hsome
    | some userId₀ =>
      rw [huser₀] at hpub
      have hocc := occupancy_publish hnats hpub
      generalize hphase₀ : h₀.phase = phase₀ at htells
      cases htells with
      | mutes kind muted =>
        refine h.keep hturn hocc fun c h hc hphase _ => hother (fun heq => ?_) hc
        subst heq
        obtain rfl := Option.some.inj (hc.symm.trans hc₀)
        rw [hphase₀] at hphase
        rcases hphase with hphase | hphase <;> cases hphase
      | came =>
        have hrunning : w'.handlers c₀ = some { h₀ with phase := .running } := by
          rw [hupdate, Function.update_self]
        constructor
        · intro hubId userId channelId hlookup
          rw [hocc, VoiceOccupancy.handle, VoiceOccupancy.lookup_set] at hlookup
          split at hlookup
          · rename_i hkey
            exact ⟨c₀, _, hrunning, huser₀.trans (congrArg some hkey.2.symm), hkey.1.symm,
              Option.some.inj hlookup, rfl⟩
          · refine h.shown_on hturn hlookup fun c h hc _ _ hphase => hother (fun heq => ?_) hc
            subst heq
            obtain rfl := Option.some.inj (hc.symm.trans hc₀)
            rw [hphase₀] at hphase
            cases hphase
        · intro hubId userId hlookup c
          rw [hocc, VoiceOccupancy.handle, VoiceOccupancy.lookup_set] at hlookup
          split at hlookup
          · cases hlookup
          · rename_i hkey
            rw [Bool.eq_false_iff]
            intro hlive
            have hlive₀ := live_before hturn hlive fun h hc _ huser hhub => by
              refine hother (fun heq => ?_) hc
              subst heq
              obtain rfl := Option.some.inj (hc.symm.trans hc₀)
              exact hkey ⟨hhub.symm, Option.some.inj (huser.symm.trans huser₀)⟩
            rw [h.hidden hubId userId hlookup c] at hlive₀
            cases hlive₀
      | left =>
        constructor
        · intro hubId userId channelId hlookup
          rw [hocc, VoiceOccupancy.handle, VoiceOccupancy.lookup_clear] at hlookup
          split at hlookup
          · cases hlookup
          · rename_i hkey
            refine h.shown_on hturn hlookup fun c h hc huser hhub _ => hother (fun heq => ?_) hc
            subst heq
            obtain rfl := Option.some.inj (hc.symm.trans hc₀)
            exact hkey ⟨hhub.symm, Option.some.inj (huser.symm.trans huser₀)⟩
        · intro hubId userId hlookup c
          rw [hocc, VoiceOccupancy.handle, VoiceOccupancy.lookup_clear] at hlookup
          rw [Bool.eq_false_iff]
          intro hlive
          have hlive₀ := live_before hturn hlive fun h hc hphase _ _ => by
            refine hother (fun heq => ?_) hc
            subst heq
            obtain rfl := Option.some.inj (hc.symm.trans hc₀)
            rw [hphase₀] at hphase
            cases hphase
          split at hlookup
          · rename_i hkey
            obtain ⟨rfl, rfl⟩ := hkey
            have hnone := liveConnections_eq_nil hok hc₀ hphase₀ huser₀
            rw [← mem_liveConnections, hnone] at hlive₀
            cases hlive₀
          · rw [h.hidden hubId userId hlookup c] at hlive₀
            cases hlive₀

theorem coherent_of_reach (hnats : cfg.nats = true)
    (hw : (system S cfg).Reach LeavesLast w) : Coherent w := by
  refine hw.invariant (fun w hinit => ?_) fun w a w' h hok hstep => h.step hnats hok hstep
  obtain ⟨_, _, rfl⟩ := hinit
  exact ⟨nofun, fun _ _ _ _ => rfl⟩

end Service

/-- **The hub shows where a user is.** In every run in which a handler says that its user
has left only where the user has no live connection in the hub: when the handlers of the
user are stable and all events are processed, the hub shows the user in the channel of a
live connection, and in none exactly if there is no live connection. -/
theorem occupancy_coherent {S : Str0m} {cfg : Config} {w : Service S} (hnats : cfg.nats = true)
    (hw : (Service.system S cfg).Reach Service.LeavesLast w) {userId : ℤ}
    (hstable : w.Stable userId) (hubId : HubId) :
    (∀ channelId, (w.occupancy hubId).lookup userId = some channelId →
      ∃ c h, w.handlers c = some h ∧ h.channelId = channelId ∧
        w.isLive hubId userId c = true) ∧
    ((w.occupancy hubId).lookup userId = none ↔ ∀ c, w.isLive hubId userId c = false) := by
  have h := Service.coherent_of_reach hnats hw
  have hlive (channelId : ChannelId) (hlookup : (w.occupancy hubId).lookup userId =
      some channelId) : ∃ c h, w.handlers c = some h ∧ h.channelId = channelId ∧
        w.isLive hubId userId c = true := by
    obtain ⟨c, h, hc, huser, hhub, hchannel, hpresent⟩ := h.shown hubId userId channelId hlookup
    rcases hstable c h hc huser with hdone | ⟨hrunning, howns⟩
    · rw [hdone] at hpresent
      cases hpresent
    · exact ⟨c, h, hc, hchannel,
        Service.isLive_iff.mpr ⟨h, hc, by rw [hrunning]; rfl, howns, huser, hhub⟩⟩
  refine ⟨hlive, h.hidden hubId userId, fun hnone => ?_⟩
  rw [Option.eq_none_iff_forall_ne_some]
  intro channelId hlookup
  obtain ⟨c, -, -, -, hc⟩ := hlive channelId hlookup
  rw [hnone c] at hc
  cases hc

/-- User 42 leaves channel 5, and comes to channel 8. -/
def movesOn : List Service.Act :=
  firstConnection ++ [.hangUp 11, .advance 11, .advance 11, .advance 11, .createSession 8 6 9,
    .connect 12 9 "42" (some 42) 0, .advance 12, .advance 12, .advance 12]

theorem reach_movesOn : (Service.system scripted reconnectConfig).Reach
    Service.LeavesLast (reconnectRun movesOn) :=
  System.Reach.foldl (M := Service.system scripted reconnectConfig) Service.Step.next
    (.start ⟨_, _, rfl⟩) (by decide)

/-- A handler has nothing to do by itself. -/
def settled (w : Service scripted) (c : WsTx) : Bool :=
  (w.handlers c).all fun h =>
    decide (h.phase = .done) || decide (h.phase = .running) && w.owns c h

/-- Where there are two connections. -/
theorem stable_of_settled {as : List Service.Act}
    (has : (as.all fun a => decide (Service.connected? a = none ∨
      Service.connected? a = some 11 ∨ Service.connected? a = some 12)) = true)
    (h₁₁ : settled (reconnectRun as) 11 = true) (h₁₂ : settled (reconnectRun as) 12 = true) :
    (reconnectRun as).Stable 42 := by
  have hsettled {c : WsTx} {h : Handler} (hs : settled (reconnectRun as) c = true)
      (hc : (reconnectRun as).handlers c = some h) :
      h.phase = .done ∨ h.phase = .running ∧ (reconnectRun as).owns c h = true := by
    rw [settled, hc, Option.all_some] at hs
    simpa using hs
  intro c h hc _
  by_cases hc₁₁ : c = 11
  · subst hc₁₁
    exact hsettled h₁₁ hc
  by_cases hc₁₂ : c = 12
  · subst hc₁₂
    exact hsettled h₁₂ hc
  have hnone : (reconnectRun as).handlers c = none := by
    refine Service.handlers_foldl rfl (List.all_eq_true.mpr fun a ha => ?_)
    have hconn := of_decide_eq_true (List.all_eq_true.mp has a ha)
    refine decide_eq_true fun heq => ?_
    rw [heq] at hconn
    simp [hc₁₁, hc₁₂] at hconn
  rw [hc] at hnone
  cases hnone

theorem occupancy_coherent_movesOn :
    ((reconnectRun movesOn).occupancy 6).lookup 42 = some 8 ∧
    ∃ c h, (reconnectRun movesOn).handlers c = some h ∧ h.channelId = 8 ∧
      (reconnectRun movesOn).isLive 6 42 c = true :=
  have hshown : ((reconnectRun movesOn).occupancy 6).lookup 42 = some 8 := by decide
  ⟨hshown, (occupancy_coherent rfl reach_movesOn
    (stable_of_settled (by decide) (by decide) (by decide)) 6).1 8 hshown⟩

/-- A user comes back to the same channel, and the first connection ends late. -/
def lateCleanup : List Service.Act :=
  firstConnection ++ secondConnection ++ [.hangUp 11, .advance 11, .advance 11, .advance 11]

/-- **The hub loses a user**, whose new connection is live, when the old one ends. -/
theorem occupancy_lost : ∃ w : Service scripted,
    (Service.system scripted reconnectConfig).Reachable w ∧ w.Stable 42 ∧
      (w.occupancy 6).lookup 42 = none ∧ w.isLive 6 42 12 = true :=
  ⟨reconnectRun lateCleanup,
    System.reachable_foldl (M := Service.system scripted reconnectConfig) ⟨_, _, rfl⟩
      Service.Step.next lateCleanup,
    stable_of_settled (by decide) (by decide) (by decide), by decide, by decide⟩

end Video

end MateHub
