import MateHub.Lib.Streams
import MateHub.Video.Occupancy

/-!
# The mute states that the hub keeps

The video service publishes two kinds of events for the hub: who comes to and leaves a voice
channel, and who mutes and unmutes. The hub has a consumer for each kind, on a connection of
its own, so how far one is behind the other is open. The one that hears of mutes stores them;
the one that hears that a user has left deletes the mutes of the user.

A consumer that is late by one event leaves a mute to a user who is gone, or takes it from
one who has just come back (`MateHub.Video.ghost_mute`). In the runs in which no event
overtakes another one about the mutes of the same user, and in which a connection of a user
whom the hub keeps mutes of is the only one (`MateHub.Video.VoiceHub.Orderly`), the mutes
that the hub keeps are those of the users in voice channels
(`MateHub.Video.mutes_of_reach`).
-/

namespace MateHub

namespace Video

/-! ### What the hub keeps -/

/-- The kinds of mutes that the hub knows. -/
def muteKind : String → Option MediaKind
  | "audio" => some .audio
  | "video" => some .video
  | _ => none

/-- The hashes `hub:{hub_id}:voice_mute`, from users and kinds to mutes. -/
abbrev VoiceMute := HubId → Dict (ℤ × MediaKind) Bool

namespace VoiceMute

variable (m : VoiceMute)

/-- `voice_mute_set`. -/
def set (hubId : HubId) (userId : ℤ) (kind : MediaKind) (muted : Bool) : VoiceMute :=
  Function.update m hubId ((m hubId).insert (userId, kind) muted)

/-- `voice_mute_clear`: both kinds in one command. -/
def clear (hubId : HubId) (userId : ℤ) : VoiceMute :=
  Function.update m hubId (((m hubId).erase (userId, .audio)).erase (userId, .video))

theorem lookup_set {hubId hubId' : HubId} {userId userId' : ℤ} {kind kind' : MediaKind}
    {muted : Bool} : (m.set hubId userId kind muted hubId').lookup (userId', kind') =
      if hubId' = hubId ∧ userId' = userId ∧ kind' = kind then some muted
      else (m hubId').lookup (userId', kind') := by
  rw [set]
  rcases eq_or_ne hubId' hubId with rfl | hne
  · rw [Function.update_self, Dict.lookup_insert_eq]
    simp only [true_and, Prod.mk.injEq]
  · rw [Function.update_of_ne hne, if_neg fun h => hne h.1]

theorem lookup_clear {hubId hubId' : HubId} {userId userId' : ℤ} {kind : MediaKind} :
    (m.clear hubId userId hubId').lookup (userId', kind) =
      if hubId' = hubId ∧ userId' = userId then none else (m hubId').lookup (userId', kind) := by
  rw [clear]
  rcases eq_or_ne hubId' hubId with rfl | hne
  · rw [Function.update_self, Dict.lookup_erase_eq, Dict.lookup_erase_eq]
    cases kind <;> simp [Prod.mk.injEq]
  · rw [Function.update_of_ne hne, if_neg fun h => hne h.1]

/-- The mutes of a user are set and cleared independently of those of others. -/
theorem clear_set {hubId hubId' : HubId} {userId userId' : ℤ} {kind : MediaKind} {muted : Bool}
    (h : ¬ (hubId = hubId' ∧ userId = userId')) :
    (m.set hubId userId kind muted).clear hubId' userId' =
      (m.clear hubId' userId').set hubId userId kind muted := by
  funext hub
  rw [set, clear, set, clear]
  rcases eq_or_ne hubId hubId' with rfl | hne
  · have huser : userId ≠ userId' := fun heq => h ⟨rfl, heq⟩
    have hkey (kind' : MediaKind) : (userId, kind) ≠ (userId', kind') :=
      fun heq => huser (Prod.mk.inj heq).1
    rw [Function.update_self, Function.update_self, Function.update_idem, Function.update_idem,
      Dict.erase_insert_of_ne (hkey _), Dict.erase_insert_of_ne (hkey _)]
  · rw [Function.update_of_ne hne.symm, Function.update_of_ne hne, Function.update_comm hne.symm]

end VoiceMute

/-- What Redis has about voice. -/
structure VoiceStore where
  occupancy : VoiceOccupancy
  mutes : VoiceMute

/-! ### The consumers -/

/-- The subjects on which the video service publishes. -/
inductive VoiceSubject
  | occupancy
  | mute
  deriving DecidableEq

/-- A command of a consumer. -/
inductive VoiceCommand
  | occupancySet (hubId : HubId) (userId : ℤ) (channelId : ChannelId)
  | occupancyClear (hubId : HubId) (userId : ℤ)
  | muteSet (hubId : HubId) (userId : ℤ) (kind : MediaKind) (muted : Bool)
  | muteClear (hubId : HubId) (userId : ℤ)
  deriving DecidableEq

/-- Whose command it is. -/
def VoiceCommand.subject : VoiceCommand → VoiceSubject
  | .muteSet _ _ _ _ => .mute
  | _ => .occupancy

/-- The keys after a command. -/
def VoiceStore.apply (st : VoiceStore) : VoiceCommand → VoiceStore
  | .occupancySet hubId userId channelId =>
    { st with occupancy := st.occupancy.set hubId userId channelId }
  | .occupancyClear hubId userId => { st with occupancy := st.occupancy.clear hubId userId }
  | .muteSet hubId userId kind muted => { st with mutes := st.mutes.set hubId userId kind muted }
  | .muteClear hubId userId => { st with mutes := st.mutes.clear hubId userId }

/-- The commands with which the hub handles an event. -/
def NatsEvent.commands : NatsEvent → List VoiceCommand
  | .occupancy hubId userId (some channelId) _ => [.occupancySet hubId userId channelId]
  | .occupancy hubId userId none _ => [.occupancyClear hubId userId, .muteClear hubId userId]
  | .mute hubId userId kind muted =>
    match muteKind kind with
    | none => []
    | some kind => [.muteSet hubId userId kind muted]

/-- Two commands are about the mutes of the same user, and not of the same consumer. -/
def VoiceCommand.conflicts : VoiceCommand → VoiceCommand → Bool
  | .muteSet hubId userId _ _, .muteClear hubId' userId' =>
    decide (hubId = hubId' ∧ userId = userId')
  | .muteClear hubId userId, .muteSet hubId' userId' _ _ =>
    decide (hubId' = hubId ∧ userId' = userId)
  | _, _ => false

/-- **The commands of the two consumers commute**, unless they are about the mutes of the same
user. -/
theorem commutes_of_not_conflicts {e e' : VoiceCommand} (hsubject : e.subject ≠ e'.subject)
    (h : e.conflicts e' = false) : Streams.Commutes VoiceStore.apply e e' := by
  intro st
  cases e with
  | muteSet hubId userId kind muted =>
    cases e' with
    | muteSet => exact absurd rfl hsubject
    | muteClear hubId' userId' =>
      exact congrArg (VoiceStore.mk st.occupancy)
        (st.mutes.clear_set (of_decide_eq_false h))
    | _ => rfl
  | muteClear hubId userId =>
    cases e' with
    | muteSet hubId' userId' kind muted =>
      exact congrArg (VoiceStore.mk st.occupancy)
        (st.mutes.clear_set (of_decide_eq_false h)).symm
    | _ => exact absurd rfl hsubject
  | _ =>
    cases e' with
    | muteSet => rfl
    | _ => exact absurd rfl hsubject

/-! ### The video service and the consumers -/

/-- The video service, and the consumers of the hub with what they have not handled yet. -/
structure VoiceHub (S : Str0m) where
  service : Service S
  bus : Streams VoiceCommand VoiceStore
  /-- The mutes that a connection has published last. -/
  lastMute : WsTx → MediaKind → Option Bool

/-- Who takes a step. -/
inductive VoiceAct
  | video (a : Service.Act)
  | consume (subject : VoiceSubject)

namespace VoiceHub

variable {S : Str0m} {cfg : Config}

/-- A hub service that has just been started, beside a video service. -/
def new (service : Service S) : VoiceHub S :=
  ⟨service, ⟨[], ⟨fun _ => ∅, fun _ => ∅⟩⟩, fun _ _ => none⟩

/-- Notes what a handler has published about its mutes. -/
def note (c : WsTx) (last : WsTx → MediaKind → Option Bool) :
    NatsEvent → WsTx → MediaKind → Option Bool
  | .mute _ _ kind muted =>
    match muteKind kind with
    | none => last
    | some kind => Function.update last c (Function.update (last c) kind (some muted))
  | .occupancy _ _ _ _ => last

/-- What is published in a step of a handler is its own. -/
def noteAll (events : List NatsEvent) (last : WsTx → MediaKind → Option Bool) :
    Service.Act → WsTx → MediaKind → Option Bool
  | .advance c => events.foldl (note c) last
  | _ => last

/-- The state after a step of the video service, which may have published something. -/
def hear (w : VoiceHub S) (a : Service.Act) (service : Service S) : VoiceHub S :=
  let events := service.published.drop w.service.published.length
  { service := service
    bus := w.bus.publish (events.flatMap NatsEvent.commands)
    lastMute := noteAll events w.lastMute a }

/-- A step of the video service, or of a consumer. -/
inductive Step (cfg : Config) : VoiceHub S → VoiceAct → VoiceHub S → Prop
  | video {w : VoiceHub S} {a : Service.Act} {service : Service S} :
      Service.Step cfg w.service a service → Step cfg w (.video a) (w.hear a service)
  | consume {w : VoiceHub S} {subject : VoiceSubject} : Step cfg w (.consume subject)
      { w with bus := w.bus.consume VoiceStore.apply VoiceCommand.subject subject }

/-- The hub starts with no user in voice, and the service with no session. -/
def system (S : Str0m) (cfg : Config) : System (VoiceHub S) VoiceAct where
  init := fun w => ∃ candidateAddrs zombieTimeout, w = .new (.new candidateAddrs zombieTimeout)
  step := Step cfg

end VoiceHub

/-! ### The condition -/

/-- The handler has not said that its user is there. -/
def Phase.early : Phase → Bool
  | .connecting => true
  | .located => true
  | .registered => true
  | _ => false

theorem Phase.present_of_early {p : Phase} (h : p.early = true) : p.present = false := by
  cases p <;> first | rfl | cases h

/-- A connection of a user is in a voice channel of a hub: its handler has said so, and not
taken it back. -/
def Service.InVoice {S : Str0m} (w : Service S) (hubId : HubId) (userId : ℤ) (c : WsTx) : Prop :=
  ∃ h, w.handlers c = some h ∧ h.userSnowflake = some userId ∧ h.hubId = hubId ∧
    h.phase.present = true

theorem Phase.Next.early_back {p p' : Phase} (h : p.Next p') (hearly : p'.early = true) :
    p.early = true := by
  cases h <;> first | rfl | cases hearly

theorem Phase.Next.present_back {p p' : Phase} (h : p.Next p') (hpresent : p'.present = true) :
    p.present = true ∨ p = .registered := by
  cases h <;> first | exact .inl rfl | exact .inr rfl | cases hpresent

namespace VoiceHub

variable {S : Str0m} {cfg : Config}

/-- **The condition on a step**: a consumer handles an event only after the earlier ones
about the mutes of the same user; a user joins with a connection only where no other
connection of the user in the hub has published a mute, and publishes a mute only where
there is no other one. -/
def Orderly (w : VoiceHub S) : VoiceAct → Prop
  | .consume subject =>
    ∀ e ∈ (w.bus.rest VoiceCommand.subject subject).head?,
      ∀ e' ∈ w.bus.ahead VoiceCommand.subject subject, e'.conflicts e = false
  | .video (.advance c) =>
    ∀ h userId, w.service.handlers c = some h → h.userSnowflake = some userId →
      (h.phase = .registered → ∀ c', w.service.InVoice h.hubId userId c' →
        ∀ kind, w.lastMute c' kind = none) ∧
      ∀ kind muted, h.phase = .muted kind muted → (muteKind kind).isSome = true →
        ∀ c', w.service.InVoice h.hubId userId c' → c' = c
  | _ => True

/-! ### The mutes in the order of publication -/

/-- The mutes that the hub keeps when it has handled all events in their order. -/
def settledMutes (w : VoiceHub S) : VoiceMute := (w.bus.settled VoiceStore.apply).mutes

/-- A connection has not been in a voice channel yet. -/
def Early (w : Service S) (c : WsTx) : Prop := ∀ h ∈ w.handlers c, h.phase.early = true

/-- **The mutes are those of the users in voice channels**, in the order of publication. -/
structure Faithful (cfg : Config) (w : VoiceHub S) : Prop where
  shown : ∀ hubId userId c, w.service.InVoice hubId userId c →
    ∀ kind, (w.settledMutes hubId).lookup (userId, kind) = w.lastMute c kind
  hidden : ∀ hubId userId, (∀ c, ¬ w.service.InVoice hubId userId c) →
    ∀ kind, (w.settledMutes hubId).lookup (userId, kind) = none
  /-- A connection that has published a mute is the only one of its user. -/
  alone : ∀ hubId userId c c', w.service.InVoice hubId userId c →
    w.service.InVoice hubId userId c' → c ≠ c' → ∀ kind, w.lastMute c kind = none
  fresh : ∀ c, Early w.service c → ∀ kind, w.lastMute c kind = none
  quiet : cfg.nats = false → ∀ c kind, w.lastMute c kind = none

variable {w : VoiceHub S} {service : Service S} {a : Service.Act} {hubId : HubId} {userId : ℤ}
  {c c' : WsTx} {h : Handler}

/-- Where nothing that it is about has changed. -/
theorem Faithful.of_same {w' : VoiceHub S} (hw : Faithful cfg w)
    (hmutes : w'.settledMutes = w.settledMutes) (hlast : w'.lastMute = w.lastMute)
    (hvoice : ∀ hubId userId c,
      w'.service.InVoice hubId userId c ↔ w.service.InVoice hubId userId c)
    (hearly : ∀ c, Early w'.service c → Early w.service c) : Faithful cfg w' := by
  constructor
  · intro hubId userId c hc kind
    rw [hmutes, hlast]
    exact hw.shown hubId userId c ((hvoice hubId userId c).mp hc) kind
  · intro hubId userId hnobody kind
    rw [hmutes]
    exact hw.hidden hubId userId (fun c hc => hnobody c ((hvoice hubId userId c).mpr hc)) kind
  · intro hubId userId c c' hc hc' hne kind
    rw [hlast]
    exact hw.alone hubId userId c c' ((hvoice hubId userId c).mp hc)
      ((hvoice hubId userId c').mp hc') hne kind
  · intro c hc kind
    rw [hlast]
    exact hw.fresh c (hearly c hc) kind
  · rw [hlast]
    exact hw.quiet

/-- A step of a consumer leaves the mutes in the order of publication as they are. -/
theorem Faithful.consume {subject : VoiceSubject} (hw : Faithful cfg w)
    (hok : w.Orderly (.consume subject)) : Faithful cfg
      { w with bus := w.bus.consume VoiceStore.apply VoiceCommand.subject subject } := by
  have hsettled : (w.bus.consume VoiceStore.apply VoiceCommand.subject subject).settled
      VoiceStore.apply = w.bus.settled VoiceStore.apply := by
    refine Streams.settled_consume fun e he e' he' => ?_
    refine commutes_of_not_conflicts ?_ (hok e he e' he')
    obtain ⟨es, hrest⟩ := List.head?_eq_some_iff.mp he
    rw [Streams.stream_of_rest hrest]
    exact Streams.stream_of_mem_ahead he'
  exact hw.of_same (congrArg VoiceStore.mutes hsettled) rfl (fun _ _ _ => Iff.rfl) fun _ => id

/-! ### Steps without a word -/

theorem settledMutes_hear : (w.hear a service).settledMutes =
    (((service.published.drop w.service.published.length).flatMap NatsEvent.commands).foldl
      VoiceStore.apply (w.bus.settled VoiceStore.apply)).mutes := by
  rw [settledMutes, hear, Streams.settled_publish]

/-- If nothing is published, nothing is noted. -/
theorem hear_of_published_eq (hpub : service.published = w.service.published) :
    (w.hear a service).settledMutes = w.settledMutes ∧
      (w.hear a service).lastMute = w.lastMute := by
  have hnone : service.published.drop w.service.published.length = [] := by
    rw [hpub, List.drop_length]
  rw [settledMutes_hear, hear, hnone]
  refine ⟨rfl, ?_⟩
  cases a <;> rfl

/-- Whoever goes on without a word about it is in a voice channel as before. -/
theorem inVoice_iff_of_turn (hturn : Service.Turn cfg w.service a service)
    (hstays : ∀ c h, w.service.handlers c = some h → h.phase.Telling →
      service.handlers c = some h) :
    service.InVoice hubId userId c ↔ w.service.InVoice hubId userId c := by
  constructor
  · rintro ⟨h', hc', huser, hhub, hpresent⟩
    rcases Service.handler_back hturn hc' with hc | ⟨-, -, hphase⟩ | ⟨h, hc, hmoves⟩
    · exact ⟨h', hc, huser, hhub, hpresent⟩
    · rw [hphase] at hpresent
      cases hpresent
    · have hpresent₀ : h.phase.present = true := by
        rcases hmoves.phase.present_back hpresent with hpresent₀ | hphase
        · exact hpresent₀
        · obtain rfl := Option.some.inj (hc'.symm.trans (hstays c h hc (.inl hphase)))
          exact hpresent
      refine ⟨h, hc, hmoves.userSnowflake.symm.trans huser, ?_, hpresent₀⟩
      rcases hmoves.room with hphase | ⟨-, hroom⟩
      · rw [hphase] at hpresent₀
        cases hpresent₀
      · exact hroom.symm.trans hhub
  · rintro ⟨h, hc, huser, hhub, hpresent⟩
    rcases Service.handler_on hturn hc with hc' | ⟨h', hc', hmoves⟩
    · exact ⟨h, hc', huser, hhub, hpresent⟩
    · rcases hmoves.phase.present hpresent with hpresent' | hphase
      · refine ⟨h', hc', hmoves.userSnowflake.trans huser, ?_, hpresent'⟩
        rcases hmoves.room with hphase | ⟨-, hroom⟩
        · rw [hphase] at hpresent
          cases hpresent
        · exact hroom.trans hhub
      · exact ⟨h, hstays c h hc (.inr hphase), huser, hhub, hpresent⟩

/-- Whoever has not been in a voice channel after a step has not been before. -/
theorem Early.back (hturn : Service.Turn cfg w.service a service) (h : Early service c) :
    Early w.service c := by
  intro h₀ hc
  rcases Service.handler_on hturn hc with hc' | ⟨h', hc', hmoves⟩
  · exact h h₀ hc'
  · exact hmoves.phase.early_back (h h' hc')

theorem Faithful.keep (hw : Faithful cfg w) (hturn : Service.Turn cfg w.service a service)
    (hpub : service.published = w.service.published)
    (hstays : ∀ c h, w.service.handlers c = some h → h.phase.Telling →
      service.handlers c = some h) : Faithful cfg (w.hear a service) :=
  have ⟨hmutes, hlast⟩ := hear_of_published_eq (a := a) hpub
  hw.of_same hmutes hlast (fun _ _ _ => inVoice_iff_of_turn hturn hstays) fun _ => Early.back hturn

/-! ### What is published -/

/-- What a handler publishes. -/
def said (cfg : Config) (userSnowflake : Option ℤ) (event : ℤ → NatsEvent) : List NatsEvent :=
  match userSnowflake with
  | some uid => if cfg.nats then [event uid] else []
  | none => []

theorem said_cases (cfg : Config) (userSnowflake : Option ℤ) (event : ℤ → NatsEvent) :
    (said cfg userSnowflake event = [] ∧ ∀ uid, userSnowflake = some uid → cfg.nats = false) ∨
      ∃ uid, userSnowflake = some uid ∧ cfg.nats = true ∧
        said cfg userSnowflake event = [event uid] := by
  cases userSnowflake with
  | none => exact .inl ⟨rfl, nofun⟩
  | some uid =>
    cases hnats : cfg.nats with
    | false => exact .inl ⟨by rw [said, hnats]; rfl, fun _ _ => rfl⟩
    | true => exact .inr ⟨uid, rfl, rfl, by rw [said, hnats]; rfl⟩

theorem published_publish {userSnowflake : Option ℤ} {event : ℤ → NatsEvent} :
    (w.service.publish cfg userSnowflake event).published =
      w.service.published ++ said cfg userSnowflake event := by
  cases userSnowflake with
  | none => exact (List.append_nil _).symm
  | some uid =>
    dsimp only [Service.publish, said]
    split
    · rfl
    · exact (List.append_nil _).symm

theorem hear_of_said {events : List NatsEvent}
    (hpub : service.published = w.service.published ++ events) :
    (w.hear (.advance c) service).settledMutes =
        ((events.flatMap NatsEvent.commands).foldl VoiceStore.apply
          (w.bus.settled VoiceStore.apply)).mutes ∧
      (w.hear (.advance c) service).lastMute = events.foldl (note c) w.lastMute := by
  rw [settledMutes_hear, hear, hpub, List.drop_left]
  exact ⟨rfl, rfl⟩

theorem inVoice_of_update {phase : Phase}
    (hupdate : service.handlers =
      Function.update w.service.handlers c (some { h with phase := phase })) :
    service.InVoice hubId userId c' ↔ (c' ≠ c ∧ w.service.InVoice hubId userId c') ∨
      (c' = c ∧ h.userSnowflake = some userId ∧ h.hubId = hubId ∧ phase.present = true) := by
  rw [Service.InVoice, Service.InVoice, hupdate]
  rcases eq_or_ne c' c with rfl | hne
  · rw [Function.update_self]
    constructor
    · rintro ⟨h', hh, hrest⟩
      obtain rfl := Option.some.inj hh
      exact .inr ⟨rfl, hrest⟩
    · rintro (⟨hne, -⟩ | ⟨-, hrest⟩)
      · exact absurd rfl hne
      · exact ⟨_, rfl, hrest⟩
  · rw [Function.update_of_ne hne]
    exact ⟨fun hc => .inl ⟨hne, hc⟩, fun hc => (hc.resolve_right fun heq => hne heq.1).2⟩

/-- A user comes to a voice channel. -/
theorem Faithful.came (hw : Faithful cfg w) (hturn : Service.Turn cfg w.service a service)
    (hc : w.service.handlers c = some h) (hphase : h.phase = .registered)
    (hok : w.Orderly (.video (.advance c)))
    (hmutes : (w.hear a service).settledMutes = w.settledMutes)
    (hlast : (w.hear a service).lastMute = w.lastMute)
    (hupdate : service.handlers =
      Function.update w.service.handlers c (some { h with phase := .running })) :
    Faithful cfg (w.hear a service) := by
  have hfresh : ∀ kind, w.lastMute c kind = none := by
    refine hw.fresh c fun h' hc' => ?_
    obtain rfl := Option.some.inj (hc.symm.trans hc')
    rw [hphase]
    rfl
  have hothers {userId : ℤ} (huser : h.userSnowflake = some userId) :=
    (hok h userId hc huser).1 hphase
  have hvoice {hubId : HubId} {userId : ℤ} {c' : WsTx} : service.InVoice hubId userId c' ↔
      (c' ≠ c ∧ w.service.InVoice hubId userId c') ∨
        (c' = c ∧ h.userSnowflake = some userId ∧ h.hubId = hubId ∧ Phase.running.present = true) :=
    inVoice_of_update hupdate
  constructor
  · intro hubId userId c' hc' kind
    rw [hmutes, hlast]
    rcases hvoice.mp hc' with ⟨-, hwas⟩ | ⟨rfl, huser, rfl, -⟩
    · exact hw.shown hubId userId c' hwas kind
    -- the user has other connections, without mutes, or none
    · rw [hfresh]
      by_cases hnobody : ∃ c', w.service.InVoice h.hubId userId c'
      · obtain ⟨c', hwas⟩ := hnobody
        rw [hw.shown _ _ c' hwas, hothers huser c' hwas]
      · exact hw.hidden _ _ (not_exists.mp hnobody) kind
  · intro hubId userId hnobody kind
    rw [hmutes]
    refine hw.hidden hubId userId (fun c' hwas => hnobody c' (hvoice.mpr (.inl ⟨?_, hwas⟩))) kind
    rintro rfl
    obtain ⟨h', hc', -, -, hpresent⟩ := hwas
    obtain rfl := Option.some.inj (hc.symm.trans hc')
    rw [hphase] at hpresent
    cases hpresent
  · intro hubId userId c₁ c₂ hc₁ hc₂ hne kind
    rw [hlast]
    rcases hvoice.mp hc₁ with ⟨-, hwas₁⟩ | ⟨rfl, -⟩
    · rcases hvoice.mp hc₂ with ⟨-, hwas₂⟩ | ⟨rfl, huser, rfl, -⟩
      · exact hw.alone hubId userId c₁ c₂ hwas₁ hwas₂ hne kind
      · exact hothers huser c₁ hwas₁ kind
    · exact hfresh kind
  · intro c' hc' kind
    rw [hlast]
    exact hw.fresh c' (hc'.back hturn) kind
  · rw [hlast]
    exact hw.quiet

/-- A user publishes a mute. -/
theorem Faithful.mutes {kind : MediaKind} {muted : Bool} (hw : Faithful cfg w)
    (hturn : Service.Turn cfg w.service a service) (hnats : cfg.nats = true)
    (hc : w.service.handlers c = some h) (hpresent : h.phase.present = true)
    (huser : h.userSnowflake = some userId)
    (halone : ∀ c', w.service.InVoice h.hubId userId c' → c' = c)
    (hmutes : (w.hear a service).settledMutes = w.settledMutes.set h.hubId userId kind muted)
    (hlast : (w.hear a service).lastMute =
      Function.update w.lastMute c (Function.update (w.lastMute c) kind (some muted)))
    (hvoice : ∀ hubId userId c', service.InVoice hubId userId c' ↔
      w.service.InVoice hubId userId c') :
    Faithful cfg (w.hear a service) := by
  have hhere : w.service.InVoice h.hubId userId c := ⟨h, hc, huser, rfl, hpresent⟩
  constructor
  · intro hubId userId' c' hc' kind'
    have hwas := (hvoice hubId userId' c').mp hc'
    rw [hmutes, hlast, VoiceMute.lookup_set]
    rcases eq_or_ne c' c with rfl | hne
    · obtain ⟨h', hh, huser', rfl, -⟩ := id hwas
      obtain rfl := Option.some.inj (hc.symm.trans hh)
      obtain rfl := Option.some.inj (huser.symm.trans huser')
      rw [Function.update_self, Function.update_apply]
      simp only [true_and]
      split_ifs
      · rfl
      · exact hw.shown h.hubId userId c' hwas kind'
    · rw [Function.update_of_ne hne, if_neg]
      · exact hw.shown hubId userId' c' hwas kind'
      · rintro ⟨rfl, rfl, -⟩
        exact hne (halone c' hwas)
  · intro hubId userId' hnobody kind'
    rw [hmutes, VoiceMute.lookup_set, if_neg]
    · exact hw.hidden hubId userId'
        (fun c' hwas => hnobody c' ((hvoice hubId userId' c').mpr hwas)) kind'
    · rintro ⟨rfl, rfl, -⟩
      exact hnobody c ((hvoice _ _ c).mpr hhere)
  · intro hubId userId' c₁ c₂ hc₁ hc₂ hne kind'
    have hwas₁ := (hvoice hubId userId' c₁).mp hc₁
    have hwas₂ := (hvoice hubId userId' c₂).mp hc₂
    rw [hlast, Function.update_of_ne]
    · exact hw.alone hubId userId' c₁ c₂ hwas₁ hwas₂ hne kind'
    -- the one that publishes has no other beside it
    · rintro rfl
      obtain ⟨h', hh, huser', rfl, -⟩ := hwas₁
      obtain rfl := Option.some.inj (hc.symm.trans hh)
      obtain rfl := Option.some.inj (huser.symm.trans huser')
      exact hne (halone c₂ hwas₂).symm
  · intro c' hc' kind'
    have hearly := hc'.back hturn
    rw [hlast, Function.update_of_ne]
    · exact hw.fresh c' hearly kind'
    · rintro rfl
      rw [Phase.present_of_early (hearly h hc)] at hpresent
      cases hpresent
  · intro hoff
    rw [hnats] at hoff
    cases hoff

/-- A user leaves. -/
theorem Faithful.left (hw : Faithful cfg w) (hturn : Service.Turn cfg w.service a service)
    (hc : w.service.handlers c = some h) (hphase : h.phase = .farewell)
    (hlookup : ∀ hubId userId kind,
      ((w.hear a service).settledMutes hubId).lookup (userId, kind) =
        if (hubId = h.hubId ∧ h.userSnowflake = some userId) ∧ cfg.nats = true then none
        else (w.settledMutes hubId).lookup (userId, kind))
    (hlast : (w.hear a service).lastMute = w.lastMute)
    (hupdate : service.handlers =
      Function.update w.service.handlers c (some { h with phase := .done })) :
    Faithful cfg (w.hear a service) := by
  have hhere {userId : ℤ} (huser : h.userSnowflake = some userId) :
      w.service.InVoice h.hubId userId c := ⟨h, hc, huser, rfl, by rw [hphase]; rfl⟩
  have hback {hubId : HubId} {userId : ℤ} {c' : WsTx} (hc' : service.InVoice hubId userId c') :
      c' ≠ c ∧ w.service.InVoice hubId userId c' := by
    rcases (inVoice_of_update hupdate).mp hc' with hwas | ⟨-, -, -, hpresent⟩
    · exact hwas
    · cases hpresent
  constructor
  · intro hubId userId c' hc' kind
    obtain ⟨hne, hwas⟩ := hback hc'
    rw [hlookup, hlast]
    split_ifs with hkey
    · obtain ⟨⟨rfl, huser⟩, -⟩ := hkey
      exact (hw.alone _ _ c' c hwas (hhere huser) hne kind).symm
    · exact hw.shown hubId userId c' hwas kind
  · intro hubId userId hnobody kind
    rw [hlookup]
    split_ifs with hkey
    · rfl
    by_cases hown : hubId = h.hubId ∧ h.userSnowflake = some userId
    · obtain ⟨rfl, huser⟩ := hown
      rw [hw.shown _ _ c (hhere huser)]
      exact hw.quiet (Bool.eq_false_iff.mpr fun hnats => hkey ⟨⟨rfl, huser⟩, hnats⟩) c kind
    · refine hw.hidden hubId userId (fun c' hwas => hnobody c'
        ((inVoice_of_update hupdate).mpr (.inl ⟨?_, hwas⟩))) kind
      rintro rfl
      obtain ⟨h', hh, huser, hhub, -⟩ := hwas
      obtain rfl := Option.some.inj (hc.symm.trans hh)
      exact hown ⟨hhub.symm, huser⟩
  · intro hubId userId c₁ c₂ hc₁ hc₂ hne kind
    rw [hlast]
    exact hw.alone hubId userId c₁ c₂ (hback hc₁).2 (hback hc₂).2 hne kind
  · intro c' hc' kind
    rw [hlast]
    exact hw.fresh c' (hc'.back hturn) kind
  · rw [hlast]
    exact hw.quiet

/-- **A step of the video service keeps the mutes right.** -/
theorem Faithful.video (hw : Faithful cfg w) (hok : w.Orderly (.video a))
    (hstep : Service.Step cfg w.service a service) : Faithful cfg (w.hear a service) := by
  have hturn := Service.turn_of_step hstep
  rcases Service.told_of_turn hturn with ⟨hpub, hstays⟩ |
    ⟨c, h, event, phase, rfl, hc, htells, hupdate, hpub⟩
  · exact hw.keep hturn hpub hstays
  · rw [published_publish] at hpub
    obtain ⟨hmutes, hlast⟩ := hear_of_said (c := c) hpub
    have hsaid := said_cases cfg h.userSnowflake event
    generalize said cfg h.userSnowflake event = events at hmutes hlast hsaid
    generalize hphase : h.phase = phase₀ at htells
    cases htells with
    | came =>
      refine hw.came hturn hc hphase hok ?_ ?_ hupdate
      · rcases hsaid with ⟨rfl, -⟩ | ⟨uid, -, -, rfl⟩ <;> exact hmutes
      · rcases hsaid with ⟨rfl, -⟩ | ⟨uid, -, -, rfl⟩ <;> exact hlast
    | mutes kind muted =>
      have hpresent : h.phase.present = true := by rw [hphase]; rfl
      have hvoice (hubId : HubId) (userId : ℤ) (c' : WsTx) :
          service.InVoice hubId userId c' ↔ w.service.InVoice hubId userId c' := by
        refine (inVoice_of_update hupdate).trans ?_
        rcases eq_or_ne c' c with rfl | hne
        · constructor
          · rintro (⟨hne, -⟩ | ⟨-, huser, hhub, -⟩)
            · exact absurd rfl hne
            · exact ⟨h, hc, huser, hhub, hpresent⟩
          · rintro ⟨h', hh, huser, hhub, -⟩
            obtain rfl := Option.some.inj (hc.symm.trans hh)
            exact .inr ⟨rfl, huser, hhub, rfl⟩
        · exact ⟨fun hor => (hor.resolve_right fun heq => hne heq.1).2,
            fun hwas => .inl ⟨hne, hwas⟩⟩
      have hearly (c' : WsTx) : Early service c' → Early w.service c' := Early.back hturn
      rcases hsaid with ⟨rfl, -⟩ | ⟨uid, huser, hnats, rfl⟩
      · exact hw.of_same hmutes hlast hvoice hearly
      · rw [List.flatMap_singleton, NatsEvent.commands] at hmutes
        rw [List.foldl_cons, List.foldl_nil, note] at hlast
        cases hkind : muteKind kind with
        | none =>
          rw [hkind] at hmutes hlast
          exact hw.of_same hmutes hlast hvoice hearly
        | some k =>
          rw [hkind] at hmutes hlast
          have halone := (hok h uid hc huser).2 kind muted hphase (by rw [hkind]; rfl)
          exact hw.mutes hturn hnats hc hpresent huser halone hmutes hlast hvoice
    | left =>
      refine hw.left hturn hc hphase (fun hubId userId kind => ?_) ?_ hupdate
      · rcases hsaid with ⟨rfl, hoff⟩ | ⟨uid, huser, hnats, rfl⟩
        · rw [hmutes, if_neg]
          · rfl
          · rintro ⟨⟨-, huser⟩, hnats⟩
            rw [hoff userId huser] at hnats
            cases hnats
        · have hclear : (w.hear (.advance c) service).settledMutes =
              w.settledMutes.clear h.hubId uid := hmutes
          rw [hclear, VoiceMute.lookup_clear, huser, hnats]
          simp only [Option.some.injEq, eq_comm (a := uid), and_true]
      · rcases hsaid with ⟨rfl, -⟩ | ⟨uid, -, -, rfl⟩ <;> exact hlast

theorem faithful_of_reach (hw : (system S cfg).Reach Orderly w) : Faithful cfg w := by
  refine hw.invariant (fun w hinit => ?_) fun w a w' hfaithful hok hstep => ?_
  · obtain ⟨_, _, rfl⟩ := hinit
    exact ⟨nofun, fun _ _ _ _ => rfl, nofun, fun _ _ _ => rfl, fun _ _ _ => rfl⟩
  · cases hstep with
    | video hvideo => exact hfaithful.video hok hvideo
    | consume => exact hfaithful.consume hok

end VoiceHub

/-- **No ghost mutes.** In every run that meets the condition: when both consumers have
handled all events, a user who is in no voice channel of a hub has no mutes there, and a user
who is in one has those that the connection has published last. -/
theorem mutes_of_reach {S : Str0m} {cfg : Config} {w : VoiceHub S}
    (hw : (VoiceHub.system S cfg).Reach VoiceHub.Orderly w) (hdrained : w.bus.pending = [])
    (hubId : HubId) (userId : ℤ) (kind : MediaKind) :
    ((∀ c, ¬ w.service.InVoice hubId userId c) →
      (w.bus.store.mutes hubId).lookup (userId, kind) = none) ∧
    ∀ c, w.service.InVoice hubId userId c →
      (w.bus.store.mutes hubId).lookup (userId, kind) = w.lastMute c kind := by
  have hfaithful := VoiceHub.faithful_of_reach hw
  have hmutes : w.bus.store.mutes = w.settledMutes :=
    congrArg VoiceStore.mutes (Streams.settled_of_drained hdrained).symm
  rw [hmutes]
  exact ⟨fun hnobody => hfaithful.hidden hubId userId hnobody kind,
    fun c hc => hfaithful.shown hubId userId c hc kind⟩

/-! ### A user comes and goes -/

namespace VoiceHub

variable {S : Str0m} {cfg : Config} {w : VoiceHub S} {c : WsTx}

/-- The state after a step. -/
def next (cfg : Config) (w : VoiceHub S) : VoiceAct → VoiceHub S
  | .video a => w.hear a (w.service.next cfg a)
  | .consume subject =>
    { w with bus := w.bus.consume VoiceStore.apply VoiceCommand.subject subject }

theorem step_next (w : VoiceHub S) : ∀ a : VoiceAct, Step cfg w a (w.next cfg a)
  | .video a => .video (.next w.service a)
  | .consume _ => .consume

instance (w : VoiceHub S) (subject : VoiceSubject) : Decidable (w.Orderly (.consume subject)) :=
  inferInstanceAs (Decidable (∀ e ∈ (w.bus.rest VoiceCommand.subject subject).head?,
    ∀ e' ∈ w.bus.ahead VoiceCommand.subject subject, e'.conflicts e = false))

/-- The steps of the video service meet the condition while there is one connection. -/
theorem accepted_of_single {as : List Service.Act}
    (h : ∀ c', c' ≠ c → w.service.handlers c' = none)
    (has : ∀ a ∈ as, Service.connected? a = none ∨ Service.connected? a = some c) :
    System.Accepted Orderly (next cfg) w (as.map .video) := by
  induction as generalizing w with
  | nil => trivial
  | cons a as ih =>
    obtain ⟨ha, has⟩ := List.forall_mem_cons.mp has
    refine ⟨?_, ih (fun c' hne => ?_) has⟩
    · cases a with
      | advance c₀ =>
        intro h₀ userId hc₀ huser
        have honly {c' : WsTx} {hubId : HubId} (hvoice : w.service.InVoice hubId userId c') :
            c' = c := by
          by_contra hne
          obtain ⟨h', hc', -⟩ := hvoice
          rw [h c' hne] at hc'
          cases hc'
        have hc : c₀ = c := by
          by_contra hne
          rw [h c₀ hne] at hc₀
          cases hc₀
        subst hc
        refine ⟨fun hphase c' hvoice => ?_, fun _ _ _ _ c' hvoice => honly hvoice⟩
        obtain rfl := honly hvoice
        obtain ⟨h', hc', -, -, hpresent⟩ := hvoice
        obtain rfl := Option.some.inj (hc₀.symm.trans hc')
        rw [hphase] at hpresent
        cases hpresent
      | _ => trivial
    · refine Service.handlers_foldl (h c' hne)
        (?_ : ([a].all fun a => decide (Service.connected? a ≠ some c')) = true)
      rw [List.all_cons, List.all_nil, Bool.and_true, decide_eq_true_eq]
      intro hconn
      rw [hconn] at ha
      rcases ha with ha | ha
      · cases ha
      · exact hne (Option.some.inj ha)

end VoiceHub

/-- The state after some steps. -/
def voiceRun (as : List VoiceAct) : VoiceHub scripted :=
  as.foldl (VoiceHub.next reconnectConfig) (.new (.new [(1, 2)] 12000))

/-- User 42 comes to channel 5 of hub 6, and unmutes. -/
def unmutes : List Service.Act :=
  firstConnection ++ [.receive 11 (.muteChanged "audio" false), .advance 11]

theorem reach_unmutes : (VoiceHub.system scripted reconnectConfig).Reach VoiceHub.Orderly
    (voiceRun (unmutes.map .video ++ [.consume .mute, .consume .occupancy])) := by
  rw [voiceRun, List.foldl_append]
  refine System.Reach.foldl VoiceHub.step_next (System.Reach.foldl VoiceHub.step_next
    (.start ⟨_, _, rfl⟩) (VoiceHub.accepted_of_single (c := 11) (fun _ _ => rfl) (by decide))) ?_
  exact ⟨by decide, by decide, trivial⟩

/-- Both consumers are done, and the hub has the user unmuted. -/
theorem mutes_of_reach_unmutes :
    ((voiceRun (unmutes.map .video ++ [.consume .mute, .consume .occupancy])).bus.store.mutes
      6).lookup (42, .audio) = some false :=
  (mutes_of_reach reach_unmutes (by decide) 6 42 .audio).2 11
    ⟨_, rfl, by decide, by decide, by decide⟩

/-- The user leaves again. -/
def leavesAgain : List Service.Act :=
  unmutes ++ [.hangUp 11, .advance 11, .advance 11, .advance 11]

/-- **A ghost mute**: the consumer of the mutes is late. -/
theorem ghost_mute : ∃ w : VoiceHub scripted,
    (VoiceHub.system scripted reconnectConfig).Reachable w ∧ w.bus.pending = [] ∧
      (∀ c, ¬ w.service.InVoice 6 42 c) ∧
      (w.bus.store.mutes 6).lookup (42, .audio) = some false := by
  refine ⟨voiceRun (leavesAgain.map .video ++ [.consume .occupancy, .consume .occupancy,
      .consume .occupancy, .consume .mute]),
    System.reachable_foldl (M := VoiceHub.system scripted reconnectConfig) ⟨_, _, rfl⟩
      VoiceHub.step_next _, by decide, ?_, by decide⟩
  rintro c ⟨h, hc, -, -, hpresent⟩
  by_cases hc₁₁ : c = 11
  · subst hc₁₁
    have hgone : ((reconnectRun leavesAgain).handlers 11).all fun h => !h.phase.present := by decide
    rw [show (reconnectRun leavesAgain).handlers 11 = some h from hc, Option.all_some,
      hpresent] at hgone
    cases hgone
  · have hnone : (reconnectRun leavesAgain).handlers c = none := by
      refine Service.handlers_foldl rfl (List.all_eq_true.mpr fun a ha => decide_eq_true ?_)
      intro hconn
      have honly : ∀ a ∈ leavesAgain, Service.connected? a = none ∨
          Service.connected? a = some 11 := by decide
      rcases honly a ha with h₀ | h₁₁
      · rw [h₀] at hconn
        cases hconn
      · exact hc₁₁ (Option.some.inj (hconn.symm.trans h₁₁))
    cases hnone.symm.trans hc

end Video

end MateHub
