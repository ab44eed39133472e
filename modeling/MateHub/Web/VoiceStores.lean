import MateHub.Lib.Replica
import MateHub.Video.VoiceBus

/-!
# The voice stores of the web client

The web client keeps two maps, who is in which voice channel and who is muted. It fills them from
the answer of `members-full`, which reads the hashes of the hub, and changes them with the events
of its presence connection, on which the hub broadcasts what it has stored. Nothing says whether an
answer is older than an event, and what is broadcast before the hub has subscribed the connection
goes to nobody.

The maps and the hashes are read as assignments to the keys of `MateHub.Web.VoiceKey`, so that what
is on its way to the client is a list of assignments (`Replica.Truthful`, `Replica.Settles`).
-/

namespace MateHub

namespace Web

open Video

/-! ### The hashes of the hub -/

/-- What is stored about a user. -/
inductive VoiceKey
  | occupancy (userId : ℤ)
  | mute (userId : ℤ) (kind : MediaKind)
  deriving DecidableEq

/-- What is known of somebody: the channel, or a mute. -/
inductive VoiceValue
  | channel (channelId : Option ChannelId)
  | muted (muted : Bool)
  deriving DecidableEq

/-- What two hashes say, those of the occupancy and of the mutes: who has no mute is muted. -/
def hashValue (occupancy : Dict ℤ ChannelId) (mutes : Dict (ℤ × MediaKind) Bool) :
    VoiceKey → VoiceValue
  | .occupancy userId => .channel (occupancy.lookup userId)
  | .mute userId kind => .muted ((mutes.lookup (userId, kind)).getD true)

/-- What the hub has stored. -/
def stored (store : VoiceStore) (hubId : HubId) : VoiceKey → VoiceValue :=
  hashValue (store.occupancy hubId) (store.mutes hubId)

/-- What a command sets in a hub. -/
def sets (hubId : HubId) : VoiceCommand → Replica.Assignment VoiceKey VoiceValue
  | .occupancySet hubId' userId channelId, .occupancy userId' =>
    if hubId = hubId' ∧ userId' = userId then some (.channel (some channelId)) else none
  | .occupancyClear hubId' userId, .occupancy userId' =>
    if hubId = hubId' ∧ userId' = userId then some (.channel none) else none
  | .muteSet hubId' userId kind muted, .mute userId' kind' =>
    if hubId = hubId' ∧ userId' = userId ∧ kind' = kind then some (.muted muted) else none
  | .muteClear hubId' userId, .mute userId' _ =>
    if hubId = hubId' ∧ userId' = userId then some (.muted true) else none
  | _, _ => none

theorem stored_apply (store : VoiceStore) (hubId : HubId) (c : VoiceCommand) :
    stored (store.apply c) hubId = Replica.assign (stored store hubId) (sets hubId c) := by
  funext k
  cases c <;> cases k <;>
    simp only [stored, hashValue, VoiceStore.apply, Replica.assign, sets,
      VoiceOccupancy.lookup_set, VoiceOccupancy.lookup_clear, VoiceMute.lookup_set,
      VoiceMute.lookup_clear, Option.getD_none] <;>
    split_ifs <;> rfl

/-! ### The stores of the client -/

/-- `MuteState` -/
structure MuteState where
  audioMuted : Bool
  videoMuted : Bool
  deriving DecidableEq

namespace MuteState

/-- Who is missing is fully muted. -/
def missing : MuteState := ⟨true, true⟩

/-- The mute of a kind. -/
def muted (s : MuteState) : MediaKind → Bool
  | .audio => s.audioMuted
  | .video => s.videoMuted

/-- The mute of a kind is set. -/
def set (s : MuteState) (kind : MediaKind) (muted : Bool) : MuteState :=
  match kind with
  | .audio => { s with audioMuted := muted }
  | .video => { s with videoMuted := muted }

theorem muted_set (s : MuteState) (kind kind' : MediaKind) (muted : Bool) :
    (s.set kind muted).muted kind' = if kind' = kind then muted else s.muted kind' := by
  cases kind <;> cases kind' <;> rfl

end MuteState

/-- The maps of `voice-occupancy-store` and of `voice-mute-store`. What the stores compare before
they change decides only whether their listeners are told. -/
structure VoiceStores where
  occupancy : Dict ℤ ChannelId
  mutes : Dict ℤ MuteState

/-- A row of `members-full`, as far as it is about voice. -/
structure Member where
  userId : ℤ
  currentVoiceChannelId : Option ChannelId
  voiceAudioMuted : Bool
  voiceVideoMuted : Bool

/-- `get_members_full`, with what it has read of the hashes. -/
def getMembersFull (occupancy : Dict ℤ ChannelId) (mutes : Dict (ℤ × MediaKind) Bool)
    (members : List ℤ) : List Member :=
  members.map fun userId =>
    { userId := userId
      currentVoiceChannelId := occupancy.lookup userId
      voiceAudioMuted := (mutes.lookup (userId, .audio)).getD true
      voiceVideoMuted := (mutes.lookup (userId, .video)).getD true }

namespace VoiceStores

/-- `setVoiceOccupancy()` -/
def setVoiceOccupancy (st : VoiceStores) (userId : ℤ) : Option ChannelId → VoiceStores
  | none => { st with occupancy := st.occupancy.erase userId }
  | some channelId => { st with occupancy := st.occupancy.insert userId channelId }

/-- `setVoiceMute()` -/
def setVoiceMute (st : VoiceStores) (userId : ℤ) (kind : MediaKind) (muted : Bool) : VoiceStores :=
  let prev := (st.mutes.lookup userId).getD .missing
  { st with mutes := st.mutes.insert userId (prev.set kind muted) }

/-- `clearVoiceMute()` -/
def clearVoiceMute (st : VoiceStores) (userId : ℤ) : VoiceStores :=
  { st with mutes := st.mutes.erase userId }

/-- `seedVoiceOccupancy`: the map is replaced. -/
def seedVoiceOccupancy (st : VoiceStores) (pairs : List (ℤ × Option ChannelId)) : VoiceStores :=
  { st with
    occupancy := pairs.foldl (fun next e => match e.2 with
      | none => next
      | some channelId => next.insert e.1 channelId) ∅ }

/-- `seedVoiceMute`: the map is replaced. -/
def seedVoiceMute (st : VoiceStores) (pairs : List (ℤ × MuteState)) : VoiceStores :=
  { st with mutes := pairs.foldl (fun next e => next.insert e.1 e.2) ∅ }

/-- `onSuccess` of a fetch. -/
def onSuccess (st : VoiceStores) (members : List Member) : VoiceStores :=
  (st.seedVoiceOccupancy (members.map fun m => (m.userId, m.currentVoiceChannelId))).seedVoiceMute
    ((members.filter fun m => m.currentVoiceChannelId.isSome).map fun m =>
      (m.userId, ⟨m.voiceAudioMuted, m.voiceVideoMuted⟩))

/-- What the client shows. -/
def value (st : VoiceStores) : VoiceKey → VoiceValue
  | .occupancy userId => .channel (st.occupancy.lookup userId)
  | .mute userId kind => .muted (((st.mutes.lookup userId).getD .missing).muted kind)

end VoiceStores

/-! ### The events of the presence connection -/

/-- What the hub sends about voice. -/
inductive PresenceMessage
  | voiceOccupancy (userId : ℤ) (channelId : Option ChannelId)
  | voiceMute (userId : ℤ) (kind : String) (muted : Bool)
  deriving DecidableEq

/-- The event that a consumer of the hub broadcasts, and for which hub. -/
def broadcastOf : NatsEvent → HubId × PresenceMessage
  | .occupancy hubId userId channelId _ => (hubId, .voiceOccupancy userId channelId)
  | .mute hubId userId kind muted => (hubId, .voiceMute userId kind muted)

/-- What a message sets in the stores. -/
def assigns : PresenceMessage → Replica.Assignment VoiceKey VoiceValue
  | .voiceOccupancy userId channelId, .occupancy userId' =>
    if userId' = userId then some (.channel channelId) else none
  | .voiceOccupancy userId none, .mute userId' _ =>
    if userId' = userId then some (.muted true) else none
  | .voiceMute userId kind muted, .mute userId' kind' =>
    if userId' = userId ∧ muteKind kind = some kind' then some (.muted muted) else none
  | _, _ => none

/-- What an event sets is what its commands set, one after another. -/
theorem last_commands (ev : NatsEvent) :
    Replica.last (ev.commands.map (sets (broadcastOf ev).1)) = assigns (broadcastOf ev).2 := by
  funext k
  rcases ev with ⟨hubId, userId, _ | channelId, callId⟩ | ⟨hubId, userId, kind, muted⟩
  · cases k <;> simp [NatsEvent.commands, broadcastOf, Replica.last, sets, assigns]
  · cases k <;> simp [NatsEvent.commands, broadcastOf, Replica.last, sets, assigns]
  · rcases hkind : muteKind kind with _ | kind' <;> cases k <;>
      simp [NatsEvent.commands, broadcastOf, Replica.last, sets, assigns, hkind, eq_comm]

/-- In another hub it sets nothing. -/
theorem last_commands_of_ne {hubId : HubId} {ev : NatsEvent} (h : hubId ≠ (broadcastOf ev).1) :
    Replica.last (ev.commands.map (sets hubId)) = fun _ => none := by
  funext k
  rcases ev with ⟨hubId', userId, _ | channelId, callId⟩ | ⟨hubId', userId, kind, muted⟩
  · cases k <;> simp_all [NatsEvent.commands, broadcastOf, Replica.last, sets]
  · cases k <;> simp_all [NatsEvent.commands, broadcastOf, Replica.last, sets]
  · rcases hkind : muteKind kind with _ | kind' <;> cases k <;>
      simp_all [NatsEvent.commands, broadcastOf, Replica.last, sets]

namespace VoiceStores

/-- `ws.onmessage`, of what is about voice. -/
def onMessage (st : VoiceStores) : PresenceMessage → VoiceStores
  | .voiceOccupancy userId channelId =>
    let st := st.setVoiceOccupancy userId channelId
    if channelId.isNone then st.clearVoiceMute userId else st
  | .voiceMute userId kind muted =>
    match muteKind kind with
    | none => st
    | some kind => st.setVoiceMute userId kind muted

theorem lookup_setVoiceOccupancy (st : VoiceStores) (userId userId' : ℤ)
    (channelId : Option ChannelId) : (st.setVoiceOccupancy userId channelId).occupancy.lookup
      userId' = if userId' = userId then channelId else st.occupancy.lookup userId' := by
  cases channelId with
  | none => exact Dict.lookup_erase_eq ..
  | some channelId => exact Dict.lookup_insert_eq ..

theorem mutes_setVoiceOccupancy (st : VoiceStores) (userId : ℤ) (channelId : Option ChannelId) :
    (st.setVoiceOccupancy userId channelId).mutes = st.mutes := by
  cases channelId <;> rfl

theorem muted_setVoiceMute (st : VoiceStores) (userId userId' : ℤ) (kind kind' : MediaKind)
    (muted : Bool) :
    (((st.setVoiceMute userId kind muted).mutes.lookup userId').getD .missing).muted kind' =
      if userId' = userId ∧ kind' = kind then muted
      else ((st.mutes.lookup userId').getD .missing).muted kind' := by
  simp only [setVoiceMute, Dict.lookup_insert_eq]
  by_cases hu : userId' = userId
  · subst hu
    simp only [if_true, Option.getD_some, MuteState.muted_set, true_and]
  · simp only [hu, if_false, false_and]

theorem muted_clearVoiceMute (st : VoiceStores) (userId userId' : ℤ) (kind : MediaKind) :
    (((st.clearVoiceMute userId).mutes.lookup userId').getD .missing).muted kind =
      if userId' = userId then true else ((st.mutes.lookup userId').getD .missing).muted kind := by
  simp only [clearVoiceMute, Dict.lookup_erase_eq]
  split_ifs
  · cases kind <;> rfl
  · rfl

/-- **A message sets in the stores what it says.** -/
theorem value_onMessage (st : VoiceStores) (m : PresenceMessage) :
    (st.onMessage m).value = Replica.assign st.value (assigns m) := by
  funext k
  rcases m with ⟨userId, channelId⟩ | ⟨userId, kind, muted⟩
  · rcases channelId with _ | channelId
    · cases k with
      | occupancy userId' =>
        change VoiceValue.channel ((st.setVoiceOccupancy userId none).occupancy.lookup userId') = _
        rw [lookup_setVoiceOccupancy]
        simp only [Replica.assign, assigns, value]
        split_ifs <;> rfl
      | mute userId' kind' =>
        change VoiceValue.muted _ = _
        simp only [onMessage, Option.isNone_none, if_true, muted_clearVoiceMute,
          mutes_setVoiceOccupancy, Replica.assign, assigns, value]
        split_ifs <;> rfl
    · cases k with
      | occupancy userId' =>
        change VoiceValue.channel ((st.setVoiceOccupancy userId channelId).occupancy.lookup userId')
          = _
        rw [lookup_setVoiceOccupancy]
        simp only [Replica.assign, assigns, value]
        split_ifs <;> rfl
      | mute userId' kind' => rfl
  · rcases hkind : muteKind kind with _ | kind'
    · cases k <;> simp [onMessage, Replica.assign, assigns, hkind]
    · cases k with
      | occupancy userId' => simp [onMessage, Replica.assign, assigns, hkind, value, setVoiceMute]
      | mute userId' kind'' =>
        simp only [onMessage, hkind, value, muted_setVoiceMute, Replica.assign, assigns,
          Option.some.injEq, eq_comm (a := kind')]
        split_ifs <;> rfl

/-! ### The answer of a fetch -/

theorem lookup_seedVoiceOccupancy (st : VoiceStores) (occupancy : Dict ℤ ChannelId)
    (members : List ℤ) (userId : ℤ) :
    (st.seedVoiceOccupancy (members.map fun u => (u, occupancy.lookup u))).occupancy.lookup userId =
      if userId ∈ members then occupancy.lookup userId else none := by
  have hloop (d : Dict ℤ ChannelId) : ((members.map fun u => (u, occupancy.lookup u)).foldl
      (fun next e => match e.2 with
        | none => next
        | some channelId => next.insert e.1 channelId) d).lookup userId =
      if userId ∈ members ∧ (occupancy.lookup userId).isSome then occupancy.lookup userId
      else d.lookup userId := by
    induction members generalizing d with
    | nil => simp
    | cons u members ih =>
      rw [List.map_cons, List.foldl_cons, ih]
      by_cases hu : userId = u
      · subst hu
        rcases hc : occupancy.lookup userId with _ | c
        · simp
        · simp
      · rcases hc : occupancy.lookup u with _ | c
        · simp [hu]
        · simp [hu]
  refine (hloop ∅).trans ?_
  rcases hc : occupancy.lookup userId with _ | c
  · simp
  · simp

theorem lookup_seedVoiceMute (st : VoiceStores) (f : ℤ → MuteState) (users : List ℤ) (userId : ℤ) :
    (st.seedVoiceMute (users.map fun u => (u, f u))).mutes.lookup userId =
      if userId ∈ users then some (f userId) else none := by
  have hloop (d : Dict ℤ MuteState) : ((users.map fun u => (u, f u)).foldl
      (fun next e => next.insert e.1 e.2) d).lookup userId =
      if userId ∈ users then some (f userId) else d.lookup userId := by
    induction users generalizing d with
    | nil => simp
    | cons u users ih =>
      rw [List.map_cons, List.foldl_cons, ih, Dict.lookup_insert_eq]
      by_cases hu : userId = u
      · simp [hu]
      · simp [hu]
  exact hloop ∅

/-- **What the client shows after a fetch**: what the answer says of those who are listed and in
voice, and of the others that they are not, and muted. -/
theorem value_onSuccess (st : VoiceStores) (occupancy : Dict ℤ ChannelId)
    (mutes : Dict (ℤ × MediaKind) Bool) (members : List ℤ) (k : VoiceKey) :
    (st.onSuccess (getMembersFull occupancy mutes members)).value k = match k with
      | .occupancy userId =>
        .channel (if userId ∈ members then occupancy.lookup userId else none)
      | .mute userId kind =>
        .muted (if userId ∈ members ∧ (occupancy.lookup userId).isSome then
          (mutes.lookup (userId, kind)).getD true else true) := by
  have hpairs : ((getMembersFull occupancy mutes members).filter fun m =>
      m.currentVoiceChannelId.isSome).map (fun m =>
        (m.userId, (⟨m.voiceAudioMuted, m.voiceVideoMuted⟩ : MuteState))) =
      (members.filter fun u => (occupancy.lookup u).isSome).map fun u =>
        (u, ⟨(mutes.lookup (u, .audio)).getD true, (mutes.lookup (u, .video)).getD true⟩) := by
    rw [getMembersFull, List.filter_map, List.map_map]
    rfl
  have hseed : (getMembersFull occupancy mutes members).map (fun m =>
      (m.userId, m.currentVoiceChannelId)) = members.map fun u => (u, occupancy.lookup u) := by
    rw [getMembersFull, List.map_map]
    rfl
  rw [onSuccess, hpairs, hseed]
  cases k with
  | occupancy userId =>
    change VoiceValue.channel ((st.seedVoiceOccupancy _).occupancy.lookup userId) = _
    rw [lookup_seedVoiceOccupancy]
  | mute userId kind =>
    change VoiceValue.muted (((VoiceStores.mutes (seedVoiceMute _ _)).lookup userId).getD
      MuteState.missing |>.muted kind) = _
    rw [lookup_seedVoiceMute _ fun u =>
      ⟨(mutes.lookup (u, .audio)).getD true, (mutes.lookup (u, .video)).getD true⟩]
    simp only [List.mem_filter]
    split_ifs <;> cases kind <;> rfl

/-- A key under which the client shows what the answer says. -/
def Faithful (occupancy : Dict ℤ ChannelId) (mutes : Dict (ℤ × MediaKind) Bool)
    (members : List ℤ) : VoiceKey → Prop
  | .occupancy userId => (occupancy.lookup userId).isSome → userId ∈ members
  | .mute userId kind => (mutes.lookup (userId, kind)).getD true = false →
    userId ∈ members ∧ (occupancy.lookup userId).isSome

theorem value_onSuccess_of_faithful (st : VoiceStores) {occupancy : Dict ℤ ChannelId}
    {mutes : Dict (ℤ × MediaKind) Bool} {members : List ℤ} {k : VoiceKey}
    (h : Faithful occupancy mutes members k) :
    (st.onSuccess (getMembersFull occupancy mutes members)).value k =
      hashValue occupancy mutes k := by
  rw [value_onSuccess]
  cases k with
  | occupancy userId =>
    simp only [hashValue]
    split_ifs with hmem
    · rfl
    · rw [Option.not_isSome_iff_eq_none.mp fun hsome => hmem (h hsome)]
  | mute userId kind =>
    simp only [hashValue]
    split_ifs with hvoice
    · rfl
    · rw [Bool.eq_true_of_not_eq_false fun hfalse => hvoice (h hfalse)]

end VoiceStores

end Web

end MateHub
