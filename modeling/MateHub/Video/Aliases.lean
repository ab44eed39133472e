import MateHub.Lib.Dict
import MateHub.Lib.Runs
import MateHub.Video.Sfu.Loop

/-!
# The participants of the SDK and their aliases

The video client has one table for the other participants. An object is created when a
participant joins, under the id of the participant; an offer of the SFU adds an entry with the
same object for each stream that it names, so that `ontrack` finds the participant of a track.
The entries of the streams are never taken out again, as long as the client is connected, and
never replaced: so the tracks of a participant who comes back are attached to the object of the
former stay (`MateHub.Video.attached_to_former`).

While nobody comes or goes of whom a stream is in the table
(`MateHub.Video.SdkClient.Unaliased`), every entry of a stream has the object of its
participant (`MateHub.Video.aliases_of_reach`). Any other step leaves an entry that has not.
-/

namespace MateHub

namespace Video

/-! ### The texts -/

/-- A number is written with as many digits as there are places. -/
theorem length_hexDigits (x n : ℕ) : (hexDigits x n).length = n := by
  induction n generalizing x with
  | zero => rfl
  | succ n ih => rw [hexDigits, List.length_append, ih, List.length_singleton]

/-- Different hexadecimal digits are different characters. -/
theorem digitChar_inj : ∀ a < 16, ∀ b < 16, Nat.digitChar a = Nat.digitChar b → a = b := by
  decide

/-- Different numbers are written differently if there are places enough. -/
theorem hexDigits_inj {n x y : ℕ} (hx : x < 16 ^ n) (hy : y < 16 ^ n)
    (h : hexDigits x n = hexDigits y n) : x = y := by
  induction n generalizing x y with
  | zero => omega
  | succ n ih =>
    obtain ⟨hhigh, hlow⟩ := List.append_inj h (by rw [length_hexDigits, length_hexDigits])
    rw [pow_succ'] at hx hy
    have hdiv : x / 16 = y / 16 :=
      ih (Nat.div_lt_of_lt_mul hx) (Nat.div_lt_of_lt_mul hy) hhigh
    have hmod : x % 16 = y % 16 := digitChar_inj _ (Nat.mod_lt _ (by omega)) _
      (Nat.mod_lt _ (by omega)) (List.singleton_inj.mp hlow)
    omega

namespace Uuid

variable {u w : Uuid}

/-- The text of a UUID has 36 characters. -/
theorem length_hyphenated (u : Uuid) : u.hyphenated.toList.length = 36 := by
  simp [hyphenated, length_hexDigits]

/-- An identifier is known from its text: the digits are between the hyphens. -/
theorem hyphenated_inj (h : u.hyphenated = w.hyphenated) : u = w := by
  have hlen : ∀ v : Uuid, (hexDigits v.toNat 32).length = 32 := fun v => length_hexDigits _ _
  have hlist := congrArg String.toList h
  simp only [hyphenated, String.toList_ofList, List.append_assoc, List.cons_append] at hlist
  obtain ⟨h₁, hlist⟩ := List.append_inj hlist (by simp [hlen])
  obtain ⟨h₂, hlist⟩ := List.append_inj (List.tail_eq_of_cons_eq hlist) (by simp [hlen])
  obtain ⟨h₃, hlist⟩ := List.append_inj (List.tail_eq_of_cons_eq hlist) (by simp [hlen])
  obtain ⟨h₄, hlist⟩ := List.append_inj (List.tail_eq_of_cons_eq hlist) (by simp [hlen])
  have h₅ := List.tail_eq_of_cons_eq hlist
  have hsplit : ∀ d : List Char, d = d.take 8 ++ ((d.drop 8).take 4 ++ ((d.drop 12).take 4 ++
      ((d.drop 16).take 4 ++ d.drop 20))) := fun d => by
    rw [← List.drop_drop (i := 4) (j := 16), List.take_append_drop]
    rw [← List.drop_drop (i := 4) (j := 12), List.take_append_drop]
    rw [← List.drop_drop (i := 4) (j := 8), List.take_append_drop]
    rw [List.take_append_drop]
  have hdigits : hexDigits u.toNat 32 = hexDigits w.toNat 32 := by
    rw [hsplit (hexDigits u.toNat 32), h₁, h₂, h₃, h₄, h₅, ← hsplit]
  exact BitVec.eq_of_toNat_eq (hexDigits_inj u.isLt w.isLt hdigits)

end Uuid

/-- The characters of the id of a stream. -/
theorem toList_streamIdFor (p : ParticipantId) (source : Source) (kind : MediaKind) :
    (streamIdFor p source kind).toList = p.hyphenated.toList ++
      ('-' :: source.asMsidTag.toList ++ '-' :: kind.wire.toList) := by
  simp [streamIdFor, String.toList_append]

/-- A stream id is no id of a participant. -/
theorem streamIdFor_ne (p q : ParticipantId) (source : Source) (kind : MediaKind) :
    streamIdFor p source kind ≠ q.hyphenated := by
  intro h
  have hlen : (streamIdFor p source kind).toList.length = q.hyphenated.toList.length := by rw [h]
  rw [toList_streamIdFor, List.length_append, Uuid.length_hyphenated,
    Uuid.length_hyphenated, List.length_append, List.length_cons] at hlen
  omega

/-- A stream id has the id of its participant. -/
theorem streamIdFor_inj {p q : ParticipantId} {source source' : Source} {kind kind' : MediaKind}
    (h : streamIdFor p source kind = streamIdFor q source' kind') : p = q := by
  have hlist := congrArg String.toList h
  rw [toList_streamIdFor, toList_streamIdFor] at hlist
  obtain ⟨htext, -⟩ := List.append_inj hlist
    (by rw [Uuid.length_hyphenated, Uuid.length_hyphenated])
  exact Uuid.hyphenated_inj (String.toList_injective htext)

/-! ### The client -/

/-- `Participant` of the SDK; the tracks are numbered. -/
structure SdkParticipant where
  participantId : String
  userId : String
  audioTrack : Option ℕ
  videoTrack : Option ℕ
  screenVideoTrack : Option ℕ
  screenAudioTrack : Option ℕ
  isMicMuted : Bool
  isDeafened : Bool
  deriving DecidableEq

/-- A track of a source and a kind is attached to a participant. -/
def SdkParticipant.attach (p : SdkParticipant) (source kind : String)
    (track : ℕ) : SdkParticipant :=
  if kind = "audio" ∧ source = "camera" then { p with audioTrack := some track }
  else if kind = "video" ∧ source = "camera" then { p with videoTrack := some track }
  else if kind = "video" ∧ source = "screen" then { p with screenVideoTrack := some track }
  else if kind = "audio" ∧ source = "screen" then { p with screenAudioTrack := some track }
  else p

/-- What concerns the other participants in a `VideoClient`. An object is its place in
`objects`. -/
structure SdkClient where
  /-- There is a peer connection that is not closed. -/
  connected : Bool
  joined : Bool
  participants : Dict String ℕ
  objects : List SdkParticipant
  streamMeta : Dict String (String × String)
  /-- The participants who have joined and not left, with the object created for each. -/
  session : Dict ParticipantId ℕ

namespace SdkClient

variable (c : SdkClient)

/-- The loop over the tracks of an offer. -/
def register (t : TrackMapping) : SdkClient :=
  { c with
    participants :=
      if (c.participants.lookup t.streamId).isSome then c.participants
      else match c.participants.lookup t.participantId.hyphenated with
        | none => c.participants
        | some existing => c.participants.insert t.streamId existing
    streamMeta :=
      if t.source ≠ "" ∧ t.kind ≠ "" then c.streamMeta.insert t.streamId (t.source, t.kind)
      else c.streamMeta }

/-- `addParticipant()` -/
def addParticipant (participantId : ParticipantId) (userId : String) : SdkClient :=
  { c with
    objects := c.objects ++
      [⟨participantId.hyphenated, userId, none, none, none, none, true, false⟩]
    participants := c.participants.insert participantId.hyphenated c.objects.length
    session := c.session.insert participantId c.objects.length }

/-- `removeParticipant()`: the object goes, the aliases of its streams stay. -/
def removeParticipant (participantId : ParticipantId) : SdkClient :=
  { c with
    participants := c.participants.erase participantId.hyphenated
    session := c.session.erase participantId }

/-- An object is changed. -/
def modifyObject (i : ℕ) (f : SdkParticipant → SdkParticipant) : SdkClient :=
  { c with objects := c.objects.modify i f }

/-- The object in the table under a key, if there is one, is changed. -/
def modifyParticipant (key : String) (f : SdkParticipant → SdkParticipant) : SdkClient :=
  match c.participants.lookup key with
  | none => c
  | some i => c.modifyObject i f

/-- `handleServerMessage`. -/
def handleServerMessage (msg : ServerMessage) : SdkClient :=
  if c.connected = false then c
  else match msg with
  | .answer _ _ => { c with joined := true }
  | .offer _ tracks => (tracks.getD []).foldl register c
  | .participantJoined participantId userId => c.addParticipant participantId userId
  | .participantLeft participantId _ => c.removeParticipant participantId
  | .participantMuted participantId kind muted =>
    if kind = "audio" then
      c.modifyParticipant participantId.hyphenated fun p => { p with isMicMuted := muted }
    else c
  | .participantDeafened participantId deafened =>
    c.modifyParticipant participantId.hyphenated fun p => { p with isDeafened := deafened }
  | .error _ => c
  | .forceDisconnected _ => c

/-- The source and the kind that `ontrack` takes a track for. -/
def trackMeta (streamId : String) (kind : MediaKind) : String × String :=
  (c.streamMeta.lookup streamId).getD ("camera", kind.wire)

/-- `ontrack`; a track may have no stream. -/
def ontrack (streamId : Option String) (kind : MediaKind) (track : ℕ) : SdkClient :=
  if c.joined = false then c
  else match streamId with
  | none => c
  | some streamId =>
    c.modifyParticipant streamId fun p =>
      p.attach (c.trackMeta streamId kind).1 (c.trackMeta streamId kind).2 track

/-- The screen track of an object has ended. -/
def screenEnded (i : ℕ) : SdkClient := c.modifyObject i fun p => { p with screenVideoTrack := none }

/-- A client connects. -/
def connect : SdkClient := { c with connected := true }

/-- A client disconnects, and forgets whom it has known. -/
def disconnect : SdkClient :=
  { c with
    connected := false
    participants := ∅
    streamMeta := ∅
    session := ∅ }

end SdkClient

/-! ### Runs -/

/-- A mapping as `negotiate_pending_tracks` makes it. -/
def TrackMapping.Legal (t : TrackMapping) : Prop :=
  ∃ source kind, t.streamId = streamIdFor t.participantId source kind ∧
    t.source = source.wire ∧ t.kind = kind.wire

/-- A message that the SFU can send. -/
def ServerMessage.Legal : ServerMessage → Prop
  | .offer _ (some tracks) => ∀ t ∈ tracks, t.Legal
  | _ => True

/-- The mappings that the SFU tells of name their streams by its rule. -/
theorem legal_trackMappings {S : Str0m} (s : SfuSession S) (p : SfuParticipant S) :
    ∀ t ∈ SfuShard.trackMappings s p, t.Legal := by
  intro t ht
  obtain ⟨out, -, hmap⟩ := List.mem_filterMap.mp ht
  obtain ⟨origin, -, rfl⟩ := Option.map_eq_some_iff.mp hmap
  exact ⟨out.source, out.kind, rfl, rfl, rfl⟩

namespace SdkClient

/-- What happens to a client: messages, tracks of its peer connection, and the end of a share. -/
inductive Act
  | message (msg : ServerMessage)
  | track (streamId : Option String) (kind : MediaKind) (track : ℕ)
  | screenEnded (i : ℕ)
  | connect
  | disconnect

/-- The steps; the messages come in any order. -/
inductive Step : SdkClient → Act → SdkClient → Prop
  | message {c : SdkClient} {msg : ServerMessage} : msg.Legal →
      Step c (.message msg) (c.handleServerMessage msg)
  | track {c : SdkClient} {streamId : Option String} {kind : MediaKind} {track : ℕ} :
      Step c (.track streamId kind track) (c.ontrack streamId kind track)
  | screenEnded {c : SdkClient} {i : ℕ} : Step c (.screenEnded i) (c.screenEnded i)
  | connect {c : SdkClient} : Step c .connect c.connect
  | disconnect {c : SdkClient} : Step c .disconnect c.disconnect

/-- A client from its start on. -/
def system : System SdkClient Act where
  init := fun c => c = ⟨false, false, ∅, [], ∅, ∅⟩
  step := Step

/-- **Coherence**: the id of a participant is in the table exactly if the participant is in the
session, with the object created for it; a stream in the table is one of a participant in the
session, and has its object; and a track of a stream changes no other object. -/
structure Coherent (c : SdkClient) : Prop where
  entry : ∀ p : ParticipantId, c.participants.lookup p.hyphenated = c.session.lookup p
  stream : ∀ p source kind i, c.participants.lookup (streamIdFor p source kind) = some i →
    c.session.lookup p = some i
  attach : ∀ p source kind mediaKind track i, c.session.lookup p ≠ some i →
    (c.ontrack (some (streamIdFor p source kind)) mediaKind track).objects[i]? = c.objects[i]?

/-- No stream of a participant is in the table. -/
def Unaliased (c : SdkClient) (p : ParticipantId) : Prop :=
  ∀ source kind, c.participants.lookup (streamIdFor p source kind) = none

/-- **The condition on a step**: who comes or goes has no stream in the table. -/
def Fits (c : SdkClient) : Act → Prop
  | .message (.participantJoined p _) => c.connected = true → c.Unaliased p
  | .message (.participantLeft p _) => c.connected = true → c.Unaliased p
  | _ => True

/-! ### Coherence -/

/-- The invariant: the first two parts, and that the objects exist. -/
structure Ok (c : SdkClient) : Prop where
  entry : ∀ p : ParticipantId, c.participants.lookup p.hyphenated = c.session.lookup p
  stream : ∀ p source kind i, c.participants.lookup (streamIdFor p source kind) = some i →
    c.session.lookup p = some i
  created : ∀ p i, c.session.lookup p = some i → i < c.objects.length

variable {c c' : SdkClient} {p q : ParticipantId} {source : Source} {kind : MediaKind}

/-- A change of an object leaves the map of participants. -/
@[simp] theorem modifyParticipant_participants (c : SdkClient) (key : String)
    (f : SdkParticipant → SdkParticipant) :
    (c.modifyParticipant key f).participants = c.participants := by
  unfold modifyParticipant
  split <;> rfl

/-- A change of an object leaves the map of the session. -/
@[simp] theorem modifyParticipant_session (c : SdkClient) (key : String)
    (f : SdkParticipant → SdkParticipant) : (c.modifyParticipant key f).session = c.session := by
  unfold modifyParticipant
  split <;> rfl

/-- A change of an object makes no other. -/
@[simp] theorem length_modifyParticipant (c : SdkClient) (key : String)
    (f : SdkParticipant → SdkParticipant) :
    (c.modifyParticipant key f).objects.length = c.objects.length := by
  unfold modifyParticipant modifyObject
  split
  · rfl
  · exact List.length_modify ..

/-- Only the object under the key is changed. -/
theorem getElem?_modifyParticipant {key : String} {f : SdkParticipant → SdkParticipant} {i : ℕ}
    (h : c.participants.lookup key ≠ some i) :
    (c.modifyParticipant key f).objects[i]? = c.objects[i]? := by
  unfold modifyParticipant modifyObject
  split
  · rfl
  · rename_i j hj
    have hne : j ≠ i := by
      rintro rfl
      exact h hj
    exact List.getElem?_modify_ne _ _ hne

/-- A track changes only the object of its stream. -/
theorem getElem?_ontrack {streamId : String} {track i : ℕ}
    (h : c.participants.lookup streamId ≠ some i) :
    (c.ontrack (some streamId) kind track).objects[i]? = c.objects[i]? := by
  unfold ontrack
  split
  · rfl
  · exact getElem?_modifyParticipant h

/-- A client that is in order is coherent. -/
theorem Ok.coherent (h : c.Ok) : c.Coherent :=
  ⟨h.entry, h.stream, fun p source kind _ _ i hi =>
    getElem?_ontrack fun heq => hi (h.stream p source kind i heq)⟩

/-- What keeps the table and the session, and loses no object, keeps the invariant. -/
theorem Ok.same (h : c.Ok) (hparticipants : c'.participants = c.participants)
    (hsession : c'.session = c.session) (hobjects : c.objects.length ≤ c'.objects.length) :
    c'.Ok := by
  refine ⟨?_, ?_, ?_⟩
  · rw [hparticipants, hsession]
    exact h.entry
  · rw [hparticipants, hsession]
    exact h.stream
  · rw [hsession]
    exact fun p i hi => Nat.lt_of_lt_of_le (h.created p i hi) hobjects

/-- A change of an object keeps a client in order. -/
theorem Ok.modifyParticipant (h : c.Ok) (key : String) (f : SdkParticipant → SdkParticipant) :
    (c.modifyParticipant key f).Ok :=
  h.same (modifyParticipant_participants ..) (modifyParticipant_session ..)
    (Nat.le_of_eq (length_modifyParticipant ..).symm)

section Register

variable {t : TrackMapping} {i : ℕ}

/-- A stream in the table keeps its object. -/
theorem register_of_known (h : c.participants.lookup t.streamId = some i) :
    (c.register t).participants = c.participants := by
  rw [SdkClient.register, h]
  rfl

/-- A mapping of somebody unknown is not registered. -/
theorem register_of_stranger (h : c.participants.lookup t.streamId = none)
    (hp : c.participants.lookup t.participantId.hyphenated = none) :
    (c.register t).participants = c.participants := by
  rw [SdkClient.register, h, hp]
  rfl

/-- A mapping of somebody known makes an alias of its object. -/
theorem register_of_existing (h : c.participants.lookup t.streamId = none)
    (hp : c.participants.lookup t.participantId.hyphenated = some i) :
    (c.register t).participants = c.participants.insert t.streamId i := by
  rw [SdkClient.register, h, hp]
  rfl

/-- An offer registers a stream with the object of its participant. -/
theorem Ok.register (h : c.Ok) (ht : t.Legal) : (c.register t).Ok := by
  obtain ⟨source, kind, hstream, -, -⟩ := ht
  rcases hknown : c.participants.lookup t.streamId with _ | j
  · rcases hexisting : c.participants.lookup t.participantId.hyphenated with _ | existing
    · exact h.same (register_of_stranger hknown hexisting) rfl (Nat.le_refl _)
    · refine ⟨fun p => ?_, fun p source' kind' i hi => ?_, h.created⟩
      · rw [register_of_existing hknown hexisting, Dict.lookup_insert_eq, if_neg]
        · exact h.entry p
        · rw [hstream]
          exact (streamIdFor_ne _ _ _ _).symm
      · rw [register_of_existing hknown hexisting, Dict.lookup_insert_eq] at hi
        split_ifs at hi with heq
        · obtain rfl := Option.some_inj.mp hi
          rw [hstream] at heq
          rw [streamIdFor_inj heq]
          exact (h.entry _).symm.trans hexisting
        · exact h.stream p source' kind' i hi
  · exact h.same (register_of_known hknown) rfl (Nat.le_refl _)

end Register

/-- Mappings that are legal keep a client in order. -/
theorem Ok.registerAll {tracks : List TrackMapping} (h : c.Ok) (ht : ∀ t ∈ tracks, t.Legal) :
    (tracks.foldl SdkClient.register c).Ok := by
  induction tracks generalizing c with
  | nil => exact h
  | cons t tracks ih =>
    exact ih (h.register (ht t (List.mem_cons_self ..))) fun t' ht' =>
      ht t' (List.mem_cons_of_mem _ ht')

/-- Who is added is in the session, at the end of the objects. -/
theorem lookup_addParticipant (c : SdkClient) (p q : ParticipantId) (userId : String) :
    (c.addParticipant p userId).session.lookup q =
      if q = p then some c.objects.length else c.session.lookup q := Dict.lookup_insert_eq ..

/-- Who is removed is not in the session any more. -/
theorem lookup_removeParticipant (c : SdkClient) (p q : ParticipantId) :
    (c.removeParticipant p).session.lookup q = if q = p then none else c.session.lookup q :=
  Dict.lookup_erase_eq ..

/-- Adding somebody makes no alias. -/
theorem alias_addParticipant (c : SdkClient) (p q : ParticipantId) (userId : String)
    (source : Source) (kind : MediaKind) :
    (c.addParticipant p userId).participants.lookup (streamIdFor q source kind) =
      c.participants.lookup (streamIdFor q source kind) :=
  (Dict.lookup_insert_eq ..).trans (if_neg (streamIdFor_ne _ _ _ _))

/-- Removing somebody removes no alias. -/
theorem alias_removeParticipant (c : SdkClient) (p q : ParticipantId) (source : Source)
    (kind : MediaKind) :
    (c.removeParticipant p).participants.lookup (streamIdFor q source kind) =
      c.participants.lookup (streamIdFor q source kind) :=
  (Dict.lookup_erase_eq ..).trans (if_neg (streamIdFor_ne _ _ _ _))

/-- **Who is added** without aliases left over finds its own object. -/
theorem Ok.addParticipant {userId : String} (h : c.Ok) (hp : c.Unaliased p) :
    (c.addParticipant p userId).Ok := by
  refine ⟨fun q => ?_, fun q source kind i hi => ?_, fun q i hi => ?_⟩
  · rw [lookup_addParticipant, SdkClient.addParticipant, Dict.lookup_insert_eq, h.entry]
    exact if_congr ⟨Uuid.hyphenated_inj, congrArg _⟩ rfl rfl
  · rw [alias_addParticipant] at hi
    rw [lookup_addParticipant, if_neg]
    · exact h.stream q source kind i hi
    · rintro rfl
      rw [hp source kind] at hi
      exact absurd hi (Option.some_ne_none i).symm
  · rw [lookup_addParticipant] at hi
    rw [SdkClient.addParticipant, List.length_append, List.length_singleton]
    split_ifs at hi
    · have := Option.some_inj.mp hi
      omega
    · have := h.created q i hi
      omega

/-- **Who is removed** without aliases leaves none behind. -/
theorem Ok.removeParticipant (h : c.Ok) (hp : c.Unaliased p) : (c.removeParticipant p).Ok := by
  refine ⟨fun q => ?_, fun q source kind i hi => ?_, fun q i hi => ?_⟩
  · rw [lookup_removeParticipant, SdkClient.removeParticipant, Dict.lookup_erase_eq, h.entry]
    exact if_congr ⟨Uuid.hyphenated_inj, congrArg _⟩ rfl rfl
  · rw [alias_removeParticipant] at hi
    rw [lookup_removeParticipant, if_neg]
    · exact h.stream q source kind i hi
    · rintro rfl
      rw [hp source kind] at hi
      exact absurd hi (Option.some_ne_none i).symm
  · rw [lookup_removeParticipant] at hi
    split_ifs at hi
    exact h.created q i hi

/-- A stream in the table of one who comes has the object of a former stay. -/
theorem Ok.unaliased_of_add {userId : String} (h : c.Ok)
    (hc : (c.addParticipant p userId).Coherent) : c.Unaliased p := by
  intro source kind
  rcases hi : c.participants.lookup (streamIdFor p source kind) with _ | i
  · rfl
  · have hnew := hc.stream p source kind i ((alias_addParticipant ..).trans hi)
    rw [lookup_addParticipant, if_pos rfl, Option.some_inj] at hnew
    have hold := h.created p i (h.stream p source kind i hi)
    omega

/-- Where a removal stays coherent, nothing was left behind. -/
theorem Ok.unaliased_of_remove (hc : (c.removeParticipant p).Coherent) : c.Unaliased p := by
  intro source kind
  rcases hi : c.participants.lookup (streamIdFor p source kind) with _ | i
  · rfl
  · have hleft := hc.stream p source kind i ((alias_removeParticipant ..).trans hi)
    rw [lookup_removeParticipant, if_pos rfl] at hleft
    exact absurd hleft (Option.some_ne_none i).symm

/-- **A message** that fits keeps a client in order, by its kinds. -/
theorem Ok.message {msg : ServerMessage} (h : c.Ok) (hlegal : msg.Legal)
    (hok : c.Fits (.message msg)) : (c.handleServerMessage msg).Ok := by
  unfold handleServerMessage
  split_ifs with hconnected
  · exact h
  · have hconnected : c.connected = true := by simpa using hconnected
    cases msg with
    | answer _ _ => exact h.same rfl rfl (Nat.le_refl _)
    | offer _ tracks =>
      rcases tracks with _ | tracks
      · exact h
      · exact h.registerAll hlegal
    | participantJoined p userId => exact h.addParticipant (hok hconnected)
    | participantLeft p userId => exact h.removeParticipant (hok hconnected)
    | participantMuted p kind muted =>
      dsimp only
      split_ifs
      · exact h.modifyParticipant _ _
      · exact h
    | participantDeafened p deafened => exact h.modifyParticipant _ _
    | error message => exact h
    | forceDisconnected reason => exact h

/-- Every step that fits keeps a client in order. -/
theorem Ok.step {a : Act} (h : c.Ok) (hok : c.Fits a) (hstep : Step c a c') : c'.Ok := by
  cases hstep with
  | message hlegal => exact h.message hlegal hok
  | track =>
    unfold ontrack
    split_ifs
    · exact h
    · split
      · exact h
      · exact h.modifyParticipant _ _
  | screenEnded => exact h.same rfl rfl (Nat.le_of_eq (List.length_modify ..).symm)
  | connect => exact h.same rfl rfl (Nat.le_refl _)
  | disconnect =>
    exact ⟨fun _ => rfl, fun _ _ _ _ hi => absurd hi (Option.some_ne_none _).symm,
      fun _ _ hi => absurd hi (Option.some_ne_none _).symm⟩

/-- A step that leaves a coherent table meets the condition. -/
theorem Ok.fits {a : Act} (h : c.Ok) (hstep : Step c a c') (hc : c'.Coherent) : c.Fits a := by
  cases hstep with
  | message hlegal =>
    rename_i msg
    cases msg with
    | participantJoined p userId =>
      intro hconnected
      rw [handleServerMessage, if_neg (by simp [hconnected])] at hc
      exact h.unaliased_of_add hc
    | participantLeft p userId =>
      intro hconnected
      rw [handleServerMessage, if_neg (by simp [hconnected])] at hc
      exact Ok.unaliased_of_remove hc
    | _ => trivial
  | _ => trivial

/-- In the runs whose steps fit a client is in order. -/
theorem ok_of_reach (h : system.Reach Fits c) : c.Ok := by
  refine h.invariant (I := Ok) (fun c hc => ?_) fun _ _ _ hc hok hstep => hc.step hok hstep
  obtain rfl := hc
  exact ⟨fun _ => rfl, fun _ _ _ _ hi => absurd hi (Option.some_ne_none _).symm,
    fun _ _ hi => absurd hi (Option.some_ne_none _).symm⟩

end SdkClient

namespace SdkClient

/-- The mapping of the camera of a participant. -/
def camera (p : ParticipantId) : TrackMapping :=
  ⟨streamIdFor p .camera .video, p, "", Source.camera.wire, MediaKind.video.wire⟩

/-- The mapping of a camera is legal. -/
theorem legal_camera (p : ParticipantId) : (camera p).Legal := ⟨.camera, .video, rfl, rfl, rfl⟩

/-- A run is continued by a message. -/
theorem Reach.message {ok : SdkClient → Act → Prop} {c : SdkClient} {msg : ServerMessage}
    (h : system.Reach ok c) (hlegal : msg.Legal) (hok : ok c (.message msg)) :
    system.Reach ok (c.handleServerMessage msg) := h.step hok (.message hlegal)

/-- The client has joined, and nobody else. -/
def alone : SdkClient :=
  (connect ⟨false, false, ∅, [], ∅, ∅⟩).handleServerMessage (.answer "" 0)

/-- Participant 1 has joined. -/
def met : SdkClient := alone.handleServerMessage (.participantJoined 1 "")

/-- The camera of participant 1 is offered. -/
def watching : SdkClient := met.handleServerMessage (.offer "" (some [camera 1]))

/-- Participant 1 has left. -/
def parted : SdkClient := watching.handleServerMessage (.participantLeft 1 "")

/-- Participant 1 has come back, and the camera is offered again. -/
def back : SdkClient :=
  (parted.handleServerMessage (.participantJoined 1 "")).handleServerMessage
    (.offer "" (some [camera 1]))

/-- A client that watches somebody's camera; the steps to there fit. -/
theorem reach_watching : system.Reach Fits watching := by
  have halone : system.Reach Fits alone :=
    Reach.message (.step (.start rfl) (by trivial) .connect) trivial trivial
  have hmet : system.Reach Fits met := Reach.message halone trivial fun _ _ _ => rfl
  refine Reach.message hmet (fun t ht => ?_) trivial
  rw [List.mem_singleton.mp ht]
  exact legal_camera 1

/-- The participant has left. -/
theorem reach_parted : system.Reachable parted :=
  Reach.message (reach_watching.mono fun _ _ _ => trivial) trivial trivial

/-- The participant is back. -/
theorem reach_back : system.Reachable back := by
  refine Reach.message (Reach.message reach_parted trivial trivial) (fun t ht => ?_) trivial
  rw [List.mem_singleton.mp ht]
  exact legal_camera 1

/-- The stream leads to the object of participant 1. -/
theorem watching_stream :
    watching.participants.lookup (streamIdFor 1 .camera .video) = some 0 := by
  have hnew : met.participants.lookup (streamIdFor 1 .camera .video) = none :=
    alias_addParticipant alone 1 1 "" .camera .video
  have hmet : met.participants.lookup (Uuid.hyphenated 1) = some 0 :=
    AList.lookup_insert alone.participants
  change (met.register (camera 1)).participants.lookup _ = _
  rw [register_of_existing (t := camera 1) hnew hmet]
  exact AList.lookup_insert met.participants

/-- The alias has survived the leave. -/
theorem parted_stream : parted.participants.lookup (streamIdFor 1 .camera .video) = some 0 :=
  (alias_removeParticipant watching 1 1 .camera .video).trans watching_stream

/-- The stream leads to the object of the former stay. -/
theorem back_stream : back.participants.lookup (streamIdFor 1 .camera .video) = some 0 := by
  have hagain : (parted.addParticipant 1 "").participants.lookup (streamIdFor 1 .camera .video) =
      some 0 := (alias_addParticipant parted 1 1 "" .camera .video).trans parted_stream
  change ((parted.addParticipant 1 "").register (camera 1)).participants.lookup _ = _
  rw [register_of_known (t := camera 1) hagain]
  exact hagain

/-- Who is back has a new object. -/
theorem back_session : back.session.lookup 1 = some 1 :=
  lookup_addParticipant parted 1 1 ""

end SdkClient

end Video

end MateHub
