import Mathlib.Data.List.ReduceOption
import MateHub.Lib.Sequences
import MateHub.Video.Aliases

/-!
# The camera tiles of a call

The UI of a call has a row for each of the other participants, and shows the camera of one whose
row has a track. A track and the signal that the camera is on come in either order, so
`useVideoClient` keeps both beside the rows: a set of the cameras that are on, and a map of the
last track of each participant. The two are written when an event comes, and the rows by
updaters that React applies later – nobody sees the difference, because the last updater of a
row decides (`MateHub.Video.CallView.settled_onEvent`).

The entries beside the rows are dropped when a participant leaves, and not when one joins. So a
participant who joins without having left, or whose track has come late, after the leave, is
shown with what is left of the former stay (`MateHub.Video.tiles_iff`,
`MateHub.Video.tile_of_former_stay`).
-/

namespace MateHub

namespace Video

/-! ### Events -/

/-- What the SDK tells the UI. -/
inductive SdkEvent
  | connected (participantId : String)
  | participantJoined (participant : SdkParticipant)
  | participantLeft (participantId userId : String)
  | trackAdded (participantId : String) (track : ℕ) (stream source kind : String)
  | trackRemoved (participantId source kind : String)
  | trackMuted (participantId trackKind : String) (muted : Bool)
  | deafenChanged (participantId : String) (deafened : Bool)
  | speakingChanged (participantId : String) (speaking : Bool)
  | screenShareStarted (participantId : String)
  | screenShareStopped (participantId : String)
  | disconnected (reason : String)
  | forceDisconnected (reason : String)
  | error (message : String)
  deriving DecidableEq

namespace SdkClient

/-- The events of a step of the SDK. -/
def emits (c : SdkClient) : Act → List SdkEvent
  | .message msg =>
    if c.connected = false then []
    else match msg with
    | .answer _ participantId => [.connected participantId.hyphenated]
    | .offer _ _ => []
    | .participantJoined participantId userId =>
      [.participantJoined ⟨participantId.hyphenated, userId, none, none, none, none, true, false⟩]
    | .participantLeft participantId userId => [.participantLeft participantId.hyphenated userId]
    | .participantMuted participantId kind muted =>
      [.trackMuted participantId.hyphenated kind muted]
    | .participantDeafened participantId deafened =>
      [.deafenChanged participantId.hyphenated deafened]
    | .error message => [.error message]
    | .forceDisconnected reason => [.forceDisconnected reason]
  | .track streamId kind track =>
    if c.joined = false then []
    else match streamId with
    | none => []
    | some streamId =>
      match (c.participants.lookup streamId).bind fun i => c.objects[i]? with
      | none => []
      | some p =>
        let (source, kind) := c.trackMeta streamId kind
        (if kind = "video" ∧ source = "screen" then [.screenShareStarted p.participantId]
          else []) ++ [.trackAdded p.participantId track streamId source kind]
  | .screenEnded i => (c.objects[i]?).toList.map fun p => .screenShareStopped p.participantId
  | .connect => []
  | .disconnect => []

end SdkClient

/-! ### The hook -/

/-- `Participant`, in the list of the UI; the stream is `none` until a track has come. -/
structure Row extends SdkParticipant where
  isSpeaking : Bool
  stream : Option String
  deriving DecidableEq

/-- The row of a participant who has just joined. It is the object of the SDK until an updater
has changed it: a camera track that the SDK attaches to the object is overwritten by the updater
of the event that comes with it. -/
def Row.new (participant : SdkParticipant) : Row :=
  { participant with isSpeaking := false, stream := none }

/-- `cameraOnRef` and `videoTrackRef`. -/
structure Refs where
  cameraOn : String → Bool
  videoTrack : String → Option ℕ

namespace Refs

def new : Refs := ⟨fun _ => false, fun _ => none⟩

/-- What an event writes at once. -/
def next (r : Refs) : SdkEvent → Refs
  | .participantLeft pid _ =>
    ⟨Function.update r.cameraOn pid false, Function.update r.videoTrack pid none⟩
  | .trackAdded pid track _ source kind =>
    if source = "camera" ∧ kind = "video" then
      { r with videoTrack := Function.update r.videoTrack pid (some track) }
    else r
  | .trackMuted pid trackKind muted =>
    if trackKind = "video" then { r with cameraOn := Function.update r.cameraOn pid (!muted) }
    else r
  | _ => r

end Refs

namespace Row

/-- A track has come. -/
def trackAdded (r : Refs) (pid : String) (track : ℕ) (stream source kind : String) (p : Row) :
    Row :=
  let next := { p with stream := some stream }
  if source = "camera" ∧ kind = "audio" then { next with audioTrack := some track }
  else if source = "camera" ∧ kind = "video" then
    { next with videoTrack := if r.cameraOn pid then some track else none }
  else if source = "screen" ∧ kind = "video" then { next with screenVideoTrack := some track }
  else if source = "screen" ∧ kind = "audio" then { next with screenAudioTrack := some track }
  else next

/-- A row after a track of its participant has gone. -/
def trackRemoved (source kind : String) (p : Row) : Row :=
  if source = "camera" ∧ kind = "audio" then { p with audioTrack := none }
  else if source = "camera" ∧ kind = "video" then { p with videoTrack := none }
  else if source = "screen" ∧ kind = "video" then { p with screenVideoTrack := none }
  else if source = "screen" ∧ kind = "audio" then { p with screenAudioTrack := none }
  else p

/-- A row after a track of its participant has been muted, or is heard again. -/
def trackMuted (r : Refs) (pid trackKind : String) (muted : Bool) (p : Row) : Row :=
  if trackKind = "video" then { p with videoTrack := if muted then none else r.videoTrack pid }
  else if trackKind = "audio" then { p with isMicMuted := muted }
  else p

/-- What the updater of an event makes of a row. -/
def update (r : Refs) (e : SdkEvent) (p : Row) : Row :=
  match e with
  | .trackAdded pid track stream source kind =>
    if p.participantId ≠ pid then p else p.trackAdded r pid track stream source kind
  | .trackRemoved pid source kind =>
    if p.participantId ≠ pid then p else p.trackRemoved source kind
  | .trackMuted pid trackKind muted =>
    if p.participantId ≠ pid then p else p.trackMuted r pid trackKind muted
  | .deafenChanged pid deafened =>
    if p.participantId = pid then { p with isDeafened := deafened } else p
  | .speakingChanged pid speaking =>
    if p.participantId = pid then { p with isSpeaking := speaking } else p
  | _ => p

end Row

/-- What the updater of an event makes of the list; it reads the refs when it is applied. -/
def updateParticipants (r : Refs) (e : SdkEvent) (prev : List Row) : List Row :=
  match e with
  | .participantJoined participant => prev ++ [.new participant]
  | .participantLeft pid _ => prev.filter fun p => p.participantId ≠ pid
  | e => prev.map (Row.update r e)

/-- What `useVideoClient` keeps of the others. -/
structure CallView where
  refs : Refs
  participants : List Row
  /-- The events whose updaters have not been applied. -/
  queue : List SdkEvent

namespace CallView

def new : CallView := ⟨.new, [], []⟩

/-- The event handler. -/
def onEvent (v : CallView) (e : SdkEvent) : CallView :=
  { v with refs := v.refs.next e, queue := v.queue ++ [e] }

/-- The rows once the updaters have been applied. -/
def settled (v : CallView) : List Row :=
  v.queue.foldl (fun prev e => updateParticipants v.refs e prev) v.participants

/-- React applies the updaters. -/
def flush (v : CallView) : CallView := { v with participants := v.settled, queue := [] }

end CallView

/-! ### When the updaters are applied -/

namespace Row

variable {r r' : Refs} {p : Row} {pid : String} {e : SdkEvent}

/-- A row without its camera, if it is one of this participant. -/
def blank (pid : String) (p : Row) : Row :=
  if p.participantId = pid then { p with videoTrack := none } else p

@[simp] theorem participantId_blank (pid : String) (p : Row) :
    (p.blank pid).participantId = p.participantId := by
  unfold blank
  split <;> rfl

@[simp] theorem participantId_update (r : Refs) (e : SdkEvent) (p : Row) :
    (p.update r e).participantId = p.participantId := by
  cases e with
  | trackAdded pid track stream source kind =>
    dsimp only [update, trackAdded]
    split_ifs <;> rfl
  | trackRemoved pid source kind =>
    dsimp only [update, trackRemoved]
    split_ifs <;> rfl
  | trackMuted pid trackKind muted =>
    dsimp only [update, trackMuted]
    split_ifs <;> rfl
  | deafenChanged pid deafened =>
    dsimp only [update]
    split_ifs <;> rfl
  | speakingChanged pid speaking =>
    dsimp only [update]
    split_ifs <;> rfl
  | _ => rfl

/-- The refs are the same but for one participant. -/
def Agree (pid : String) (r r' : Refs) : Prop :=
  ∀ q, q ≠ pid → r.cameraOn q = r'.cameraOn q ∧ r.videoTrack q = r'.videoTrack q

/-- A row sees what the refs say of its participant. -/
theorem update_congr (hcamera : r.cameraOn p.participantId = r'.cameraOn p.participantId)
    (htrack : r.videoTrack p.participantId = r'.videoTrack p.participantId) (e : SdkEvent) :
    p.update r e = p.update r' e := by
  cases e with
  | trackAdded q track stream source kind =>
    by_cases hq : p.participantId = q
    · subst hq
      simp only [update, trackAdded, hcamera]
    · simp only [update, hq, ne_eq, not_false_eq_true, if_true]
  | trackMuted q trackKind muted =>
    by_cases hq : p.participantId = q
    · subst hq
      simp only [update, trackMuted, htrack]
    · simp only [update, hq, ne_eq, not_false_eq_true, if_true]
  | _ => rfl

/-- What the refs say of a participant decides about the camera of its rows, and about nothing
else. -/
theorem blank_update (h : Agree pid r r') (e : SdkEvent) (p : Row) :
    (p.update r e).blank pid = ((p.blank pid).update r' e).blank pid := by
  by_cases hp : p.participantId = pid
  · cases e with
    | trackAdded q track stream source kind =>
      simp only [update, blank, trackAdded, hp, if_true]
      split_ifs <;> simp_all
    | trackRemoved q source kind =>
      simp only [update, blank, trackRemoved, hp, if_true]
      split_ifs <;> simp_all
    | trackMuted q trackKind muted =>
      simp only [update, blank, trackMuted, hp, if_true]
      split_ifs <;> simp_all
    | deafenChanged q deafened =>
      simp only [update, blank, hp, if_true]
      split_ifs <;> simp_all
    | speakingChanged q speaking =>
      simp only [update, blank, hp, if_true]
      split_ifs <;> simp_all
    | _ => simp [update, blank, hp]
  · obtain ⟨hcamera, htrack⟩ := h p.participantId hp
    rw [update_congr hcamera htrack e, show p.blank pid = p from if_neg hp]

end Row

namespace CallView

variable {r r' : Refs} {e : SdkEvent} {pid : String} {rows rows' : List Row}

/-- The list does not see what differs in the rows of one participant. -/
theorem blank_updateParticipants (h : Row.Agree pid r r') (e : SdkEvent) (rows : List Row) :
    (updateParticipants r e rows).map (Row.blank pid) =
      (updateParticipants r' e (rows.map (Row.blank pid))).map (Row.blank pid) := by
  have hmap : (rows.map (Row.update r e)).map (Row.blank pid) =
      ((rows.map (Row.blank pid)).map (Row.update r' e)).map (Row.blank pid) := by
    rw [List.map_map, List.map_map, List.map_map]
    exact List.map_congr_left fun p _ => Row.blank_update h e p
  have htwice (p : Row) : (p.blank pid).blank pid = p.blank pid := by
    unfold Row.blank
    split_ifs <;> rfl
  cases e with
  | participantJoined participant =>
    simp only [updateParticipants, List.map_append, List.map_map, List.map_cons, List.map_nil]
    congr 1
    exact List.map_congr_left fun p _ => (htwice p).symm
  | participantLeft q userId =>
    simp only [updateParticipants, List.filter_map, List.map_map]
    have hcomp : (fun p : Row => decide (p.participantId ≠ q)) ∘ Row.blank pid =
        fun p => decide (p.participantId ≠ q) := by
      funext p
      simp
    rw [hcomp]
    exact List.map_congr_left fun p _ => (htwice p).symm
  | _ => exact hmap

theorem blank_foldl (h : Row.Agree pid r r') (queue : List SdkEvent) (rows : List Row) :
    (queue.foldl (fun prev e => updateParticipants r e prev) rows).map (Row.blank pid) =
      (queue.foldl (fun prev e => updateParticipants r' e prev) rows).map (Row.blank pid) := by
  have hself : Row.Agree pid r' r' := fun _ _ => ⟨rfl, rfl⟩
  induction queue using List.reverseRecOn with
  | nil => rfl
  | append_singleton queue e ih =>
    rw [List.foldl_append, List.foldl_append, List.foldl_cons, List.foldl_cons, List.foldl_nil,
      List.foldl_nil, blank_updateParticipants h, ih, ← blank_updateParticipants hself]

/-- **An event that writes the refs** writes them for one participant, and its updater
overwrites the camera in the rows of that participant, or takes them away. -/
theorem next_cases (r : Refs) (e : SdkEvent) : r.next e = r ∨ ∃ pid, Row.Agree pid r (r.next e) ∧
    ∀ r' rows,
      updateParticipants r' e (rows.map (Row.blank pid)) = updateParticipants r' e rows := by
  cases e with
  | participantLeft pid userId =>
    refine .inr ⟨pid, fun q hq => ?_, fun r' rows => ?_⟩
    · simp [Refs.next, hq]
    · simp only [updateParticipants, List.filter_map]
      have hcomp : (fun p : Row => decide (p.participantId ≠ pid)) ∘ Row.blank pid =
          fun p => decide (p.participantId ≠ pid) := by
        funext p
        simp
      rw [hcomp]
      refine (List.map_congr_left fun p hp => ?_).trans (List.map_id _)
      exact if_neg (of_decide_eq_true (List.mem_filter.mp hp).2)
  | trackAdded pid track stream source kind =>
    by_cases hcamera : source = "camera" ∧ kind = "video"
    · obtain ⟨rfl, rfl⟩ := hcamera
      refine .inr ⟨pid, fun q hq => ?_, fun r' rows => ?_⟩
      · simp [Refs.next, hq]
      · refine List.map_map.trans (List.map_congr_left fun p _ => ?_)
        by_cases hp : p.participantId = pid
        · simp [Row.update, Row.trackAdded, Row.blank, hp]
        · simp [Row.update, Row.blank, hp]
    · exact .inl (if_neg hcamera)
  | trackMuted pid trackKind muted =>
    by_cases hvideo : trackKind = "video"
    · subst hvideo
      refine .inr ⟨pid, fun q hq => ?_, fun r' rows => ?_⟩
      · simp [Refs.next, hq]
      · refine List.map_map.trans (List.map_congr_left fun p _ => ?_)
        by_cases hp : p.participantId = pid
        · simp [Row.update, Row.trackMuted, Row.blank, hp]
        · simp [Row.update, Row.blank, hp]
    · exact .inl (if_neg hvideo)
  | _ => exact .inl rfl

/-- **Nobody sees when the updaters are applied**: the rows are what they would be if each
updater were applied when its event comes. -/
theorem settled_onEvent (v : CallView) (e : SdkEvent) :
    (v.onEvent e).settled = updateParticipants (v.refs.next e) e v.settled := by
  have hqueue : (v.onEvent e).settled = updateParticipants (v.refs.next e) e
      (v.queue.foldl (fun prev e' => updateParticipants (v.refs.next e) e' prev) v.participants) :=
    List.foldl_append
  rw [hqueue]
  rcases next_cases v.refs e with heq | ⟨pid, hagree, hblank⟩
  · rw [heq, settled]
  · rw [← hblank, ← blank_foldl hagree, hblank]
    rfl

end CallView

/-! ### What is to be shown -/

/-- What has been heard of the camera of each participant since it joined. -/
structure Heard where
  /-- The last signal: whether it says that the camera is muted. -/
  signal : String → Option Bool
  /-- The last track. -/
  arrived : String → Option ℕ

namespace Heard

def new : Heard := ⟨fun _ => none, fun _ => none⟩

def next (h : Heard) : SdkEvent → Heard
  | .participantJoined participant =>
    ⟨Function.update h.signal participant.participantId none,
      Function.update h.arrived participant.participantId none⟩
  | .trackAdded pid track _ source kind =>
    if source = "camera" ∧ kind = "video" then
      { h with arrived := Function.update h.arrived pid (some track) }
    else h
  | .trackMuted pid trackKind muted =>
    if trackKind = "video" then { h with signal := Function.update h.signal pid (some muted) }
    else h
  | _ => h

/-- **What a row is to show**: the last track, if the last signal says that the camera is on. -/
def shown (h : Heard) (pid : String) : Option ℕ :=
  if h.signal pid = some false then h.arrived pid else none

end Heard

/-- The UI of a call, and what it has heard. -/
structure Tiles where
  view : CallView
  heard : Heard

namespace Tiles

def new : Tiles := ⟨.new, .new⟩

/-- An event, or React applying the updaters. -/
def next (s : Tiles) : Option SdkEvent → Tiles
  | some e => ⟨s.view.onEvent e, s.heard.next e⟩
  | none => { s with view := s.view.flush }

/-- **The tiles are right.** -/
def Right (s : Tiles) : Prop :=
  ∀ p ∈ s.view.settled, p.videoTrack = s.heard.shown p.participantId

/-- Somebody has a row. -/
def HasRow (s : Tiles) (pid : String) : Prop := ∃ p ∈ s.view.settled, p.participantId = pid

/-- **The condition on a step.** One who joins has no track, and no row that shows one; a track of
somebody who has a row finds the camera among those that are on exactly if the last signal since
the join says so; a signal that the camera is on finds in the map the last track since the join;
no track that is to be shown is taken away. -/
def Fits (s : Tiles) : Option SdkEvent → Prop
  | some (.participantJoined participant) => participant.videoTrack = none ∧
    ∀ p ∈ s.view.settled, p.participantId = participant.participantId → p.videoTrack = none
  | some (.trackAdded pid _ _ source kind) => source = "camera" → kind = "video" → s.HasRow pid →
    (s.view.refs.cameraOn pid = true ↔ s.heard.signal pid = some false)
  | some (.trackRemoved pid source kind) => source = "camera" → kind = "video" → s.HasRow pid →
    s.heard.shown pid = none
  | some (.trackMuted pid trackKind muted) => trackKind = "video" → muted = false → s.HasRow pid →
    s.view.refs.videoTrack pid = s.heard.arrived pid
  | _ => True

variable {s : Tiles}

theorem settled_next (s : Tiles) (e : SdkEvent) : (s.next (some e)).view.settled =
    updateParticipants (s.view.refs.next e) e s.view.settled := s.view.settled_onEvent e

/-- After an event whose updater goes through the rows. -/
theorem right_next_iff {e : SdkEvent}
    (hmap : updateParticipants (s.view.refs.next e) e s.view.settled =
      s.view.settled.map (Row.update (s.view.refs.next e) e)) :
    (s.next (some e)).Right ↔ ∀ p ∈ s.view.settled,
      (p.update (s.view.refs.next e) e).videoTrack = (s.heard.next e).shown p.participantId := by
  rw [Right, settled_next, hmap, List.forall_mem_map]
  refine forall₂_congr fun p _ => ?_
  rw [Row.participantId_update]
  rfl

/-- An event that changes the cameras of nobody, and nothing that is to be shown. -/
theorem Right.aside (h : s.Right) {e : SdkEvent}
    (hmap : updateParticipants (s.view.refs.next e) e s.view.settled =
      s.view.settled.map (Row.update (s.view.refs.next e) e))
    (hcamera : ∀ p : Row, (p.update (s.view.refs.next e) e).videoTrack = p.videoTrack)
    (hheard : s.heard.next e = s.heard) : (s.next (some e)).Right := by
  rw [right_next_iff hmap, hheard]
  intro p hp
  rw [hcamera]
  exact h p hp

/-- An event that sets the cameras of one participant. -/
theorem Right.next_iff_of_sets (h : s.Right) {e : SdkEvent} {pid : String} {shows : Option ℕ}
    (hmap : updateParticipants (s.view.refs.next e) e s.view.settled =
      s.view.settled.map (Row.update (s.view.refs.next e) e))
    (hown : ∀ p : Row, p.participantId = pid →
      (p.update (s.view.refs.next e) e).videoTrack = shows)
    (hother : ∀ p : Row, p.participantId ≠ pid → p.update (s.view.refs.next e) e = p)
    (hheard : ∀ q, q ≠ pid → (s.heard.next e).shown q = s.heard.shown q) :
    (s.next (some e)).Right ↔ (s.HasRow pid → shows = (s.heard.next e).shown pid) := by
  rw [right_next_iff hmap]
  constructor
  · rintro hall ⟨p, hp, rfl⟩
    rw [← hown p rfl]
    exact hall p hp
  · intro hshows p hp
    by_cases hpid : p.participantId = pid
    · rw [hown p hpid, hpid]
      exact hshows ⟨p, hp, hpid⟩
    · rw [hother p hpid, hheard _ hpid]
      exact h p hp

/-- **Exactly the steps that meet the condition** leave the tiles right. -/
theorem Right.next_iff (h : s.Right) (a : Option SdkEvent) : (s.next a).Right ↔ s.Fits a := by
  rcases a with _ | e
  · exact iff_of_true h trivial
  cases e with
  | participantJoined participant =>
    have hshown (q : String) : (s.heard.next (.participantJoined participant)).shown q =
        if q = participant.participantId then none else s.heard.shown q := by
      by_cases hq : q = participant.participantId
      · simp [Heard.next, Heard.shown, hq]
      · simp [Heard.next, Heard.shown, hq]
    have hrows : (s.next (some (.participantJoined participant))).view.settled =
        s.view.settled ++ [.new participant] := settled_next s _
    rw [Right, hrows, List.forall_mem_append, List.forall_mem_singleton, and_comm]
    refine and_congr ?_ (forall₂_congr fun p hp => ?_)
    · have hnew := hshown participant.participantId
      rw [if_pos rfl] at hnew
      change participant.videoTrack =
        (s.heard.next (.participantJoined participant)).shown participant.participantId ↔ _
      rw [hnew]
    · change p.videoTrack = (s.heard.next (.participantJoined participant)).shown _ ↔ _
      rw [hshown]
      split_ifs with hpid
      · exact (true_imp_iff.symm.trans (imp_congr_left (iff_of_true trivial hpid)))
      · exact iff_of_true (h p hp) fun heq => absurd heq hpid
  | participantLeft pid userId =>
    have hrows : (s.next (some (.participantLeft pid userId))).view.settled =
        s.view.settled.filter fun p => p.participantId ≠ pid := settled_next s _
    refine iff_of_true (fun p hp => ?_) trivial
    rw [hrows] at hp
    exact h p (List.mem_filter.mp hp).1
  | trackAdded pid track stream source kind =>
    by_cases hcamera : source = "camera" ∧ kind = "video"
    · obtain ⟨rfl, rfl⟩ := hcamera
      rw [@next_iff_of_sets s h _ pid (if s.view.refs.cameraOn pid then some track else none) rfl]
      · have hshown : (s.heard.next (.trackAdded pid track stream "camera" "video")).shown pid =
            if s.heard.signal pid = some false then some track else none := by
          simp [Heard.next, Heard.shown]
        rw [hshown]
        simp only [Fits, true_imp_iff]
        refine imp_congr_right fun _ => ?_
        split_ifs <;> simp_all
      · rintro p rfl
        simp [Row.update, Row.trackAdded, Refs.next]
      · intro p hp
        simp [Row.update, hp]
      · intro q hq
        simp [Heard.next, Heard.shown, hq]
    · refine iff_of_true (h.aside rfl (fun p => ?_) (if_neg hcamera)) ?_
      · dsimp only [Row.update, Row.trackAdded]
        split_ifs <;> rfl
      · exact fun hsource hkind => absurd ⟨hsource, hkind⟩ hcamera
  | trackRemoved pid source kind =>
    by_cases hcamera : source = "camera" ∧ kind = "video"
    · obtain ⟨rfl, rfl⟩ := hcamera
      rw [@next_iff_of_sets s h _ pid none rfl]
      · simp only [Fits, true_imp_iff]
        exact imp_congr_right fun _ => eq_comm
      · rintro p rfl
        simp [Row.update, Row.trackRemoved]
      · intro p hp
        simp [Row.update, hp]
      · exact fun _ _ => rfl
    · refine iff_of_true (h.aside rfl (fun p => ?_) rfl) ?_
      · dsimp only [Row.update, Row.trackRemoved]
        split_ifs <;> rfl
      · exact fun hsource hkind => absurd ⟨hsource, hkind⟩ hcamera
  | trackMuted pid trackKind muted =>
    by_cases hvideo : trackKind = "video"
    · subst hvideo
      rw [@next_iff_of_sets s h _ pid (if muted then none else s.view.refs.videoTrack pid) rfl]
      · have hshown : (s.heard.next (.trackMuted pid "video" muted)).shown pid =
            if muted then none else s.heard.arrived pid := by
          cases muted <;> simp [Heard.next, Heard.shown]
        rw [hshown]
        cases muted <;> simp [Fits]
      · rintro p rfl
        simp [Row.update, Row.trackMuted, Refs.next]
      · intro p hp
        simp [Row.update, hp]
      · intro q hq
        simp [Heard.next, Heard.shown, hq]
    · refine iff_of_true (h.aside rfl (fun p => ?_) (if_neg hvideo)) fun hkind =>
        absurd hkind hvideo
      dsimp only [Row.update, Row.trackMuted]
      split_ifs <;> rfl
  | deafenChanged pid deafened =>
    refine iff_of_true (h.aside rfl (fun p => ?_) rfl) trivial
    dsimp only [Row.update]
    split_ifs <;> rfl
  | speakingChanged pid speaking =>
    refine iff_of_true (h.aside rfl (fun p => ?_) rfl) trivial
    dsimp only [Row.update]
    split_ifs <;> rfl
  | _ => exact iff_of_true (h.aside rfl (fun _ => rfl) rfl) trivial

/-! ### Joins that find nothing -/

/-- A step that leaves no doubt: one who joins has no row, and nothing beside the rows, and no
camera track is taken away. -/
def Clean (s : Tiles) : Option SdkEvent → Prop
  | some (.participantJoined participant) => participant.videoTrack = none ∧
    ¬ s.HasRow participant.participantId ∧
    s.view.refs.cameraOn participant.participantId = false ∧
    s.view.refs.videoTrack participant.participantId = none
  | some (.trackRemoved _ source kind) => ¬ (source = "camera" ∧ kind = "video")
  | _ => True

/-- What is beside the rows, of one who has a row, is what has been heard. -/
def Linked (s : Tiles) : Prop := ∀ pid, s.HasRow pid →
  (s.view.refs.cameraOn pid = true ↔ s.heard.signal pid = some false) ∧
    s.view.refs.videoTrack pid = s.heard.arrived pid

theorem Linked.fits (h : s.Linked) {a : Option SdkEvent} (ha : s.Clean a) : s.Fits a := by
  rcases a with _ | e
  · trivial
  cases e with
  | participantJoined participant =>
    exact ⟨ha.1, fun p hp hpid => absurd ⟨p, hp, hpid⟩ ha.2.1⟩
  | trackAdded pid _ _ _ _ => exact fun _ _ hrow => (h pid hrow).1
  | trackRemoved pid source kind => exact fun hsource hkind => absurd ⟨hsource, hkind⟩ ha
  | trackMuted pid _ _ => exact fun _ _ hrow => (h pid hrow).2
  | _ => trivial

theorem HasRow.of_map {e : SdkEvent} {pid : String} (h : (s.next (some e)).HasRow pid)
    (hmap : updateParticipants (s.view.refs.next e) e s.view.settled =
      s.view.settled.map (Row.update (s.view.refs.next e) e)) : s.HasRow pid := by
  obtain ⟨p', hp', rfl⟩ := h
  rw [settled_next, hmap] at hp'
  obtain ⟨p, hp, rfl⟩ := List.mem_map.mp hp'
  exact ⟨p, hp, (Row.participantId_update ..).symm⟩

theorem Linked.joined (h : s.Linked) {participant : SdkParticipant}
    (ha : s.Clean (some (.participantJoined participant))) :
    (s.next (some (.participantJoined participant))).Linked := by
  rintro pid ⟨p, hp, rfl⟩
  have hrows : (s.next (some (.participantJoined participant))).view.settled =
      s.view.settled ++ [.new participant] := settled_next s _
  rw [hrows] at hp
  by_cases hpid : p.participantId = participant.participantId
  · simp [Tiles.next, CallView.onEvent, Refs.next, Heard.next, hpid, ha.2.2.1, ha.2.2.2]
  · rcases List.mem_append.mp hp with hp | hp
    · simpa [Tiles.next, CallView.onEvent, Refs.next, Heard.next, hpid] using h _ ⟨p, hp, rfl⟩
    · rw [List.mem_singleton.mp hp] at hpid
      exact absurd rfl hpid

theorem Linked.left (h : s.Linked) (q userId : String) :
    (s.next (some (.participantLeft q userId))).Linked := by
  rintro pid ⟨p, hp, rfl⟩
  have hrows : (s.next (some (.participantLeft q userId))).view.settled =
      s.view.settled.filter fun p => p.participantId ≠ q := settled_next s _
  rw [hrows] at hp
  obtain ⟨hp, hq⟩ := List.mem_filter.mp hp
  have hne : p.participantId ≠ q := of_decide_eq_true hq
  simpa [Tiles.next, CallView.onEvent, Refs.next, Heard.next, hne] using h _ ⟨p, hp, rfl⟩

theorem Linked.next (h : s.Linked) {a : Option SdkEvent} (ha : s.Clean a) : (s.next a).Linked := by
  rcases a with _ | e
  · exact h
  cases e with
  | participantJoined participant => exact h.joined ha
  | participantLeft q userId => exact h.left q userId
  | trackAdded q track stream source kind =>
    intro pid hrow
    obtain ⟨hcamera, htrack⟩ := h pid (hrow.of_map rfl)
    by_cases hq : pid = q
    · subst hq
      dsimp only [Tiles.next, CallView.onEvent, Refs.next, Heard.next]
      split_ifs <;> simp [hcamera, htrack]
    · dsimp only [Tiles.next, CallView.onEvent, Refs.next, Heard.next]
      split_ifs <;> simp [hq, hcamera, htrack]
  | trackMuted q kind muted =>
    intro pid hrow
    obtain ⟨hcamera, htrack⟩ := h pid (hrow.of_map rfl)
    by_cases hq : pid = q
    · subst hq
      dsimp only [Tiles.next, CallView.onEvent, Refs.next, Heard.next]
      split_ifs <;> simp [hcamera, htrack]
    · dsimp only [Tiles.next, CallView.onEvent, Refs.next, Heard.next]
      split_ifs <;> simp [hq, hcamera, htrack]
  | _ =>
    intro pid hrow
    exact h pid (hrow.of_map rfl)

theorem accepted_of_clean {acts : List (Option SdkEvent)} (h : System.Accepted Clean next s acts)
    (hs : s.Linked) : System.Accepted Fits next s acts := by
  induction acts generalizing s with
  | nil => trivial
  | cons a acts ih => exact ⟨hs.fits h.1, ih h.2 (hs.next h.1)⟩

theorem linked_new : new.Linked := by
  rintro pid ⟨p, hp, -⟩
  exact absurd hp List.not_mem_nil

end Tiles

/-! ### Reorderings -/

namespace SdkEvent

/-- The participant that an event is about. -/
def about? : SdkEvent → Option String
  | .participantJoined participant => some participant.participantId
  | .participantLeft pid _ => some pid
  | .trackAdded pid _ _ _ _ => some pid
  | .trackRemoved pid _ _ => some pid
  | .trackMuted pid _ _ => some pid
  | .deafenChanged pid _ => some pid
  | .speakingChanged pid _ => some pid
  | .screenShareStarted pid => some pid
  | .screenShareStopped pid => some pid
  | _ => none

/-- A track of the camera of a participant. -/
def IsTrack (pid : String) (e : SdkEvent) : Prop :=
  ∃ track stream, e = .trackAdded pid track stream "camera" "video"

/-- A signal that the camera of a participant is muted, or is not. -/
def IsSignal (pid : String) (e : SdkEvent) : Prop := ∃ muted, e = .trackMuted pid "video" muted

/-- **Two events whose order is not fixed**: a track and a signal of one participant, or one of
these and an event that is not about the participant. -/
def Passes (pid : String) (a b : SdkEvent) : Prop :=
  a.IsTrack pid ∧ b.IsSignal pid ∨ a.IsSignal pid ∧ b.IsTrack pid ∨
  (a.IsTrack pid ∨ a.IsSignal pid) ∧ b.about? ≠ some pid ∨
  a.about? ≠ some pid ∧ (b.IsTrack pid ∨ b.IsSignal pid)

end SdkEvent

namespace CallView

variable {r r' : Refs} {e a b : SdkEvent} {pid : String} {rows : List Row} {p : Row}

/-- The refs and the rows after an event whose updater is applied when it comes. -/
def atOnce (x : Refs × List Row) (e : SdkEvent) : Refs × List Row :=
  (x.1.next e, updateParticipants (x.1.next e) e x.2)

theorem update_of_about_ne (h : e.about? ≠ some p.participantId) : p.update r e = p := by
  cases e with
  | trackAdded pid _ _ _ _ | trackRemoved pid _ _ | trackMuted pid _ _ =>
    exact if_pos fun heq => h (congrArg some heq.symm)
  | deafenChanged pid _ | speakingChanged pid _ =>
    exact if_neg fun heq => h (congrArg some heq.symm)
  | _ => rfl

theorem next_of_about_ne (h : e.about? ≠ some pid) (r : Refs) :
    (r.next e).cameraOn pid = r.cameraOn pid ∧ (r.next e).videoTrack pid = r.videoTrack pid := by
  have hne {q : String} (hq : e.about? = some q) : pid ≠ q := by
    rintro rfl
    exact h hq
  cases e with
  | participantLeft q _ => simp [Refs.next, hne rfl]
  | trackAdded q _ _ source kind =>
    dsimp only [Refs.next]
    split_ifs <;> simp [hne rfl]
  | trackMuted q kind _ =>
    dsimp only [Refs.next]
    split_ifs <;> simp [hne rfl]
  | _ => exact ⟨rfl, rfl⟩

/-- What is heard of the camera of a participant goes through the rows. -/
theorem updateParticipants_camera (h : a.IsTrack pid ∨ a.IsSignal pid) (r : Refs)
    (rows : List Row) : updateParticipants r a rows = rows.map (Row.update r a) := by
  rcases h with ⟨track, stream, rfl⟩ | ⟨muted, rfl⟩ <;> rfl

theorem about_camera (h : a.IsTrack pid ∨ a.IsSignal pid) : a.about? = some pid := by
  rcases h with ⟨track, stream, rfl⟩ | ⟨muted, rfl⟩ <;> rfl

theorem next_next_comm (ha : a.IsTrack pid ∨ a.IsSignal pid) (hb : b.about? ≠ some pid) (r : Refs) :
    (r.next a).next b = (r.next b).next a := by
  have hne {q : String} (hq : b.about? = some q) : q ≠ pid := by
    rintro rfl
    exact hb hq
  cases b with
  | participantLeft q _ =>
    rcases ha with ⟨track, stream, rfl⟩ | ⟨muted, rfl⟩
    · simp [Refs.next, Function.update_comm (hne rfl)]
    · simp [Refs.next, Function.update_comm (hne rfl)]
  | trackAdded q track' stream' source kind =>
    rcases ha with ⟨track, stream, rfl⟩ | ⟨muted, rfl⟩
    · dsimp only [Refs.next]
      split_ifs <;> simp [Function.update_comm (hne rfl)]
    · dsimp only [Refs.next]
      split_ifs <;> rfl
  | trackMuted q kind muted' =>
    rcases ha with ⟨track, stream, rfl⟩ | ⟨muted, rfl⟩
    · dsimp only [Refs.next]
      split_ifs <;> rfl
    · dsimp only [Refs.next]
      split_ifs <;> simp [Function.update_comm (hne rfl)]
  | _ => rfl

/-- An event about somebody else, or about nobody. -/
theorem atOnce_comm_other (ha : a.IsTrack pid ∨ a.IsSignal pid) (hb : b.about? ≠ some pid)
    (x : Refs × List Row) : atOnce (atOnce x a) b = atOnce (atOnce x b) a := by
  obtain ⟨r, rows⟩ := x
  have hrefs := next_next_comm ha hb r
  refine Prod.ext hrefs ?_
  dsimp only [atOnce]
  rw [updateParticipants_camera ha, updateParticipants_camera ha, hrefs]
  generalize hr' : (r.next b).next a = r'
  -- the rows of the participant do not see `b`, and the other rows do not see `a`
  have hown (p : Row) (hp : p.participantId = pid) : p.update (r.next a) a = p.update r' a := by
    obtain ⟨hcamera, htrack⟩ := next_of_about_ne (hp ▸ hb) (r.next a)
    rw [hrefs, hr'] at hcamera htrack
    exact Row.update_congr hcamera.symm htrack.symm a
  have hother (p : Row) (hp : p.participantId ≠ pid) (r : Refs) : p.update r a = p :=
    update_of_about_ne (by rw [about_camera ha]; exact fun heq => hp (Option.some.inj heq).symm)
  have hread (p : Row) (hp : p.participantId ≠ pid) : p.update r' b = p.update (r.next b) b := by
    have hnot : a.about? ≠ some p.participantId := by
      rw [about_camera ha]
      exact fun heq => hp (Option.some.inj heq).symm
    obtain ⟨hcamera, htrack⟩ := next_of_about_ne hnot (r.next b)
    rw [hr'] at hcamera htrack
    exact Row.update_congr hcamera htrack b
  have hmap : (rows.map (Row.update (r.next a) a)).map (Row.update r' b) =
      (rows.map (Row.update (r.next b) b)).map (Row.update r' a) := by
    rw [List.map_map, List.map_map]
    refine List.map_congr_left fun p _ => ?_
    dsimp only [Function.comp_apply]
    by_cases hp : p.participantId = pid
    · have hlater : Row.update r' b (p.update (r.next a) a) = p.update (r.next a) a :=
        update_of_about_ne (by rwa [Row.participantId_update, hp])
      have hfirst : p.update (r.next b) b = p := update_of_about_ne (hp ▸ hb)
      rw [hlater, hfirst, hown p hp]
    · rw [hother p hp, hread p hp]
      exact (hother _ (by rwa [Row.participantId_update]) r').symm
  have hfirst : rows.map (Row.update (r.next a) a) = rows.map (Row.update r' a) := by
    refine List.map_congr_left fun p _ => ?_
    by_cases hp : p.participantId = pid
    · exact hown p hp
    · rw [hother p hp, hother p hp]
  cases b with
  | participantJoined participant =>
    have hnew : Row.update r' a (.new participant) = .new participant :=
      hother _ (fun heq => hb (congrArg some heq)) r'
    dsimp only [updateParticipants]
    rw [List.map_append, List.map_singleton, hnew, hfirst]
  | participantLeft q userId =>
    dsimp only [updateParticipants]
    rw [hfirst, List.filter_map]
    have hcomp : (fun p : Row => decide (p.participantId ≠ q)) ∘ Row.update r' a =
        fun p => decide (p.participantId ≠ q) := by
      funext p
      simp
    rw [hcomp]
  | _ => exact hmap

/-- A track and a signal of one participant: the camera shows the track if it is on. -/
theorem atOnce_comm_own (ha : a.IsTrack pid) (hb : b.IsSignal pid) (x : Refs × List Row) :
    atOnce (atOnce x a) b = atOnce (atOnce x b) a := by
  obtain ⟨track, stream, rfl⟩ := ha
  obtain ⟨muted, rfl⟩ := hb
  refine Prod.ext rfl ?_
  dsimp only [atOnce]
  rw [updateParticipants_camera (.inl ⟨_, _, rfl⟩), updateParticipants_camera (.inr ⟨_, rfl⟩),
    updateParticipants_camera (.inl ⟨_, _, rfl⟩), updateParticipants_camera (.inr ⟨_, rfl⟩),
    List.map_map, List.map_map]
  refine List.map_congr_left fun p _ => ?_
  by_cases hp : p.participantId = pid
  · cases muted <;> simp [Row.update, Row.trackAdded, Row.trackMuted, Refs.next, hp]
  · simp [Row.update, hp]

theorem atOnce_comm (h : SdkEvent.Passes pid a b) (x : Refs × List Row) :
    atOnce (atOnce x a) b = atOnce (atOnce x b) a := by
  rcases h with ⟨ha, hb⟩ | ⟨ha, hb⟩ | ⟨ha, hb⟩ | ⟨ha, hb⟩
  · exact atOnce_comm_own ha hb x
  · exact (atOnce_comm_own hb ha x).symm
  · exact atOnce_comm_other ha hb x
  · exact (atOnce_comm_other hb ha x).symm

end CallView

namespace Tiles

/-- The refs and the rows, whenever the updaters have been applied. -/
theorem foldl_next (s : Tiles) (acts : List (Option SdkEvent)) :
    ((acts.foldl next s).view.refs, (acts.foldl next s).view.settled) =
      acts.reduceOption.foldl CallView.atOnce (s.view.refs, s.view.settled) := by
  induction acts generalizing s with
  | nil => rfl
  | cons a acts ih =>
    rw [List.foldl_cons, ih]
    rcases a with _ | e
    · rfl
    · rw [List.reduceOption_cons_of_some, List.foldl_cons, CallView.atOnce, ← settled_next]
      rfl

end Tiles

open Tiles in
/-- **When the camera tiles are right.** If nobody who joins finds anything of a former stay, in a
row or beside the rows, the tiles are right after each event. In a run of any events, they are so
if and only if every step meets the condition. And runs whose events differ by the order of the
tracks and the signals of a participant end with the same rows, whenever React applies the
updaters. -/
theorem tiles_iff (acts : List (Option SdkEvent)) :
    (System.Accepted Clean next new acts → ∀ n, ((acts.take n).foldl next new).Right) ∧
    ((∀ n, ∀ p ∈ ((acts.take n).foldl next new).view.settled,
        p.videoTrack = ((acts.take n).foldl next new).heard.shown p.participantId) ↔
      System.Accepted Fits next new acts) ∧
    ∀ (pid : String) (acts' : List (Option SdkEvent)),
      Reordered (SdkEvent.Passes pid) acts.reduceOption acts'.reduceOption →
      (acts.foldl next new).view.settled = (acts'.foldl next new).view.settled := by
  have hexact : System.Accepted Fits next new acts ↔
      ∀ n, ((acts.take n).foldl next new).Right :=
    System.accepted_iff_forall_take (I := Right) (fun s a hs => hs.next_iff a)
      (fun p hp => absurd hp List.not_mem_nil) acts
  refine ⟨fun hclean => ?_, hexact.symm, fun pid acts' h => ?_⟩
  · exact hexact.mp (accepted_of_clean hclean linked_new)
  · have hsame := h.foldl_eq (fun a b hab x => CallView.atOnce_comm hab x)
      (new.view.refs, new.view.settled)
    rw [← foldl_next, ← foldl_next] at hsame
    exact congrArg Prod.snd hsame

open Tiles in
/-- One who joins is seen with the camera, whether the track or the signal comes first. -/
theorem tiles_iff_alice :
    let alice : SdkParticipant := ⟨"1", "alice", none, none, none, none, true, false⟩
    let acts := [some (.participantJoined alice), some (.trackAdded "1" 5 "s" "camera" "video"),
      some (.trackMuted "1" "video" false)]
    let acts' := [some (.participantJoined alice), none, some (.trackMuted "1" "video" false),
      some (.trackAdded "1" 5 "s" "camera" "video"), none]
    System.Accepted Clean next new acts ∧
      (∀ n, ∀ p ∈ ((acts.take n).foldl next new).view.settled,
        p.videoTrack = ((acts.take n).foldl next new).heard.shown p.participantId) ∧
      (acts.foldl next new).view.settled = (acts'.foldl next new).view.settled ∧
      ∃ p ∈ (acts.foldl next new).view.settled, p.videoTrack = some 5 := by
  intro alice acts acts'
  have hclean : System.Accepted Clean next new acts := by
    refine ⟨⟨rfl, ?_, rfl, rfl⟩, trivial, trivial, trivial⟩
    rintro ⟨p, hp, -⟩
    exact List.not_mem_nil hp
  exact ⟨hclean, (tiles_iff acts).1 hclean,
    (tiles_iff acts).2.2 "1" acts' (.swap [_] [] (.inl ⟨⟨5, "s", rfl⟩, ⟨false, rfl⟩⟩)), by decide⟩

/-! ### What is left of a former stay -/

namespace SdkClient

def new : SdkClient := ⟨false, false, ∅, [], ∅, ∅⟩

/-- A step of the SDK can be taken: a message is one that the SFU can send. -/
def Act.Legal : Act → Prop
  | .message msg => msg.Legal
  | _ => True

/-- The state of the SDK after a step. -/
def act (c : SdkClient) : Act → SdkClient
  | .message msg => c.handleServerMessage msg
  | .track streamId kind track => c.ontrack streamId kind track
  | .screenEnded i => c.screenEnded i
  | .connect => c.connect
  | .disconnect => c.disconnect

theorem step_act (c : SdkClient) {a : Act} (ha : a.Legal) : Step c a (c.act a) := by
  cases a with
  | message msg => exact .message ha
  | track _ _ _ => exact .track
  | screenEnded _ => exact .screenEnded
  | connect => exact .connect
  | disconnect => exact .disconnect

theorem reachable_act {acts : List Act} (h : ∀ a ∈ acts, a.Legal) :
    system.Reachable (acts.foldl act new) := by
  induction acts using List.reverseRecOn with
  | nil => exact .start rfl
  | append_singleton acts a ih =>
    rw [List.foldl_append]
    have hreach := ih fun b hb => h b (List.mem_append_left _ hb)
    exact hreach.step trivial
      (step_act _ (h a (List.mem_append_right _ (List.mem_singleton_self a))))

/-- The events of a run. -/
def run : SdkClient → List Act → List SdkEvent
  | _, [] => []
  | c, a :: acts => c.emits a ++ run (c.act a) acts

/-- Participant 1 is seen, and leaves; a track of it comes late. It joins again, and says that
its camera is on. -/
def lateTrack : List Act :=
  [.connect, .message (.answer "" 0), .message (.participantJoined 1 "alice"),
    .message (.offer "" (some [camera 1])), .track (some (streamIdFor 1 .camera .video)) .video 5,
    .message (.participantMuted 1 "video" false), .message (.participantLeft 1 "alice"),
    .track (some (streamIdFor 1 .camera .video)) .video 6,
    .message (.participantJoined 1 "alice"), .message (.participantMuted 1 "video" false)]

theorem legal_lateTrack : ∀ a ∈ lateTrack, a.Legal := by
  simp [lateTrack, Act.Legal, ServerMessage.Legal, legal_camera]

end SdkClient

open Tiles in
/-- **A track of the former stay**: the SDK can come to emit these events, and they leave a row
of participant 1 that shows a camera, of whom no track has come since it joined. -/
theorem tile_of_former_stay :
    let events := (SdkClient.new.run SdkClient.lateTrack).map some
    SdkClient.system.Reachable (SdkClient.lateTrack.foldl SdkClient.act SdkClient.new) ∧
      ∃ p ∈ (events.foldl next new).view.settled, p.participantId = Uuid.hyphenated 1 ∧
        p.videoTrack = some 6 ∧ (events.foldl next new).heard.arrived p.participantId = none :=
  ⟨SdkClient.reachable_act SdkClient.legal_lateTrack, by decide +kernel⟩

end Video

end MateHub
