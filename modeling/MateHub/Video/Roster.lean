import MateHub.Video.Ownership
import MateHub.Video.Registry
import MateHub.Video.Sfu.Offers

/-!
# Who is in a call, as its clients see it

A connection that registers is told who is there, and everybody there is told of it. From
then on each client follows by the messages that the handlers send: the SDK keeps a map of
the participants, the UI a list.

A connection that comes back takes over the slot of its participant, of which nobody is
told. It is greeted with its own participant then, and the others append to their lists a
participant that is there already (`MateHub.Video.roster_repeated`). In the runs in which
each registration finds no slot of its participant, and no outbox is full, a client shows
exactly the others in its session, each once, and as their slots are
(`MateHub.Video.roster_agrees`).
-/

namespace MateHub

namespace Video

/-! ### The client -/

/-- `Participant` of the SDK: what a client shows of somebody else. -/
structure RemoteParticipant where
  participantId : ParticipantId
  userId : String
  isMicMuted : Bool
  isDeafened : Bool
  deriving DecidableEq, Repr

/-- `VideoClientEvent`: what the SDK tells the UI about participants. -/
inductive VideoClientEvent
  | participantJoined (participant : RemoteParticipant)
  | participantLeft (participantId : ParticipantId) (userId : String)
  | trackMuted (participantId : ParticipantId) (trackKind : String) (muted : Bool)
  | deafenChanged (participantId : ParticipantId) (deafened : Bool)
  deriving DecidableEq, Repr

/-- What a client knows of the others: the map of the SDK, by their ids, and the list of the
UI. -/
structure Roster where
  participants : Dict ParticipantId RemoteParticipant := ∅
  prev : List RemoteParticipant := []

namespace Roster

/-- `handleServerMessage` of the SDK, with the event that it emits. -/
def handleServerMessage (participants : Dict ParticipantId RemoteParticipant) :
    ServerMessage → Dict ParticipantId RemoteParticipant × Option VideoClientEvent
  | .participantJoined pid userId =>
    let p : RemoteParticipant := ⟨pid, userId, true, false⟩
    (participants.insert pid p, some (.participantJoined p))
  | .participantLeft pid userId => (participants.erase pid, some (.participantLeft pid userId))
  | .participantMuted pid kind muted =>
    (if kind = "audio" then participants.modify pid fun p => { p with isMicMuted := muted }
      else participants, some (.trackMuted pid kind muted))
  | .participantDeafened pid deafened =>
    (participants.modify pid fun p => { p with isDeafened := deafened },
      some (.deafenChanged pid deafened))
  | _ => (participants, none)

/-- What `useVideoClient` makes of an event. -/
def onEvent (prev : List RemoteParticipant) : VideoClientEvent → List RemoteParticipant
  | .participantJoined participant => prev ++ [participant]
  | .participantLeft pid _ => prev.filter fun p => p.participantId ≠ pid
  | .trackMuted pid trackKind muted => prev.map fun p =>
    if p.participantId ≠ pid then p
    else if trackKind = "audio" then { p with isMicMuted := muted } else p
  | .deafenChanged pid deafened => prev.map fun p =>
    if p.participantId = pid then { p with isDeafened := deafened } else p

/-- A message, in the SDK and then in the UI. -/
def handle (r : Roster) (msg : ServerMessage) : Roster where
  participants := (handleServerMessage r.participants msg).1
  prev := (handleServerMessage r.participants msg).2.elim r.prev (onEvent r.prev)

/-- **A client shows** what a function says of each id: it is in the map, and in the list
exactly once; or in neither. -/
structure Shows (r : Roster) (f : ParticipantId → Option RemoteParticipant) : Prop where
  lookup : ∀ pid, r.participants.lookup pid = f pid
  filter : ∀ pid, r.prev.filter (fun p => p.participantId = pid) = (f pid).toList

variable {r : Roster} {f : ParticipantId → Option RemoteParticipant} {pid : ParticipantId}

/-- A new roster shows nobody. -/
theorem shows_new : Shows {} fun _ => none := ⟨fun _ => rfl, fun _ => rfl⟩

/-- Who joins is shown. -/
theorem Shows.joined (h : r.Shows f) (hnone : f pid = none) (userId : String) :
    (r.handle (.participantJoined pid userId)).Shows
      (Function.update f pid (some ⟨pid, userId, true, false⟩)) := by
  constructor
  · intro q
    rw [Function.update_apply, ← h.lookup q]
    exact Dict.lookup_insert_eq _ _ _ _
  · intro q
    have hprev : (r.handle (.participantJoined pid userId)).prev =
        r.prev ++ [⟨pid, userId, true, false⟩] := rfl
    rw [hprev, List.filter_append, h.filter, Function.update_apply]
    by_cases hq : q = pid
    · rw [if_pos hq, hq, hnone]
      simp
    · rw [if_neg hq]
      simp [Ne.symm hq]

/-- Who leaves is not shown any more. -/
theorem Shows.left (h : r.Shows f) (pid : ParticipantId) (userId : String) :
    (r.handle (.participantLeft pid userId)).Shows (Function.update f pid none) := by
  constructor
  · intro q
    rw [Function.update_apply, ← h.lookup q]
    exact Dict.lookup_erase_eq _ _ _
  · intro q
    have hprev : (r.handle (.participantLeft pid userId)).prev =
        r.prev.filter fun p => p.participantId ≠ pid := rfl
    rw [hprev, List.filter_filter, Function.update_apply]
    by_cases hq : q = pid
    · rw [if_pos hq, hq, Option.toList_none, List.filter_eq_nil_iff]
      simp
    · rw [if_neg hq, ← h.filter]
      refine List.filter_congr fun p _ => ?_
      by_cases hp : p.participantId = q
      · simp [hp, hq]
      · simp [hp]

/-- The entries of a participant are changed. -/
theorem Shows.modify (h : r.Shows f) {r' : Roster} {g : RemoteParticipant → RemoteParticipant}
    (hg : ∀ p, (g p).participantId = p.participantId)
    (hparticipants : r'.participants = r.participants.modify pid g)
    (hprev : r'.prev = r.prev.map fun p => if p.participantId = pid then g p else p) :
    r'.Shows (Function.update f pid ((f pid).map g)) := by
  constructor
  · intro q
    rw [hparticipants, Dict.lookup_modify, h.lookup, Function.update_apply]
    split
    · rename_i hq
      rw [hq]
    · rfl
  · intro q
    have hid (p : RemoteParticipant) :
        (if p.participantId = pid then g p else p).participantId = p.participantId := by
      split
      · exact hg p
      · rfl
    rw [hprev, List.filter_map]
    have hcomp : ((fun p : RemoteParticipant => decide (p.participantId = q)) ∘
        fun p => if p.participantId = pid then g p else p) =
        fun p => decide (p.participantId = q) := by
      funext p
      exact congrArg (fun i => decide (i = q)) (hid p)
    rw [hcomp, h.filter, Function.update_apply]
    have hmem (p : RemoteParticipant) (hp : f q = some p) : p.participantId = q := by
      have hfilter : p ∈ r.prev.filter fun p => decide (p.participantId = q) := by
        rw [h.filter, hp]
        exact List.mem_singleton_self p
      exact of_decide_eq_true (List.mem_filter.mp hfilter).2
    split
    · rename_i hq
      subst hq
      cases hf : f q with
      | none => rfl
      | some p =>
        rw [Option.toList_some, List.map_singleton, if_pos (hmem p hf)]
        rfl
    · rename_i hq
      cases hf : f q with
      | none => rfl
      | some p =>
        rw [Option.toList_some, List.map_singleton, if_neg (hmem p hf ▸ hq)]

/-- A mute, unless it is of the camera. -/
def muteRemote (kind : String) (muted : Bool) (p : RemoteParticipant) : RemoteParticipant :=
  if kind = "audio" then { p with isMicMuted := muted } else p

/-- A mute is shown of who is shown. -/
theorem Shows.muted (h : r.Shows f) (pid : ParticipantId) (kind : String) (muted : Bool) :
    (r.handle (.participantMuted pid kind muted)).Shows
      (Function.update f pid ((f pid).map (muteRemote kind muted))) := by
  by_cases hkind : kind = "audio"
  · refine h.modify (fun p => by rw [muteRemote]; split <;> rfl) ?_ ?_
    · dsimp only [handle, handleServerMessage]
      rw [if_pos hkind]
      congr 1
      funext p
      rw [muteRemote, if_pos hkind]
    · refine List.map_congr_left fun p _ => ?_
      rw [ite_not, if_pos hkind, muteRemote, if_pos hkind]
  · have hsame : r.handle (.participantMuted pid kind muted) = r := by
      dsimp only [handle, handleServerMessage, Option.elim_some, onEvent]
      simp only [if_neg hkind, ite_self, List.map_id']
    have hid : muteRemote kind muted = id := by
      funext p
      exact if_neg hkind
    rw [hsame, hid, Option.map_id, id, Function.update_eq_self]
    exact h

/-- Whether somebody is deafened is shown of who is shown. -/
theorem Shows.deafened (h : r.Shows f) (pid : ParticipantId) (deafened : Bool) :
    (r.handle (.participantDeafened pid deafened)).Shows (Function.update f pid
      ((f pid).map fun p => { p with isDeafened := deafened })) :=
  h.modify (fun _ => rfl) rfl rfl

/-- The messages of the shard change nothing. -/
theorem handle_ofSfu {msg : ServerMessage} (hmsg : msg.ofSfu = true) (r : Roster) :
    r.handle msg = r := by
  cases msg with
  | answer | offer | error | forceDisconnected => rfl
  | participantJoined | participantLeft | participantMuted | participantDeafened => cases hmsg

/-- The messages of the SFU do not change a roster. -/
theorem foldl_ofSfu {msgs : List ServerMessage} (hmsgs : ∀ msg ∈ msgs, msg.ofSfu = true)
    (r : Roster) : msgs.foldl handle r = r := by
  induction msgs with
  | nil => rfl
  | cons msg msgs ih =>
    rw [List.foldl_cons, handle_ofSfu (hmsgs msg List.mem_cons_self)]
    exact ih fun msg hmem => hmsgs msg (List.mem_cons_of_mem _ hmem)

/-! ### Being greeted -/

/-- What a slot is to the others. -/
def remote (p : Participant) : RemoteParticipant := ⟨p.id, p.userId, p.audioMuted, p.deafened⟩

/-- The messages about who is there show a participant as it is. -/
theorem Shows.presence {p : Participant} (h : r.Shows f) (hnone : f p.id = none) :
    ((Service.presence p).foldl handle r).Shows (Function.update f p.id (some (remote p))) := by
  have hjoined := h.joined hnone p.userId
  rw [Service.presence, List.foldl_cons, List.foldl_append, List.foldl_append]
  generalize r.handle (.participantJoined p.id p.userId) = r₁ at hjoined ⊢
  -- the camera is not in the roster
  have hvideo : Shows ((if p.videoMuted then [] else
      [ServerMessage.participantMuted p.id "video" false]).foldl handle r₁)
      (Function.update f p.id (some ⟨p.id, p.userId, true, false⟩)) := by
    split
    · exact hjoined
    · have hmuted := hjoined.muted p.id "video" false
      rw [Function.update_self, Function.update_idem] at hmuted
      exact hmuted
  generalize List.foldl handle r₁ _ = r₂ at hvideo ⊢
  have haudio : Shows ((if p.audioMuted then [] else
      [ServerMessage.participantMuted p.id "audio" false]).foldl handle r₂)
      (Function.update f p.id (some ⟨p.id, p.userId, p.audioMuted, false⟩)) := by
    split
    · rename_i hmuted
      rw [hmuted]
      exact hvideo
    · rename_i hmuted
      have haudio := hvideo.muted p.id "audio" false
      rw [Function.update_self, Function.update_idem] at haudio
      rw [Bool.eq_false_iff.mpr hmuted]
      exact haudio
  generalize List.foldl handle r₂ _ = r₃ at haudio ⊢
  rw [remote]
  split
  · rename_i hdeafened
    have hdeaf := haudio.deafened p.id true
    rw [Function.update_self, Function.update_idem] at hdeaf
    rw [hdeafened]
    exact hdeaf
  · rename_i hdeafened
    rw [Bool.eq_false_iff.mpr hdeafened]
    exact haudio

/-- **A newcomer is told of everybody**, once each. -/
theorem Shows.greeted {l : List Participant} {g : ParticipantId → Option RemoteParticipant}
    (h : r.Shows f) (hnodup : (l.map Participant.id).Nodup) (hnone : ∀ p ∈ l, f p.id = none)
    (hmem : ∀ p ∈ l, g p.id = some (remote p))
    (hother : ∀ pid, (∀ p ∈ l, p.id ≠ pid) → g pid = f pid) :
    ((l.flatMap Service.presence).foldl handle r).Shows g := by
  induction l generalizing r f with
  | nil =>
    obtain rfl : g = f := funext fun pid => hother pid nofun
    exact h
  | cons p l ih =>
    obtain ⟨hp, hnodup⟩ := List.nodup_cons.mp hnodup
    rw [List.flatMap_cons, List.foldl_append]
    refine ih (h.presence (hnone p List.mem_cons_self)) hnodup (fun q hq => ?_)
      (fun q hq => hmem q (List.mem_cons_of_mem _ hq)) fun pid hpid => ?_
    · have hne : q.id ≠ p.id := fun heq => hp (heq ▸ List.mem_map_of_mem hq)
      rw [Function.update_of_ne hne]
      exact hnone q (List.mem_cons_of_mem _ hq)
    · rw [Function.update_apply]
      split
      · rename_i heq
        rw [heq]
        exact hmem p List.mem_cons_self
      · rename_i hne
        refine hother pid fun q hq => ?_
        rcases List.mem_cons.mp hq with rfl | hq
        · exact Ne.symm hne
        · exact hpid q hq

end Roster

/-! ### The service and its clients -/

/-- A handler has registered, and not yet released its slot. -/
def Phase.seated : Phase → Bool
  | .connecting => false
  | .located => false
  | .farewell => false
  | .done => false
  | _ => true

/-- The service, and what the client at the end of each connection knows. -/
structure Call (S : Str0m) where
  service : Service S
  rosters : WsTx → Roster

namespace Service

variable {S : Str0m} {cfg : Config} {w w' : Service S} {a : Act} {c : WsTx} {h : Handler}

/-- The message that a client gets in a step. -/
def received? (w : Service S) : Act → Option (WsTx × ServerMessage)
  | .deliver c => (w.running? c).bind fun _ => (w.sfu.ws c).queue.head?.map (c, ·)
  | _ => none

/-- No message of a step about who is there is dropped. -/
def NoDrop (w : Service S) (a : Act) : Prop :=
  System.Accepted (fun w (m : WsTx × ServerMessage) => (w.sfu.ws m.1).HasRoom)
    (fun w m => w.wsSendOrDrop m.1 m.2) w (w.sent a)

/-- Whether a step drops no message can be computed. -/
instance (w : Service S) (a : Act) : Decidable (w.NoDrop a) :=
  inferInstanceAs (Decidable (System.Accepted _ _ _ _))

/-- The participant that registers in a step. -/
def registering? (w : Service S) : Act → Option Handler
  | .advance c => (w.handlers c).filter fun h => decide (h.phase = .located)
  | _ => none

/-- **The condition on a step**: a participant that registers has no slot. -/
def RegistersOnce (w : Service S) (a : Act) : Prop :=
  ((w.registering? a).all fun h => (w.slot? h.sid h.pid).isNone) = true

/-- Whether a connection registers once can be computed. -/
instance (w : Service S) (a : Act) : Decidable (w.RegistersOnce a) :=
  inferInstanceAs (Decidable (_ = true))

/-- What a handler's client is to show: the others in its session. -/
def others (w : Service S) (h : Handler) (pid : ParticipantId) : Option RemoteParticipant :=
  if pid = h.pid then none else (w.slot? h.sid pid).map Roster.remote

end Service

namespace Call

variable {S : Str0m} {cfg : Config} {s t : Call S}

/-- The service and the rosters after an act. -/
def next (cfg : Config) (s : Call S) (a : Service.Act) : Call S where
  service := s.service.next cfg a
  rosters := match s.service.received? a with
    | none => s.rosters
    | some (c, msg) => Function.update s.rosters c ((s.rosters c).handle msg)

/-- The steps of the service, with what their clients make of the messages. -/
def system (S : Str0m) (cfg : Config) : System (Call S) Service.Act where
  init s := (Service.system S cfg).init s.service ∧ s.rosters = fun _ => {}
  step s a t := Service.Step cfg s.service a t.service ∧ t.rosters = (s.next cfg a).rosters

/-- What a client knows once all messages that were sent to it are delivered. -/
def settled (s : Call S) (c : WsTx) : Roster :=
  (s.service.sfu.ws c).queue.foldl Roster.handle (s.rosters c)

end Call

namespace Service

variable {S : Str0m} {cfg : Config} {w w' : Service S} {a : Act} {c : WsTx} {h : Handler}

/-! ### What reaches a connection -/

/-- The messages to a connection. -/
def inbox (c : WsTx) (msgs : List (WsTx × ServerMessage)) : List ServerMessage :=
  (msgs.filter fun m => m.1 = c).map Prod.snd

/-- What an inbox shows of two lots of messages, one after the other. -/
theorem inbox_append (c : WsTx) (msgs msgs' : List (WsTx × ServerMessage)) :
    inbox c (msgs ++ msgs') = inbox c msgs ++ inbox c msgs' := by
  rw [inbox, List.filter_append, List.map_append]
  rfl

/-- What is sent arrives, if nothing is dropped. -/
theorem queue_posted {msgs : List (WsTx × ServerMessage)}
    (hroom : System.Accepted (fun w (m : WsTx × ServerMessage) => (w.sfu.ws m.1).HasRoom)
      (fun w m => w.wsSendOrDrop m.1 m.2) w msgs) (c : WsTx) :
    ((w.posted msgs).sfu.ws c).queue = (w.sfu.ws c).queue ++ inbox c msgs := by
  induction msgs generalizing w with
  | nil => exact (List.append_nil _).symm
  | cons m msgs ih =>
    have hqueue : ((w.wsSendOrDrop m.1 m.2).sfu.ws c).queue =
        (w.sfu.ws c).queue ++ inbox c [m] := by
      rw [wsSendOrDrop]
      dsimp only
      rw [SfuShard.outbox_wsTrySend]
      by_cases hc : c = m.1
      · subst hc
        rw [if_pos rfl, Outbox.queue_trySend hroom.1]
        simp [inbox]
      · rw [if_neg hc]
        simp [inbox, Ne.symm hc]
    calc ((w.posted (m :: msgs)).sfu.ws c).queue
        = ((w.wsSendOrDrop m.1 m.2).sfu.ws c).queue ++ inbox c msgs := ih hroom.2
      _ = (w.sfu.ws c).queue ++ (inbox c [m] ++ inbox c msgs) := by
        rw [hqueue, List.append_assoc]
      _ = (w.sfu.ws c).queue ++ inbox c (m :: msgs) := by
        rw [← inbox_append, List.singleton_append]

/-- **Whose the slots are.** -/
def Seated (w : Service S) : Prop := ∀ sid pid p, w.slot? sid pid = some p → p.id = pid ∧
  ∃ h, w.handlers p.wsTx = some h ∧ h.sid = sid ∧ h.pid = pid ∧ h.phase.seated = true

/-- A slot that is found is in its session. -/
theorem slot?_eq_some {sid : SessionId} {pid : ParticipantId} {p : Participant} :
    w.slot? sid pid = some p ↔
      ∃ s, w.app.sessions.lookup sid = some s ∧ s.participants.lookup pid = some p :=
  Option.bind_eq_some_iff

/-- A connection owns a slot that has its outbox. -/
theorem owns_iff : w.owns c h = true ↔ ∃ p, w.slot? h.sid h.pid = some p ∧ p.wsTx = c := by
  rw [owns, Option.any_eq_true]
  constructor
  · rintro ⟨p, hp, htx⟩
    exact ⟨p, hp, of_decide_eq_true htx⟩
  · rintro ⟨p, hp, htx⟩
    exact ⟨p, hp, decide_eq_true htx⟩

/-- A broadcast does not reach a connection that has no slot among those it is for. -/
theorem inbox_toOthers_eq_nil {sid : SessionId} {pid : ParticipantId}
    (hne : ∀ pid' p, pid' ≠ pid → w.slot? sid pid' = some p → p.wsTx ≠ c) (msg : ServerMessage) :
    inbox c (w.toOthers sid pid msg) = [] := by
  rw [toOthers]
  split
  · rfl
  · rename_i s hs
    rw [inbox, List.map_eq_nil_iff, List.filter_eq_nil_iff]
    intro m hm
    obtain ⟨p, hp, rfl⟩ := List.mem_map.mp hm
    obtain ⟨pid', hpid'⟩ := Dict.mem_values.mp hp
    rw [Dict.lookup_erase_eq] at hpid'
    split at hpid'
    · cases hpid'
    · rename_i hpid
      rw [decide_eq_true_eq]
      exact hne pid' p hpid (slot?_eq_some.mpr ⟨s, hs, hpid'⟩)

/-- Whoever has not registered hears of nobody. -/
theorem inbox_toOthers_outside (hseated : w.Seated)
    (hc : ∀ h, w.handlers c = some h → h.phase.seated = false) (sid : SessionId)
    (pid : ParticipantId) (msg : ServerMessage) : inbox c (w.toOthers sid pid msg) = [] := by
  refine inbox_toOthers_eq_nil (fun pid' p _ hslot => ?_) msg
  obtain ⟨-, h, hh, -, -, hphase⟩ := hseated sid pid' p hslot
  rintro rfl
  rw [hc h hh] at hphase
  cases hphase

/-- A handler is not among those it tells. -/
theorem inbox_toOthers_self (hseated : w.Seated) (hc : w.handlers c = some h)
    (msg : ServerMessage) : inbox c (w.toOthers h.sid h.pid msg) = [] := by
  refine inbox_toOthers_eq_nil (fun pid' p hne hslot => ?_) msg
  obtain ⟨-, h', hh', -, rfl, -⟩ := hseated h.sid pid' p hslot
  rintro rfl
  exact hne (congrArg Handler.pid (Option.some.inj (hh'.symm.trans hc)))

/-- **A broadcast reaches a handler once**, in its session, unless it is excepted. -/
theorem inbox_toOthers (hseated : w.Seated) (hc : w.handlers c = some h)
    (howns : w.owns c h = true) (sid : SessionId) (pid : ParticipantId) (msg : ServerMessage) :
    inbox c (w.toOthers sid pid msg) = if h.sid = sid ∧ h.pid ≠ pid then [msg] else [] := by
  obtain ⟨p, hslot, hp⟩ := owns_iff.mp howns
  -- a slot that leads to the connection is that of its handler
  have hown {sid' : SessionId} {pid' : ParticipantId} {p' : Participant}
      (hp' : w.slot? sid' pid' = some p') (htx : p'.wsTx = c) : h.sid = sid' ∧ h.pid = pid' := by
    obtain ⟨-, h', hh', hsid, hpid, -⟩ := hseated sid' pid' p' hp'
    rw [htx, hc] at hh'
    obtain rfl := Option.some.inj hh'
    exact ⟨hsid, hpid⟩
  split
  · rename_i hsame
    obtain ⟨rfl, hne⟩ := hsame
    obtain ⟨s, hs, hlookup⟩ := slot?_eq_some.mp hslot
    have hlookup : (s.participants.erase pid).lookup h.pid = some p :=
      (AList.lookup_erase_ne hne).trans hlookup
    have hinbox : inbox c (toAll (s.participants.erase pid) msg) =
        ((Dict.values (s.participants.erase pid)).filter fun p => p.wsTx = c).map fun _ => msg := by
      rw [inbox, toAll, List.filter_map, List.map_map]
      rfl
    rw [toOthers, hs]
    dsimp only
    rw [hinbox, Dict.filter_values hlookup, List.map_singleton]
    intro pid' p' hp'
    rw [decide_eq_true_eq]
    constructor
    · intro htx
      rw [Dict.lookup_erase_eq] at hp'
      split at hp'
      · cases hp'
      · exact (hown (slot?_eq_some.mpr ⟨s, hs, hp'⟩) htx).2.symm
    · rintro rfl
      rw [hlookup] at hp'
      exact Option.some.inj hp' ▸ hp
  · rename_i hother
    refine inbox_toOthers_eq_nil (fun pid' p' hne hp' htx => hother ?_) msg
    obtain ⟨hsid, hpid⟩ := hown hp' htx
    exact ⟨hsid, hpid ▸ hne⟩

/-- An inbox of messages that are made of others. -/
theorem inbox_flatMap (c : WsTx) (told : List ServerMessage)
    (f : ServerMessage → List (WsTx × ServerMessage)) :
    inbox c (told.flatMap f) = told.flatMap fun msg => inbox c (f msg) := by
  rw [inbox, List.filter_flatMap, List.map_flatMap]
  rfl

/-- A connection that hears of nothing. -/
theorem inbox_told_eq_nil {f : ServerMessage → List (WsTx × ServerMessage)}
    (h : ∀ msg, inbox c (f msg) = []) (told : List ServerMessage) :
    inbox c (told.flatMap f) = [] := by
  rw [inbox_flatMap, List.flatMap_eq_nil_iff]
  exact fun msg _ => h msg

/-- A connection that hears of everything. -/
theorem inbox_told {f : ServerMessage → List (WsTx × ServerMessage)}
    (h : ∀ msg, inbox c (f msg) = [msg]) (told : List ServerMessage) :
    inbox c (told.flatMap f) = told := by
  simp only [inbox_flatMap, h, List.flatMap_singleton']

/-- Messages to a connection are in its inbox. -/
theorem inbox_self (c : WsTx) (msgs : List ServerMessage) : inbox c (msgs.map (c, ·)) = msgs := by
  rw [inbox, List.filter_map, List.map_map, List.filter_eq_self.mpr]
  · exact List.map_id' msgs
  · simp

/-- Messages to another connection are not in its inbox. -/
theorem inbox_other {c c' : WsTx} (hne : c' ≠ c) (msgs : List ServerMessage) :
    inbox c' (msgs.map (c, ·)) = [] := by
  rw [inbox, List.filter_map, List.filter_eq_nil_iff.mpr]
  · rfl
  · simp [Ne.symm hne]

/-! ### The slots after a step -/

/-- The slots are those of the app state. -/
theorem slot?_congr (happ : w'.app = w.app) (sid : SessionId) (pid : ParticipantId) :
    w'.slot? sid pid = w.slot? sid pid := by
  rw [slot?, happ, slot?]

/-- A slot that is changed. -/
theorem slot?_modifySlot (w : Service S) (sid : SessionId) (pid : ParticipantId)
    (f : Participant → Participant) (sid' : SessionId) (pid' : ParticipantId) :
    (w.modifySlot sid pid f).slot? sid' pid' =
      if sid' = sid ∧ pid' = pid then (w.slot? sid' pid').map f else w.slot? sid' pid' := by
  rw [slot?, modifySlot, slot?]
  dsimp only
  rw [Dict.lookup_modify]
  by_cases hsid : sid' = sid
  · rw [if_pos hsid]
    cases w.app.sessions.lookup sid' with
    | none => exact (ite_self _).symm
    | some s =>
      rw [Option.map_some, Option.bind_some, Option.bind_some, Dict.lookup_modify]
      by_cases hpid : pid' = pid
      · rw [if_pos hpid, if_pos ⟨hsid, hpid⟩]
      · rw [if_neg hpid, if_neg fun h => hpid h.2]
  · rw [if_neg hsid, if_neg fun h => hsid h.1]

/-- The slots of a session that is written. -/
theorem slot?_setSession (w : Service S) (sid : SessionId) (s : Session) (sid' : SessionId)
    (pid : ParticipantId) : (w.setSession sid s).slot? sid' pid =
      if sid' = sid then s.participants.lookup pid else w.slot? sid' pid := by
  rw [slot?, setSession, slot?]
  dsimp only
  rw [Dict.lookup_insert_eq]
  split <;> rfl

/-- The slots after a release, whether or not the session is removed with the last one. -/
theorem slot?_release {s : Session} {participants : Dict ParticipantId Participant}
    (happ : w'.app = if Dict.isEmpty participants then
        { sessions := (w.app.sessions.insert h.sid
            { s with participants := participants }).erase h.sid
          channelToSession := w.app.channelToSession.erase s.channelId }
      else (w.setSession h.sid { s with participants := participants }).app)
    (sid : SessionId) (pid : ParticipantId) : w'.slot? sid pid =
      if sid = h.sid then participants.lookup pid else w.slot? sid pid := by
  split at happ
  · rename_i hempty
    rw [slot?, happ]
    dsimp only
    rw [Dict.lookup_erase_eq, Dict.lookup_insert_eq]
    split
    · exact (Dict.isEmpty_iff.mp hempty pid).symm
    · rfl
  · rw [slot?_congr happ]
    exact slot?_setSession w h.sid _ sid pid

end Service

namespace Call

variable {S : Str0m} {cfg : Config} {s t : Call S} {a : Service.Act} {c : WsTx} {h h' : Handler}

/-! ### The clients agree -/

/-- **The clients are right** about who is there: those that have not registered know of
nobody, those that own their slot of the others. -/
structure Agreed (s : Call S) : Prop where
  seated : s.service.Seated
  outside : ∀ c, (∀ h, s.service.handlers c = some h → h.phase = .connecting ∨ h.phase = .located) →
    (s.settled c).Shows fun _ => none
  owner : ∀ c h, s.service.handlers c = some h → s.service.owns c h = true →
    (s.settled c).Shows (s.service.others h)

/-- Nobody comes, goes or is told of. -/
theorem Agreed.keep (hs : s.Agreed)
    (hslot : ∀ sid pid, t.service.slot? sid pid = s.service.slot? sid pid)
    (hhandlers : t.service.handlers = s.service.handlers)
    (hsettled : ∀ c, t.settled c = s.settled c) : t.Agreed := by
  constructor
  · intro sid pid p hp
    rw [hhandlers]
    exact hs.seated sid pid p (hslot sid pid ▸ hp)
  · intro c hc
    rw [hsettled]
    exact hs.outside c fun h hh => hc h (hhandlers ▸ hh)
  · intro c h hc howns
    have hothers : t.service.others h = s.service.others h := by
      funext pid
      rw [Service.others, Service.others, hslot]
    rw [hsettled, hothers]
    refine hs.owner c h (hhandlers ▸ hc) ?_
    rwa [Service.owns, hslot] at howns

/-- A message of the shard is on its way. -/
theorem settled_of_signals (hrosters : t.rosters = s.rosters)
    (hsignals : s.service.sfu.Signals t.service.sfu) (c : WsTx) : t.settled c = s.settled c := by
  obtain ⟨msgs, hmsgs, hsfu⟩ := hsignals c
  rw [settled, ← hmsgs, List.foldl_append, Roster.foldl_ofSfu hsfu, hrosters]
  rfl

/-- What a client is to know after a handler has taken a step. -/
theorem settled_of_acts (hrosters : t.rosters = s.rosters) {msgs : List (WsTx × ServerMessage)}
    (hacts : s.service.Acts c h h' msgs t.service)
    (hroom : System.Accepted (fun w (m : WsTx × ServerMessage) => (w.sfu.ws m.1).HasRoom)
      (fun w m => w.wsSendOrDrop m.1 m.2) s.service msgs) {tx : WsTx}
    (htx : tx ≠ c ∨ h'.phase ≠ .done) :
    t.settled tx = (Service.inbox tx msgs).foldl Roster.handle (s.settled tx) := by
  rw [settled, hacts.outbox tx htx, Service.queue_posted hroom, List.foldl_append, hrosters]
  rfl

/-- **A handler takes a step**: it may be greeted, its own slot may change, and the others in
its session are told how. -/
structure Deed (s : Call S) (c : WsTx) (h h' : Handler) (greet told : List ServerMessage)
    (t : Call S) : Prop where
  rosters : t.rosters = s.rosters
  acts : s.service.Acts c h h'
    (greet.map (c, ·) ++ told.flatMap (s.service.toOthers h.sid h.pid)) t.service
  room : System.Accepted (fun w (m : WsTx × ServerMessage) => (w.sfu.ws m.1).HasRoom)
    (fun w m => w.wsSendOrDrop m.1 m.2) s.service
    (greet.map (c, ·) ++ told.flatMap (s.service.toOthers h.sid h.pid))
  sid : h'.sid = h.sid
  pid : h'.pid = h.pid
  slots : ∀ sid pid, sid ≠ h.sid ∨ pid ≠ h.pid →
    t.service.slot? sid pid = s.service.slot? sid pid
  slot : ∀ p', t.service.slot? h.sid h.pid = some p' → p'.id = h.pid ∧
    (p'.wsTx = c ∨ ∃ p, s.service.slot? h.sid h.pid = some p ∧ p.wsTx = p'.wsTx)
  seated : t.service.owns c h' = true → h'.phase.seated = true
  outside : h'.phase = .connecting ∨ h'.phase = .located →
    greet = [] ∧ (h.phase = .connecting ∨ h.phase = .located)
  told : ∀ r f, Roster.Shows r f → f h.pid = (s.service.slot? h.sid h.pid).map Roster.remote →
    (told.foldl Roster.handle r).Shows
      (Function.update f h.pid ((t.service.slot? h.sid h.pid).map Roster.remote))
  greet : t.service.owns c h' = true →
    (greet.foldl Roster.handle (s.settled c)).Shows (t.service.others h')

namespace Deed

variable {greet told : List ServerMessage} {tx : WsTx}

/-- What a roster comes to when its queue is read. -/
theorem settled (hd : s.Deed c h h' greet told t) (htx : tx ≠ c ∨ h'.phase ≠ .done) :
    t.settled tx = (Service.inbox tx (greet.map (c, ·)) ++ Service.inbox tx (told.flatMap
      (s.service.toOthers h.sid h.pid))).foldl Roster.handle (s.settled tx) := by
  rw [settled_of_acts hd.rosters hd.acts hd.room htx, Service.inbox_append]

/-- The handler that acts goes on. -/
theorem handlers_self (hd : s.Deed c h h' greet told t) : t.service.handlers c = some h' := by
  rw [hd.acts.handlers, Function.update_self]

/-- The other handlers stay as they are. -/
theorem handlers_other (hd : s.Deed c h h' greet told t) (htx : tx ≠ c) :
    t.service.handlers tx = s.service.handlers tx := by
  rw [hd.acts.handlers, Function.update_of_ne htx]

/-- The slots are those of handlers afterwards. -/
theorem seated_after (hd : s.Deed c h h' greet told t) (hs : s.service.Seated) :
    t.service.Seated := by
  intro sid pid p hp
  by_cases hkey : sid = h.sid ∧ pid = h.pid
  · obtain ⟨rfl, rfl⟩ := hkey
    obtain ⟨hid, hwas⟩ := hd.slot p hp
    refine ⟨hid, ?_⟩
    by_cases htx : p.wsTx = c
    · have howns : t.service.owns c h' = true :=
        Service.owns_iff.mpr ⟨p, by rw [hd.sid, hd.pid, hp], htx⟩
      exact ⟨h', htx ▸ hd.handlers_self, hd.sid, hd.pid, hd.seated howns⟩
    · obtain ⟨p₀, hp₀, heq⟩ := hwas.resolve_left htx
      rw [hd.handlers_other htx, ← heq]
      exact (hs _ _ p₀ hp₀).2
  · rw [hd.slots sid pid (not_and_or.mp hkey)] at hp
    obtain ⟨hid, h₁, hh₁, rfl, rfl, hphase⟩ := hs sid pid p hp
    refine ⟨hid, h₁, ?_, rfl, rfl, hphase⟩
    rw [hd.handlers_other, hh₁]
    intro htx
    rw [htx, hd.acts.was] at hh₁
    obtain rfl := Option.some.inj hh₁
    exact hkey ⟨rfl, rfl⟩

/-- Those that have not registered have heard of nobody. -/
theorem outside_after (hd : s.Deed c h h' greet told t) (hs : s.Agreed)
    (htx : ∀ h, t.service.handlers tx = some h → h.phase = .connecting ∨ h.phase = .located) :
    (t.settled tx).Shows fun _ => none := by
  rcases eq_or_ne tx c with rfl | hne
  · obtain ⟨rfl, hout⟩ := hd.outside (htx h' hd.handlers_self)
    have hdone : h'.phase ≠ .done := by
      rcases htx h' hd.handlers_self with hphase | hphase <;> rw [hphase] <;> nofun
    rw [hd.settled (.inr hdone),
      Service.inbox_told_eq_nil (Service.inbox_toOthers_self hs.seated hd.acts.was)]
    refine hs.outside tx fun h₁ hh₁ => ?_
    obtain rfl := Option.some.inj (hh₁.symm.trans hd.acts.was)
    exact hout
  · rw [hd.handlers_other hne] at htx
    have hphase (h₁ : Handler) (hh₁ : s.service.handlers tx = some h₁) :
        h₁.phase.seated = false := by
      rcases htx h₁ hh₁ with hphase | hphase <;> rw [hphase] <;> rfl
    rw [hd.settled (.inl hne), Service.inbox_other hne, Service.inbox_told_eq_nil
      (Service.inbox_toOthers_outside hs.seated hphase _ _)]
    exact hs.outside tx htx

/-- The handler itself is right about the others. -/
theorem self_after (hd : s.Deed c h h' greet told t) (hs : s.Agreed)
    (howns : t.service.owns c h' = true) : (t.settled c).Shows (t.service.others h') := by
  have hdone : h'.phase ≠ .done := by
    intro hphase
    have hseat := hd.seated howns
    rw [hphase] at hseat
    cases hseat
  rw [hd.settled (.inr hdone), Service.inbox_self, Service.inbox_told_eq_nil
    (Service.inbox_toOthers_self hs.seated hd.acts.was), List.append_nil]
  exact hd.greet howns

/-- **The others follow.** -/
theorem other_after (hd : s.Deed c h h' greet told t) (hs : s.Agreed) (hne : tx ≠ c)
    {h₁ : Handler} (hh₁ : s.service.handlers tx = some h₁) (howns : t.service.owns tx h₁ = true) :
    (t.settled tx).Shows (t.service.others h₁) := by
  obtain ⟨p, hp, htx⟩ := Service.owns_iff.mp howns
  have howns₀ : s.service.owns tx h₁ = true := by
    by_cases hkey : h₁.sid = h.sid ∧ h₁.pid = h.pid
    · rw [hkey.1, hkey.2] at hp
      obtain ⟨p₀, hp₀, heq⟩ := (hd.slot p hp).2.resolve_left fun heq => hne (htx ▸ heq)
      exact Service.owns_iff.mpr ⟨p₀, by rw [hkey.1, hkey.2, hp₀], heq.trans htx⟩
    · rw [hd.slots _ _ (not_and_or.mp hkey)] at hp
      exact Service.owns_iff.mpr ⟨p, hp, htx⟩
  have hshows := hs.owner tx h₁ hh₁ howns₀
  have hhears := Service.inbox_toOthers hs.seated hh₁ howns₀ h.sid h.pid
  rw [hd.settled (.inl hne), Service.inbox_other hne, List.nil_append]
  by_cases hin : h₁.sid = h.sid ∧ h₁.pid ≠ h.pid
  · simp only [if_pos hin] at hhears
    obtain ⟨hsid, hpid⟩ := hin
    have hothers : t.service.others h₁ = Function.update (s.service.others h₁) h.pid
        ((t.service.slot? h.sid h.pid).map Roster.remote) := by
      funext pid
      rw [Function.update_apply, Service.others, Service.others, hsid]
      by_cases hpid' : pid = h.pid
      · rw [if_pos hpid', hpid', if_neg (Ne.symm hpid)]
      · rw [if_neg hpid', hd.slots _ _ (.inr hpid')]
    rw [hothers, Service.inbox_told hhears]
    refine hd.told _ _ hshows ?_
    rw [Service.others, if_neg (Ne.symm hpid), hsid]
  · -- the slot that changes is in another session, or the client's own
    have hothers : t.service.others h₁ = s.service.others h₁ := by
      funext pid
      rw [Service.others, Service.others]
      split
      · rfl
      · rename_i hpid
        rw [hd.slots]
        by_contra hkey
        obtain ⟨hsid₁, hpid₁⟩ := not_or.mp hkey
        refine hin ⟨not_not.mp hsid₁, fun heq => hpid ?_⟩
        exact (not_not.mp hpid₁).trans heq.symm
    simp only [if_neg hin] at hhears
    rw [hothers, Service.inbox_told_eq_nil hhears]
    exact hshows

/-- **A deed of a handler** leaves the rosters in agreement with the slots. -/
theorem agreed (hd : s.Deed c h h' greet told t) (hs : s.Agreed) : t.Agreed := by
  refine ⟨hd.seated_after hs.seated, fun tx htx => hd.outside_after hs htx,
    fun tx h₁ hh₁ howns => ?_⟩
  rcases eq_or_ne tx c with rfl | hne
  · obtain rfl := Option.some.inj (hh₁.symm.trans hd.handlers_self)
    exact hd.self_after hs howns
  · exact hd.other_after hs hne (hd.handlers_other hne ▸ hh₁) howns

end Deed

/-- The participant of a handler's slot has the slot's id. -/
theorem Agreed.id_of_slot? (hs : s.Agreed) {sid : SessionId} {pid : ParticipantId} {p : Participant}
    (hp : s.service.slot? sid pid = some p) : p.id = pid := (hs.seated sid pid p hp).1

/-- A handler that owns a slot is seated. -/
theorem Agreed.seated_of_owns (hs : s.Agreed) (hc : s.service.handlers c = some h)
    (howns : s.service.owns c h = true) : h.phase.seated = true := by
  obtain ⟨p, hp, rfl⟩ := Service.owns_iff.mp howns
  obtain ⟨-, h₁, hh₁, -, -, hphase⟩ := hs.seated _ _ p hp
  obtain rfl := Option.some.inj (hc.symm.trans hh₁)
  exact hphase

/-- A handler goes on without a word. -/
theorem deed_silent (hs : s.Agreed) (hrosters : t.rosters = s.rosters)
    (hacts : s.service.Acts c h h' [] t.service) (happ : t.service.app = s.service.app)
    (hsid : h'.sid = h.sid) (hpid : h'.pid = h.pid)
    (hseated : s.service.owns c h = true → h.phase.seated = true → h'.phase.seated = true)
    (hout : h'.phase = .connecting ∨ h'.phase = .located →
      h.phase = .connecting ∨ h.phase = .located) : s.Deed c h h' [] [] t := by
  have hslot := Service.slot?_congr happ
  have howns (howns : t.service.owns c h' = true) : s.service.owns c h = true := by
    rwa [Service.owns, hslot, hsid, hpid] at howns
  refine ⟨hrosters, hacts, trivial, hsid, hpid, fun sid pid _ => hslot sid pid, fun p hp => ?_,
    fun ht => ?_, fun hphase => ⟨rfl, hout hphase⟩, fun r f hshows heq => ?_, fun ht => ?_⟩
  · rw [hslot] at hp
    exact ⟨hs.id_of_slot? hp, .inr ⟨p, hp, rfl⟩⟩
  · exact hseated (howns ht) (hs.seated_of_owns hacts.was (howns ht))
  · rw [hslot, ← heq, Function.update_eq_self]
    exact hshows
  · have hothers : t.service.others h' = s.service.others h := by
      funext pid
      rw [Service.others, Service.others, hslot, hsid, hpid]
    rw [hothers]
    exact hs.owner c h hacts.was (howns ht)

/-- A connection that is new has nothing to show. -/
theorem Agreed.connects (hs : s.Agreed) (hrosters : t.rosters = s.rosters)
    (hnone : s.service.handlers c = none)
    (ht : t.service = { s.service with
      handlers := Function.update s.service.handlers c (some h) }) : t.Agreed := by
  have hslot : t.service.slot? = s.service.slot? := by rw [ht]; rfl
  have hsettled (tx : WsTx) : t.settled tx = s.settled tx := by
    rw [settled, ht, hrosters]
    rfl
  have hhandlers : t.service.handlers = Function.update s.service.handlers c (some h) := by rw [ht]
  -- nobody's slot leads to the new connection
  have hne {sid : SessionId} {pid : ParticipantId} {p : Participant}
      (hp : s.service.slot? sid pid = some p) : p.wsTx ≠ c := by
    obtain ⟨-, h₁, hh₁, -⟩ := hs.seated sid pid p hp
    rintro rfl
    rw [hnone] at hh₁
    cases hh₁
  constructor
  · intro sid pid p hp
    rw [hslot] at hp
    rw [hhandlers, Function.update_of_ne (hne hp)]
    exact hs.seated sid pid p hp
  · intro tx htx
    rw [hsettled]
    refine hs.outside tx fun h₁ hh₁ => htx h₁ ?_
    rw [hhandlers, Function.update_of_ne, hh₁]
    rintro rfl
    rw [hnone] at hh₁
    cases hh₁
  · intro tx h₁ hh₁ howns
    obtain ⟨p, hp, rfl⟩ := Service.owns_iff.mp howns
    rw [hslot] at hp
    rw [hhandlers, Function.update_of_ne (hne hp)] at hh₁
    have hothers : t.service.others h₁ = s.service.others h₁ := by
      funext pid
      rw [Service.others, Service.others, hslot]
    rw [hsettled, hothers]
    exact hs.owner _ h₁ hh₁ (Service.owns_iff.mpr ⟨p, hp, rfl⟩)

/-- Who is seated stays so as the handler goes on. -/
theorem seated_of_goes {phase phase' : Phase} (hgoes : Service.Goes phase phase')
    (hne : phase ≠ .releasing) (hseated : phase.seated = true) : phase'.seated = true := by
  cases hgoes with
  | passes => exact absurd rfl hne
  | notFound | gone => cases hseated
  | joins | hangsUp | leaves => rfl

/-- Who goes on is not outside. -/
theorem inside_of_goes {phase phase' : Phase} (hgoes : Service.Goes phase phase') :
    ¬ (phase' = .connecting ∨ phase' = .located) := by
  cases hgoes <;> nofun

/-- Who is seated stays so as the handler tells of something. -/
theorem seated_of_tells {phase phase' : Phase} {event : ℤ → NatsEvent}
    (htells : Service.Tells h phase event phase') (hseated : phase.seated = true) :
    phase'.seated = true := by
  cases htells with
  | left => cases hseated
  | came | mutes => rfl

/-- Who tells of something is not outside. -/
theorem inside_of_tells {phase phase' : Phase} {event : ℤ → NatsEvent}
    (htells : Service.Tells h phase event phase') :
    ¬ (phase' = .connecting ∨ phase' = .located) := by
  cases htells <;> nofun

/-- Who changes its slot is seated. -/
theorem seated_of_alters {phase phase' : Phase} {f : Participant → Participant}
    {msgs : List ServerMessage} (halters : Service.Alters h phase f msgs phase') :
    phase'.seated = true := by
  cases halters <;> rfl

/-- A slot that is changed keeps its id. -/
theorem id_of_alters {phase phase' : Phase} {f : Participant → Participant}
    {msgs : List ServerMessage} (halters : Service.Alters h phase f msgs phase')
    (p : Participant) : (f p).id = p.id := by
  cases halters with
  | mutes kind muted =>
    rw [Service.muteSlot]
    split_ifs <;> rfl
  | _ => rfl

/-- What the others are told of a change is what they are to show. -/
theorem told_of_alters {phase phase' : Phase} {f : Participant → Participant}
    {msgs : List ServerMessage} (halters : Service.Alters h phase f msgs phase') {r : Roster}
    {F : ParticipantId → Option RemoteParticipant} {p : Option Participant} (hr : r.Shows F)
    (hp : F h.pid = p.map Roster.remote) :
    (msgs.foldl Roster.handle r).Shows
      (Function.update F h.pid ((p.map f).map Roster.remote)) := by
  rw [Option.map_map]
  cases halters with
  | connects =>
    have hremote : (Roster.remote ∘ fun p => { p with state := .connected }) = Roster.remote := rfl
    rw [hremote, ← hp, Function.update_eq_self]
    exact hr
  | mutes kind muted =>
    have hmuted := hr.muted h.pid kind muted
    have hremote : Roster.remote ∘ Service.muteSlot kind muted =
        Roster.muteRemote kind muted ∘ Roster.remote := by
      funext p
      rw [Function.comp_apply, Function.comp_apply, Service.muteSlot, Roster.muteRemote]
      split_ifs with hvideo haudio
      · rw [hvideo] at haudio
        exact absurd haudio (by decide)
      all_goals rfl
    rw [hremote, ← Option.map_map, ← hp]
    exact hmuted
  | deafens deafened =>
    have hdeafened := hr.deafened h.pid deafened
    rw [hp, Option.map_map] at hdeafened
    exact hdeafened

/-- **A change of a slot** is told to the others. -/
theorem deed_alters (hs : s.Agreed) (hrosters : t.rosters = s.rosters) {a : Service.Act}
    {f : Participant → Participant} {msgs : List ServerMessage} {phase : Phase}
    (halters : Service.Alters h h.phase f msgs phase)
    (hacts : s.service.Acts c h { h with phase := phase }
      (msgs.flatMap (s.service.toOthers h.sid h.pid)) t.service)
    (happ : t.service.app = (s.service.modifySlot h.sid h.pid f).app)
    (hsent : s.service.sent a = msgs.flatMap (s.service.toOthers h.sid h.pid))
    (hroom : s.service.NoDrop a) : s.Deed c h { h with phase := phase } [] msgs t := by
  have hslots (sid : SessionId) (pid : ParticipantId) : t.service.slot? sid pid =
      if sid = h.sid ∧ pid = h.pid then (s.service.slot? sid pid).map f
      else s.service.slot? sid pid :=
    (Service.slot?_congr happ sid pid).trans (Service.slot?_modifySlot ..)
  have hown : t.service.slot? h.sid h.pid = (s.service.slot? h.sid h.pid).map f := by
    rw [hslots, if_pos ⟨rfl, rfl⟩]
  have hphase := seated_of_alters halters
  rw [Service.NoDrop, hsent] at hroom
  refine ⟨hrosters, hacts, hroom, rfl, rfl, fun sid pid hne => ?_, fun p hp => ?_,
    fun _ => hphase, ?_, fun r F hr hF => ?_, fun ht => ?_⟩
  · rw [hslots, if_neg (not_and_or.mpr hne)]
  · rw [hown] at hp
    obtain ⟨p₀, hp₀, rfl⟩ := Option.map_eq_some_iff.mp hp
    exact ⟨(id_of_alters halters p₀).trans (hs.id_of_slot? hp₀), .inr ⟨p₀, hp₀, (halters.wsTx p₀).symm⟩⟩
  · dsimp only
    rintro (rfl | rfl) <;> cases hphase
  · rw [hown]
    exact told_of_alters halters hr hF
  · have howns : s.service.owns c h = true := by
      obtain ⟨p, hp, rfl⟩ := Service.owns_iff.mp ht
      rw [hown] at hp
      obtain ⟨p₀, hp₀, rfl⟩ := Option.map_eq_some_iff.mp hp
      exact Service.owns_iff.mpr ⟨p₀, hp₀, (halters.wsTx p₀).symm⟩
    have hothers : t.service.others { h with phase := phase } = s.service.others h := by
      funext pid
      rw [Service.others, Service.others, hslots]
      split
      · rfl
      · rename_i hne
        rw [if_neg fun hkey => hne hkey.2]
    rw [hothers]
    exact hs.owner c h hacts.was howns

/-- **A registration** is told to the others, and the others to it. -/
theorem deed_registers (hs : s.Agreed) (hrosters : t.rosters = s.rosters) {session : Session}
    (hphase : h.phase = .located) (hsession : s.service.app.sessions.lookup h.sid = some session)
    (hacts : s.service.Acts c h { h with phase := .registered }
      (Service.greetings c h session) t.service)
    (happ : t.service.app = (s.service.setSession h.sid { session with
      participants := session.participants.insert h.pid (Service.newSlot c h) }).app)
    (hroom : s.service.NoDrop (.advance c)) (honce : s.service.RegistersOnce (.advance c)) :
    s.Deed c h { h with phase := .registered }
      (session.participants.values.flatMap Service.presence)
      [.participantJoined h.pid h.userId] t := by
  have hnone : s.service.slot? h.sid h.pid = none := by
    rw [Service.RegistersOnce, Service.registering?, hacts.was, Option.filter_some,
      if_pos (decide_eq_true hphase)] at honce
    exact Option.isNone_iff_eq_none.mp honce
  have hlookup (pid : ParticipantId) :
      session.participants.lookup pid = s.service.slot? h.sid pid := by
    rw [Service.slot?, hsession]
    rfl
  -- with no slot of its own there, the others are everybody
  have hgreetings : Service.greetings c h session =
      (session.participants.values.flatMap Service.presence).map (c, ·) ++
        [.participantJoined h.pid h.userId].flatMap (s.service.toOthers h.sid h.pid) := by
    have herase : session.participants.erase h.pid = session.participants :=
      Dict.erase_of_lookup ((hlookup h.pid).trans hnone)
    rw [Service.greetings, List.flatMap_singleton, Service.toOthers, hsession]
    dsimp only
    rw [herase]
  have hslots (sid : SessionId) (pid : ParticipantId) : t.service.slot? sid pid =
      if sid = h.sid then
        (session.participants.insert h.pid (Service.newSlot c h)).lookup pid
      else s.service.slot? sid pid :=
    (Service.slot?_congr happ sid pid).trans (Service.slot?_setSession ..)
  have hown : t.service.slot? h.sid h.pid = some (Service.newSlot c h) := by
    rw [hslots, if_pos rfl, AList.lookup_insert]
  have hother {sid : SessionId} {pid : ParticipantId} (hne : sid ≠ h.sid ∨ pid ≠ h.pid) :
      t.service.slot? sid pid = s.service.slot? sid pid := by
    rw [hslots]
    split
    · rename_i hsid
      rw [AList.lookup_insert_ne (hne.resolve_left fun hne => hne hsid), hlookup, hsid]
    · rfl
  have hroom₀ : System.Accepted (fun w (m : WsTx × ServerMessage) => (w.sfu.ws m.1).HasRoom)
      (fun w m => w.wsSendOrDrop m.1 m.2) s.service (Service.greetings c h session) := by
    have hsent : s.service.sent (.advance c) = Service.greetings c h session := by
      simp only [Service.sent, hacts.was, hphase, hsession, Option.elim_some]
    rw [Service.NoDrop, hsent] at hroom
    exact hroom
  refine ⟨hrosters, hgreetings ▸ hacts, hgreetings ▸ hroom₀, rfl, rfl, fun _ _ => hother,
    fun p hp => ?_, fun _ => rfl, by simp, fun r F hr hF => ?_, fun _ => ?_⟩
  · rw [hown] at hp
    obtain rfl := Option.some.inj hp
    exact ⟨rfl, .inl rfl⟩
  · rw [hnone] at hF
    rw [hown]
    exact hr.joined hF h.userId
  · have hout : (s.settled c).Shows fun _ => none := by
      refine hs.outside c fun h₁ hh₁ => ?_
      obtain rfl := Option.some.inj (hacts.was.symm.trans hh₁)
      exact .inr hphase
    refine hout.greeted ?_ (fun _ _ => rfl) (fun p hp => ?_) fun pid hpid => ?_
    · have hids : session.participants.values.map Participant.id = session.participants.keys := by
        rw [Dict.values, AList.keys, List.keys, List.map_map]
        refine List.map_congr_left fun e he => ?_
        have hslot : s.service.slot? h.sid e.1 = some e.2 := by
          rw [← hlookup]
          exact AList.mem_lookup_iff.mpr he
        exact hs.id_of_slot? hslot
      rw [hids]
      exact session.participants.keys_nodup
    · obtain ⟨pid, hpid⟩ := Dict.mem_values.mp hp
      rw [hlookup] at hpid
      have hid : p.id = pid := hs.id_of_slot? hpid
      have hne : pid ≠ h.pid := by
        rintro rfl
        rw [hnone] at hpid
        cases hpid
      rw [Service.others, hid, if_neg hne, hother (.inr hne), hpid]
      rfl
    · rw [Service.others]
      split
      · rfl
      · rename_i hne
        rw [hother (.inr hne), ← hlookup, Option.map_eq_none_iff, Option.eq_none_iff_forall_ne_some]
        intro p hp
        refine hpid p (Dict.mem_values.mpr ⟨pid, hp⟩) ?_
        exact hs.id_of_slot? ((hlookup pid).symm.trans hp)

/-- **A release** is told to the others. -/
theorem deed_releases (hrosters : t.rosters = s.rosters) {session : Session}
    (hphase : h.phase = .releasing) (howns : s.service.owns c h = true)
    (hsession : s.service.app.sessions.lookup h.sid = some session)
    (hacts : s.service.Acts c h { h with phase := .farewell }
      (Service.toAll (session.participants.erase h.pid) (.participantLeft h.pid h.userId))
      t.service)
    (happ : t.service.app = if Dict.isEmpty (session.participants.erase h.pid) then
        { sessions := (s.service.app.sessions.insert h.sid
            { session with participants := session.participants.erase h.pid }).erase h.sid
          channelToSession := s.service.app.channelToSession.erase session.channelId }
      else (s.service.setSession h.sid
        { session with participants := session.participants.erase h.pid }).app)
    (hroom : s.service.NoDrop (.advance c)) :
    s.Deed c h { h with phase := .farewell } [] [.participantLeft h.pid h.userId] t := by
  have htold : Service.toAll (session.participants.erase h.pid)
      (.participantLeft h.pid h.userId) =
      [.participantLeft h.pid h.userId].flatMap (s.service.toOthers h.sid h.pid) := by
    rw [List.flatMap_singleton, Service.toOthers, hsession]
  have hslots := Service.slot?_release happ
  have hown : t.service.slot? h.sid h.pid = none := by
    rw [hslots, if_pos rfl, AList.lookup_erase]
  have hroom₀ : System.Accepted (fun w (m : WsTx × ServerMessage) => (w.sfu.ws m.1).HasRoom)
      (fun w m => w.wsSendOrDrop m.1 m.2) s.service
      ([.participantLeft h.pid h.userId].flatMap (s.service.toOthers h.sid h.pid)) := by
    have hsent : s.service.sent (.advance c) =
        s.service.toOthers h.sid h.pid (.participantLeft h.pid h.userId) := by
      simp only [Service.sent, hacts.was, hphase, howns, if_true]
    rw [Service.NoDrop, hsent] at hroom
    rw [List.flatMap_singleton]
    exact hroom
  have hnot : t.service.owns c { h with phase := .farewell } ≠ true := by
    rw [Service.owns, hown]
    simp
  refine ⟨hrosters, htold ▸ hacts, hroom₀, rfl, rfl, fun sid pid hne => ?_, fun p hp => ?_,
    fun ht => absurd ht hnot, by simp, fun r F hr _ => ?_, fun ht => absurd ht hnot⟩
  · rw [hslots]
    split
    · rename_i hsid
      rw [AList.lookup_erase_ne (hne.resolve_left fun hne => hne hsid), Service.slot?, hsid,
        hsession]
      rfl
    · rfl
  · rw [hown] at hp
    cases hp
  · rw [hown]
    exact hr.left h.pid h.userId

/-! ### Every step -/

/-- A step is a delivery, or a turn of the service of which no client hears yet. -/
theorem delivered_or_turn {a : Service.Act} (hstep : (system S cfg).step s a t) :
    (t.service.app = s.service.app ∧ t.service.handlers = s.service.handlers ∧
      ∀ c, t.settled c = s.settled c) ∨
    t.rosters = s.rosters ∧ Service.Turn cfg s.service a t.service ∧ ∀ c, a ≠ .deliver c := by
  obtain ⟨hservice, hrosters⟩ := hstep
  have hturn := Service.turn_of_step hservice
  cases a with
  | deliver c =>
    have hnext : t.service = s.service.next cfg (.deliver c) := by
      generalize s.service = w, t.service = w' at hservice
      cases hservice
      rfl
    rw [Call.next, Service.received?] at hrosters
    rw [Service.next] at hnext
    split at hnext
    · rename_i hc
      rw [hc] at hrosters
      refine .inl ⟨by rw [hnext], by rw [hnext], fun tx => ?_⟩
      rw [settled, hnext, hrosters]
      rfl
    · rename_i h hc
      rw [hc, Option.bind_some] at hrosters
      refine .inl ⟨by rw [hnext], by rw [hnext], fun tx => ?_⟩
      have hws : t.service.sfu.ws = Function.update s.service.sfu.ws c
          { s.service.sfu.ws c with queue := (s.service.sfu.ws c).queue.drop 1 } := by
        rw [hnext]
        rfl
      rw [settled, hws, settled]
      rcases eq_or_ne tx c with rfl | hne
      · -- the head of the queue has become part of the roster
        rw [Function.update_self]
        dsimp only
        cases hqueue : (s.service.sfu.ws tx).queue with
        | nil =>
          rw [hqueue] at hrosters
          rw [hrosters]
          rfl
        | cons msg rest =>
          rw [hqueue] at hrosters
          rw [hrosters, List.drop_one, List.tail_cons, List.foldl_cons]
          exact congrArg (rest.foldl Roster.handle) (Function.update_self ..)
      · rw [Function.update_of_ne hne, hrosters]
        cases (s.service.sfu.ws c).queue with
        | nil => rfl
        | cons msg rest =>
          exact congrArg ((s.service.sfu.ws tx).queue.foldl Roster.handle)
            (Function.update_of_ne hne ..)
  | _ => exact .inr ⟨hrosters, hturn, fun _ h => by cases h⟩

/-- What is asked of a step: new sessions have new ids, nothing that is said about who is
there is dropped, and a participant that registers has no slot. -/
def Orderly (s : Call S) (a : Service.Act) : Prop :=
  s.service.DrawsFresh a ∧ s.service.NoDrop a ∧ s.service.RegistersOnce a

/-- Whether a step is orderly can be computed. -/
instance (s : Call S) (a : Service.Act) : Decidable (s.Orderly a) :=
  inferInstanceAs (Decidable (_ ∧ _ ∧ _))

/-- **A step keeps the clients right.** -/
theorem Agreed.step (hs : s.Agreed) {a : Service.Act} (hok : s.Orderly a)
    (hstep : (system S cfg).step s a t) : t.Agreed := by
  obtain ⟨hfresh, hroom, honce⟩ := hok
  rcases delivered_or_turn hstep with ⟨happ, hhandlers, hsettled⟩ | ⟨hrosters, hturn, hnot⟩
  · exact hs.keep (Service.slot?_congr happ) hhandlers hsettled
  have hsame (happ : t.service.app = s.service.app)
      (hhandlers : t.service.handlers = s.service.handlers)
      (hsignals : s.service.sfu.Signals t.service.sfu) : t.Agreed :=
    hs.keep (Service.slot?_congr happ) hhandlers (settled_of_signals hrosters hsignals)
  cases hturn with
  | idle hapart hws => exact hsame hapart.app hapart.handlers (.of_eq hws)
  | works hapart hsfu hdrain hclose =>
    exact hsame hapart.app hapart.handlers (SfuShard.signals_step hsfu hdrain hclose)
  | delivers => exact absurd rfl (hnot _)
  | complains hapart hsfu =>
    exact hsame hapart.app hapart.handlers (hsfu ▸ SfuShard.signals_wsTrySend rfl _ _)
  | creates _ heq =>
    refine hs.keep (fun sid pid => ?_) (by rw [heq])
      (settled_of_signals hrosters (.of_eq (by rw [heq])))
    rw [Service.slot?, heq, Service.slot?, Dict.lookup_insert_eq]
    split
    · -- nobody is in a new session
      rename_i hsid
      rw [hsid, hfresh.lookup]
      rfl
    · rfl
  | connects _ hnone _ heq => exact hs.connects hrosters hnone heq
  | locates hphase _ hacts happ =>
    refine (deed_silent hs hrosters hacts happ rfl rfl (fun _ hseated => ?_)
      fun _ => .inl hphase).agreed hs
    rw [hphase] at hseated
    cases hseated
  | goes hgoes hacts howns happ =>
    refine (deed_silent hs hrosters hacts happ rfl rfl (fun hours => seated_of_goes hgoes ?_)
      fun hout => absurd hout (inside_of_goes hgoes)).agreed hs
    intro hphase
    rw [howns hphase] at hours
    cases hours
  | publishes htells hacts happ =>
    exact (deed_silent hs hrosters hacts happ rfl rfl (fun _ => seated_of_tells htells)
      fun hout => absurd hout (inside_of_tells htells)).agreed hs
  | alters halters hacts happ _ hsent =>
    exact (deed_alters hs hrosters halters hacts happ hsent hroom).agreed hs
  | registers hphase hsession hacts happ =>
    exact (deed_registers hs hrosters hphase hsession hacts happ hroom honce).agreed hs
  | releases hphase howns hsession hacts happ =>
    exact (deed_releases hrosters hphase howns hsession hacts happ hroom).agreed hs

/-- In the orderly runs the rosters agree with the slots. -/
theorem agreed_of_reach (hs : (system S cfg).Reach Orderly s) : s.Agreed := by
  refine hs.invariant (fun s hinit => ?_) fun s a t hs hok hstep => hs.step hok hstep
  obtain ⟨⟨_, _, hservice⟩, hrosters⟩ := hinit
  refine ⟨fun sid pid p hp => ?_, fun c _ => ?_, fun c h hc _ => ?_⟩
  · rw [hservice] at hp
    cases hp
  · rw [settled, hservice, hrosters]
    exact Roster.shows_new
  · rw [hservice] at hc
    cases hc

end Call

/-- **The clients agree on who is in the call.** In every run in which new sessions have new
ids, no message about who is there is dropped, and a participant that registers has no slot:
at a connection that owns its slot, the client knows, once all messages that were sent to it
are delivered, of the others in its session and of nobody else, each once, and shows their
mute and deafen states as their slots have them. -/
theorem roster_agrees {S : Str0m} {cfg : Config} {s : Call S}
    (hs : (Call.system S cfg).Reach Call.Orderly s) {c : WsTx} {h : Handler}
    (hc : s.service.handlers c = some h) (howns : s.service.owns c h = true) :
    (s.settled c).Shows (s.service.others h) :=
  (Call.agreed_of_reach hs).owner c h hc howns

/-- Somebody without an account is in session 7 when user 42 comes. -/
def twoInCall : List Service.Act :=
  [.createSession 5 6 7, .connect 10 7 "anonymous" none 99, .advance 10, .advance 10, .advance 10,
    .receive 10 (.muteChanged "audio" false), .advance 10, .connect 11 7 "42" (some 42) 0,
    .advance 11, .advance 11, .advance 11, .receive 11 (.deafenChanged true)]

/-- The state after a list of steps. -/
def callRun (as : List Service.Act) : Call scripted :=
  as.foldl (Call.next reconnectConfig) ⟨.new [(1, 2)] 12000, fun _ => {}⟩

/-- What `next` makes is a step. -/
theorem step_callNext (s : Call scripted) (a : Service.Act) :
    (Call.system scripted reconnectConfig).step s a (s.next reconnectConfig a) :=
  ⟨.next _ _, rfl⟩

/-- The run in which two are in a call is orderly. -/
theorem reach_twoInCall :
    (Call.system scripted reconnectConfig).Reach Call.Orderly (callRun twoInCall) :=
  System.Reach.foldl step_callNext (.start ⟨⟨_, _, rfl⟩, rfl⟩) (by decide)

/-- Each of the two shows the other. -/
theorem roster_agrees_twoInCall :
    ((callRun twoInCall).settled 10).prev.filter (fun p => p.participantId = 8) =
      [⟨8, "42", true, true⟩] ∧
    ((callRun twoInCall).settled 11).participants.lookup 99 =
      some ⟨99, "anonymous", false, false⟩ := by
  obtain ⟨h₁₀, hh₁₀⟩ := Option.isSome_iff_exists.mp
    (show ((callRun twoInCall).service.handlers 10).isSome from by decide)
  obtain ⟨h₁₁, hh₁₁⟩ := Option.isSome_iff_exists.mp
    (show ((callRun twoInCall).service.handlers 11).isSome from by decide)
  have hothers₁₀ : ((callRun twoInCall).service.handlers 10).all (fun h =>
      decide ((callRun twoInCall).service.others h 8 = some ⟨8, "42", true, true⟩) &&
        (callRun twoInCall).service.owns 10 h) = true := by decide
  have hothers₁₁ : ((callRun twoInCall).service.handlers 11).all (fun h =>
      decide ((callRun twoInCall).service.others h 99 = some ⟨99, "anonymous", false, false⟩) &&
        (callRun twoInCall).service.owns 11 h) = true := by decide
  rw [hh₁₀, Option.all_some, Bool.and_eq_true, decide_eq_true_eq] at hothers₁₀
  rw [hh₁₁, Option.all_some, Bool.and_eq_true, decide_eq_true_eq] at hothers₁₁
  constructor
  · rw [(roster_agrees reach_twoInCall hh₁₀ hothers₁₀.2).filter, hothers₁₀.1]
    rfl
  · rw [(roster_agrees reach_twoInCall hh₁₁ hothers₁₁.2).lookup, hothers₁₁.1]

/-- User 42 comes back on connection 12, and everything is delivered. -/
def comesBack : List Service.Act :=
  twoInCall ++ [.connect 12 7 "42" (some 42) 0, .advance 12, .advance 12, .advance 12, .deliver 10,
    .deliver 10, .deliver 10, .deliver 12, .deliver 12, .deliver 12, .deliver 12]

/-- **A client shows somebody twice, and another one itself**, after a reconnect: the new
connection is greeted with the slot that it takes over, and the other client has the
participant in its list already. -/
theorem roster_repeated : ∃ s : Call scripted,
    (Call.system scripted reconnectConfig).Reach
      (fun s a => s.service.DrawsFresh a ∧ s.service.NoDrop a) s ∧
    (∃ h, s.service.handlers 12 = some h ∧ s.service.owns 12 h = true ∧
      (s.service.sfu.ws 12).queue = [] ∧ (s.rosters 12).participants.lookup h.pid ≠ none) ∧
    ∃ h, s.service.handlers 10 = some h ∧ s.service.owns 10 h = true ∧
      (s.service.sfu.ws 10).queue = [] ∧
      ((s.rosters 10).prev.filter fun p => p.participantId = 8).length = 2 := by
  refine ⟨callRun comesBack, System.Reach.foldl step_callNext (.start ⟨⟨_, _, rfl⟩, rfl⟩)
    (by decide), ?_, ?_⟩
  · exact ⟨_, (Option.some_get (show ((callRun comesBack).service.handlers 12).isSome from
      by decide)).symm, by decide, by decide, by decide⟩
  · exact ⟨_, (Option.some_get (show ((callRun comesBack).service.handlers 10).isSome from
      by decide)).symm, by decide, by decide, by decide⟩

end Video

end MateHub
