import MateHub.Lib.Runs
import MateHub.Web.VoiceStores

/-!
# Keeping the voice stores in step with the hub

The consumers of the hub store and broadcast, the presence connection opens, is subscribed and
drops, and the client fetches `members-full`, in any order. When nothing is on its way any more the
stores of the client need not have what the hub has stored
(`MateHub.Web.stores_diverge`): an answer that was read before an event may come after it, what is
broadcast between `onopen` and the subscription is lost, and an event may overtake another one of
the same user.

In the runs in which none of this happens (`MateHub.Web.VoiceSync.Orderly`) they have
(`MateHub.Web.stores_of_reach`).
-/

namespace MateHub

namespace Web

open Video

/-! ### The hub and the client -/

/-- A fetch of `members-full` that has not been answered. -/
structure Fetch where
  /-- The hashes, once they have been read. -/
  occupancy : Option (Dict ℤ ChannelId) := none
  mutes : Option (Dict (ℤ × MediaKind) Bool) := none
  /-- The commands that have been done since it was started. -/
  since : List VoiceCommand := []

/-- A presence connection, as the client and the hub see it. -/
structure PresenceConn where
  opened : Bool := false
  subscribed : Bool := false
  /-- What the hub has sent and the client has not received. -/
  queue : List PresenceMessage := []
  deriving DecidableEq

/-- The consumers of the hub, and the client with its connection and its fetches. -/
structure VoiceSync where
  store : VoiceStore
  /-- The event that a consumer is at, and the commands that it still has to do for it. -/
  busy : VoiceSubject → Option (NatsEvent × List VoiceCommand)
  /-- The commands that have been done for these events, in their order. -/
  kept : List VoiceCommand
  conn : Option PresenceConn
  fetches : List Fetch
  stores : VoiceStores

/-- What happens between the consumers, the store and a page. -/
inductive SyncAct
  /-- A consumer of the hub takes up an event. -/
  | hear (ev : NatsEvent)
  /-- It does the next command. -/
  | store (subject : VoiceSubject)
  /-- It has done them all, and broadcasts the event. -/
  | broadcast (subject : VoiceSubject)
  | connect
  | subscribe
  /-- `onopen`. -/
  | opened
  | message
  | dropped
  | fetch
  | readOccupancy (i : ℕ)
  | readMutes (i : ℕ)
  /-- A fetch is answered with these members. -/
  | answer (i : ℕ) (members : List ℤ)

/-- Who consumes an event. -/
def subjectOf : NatsEvent → VoiceSubject
  | .occupancy _ _ _ _ => .occupancy
  | .mute _ _ _ _ => .mute

namespace VoiceSync

/-- The state after a step; where it is not its turn, nothing happens. -/
def next (hubId : HubId) (w : VoiceSync) : SyncAct → VoiceSync
  | .hear ev =>
    match w.busy (subjectOf ev), ev.commands with
    | none, c :: cs => { w with busy := Function.update w.busy (subjectOf ev) (some (ev, c :: cs)) }
    | _, _ => w
  | .store subject =>
    match w.busy subject with
    | some (ev, c :: todo) =>
      { w with
        store := w.store.apply c
        busy := Function.update w.busy subject (some (ev, todo))
        kept := w.kept ++ [c]
        fetches := w.fetches.map fun f => { f with since := f.since ++ [c] } }
    | _ => w
  | .broadcast subject =>
    match w.busy subject with
    | some (ev, []) =>
      { w with
        busy := Function.update w.busy subject none
        kept := w.kept.filter fun c => !decide (c.subject = subject)
        conn := w.conn.map fun conn =>
          if conn.subscribed ∧ (broadcastOf ev).1 = hubId then
            { conn with queue := conn.queue ++ [(broadcastOf ev).2] }
          else conn }
    | _ => w
  | .connect => if w.conn.isNone then { w with conn := some {} } else w
  | .subscribe => { w with conn := w.conn.map fun conn => { conn with subscribed := true } }
  | .opened =>
    match w.conn with
    | some conn =>
      if conn.opened then w
      else { w with
        conn := some { conn with opened := true }
        fetches := w.fetches ++ [{}] }
    | none => w
  | .message =>
    match w.conn with
    | some conn =>
      match conn.opened, conn.queue with
      | true, m :: queue =>
        { w with
          conn := some { conn with queue := queue }
          stores := w.stores.onMessage m }
      | _, _ => w
    | none => w
  | .dropped => { w with conn := none }
  | .fetch => { w with fetches := w.fetches ++ [{}] }
  | .readOccupancy i =>
    { w with
      fetches := w.fetches.modify i fun f =>
        { f with occupancy := f.occupancy.or (some (w.store.occupancy hubId)) } }
  | .readMutes i =>
    { w with
      fetches := w.fetches.modify i fun f =>
        { f with mutes := f.mutes.or (some (w.store.mutes hubId)) } }
  | .answer i members =>
    match w.fetches[i]? with
    | some { occupancy := some occupancy, mutes := some mutes, .. } =>
      { w with
        fetches := w.fetches.eraseIdx i
        stores := w.stores.onSuccess (getMembersFull occupancy mutes members) }
    | _ => w

end VoiceSync

/-- The client is loaded with empty stores, whoever is in voice. -/
def voiceSync (hubId : HubId) : System VoiceSync SyncAct where
  init := fun w => ∃ store, w = ⟨store, fun _ => none, [], none, [], ⟨∅, ∅⟩⟩
  step := fun w a w' => w' = w.next hubId a

namespace VoiceSync

variable {hubId : HubId} {w : VoiceSync}

/-! ### The condition -/

/-- The messages on their way to the client. -/
def queue (w : VoiceSync) : List PresenceMessage := (w.conn.map PresenceConn.queue).getD []

/-- What is on its way to the client: the messages, and what is done and not broadcast. -/
def way (hubId : HubId) (w : VoiceSync) : List (Replica.Assignment VoiceKey VoiceValue) :=
  w.queue.map assigns ++ w.kept.map (sets hubId)

/-- The connection is open for the client. -/
def Opened (w : VoiceSync) : Prop := ∃ conn ∈ w.conn, conn.opened = true

/-- The commands that a consumer has done for the event that it is at. -/
def own (w : VoiceSync) (subject : VoiceSubject) : List VoiceCommand :=
  w.kept.filter fun c => decide (c.subject = subject)

/-- The commands that the other one has done. -/
def others (w : VoiceSync) (subject : VoiceSubject) : List VoiceCommand :=
  w.kept.filter fun c => !decide (c.subject = subject)

/-- **The condition on a step**: an event that is broadcast overtakes none that the other consumer
has stored before and that sets the same to something else; if the connection is open but not
subscribed, the event tells the client something new only while a fetch is on its way; and the last
fetch on its way is answered only if the answer agrees with what has been stored since it was
started, of all that no event on its way will set, lists everybody in voice, and has no mute of
anybody else. -/
def Orderly (hubId : HubId) (w : VoiceSync) : SyncAct → Prop
  | .broadcast subject =>
    (w.kept.Pairwise fun c c' => c.subject ≠ subject → c'.subject = subject →
      Replica.Agree (sets hubId c) (sets hubId c')) ∧
    (w.fetches = [] → ∀ conn ∈ w.conn, conn.opened = true → conn.subscribed = false →
      ∀ k v, Replica.last ((w.others subject).map (sets hubId)) k = none →
        Replica.last ((w.own subject).map (sets hubId)) k = some v → w.stores.value k = v)
  | .answer _ members =>
    w.Opened → ∀ f occupancy mutes, w.fetches = [f] → f.occupancy = some occupancy →
      f.mutes = some mutes → ∀ k, Replica.last (w.way hubId) k = none →
        (∀ v, Replica.last (f.since.map (sets hubId)) k = some v →
          hashValue occupancy mutes k = v) ∧ VoiceStores.Faithful occupancy mutes members k
  | _ => True

/-- Nothing is on its way. -/
structure Quiet (w : VoiceSync) : Prop where
  conn : w.conn = some { opened := true, subscribed := true, queue := [] }
  fetches : w.fetches = []
  busy : ∀ subject, w.busy subject = none

end VoiceSync

/-! ### What is kept -/

/-- **What a fetch has read** is what is stored, but for what has been stored since it was
started. -/
structure Fetch.Reads (hubId : HubId) (store : VoiceStore) (f : Fetch) : Prop where
  truthful : Replica.Truthful (stored store hubId) (f.since.map (sets hubId))
  occupancy : ∀ occupancy ∈ f.occupancy, ∀ userId,
    Replica.last (f.since.map (sets hubId)) (.occupancy userId) = none →
      .channel (occupancy.lookup userId) = stored store hubId (.occupancy userId)
  mutes : ∀ mutes ∈ f.mutes, ∀ userId kind,
    Replica.last (f.since.map (sets hubId)) (.mute userId kind) = none →
      .muted ((mutes.lookup (userId, kind)).getD true) = stored store hubId (.mute userId kind)

namespace Fetch.Reads

variable {hubId : HubId} {st : VoiceStore} {f : Fetch}

theorem new : Fetch.Reads hubId st {} where
  truthful := Replica.truthful_nil
  occupancy := fun _ h => by cases h
  mutes := fun _ h => by cases h

theorem settles (h : f.Reads hubId st) {occupancy : Dict ℤ ChannelId}
    {mutes : Dict (ℤ × MediaKind) Bool} (hocc : f.occupancy = some occupancy)
    (hmutes : f.mutes = some mutes) :
    Replica.Settles (stored st hubId) (f.since.map (sets hubId)) (hashValue occupancy mutes) := by
  intro k hk
  cases k with
  | occupancy userId => exact h.occupancy _ hocc userId hk
  | mute userId kind => exact h.mutes _ hmutes userId kind hk

/-- A command is done. -/
theorem apply (h : f.Reads hubId st) (c : VoiceCommand) :
    Fetch.Reads hubId (st.apply c) { f with since := f.since ++ [c] } := by
  have hsince : (f.since ++ [c]).map (sets hubId) = f.since.map (sets hubId) ++ [sets hubId c] :=
    List.map_append
  have hsame {k : VoiceKey} (hk : Replica.last ((f.since ++ [c]).map (sets hubId)) k = none) :
      Replica.last (f.since.map (sets hubId)) k = none ∧
        stored (st.apply c) hubId k = stored st hubId k := by
    rw [stored_apply]
    exact Replica.assign_of_last _ (hsince ▸ hk)
  constructor
  · rw [hsince, stored_apply]
    exact h.truthful.store _
  · intro occupancy hocc userId hk
    rw [(hsame hk).2]
    exact h.occupancy occupancy hocc userId (hsame hk).1
  · intro mutes hmutes userId kind hk
    rw [(hsame hk).2]
    exact h.mutes mutes hmutes userId kind (hsame hk).1

theorem readOccupancy (h : f.Reads hubId st) :
    Fetch.Reads hubId st
      { f with occupancy := f.occupancy.or (some (st.occupancy hubId)) } where
  truthful := h.truthful
  occupancy := fun occupancy hocc userId hk => by
    rcases hread : f.occupancy with _ | occupancy'
    · simp only [hread, Option.none_or, Option.mem_def, Option.some.injEq] at hocc
      rw [← hocc]
      rfl
    · simp only [hread, Option.some_or, Option.mem_def, Option.some.injEq] at hocc
      exact h.occupancy occupancy (hocc ▸ hread) userId hk
  mutes := h.mutes

theorem readMutes (h : f.Reads hubId st) :
    Fetch.Reads hubId st { f with mutes := f.mutes.or (some (st.mutes hubId)) } where
  truthful := h.truthful
  occupancy := h.occupancy
  mutes := fun mutes hmutes userId kind hk => by
    rcases hread : f.mutes with _ | mutes'
    · simp only [hread, Option.none_or, Option.mem_def, Option.some.injEq] at hmutes
      rw [← hmutes]
      rfl
    · simp only [hread, Option.some_or, Option.mem_def, Option.some.injEq] at hmutes
      exact h.mutes mutes (hmutes ▸ hread) userId kind hk

end Fetch.Reads

namespace VoiceSync

variable {hubId : HubId} {w : VoiceSync}

/-- **What is kept in every run that is in order.** -/
structure Synced (hubId : HubId) (w : VoiceSync) : Prop where
  busy : ∀ subject ev todo, w.busy subject = some (ev, todo) →
    subjectOf ev = subject ∧ w.own subject ++ todo = ev.commands
  idle : ∀ subject, w.busy subject = none → w.own subject = []
  unsubscribed : ∀ conn ∈ w.conn, conn.subscribed = false → conn.queue = []
  truthful : Replica.Truthful (stored w.store hubId) (w.way hubId)
  fetches : ∀ f ∈ w.fetches, f.Reads hubId w.store
  shown : w.Opened → w.fetches = [] →
    Replica.Settles (stored w.store hubId) (w.way hubId) w.stores.value

theorem subject_of_mem_commands {ev : NatsEvent} {c : VoiceCommand} (h : c ∈ ev.commands) :
    c.subject = subjectOf ev := by
  rcases ev with ⟨hubId, userId, _ | channelId, callId⟩ | ⟨hubId, userId, kind, muted⟩
  · rcases List.mem_pair.mp h with rfl | rfl <;> rfl
  · rw [List.mem_singleton.mp h]
    rfl
  · rcases hkind : muteKind kind with _ | kind'
    · simp [NatsEvent.commands, hkind] at h
    · simp only [NatsEvent.commands, hkind, List.mem_singleton] at h
      rw [h]
      rfl

namespace Synced

theorem hear (h : w.Synced hubId) (ev : NatsEvent) : (w.next hubId (.hear ev)).Synced hubId := by
  unfold next
  dsimp only
  split
  · rename_i c cs hidle hcommands
    refine ⟨fun subject ev' todo hbusy => ?_, fun subject hbusy => ?_, h.unsubscribed, h.truthful,
      h.fetches, h.shown⟩
    · have hbusy : Function.update w.busy (subjectOf ev) (some (ev, c :: cs)) subject =
        some (ev', todo) := hbusy
      by_cases hs : subject = subjectOf ev
      · subst hs
        rw [Function.update_self] at hbusy
        obtain ⟨rfl, rfl⟩ := Prod.mk.inj (Option.some.inj hbusy)
        refine ⟨rfl, ?_⟩
        change w.own (subjectOf ev) ++ _ = _
        rw [h.idle _ hidle, hcommands, List.nil_append]
      · rw [Function.update_of_ne hs] at hbusy
        exact h.busy subject ev' todo hbusy
    · have hbusy : Function.update w.busy (subjectOf ev) (some (ev, c :: cs)) subject = none :=
        hbusy
      by_cases hs : subject = subjectOf ev
      · subst hs
        rw [Function.update_self] at hbusy
        cases hbusy
      · rw [Function.update_of_ne hs] at hbusy
        exact h.idle subject hbusy
  · exact h

theorem own_concat {kept : List VoiceCommand} {c : VoiceCommand} (subject : VoiceSubject) :
    (kept ++ [c]).filter (fun c => decide (c.subject = subject)) =
      kept.filter (fun c => decide (c.subject = subject)) ++
        if c.subject = subject then [c] else [] := by
  rw [List.filter_append, List.filter_singleton]
  simp

theorem store (h : w.Synced hubId) (subject : VoiceSubject) :
    (w.next hubId (.store subject)).Synced hubId := by
  unfold next
  dsimp only
  split
  · rename_i ev c todo hbusy
    obtain ⟨hsubject, hcommands⟩ := h.busy subject ev _ hbusy
    have hc : c.subject = subject :=
      (subject_of_mem_commands (hcommands ▸ List.mem_append_right _ (.head _))).trans hsubject
    have hway : w.queue.map assigns ++ (w.kept ++ [c]).map (sets hubId) =
        w.way hubId ++ [sets hubId c] := by
      rw [List.map_append, way, List.append_assoc]
      rfl
    refine ⟨fun s ev' todo' hs => ?_, fun s hs => ?_, h.unsubscribed, ?_, ?_, ?_⟩
    · have hs : Function.update w.busy subject (some (ev, todo)) s = some (ev', todo') := hs
      change _ ∧ (w.kept ++ [c]).filter _ ++ todo' = _
      rw [own_concat]
      by_cases heq : s = subject
      · subst heq
        rw [Function.update_self] at hs
        obtain ⟨rfl, rfl⟩ := Prod.mk.inj (Option.some.inj hs)
        rw [if_pos hc, List.append_assoc]
        exact ⟨hsubject, hcommands⟩
      · rw [Function.update_of_ne heq] at hs
        rw [if_neg fun hcs => heq (hcs.symm.trans hc), List.append_nil]
        exact h.busy s ev' todo' hs
    · have hs : Function.update w.busy subject (some (ev, todo)) s = none := hs
      change (w.kept ++ [c]).filter _ = _
      rw [own_concat]
      by_cases heq : s = subject
      · subst heq
        rw [Function.update_self] at hs
        cases hs
      · rw [Function.update_of_ne heq] at hs
        rw [if_neg fun hcs => heq (hcs.symm.trans hc), List.append_nil]
        exact h.idle s hs
    · change Replica.Truthful (stored (w.store.apply c) hubId)
        (w.queue.map assigns ++ (w.kept ++ [c]).map (sets hubId))
      rw [hway, stored_apply]
      exact h.truthful.store _
    · intro f hf
      obtain ⟨f', hf', rfl⟩ := List.mem_map.mp hf
      exact (h.fetches f' hf').apply c
    · intro hopened hnone
      change Replica.Settles (stored (w.store.apply c) hubId)
        (w.queue.map assigns ++ (w.kept ++ [c]).map (sets hubId)) w.stores.value
      rw [hway, stored_apply]
      exact (h.shown hopened (List.map_eq_nil_iff.mp hnone)).store _
  · exact h

/-- What the consumer that broadcasts has done moves to the front. -/
theorem last_way (subject : VoiceSubject)
    (hagree : w.kept.Pairwise fun c c' => c.subject ≠ subject → c'.subject = subject →
      Replica.Agree (sets hubId c) (sets hubId c')) :
    Replica.last (w.queue.map assigns ++ ((w.own subject).map (sets hubId) ++
      (w.others subject).map (sets hubId))) = Replica.last (w.way hubId) := by
  have hmoved := Replica.last_filter (sets hubId) (fun c => decide (c.subject = subject))
    (hagree.imp fun h ha hb => h (of_decide_eq_false ha) (of_decide_eq_true hb))
  funext k
  rw [Replica.last_append, own, others, hmoved, way, Replica.last_append]

/-- The consumer that broadcasts is done. -/
theorem own_broadcast (subject s : VoiceSubject) :
    (w.others subject).filter (fun c => decide (c.subject = s)) =
      if s = subject then [] else w.own s := by
  rw [others, List.filter_filter]
  split_ifs with hs
  · subst hs
    exact List.filter_eq_nil_iff.mpr fun c _ => by simp
  · refine List.filter_congr fun c _ => ?_
    by_cases hc : c.subject = s
    · simp [hc, hs]
    · simp [hc]

/-- The state after a broadcast, whether or not it is sent to the client. -/
theorem of_broadcast (h : w.Synced hubId) {subject : VoiceSubject} {conn : Option PresenceConn}
    (hunsubscribed : ∀ c ∈ conn, c.subscribed = false → c.queue = [])
    (htruthful : Replica.Truthful (stored w.store hubId)
      (way hubId { w with kept := w.others subject, conn := conn }))
    (hshown : Opened { w with conn := conn } → w.fetches = [] →
      Replica.Settles (stored w.store hubId)
        (way hubId { w with kept := w.others subject, conn := conn }) w.stores.value) :
    Synced hubId { w with
      busy := Function.update w.busy subject none
      kept := w.others subject
      conn := conn } := by
  refine ⟨fun s ev todo hs => ?_, fun s hs => ?_, hunsubscribed, htruthful, h.fetches, hshown⟩
  · have hs : Function.update w.busy subject none s = some (ev, todo) := hs
    change _ ∧ (w.others subject).filter _ ++ todo = _
    rw [own_broadcast]
    by_cases heq : s = subject
    · subst heq
      rw [Function.update_self] at hs
      cases hs
    · rw [Function.update_of_ne heq] at hs
      rw [if_neg heq]
      exact h.busy s ev todo hs
  · have hs : Function.update w.busy subject none s = none := hs
    change (w.others subject).filter _ = _
    rw [own_broadcast]
    by_cases heq : s = subject
    · rw [if_pos heq]
    · rw [Function.update_of_ne heq] at hs
      rw [if_neg heq]
      exact h.idle s hs

/-- What the hub sends to the client, if it is subscribed. -/
theorem queue_sent (ev : NatsEvent) (conn : PresenceConn) :
    (if conn.subscribed ∧ (broadcastOf ev).1 = hubId then
      { conn with queue := conn.queue ++ [(broadcastOf ev).2] } else conn).queue =
    conn.queue ++ if conn.subscribed ∧ (broadcastOf ev).1 = hubId then [(broadcastOf ev).2]
      else [] := by
  split_ifs
  · rfl
  · exact (List.append_nil _).symm

/-- **An event that is sent, or that is of another hub**, stays on its way. -/
theorem last_sent {ev : NatsEvent} {sent : Prop} [Decidable sent] (queue : List PresenceMessage)
    {own : List VoiceCommand} (others : List VoiceCommand) (hown : own = ev.commands)
    (hsent : sent ↔ (broadcastOf ev).1 = hubId) :
    Replica.last ((queue ++ if sent then [(broadcastOf ev).2] else []).map assigns ++
        others.map (sets hubId)) =
      Replica.last (queue.map assigns ++ (own.map (sets hubId) ++ others.map (sets hubId))) := by
  funext k
  rw [List.map_append, List.append_assoc, Replica.last_append, Replica.last_append,
    Replica.last_append, Replica.last_append, hown]
  congr 2
  split_ifs with hif
  · rw [← hsent.mp hif, last_commands]
    rfl
  · rw [last_commands_of_ne fun heq => hif (hsent.mpr heq.symm)]
    rfl

theorem broadcast (h : w.Synced hubId) (subject : VoiceSubject)
    (hok : w.Orderly hubId (.broadcast subject)) :
    (w.next hubId (.broadcast subject)).Synced hubId := by
  obtain ⟨hagree, htold⟩ := hok
  have hlast := last_way subject hagree
  unfold next
  dsimp only
  split
  · rename_i ev hbusy
    obtain ⟨hsubject, hcommands⟩ := h.busy subject ev _ hbusy
    rw [List.append_nil] at hcommands
    rcases hconn : w.conn with _ | conn
    · -- there is no connection
      have hqueue : w.queue = [] := by
        rw [queue, hconn]
        rfl
      rw [hqueue, List.map_nil, List.nil_append] at hlast
      refine of_broadcast h (fun _ hc => by cases hc) (h.truthful.congr hlast).of_append ?_
      rintro ⟨_, hc, -⟩
      cases hc
    · have hqueue : w.queue = conn.queue := by
        rw [queue, hconn]
        rfl
      rw [hqueue] at hlast
      rw [Option.map_some]
      by_cases hlost : conn.subscribed = false ∧ (broadcastOf ev).1 = hubId
      · -- it goes to nobody
        have hnil : conn.queue = [] := h.unsubscribed conn hconn hlost.1
        rw [hnil, List.map_nil, List.nil_append] at hlast
        have hsame : (if conn.subscribed ∧ (broadcastOf ev).1 = hubId then
            { conn with queue := conn.queue ++ [(broadcastOf ev).2] } else conn) = conn :=
          if_neg fun hsent => by simp [hlost.1] at hsent
        have hway : way hubId { w with kept := w.others subject, conn := some conn } =
            (w.others subject).map (sets hubId) := by
          rw [way, queue, Option.map_some, Option.getD_some, hnil]
          rfl
        rw [hsame]
        refine of_broadcast h (fun c hc hnot => ?_) ?_ fun hopened hnone => ?_
        · exact h.unsubscribed c (hconn.trans hc) hnot
        · rw [hway]
          exact (h.truthful.congr hlast).of_append
        · obtain ⟨c, hc, hopened⟩ := hopened
          obtain rfl := Option.some.inj hc
          rw [hway]
          exact ((h.shown ⟨conn, hconn, hopened⟩ hnone).congr hlast).miss
            (h.truthful.congr hlast) (htold hnone conn hconn hopened hlost.1)
      · have hsent : (conn.subscribed ∧ (broadcastOf ev).1 = hubId) ↔ (broadcastOf ev).1 = hubId :=
          ⟨And.right, fun heq => ⟨Bool.eq_true_of_not_eq_false fun hnot => hlost ⟨hnot, heq⟩, heq⟩⟩
        have hway : way hubId { w with
            kept := w.others subject
            conn := some (if conn.subscribed ∧ (broadcastOf ev).1 = hubId then
              { conn with queue := conn.queue ++ [(broadcastOf ev).2] } else conn) } =
            (conn.queue ++ if conn.subscribed ∧ (broadcastOf ev).1 = hubId then
              [(broadcastOf ev).2] else []).map assigns ++
                (w.others subject).map (sets hubId) := by
          rw [← queue_sent]
          rfl
        have hstays := (last_sent conn.queue (w.others subject) hcommands hsent).trans hlast
        refine of_broadcast h (fun c hc hnot => ?_) ?_ fun hopened hnone => ?_
        · obtain rfl := Option.some.inj hc
          split_ifs at hnot ⊢ with hif
          · exact absurd (hif.1.symm.trans hnot) (by simp)
          · exact h.unsubscribed conn hconn hnot
        · rw [hway]
          exact h.truthful.congr hstays
        · obtain ⟨c, hc, hopened⟩ := hopened
          obtain rfl := Option.some.inj hc
          rw [hway]
          refine (h.shown ⟨conn, hconn, ?_⟩ hnone).congr hstays
          split_ifs at hopened
          · exact hopened
          · exact hopened
  · exact h

theorem message (h : w.Synced hubId) : (w.next hubId .message).Synced hubId := by
  unfold next
  dsimp only
  split
  · rename_i conn hconn
    split
    · rename_i m queue hopened hqueue
      have hway : way hubId w = [assigns m] ++ (queue.map assigns ++ w.kept.map (sets hubId)) := by
        rw [way, VoiceSync.queue, hconn, Option.map_some, Option.getD_some, hqueue]
        rfl
      have htrue := h.truthful
      rw [hway] at htrue
      refine ⟨h.busy, h.idle, fun c hc hnot => ?_, htrue.of_append, h.fetches, fun _ hnone => ?_⟩
      · obtain rfl := Option.some.inj hc
        have hnil := h.unsubscribed conn hconn hnot
        rw [hqueue] at hnil
        cases hnil
      · have hshown := h.shown ⟨conn, hconn, hopened⟩ hnone
        rw [hway] at hshown
        change Replica.Settles _ _ (w.stores.onMessage m).value
        rw [VoiceStores.value_onMessage]
        exact hshown.take htrue
    · exact h
  · exact h

theorem dropped (h : w.Synced hubId) : (w.next hubId .dropped).Synced hubId where
  busy := h.busy
  idle := h.idle
  unsubscribed := fun _ hc => by cases hc
  truthful := h.truthful.of_append
  fetches := h.fetches
  shown := fun ⟨_, hc, _⟩ => by cases hc

/-- The connection gets on, and nothing is sent. -/
theorem of_conn (h : w.Synced hubId) {conn : Option PresenceConn}
    (hqueue : queue { w with conn := conn } = w.queue)
    (hunsubscribed : ∀ c ∈ conn, c.subscribed = false → c.queue = [])
    (hopened : Opened { w with conn := conn } → w.Opened) :
    Synced hubId { w with conn := conn } := by
  have hway : way hubId { w with conn := conn } = w.way hubId :=
    congrArg (fun q : List PresenceMessage => q.map assigns ++ w.kept.map (sets hubId)) hqueue
  refine ⟨h.busy, h.idle, hunsubscribed, ?_, h.fetches, fun ho hnone => ?_⟩
  · rw [hway]
    exact h.truthful
  · rw [hway]
    exact h.shown (hopened ho) hnone

/-- A fetch is started. -/
theorem start (h : w.Synced hubId) {conn : Option PresenceConn}
    (hqueue : queue { w with conn := conn } = w.queue)
    (hunsubscribed : ∀ c ∈ conn, c.subscribed = false → c.queue = []) :
    Synced hubId { w with conn := conn, fetches := w.fetches ++ [{}] } where
  busy := h.busy
  idle := h.idle
  unsubscribed := hunsubscribed
  truthful := by
    have hway : way hubId { w with conn := conn, fetches := w.fetches ++ [{}] } = w.way hubId :=
      congrArg (fun q : List PresenceMessage => q.map assigns ++ w.kept.map (sets hubId)) hqueue
    rw [hway]
    exact h.truthful
  fetches := fun f hf => by
    rcases List.mem_append.mp hf with hf | hf
    · exact h.fetches f hf
    · rw [List.mem_singleton.mp hf]
      exact .new
  shown := fun _ hnone => absurd hnone (by simp)

/-- A fetch has read something. -/
theorem read (h : w.Synced hubId) (i : ℕ) {g : Fetch → Fetch}
    (hg : ∀ f, f.Reads hubId w.store → (g f).Reads hubId w.store) :
    Synced hubId { w with fetches := w.fetches.modify i g } where
  busy := h.busy
  idle := h.idle
  unsubscribed := h.unsubscribed
  truthful := h.truthful
  fetches := fun f hf => by
    obtain ⟨j, hj⟩ := List.mem_iff_getElem?.mp hf
    rw [List.getElem?_modify] at hj
    obtain ⟨f', hf', rfl⟩ := Option.map_eq_some_iff.mp hj
    split_ifs
    · exact hg f' (h.fetches f' (List.mem_of_getElem? hf'))
    · exact h.fetches f' (List.mem_of_getElem? hf')
  shown := fun hopened hnone => h.shown hopened (by
    refine List.eq_nil_of_length_eq_zero ?_
    have hlength := congrArg List.length hnone
    rwa [List.length_modify] at hlength)

theorem answer (h : w.Synced hubId) (i : ℕ) (members : List ℤ)
    (hok : w.Orderly hubId (.answer i members)) :
    (w.next hubId (.answer i members)).Synced hubId := by
  unfold next
  dsimp only
  split
  · rename_i occupancy mutes since hf
    refine ⟨h.busy, h.idle, h.unsubscribed, h.truthful, fun f hmem =>
      h.fetches f (List.mem_of_mem_eraseIdx hmem), fun hopened hnone k hk => ?_⟩
    -- it is the last one on its way
    obtain ⟨hi, hget⟩ := List.getElem?_eq_some_iff.mp hf
    have hlength := congrArg List.length hnone
    rw [List.length_eraseIdx_of_lt hi, List.length_nil] at hlength
    obtain ⟨f, hlast⟩ := List.length_eq_one_iff.mp (by omega : w.fetches.length = 1)
    have hmem := List.mem_of_getElem? hf
    rw [hlast, List.mem_singleton] at hmem
    subst hmem
    have hreads := h.fetches _ (hlast ▸ List.mem_singleton_self _)
    obtain ⟨hagrees, hfaithful⟩ := hok hopened _ occupancy mutes hlast rfl rfl k hk
    refine (VoiceStores.value_onSuccess_of_faithful _ hfaithful).trans ?_
    rcases hsince : Replica.last (since.map (sets hubId)) k with _ | v
    · exact hreads.settles rfl rfl k hsince
    · exact (hagrees v hsince).trans (hreads.truthful k v hsince).symm
  · exact h

end Synced

/-- **The step lemma.** -/
theorem Synced.next (h : w.Synced hubId) {a : SyncAct} (hok : w.Orderly hubId a) :
    (w.next hubId a).Synced hubId := by
  cases a with
  | hear ev => exact h.hear ev
  | store subject => exact h.store subject
  | broadcast subject => exact h.broadcast subject hok
  | connect =>
    unfold VoiceSync.next
    dsimp only
    split_ifs with hnone
    · refine h.of_conn ?_ (fun c hc _ => ?_) ?_
      · rw [queue, queue, Option.isNone_iff_eq_none.mp hnone]
        rfl
      · obtain rfl := Option.some.inj hc
        rfl
      · rintro ⟨c, hc, hopened⟩
        obtain rfl := Option.some.inj hc
        cases hopened
    · exact h
  | subscribe =>
    refine h.of_conn ?_ (fun c hc hnot => ?_) ?_
    · rw [queue, queue, Option.map_map]
      rfl
    · obtain ⟨conn, hconn, rfl⟩ := Option.map_eq_some_iff.mp hc
      cases hnot
    · rintro ⟨c, hc, hopened⟩
      obtain ⟨conn, hconn, rfl⟩ := Option.map_eq_some_iff.mp hc
      exact ⟨conn, hconn, hopened⟩
  | opened =>
    unfold VoiceSync.next
    dsimp only
    split
    · rename_i conn hconn
      split_ifs
      · exact h
      · refine h.start ?_ fun c hc hnot => ?_
        · rw [queue, queue, hconn]
          rfl
        · obtain rfl := Option.some.inj hc
          exact h.unsubscribed conn hconn hnot
    · exact h
  | message => exact h.message
  | dropped => exact h.dropped
  | fetch => exact h.start rfl h.unsubscribed
  | readOccupancy i => exact h.read i fun _ hf => hf.readOccupancy
  | readMutes i => exact h.read i fun _ hf => hf.readMutes
  | answer i members => exact h.answer i members hok

/-- **The run lemma.** -/
theorem synced_of_reach (hw : (voiceSync hubId).Reach (Orderly hubId) w) : w.Synced hubId := by
  refine hw.invariant (fun w hinit => ?_) fun w a w' h hok hstep => hstep ▸ h.next hok
  obtain ⟨store, rfl⟩ := hinit
  refine ⟨fun _ _ _ hbusy => ?_, fun _ _ => rfl, fun _ hc => ?_, Replica.truthful_nil,
    fun _ hf => absurd hf List.not_mem_nil, ?_⟩
  · cases hbusy
  · cases hc
  · rintro ⟨_, hc, -⟩
    cases hc

/-- When nothing is on its way the stores have what is stored. -/
theorem Synced.value_eq (h : w.Synced hubId) (hquiet : w.Quiet) :
    w.stores.value = stored w.store hubId := by
  have hkept : w.kept = [] := by
    refine List.eq_nil_iff_forall_not_mem.mpr fun c hc => ?_
    have hown : c ∈ w.own c.subject := List.mem_filter.mpr ⟨hc, decide_eq_true rfl⟩
    rw [h.idle _ (hquiet.busy _)] at hown
    exact List.not_mem_nil hown
  have hway : w.way hubId = [] := by
    rw [way, queue, hquiet.conn, hkept]
    rfl
  funext k
  exact h.shown ⟨_, hquiet.conn, rfl⟩ hquiet.fetches k (by rw [hway]; rfl)

end VoiceSync

open VoiceSync in
/-- **Voice stores converge** in the runs in which no event overtakes another one of its user, no
answer comes after an event that it does not know of, and no event goes to nobody that nothing
tells the client of later: when nothing is on its way any more, the stores of the client have what
the hub has stored. -/
theorem stores_of_reach {hubId : HubId} {w : VoiceSync}
    (hw : (voiceSync hubId).Reach (Orderly hubId) w) (hquiet : w.Quiet) (userId : ℤ) :
    w.stores.occupancy.lookup userId = (w.store.occupancy hubId).lookup userId ∧
    ∀ kind, ((w.stores.mutes.lookup userId).getD .missing).muted kind =
      ((w.store.mutes hubId).lookup (userId, kind)).getD true := by
  have hvalue := (synced_of_reach hw).value_eq hquiet
  exact ⟨VoiceValue.channel.inj (congrFun hvalue (.occupancy userId)),
    fun kind => VoiceValue.muted.inj (congrFun hvalue (.mute userId kind))⟩

namespace VoiceSync

/-- User 5 comes to channel 3 of hub 1. -/
def arrival : NatsEvent := .occupancy 1 5 (some 3) 7

/-- A consumer handles an event. -/
def handles (ev : NatsEvent) : List SyncAct :=
  .hear ev :: ev.commands.map (fun c => .store c.subject) ++ [.broadcast (subjectOf ev)]

/-- Nobody is in voice, and the client is loaded. -/
def loaded : VoiceSync := ⟨⟨fun _ => ∅, fun _ => ∅⟩, fun _ => none, [], none, [], ⟨∅, ∅⟩⟩

/-- What comes of a run from a page that has loaded. -/
def run (as : List SyncAct) : VoiceSync := as.foldl (next 1) loaded

theorem reachable_run (as : List SyncAct) : (voiceSync 1).Reachable (run as) :=
  System.reachable_foldl (M := voiceSync 1) ⟨_, rfl⟩ (fun _ _ => rfl) as

/-- The connection is subscribed before it opens, and the answer comes before the event. -/
def inStep : List SyncAct :=
  [.connect, .subscribe, .opened, .readOccupancy 0, .readMutes 0] ++ handles arrival ++
    [.answer 0 [5], .message]

/-- Before the answer. -/
def awaiting : VoiceSync :=
  run ([.connect, .subscribe, .opened, .readOccupancy 0, .readMutes 0] ++ handles arrival)

theorem orderly_awaiting : awaiting.Orderly 1 (.answer 0 [5]) := by
  rintro - f occupancy mutes hfetch hocc hmutes k hk
  have hone : awaiting.fetches = [⟨some ∅, some ∅, [.occupancySet 1 5 3]⟩] := rfl
  have hway : awaiting.way 1 = [assigns (.voiceOccupancy 5 (some 3))] := rfl
  rw [hone] at hfetch
  rw [hway] at hk
  obtain rfl := (List.cons.inj hfetch).1
  obtain rfl := Option.some.inj hocc
  obtain rfl := Option.some.inj hmutes
  cases k with
  | occupancy userId =>
    have hne : userId ≠ 5 := fun heq => by simp [heq, Replica.last, assigns] at hk
    refine ⟨fun v hv => ?_, fun hsome => ?_⟩
    · simp [Replica.last, sets, hne] at hv
    · cases hsome
  | mute userId kind =>
    refine ⟨fun v hv => ?_, fun hfalse => ?_⟩
    · cases hv
    · cases hfalse

theorem reach_inStep : (voiceSync 1).Reach (Orderly 1) (run inStep) := by
  refine System.Reach.foldl (M := voiceSync 1) (fun _ _ => rfl) (.start ⟨_, rfl⟩)
    ⟨trivial, trivial, trivial, trivial, trivial, trivial, trivial, ⟨?_, ?_⟩, orderly_awaiting,
      trivial, trivial⟩
  · exact List.pairwise_singleton _ _
  · intro hnone
    exact absurd (congrArg List.length hnone) (by decide)

end VoiceSync

open VoiceSync in
/-- Who has come to a voice channel is shown there. -/
theorem stores_of_reach_inStep : (run inStep).stores.occupancy.lookup 5 = some 3 := by
  have hquiet : (run inStep).Quiet := ⟨rfl, rfl, fun subject => by cases subject <;> rfl⟩
  exact (stores_of_reach reach_inStep hquiet 5).1.trans (by decide +kernel)

namespace VoiceSync

/-- An event is broadcast after `onopen` and before the subscription. -/
def inTheGap : List SyncAct :=
  [.connect, .opened, .readOccupancy 0, .readMutes 0] ++ handles arrival ++
    [.subscribe, .answer 0 [5]]

/-- The answer is older than the event that comes before it. -/
def outOfDate : List SyncAct :=
  [.connect, .subscribe, .opened, .readOccupancy 0, .readMutes 0] ++ handles arrival ++
    [.message, .answer 0 [5]]

/-- User 5 unmutes and leaves; the leave is stored last and broadcast first. The user comes back. -/
def overtaken : List SyncAct :=
  [.connect, .subscribe, .opened, .readOccupancy 0, .readMutes 0, .answer 0 [5]] ++
    handles arrival ++
    [.hear (.mute 1 5 "audio" false), .store .mute, .hear (.occupancy 1 5 none 7),
      .store .occupancy, .store .occupancy, .broadcast .occupancy, .broadcast .mute] ++
    handles arrival ++ [.message, .message, .message, .message]

end VoiceSync

open VoiceSync in
/-- **Voice stores diverge**: when nothing is on its way any more, a user who is in voice is shown
in no channel, after an event that went to nobody or an answer that was out of date; and one who is
muted is shown unmuted, after events that were broadcast in another order than they were stored. -/
theorem stores_diverge :
    (∀ as ∈ [inTheGap, outOfDate], (voiceSync 1).Reachable (run as) ∧ (run as).Quiet ∧
      ((run as).store.occupancy 1).lookup 5 = some 3 ∧
      (run as).stores.occupancy.lookup 5 = none) ∧
    (voiceSync 1).Reachable (run overtaken) ∧ (run overtaken).Quiet ∧
      ((run overtaken).store.occupancy 1).lookup 5 = some 3 ∧
      (((run overtaken).store.mutes 1).lookup (5, .audio)).getD true = true ∧
      (((run overtaken).stores.mutes.lookup 5).getD .missing).muted .audio = false := by
  refine ⟨fun as has => ?_, reachable_run _,
    ⟨rfl, rfl, fun subject => by cases subject <;> rfl⟩, by decide +kernel, by decide +kernel,
    by decide +kernel⟩
  rcases List.mem_pair.mp has with rfl | rfl
  · exact ⟨reachable_run _, ⟨rfl, rfl, fun subject => by cases subject <;> rfl⟩,
      by decide +kernel, by decide +kernel⟩
  · exact ⟨reachable_run _, ⟨rfl, rfl, fun subject => by cases subject <;> rfl⟩,
      by decide +kernel, by decide +kernel⟩

end Web

end MateHub
