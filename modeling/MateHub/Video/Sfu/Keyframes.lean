import MateHub.Video.Scripted
import MateHub.Video.Sfu.Books

/-!
# The throttle of keyframe requests

A keyframe is asked for when an answer opens a track, and when a subscriber reports that it needs
one. Both go through `request_keyframe_throttled`, which asks the publisher at most once in
`KEYFRAME_THROTTLE`. `MateHub.Video.Asking` runs the shard beside the requests that have been
sent, those to a publisher who has left since being forgotten.

The table of a session has the last of them for every track (`MateHub.Video.SfuShard.Records`).
So the requests for a track are spaced, and a request is suppressed by another that was sent a
short while ago, and by nothing else but a stream that is not there
(`MateHub.Video.keyframes_throttled`).
-/

namespace MateHub

namespace Video

variable {S : Str0m} {leaves : S.Rtc → S.Rtc → Prop}

/-- A keyframe request that has been sent. -/
structure KeyframeSent where
  sid : SessionId
  key : TrackKey
  time : Instant
  deriving DecidableEq

/-- The later request comes when the throttle is over, if they are for one track. -/
def KeyframeSent.Apart (a b : KeyframeSent) : Prop :=
  a.sid = b.sid → a.key = b.key → a.time + keyframeThrottle ≤ b.time

namespace SfuShard

/-- What an act does to the list of requests. -/
def note (sent : List KeyframeSent) (e : SessionId × Books.Act) : List KeyframeSent :=
  match e.2 with
  | .asked key now => sent ++ [⟨e.1, key, now⟩]
  | .left pid => sent.filter fun r => ¬(r.sid = e.1 ∧ r.key.1 = pid)
  | _ => sent

/-- **The tables have the last request** for every track. -/
structure Records (books : SessionId → Books) (sent : List KeyframeSent) : Prop where
  latest : ∀ r ∈ sent, ∃ t, (books r.sid).lastKeyframeAt r.key = some t ∧ r.time ≤ t
  mem : ∀ sid key t, (books sid).lastKeyframeAt key = some t → ⟨sid, key, t⟩ ∈ sent
  apart : sent.Pairwise KeyframeSent.Apart

variable {books : SessionId → Books} {sent : List KeyframeSent} {clock : Instant}

/-- An act that does not touch the table of requests. -/
theorem Records.congr {books' : SessionId → Books} (h : Records books sent)
    (heq : ∀ sid, (books' sid).lastKeyframeAt = (books sid).lastKeyframeAt) :
    Records books' sent where
  latest r hr := by
    rw [heq]
    exact h.latest r hr
  mem sid key t ht := by
    rw [heq] at ht
    exact h.mem sid key t ht
  apart := h.apart

/-- A request that is sent after all the others. -/
theorem Records.asked (h : Records books sent) {sid : SessionId} {key : TrackKey} {now : Instant}
    (hnow : ∀ r ∈ sent, r.time ≤ now) (hallows : (books sid).Allows (.asked key now)) :
    Records (enter books (sid, .asked key now)) (note sent (sid, .asked key now)) := by
  have htable (sid' : SessionId) (key' : TrackKey) :
      (enter books (sid, .asked key now) sid').lastKeyframeAt key' =
        if sid' = sid ∧ key' = key then some now else (books sid').lastKeyframeAt key' := by
    rw [enter, Function.update_apply]
    by_cases hsid : sid' = sid
    · rw [if_pos hsid, hsid]
      change Function.update (books sid).lastKeyframeAt key (some now) key' = _
      rw [Function.update_apply]
      simp only [true_and]
    · rw [if_neg hsid, if_neg fun hboth => hsid hboth.1]
  refine ⟨fun r hr => ?_, fun sid' key' t ht => ?_, ?_⟩
  · rw [htable]
    rcases List.mem_append.mp hr with hold | hnew
    · split_ifs with hsame
      · exact ⟨now, rfl, hnow r hold⟩
      · exact h.latest r hold
    · obtain rfl := List.mem_singleton.mp hnew
      exact ⟨now, if_pos ⟨rfl, rfl⟩, le_rfl⟩
  · rw [htable] at ht
    split_ifs at ht with hsame
    · obtain ⟨rfl, rfl⟩ := hsame
      obtain rfl := Option.some.inj ht
      exact List.mem_append_right _ (.head _)
    · exact List.mem_append_left _ (h.mem sid' key' t ht)
  · refine List.pairwise_append.mpr ⟨h.apart, List.pairwise_singleton _ _, fun r hr r' hr' => ?_⟩
    obtain rfl := List.mem_singleton.mp hr'
    rintro rfl rfl
    obtain ⟨t, ht, hle⟩ := h.latest r hr
    have hfree : keyframeThrottle ≤ now - t := Nat.le_of_not_lt (hallows.2 t ht)
    calc r.time + keyframeThrottle ≤ t + (now - t) := Nat.add_le_add hle hfree
      _ = now := Nat.add_sub_cancel' (hnow _ (h.mem _ _ t ht))

/-- Those to a publisher who leaves are forgotten, and so they are in the table. -/
theorem Records.left (h : Records books sent) (sid : SessionId) (pid : ParticipantId) :
    Records (enter books (sid, .left pid)) (note sent (sid, .left pid)) := by
  have htable (sid' : SessionId) (key : TrackKey) :
      (enter books (sid, .left pid) sid').lastKeyframeAt key =
        if sid' = sid ∧ key.1 = pid then none else (books sid').lastKeyframeAt key := by
    rw [enter, Function.update_apply]
    by_cases hsid : sid' = sid
    · rw [if_pos hsid, hsid]
      change (if key.1 = pid then none else (books sid).lastKeyframeAt key) = _
      simp only [true_and]
    · rw [if_neg hsid, if_neg fun hboth => hsid hboth.1]
  refine ⟨fun r hr => ?_, fun sid' key t ht => ?_, h.apart.filter _⟩
  · obtain ⟨hold, hother⟩ := List.mem_filter.mp hr
    rw [htable, if_neg (of_decide_eq_true hother)]
    exact h.latest r hold
  · rw [htable] at ht
    split_ifs at ht with hother
    exact List.mem_filter.mpr ⟨h.mem sid' key t ht, decide_eq_true hother⟩

/-- **The step lemma.** -/
theorem Records.note (h : Records books sent) {e : SessionId × Books.Act}
    (hallows : (books e.1).Allows e.2)
    (hnow : ∀ key now, e.2 = .asked key now → ∀ r ∈ sent, r.time ≤ now) :
    Records (enter books e) (note sent e) := by
  obtain ⟨sid, a⟩ := e
  have hsame (hact : ∀ b : Books, (b.act a).lastKeyframeAt = b.lastKeyframeAt) :
      Records (enter books (sid, a)) sent := by
    refine h.congr fun sid' => ?_
    rw [enter, Function.update_apply]
    split_ifs with hsid
    · rw [hact, hsid]
    · rfl
  cases a with
  | joined pid => exact hsame fun _ => rfl
  | left pid => exact h.left sid pid
  | added pid mid kind source => exact hsame fun _ => rfl
  | heard pid mid ext => exact hsame fun _ => rfl
  | asked key now => exact h.asked (hnow key now rfl) hallows

theorem foldl_note_asked (sent : List KeyframeSent) (sid : SessionId) (now : Instant)
    (keys : List TrackKey) :
    (keys.map fun k => (sid, Books.Act.asked k now)).foldl note sent =
      sent ++ keys.map fun k => ⟨sid, k, now⟩ := by
  induction keys generalizing sent with
  | nil => exact (List.append_nil sent).symm
  | cons k keys ih =>
    refine (ih _).trans ?_
    exact List.append_assoc sent [⟨sid, k, now⟩] _

/-- **A request is suppressed by another that was sent a short while ago**, or because the
stream is not there. -/
theorem Records.requestKeyframeThrottled_iff (h : Records books sent) {s : SfuSession S}
    {sid : SessionId} (hs : books sid = s.books) {now : Instant} (hnow : ∀ r ∈ sent, r.time ≤ now)
    (key : TrackKey) : (s.requestKeyframeThrottled now key.1 key.2).2 = true ↔
      s.HasStream key ∧
        ∀ r ∈ sent, r.sid = sid → r.key = key → r.time + keyframeThrottle ≤ now := by
  have htable (t : Instant) (ht : s.lastKeyframeAt.lookup key = some t) :
      ⟨sid, key, t⟩ ∈ sent := h.mem sid key t (by rw [hs]; exact ht)
  rcases requestKeyframeThrottled_cases s now key with ⟨heq, hbusy⟩ | ⟨p, rtc, hfree, hp, hrtc, heq⟩
  · rw [heq]
    refine iff_of_false nofun fun ⟨hstream, hspaced⟩ => ?_
    obtain ⟨t, ht, hshort⟩ := (Option.any_eq_true _ _).mp (hbusy hstream)
    have hpast := hspaced _ (htable t ht) rfl rfl
    have hshort : now - t < keyframeThrottle := of_decide_eq_true hshort
    exact absurd (Nat.le_sub_of_add_le' hpast) (Nat.not_le.mpr hshort)
  · rw [heq]
    refine iff_of_true rfl ⟨⟨p, hp, by rw [hrtc]; rfl⟩, fun r hr hsid hkey => ?_⟩
    obtain ⟨t, ht, hle⟩ := h.latest r hr
    rw [hsid, hkey, hs] at ht
    have hlook : s.lastKeyframeAt.lookup key = some t := ht
    have hover : keyframeThrottle ≤ now - t := by
      rw [SfuSession.throttles, hlook] at hfree
      exact Nat.le_of_not_lt (of_decide_eq_false hfree)
    calc r.time + keyframeThrottle ≤ t + (now - t) := Nat.add_le_add hle hover
      _ = now := Nat.add_sub_cancel' (hnow _ (htable t hlook))

/-- Acts of one instant. -/
theorem Records.foldl (h : Records books sent) {acts : List (SessionId × Books.Act)}
    (hacts : Allowed books acts) {now : Instant} (hsent : ∀ r ∈ sent, r.time ≤ now)
    (hnow : ∀ e ∈ acts, ∀ key t, e.2 = .asked key t → t = now) :
    Records (acts.foldl enter books) (acts.foldl SfuShard.note sent) ∧
      ∀ r ∈ acts.foldl SfuShard.note sent, r.time ≤ now := by
  induction acts generalizing books sent with
  | nil => exact ⟨h, hsent⟩
  | cons e acts ih =>
    refine ih (h.note hacts.1 fun key t ha r hr => ?_) hacts.2 (fun r hr => ?_)
      fun e he => hnow e (.tail _ he)
    · rw [hnow e (.head _) key t ha]
      exact hsent r hr
    · rw [SfuShard.note] at hr
      split at hr
      · rename_i key t ha
        rcases List.mem_append.mp hr with hold | hnew
        · exact hsent r hold
        · obtain rfl := List.mem_singleton.mp hnew
          exact (hnow e (.head _) key t ha).le
      · exact hsent r (List.mem_of_mem_filter hr)
      · exact hsent r hr

/-- When a step is taken, if it reads the clock. -/
def Piece.now? : Piece S → Option Instant
  | .command _ _ now => some now
  | .turn _ _ now => some now
  | .panic _ _ now _ _ => some now
  | .tick now => some now
  | _ => none

end SfuShard

/-- A run of the shard with the keyframe requests that have been sent, and the time. -/
structure Asking (S : Str0m) where
  shard : SfuShard S
  clock : Instant
  sent : List KeyframeSent

/-- The steps of the shard, in time, with the requests that they send. -/
def asking (leaves : S.Rtc → S.Rtc → Prop) : System (Asking S) (SfuShard.Piece S) where
  init w := (SfuShard.system S).init w.shard ∧ w.sent = []
  step w i w' := SfuShard.PieceStep leaves w.shard i w'.shard ∧
    (∀ now ∈ i.now?, w.clock ≤ now) ∧ w'.clock = i.now?.getD w.clock ∧
      w'.sent = (w.shard.pieceActs i).foldl SfuShard.note w.sent

namespace Asking

open SfuShard (Piece)

variable {w w' : Asking S} {i : Piece S}

/-- The tables have the last request of every track, and the clock is not behind them. -/
structure Kept (w : Asking S) : Prop where
  sound : w.shard.BooksSound
  records : SfuShard.Records w.shard.books w.sent
  past : ∀ r ∈ w.sent, r.time ≤ w.clock

/-- The requests of a step are sent when it is taken. -/
theorem time_of_mem_pieceActs {st : SfuShard S} {e : SessionId × Books.Act}
    (he : e ∈ st.pieceActs i) {key : TrackKey} {t : Instant} (ha : e.2 = .asked key t) :
    i.now? = some t := by
  unfold SfuShard.pieceActs at he
  split at he
  · rcases List.mem_append.mp he with hkicked | hjoined
    · rw [SfuShard.kicked] at hkicked
      split_ifs at hkicked
      · obtain rfl := List.mem_singleton.mp hkicked
        cases ha
      · cases hkicked
    · generalize (st.handleJoin _ _ _ _ _ _ _).2 = target at hjoined
      rcases target with _ | target
      · cases hjoined
      · obtain rfl := List.mem_singleton.mp hjoined
        cases ha
  · obtain ⟨k, -, rfl⟩ := List.mem_map.mp he
    obtain ⟨-, rfl⟩ := Books.Act.asked.inj ha
    rfl
  · obtain rfl := List.mem_singleton.mp he
    cases ha
  · obtain ⟨a, hact, rfl⟩ := List.mem_map.mp he
    obtain rfl : a = .asked key t := ha
    obtain ⟨_, _, _, -, -, -, hevent⟩ :=
      SfuShard.exists_event_of_turnAct (Option.mem_toList.mp hact)
    exact congrArg some (SfuShard.time_of_eventAct hevent).symm
  · obtain ⟨z, -, rfl⟩ := List.mem_map.mp he
    cases ha
  · cases he

/-- What a step does to the requests, whatever it has heard. -/
theorem foldl_note_of_does {st : SfuShard S} {acts : List (SessionId × Books.Act)}
    (h : st.Does i acts) (sent : List KeyframeSent) :
    acts.foldl SfuShard.note sent = (st.pieceActs i).foldl SfuShard.note sent := by
  cases i with
  | panic sid pid now calls poison =>
    rcases h with rfl | ⟨mid, ext, -, rfl⟩
    · rfl
    · rfl
  | _ =>
    obtain rfl : acts = st.pieceActs _ := h
    rfl

theorem time_of_does {st : SfuShard S} {acts : List (SessionId × Books.Act)} (h : st.Does i acts)
    {e : SessionId × Books.Act} (he : e ∈ acts) {key : TrackKey} {t : Instant}
    (ha : e.2 = .asked key t) : i.now? = some t := by
  cases i with
  | panic sid pid now calls poison =>
    rcases h with rfl | ⟨mid, ext, -, rfl⟩
    · cases he
    · obtain rfl := List.mem_singleton.mp he
      cases ha
  | _ =>
    obtain rfl : acts = st.pieceActs _ := h
    exact time_of_mem_pieceActs he ha

/-- **The step lemma.** -/
theorem Kept.step (h : w.Kept) (hstep : (asking leaves).step w i w') : w'.Kept := by
  obtain ⟨hpiece, hclock, hclock', hsent⟩ := hstep
  obtain ⟨acts, hdoes, hallowed, hbooks⟩ := SfuShard.books_pieceStep h.sound hpiece
  have hlater : w.clock ≤ w'.clock := by
    rw [hclock']
    rcases hnow : i.now? with _ | now
    · exact le_rfl
    · exact hclock now hnow
  have hrecords := h.records.foldl hallowed (fun r hr => (h.past r hr).trans hlater)
    fun e he key t ha => by rw [hclock', time_of_does hdoes he ha, Option.getD_some]
  rw [foldl_note_of_does hdoes, ← hsent, ← hbooks] at hrecords
  exact ⟨h.sound.foldl hallowed hbooks, hrecords.1, hrecords.2⟩

/-- **The run lemma.** -/
theorem kept (hw : (asking leaves).Reachable w) : w.Kept := by
  refine hw.invariant (fun w hinit => ?_) fun w i w' h _ hstep => h.step hstep
  obtain ⟨hinit, hsent⟩ := hinit
  have hsound : w.shard.BooksSound := by
    obtain ⟨_, _, _, hnew⟩ := hinit
    rw [hnew]
    exact SfuShard.booksSound_new _ _ _
  obtain ⟨_, _, _, hnew⟩ := hinit
  refine ⟨hsound, ⟨?_, fun sid key t ht => ?_, ?_⟩, ?_⟩
  · rw [hsent]
    nofun
  · rw [hnew] at ht
    cases ht
  · rw [hsent]
    exact .nil
  · rw [hsent]
    nofun

end Asking

open SfuShard in
/-- **Keyframe requests are throttled, and no more than that.** In every run in time, two
requests that are sent for one track are at least `KEYFRAME_THROTTLE` apart, unless the publisher
has left in between. A request – also one in a loop of requests, after others – is sent exactly
if the publisher has the stream and none for the track was sent within `KEYFRAME_THROTTLE`; one
that is not sent changes nothing. -/
theorem keyframes_throttled {w : Asking S} (hw : (asking leaves).Reachable w) :
    (w.sent.Pairwise fun a b =>
      a.sid = b.sid → a.key = b.key → a.time + keyframeThrottle ≤ b.time) ∧
    ∀ (sid : SessionId) (s s₀ : SfuSession S), w.shard.session? sid = some s →
      s₀.lastKeyframeAt = s.lastKeyframeAt → ∀ now, w.clock ≤ now →
      ∀ (keys : List TrackKey) (key : TrackKey),
        (((s₀.requestKeyframes now keys).requestKeyframeThrottled now key.1 key.2).2 = true ↔
          (s₀.requestKeyframes now keys).HasStream key ∧
          ∀ r ∈ w.sent ++ (s₀.sent now keys).map fun k => ⟨sid, k, now⟩,
            r.sid = sid → r.key = key → r.time + keyframeThrottle ≤ now) ∧
        (((s₀.requestKeyframes now keys).requestKeyframeThrottled now key.1 key.2).2 = false →
          ((s₀.requestKeyframes now keys).requestKeyframeThrottled now key.1 key.2).1 =
            s₀.requestKeyframes now keys) := by
  have hkept := Asking.kept hw
  refine ⟨hkept.records.apart, fun sid s s₀ hs htable now hnow keys key =>
    ⟨?_, requestKeyframeThrottled_of_not_sent⟩⟩
  -- the handler may have changed the participants before it asks, and not the table
  have hrecords : Records (Function.update w.shard.books sid s₀.books) w.sent := by
    refine hkept.records.congr fun sid' => ?_
    rw [Function.update_apply]
    split_ifs with hsid
    · rw [hsid, books_of_session? hs]
      change (fun k => s₀.lastKeyframeAt.lookup k) = fun k => s.lastKeyframeAt.lookup k
      rw [htable]
    · rfl
  obtain ⟨hlater, hpast⟩ := hrecords.foldl
    (allowed_sent (Function.update_self sid s₀.books w.shard.books) now keys)
    (fun r hr => (hkept.past r hr).trans hnow) fun e he k t ha => by
      obtain ⟨k', -, rfl⟩ := List.mem_map.mp he
      exact (Books.Act.asked.inj ha).2.symm
  rw [foldl_note_asked] at hlater hpast
  refine hlater.requestKeyframeThrottled_iff ?_ hpast key
  have henter := foldl_enter (Function.update w.shard.books sid s₀.books) sid
    ((s₀.sent now keys).map fun k => .asked k now)
  rw [List.map_map] at henter
  refine (congrFun henter sid).trans ?_
  rw [Function.update_self, Function.update_self]
  exact (books_requestKeyframes s₀ now keys).symm

namespace Asking

open SfuShard (Piece)

/-- The state after a step that the shard performs. -/
def next (w : Asking S) (i : Piece S) : Asking S where
  shard := w.shard.perform i
  clock := i.now?.getD w.clock
  sent := (w.shard.pieceActs i).foldl SfuShard.note w.sent

/-- No call panics, and the clock does not go back. -/
def inTime : Instant → List (Piece S) → Bool
  | _, [] => true
  | _, .panic _ _ _ _ _ :: _ => false
  | clock, i :: is => i.now?.all (clock ≤ ·) && inTime (i.now?.getD clock) is

theorem reachable_foldl {w : Asking S} (hw : (asking leaves).Reachable w) {is : List (Piece S)}
    (his : inTime w.clock is = true) : (asking leaves).Reachable (is.foldl next w) := by
  induction is generalizing w with
  | nil => exact hw
  | cons i is ih =>
    have hstep (hi : w.shard.Happens leaves i)
        (hnow : (i.now?.all (w.clock ≤ ·) && inTime (i.now?.getD w.clock) is) = true) :
        (asking leaves).Reachable (is.foldl next (w.next i)) := by
      obtain ⟨hclock, hrest⟩ := Bool.and_eq_true_iff.mp hnow
      refine ih (.step hw trivial (l := i) ⟨.perform w.shard hi, fun now h => ?_, rfl, rfl⟩) hrest
      rw [Option.mem_def.mp h] at hclock
      exact of_decide_eq_true hclock
    cases i with
    | panic sid pid now calls poison => cases his
    | _ => exact hstep trivial his

/-- Participant 2 opens the video of participant 1, at 40. -/
def opening : List (Piece scripted) :=
  [.command (.join 7 1 "alice" "av" 11) ⟨"ua", "pa"⟩ 0, .turn 7 1 0, .turn 7 1 0,
    .command (.join 7 2 "bob" "a" 12) ⟨"ub", "pb"⟩ 0, .turn 7 2 0, .negotiate,
    .command (.answer 7 2 "accept") ⟨"", ""⟩ 40]

/-- The shard after these pieces. -/
def opened : Asking scripted := opening.foldl next ⟨.new 0 [(1, 2)] 12000, 0, []⟩

theorem reachable_opened : (asking (S := scripted) Eq).Reachable opened :=
  reachable_foldl (.start ⟨⟨0, [(1, 2)], 12000, rfl⟩, rfl⟩) (by decide +kernel)

end Asking

open Asking in
/-- The next request for it is sent when `KEYFRAME_THROTTLE` is over, and not before. -/
theorem keyframes_throttled_opened : ∃ s, opened.shard.session? 7 = some s ∧
    (s.requestKeyframeThrottled 539 1 1).2 = false ∧
    (s.requestKeyframeThrottled 540 1 1).2 = true := by
  have hs := Option.some_get (show (opened.shard.session? 7).isSome from by decide +kernel)
  have hp := Option.some_get (show
    ((((opened.shard.session? 7).get (by decide +kernel)).participants).lookup 1).isSome from
    by decide +kernel)
  have hsent : opened.sent = [⟨7, (1, 1), 40⟩] := by decide +kernel
  have hiff (now : Instant) (hnow : 40 ≤ now) :=
    ((keyframes_throttled reachable_opened).2 7 _ _ hs.symm rfl now hnow [] (1, 1)).1
  refine ⟨_, hs.symm, Bool.eq_false_iff.mpr fun h => ?_, ?_⟩
  · have hspaced := ((hiff 539 (by decide)).mp h).2 ⟨7, (1, 1), 40⟩ (hsent ▸ .head _) rfl rfl
    exact absurd hspaced (by decide)
  · refine (hiff 540 (by decide)).mpr ⟨⟨_, hp.symm, rfl⟩, ?_⟩
    rw [hsent]
    decide

end Video

end MateHub
