import Mathlib.Algebra.Order.BigOperators.Group.List
import Mathlib.Data.Prod.Lex
import MateHub.Lib.Logged
import MateHub.Video.Sfu.Pour

/-!
# The loops that drain the transports

The loops of the shard are here as programs that keep a log of the events that they handle, each
with the state in which it is handled. They have no bound on their turns, and each of them ends
(`MateHub.Video.SfuShard.total_polls`, `MateHub.Video.SfuShard.total_flushes`): what is handled
adds no event to any transport, so there is less to handle after each event, and when there is
nothing to handle nobody is marked for the flush.

Along a loop no event is lost and none is handled twice: what has waited in a transport has been
handled, or waits still (`MateHub.Video.SfuShard.Conserves`).
-/

namespace MateHub

namespace Video

variable {S : Str0m} {Q : S.Pump}

/-- An event that is handled, and the state that it is handled in. -/
structure HandledEvent (S : Str0m) where
  now : Instant
  sid : SessionId
  pid : ParticipantId
  event : Event
  before : SfuShard S

/-- What comes of it. -/
def HandledEvent.after (h : HandledEvent S) : SfuShard S :=
  h.before.handleEvent h.now h.sid h.pid h.event

/-- The events of a participant in a log. -/
def handled (log : List (HandledEvent S)) (sid : SessionId) (pid : ParticipantId) :
    Multiset Event :=
  ((log.filter fun h => decide (h.sid = sid ∧ h.pid = pid)).map HandledEvent.event : Multiset Event)

/-- What is handled in two stretches is handled in both. -/
theorem handled_append (log log' : List (HandledEvent S)) (sid : SessionId) (pid : ParticipantId) :
    handled (log ++ log') sid pid = handled log sid pid + handled log' sid pid := by
  rw [handled, List.filter_append, List.map_append, ← Multiset.coe_add]
  rfl

namespace SfuShard

/-! ### The loops -/

/-- A turn of `poll_participant_inner` that is not the last. -/
inductive PollTurn (now : Instant) (sid : SessionId) (pid : ParticipantId) :
    Logged (SfuShard S) (HandledEvent S)
  | transmit {st : SfuShard S} {p : SfuParticipant S} {rtc : S.Rtc} {destination : SocketAddr}
      {contents : List UInt8} : st.participant? sid pid = some p → S.isAlive p.rtc = true →
    S.pollOutput p.rtc = (rtc, .ok (.transmit destination contents)) →
    PollTurn now sid pid st [] (st.setParticipant sid pid { p with rtc := rtc })
  | event {st : SfuShard S} {p : SfuParticipant S} {rtc : S.Rtc} {e : Event} :
    st.participant? sid pid = some p → S.isAlive p.rtc = true →
    S.pollOutput p.rtc = (rtc, .ok (.event e)) →
    PollTurn now sid pid st [⟨now, sid, pid, e, st.setParticipant sid pid { p with rtc := rtc }⟩]
      ((st.setParticipant sid pid { p with rtc := rtc }).handleEvent now sid pid e)

/-- The last turn. -/
inductive PollEnd (sid : SessionId) (pid : ParticipantId) : Logged (SfuShard S) (HandledEvent S)
  | gone {st : SfuShard S} : st.participant? sid pid = none → PollEnd sid pid st [] st
  | dead {st : SfuShard S} {p : SfuParticipant S} : st.participant? sid pid = some p →
    S.isAlive p.rtc = false → PollEnd sid pid st [] st
  | timeout {st : SfuShard S} {p : SfuParticipant S} {rtc : S.Rtc} {t : Instant} :
    st.participant? sid pid = some p → S.isAlive p.rtc = true →
    S.pollOutput p.rtc = (rtc, .ok (.timeout t)) →
    PollEnd sid pid st [] (st.setParticipant sid pid { p with rtc := rtc })
  | error {st : SfuShard S} {p : SfuParticipant S} {rtc : S.Rtc} {message : String} :
    st.participant? sid pid = some p → S.isAlive p.rtc = true →
    S.pollOutput p.rtc = (rtc, .error message) →
    PollEnd sid pid st [] (st.setParticipant sid pid { p with rtc := S.disconnect rtc })

/-- `poll_participant`, in which no call panics. -/
def Exhausts (now : Instant) (sid : SessionId) (pid : ParticipantId) :
    Logged (SfuShard S) (HandledEvent S) :=
  Logged.Repeat (PollTurn now sid pid) (PollEnd sid pid)

/-- The participants of a session. -/
def pids (st : SfuShard S) (sid : SessionId) : List ParticipantId :=
  match st.session? sid with
  | none => []
  | some s => s.participants.keys

/-- `poll_session`. -/
def ExhaustsSession (now : Instant) (sid : SessionId) : Logged (SfuShard S) (HandledEvent S) :=
  fun st log st' => Logged.ForEach (Exhausts now sid) (st.pids sid) st log st'

/-- `poll_target`. -/
def ExhaustsTarget (now : Instant) : Option PollTarget → Logged (SfuShard S) (HandledEvent S)
  | some (.one sid pid) => Exhausts now sid pid
  | some (.session sid) => ExhaustsSession now sid
  | none => fun st log st' => log = [] ∧ st' = st

/-- `poll_all`. -/
def ExhaustsAll (now : Instant) : Logged (SfuShard S) (HandledEvent S) :=
  fun st log st' => Logged.ForEach (ExhaustsSession now) st.sessions.keys st log st'

/-- A turn of `flush_pending_writes`. -/
def FlushTurn (now : Instant) : Logged (SfuShard S) (HandledEvent S) := fun st log st' =>
  ∃ sid pid rest, st.pendingFlush.keys = (sid, pid) :: rest ∧
    Exhausts now sid pid { st with pendingFlush := st.pendingFlush.erase (sid, pid) } log st'

/-- Nobody is marked. -/
def FlushEnd : Logged (SfuShard S) (HandledEvent S) := fun st log st' =>
  st.pendingFlush.keys = [] ∧ log = [] ∧ st' = st

/-- `flush_pending_writes`. -/
def Flushes (now : Instant) : Logged (SfuShard S) (HandledEvent S) :=
  Logged.Repeat (FlushTurn now) FlushEnd

/-! ### The loops with a bound on their turns -/

section Bounded

variable {now : Instant} {sid : SessionId} {pid : ParticipantId} {st st' : SfuShard S}
  {log : List (HandledEvent S)}

/-- A poll that ends comes to the same end with any greater fuel. -/
theorem Exhausts.eventually (h : Exhausts now sid pid st log st') :
    ∀ᶠ n in Filter.atTop, pollParticipant now sid pid n st = st' := by
  suffices h : ∃ N, ∀ n ≥ N, pollParticipant now sid pid n st = st' from
    Filter.eventually_atTop.mpr h
  induction h with
  | stop h =>
    refine ⟨1, fun n hn => ?_⟩
    obtain ⟨n, rfl⟩ := Nat.exists_eq_add_of_le' hn
    cases h with
    | gone hp => simp [pollParticipant, hp]
    | dead hp hdead => simp [pollParticipant, hp, hdead]
    | timeout hp halive hpoll => simp [pollParticipant, hp, halive, hpoll]
    | error hp halive hpoll => simp [pollParticipant, hp, halive, hpoll]
  | again h _ ih =>
    obtain ⟨N, hN⟩ := ih
    refine ⟨N + 1, fun n hn => ?_⟩
    obtain ⟨n, rfl⟩ := Nat.exists_eq_add_of_le' (Nat.le_of_add_left_le hn)
    have hrest := hN n (by omega)
    cases h with
    | transmit hp halive hpoll => simpa [pollParticipant, hp, halive, hpoll] using hrest
    | event hp halive hpoll => simpa [pollParticipant, hp, halive, hpoll] using hrest

/-- A poll of a session that ends comes to the same end with any greater fuel. -/
theorem ExhaustsSession.eventually (h : ExhaustsSession now sid st log st') :
    ∀ᶠ n in Filter.atTop, pollSession now n st sid = st' := by
  have hfold := Logged.ForEach.eventually
    (f := fun n st pid => pollParticipant now sid pid n st) h fun _ _ _ _ hpoll =>
      Exhausts.eventually hpoll
  filter_upwards [hfold] with n hn
  rw [← hn]
  unfold pollSession pids
  cases st.session? sid <;> rfl

/-- A poll of a target that ends comes to the same end with any greater fuel. -/
theorem ExhaustsTarget.eventually {target : Option PollTarget}
    (h : ExhaustsTarget now target st log st') :
    ∀ᶠ n in Filter.atTop, pollTarget now n st target = st' := by
  rcases target with _ | ⟨sid, pid⟩ | sid
  · exact Filter.Eventually.of_forall fun _ => h.2.symm
  · exact Exhausts.eventually h
  · exact ExhaustsSession.eventually h

/-- A poll of everybody that ends comes to the same end with any greater fuel. -/
theorem ExhaustsAll.eventually (h : ExhaustsAll now st log st') :
    ∀ᶠ n in Filter.atTop, pollAll now n st = st' :=
  Logged.ForEach.eventually (f := fun n => pollSession now n) h fun _ _ _ _ hpoll =>
    ExhaustsSession.eventually hpoll

/-- A flush that ends comes to the same end with any greater fuel. -/
theorem Flushes.eventually (h : Flushes now st log st') :
    ∀ᶠ n in Filter.atTop, flushPendingWrites now n n st = st' := by
  suffices h : ∃ N, ∀ m ≥ N, ∀ n ≥ N, flushPendingWrites now m n st = st' from by
    obtain ⟨N, hN⟩ := h
    exact Filter.eventually_atTop.mpr ⟨N, fun n hn => hN n hn n hn⟩
  induction h with
  | stop h =>
    obtain ⟨hkeys, -, rfl⟩ := h
    refine ⟨1, fun m _ n hn => ?_⟩
    obtain ⟨n, rfl⟩ := Nat.exists_eq_add_of_le' hn
    simp [flushPendingWrites, hkeys]
  | again h _ ih =>
    obtain ⟨sid, pid, rest, hkeys, hpolls⟩ := h
    obtain ⟨N, hN⟩ := Filter.eventually_atTop.mp hpolls.eventually
    obtain ⟨N', hN'⟩ := ih
    refine ⟨max N N' + 1, fun m hm n hn => ?_⟩
    obtain ⟨n, rfl⟩ := Nat.exists_eq_add_of_le' (Nat.le_of_add_left_le hn)
    rw [flushPendingWrites, hkeys]
    dsimp only
    rw [hN m (by omega)]
    exact hN' m (by omega) n (by omega)

end Bounded

/-! ### Nothing is lost -/

section Conserves

variable {now : Instant} {sid : SessionId} {pid : ParticipantId} {st st' : SfuShard S}
  {log : List (HandledEvent S)}

/-- Nothing is handled in an empty log. -/
theorem handled_nil (sid : SessionId) (pid : ParticipantId) :
    handled ([] : List (HandledEvent S)) sid pid = 0 := rfl

/-- An event that somebody is given. -/
theorem handled_own (e : Event) (before : SfuShard S) :
    handled [⟨now, sid, pid, e, before⟩] sid pid = {e} := by
  simp [handled]

/-- An event that somebody else is given. -/
theorem handled_other {e : Event} {before : SfuShard S} {sid' : SessionId} {q : ParticipantId}
    (h : ¬ (sid' = sid ∧ q = pid)) : handled [⟨now, sid, pid, e, before⟩] sid' q = 0 := by
  have hne : ¬ (sid = sid' ∧ pid = q) := fun heq => h ⟨heq.1.symm, heq.2.symm⟩
  simp [handled, hne]

/-- Of the events that waited these have been handled, and the others wait still; and no packet
has come. -/
structure Drains (Q : S.Pump) (evs : Multiset Event) (p p' : SfuParticipant S) : Prop where
  alive : S.isAlive p'.rtc = true → S.isAlive p.rtc = true
  events : S.isAlive p'.rtc = true → Q.events p.rtc = evs + Q.events p'.rtc
  slot : S.isAlive p'.rtc = true → Q.slot p.rtc = none → Q.slot p'.rtc = none

theorem Drains.refl (p : SfuParticipant S) : Drains Q 0 p p :=
  ⟨id, fun _ => (zero_add _).symm, fun _ => id⟩

theorem Drains.trans {evs evs' : Multiset Event} {p p' p'' : SfuParticipant S}
    (h : Drains Q evs p p') (h' : Drains Q evs' p' p'') : Drains Q (evs + evs') p p'' where
  alive := h.alive ∘ h'.alive
  events := fun halive => by
    rw [h.events (h'.alive halive), h'.events halive, add_assoc]
  slot := fun halive hslot => h'.slot halive (h.slot (h'.alive halive) hslot)

/-- What is poured in is not drained. -/
theorem Drains.of_pours {marked : Prop} {p p' : SfuParticipant S} (h : p.Pours Q marked p') :
    Drains Q 0 p p' where
  alive := h.alive
  events := fun _ => by rw [zero_add, h.rtc.events]
  slot := fun _ hslot => h.rtc.slot.trans hslot

/-- **No event is lost, and none is handled twice**: what waited in the transport of anybody has
been handled, or waits still. -/
def Conserves (Q : S.Pump) : Logged (SfuShard S) (HandledEvent S) := fun st log st' =>
  ∀ sid pid, Option.Rel (Drains Q (handled log sid pid)) (st.participant? sid pid)
    (st'.participant? sid pid)

/-- Conservation composes over stretches of the log. -/
theorem composes_conserves : Logged.Composes (Conserves Q) where
  refl := fun _ _ _ => Option.Rel.refl Drains.refl _
  trans := by
    intro st log st' log' st'' h h' sid pid
    have hrel := h sid pid
    have hrel' := h' sid pid
    rw [handled_append]
    rcases hp : st.participant? sid pid with _ | p
    · rw [hp] at hrel
      rw [hrel.none_left] at hrel'
      rw [hrel'.none_left]
      exact .none
    · rw [hp] at hrel
      obtain ⟨p', hp', hdrains⟩ := hrel.some_left
      rw [hp'] at hrel'
      obtain ⟨p'', hp'', hdrains'⟩ := hrel'.some_left
      rw [hp'']
      exact .some (hdrains.trans hdrains')

/-- Pouring in conserves, with nothing handled. -/
theorem Pours.conserves (h : st.Pours Q st') : Conserves Q st [] st' :=
  fun sid pid => (h.participants sid pid).imp .of_pours

/-- One participant is written back. -/
theorem conserves_set {p p' : SfuParticipant S} (hp : st.participant? sid pid = some p)
    (h : Drains Q (handled log sid pid) p p')
    (hother : ∀ sid' q, ¬ (sid' = sid ∧ q = pid) → handled log sid' q = 0) :
    Conserves Q st log (st.setParticipant sid pid p') := by
  intro sid' q
  rw [participant?_setParticipant hp]
  by_cases heq : sid' = sid ∧ q = pid
  · obtain ⟨rfl, rfl⟩ := heq
    rw [if_pos ⟨rfl, rfl⟩, hp]
    exact .some h
  · rw [if_neg heq, hother sid' q heq]
    exact Option.Rel.refl Drains.refl _

/-- An output is taken. -/
theorem drains_take {p : SfuParticipant S} {rtc : S.Rtc} {o : Output}
    (halive : S.isAlive p.rtc = true) (hpoll : S.pollOutput p.rtc = (rtc, .ok o))
    (ho : ∀ t, o ≠ .timeout t) :
    Drains Q (o.event?.toList : Multiset Event) p { p with rtc := rtc } where
  alive := fun _ => halive
  events := fun _ => Q.events_take halive hpoll ho
  slot := fun _ => Q.slot_take halive hpoll ho

variable (hfinal : Str0m.Final (S := S) Eq)

include hfinal

/-- **A turn of the polls** conserves: what the transport yields is handled. -/
theorem PollTurn.conserves (h : PollTurn now sid pid st log st') : Conserves Q st log st' := by
  cases h with
  | transmit hp halive hpoll =>
    exact conserves_set hp (drains_take halive hpoll nofun) fun _ _ _ => rfl
  | @event _ p rtc e hp halive hpoll =>
    have htake : Conserves Q st
        [⟨now, sid, pid, e, st.setParticipant sid pid { p with rtc := rtc }⟩]
        (st.setParticipant sid pid { p with rtc := rtc }) := by
      refine conserves_set hp ?_ fun sid' q hne => handled_other hne
      rw [handled_own]
      exact drains_take halive hpoll nofun
    exact composes_conserves.trans htake (pours_handleEvent hfinal _ now sid pid e).conserves

/-- The last turn of a poll conserves. -/
theorem PollEnd.conserves (h : PollEnd sid pid st log st') : Conserves Q st log st' := by
  cases h with
  | gone hp => exact composes_conserves.refl st
  | dead hp hdead => exact composes_conserves.refl st
  | @timeout _ p rtc t hp halive hpoll =>
    obtain ⟨hdrained, hdrained'⟩ := Q.drained_of_timeout halive hpoll
    refine conserves_set hp ⟨fun _ => halive, fun _ => ?_, fun _ _ => hdrained'.slot⟩
      fun _ _ _ => rfl
    rw [hdrained.events, hdrained'.events]
    rfl
  | @error _ p rtc message hp halive hpoll =>
    have hdead : S.isAlive (S.disconnect rtc) ≠ true := by
      rw [hfinal.disconnect]
      exact Bool.false_ne_true
    exact conserves_set hp ⟨fun _ => halive, fun h => absurd h hdead, fun h => absurd h hdead⟩
      fun _ _ _ => rfl

/-- A poll to its end conserves. -/
theorem Exhausts.conserves (h : Exhausts now sid pid st log st') : Conserves Q st log st' :=
  h.rel composes_conserves (fun _ _ _ => PollTurn.conserves hfinal)
    fun _ _ _ => PollEnd.conserves hfinal

/-- A poll of a session to its end conserves. -/
theorem ExhaustsSession.conserves (h : ExhaustsSession now sid st log st') :
    Conserves Q st log st' :=
  Logged.ForEach.rel h composes_conserves fun _ _ _ _ => Exhausts.conserves hfinal

/-- A poll of a target to its end conserves. -/
theorem ExhaustsTarget.conserves {target : Option PollTarget}
    (h : ExhaustsTarget now target st log st') :
    Conserves Q st log st' := by
  rcases target with _ | ⟨sid, pid⟩ | sid
  · obtain ⟨rfl, rfl⟩ := h
    exact composes_conserves.refl st'
  · exact Exhausts.conserves hfinal h
  · exact ExhaustsSession.conserves hfinal h

/-- A poll of everybody to its end conserves. -/
theorem ExhaustsAll.conserves (h : ExhaustsAll now st log st') : Conserves Q st log st' :=
  Logged.ForEach.rel h composes_conserves fun _ _ _ _ => ExhaustsSession.conserves hfinal

/-- A flush to its end conserves. -/
theorem Flushes.conserves (h : Flushes now st log st') : Conserves Q st log st' := by
  refine h.rel composes_conserves (fun st log st' hturn => ?_) fun st log st' hend => ?_
  · obtain ⟨sid, pid, rest, -, hpolls⟩ := hturn
    have hconserves := Exhausts.conserves (Q := Q) hfinal hpolls
    exact hconserves
  · obtain ⟨-, rfl, rfl⟩ := hend
    exact composes_conserves.refl st'

omit hfinal in
/-- **Whoever has been polled is drained**, if it is alive. -/
theorem Exhausts.drained {Q : S.Pump} (h : Exhausts now sid pid st log st')
    (hfinal : Str0m.Final (S := S) Eq)
    {p' : SfuParticipant S} (hp' : st'.participant? sid pid = some p')
    (halive : S.isAlive p'.rtc = true) : Q.Drained p'.rtc := by
  obtain ⟨st₁, log₁, hend⟩ := h.exists_stop
  cases hend with
  | gone hp =>
    rw [hp] at hp'
    cases hp'
  | dead hp hdead =>
    obtain rfl := Option.some.inj (hp.symm.trans hp')
    rw [hdead] at halive
    cases halive
  | timeout hp halive' hpoll =>
    rw [participant?_setParticipant hp, if_pos ⟨rfl, rfl⟩] at hp'
    obtain rfl := Option.some.inj hp'
    exact (Q.drained_of_timeout halive' hpoll).2
  | error hp halive' hpoll =>
    rw [participant?_setParticipant hp, if_pos ⟨rfl, rfl⟩] at hp'
    obtain rfl := Option.some.inj hp'
    rw [hfinal.disconnect] at halive
    cases halive

end Conserves

/-! ### Nothing is left unsent -/

section Clear

variable {now : Instant} {sid : SessionId} {pid : ParticipantId} {st st' : SfuShard S}
  {log : List (HandledEvent S)} {E : SessionId × ParticipantId → Prop}

/-- **Between the steps of the loop** no packet waits in the slot of anybody alive, and whoever has
written packets unsent is marked for the flush – but for some. -/
structure Clear (Q : S.Pump) (E : SessionId × ParticipantId → Prop) (st : SfuShard S) : Prop where
  slot : ∀ sid pid p, ¬ E (sid, pid) → st.participant? sid pid = some p →
    S.isAlive p.rtc = true → Q.slot p.rtc = none
  unsent : ∀ sid pid p, ¬ E (sid, pid) → st.participant? sid pid = some p →
    S.isAlive p.rtc = true → Q.unsent p.rtc ≠ 0 → (sid, pid) ∈ st.pendingFlush

/-- More may be excepted. -/
theorem Clear.mono {E' : SessionId × ParticipantId → Prop} (h : Clear Q E st)
    (hE : ∀ k, E k → E' k) : Clear Q E' st where
  slot := fun sid pid p hk => h.slot sid pid p fun hnot => hk (hE _ hnot)
  unsent := fun sid pid p hk => h.unsent sid pid p fun hnot => hk (hE _ hnot)

/-- Where nothing waits, nothing waits after pouring in, but for those that are marked. -/
theorem Clear.pours (h : Clear Q E st) (hp : st.Pours Q st') : Clear Q E st' where
  slot := fun sid pid p' hk hp' halive => by
    have hrel := hp.participants sid pid
    rw [hp'] at hrel
    obtain ⟨p, hpart, hpours⟩ := hrel.some_right
    exact hpours.rtc.slot.trans (h.slot sid pid p hk hpart (hpours.alive halive))
  unsent := fun sid pid p' hk hp' halive hunsent => by
    have hrel := hp.participants sid pid
    rw [hp'] at hrel
    obtain ⟨p, hpart, hpours⟩ := hrel.some_right
    rcases hpours.unsent with hsame | hmarked
    · rw [hsame] at hunsent
      exact hp.pendingFlush _ (h.unsent sid pid p hk hpart (hpours.alive halive) hunsent)
    · exact hmarked

/-- The one that is left out is written back. -/
theorem Clear.set {p p' : SfuParticipant S} (h : Clear Q (· = (sid, pid)) st)
    (hp : st.participant? sid pid = some p) :
    Clear Q (· = (sid, pid)) (st.setParticipant sid pid p') := by
  have hother {sid' : SessionId} {q : ParticipantId} (hk : ¬ (sid', q) = (sid, pid)) :
      (st.setParticipant sid pid p').participant? sid' q = st.participant? sid' q := by
    rw [participant?_setParticipant hp, if_neg fun heq => hk (Prod.ext heq.1 heq.2)]
  refine ⟨fun sid' q r hk hr => ?_, fun sid' q r hk hr => ?_⟩
  · exact h.slot sid' q r hk (hother hk ▸ hr)
  · exact h.unsent sid' q r hk (hother hk ▸ hr)

variable (hfinal : Str0m.Final (S := S) Eq)

include hfinal

/-- **Whoever is polled may have been left out**: afterwards nobody is. -/
theorem Exhausts.clear (h : Exhausts now sid pid st log st') (hst : Clear Q (· = (sid, pid)) st) :
    Clear Q (fun _ => False) st' := by
  have hbut : Clear Q (· = (sid, pid)) st' := by
    induction h with
    | stop hend =>
      cases hend with
      | gone => exact hst
      | dead => exact hst
      | timeout hp => exact hst.set hp
      | error hp => exact hst.set hp
    | again hturn _ ih =>
      refine ih ?_
      cases hturn with
      | transmit hp => exact hst.set hp
      | event hp => exact (hst.set hp).pours (pours_handleEvent hfinal _ _ _ _ _)
  have hdrained {p : SfuParticipant S} (hp : st'.participant? sid pid = some p)
      (halive : S.isAlive p.rtc = true) : Q.Drained p.rtc := h.drained hfinal hp halive
  refine ⟨fun sid' q p _ hp halive => ?_, fun sid' q p _ hp halive hunsent => ?_⟩
  · by_cases hk : (sid', q) = (sid, pid)
    · obtain ⟨rfl, rfl⟩ := Prod.mk.inj hk
      exact (hdrained hp halive).slot
    · exact hbut.slot sid' q p hk hp halive
  · by_cases hk : (sid', q) = (sid, pid)
    · obtain ⟨rfl, rfl⟩ := Prod.mk.inj hk
      exact absurd (hdrained hp halive).unsent hunsent
    · exact hbut.unsent sid' q p hk hp halive hunsent

/-- After a poll of a session nothing waits in it. -/
theorem ExhaustsSession.clear (h : ExhaustsSession now sid st log st')
    (hst : Clear Q (fun _ => False) st) : Clear Q (fun _ => False) st' :=
  Logged.ForEach.invariant h (fun _ _ _ _ hpolls hst => hpolls.clear hfinal (hst.mono nofun)) hst

/-- After a poll of everybody nothing waits. -/
theorem ExhaustsAll.clear (h : ExhaustsAll now st log st') (hst : Clear Q (fun _ => False) st) :
    Clear Q (fun _ => False) st' :=
  Logged.ForEach.invariant h (fun _ _ _ _ hpolls hst => hpolls.clear hfinal hst) hst

/-- **After the flush nothing is left unsent.** -/
theorem Flushes.clear (h : Flushes now st log st') (hst : Clear Q (fun _ => False) st) :
    Clear Q (fun _ => False) st' ∧ ∀ sid pid p, st'.participant? sid pid = some p →
      S.isAlive p.rtc = true → Q.unsent p.rtc = 0 := by
  have hclear : Clear Q (fun _ => False) st' := by
    induction h with
    | stop hend =>
      obtain ⟨-, -, rfl⟩ := hend
      exact hst
    | again hturn _ ih =>
      obtain ⟨sid, pid, rest, hkeys, hpolls⟩ := hturn
      refine ih (hpolls.clear hfinal ⟨fun sid' q p _ hp => hst.slot sid' q p id hp,
        fun sid' q p hk hp halive hunsent => ?_⟩)
      exact AList.mem_erase.mpr ⟨hk, hst.unsent sid' q p id hp halive hunsent⟩
  refine ⟨hclear, fun sid pid p hp halive => ?_⟩
  by_contra hunsent
  obtain ⟨st₁, log₁, hkeys, -, rfl⟩ := h.exists_stop
  have hmarked := AList.mem_keys.mp (hclear.unsent sid pid p id hp halive hunsent)
  rw [hkeys] at hmarked
  exact List.not_mem_nil hmarked

end Clear

/-! ### After a sweep nothing waits -/

section Sweep

variable {now : Instant} {sid : SessionId} {pid : ParticipantId} {st st' : SfuShard S}
  {log : List (HandledEvent S)}

/-- No event waits in the transport of somebody. -/
def Spent (Q : S.Pump) (st : SfuShard S) (sid : SessionId) (pid : ParticipantId) : Prop :=
  ∀ p, st.participant? sid pid = some p → S.isAlive p.rtc = true → Q.events p.rtc = 0

/-- A transport that has nothing left has nothing left afterwards. -/
theorem Conserves.spent (h : Conserves Q st log st') (hst : Spent Q st sid pid) :
    Spent Q st' sid pid := by
  intro p' hp' halive
  have hrel := h sid pid
  rw [hp'] at hrel
  obtain ⟨p, hp, hdrains⟩ := hrel.some_right
  have hsum := hdrains.events halive
  rw [hst p hp (hdrains.alive halive)] at hsum
  exact Multiset.le_zero.mp (hsum ▸ Multiset.le_add_left _ _)

/-- Nobody comes. -/
theorem Conserves.none (h : Conserves Q st log st') (hp : st.participant? sid pid = none) :
    st'.participant? sid pid = none := by
  have hrel := h sid pid
  rw [hp] at hrel
  exact hrel.none_left

/-- A participant is among those that are polled. -/
theorem mem_pids {p : SfuParticipant S} (hp : st.participant? sid pid = some p) :
    pid ∈ st.pids sid := by
  obtain ⟨s, hs, hlookup⟩ := participant?_eq_some.mp hp
  rw [pids, hs]
  exact AList.mem_keys.mpr (AList.lookup_isSome.mp (hlookup ▸ rfl))

variable (hfinal : Str0m.Final (S := S) Eq)

include hfinal

/-- A poll of a session leaves nothing in its transports. -/
theorem ExhaustsSession.spent (h : ExhaustsSession now sid st log st') :
    Spent Q st' sid pid := by
  have hconserves := h.conserves (Q := Q) hfinal
  rcases hp : st.participant? sid pid with _ | p
  · intro p' hp'
    rw [hconserves.none hp] at hp'
    cases hp'
  · refine Logged.ForEach.post (I := fun _ => True) (Q := fun pid st => Spent Q st sid pid) h
      (fun _ _ _ _ _ => id) ?_ ?_ trivial pid (mem_pids hp)
    · intro pid' st log st' hpolls _ p' hp' halive
      exact (hpolls.drained hfinal hp' halive).events
    · intro pid' _ st log st' hpolls _ hspent
      exact (hpolls.conserves hfinal).spent hspent

/-- A poll of everybody leaves nothing in any transport. -/
theorem ExhaustsAll.spent (h : ExhaustsAll now st log st') : Spent Q st' sid pid := by
  have hconserves := h.conserves (Q := Q) hfinal
  rcases hp : st.participant? sid pid with _ | p
  · intro p' hp'
    rw [hconserves.none hp] at hp'
    cases hp'
  · obtain ⟨s, hs, -⟩ := participant?_eq_some.mp hp
    refine Logged.ForEach.post (I := fun _ => True) (Q := fun sid st => Spent Q st sid pid) h
      (fun _ _ _ _ _ => id) ?_ ?_ trivial sid (AList.mem_keys.mpr (AList.lookup_isSome.mp ?_))
    · exact fun sid' st log st' hpolls _ => hpolls.spent hfinal
    · intro sid' _ st log st' hpolls _ hspent
      exact (hpolls.conserves hfinal).spent hspent
    · exact (congrArg Option.isSome hs).trans rfl

end Sweep

/-! ### They end -/

section Total

variable {now : Instant} {st st' : SfuShard S} {log : List (HandledEvent S)}
  {k : SessionId × ParticipantId}

/-- How many events wait to be handled, of somebody. -/
def waiting (Q : S.Pump) (st : SfuShard S) (k : SessionId × ParticipantId) : ℕ :=
  match st.participant? k.1 k.2 with
  | none => 0
  | some p => if S.isAlive p.rtc then Multiset.card (Q.events p.rtc) else 0

/-- What waits in a transport that is alive is what it is going to yield. -/
theorem waiting_of_alive {p : SfuParticipant S} (hp : st.participant? k.1 k.2 = some p)
    (halive : S.isAlive p.rtc = true) : waiting Q st k = Multiset.card (Q.events p.rtc) := by
  rw [waiting, hp]
  exact if_pos halive

/-- No more waits than before. -/
theorem Conserves.waiting_le (h : Conserves Q st log st') (k : SessionId × ParticipantId) :
    waiting Q st' k ≤ waiting Q st k := by
  have hrel := h k.1 k.2
  rcases hp' : st'.participant? k.1 k.2 with _ | p'
  · rw [waiting, hp']
    exact Nat.zero_le _
  · rw [hp'] at hrel
    obtain ⟨p, hp, hdrains⟩ := hrel.some_right
    by_cases halive : S.isAlive p'.rtc = true
    · rw [waiting_of_alive hp' halive, waiting_of_alive hp (hdrains.alive halive),
        hdrains.events halive, Multiset.card_add]
      exact Nat.le_add_left _ _
    · rw [waiting, hp']
      exact (if_neg halive).trans_le (Nat.zero_le _)

/-- How long the queue of somebody is. -/
def queued (Q : S.Pump) (st : SfuShard S) (k : SessionId × ParticipantId) : ℕ :=
  match st.participant? k.1 k.2 with
  | none => 0
  | some p => Multiset.card (Q.queue p.rtc)

/-- An event is handled: there is less to handle. -/
theorem waiting_handleEvent_lt (hfinal : Str0m.Final (S := S) Eq) {p : SfuParticipant S}
    {rtc : S.Rtc} {e : Event} (hp : st.participant? k.1 k.2 = some p)
    (halive : S.isAlive p.rtc = true) (hpoll : S.pollOutput p.rtc = (rtc, .ok (.event e))) :
    waiting Q ((st.setParticipant k.1 k.2 { p with rtc := rtc }).handleEvent now k.1 k.2 e) k <
      waiting Q st k := by
  refine ((pours_handleEvent hfinal _ now k.1 k.2 e).conserves.waiting_le k).trans_lt ?_
  have hp' := (participant?_setParticipant hp { p with rtc := rtc } k.1 k.2).trans
    (if_pos ⟨rfl, rfl⟩)
  rw [waiting_of_alive hp halive, Q.events_take halive hpoll nofun, Multiset.card_add, waiting, hp']
  dsimp only
  split_ifs
  · exact Nat.lt_add_of_pos_left Nat.zero_lt_one
  · exact Nat.add_pos_left Nat.zero_lt_one _

/-- **A poll ends.** -/
theorem total_polls (Q : S.Pump) (hfinal : Str0m.Final (S := S) Eq) (now : Instant)
    (sid : SessionId) (pid : ParticipantId) :
    Logged.Total (fun _ => True) (Exhausts (S := S) now sid pid) := by
  refine Logged.Repeat.total (fun st => toLex (waiting Q st (sid, pid), queued Q st (sid, pid)))
    fun st _ => ?_
  rcases hp : st.participant? sid pid with _ | p
  · exact .inl ⟨_, _, .gone hp⟩
  · rcases halive : S.isAlive p.rtc with _ | _
    · exact .inl ⟨_, _, .dead hp halive⟩
    · rcases hpoll : S.pollOutput p.rtc with ⟨rtc, message | o⟩
      · exact .inl ⟨_, _, .error hp halive hpoll⟩
      · cases o with
        | timeout t => exact .inl ⟨_, _, .timeout hp halive hpoll⟩
        | event e =>
          refine .inr ⟨_, _, .event hp halive hpoll, trivial, Prod.Lex.toLex_lt_toLex.mpr (.inl ?_)⟩
          exact waiting_handleEvent_lt (k := (sid, pid)) hfinal hp halive hpoll
        | transmit destination contents =>
          have hturn : PollTurn now sid pid st [] _ := .transmit hp halive hpoll
          refine .inr ⟨_, _, hturn, trivial, Prod.Lex.toLex_lt_toLex.mpr ?_⟩
          have hp' := (participant?_setParticipant hp { p with rtc := rtc } sid pid).trans
            (if_pos ⟨rfl, rfl⟩)
          have hshorter : queued Q (st.setParticipant sid pid { p with rtc := rtc }) (sid, pid) <
              queued Q st (sid, pid) := by
            rcases Q.take halive hpoll nofun with ⟨hqueue, -⟩ | ⟨pkt, heq, -⟩
            · rw [queued, queued, hp, hp']
              dsimp only
              rw [hqueue, Multiset.card_cons]
              exact Nat.lt_succ_self _
            · cases heq
          exact ((hturn.conserves hfinal).waiting_le _).lt_or_eq.imp id fun heq => ⟨heq, hshorter⟩

/-- The polls of a session come to an end. -/
theorem total_pollsSession (Q : S.Pump) (hfinal : Str0m.Final (S := S) Eq) (now : Instant)
    (sid : SessionId) : Logged.Total (fun _ => True) (ExhaustsSession (S := S) now sid) :=
  fun st hst => Logged.ForEach.total (fun pid => total_polls Q hfinal now sid pid)
    (fun _ _ _ _ _ => id) st hst

/-- The polls of a target come to an end. -/
theorem total_pollsTarget (Q : S.Pump) (hfinal : Str0m.Final (S := S) Eq) (now : Instant)
    (target : Option PollTarget) :
    Logged.Total (fun _ => True) (ExhaustsTarget (S := S) now target) := by
  rcases target with _ | ⟨sid, pid⟩ | sid
  · exact fun st _ => ⟨[], st, rfl, rfl⟩
  · exact total_polls Q hfinal now sid pid
  · exact total_pollsSession Q hfinal now sid

/-- The polls of everybody come to an end. -/
theorem total_pollsAll (Q : S.Pump) (hfinal : Str0m.Final (S := S) Eq) (now : Instant) :
    Logged.Total (fun _ => True) (ExhaustsAll (S := S) now) :=
  fun st hst => Logged.ForEach.total (fun sid => total_pollsSession Q hfinal now sid)
    (fun _ _ _ _ _ => id) st hst

/-- What a poll of somebody does for the flush: if it handles an event there is less to handle,
and if it handles none nobody is marked. -/
structure Lessens (Q : S.Pump) (k : SessionId × ParticipantId) (st : SfuShard S)
    (log : List (HandledEvent S)) (st' : SfuShard S) : Prop where
  le : waiting Q st' k ≤ waiting Q st k
  lt : log ≠ [] → waiting Q st' k < waiting Q st k
  unmarked : log = [] → st'.pendingFlush = st.pendingFlush

/-- Lessening composes over stretches of the log. -/
theorem composes_lessens (k : SessionId × ParticipantId) : Logged.Composes (Lessens Q k) where
  refl := fun _ => ⟨le_rfl, fun h => absurd rfl h, fun _ => rfl⟩
  trans := by
    intro st log st' log' st'' h h'
    refine ⟨h'.le.trans h.le, fun hne => ?_, fun hnil => ?_⟩
    · by_cases hlog : log = []
      · exact (h'.lt fun hlog' => hne (by rw [hlog, hlog', List.append_nil])).trans_le h.le
      · exact h'.le.trans_lt (h.lt hlog)
    · obtain ⟨hlog, hlog'⟩ := List.append_eq_nil_iff.mp hnil
      exact (h'.unmarked hlog').trans (h.unmarked hlog)

/-- A poll lessens what waits, if it handles something. -/
theorem Exhausts.lessens {sid : SessionId} {pid : ParticipantId}
    (h : Exhausts now sid pid st log st') (Q : S.Pump) (hfinal : Str0m.Final (S := S) Eq) :
    Lessens Q (sid, pid) st log st' := by
  refine h.rel (composes_lessens (sid, pid)) (fun st log st' hturn => ?_) fun st log st' hend => ?_
  · refine ⟨(hturn.conserves hfinal).waiting_le _, fun hne => ?_, fun hnil => ?_⟩
    · cases hturn with
      | transmit => exact absurd rfl hne
      | event hp halive hpoll =>
        exact waiting_handleEvent_lt (k := (sid, pid)) hfinal hp halive hpoll
    · cases hturn with
      | transmit => rfl
      | event => cases hnil
  · refine ⟨(hend.conserves hfinal).waiting_le _, fun hne => ?_, fun _ => ?_⟩
    · cases hend <;> exact absurd rfl hne
    · cases hend <;> rfl

/-- The participants of the shard. -/
def keys (st : SfuShard S) : List (SessionId × ParticipantId) :=
  st.sessions.pairs.flatMap fun e => e.2.participants.pairs.map fun f => (e.1, f.1)

/-- A participant is among the keys of the shard. -/
theorem mem_keys {p : SfuParticipant S} (hp : st.participant? k.1 k.2 = some p) : k ∈ st.keys := by
  obtain ⟨s, hs, hlookup⟩ := participant?_eq_some.mp hp
  exact List.mem_flatMap.mpr ⟨(k.1, s), Dict.mem_pairs.mpr hs,
    List.mem_map.mpr ⟨(k.2, p), Dict.mem_pairs.mpr hlookup, rfl⟩⟩

/-- **The flush ends**, however many events it comes upon. -/
theorem total_flushes (Q : S.Pump) (hfinal : Str0m.Final (S := S) Eq) (now : Instant) :
    Logged.Total (fun _ => True) (Flushes (S := S) now) := by
  intro st₀ _
  -- nobody comes while the shard is flushed
  have hend : Logged.Total (fun st => ∀ k, k ∉ st₀.keys → st.participant? k.1 k.2 = none)
      (Flushes (S := S) now) := by
    refine Logged.Repeat.total
      (fun st => toLex ((st₀.keys.map (waiting Q st)).sum, st.pendingFlush.keys.length))
      fun st hst => ?_
    rcases hkeys : st.pendingFlush.keys with _ | ⟨⟨sid, pid⟩, rest⟩
    · exact .inl ⟨_, _, hkeys, rfl, rfl⟩
    · obtain ⟨log, st', hpolls⟩ := total_polls Q hfinal now sid pid
        { st with pendingFlush := st.pendingFlush.erase (sid, pid) } trivial
      have hconserves := hpolls.conserves (Q := Q) hfinal
      have hlessens := hpolls.lessens Q hfinal
      have hle : ∀ k ∈ st₀.keys, waiting Q st' k ≤ waiting Q st k :=
        fun k _ => hconserves.waiting_le k
      refine .inr ⟨log, st', ⟨sid, pid, rest, hkeys, hpolls⟩, fun k hk => ?_,
        Prod.Lex.toLex_lt_toLex.mpr ?_⟩
      · have hrel := hconserves k.1 k.2
        have hnone := hst k hk
        exact (hnone ▸ hrel).none_left
      · by_cases hlog : log = []
        · have hshorter : st'.pendingFlush.keys.length < st.pendingFlush.keys.length := by
            rw [hlessens.unmarked hlog, AList.keys_erase, hkeys]
            simp
          exact (List.sum_le_sum hle).lt_or_eq.imp id fun heq => ⟨heq, hkeys ▸ hshorter⟩
        · refine .inl (List.sum_lt_sum _ _ hle ⟨(sid, pid), ?_, hlessens.lt hlog⟩)
          by_contra hk
          have hlt := hlessens.lt hlog
          have hzero : waiting Q st (sid, pid) = 0 := by rw [waiting, hst _ hk]
          exact absurd (hlt.trans_eq hzero) (Nat.not_lt_zero _)
  exact hend st₀ fun k hk => Option.eq_none_iff_forall_ne_some.mpr fun p hp => hk (mem_keys hp)

end Total

end SfuShard

end Video

end MateHub
