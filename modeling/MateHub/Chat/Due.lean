import Mathlib.Data.List.Sort
import MateHub.Chat.Sequence

/-!
# What a session is due

The events that the user of a session is to get are those published, after a place in
the order of publication, in the hub of the user on a channel that the user may read
(`MateHub.Chat.Gateway.due`). Who may read what is for the database to say, and it may say
so anew for every message: `mayRead` is what it says at the publication of each. The filter
goes by what `access::check` answers later, and `MateHub.Chat.Gateway.Filtered` says of a
step that this lets nothing through that the user may not read, and that nothing is kept
from a resumed connection that the user may.

An event is identified by its place, and comes with what the filter of the gateway makes of
it, which is nothing if the table of the gateway does not know the suffix of its subject.

The loop of a connection works on what it gets in the order of publication. In the runs
where the loops number in turn (`MateHub.Chat.Gateway.InTurn`) and the filters are right,
this gives that all that
a session has dispatched is due and in that order, and that what waits at a loop which
knows the last number of its session comes after all that is dispatched
(`MateHub.Chat.Gateway.InOrder`).
-/

namespace MateHub

namespace Chat

/-- An event in the order of publication: its place, and what the filter makes of it. -/
abbrev Item (D : Type) := ℕ × Option (GatewayEvent D)

/-- An event without its number. -/
def GatewayEvent.unnumbered {D : Type} (e : GatewayEvent D) : GatewayEvent D :=
  { e with s := none }

/-- What a buffered event shows of a publication. -/
def BufferedEvent.item {D : Type} (e : BufferedEvent D) : Item D :=
  (e.origin, some e.data.unnumbered)

/-- Whether the user of a session may read the channel of a message, published at a place. -/
def Gateway.permitted {D : Type} (mayRead : Question → Bool) (claims : Claims) (place : ℕ)
    (m : NatsMsg D) : Bool :=
  ((m.subject.splitOn '.')[3]?.bind parseI64).any fun channelId =>
    mayRead ⟨place, claims.hubId, channelId, claims.sub⟩

namespace Conn

variable {D : Type}

/-- What waits at the loop of a connection: the events in the channel to the loop, and
those that a filter that is right will make of the messages it has. -/
def pending (mayRead : Question → Bool) (claims : Claims) (conn : Conn D) : List (Item D) :=
  conn.dispatchQueue.map (fun p => (p.1, some p.2.unnumbered)) ++
    conn.inbox.filterMap fun p =>
      (Gateway.eventOf (Gateway.permitted mayRead claims p.1 p.2) p.2).map fun e => (p.1, some e)

/-- The session of a connection past its handshake's start, and its counter. -/
def count? (conn : Conn D) : Option (SessionId × ℕ) :=
  match conn.phase with
  | .replaying sid _ lastSeq => some (sid, lastSeq)
  | .subscribing sid seq => some (sid, seq)
  | .running sid seq => some (sid, seq)
  | .sending sid seq _ => some (sid, seq)
  | _ => none

theorem on?_of_loop? {conn : Conn D} {sid : SessionId} (h : conn.loop? = some sid) :
    conn.on? = some sid := by
  unfold loop? at h
  split at h
  · rename_i hp
    rw [on?, hp]
    exact h
  · rename_i hp
    rw [on?, hp]
    exact h
  · cases h

theorem on?_of_count? {conn : Conn D} {sid : SessionId} {n : ℕ} (h : conn.count? = some (sid, n)) :
    conn.on? = some sid := by
  unfold count? at h
  split at h <;> cases h
  all_goals
    rename_i hp
    rw [on?, hp]

theorem pending_eq_nil {mayRead : Question → Bool} {claims : Claims} {conn : Conn D}
    (h : conn.inbox = [] ∧ conn.dispatchQueue = []) : conn.pending mayRead claims = [] := by
  rw [pending, h.1, h.2]
  rfl

end Conn

namespace Gateway

variable {D : Type} {cfg : Config D} {mayRead : Question → Bool} {w w' : Gateway D} {a : Act D}
  {c : ConnId} {conn conn' : Conn D} {sid : SessionId} {claims : Claims}

/-! ### What is due -/

/-- Whether a message is one of a channel that the user may read, in the user's hub. -/
def readable (mayRead : Question → Bool) (claims : Claims) (place : ℕ) (m : NatsMsg D) : Bool :=
  subscribed claims.hubId m.subject && permitted mayRead claims place m

/-- The events of the readable channels from a place on. -/
def dueOf (mayRead : Question → Bool) (claims : Claims) (place : ℕ)
    (published : List (NatsMsg D)) : List (Item D) :=
  (published.zipIdx.filter fun p =>
    decide (place ≤ p.2) && readable mayRead claims p.2 p.1).map fun p =>
      (p.2, eventOf true p.1)

/-- What a session is due of what has been published. -/
def due (mayRead : Question → Bool) (w : Gateway D) (claims : Claims) (place : ℕ) :
    List (Item D) :=
  dueOf mayRead claims place w.published

theorem mem_dueOf {place : ℕ} {published : List (NatsMsg D)} {p : Item D} :
    p ∈ dueOf mayRead claims place published ↔ place ≤ p.1 ∧ ∃ m, published[p.1]? = some m ∧
      readable mayRead claims p.1 m = true ∧ eventOf true m = p.2 := by
  simp only [dueOf, List.mem_map, List.mem_filter, Bool.and_eq_true, decide_eq_true_iff,
    Prod.exists, List.mk_mem_zipIdx_iff_getElem?]
  constructor
  · rintro ⟨m, i, ⟨hi, hle, hr⟩, rfl⟩
    exact ⟨hle, m, hi, hr, rfl⟩
  · rintro ⟨hle, m, hi, hr, he⟩
    exact ⟨m, p.1, ⟨hi, hle, hr⟩, by rw [he]⟩

/-- A later place leaves less. -/
theorem mem_dueOf_of_le {place place' : ℕ} {published : List (NatsMsg D)} {p : Item D}
    (h : p ∈ dueOf mayRead claims place published) (hle : place' ≤ p.1) :
    p ∈ dueOf mayRead claims place' published :=
  mem_dueOf.mpr ⟨hle, (mem_dueOf.mp h).2⟩

theorem pairwise_dueOf (place : ℕ) (published : List (NatsMsg D)) :
    (dueOf mayRead claims place published).Pairwise fun p q => p.1 < q.1 := by
  refine List.pairwise_map.mpr (List.Pairwise.filter _ ?_)
  have hidx := List.pairwise_lt_range' (s := 0) (n := published.length)
  rw [← List.zipIdx_map_snd 0 published] at hidx
  exact List.pairwise_map.mp hidx

theorem dueOf_append {place : ℕ} {published : List (NatsMsg D)} (m : NatsMsg D)
    (h : place ≤ published.length) : dueOf mayRead claims place (published ++ [m]) =
      dueOf mayRead claims place published ++
        if readable mayRead claims published.length m then [(published.length, eventOf true m)]
        else [] := by
  rw [dueOf, List.zipIdx_append, List.filter_append, List.map_append]
  congr 1
  by_cases hr : readable mayRead claims published.length m = true
  · simp [hr, h]
  · simp [hr]

theorem mem_dueOf_append {place : ℕ} {published : List (NatsMsg D)} {p : Item D} (m : NatsMsg D)
    (h : p ∈ dueOf mayRead claims place published) : p ∈ dueOf mayRead claims place (published ++ [m]) := by
  obtain ⟨hle, m', hm', hrest⟩ := mem_dueOf.mp h
  have hlt := (List.getElem?_eq_some_iff.mp hm').1
  exact mem_dueOf.mpr ⟨hle, m', by rwa [List.getElem?_append_left hlt], hrest⟩

/-- Lists in the order of publication are equal if they have the same elements. -/
theorem eq_of_places {l l' : List (Item D)} (h : l.Pairwise fun p q => p.1 < q.1)
    (h' : l'.Pairwise fun p q => p.1 < q.1) (hmem : ∀ p, p ∈ l ↔ p ∈ l') : l = l' := by
  have : Std.Antisymm fun p q : Item D => p.1 < q.1 := ⟨fun _ _ hpq hqp => absurd hpq (by omega)⟩
  have : Std.Irrefl fun p q : Item D => p.1 < q.1 := ⟨fun _ => Nat.lt_irrefl _⟩
  exact h.eq_of_mem_iff h' hmem

theorem eventOf_unnumbered {allowed : Bool} {m : NatsMsg D} {e : GatewayEvent D}
    (h : eventOf allowed m = some e) : e.unnumbered = e := by
  unfold eventOf at h
  split at h
  · cases h
  · split at h
    · rw [← Option.some.inj h]
      rfl
    · cases h

/-- The filter makes an event of a message only if it is let through. -/
theorem eq_true_of_eventOf {allowed : Bool} {m : NatsMsg D} {e : GatewayEvent D}
    (h : eventOf allowed m = some e) : allowed = true ∧ eventOf true m = some e := by
  cases allowed with
  | true => exact ⟨rfl, h⟩
  | false =>
    unfold eventOf at h
    split at h <;> cases h

/-- The channel that the filter asks for is that of the subject. -/
theorem permitted_of_route {place : ℕ} {m : NatsMsg D} {t : String} {channelId : I64}
    (h : route m.subject = some (t, channelId)) :
    permitted mayRead claims place m = mayRead ⟨place, claims.hubId, channelId, claims.sub⟩ := by
  unfold route at h
  dsimp only at h
  split at h
  · cases h
  · split at h
    · cases h
    · rename_i hchannel
      obtain ⟨-, rfl⟩ := Prod.mk.inj (Option.some.inj h)
      rw [permitted, hchannel]
      rfl

/-- An event that a filter that is right makes of a message is due. -/
theorem readable_of_eventOf {place : ℕ} {m : NatsMsg D} {e : GatewayEvent D}
    (hgets : gets (natsSubject claims.hubId) m = true)
    (h : eventOf (permitted mayRead claims place m) m = some e) :
    readable mayRead claims place m = true :=
  Bool.and_eq_true_iff.mpr ⟨hgets, (eq_true_of_eventOf h).1⟩

/-! ### Filters that are right -/

/-- The answer that a filter goes by in a step. -/
def Act.answer? : Act D → Option Bool
  | .forward _ allowed => some allowed
  | _ => none

/-- **The filters are right in a step**: `access::check` allows nothing that the user may not
read, and for a resumed connection it denies nothing that the user may read. -/
def Filtered (mayRead : Question → Bool) (w : Gateway D) (a : Act D) : Prop :=
  ∀ e ∈ w.conns.pairs, a.conn? = some e.1 → ∀ allowed ∈ a.answer?, ∀ q ∈ w.asks? e.2,
    (allowed = true → mayRead q = true) ∧
      (e.2.resumedFrom.isSome = true → mayRead q = true → allowed = true)

instance (w : Gateway D) (a : Act D) : Decidable (Filtered mayRead w a) :=
  inferInstanceAs (Decidable (∀ e ∈ w.conns.pairs, a.conn? = some e.1 → ∀ allowed ∈ a.answer?,
    ∀ q ∈ w.asks? e.2, (allowed = true → mayRead q = true) ∧
      (e.2.resumedFrom.isSome = true → mayRead q = true → allowed = true)))

/-- What is asked for a message that waits first. -/
theorem asks?_eq {s : SessionInner D} {origin : ℕ} {m : NatsMsg D} {rest : List (ℕ × NatsMsg D)}
    {t : String} {channelId : I64} (hloop : conn.loop? = some sid) (hs : w.sessions sid = some s)
    (hinbox : conn.inbox = (origin, m) :: rest) (hroute : route m.subject = some (t, channelId)) :
    w.asks? conn = some ⟨origin, s.claims.hubId, channelId, s.claims.sub⟩ := by
  rw [asks?, hinbox, hloop, Option.bind_some, hs]
  dsimp only
  rw [hroute]
  rfl

/-! ### What waits at a loop -/

/-- What a connection works on is due, and in the order of publication; if its counter is
the last number of its session, then it comes after all that the session has
dispatched. -/
structure InOrder (mayRead : Question → Bool) (w : Gateway D) (conn : Conn D) : Prop where
  idle : conn.loop? = none → conn.inbox = [] ∧ conn.dispatchQueue = []
  unresumed : conn.session = none → conn.resumedFrom = none
  counter : ∀ sid n s, conn.count? = some (sid, n) → w.sessions sid = some s → n ≤ s.lastSeq
  isDue : ∀ sid s, conn.loop? = some sid → w.sessions sid = some s →
    ∀ p ∈ conn.pending mayRead s.claims, p ∈ due mayRead w s.claims (w.opened sid)
  places : ∀ sid s, conn.loop? = some sid → w.sessions sid = some s →
    (conn.pending mayRead s.claims).Pairwise fun p q => p.1 < q.1
  ahead : ∀ sid s, conn.loop? = some sid → conn.count? = some (sid, s.lastSeq) →
    w.sessions sid = some s → ∀ e ∈ w.dispatched sid, ∀ p ∈ conn.pending mayRead s.claims,
      e.origin < p.1

/-- The order of a connection does not depend on other connections. -/
theorem InOrder.setConn (h : InOrder mayRead w conn) (c : ConnId) (conn' : Conn D) :
    InOrder mayRead (w.setConn c conn') conn :=
  ⟨h.idle, h.unresumed, h.counter, h.isDue, h.places, h.ahead⟩

/-- A connection that is not in its loop. -/
theorem InOrder.outside (hloop : conn.loop? = none)
    (hidle : conn.inbox = [] ∧ conn.dispatchQueue = [])
    (hunresumed : conn.session = none → conn.resumedFrom = none)
    (hcounter : ∀ sid n s, conn.count? = some (sid, n) → w.sessions sid = some s → n ≤ s.lastSeq) :
    InOrder mayRead w conn where
  idle _ := hidle
  unresumed := hunresumed
  counter := hcounter
  isDue _ _ h := by rw [hloop] at h; cases h
  places _ _ h := by rw [hloop] at h; cases h
  ahead _ _ h := by rw [hloop] at h; cases h

/-- A connection that stays where it is, and where nothing new waits. -/
theorem InOrder.same (h : InOrder mayRead w conn) (hloop : conn'.loop? = conn.loop?)
    (hcount : conn'.count? = conn.count?) (hsession : conn'.session = conn.session)
    (hresumed : conn'.resumedFrom = conn.resumedFrom)
    (hidle : conn.loop? = none → conn'.inbox = [] ∧ conn'.dispatchQueue = [])
    (hpending : ∀ sid s, conn.loop? = some sid → w.sessions sid = some s →
      List.Sublist (conn'.pending mayRead s.claims) (conn.pending mayRead s.claims)) :
    InOrder mayRead w conn' where
  idle hno := hidle (hloop ▸ hno)
  unresumed hno := by rw [hresumed, h.unresumed (hsession ▸ hno)]
  counter sid n s hn := h.counter sid n s (hcount ▸ hn)
  isDue sid s hl hs p hp := by
    rw [hloop] at hl
    exact h.isDue sid s hl hs p ((hpending sid s hl hs).subset hp)
  places sid s hl hs := by
    rw [hloop] at hl
    exact (h.places sid s hl hs).sublist (hpending sid s hl hs)
  ahead sid s hl hn hs e he p hp := by
    rw [hloop] at hl
    exact h.ahead sid s hl (hcount ▸ hn) hs e he p ((hpending sid s hl hs).subset hp)

/-- What waits stays the same when the filter lets an event through that the user may read. -/
theorem pending_of_forwards {s : SessionInner D} {origin : ℕ} {m : NatsMsg D}
    {rest : List (ℕ × NatsMsg D)} {allowed : Bool} {e : GatewayEvent D}
    (hloop : conn.loop? = some sid) (hs : w.sessions sid = some s)
    (hinbox : conn.inbox = (origin, m) :: rest) (hevent : eventOf allowed m = some e)
    (hright : ∀ q ∈ w.asks? conn, mayRead q = true) :
    Conn.pending mayRead s.claims
        { conn with inbox := rest, dispatchQueue := conn.dispatchQueue ++ [(origin, e)] } =
      conn.pending mayRead s.claims := by
  have htrue := (eq_true_of_eventOf hevent).2
  obtain ⟨⟨t, channelId⟩, hroute⟩ : ∃ r, route m.subject = some r := by
    unfold eventOf at htrue
    split at htrue
    · cases htrue
    · exact ⟨_, by assumption⟩
  have hmay : permitted mayRead s.claims origin m = true := by
    rw [permitted_of_route hroute]
    exact hright _ (asks?_eq hloop hs hinbox hroute)
  simp [Conn.pending, hinbox, hmay, htrue, eventOf_unnumbered htrue]

/-- It stays the same when the filter drops what the user may not read, or what is no
event. -/
theorem pending_of_filters {s : SessionInner D} {origin : ℕ} {m : NatsMsg D}
    {rest : List (ℕ × NatsMsg D)} {allowed : Bool} (hloop : conn.loop? = some sid)
    (hs : w.sessions sid = some s) (hinbox : conn.inbox = (origin, m) :: rest)
    (hevent : eventOf allowed m = none)
    (hright : ∀ q ∈ w.asks? conn, mayRead q = true → allowed = true) :
    Conn.pending mayRead s.claims { conn with inbox := rest } = conn.pending mayRead s.claims := by
  have hnone : eventOf (permitted mayRead s.claims origin m) m = none := by
    cases hroute : route m.subject with
    | none => rw [eventOf, hroute]
    | some r =>
      rw [permitted_of_route hroute]
      by_cases hmay : mayRead ⟨origin, s.claims.hubId, r.2, s.claims.sub⟩ = true
      · rw [hmay, ← hright _ (asks?_eq hloop hs hinbox hroute) hmay, hevent]
      · rw [eq_false_of_ne_true hmay, eventOf, hroute]
        rfl
  simp [Conn.pending, hinbox, hnone]

/-- A move keeps the order, if its filter lets through only what the user may read. -/
theorem Move.inOrder (hm : Move cfg w conn a conn') (h : InOrder mayRead w conn)
    (hright : ∀ allowed ∈ a.answer?, ∀ q ∈ w.asks? conn, allowed = true → mayRead q = true) :
    InOrder mayRead w conn' := by
  have outside {conn' : Conn D} (hbefore : conn.loop? = none) (hloop : conn'.loop? = none)
      (hinbox : conn'.inbox = conn.inbox) (hqueue : conn'.dispatchQueue = conn.dispatchQueue)
      (hsession : conn'.session = none → conn'.resumedFrom = none)
      (hcounter : ∀ sid n s, conn'.count? = some (sid, n) → w.sessions sid = some s →
        n ≤ s.lastSeq) : InOrder mayRead w conn' :=
    .outside hloop (by rw [hinbox, hqueue]; exact h.idle hbefore) hsession hcounter
  cases hm with
  | writes | writerFails =>
    exact h.same rfl rfl rfl rfl h.idle fun _ _ _ _ => List.Sublist.refl _
  | greets hp | finds hp =>
    exact outside (by rw [Conn.loop?, hp]) rfl rfl rfl h.unresumed fun _ _ _ hn => by cases hn
  | rejected hp =>
    refine outside ?_ rfl rfl rfl h.unresumed fun _ _ _ hn => by cases hn
    obtain hp | ⟨sid, seq, hp⟩ := hp <;> rw [Conn.loop?, hp]
  | ends hp =>
    refine outside ?_ rfl rfl rfl h.unresumed fun _ _ _ hn => by cases hn
    obtain hp | hp := hp <;> rw [Conn.loop?, hp]
  | takesReplay hp =>
    exact outside (by rw [Conn.loop?, hp]) rfl rfl rfl (fun hno => by cases hno)
      fun _ _ _ hn => by cases hn
  | @counts c sid replay hp =>
    refine outside (by rw [Conn.loop?, hp]) rfl rfl rfl h.unresumed fun sid' n s hn hs => ?_
    obtain ⟨rfl, rfl⟩ := Prod.mk.inj (Option.some.inj hn)
    rw [hs]
    exact Nat.le_refl _
  | ready hp =>
    refine outside (by rw [Conn.loop?, hp]) rfl rfl rfl h.unresumed fun sid' n s hn hs => ?_
    obtain ⟨rfl, rfl⟩ := Prod.mk.inj (Option.some.inj hn)
    exact Nat.zero_le _
  | replays hp | resumed hp =>
    refine outside (by rw [Conn.loop?, hp]) rfl rfl rfl h.unresumed fun sid' n s hn hs => ?_
    exact h.counter sid' n s (by rw [Conn.count?, hp]; exact hn) hs
  | fails hp =>
    refine outside ?_ rfl rfl rfl h.unresumed fun _ _ _ hn => by cases hn
    obtain hp | ⟨replay, lastSeq, hp⟩ := hp <;> rw [Conn.loop?, hp]
  | @subscribes c sid seq hp =>
    have hidle := h.idle (by rw [Conn.loop?, hp])
    have hpending {claims : Claims} :
        Conn.pending mayRead claims { conn with phase := .running sid seq } = [] :=
      Conn.pending_eq_nil hidle
    refine ⟨fun _ => hidle, h.unresumed, fun sid' n s hn hs => ?_, fun _ _ _ _ => ?_,
      fun _ _ _ _ => ?_, fun _ _ _ _ _ => ?_⟩
    · exact h.counter sid' n s (by rw [Conn.count?, hp]; exact hn) hs
    · simp [hpending]
    · simp [hpending]
    · simp [hpending]
  | refused hp =>
    exact outside (by rw [Conn.loop?, hp]) rfl rfl rfl h.unresumed fun _ _ _ hn => by cases hn
  | @filters c allowed sid s origin m rest hloop hs hin hnone =>
    refine h.same rfl rfl rfl rfl (fun hno => ?_) fun sid' s' hl hs' => ?_
    · rw [hloop] at hno
      cases hno
    · -- what is dropped may be what the user may read
      rw [Conn.pending, Conn.pending, hin]
      exact .append_left ((List.sublist_cons_self _ _).filterMap _) _
  | @forwards c allowed sid s origin m rest e hloop hs hin hsome =>
    refine h.same rfl rfl rfl rfl (fun hno => ?_) fun sid' s' hl hs' => ?_
    · rw [hloop] at hno
      cases hno
    · obtain rfl := Option.some.inj (hloop.symm.trans hl)
      obtain rfl := Option.some.inj (hs.symm.trans hs')
      rw [pending_of_forwards hloop hs hin hsome fun q hq =>
        hright allowed rfl q hq (eq_true_of_eventOf hsome).1]
  | sends hp =>
    exact h.same (by simp only [Conn.loop?, hp]) (by simp only [Conn.count?, hp]) rfl rfl h.idle
      fun _ _ _ _ => List.Sublist.refl _
  | leaves hloop =>
    exact .outside rfl ⟨rfl, rfl⟩ h.unresumed fun _ _ _ hn => by cases hn

/-! ### The order of a session -/

/-- What the sessions have dispatched is due, in the order of publication, and what the
connections work on is in order with it. -/
structure Tidy (mayRead : Question → Bool) (w : Gateway D) : Prop where
  opened : ∀ sid, w.opened sid ≤ w.published.length
  subject : ∀ sid s, w.sessions sid = some s → s.natsSubject = natsSubject s.claims.hubId
  isDue : ∀ sid s, w.sessions sid = some s → ∀ e ∈ w.dispatched sid,
    e.item ∈ due mayRead w s.claims (w.opened sid)
  places : ∀ sid, (w.dispatched sid).Pairwise fun e e' => e.origin < e'.origin
  conns : ∀ c conn, w.conns.lookup c = some conn → InOrder mayRead w conn

theorem tidy_new : Tidy mayRead (.new : Gateway D) :=
  ⟨fun _ => Nat.le_refl _, fun _ _ h => (nomatch h), fun _ _ h => (nomatch h), fun _ => .nil,
    fun _ _ h => (nomatch h)⟩

/-- A step that publishes and dispatches nothing: the sessions there are stay as they are,
as far as the order is concerned, and a session there was not is new. -/
structure Quiet (w w' : Gateway D) : Prop where
  published : w'.published = w.published
  dispatched : w'.dispatched = w.dispatched
  session : ∀ sid s', w'.sessions sid = some s' → (∃ s, w.sessions sid = some s ∧
      s'.claims = s.claims ∧ s'.natsSubject = s.natsSubject ∧ s'.lastSeq = s.lastSeq ∧
      w'.opened sid = w.opened sid) ∨
    w.sessions sid = none ∧ s'.natsSubject = natsSubject s'.claims.hubId
  opened : ∀ sid, w'.opened sid = w.opened sid ∨ w'.opened sid = w.published.length

theorem Quiet.of_eq (hpublished : w'.published = w.published)
    (hdispatched : w'.dispatched = w.dispatched) (hsessions : w'.sessions = w.sessions)
    (hopened : w'.opened = w.opened) : Quiet w w' :=
  ⟨hpublished, hdispatched, fun _ s' hs' =>
    .inl ⟨s', hsessions ▸ hs', rfl, rfl, rfl, by rw [hopened]⟩, fun _ => .inl (by rw [hopened])⟩

theorem quiet_modifySession (f : SessionInner D → SessionInner D)
    (hclaims : ∀ s, (f s).claims = s.claims) (hsubject : ∀ s, (f s).natsSubject = s.natsSubject)
    (hseq : ∀ s, (f s).lastSeq = s.lastSeq) (conn : Conn D) :
    Quiet w ((w.modifySession sid f).setConn c conn) := by
  refine ⟨rfl, rfl, fun sid' s' hs' => .inl ?_, fun _ => .inl rfl⟩
  have hs := (sessions_modifySession w sid sid' f).symm.trans hs'
  split at hs
  · obtain ⟨s, hbefore, rfl⟩ := Option.map_eq_some_iff.mp hs
    exact ⟨s, hbefore, hclaims s, hsubject s, hseq s, rfl⟩
  · exact ⟨s', hs, rfl, rfl, rfl, rfl⟩

/-- A quiet step keeps the order of a connection. -/
theorem InOrder.quiet (h : InOrder mayRead w conn) (hq : Quiet w w')
    (hknown : ∀ sid, conn.on? = some sid → ∃ s, w.sessions sid = some s) :
    InOrder mayRead w' conn := by
  have before {sid : SessionId} {s' : SessionInner D} (hon : conn.on? = some sid)
      (hs' : w'.sessions sid = some s') : ∃ s, w.sessions sid = some s ∧
        s'.claims = s.claims ∧ s'.lastSeq = s.lastSeq ∧ w'.opened sid = w.opened sid := by
    obtain ⟨s₀, hs₀⟩ := hknown sid hon
    obtain ⟨s, hs, hclaims, -, hseq, hopened⟩ | ⟨hnone, -⟩ := hq.session sid s' hs'
    · exact ⟨s, hs, hclaims, hseq, hopened⟩
    · rw [hs₀] at hnone
      cases hnone
  refine ⟨h.idle, h.unresumed, fun sid n s' hn hs' => ?_, fun sid s' hl hs' => ?_,
    fun sid s' hl hs' => ?_, fun sid s' hl hn hs' => ?_⟩
  · obtain ⟨s, hs, -, hseq, -⟩ := before (Conn.on?_of_count? hn) hs'
    rw [hseq]
    exact h.counter sid n s hn hs
  · obtain ⟨s, hs, hclaims, -, hopened⟩ := before (Conn.on?_of_loop? hl) hs'
    rw [hclaims, hopened, due, hq.published]
    exact h.isDue sid s hl hs
  · obtain ⟨s, hs, hclaims, -, -⟩ := before (Conn.on?_of_loop? hl) hs'
    rw [hclaims]
    exact h.places sid s hl hs
  · obtain ⟨s, hs, hclaims, hseq, -⟩ := before (Conn.on?_of_loop? hl) hs'
    rw [hclaims, hq.dispatched]
    exact h.ahead sid s hl (hseq ▸ hn) hs

/-- A connection on a session knows it. -/
theorem Logged.on (h : Logged w) (hc : w.conns.lookup c = some conn) (hon : conn.on? = some sid) :
    ∃ s, w.sessions sid = some s := by
  refine h.known c conn sid hc ?_
  rw [(h.served c conn hc).on fun hp => ?_, hon]
  rw [Conn.on?, hp] at hon
  cases hon

theorem Tidy.quiet (h : Tidy mayRead w) (hl : Logged w) (hq : Quiet w w')
    (hconns : ∀ c conn, w'.conns.lookup c = some conn → InOrder mayRead w' conn) : Tidy mayRead w' := by
  refine ⟨fun sid => ?_, fun sid s' hs' => ?_, fun sid s' hs' e he => ?_, fun sid => ?_, hconns⟩
  · rw [hq.published]
    obtain hsame | hlen := hq.opened sid
    · rw [hsame]
      exact h.opened sid
    · exact Nat.le_of_eq hlen
  · obtain ⟨s, hs, hclaims, hsubject, -, -⟩ | ⟨-, hsubject⟩ := hq.session sid s' hs'
    · rw [hsubject, hclaims]
      exact h.subject sid s hs
    · exact hsubject
  · rw [hq.dispatched] at he
    obtain ⟨s, hs, hclaims, -, -, hopened⟩ | ⟨hnone, -⟩ := hq.session sid s' hs'
    · rw [hclaims, hopened, due, hq.published]
      exact h.isDue sid s hs e he
    · rw [hl.unborn sid hnone] at he
      cases he
  · rw [hq.dispatched]
    exact h.places sid

/-- A quiet step of one connection. -/
theorem Tidy.setConn (h : Tidy mayRead w) (hl : Logged w) (hq : Quiet w w')
    (hconns : w'.conns = w.conns.insert c conn') (hin : InOrder mayRead w' conn') : Tidy mayRead w' := by
  refine h.quiet hl hq fun c' conn hc => ?_
  rw [hconns, Dict.lookup_insert_eq] at hc
  split at hc
  · exact Option.some.inj hc ▸ hin
  · exact (h.conns c' conn hc).quiet hq fun _ => hl.on hc

theorem lt_of_mem_due {place : ℕ} {p : Item D} (h : p ∈ due mayRead w claims place) :
    p.1 < w.published.length := by
  obtain ⟨-, m, hm, -⟩ := mem_dueOf.mp h
  exact (List.getElem?_eq_some_iff.mp hm).1

/-- What a session is once an event is buffered. -/
theorem sessions_buffer {s' : SessionInner D} {e : BufferedEvent D} {sid' : SessionId}
    (hs' : (w.buffer cfg sid e).sessions sid' = some s') : ∃ s, w.sessions sid' = some s ∧
      s'.claims = s.claims ∧ s'.natsSubject = s.natsSubject ∧
      (sid' = sid ∧ s'.lastSeq = e.seq ∨
        s'.lastSeq = s.lastSeq ∧ (w.buffer cfg sid e).dispatched sid' = w.dispatched sid') := by
  have hs := (sessions_modifySession w sid sid' _).symm.trans hs'
  split at hs
  · rename_i heq
    obtain ⟨s, hbefore, rfl⟩ := Option.map_eq_some_iff.mp hs
    exact ⟨s, hbefore, rfl, rfl, .inl ⟨heq, rfl⟩⟩
  · rename_i hne
    exact ⟨s', hs, rfl, rfl, .inr ⟨rfl, Function.update_of_ne hne _ _⟩⟩

/-- The connections other than the one whose event is buffered. -/
theorem InOrder.buffer (h : InOrder mayRead w conn) {s : SessionInner D} {e : BufferedEvent D}
    (hs : w.sessions sid = some s) (he : e.seq = s.lastSeq + 1) :
    InOrder mayRead (w.buffer cfg sid e) conn := by
  refine ⟨h.idle, h.unresumed, fun sid' n s' hn hs' => ?_, fun sid' s' hl hs' => ?_,
    fun sid' s' hl hs' => ?_, fun sid' s' hl hn hs' => ?_⟩
  · obtain ⟨s₀, hs₀, -, -, ⟨rfl, hseq⟩ | ⟨hseq, -⟩⟩ := sessions_buffer hs'
    · obtain rfl := Option.some.inj (hs.symm.trans hs₀)
      have := h.counter sid' n s hn hs
      omega
    · rw [hseq]
      exact h.counter sid' n s₀ hn hs₀
  · obtain ⟨s₀, hs₀, hclaims, -⟩ := sessions_buffer hs'
    rw [hclaims]
    exact h.isDue sid' s₀ hl hs₀
  · obtain ⟨s₀, hs₀, hclaims, -⟩ := sessions_buffer hs'
    rw [hclaims]
    exact h.places sid' s₀ hl hs₀
  · obtain ⟨s₀, hs₀, hclaims, -, ⟨rfl, hseq⟩ | ⟨hseq, hlog⟩⟩ := sessions_buffer hs'
    · -- its counter would be ahead of its session
      obtain rfl := Option.some.inj (hs.symm.trans hs₀)
      have := h.counter sid' s'.lastSeq s hn hs
      omega
    · rw [hlog, hclaims]
      exact h.ahead sid' s₀ hl (hseq ▸ hn) hs₀

theorem sessions_buffer_self {s s' : SessionInner D} {e : BufferedEvent D}
    (hs : w.sessions sid = some s) (hs' : (w.buffer cfg sid e).sessions sid = some s') :
    s'.claims = s.claims ∧ s'.lastSeq = e.seq := by
  have hself := (sessions_modifySession w sid sid _).symm.trans hs'
  rw [if_pos rfl, hs] at hself
  rw [← Option.some.inj hself]
  exact ⟨rfl, rfl⟩

theorem dispatched_buffer_self (e : BufferedEvent D) :
    (w.buffer cfg sid e).dispatched sid = w.dispatched sid ++ [e] :=
  Function.update_self _ _ _

theorem dispatched_buffer_of_ne {sid' : SessionId} (hne : sid ≠ sid') (e : BufferedEvent D) :
    (w.buffer cfg sid' e).dispatched sid = w.dispatched sid :=
  Function.update_of_ne hne _ _

/-- The connection whose event is buffered, which is the first of those that wait. -/
theorem InOrder.dispatch (h : InOrder mayRead w conn) {e : BufferedEvent D} {s : SessionInner D}
    (hs : w.sessions sid = some s) (hloop : conn.loop? = some sid)
    (hcount : conn.count? = some (sid, s.lastSeq)) (hloop' : conn'.loop? = some sid)
    (hcount' : conn'.count? = some (sid, e.seq)) (hsession : conn'.session = conn.session)
    (hresumed : conn'.resumedFrom = conn.resumedFrom)
    (hpending : conn.pending mayRead s.claims = e.item :: conn'.pending mayRead s.claims) :
    InOrder mayRead (w.buffer cfg sid e) conn' := by
  have hplaces := h.places sid s hloop hs
  rw [hpending, List.pairwise_cons] at hplaces
  have hhead : e.item ∈ conn.pending mayRead s.claims := hpending ▸ List.mem_cons_self
  have htail {p : Item D} (hmem : p ∈ conn'.pending mayRead s.claims) : p ∈ conn.pending mayRead s.claims :=
    hpending ▸ List.mem_cons_of_mem _ hmem
  have here {sid' : SessionId} (hl : conn'.loop? = some sid') : sid = sid' :=
    Option.some.inj (hloop'.symm.trans hl)
  refine ⟨fun hno => ?_, fun hno => ?_, fun sid' n s' hn hs' => ?_, fun sid' s' hl hs' p hmem => ?_,
    fun sid' s' hl hs' => ?_, fun sid' s' hl _ hs' e' he' p hmem => ?_⟩
  · rw [hloop'] at hno
    cases hno
  · rw [hresumed, h.unresumed (hsession ▸ hno)]
  · obtain ⟨rfl, rfl⟩ := Prod.mk.inj (Option.some.inj (hcount'.symm.trans hn))
    exact Nat.le_of_eq (sessions_buffer_self hs hs').2.symm
  · obtain rfl := here hl
    rw [(sessions_buffer_self hs hs').1] at hmem ⊢
    exact h.isDue sid s hloop hs p (htail hmem)
  · obtain rfl := here hl
    rw [(sessions_buffer_self hs hs').1]
    exact hplaces.2
  · obtain rfl := here hl
    rw [(sessions_buffer_self hs hs').1] at hmem
    rw [dispatched_buffer_self, List.mem_append, List.mem_singleton] at he'
    obtain he' | rfl := he'
    · exact h.ahead sid s hloop hcount hs e' he' p (htail hmem)
    · exact hplaces.1 p hmem

/-- **Dispatching in turn keeps the order.** -/
theorem Tidy.dispatch (h : Tidy mayRead w) {e : BufferedEvent D} {s : SessionInner D}
    (hc : w.conns.lookup c = some conn) (hs : w.sessions sid = some s)
    (he : e.seq = s.lastSeq + 1) (hloop : conn.loop? = some sid)
    (hcount : conn.count? = some (sid, s.lastSeq))
    (hhead : e.item ∈ conn.pending mayRead s.claims)
    (hin' : InOrder mayRead (w.buffer cfg sid e) conn') :
    Tidy mayRead ((w.buffer cfg sid e).setConn c conn') := by
  have hin := h.conns c conn hc
  refine ⟨h.opened, fun sid' s' hs' => ?_, fun sid' s' hs' e' he' => ?_, fun sid' => ?_,
    fun c' conn' hc' => ?_⟩
  · obtain ⟨s₀, hs₀, hclaims, hsubject, -⟩ := sessions_buffer hs'
    rw [hsubject, hclaims]
    exact h.subject sid' s₀ hs₀
  · obtain ⟨s₀, hs₀, hclaims, -⟩ := sessions_buffer hs'
    rw [hclaims]
    obtain he' | ⟨rfl, rfl⟩ := (mem_dispatched_buffer cfg).mp he'
    · exact h.isDue sid' s₀ hs₀ e' he'
    · obtain rfl := Option.some.inj (hs.symm.trans hs₀)
      exact hin.isDue sid' s hloop hs _ hhead
  · rw [dispatched_setConn]
    by_cases hsid : sid' = sid
    · rw [hsid, dispatched_buffer_self]
      refine List.pairwise_append.mpr
        ⟨h.places sid, List.pairwise_singleton _ _, fun e' he' e'' he'' => ?_⟩
      rw [List.mem_singleton.mp he'']
      exact hin.ahead sid s hloop hcount hs e' he' _ hhead
    · rw [show (w.buffer cfg sid e).dispatched sid' = _ from Function.update_of_ne hsid _ _]
      exact h.places sid'
  · rw [conns_setConn, Dict.lookup_insert_eq] at hc'
    split at hc'
    · exact (Option.some.inj hc' ▸ hin').setConn _ _
    · exact ((h.conns c' conn' hc').buffer hs he).setConn _ _

/-! ### Publishing -/

/-- What waits at a loop after a message is published. -/
theorem pending_receive {s : SessionInner D} (m : NatsMsg D) (hloop : conn.loop? = some sid)
    (hs : w.sessions sid = some s) : (w.receive m conn).pending mayRead claims =
      conn.pending mayRead claims ++
        if gets s.natsSubject m then
          ((eventOf (permitted mayRead claims w.published.length m) m).map fun e =>
            (w.published.length, some e)).toList
        else [] := by
  have hany : ((conn.loop?.bind w.sessions).any fun s => gets s.natsSubject m) =
      gets s.natsSubject m := by
    rw [hloop, Option.bind_some, hs]
    rfl
  unfold receive
  rw [hany]
  split
  · rw [Conn.pending, Conn.pending, List.filterMap_append, List.append_assoc]
    cases he : eventOf (permitted mayRead claims w.published.length m) m <;> simp [he]
  · rw [List.append_nil]

theorem receive_resumedFrom (w : Gateway D) (m : NatsMsg D) (conn : Conn D) :
    (w.receive m conn).resumedFrom = conn.resumedFrom := by
  unfold receive
  split <;> rfl

theorem receive_phase (w : Gateway D) (m : NatsMsg D) (conn : Conn D) :
    (w.receive m conn).phase = conn.phase := by
  unfold receive
  split <;> rfl

/-- A message is published: what waits gets longer by it at most. -/
theorem InOrder.publish (h : InOrder mayRead w conn) (ht : Tidy mayRead w) (m : NatsMsg D) :
    InOrder mayRead (w.publish m) (w.receive m conn) := by
  have hloop : (w.receive m conn).loop? = conn.loop? := by
    rw [Conn.loop?, Conn.loop?, receive_phase]
  have hcount : (w.receive m conn).count? = conn.count? := by
    rw [Conn.count?, Conn.count?, receive_phase]
  -- what is new has the place after all others, and is due if it is anything
  have new {s : SessionInner D} {p : Item D} {sid : SessionId} (hs : w.sessions sid = some s)
      (hp : p ∈ if gets s.natsSubject m then
        ((eventOf (permitted mayRead s.claims w.published.length m) m).map fun e =>
          (w.published.length, some e)).toList else []) :
      p.1 = w.published.length ∧ p ∈ due mayRead (w.publish m) s.claims (w.opened sid) := by
    split at hp
    · rename_i hgets
      rw [Option.mem_toList, Option.map_eq_some_iff] at hp
      obtain ⟨e, he, rfl⟩ := hp
      refine ⟨rfl, mem_dueOf.mpr ⟨ht.opened sid, m, by simp [Gateway.publish], ?_,
        (eq_true_of_eventOf he).2⟩⟩
      exact readable_of_eventOf (ht.subject sid s hs ▸ hgets) he
    · cases hp
  refine ⟨fun hno => ?_, fun hno => ?_, fun sid n s hn hs => ?_,
    fun sid s hl (hs : w.sessions sid = some s) p hp => ?_,
    fun sid s hl (hs : w.sessions sid = some s) => ?_,
    fun sid s hl hn (hs : w.sessions sid = some s) e he p hp => ?_⟩
  · rw [hloop] at hno
    rw [receive, hno]
    exact h.idle hno
  · rw [receive_session] at hno
    rw [receive_resumedFrom, h.unresumed hno]
  · exact h.counter sid n s (hcount ▸ hn) hs
  · rw [hloop] at hl
    rw [pending_receive m hl hs, List.mem_append] at hp
    obtain hp | hp := hp
    · exact mem_dueOf_append m (h.isDue sid s hl hs p hp)
    · exact (new hs hp).2
  · rw [hloop] at hl
    rw [pending_receive m hl hs]
    refine List.pairwise_append.mpr ⟨h.places sid s hl hs, ?_, fun p hp q hq => ?_⟩
    · split
      · cases eventOf (permitted mayRead s.claims w.published.length m) m <;> simp
      · exact .nil
    · rw [(new hs hq).1]
      exact lt_of_mem_due (h.isDue sid s hl hs p hp)
  · rw [hloop] at hl
    rw [pending_receive m hl hs, List.mem_append] at hp
    obtain hp | hp := hp
    · exact h.ahead sid s hl (hcount ▸ hn) hs e he p hp
    · rw [(new hs hp).1]
      exact lt_of_mem_due (ht.isDue sid s hs e he)

theorem Tidy.publish (h : Tidy mayRead w) (m : NatsMsg D) : Tidy mayRead (w.publish m) := by
  refine ⟨fun sid => ?_, h.subject, fun sid s hs e he => ?_, h.places, fun c conn' hc => ?_⟩
  · rw [Gateway.publish, List.length_append]
    exact Nat.le_trans (h.opened sid) (Nat.le_add_right _ _)
  · exact mem_dueOf_append m (h.isDue sid s hs e he)
  · rw [Gateway.publish, Dict.lookup_mapVals, Option.map_eq_some_iff] at hc
    obtain ⟨conn, hc, rfl⟩ := hc
    exact (h.conns c conn hc).publish h m

/-! ### Steps in turn -/

/-- What waits at a loop that takes the next event. -/
theorem pending_dispatch (mayRead : Question → Bool) (claims : Claims) {origin : ℕ} {e : GatewayEvent D}
    {rest : List (ℕ × GatewayEvent D)} (hq : conn.dispatchQueue = (origin, e) :: rest) (seq : ℕ) (phase : Phase D) :
    conn.pending mayRead claims = (numberedEvent seq origin e).item ::
      Conn.pending mayRead claims { conn with phase := phase, dispatchQueue := rest } := by
  rw [Conn.pending, hq]
  rfl

/-- **A step in turn keeps the order**, if its filter is right. -/
theorem Tidy.step (h : Tidy mayRead w) (hl : Logged w) (hok : InTurn w a)
    (hright : Filtered mayRead w a) (hk : Kind cfg w a w') : Tidy mayRead w' := by
  cases hk with
  | stays => exact h
  | connects =>
    exact h.setConn hl (.of_eq rfl rfl rfl rfl) rfl (.outside rfl ⟨rfl, rfl⟩ (fun _ => rfl)
      fun _ _ _ hn => by cases hn)
  | @moves _ c conn conn' hc ha hm =>
    exact h.setConn hl (.of_eq rfl rfl rfl rfl) rfl ((hm.inOrder (h.conns c conn hc)
      fun allowed hans q hq => (hright _ (Dict.mem_pairs.mpr hc) ha allowed hans q hq).1).setConn
        _ _)
  | @identifies c conn token sid claims hc hp hnone =>
    refine h.setConn hl ⟨rfl, rfl, fun sid' s' hs' => ?_, fun sid' => ?_⟩ rfl
      (.outside rfl ((h.conns c conn hc).idle (by rw [Conn.loop?, hp])) (fun hno => by cases hno)
        fun _ _ _ hn => by cases hn)
    · have hs := (Function.update_apply w.sessions _ _ _).symm.trans hs'
      split at hs
      · rename_i heq
        rw [heq, ← Option.some.inj hs]
        exact .inr ⟨hnone, rfl⟩
      · rename_i hne
        exact .inl ⟨s', hs, rfl, rfl, rfl, Function.update_of_ne hne _ _⟩
    · by_cases heq : sid' = sid
      · rw [heq]
        exact .inr (Function.update_self _ _ _)
      · exact .inl (Function.update_of_ne heq _ _)
  | @marksConnected c conn sid replay hc hp =>
    have hin := h.conns c conn hc
    refine h.setConn hl (quiet_modifySession SessionInner.markConnected (fun _ => rfl)
      (fun _ => rfl) (fun _ => rfl) _) rfl ?_
    exact .outside rfl (hin.idle (by rw [Conn.loop?, hp])) hin.unresumed fun _ _ _ hn => by cases hn
  | @marksDisconnected c conn sid hc hp =>
    have hin := h.conns c conn hc
    refine h.setConn hl (quiet_modifySession (fun s => s.markDisconnected w.clock) (fun _ => rfl)
      (fun _ => rfl) (fun _ => rfl) _) rfl ?_
    exact .outside rfl (hin.idle (by rw [Conn.loop?, hp])) hin.unresumed fun _ _ _ hn => by cases hn
  | @dispatches c conn sid seq origin e rest hc hp hq =>
    obtain ⟨s, hs⟩ := hl.on hc (by rw [Conn.on?, hp] : conn.on? = some sid)
    have hseq : s.lastSeq = seq :=
      hok _ (Dict.mem_pairs.mpr hc) rfl (sid, seq) (by simp [Conn.counter?, hp, hq]) s hs
    have hloop : conn.loop? = some sid := by rw [Conn.loop?, hp]
    have hcount : conn.count? = some (sid, s.lastSeq) := by rw [Conn.count?, hp, hseq]
    have hpending := pending_dispatch mayRead s.claims hq (seq + 1)
      (.sending sid (seq + 1) (numberedEvent (seq + 1) origin e))
    exact h.dispatch hc hs (by rw [hseq]; rfl) hloop hcount (hpending ▸ List.mem_cons_self)
      ((h.conns c conn hc).dispatch hs hloop hcount rfl rfl rfl rfl hpending)
  | @publishes m => exact h.publish m
  | elapses =>
    exact h.quiet hl (.of_eq rfl rfl rfl rfl) fun c conn hc =>
      (h.conns c conn hc).quiet (.of_eq rfl rfl rfl rfl) fun _ => hl.on hc
  | reaps =>
    exact h.quiet hl (.of_eq rfl rfl rfl rfl) fun c conn hc =>
      (h.conns c conn hc).quiet (.of_eq rfl rfl rfl rfl) fun _ => hl.on hc

end Gateway

end Chat

end MateHub
