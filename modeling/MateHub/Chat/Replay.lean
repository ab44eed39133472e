import MateHub.Chat.Due

/-!
# What a client gets after a RESUME

A client that resumes a session is to get all that was published since the event it
names, on the channels that it may read. It gets what the session has dispatched since
then, from the buffer, and after that what its own subscription brings. Four things can
be lost on the way: what is published while no connection of the session is subscribed,
and so is never dispatched; what is published after the replay is taken and before the
new subscription; what the table of the gateway does not know; and what `access::check`
denies although the user may read it, as it does when the database fails and for half a
minute after. And what is dispatched out of turn (`MateHub.Chat.Gateway.InTurn`) makes the
buffer worthless. `MateHub.Chat.Gateway.Gapless` says of a step that it does none of this.

In the runs of such steps, what a resumed connection has sent and works on is what was
published since, each event once and in order (`MateHub.Chat.Gateway.replay_complete`).
-/

namespace MateHub

namespace Chat

namespace Conn

variable {D : Type}

/-- The session that a connection serves, or is on the way to serve. -/
def live? (conn : Conn D) : Option SessionId :=
  match conn.phase with
  | .ready sid => some sid
  | .replayed sid _ => some sid
  | .connected sid _ => some sid
  | .replaying sid _ _ => some sid
  | .subscribing sid _ => some sid
  | .running sid _ => some sid
  | .sending sid _ _ => some sid
  | _ => none

/-- The handshake is over: READY or RESUMED is sent. -/
def acknowledged (conn : Conn D) : Bool :=
  match conn.phase with
  | .subscribing _ _ => true
  | .running _ _ => true
  | .sending _ _ _ => true
  | _ => false

/-- The events of the session that the client has got. -/
def received (conn : Conn D) : List (BufferedEvent D) := conn.delivered.filterMap Frame.event?

/-- The events on their way to the client: in the channel to the writer, in the hands of
the connection, and waiting at its loop. -/
def onTheWay (mayRead : Question → Bool) (claims : Claims) (conn : Conn D) : List (Item D) :=
  (conn.out.filterMap Frame.event?).map BufferedEvent.item ++
    conn.carried.map BufferedEvent.item ++ conn.pending mayRead claims

/-- The events that a connection has sent or works on. -/
def whole (mayRead : Question → Bool) (claims : Claims) (conn : Conn D) : List (Item D) :=
  conn.sent.map BufferedEvent.item ++ conn.carried.map BufferedEvent.item ++
    conn.pending mayRead claims

theorem received_append_onTheWay (mayRead : Question → Bool) (claims : Claims) (conn : Conn D) :
    conn.received.map BufferedEvent.item ++ conn.onTheWay mayRead claims = conn.whole mayRead claims := by
  simp only [received, onTheWay, whole, sent, List.filterMap_append, List.map_append,
    List.append_assoc]

theorem received_prefix_sent (conn : Conn D) :
    conn.received.map BufferedEvent.item <+: conn.sent.map BufferedEvent.item := by
  rw [sent, List.filterMap_append, List.map_append]
  exact List.prefix_append _ _

theorem live?_of_acknowledged {conn : Conn D} {sid : SessionId} (h : conn.acknowledged = true)
    (hon : conn.on? = some sid) : conn.live? = some sid := by
  unfold acknowledged at h
  unfold on? at hon
  unfold live?
  split at h <;> rename_i hp <;> first | (rw [hp] at hon ⊢; exact hon) | cases h

theorem on?_of_live? {conn : Conn D} {sid : SessionId} (h : conn.live? = some sid) :
    conn.on? = some sid := by
  unfold live? at h
  split at h <;> cases h
  all_goals
    rename_i hp
    rw [on?, hp]

/-- The session and the number of a RESUME whose replay a step takes. -/
def replays? (conn : Conn D) : Gateway.Act D → Option (SessionId × ℕ)
  | .advance _ =>
    match conn.phase with
    | .found sid seq => some (sid, seq)
    | _ => none
  | _ => none

end Conn

namespace Gateway

variable {D : Type} {cfg : Config D} {mayRead : Question → Bool} {w w' : Gateway D} {a : Act D}
  {c : ConnId} {conn conn' : Conn D} {sid : SessionId} {s s' : SessionInner D} {seq : ℕ}

/-! ### The condition -/

/-- The message that a step publishes. -/
def Act.message? : Act D → Option (NatsMsg D)
  | .publish m => some m
  | _ => none

/-- The place after the event of a session with a number; number 0 stands for the
creation of the session. -/
def since (w : Gateway D) (sid : SessionId) : ℕ → ℕ
  | 0 => w.opened sid
  | n + 1 => (((w.dispatched sid)[n]?).map fun e => e.origin + 1).getD (w.opened sid)

/-- A RESUME finds what it asks for: its number is one that the session has given, and all
that the user may read and was published since has been dispatched. -/
def Dispatched (mayRead : Question → Bool) (w : Gateway D) (sid : SessionId) (seq : ℕ)
    (s : SessionInner D) : Prop :=
  seq ≤ s.lastSeq ∧ ∀ q ∈ due mayRead w s.claims (since w sid seq), ∃ e ∈ w.dispatched sid,
    e.origin = q.1

/-- A message comes through to a connection: if the user may read it, then the connection
is in its loop, and the table of the gateway knows the message. -/
def ComesThrough (mayRead : Question → Bool) (w : Gateway D) (m : NatsMsg D) (conn : Conn D) :
    Prop :=
  ∀ sid ∈ conn.live?, ∀ s ∈ w.sessions sid,
    readable mayRead s.claims w.published.length m = true →
      conn.loop? = some sid ∧ (route m.subject).isSome = true

instance (w : Gateway D) (sid : SessionId) (seq : ℕ) (s : SessionInner D) :
    Decidable (Dispatched mayRead w sid seq s) :=
  inferInstanceAs (Decidable (seq ≤ s.lastSeq ∧ ∀ q ∈ due mayRead w s.claims (since w sid seq),
    ∃ e ∈ w.dispatched sid, e.origin = q.1))

instance (w : Gateway D) (m : NatsMsg D) (conn : Conn D) :
    Decidable (ComesThrough mayRead w m conn) :=
  inferInstanceAs (Decidable (∀ sid ∈ conn.live?, ∀ s ∈ w.sessions sid,
    readable mayRead s.claims w.published.length m = true →
      conn.loop? = some sid ∧ (route m.subject).isSome = true))

/-- **No event is lost in a step**: the loop that numbers an event knows the last number of
its session, a RESUME whose replay is taken finds what it asks for, a message that is
published comes through to the resumed connections, and the filters are right. -/
def Gapless (mayRead : Question → Bool) (w : Gateway D) (a : Act D) : Prop :=
  InTurn w a ∧ Filtered mayRead w a ∧
  (∀ e ∈ w.conns.pairs, a.conn? = some e.1 → ∀ p ∈ e.2.replays? a, ∀ s ∈ w.sessions p.1,
    (s.replayFrom p.2).isSome = true → Dispatched mayRead w p.1 p.2 s) ∧
  ∀ m ∈ a.message?, ∀ e ∈ w.conns.pairs, e.2.resumedFrom.isSome = true → ComesThrough mayRead w m e.2

instance (w : Gateway D) (a : Act D) : Decidable (Gapless mayRead w a) :=
  inferInstanceAs (Decidable (InTurn w a ∧ Filtered mayRead w a ∧
    (∀ e ∈ w.conns.pairs, a.conn? = some e.1 → ∀ p ∈ e.2.replays? a, ∀ s ∈ w.sessions p.1,
      (s.replayFrom p.2).isSome = true → Dispatched mayRead w p.1 p.2 s) ∧
    ∀ m ∈ a.message?, ∀ e ∈ w.conns.pairs, e.2.resumedFrom.isSome = true →
      ComesThrough mayRead w m e.2))

/-! ### Following a session -/

/-- What a connection that resumed from `seq` has sent is what was published since, as far
as it goes; and while it serves the session, what it works on is the rest. -/
structure Follows (mayRead : Question → Bool) (w : Gateway D) (conn : Conn D) (sid : SessionId)
    (s : SessionInner D) (seq : ℕ) : Prop where
  known : seq ≤ (w.dispatched sid).length
  sent : conn.sent.map BufferedEvent.item <+: due mayRead w s.claims (since w sid seq)
  whole : conn.live? = some sid → conn.whole mayRead s.claims = due mayRead w s.claims (since w sid seq)

theorem since_eq (hopened : w'.opened sid = w.opened sid)
    (hlog : w.dispatched sid <+: w'.dispatched sid) (hseq : seq ≤ (w.dispatched sid).length) :
    since w' sid seq = since w sid seq := by
  cases seq with
  | zero => exact hopened
  | succ n =>
    obtain ⟨t, ht⟩ := hlog
    rw [since, since, ← ht, List.getElem?_append_left (by omega), hopened]

/-- A step that publishes nothing changes nothing for the other connections. -/
theorem Follows.grow (h : Follows mayRead w conn sid s seq) (hpublished : w'.published = w.published)
    (hclaims : s'.claims = s.claims) (hopened : w'.opened sid = w.opened sid)
    (hlog : w.dispatched sid <+: w'.dispatched sid) : Follows mayRead w' conn sid s' seq := by
  have hdue : due mayRead w' s'.claims (since w' sid seq) = due mayRead w s.claims (since w sid seq) := by
    rw [since_eq hopened hlog h.known, due, due, hpublished, hclaims]
  refine ⟨Nat.le_trans h.known hlog.length_le, ?_, fun hlive => ?_⟩
  · rw [hdue]
    exact h.sent
  · rw [hdue, hclaims]
    exact h.whole hlive

theorem Kind.grows (hk : Kind cfg w a w') (hs : w.sessions sid = some s) :
    (∃ m, a = .publish m ∧ w' = w.publish m) ∨ w'.published = w.published ∧
      w'.opened sid = w.opened sid ∧ w.dispatched sid <+: w'.dispatched sid := by
  cases hk with
  | @publishes m => exact .inl ⟨m, rfl, rfl⟩
  | @identifies c conn token sid' claims hc hp hnone =>
    have hne : sid ≠ sid' := by
      rintro rfl
      rw [hnone] at hs
      cases hs
    exact .inr ⟨rfl, Function.update_of_ne hne _ _, List.prefix_rfl⟩
  | @dispatches c conn sid' seq origin e rest hc hp hq =>
    refine .inr ⟨rfl, rfl, ?_⟩
    by_cases heq : sid = sid'
    · rw [dispatched_setConn, heq, dispatched_buffer_self]
      exact List.prefix_append _ _
    · simp only [dispatched_setConn, dispatched_buffer_of_ne heq, List.prefix_rfl]
  | _ => exact .inr ⟨rfl, rfl, List.prefix_rfl⟩

/-- A connection goes on: it stops serving, or it loses nothing of what it has sent or
works on. -/
structure Continues (mayRead : Question → Bool) (w : Gateway D) (conn conn' : Conn D) : Prop where
  session : conn'.session = conn.session
  resumedFrom : conn'.resumedFrom = conn.resumedFrom
  sent : conn'.sent = conn.sent ∨ ∃ sid, conn'.live? = some sid
  live : conn'.live? = none ∨ conn'.live? = conn.live? ∧ ∀ sid s, conn.live? = some sid →
    w.sessions sid = some s → conn'.whole mayRead s.claims = conn.whole mayRead s.claims

theorem Follows.continues (h : Follows mayRead w conn sid s seq) (hc : Continues mayRead w conn conn')
    (hs : w.sessions sid = some s) (hon : ∀ sid', conn.live? = some sid' → sid' = sid) :
    Follows mayRead w conn' sid s seq := by
  have hwhole (hlive' : conn'.live? = some sid) :
      conn'.whole mayRead s.claims = due mayRead w s.claims (since w sid seq) := by
    obtain hno | ⟨hlive, hsame⟩ := hc.live
    · rw [hno] at hlive'
      cases hlive'
    · have hlive₀ : conn.live? = some sid := hlive ▸ hlive'
      rw [hsame sid s hlive₀ hs]
      exact h.whole hlive₀
  refine ⟨h.known, ?_, hwhole⟩
  obtain hsent | ⟨sid', hlive'⟩ := hc.sent
  · rw [hsent]
    exact h.sent
  · obtain hno | ⟨hlive, -⟩ := hc.live
    · rw [hno] at hlive'
      cases hlive'
    · obtain rfl := hon sid' (hlive ▸ hlive')
      rw [← hwhole hlive', Conn.whole, List.append_assoc]
      exact List.prefix_append _ _

/-- A connection that stops serving, and sends nothing of the session. -/
theorem Continues.stops (hsession : conn'.session = conn.session)
    (hresumed : conn'.resumedFrom = conn.resumedFrom) (hsent : conn'.sent = conn.sent)
    (hlive : conn'.live? = none) : Continues mayRead w conn conn' :=
  ⟨hsession, hresumed, .inl hsent, .inl hlive⟩

/-- A connection that hands an event it held to the writer. -/
theorem Continues.sends {e : BufferedEvent D} {phase : Phase D} (hsome : ∃ sid, conn.live? = some sid)
    (hlive : Conn.live? { conn with phase := phase } = conn.live?)
    (hcarried : conn.carried = e :: Conn.carried { conn with phase := phase }) :
    Continues mayRead w conn { conn with out := conn.out ++ [.event e], phase := phase } := by
  refine ⟨rfl, rfl, .inr (hlive ▸ hsome), .inr ⟨hlive, fun sid s _ _ => ?_⟩⟩
  rw [Conn.whole, Conn.sent_append, Conn.whole, hcarried, List.map_append, List.append_assoc,
    List.append_assoc, List.append_assoc]
  rfl

/-- A connection that sends a frame of the handshake. -/
theorem Continues.control {frame : GatewayEvent D} {phase : Phase D}
    (hlive : Conn.live? { conn with phase := phase } = none ∨
      Conn.live? { conn with phase := phase } = conn.live?)
    (hcarried : Conn.carried { conn with phase := phase } = conn.carried) :
    Continues mayRead w conn { conn with out := conn.out ++ [.control frame], phase := phase } := by
  have hsent : Conn.sent { conn with out := conn.out ++ [.control frame], phase := phase } =
      conn.sent := by
    rw [Conn.sent_append]
    exact List.append_nil _
  refine ⟨rfl, rfl, .inl hsent, hlive.imp_right fun hlive => ⟨hlive, fun sid s _ _ => ?_⟩⟩
  rw [Conn.whole, hsent, Conn.whole, ← hcarried]
  rfl

/-- A connection that only changes its place. -/
theorem Continues.phase {phase : Phase D}
    (hlive : Conn.live? { conn with phase := phase } = conn.live?)
    (hcarried : Conn.carried { conn with phase := phase } = conn.carried) :
    Continues mayRead w conn { conn with phase := phase } := by
  refine ⟨rfl, rfl, .inl rfl, .inr ⟨hlive, fun sid s _ _ => ?_⟩⟩
  rw [Conn.whole, Conn.whole, ← hcarried]
  rfl

/-- A connection that only changes what waits at its loop, or its writer. -/
theorem Continues.pending (hsession : conn'.session = conn.session)
    (hresumed : conn'.resumedFrom = conn.resumedFrom) (hphase : conn'.phase = conn.phase)
    (hsent : conn'.sent = conn.sent)
    (hpending : ∀ sid s, conn.live? = some sid → w.sessions sid = some s →
      conn'.pending mayRead s.claims = conn.pending mayRead s.claims) : Continues mayRead w conn conn' := by
  refine ⟨hsession, hresumed, .inl hsent, .inr ⟨by rw [Conn.live?, Conn.live?, hphase], ?_⟩⟩
  intro sid s hlive hs
  rw [Conn.whole, Conn.whole, hsent, hpending sid s hlive hs, Conn.carried, Conn.carried, hphase]

theorem live?_of_loop? (h : conn.loop? = some sid) : conn.live? = some sid := by
  unfold Conn.loop? at h
  split at h
  · rename_i hp
    rw [Conn.live?, hp]
    exact h
  · rename_i hp
    rw [Conn.live?, hp]
    exact h
  · cases h

/-- A move other than taking a replay, with a filter that is right. -/
theorem Move.continues (hm : Move cfg w conn a conn') :
    (∃ sid seq s replay, a.conn? ≠ none ∧ conn.phase = .found sid seq ∧ w.sessions sid = some s ∧
      s.replayFrom seq = some replay ∧ conn.replays? a = some (sid, seq) ∧
      conn' = { conn with
        phase := .replayed sid replay, session := some sid, resumedFrom := some seq }) ∨
    conn'.resumedFrom = conn.resumedFrom ∧
      ((∀ allowed ∈ a.answer?, ∀ q ∈ w.asks? conn, allowed = true ↔ mayRead q = true) →
        Continues mayRead w conn conn') := by
  cases hm with
  | writes hout hw =>
    exact .inr ⟨rfl, fun _ => .pending rfl rfl rfl (Conn.sent_write hout) fun _ _ _ _ => rfl⟩
  | writerFails => exact .inr ⟨rfl, fun _ => .pending rfl rfl rfl rfl fun _ _ _ _ => rfl⟩
  | greets hp =>
    exact .inr ⟨rfl, fun _ => .control (.inl rfl) (by rw [Conn.carried, Conn.carried, hp])⟩
  | finds hp => exact .inr ⟨rfl, fun _ => .stops rfl rfl rfl rfl⟩
  | rejected hp => exact .inr ⟨rfl, fun _ => .stops rfl rfl rfl rfl⟩
  | ends hp hout =>
    refine .inr ⟨rfl, fun _ => ?_⟩
    obtain rfl | ⟨frame, rfl⟩ := hout
    · exact .stops rfl rfl rfl rfl
    · refine .control (.inl rfl) ?_
      obtain hp | hp := hp <;> rw [Conn.carried, Conn.carried, hp]
  | @takesReplay c sid seq s replay hp hs hr =>
    exact .inl ⟨sid, seq, s, replay, by simp [Act.conn?], hp, hs, hr, by rw [Conn.replays?, hp], rfl⟩
  | counts hp =>
    exact .inr ⟨rfl, fun _ => .phase (by rw [Conn.live?, Conn.live?, hp])
      (by rw [Conn.carried, Conn.carried, hp])⟩
  | ready hp =>
    exact .inr ⟨rfl, fun _ => .control (.inr (by rw [Conn.live?, Conn.live?, hp]))
      (by rw [Conn.carried, Conn.carried, hp])⟩
  | replays hp =>
    exact .inr ⟨rfl, fun _ => .sends ⟨_, by rw [Conn.live?, hp]⟩
      (by rw [Conn.live?, Conn.live?, hp]) (by rw [Conn.carried, Conn.carried, hp])⟩
  | resumed hp =>
    exact .inr ⟨rfl, fun _ => .control (.inr (by rw [Conn.live?, Conn.live?, hp]))
      (by rw [Conn.carried, Conn.carried, hp])⟩
  | fails => exact .inr ⟨rfl, fun _ => .stops rfl rfl rfl rfl⟩
  | subscribes hp =>
    exact .inr ⟨rfl, fun _ => .phase (by rw [Conn.live?, Conn.live?, hp])
      (by rw [Conn.carried, Conn.carried, hp])⟩
  | refused => exact .inr ⟨rfl, fun _ => .stops rfl rfl rfl rfl⟩
  | @filters c allowed sid s origin m rest hloop hs hin hnone =>
    refine .inr ⟨rfl, fun hright => .pending rfl rfl rfl rfl fun sid' s' hlive hs' => ?_⟩
    obtain rfl := Option.some.inj ((live?_of_loop? hloop).symm.trans hlive)
    obtain rfl := Option.some.inj (hs.symm.trans hs')
    exact pending_of_filters hloop hs hin hnone fun q hq => (hright allowed rfl q hq).mpr
  | @forwards c allowed sid s origin m rest e hloop hs hin hsome =>
    refine .inr ⟨rfl, fun hright => .pending rfl rfl rfl rfl fun sid' s' hlive hs' => ?_⟩
    obtain rfl := Option.some.inj ((live?_of_loop? hloop).symm.trans hlive)
    obtain rfl := Option.some.inj (hs.symm.trans hs')
    exact pending_of_forwards hloop hs hin hsome fun q hq =>
      (hright allowed rfl q hq).mp (eq_true_of_eventOf hsome).1
  | sends hp =>
    exact .inr ⟨rfl, fun _ => .sends ⟨_, by rw [Conn.live?, hp]⟩
      (by rw [Conn.live?, Conn.live?, hp]) (by rw [Conn.carried, Conn.carried, hp])⟩
  | leaves hloop => exact .inr ⟨rfl, fun _ => .stops rfl rfl rfl rfl⟩

/-! ### Taking a replay -/

/-- The event with the number `seq + 1` and those after it are the events from a place on. -/
theorem since_le_iff (hplaces : (w.dispatched sid).Pairwise fun e e' => e.origin < e'.origin)
    (hopened : ∀ e ∈ w.dispatched sid, w.opened sid ≤ e.origin) {i : ℕ}
    (hseq : seq ≤ (w.dispatched sid).length) (hi : i < (w.dispatched sid).length) :
    since w sid seq ≤ (w.dispatched sid)[i].origin ↔ seq ≤ i := by
  cases seq with
  | zero => exact iff_of_true (hopened _ (List.getElem_mem hi)) (Nat.zero_le i)
  | succ n =>
    have hn : n < (w.dispatched sid).length := hseq
    rw [since, List.getElem?_eq_getElem hn, Option.map_some, Option.getD_some]
    rw [List.pairwise_iff_getElem] at hplaces
    constructor
    · intro hlt
      by_contra hle
      obtain heq | hbefore : i = n ∨ i < n := by omega
      · subst heq
        omega
      · have := hplaces i n hi hn hbefore
        omega
    · exact fun hlt => hplaces n i hn hi hlt

/-- **A replay that finds what it asks for is all that was published since.** -/
theorem Tidy.replay (h : Tidy mayRead w) (hl : Logged w) (hs : w.sessions sid = some s)
    (hd : Dispatched mayRead w sid seq s) :
    ((w.dispatched sid).drop seq).map BufferedEvent.item =
      due mayRead w s.claims (since w sid seq) := by
  have hlen : seq ≤ (w.dispatched sid).length := (hl.window sid s hs).lastSeq ▸ hd.1
  have hopened : ∀ e ∈ w.dispatched sid, w.opened sid ≤ e.origin := fun e he =>
    (mem_dueOf.mp (h.isDue sid s hs e he)).1
  have hiff {i : ℕ} (hi : i < (w.dispatched sid).length) :=
    since_le_iff (h.places sid) hopened hlen hi
  refine eq_of_places ?_ (pairwise_dueOf _ _) fun p => ⟨fun hp => ?_, fun hp => ?_⟩
  · exact List.pairwise_map.mpr ((h.places sid).sublist (List.drop_sublist _ _))
  · obtain ⟨e, he, rfl⟩ := List.mem_map.mp hp
    obtain ⟨j, hj, rfl⟩ := List.getElem_of_mem he
    rw [List.length_drop] at hj
    have hi : seq + j < (w.dispatched sid).length := by omega
    rw [List.getElem_drop]
    exact mem_dueOf_of_le (h.isDue sid s hs _ (List.getElem_mem hi))
      ((hiff hi).mpr (Nat.le_add_right seq j))
  · obtain ⟨e, he, horigin⟩ := hd.2 p hp
    obtain ⟨i, hi, rfl⟩ := List.getElem_of_mem he
    have hle : seq ≤ i := (hiff hi).mp (horigin ▸ (mem_dueOf.mp hp).1)
    -- the event and what is due are both what the filter makes of the message at the place
    have hitem : (w.dispatched sid)[i].item = p := by
      obtain ⟨-, m, hm, -, hfilter⟩ := mem_dueOf.mp hp
      obtain ⟨-, m', hm', -, hfilter'⟩ := mem_dueOf.mp (h.isDue sid s hs _ he)
      obtain rfl : m = m' := by
        rw [← horigin] at hm
        exact Option.some.inj (hm.symm.trans hm')
      exact Prod.ext horigin (hfilter'.symm.trans hfilter)
    rw [← hitem]
    refine List.mem_map_of_mem (List.mem_iff_getElem.mpr ⟨i - seq, ?_, ?_⟩)
    · rw [List.length_drop]
      omega
    · rw [List.getElem_drop]
      congr 1
      omega

/-- A connection that takes its replay follows its session. -/
theorem Tidy.follows_replay (h : Tidy mayRead w) (hl : Logged w) (hs : w.sessions sid = some s)
    (hd : Dispatched mayRead w sid seq s) {replay : List (BufferedEvent D)}
    (hreplay : s.replayFrom seq = some replay) (hsent : conn.sent = [])
    (hcarried : conn.carried = replay) (hpending : conn.pending mayRead s.claims = []) :
    Follows mayRead w conn sid s seq := by
  have hwindow := hl.window sid s hs
  refine ⟨hwindow.lastSeq ▸ hd.1, ?_, fun _ => ?_⟩
  · rw [hsent]
    exact List.nil_prefix
  · rw [← h.replay hl hs hd, ← hwindow.replayFrom hreplay, Conn.whole, hsent, hcarried, hpending]
    exact List.append_nil _

/-! ### Publishing -/

theorem eventOf_isSome {claims : Claims} {place : ℕ} {m : NatsMsg D}
    (hr : readable mayRead claims place m = true) (hroute : (route m.subject).isSome = true) :
    ∃ e, eventOf (permitted mayRead claims place m) m = some e ∧ eventOf true m = some e := by
  obtain ⟨⟨t, channelId⟩, ht⟩ := Option.isSome_iff_exists.mp hroute
  rw [(Bool.and_eq_true_iff.mp hr).2]
  exact ⟨_, and_self_iff.mpr (by rw [eventOf, ht]; exact if_pos rfl)⟩

theorem sent_receive (w : Gateway D) (m : NatsMsg D) (conn : Conn D) :
    (w.receive m conn).sent = conn.sent ∧ (w.receive m conn).carried = conn.carried ∧
      (w.receive m conn).live? = conn.live? := by
  unfold receive
  split <;> exact ⟨rfl, rfl, rfl⟩

theorem since_le (h : Tidy mayRead w) (hs : w.sessions sid = some s)
    (hseq : seq ≤ (w.dispatched sid).length) : since w sid seq ≤ w.published.length := by
  cases seq with
  | zero => exact h.opened sid
  | succ n =>
    have hn : n < (w.dispatched sid).length := hseq
    rw [since, List.getElem?_eq_getElem hn, Option.map_some, Option.getD_some]
    exact lt_of_mem_due (h.isDue sid s hs _ (List.getElem_mem hn))

/-- A message that is published and comes through reaches the connection. -/
theorem Follows.publish (h : Follows mayRead w conn sid s seq) (ht : Tidy mayRead w)
    (hs : w.sessions sid = some s) {m : NatsMsg D} (hm : ComesThrough mayRead w m conn) :
    Follows mayRead (w.publish m) (w.receive m conn) sid s seq := by
  obtain ⟨hsent, hcarried, hlive⟩ := sent_receive w m conn
  have hdue : due mayRead (w.publish m) s.claims (since (w.publish m) sid seq) =
      due mayRead w s.claims (since w sid seq) ++
        if readable mayRead s.claims w.published.length m then
          [(w.published.length, eventOf true m)] else [] := by
    have hsince : since (w.publish m) sid seq = since w sid seq := by
      cases seq <;> rfl
    rw [hsince]
    exact dueOf_append m (since_le ht hs h.known)
  refine ⟨h.known, ?_, fun hlive' => ?_⟩
  · rw [hdue, hsent]
    exact h.sent.trans (List.prefix_append _ _)
  · rw [hlive] at hlive'
    rw [hdue, ← h.whole hlive', Conn.whole, hsent, hcarried, Conn.whole]
    by_cases hr : readable mayRead s.claims w.published.length m = true
    · obtain ⟨hloop, hroute⟩ := hm sid hlive' s hs hr
      obtain ⟨e, he, htrue⟩ := eventOf_isSome hr hroute
      have hgets : gets s.natsSubject m = true := by
        rw [ht.subject sid s hs]
        exact (Bool.and_eq_true _ _ ▸ hr).1
      rw [pending_receive m hloop hs, if_pos hgets, if_pos hr, he, htrue, ← List.append_assoc]
      rfl
    · -- the subscription does not get it, or the filter drops it
      have hpending : (w.receive m conn).pending mayRead s.claims = conn.pending mayRead s.claims := by
        cases hloop : conn.loop? with
        | none => rw [receive, hloop]; rfl
        | some sid' =>
          obtain rfl := Option.some.inj (hlive'.symm.trans (live?_of_loop? hloop))
          rw [pending_receive m hloop hs]
          split
          · rename_i hgets
            cases he : eventOf (permitted mayRead s.claims w.published.length m) m with
            | none => exact List.append_nil _
            | some e => exact absurd (readable_of_eventOf (ht.subject sid s hs ▸ hgets) he) hr
          · exact List.append_nil _
      rw [if_neg hr, List.append_nil, hpending]

/-! ### Runs in which no event is lost -/

/-- Every resumed connection follows its session. -/
def Resumed (mayRead : Question → Bool) (w : Gateway D) : Prop :=
  ∀ c conn sid s seq, w.conns.lookup c = some conn → conn.session = some sid →
    conn.resumedFrom = some seq → w.sessions sid = some s → Follows mayRead w conn sid s seq

/-- A connection that serves a session is one of that session. -/
theorem Logged.live (h : Logged w) (hc : w.conns.lookup c = some conn)
    (hsession : conn.session = some sid) (sid' : SessionId) (hlive : conn.live? = some sid') :
    sid' = sid := by
  have hon := Conn.on?_of_live? hlive
  rw [(h.served c conn hc).on fun hp => ?_, hon] at hsession
  · exact Option.some.inj hsession
  · rw [Conn.on?, hp] at hon
    cases hon

/-- What a step that publishes nothing, and is one of a connection, has to keep. -/
theorem Resumed.setConn (h : Resumed mayRead w) (hl : Logged w) (hk : Kind cfg w a w')
    (ha : a.message? = none) (hconns : w'.conns = w.conns.insert c conn')
    (hfollows : ∀ sid s seq, conn'.session = some sid → conn'.resumedFrom = some seq →
      w.sessions sid = some s → Follows mayRead w conn' sid s seq)
    (hknown : ∀ sid, conn'.session = some sid → conn'.resumedFrom ≠ none →
      ∃ s, w.sessions sid = some s) : Resumed mayRead w' := by
  intro c' conn sid s' seq hc hsession hresumed hs'
  have grow {conn : Conn D} {s : SessionInner D} (hs : w.sessions sid = some s)
      (hf : Follows mayRead w conn sid s seq) : Follows mayRead w' conn sid s' seq := by
    obtain ⟨s₀, hs₀, hclaims, -⟩ := hk.session hs
    obtain rfl := Option.some.inj (hs'.symm.trans hs₀)
    obtain ⟨m, rfl, -⟩ | ⟨hpublished, hopened, hlog⟩ := hk.grows hs
    · cases ha
    · exact hf.grow hpublished hclaims hopened hlog
  rw [hconns, Dict.lookup_insert_eq] at hc
  split at hc
  · obtain rfl := Option.some.inj hc
    obtain ⟨s, hs⟩ := hknown sid hsession (by rw [hresumed]; simp)
    exact grow hs (hfollows sid s seq hsession hresumed hs)
  · obtain ⟨s, hs⟩ := hl.known c' conn sid hc hsession
    exact grow hs (h c' conn sid s seq hc hsession hresumed hs)

/-- The case of a connection that goes on. -/
theorem Resumed.continues (h : Resumed mayRead w) (hl : Logged w) (hk : Kind cfg w a w')
    (ha : a.message? = none) (hc : w.conns.lookup c = some conn)
    (hconns : w'.conns = w.conns.insert c conn') (hcont : Continues mayRead w conn conn') :
    Resumed mayRead w' := by
  refine h.setConn hl hk ha hconns (fun sid s seq hsession hresumed hs => ?_) fun sid hsession _ =>
    hl.known c conn sid hc (hcont.session ▸ hsession)
  have hsession' := hcont.session ▸ hsession
  exact (h c conn sid s seq hc hsession' (hcont.resumedFrom ▸ hresumed) hs).continues hcont hs
    (hl.live hc hsession')

/-- **A step in which no event is lost keeps resumed connections following.** -/
theorem Resumed.step (h : Resumed mayRead w) (hl : Logged w) (ht : Tidy mayRead w)
    (hok : Gapless mayRead w a) (hk : Kind cfg w a w') : Resumed mayRead w' := by
  have hk' := hk
  cases hk with
  | stays => exact h
  | connects hc =>
    exact h.setConn hl hk' rfl rfl (fun _ _ _ hsession => (nomatch hsession))
      fun _ hsession => (nomatch hsession)
  | @moves _ c conn conn' hc ha hm =>
    have hmessage : a.message? = none := by
      cases a <;> first | rfl | cases ha
    obtain ⟨sid, seq, s, replay, -, hp, hs, hreplay, hreplays, rfl⟩ | ⟨hsame, hcont⟩ := hm.continues
    · have hno : conn.session = none := by
        rw [(hl.served c conn hc).on (by simp [hp]), Conn.on?, hp]
      have hd : Dispatched mayRead w sid seq s := hok.2.2.1 _ (Dict.mem_pairs.mpr hc) ha (sid, seq)
        hreplays s hs (by rw [hreplay]; rfl)
      refine h.setConn hl hk' hmessage rfl (fun sid' s' seq' hsession hresumed hs' => ?_)
        fun sid' hsession _ => ⟨s, Option.some.inj hsession ▸ hs⟩
      obtain rfl := Option.some.inj hsession
      obtain rfl := Option.some.inj hresumed
      obtain rfl := Option.some.inj (hs.symm.trans hs')
      exact ht.follows_replay hl hs hd hreplay ((hl.served c conn hc).none hno) rfl
        (Conn.pending_eq_nil ((ht.conns c conn hc).idle (by rw [Conn.loop?, hp])))
    · by_cases hresumed : conn.resumedFrom = none
      · -- nothing is asked of a connection that has not resumed
        refine h.setConn hl hk' hmessage rfl (fun _ _ _ _ hsome => ?_) fun _ _ hsome => ?_
        · cases (hsame.trans hresumed).symm.trans hsome
        · exact absurd (hsame.trans hresumed) hsome
      · refine h.continues hl hk' hmessage hc rfl (hcont fun allowed hans q hq => ?_)
        obtain ⟨hallowed, hdenied⟩ := hok.2.1 _ (Dict.mem_pairs.mpr hc) ha allowed hans q hq
        exact ⟨hallowed, hdenied (Option.isSome_iff_ne_none.mpr hresumed)⟩
  | @identifies c conn token sid claims hc hp hnone =>
    have hresumed : conn.resumedFrom = none := (ht.conns c conn hc).unresumed (by
      rw [(hl.served c conn hc).on (by simp [hp]), Conn.on?, hp])
    refine h.setConn hl hk' rfl rfl (fun _ _ _ _ hsome => ?_) fun _ _ hsome => ?_
    · cases hresumed.symm.trans hsome
    · exact absurd hresumed hsome
  | @marksConnected c conn sid replay hc hp =>
    exact h.continues hl hk' rfl hc rfl (.phase (by rw [Conn.live?, Conn.live?, hp])
      (by rw [Conn.carried, Conn.carried, hp]))
  | @marksDisconnected c conn sid hc hp =>
    exact h.continues hl hk' rfl hc rfl (.stops rfl rfl rfl rfl)
  | @dispatches c conn sid seq origin e rest hc hp hq =>
    refine h.continues hl hk' rfl hc rfl
      ⟨rfl, rfl, .inl rfl, .inr ⟨by rw [Conn.live?, Conn.live?, hp], fun sid' s _ _ => ?_⟩⟩
    have hcarried : conn.carried = [] := by rw [Conn.carried, hp]
    rw [Conn.whole, Conn.whole, hcarried, List.map_nil, List.append_nil, List.append_assoc,
      pending_dispatch mayRead s.claims hq (seq + 1)
        (.sending sid (seq + 1) (numberedEvent (seq + 1) origin e))]
    rfl
  | @publishes m =>
    intro c conn' sid s seq hc hsession hresumed hs
    rw [publish, Dict.lookup_mapVals, Option.map_eq_some_iff] at hc
    obtain ⟨conn, hc, rfl⟩ := hc
    rw [receive_session] at hsession
    rw [receive_resumedFrom] at hresumed
    exact (h c conn sid s seq hc hsession hresumed hs).publish ht hs
      (hok.2.2.2 m rfl _ (Dict.mem_pairs.mpr hc) (by rw [hresumed]; rfl))
  | elapses => 
    intro c conn sid s seq hc hsession hresumed hs
    exact (h c conn sid s seq hc hsession hresumed hs).grow rfl rfl rfl List.prefix_rfl
  | reaps =>
    intro c conn sid s seq hc hsession hresumed hs
    exact (h c conn sid s seq hc hsession hresumed hs).grow rfl rfl rfl List.prefix_rfl

/-- The three invariants of the runs in which no event is lost. -/
theorem resumed_of_reach (h : (system cfg).Reach (Gapless mayRead) w) :
    Logged w ∧ Tidy mayRead w ∧ Resumed mayRead w := by
  refine h.invariant (I := fun w => Logged w ∧ Tidy mayRead w ∧ Resumed mayRead w) (fun s hs => ?_)
    fun s a t ⟨hl, ht, hr⟩ hok hst => ?_
  · rw [show s = .new from hs]
    exact ⟨logged_new, tidy_new, fun _ _ _ _ _ hc => (nomatch hc)⟩
  · have hk := kind_of_step hst
    exact ⟨hl.step hok.1 hk, ht.step hl hok.1 hok.2.1 hk, hr.step hl ht hok hk⟩

/-- Replay is complete: what a resumed client has got of its session is what was published
since the event it named on the channels it may read, as far as it goes, and from
RESUMED until its connection ends, what is on its way to it is the rest. -/
structure ReplayComplete (mayRead : Question → Bool) (w : Gateway D) : Prop where
  inOrder : ∀ c conn sid s seq, w.conns.lookup c = some conn → conn.session = some sid →
    conn.resumedFrom = some seq → w.sessions sid = some s →
    conn.received.map BufferedEvent.item <+: due mayRead w s.claims (since w sid seq)
  complete : ∀ c conn sid s seq, w.conns.lookup c = some conn → conn.session = some sid →
    conn.resumedFrom = some seq → w.sessions sid = some s → conn.acknowledged = true →
    conn.received.map BufferedEvent.item ++ conn.onTheWay mayRead s.claims =
      due mayRead w s.claims (since w sid seq)

/-- **Replay is complete**, in every state of the runs in which no event is lost. -/
theorem replay_complete (h : (system cfg).Reach (Gapless mayRead) w) :
    ReplayComplete mayRead w := by
  obtain ⟨hl, -, hr⟩ := resumed_of_reach h
  refine ⟨fun c conn sid s seq hc hsession hresumed hs => ?_,
    fun c conn sid s seq hc hsession hresumed hs hack => ?_⟩
  · exact conn.received_prefix_sent.trans (hr c conn sid s seq hc hsession hresumed hs).sent
  · rw [Conn.received_append_onTheWay]
    refine (hr c conn sid s seq hc hsession hresumed hs).whole (Conn.live?_of_acknowledged hack ?_)
    rw [← (hl.served c conn hc).on fun hp => ?_, hsession]
    rw [Conn.acknowledged, hp] at hack
    cases hack

/-- A client gets an event, loses its connection, resumes, and gets another one. -/
theorem replay_complete_reconnect : ReplayComplete (fun _ => true) (after (identifies 0 "s" ++
    [.subscribe 0 true, .publish (messageOn2 5)] ++ serves 0 ++ [.close 0, .advance 0] ++
    resumes 1 "s" 0 1 ++ [.subscribe 1 true, .publish (messageOn2 6)] ++ serves 1)) :=
  replay_complete (System.Reach.foldl (M := system openGateway) Step.next (.start rfl) (by decide))

/-- A client is away while a message is published, and resumes. -/
def awayRun : List (Act ℕ) :=
  identifies 0 "s" ++ [.subscribe 0 true, .close 0, .advance 0, .publish (messageOn2 5)] ++
    resumes 1 "s" 0 0 ++ [.subscribe 1 true, .write 1, .write 1]

/-- **An event published while a client is away is lost**: the connection of the client
closes, a message is published, the client resumes, and it gets RESUMED and nothing else,
with nothing on the way. -/
theorem replay_gap : ∃ w, (system openGateway).Reachable w ∧ ¬ ReplayComplete (fun _ => true) w ∧
    ∃ conn ∈ w.conns.lookup 1, ∃ s ∈ w.sessions "s", conn.session = some "s" ∧
      conn.resumedFrom = some 0 ∧ conn.acknowledged = true ∧
      conn.delivered = [.control (helloFrame openGateway), .control (resumedFrame openGateway)] ∧
      conn.onTheWay (fun _ => true) s.claims = [] ∧
      (due (fun _ => true) w s.claims (since w "s" 0)).map Prod.fst = [0] := by
  have hrun : ∃ conn ∈ (after awayRun).conns.lookup 1,
      ∃ s ∈ (after awayRun).sessions "s", conn.session = some "s" ∧
      conn.resumedFrom = some 0 ∧ conn.acknowledged = true ∧
      conn.delivered = [.control (helloFrame openGateway), .control (resumedFrame openGateway)] ∧
      conn.onTheWay (fun _ => true) s.claims = [] ∧
      (due (fun _ => true) (after awayRun) s.claims (since (after awayRun) "s" 0)).map Prod.fst = [0] := by
    decide
  refine ⟨_, reachable_after _, fun h => ?_, hrun⟩
  obtain ⟨conn, hc, s, hs, hsession, hresumed, hack, hdelivered, hway, hdue⟩ := hrun
  have hall := h.complete 1 conn "s" s 0 hc hsession hresumed hs hack
  rw [hway, Conn.received, hdelivered] at hall
  rw [← hall] at hdue
  cases hdue

end Gateway

end Chat

end MateHub
