import MateHub.Chat.Steps

/-!
# The numbers of a session

The events of a session are numbered 1, 2, 3, …, and its buffer is a window on them,
as long as whoever numbers the next event knows the number of the last. The loop of a
connection keeps the number in a variable of its own, which it sets once, to the last
number of the session: a second connection of the session that numbers events makes the
first one's variable stale. `MateHub.Chat.Gateway.InTurn` says of a step that the
variable is not stale where it is used.

In the runs of steps in turn, what a session has dispatched is numbered
(`MateHub.Chat.Gateway.Logged`), and all that its connections send comes from there; so
the buffer is in order, and no two events are sent under one number
(`MateHub.Chat.Gateway.oneSequence`).
-/

namespace MateHub

namespace Chat

/-! ### What a connection sends -/

/-- The event of the session that a frame is. -/
def Frame.event? {D : Type} : Frame D → Option (BufferedEvent D)
  | .control _ => none
  | .event e => some e

namespace Conn

variable {D : Type}

/-- The events of the session sent to the client. -/
def sent (conn : Conn D) : List (BufferedEvent D) :=
  (conn.delivered ++ conn.out).filterMap Frame.event?

/-- The events that the connection holds, to send them next. -/
def carried (conn : Conn D) : List (BufferedEvent D) :=
  match conn.phase with
  | .replayed _ replay => replay
  | .connected _ replay => replay
  | .replaying _ replay _ => replay
  | .sending _ _ e => [e]
  | _ => []

/-- The session that a connection is on. -/
def on? (conn : Conn D) : Option SessionId :=
  match conn.phase with
  | .ready sid => some sid
  | .replayed sid _ => some sid
  | .connected sid _ => some sid
  | .replaying sid _ _ => some sid
  | .subscribing sid _ => some sid
  | .running sid _ => some sid
  | .sending sid _ _ => some sid
  | .leaving sid => some sid
  | _ => none

/-- The session and the number that a step of the connection counts on from. -/
def counter? (conn : Conn D) : Gateway.Act D → Option (SessionId × ℕ)
  | .dispatch _ =>
    match conn.phase, conn.dispatchQueue with
    | .running sid seq, _ :: _ => some (sid, seq)
    | _, _ => none
  | _ => none

theorem sent_append (conn : Conn D) (frame : Frame D) (phase : Phase D) :
    Conn.sent { conn with out := conn.out ++ [frame], phase := phase } =
      conn.sent ++ frame.event?.toList := by
  rw [sent, sent, ← List.append_assoc, List.filterMap_append]
  cases frame <;> rfl

/-- Writing a frame changes nothing of what is sent. -/
theorem sent_write {conn : Conn D} {frame : Frame D} {rest : List (Frame D)}
    (h : conn.out = frame :: rest) :
    Conn.sent { conn with out := rest, delivered := conn.delivered ++ [frame] } = conn.sent := by
  rw [sent, sent, h, List.append_assoc, List.singleton_append]

/-- What a connection has sent and holds comes from what its session has dispatched. -/
structure Served (conn : Conn D) (dispatched : SessionId → List (BufferedEvent D)) : Prop where
  on : conn.phase ≠ .done → conn.session = conn.on?
  none : conn.session = none → conn.sent = []
  mem : ∀ sid, conn.session = some sid → ∀ e ∈ conn.sent ++ conn.carried, e ∈ dispatched sid

theorem Served.mono {conn : Conn D} {dispatched dispatched' : SessionId → List (BufferedEvent D)}
    (h : conn.Served dispatched) (hsub : ∀ sid, dispatched sid ⊆ dispatched' sid) :
    conn.Served dispatched' :=
  ⟨h.on, h.none, fun sid hsid e he => hsub sid (h.mem sid hsid e he)⟩

theorem carried_eq_nil {conn : Conn D} (h : conn.on? = none) : conn.carried = [] := by
  unfold on? at h
  unfold carried
  split <;> rename_i hp <;> first | rfl | (rw [hp] at h; cases h)

theorem Served.carried_eq_nil {conn : Conn D} {dispatched : SessionId → List (BufferedEvent D)}
    (h : conn.Served dispatched) (hno : conn.session = Option.none) : conn.carried = [] := by
  by_cases hp : conn.phase = .done
  · rw [carried, hp]
  · exact Conn.carried_eq_nil (by rw [← h.on hp, hno])

/-- A connection that stays on its session and sends only what it held. -/
theorem Served.of_subset {conn conn' : Conn D} {dispatched : SessionId → List (BufferedEvent D)}
    (h : conn.Served dispatched) (hsession : conn'.session = conn.session)
    (hon : conn'.phase = .done ∨ conn.phase ≠ .done ∧ conn'.on? = conn.on? ∨ conn'.phase = conn.phase)
    (hsub : conn'.sent ++ conn'.carried ⊆ conn.sent ++ conn.carried) : conn'.Served dispatched := by
  refine ⟨fun hp => ?_, fun hno => ?_, fun sid hsid e he => h.mem sid (hsession ▸ hsid) e (hsub he)⟩
  · obtain hdone | ⟨hp', hon⟩ | hsame := hon
    · exact absurd hdone hp
    · rw [hsession, hon, h.on hp']
    · rw [hsession, h.on (hsame ▸ hp), on?, on?, hsame]
  · rw [hsession] at hno
    rw [h.none hno, h.carried_eq_nil hno] at hsub
    exact (List.append_eq_nil_iff.mp (List.subset_nil.mp hsub)).1

/-- A connection that sends an event it held. -/
theorem Served.sends {conn : Conn D} {dispatched : SessionId → List (BufferedEvent D)}
    {e : BufferedEvent D} {phase : Phase D} (h : conn.Served dispatched) (hp : conn.phase ≠ .done)
    (hon : Conn.on? { conn with phase := phase } = conn.on?)
    (hcarried : conn.carried = e :: Conn.carried { conn with phase := phase }) :
    Conn.Served { conn with out := conn.out ++ [.event e], phase := phase } dispatched := by
  refine h.of_subset rfl (.inr (.inl ⟨hp, hon⟩)) ?_
  rw [sent_append, hcarried]
  intro e' he'
  rw [List.append_assoc] at he'
  exact he'

/-- A connection that goes on and holds nothing. -/
theorem Served.drops {conn : Conn D} {dispatched : SessionId → List (BufferedEvent D)}
    {phase : Phase D} {inbox : List (ℕ × NatsMsg D)} {queue : List (ℕ × GatewayEvent D)}
    {writer : Bool} (h : conn.Served dispatched)
    (hon : phase = .done ∨ conn.phase ≠ .done ∧ Conn.on? { conn with phase := phase } = conn.on?)
    (hcarried : Conn.carried { conn with phase := phase } = []) :
    Conn.Served
      { conn with phase := phase, inbox := inbox, dispatchQueue := queue, writer := writer }
      dispatched := by
  refine h.of_subset rfl (hon.imp_right .inl) fun e he => ?_
  obtain he | he := List.mem_append.mp he
  · exact List.mem_append_left _ he
  · exact absurd (hcarried ▸ he) List.not_mem_nil

/-- A connection that sends a frame of the handshake, and holds nothing. -/
theorem Served.control {conn : Conn D} {dispatched : SessionId → List (BufferedEvent D)}
    {frame : GatewayEvent D} {phase : Phase D} (h : conn.Served dispatched)
    (hon : phase = .done ∨ conn.phase ≠ .done ∧ Conn.on? { conn with phase := phase } = conn.on?)
    (hcarried : Conn.carried { conn with phase := phase } = []) :
    Conn.Served { conn with out := conn.out ++ [.control frame], phase := phase } dispatched := by
  refine h.of_subset rfl (hon.imp_right .inl) fun e he => ?_
  rw [sent_append] at he
  obtain he | he := List.mem_append.mp he
  · exact List.mem_append_left _ (by simpa [Frame.event?] using he)
  · exact absurd (hcarried ▸ he) List.not_mem_nil

end Conn

namespace Gateway

variable {D : Type} {cfg : Config D} {w w' : Gateway D} {a : Act D} {c : ConnId}
  {conn conn' : Conn D} {sid : SessionId}

/-- The loop of a connection knows the last number of its session where it numbers the
next event. -/
def InTurn (w : Gateway D) (a : Act D) : Prop :=
  ∀ e ∈ w.conns.pairs, a.conn? = some e.1 → ∀ p ∈ e.2.counter? a, ∀ s ∈ w.sessions p.1,
    s.lastSeq = p.2

instance (w : Gateway D) (a : Act D) : Decidable (InTurn w a) :=
  inferInstanceAs (Decidable (∀ e ∈ w.conns.pairs, a.conn? = some e.1 → ∀ p ∈ e.2.counter? a,
    ∀ s ∈ w.sessions p.1, s.lastSeq = p.2))

/-- What the session of a connection has dispatched is all that the connection sends, in
the order of its numbers. -/
structure Logged (w : Gateway D) : Prop where
  window : ∀ sid s, w.sessions sid = some s → s.Window (w.dispatched sid)
  unborn : ∀ sid, w.sessions sid = none → w.dispatched sid = []
  stamped : ∀ sid, ∀ e ∈ w.dispatched sid, e.data.s = some e.seq
  served : ∀ c conn, w.conns.lookup c = some conn → conn.Served w.dispatched
  known : ∀ c conn sid, w.conns.lookup c = some conn → conn.session = some sid →
    ∃ s, w.sessions sid = some s

theorem logged_new : Logged (D := D) .new :=
  ⟨fun _ _ h => (nomatch h), fun _ _ => rfl, fun _ _ h => (nomatch h), fun _ _ h => (nomatch h),
    fun _ _ _ h => (nomatch h)⟩

/-- A move of a connection keeps that it is served from its session. -/
theorem Move.served (hm : Move cfg w conn a conn') (h : conn.Served w.dispatched)
    (hwindow : ∀ sid s, w.sessions sid = some s → s.Window (w.dispatched sid)) :
    conn'.Served w.dispatched := by
  cases hm with
  | writes hout hw =>
    refine h.of_subset rfl (.inr (.inr rfl)) ?_
    rw [Conn.sent_write hout]
    exact fun e he => he
  | writerFails => exact h.of_subset rfl (.inr (.inr rfl)) fun e he => he
  | greets hp =>
    exact h.control (.inr ⟨by simp [hp], by simp [Conn.on?, hp]⟩) rfl
  | finds hp => exact h.drops (.inr ⟨by simp [hp], by simp [Conn.on?, hp]⟩) rfl
  | rejected hp =>
    refine h.drops (.inr ?_) rfl
    obtain hp | ⟨sid, seq, hp⟩ := hp <;> exact ⟨by simp [hp], by simp [Conn.on?, hp]⟩
  | ends hp hout =>
    obtain rfl | ⟨frame, rfl⟩ := hout
    · exact h.drops (.inl rfl) rfl
    · exact h.control (.inl rfl) rfl
  | @takesReplay c sid seq s replay hp hs hr =>
    have hno : conn.session = none := by rw [h.on (by simp [hp]), Conn.on?, hp]
    refine ⟨fun _ => rfl, fun hsome => (nomatch hsome), fun sid' hsid e he => ?_⟩
    obtain rfl : sid = sid' := Option.some.inj hsid
    have hsent : Conn.sent { conn with
        phase := .replayed sid replay, session := some sid, resumedFrom := some seq } = [] :=
      h.none hno
    rw [hsent, List.nil_append] at he
    have hreplay : replay = (w.dispatched sid).drop seq := (hwindow sid s hs).replayFrom hr
    exact List.mem_of_mem_drop (hreplay ▸ he)
  | @counts c sid replay hp =>
    refine h.of_subset rfl (.inr (.inl ⟨by simp [hp], by simp [Conn.on?, hp]⟩)) fun e he => ?_
    rw [show conn.carried = replay by rw [Conn.carried, hp]]
    exact he
  | ready hp => exact h.control (.inr ⟨by simp [hp], by simp [Conn.on?, hp]⟩) rfl
  | replays hp =>
    exact h.sends (by simp [hp]) (by simp [Conn.on?, hp]) (by simp [Conn.carried, hp])
  | resumed hp => exact h.control (.inr ⟨by simp [hp], by simp [Conn.on?, hp]⟩) rfl
  | fails => exact h.drops (.inl rfl) rfl
  | subscribes hp => exact h.drops (.inr ⟨by simp [hp], by simp [Conn.on?, hp]⟩) rfl
  | refused => exact h.drops (.inl rfl) rfl
  | filters => exact h.of_subset rfl (.inr (.inr rfl)) fun e he => he
  | forwards => exact h.of_subset rfl (.inr (.inr rfl)) fun e he => he
  | sends hp => exact h.sends (by simp [hp]) (by simp [Conn.on?, hp]) (by simp [Conn.carried, hp])
  | leaves hloop =>
    refine h.drops (.inr ?_) rfl
    unfold Conn.loop? at hloop
    split at hloop
    · rename_i sid seq hp
      exact ⟨by simp [hp], by simp [Conn.on?, hp, ← hloop]⟩
    · rename_i sid seq e hp
      exact ⟨by simp [hp], by simp [Conn.on?, hp, ← hloop]⟩
    · cases hloop

theorem receive_session (w : Gateway D) (m : NatsMsg D) (conn : Conn D) :
    (w.receive m conn).session = conn.session := by
  unfold receive
  split <;> rfl

theorem served_receive {dispatched : SessionId → List (BufferedEvent D)}
    (h : conn.Served dispatched) (w : Gateway D) (m : NatsMsg D) :
    (w.receive m conn).Served dispatched := by
  unfold receive
  split
  · exact h.of_subset rfl (.inr (.inr rfl)) fun _ he => he
  · exact h

/-- A move keeps the session of the connection, or it resumes one. -/
theorem Move.session (hm : Move cfg w conn a conn') : conn'.session = conn.session ∨
    ∃ sid s, conn'.session = some sid ∧ w.sessions sid = some s := by
  cases hm with
  | takesReplay hp hs hr => exact .inr ⟨_, _, rfl, hs⟩
  | _ => exact .inl rfl

/-- What is to be said of a step that dispatches nothing, and changes one connection. -/
theorem Logged.setConn (h : Logged w)
    (hwindow : ∀ sid s, w'.sessions sid = some s → s.Window (w.dispatched sid))
    (hunborn : ∀ sid, w'.sessions sid = none → w.sessions sid = none)
    (hdispatched : w'.dispatched = w.dispatched) (hconns : w'.conns = w.conns.insert c conn')
    (hserved : conn'.Served w.dispatched)
    (hknown : ∀ sid, conn'.session = some sid → ∃ s, w'.sessions sid = some s) : Logged w' := by
  refine ⟨fun sid s hs => ?_, fun sid hs => ?_, fun sid e he => ?_, fun c' conn hc => ?_,
    fun c' conn sid hc hsid => ?_⟩
  · rw [hdispatched]
    exact hwindow sid s hs
  · rw [hdispatched]
    exact h.unborn sid (hunborn sid hs)
  · exact h.stamped sid e (hdispatched ▸ he)
  · rw [hconns, Dict.lookup_insert_eq] at hc
    rw [hdispatched]
    split at hc
    · exact Option.some.inj hc ▸ hserved
    · exact h.served c' conn hc
  · rw [hconns, Dict.lookup_insert_eq] at hc
    split at hc
    · exact hknown sid (Option.some.inj hc ▸ hsid)
    · obtain ⟨s, hs⟩ := h.known c' conn sid hc hsid
      exact Option.ne_none_iff_exists'.mp fun hno => by
        rw [hunborn sid hno] at hs
        cases hs

/-- The connection whose session is marked. -/
theorem Logged.mark (h : Logged w) (hc : w.conns.lookup c = some conn)
    {f : SessionInner D → SessionInner D} (hseq : ∀ s, (f s).lastSeq = s.lastSeq)
    (hevents : ∀ s, (f s).events = s.events) (hsession : conn'.session = conn.session)
    (hserved : conn'.Served w.dispatched) : Logged ((w.modifySession sid f).setConn c conn') := by
  refine h.setConn (fun sid' s hs => ?_) (fun sid' hs => ?_) rfl rfl hserved fun sid' hsid' => ?_
  · have hs' := (sessions_modifySession w sid sid' f).symm.trans hs
    split at hs'
    · obtain ⟨s₀, hs₀, rfl⟩ := Option.map_eq_some_iff.mp hs'
      exact (h.window sid' s₀ hs₀).congr (hseq s₀) (hevents s₀)
    · exact h.window sid' s hs'
  · have hs' := (sessions_modifySession w sid sid' f).symm.trans hs
    split at hs'
    · exact Option.map_eq_none_iff.mp hs'
    · exact hs'
  · obtain ⟨s, hs⟩ := h.known c conn sid' hc (hsession ▸ hsid')
    rw [sessions_setConn, sessions_modifySession, hs]
    split
    · exact ⟨f s, rfl⟩
    · exact ⟨s, rfl⟩

/-- The log after an event is dispatched. -/
theorem mem_dispatched_buffer (cfg : Config D) {e e' : BufferedEvent D} {sid' : SessionId} :
    e' ∈ (w.buffer cfg sid e).dispatched sid' ↔ e' ∈ w.dispatched sid' ∨ sid' = sid ∧ e' = e := by
  rw [show (w.buffer cfg sid e).dispatched sid' = _ from Function.update_apply _ _ _ _]
  split
  · rename_i heq
    rw [heq, List.mem_append, List.mem_singleton]
    simp
  · simp [*]

/-- Dispatching under the next number keeps the log numbered. -/
theorem Logged.dispatch (h : Logged w) {s : SessionInner D} {e : BufferedEvent D}
    (hsession : conn'.session = some sid) (hs : w.sessions sid = some s)
    (he : e.seq = s.lastSeq + 1) (hstamp : e.data.s = some e.seq)
    (hserved : conn'.Served (w.buffer cfg sid e).dispatched) :
    Logged ((w.buffer cfg sid e).setConn c conn') := by
  refine ⟨fun sid' s' hs' => ?_, fun sid' hs' => ?_, fun sid' e' he' => ?_, fun c' conn hc => ?_,
    fun c' conn sid' hc hsid' => ?_⟩
  · have hlog : (w.buffer cfg sid e).dispatched sid' = _ := Function.update_apply _ _ _ _
    have hs'' := (sessions_modifySession w sid sid' _).symm.trans hs'
    rw [dispatched_setConn, hlog]
    split at hs''
    · rename_i heq
      subst heq
      rw [hs] at hs''
      rw [if_pos rfl, ← Option.some.inj hs'']
      exact (h.window sid' s hs).push cfg.bytes he
    · rename_i hne
      rw [if_neg hne]
      exact h.window sid' s' hs''
  · have hs'' := (sessions_modifySession w sid sid' _).symm.trans hs'
    split at hs''
    · rename_i heq
      rw [heq, hs] at hs''
      cases hs''
    · rename_i hne
      exact (Function.update_of_ne hne _ _).trans (h.unborn sid' hs'')
  · obtain he' | ⟨-, rfl⟩ := (mem_dispatched_buffer cfg).mp he'
    · exact h.stamped sid' e' he'
    · exact hstamp
  · rw [conns_setConn, Dict.lookup_insert_eq] at hc
    split at hc
    · exact Option.some.inj hc ▸ hserved
    · exact (h.served c' conn hc).mono fun _ _ he' => (mem_dispatched_buffer cfg).mpr (.inl he')
  · rw [sessions_setConn, show (w.buffer cfg sid e).sessions sid' = _ from
      sessions_modifySession w sid sid' _]
    rw [conns_setConn, Dict.lookup_insert_eq] at hc
    split at hc
    · obtain rfl : sid = sid' := Option.some.inj (hsession.symm.trans (Option.some.inj hc ▸ hsid'))
      exact ⟨_, by rw [if_pos rfl, hs]; rfl⟩
    · obtain ⟨s', hs'⟩ := h.known c' conn sid' hc hsid'
      rw [hs']
      split
      · exact ⟨_, rfl⟩
      · exact ⟨_, rfl⟩

/-- **A step in turn keeps the log numbered.** -/
theorem Logged.step (h : Logged w) (hok : InTurn w a) (hk : Kind cfg w a w') : Logged w' := by
  cases hk with
  | stays => exact h
  | connects hc =>
    exact h.setConn h.window (fun _ hs => hs) rfl rfl
      ⟨fun _ => rfl, fun _ => rfl, fun _ hsid => (nomatch hsid)⟩ fun _ hsid => (nomatch hsid)
  | moves hc ha hm =>
    refine h.setConn h.window (fun _ hs => hs) rfl rfl (hm.served (h.served _ _ hc) h.window)
      fun sid hsid => ?_
    obtain heq | ⟨sid', s, hsid', hs⟩ := hm.session
    · exact h.known _ _ sid hc (heq ▸ hsid)
    · obtain rfl := Option.some.inj (hsid'.symm.trans hsid)
      exact ⟨s, hs⟩
  | @identifies c conn token sid claims hc hp hnone =>
    have hno : conn.session = none := by
      rw [(h.served c conn hc).on (by simp [hp]), Conn.on?, hp]
    refine h.setConn (fun sid' s hs => ?_) (fun sid' hs => ?_) rfl rfl
      ⟨fun _ => rfl, fun hsome => (nomatch hsome), fun sid' _ e he => ?_⟩ fun sid' hsid => ?_
    · have hs' := (Function.update_apply w.sessions _ _ _).symm.trans hs
      split at hs'
      · rename_i heq
        rw [heq, h.unborn sid hnone, ← Option.some.inj hs']
        exact SessionInner.window_new _ _
      · exact h.window sid' s hs'
    · have hs' := (Function.update_apply w.sessions _ _ _).symm.trans hs
      split at hs'
      · cases hs'
      · exact hs'
    · have hsent : Conn.sent { conn with phase := .ready sid, session := some sid } = [] :=
        (h.served c conn hc).none hno
      rw [hsent] at he
      cases he
    · obtain rfl := Option.some.inj hsid
      exact ⟨_, Function.update_self _ _ _⟩
  | @marksConnected c conn sid replay hc hp =>
    refine h.mark hc (fun _ => rfl) (fun _ => rfl) rfl ?_
    refine (h.served c conn hc).of_subset rfl (.inr (.inl ⟨by simp [hp], by simp [Conn.on?, hp]⟩)) ?_
    rw [show conn.carried = replay by rw [Conn.carried, hp]]
    exact fun e he => he
  | @marksDisconnected c conn sid hc hp =>
    exact h.mark hc (fun _ => rfl) (fun _ => rfl) rfl ((h.served c conn hc).drops (.inl rfl) rfl)
  | @dispatches c conn sid seq origin e rest hc hp hq =>
    have hsession : conn.session = some sid := by
      rw [(h.served c conn hc).on (by simp [hp]), Conn.on?, hp]
    obtain ⟨s, hs⟩ := h.known c conn sid hc hsession
    have hseq : s.lastSeq = seq :=
      hok _ (Dict.mem_pairs.mpr hc) rfl (sid, seq) (by simp [Conn.counter?, hp, hq]) s hs
    refine h.dispatch hsession hs (by rw [hseq]; rfl) rfl ⟨fun _ => hsession,
      fun hno => (h.served c conn hc).none hno, fun sid' hsid' e' he' => ?_⟩
    obtain he' | he' := List.mem_append.mp he'
    · exact (mem_dispatched_buffer cfg).mpr (.inl ((h.served c conn hc).mem sid' hsid' e'
        (List.mem_append_left _ he')))
    · exact (mem_dispatched_buffer cfg).mpr (.inr ⟨Option.some.inj (hsid'.symm.trans hsession),
        List.mem_singleton.mp he'⟩)
  | @publishes m =>
    refine ⟨h.window, h.unborn, h.stamped, fun c conn' hc => ?_, fun c conn' sid hc hsid => ?_⟩
    · rw [publish, Dict.lookup_mapVals, Option.map_eq_some_iff] at hc
      obtain ⟨conn, hc, rfl⟩ := hc
      exact served_receive (h.served c conn hc) w m
    · rw [publish, Dict.lookup_mapVals, Option.map_eq_some_iff] at hc
      obtain ⟨conn, hc, rfl⟩ := hc
      exact h.known c conn sid hc ((receive_session w m conn).symm.trans hsid)
  | elapses => exact ⟨h.window, h.unborn, h.stamped, h.served, h.known⟩
  | reaps => exact ⟨h.window, h.unborn, h.stamped, h.served, h.known⟩

theorem logged_of_reach (h : (system cfg).Reach InTurn w) : Logged w :=
  h.invariant (fun s hs => by rw [show s = .new from hs]; exact logged_new)
    fun _ _ _ hw hok hst => hw.step hok (kind_of_step hst)

/-! ### One sequence -/

/-- The numbers of every session are one sequence: its buffer is in their order, and its
connections do not send two events under one number. -/
structure OneSequence (w : Gateway D) : Prop where
  buffer : ∀ sid s, w.sessions sid = some s → s.events.Pairwise fun e₁ e₂ => e₁.seq < e₂.seq
  sent : ∀ sid c₁ conn₁ c₂ conn₂, w.conns.lookup c₁ = some conn₁ → w.conns.lookup c₂ = some conn₂ →
    conn₁.session = some sid → conn₂.session = some sid →
    ∀ e₁ ∈ conn₁.sent, ∀ e₂ ∈ conn₂.sent, e₁.data.s = e₂.data.s → e₁ = e₂

theorem Logged.numbersOnce (h : Logged w) : OneSequence w := by
  refine ⟨fun sid s hs => ?_, fun sid c₁ conn₁ c₂ conn₂ hc₁ hc₂ hsid₁ hsid₂ e₁ he₁ e₂ he₂ heq => ?_⟩
  · obtain ⟨k, -, hevents⟩ := (h.window sid s hs).events
    rw [hevents]
    exact (h.window sid s hs).numbered.pairwise_drop k
  · obtain ⟨s, hs⟩ := h.known c₁ conn₁ sid hc₁ hsid₁
    have hmem₁ := (h.served c₁ conn₁ hc₁).mem sid hsid₁ e₁ (List.mem_append_left _ he₁)
    have hmem₂ := (h.served c₂ conn₂ hc₂).mem sid hsid₂ e₂ (List.mem_append_left _ he₂)
    refine (h.window sid s hs).numbered.eq_of_mem hmem₁ hmem₂ ?_
    rw [h.stamped sid e₁ hmem₁, h.stamped sid e₂ hmem₂] at heq
    exact Option.some.inj heq

/-- **One sequence per session**, in every state of the runs of steps in turn. -/
theorem oneSequence (h : (system cfg).Reach InTurn w) : OneSequence w :=
  (logged_of_reach h).numbersOnce

/-- A client resumes and goes on with its session. -/
theorem oneSequence_reconnect : OneSequence (after (identifies 0 "s" ++
    [.subscribe 0 true, .publish (messageOn2 5)] ++ serves 0 ++ [.close 0, .advance 0] ++
    resumes 1 "s" 0 1 ++ [.subscribe 1 true, .publish (messageOn2 6)] ++ serves 1)) :=
  oneSequence (System.Reach.foldl (M := system openGateway) Step.next (.start rfl) (by decide))

/-- **Two connections of a session count on from one number.** A client resumes while its
older connection is open; that one sends a message under the number 1, and the new one
another message under the number 1. -/
theorem sequence_forked : ∃ w, (system openGateway).Reachable w ∧ ¬ OneSequence w ∧
    (w.sessions "s").map (fun s => s.events.map BufferedEvent.seq) = some [1, 1] ∧
    (w.conns.lookup 0).map (fun conn => conn.sent.map fun e => (e.data.s, e.data.d)) =
      some [(some 1, 5)] ∧
    (w.conns.lookup 1).map (fun conn => conn.sent.map fun e => (e.data.s, e.data.d)) =
      some [(some 1, 6)] := by
  have hbuffer : ((after (identifies 0 "s" ++ [.subscribe 0 true] ++ resumes 1 "s" 0 0 ++
      [.publish (messageOn2 5)] ++ serves 0 ++ [.subscribe 1 true, .publish (messageOn2 6)] ++
      serves 1)).sessions "s").map (fun s => s.events.map BufferedEvent.seq) = some [1, 1] := by
    decide
  refine ⟨_, reachable_after _, fun h => ?_, hbuffer, by decide, by decide⟩
  obtain ⟨s, hs, hseqs⟩ := Option.map_eq_some_iff.mp hbuffer
  have hpairwise := List.pairwise_map.mpr (h.buffer "s" s hs)
  rw [hseqs] at hpairwise
  exact absurd hpairwise (by decide)

end Gateway

end Chat

end MateHub
