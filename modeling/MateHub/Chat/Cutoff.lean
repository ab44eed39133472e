import MateHub.Chat.Due
import MateHub.Chat.Staleness

/-!
# Sessions that stay open

Whoever may not read a channel any more can still have a session that is open, or be able to
resume one. The filter of the gateway asks for every message, so such a session falls silent with
the answers: nothing that is published on the channel later than these can still say yes gets
there, neither through an open connection nor through the replay of a RESUME
(`MateHub.Chat.silent_of_revoked`).

Half of the argument is about the gateway alone: whatever a session has buffered, and whatever
its connections hold or have sent, has passed the filter for the user of the session
(`MateHub.Chat.Gateway.Passed`).
-/

namespace MateHub

namespace Chat

/-! ### What has passed the filter -/

theorem SessionInner.replayFrom_subset {D : Type} {s : SessionInner D} {afterSeq : ℕ}
    {replay : List (BufferedEvent D)} (h : s.replayFrom afterSeq = some replay) :
    replay ⊆ s.events := by
  rw [replayFrom] at h
  dsimp only at h
  split_ifs at h
  · rw [← Option.some.inj h]
    exact List.nil_subset _
  · rw [← Option.some.inj h]
    exact List.filter_subset_self _

theorem SessionInner.push_subset {D : Type} {bytes : GatewayEvent D → ℕ} {s : SessionInner D}
    {e : BufferedEvent D} : (s.push bytes e).events ⊆ s.events ++ [e] := by
  obtain ⟨k, -, hk⟩ := evict_eq_drop bytes (s.events ++ [e]) (s.totalBytes + bytes e.data)
  rw [push, hk]
  exact List.drop_subset k _

/-- A connection that is on a session is not done. -/
theorem Conn.not_done_of_on? {D : Type} {conn : Conn D} {sid : SessionId}
    (h : conn.on? = some sid) : conn.phase ≠ .done := by
  intro hdone
  rw [on?, hdone] at h
  cases h

/-- The places, in the order of publication, of what a connection holds and has sent. -/
def Conn.holds {D : Type} (conn : Conn D) : List ℕ :=
  conn.dispatchQueue.map Prod.fst ++ (conn.sent ++ conn.carried).map BufferedEvent.origin

theorem Conn.holds_eq_nil {D : Type} {conn : Conn D} :
    conn.holds = [] ↔ conn.dispatchQueue = [] ∧ conn.sent = [] ∧ conn.carried = [] := by
  rw [holds, List.append_eq_nil_iff, List.map_eq_nil_iff, List.map_eq_nil_iff,
    List.append_eq_nil_iff]

namespace Gateway

variable {D : Type} {cfg : Config D} {P Q : Claims → ℕ → Prop} {w w' : Gateway D} {a : Act D}
  {conn conn' : Conn D} {sid : SessionId}

/-- The claims of a session. -/
def claims? (w : Gateway D) (sid : SessionId) : Option Claims :=
  (w.sessions sid).map SessionInner.claims

/-- **All that a connection holds and has sent is fit** for the user of its session. -/
structure Through (P : Claims → ℕ → Prop) (w : Gateway D) (conn : Conn D) : Prop where
  on : conn.phase ≠ .done → conn.session = conn.on?
  none : conn.session = none → conn.holds = []
  holds : ∀ sid, conn.session = some sid →
    ∃ claims, w.claims? sid = some claims ∧ ∀ n ∈ conn.holds, P claims n

/-- **All that sessions and connections have is fit** for the users of the sessions. -/
structure Passed (P : Claims → ℕ → Prop) (w : Gateway D) : Prop where
  events : ∀ sid s, w.sessions sid = some s → ∀ e ∈ s.events, P s.claims e.origin
  conns : ∀ c conn, w.conns.lookup c = some conn → Through P w conn

/-- What the filter of a connection lets through with a step is fit. -/
def LetsThrough (P : Claims → ℕ → Prop) (w : Gateway D) (conn : Conn D) : Act D → Prop
  | .forward _ allowed => ∀ sid s origin m rest e, conn.loop? = some sid →
      w.sessions sid = some s → conn.inbox = (origin, m) :: rest → eventOf allowed m = some e →
        P s.claims origin
  | _ => True

theorem claims?_eq {s : SessionInner D} (hs : w.sessions sid = some s) :
    w.claims? sid = some s.claims := by
  rw [claims?, hs]
  rfl

/-- Sessions keep their claims. -/
theorem Kind.claims (hk : Kind cfg w a w') {claims : Claims} (h : w.claims? sid = some claims) :
    w'.claims? sid = some claims := by
  obtain ⟨s, hs, rfl⟩ := Option.map_eq_some_iff.mp h
  obtain ⟨s', hs', hclaims, -⟩ := hk.session hs
  rw [claims?_eq hs', hclaims]

theorem Through.mono (h : Through P w conn) (hPQ : ∀ claims n, P claims n → Q claims n)
    (hclaims : ∀ sid claims, w.claims? sid = some claims → w'.claims? sid = some claims) :
    Through Q w' conn := by
  refine ⟨h.on, h.none, fun sid hsid => ?_⟩
  obtain ⟨claims, hc, hfit⟩ := h.holds sid hsid
  exact ⟨claims, hclaims sid claims hc, fun n hn => hPQ claims n (hfit n hn)⟩

theorem Passed.mono (h : Passed P w) (hPQ : ∀ claims n, P claims n → Q claims n) : Passed Q w :=
  ⟨fun sid s hs e he => hPQ s.claims e.origin (h.events sid s hs e he),
    fun c conn hc => (h.conns c conn hc).mono hPQ fun _ _ hclaims => hclaims⟩

/-- A connection that holds no more than before, and what is fit besides. -/
theorem Through.next (h : Through P w conn) (hsession : conn'.session = conn.session)
    (hon : conn'.phase = .done ∨ conn.phase ≠ .done ∧ conn'.on? = conn.on? ∨
      conn'.phase = conn.phase)
    (hholds : ∀ n ∈ conn'.holds, n ∈ conn.holds ∨
      ∃ sid claims, conn.session = some sid ∧ w.claims? sid = some claims ∧ P claims n) :
    Through P w conn' := by
  refine ⟨fun hp => ?_, fun hno => ?_, fun sid hsid => ?_⟩
  · obtain hdone | ⟨hp', hon⟩ | hsame := hon
    · exact absurd hdone hp
    · rw [hsession, hon, h.on hp']
    · rw [hsession, h.on (hsame ▸ hp), Conn.on?, Conn.on?, hsame]
  · rw [hsession] at hno
    refine List.eq_nil_iff_forall_not_mem.mpr fun n hn => ?_
    rcases hholds n hn with hold | ⟨sid, -, hsid, -⟩
    · exact absurd (h.none hno ▸ hold) List.not_mem_nil
    · rw [hno] at hsid
      cases hsid
  · rw [hsession] at hsid
    obtain ⟨claims, hclaims, hfit⟩ := h.holds sid hsid
    refine ⟨claims, hclaims, fun n hn => ?_⟩
    rcases hholds n hn with hold | ⟨sid', claims', hsid', hclaims', hP⟩
    · exact hfit n hold
    · obtain rfl := Option.some.inj (hsid'.symm.trans hsid)
      obtain rfl := Option.some.inj (hclaims'.symm.trans hclaims)
      exact hP

theorem Through.drops {phase : Phase D} {inbox : List (ℕ × NatsMsg D)}
    {queue : List (ℕ × GatewayEvent D)} {writer : Bool} (h : Through P w conn)
    (hon : phase = .done ∨ conn.phase ≠ .done ∧ Conn.on? { conn with phase := phase } = conn.on?)
    (hcarried : Conn.carried { conn with phase := phase } = [])
    (hqueue : queue = conn.dispatchQueue ∨ queue = []) :
    Through P w { conn with
      phase := phase, inbox := inbox, dispatchQueue := queue, writer := writer } := by
  refine h.next rfl (hon.imp_right .inl) fun n hn => .inl ?_
  rcases List.mem_append.mp hn with hn | hn
  · rcases hqueue with rfl | rfl
    · exact List.mem_append_left _ hn
    · exact absurd hn List.not_mem_nil
  · refine List.mem_append_right _ ?_
    obtain ⟨e, he, rfl⟩ := List.mem_map.mp hn
    rcases List.mem_append.mp he with he | he
    · exact List.mem_map_of_mem (List.mem_append_left _ he)
    · exact absurd (hcarried ▸ he) List.not_mem_nil

/-- A connection that hands a frame to the writer, which it held or which is of the handshake. -/
theorem Through.sends {frame : Frame D} {phase : Phase D} (h : Through P w conn)
    (hon : phase = .done ∨ conn.phase ≠ .done ∧ Conn.on? { conn with phase := phase } = conn.on?)
    (hcarried : ∀ e ∈ frame.event?.toList ++ Conn.carried { conn with phase := phase },
      e ∈ conn.carried) :
    Through P w { conn with out := conn.out ++ [frame], phase := phase } := by
  refine h.next rfl (hon.imp_right .inl) fun n hn => .inl ?_
  rcases List.mem_append.mp hn with hn | hn
  · exact List.mem_append_left _ hn
  · refine List.mem_append_right _ ?_
    obtain ⟨e, he, rfl⟩ := List.mem_map.mp hn
    rw [Conn.sent_append, List.append_assoc] at he
    rcases List.mem_append.mp he with he | he
    · exact List.mem_map_of_mem (List.mem_append_left _ he)
    · exact List.mem_map_of_mem (List.mem_append_right _ (hcarried e he))

/-- **A move of a connection**: it holds what it held, what it replays from its session, and what
the filter lets through. -/
theorem Move.through (hm : Move cfg w conn a conn') (h : Through P w conn)
    (hevents : ∀ sid s, w.sessions sid = some s → ∀ e ∈ s.events, P s.claims e.origin)
    (hlets : LetsThrough P w conn a) : Through P w conn' := by
  have hphase {phase : Phase D} (hp : conn.phase = phase) (hne : phase ≠ .done) :
      conn.phase ≠ .done := fun hdone => hne (hp.symm.trans hdone)
  cases hm with
  | writes hout _ =>
    refine h.next rfl (.inr (.inr rfl)) fun n hn => .inl ?_
    rwa [Conn.holds, Conn.sent_write hout] at hn
  | writerFails => exact h.next rfl (.inr (.inr rfl)) fun n hn => .inl hn
  | greets hp =>
    exact h.sends (.inr ⟨hphase hp (by simp), by simp [Conn.on?, hp]⟩)
      fun _ he => absurd he List.not_mem_nil
  | finds hp =>
    exact h.drops (.inr ⟨hphase hp (by simp), by simp [Conn.on?, hp]⟩) rfl (.inl rfl)
  | rejected hp =>
    refine h.drops (.inr ?_) rfl (.inl rfl)
    obtain hp | ⟨sid, seq, hp⟩ := hp <;> exact ⟨hphase hp (by simp), by simp [Conn.on?, hp]⟩
  | ends _ hout =>
    obtain rfl | ⟨frame, rfl⟩ := hout
    · exact h.drops (.inl rfl) rfl (.inl rfl)
    · exact h.sends (.inl rfl) fun _ he => absurd he List.not_mem_nil
  | @takesReplay c sid seq s replay hp hs hreplay =>
    -- before the handshake it holds nothing, so all it holds now is the replay
    have hno : conn.session = none := by rw [h.on (hphase hp (by simp)), Conn.on?, hp]
    obtain ⟨hqueue, hsent, -⟩ := Conn.holds_eq_nil.mp (h.none hno)
    refine ⟨fun _ => rfl, fun hnone => (by cases hnone), fun sid' hsid =>
      ⟨s.claims, ?_, fun n hn => ?_⟩⟩
    · obtain rfl := Option.some.inj hsid
      exact claims?_eq hs
    · have hheld : n ∈ conn.dispatchQueue.map Prod.fst ++
          (conn.sent ++ replay).map BufferedEvent.origin := hn
      rw [hqueue, hsent, List.map_nil, List.nil_append, List.nil_append] at hheld
      obtain ⟨e, he, rfl⟩ := List.mem_map.mp hheld
      exact hevents sid s hs e (SessionInner.replayFrom_subset hreplay he)
  | counts hp =>
    refine h.next rfl (.inr (.inl ⟨hphase hp (by simp), by simp [Conn.on?, hp]⟩))
      fun n hn => .inl ?_
    rw [Conn.holds, show conn.carried = _ by rw [Conn.carried, hp]]
    exact hn
  | ready hp _ =>
    exact h.sends (.inr ⟨hphase hp (by simp), by simp [Conn.on?, hp]⟩)
      fun _ he => absurd he List.not_mem_nil
  | replays hp _ =>
    refine h.sends (.inr ⟨hphase hp (by simp), by simp [Conn.on?, hp]⟩) fun e he => ?_
    rw [Conn.carried, hp]
    exact he
  | resumed hp _ =>
    exact h.sends (.inr ⟨hphase hp (by simp), by simp [Conn.on?, hp]⟩)
      fun _ he => absurd he List.not_mem_nil
  | fails => exact h.drops (.inl rfl) rfl (.inl rfl)
  | subscribes hp =>
    exact h.drops (.inr ⟨hphase hp (by simp), by simp [Conn.on?, hp]⟩) rfl (.inl rfl)
  | refused => exact h.drops (.inl rfl) rfl (.inl rfl)
  | filters => exact h.next rfl (.inr (.inr rfl)) fun n hn => .inl hn
  | @forwards c allowed sid s origin m rest e hloop hs hinbox hevent =>
    refine h.next rfl (.inr (.inr rfl)) fun n hn => ?_
    rw [Conn.holds, List.map_append, List.append_assoc] at hn
    rcases List.mem_append.mp hn with hn | hn
    · exact .inl (List.mem_append_left _ hn)
    · rcases List.mem_append.mp hn with hn | hn
      · rw [List.mem_singleton.mp hn]
        refine .inr ⟨sid, s.claims, ?_, claims?_eq hs,
          hlets sid s origin m rest e hloop hs hinbox hevent⟩
        have hon := Conn.on?_of_loop? hloop
        rw [h.on (Conn.not_done_of_on? hon), hon]
      · exact .inl (List.mem_append_right _ hn)
  | sends hp _ =>
    refine h.sends (.inr ⟨hphase hp (by simp), by simp [Conn.on?, hp]⟩) fun e he => ?_
    rw [Conn.carried, hp]
    exact he
  | leaves hloop =>
    have hon := Conn.on?_of_loop? hloop
    exact h.drops (.inr ⟨Conn.not_done_of_on? hon, hon.symm⟩) rfl (.inr rfl)

theorem passed_new : Passed P (.new : Gateway D) :=
  ⟨fun _ _ h => (by cases h), fun _ _ h => (by cases h)⟩

/-- What is to be said of a step that changes one connection, and no buffer but by what is
fit. -/
theorem Passed.setConn {c : ConnId} (h : Passed P w) (hk : Kind cfg w a w')
    (hevents : ∀ sid s, w'.sessions sid = some s → ∀ e ∈ s.events, P s.claims e.origin)
    (hconns : w'.conns = w.conns.insert c conn') (hthrough : Through P w' conn') : Passed P w' := by
  refine ⟨hevents, fun c' conn hc => ?_⟩
  rw [hconns, Dict.lookup_insert_eq] at hc
  split at hc
  · exact Option.some.inj hc ▸ hthrough
  · exact (h.conns c' conn hc).mono (fun _ _ hP => hP) fun _ _ hclaims => hk.claims hclaims

theorem Passed.modifySession (h : Passed P w) {f : SessionInner D → SessionInner D}
    (hf : ∀ s, w.sessions sid = some s →
      (f s).claims = s.claims ∧ ∀ e ∈ (f s).events, P s.claims e.origin) :
    ∀ sid' s, (w.modifySession sid f).sessions sid' = some s →
      ∀ e ∈ s.events, P s.claims e.origin := by
  intro sid' s hs
  rw [sessions_modifySession] at hs
  split at hs
  · rename_i heq
    subst heq
    obtain ⟨s₀, hs₀, rfl⟩ := Option.map_eq_some_iff.mp hs
    obtain ⟨hclaims, hfit⟩ := hf s₀ hs₀
    rw [hclaims]
    exact hfit
  · exact h.events sid' s hs

/-- **A step of the gateway**: if what the filter lets through is fit, so is all that sessions
and connections have. -/
theorem Passed.step (h : Passed P w) (hk : Kind cfg w a w')
    (hlets : ∀ c conn, a.conn? = some c → w.conns.lookup c = some conn →
      LetsThrough P w conn a) : Passed P w' := by
  have hkept {conn : Conn D} (hconn : Through P w conn) : Through P w' conn :=
    hconn.mono (fun _ _ hP => hP) fun _ _ hclaims => hk.claims hclaims
  have hk' := hk
  cases hk with
  | stays => exact h
  | connects hc =>
    exact h.setConn hk' h.events rfl ⟨fun _ => rfl, fun _ => rfl, fun _ hsid => (by cases hsid)⟩
  | moves hc ha hm =>
    exact h.setConn hk' h.events rfl
      (hkept (hm.through (h.conns _ _ hc) h.events (hlets _ _ ha hc)))
  | @identifies c conn token sid claims hc hp hnone =>
    have hno : conn.session = none := by
      rw [(h.conns c conn hc).on (by simp [hp]), Conn.on?, hp]
    refine h.setConn hk' (fun sid' s hs => ?_) rfl
      ⟨fun _ => rfl, fun hnone => (by cases hnone), fun sid' hsid => ?_⟩
    · have hs' := (Function.update_apply w.sessions _ _ _).symm.trans hs
      split at hs'
      · rw [← Option.some.inj hs']
        exact fun e he => absurd he List.not_mem_nil
      · exact h.events sid' s hs'
    · obtain rfl := Option.some.inj hsid
      have hs : ((w.create sid claims (natsSubject claims.hubId)).setConn c
          { conn with phase := .ready sid, session := some sid }).sessions sid =
          some (.new claims (natsSubject claims.hubId)) := Function.update_self _ _ _
      refine ⟨claims, claims?_eq hs, fun n hn => ?_⟩
      obtain ⟨hqueue, hsent, -⟩ := Conn.holds_eq_nil.mp ((h.conns c conn hc).none hno)
      have hheld : Conn.holds { conn with phase := .ready sid, session := some sid } = [] :=
        Conn.holds_eq_nil.mpr ⟨hqueue, hsent, rfl⟩
      exact absurd (hheld ▸ hn) List.not_mem_nil
  | @marksConnected c conn sid replay hc hp =>
    refine h.setConn hk' (h.modifySession fun s hs => ⟨rfl, h.events sid s hs⟩) rfl ?_
    refine hkept ((h.conns c conn hc).next rfl
      (.inr (.inl ⟨by simp [hp], by simp [Conn.on?, hp]⟩)) fun n hn => .inl ?_)
    rw [Conn.holds, show conn.carried = replay by rw [Conn.carried, hp]]
    exact hn
  | @marksDisconnected c conn sid hc hp =>
    refine h.setConn hk' (h.modifySession fun s hs => ⟨rfl, h.events sid s hs⟩) rfl ?_
    exact hkept ((h.conns c conn hc).drops (.inl rfl) rfl (.inl rfl))
  | @dispatches c conn sid seq origin e rest hc hp hq =>
    -- what goes into the buffer is what was waiting, which is fit for the same session
    have hconn := h.conns c conn hc
    have hsession : conn.session = some sid := by
      rw [hconn.on (by simp [hp]), Conn.on?, hp]
    obtain ⟨claims, hclaims, hfit⟩ := hconn.holds sid hsession
    have horigin : P claims origin := by
      refine hfit origin (List.mem_append_left _ ?_)
      rw [hq]
      exact List.mem_cons_self
    refine h.setConn hk' (h.modifySession fun s hs => ⟨rfl, fun e' he' => ?_⟩) rfl ?_
    · rcases List.mem_append.mp (SessionInner.push_subset he') with he' | he'
      · exact h.events sid s hs e' he'
      · obtain rfl := Option.some.inj (hclaims.symm.trans (claims?_eq hs))
        rw [List.mem_singleton.mp he']
        exact horigin
    · refine hkept (hconn.next rfl (.inr (.inl ⟨by simp [hp], by simp [Conn.on?, hp]⟩))
        fun n hn => ?_)
      rcases List.mem_append.mp hn with hn | hn
      · refine .inl (List.mem_append_left _ ?_)
        rw [hq]
        exact List.mem_cons_of_mem _ hn
      · obtain ⟨e', he', rfl⟩ := List.mem_map.mp hn
        rcases List.mem_append.mp he' with he' | he'
        · exact .inl (List.mem_append_right _
            (List.mem_map_of_mem (List.mem_append_left _ he')))
        · rw [List.mem_singleton.mp he']
          exact .inr ⟨sid, claims, hsession, hclaims, horigin⟩
  | @publishes m =>
    refine ⟨h.events, fun c conn' hc => ?_⟩
    rw [publish, Dict.lookup_mapVals, Option.map_eq_some_iff] at hc
    obtain ⟨conn, hc, rfl⟩ := hc
    have hconn := h.conns c conn hc
    rw [receive]
    split
    · exact ⟨hconn.on, hconn.none, hconn.holds⟩
    · exact ⟨hconn.on, hconn.none, hconn.holds⟩
  | elapses => exact ⟨h.events, fun c conn hc => hkept (h.conns c conn hc)⟩
  | reaps => exact ⟨h.events, fun c conn hc => hkept (h.conns c conn hc)⟩

end Gateway

/-! ### The gateway and the checks -/

/-- What the filter asks, as a key of the cache. -/
def Question.key (q : Question) : Key := ⟨q.hubId, q.channelId, q.userId, .read⟩

/-- The hub service and the checks, the gateway, and when its messages were published. -/
structure GuardedGateway (σ D : Type) where
  acl : AclClock σ
  gateway : Gateway D
  times : List ℕ

/-- What happens to access, or to the gateway. -/
inductive GuardedEvent (σ ε D : Type)
  | acl (e : ClockEvent σ ε)
  | gateway (a : Gateway.Act D)

namespace GuardedGateway

variable {σ ε D : Type}

/-- The filter goes on with an answer to what it asks, which has been given since the message was
published. -/
def Answered (w : GuardedGateway σ D) : Gateway.Act D → Prop
  | .forward c allowed => ∀ conn q, w.gateway.conns.lookup c = some conn →
      w.gateway.asks? conn = some q → ∃ v ∈ w.acl.verdicts, v.key = q.key ∧
        v.allowed = allowed ∧ ∀ t, w.times[q.origin]? = some t → t ≤ v.time
  | _ => True

/-- A step of the gateway. -/
def next (cfg : Config D) (w : GuardedGateway σ D) (a : Gateway.Act D) : GuardedGateway σ D where
  acl := w.acl
  gateway := w.gateway.next cfg a
  times := match a with
    | .publish _ => w.times ++ [w.acl.cache.now]
    | _ => w.times

theorem kind (w : GuardedGateway σ D) (cfg : Config D) (a : Gateway.Act D) :
    Gateway.Kind cfg w.gateway a (w.next cfg a).gateway :=
  Gateway.kind_of_step (.next w.gateway a)

end GuardedGateway

section System

variable {σ ε D : Type} (db : σ → Hub.Db) (step : σ → ε → σ → Prop) (cfg : Config D)

/-- A step of the services. -/
inductive GuardedStep : GuardedGateway σ D → GuardedEvent σ ε D → GuardedGateway σ D → Prop
  | acl {w : GuardedGateway σ D} {e : ClockEvent σ ε} {acl' : AclClock σ} :
      ClockStep db step w.acl e acl' → GuardedStep w (.acl e) { w with acl := acl' }
  | gateway {w : GuardedGateway σ D} {a : Gateway.Act D} : w.Answered a →
      GuardedStep w (.gateway a) (w.next cfg a)

/-- The services, from any state of the hub service on, and without sessions. -/
def guardedGateway : System (GuardedGateway σ D) (GuardedEvent σ ε D) where
  init w := (∃ s, w.acl = ⟨s, Expiring.empty, [], []⟩) ∧ w.gateway = .new ∧ w.times = []
  step := GuardedStep db step cfg

end System

/-! ### Silence -/

section Runs

variable {σ ε D : Type} {db : σ → Hub.Db} {step : σ → ε → σ → Prop} {cfg : Config D}
  {w w' : GuardedGateway σ D} {k : Key} {R : ℕ → Prop} {d t₀ : ℕ}
  {ok : AclClock σ → ClockEvent σ ε → Prop}

/-- A condition on the steps of the hub service and the checks. -/
def GuardedEvent.Meets (ok : AclClock σ → ClockEvent σ ε → Prop) (w : GuardedGateway σ D) :
    GuardedEvent σ ε D → Prop
  | .acl e => ok w.acl e
  | .gateway _ => True

/-- Something that has been published, and on a channel only at certain times. -/
def PublishedAt (R : ℕ → Prop) (channelId : I64) (w : GuardedGateway σ D) (n : ℕ) : Prop :=
  ∃ m t, w.gateway.published[n]? = some m ∧ w.times[n]? = some t ∧
    ∀ event, route m.subject = some (event, channelId) → R t

/-- What the sessions of the user of a key may have. -/
def Fit (R : ℕ → Prop) (k : Key) (w : GuardedGateway σ D) (claims : Claims) (n : ℕ) : Prop :=
  claims.hubId = k.hubId → claims.sub = k.userId → PublishedAt R k.channelId w n

/-- What is known of the messages published: when, and where they wait. -/
structure Clocked (w : GuardedGateway σ D) : Prop where
  length : w.times.length = w.gateway.published.length
  times : ∀ t ∈ w.times, t ≤ w.acl.cache.now
  inbox : ∀ c conn, w.gateway.conns.lookup c = some conn → ∀ e ∈ conn.inbox,
    w.gateway.published[e.1]? = some e.2

theorem getElem?_of_prefix {α : Type} {l l' : List α} (h : l <+: l') {i : ℕ} {x : α}
    (hx : l[i]? = some x) : l'[i]? = some x := by
  obtain ⟨rest, rfl⟩ := h
  obtain ⟨hi, -⟩ := List.getElem?_eq_some_iff.mp hx
  rw [List.getElem?_append_left hi, hx]

/-- A step publishes a message, or nothing. -/
theorem Gateway.Kind.published {g g' : Gateway D} {a : Gateway.Act D}
    (hk : Gateway.Kind cfg g a g') (ha : ∀ m, a ≠ .publish m) : g'.published = g.published := by
  cases hk with
  | publishes => exact absurd rfl (ha _)
  | _ => rfl

/-- A move takes messages out of the subscription, if it does anything there. -/
theorem Gateway.Move.inbox_subset {g : Gateway D} {a : Gateway.Act D} {conn conn' : Conn D}
    (hm : Gateway.Move cfg g conn a conn') : conn'.inbox ⊆ conn.inbox := by
  cases hm with
  | filters _ _ hinbox _ | forwards _ _ hinbox _ =>
    rw [hinbox]
    exact List.subset_cons_self _ _
  | leaves => exact List.nil_subset _
  | _ => exact List.Subset.refl _

/-- A message waits in a subscription after a step if it did so before, or is published. -/
theorem Gateway.Kind.inbox {g g' : Gateway D} {a : Gateway.Act D} (hk : Gateway.Kind cfg g a g')
    {c : ConnId} {conn' : Conn D} (hc : g'.conns.lookup c = some conn') {e : ℕ × NatsMsg D}
    (he : e ∈ conn'.inbox) : (∃ conn, g.conns.lookup c = some conn ∧ e ∈ conn.inbox) ∨
      ∃ m, a = .publish m ∧ e = (g.published.length, m) := by
  have hset {c₀ : ConnId} {conn₀ conn₁ : Conn D}
      (hc : (g.conns.insert c₀ conn₁).lookup c = some conn')
      (hc₀ : g.conns.lookup c₀ = some conn₀) (hsub : conn₁.inbox ⊆ conn₀.inbox) :
      ∃ conn, g.conns.lookup c = some conn ∧ e ∈ conn.inbox := by
    rw [Dict.lookup_insert_eq] at hc
    split at hc
    · rename_i heq
      subst heq
      exact ⟨conn₀, hc₀, hsub (Option.some.inj hc ▸ he)⟩
    · exact ⟨conn', hc, he⟩
  cases hk with
  | @connects c₀ hnone =>
    rw [Gateway.conns_setConn, Dict.lookup_insert_eq] at hc
    split at hc
    · rw [← Option.some.inj hc] at he
      exact absurd he List.not_mem_nil
    · exact .inl ⟨conn', hc, he⟩
  | moves hc₀ _ hm => exact .inl (hset hc hc₀ hm.inbox_subset)
  | identifies hc₀ | marksConnected hc₀ | marksDisconnected hc₀ | dispatches hc₀ =>
    exact .inl (hset hc hc₀ (List.Subset.refl _))
  | @publishes m =>
    rw [Gateway.publish, Dict.lookup_mapVals, Option.map_eq_some_iff] at hc
    obtain ⟨conn, hc, rfl⟩ := hc
    rw [Gateway.receive] at he
    split at he
    · rcases List.mem_append.mp he with he | he
      · exact .inl ⟨conn, hc, he⟩
      · exact .inr ⟨m, rfl, List.mem_singleton.mp he⟩
    · exact .inl ⟨conn, hc, he⟩
  | stays | elapses | reaps => exact .inl ⟨conn', hc, he⟩

/-- Time goes on. -/
theorem ClockStep.now_le {acl acl' : AclClock σ} {e : ClockEvent σ ε}
    (h : ClockStep db step acl e acl') : acl.cache.now ≤ acl'.cache.now := by
  cases h with
  | wait d => exact Nat.le_add_right _ _
  | ask k works =>
    rw [AclClock.ask]
    split <;> exact Nat.le_refl _
  | store i works =>
    rw [AclClock.store]
    split
    · cases works <;> exact Nat.le_refl _
    · exact Nat.le_refl _
  | hub | query | delete => exact Nat.le_refl _

/-- What has been published stays. -/
theorem GuardedStep.published {e : GuardedEvent σ ε D} (h : GuardedStep db step cfg w e w') :
    w.gateway.published <+: w'.gateway.published ∧ w.times <+: w'.times := by
  cases h with
  | acl => exact ⟨List.prefix_rfl, List.prefix_rfl⟩
  | @gateway a _ =>
    have hk := w.kind cfg a
    cases a with
    | publish m => exact ⟨List.prefix_append _ _, List.prefix_append _ _⟩
    | _ =>
      have hsame := hk.published fun _ h => by cases h
      exact ⟨⟨[], (List.append_nil _).trans hsame.symm⟩, List.prefix_rfl⟩

theorem PublishedAt.mono {channelId : I64} {n : ℕ} (h : PublishedAt R channelId w n)
    (hpublished : w.gateway.published <+: w'.gateway.published) (htimes : w.times <+: w'.times) :
    PublishedAt R channelId w' n := by
  obtain ⟨m, t, hm, ht, hR⟩ := h
  exact ⟨m, t, getElem?_of_prefix hpublished hm, getElem?_of_prefix htimes ht, hR⟩

theorem Clocked.next {e : GuardedEvent σ ε D} (h : Clocked w)
    (hstep : GuardedStep db step cfg w e w') : Clocked w' := by
  have hgrows := hstep.published
  cases hstep with
  | acl hacl => exact ⟨h.length, fun t ht => Nat.le_trans (h.times t ht) hacl.now_le, h.inbox⟩
  | @gateway a _ =>
    have hk := w.kind cfg a
    have hinbox : ∀ c conn, (w.next cfg a).gateway.conns.lookup c = some conn →
        ∀ e ∈ conn.inbox, (w.next cfg a).gateway.published[e.1]? = some e.2 := by
      intro c conn hc e he
      rcases hk.inbox hc he with ⟨conn₀, hc₀, he₀⟩ | ⟨m, rfl, rfl⟩
      · exact getElem?_of_prefix hgrows.1 (h.inbox c conn₀ hc₀ e he₀)
      · exact List.getElem?_concat_length
    cases a with
    | publish m =>
      refine ⟨?_, fun t ht => ?_, hinbox⟩
      · have hlength := congrArg (· + 1) h.length
        simpa [GuardedGateway.next, Gateway.next, Gateway.publish] using hlength
      · rcases List.mem_append.mp ht with ht | ht
        · exact h.times t ht
        · exact Nat.le_of_eq (List.mem_singleton.mp ht)
    | _ =>
      have hsame := hk.published fun _ h => by cases h
      exact ⟨h.length.trans (congrArg List.length hsame).symm, h.times, hinbox⟩

/-- **The filter lets through what is fit**, if the answers that say yes are of such times. -/
theorem letsThrough_fit {a : Gateway.Act D} {conn : Conn D} {c : ConnId}
    (h : Clocked w) (hread : k.action = .read) (ha : w.Answered a)
    (hR : ∀ v ∈ w.acl.verdicts, v.key = k → v.allowed = true → ∀ t ≤ v.time, R t)
    (hconn : a.conn? = some c) (hc : w.gateway.conns.lookup c = some conn) :
    Gateway.LetsThrough (Fit R k w) w.gateway conn a := by
  cases a with
  | forward c' allowed =>
    obtain rfl : c' = c := Option.some.inj hconn
    intro sid s origin m rest e hloop hs hinbox hevent hhub hsub
    have hm : w.gateway.published[origin]? = some m :=
      h.inbox c' conn hc (origin, m) (hinbox ▸ List.mem_cons_self)
    obtain ⟨hlt, -⟩ := List.getElem?_eq_some_iff.mp hm
    refine ⟨m, _, hm, List.getElem?_eq_getElem (h.length ▸ hlt), fun event hroute => ?_⟩
    -- the event is there only if the answer says yes
    obtain ⟨v, hv, hkey, hallowed, htime⟩ := ha conn _ hc (Gateway.asks?_eq hloop hs hinbox hroute)
    refine hR v hv (hkey.trans ?_) (hallowed.trans (Gateway.eq_true_of_eventOf hevent).1) _
      (htime _ (List.getElem?_eq_getElem _))
    rw [Question.key, hhub, hsub, ← hread]
  | _ => trivial

/-- **One step**: what sessions and connections have stays fit. -/
theorem passed_step {e : GuardedEvent σ ε D} (h : Gateway.Passed (Fit R k w) w.gateway)
    (hclocked : Clocked w) (hread : k.action = .read)
    (hR : ∀ v ∈ w.acl.verdicts, v.key = k → v.allowed = true → ∀ t ≤ v.time, R t)
    (hstep : GuardedStep db step cfg w e w') : Gateway.Passed (Fit R k w') w'.gateway := by
  have hgrows := hstep.published
  refine Gateway.Passed.mono (P := Fit R k w) ?_ fun claims n hfit hhub hsub =>
    (hfit hhub hsub).mono hgrows.1 hgrows.2
  cases hstep with
  | acl _ => exact h
  | @gateway a ha =>
    exact h.step (w.kind cfg a) fun c conn hconn hc =>
      letsThrough_fit hclocked hread ha hR hconn hc

/-- Without the gateway, a run is one of the hub service and the checks. -/
theorem acl_of_reach (hw : (guardedGateway db step cfg).Reach (GuardedEvent.Meets ok) w) :
    (aclClock db step).Reach ok w.acl := by
  refine hw.invariant (I := fun w => (aclClock db step).Reach ok w.acl) ?_ ?_
  · rintro w ⟨hacl, -, -⟩
    exact .start hacl
  · intro w e w' hreach hok hstep
    cases hstep with
    | acl hacl => exact .step hreach hok hacl
    | gateway => exact hreach

/-- Whatever a session has, has been published. -/
theorem fit_of_reach (hread : k.action = .read)
    (hw : (guardedGateway db step cfg).Reach (GuardedEvent.Meets ok) w) :
    Clocked w ∧ Gateway.Passed (Fit (fun _ => True) k w) w.gateway := by
  refine hw.invariant (I := fun w => Clocked w ∧
    Gateway.Passed (Fit (fun _ => True) k w) w.gateway) ?_ ?_
  · rintro w ⟨-, hgateway, htimes⟩
    refine ⟨⟨?_, fun t ht => ?_, fun c conn hc => ?_⟩, ?_⟩
    · rw [htimes, hgateway]
      rfl
    · rw [htimes] at ht
      exact absurd ht List.not_mem_nil
    · rw [hgateway] at hc
      cases hc
    · rw [hgateway]
      exact Gateway.passed_new
  · rintro w e w' ⟨hclocked, hpassed⟩ - hstep
    exact ⟨hclocked.next hstep,
      passed_step hpassed hclocked hread (fun _ _ _ _ _ _ => trivial) hstep⟩

/-- **The sessions of a user hear nothing of a channel** since some time: neither is anything
that is published there since in their buffers, nor has it been sent to their clients. -/
structure Silent (k : Key) (t : ℕ) (w : GuardedGateway σ D) : Prop where
  buffered : ∀ sid s, w.gateway.sessions sid = some s → s.claims.hubId = k.hubId →
    s.claims.sub = k.userId → ∀ e ∈ s.events, PublishedAt (· < t) k.channelId w e.origin
  delivered : ∀ c conn sid s, w.gateway.conns.lookup c = some conn → conn.session = some sid →
    w.gateway.sessions sid = some s → s.claims.hubId = k.hubId → s.claims.sub = k.userId →
    ∀ e, Frame.event e ∈ conn.delivered → PublishedAt (· < t) k.channelId w e.origin

theorem silent_of_passed {t : ℕ} (h : Gateway.Passed (Fit (· < t) k w) w.gateway) :
    Silent k t w := by
  refine ⟨fun sid s hs hhub hsub e he => h.events sid s hs e he hhub hsub, ?_⟩
  intro c conn sid s hc hsid hs hhub hsub e he
  obtain ⟨claims, hclaims, hfit⟩ := (h.conns c conn hc).holds sid hsid
  obtain rfl := Option.some.inj (hclaims.symm.trans (Gateway.claims?_eq hs))
  refine hfit e.origin (List.mem_append_right _ (List.mem_map_of_mem ?_)) hhub hsub
  refine List.mem_append_left _ (List.mem_filterMap.mpr ⟨.event e, ?_, rfl⟩)
  exact List.mem_append_left _ he

/-- Sessions hear nothing that is published later than the last answer that can say yes. -/
theorem silent_of_fading {ok' : AclClock σ → ClockEvent σ ε → Prop} (hread : k.action = .read)
    (hw : (guardedGateway db step cfg).Reach (GuardedEvent.Meets ok) w)
    (hfading : ∀ acl', ((aclClock db step).startingAt w.acl).Reach ok' acl' →
      Fading d w.acl.cache.now k acl')
    (hw' : ((guardedGateway db step cfg).startingAt w).Reach (GuardedEvent.Meets ok') w') :
    Silent k (w.acl.cache.now + d + aclTtlSecs) w' := by
  have hinv : ((aclClock db step).startingAt w.acl).Reach ok' w'.acl ∧ Clocked w' ∧
      Gateway.Passed (Fit (· < w.acl.cache.now + d + aclTtlSecs) k w') w'.gateway := by
    refine hw'.invariant (I := fun w' => ((aclClock db step).startingAt w.acl).Reach ok' w'.acl ∧
      Clocked w' ∧
      Gateway.Passed (Fit (· < w.acl.cache.now + d + aclTtlSecs) k w') w'.gateway) ?_ ?_
    · -- what is there already has been published before the answers fade
      rintro w' rfl
      obtain ⟨hclocked, hpassed⟩ := fit_of_reach hread hw
      refine ⟨.start rfl, hclocked, hpassed.mono fun claims n hfit hhub hsub => ?_⟩
      obtain ⟨m, t, hm, ht, -⟩ := hfit hhub hsub
      refine ⟨m, t, hm, ht, fun _ _ => ?_⟩
      have hpast := hclocked.times t (List.mem_of_getElem? ht)
      have hpos : 0 < aclTtlSecs := by decide
      omega
    · rintro w₁ e w₂ ⟨hacl, hclocked, hpassed⟩ hok hstep
      refine ⟨?_, hclocked.next hstep, passed_step hpassed hclocked hread ?_ hstep⟩
      · cases hstep with
        | acl h => exact .step hacl hok h
        | gateway => exact hacl
      · intro v hv hkey hyes t ht
        exact Nat.lt_of_le_of_lt ht ((hfading w₁.acl hacl).verdicts v hv hkey hyes)
  exact silent_of_passed hinv.2.2

/-- **Sessions fall silent**: if checks take at most some time, then once the database does not
let a user read a channel any more, and as long as it does not, nothing that is published there
later than thirty seconds and that time after gets to a client in a session of the user, or into
the buffer of one – whether the session is open, is resumed or is opened later, and even if every
invalidation is lost. -/
theorem silent_of_revoked (hread : k.action = .read)
    (hw : (guardedGateway db step cfg).Reach (GuardedEvent.Meets (Prompt d)) w)
    (hno : ¬ k.Granted (db w.acl.hub))
    (hw' : ((guardedGateway db step cfg).startingAt w).Reach
      (GuardedEvent.Meets fun acl e => Prompt d acl e ∧ Withheld db k e) w') :
    Silent k (w.acl.cache.now + d + aclTtlSecs) w' :=
  silent_of_fading hread hw (fun _ hacl => fading_of_reach (acl_of_reach hw) hno hacl) hw'

end Runs

/-! ### Bob listens -/

section Kicks

open Hub (ApiCall kickMember)

variable {ssoHub : I64} {D : Type} {cfg : Config D} {d : ℕ} {k : Key}
  {w w' : GuardedGateway Hub.Service D}

/-- **A kick cuts the sessions of a user off**: in every run from the end of a kick in which no
endpoint brings the user back, nothing that is published on a channel of the hub later than thirty
seconds and the time of a check gets to a session of the user. -/
theorem silent_of_kick {db : Hub.Db} {auth : I64} (hread : k.action = .read)
    (hw : (guardedGateway Hub.Service.db (hubService ssoHub) cfg).Reach
      (GuardedEvent.Meets (Prompt d)) w)
    (hkick : kickMember db k.hubId auth k.userId = .ok ((), w.acl.hub.db))
    (huser : ∃ u ∈ db.users, u.id = k.userId)
    (hdm : w.acl.hub.db.isParticipant k.channelId k.userId = false)
    (hw' : ((guardedGateway Hub.Service.db (hubService ssoHub) cfg).startingAt w).Reach
      (GuardedEvent.Meets fun acl e => Prompt d acl e ∧ KeptOut ssoHub k acl e) w') :
    Silent k (w.acl.cache.now + d + aclTtlSecs) w' :=
  silent_of_fading hread hw (fun _ hacl =>
    fading_of_kick (acl_of_reach hw) hkick huser hdm hacl) hw'

open Hub.Seed

/-- Every token is Bob's. -/
def bobsGateway : Config ℕ :=
  { Gateway.openGateway with verifyToken := fun _ => some ⟨bob, "bob", hub⟩ }

/-- A message in the channel of the small hub. -/
def inGeneral (payload : ℕ) : NatsMsg ℕ := ⟨publishMessage hub general, payload⟩

/-- Steps of the gateway. -/
def GuardedGateway.run (w : GuardedGateway Hub.Service ℕ) (acts : List (Gateway.Act ℕ)) :
    GuardedGateway Hub.Service ℕ :=
  acts.foldl (next bobsGateway) w

/-- Bob has been answered. -/
def bobMayRead : GuardedGateway Hub.Service ℕ :=
  ⟨bobIsAnswered ⟨⟨devSeed, []⟩, Expiring.empty, [], []⟩, .new, []⟩

/-- He listens, and a message is published. -/
def bobListens : GuardedGateway Hub.Service ℕ :=
  bobMayRead.run [.connect 0, .advance 0, .identify 0 "token" "s", .advance 0, .subscribe 0 true,
    .publish (inGeneral 1)]

/-- He gets it. -/
def bobHears : GuardedGateway Hub.Service ℕ :=
  bobListens.run [.forward 0 true, .dispatch 0, .advance 0, .write 0, .write 0, .write 0]

/-- Alice has kicked him. -/
def bobIsOut : GuardedGateway Hub.Service ℕ := { bobHears with acl := bobExpelled }

/-- Half a minute later, another message is published. -/
def bobStillListens : GuardedGateway Hub.Service ℕ :=
  GuardedGateway.run
    { bobIsOut with acl := { bobExpelled with cache := bobExpelled.cache.wait 30 } }
    [.publish (inGeneral 2)]

/-- The filter asks for it. -/
def bobIsCutOff : GuardedGateway Hub.Service ℕ :=
  GuardedGateway.run { bobStillListens with acl := bobReadsLater } [.forward 0 false]

/-- The services, as Bob sees them. -/
abbrev bobsChat : System (GuardedGateway Hub.Service ℕ) (GuardedEvent Hub.Service ApiCall ℕ) :=
  guardedGateway Hub.Service.db (hubService hub) bobsGateway

section Witness

variable {M : System (GuardedGateway Hub.Service ℕ) (GuardedEvent Hub.Service ApiCall ℕ)}
  {ok : AclClock Hub.Service → ClockEvent Hub.Service ApiCall → Prop}
  {w : GuardedGateway Hub.Service ℕ}

/-- The hub service and the checks take steps. -/
theorem reach_withAcl (hM : M.step = GuardedStep Hub.Service.db (hubService hub) bobsGateway)
    (hw : M.Reach (GuardedEvent.Meets ok) w) {acl' : AclClock Hub.Service}
    (hacl : ((aclClock Hub.Service.db (hubService hub)).startingAt w.acl).Reach ok acl') :
    M.Reach (GuardedEvent.Meets ok) { w with acl := acl' } := by
  induction hacl with
  | start hi =>
    rw [show { w with acl := _ } = w from congrArg (fun acl => { w with acl := acl }) hi]
    exact hw
  | @step acl acl' e _ hok hstep ih =>
    have hstep' : M.step { w with acl := acl } (.acl e) { w with acl := acl' } :=
      hM ▸ .acl hstep
    have hok' : GuardedEvent.Meets ok { w with acl := acl } (.acl e) := hok
    exact .step ih hok' hstep'

/-- The gateway takes steps. -/
theorem reach_run (hM : M.step = GuardedStep Hub.Service.db (hubService hub) bobsGateway)
    (hw : M.Reach (GuardedEvent.Meets ok) w) {acts : List (Gateway.Act ℕ)}
    (hacts : System.Accepted GuardedGateway.Answered (GuardedGateway.next bobsGateway) w acts) :
    M.Reach (GuardedEvent.Meets ok) (w.run acts) := by
  induction acts generalizing w with
  | nil => exact hw
  | cons a acts ih =>
    have hstep : M.step w (.gateway a) (w.next bobsGateway a) := hM ▸ .gateway hacts.1
    have hok : GuardedEvent.Meets ok w (.gateway a) := trivial
    exact ih (.step hw hok hstep) hacts.2

theorem answered_of_verdict {c : ConnId} {q : Question} (v : Verdict)
    (hasks : (w.gateway.conns.lookup c).bind w.gateway.asks? = some q) (hv : v ∈ w.acl.verdicts)
    (hkey : v.key = q.key) (htime : ∀ t, w.times[q.origin]? = some t → t ≤ v.time) :
    w.Answered (.forward c v.allowed) := by
  intro conn q' hc hq
  rw [hc, Option.bind_some, hq] at hasks
  obtain rfl := Option.some.inj hasks
  exact ⟨v, hv, hkey, rfl, htime⟩

end Witness

theorem reach_bobIsOut : bobsChat.Reach (GuardedEvent.Meets (Prompt 0)) bobIsOut := by
  have hstart : bobsChat.Reach (GuardedEvent.Meets (Prompt 0))
      ⟨⟨⟨devSeed, []⟩, Expiring.empty, [], []⟩, .new, []⟩ := .start ⟨⟨_, rfl⟩, rfl, rfl⟩
  have hmayRead : bobsChat.Reach (GuardedEvent.Meets (Prompt 0)) bobMayRead :=
    reach_withAcl rfl hstart
      (reach_bobIsAnswered rfl (fun _ => ⟨trivial, trivial, trivial⟩) (.start rfl) rfl)
  have hlistens : bobsChat.Reach (GuardedEvent.Meets (Prompt 0)) bobListens :=
    reach_run rfl hmayRead ⟨trivial, trivial, trivial, trivial, trivial, trivial, trivial⟩
  have hyes : bobListens.Answered (.forward 0 true) := by
    refine answered_of_verdict (q := ⟨0, hub, general, bob⟩) ⟨bobsKey, true, 0⟩ (by decide)
      List.mem_cons_self rfl fun t ht => ?_
    have hfirst : some 0 = some t := ht
    exact Nat.le_of_eq (Option.some.inj hfirst).symm
  have hhears : bobsChat.Reach (GuardedEvent.Meets (Prompt 0)) bobHears :=
    reach_run rfl hlistens ⟨hyes, trivial, trivial, trivial, trivial, trivial, trivial⟩
  have hleaves : hubService hub ⟨devSeed, []⟩ (.call (.kickMember hub alice bob))
      ⟨bobKicked, []⟩ := Hub.Service.after_mem hub ⟨devSeed, []⟩ _
  have hprompt : Prompt (σ := Hub.Service) 0 bobHears.acl
      (.hub (ApiCall.call (.kickMember hub alice bob)) ⟨bobKicked, []⟩) := trivial
  exact reach_withAcl rfl hhears (.step (.start rfl) hprompt (.hub hleaves))

theorem reach_bobIsCutOff : (bobsChat.startingAt bobIsOut).Reach
    (GuardedEvent.Meets fun acl e => Prompt 0 acl e ∧ Withheld Hub.Service.db bobsKey e)
    bobIsCutOff := by
  have hprompt : Prompt (σ := Hub.Service) (ε := ApiCall) 0 bobExpelled (.wait 30) := by
    intro c hc
    rw [show bobExpelled.checks = [] from rfl] at hc
    cases hc
  have hlater : (bobsChat.startingAt bobIsOut).Reach
      (GuardedEvent.Meets fun acl e => Prompt 0 acl e ∧ Withheld Hub.Service.db bobsKey e)
      { bobIsOut with acl := { bobExpelled with cache := bobExpelled.cache.wait 30 } } :=
    reach_withAcl rfl (.start rfl)
      (.step (.start rfl) ⟨hprompt, trivial⟩ (.wait bobExpelled 30))
  have hlistens : (bobsChat.startingAt bobIsOut).Reach
      (GuardedEvent.Meets fun acl e => Prompt 0 acl e ∧ Withheld Hub.Service.db bobsKey e)
      bobStillListens := reach_run rfl hlater ⟨trivial, trivial⟩
  have hasked := reach_withAcl rfl hlistens
    (reach_bobIsAnswered rfl (fun _ => ⟨⟨trivial, trivial⟩, ⟨trivial, trivial⟩, trivial, trivial⟩)
      (.start rfl) rfl)
  refine reach_run rfl hasked ⟨?_, trivial⟩
  refine answered_of_verdict (q := ⟨1, hub, general, bob⟩) ⟨bobsKey, false, 30⟩ (by decide)
    List.mem_cons_self rfl fun t ht => ?_
  have hlast : some 30 = some t := ht
  exact Nat.le_of_eq (Option.some.inj hlast).symm

theorem silent_of_revoked_bob :
    (bobIsCutOff.gateway.conns.lookup 0).map (fun conn => conn.sent.map BufferedEvent.data) =
      some [⟨0, some 1, some "MESSAGE_CREATE", 1⟩] ∧
    (bobIsCutOff.gateway.published.map NatsMsg.payload, bobIsCutOff.times) = ([1, 2], [0, 30]) ∧
    Silent bobsKey 30 bobIsCutOff := by
  have hkick : kickMember devSeed hub alice bob = .ok ((), bobIsOut.acl.hub.db) := rfl
  have hno : ¬ bobsKey.Granted bobIsOut.acl.hub.db :=
    not_granted_of_out (Hub.out_of_kickMember hkick).1 (by decide)
  exact ⟨by decide, by decide, silent_of_revoked rfl reach_bobIsOut hno reach_bobIsCutOff⟩

end Kicks

end Chat

end MateHub
