import MateHub.Chat.Gateway

/-!
# What a step of the gateway can do

A step of the gateway changes one connection, or one connection and one session, or it
is a publication, the clock or the reaper. `MateHub.Chat.Gateway.Kind` lists the cases
with all they say about the state before and after, and `MateHub.Chat.Gateway.kind_of_step`
says that there are no others; the results about the gateway are proved by cases on it.
-/

namespace MateHub

namespace Chat

namespace Gateway

variable {D : Type} {cfg : Config D} {w w' : Gateway D} {a : Act D}

/-! ### Reading after writing -/

@[simp] theorem conns_setConn (w : Gateway D) (c : ConnId) (conn : Conn D) :
    (w.setConn c conn).conns = w.conns.insert c conn := rfl

@[simp] theorem sessions_setConn (w : Gateway D) (c : ConnId) (conn : Conn D) :
    (w.setConn c conn).sessions = w.sessions := rfl

@[simp] theorem stored_setConn (w : Gateway D) (c : ConnId) (conn : Conn D) :
    (w.setConn c conn).stored = w.stored := rfl

@[simp] theorem dispatched_setConn (w : Gateway D) (c : ConnId) (conn : Conn D) :
    (w.setConn c conn).dispatched = w.dispatched := rfl

@[simp] theorem published_setConn (w : Gateway D) (c : ConnId) (conn : Conn D) :
    (w.setConn c conn).published = w.published := rfl

@[simp] theorem clock_setConn (w : Gateway D) (c : ConnId) (conn : Conn D) :
    (w.setConn c conn).clock = w.clock := rfl

@[simp] theorem conns_modifySession (w : Gateway D) (sid : SessionId)
    (f : SessionInner D → SessionInner D) : (w.modifySession sid f).conns = w.conns := rfl

@[simp] theorem stored_modifySession (w : Gateway D) (sid : SessionId)
    (f : SessionInner D → SessionInner D) : (w.modifySession sid f).stored = w.stored := rfl

@[simp] theorem sessions_modifySession (w : Gateway D) (sid sid' : SessionId)
    (f : SessionInner D → SessionInner D) : (w.modifySession sid f).sessions sid' =
      if sid' = sid then (w.sessions sid').map f else w.sessions sid' := by
  refine (Function.update_apply _ _ _ _).trans ?_
  split
  · rename_i h
    rw [h]
  · rfl

/-! ### The moves of a connection -/

/-- The connection that takes a step. -/
def Act.conn? : Act D → Option ConnId
  | .connect c => some c
  | .advance c => some c
  | .identify c _ _ => some c
  | .resume c _ _ => some c
  | .authFails c => some c
  | .subscribe c _ => some c
  | .forward c _ => some c
  | .dispatch c => some c
  | .close c => some c
  | .write c => some c
  | .writerFails c => some c
  | .publish _ => none
  | .elapse _ => none
  | .reap => none

/-- A step of a connection that changes nothing else. -/
inductive Move (cfg : Config D) (w : Gateway D) (conn : Conn D) : Act D → Conn D → Prop
  | writes {c : ConnId} {frame : Frame D} {rest : List (Frame D)} : conn.out = frame :: rest →
      conn.writer = true → Move cfg w conn (.write c)
        { conn with out := rest, delivered := conn.delivered ++ [frame] }
  | writerFails {c : ConnId} : Move cfg w conn (.writerFails c) { conn with writer := false }
  /-- Before it has a session. -/
  | greets {c : ConnId} {frame : GatewayEvent D} : conn.phase = .hello →
      Move cfg w conn (.advance c)
        { conn with out := conn.out ++ [.control frame], phase := .auth }
  | finds {c : ConnId} {sid : SessionId} {seq : ℕ} : conn.phase = .auth → w.stored sid = true →
      Move cfg w conn (.resume c sid seq) { conn with phase := .found sid seq }
  | rejected {a : Act D} : (conn.phase = .auth ∨ ∃ sid seq, conn.phase = .found sid seq) →
      Move cfg w conn a { conn with phase := .rejecting }
  | ends {c : ConnId} {out : List (Frame D)} : (conn.phase = .hello ∨ conn.phase = .rejecting) →
      (out = conn.out ∨ ∃ frame, out = conn.out ++ [.control frame]) →
      Move cfg w conn (.advance c) { conn with out := out, phase := .done }
  | takesReplay {c : ConnId} {sid : SessionId} {seq : ℕ} {s : SessionInner D}
      {replay : List (BufferedEvent D)} : conn.phase = .found sid seq →
      w.sessions sid = some s → s.replayFrom seq = some replay →
      Move cfg w conn (.advance c)
        { conn with phase := .replayed sid replay, session := some sid, resumedFrom := some seq }
  /-- On the way into the loop. -/
  | counts {c : ConnId} {sid : SessionId} {replay : List (BufferedEvent D)} :
      conn.phase = .connected sid replay →
      Move cfg w conn (.advance c) { conn with
        phase := .replaying sid replay (((w.sessions sid).map SessionInner.lastSeq).getD 0) }
  | ready {c : ConnId} {sid : SessionId} {frame : GatewayEvent D} : conn.phase = .ready sid →
      conn.writer = true →
      Move cfg w conn (.advance c)
        { conn with out := conn.out ++ [.control frame], phase := .subscribing sid 0 }
  | replays {c : ConnId} {sid : SessionId} {e : BufferedEvent D}
      {replay : List (BufferedEvent D)} {lastSeq : ℕ} :
      conn.phase = .replaying sid (e :: replay) lastSeq → conn.writer = true →
      Move cfg w conn (.advance c)
        { conn with out := conn.out ++ [.event e], phase := .replaying sid replay lastSeq }
  | resumed {c : ConnId} {sid : SessionId} {frame : GatewayEvent D} {lastSeq : ℕ} :
      conn.phase = .replaying sid [] lastSeq → conn.writer = true →
      Move cfg w conn (.advance c)
        { conn with out := conn.out ++ [.control frame], phase := .subscribing sid lastSeq }
  /-- A frame of the handshake cannot be sent. -/
  | fails {c : ConnId} {sid : SessionId} :
      (conn.phase = .ready sid ∨ ∃ replay lastSeq, conn.phase = .replaying sid replay lastSeq) →
      conn.writer = false → Move cfg w conn (.advance c) { conn with phase := .done }
  | subscribes {c : ConnId} {sid : SessionId} {seq : ℕ} : conn.phase = .subscribing sid seq →
      Move cfg w conn (.subscribe c true) { conn with phase := .running sid seq }
  | refused {c : ConnId} {sid : SessionId} {seq : ℕ} : conn.phase = .subscribing sid seq →
      Move cfg w conn (.subscribe c false) { conn with phase := .done, writer := false }
  /-- In the loop. -/
  | filters {c : ConnId} {allowed : Bool} {sid : SessionId} {s : SessionInner D} {origin : ℕ}
      {m : NatsMsg D} {rest : List (ℕ × NatsMsg D)} : conn.loop? = some sid →
      w.sessions sid = some s → conn.inbox = (origin, m) :: rest → eventOf allowed m = none →
      Move cfg w conn (.forward c allowed) { conn with inbox := rest }
  | forwards {c : ConnId} {allowed : Bool} {sid : SessionId} {s : SessionInner D} {origin : ℕ}
      {m : NatsMsg D} {rest : List (ℕ × NatsMsg D)} {e : GatewayEvent D} : conn.loop? = some sid →
      w.sessions sid = some s → conn.inbox = (origin, m) :: rest → eventOf allowed m = some e →
      Move cfg w conn (.forward c allowed)
        { conn with inbox := rest, dispatchQueue := conn.dispatchQueue ++ [(origin, e)] }
  | sends {c : ConnId} {sid : SessionId} {seq : ℕ} {e : BufferedEvent D} :
      conn.phase = .sending sid seq e → conn.writer = true →
      Move cfg w conn (.advance c)
        { conn with out := conn.out ++ [.event e], phase := .running sid seq }
  | leaves {a : Act D} {sid : SessionId} : conn.loop? = some sid →
      Move cfg w conn a (conn.leave sid)

/-- **The kinds of steps of the gateway.** -/
inductive Kind (cfg : Config D) (w : Gateway D) : Act D → Gateway D → Prop
  | stays {a : Act D} : Kind cfg w a w
  | connects {c : ConnId} : w.conns.lookup c = none → Kind cfg w (.connect c) (w.setConn c {})
  | moves {a : Act D} {c : ConnId} {conn conn' : Conn D} : w.conns.lookup c = some conn →
      a.conn? = some c → Move cfg w conn a conn' → Kind cfg w a (w.setConn c conn')
  | identifies {c : ConnId} {conn : Conn D} {token : String} {sid : SessionId} {claims : Claims} :
      w.conns.lookup c = some conn → conn.phase = .auth → w.sessions sid = none →
      Kind cfg w (.identify c token sid)
        ((w.create sid claims (natsSubject claims.hubId)).setConn c
          { conn with phase := .ready sid, session := some sid })
  | marksConnected {c : ConnId} {conn : Conn D} {sid : SessionId}
      {replay : List (BufferedEvent D)} : w.conns.lookup c = some conn →
      conn.phase = .replayed sid replay →
      Kind cfg w (.advance c)
        ((w.modifySession sid SessionInner.markConnected).setPhase c conn (.connected sid replay))
  | marksDisconnected {c : ConnId} {conn : Conn D} {sid : SessionId} :
      w.conns.lookup c = some conn → conn.phase = .leaving sid →
      Kind cfg w (.advance c)
        ((w.modifySession sid fun s => s.markDisconnected w.clock).setPhase c conn .done)
  | dispatches {c : ConnId} {conn : Conn D} {sid : SessionId} {seq origin : ℕ}
      {e : GatewayEvent D} {rest : List (ℕ × GatewayEvent D)} : w.conns.lookup c = some conn →
      conn.phase = .running sid seq → conn.dispatchQueue = (origin, e) :: rest →
      Kind cfg w (.dispatch c)
        ((w.buffer cfg sid (numberedEvent (seq + 1) origin e)).setConn c
          { conn with
            phase := .sending sid (seq + 1) (numberedEvent (seq + 1) origin e)
            dispatchQueue := rest })
  | publishes {m : NatsMsg D} : Kind cfg w (.publish m) (w.publish m)
  | elapses {d : ℕ} : Kind cfg w (.elapse d) { w with clock := w.clock + d }
  | reaps : Kind cfg w .reap w.reapExpired

/-- Sending hands the frame over, fails, or waits. -/
theorem kind_send {c : ConnId} {conn : Conn D} (frame : Frame D)
    {next failed : Phase D}
    (hwait : Kind cfg w a w)
    (hfail : conn.writer = false → Kind cfg w a (w.setPhase c conn failed))
    (hsend : conn.writer = true →
      Kind cfg w a (w.setConn c { conn with out := conn.out ++ [frame], phase := next })) :
    Kind cfg w a (w.send c conn frame next failed) := by
  unfold send
  split
  · rename_i hw
    exact hfail (by simpa using hw)
  · rename_i hw
    split
    · exact hsend (by simpa using hw)
    · exact hwait

theorem kind_advance {c : ConnId} {conn : Conn D} (hc : w.conns.lookup c = some conn) :
    Kind cfg w (.advance c) (w.advance cfg c conn) := by
  have moves {conn' : Conn D} (hm : Move cfg w conn (.advance c) conn') :
      Kind cfg w (.advance c) (w.setConn c conn') := .moves hc rfl hm
  unfold advance
  split
  · rename_i hp
    exact kind_send _ .stays (fun _ => moves (.ends (.inl hp) (.inl rfl)))
      fun _ => moves (.greets hp)
  · exact .stays
  · rename_i sid hp
    split
    · exact .stays
    · exact kind_send _ .stays (fun hw => moves (.fails (.inl hp) hw)) fun hw => moves (.ready hp hw)
  · rename_i sid seq hp
    unfold takeReplay
    split
    · exact moves (.rejected (.inr ⟨sid, seq, hp⟩))
    · rename_i replay hr
      obtain ⟨s, hs, hr⟩ := Option.bind_eq_some_iff.mp hr
      exact moves (.takesReplay hp hs hr)
  · rename_i sid replay hp
    exact .marksConnected hc hp
  · rename_i sid replay hp
    exact moves (.counts hp)
  · rename_i sid e replay lastSeq hp
    exact kind_send _ .stays (fun hw => moves (.fails (.inr ⟨_, _, hp⟩) hw))
      fun hw => moves (.replays hp hw)
  · rename_i sid lastSeq hp
    exact kind_send _ .stays (fun hw => moves (.fails (.inr ⟨_, _, hp⟩) hw))
      fun hw => moves (.resumed hp hw)
  · exact .stays
  · exact .stays
  · rename_i sid seq e hp
    split
    · rename_i hw
      exact kind_send _ .stays (fun hno => absurd hw (by simp [hno])) fun hw => moves (.sends hp hw)
    · exact moves (.leaves (by rw [Conn.loop?, hp]))
  · rename_i sid hp
    exact .marksDisconnected hc hp
  · rename_i hp
    exact kind_send _ .stays (fun _ => moves (.ends (.inr hp) (.inl rfl)))
      fun _ => moves (.ends (.inr hp) (.inr ⟨_, rfl⟩))
  · exact .stays

theorem kind_forward {c : ConnId} {conn : Conn D} (allowed : Bool)
    (hc : w.conns.lookup c = some conn) :
    Kind cfg w (.forward c allowed) (w.forward c allowed conn) := by
  unfold forward
  split
  · rename_i origin m rest s hin hs
    obtain ⟨sid, hloop, hs⟩ := Option.bind_eq_some_iff.mp hs
    split
    · rename_i hnone
      exact .moves hc rfl (.filters hloop hs hin hnone)
    · rename_i e hsome
      split
      · exact .moves hc rfl (.forwards hloop hs hin hsome)
      · exact .stays
  · exact .stays

/-- **Every step of the gateway is of one of these kinds.** -/
theorem kind_of_step (h : Step cfg w a w') : Kind cfg w a w' := by
  cases h
  have ofConn {a : Act D} {c : ConnId} {f : Conn D → Gateway D}
      (h : ∀ conn, w.conns.lookup c = some conn → Kind cfg w a (f conn)) :
      Kind cfg w a (w.ofConn c f) := by
    unfold Gateway.ofConn
    split
    · exact .stays
    · rename_i conn hc
      exact h conn hc
  cases a with
  | connect c =>
    dsimp only [next]
    split
    · exact .stays
    · rename_i hc
      exact .connects hc
  | advance c => exact ofConn fun conn hc => kind_advance hc
  | identify c token sid =>
    refine ofConn fun conn hc => ?_
    split
    · rename_i hp
      unfold identify
      split
      · exact .moves hc rfl (.rejected (.inl hp))
      · split
        · exact .stays
        · rename_i hs
          exact .identifies hc hp hs
    · exact .stays
  | resume c sid seq =>
    refine ofConn fun conn hc => ?_
    split
    · rename_i hp
      unfold resume
      split
      · rename_i hs
        exact .moves hc rfl (.finds hp hs)
      · exact .moves hc rfl (.rejected (.inl hp))
    · exact .stays
  | authFails c =>
    refine ofConn fun conn hc => ?_
    split
    · rename_i hp
      exact .moves hc rfl (.rejected (.inl hp))
    · exact .stays
  | subscribe c ok =>
    refine ofConn fun conn hc => ?_
    unfold subscribe
    split
    · rename_i sid seq hp
      cases ok with
      | true => exact .moves hc rfl (.subscribes hp)
      | false => exact .moves hc rfl (.refused hp)
    · exact .stays
  | forward c allowed => exact ofConn fun conn hc => kind_forward allowed hc
  | dispatch c =>
    refine ofConn fun conn hc => ?_
    unfold dispatch
    split
    · rename_i sid seq origin e rest hp hq
      exact .dispatches hc hp hq
    · exact .stays
  | close c =>
    refine ofConn fun conn hc => ?_
    unfold close
    split
    · rename_i sid seq hp
      exact .moves hc rfl (.leaves (by rw [Conn.loop?, hp]))
    · exact .stays
  | write c =>
    refine ofConn fun conn hc => ?_
    split
    · rename_i frame rest hout
      split
      · rename_i hw
        exact .moves hc rfl (.writes hout hw)
      · exact .stays
    · exact .stays
  | writerFails c => exact ofConn fun conn hc => .moves hc rfl .writerFails
  | publish m => exact .publishes
  | elapse d => exact .elapses
  | reap => exact .reaps

/-- A session stays, with its claims and its subscription. -/
theorem Kind.session (hk : Kind cfg w a w') {sid : SessionId} {s : SessionInner D}
    (hs : w.sessions sid = some s) : ∃ s', w'.sessions sid = some s' ∧ s'.claims = s.claims ∧
      s'.natsSubject = s.natsSubject := by
  have modified (sid' : SessionId) (f : SessionInner D → SessionInner D)
      (hclaims : (f s).claims = s.claims) (hsubject : (f s).natsSubject = s.natsSubject) :
      ∃ s', (w.modifySession sid' f).sessions sid = some s' ∧ s'.claims = s.claims ∧
        s'.natsSubject = s.natsSubject := by
    rw [sessions_modifySession, hs]
    split
    · exact ⟨f s, rfl, hclaims, hsubject⟩
    · exact ⟨s, rfl, rfl, rfl⟩
  cases hk with
  | @identifies c conn token sid' claims hc hp hnone =>
    have hne : sid ≠ sid' := by
      rintro rfl
      rw [hnone] at hs
      cases hs
    exact ⟨s, (Function.update_of_ne hne _ _).trans hs, rfl, rfl⟩
  | marksConnected => exact modified _ _ rfl rfl
  | marksDisconnected => exact modified _ _ rfl rfl
  | dispatches => exact modified _ _ rfl rfl
  | _ => exact ⟨s, hs, rfl, rfl⟩

/-! ### Short runs -/

/-- A gateway where every token is that of one user. -/
def openGateway : Config ℕ where
  verifyToken := fun _ => some ⟨i64 7, "user", i64 1⟩
  bytes := fun _ => 1
  null := 0
  helloPayload := 0
  readyPayload := fun _ _ => 0
  invalidPayload := 0

/-- A message on channel 2 of hub 1. -/
def messageOn2 (payload : ℕ) : NatsMsg ℕ :=
  ⟨publishMessage (i64 1) (i64 2), payload⟩

/-- A connection identifies itself and gets READY. -/
def identifies (c : ConnId) (sid : SessionId) : List (Act ℕ) :=
  [.connect c, .advance c, .identify c "token" sid, .advance c]

/-- A connection resumes a session and gets `k` events of the replay, and RESUMED. -/
def resumes (c : ConnId) (sid : SessionId) (seq k : ℕ) : List (Act ℕ) :=
  [.connect c, .advance c, .resume c sid seq] ++ List.replicate (k + 4) (.advance c)

/-- An event on the subscription of a connection is let through, buffered and sent. -/
def serves (c : ConnId) : List (Act ℕ) := [.forward c true, .dispatch c, .advance c, .write c]

/-- The state after a run. -/
def after (acts : List (Act ℕ)) : Gateway ℕ := acts.foldl (next openGateway) .new

theorem reachable_after (acts : List (Act ℕ)) : (system openGateway).Reachable (after acts) :=
  System.reachable_foldl (M := system openGateway) rfl Step.next acts

end Gateway

end Chat

end MateHub
