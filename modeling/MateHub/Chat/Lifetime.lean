import MateHub.Chat.Steps

/-!
# How long a session lives

A session is disconnected when `disconnected_at` is set, and the reaper drops it when it
has been so for the TTL. The flag is to say whether a connection is attached, and it does
as long as two things are not done: a connection that cleans up marks its session
disconnected whatever other connection it has (`cleans?`), and one that gives up on the
way – a frame of the handshake cannot be sent, NATS refuses the subscription – marks
nothing (`abandons?`). `MateHub.Chat.Gateway.Orderly` says of a step that it does not do
the first while there is another connection, nor the second while there is none.

In the runs of orderly steps the flag is right in every state
(`MateHub.Chat.Gateway.session_lifetime`), and then the reaper drops the sessions that
it should and no others. A step that is not orderly leaves the flag wrong
(`MateHub.Chat.Gateway.Flag.orderly`).
-/

namespace MateHub

namespace Chat

/-! ### What a connection does to its session -/

namespace Conn

variable {D : Type}

/-- The session that a connection is attached to: from the creation of the session, or
its being marked connected, until the cleanup is done. -/
def attached? (conn : Conn D) : Option SessionId :=
  match conn.phase with
  | .ready sid => some sid
  | .connected sid _ => some sid
  | .replaying sid _ _ => some sid
  | .subscribing sid _ => some sid
  | .running sid _ => some sid
  | .sending sid _ _ => some sid
  | .leaving sid => some sid
  | _ => none

/-- The session that a step of a connection marks disconnected. -/
def cleans? (conn : Conn D) : Gateway.Act D → Option SessionId
  | .advance _ =>
    match conn.phase with
    | .leaving sid => some sid
    | _ => none
  | _ => none

/-- The session that a connection leaves without marking it. -/
def abandons? (conn : Conn D) : Gateway.Act D → Option SessionId
  | .advance _ =>
    match conn.phase with
    | .ready sid => if conn.writer then none else some sid
    | .replaying sid _ _ => if conn.writer then none else some sid
    | _ => none
  | .subscribe _ ok =>
    match conn.phase with
    | .subscribing sid _ => if ok then none else some sid
    | _ => none
  | _ => none

variable {conn : Conn D} {a : Gateway.Act D} {sid : SessionId}

theorem cleans?_eq_some (h : conn.cleans? a = some sid) :
    (∃ c, a = .advance c) ∧ conn.phase = .leaving sid := by
  unfold cleans? at h
  split at h
  · split at h
    · rename_i hp
      exact ⟨⟨_, rfl⟩, Option.some.inj h ▸ hp⟩
    · cases h
  · cases h

/-- The three ways to give up. -/
theorem abandons?_eq_some (h : conn.abandons? a = some sid) :
    (∃ c, a = .advance c ∧ conn.writer = false ∧
      (conn.phase = .ready sid ∨ ∃ replay lastSeq, conn.phase = .replaying sid replay lastSeq)) ∨
    ∃ c seq, a = .subscribe c false ∧ conn.phase = .subscribing sid seq := by
  unfold abandons? at h
  split at h
  · split at h
    · rename_i hp
      split at h
      · cases h
      · rename_i hw
        exact .inl ⟨_, rfl, by simpa using hw, .inl (Option.some.inj h ▸ hp)⟩
    · rename_i hp
      split at h
      · cases h
      · rename_i hw
        exact .inl ⟨_, rfl, by simpa using hw, .inr ⟨_, _, Option.some.inj h ▸ hp⟩⟩
    · cases h
  · split at h
    · rename_i ok _ _ seq hp
      split at h
      · cases h
      · rename_i hok
        obtain rfl : ok = false := by simpa using hok
        exact .inr ⟨_, seq, rfl, Option.some.inj h ▸ hp⟩
    · cases h
  · cases h

end Conn

namespace Gateway

variable {D : Type} {cfg : Config D} {w w' : Gateway D} {a : Act D} {c : ConnId}
  {conn conn' : Conn D} {sid : SessionId}

/-! ### Attached connections -/

/-- Some connection is attached to the session. -/
def Attached (conns : Dict ConnId (Conn D)) (sid : SessionId) : Prop :=
  ∃ e ∈ conns.pairs, e.2.attached? = some sid

/-- Some connection other than `c` is. -/
def Others (conns : Dict ConnId (Conn D)) (c : ConnId) (sid : SessionId) : Prop :=
  ∃ e ∈ conns.pairs, e.1 ≠ c ∧ e.2.attached? = some sid

instance (conns : Dict ConnId (Conn D)) (sid : SessionId) : Decidable (Attached conns sid) :=
  inferInstanceAs (Decidable (∃ e ∈ conns.pairs, e.2.attached? = some sid))

instance (conns : Dict ConnId (Conn D)) (c : ConnId) (sid : SessionId) :
    Decidable (Others conns c sid) :=
  inferInstanceAs (Decidable (∃ e ∈ conns.pairs, e.1 ≠ c ∧ e.2.attached? = some sid))

theorem attached_iff {conns : Dict ConnId (Conn D)} :
    Attached conns sid ↔ ∃ c conn, conns.lookup c = some conn ∧ conn.attached? = some sid :=
  ⟨fun ⟨e, he, h⟩ => ⟨e.1, e.2, Dict.mem_pairs.mp he, h⟩,
    fun ⟨c, conn, hc, h⟩ => ⟨(c, conn), Dict.mem_pairs.mpr hc, h⟩⟩

theorem others_iff {conns : Dict ConnId (Conn D)} : Others conns c sid ↔
    ∃ c' conn, c' ≠ c ∧ conns.lookup c' = some conn ∧ conn.attached? = some sid :=
  ⟨fun ⟨e, he, hne, h⟩ => ⟨e.1, e.2, hne, Dict.mem_pairs.mp he, h⟩,
    fun ⟨c, conn, hne, hc, h⟩ => ⟨(c, conn), Dict.mem_pairs.mpr hc, hne, h⟩⟩

theorem Others.attached {conns : Dict ConnId (Conn D)} (h : Others conns c sid) :
    Attached conns sid :=
  let ⟨e, he, _, hsid⟩ := h
  ⟨e, he, hsid⟩

/-- Being attached, with one connection singled out. -/
theorem attached_iff_of_lookup {conns : Dict ConnId (Conn D)} (hc : conns.lookup c = some conn) :
    Attached conns sid ↔ conn.attached? = some sid ∨ Others conns c sid := by
  rw [attached_iff, others_iff]
  constructor
  · rintro ⟨c', conn', hc', h⟩
    by_cases heq : c' = c
    · subst heq
      rw [hc] at hc'
      exact .inl (Option.some.inj hc' ▸ h)
    · exact .inr ⟨c', conn', heq, hc', h⟩
  · rintro (h | ⟨c', conn', -, hc', h⟩)
    · exact ⟨c, conn, hc, h⟩
    · exact ⟨c', conn', hc', h⟩

theorem attached_iff_of_none {conns : Dict ConnId (Conn D)} (hc : conns.lookup c = none) :
    Attached conns sid ↔ Others conns c sid := by
  refine ⟨fun h => ?_, Others.attached⟩
  obtain ⟨c', conn, hc', h⟩ := attached_iff.mp h
  refine others_iff.mpr ⟨c', conn, ?_, hc', h⟩
  rintro rfl
  rw [hc] at hc'
  cases hc'

theorem others_insert {conns : Dict ConnId (Conn D)} :
    Others (conns.insert c conn) c sid ↔ Others conns c sid := by
  rw [others_iff, others_iff]
  constructor <;> rintro ⟨c', conn', hne, hc', h⟩ <;> refine ⟨c', conn', hne, ?_, h⟩
  · rwa [AList.lookup_insert_ne hne] at hc'
  · rwa [AList.lookup_insert_ne hne]

theorem attached_insert {conns : Dict ConnId (Conn D)} : Attached (conns.insert c conn) sid ↔
    conn.attached? = some sid ∨ Others conns c sid := by
  rw [attached_iff_of_lookup (AList.lookup_insert conns), others_insert]

/-- A connection that changes what it is attached to changes nothing for the others. -/
theorem attached_insert_of_eq {conns : Dict ConnId (Conn D)} (hc : conns.lookup c = some conn)
    (h : conn'.attached? = conn.attached?) :
    Attached (conns.insert c conn') sid ↔ Attached conns sid := by
  rw [attached_insert, attached_iff_of_lookup hc, h]

theorem attached_mapVals {conns : Dict ConnId (Conn D)} {f : ConnId → Conn D → Conn D}
    (hf : ∀ c conn, (f c conn).attached? = conn.attached?) :
    Attached (Dict.mapVals f conns) sid ↔ Attached conns sid := by
  rw [attached_iff, attached_iff]
  constructor
  · rintro ⟨c, conn', hc, h⟩
    rw [Dict.lookup_mapVals, Option.map_eq_some_iff] at hc
    obtain ⟨conn, hc, rfl⟩ := hc
    exact ⟨c, conn, hc, by rwa [hf] at h⟩
  · rintro ⟨c, conn, hc, h⟩
    exact ⟨c, f c conn, by rw [Dict.lookup_mapVals, hc]; rfl, by rw [hf, h]⟩

/-! ### Orderly steps -/

/-- **A step keeps the flag right**: if it cleans up a session of the store, then no
other connection is attached, and if it abandons one, then another is. -/
def Orderly (w : Gateway D) (a : Act D) : Prop :=
  ∀ e ∈ w.conns.pairs, a.conn? = some e.1 →
    (∀ sid ∈ e.2.cleans? a, w.stored sid = true → ¬ Others w.conns e.1 sid) ∧
    ∀ sid ∈ e.2.abandons? a, w.stored sid = true → Others w.conns e.1 sid

instance (w : Gateway D) (a : Act D) : Decidable (Orderly w a) :=
  inferInstanceAs (Decidable (∀ e ∈ w.conns.pairs, a.conn? = some e.1 →
    (∀ sid ∈ e.2.cleans? a, w.stored sid = true → ¬ Others w.conns e.1 sid) ∧
    ∀ sid ∈ e.2.abandons? a, w.stored sid = true → Others w.conns e.1 sid))

/-- A move keeps what the connection is attached to, or abandons it. -/
theorem Move.attached (h : Move cfg w conn a conn') :
    conn'.attached? = conn.attached? ∨
      ∃ sid, conn.abandons? a = some sid ∧ conn.attached? = some sid ∧
        conn'.attached? = none := by
  cases h with
  | writes => exact .inl rfl
  | writerFails => exact .inl rfl
  | greets hp => exact .inl (by simp only [Conn.attached?, hp])
  | finds hp => exact .inl (by simp only [Conn.attached?, hp])
  | rejected hp =>
    obtain hp | ⟨sid, seq, hp⟩ := hp <;> exact .inl (by simp only [Conn.attached?, hp])
  | ends hp => obtain hp | hp := hp <;> exact .inl (by simp only [Conn.attached?, hp])
  | takesReplay hp => exact .inl (by simp only [Conn.attached?, hp])
  | counts hp => exact .inl (by simp only [Conn.attached?, hp])
  | ready hp => exact .inl (by simp only [Conn.attached?, hp])
  | replays hp => exact .inl (by simp only [Conn.attached?, hp])
  | resumed hp => exact .inl (by simp only [Conn.attached?, hp])
  | fails hp hw =>
    obtain hp | ⟨replay, lastSeq, hp⟩ := hp <;>
      exact .inr ⟨_, by simp [Conn.abandons?, hp, hw]; rfl, by simp only [Conn.attached?, hp], rfl⟩
  | subscribes hp => exact .inl (by simp only [Conn.attached?, hp])
  | refused hp =>
    exact .inr ⟨_, by simp [Conn.abandons?, hp]; rfl, by simp only [Conn.attached?, hp], rfl⟩
  | filters => exact .inl rfl
  | forwards => exact .inl rfl
  | sends hp => exact .inl (by simp only [Conn.attached?, hp])
  | leaves hloop =>
    refine .inl ?_
    unfold Conn.loop? at hloop
    split at hloop
    · rename_i sid seq hp
      simp only [Conn.leave, Conn.attached?, hp, ← hloop]
    · rename_i sid seq e hp
      simp only [Conn.leave, Conn.attached?, hp, ← hloop]
    · cases hloop

theorem attached_receive (w : Gateway D) (m : NatsMsg D) (conn : Conn D) :
    (w.receive m conn).attached? = conn.attached? := by
  unfold receive
  split <;> rfl

/-! ### The flag -/

/-- The flag of every session of the store says whether a connection is attached. -/
structure Flag (w : Gateway D) : Prop where
  flag : ∀ sid, w.stored sid = true →
    ∃ s, w.sessions sid = some s ∧ (s.disconnectedAt = none ↔ Attached w.conns sid)
  past : ∀ sid s t, w.sessions sid = some s → s.disconnectedAt = some t → t ≤ w.clock

theorem flag_new : Flag (D := D) .new :=
  ⟨fun _ h => absurd h (by simp [Gateway.new]), fun _ _ _ h => absurd h (by simp [Gateway.new])⟩

/-- Who is attached after a move, to a session of the store. -/
theorem attached_move (hok : Orderly w a) (hc : w.conns.lookup c = some conn)
    (ha : a.conn? = some c) (hm : Move cfg w conn a conn') (hsid : w.stored sid = true) :
    Attached (w.conns.insert c conn') sid ↔ Attached w.conns sid := by
  obtain heq | ⟨left, hleft, hold, hnew⟩ := hm.attached
  · exact attached_insert_of_eq hc heq
  · rw [attached_insert, attached_iff_of_lookup hc, hnew, hold]
    constructor
    · rintro (h | h)
      · cases h
      · exact .inr h
    · rintro (h | h)
      · obtain rfl := Option.some.inj h
        exact .inr ((hok _ (Dict.mem_pairs.mpr hc) ha).2 left hleft hsid)
      · exact .inr h

/-- What is to be said of a step that changes one session. -/
theorem Flag.modifySession (h : Flag w) {f : SessionInner D → SessionInner D}
    (hsessions : w'.sessions = (w.modifySession sid f).sessions) (hstored : w'.stored = w.stored)
    (hclock : w'.clock = w.clock)
    (hflag : ∀ s, w.sessions sid = some s → w.stored sid = true →
      ((f s).disconnectedAt = none ↔ Attached w'.conns sid))
    (hpast : ∀ s t, w.sessions sid = some s → (f s).disconnectedAt = some t → t ≤ w.clock)
    (hrest : ∀ sid', sid' ≠ sid → (Attached w'.conns sid' ↔ Attached w.conns sid')) : Flag w' := by
  refine ⟨fun sid' hsid' => ?_, fun sid' s t hs ht => ?_⟩
  · rw [hstored] at hsid'
    obtain ⟨s, hs, hiff⟩ := h.flag sid' hsid'
    rw [hsessions, sessions_modifySession, hs]
    split
    · rename_i heq
      subst heq
      exact ⟨f s, rfl, hflag s hs hsid'⟩
    · rename_i hne
      exact ⟨s, rfl, by rw [hiff, hrest sid' hne]⟩
  · rw [hsessions, sessions_modifySession] at hs
    rw [hclock]
    split at hs
    · rename_i heq
      subst heq
      obtain ⟨s₀, hs₀, rfl⟩ := Option.map_eq_some_iff.mp hs
      exact hpast s₀ t hs₀ ht
    · exact h.past sid' s t hs ht

/-- **An orderly step keeps the flag right.** -/
theorem Flag.step (h : Flag w) (hok : Orderly w a) (hk : Kind cfg w a w') : Flag w' := by
  cases hk with
  | stays => exact h
  | connects hc =>
    refine ⟨fun sid hsid => ?_, h.past⟩
    obtain ⟨s, hs, hiff⟩ := h.flag sid hsid
    refine ⟨s, hs, hiff.trans ?_⟩
    rw [conns_setConn, attached_insert, attached_iff_of_none hc]
    exact (or_iff_right (by simp [Conn.attached?])).symm
  | moves hc ha hm =>
    refine ⟨fun sid hsid => ?_, h.past⟩
    obtain ⟨s, hs, hiff⟩ := h.flag sid hsid
    exact ⟨s, hs, hiff.trans (attached_move hok hc ha hm hsid).symm⟩
  | @identifies c conn token sid claims hc hp hs =>
    have hrest {sid' : SessionId} (hne : sid' ≠ sid) :
        Attached (w.conns.insert c { conn with phase := .ready sid, session := some sid }) sid' ↔
          Attached w.conns sid' := by
      rw [attached_insert, attached_iff_of_lookup hc]
      simp [Conn.attached?, hp, hne.symm]
    refine ⟨fun sid' hsid' => ?_, fun sid' s t hs' ht => ?_⟩
    · dsimp only [setConn, create] at hsid' ⊢
      by_cases heq : sid' = sid
      · subst heq
        refine ⟨_, Function.update_self _ _ _, iff_of_true rfl ?_⟩
        exact attached_insert.mpr (.inl rfl)
      · rw [Function.update_of_ne heq] at hsid'
        rw [Function.update_of_ne heq, hrest heq]
        exact h.flag sid' hsid'
    · dsimp only [setConn, create] at hs' ⊢
      by_cases heq : sid' = sid
      · subst heq
        rw [Function.update_self] at hs'
        rw [← Option.some.inj hs'] at ht
        cases ht
      · rw [Function.update_of_ne heq] at hs'
        exact h.past sid' s t hs' ht
  | @marksConnected c conn sid replay hc hp =>
    refine h.modifySession rfl rfl rfl (fun s hs _ => iff_of_true rfl ?_) (fun s t _ ht => ?_)
      fun sid' hne => ?_
    · exact attached_insert.mpr (.inl rfl)
    · cases ht
    · refine attached_insert.trans (.trans ?_ (attached_iff_of_lookup hc).symm)
      simp [Conn.attached?, hp, hne.symm]
  | @marksDisconnected c conn sid hc hp =>
    refine h.modifySession rfl rfl rfl
      (fun s hs hsid => iff_of_false (by simp [SessionInner.markDisconnected]) ?_)
      (fun s t _ ht => ?_) fun sid' hne => ?_
    · rintro hatt
      obtain hno | hothers := attached_insert.mp hatt
      · cases hno
      · exact (hok _ (Dict.mem_pairs.mpr hc) rfl).1 sid (by simp [Conn.cleans?, hp]) hsid hothers
    · rw [← Option.some.inj ht]
    · refine attached_insert.trans (.trans ?_ (attached_iff_of_lookup hc).symm)
      simp [Conn.attached?, hp, hne.symm]
  | @dispatches c conn sid seq origin e rest hc hp hq =>
    have hsame (sid' : SessionId) : Attached (w.conns.insert c { conn with
        phase := .sending sid (seq + 1) (numberedEvent (seq + 1) origin e)
        dispatchQueue := rest }) sid' ↔ Attached w.conns sid' :=
      attached_insert_of_eq hc (by simp only [Conn.attached?, hp])
    refine h.modifySession rfl rfl rfl (fun s hs hsid => ?_) (fun s t hs ht => h.past sid s t hs ht)
      fun sid' _ => hsame sid'
    obtain ⟨s', hs', hiff⟩ := h.flag sid hsid
    obtain rfl := Option.some.inj (hs'.symm.trans hs)
    exact hiff.trans (hsame sid).symm
  | @publishes m =>
    refine ⟨fun sid hsid => ?_, h.past⟩
    obtain ⟨s, hs, hiff⟩ := h.flag sid hsid
    exact ⟨s, hs, hiff.trans (attached_mapVals fun _ conn => attached_receive w m conn).symm⟩
  | @elapses d =>
    exact ⟨h.flag, fun sid s t hs ht => Nat.le_trans (h.past sid s t hs ht) (Nat.le_add_right _ d)⟩
  | reaps =>
    refine ⟨fun sid hsid => ?_, h.past⟩
    rw [reapExpired, Bool.and_eq_true] at hsid
    exact h.flag sid hsid.1

theorem flag_of_reach (h : (system cfg).Reach Orderly w) : Flag w :=
  h.invariant (fun s hs => by rw [show s = .new from hs]; exact flag_new)
    fun _ _ _ hw hok hst => hw.step hok (kind_of_step hst)

/-- **The condition is exact**: where the flag is right, a step that leaves it right is
orderly. -/
theorem Flag.orderly (h : Flag w) (h' : Flag (w.next cfg a)) : Orderly w a := by
  rintro ⟨c, conn⟩ he ha
  have hc : w.conns.lookup c = some conn := Dict.mem_pairs.mp he
  refine ⟨fun sid hsid hstored hothers => ?_, fun sid hsid hstored => ?_⟩
  · -- the session is marked disconnected, and whoever is attached stays so
    obtain ⟨⟨c', rfl⟩, hp⟩ := Conn.cleans?_eq_some hsid
    obtain rfl : c' = c := Option.some.inj ha
    have hnext : w.next cfg (.advance c') =
        (w.modifySession sid fun s => s.markDisconnected w.clock).setPhase c' conn .done := by
      simp only [next, ofConn, hc, advance, show conn.phase = .leaving sid from hp]
    rw [hnext] at h'
    obtain ⟨s, hs, hiff⟩ := h'.flag sid hstored
    have hs' := (sessions_modifySession w sid sid _).symm.trans hs
    rw [if_pos rfl, Option.map_eq_some_iff] at hs'
    obtain ⟨s₀, -, rfl⟩ := hs'
    cases hiff.mpr (attached_insert.mpr (.inr hothers))
  · -- the session keeps its mark, and the connection is gone
    obtain ⟨s, hs, hiff⟩ := h.flag sid hstored
    have gone (conn' : Conn D) (hnext : w.next cfg a = w.setConn c conn')
        (hatt : conn.attached? = some sid) (hnone : conn'.attached? = none) :
        Others w.conns c sid := by
      rw [hnext] at h'
      obtain ⟨s', hs', hiff'⟩ := h'.flag sid hstored
      obtain rfl := Option.some.inj (hs.symm.trans hs')
      have hbefore : Attached w.conns sid := (attached_iff_of_lookup hc).mpr (.inl hatt)
      obtain hno | hothers := attached_insert.mp (hiff'.mp (hiff.mpr hbefore))
      · rw [hnone] at hno
        cases hno
      · exact hothers
    obtain ⟨c', rfl, hw, hp | ⟨replay, lastSeq, hp⟩⟩ | ⟨c', seq, rfl, hp⟩ :=
      Conn.abandons?_eq_some hsid <;> obtain rfl : c' = c := Option.some.inj ha <;>
      dsimp only at hp
    · refine gone { conn with phase := .done } ?_ (by rw [Conn.attached?, hp]) rfl
      simp only [next, ofConn, hc, advance, hp, hs, send]
      exact if_pos (by simpa using hw)
    · refine gone { conn with phase := .done } ?_ (by rw [Conn.attached?, hp]) rfl
      cases replay <;> simp only [next, ofConn, hc, advance, hp, send] <;>
        exact if_pos (by simpa using hw)
    · refine gone { conn with phase := .done, writer := false } ?_
        (by rw [Conn.attached?, hp]) rfl
      simp only [next, ofConn, hc, subscribe, hp]
      exact if_neg (by simp)

/-! ### The reaper -/

/-- A session of the store with a connection survives the reaper. -/
theorem Flag.live (h : Flag w) (hsid : w.stored sid = true) (hatt : Attached w.conns sid) :
    (w.next cfg .reap).stored sid = true := by
  obtain ⟨s, hs, hiff⟩ := h.flag sid hsid
  simp only [next, reapExpired, hs, hsid, Bool.true_and]
  rw [SessionInner.keeps, hiff.mpr hatt]

/-- A step keeps the mark of a session, unless a connection is attached before or after;
and no session returns to the store. -/
theorem Kind.mark (hk : Kind cfg w a w') {s : SessionInner D} (hs : w.sessions sid = some s) :
    (w'.stored sid = true → w.stored sid = true) ∧ ∃ s', w'.sessions sid = some s' ∧
      (s'.disconnectedAt = s.disconnectedAt ∨ Attached w.conns sid ∨ Attached w'.conns sid) := by
  cases hk with
  | stays => exact ⟨id, s, hs, .inl rfl⟩
  | connects => exact ⟨id, s, hs, .inl rfl⟩
  | moves => exact ⟨id, s, hs, .inl rfl⟩
  | @identifies c conn token sid' claims hc hp hnone =>
    have hne : sid ≠ sid' := by
      rintro rfl
      rw [hnone] at hs
      cases hs
    refine ⟨fun h => ?_, s, (Function.update_of_ne hne _ _).trans hs, .inl rfl⟩
    exact (Function.update_of_ne hne _ _).symm.trans h
  | @marksConnected c conn sid' replay hc hp =>
    refine ⟨id, ?_⟩
    by_cases heq : sid = sid'
    · subst heq
      exact ⟨s.markConnected, by simp [setPhase, hs], .inr (.inr (attached_insert.mpr (.inl rfl)))⟩
    · exact ⟨s, by simp [setPhase, hs, heq], .inl rfl⟩
  | @marksDisconnected c conn sid' hc hp =>
    refine ⟨id, ?_⟩
    by_cases heq : sid = sid'
    · subst heq
      refine ⟨s.markDisconnected w.clock, by simp [setPhase, hs], .inr (.inl ?_)⟩
      exact (attached_iff_of_lookup hc).mpr (.inl (by rw [Conn.attached?, hp]))
    · exact ⟨s, by simp [setPhase, hs, heq], .inl rfl⟩
  | @dispatches c conn sid' seq origin e rest hc hp hq =>
    have hs' := sessions_modifySession w sid' sid fun s =>
      s.push cfg.bytes (numberedEvent (seq + 1) origin e)
    refine ⟨id, ?_⟩
    by_cases heq : sid = sid'
    · rw [if_pos heq, hs] at hs'
      exact ⟨s.push cfg.bytes (numberedEvent (seq + 1) origin e), hs', .inl rfl⟩
    · rw [if_neg heq, hs] at hs'
      exact ⟨s, hs', .inl rfl⟩
  | publishes => exact ⟨id, s, hs, .inl rfl⟩
  | elapses => exact ⟨id, s, hs, .inl rfl⟩
  | reaps => exact ⟨fun h => (Bool.and_eq_true _ _ ▸ h).1, s, hs, .inl rfl⟩

/-- **A session whose connections are gone expires**: once the TTL has passed without a
connection, the reaper drops it. -/
theorem Flag.expires (h : Flag w) (hsid : w.stored sid = true) (hgone : ¬ Attached w.conns sid)
    (hrun : ((system cfg).startingAt w).Reach
      (fun u a => Orderly u a ∧ ¬ Attached u.conns sid) w')
    (hgone' : ¬ Attached w'.conns sid) (httl : w.clock + sessionTtl ≤ w'.clock) :
    (w'.next cfg .reap).stored sid = false := by
  -- along the run the mark stays the one that the session has at the start
  have hinv : ∃ s, w'.sessions sid = some s ∧ (Attached w'.conns sid ∨
      ∃ t, s.disconnectedAt = some t ∧ t ≤ w.clock) := by
    refine hrun.invariant (I := fun u => ∃ s, u.sessions sid = some s ∧ (Attached u.conns sid ∨
      ∃ t, s.disconnectedAt = some t ∧ t ≤ w.clock)) ?_ fun u a u' ⟨s, hs, hu⟩ hok hst => ?_
    · rintro u rfl
      obtain ⟨s, hs, hiff⟩ := h.flag sid hsid
      obtain ⟨t, ht⟩ := Option.ne_none_iff_exists'.mp fun hnone => hgone (hiff.mp hnone)
      exact ⟨s, hs, .inr ⟨t, ht, h.past sid s t hs ht⟩⟩
    · -- no connection is attached before the step
      obtain ⟨t, ht, hle⟩ := hu.resolve_left hok.2
      obtain ⟨-, s', hs', hmark | hatt | hatt⟩ := (kind_of_step hst).mark hs
      · exact ⟨s', hs', .inr ⟨t, hmark.trans ht, hle⟩⟩
      · exact absurd hatt hok.2
      · exact ⟨s', hs', .inl hatt⟩
  obtain ⟨s, hs, hmark⟩ := hinv
  obtain ⟨t, ht, hle⟩ := hmark.resolve_left hgone'
  have hold : sessionTtl ≤ w'.clock - t := Nat.le_sub_of_add_le <| calc
    sessionTtl + t ≤ sessionTtl + w.clock := Nat.add_le_add_left hle sessionTtl
    _ = w.clock + sessionTtl := Nat.add_comm _ _
    _ ≤ w'.clock := httl
  have hkeeps : s.keeps w'.clock = false := by
    rw [SessionInner.keeps, ht]
    exact decide_eq_false (Nat.not_lt.mpr hold)
  simp only [next, reapExpired, hs, hkeeps, Bool.and_false]

/-- The lifetime of sessions, in one state: the flag is right, the reaper keeps the
sessions with a connection, and drops those that have had none for the TTL. -/
structure Lifetime (cfg : Config D) (w : Gateway D) : Prop where
  flag : ∀ sid, w.stored sid = true →
    ∃ s, w.sessions sid = some s ∧ (s.disconnectedAt = none ↔ Attached w.conns sid)
  live : ∀ sid, w.stored sid = true → Attached w.conns sid →
    (w.next cfg .reap).stored sid = true
  expires : ∀ sid w', w.stored sid = true → ¬ Attached w.conns sid →
    ((system cfg).startingAt w).Reach (fun u a => Orderly u a ∧ ¬ Attached u.conns sid) w' →
    ¬ Attached w'.conns sid → w.clock + sessionTtl ≤ w'.clock →
    (w'.next cfg .reap).stored sid = false

/-- **The lifetime of sessions**, in every state of the runs of orderly steps. -/
theorem session_lifetime (h : (system cfg).Reach Orderly w) : Lifetime cfg w :=
  have hflag := flag_of_reach h
  ⟨hflag.flag, fun _ hsid hatt => hflag.live hsid hatt,
    fun _ _ hsid hgone hrun hgone' httl => hflag.expires hsid hgone hrun hgone' httl⟩

/-- A client reconnects after its connection is closed, and goes. -/
theorem session_lifetime_reconnect : Lifetime openGateway (after (identifies 0 "s" ++
    [.subscribe 0 true, .close 0, .advance 0] ++ resumes 1 "s" 0 0 ++
    [.subscribe 1 true, .close 1, .advance 1])) :=
  session_lifetime (System.Reach.foldl (M := system openGateway) Step.next (.start rfl) (by decide))

/-- **The flag can be wrong both ways.** NATS refuses the subscription of the only
connection, and the session stays for good; or a client resumes while its older
connection is open, that one goes, and the reaper drops the session being served. -/
theorem lifetime_lost :
    (∃ w, (system openGateway).Reachable w ∧ w.stored "s" = true ∧ ¬ Attached w.conns "s" ∧
      (w.sessions "s").any (fun s => s.disconnectedAt = none) = true ∧
      ¬ Lifetime openGateway w) ∧
    ∃ w, (system openGateway).Reachable w ∧ w.stored "s" = true ∧ Attached w.conns "s" ∧
      (w.next openGateway .reap).stored "s" = false ∧ ¬ Lifetime openGateway w := by
  refine ⟨⟨after (identifies 0 "s" ++ [.subscribe 0 false]), reachable_after _, by decide,
    by decide, by decide, fun h => ?_⟩,
    ⟨after (identifies 0 "s" ++ [.subscribe 0 true] ++ resumes 1 "s" 0 0 ++
      [.subscribe 1 true, .close 0, .advance 0, .elapse sessionTtl]), reachable_after _, by decide,
    by decide, by decide, fun h => ?_⟩⟩
  · obtain ⟨s, hs, hiff⟩ := h.flag "s" (by decide)
    exact absurd (hiff.mp (by cases hs; rfl)) (by decide)
  · exact absurd (h.live "s" (by decide) (by decide)) (by decide)

end Gateway

end Chat

end MateHub
