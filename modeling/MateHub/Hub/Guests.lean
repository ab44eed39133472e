import MateHub.Hub.Groups
import MateHub.Hub.Invites
import MateHub.Lib.Tasks

/-!
# Revoking guests while they join

`join_via_token` looks the guest up before it opens its transaction, and the transaction
does not look again: it inserts the memberships and sets the session of the guest. Between
the two, `revoke_temp_user` may set `revoked_at`. The join then commits all the same
(`MateHub.Hub.joined_after_revocation`), and the guest is a member, with a token that lasts
until the old end of the invitation, although nobody admits the guest any more.

As in `MateHub.Hub.InviteStore`, a request is a task, whose transaction writes when it
commits; until then it holds the keys of the rows that it has inserted and the row of the
guest that it has updated. In the runs in which no guest is revoked between the lookup and
the update of a join (`MateHub.Hub.GuestStore.Clear`), a revocation is final
(`MateHub.Hub.revocation_wins`).
-/

namespace MateHub

namespace Hub

open Chat (I64 i64)

/-! ### The shared state -/

/-- What happens to the guests. -/
inductive GuestEvent
  /-- A join of the guest commits. -/
  | joined (i : ℕ) (userId : I64)
  | revoked (userId : I64)
  deriving DecidableEq

/-- The committed database, and what the open transactions hold. -/
structure GuestStore where
  db : Db
  now : Time
  /-- The memberships that are inserted, and not committed: in the hub, or in a group. -/
  keys : List (ℕ × I64 × Option I64)
  /-- The guests whose rows are held. -/
  locks : List (ℕ × I64)
  /-- What has happened, latest first. -/
  log : List GuestEvent

namespace GuestStore

variable (st : GuestStore)

/-- A transaction holds the row of a guest. -/
def locked (userId : I64) : Bool := st.locks.any fun p => decide (p.2 = userId)

/-- A transaction holds the key of a membership. -/
def keyHeld (userId : I64) (key : Option I64) : Bool :=
  st.keys.any fun p => decide (p.2 = (userId, key))

/-- A transaction ends, and holds nothing any more. -/
def release (i : ℕ) : GuestStore :=
  { st with
    keys := st.keys.filter fun p => decide (p.1 ≠ i)
    locks := st.locks.filter fun p => decide (p.1 ≠ i) }

/-- Whether the guest is known to be revoked. -/
def isRevoked (userId : I64) : Bool := decide (.revoked userId ∈ st.log)

end GuestStore

/-! ### A request -/

/-- The claims of the token of a guest. -/
structure GuestClaims where
  sub : I64
  hubId : I64
  groups : List I64
  exp : Time
  deriving DecidableEq

/-- Where a request stands. -/
inductive GuestPhase
  /-- `join_via_token` is called. -/
  | received (token : String)
  /-- The guest is found, whose invitation ends at some time. -/
  | found (t : TempUser) (expiresAt : Time)
  /-- The hub is found, too. -/
  | hubFound (t : TempUser) (expiresAt : Time)
  /-- The transaction is open, and some memberships are left to be inserted. -/
  | inserting (t : TempUser) (expiresAt : Time) (everyoneId : I64) (rest : List (Option I64))
  /-- The session of the guest is set. -/
  | seated (t : TempUser) (expiresAt : Time) (everyoneId : I64) (session : String)
  /-- The transaction is committed. -/
  | joined (t : TempUser) (expiresAt : Time) (everyoneId : I64)
  /-- The token is returned. -/
  | admitted (claims : GuestClaims)
  /-- `revoke_temp_user` is called. -/
  | asked (hubId auth userId : I64)
  /-- The caller may revoke guests. -/
  | allowed (hubId userId : I64)
  | done
  | failed (e : Failure)
  deriving DecidableEq

/-- What happens to a request next. -/
inductive GuestAct
  | join (token : String)
  | revoke (hubId auth userId : I64)
  /-- Its statement is executed. -/
  | next
  /-- The session is set that has been drawn. -/
  | seat (session : String)
  /-- Its statement fails, or its connection does. -/
  | fault

namespace GuestStore

/-- The guest that a token admits now, and the end of the invitation. -/
def lookup (db : Db) (token : String) (now : Time) : Option (TempUser × Time) :=
  (joinRow? db token now).bind fun t =>
    (db.users.find? fun u => decide (u.id = t.userId)).bind fun u =>
      u.expiresAt.map fun e => (t, e)

/-- The membership is there. -/
def hasMembership (db : Db) (t : TempUser) : Option I64 → Bool
  | none => db.hubMembers.any fun m => decide (m.hubId = t.hubId ∧ m.userId = t.userId)
  | some groupId => db.memberGroups.contains ⟨t.hubId, t.userId, groupId⟩

/-- What the membership refers to is there. -/
def mayInsert (db : Db) (t : TempUser) (key : Option I64) : Bool :=
  db.hasHub t.hubId && db.hasUser t.userId && key.all db.hasGroup

/-- A transaction ends without a commit. -/
def rollback (st : GuestStore) (i : ℕ) : GuestStore × GuestPhase :=
  (st.release i, .failed internalServerError)

/-- The claims of the token. -/
def claims (t : TempUser) (expiresAt : Time) (everyoneId : I64) : GuestClaims :=
  ⟨t.userId, t.hubId, [everyoneId, t.groupId], expiresAt⟩

/-- The `COMMIT` of a join. -/
def commit (st : GuestStore) (i : ℕ) (t : TempUser) (expiresAt : Time) (everyoneId : I64)
    (session : String) : GuestStore × GuestPhase :=
  match joinRows st.db t everyoneId session with
  | none => st.rollback i
  | some db =>
    ({ st.release i with
      db := db
      log := .joined i t.userId :: st.log }, .joined t expiresAt everyoneId)

/-- The guest whom the `UPDATE` of a revocation finds. -/
def revocable? (db : Db) (hubId userId : I64) : Option TempUser :=
  (tempUser? db hubId userId).filter fun t => t.revokedAt.isNone

/-- What the statement at which a request stands does, and where it gets; none where it
waits. -/
def serve (st : GuestStore) (i : ℕ) : GuestPhase → GuestAct → Option (GuestStore × GuestPhase)
  | .received token, .next =>
    match lookup st.db token st.now with
    | none => some (st, .failed (.status .notFound))
    | some (t, e) => some (st, .found t e)
  | .found t e, .next =>
    if st.db.hasHub t.hubId then some (st, .hubFound t e)
    else some (st, .failed internalServerError)
  | .hubFound t e, .next =>
    match st.db.defaultGroup? t.hubId with
    | none => some (st, .failed internalServerError)
    | some everyone =>
      some (st, .inserting t e everyone.id [none, some everyone.id, some t.groupId])
  | .inserting t e everyoneId (key :: rest), .next =>
    if hasMembership st.db t key then some (st, .inserting t e everyoneId rest)
    else if st.keys.contains (i, t.userId, key) then some (st, .inserting t e everyoneId rest)
    else if st.keyHeld t.userId key then none
    else if mayInsert st.db t key then
      some ({ st with keys := (i, t.userId, key) :: st.keys }, .inserting t e everyoneId rest)
    else some (st.rollback i)
  | .inserting t e everyoneId [], .seat session =>
    if st.locked t.userId then none
    else some ({ st with locks := (i, t.userId) :: st.locks }, .seated t e everyoneId session)
  | .seated t e everyoneId session, .next => some (st.commit i t e everyoneId session)
  | .joined t e everyoneId, .next => some (st, .admitted (claims t e everyoneId))
  | .joined _ _ _, .fault => some (st, .failed internalServerError)
  | .asked hubId auth userId, .next =>
    if (st.db.resolveUserPerms hubId auth).has Bits.createTempLinks then
      some (st, .allowed hubId userId)
    else some (st, .failed (.status .forbidden))
  | .allowed hubId userId, .next =>
    match revocable? st.db hubId userId with
    | none => some (st, .failed (.status .notFound))
    | some _ =>
      if st.locked userId then none
      else some ({ st with
        db := expireUser (revokeRow st.db hubId userId st.now) userId st.now
        log := .revoked userId :: st.log }, .done)
  | .admitted _, _ => none
  | .done, _ => none
  | .failed _, _ => none
  | _, .fault => some (st.rollback i)
  | _, _ => none

/-- A step of a request. -/
def run (st : GuestStore) (i : ℕ) :
    Option GuestPhase → GuestAct → Option (GuestStore × Option GuestPhase)
  | none, .join token => some (st, some (.received token))
  | none, .revoke hubId auth userId => some (st, some (.asked hubId auth userId))
  | none, _ => none
  | some phase, a => (st.serve i phase a).map fun p => (p.1, some p.2)

/-- What happens besides: time passes, and other transactions commit. -/
inductive Env
  | tick (d : ℕ)
  | commit (db : Db)

/-- The others leave a guest who is revoked so, without a session: only joins set one, and
nobody takes a revocation back. -/
def env (st : GuestStore) : Env → GuestStore
  | .tick d => { st with now := st.now + d }
  | .commit db =>
    if (db.tempUsers.map TempUser.userId).Nodup ∧ db.tempUsers.all fun t =>
      !st.isRevoked t.userId || (t.revokedAt.isSome && t.activeSession.isNone) then
      { st with db := db }
    else st

/-- The service starts with some database. -/
def Init (w : Tasks ℕ GuestStore (Option GuestPhase)) : Prop :=
  (∀ i, w.task i = none) ∧ w.shared.keys = [] ∧ w.shared.locks = [] ∧ w.shared.log = [] ∧
    Table.Keyed TempUser.userId w.shared.db.tempUsers

/-- The service: its requests, and what they share. -/
def system : System (Tasks ℕ GuestStore (Option GuestPhase)) (Tasks.Act ℕ GuestAct Env) :=
  Tasks.system Init run env

end GuestStore

/-- No join of a guest commits after the guest is revoked. -/
def GuestEvent.Follows : GuestEvent → GuestEvent → Prop
  | .joined _ u, .revoked u' => u ≠ u'
  | _, _ => True

/-! ### What a step does -/

/-- The guest that a join has found, before its transaction ends. -/
def GuestPhase.guest? : GuestPhase → Option TempUser
  | .found t _ => some t
  | .hubFound t _ => some t
  | .inserting t _ _ _ => some t
  | .seated t _ _ _ => some t
  | _ => none

/-- The guest that a join has made a member. -/
def GuestPhase.member? : GuestPhase → Option I64
  | .joined t _ _ => some t.userId
  | .admitted c => some c.sub
  | _ => none

/-- Whether the caller is told that the guest is revoked. -/
def GuestPhase.isDone : GuestPhase → Bool
  | .done => true
  | _ => false

namespace GuestStore

variable {st st' : GuestStore} {i : ℕ} {phase phase' : GuestPhase} {a : GuestAct} {db db' : Db}
  {t : TempUser} {userId hubId : I64}

/-- **What the statements of a request do.** -/
inductive Does (st : GuestStore) (i : ℕ) : GuestPhase → GuestStore → GuestPhase → Prop
  /-- Nothing is committed, no guest is found, and nobody is told of a revocation. -/
  | keeps {phase phase' : GuestPhase} {st' : GuestStore} : st'.db = st.db → st'.log = st.log →
      (phase'.guest? = none ∨ phase'.guest? = phase.guest?) →
      (phase'.member? = none ∨ phase'.member? = phase.member?) → phase'.isDone = false →
      Does st i phase st' phase'
  | finds {token : String} {t : TempUser} {e : Time} : lookup st.db token st.now = some (t, e) →
      Does st i (.received token) st (.found t e)
  | joins {t : TempUser} {e : Time} {everyoneId : I64} {session : String} {db : Db} :
      joinRows st.db t everyoneId session = some db →
      Does st i (.seated t e everyoneId session) { st.release i with
        db := db
        log := .joined i t.userId :: st.log } (.joined t e everyoneId)
  | revokes {hubId userId : I64} {t : TempUser} : revocable? st.db hubId userId = some t →
      st.locked userId = false →
      Does st i (.allowed hubId userId) { st with
        db := expireUser (revokeRow st.db hubId userId st.now) userId st.now
        log := .revoked userId :: st.log } .done

theorem does_of_serve (h : st.serve i phase a = some (st', phase')) :
    Does st i phase st' phase' := by
  have hkeep {p : GuestPhase} (heq : some (st, p) = some (st', phase'))
      (hguest : p.guest? = none ∨ p.guest? = phase.guest?)
      (hmember : p.member? = none ∨ p.member? = phase.member?) (hdone : p.isDone = false) :
      Does st i phase st' phase' := by
    obtain ⟨rfl, rfl⟩ := Prod.mk.inj (Option.some.inj heq)
    exact .keeps rfl rfl hguest hmember hdone
  have hback (heq : some (st.rollback i) = some (st', phase')) : Does st i phase st' phase' := by
    obtain ⟨rfl, rfl⟩ := Prod.mk.inj (Option.some.inj heq)
    exact .keeps rfl rfl (.inl rfl) (.inl rfl) rfl
  cases phase with
  | received token =>
    cases a with
    | next =>
      dsimp only [serve] at h
      split at h
      · exact hkeep h (.inl rfl) (.inl rfl) rfl
      · rename_i t e hfound
        obtain ⟨rfl, rfl⟩ := Prod.mk.inj (Option.some.inj h)
        exact .finds hfound
    | fault => exact hback h
    | _ => cases h
  | found t e =>
    cases a with
    | next =>
      dsimp only [serve] at h
      split at h
      · exact hkeep h (.inr rfl) (.inl rfl) rfl
      · exact hkeep h (.inl rfl) (.inl rfl) rfl
    | fault => exact hback h
    | _ => cases h
  | hubFound t e =>
    cases a with
    | next =>
      dsimp only [serve] at h
      split at h
      · exact hkeep h (.inl rfl) (.inl rfl) rfl
      · exact hkeep h (.inr rfl) (.inl rfl) rfl
    | fault => exact hback h
    | _ => cases h
  | inserting t e everyoneId rest =>
    rcases rest with _ | ⟨key, rest⟩
    · cases a with
      | seat session =>
        dsimp only [serve] at h
        split_ifs at h
        obtain ⟨rfl, rfl⟩ := Prod.mk.inj (Option.some.inj h)
        exact .keeps rfl rfl (.inr rfl) (.inl rfl) rfl
      | fault => exact hback h
      | _ => cases h
    · cases a with
      | next =>
        dsimp only [serve] at h
        split_ifs at h
        · exact hkeep h (.inr rfl) (.inl rfl) rfl
        · exact hkeep h (.inr rfl) (.inl rfl) rfl
        · obtain ⟨rfl, rfl⟩ := Prod.mk.inj (Option.some.inj h)
          exact .keeps rfl rfl (.inr rfl) (.inl rfl) rfl
        · exact hback h
      | fault => exact hback h
      | _ => cases h
  | seated t e everyoneId session =>
    cases a with
    | next =>
      dsimp only [serve] at h
      rw [commit] at h
      split at h
      · exact hback h
      · rename_i db hrows
        obtain ⟨rfl, rfl⟩ := Prod.mk.inj (Option.some.inj h)
        exact .joins hrows
    | fault => exact hback h
    | _ => cases h
  | joined t e everyoneId =>
    cases a with
    | next => exact hkeep h (.inl rfl) (.inr rfl) rfl
    | fault => exact hkeep h (.inl rfl) (.inl rfl) rfl
    | _ => cases h
  | asked hubId auth userId =>
    cases a with
    | next =>
      dsimp only [serve] at h
      split at h <;> exact hkeep h (.inl rfl) (.inl rfl) rfl
    | fault => exact hback h
    | _ => cases h
  | allowed hubId userId =>
    cases a with
    | next =>
      dsimp only [serve] at h
      split at h
      · exact hkeep h (.inl rfl) (.inl rfl) rfl
      · rename_i t ht
        split_ifs at h with hlocked
        obtain ⟨rfl, rfl⟩ := Prod.mk.inj (Option.some.inj h)
        exact .revokes ht (Bool.eq_false_iff.mpr hlocked)
    | fault => exact hback h
    | _ => cases h
  | admitted c => cases a <;> cases h
  | done => cases a <;> cases h
  | failed e => cases a <;> cases h

/-! ### What is written to the guests -/

/-- A join sets the session of the guest. -/
theorem tempUsers_joinRows {everyoneId : I64} {session : String}
    (h : joinRows db t everyoneId session = some db') : db'.tempUsers =
      Table.update (fun t' => decide (t'.userId = t.userId))
        (fun t' => { t' with activeSession := some session }) db.tempUsers := by
  obtain ⟨db₁, hmember, h⟩ := Option.bind_eq_some_iff.mp h
  obtain ⟨db₂, hgroups, rfl⟩ := Option.map_eq_some_iff.mp h
  dsimp only
  rw [Db.insertMemberGroups_apart Db.tempUsers (fun _ _ _ _ => rfl) hgroups]
  rw [Db.insertHubMemberNew] at hmember
  split_ifs at hmember
  obtain rfl := Option.some.inj hmember
  rfl

theorem tempUsers_revoke {now : Time} :
    (expireUser (revokeRow db hubId userId now) userId now).tempUsers =
      Table.update (fun t => decide (t.userId = userId ∧ t.hubId = hubId))
        (fun t => { t with revokedAt := some now, activeSession := none }) db.tempUsers := rfl

/-- Who is found has not been revoked. -/
theorem lookup_eq_some {token : String} {now e : Time} (h : lookup db token now = some (t, e)) :
    t ∈ db.tempUsers ∧ t.revokedAt = none := by
  obtain ⟨t', ht', h⟩ := Option.bind_eq_some_iff.mp h
  obtain ⟨u, -, h⟩ := Option.bind_eq_some_iff.mp h
  obtain ⟨e', -, heq⟩ := Option.map_eq_some_iff.mp h
  obtain ⟨rfl, rfl⟩ := Prod.mk.inj heq
  refine ⟨List.mem_of_find?_eq_some ht', ?_⟩
  have hfound := List.find?_some ht'
  simp only [Bool.and_eq_true, Option.isNone_iff_eq_none] at hfound
  exact hfound.1.2

theorem revocable?_eq_some (h : revocable? db hubId userId = some t) :
    t ∈ db.tempUsers ∧ t.userId = userId ∧ t.hubId = hubId ∧ t.revokedAt = none := by
  obtain ⟨ht, hnone⟩ := Option.filter_eq_some_iff.mp h
  have hfound := List.find?_some ht
  rw [decide_eq_true_eq] at hfound
  exact ⟨List.mem_of_find?_eq_some ht, hfound.1, hfound.2, Option.isNone_iff_eq_none.mp hnone⟩

/-- **A revocation is done** where the guest is not revoked and the row is not held: it answers
so, and writes the same whether the guest has joined or not. -/
theorem serve_allowed (h : revocable? st.db hubId userId = some t)
    (hlocked : st.locked userId = false) :
    st.serve i (.allowed hubId userId) .next = some ({ st with
      db := expireUser (revokeRow st.db hubId userId st.now) userId st.now
      log := .revoked userId :: st.log }, .done) := by
  rw [serve, h]
  dsimp only
  rw [if_neg (Bool.not_eq_true _ ▸ hlocked)]

/-! ### The invariant -/

/-- **No guest is revoked between the lookup and the update of a join**: where the `UPDATE`
of a revocation finds the guest, and the row is not held, nobody has found the guest and is
yet to set the session. -/
def Clear (w : Tasks ℕ GuestStore (Option GuestPhase)) : Tasks.Act ℕ GuestAct Env → Prop
  | .task i .next => ∀ hubId userId, w.task i = some (.allowed hubId userId) →
      (revocable? w.shared.db hubId userId).isSome → w.shared.locked userId = false →
      ∀ j phase, w.task j = some phase → ∀ t ∈ phase.guest?, t.userId ≠ userId
  | _ => True

/-- **Who is revoked stays so**, without a session. -/
structure Sound (st : GuestStore) : Prop where
  keyed : Table.Keyed TempUser.userId st.db.tempUsers
  order : st.log.Pairwise GuestEvent.Follows
  revoked : ∀ userId, .revoked userId ∈ st.log → ∀ t ∈ st.db.tempUsers, t.userId = userId →
    t.revokedAt.isSome ∧ t.activeSession = none

/-- The guest that a join has found is not revoked, and a join that says so has committed. -/
structure Holds (st : GuestStore) (i : ℕ) (task : Option GuestPhase) : Prop where
  guest : ∀ phase ∈ task, ∀ t ∈ phase.guest?, .revoked t.userId ∉ st.log
  member : ∀ phase ∈ task, ∀ u ∈ phase.member?, .joined i u ∈ st.log

/-- A step after which no more guests are revoked. -/
theorem Holds.log {task : Option GuestPhase} (h : Holds st i task) (hlog : st.log ⊆ st'.log)
    (hrevoked : ∀ phase ∈ task, ∀ t ∈ phase.guest?, .revoked t.userId ∈ st'.log →
      .revoked t.userId ∈ st.log) : Holds st' i task :=
  ⟨fun phase hphase t ht hr => h.guest phase hphase t ht (hrevoked phase hphase t ht hr),
    fun phase hphase u hu => hlog (h.member phase hphase u hu)⟩

theorem Sound.congr (h : Sound st) (hdb : st'.db = st.db) (hlog : st'.log = st.log) :
    Sound st' :=
  ⟨hdb ▸ h.keyed, hlog ▸ h.order, by rw [hdb, hlog]; exact h.revoked⟩

/-- **A join commits.** -/
theorem Sound.join (h : Sound st) {everyoneId : I64} {session : String}
    (hrows : joinRows st.db t everyoneId session = some db)
    (hguest : .revoked t.userId ∉ st.log) : Sound { st.release i with
      db := db
      log := .joined i t.userId :: st.log } where
  keyed := by
    dsimp only
    rw [tempUsers_joinRows hrows]
    exact h.keyed.update fun _ => rfl
  order := by
    refine List.pairwise_cons.mpr ⟨?_, h.order⟩
    rintro (_ | u) he
    · trivial
    · rintro rfl
      exact hguest he
  revoked := by
    rintro u (_ | ⟨_, hu⟩) t' ht' rfl
    dsimp only at ht'
    rw [tempUsers_joinRows hrows, Table.mem_update] at ht'
    obtain ⟨t₀, ht₀, rfl⟩ := ht'
    -- the row of the guest who joins is another one
    split at hu
    · rename_i heq
      exact absurd (of_decide_eq_true heq ▸ hu) hguest
    · rename_i hne
      rw [if_neg hne]
      exact h.revoked _ hu t₀ ht₀ rfl

/-- **A guest is revoked.** -/
theorem Sound.revoke (h : Sound st) (ht : revocable? st.db hubId userId = some t) :
    Sound { st with
      db := expireUser (revokeRow st.db hubId userId st.now) userId st.now
      log := .revoked userId :: st.log } where
  keyed := by
    dsimp only
    rw [tempUsers_revoke]
    exact h.keyed.update fun _ => rfl
  order := List.pairwise_cons.mpr ⟨fun _ _ => trivial, h.order⟩
  revoked := by
    obtain ⟨hmem, hid, hhub, -⟩ := revocable?_eq_some ht
    intro u hu t' ht' heq
    dsimp only at ht'
    rw [tempUsers_revoke, Table.mem_update] at ht'
    obtain ⟨t₀, ht₀, rfl⟩ := ht'
    split
    · exact ⟨rfl, rfl⟩
    · rename_i hno
      rw [if_neg hno] at heq
      rw [decide_eq_true_eq] at hno
      rcases List.mem_cons.mp hu with hu | hu
      · -- the user id is a key, so this is the row that was found
        obtain rfl : u = userId := by injection hu
        obtain rfl := h.keyed.eq_of_key ht₀ hmem (heq.trans hid.symm)
        exact absurd ⟨heq, hhub⟩ hno
      · exact h.revoked u hu t₀ ht₀ heq

theorem Sound.around (h : Sound st) (e : Env) : Sound (env st e) ∧ (env st e).log = st.log := by
  cases e with
  | tick d => exact ⟨⟨h.keyed, h.order, h.revoked⟩, rfl⟩
  | commit db =>
    dsimp only [env]
    split_ifs with hcond
    · refine ⟨⟨hcond.1, h.order, fun u hu t ht heq => ?_⟩, rfl⟩
      have hrow := List.all_eq_true.mp hcond.2 t ht
      rw [Bool.or_eq_true, isRevoked, heq, decide_eq_true hu] at hrow
      simpa using hrow
    · exact ⟨h, rfl⟩

theorem sound {w : Tasks ℕ GuestStore (Option GuestPhase)} (hw : system.Reach Clear w) :
    Sound w.shared ∧ Tasks.Each Holds w := by
  refine Tasks.invariant (I := fun w => Sound w.shared ∧ Tasks.Each Holds w) ?_ ?_ ?_ hw
  · rintro w ⟨hnone, -, -, hlog, hkeyed⟩
    refine ⟨⟨hkeyed, ?_, ?_⟩, fun i => ⟨?_, ?_⟩⟩
    · simp [hlog]
    · simp [hlog]
    · simp [hnone]
    · simp [hnone]
  · rintro w i a s t ⟨hs, heach⟩ hclear hrun
    have hi := heach i
    cases htask : w.task i with
    | none =>
      rw [htask] at hrun hi
      -- a request arrives, and has found nobody
      have harrives (phase : GuestPhase) (hguest : phase.guest? = none)
          (hmember : phase.member? = none) : Holds w.shared i (some phase) := by
        refine ⟨?_, ?_⟩
        · rintro _ ⟨⟩ t ht
          rw [hguest] at ht
          cases ht
        · rintro _ ⟨⟩ u hu
          rw [hmember] at hu
          cases hu
      cases a with
      | join token =>
        obtain ⟨rfl, rfl⟩ := Prod.mk.inj (Option.some.inj hrun)
        exact ⟨hs, heach.set (harrives _ rfl rfl) fun j _ hj => hj⟩
      | revoke hubId auth userId =>
        obtain ⟨rfl, rfl⟩ := Prod.mk.inj (Option.some.inj hrun)
        exact ⟨hs, heach.set (harrives _ rfl rfl) fun j _ hj => hj⟩
      | _ => cases hrun
    | some phase =>
      rw [htask] at hrun hi
      obtain ⟨⟨st', phase'⟩, hstep, heq⟩ := Option.map_eq_some_iff.mp hrun
      obtain ⟨rfl, rfl⟩ := Prod.mk.inj heq
      cases does_of_serve hstep with
      | keeps hdb hlog hguest hmember =>
        have hsame {j : ℕ} {task : Option GuestPhase} (hj : Holds w.shared j task) :
            Holds st' j task :=
          hj.log (fun _ he => hlog.symm ▸ he) fun _ _ _ _ hr => hlog ▸ hr
        refine ⟨hs.congr hdb hlog, heach.set ⟨?_, ?_⟩ fun j _ hj => hsame hj⟩
        · rintro _ ⟨⟩ t ht
          rcases hguest with hnone | hguest
          · rw [hnone] at ht
            cases ht
          · exact (hsame hi).guest phase rfl t (hguest ▸ ht)
        · rintro _ ⟨⟩ u hu
          rcases hmember with hnone | hmember
          · rw [hnone] at hu
            cases hu
          · exact (hsame hi).member phase rfl u (hmember ▸ hu)
      | @finds token t e hfound =>
        obtain ⟨hmem, hnone⟩ := lookup_eq_some hfound
        refine ⟨hs, heach.set ⟨?_, ?_⟩ fun j _ hj => hj⟩
        · rintro _ ⟨⟩ _ ⟨⟩ hr
          have hrow := (hs.revoked _ hr t hmem rfl).1
          rw [hnone] at hrow
          cases hrow
        · rintro _ ⟨⟩ _ ⟨⟩
      | @joins t e everyoneId session db hrows =>
        refine ⟨hs.join hrows (hi.guest _ rfl t rfl), heach.set ⟨?_, ?_⟩ fun j _ hj => ?_⟩
        · rintro _ ⟨⟩ _ ⟨⟩
        · rintro _ ⟨⟩ _ ⟨⟩
          exact List.mem_cons_self
        · refine hj.log (fun _ he => List.mem_cons_of_mem _ he) ?_
          rintro phase - t - (_ | ⟨_, hr⟩)
          exact hr
      | @revokes hubId userId t ht hlocked =>
        have hnext : a = .next := by
          cases a with
          | next => rfl
          | fault => exact absurd (congrArg Prod.snd (Option.some.inj hstep)) nofun
          | _ => cases hstep
        subst hnext
        have hothers := hclear hubId userId htask (by rw [ht]; rfl) hlocked
        refine ⟨hs.revoke ht, heach.set ⟨?_, ?_⟩ fun j _ hj => ?_⟩
        · rintro _ ⟨⟩ _ ⟨⟩
        · rintro _ ⟨⟩ _ ⟨⟩
        · refine hj.log (fun _ he => List.mem_cons_of_mem _ he) fun phase hphase t ht hr => ?_
          rcases List.mem_cons.mp hr with hr | hr
          · have hid : t.userId = userId := by injection hr
            exact absurd hid (hothers j phase hphase t ht)
          · exact hr
  · rintro w e ⟨hs, heach⟩ -
    obtain ⟨hs', hlog⟩ := hs.around e
    exact ⟨hs', heach.around fun j hj => hj.log (fun _ he => hlog.symm ▸ he)
      fun _ _ _ _ hr => hlog ▸ hr⟩

end GuestStore

open GuestStore

/-- **A revocation wins.** In the runs in which no guest is revoked between the lookup and
the update of a join: no join of a guest commits after the guest is revoked; who is revoked
stays so, without a session; a token is only returned by a join that has committed. A
request changes the database only by the commit of a join, or by a revocation, which does the
same whether the guest has joined or not; and the revocation of a guest who is not revoked,
and whose row is not held, is done and says so. -/
theorem revocation_wins {w : Tasks ℕ GuestStore (Option GuestPhase)}
    (hw : GuestStore.system.Reach Clear w) :
    w.shared.log.Pairwise GuestEvent.Follows ∧
    (∀ userId, .revoked userId ∈ w.shared.log → ∀ t ∈ w.shared.db.tempUsers, t.userId = userId →
      t.revokedAt.isSome ∧ t.activeSession = none) ∧
    (∀ i c, w.task i = some (.admitted c) → .joined i c.sub ∈ w.shared.log) ∧
    (∀ i phase a st phase', w.shared.serve i phase a = some (st, phase') →
      Does w.shared i phase st phase') ∧
    ∀ i hubId userId, (revocable? w.shared.db hubId userId).isSome = true →
      w.shared.locked userId = false →
      ∃ st, w.shared.serve i (.allowed hubId userId) .next = some (st, .done) ∧
        st.log = .revoked userId :: w.shared.log ∧
        st.db = expireUser (revokeRow w.shared.db hubId userId w.shared.now) userId w.shared.now := by
  obtain ⟨hs, heach⟩ := GuestStore.sound hw
  refine ⟨hs.order, hs.revoked, fun i c hc => ?_, fun i phase a st phase' => does_of_serve,
    fun i hubId userId hsome hlocked => ?_⟩
  · exact (heach i).member _ hc _ rfl
  · obtain ⟨t, ht⟩ := Option.isSome_iff_exists.mp hsome
    exact ⟨_, serve_allowed ht hlocked, rfl, rfl⟩

/-! ### Runs -/

/-- A guest of the small hub, whose invitation ends at 100. -/
def gus : TempUser := ⟨i64 1004, Seed.hub, "t", Seed.guests, Seed.alice, none, none⟩

/-- The link of Hal, another guest. -/
def hal : TempUser := ⟨i64 1005, Seed.hub, "u", Seed.guests, Seed.alice, none, none⟩

/-- The users of two guests. -/
def guestUsers : List User :=
  [⟨i64 1004, "guest-1004", "Gus", none, .temp, some 100, none⟩,
    ⟨i64 1005, "guest-1005", "Hal", none, .temp, some 100, none⟩] ++ Seed.devSeed.users

/-- Gus and Hal are invited. -/
def guestDb : Db where
  hubs := Seed.devSeed.hubs
  users := guestUsers
  hubMembers := Seed.devSeed.hubMembers
  groups := Seed.devSeed.groups
  memberGroups := Seed.devSeed.memberGroups
  channels := Seed.devSeed.channels
  channelPermissions := Seed.devSeed.channelPermissions
  dmParticipants := []
  tempUsers := [gus, hal]
  invitations := []
  inviteLinks := []
  fk_memberGroups := by decide
  fk_memberUsers := by decide
  pk_channels := by decide

/-- A database with two guests. -/
def guestStore : GuestStore := ⟨guestDb, 10, [], [], []⟩

/-- What comes of a run of requests for the two guests. -/
def guestRun (as : List (Tasks.Act ℕ GuestAct GuestStore.Env)) :
    Tasks ℕ GuestStore (Option GuestPhase) :=
  as.foldl (Tasks.next GuestStore.run GuestStore.env) ⟨guestStore, fun _ => none⟩

/-- A join up to its lookup. -/
def findGuest (i : ℕ) (token : String) : List (Tasks.Act ℕ GuestAct GuestStore.Env) :=
  [.task i (.join token), .task i .next]

/-- The rest of a join. -/
def seatGuest (i : ℕ) : List (Tasks.Act ℕ GuestAct GuestStore.Env) :=
  [.task i .next, .task i .next, .task i .next, .task i .next, .task i .next,
    .task i (.seat "s"), .task i .next, .task i .next]

/-- The steps of a revocation. -/
def revokeGuest (i : ℕ) (userId : I64) : List (Tasks.Act ℕ GuestAct GuestStore.Env) :=
  [.task i (.revoke Seed.hub Seed.alice userId), .task i .next, .task i .next]

/-- **Gus joins after the revocation**: Alice revokes him when his join has looked him up. He
is a member of two groups then, with a session and a token that lasts until 100. -/
theorem joined_after_revocation : ∃ w, GuestStore.system.Reachable w ∧
    w.task 1 = some .done ∧
    w.shared.log = [.joined 0 gus.userId, .revoked gus.userId] ∧
    w.task 0 = some (.admitted ⟨gus.userId, Seed.hub, [Seed.everyone, Seed.guests], 100⟩) ∧
    (⟨Seed.hub, gus.userId, Seed.everyone⟩ : MemberGroup) ∈ w.shared.db.memberGroups ∧
    ¬ w.shared.log.Pairwise GuestEvent.Follows := by
  refine ⟨guestRun (findGuest 0 "t" ++ revokeGuest 1 gus.userId ++ seatGuest 0),
    Tasks.reachable_foldl ⟨fun _ => rfl, rfl, rfl, rfl, by decide⟩ _, by decide +kernel,
    by decide +kernel, by decide +kernel, by decide +kernel, fun h => ?_⟩
  have hlog : (guestRun (findGuest 0 "t" ++ revokeGuest 1 gus.userId ++ seatGuest 0)).shared.log =
      [.joined 0 gus.userId, .revoked gus.userId] := by decide +kernel
  rw [hlog] at h
  exact (List.pairwise_cons.mp h).1 _ List.mem_cons_self rfl

/-- Steps of requests none of which is about to revoke. -/
def onlyJoins (w : Tasks ℕ GuestStore (Option GuestPhase)) :
    List (Tasks.Act ℕ GuestAct GuestStore.Env) → Bool
  | [] => true
  | .env e :: as => onlyJoins (Tasks.next GuestStore.run GuestStore.env w (.env e)) as
  | .task i a :: as =>
    (w.task i).all (fun phase => match phase with
      | .allowed _ _ => false
      | _ => true) && onlyJoins (Tasks.next GuestStore.run GuestStore.env w (.task i a)) as

theorem accepted_of_onlyJoins {w : Tasks ℕ GuestStore (Option GuestPhase)}
    {as : List (Tasks.Act ℕ GuestAct GuestStore.Env)} (h : onlyJoins w as = true) :
    System.Accepted Clear (Tasks.next GuestStore.run GuestStore.env) w as := by
  induction as generalizing w with
  | nil => trivial
  | cons a as ih =>
    cases a with
    | env e => exact ⟨trivial, ih h⟩
    | task i a =>
      rw [onlyJoins, Bool.and_eq_true] at h
      refine ⟨?_, ih h.2⟩
      cases a with
      | next =>
        intro hubId userId htask
        rw [htask] at h
        exact absurd h.1 Bool.false_ne_true
      | _ => trivial

/-- Alice may revoke Gus, and nobody joins. -/
theorem clear_revokeGuest : Clear (guestRun [.task 1 (.revoke Seed.hub Seed.alice gus.userId),
    .task 1 .next]) (.task 1 .next) := by
  intro hubId userId _ _ _ j phase hphase t ht
  have htask : (guestRun [.task 1 (.revoke Seed.hub Seed.alice gus.userId), .task 1 .next]).task =
      Function.update (Function.update (fun _ => none) 1
        (some (.asked Seed.hub Seed.alice gus.userId))) 1
        (some (.allowed Seed.hub gus.userId)) := rfl
  rw [htask] at hphase
  rcases eq_or_ne j 1 with rfl | hne
  · rw [Function.update_self] at hphase
    obtain rfl := Option.some_inj.mp hphase
    cases ht
  · rw [Function.update_of_ne hne, Function.update_of_ne hne] at hphase
    cases hphase

/-- Gus is revoked, and Hal joins. -/
theorem revocation_wins_gus :
    (guestRun (revokeGuest 1 gus.userId ++ findGuest 2 "u" ++ seatGuest 2)).shared.log =
      [.joined 2 hal.userId, .revoked gus.userId] ∧
    (guestRun (revokeGuest 1 gus.userId ++ findGuest 2 "u" ++ seatGuest 2)).shared.log.Pairwise
      GuestEvent.Follows := by
  have hinit : GuestStore.system.Reach Clear ⟨guestStore, fun _ => none⟩ :=
    .start ⟨fun _ => rfl, rfl, rfl, rfl, by decide⟩
  have hask : onlyJoins ⟨guestStore, fun _ => none⟩
      [.task 1 (.revoke Seed.hub Seed.alice gus.userId), .task 1 .next] = true := by decide +kernel
  have hasked := System.Reach.foldl (M := GuestStore.system) (fun _ _ => rfl) hinit
    (accepted_of_onlyJoins hask)
  have hrevoked : GuestStore.system.Reach Clear (guestRun (revokeGuest 1 gus.userId)) :=
    hasked.step clear_revokeGuest rfl
  have hjoin : onlyJoins (guestRun (revokeGuest 1 gus.userId))
      (findGuest 2 "u" ++ seatGuest 2) = true := by decide +kernel
  have hjoined := System.Reach.foldl (M := GuestStore.system) (fun _ _ => rfl) hrevoked
    (accepted_of_onlyJoins hjoin)
  exact ⟨by decide +kernel, (revocation_wins hjoined).1⟩

end Hub

end MateHub
