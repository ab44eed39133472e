import MateHub.Hub.Groups
import MateHub.Hub.Invites
import MateHub.Lib.Tasks

/-!
# Redeeming invite links concurrently

`redeem_invite_link` claims a use of the link and creates the account in one transaction:
the claim is an `UPDATE` of the row of the link, which no other transaction can update
before this one ends, and the inserted rows are there for others when it commits. So a
request is a task that notes what it is going to write, and the `COMMIT` writes it
(`MateHub.Hub.commitRows`); until then it holds the row of the link, and the keys of the
user that it has inserted. A statement that needs a row or a key which another transaction
holds waits, and then sees what that one has committed, as under READ COMMITTED. A
transaction that ends otherwise leaves nothing.

`now()` is in a transaction the time at which it has begun. A redeem that has begun before
the link expires may claim it afterwards (`MateHub.Hub.redeemed_after_expiry`). Apart from
that, the link keeps its accounts (`MateHub.Hub.accounts_of_link`): there are as many as it
counts, not more than it allows, none comes of a claim after the link was revoked, or in a
transaction that began after it expired, and a request that fails before its `COMMIT` has
changed nothing.
-/

namespace MateHub

namespace Hub

open Chat (I64 i64)

/-! ### The shared state -/

/-- What happens to the links. -/
inductive LinkEvent
  /-- A request claims a use of a link: when its transaction has begun, and when that is. -/
  | claimed (i : ℕ) (linkId : I64) (start now : Time)
  | revoked (linkId : I64)
  /-- A request commits the account that it creates. -/
  | created (i : ℕ) (linkId userId : I64)
  deriving DecidableEq

/-- The committed database, and what the open transactions hold. -/
structure InviteStore where
  db : Db
  now : Time
  /-- The links whose rows are held. -/
  locks : List (I64 × ℕ)
  /-- The users that are inserted, and not committed. -/
  pending : List (ℕ × User)
  /-- What has happened, latest first. -/
  log : List LinkEvent

namespace InviteStore

variable (st : InviteStore)

/-- Another transaction holds the row of a link. -/
def locked (linkId : I64) : Bool := st.locks.any fun p => decide (p.1 = linkId)

/-- Another transaction holds a key of a user. -/
def keysHeld (u : User) : Bool :=
  st.pending.any fun p =>
    decide (p.2.username = u.username ∨ p.2.email = u.email ∨ p.2.id = u.id)

/-- A transaction ends, and holds nothing any more. -/
def release (i : ℕ) : InviteStore :=
  { st with
    locks := st.locks.filter fun p => decide (p.2 ≠ i)
    pending := st.pending.filter fun p => decide (p.1 ≠ i) }

end InviteStore

/-! ### A request -/

/-- Where a request stands in `redeem_invite_link`. -/
inductive RedeemPhase
  | received
  /-- The transaction has begun. -/
  | began (start : Time)
  /-- The link is claimed, and was then this row. -/
  | claimed (l : InviteLink)
  /-- The name is free. -/
  | named (l : InviteLink)
  /-- The name and the address are free. -/
  | checked (l : InviteLink)
  /-- The user is inserted. -/
  | inserted (l : InviteLink) (u : User)
  | member (l : InviteLink) (u : User)
  /-- The user is put into groups, and some of them are left. -/
  | grouping (l : InviteLink) (u : User) (ids rest : List I64)
  /-- The transaction is committed, the tokens are to be issued. -/
  | registered (userId : I64)
  | succeeded (userId : I64)
  /-- The request has failed; if the transaction was committed, with the account. -/
  | failed (e : Failure) (userId : Option I64)
  deriving DecidableEq

/-- A request to redeem a link, with the statement it has come to. -/
structure RedeemRequest where
  token : String
  body : RedeemInviteLink
  phase : RedeemPhase

/-- What happens to a request next. -/
inductive RedeemAct
  | arrive (token : String) (body : RedeemInviteLink)
  /-- Its statement is executed. -/
  | next
  /-- Its statement fails, or its connection does. -/
  | fault
  /-- Its user is inserted, with the id that is drawn. -/
  | insert (userId : I64)

/-- What is wrong with the body of a request. -/
def checkBody (parses : String → Bool) (body : RedeemInviteLink) : Option Failure :=
  if !isValidUsername (Text.trim body.username) then some (err "username_invalid" .badRequest)
  else if !decide (6 ≤ body.password.utf8ByteSize) then
    some (err "password_too_short" .badRequest)
  else if !isSafeDisplayName (Text.trim body.displayName) then
    some (err "display_name_invalid" .badRequest)
  else if !isValidEmail parses (Text.trim body.email) then some (err "email_invalid" .badRequest)
  else none

/-- The user that a request registers. -/
def newUser (body : RedeemInviteLink) (userId : I64) : User :=
  ⟨userId, Text.trim body.username, Text.trim body.displayName, some (Text.trim body.email),
    .permanent, none, none⟩

/-- What a transaction writes. -/
def commitRows (db : Db) (l : InviteLink) (u : User) (ids : List I64) : Option Db :=
  match (claimSlot db l).insertUser u with
  | .error _ => none
  | .ok db =>
    (db.insertHubMember ⟨l.hubId, u.id, "member"⟩).bind fun db =>
      db.insertMemberGroups l.hubId u.id ids

/-- The count of a link that cannot be increased any more. -/
def maxUsesCount : ℤ := 2 ^ 31 - 1

namespace InviteStore

/-- A transaction ends without a commit. -/
def rollback (st : InviteStore) (i : ℕ) (e : Failure) : InviteStore × RedeemPhase :=
  (st.release i, .failed e none)

/-- The first group that is left, and then the `COMMIT`. -/
def group (st : InviteStore) (i : ℕ) (l : InviteLink) (u : User) (ids : List I64) :
    List I64 → InviteStore × RedeemPhase
  | gid :: rest =>
    if st.db.hasHub l.hubId && st.db.hasGroup gid then (st, .grouping l u ids rest)
    else st.rollback i internal
  | [] =>
    match commitRows st.db l u ids with
    | none => st.rollback i internal
    | some db =>
      ({ st.release i with db := db, log := .created i l.id u.id :: st.log }, .registered u.id)

/-- What the statement at which a request stands does, and where it gets; none where it
waits. -/
def redeem (parses : String → Bool) (st : InviteStore) (i : ℕ) (token : String)
    (body : RedeemInviteLink) : RedeemPhase → RedeemAct → Option (InviteStore × RedeemPhase)
  | .received, .next =>
    match checkBody parses body with
    | some e => some (st, .failed e none)
    | none => some (st, .began st.now)
  | .began start, .next =>
    match claim? st.db token start with
    | none => some (st.rollback i (err "link_unavailable" .gone))
    | some l =>
      if st.locked l.id then none
      else if maxUsesCount ≤ l.usesCount then some (st.rollback i internal)
      else some ({ st with
        locks := (l.id, i) :: st.locks
        log := .claimed i l.id start st.now :: st.log }, .claimed l)
  | .claimed l, .next =>
    if st.db.users.any fun u => decide (u.username = Text.trim body.username) then
      some (st.rollback i (err "username_taken" .conflict))
    else some (st, .named l)
  | .named l, .next =>
    if st.db.users.any fun u => decide (u.email = some (Text.trim body.email)) then
      some (st.rollback i (err "email_taken" .conflict))
    else some (st, .checked l)
  | .checked l, .insert userId =>
    if st.keysHeld (newUser body userId) then none
    else match st.db.userConflict (newUser body userId) with
      | some constraint => some (st.rollback i (conflictCode constraint))
      | none => some ({ st with pending := (i, newUser body userId) :: st.pending },
          .inserted l (newUser body userId))
  | .inserted l u, .next =>
    if st.db.hasHub l.hubId &&
        !Table.hasKey (fun m => (m.hubId, m.userId)) ⟨l.hubId, u.id, "member"⟩ st.db.hubMembers then
      some (st, .member l u)
    else some (st.rollback i internal)
  | .member l u, .next =>
    match st.db.defaultGroup? l.hubId with
    | none => some (st.rollback i internal)
    | some everyone =>
      some (st, .grouping l u (groupIds everyone.id l.groupId) (groupIds everyone.id l.groupId))
  | .grouping l u ids rest, .next => some (st.group i l u ids rest)
  | .registered userId, .next => some (st, .succeeded userId)
  | .registered userId, .fault => some (st, .failed internal (some userId))
  | .succeeded _, _ => none
  | .failed _ _, _ => none
  | _, .fault => some (st.rollback i internal)
  | _, _ => none

/-- A step of a request. -/
def run (parses : String → Bool) (st : InviteStore) (i : ℕ) :
    Option RedeemRequest → RedeemAct → Option (InviteStore × Option RedeemRequest)
  | none, a =>
    match a with
    | .arrive token body => some (st, some ⟨token, body, .received⟩)
    | _ => none
  | some r, a =>
    (st.redeem parses i r.token r.body r.phase a).map fun p => (p.1, some { r with phase := p.2 })

/-! ### The surroundings -/

/-- The `UPDATE` of `delete_pending_link`. -/
def revokeRow (db : Db) (hubId linkId : I64) (now : Time) : Db :=
  { db with
    inviteLinks := Table.update
      (fun l => decide (l.id = linkId ∧ l.hubId = hubId) && l.revokedAt.isNone)
      (fun l => { l with revokedAt := some now }) db.inviteLinks }

/-- What the accounting of a link rests on: everything but its group. -/
def account (l : InviteLink) : InviteLink := { l with groupId := none }

/-- What happens besides: time passes, a link is created or revoked, and other transactions
commit. -/
inductive Env
  | tick (d : ℕ)
  | create (l : InviteLink)
  | revoke (hubId linkId : I64)
  | commit (db : Db)

/-- A revocation waits for the row of its link. Other transactions wait for the keys that
are held, and of a link they change no more than the group, which may be deleted. -/
def env (st : InviteStore) : Env → InviteStore
  | .tick d => { st with now := st.now + d }
  | .create l =>
    if l.maxUses.all fun cap => decide (0 < cap) then
      match st.db.insertInviteLink { l with usesCount := 0, revokedAt := none } with
      | none => st
      | some db => { st with db := db }
    else st
  | .revoke hubId linkId =>
    if st.locked linkId ||
        !(st.db.inviteLinks.any fun l => decide (l.id = linkId ∧ l.hubId = hubId)) then st
    else { st with
      db := revokeRow st.db hubId linkId st.now
      log := .revoked linkId :: st.log }
  | .commit db =>
    if db.inviteLinks.map account = st.db.inviteLinks.map account ∧
        (st.pending.all fun p => (db.userConflict p.2).isNone) then { st with db := db }
    else st

/-- The service starts with some links that nobody has used. -/
def Init (w : Tasks ℕ InviteStore (Option RedeemRequest)) : Prop :=
  (∀ i, w.task i = none) ∧ w.shared.locks = [] ∧ w.shared.pending = [] ∧ w.shared.log = [] ∧
    (w.shared.db.inviteLinks.map InviteLink.id).Nodup ∧
    ∀ l ∈ w.shared.db.inviteLinks, l.usesCount = 0 ∧ ∀ cap ∈ l.maxUses, 0 < cap

/-- The service: its requests, and what they share. -/
def system (parses : String → Bool) :
    System (Tasks ℕ InviteStore (Option RedeemRequest)) (Tasks.Act ℕ RedeemAct Env) :=
  Tasks.system Init (run parses) env

/-! ### What is written to the links -/

/-- The links, without their groups. -/
def links (db : Db) : List InviteLink := db.inviteLinks.map account

variable {db db' : Db} {st st' : InviteStore} {i : ℕ} {l : InviteLink} {u : User} {ids : List I64}

theorem links_claimSlot : links (claimSlot db l) = Table.update (fun l' => decide (l'.id = l.id))
    (fun l' => { l' with usesCount := l'.usesCount + 1 }) (links db) :=
  Table.map_update (fun _ => rfl) fun _ => rfl

theorem links_revokeRow {hubId linkId : I64} {now : Time} : links (revokeRow db hubId linkId now) =
    Table.update (fun l => decide (l.id = linkId ∧ l.hubId = hubId) && l.revokedAt.isNone)
      (fun l => { l with revokedAt := some now }) (links db) :=
  Table.map_update (fun _ => rfl) fun _ => rfl

theorem links_insertInviteLink (h : db.insertInviteLink l = some db') :
    links db' = account l :: links db ∧ ∀ l' ∈ links db, l'.id ≠ l.id := by
  rw [Db.insertInviteLink] at h
  split_ifs at h
  obtain ⟨rows, hrows, rfl⟩ := Option.map_eq_some_iff.mp h
  constructor
  · rw [Table.insert] at hrows
    split_ifs at hrows
    rw [← Option.some.inj hrows]
    rfl
  · intro l' hl'
    obtain ⟨l₀, hl₀, rfl⟩ := List.mem_map.mp hl'
    have hne : l₀.id ≠ l.id := Table.key_ne_of_insert hrows hl₀
    exact hne

theorem links_insertUser (h : db.insertUser u = .ok db') : links db' = links db := by
  rw [Db.insertUser] at h
  split at h
  · cases h
  · obtain rfl := Except.ok.inj h
    rfl

theorem links_insertHubMember {m : HubMember} (h : db.insertHubMember m = some db') :
    links db' = links db := by
  rw [Db.insertHubMember] at h
  split_ifs at h
  obtain ⟨_, -, rfl⟩ := Option.map_eq_some_iff.mp h
  rfl

/-- A commit counts one use of the link. -/
theorem links_commitRows (h : commitRows db l u ids = some db') : links db' =
    Table.update (fun l' => decide (l'.id = l.id))
      (fun l' => { l' with usesCount := l'.usesCount + 1 }) (links db) := by
  rw [commitRows] at h
  split at h
  · cases h
  · rename_i db₁ huser
    obtain ⟨db₂, hmember, hgroups⟩ := Option.bind_eq_some_iff.mp h
    rw [Db.insertMemberGroups_apart links (fun _ _ _ _ => rfl) hgroups,
      links_insertHubMember hmember, links_insertUser huser, links_claimSlot]

end InviteStore

/-! ### What a step does -/

/-- The link that a transaction has claimed. -/
def RedeemPhase.link? : RedeemPhase → Option InviteLink
  | .claimed l => some l
  | .named l => some l
  | .checked l => some l
  | .inserted l _ => some l
  | .member l _ => some l
  | .grouping l _ _ _ => some l
  | _ => none

/-- The account that a request has committed. -/
def RedeemPhase.account? : RedeemPhase → Option I64
  | .registered userId => some userId
  | .succeeded userId => some userId
  | .failed _ userId => userId
  | _ => none

namespace InviteStore

variable {parses : String → Bool} {db' : Db} {st st' : InviteStore} {i : ℕ} {token : String}
  {body : RedeemInviteLink} {phase phase' : RedeemPhase} {a : RedeemAct} {l : InviteLink}

/-- **What the statements of a request do.** -/
inductive Does (st : InviteStore) (i : ℕ) (token : String) :
    RedeemPhase → InviteStore → RedeemPhase → Prop
  /-- Nothing is committed, and no row of a link is taken or released. -/
  | keeps {phase phase' : RedeemPhase} {st' : InviteStore} : st'.db = st.db → st'.locks = st.locks →
      st'.log = st.log → phase'.link? = phase.link? → phase'.account? = phase.account? →
      Does st i token phase st' phase'
  | claims {start : Time} {l : InviteLink} : claim? st.db token start = some l →
      st.locked l.id = false →
      Does st i token (.began start) { st with
        locks := (l.id, i) :: st.locks
        log := .claimed i l.id start st.now :: st.log } (.claimed l)
  | rollsBack {phase : RedeemPhase} {e : Failure} : phase.account? = none →
      Does st i token phase (st.release i) (.failed e none)
  | commits {l : InviteLink} {u : User} {ids : List I64} {db : Db} :
      commitRows st.db l u ids = some db →
      Does st i token (.grouping l u ids [])
        { st.release i with db := db, log := .created i l.id u.id :: st.log } (.registered u.id)

theorem does_of_redeem (h : st.redeem parses i token body phase a = some (st', phase')) :
    Does st i token phase st' phase' := by
  have hkeep {p : RedeemPhase} (heq : some (st, p) = some (st', phase'))
      (hlink : p.link? = phase.link?) (haccount : p.account? = phase.account?) :
      Does st i token phase st' phase' := by
    obtain ⟨rfl, rfl⟩ := Prod.mk.inj (Option.some.inj heq)
    exact .keeps rfl rfl rfl hlink haccount
  have hback {e : Failure} (heq : some (st.rollback i e) = some (st', phase'))
      (haccount : phase.account? = none) : Does st i token phase st' phase' := by
    obtain ⟨rfl, rfl⟩ := Prod.mk.inj (Option.some.inj heq)
    exact .rollsBack haccount
  cases phase with
  | received =>
    cases a with
    | next =>
      dsimp only [redeem] at h
      split at h <;> exact hkeep h rfl rfl
    | fault => exact hback h rfl
    | _ => cases h
  | began start =>
    cases a with
    | next =>
      dsimp only [redeem] at h
      split at h
      · exact hback h rfl
      · rename_i l hl
        split_ifs at h with hlocked hmax
        · exact hback h rfl
        · obtain ⟨rfl, rfl⟩ := Prod.mk.inj (Option.some.inj h)
          exact .claims hl (Bool.eq_false_iff.mpr hlocked)
    | fault => exact hback h rfl
    | _ => cases h
  | claimed l =>
    cases a with
    | next =>
      dsimp only [redeem] at h
      split at h
      · exact hback h rfl
      · exact hkeep h rfl rfl
    | fault => exact hback h rfl
    | _ => cases h
  | named l =>
    cases a with
    | next =>
      dsimp only [redeem] at h
      split at h
      · exact hback h rfl
      · exact hkeep h rfl rfl
    | fault => exact hback h rfl
    | _ => cases h
  | checked l =>
    cases a with
    | insert userId =>
      dsimp only [redeem] at h
      split at h
      · cases h
      · split at h
        · exact hback h rfl
        · obtain ⟨rfl, rfl⟩ := Prod.mk.inj (Option.some.inj h)
          exact .keeps rfl rfl rfl rfl rfl
    | fault => exact hback h rfl
    | _ => cases h
  | inserted l u =>
    cases a with
    | next =>
      dsimp only [redeem] at h
      split at h
      · exact hkeep h rfl rfl
      · exact hback h rfl
    | fault => exact hback h rfl
    | _ => cases h
  | member l u =>
    cases a with
    | next =>
      dsimp only [redeem] at h
      split at h
      · exact hback h rfl
      · exact hkeep h rfl rfl
    | fault => exact hback h rfl
    | _ => cases h
  | grouping l u ids rest =>
    cases a with
    | next =>
      dsimp only [redeem] at h
      rcases rest with _ | ⟨gid, rest⟩
      · rw [group] at h
        split at h
        · exact hback h rfl
        · rename_i db hrows
          obtain ⟨rfl, rfl⟩ := Prod.mk.inj (Option.some.inj h)
          exact .commits hrows
      · rw [group] at h
        split at h
        · exact hkeep h rfl rfl
        · exact hback h rfl
    | fault => exact hback h rfl
    | _ => cases h
  | registered userId =>
    cases a with
    | next => exact hkeep h rfl rfl
    | fault => exact hkeep h rfl rfl
    | _ => cases h
  | succeeded userId => cases a <;> cases h
  | failed e userId => cases a <;> cases h

end InviteStore

/-! ### The invariant -/

/-- The accounts that have been created through a link. -/
def accountsOf (linkId : I64) : List LinkEvent → List I64
  | [] => []
  | .created _ k userId :: log =>
    if k = linkId then userId :: accountsOf linkId log else accountsOf linkId log
  | _ :: log => accountsOf linkId log

theorem mem_accountsOf {log : List LinkEvent} {linkId userId : I64} :
    userId ∈ accountsOf linkId log ↔ ∃ i, .created i linkId userId ∈ log := by
  induction log with
  | nil => simp [accountsOf]
  | cons e log ih =>
    cases e with
    | created i k u =>
      rw [accountsOf]
      split
      · rename_i hk
        simp [hk, ih, exists_or, eq_comm]
      · rename_i hk
        simp [ih, Ne.symm hk]
    | claimed i k start now => simp [accountsOf, ih]
    | revoked k => simp [accountsOf, ih]

/-- No claim of a link follows its revocation. -/
def LinkEvent.Follows : LinkEvent → LinkEvent → Prop
  | .claimed _ k _ _, .revoked k' => k ≠ k'
  | _, _ => True

namespace InviteStore

/-- **The accounting of the links.** -/
structure Sound (st : InviteStore) : Prop where
  ids : ((links st.db).map InviteLink.id).Nodup
  counts : ∀ l ∈ links st.db, ((accountsOf l.id st.log).length : ℤ) = l.usesCount
  caps : ∀ l ∈ links st.db, ∀ cap ∈ l.maxUses, l.usesCount ≤ cap
  locks : ∀ p ∈ st.locks, ∀ q ∈ st.locks, p.1 = q.1 → p.2 = q.2
  order : st.log.Pairwise LinkEvent.Follows
  revoked : ∀ k, .revoked k ∈ st.log → ∃ l ∈ links st.db, l.id = k ∧ l.revokedAt.isSome
  claimed : ∀ i k start now, .claimed i k start now ∈ st.log →
    ∃ l ∈ links st.db, l.id = k ∧ start < l.expiresAt
  created : ∀ i k u, .created i k u ∈ st.log → ∃ start now, .claimed i k start now ∈ st.log

/-- A transaction holds the row of the link that it has claimed, which is as it was then;
and a request has created the account that it says. -/
structure Holds (st : InviteStore) (i : ℕ) (t : Option RedeemRequest) : Prop where
  lock : ∀ r ∈ t, ∀ l ∈ r.phase.link?, (l.id, i) ∈ st.locks
  row : ∀ r ∈ t, ∀ l ∈ r.phase.link?, account l ∈ links st.db
  claimed : ∀ r ∈ t, ∀ l ∈ r.phase.link?, ∃ start now, .claimed i l.id start now ∈ st.log
  free : ∀ r ∈ t, ∀ l ∈ r.phase.link?, ∀ cap ∈ l.maxUses, l.usesCount < cap
  created : ∀ k u, .created i k u ∈ st.log → ∃ r ∈ t, r.phase.account? = some u

/-- What the others' transactions rely on: their rows are left alone, and nothing is said
to be theirs. -/
structure Spares (others : ℕ → Prop) (st st' : InviteStore) : Prop where
  locks : ∀ p ∈ st.locks, others p.2 → p ∈ st'.locks
  rows : ∀ l ∈ links st.db, ∀ j, others j → (l.id, j) ∈ st.locks → l ∈ links st'.db
  log : st.log ⊆ st'.log
  created : ∀ j k u, others j → .created j k u ∈ st'.log → .created j k u ∈ st.log

variable {st st' : InviteStore} {i : ℕ} {t : Option RedeemRequest} {r : RedeemRequest}
  {phase : RedeemPhase}

theorem Holds.spared {others : ℕ → Prop} (h : Holds st i t) (hsp : Spares others st st')
    (hi : others i) : Holds st' i t where
  lock := fun r hr l hl => hsp.locks _ (h.lock r hr l hl) hi
  row := fun r hr l hl => hsp.rows _ (h.row r hr l hl) i hi (h.lock r hr l hl)
  claimed := fun r hr l hl =>
    (h.claimed r hr l hl).imp fun _ h => h.imp fun _ h => hsp.log h
  free := h.free
  created := fun k u hc => h.created k u (hsp.created i k u hi hc)

/-- Nothing that matters changes. -/
theorem Sound.congr (h : Sound st) (hdb : links st'.db = links st.db)
    (hlocks : st'.locks ⊆ st.locks) (hlog : st'.log = st.log) : Sound st' where
  ids := hdb ▸ h.ids
  counts := by rw [hdb, hlog]; exact h.counts
  caps := hdb ▸ h.caps
  locks := fun p hp q hq => h.locks p (hlocks hp) q (hlocks hq)
  order := hlog ▸ h.order
  revoked := by rw [hdb, hlog]; exact h.revoked
  claimed := by rw [hdb, hlog]; exact h.claimed
  created := hlog ▸ h.created

theorem Spares.congr {others : ℕ → Prop} (hdb : links st'.db = links st.db)
    (hlocks : ∀ p ∈ st.locks, others p.2 → p ∈ st'.locks) (hlog : st'.log = st.log) :
    Spares others st st' :=
  ⟨hlocks, fun _ hl _ _ _ => hdb ▸ hl, hlog ▸ fun _ h => h, fun _ _ _ _ hc => hlog ▸ hc⟩

/-- Rows of links with one id are the same. -/
theorem Sound.unique (h : Sound st) {l l' : InviteLink} (hl : l ∈ links st.db)
    (hl' : l' ∈ links st.db) (heq : l.id = l'.id) : l = l' :=
  List.inj_on_of_nodup_map h.ids hl hl' heq

/-- The link that a token claims. -/
theorem claim?_eq_some {db : Db} {token : String} {start : Time} {l : InviteLink}
    (h : claim? db token start = some l) : account l ∈ links db ∧ l.revokedAt = none ∧
      start < l.expiresAt ∧ ∀ cap ∈ l.maxUses, l.usesCount < cap := by
  have hmem : l ∈ db.inviteLinks := List.mem_of_find?_eq_some h
  have halive := List.find?_some h
  simp only [InviteLink.isAlive, Bool.and_eq_true, Option.isNone_iff_eq_none,
    decide_eq_true_eq, Option.all_eq_true] at halive
  exact ⟨List.mem_map_of_mem hmem, halive.2.1.1, halive.2.1.2, halive.2.2⟩

/-- **A claim.** -/
theorem Sound.claim (h : Sound st) {start : Time} {l : InviteLink}
    (hl : claim? st.db r.token start = some l) (hfree : st.locked l.id = false) :
    Sound { st with
      locks := (l.id, i) :: st.locks
      log := .claimed i l.id start st.now :: st.log } where
  ids := h.ids
  counts := h.counts
  caps := h.caps
  locks := by
    have hne : ∀ p ∈ st.locks, p.1 ≠ l.id := fun p hp =>
      fun heq => List.any_eq_false.mp hfree p hp (decide_eq_true heq)
    rintro p (_ | ⟨_, hp⟩) q (_ | ⟨_, hq⟩) heq
    · rfl
    · exact absurd heq.symm (hne q hq)
    · exact absurd heq (hne p hp)
    · exact h.locks p hp q hq heq
  order := by
    obtain ⟨hmem, hrevoked, -⟩ := claim?_eq_some hl
    refine List.pairwise_cons.mpr ⟨?_, h.order⟩
    rintro (_ | k | _) he
    · trivial
    · rintro rfl
      obtain ⟨l', hl', hid, hsome⟩ := h.revoked l.id he
      rw [h.unique hl' hmem hid, show (account l).revokedAt = none from hrevoked] at hsome
      cases hsome
    · trivial
  revoked := by
    rintro k (_ | ⟨_, he⟩)
    exact h.revoked k he
  claimed := by
    obtain ⟨hmem, -, hstart, -⟩ := claim?_eq_some hl
    rintro j k start' now (_ | ⟨_, he⟩)
    · exact ⟨account l, hmem, rfl, hstart⟩
    · exact h.claimed j k start' now he
  created := by
    rintro j k u (_ | ⟨_, he⟩)
    obtain ⟨start', now, hc⟩ := h.created j k u he
    exact ⟨start', now, List.mem_cons_of_mem _ hc⟩

/-- **A commit.** -/
theorem Sound.commit (h : Sound st) {l : InviteLink} {u : User} {ids : List I64} {db : Db}
    (hrows : commitRows st.db l u ids = some db) (hmem : account l ∈ links st.db)
    (hcap : ∀ cap ∈ l.maxUses, l.usesCount < cap)
    (hclaimed : ∃ start now, .claimed i l.id start now ∈ st.log) :
    Sound { st.release i with db := db, log := .created i l.id u.id :: st.log } := by
  have hlinks := links_commitRows hrows
  -- a row after the commit is one from before, and one more use if it is the link's
  have hrow {l' : InviteLink} (hl' : l' ∈ links db) : ∃ l₀ ∈ links st.db,
      (if l₀.id = l.id then { l₀ with usesCount := l₀.usesCount + 1 } else l₀) = l' := by
    rw [hlinks, Table.mem_update] at hl'
    obtain ⟨l₀, hl₀, heq⟩ := hl'
    refine ⟨l₀, hl₀, heq ▸ ?_⟩
    simp only [decide_eq_true_eq]
  have hkept {l₀ : InviteLink} (hl₀ : l₀ ∈ links st.db) : ∃ l' ∈ links db, l'.id = l₀.id ∧
      l'.revokedAt = l₀.revokedAt ∧ l'.expiresAt = l₀.expiresAt := by
    rw [hlinks]
    refine ⟨_, Table.mem_update.mpr ⟨l₀, hl₀, rfl⟩, ?_⟩
    split <;> exact ⟨rfl, rfl, rfl⟩
  refine ⟨?_, ?_, ?_, ?_, ?_, ?_, ?_, ?_⟩
  · dsimp only
    rw [hlinks, Table.map_update_of_eq]
    · exact h.ids
    · exact fun _ => rfl
  · intro l' hl'
    obtain ⟨l₀, hl₀, rfl⟩ := hrow hl'
    have hcount := h.counts l₀ hl₀
    split
    · rename_i hid
      rw [accountsOf, if_pos hid.symm, List.length_cons, Nat.cast_succ, hcount]
    · rename_i hid
      rw [accountsOf, if_neg fun heq => hid heq.symm]
      exact hcount
  · intro l' hl' cap hmax
    obtain ⟨l₀, hl₀, rfl⟩ := hrow hl'
    split at hmax
    · rename_i hid
      rw [if_pos hid]
      obtain rfl := h.unique hl₀ hmem hid
      have := hcap cap hmax
      dsimp only [account]
      omega
    · rename_i hid
      rw [if_neg hid]
      exact h.caps l₀ hl₀ cap hmax
  · exact fun p hp q hq => h.locks p (List.mem_filter.mp hp).1 q (List.mem_filter.mp hq).1
  · refine List.pairwise_cons.mpr ⟨fun e _ => ?_, h.order⟩
    trivial
  · rintro k (_ | ⟨_, he⟩)
    obtain ⟨l₀, hl₀, hid, hsome⟩ := h.revoked k he
    obtain ⟨l', hl', hid', hrevoked, -⟩ := hkept hl₀
    exact ⟨l', hl', hid'.trans hid, hrevoked ▸ hsome⟩
  · rintro j k start now (_ | ⟨_, he⟩)
    obtain ⟨l₀, hl₀, hid, hstart⟩ := h.claimed j k start now he
    obtain ⟨l', hl', hid', -, hexp⟩ := hkept hl₀
    exact ⟨l', hl', hid'.trans hid, hexp ▸ hstart⟩
  · rintro j k u' (_ | ⟨_, he⟩)
    · obtain ⟨start, now, hc⟩ := hclaimed
      exact ⟨start, now, List.mem_cons_of_mem _ hc⟩
    · obtain ⟨start, now, hc⟩ := h.created j k u' he
      exact ⟨start, now, List.mem_cons_of_mem _ hc⟩

/-- A request goes on without a change to its claim or its account. -/
theorem Holds.goesOn (h : Holds st i (some r)) (hlink : phase.link? = r.phase.link?)
    (haccount : phase.account? = r.phase.account?) :
    Holds st i (some { r with phase := phase }) where
  lock := by
    rintro _ ⟨⟩
    exact hlink ▸ h.lock r rfl
  row := by
    rintro _ ⟨⟩
    exact hlink ▸ h.row r rfl
  claimed := by
    rintro _ ⟨⟩
    exact hlink ▸ h.claimed r rfl
  free := by
    rintro _ ⟨⟩
    exact hlink ▸ h.free r rfl
  created := by
    intro k u hc
    obtain ⟨_, ⟨⟩, hu⟩ := h.created k u hc
    exact ⟨_, rfl, haccount.trans hu⟩

/-- A request that holds no link. -/
theorem Holds.free_of_link {r : RedeemRequest} (hlink : r.phase.link? = none)
    (hcreated : ∀ k u, .created i k u ∈ st.log → r.phase.account? = some u) :
    Holds st i (some r) where
  lock := by
    rintro _ ⟨⟩ l hl
    rw [hlink] at hl
    cases hl
  row := by
    rintro _ ⟨⟩ l hl
    rw [hlink] at hl
    cases hl
  claimed := by
    rintro _ ⟨⟩ l hl
    rw [hlink] at hl
    cases hl
  free := by
    rintro _ ⟨⟩ l hl
    rw [hlink] at hl
    cases hl
  created := fun k u hc => ⟨r, rfl, hcreated k u hc⟩

/-- **A step of a request.** -/
theorem Sound.step (hs : Sound st) (h : Holds st i (some r))
    (hdoes : Does st i r.token r.phase st' phase) : Sound st' ∧
      Holds st' i (some { r with phase := phase }) ∧ Spares (fun j => j ≠ i) st st' := by
  -- a request that has no account yet has created none
  have hnone (haccount : r.phase.account? = none) (k u : I64) : .created i k u ∉ st.log := by
    intro hc
    obtain ⟨_, ⟨⟩, hu⟩ := h.created k u hc
    rw [haccount] at hu
    cases hu
  generalize hphase : r.phase = phase₀ at hdoes
  cases hdoes with
  | keeps hdb hlocks hlog hlink haccount =>
    have hlinks : links st'.db = links st.db := by rw [hdb]
    have hkeeps (others : ℕ → Prop) : Spares others st st' :=
      .congr hlinks (fun p hp _ => hlocks ▸ hp) hlog
    refine ⟨hs.congr hlinks (fun p hp => hlocks ▸ hp) hlog, ?_, hkeeps _⟩
    exact (h.spared (hkeeps fun _ => True) trivial).goesOn (hphase ▸ hlink) (hphase ▸ haccount)
  | @claims start l hl hfree =>
    obtain ⟨hmem, -, -, hcap⟩ := claim?_eq_some hl
    refine ⟨hs.claim hl hfree, ⟨?_, ?_, ?_, ?_, ?_⟩, ⟨?_, fun _ hl' _ _ _ => hl', ?_, ?_⟩⟩
    · rintro _ ⟨⟩ _ ⟨⟩
      exact List.mem_cons_self
    · rintro _ ⟨⟩ _ ⟨⟩
      exact hmem
    · rintro _ ⟨⟩ _ ⟨⟩
      exact ⟨start, st.now, List.mem_cons_self⟩
    · rintro _ ⟨⟩ _ ⟨⟩
      exact hcap
    · rintro k u (_ | ⟨_, hc⟩)
      exact absurd hc (hnone (by rw [hphase]; rfl) k u)
    · exact fun p hp _ => List.mem_cons_of_mem _ hp
    · exact fun _ he => List.mem_cons_of_mem _ he
    · rintro j k u - (_ | ⟨_, hc⟩)
      exact hc
  | rollsBack haccount =>
    refine ⟨hs.congr rfl (fun p hp => (List.mem_filter.mp hp).1) rfl,
      .free_of_link rfl fun k u hc => absurd hc (hnone (hphase ▸ haccount) k u), .congr rfl ?_ rfl⟩
    exact fun p hp hne => List.mem_filter.mpr ⟨hp, decide_eq_true hne⟩
  | @commits l u ids db hrows =>
    have hlink : l ∈ r.phase.link? := by rw [hphase]; rfl
    have hlock := h.lock r rfl l hlink
    refine ⟨hs.commit hrows (h.row r rfl l hlink) (h.free r rfl l hlink) (h.claimed r rfl l hlink),
      .free_of_link rfl ?_, ⟨?_, ?_, fun _ he => List.mem_cons_of_mem _ he, ?_⟩⟩
    · rintro k u' (_ | ⟨_, hc⟩)
      · rfl
      · exact absurd hc (hnone (by rw [hphase]; rfl) k u')
    · exact fun p hp hne => List.mem_filter.mpr ⟨hp, decide_eq_true hne⟩
    · intro l' hl' j hne hlock'
      have hother : l'.id ≠ l.id := fun heq => hne (hs.locks _ hlock' _ hlock heq)
      dsimp only
      rw [links_commitRows hrows]
      exact Table.mem_update.mpr ⟨l', hl', if_neg fun hid => hother (of_decide_eq_true hid)⟩
    · rintro j k u' hne (_ | ⟨_, hc⟩)
      · exact absurd rfl hne
      · exact hc

/-- **A revocation**, of a link whose row nobody holds. -/
theorem Sound.revoke (h : Sound st) {hubId linkId : I64} (hfree : st.locked linkId = false)
    (hthere : ∃ l ∈ links st.db, l.id = linkId ∧ l.hubId = hubId)
    (hst' : st' = { st with
      db := revokeRow st.db hubId linkId st.now
      log := .revoked linkId :: st.log }) : Sound st' ∧ Spares (fun _ => True) st st' := by
  subst hst'
  have hlinks : links (revokeRow st.db hubId linkId st.now) = _ := links_revokeRow
  -- a row is as it was, or was not revoked and is so now
  have hrow {l : InviteLink} (hl : l ∈ links (revokeRow st.db hubId linkId st.now)) :
      ∃ l₀ ∈ links st.db, l.id = l₀.id ∧ l.usesCount = l₀.usesCount ∧ l.maxUses = l₀.maxUses := by
    rw [hlinks, Table.mem_update] at hl
    obtain ⟨l₀, hl₀, rfl⟩ := hl
    refine ⟨l₀, hl₀, ?_⟩
    split <;> exact ⟨rfl, rfl, rfl⟩
  have hkept {l₀ : InviteLink} (hl₀ : l₀ ∈ links st.db) :
      ∃ l ∈ links (revokeRow st.db hubId linkId st.now), l.id = l₀.id ∧ l.expiresAt = l₀.expiresAt ∧
        (l₀.revokedAt.isSome ∨ l₀.id = linkId ∧ l₀.hubId = hubId → l.revokedAt.isSome) := by
    rw [hlinks]
    refine ⟨_, Table.mem_update.mpr ⟨l₀, hl₀, rfl⟩, ?_⟩
    split
    · exact ⟨rfl, rfl, fun _ => rfl⟩
    · rename_i hno
      refine ⟨rfl, rfl, fun hsome => ?_⟩
      rw [Bool.and_eq_true, decide_eq_true_eq, Option.isNone_iff_eq_none, not_and] at hno
      rcases hsome with hsome | hid
      · exact hsome
      · exact Option.isSome_iff_ne_none.mpr (hno hid)
  refine ⟨⟨?_, ?_, ?_, h.locks, List.pairwise_cons.mpr ⟨fun _ _ => trivial, h.order⟩, ?_, ?_, ?_⟩,
    ⟨fun _ hp _ => hp, ?_, fun _ he => List.mem_cons_of_mem _ he, ?_⟩⟩
  · dsimp only
    rw [hlinks, Table.map_update_of_eq]
    · exact h.ids
    · exact fun _ => rfl
  · intro l hl
    obtain ⟨l₀, hl₀, hid, huses, -⟩ := hrow hl
    rw [hid, huses]
    exact h.counts l₀ hl₀
  · intro l hl cap hcap
    obtain ⟨l₀, hl₀, -, huses, hmax⟩ := hrow hl
    rw [huses]
    exact h.caps l₀ hl₀ cap (hmax ▸ hcap)
  · rintro k (_ | ⟨_, hk⟩)
    · obtain ⟨l₀, hl₀, hid⟩ := hthere
      obtain ⟨l, hl, hid', -, hsome⟩ := hkept hl₀
      exact ⟨l, hl, hid'.trans hid.1, hsome (.inr hid)⟩
    · obtain ⟨l₀, hl₀, hid, hrevoked⟩ := h.revoked k hk
      obtain ⟨l, hl, hid', -, hsome⟩ := hkept hl₀
      exact ⟨l, hl, hid'.trans hid, hsome (.inl hrevoked)⟩
  · rintro j k start now (_ | ⟨_, hc⟩)
    obtain ⟨l₀, hl₀, hid, hstart⟩ := h.claimed j k start now hc
    obtain ⟨l, hl, hid', hexp, -⟩ := hkept hl₀
    exact ⟨l, hl, hid'.trans hid, hexp ▸ hstart⟩
  · rintro j k u (_ | ⟨_, hc⟩)
    obtain ⟨start, now, hc⟩ := h.created j k u hc
    exact ⟨start, now, List.mem_cons_of_mem _ hc⟩
  · intro l hl j _ hlock
    dsimp only
    rw [hlinks]
    refine Table.mem_update.mpr ⟨l, hl, if_neg fun hp => ?_⟩
    rw [Bool.and_eq_true, decide_eq_true_eq] at hp
    exact List.any_eq_false.mp hfree _ hlock (decide_eq_true hp.1.1)
  · rintro j k u - (_ | ⟨_, hc⟩)
    exact hc

/-- **A step of the surroundings.** -/
theorem Sound.around (h : Sound st) (e : Env) :
    Sound (env st e) ∧ Spares (fun _ => True) st (env st e) := by
  have hrefl : Sound st ∧ Spares (fun _ => True) st st :=
    ⟨h, .congr rfl (fun _ hp _ => hp) rfl⟩
  cases e with
  | tick d => exact ⟨h.congr rfl (fun _ hp => hp) rfl, .congr rfl (fun _ hp _ => hp) rfl⟩
  | create l =>
    dsimp only [env]
    split_ifs with hmax
    · split
      · exact hrefl
      · rename_i db hins
        obtain ⟨hlinks, hne⟩ := links_insertInviteLink hins
        have hmem {l' : InviteLink} (hl' : l' ∈ links st.db) : l' ∈ links db := by
          rw [hlinks]
          exact List.mem_cons_of_mem _ hl'
        refine ⟨⟨?_, ?_, ?_, h.locks, h.order, ?_, ?_, h.created⟩,
          ⟨fun _ hp _ => hp, fun _ hl' _ _ _ => hmem hl', fun _ he => he, fun _ _ _ _ hc => hc⟩⟩
        · dsimp only
          rw [hlinks, List.map_cons, List.nodup_cons]
          refine ⟨fun hid => ?_, h.ids⟩
          obtain ⟨l', hl', heq⟩ := List.mem_map.mp hid
          exact hne l' hl' heq
        · intro l' hl'
          dsimp only at hl'
          rw [hlinks] at hl'
          rcases List.mem_cons.mp hl' with rfl | hl'
          · -- nobody has created an account through a link that was not there
            have hnil : accountsOf l.id st.log = [] := by
              refine List.eq_nil_iff_forall_not_mem.mpr fun u hu => ?_
              obtain ⟨j, hj⟩ := mem_accountsOf.mp hu
              obtain ⟨start, now, hc⟩ := h.created j l.id u hj
              obtain ⟨l₀, hl₀, hid, -⟩ := h.claimed j l.id start now hc
              exact hne l₀ hl₀ hid
            have hzero : ((accountsOf l.id st.log).length : ℤ) = 0 := by rw [hnil]; rfl
            exact hzero
          · exact h.counts l' hl'
        · intro l' hl' cap hcap
          dsimp only at hl'
          rw [hlinks] at hl'
          rcases List.mem_cons.mp hl' with rfl | hl'
          · have hpos := of_decide_eq_true (Option.all_eq_true _ _ |>.mp hmax cap hcap)
            dsimp only [account]
            omega
          · exact h.caps l' hl' cap hcap
        · intro k hk
          obtain ⟨l', hl', hid⟩ := h.revoked k hk
          exact ⟨l', hmem hl', hid⟩
        · intro j k start now hc
          obtain ⟨l', hl', hid⟩ := h.claimed j k start now hc
          exact ⟨l', hmem hl', hid⟩
    · exact hrefl
  | revoke hubId linkId =>
    dsimp only [env]
    split_ifs with hcond
    · exact hrefl
    · rw [Bool.or_eq_true, not_or, Bool.not_eq_true, Bool.not_eq_true', Bool.not_eq_false] at hcond
      obtain ⟨l, hl, hid⟩ := List.any_eq_true.mp hcond.2
      exact h.revoke hcond.1 ⟨account l, List.mem_map_of_mem hl, of_decide_eq_true hid⟩ rfl
  | commit db =>
    dsimp only [env]
    split_ifs with hcond
    · exact ⟨h.congr hcond.1 (fun _ hp => hp) rfl, .congr hcond.1 (fun _ hp _ => hp) rfl⟩
    · exact hrefl

theorem sound {parses : String → Bool} {w : Tasks ℕ InviteStore (Option RedeemRequest)}
    (hw : (system parses).Reachable w) : Sound w.shared ∧ Tasks.Each Holds w := by
  refine Tasks.invariant (I := fun w => Sound w.shared ∧ Tasks.Each Holds w) ?_ ?_ ?_ hw
  · rintro w ⟨hnone, hlocks, hpending, hlog, hids, hunused⟩
    have hlink {l : InviteLink} (hl : l ∈ links w.shared.db) :
        l.usesCount = 0 ∧ ∀ cap ∈ l.maxUses, 0 < cap := by
      obtain ⟨l₀, hl₀, rfl⟩ := List.mem_map.mp hl
      exact hunused l₀ hl₀
    refine ⟨⟨?_, ?_, ?_, ?_, ?_, ?_, ?_, ?_⟩, fun i => ⟨?_, ?_, ?_, ?_, ?_⟩⟩
    · rw [links, List.map_map]
      exact hids
    · intro l hl
      rw [hlog, (hlink hl).1]
      rfl
    · intro l hl cap hcap
      rw [(hlink hl).1]
      exact ((hlink hl).2 cap hcap).le
    · simp [hlocks]
    · simp [hlog]
    · simp [hlog]
    · simp [hlog]
    · simp [hlog]
    · simp [hnone]
    · simp [hnone]
    · simp [hnone]
    · simp [hnone]
    · simp [hlog]
  · rintro w i a s t ⟨hs, heach⟩ - hrun
    have hi := heach i
    cases htask : w.task i with
    | none =>
      rw [htask] at hrun hi
      cases a with
      | arrive token body =>
        obtain ⟨rfl, rfl⟩ := Prod.mk.inj (Option.some.inj hrun)
        refine ⟨hs, heach.set (.free_of_link rfl fun k u hc => ?_) fun j _ hj => hj⟩
        obtain ⟨_, ⟨⟩, -⟩ := hi.created k u hc
      | _ => cases hrun
    | some r =>
      rw [htask] at hrun hi
      obtain ⟨⟨st', phase⟩, hstep, heq⟩ := Option.map_eq_some_iff.mp hrun
      obtain ⟨rfl, rfl⟩ := Prod.mk.inj heq
      obtain ⟨hs', hi', hsp⟩ := hs.step hi (does_of_redeem hstep)
      exact ⟨hs', heach.set hi' fun j hne hj => hj.spared hsp hne⟩
  · rintro w e ⟨hs, heach⟩ -
    obtain ⟨hs', hsp⟩ := hs.around e
    exact ⟨hs', heach.around fun j hj => hj.spared hsp trivial⟩

end InviteStore

/-! ### What a commit writes -/

section Commit

variable {db db' : Db} {l : InviteLink} {u : User} {ids : List I64}

/-- A commit adds one user. -/
theorem users_commitRows (h : commitRows db l u ids = some db') :
    db'.users = u :: db.users ∧ ∀ u' ∈ db.users, u'.id ≠ u.id := by
  rw [commitRows] at h
  split at h
  · cases h
  · rename_i db₁ huser
    obtain ⟨db₂, hmember, hgroups⟩ := Option.bind_eq_some_iff.mp h
    obtain ⟨-, hfresh⟩ := Db.insertUser_eq_ok huser
    refine ⟨?_, hfresh⟩
    rw [Db.insertMemberGroups_apart Db.users (fun _ _ _ _ => rfl) hgroups]
    rw [Db.insertHubMember] at hmember
    split_ifs at hmember
    obtain ⟨_, -, rfl⟩ := Option.map_eq_some_iff.mp hmember
    rw [Db.insertUser] at huser
    split at huser
    · cases huser
    · obtain rfl := Except.ok.inj huser
      rfl

/-- **One request by itself** does what `MateHub.Hub.redeemInviteLink` says: it checks the
body, claims the link and commits. -/
theorem redeemInviteLink_eq_ok {parses : String → Bool} {token : String} {body : RedeemInviteLink}
    {now : Time} {nextId : I64} {r : I64 × Db} :
    redeemInviteLink db parses token body now nextId = .ok r ↔
      checkBody parses body = none ∧ ∃ l everyone, claim? db token now = some l ∧
        db.defaultGroup? l.hubId = some everyone ∧ r.1 = nextId ∧
        commitRows db l (newUser body nextId) (groupIds everyone.id l.groupId) = some r.2 := by
  have hbody : checkBody parses body = none ↔ isValidUsername (Text.trim body.username) = true ∧
      decide (6 ≤ body.password.utf8ByteSize) = true ∧
      isSafeDisplayName (Text.trim body.displayName) = true ∧
      isValidEmail parses (Text.trim body.email) = true := by
    rw [checkBody]
    split_ifs <;> simp_all
  -- the default group is the same before and after the account is inserted
  have hgroups {l : InviteLink} {db₁ db₂ : Db} (huser : (claimSlot db l).insertUser
      (newUser body nextId) = .ok db₁) (hmember : db₁.insertHubMember ⟨l.hubId, nextId, "member"⟩ =
      some db₂) : db₂.defaultGroup? l.hubId = db.defaultGroup? l.hubId := by
    rw [Db.defaultGroup?, (Db.insertHubMember_alone hmember).groups,
      (Db.insertUser_eq_ok huser).1.groups]
    rfl
  simp only [redeemInviteLink, require_eq_ok, found_eq_ok, attempt_eq_ok, hbody, and_assoc]
  refine and_congr_right' (and_congr_right' (and_congr_right' (and_congr_right' ?_)))
  constructor
  · rintro ⟨l, hl, db₁, huser, db₃, hrows, hr⟩
    obtain rfl := Except.ok.inj hr
    obtain ⟨db₂, hmember, hrows⟩ := Option.bind_eq_some_iff.mp hrows
    obtain ⟨everyone, heveryone, hrows⟩ := Option.bind_eq_some_iff.mp hrows
    refine ⟨l, everyone, hl, (hgroups huser hmember).symm.trans heveryone, rfl, ?_⟩
    rw [commitRows, show (claimSlot db l).insertUser (newUser body nextId) = .ok db₁ from huser]
    exact Option.bind_eq_some_iff.mpr ⟨db₂, hmember, hrows⟩
  · rintro ⟨l, everyone, hl, heveryone, hid, hrows⟩
    rw [commitRows] at hrows
    split at hrows
    · cases hrows
    · rename_i db₁ huser
      obtain ⟨db₂, hmember, hrows⟩ := Option.bind_eq_some_iff.mp hrows
      refine ⟨l, hl, db₁, huser, r.2, ?_, ?_⟩
      · exact Option.bind_eq_some_iff.mpr ⟨db₂, hmember, Option.bind_eq_some_iff.mpr
          ⟨everyone, (hgroups huser hmember).trans heveryone, hrows⟩⟩
      · rw [← hid]

end Commit

/-- **The accounts of an invite link.** In every run, a link counts the accounts that have
been created through it, and no more than it allows; an account comes of a claim that no
revocation of the link precedes, in a transaction that began before the link expires; and a
request changes the database only by its commit, which inserts one user, so that one which
fails before has changed nothing. -/
theorem accounts_of_link {parses : String → Bool} {w : Tasks ℕ InviteStore (Option RedeemRequest)}
    (hw : (InviteStore.system parses).Reachable w) :
    (∀ l ∈ w.shared.db.inviteLinks,
      ((accountsOf l.id w.shared.log).length : ℤ) = l.usesCount ∧
        ∀ cap ∈ l.maxUses, l.usesCount ≤ cap) ∧
    (∀ i linkId userId, .created i linkId userId ∈ w.shared.log →
      ∃ start now later earlier, w.shared.log = later ++ .claimed i linkId start now :: earlier ∧
        .revoked linkId ∉ earlier ∧
        ∀ l ∈ w.shared.db.inviteLinks, l.id = linkId → start < l.expiresAt) ∧
    (∀ i a st t, InviteStore.run parses w.shared i (w.task i) a = some (st, t) →
      st.db = w.shared.db ∨ ∃ l u ids, commitRows w.shared.db l u ids = some st.db ∧
        st.db.users = u :: w.shared.db.users ∧ st.log = .created i l.id u.id :: w.shared.log) ∧
    ∀ i r e, w.task i = some r → r.phase = .failed e none →
      ∀ linkId userId, .created i linkId userId ∉ w.shared.log := by
  obtain ⟨hs, heach⟩ := InviteStore.sound hw
  refine ⟨fun l hl => ?_, fun i linkId userId hc => ?_, fun i a st t hrun => ?_, ?_⟩
  · have hmem : InviteStore.account l ∈ InviteStore.links w.shared.db := List.mem_map_of_mem hl
    have hcount := hs.counts (InviteStore.account l) hmem
    have hcap := hs.caps (InviteStore.account l) hmem
    exact ⟨hcount, hcap⟩
  · obtain ⟨start, now, hclaimed⟩ := hs.created i linkId userId hc
    obtain ⟨later, earlier, hlog⟩ := List.append_of_mem hclaimed
    refine ⟨start, now, later, earlier, hlog, fun hrevoked => ?_, fun l hl hid => ?_⟩
    · have horder := hs.order
      rw [hlog, List.pairwise_append] at horder
      have hfollows := (List.pairwise_cons.mp horder.2.1).1 _ hrevoked
      exact hfollows rfl
    · obtain ⟨l', hl', hid', hstart⟩ := hs.claimed i linkId start now hclaimed
      have hmem : InviteStore.account l ∈ InviteStore.links w.shared.db := List.mem_map_of_mem hl
      rwa [hs.unique hl' hmem (hid'.trans hid.symm)] at hstart
  · cases htask : w.task i with
    | none =>
      rw [htask] at hrun
      cases a with
      | arrive token body =>
        obtain ⟨rfl, rfl⟩ := Prod.mk.inj (Option.some.inj hrun)
        exact .inl rfl
      | _ => cases hrun
    | some r =>
      rw [htask] at hrun
      obtain ⟨⟨st', phase⟩, hstep, heq⟩ := Option.map_eq_some_iff.mp hrun
      obtain ⟨rfl, rfl⟩ := Prod.mk.inj heq
      generalize hphase : r.phase = phase₀ at hstep
      cases InviteStore.does_of_redeem hstep with
      | keeps hdb => exact .inl hdb
      | claims => exact .inl rfl
      | rollsBack => exact .inl rfl
      | @commits l u ids db hrows => exact .inr ⟨l, u, ids, hrows, (users_commitRows hrows).1, rfl⟩
  · intro i r e hr hphase linkId userId hc
    obtain ⟨r', hr', haccount⟩ := (heach i).created linkId userId hc
    rw [Option.mem_unique hr' hr, hphase] at haccount
    cases haccount

/-! ### Runs -/

/-- A link with one use, which expires at 100. -/
def oneUse : InviteLink := ⟨i64 1, Seed.hub, "t", 100, some 1, 0, none, Seed.alice, none⟩

/-- A database with a link that may be used once. -/
def oneUseStore : InviteStore where
  db := { Seed.devSeed with inviteLinks := [oneUse] }
  now := 10
  locks := []
  pending := []
  log := []

def dana : RedeemInviteLink := ⟨"dana", "secret", "Dana", "dana@matehub.dev"⟩
def erin : RedeemInviteLink := ⟨"erin", "secret", "Erin", "erin@matehub.dev"⟩

/-- What comes of a run of requests for that link. -/
def redeemRun (as : List (Tasks.Act ℕ RedeemAct InviteStore.Env)) :
    Tasks ℕ InviteStore (Option RedeemRequest) :=
  as.foldl (Tasks.next (InviteStore.run fun _ => true) InviteStore.env)
    ⟨oneUseStore, fun _ => none⟩

theorem reachable_redeemRun (as : List (Tasks.Act ℕ RedeemAct InviteStore.Env)) :
    (InviteStore.system fun _ => true).Reachable (redeemRun as) := by
  refine Tasks.reachable_foldl ⟨fun _ => rfl, rfl, rfl, rfl, by decide, fun l hl => ?_⟩ as
  obtain rfl := List.mem_singleton.mp hl
  exact ⟨rfl, by decide⟩

/-- A request whose transaction begins. -/
def beginRedeem (i : ℕ) (body : RedeemInviteLink) :
    List (Tasks.Act ℕ RedeemAct InviteStore.Env) :=
  [.task i (.arrive "t" body), .task i .next]

/-- The statements of a request from its claim to its `COMMIT`. -/
def fromClaim (i : ℕ) (userId : I64) : List (Tasks.Act ℕ RedeemAct InviteStore.Env) :=
  [.task i .next, .task i .next, .task i .next, .task i (.insert userId), .task i .next,
    .task i .next, .task i .next, .task i .next]

/-- Dana and Erin both want the last use. Dana has claimed it, and Erin's claim waits until
Dana's transaction ends. -/
def lastUse : List (Tasks.Act ℕ RedeemAct InviteStore.Env) :=
  beginRedeem 0 dana ++ beginRedeem 1 erin ++ [.task 0 .next, .task 1 .next] ++
    (fromClaim 0 (i64 1004)).tail ++ [.task 1 .next]

/-- Dana gets it, the link is revoked afterwards, and Erin gets nothing. -/
theorem accounts_of_link_lastUse :
    let w := redeemRun (lastUse ++ [.env (.revoke Seed.hub oneUse.id)])
    accountsOf oneUse.id w.shared.log = [i64 1004] ∧ .revoked oneUse.id ∈ w.shared.log ∧
    (∀ l ∈ w.shared.db.inviteLinks,
      ((accountsOf l.id w.shared.log).length : ℤ) = l.usesCount ∧
        ∀ cap ∈ l.maxUses, l.usesCount ≤ cap) ∧
    (∃ start now later earlier,
      w.shared.log = later ++ .claimed 0 oneUse.id start now :: earlier ∧
        .revoked oneUse.id ∉ earlier ∧
        ∀ l ∈ w.shared.db.inviteLinks, l.id = oneUse.id → start < l.expiresAt) ∧
    ∀ i r e, w.task i = some r → r.phase = .failed e none →
      ∀ linkId userId, .created i linkId userId ∉ w.shared.log := by
  obtain ⟨hcounts, hcreated, -, hfailed⟩ :=
    accounts_of_link (reachable_redeemRun (lastUse ++ [.env (.revoke Seed.hub oneUse.id)]))
  exact ⟨by decide +kernel, by decide +kernel, hcounts,
    hcreated 0 oneUse.id (i64 1004) (by decide +kernel), hfailed⟩

/-- **A link is redeemed after it has expired**, in a transaction that began before. -/
theorem redeemed_after_expiry : ∃ w, (InviteStore.system fun _ => true).Reachable w ∧
    ∃ l ∈ w.shared.db.inviteLinks, ∃ i start now userId,
      .claimed i l.id start now ∈ w.shared.log ∧ l.expiresAt ≤ now ∧
        .created i l.id userId ∈ w.shared.log :=
  ⟨_, reachable_redeemRun
      (beginRedeem 0 dana ++ [.env (.tick 200)] ++ fromClaim 0 (i64 1004)),
    { oneUse with usesCount := 1 }, by decide +kernel, 0, 10, 210, i64 1004, by decide +kernel,
    by decide, by decide +kernel⟩

end Hub

end MateHub
