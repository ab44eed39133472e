import MateHub.Hub.Api
import MateHub.Hub.Redeem
import MateHub.Hub.Refresh
import MateHub.Lib.Transaction

/-!
# Accounts that are made by half

Three endpoints make an account: `redeem_invite_link`, `accept_invitation` and `setup_admin`.
Each checks the request, writes its rows in one transaction, and after the commit issues the
tokens with which the new user is logged in. Anything on the way may fail
(`MateHub.Hub.Point`): a statement, the hashing of the password, a token. A fault before the
commit, and a failing commit, leave nothing. After the commit the account is there, so that a
request which fails then, or does not learn of its commit, has made it and says that it has failed
(`MateHub.Hub.Signup.atomic_iff_reaches`), and to try again is refused.

A statement that a constraint outside these tables refuses, as the one on the slugs of hubs,
counts as struck by a fault. The table of the refresh tokens is left out, as only the last
two statements write to it.
-/

namespace MateHub

namespace Hub

open Chat (I64)
open Transaction (Body Handler)

/-- Where a fault may strike. -/
inductive Point
  | begin
  | advisoryLock
  | alreadySetUp
  | claim
  | invitation
  | hubContext
  | usernameTaken
  | emailTaken
  | passwordHash
  | insertUser
  | insertHub
  | insertGroups
  | insertHubMember
  | defaultGroup
  /-- One of the insertions of a loop, by its position. -/
  | insertMemberGroup (n : ℕ)
  /-- Two memberships in one statement. -/
  | insertMemberGroups
  | insertChannel
  | insertChannelPermission
  | useInvitation
  | commit
  /-- The commit is carried out, and its answer does not come. -/
  | commitAnswer
  | hubSlug
  | accessToken
  | deleteOldestTokens
  | insertRefreshToken
  deriving DecidableEq

/-- What a request draws: the ids, the refresh token, and the times at which its transaction
begins and its tokens are issued. -/
structure Draw where
  now : Time
  ids : SetupIds
  refreshToken : String
  issuedAt : Time

/-- A new account, in the groups that its access token names. -/
structure Account where
  userId : I64
  username : String
  displayName : String
  hubId : I64
  groups : List I64
  deriving DecidableEq

/-- The reply; the slug and the name of the hub are left out. -/
structure Welcome where
  accessToken : Claims
  refreshToken : String
  expiresIn : ℤ
  userId : I64
  username : String
  displayName : String
  hubId : I64
  deriving DecidableEq

namespace Onboarding

/-! ### Statements that the endpoints share -/

/-- The insertion of a user, which a constraint may refuse. -/
def insertUser (e : Failure) (conflict : String → Failure) (u : User) :
    Body Point Failure Db Unit :=
  Body.statement .insertUser e fun db =>
    match db.insertUser u with
    | .error constraint => .error (conflict constraint)
    | .ok db => .ok ((), db)

/-- A statement that writes some rows. -/
def write (p : Point) (e : Failure) (ws : List Write) : Body Point Failure Db Unit :=
  Body.statement p e fun db =>
    match Script.run Write.exec db ws with
    | none => .error e
    | some db => .ok ((), db)

/-- The default group of a hub, which has to be there. -/
def defaultGroup (e : Failure) (hubId : I64) : Body Point Failure Db Group :=
  Body.statement .defaultGroup e fun db =>
    match db.defaultGroup? hubId with
    | none => .error e
    | some everyone => .ok (everyone, db)

/-- The loop over the groups, from a position on. -/
def insertGroups (e : Failure) (hubId userId : I64) : ℕ → List I64 → Body Point Failure Db Unit
  | _, [] => pure ()
  | n, gid :: rest => do
    write (.insertMemberGroup n) e [.insertMemberGroup ⟨hubId, userId, gid⟩]
    insertGroups e hubId userId (n + 1) rest

/-- The new account becomes a member, and is put into the groups that go with the default
group. -/
def enrol (e : Failure) (hubId userId : I64) (ids : I64 → List I64) :
    Body Point Failure Db (List I64) := do
  write .insertHubMember e [.insertHubMember ⟨hubId, userId, "member"⟩]
  let everyone ← defaultGroup e hubId
  insertGroups e hubId userId 0 (ids everyone.id)
  return ids everyone.id

/-- `issue_access_token`. -/
def issueAccessToken (d : Draw) (a : Account) : Claims :=
  ⟨a.userId, a.username, .permanent, a.hubId, a.groups, d.issuedAt,
    d.issuedAt + accessTokenTtlSecs⟩

/-- The tokens, of which `issue_refresh_token` makes one with two statements. -/
def issueTokens (e : Failure) (d : Draw) (a : Account) : Handler Point Failure Db Welcome := do
  Handler.step .accessToken e
  Handler.step .deleteOldestTokens e
  Handler.step .insertRefreshToken e
  return ⟨issueAccessToken d a, d.refreshToken, accessTokenTtlSecs, a.userId, a.username,
    a.displayName, a.hubId⟩

/-- The slug of the hub, and the tokens. -/
def welcome (e : Failure) (d : Draw) (a : Account) : Handler Point Failure Db Welcome := do
  let _ ← Handler.read .hubSlug e fun db => db.hubs.find? fun h => decide (h.id = a.hubId)
  issueTokens e d a

/-! ### Redeeming a link -/

/-- The `UPDATE` that claims a use of a link. -/
def claimLink (token : String) (now : Time) : Body Point Failure Db InviteLink :=
  Body.statement .claim internal fun db =>
    match claim? db token now with
    | none => .error (err "link_unavailable" .gone)
    | some l => if maxUsesCount ≤ l.usesCount then .error internal else .ok (l, claimSlot db l)

/-- The transaction of `redeem_invite_link`. -/
def redeemRows (token : String) (body : RedeemInviteLink) (d : Draw) :
    Body Point Failure Db Account := do
  let l ← claimLink token d.now
  Body.step .hubContext internal
  Body.query .usernameTaken internal
    (fun db => !(db.users.any fun u => decide (u.username = Text.trim body.username)))
    (err "username_taken" .conflict)
  Body.query .emailTaken internal
    (fun db => !(db.users.any fun u => decide (u.email = some (Text.trim body.email))))
    (err "email_taken" .conflict)
  Body.step .passwordHash internal
  insertUser internal conflictCode (newUser body d.ids.userId)
  let groups ← enrol internal l.hubId d.ids.userId fun everyone => groupIds everyone l.groupId
  return ⟨d.ids.userId, Text.trim body.username, Text.trim body.displayName, l.hubId, groups⟩

/-- `redeem_invite_link`. -/
def redeemInviteLink (parses : String → Bool) (token : String) (body : RedeemInviteLink)
    (d : Draw) : Handler Point Failure Db Welcome :=
  match checkBody parses body with
  | some e => Handler.refuse e
  | none =>
    Handler.transaction .begin .commit .commitAnswer internal (redeemRows token body d) >>=
      welcome internal d

/-! ### Accepting an invitation -/

/-- The user that an invitation makes. -/
def invitedUser (i : Invitation) (body : AcceptInvitation) (userId : I64) : User :=
  ⟨userId, i.username, body.displayName, i.email, .permanent, none, none⟩

/-- The `SELECT ... FOR UPDATE` of an invitation, which must not be used. -/
def invitation (token : String) : Body Point Failure Db Invitation :=
  Body.statement .invitation internalServerError fun db =>
    match db.invitations.find? fun i => i.token == token with
    | none => .error (.status .notFound)
    | some i => if i.usedAt.isSome then .error (.status .gone) else .ok (i, db)

/-- The transaction of `accept_invitation`. -/
def acceptRows (token : String) (body : AcceptInvitation) (d : Draw) :
    Body Point Failure Db Account := do
  let i ← invitation token
  Body.step .hubContext internalServerError
  Body.step .passwordHash internalServerError
  insertUser internalServerError (fun _ => .status .conflict) (invitedUser i body d.ids.userId)
  let groups ← enrol internalServerError i.hubId d.ids.userId fun everyone =>
    everyone :: i.groupId.toList
  write .useInvitation internalServerError [.useInvitation i d.ids.userId d.now]
  return ⟨d.ids.userId, i.username, body.displayName, i.hubId, groups⟩

/-- What `accept_invitation` requires of its body. -/
def acceptable (body : AcceptInvitation) : Bool :=
  !(body.password.isEmpty || (Text.trim body.displayName).isEmpty)

/-- `accept_invitation`. -/
def acceptInvitation (token : String) (body : AcceptInvitation) (d : Draw) :
    Handler Point Failure Db Welcome :=
  if acceptable body then
    Handler.transaction .begin .commit .commitAnswer internalServerError
      (acceptRows token body d) >>= welcome internalServerError d
  else Handler.refuse (.status .badRequest)

/-! ### The first run -/

/-- What `setup_admin` writes after its user, statement by statement. -/
def setupStatements (ids : SetupIds) : Body Point Failure Db Unit := do
  write .insertHub internalServerError [.insertHub ⟨ids.hubId, some ids.userId⟩]
  Body.step .hubContext internalServerError
  write .insertGroups internalServerError
    [.insertGroup ⟨ids.adminGroupId, ids.hubId, "admin", some "#E74C3C", 0, false, Bits.all⟩,
      .insertGroup ⟨ids.everyoneGroupId, ids.hubId, "everyone", some "#99AAB5", 100, true, 0⟩]
  write .insertHubMember internalServerError
    [.insertHubMember ⟨ids.hubId, ids.userId, "admin"⟩]
  write .insertMemberGroups internalServerError
    [.insertMemberGroup ⟨ids.hubId, ids.userId, ids.adminGroupId⟩,
      .insertMemberGroup ⟨ids.hubId, ids.userId, ids.everyoneGroupId⟩]
  write .insertChannel internalServerError
    [.insertChannel ⟨ids.generalChannelId, ids.hubId, "general", "text", 0, none, noIcon⟩]
  write .insertChannelPermission internalServerError
    [.insertChannelPermission
      ⟨ids.generalChannelId, ids.everyoneGroupId, Bits.memberChannel, 0⟩]

/-- The transaction of `setup_admin`. -/
def setupAdminRows (body : SetupAdmin) (d : Draw) : Body Point Failure Db Account := do
  Body.step .advisoryLock internalServerError
  Body.query .alreadySetUp internalServerError (fun db => db.hubMembers.isEmpty)
    (.status .conflict)
  Body.step .passwordHash internalServerError
  insertUser internalServerError (fun _ => .status .conflict) (body.user d.ids.userId)
  setupStatements d.ids
  return ⟨d.ids.userId, body.username, body.displayName, d.ids.hubId,
    [d.ids.adminGroupId, d.ids.everyoneGroupId]⟩

/-- What `setup_admin` requires of its body. -/
def complete (body : SetupAdmin) : Bool :=
  !(body.username.isEmpty || body.password.isEmpty || body.hubName.isEmpty)

/-- `setup_admin`. -/
def setupAdmin (body : SetupAdmin) (d : Draw) : Handler Point Failure Db Welcome :=
  if complete body then
    Handler.transaction .begin .commit .commitAnswer internalServerError
      (setupAdminRows body d) >>= issueTokens internalServerError d
  else Handler.refuse (.status .badRequest)

/-! ### When the rows are written -/

section Rows

variable {faults : Point → Bool} {db db' : Db} {e : Failure} {hubId userId : I64} {d : Draw}

/-- The insertion of a user goes through where no fault strikes, and no constraint refuses it. -/
theorem insertUser_eq_ok {conflict : String → Failure} {u : User} {r : Unit × Db} :
    insertUser e conflict u faults db = .ok r ↔
      faults .insertUser = false ∧ db.insertUser u = .ok r.2 := by
  rw [insertUser, Body.statement_eq_ok]
  refine and_congr_right fun _ => ?_
  rcases db.insertUser u with c | db₁
  · exact ⟨nofun, nofun⟩
  · constructor
    · rintro ⟨⟩
      rfl
    · intro h
      rw [Except.ok.inj h]

/-- Rows are written where no fault strikes, and they fit. -/
theorem write_eq_ok {p : Point} {ws : List Write} {r : Unit × Db} :
    write p e ws faults db = .ok r ↔
      faults p = false ∧ Script.run Write.exec db ws = some r.2 := by
  rw [write, Body.statement_eq_ok]
  refine and_congr_right fun _ => ?_
  rcases Script.run Write.exec db ws with _ | db₁
  · exact ⟨nofun, nofun⟩
  · constructor
    · rintro ⟨⟩
      rfl
    · intro h
      rw [Option.some.inj h]

/-- The default group is found where it is there. -/
theorem defaultGroup_eq_ok {r : Group × Db} :
    defaultGroup e hubId faults db = .ok r ↔
      faults .defaultGroup = false ∧ db.defaultGroup? hubId = some r.1 ∧ r.2 = db := by
  rw [defaultGroup, Body.statement_eq_ok]
  refine and_congr_right fun _ => ?_
  rcases db.defaultGroup? hubId with _ | everyone
  · exact ⟨nofun, nofun⟩
  · constructor
    · rintro ⟨⟩
      exact ⟨rfl, rfl⟩
    · rintro ⟨h, hr⟩
      rw [Option.some.inj h, ← hr]

/-- The loop over the groups goes through where no fault strikes at any position. -/
theorem insertGroups_eq_ok {gids : List I64} {n : ℕ} {r : Unit × Db} :
    insertGroups e hubId userId n gids faults db = .ok r ↔
      (∀ k < gids.length, faults (.insertMemberGroup (n + k)) = false) ∧
        db.insertMemberGroups hubId userId gids = some r.2 := by
  induction gids generalizing n db with
  | nil =>
    rw [insertGroups, Body.pure_eq_ok]
    constructor
    · rintro rfl
      exact ⟨fun k hk => absurd hk (Nat.not_lt_zero k), rfl⟩
    · rintro ⟨-, h⟩
      exact Prod.ext rfl (Option.some.inj h).symm
  | cons gid gids ih =>
    rw [insertGroups, Body.bind_eq_ok]
    constructor
    · rintro ⟨_, db₁, hwrite, hrest⟩
      obtain ⟨hfault, hrun⟩ := write_eq_ok.mp hwrite
      obtain ⟨hfaults, hins⟩ := ih.mp hrest
      refine ⟨fun k hk => ?_, ?_⟩
      · rcases k with _ | k
        · exact hfault
        · have hk' := hfaults k (Nat.lt_of_succ_lt_succ hk)
          rwa [Nat.add_right_comm] at hk'
      · rw [Db.insertMemberGroups, List.foldlM_cons]
        rw [Script.run_singleton] at hrun
        exact Option.bind_eq_some_iff.mpr ⟨db₁, hrun, hins⟩
    · rintro ⟨hfaults, hins⟩
      rw [Db.insertMemberGroups, List.foldlM_cons] at hins
      obtain ⟨db₁, hfirst, hins⟩ := Option.bind_eq_some_iff.mp hins
      refine ⟨(), db₁, write_eq_ok.mpr ⟨hfaults 0 (Nat.succ_pos _), ?_⟩, ih.mpr ⟨?_, hins⟩⟩
      · rw [Script.run_singleton]
        exact hfirst
      · intro k hk
        have hk' := hfaults (k + 1) (Nat.succ_lt_succ hk)
        rwa [← Nat.add_assoc, Nat.add_right_comm] at hk'

/-- A new account is enrolled in the default group and those that go with it. -/
theorem enrol_eq_ok {ids : I64 → List I64} {r : List I64 × Db} :
    enrol e hubId userId ids faults db = .ok r ↔
      ∃ everyone, db.defaultGroup? hubId = some everyone ∧
        (faults .insertHubMember = false ∧ faults .defaultGroup = false ∧
          ∀ k < (ids everyone.id).length, faults (.insertMemberGroup k) = false) ∧
        registerRows db hubId userId ids = some r.2 ∧ r.1 = ids everyone.id := by
  simp only [enrol, Body.bind_eq_ok, write_eq_ok, defaultGroup_eq_ok, insertGroups_eq_ok,
    Body.pure_eq_ok, Script.run_singleton, Nat.zero_add, Write.exec]
  constructor
  · rintro ⟨_, db₁, ⟨hmember, hins⟩, everyone, _, ⟨hgroup, heveryone, hsame⟩, _, db₂,
      ⟨hgroups, hrows⟩, rfl⟩
    rw [hsame] at hrows
    refine ⟨everyone, ?_, ⟨hmember, hgroup, hgroups⟩, ?_, rfl⟩
    · rwa [defaultGroup?_insertHubMember hins] at heveryone
    · exact Option.bind_eq_some_iff.mpr
        ⟨db₁, hins, Option.bind_eq_some_iff.mpr ⟨everyone, heveryone, hrows⟩⟩
  · rintro ⟨everyone, heveryone, ⟨hmember, hgroup, hgroups⟩, hreg, hids⟩
    obtain ⟨db₁, hins, hreg⟩ := Option.bind_eq_some_iff.mp hreg
    obtain ⟨everyone', heveryone', hrows⟩ := Option.bind_eq_some_iff.mp hreg
    have hsame : everyone' = everyone := by
      rw [defaultGroup?_insertHubMember hins, heveryone] at heveryone'
      exact (Option.some.inj heveryone').symm
    subst hsame
    exact ⟨(), db₁, ⟨hmember, hins⟩, everyone', db₁, ⟨hgroup, heveryone', rfl⟩, (), r.2,
      ⟨hgroups, hrows⟩, Prod.ext hids rfl⟩

/-- A use of a link is claimed where some are left. -/
theorem claimLink_eq_ok {token : String} {now : Time} {r : InviteLink × Db} :
    claimLink token now faults db = .ok r ↔ faults .claim = false ∧
      claim? db token now = some r.1 ∧ r.1.usesCount < maxUsesCount ∧ r.2 = claimSlot db r.1 := by
  rw [claimLink, Body.statement_eq_ok]
  rcases claim? db token now with _ | l
  · simp
  · rcases lt_or_ge l.usesCount maxUsesCount with hlt | hle
    · simp only [if_neg (not_le.mpr hlt), Except.ok.injEq, Option.some.injEq]
      constructor
      · rintro ⟨h, rfl⟩
        exact ⟨h, rfl, hlt, rfl⟩
      · rintro ⟨h, rfl, -, hr⟩
        exact ⟨h, Prod.ext rfl hr.symm⟩
    · simp only [if_pos hle, Option.some.injEq]
      constructor
      · rintro ⟨-, h⟩
        cases h
      · rintro ⟨-, rfl, hlt, -⟩
        exact absurd hle (not_le.mpr hlt)

/-- An invitation is found where it is not used. -/
theorem invitation_eq_ok {token : String} {r : Invitation × Db} :
    invitation token faults db = .ok r ↔ faults .invitation = false ∧
      (db.invitations.find? fun i => i.token == token) = some r.1 ∧ r.1.usedAt = none ∧
        r.2 = db := by
  rw [invitation, Body.statement_eq_ok]
  generalize (db.invitations.find? fun i => i.token == token) = row?
  refine and_congr_right fun _ => ?_
  rcases row? with _ | i
  · exact ⟨nofun, nofun⟩
  · by_cases hused : i.usedAt = none
    · have hnone : ¬i.usedAt.isSome = true := by simp [hused]
      simp only [if_neg hnone, Except.ok.injEq, Option.some.injEq]
      constructor
      · rintro rfl
        exact ⟨rfl, hused, rfl⟩
      · rintro ⟨rfl, -, hr⟩
        exact Prod.ext rfl hr.symm
    · have hsome : i.usedAt.isSome = true := Option.isSome_iff_ne_none.mpr hused
      simp only [if_pos hsome, Option.some.injEq]
      constructor
      · intro h
        cases h
      · rintro ⟨rfl, hnone, -⟩
        exact absurd hnone hused

/-- A user that can be inserted has a name and an address that are free. -/
theorem names_free {body : RedeemInviteLink} {l : InviteLink} {userId : I64}
    (h : (claimSlot db l).insertUser (newUser body userId) = .ok db') :
    (!(claimSlot db l).users.any fun u => decide (u.username = Text.trim body.username)) = true ∧
      (!(claimSlot db l).users.any fun u => decide (u.email = some (Text.trim body.email))) =
        true := by
  have hnone : db.userConflict (newUser body userId) = none := by
    rcases hconflict : db.userConflict (newUser body userId) with _ | c
    · rfl
    · have herror : (claimSlot db l).insertUser (newUser body userId) = .error c := by
        rw [Db.insertUser]
        split
        · rename_i c' hc'
          exact congrArg _ (Option.some.inj (hc'.symm.trans hconflict))
        · rename_i hc'
          cases hc'.symm.trans hconflict
      rw [herror] at h
      cases h
  rw [Db.userConflict] at hnone
  split_ifs at hnone with hname hemail
  refine ⟨?_, ?_⟩
  · rw [Bool.not_eq_true'] 
    exact Bool.eq_false_iff.mpr hname
  · rw [Bool.not_eq_true']
    refine Bool.eq_false_iff.mpr fun hany => hemail ?_
    rw [Bool.and_eq_true]
    exact ⟨rfl, hany⟩

/-! ### The rows of each endpoint -/

/-- No fault strikes at some points. -/
def Clear (faults : Point → Bool) (points : List Point) : Prop := ∀ p ∈ points, faults p = false

/-- No fault strikes at any of some points. -/
theorem clear_cons {p : Point} {points : List Point} :
    Clear faults (p :: points) ↔ faults p = false ∧ Clear faults points :=
  List.forall_mem_cons

/-- No fault strikes nowhere. -/
theorem clear_nil : Clear faults [] := fun _ hp => nomatch hp

/-- No fault strikes in either of two parts. -/
theorem clear_append {points points' : List Point} :
    Clear faults (points ++ points') ↔ Clear faults points ∧ Clear faults points' :=
  List.forall_mem_append

/-- No fault strikes in a loop over so many groups. -/
theorem clear_insertMemberGroup {n : ℕ} :
    Clear faults ((List.range n).map .insertMemberGroup) ↔
      ∀ k < n, faults (.insertMemberGroup k) = false := by
  constructor
  · intro h k hk
    exact h _ (List.mem_map_of_mem (List.mem_range.mpr hk))
  · intro h p hp
    obtain ⟨k, hk, rfl⟩ := List.mem_map.mp hp
    exact h k (List.mem_range.mp hk)

/-- Where a fault may strike an enrolment in a number of groups. -/
def enrolPoints (n : ℕ) : List Point :=
  .insertHubMember :: .defaultGroup :: (List.range n).map .insertMemberGroup

/-- The points of the transaction of `redeem_invite_link`, with so many groups. -/
def redeemPoints (n : ℕ) : List Point :=
  .claim :: .hubContext :: .usernameTaken :: .emailTaken :: .passwordHash :: .insertUser ::
    enrolPoints n

/-- The points of the transaction of `accept_invitation`. -/
def acceptPoints (n : ℕ) : List Point :=
  .invitation :: .hubContext :: .passwordHash :: .insertUser :: (enrolPoints n ++ [.useInvitation])

/-- The points of the transaction of `setup_admin`. -/
def setupPoints : List Point :=
  [.advisoryLock, .alreadySetUp, .passwordHash, .insertUser, .insertHub, .hubContext,
    .insertGroups, .insertHubMember, .insertMemberGroups, .insertChannel, .insertChannelPermission]

/-- No fault strikes as an account is enrolled. -/
theorem clear_enrolPoints {n : ℕ} : Clear faults (enrolPoints n) ↔
    faults .insertHubMember = false ∧ faults .defaultGroup = false ∧
      ∀ k < n, faults (.insertMemberGroup k) = false := by
  rw [enrolPoints, clear_cons, clear_cons, clear_insertMemberGroup]

/-- **When the rows of `redeem_invite_link` are written.** -/
theorem redeemRows_eq_ok {token : String} {body : RedeemInviteLink} {r : Account × Db} :
    redeemRows token body d faults db = .ok r ↔ ∃ l db₁ everyone,
      claim? db token d.now = some l ∧ l.usesCount < maxUsesCount ∧
      (claimSlot db l).insertUser (newUser body d.ids.userId) = .ok db₁ ∧
      db₁.defaultGroup? l.hubId = some everyone ∧
      registerRows db₁ l.hubId d.ids.userId (fun everyone => groupIds everyone l.groupId) =
        some r.2 ∧
      Clear faults (redeemPoints (groupIds everyone.id l.groupId).length) ∧
      r.1 = ⟨d.ids.userId, Text.trim body.username, Text.trim body.displayName, l.hubId,
        groupIds everyone.id l.groupId⟩ := by
  simp only [redeemRows, redeemPoints, clear_cons, clear_enrolPoints, Body.bind_eq_ok,
    claimLink_eq_ok, Body.step_eq_ok, Body.query_eq_ok, insertUser_eq_ok, enrol_eq_ok,
    Body.pure_eq_ok]
  constructor
  · rintro ⟨l, db₁, ⟨h₁, hclaim, hcount, rfl⟩, _, db₂, ⟨h₂, heq₂⟩, _, db₃, ⟨h₃, -, heq₃⟩, _, db₄,
      ⟨h₄, -, heq₄⟩, _, db₅, ⟨h₅, heq₅⟩, _, db₆, ⟨h₆, huser⟩, groups, db₇,
      ⟨everyone, heveryone, hclear, hrows, hgroups⟩, rfl⟩
    obtain ⟨-, rfl⟩ := Prod.mk.inj heq₂
    obtain ⟨-, rfl⟩ := Prod.mk.inj heq₃
    obtain ⟨-, rfl⟩ := Prod.mk.inj heq₄
    obtain ⟨-, rfl⟩ := Prod.mk.inj heq₅
    exact ⟨l, db₆, everyone, hclaim, hcount, huser, heveryone, hrows,
      ⟨h₁, h₂, h₃, h₄, h₅, h₆, hclear⟩, hgroups ▸ rfl⟩
  · rintro ⟨l, db₁, everyone, hclaim, hcount, huser, heveryone, hrows,
      ⟨h₁, h₂, h₃, h₄, h₅, h₆, hclear⟩, hr⟩
    obtain ⟨hname, hemail⟩ := names_free huser
    exact ⟨l, _, ⟨h₁, hclaim, hcount, rfl⟩, (), _, ⟨h₂, rfl⟩, (), _, ⟨h₃, hname, rfl⟩, (), _,
      ⟨h₄, hemail, rfl⟩, (), _, ⟨h₅, rfl⟩, (), db₁, ⟨h₆, huser⟩, _, r.2,
      ⟨everyone, heveryone, hclear, hrows, rfl⟩, Prod.ext hr rfl⟩

/-- **When the rows of `accept_invitation` are written.** -/
theorem acceptRows_eq_ok {token : String} {body : AcceptInvitation} {r : Account × Db} :
    acceptRows token body d faults db = .ok r ↔ ∃ i db₁ everyone db₂,
      (db.invitations.find? fun i => i.token == token) = some i ∧ i.usedAt = none ∧
      db.insertUser (invitedUser i body d.ids.userId) = .ok db₁ ∧
      db₁.defaultGroup? i.hubId = some everyone ∧
      registerRows db₁ i.hubId d.ids.userId (fun everyone => everyone :: i.groupId.toList) =
        some db₂ ∧
      Clear faults (acceptPoints (everyone.id :: i.groupId.toList).length) ∧
      r = (⟨d.ids.userId, i.username, body.displayName, i.hubId, everyone.id :: i.groupId.toList⟩,
        useInvitation db₂ i d.ids.userId d.now) := by
  simp only [acceptRows, acceptPoints, clear_cons, clear_append, clear_enrolPoints,
    Body.bind_eq_ok, invitation_eq_ok, Body.step_eq_ok, insertUser_eq_ok, enrol_eq_ok,
    write_eq_ok, Script.run_singleton, Write.exec, Body.pure_eq_ok, Option.some.injEq]
  constructor
  · rintro ⟨i, db₁, ⟨h₁, hfind, hused, rfl⟩, _, db₂, ⟨h₂, heq₂⟩, _, db₃, ⟨h₃, heq₃⟩, _, db₄,
      ⟨h₄, huser⟩, groups, db₅, ⟨everyone, heveryone, hclear, hrows, hgroups⟩, _, db₆, ⟨h₆, huse⟩,
      rfl⟩
    obtain ⟨-, rfl⟩ := Prod.mk.inj heq₂
    obtain ⟨-, rfl⟩ := Prod.mk.inj heq₃
    exact ⟨i, db₄, everyone, db₅, hfind, hused, huser, heveryone, hrows,
      ⟨h₁, h₂, h₃, h₄, hclear, h₆, clear_nil⟩, hgroups ▸ huse ▸ rfl⟩
  · rintro ⟨i, db₁, everyone, db₂, hfind, hused, huser, heveryone, hrows,
      ⟨h₁, h₂, h₃, h₄, hclear, h₆, -⟩, rfl⟩
    exact ⟨i, db, ⟨h₁, hfind, hused, rfl⟩, (), db, ⟨h₂, rfl⟩, (), db, ⟨h₃, rfl⟩, (), db₁,
      ⟨h₄, huser⟩, _, db₂, ⟨everyone, heveryone, hclear, hrows, rfl⟩, (), _, ⟨h₆, rfl⟩, rfl⟩

/-- The statements of `setup_admin` go through where no fault strikes, and their rows fit. -/
theorem setupStatements_eq_ok {ids : SetupIds} {r : Unit × Db} :
    setupStatements ids faults db = .ok r ↔ Script.run Write.exec db (setupRows ids) = some r.2 ∧
      Clear faults [.insertHub, .hubContext, .insertGroups, .insertHubMember, .insertMemberGroups,
        .insertChannel, .insertChannelPermission] := by
  -- the script is that of the statements, one after another
  have hrows : setupRows ids = [.insertHub ⟨ids.hubId, some ids.userId⟩] ++
      ([.insertGroup ⟨ids.adminGroupId, ids.hubId, "admin", some "#E74C3C", 0, false, Bits.all⟩,
        .insertGroup ⟨ids.everyoneGroupId, ids.hubId, "everyone", some "#99AAB5", 100, true, 0⟩] ++
      ([.insertHubMember ⟨ids.hubId, ids.userId, "admin"⟩] ++
      ([.insertMemberGroup ⟨ids.hubId, ids.userId, ids.adminGroupId⟩,
        .insertMemberGroup ⟨ids.hubId, ids.userId, ids.everyoneGroupId⟩] ++
      ([.insertChannel ⟨ids.generalChannelId, ids.hubId, "general", "text", 0, none, noIcon⟩] ++
      [.insertChannelPermission
        ⟨ids.generalChannelId, ids.everyoneGroupId, Bits.memberChannel, 0⟩])))) := by
    simp only [setupRows, List.cons_append, List.nil_append]
  rw [hrows]
  simp only [setupStatements, clear_cons, Body.bind_eq_ok, write_eq_ok, Body.step_eq_ok,
    Script.run_append, Option.bind_eq_some_iff]
  constructor
  · rintro ⟨_, db₁, ⟨h₁, hrun₁⟩, _, db₂, ⟨h₂, heq₂⟩, _, db₃, ⟨h₃, hrun₃⟩, _, db₄, ⟨h₄, hrun₄⟩, _,
      db₅, ⟨h₅, hrun₅⟩, _, db₆, ⟨h₆, hrun₆⟩, h₇, hrun₇⟩
    obtain ⟨-, rfl⟩ := Prod.mk.inj heq₂
    exact ⟨⟨db₂, hrun₁, db₃, hrun₃, db₄, hrun₄, db₅, hrun₅, db₆, hrun₆, hrun₇⟩,
      h₁, h₂, h₃, h₄, h₅, h₆, h₇, clear_nil⟩
  · rintro ⟨⟨db₂, hrun₁, db₃, hrun₃, db₄, hrun₄, db₅, hrun₅, db₆, hrun₆, hrun₇⟩,
      h₁, h₂, h₃, h₄, h₅, h₆, h₇, -⟩
    exact ⟨(), db₂, ⟨h₁, hrun₁⟩, (), db₂, ⟨h₂, rfl⟩, (), db₃, ⟨h₃, hrun₃⟩, (), db₄, ⟨h₄, hrun₄⟩,
      (), db₅, ⟨h₅, hrun₅⟩, (), db₆, ⟨h₆, hrun₆⟩, h₇, hrun₇⟩

/-- **When the rows of `setup_admin` are written.** -/
theorem setupAdminRows_eq_ok {body : SetupAdmin} {r : Account × Db} :
    setupAdminRows body d faults db = .ok r ↔ ∃ db₁, db.hubMembers.isEmpty = true ∧
      db.insertUser (body.user d.ids.userId) = .ok db₁ ∧
      Script.run Write.exec db₁ (setupRows d.ids) = some r.2 ∧ Clear faults setupPoints ∧
      r.1 = ⟨d.ids.userId, body.username, body.displayName, d.ids.hubId,
        [d.ids.adminGroupId, d.ids.everyoneGroupId]⟩ := by
  simp only [setupAdminRows, setupPoints, clear_cons, Body.bind_eq_ok, Body.step_eq_ok,
    Body.query_eq_ok, insertUser_eq_ok, setupStatements_eq_ok, Body.pure_eq_ok]
  constructor
  · rintro ⟨_, db₁, ⟨h₁, heq₁⟩, _, db₂, ⟨h₂, hempty, heq₂⟩, _, db₃, ⟨h₃, heq₃⟩, _, db₄,
      ⟨h₄, huser⟩, _, db₅, ⟨hrun, hclear⟩, rfl⟩
    obtain ⟨-, rfl⟩ := Prod.mk.inj heq₁
    obtain ⟨-, rfl⟩ := Prod.mk.inj heq₂
    obtain ⟨-, rfl⟩ := Prod.mk.inj heq₃
    exact ⟨db₄, hempty, huser, hrun, ⟨h₁, h₂, h₃, h₄, hclear⟩, rfl⟩
  · rintro ⟨db₁, hempty, huser, hrun, ⟨h₁, h₂, h₃, h₄, hclear⟩, hr⟩
    exact ⟨(), db, ⟨h₁, rfl⟩, (), db, ⟨h₂, hempty, rfl⟩, (), db, ⟨h₃, rfl⟩, (), db₁,
      ⟨h₄, huser⟩, (), r.2, ⟨hrun, hclear⟩, Prod.ext hr rfl⟩

/-! ### When the constraints accept the rows -/

section Exec

variable {w : Write} (hexec : w.exec db = some db')

include hexec

/-- A statement that does not write to the hubs finds the same ones. -/
theorem hasHub_exec (h : w.touches .hubs = false) : db'.hasHub = db.hasHub := by
  have hsame : db'.hubs = db.hubs := Write.untouched hexec .hubs h
  funext id
  rw [Db.hasHub, hsame, Db.hasHub]

/-- One that does not write to the users finds the same ones. -/
theorem hasUser_exec (h : w.touches .users = false) : db'.hasUser = db.hasUser := by
  have hsame : db'.users = db.users := Write.untouched hexec .users h
  funext id
  rw [Db.hasUser, hsame, Db.hasUser]

/-- One that does not write to the groups finds the same ones. -/
theorem hasGroup_exec (h : w.touches .groups = false) : db'.hasGroup = db.hasGroup := by
  have hsame : db'.groups = db.groups := Write.untouched hexec .groups h
  funext id
  rw [Db.hasGroup, hsame, Db.hasGroup]

/-- One that does not write to the channels finds the same ones. -/
theorem hasChannel_exec (h : w.touches .channels = false) : db'.hasChannel = db.hasChannel := by
  have hsame : db'.channels = db.channels := Write.untouched hexec .channels h
  funext id
  rw [Db.hasChannel, hsame, Db.hasChannel]

end Exec

/-- A user can be inserted who is in conflict with none. -/
theorem exists_insertUser {u : User} :
    (∃ db', db.insertUser u = .ok db') ↔ db.userConflict u = none := by
  constructor
  · rintro ⟨db', h⟩
    rw [Db.insertUser] at h
    split at h
    · cases h
    · assumption
  · intro h
    rw [Db.insertUser]
    split
    · rename_i c hc
      cases h.symm.trans hc
    · exact ⟨_, rfl⟩

/-- A user that is inserted is the only one that is new. -/
theorem users_insertUser {u : User} (h : db.insertUser u = .ok db') :
    db'.users = u :: db.users := by
  rw [Db.insertUser] at h
  split at h
  · cases h
  · obtain rfl := Except.ok.inj h
    rfl

/-- When a member can be inserted. -/
theorem exists_insertHubMember {m : HubMember} :
    (∃ db', db.insertHubMember m = some db') ↔ db.hasHub m.hubId = true ∧
      db.hasUser m.userId = true ∧
        Table.hasKey (fun m => (m.hubId, m.userId)) m db.hubMembers = false := by
  rw [Db.insertHubMember, Table.insert]
  rcases db.hasHub m.hubId with _ | _
  · simp
  · rcases db.hasUser m.userId with _ | _
    · simp
    · rcases Table.hasKey (fun m => (m.hubId, m.userId)) m db.hubMembers with _ | _ <;> simp

/-- When somebody can be put into a group. -/
theorem exists_insertMemberGroup {groupId : I64} :
    (∃ db', db.insertMemberGroup hubId userId groupId = some db') ↔ db.hasHub hubId = true ∧
      db.hasUser userId = true ∧ db.hasGroup groupId = true := by
  rw [Db.insertMemberGroup]
  split
  · rename_i h
    rcases db.hasHub hubId with _ | _
    · simp
    · simp [h]
  · rename_i h
    constructor
    · rintro ⟨_, h'⟩
      cases h'
    · rintro ⟨-, huser, hgroup⟩
      exact absurd ⟨hgroup, huser⟩ h

/-- When somebody can be put into some groups, by induction over them. -/
theorem exists_insertMemberGroups {gids : List I64} (hhub : db.hasHub hubId = true)
    (huser : db.hasUser userId = true) :
    (∃ db', db.insertMemberGroups hubId userId gids = some db') ↔
      ∀ gid ∈ gids, db.hasGroup gid = true := by
  induction gids generalizing db with
  | nil => exact ⟨fun _ _ hgid => (nomatch hgid), fun _ => ⟨db, rfl⟩⟩
  | cons gid gids ih =>
    rw [Db.insertMemberGroups, List.foldlM_cons, List.forall_mem_cons]
    have hrest {db₁ : Db} (h : db.insertMemberGroup hubId userId gid = some db₁) :
        (∃ db', db₁.insertMemberGroups hubId userId gids = some db') ↔
          ∀ gid ∈ gids, db.hasGroup gid = true := by
      have hexec : Write.exec db (.insertMemberGroup ⟨hubId, userId, gid⟩) = some db₁ := h
      rw [← hasGroup_exec hexec rfl]
      refine ih ?_ ?_
      · rwa [hasHub_exec hexec rfl]
      · rwa [hasUser_exec hexec rfl]
    constructor
    · rintro ⟨db', h⟩
      obtain ⟨db₁, h₁, h⟩ := Option.bind_eq_some_iff.mp h
      exact ⟨(exists_insertMemberGroup.mp ⟨db₁, h₁⟩).2.2, (hrest h₁).mp ⟨db', h⟩⟩
    · rintro ⟨hgid, hgids⟩
      obtain ⟨db₁, h₁⟩ := exists_insertMemberGroup.mpr ⟨hhub, huser, hgid⟩
      obtain ⟨db', h⟩ := (hrest h₁).mpr hgids
      exact ⟨db', Option.bind_eq_some_iff.mpr ⟨db₁, h₁, h⟩⟩

/-- A new user can become a member of a hub, and be put into some groups. -/
structure CanEnrol (db : Db) (hubId userId : I64) (everyone : Group) (gids : List I64) : Prop where
  hub : db.hasHub hubId = true
  fresh : Table.hasKey (fun m : HubMember => (m.hubId, m.userId)) ⟨hubId, userId, "member"⟩
    db.hubMembers = false
  default : db.defaultGroup? hubId = some everyone
  groups : ∀ gid ∈ gids, db.hasGroup gid = true

/-- **When the rows of a registration can be written.** -/
theorem exists_registerRows {ids : I64 → List I64} {everyone : Group}
    (huser : db.hasUser userId = true) (heveryone : db.defaultGroup? hubId = some everyone) :
    (∃ db', registerRows db hubId userId ids = some db') ↔
      CanEnrol db hubId userId everyone (ids everyone.id) := by
  have hrest {db₁ : Db} (h : db.insertHubMember ⟨hubId, userId, "member"⟩ = some db₁) :
      db₁.defaultGroup? hubId = some everyone ∧ db₁.hasUser userId = true ∧
        db₁.hasHub = db.hasHub ∧ db₁.hasGroup = db.hasGroup := by
    have hexec : Write.exec db (.insertHubMember ⟨hubId, userId, "member"⟩) = some db₁ := h
    refine ⟨?_, ?_, hasHub_exec hexec rfl, hasGroup_exec hexec rfl⟩
    · rwa [defaultGroup?_insertHubMember h]
    · rwa [hasUser_exec hexec rfl]
  constructor
  · rintro ⟨db', h⟩
    obtain ⟨db₁, hins, h⟩ := Option.bind_eq_some_iff.mp h
    obtain ⟨everyone', heveryone', h⟩ := Option.bind_eq_some_iff.mp h
    obtain ⟨hdefault, huser₁, hhub₁, hgroup⟩ := hrest hins
    obtain rfl := Option.some.inj (hdefault.symm.trans heveryone')
    obtain ⟨hhub, -, hfresh⟩ := exists_insertHubMember.mp ⟨db₁, hins⟩
    refine ⟨hhub, hfresh, heveryone, ?_⟩
    rw [← hgroup]
    rw [← hhub₁] at hhub
    exact (exists_insertMemberGroups hhub huser₁).mp ⟨db', h⟩
  · rintro ⟨hhub, hfresh, -, hgroups⟩
    obtain ⟨db₁, hins⟩ := exists_insertHubMember.mpr ⟨hhub, huser, hfresh⟩
    obtain ⟨hdefault, huser₁, hhub₁, hgroup⟩ := hrest hins
    rw [← hhub₁] at hhub
    rw [← hgroup] at hgroups
    obtain ⟨db', h⟩ := (exists_insertMemberGroups hhub huser₁).mpr hgroups
    exact ⟨db', Option.bind_eq_some_iff.mpr
      ⟨db₁, hins, Option.bind_eq_some_iff.mpr ⟨everyone, hdefault, h⟩⟩⟩

/-- A registration leaves the users and the hubs. -/
theorem registerRows_same {ids : I64 → List I64}
    (h : registerRows db hubId userId ids = some db') :
    db'.users = db.users ∧ db'.hubs = db.hubs ∧ db.hasHub hubId = true := by
  obtain ⟨db₁, hins, h⟩ := Option.bind_eq_some_iff.mp h
  obtain ⟨everyone, -, h⟩ := Option.bind_eq_some_iff.mp h
  have hhub := (exists_insertHubMember.mp ⟨db₁, hins⟩).1
  have hexec : Write.exec db (.insertHubMember ⟨hubId, userId, "member"⟩) = some db₁ := hins
  have hhubs : db₁.hubs = db.hubs := Write.untouched hexec .hubs rfl
  have husers : db₁.users = db.users := Write.untouched hexec .users rfl
  rw [← hhubs, ← husers]
  exact ⟨Db.insertMemberGroups_apart Db.users (fun _ _ _ _ => rfl) h,
    Db.insertMemberGroups_apart Db.hubs (fun _ _ _ _ => rfl) h, hhub⟩

/-- The ids that a setup draws are new. -/
structure Fresh (ids : SetupIds) (db : Db) : Prop where
  hub : db.hasHub ids.hubId = false
  adminGroup : db.hasGroup ids.adminGroupId = false
  everyoneGroup : db.hasGroup ids.everyoneGroupId = false
  groups : ids.adminGroupId ≠ ids.everyoneGroupId
  channel : db.hasChannel ids.generalChannelId = false

/-- When a hub can be inserted. -/
theorem exists_insertHub {h : HubRow} : (∃ db', db.insertHub h = some db') ↔
    db.hasHub h.id = false ∧ h.creatorId.all db.hasUser = true := by
  rw [Db.insertHub]
  rcases db.hasHub h.id with _ | _ <;> rcases h.creatorId.all db.hasUser with _ | _ <;> simp

/-- A hub that is inserted is the only one that is new. -/
theorem hubs_insertHub {h : HubRow} (hins : db.insertHub h = some db') :
    db'.hubs = h :: db.hubs := by
  rw [Db.insertHub] at hins
  split at hins
  · cases hins
  · obtain rfl := Option.some.inj hins
    rfl

/-- A setup leaves the users, and makes its hub. -/
theorem setupRows_same {ids : SetupIds}
    (h : Script.run Write.exec db (setupRows ids) = some db') :
    db'.users = db.users ∧ db'.hasHub ids.hubId = true := by
  have husers : db'.users = db.users := by
    refine Write.run_untouched (r := .users) h fun w hw => ?_
    simp only [setupRows, List.mem_cons, List.not_mem_nil, or_false] at hw
    rcases hw with rfl | rfl | rfl | rfl | rfl | rfl | rfl | rfl <;> rfl
  obtain ⟨db₁, h₁, hrun⟩ := Option.bind_eq_some_iff.mp h
  have hhubs : db'.hubs = db₁.hubs := by
    refine Write.run_untouched (r := .hubs) hrun fun w hw => ?_
    simp only [List.mem_cons, List.not_mem_nil, or_false] at hw
    rcases hw with rfl | rfl | rfl | rfl | rfl | rfl | rfl <;> rfl
  refine ⟨husers, ?_⟩
  rw [Db.hasHub, hhubs, hubs_insertHub h₁]
  simp

/-- Claiming a use of a link leaves what an enrolment rests on. -/
theorem canEnrol_claimSlot {l : InviteLink} {everyone : Group} {gids : List I64} :
    CanEnrol (claimSlot db l) hubId userId everyone gids ↔
      CanEnrol db hubId userId everyone gids :=
  ⟨fun h => ⟨h.hub, h.fresh, h.default, h.groups⟩, fun h => ⟨h.hub, h.fresh, h.default, h.groups⟩⟩

/-- A new user can be enrolled where the others could. -/
theorem canEnrol_iff {u : User} (ids : I64 → List I64) {everyone : Group}
    (h : db.insertUser u = .ok db') (hid : u.id = userId) :
    CanEnrol db hubId userId everyone (ids everyone.id) ↔
      db'.defaultGroup? hubId = some everyone ∧
        ∃ db'', registerRows db' hubId userId ids = some db'' := by
  subst hid
  have huser : db'.hasUser u.id = true := by
    rw [Db.hasUser, users_insertUser h]
    simp
  have hexec := exec_insertUser h
  have hsame : CanEnrol db' hubId u.id everyone (ids everyone.id) ↔
      CanEnrol db hubId u.id everyone (ids everyone.id) := by
    have hmembers : db'.hubMembers = db.hubMembers := Write.untouched hexec .hubMembers rfl
    have hgroups : db'.groups = db.groups := Write.untouched hexec .groups rfl
    have hdefault : db'.defaultGroup? hubId = db.defaultGroup? hubId := by
      rw [Db.defaultGroup?, hgroups, Db.defaultGroup?]
    constructor
    · rintro ⟨h₁, h₂, h₃, h₄⟩
      rw [hasHub_exec hexec rfl] at h₁
      rw [hmembers] at h₂
      rw [hdefault] at h₃
      rw [hasGroup_exec hexec rfl] at h₄
      exact ⟨h₁, h₂, h₃, h₄⟩
    · rintro ⟨h₁, h₂, h₃, h₄⟩
      rw [← hasHub_exec hexec rfl] at h₁
      rw [← hmembers] at h₂
      rw [← hdefault] at h₃
      rw [← hasGroup_exec hexec rfl] at h₄
      exact ⟨h₁, h₂, h₃, h₄⟩
  rw [← hsame]
  constructor
  · intro henrol
    exact ⟨henrol.default, (exists_registerRows huser henrol.default).mpr henrol⟩
  · rintro ⟨heveryone, hrows⟩
    exact (exists_registerRows huser heveryone).mp hrows

/-- When a group can be inserted. -/
theorem exists_insertGroup {g : Group} : (∃ db', db.insertGroup g = some db') ↔
    db.hasGroup g.id = false ∧ db.hasHub g.hubId = true := by
  have hkey : Table.hasKey Group.id g db.groups = db.hasGroup g.id := rfl
  rw [Db.insertGroup, hkey]
  rcases db.hasGroup g.id with _ | _ <;> rcases db.hasHub g.hubId with _ | _ <;> simp

/-- When a channel can be inserted. -/
theorem exists_insertChannelRow {c : Channel} : (∃ db', db.insertChannelRow c = some db') ↔
    db.hasChannel c.id = false ∧ db.hasHub c.hubId = true := by
  rw [Db.insertChannelRow]
  split
  · rename_i h
    have hhas : db.hasChannel c.id = true := h
    simp [hhas]
  · rename_i h
    have hhas : db.hasChannel c.id = false := Bool.eq_false_iff.mpr h
    rcases db.hasHub c.hubId with _ | _ <;> simp [hhas]

/-- When a permission can be inserted. -/
theorem exists_insertChannelPermission {cp : ChannelPermission} :
    (∃ db', db.insertChannelPermission cp = some db') ↔
      db.hasChannel cp.channelId = true ∧ db.hasGroup cp.groupId = true := by
  rw [Db.insertChannelPermission]
  rcases db.hasChannel cp.channelId with _ | _ <;> rcases db.hasGroup cp.groupId with _ | _ <;>
    simp

/-- **The rows of a setup are accepted** where its ids are new and there are no members. -/
theorem exists_setupRows {ids : SetupIds} (huser : db.hasUser ids.userId = true)
    (hempty : db.hubMembers = []) :
    (∃ db', Script.run Write.exec db (setupRows ids) = some db') ↔ Fresh ids db := by
  constructor
  · rintro ⟨db', hrun⟩
    obtain ⟨db₁, h₁, hrun⟩ := Option.bind_eq_some_iff.mp hrun
    obtain ⟨db₂, h₂, hrun⟩ := Option.bind_eq_some_iff.mp hrun
    obtain ⟨db₃, h₃, hrun⟩ := Option.bind_eq_some_iff.mp hrun
    obtain ⟨db₄, h₄, hrun⟩ := Option.bind_eq_some_iff.mp hrun
    obtain ⟨db₅, h₅, hrun⟩ := Option.bind_eq_some_iff.mp hrun
    obtain ⟨db₆, h₆, hrun⟩ := Option.bind_eq_some_iff.mp hrun
    obtain ⟨db₇, h₇, -⟩ := Option.bind_eq_some_iff.mp hrun
    have hgroups₁ : db₁.groups = db.groups := Write.untouched h₁ .groups rfl
    have hgroups₂ := (Db.insertGroup_eq_some h₂).1
    have hadmin := (exists_insertGroup.mp ⟨db₂, h₂⟩).1
    have heveryone := (exists_insertGroup.mp ⟨db₃, h₃⟩).1
    rw [Db.hasGroup, hgroups₁] at hadmin
    rw [Db.hasGroup, hgroups₂, hgroups₁, List.any_cons, Bool.or_eq_false_iff] at heveryone
    refine ⟨(exists_insertHub.mp ⟨db₁, h₁⟩).1, hadmin, heveryone.2, ?_, ?_⟩
    · exact of_decide_eq_false heveryone.1
    · have hchannel := (exists_insertChannelRow.mp ⟨db₇, h₇⟩).1
      rwa [hasChannel_exec h₆ rfl, hasChannel_exec h₅ rfl, hasChannel_exec h₄ rfl,
        hasChannel_exec h₃ rfl, hasChannel_exec h₂ rfl, hasChannel_exec h₁ rfl] at hchannel
  · rintro ⟨hhub, hadmin, heveryone, hne, hchannel⟩
    -- the hub
    have hex₁ : ∃ db₁, Write.exec db (.insertHub ⟨ids.hubId, some ids.userId⟩) = some db₁ :=
      exists_insertHub.mpr ⟨hhub, huser⟩
    obtain ⟨db₁, h₁⟩ := hex₁
    have hhub₁ : db₁.hasHub ids.hubId = true := by
      rw [Db.hasHub, hubs_insertHub h₁, List.any_cons]
      simp
    have huser₁ : db₁.hasUser ids.userId = true := by rwa [hasUser_exec h₁ rfl]
    -- the groups
    have hex₂ : ∃ db₂, Write.exec db₁ (.insertGroup
        ⟨ids.adminGroupId, ids.hubId, "admin", some "#E74C3C", 0, false, Bits.all⟩) = some db₂ :=
      exists_insertGroup.mpr ⟨(hasGroup_exec h₁ rfl).symm ▸ hadmin, hhub₁⟩
    obtain ⟨db₂, h₂⟩ := hex₂
    have hgroups₂ := (Db.insertGroup_eq_some h₂).1
    have hhub₂ : db₂.hasHub ids.hubId = true := by rwa [hasHub_exec h₂ rfl]
    have huser₂ : db₂.hasUser ids.userId = true := by rwa [hasUser_exec h₂ rfl]
    have hfree₂ : db₂.hasGroup ids.everyoneGroupId = false := by
      rw [Db.hasGroup, hgroups₂, List.any_cons, Bool.or_eq_false_iff]
      refine ⟨decide_eq_false hne, ?_⟩
      rwa [← hasGroup_exec h₁ rfl] at heveryone
    have hex₃ : ∃ db₃, Write.exec db₂ (.insertGroup
        ⟨ids.everyoneGroupId, ids.hubId, "everyone", some "#99AAB5", 100, true, 0⟩) = some db₃ :=
      exists_insertGroup.mpr ⟨hfree₂, hhub₂⟩
    obtain ⟨db₃, h₃⟩ := hex₃
    have hgroups₃ := (Db.insertGroup_eq_some h₃).1
    have hhub₃ : db₃.hasHub ids.hubId = true := by rwa [hasHub_exec h₃ rfl]
    have huser₃ : db₃.hasUser ids.userId = true := by rwa [hasUser_exec h₃ rfl]
    have hadmin₃ : db₃.hasGroup ids.adminGroupId = true := by
      rw [Db.hasGroup, hgroups₃, hgroups₂]
      simp
    have heveryone₃ : db₃.hasGroup ids.everyoneGroupId = true := by
      rw [Db.hasGroup, hgroups₃]
      simp
    -- the member
    have hnone : db₃.hubMembers = [] := by
      have hsame₃ : db₃.hubMembers = db₂.hubMembers := Write.untouched h₃ .hubMembers rfl
      have hsame₂ : db₂.hubMembers = db₁.hubMembers := Write.untouched h₂ .hubMembers rfl
      have hsame₁ : db₁.hubMembers = db.hubMembers := Write.untouched h₁ .hubMembers rfl
      rw [hsame₃, hsame₂, hsame₁, hempty]
    have hex₄ : ∃ db₄, Write.exec db₃ (.insertHubMember ⟨ids.hubId, ids.userId, "admin"⟩) =
        some db₄ := by
      refine exists_insertHubMember.mpr ⟨hhub₃, huser₃, ?_⟩
      rw [hnone]
      rfl
    obtain ⟨db₄, h₄⟩ := hex₄
    have hex₅ : ∃ db₅, Write.exec db₄
        (.insertMemberGroup ⟨ids.hubId, ids.userId, ids.adminGroupId⟩) = some db₅ := by
      refine exists_insertMemberGroup.mpr ⟨?_, ?_, ?_⟩
      · rwa [hasHub_exec h₄ rfl]
      · rwa [hasUser_exec h₄ rfl]
      · rwa [hasGroup_exec h₄ rfl]
    obtain ⟨db₅, h₅⟩ := hex₅
    have hex₆ : ∃ db₆, Write.exec db₅
        (.insertMemberGroup ⟨ids.hubId, ids.userId, ids.everyoneGroupId⟩) = some db₆ := by
      refine exists_insertMemberGroup.mpr ⟨?_, ?_, ?_⟩
      · rwa [hasHub_exec h₅ rfl, hasHub_exec h₄ rfl]
      · rwa [hasUser_exec h₅ rfl, hasUser_exec h₄ rfl]
      · rwa [hasGroup_exec h₅ rfl, hasGroup_exec h₄ rfl]
    obtain ⟨db₆, h₆⟩ := hex₆
    -- the channel
    have hex₇ : ∃ db₇, Write.exec db₆
        (.insertChannel ⟨ids.generalChannelId, ids.hubId, "general", "text", 0, none, noIcon⟩) =
          some db₇ := by
      refine exists_insertChannelRow.mpr ⟨?_, ?_⟩
      · rwa [hasChannel_exec h₆ rfl, hasChannel_exec h₅ rfl, hasChannel_exec h₄ rfl,
          hasChannel_exec h₃ rfl, hasChannel_exec h₂ rfl, hasChannel_exec h₁ rfl]
      · rwa [hasHub_exec h₆ rfl, hasHub_exec h₅ rfl, hasHub_exec h₄ rfl]
    obtain ⟨db₇, h₇⟩ := hex₇
    have hex₈ : ∃ db₈, Write.exec db₇ (.insertChannelPermission
        ⟨ids.generalChannelId, ids.everyoneGroupId, Bits.memberChannel, 0⟩) = some db₈ := by
      refine exists_insertChannelPermission.mpr ⟨?_, ?_⟩
      · rw [Db.hasChannel, (Db.insertChannelRow_eq_some h₇).1]
        simp
      · rwa [hasGroup_exec h₇ rfl, hasGroup_exec h₆ rfl, hasGroup_exec h₅ rfl,
          hasGroup_exec h₄ rfl]
    obtain ⟨db₈, h₈⟩ := hex₈
    refine ⟨db₈, ?_⟩
    simp only [setupRows, Script.run_cons, Script.run_nil, h₁, h₂, h₃, h₄, h₅, h₆, h₇, h₈,
      Option.bind_some]

/-- The rows that follow the user of a setup. -/
theorem exists_setup {u : User} {ids : SetupIds} (h : db.insertUser u = .ok db')
    (hid : u.id = ids.userId) (hempty : db.hubMembers = []) :
    (∃ db'', Script.run Write.exec db' (setupRows ids) = some db'') ↔ Fresh ids db := by
  have hexec := exec_insertUser h
  have huser : db'.hasUser ids.userId = true := by
    rw [Db.hasUser, users_insertUser h, ← hid]
    simp
  have hmembers : db'.hubMembers = db.hubMembers := Write.untouched hexec .hubMembers rfl
  rw [exists_setupRows huser (hmembers.trans hempty)]
  constructor
  · rintro ⟨h₁, h₂, h₃, hne, h₄⟩
    rw [hasHub_exec hexec rfl] at h₁
    rw [hasGroup_exec hexec rfl] at h₂ h₃
    rw [hasChannel_exec hexec rfl] at h₄
    exact ⟨h₁, h₂, h₃, hne, h₄⟩
  · rintro ⟨h₁, h₂, h₃, hne, h₄⟩
    rw [← hasHub_exec hexec rfl] at h₁
    rw [← hasGroup_exec hexec rfl] at h₂ h₃
    rw [← hasChannel_exec hexec rfl] at h₄
    exact ⟨h₁, h₂, h₃, hne, h₄⟩

end Rows

/-! ### After the commit -/

section After

variable {faults : Point → Bool} {db : Db} {e : Failure} {d : Draw} {a : Account}

/-- The points at which the tokens are issued. -/
def tokenPoints : List Point := [.accessToken, .deleteOldestTokens, .insertRefreshToken]

/-- A fault strikes at one of some points. -/
def Struck (faults : Point → Bool) (points : List Point) : Prop :=
  ∃ p ∈ points, faults p = true

/-- Issuing the tokens only reads, as far as these tables go. -/
theorem keeps_issueTokens : (issueTokens e d a).Keeps :=
  Handler.keeps_step.bind fun _ => Handler.keeps_step.bind fun _ =>
    Handler.keeps_step.bind fun _ => Handler.keeps_pure _

/-- So does what follows the commit. -/
theorem keeps_welcome : (welcome e d a).Keeps :=
  (Handler.keeps_read _).bind fun _ => keeps_issueTokens

/-- A fault strikes at the first point, or at another one. -/
theorem struck_cons {p : Point} {points : List Point} :
    Struck faults (p :: points) ↔ faults p = true ∨ Struck faults points :=
  List.exists_mem_cons_iff _ _ _

/-- A fault strikes somewhere. -/
theorem not_struck_nil : ¬Struck faults [] := fun ⟨_, hp, _⟩ => nomatch hp

/-- The tokens are not issued exactly if a fault strikes. -/
theorem fails_issueTokens :
    (issueTokens e d a).Fails faults db ↔ Struck faults tokenPoints := by
  rw [issueTokens, Handler.fails_step_bind, Handler.fails_step_bind, Handler.fails_step_bind,
    tokenPoints, struck_cons, struck_cons, struck_cons]
  refine or_congr_right (or_congr_right (or_congr_right ?_))
  exact iff_of_false (Handler.not_fails_pure _) not_struck_nil

/-- What follows the commit fails exactly if a fault strikes: the hub is there. -/
theorem fails_welcome (hhub : db.hasHub a.hubId = true) :
    (welcome e d a).Fails faults db ↔ Struck faults (.hubSlug :: tokenPoints) := by
  rw [welcome, Handler.fails_read_bind, struck_cons]
  refine or_congr_right ?_
  obtain ⟨row, hrow, hid⟩ := List.any_eq_true.mp hhub
  rcases hfind : db.hubs.find? fun h => decide (h.id = a.hubId) with _ | row'
  · exact absurd hid (List.find?_eq_none.mp hfind row hrow)
  · rw [← fails_issueTokens]
    constructor
    · rintro (h | ⟨_, -, h⟩)
      · exact nomatch hfind.symm.trans h
      · exact h
    · intro h
      exact .inr ⟨row', hfind, h⟩

end After

end Onboarding

/-! ### The endpoints together -/

/-- A request for an account. -/
inductive Signup
  | redeemInviteLink (parses : String → Bool) (token : String) (body : RedeemInviteLink)
  | acceptInvitation (token : String) (body : AcceptInvitation)
  | setupAdmin (body : SetupAdmin)

namespace Signup

open Onboarding

/-- Handling a request. -/
def handle (d : Draw) : Signup → Handler Point Failure Db Welcome
  | redeemInviteLink parses token body => Onboarding.redeemInviteLink parses token body d
  | acceptInvitation token body => Onboarding.acceptInvitation token body d
  | setupAdmin body => Onboarding.setupAdmin body d

/-- What an error is not to change: the tables with the users, the hubs, the members, their
groups, the invitations and the links. -/
def tables : List Relation :=
  [.users, .hubs, .hubMembers, .memberGroups, .invitations, .inviteLinks]

/-- No fault strikes. -/
def calm : Point → Bool := fun _ => false

/-- A request would be answered without an error if no fault struck. -/
def Succeeds (s : Signup) (d : Draw) (db : Db) : Prop := ∃ w, (s.handle d calm db).1 = .ok w

/-- **All or nothing**: where the answer is an error, the tables are as they were, and to try
the request again succeeds if it would have succeeded at first. -/
def AllOrNothing (s : Signup) (d : Draw) (faults : Point → Bool) (db : Db) : Prop :=
  (s.handle d).Fails faults db →
    (∀ r ∈ tables, db.SameIn (s.handle d faults db).2 r) ∧
      ∀ d', s.Succeeds d' db → s.Succeeds d' (s.handle d faults db).2

/-- A request passes its checks, and the constraints accept its rows: with so many groups. -/
def Passes (d : Draw) (db : Db) : Signup → ℕ → Prop
  | redeemInviteLink parses token body, n => checkBody parses body = none ∧ ∃ l everyone,
      claim? db token d.now = some l ∧ l.usesCount < maxUsesCount ∧
      db.userConflict (newUser body d.ids.userId) = none ∧
      CanEnrol db l.hubId d.ids.userId everyone (groupIds everyone.id l.groupId) ∧
      n = (groupIds everyone.id l.groupId).length
  | acceptInvitation token body, n => acceptable body = true ∧ ∃ i everyone,
      (db.invitations.find? fun i => i.token == token) = some i ∧ i.usedAt = none ∧
      db.userConflict (invitedUser i body d.ids.userId) = none ∧
      CanEnrol db i.hubId d.ids.userId everyone (everyone.id :: i.groupId.toList) ∧
      n = (everyone.id :: i.groupId.toList).length
  | setupAdmin body, n => complete body = true ∧ db.hubMembers = [] ∧
      db.userConflict (body.user d.ids.userId) = none ∧ Fresh d.ids db ∧ n = 2

/-- The points of a transaction with so many groups. -/
def rowPoints : Signup → ℕ → List Point
  | redeemInviteLink _ _ _, n => redeemPoints n
  | acceptInvitation _ _, n => acceptPoints n
  | setupAdmin _, _ => setupPoints

/-- A request gets past its commit. -/
def Reaches (s : Signup) (d : Draw) (faults : Point → Bool) (db : Db) : Prop :=
  ∃ n, s.Passes d db n ∧ Clear faults (.begin :: (s.rowPoints n ++ [.commit]))

/-- The points once the commit has been carried out. -/
def latePoints : Signup → List Point
  | setupAdmin _ => .commitAnswer :: tokenPoints
  | _ => .commitAnswer :: .hubSlug :: tokenPoints

/-! ### When a request is all or nothing -/

section Outcome

variable {s : Signup} {d : Draw} {faults : Point → Bool} {db db' : Db} {a : Account}

/-- The body of a request is refused. -/
def refusal : Signup → Option Failure
  | redeemInviteLink parses _ body => checkBody parses body
  | acceptInvitation _ body => if acceptable body then none else some (.status .badRequest)
  | setupAdmin body => if complete body then none else some (.status .badRequest)

/-- The transaction of a request. -/
def rows (d : Draw) : Signup → Body Point Failure Db Account
  | redeemInviteLink _ token body => redeemRows token body d
  | acceptInvitation token body => acceptRows token body d
  | setupAdmin body => setupAdminRows body d

/-- What a request says where anything goes wrong. -/
def mishap : Signup → Failure
  | redeemInviteLink _ _ _ => internal
  | _ => internalServerError

/-- What follows the commit. -/
def after (d : Draw) : Signup → Account → Handler Point Failure Db Welcome
  | setupAdmin _ => issueTokens internalServerError d
  | redeemInviteLink _ _ _ => welcome internal d
  | acceptInvitation _ _ => welcome internalServerError d

/-- **A request commits once**, unless its body is refused. -/
theorem handle_eq (s : Signup) (d : Draw) : s.handle d =
    match s.refusal with
    | some e => Handler.refuse e
    | none =>
      Handler.transaction .begin .commit .commitAnswer s.mishap (s.rows d) >>= s.after d := by
  cases s with
  | redeemInviteLink parses token body =>
    dsimp only [handle, Onboarding.redeemInviteLink, refusal]
    split <;> rfl
  | acceptInvitation token body =>
    dsimp only [handle, Onboarding.acceptInvitation, refusal]
    split <;> rfl
  | setupAdmin body =>
    dsimp only [handle, Onboarding.setupAdmin, refusal]
    split <;> rfl

/-- What follows the commit only reads. -/
theorem keeps_after (s : Signup) (d : Draw) (a : Account) : (s.after d a).Keeps := by
  cases s with
  | setupAdmin => exact keeps_issueTokens
  | redeemInviteLink | acceptInvitation => exact keeps_welcome

/-- **What a commit brings**: a user, in a hub that is there. -/
theorem committed (h : s.rows d faults db = .ok (a, db')) :
    (∃ u, db'.users = u :: db.users) ∧ db'.hasHub a.hubId = true := by
  cases s with
  | redeemInviteLink parses token body =>
    obtain ⟨l, db₁, everyone, -, -, huser, -, hrows, -, rfl⟩ := redeemRows_eq_ok.mp h
    obtain ⟨husers, hhubs, hhub⟩ := registerRows_same hrows
    have hinserted := users_insertUser huser
    refine ⟨⟨_, husers.trans hinserted⟩, ?_⟩
    rwa [Db.hasHub, hhubs]
  | acceptInvitation token body =>
    obtain ⟨i, db₁, everyone, db₂, -, -, huser, -, hrows, -, hr⟩ := acceptRows_eq_ok.mp h
    obtain ⟨rfl, rfl⟩ := Prod.mk.inj hr
    obtain ⟨husers, hhubs, hhub⟩ := registerRows_same hrows
    refine ⟨⟨_, husers.trans (users_insertUser huser)⟩, ?_⟩
    rw [Db.hasHub, ← hhubs] at hhub
    exact hhub
  | setupAdmin body =>
    obtain ⟨db₁, -, huser, hrun, -, rfl⟩ := setupAdminRows_eq_ok.mp h
    obtain ⟨husers, hhub⟩ := setupRows_same hrun
    exact ⟨⟨_, husers.trans (users_insertUser huser)⟩, hhub⟩

/-- **A request gets past its commit** where its checks, the constraints and the faults let
it. -/
theorem reaches_iff : s.Reaches d faults db ↔
    s.refusal = none ∧ ∃ a db', Handler.Commits .begin .commit (s.rows d) faults db a db' := by
  have hends {points : List Point} : Clear faults (.begin :: (points ++ [.commit])) ↔
      faults .begin = false ∧ Clear faults points ∧ faults .commit = false := by
    rw [clear_cons, clear_append, clear_cons, and_iff_left clear_nil]
  cases s with
  | redeemInviteLink parses token body =>
    constructor
    · rintro ⟨n, ⟨hbody, l, everyone, hclaim, hcount, hfree, henrol, rfl⟩, hclear⟩
      obtain ⟨hbegin, hrows, hcommit⟩ := hends.mp hclear
      have hfree' : (claimSlot db l).userConflict (newUser body d.ids.userId) = none := hfree
      obtain ⟨db₁, huser⟩ := exists_insertUser.mpr hfree'
      obtain ⟨heveryone, db₂, hreg⟩ := (canEnrol_iff (fun everyone => groupIds everyone l.groupId)
        huser rfl).mp (canEnrol_claimSlot.mpr henrol)
      exact ⟨hbody, _, db₂, hbegin,
        redeemRows_eq_ok.mpr ⟨l, db₁, everyone, hclaim, hcount, huser, heveryone, hreg, hrows, rfl⟩,
        hcommit⟩
    · rintro ⟨hbody, a, db', hbegin, hok, hcommit⟩
      obtain ⟨l, db₁, everyone, hclaim, hcount, huser, heveryone, hreg, hrows, -⟩ :=
        redeemRows_eq_ok.mp hok
      have hfree := exists_insertUser.mp ⟨db₁, huser⟩
      have henrol := (canEnrol_iff _ huser rfl).mpr ⟨heveryone, db', hreg⟩
      exact ⟨_, ⟨hbody, l, everyone, hclaim, hcount, hfree, canEnrol_claimSlot.mp henrol, rfl⟩,
        hends.mpr ⟨hbegin, hrows, hcommit⟩⟩
  | acceptInvitation token body =>
    have hrefusal : (acceptInvitation token body).refusal = none ↔ acceptable body = true := by
      simp [refusal]
    rw [hrefusal]
    constructor
    · rintro ⟨n, ⟨hbody, i, everyone, hfind, hused, hfree, henrol, rfl⟩, hclear⟩
      obtain ⟨hbegin, hrows, hcommit⟩ := hends.mp hclear
      obtain ⟨db₁, huser⟩ := exists_insertUser.mpr hfree
      obtain ⟨heveryone, db₂, hreg⟩ :=
        (canEnrol_iff (fun everyone => everyone :: i.groupId.toList) huser rfl).mp henrol
      exact ⟨hbody, _, _, hbegin,
        acceptRows_eq_ok.mpr ⟨i, db₁, everyone, db₂, hfind, hused, huser, heveryone, hreg, hrows,
          rfl⟩, hcommit⟩
    · rintro ⟨hbody, a, db', hbegin, hok, hcommit⟩
      obtain ⟨i, db₁, everyone, db₂, hfind, hused, huser, heveryone, hreg, hrows, -⟩ :=
        acceptRows_eq_ok.mp hok
      have henrol := (canEnrol_iff _ huser rfl).mpr ⟨heveryone, db₂, hreg⟩
      exact ⟨_, ⟨hbody, i, everyone, hfind, hused, exists_insertUser.mp ⟨db₁, huser⟩, henrol, rfl⟩,
        hends.mpr ⟨hbegin, hrows, hcommit⟩⟩
  | setupAdmin body =>
    have hrefusal : (setupAdmin body).refusal = none ↔ complete body = true := by
      simp [refusal]
    rw [hrefusal]
    constructor
    · rintro ⟨n, ⟨hbody, hempty, hfree, hfresh, rfl⟩, hclear⟩
      obtain ⟨hbegin, hrows, hcommit⟩ := hends.mp hclear
      obtain ⟨db₁, huser⟩ := exists_insertUser.mpr hfree
      obtain ⟨db₂, hrun⟩ := (exists_setup huser rfl hempty).mpr hfresh
      exact ⟨hbody, _, db₂, hbegin, setupAdminRows_eq_ok.mpr
        ⟨db₁, List.isEmpty_iff.mpr hempty, huser, hrun, hrows, rfl⟩, hcommit⟩
    · rintro ⟨hbody, a, db', hbegin, hok, hcommit⟩
      obtain ⟨db₁, hempty, huser, hrun, hrows, -⟩ := setupAdminRows_eq_ok.mp hok
      have hfresh := (exists_setup huser rfl (List.isEmpty_iff.mp hempty)).mp ⟨db', hrun⟩
      exact ⟨2, ⟨hbody, List.isEmpty_iff.mp hempty, exists_insertUser.mp ⟨db₁, huser⟩, hfresh, rfl⟩,
        hends.mpr ⟨hbegin, hrows, hcommit⟩⟩

/-- **After the commit** a request fails exactly if a fault strikes. -/
theorem fails_after (hhub : db.hasHub a.hubId = true) :
    faults .commitAnswer = true ∨ (s.after d a).Fails faults db ↔ Struck faults s.latePoints := by
  cases s with
  | setupAdmin => exact (or_congr_right fails_issueTokens).trans struck_cons.symm
  | redeemInviteLink | acceptInvitation =>
    exact (or_congr_right (fails_welcome hhub)).trans struck_cons.symm

/-- **A request is all or nothing** unless a fault strikes once its commit has been carried
out. -/
theorem atomic_iff_reaches (s : Signup) (d : Draw) (faults : Point → Bool) (db : Db) :
    s.AllOrNothing d faults db ↔ ¬(s.Reaches d faults db ∧ Struck faults s.latePoints) := by
  rw [reaches_iff, AllOrNothing, handle_eq]
  rcases hbody : s.refusal with _ | e
  · -- what has been committed shows among the users
    refine (Handler.atomic_iff (R := fun t => (∀ r ∈ tables, db.SameIn t r) ∧
      ∀ d', s.Succeeds d' db → s.Succeeds d' t) ⟨fun r _ => ?_, fun _ h => h⟩
      (s.keeps_after d)).trans ?_
    · cases r <;> rfl
    constructor
    · rintro h ⟨⟨-, a, t, hcommits⟩, hstruck⟩
      obtain ⟨⟨u, husers⟩, hhub⟩ := committed hcommits.2.1
      obtain ⟨htables, -⟩ := h a t hcommits ((fails_after hhub).mpr hstruck)
      have hsame : t.users = db.users := htables .users List.mem_cons_self
      rw [hsame] at husers
      exact absurd (congrArg List.length husers) (by simp)
    · intro h a t hcommits hfails
      obtain ⟨-, hhub⟩ := committed hcommits.2.1
      exact absurd ⟨⟨rfl, a, t, hcommits⟩, (fails_after hhub).mp hfails⟩ h
  · refine iff_of_true (fun _ => ⟨fun r _ => ?_, fun _ h => h⟩) ?_
    · cases r <;> rfl
    · rintro ⟨⟨hnone, -⟩, -⟩
      cases hnone

end Outcome

/-! ### A hub that is set up, and an admin who is told otherwise -/

/-- The refresh token cannot be stored. -/
def tokenLost : Point → Bool := fun p => decide (p = .insertRefreshToken)

/-- What the first request draws. -/
def firstDraw : Draw :=
  ⟨0, ⟨Seed.alice, Seed.hub, Seed.admin, Seed.everyone, Seed.general⟩, "token", 0⟩

/-- The first request of a new installation. -/
def firstSetup : Signup := .setupAdmin ⟨"alice", "secret", "Alice", none, "MateHub"⟩

/-- **The setup of a new installation** fails after its commit, and its user is there. -/
theorem setup_by_half : ¬∀ (s : Signup) d faults db, s.AllOrNothing d faults db := by
  intro h
  obtain ⟨htables, -⟩ := h firstSetup firstDraw tokenLost Seed.emptyDb ⟨internalServerError, rfl⟩
  have husers : ((firstSetup.handle firstDraw tokenLost Seed.emptyDb).2).users = [] :=
    htables .users List.mem_cons_self
  cases husers

end Signup

end Hub

end MateHub
