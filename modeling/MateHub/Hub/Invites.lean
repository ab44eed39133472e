import MateHub.Hub.Groups

/-!
# Guests, invitations and invite links

The three ways into a hub: links for temporary guests, invitations for one permanent
account, and links with which many people register. Creating one takes a permission;
walking through it takes its token, and puts an account into the default group of the hub
and into the group of the link.
-/

namespace MateHub

namespace Hub

open Chat (I64)

variable (db : Db)

/-! ### Temporary guests -/

/-- The body of `create_temp_user`. -/
structure CreateTempUser where
  nickname : String
  groupId : I64
  ttlSeconds : ℤ

/-- `create_temp_user`, with the token and the user id that are drawn. -/
def createTempUser (hubId auth : I64) (body : CreateTempUser) (now : Time) (nextId : I64)
    (token : String) : Reply I64 :=
  let caller := db.resolveUserPerms hubId auth
  require (caller.has Bits.createTempLinks) (.status .forbidden) <|
  let nickname := Text.trim body.nickname
  require (!nickname.isEmpty) (.status .badRequest) <|
  let username := String.ofList ("guest-".toList ++ nextId.display)
  let user : User := ⟨nextId, username, nickname, none, .temp, some (now + body.ttlSeconds), none⟩
  attempt (db.insertUser user) (fun _ => internalServerError) fun db =>
  found (db.insertTempUser ⟨nextId, hubId, token, body.groupId, auth, none, none⟩)
    internalServerError fun db => .ok (nextId, db)

/-- Setting `expires_at` of a user. -/
def expireUser (userId : I64) (now : Time) : Db :=
  { db with
    users := Table.update (fun u => decide (u.id = userId))
      (fun u => { u with expiresAt := some now }) db.users
    fk_memberUsers := fun mg hmg => by
      obtain ⟨u, hu, hid⟩ := db.fk_memberUsers mg hmg
      refine ⟨_, Table.mem_update.mpr ⟨u, hu, rfl⟩, ?_⟩
      split
      · exact hid
      · exact hid }

/-- Marking a guest revoked. -/
def revokeRow (hubId userId : I64) (now : Time) : Db :=
  { db with
    tempUsers := Table.update (fun t => decide (t.userId = userId ∧ t.hubId = hubId))
      (fun t => { t with revokedAt := some now, activeSession := none }) db.tempUsers }

/-- The guest link of a user in a hub. -/
def tempUser? (hubId userId : I64) : Option TempUser :=
  db.tempUsers.find? fun t => decide (t.userId = userId ∧ t.hubId = hubId)

/-- `revoke_temp_user` -/
def revokeTempUser (hubId auth userId : I64) (now : Time) : Reply Unit :=
  let caller := db.resolveUserPerms hubId auth
  require (caller.has Bits.createTempLinks) (.status .forbidden) <|
  found (tempUser? db hubId userId) (.status .notFound) fun t =>
  require t.revokedAt.isNone (.status .notFound) <|
  .ok ((), expireUser (revokeRow db hubId userId now) userId now)

/-- The guest that a token admits now. -/
def joinRow? (token : String) (now : Time) : Option TempUser :=
  db.tempUsers.find? fun t => t.token == token && t.revokedAt.isNone &&
    db.users.any fun u => decide (u.id = t.userId) && u.deletedAt.isNone &&
      u.expiresAt.any fun e => decide (now < e)

/-- The transaction of `join_via_token`. -/
def joinRows (t : TempUser) (everyoneGroupId : I64) (session : String) : Option Db :=
  (db.insertHubMemberNew ⟨t.hubId, t.userId, "guest"⟩).bind fun db =>
    (db.insertMemberGroups t.hubId t.userId [everyoneGroupId, t.groupId]).map fun db =>
      { db with
        tempUsers := Table.update (fun t' => decide (t'.userId = t.userId))
          (fun t' => { t' with activeSession := some session }) db.tempUsers }

/-- `join_via_token`, which anyone with the token may call; the reply names the guest. -/
def joinViaToken (token : String) (now : Time) (session : String) : Reply I64 :=
  found (joinRow? db token now) (.status .notFound) fun t =>
  found (db.defaultGroup? t.hubId) internalServerError fun everyone =>
  found (joinRows db t everyone.id session) internalServerError fun db => .ok (t.userId, db)

/-! ### Invite links -/

/-- The body of `create_invite_link`. -/
structure CreateInviteLink where
  expiresAt : Time
  maxUses : Option ℤ
  groupId : Option I64

/-- A refusal with a code in its body. -/
def err (code : String) (status : Status) : Failure := .coded status code

/-- The failure of the database. -/
def internal : Failure := err "internal" .internalServerError

/-- `create_invite_link` -/
def createInviteLink (hubId auth : I64) (body : CreateInviteLink) (now : Time) (nextId : I64)
    (token : String) : Reply I64 :=
  let caller := db.resolveUserPerms hubId auth
  require (caller.has Bits.invitePermanent) (err "forbidden" .forbidden) <|
  require (decide (now < body.expiresAt)) (err "expires_in_past" .badRequest) <|
  require (body.maxUses.all fun n => decide (0 < n)) (err "invalid_max_uses" .badRequest) <|
  require (body.groupId.all fun gid => (db.group? hubId gid).isSome)
    (err "invalid_group" .badRequest) <|
  found (db.insertInviteLink
    ⟨nextId, hubId, token, body.expiresAt, body.maxUses, 0, body.groupId, auth, none⟩)
    internal fun db => .ok (nextId, db)

/-- `is_valid_username`. -/
def isValidUsername (s : String) : Bool :=
  s.toList.all (fun c => decide (c.val < 128)) && 3 ≤ s.utf8ByteSize && s.utf8ByteSize ≤ 32 &&
    s.toList.all fun c => c.isAlphanum || c == '.' || c == '_' || c == '-'

/-- The characters that a display name may not have, control characters apart. -/
def isInvisible (c : Char) : Bool :=
  (0x200B ≤ c.val && c.val ≤ 0x200F) || (0x202A ≤ c.val && c.val ≤ 0x202E) ||
    (0x2060 ≤ c.val && c.val ≤ 0x206F) || c.val == 0xFEFF

/-- `is_safe_display_name`. -/
def isSafeDisplayName (s : String) : Bool :=
  !s.isEmpty && s.length ≤ 64 && s.toList.all fun c => !Text.isControl c && !isInvisible c

/-- `is_valid_email`; `parses` is what the parser of addresses accepts. -/
def isValidEmail (parses : String → Bool) (s : String) : Bool :=
  parses s &&
    let domain := (s.toList.splitOn '@').getLast?.getD []
    domain.contains '.' && domain.head? != some '.' && domain.getLast? != some '.'

/-- The body of `redeem_invite_link`. -/
structure RedeemInviteLink where
  username : String
  password : String
  displayName : String
  email : String

/-- A link has a slot left. -/
def InviteLink.isAlive (l : InviteLink) (now : Time) : Bool :=
  l.revokedAt.isNone && decide (now < l.expiresAt) &&
    l.maxUses.all fun cap => decide (l.usesCount < cap)

/-- The link that a token claims. -/
def claim? (token : String) (now : Time) : Option InviteLink :=
  db.inviteLinks.find? fun l => l.token == token && l.isAlive now

/-- One more use of a link is counted. -/
def claimSlot (l : InviteLink) : Db :=
  { db with
    inviteLinks := Table.update (fun l' => decide (l'.id = l.id))
      (fun l' => { l' with usesCount := l'.usesCount + 1 }) db.inviteLinks }

/-- The groups that `redeem_invite_link` puts the account into. -/
def groupIds (everyoneGroupId : I64) (linkGroupId : Option I64) : List I64 :=
  match linkGroupId with
  | some gid => if gid ≠ everyoneGroupId then [everyoneGroupId, gid] else [everyoneGroupId]
  | none => [everyoneGroupId]

/-- A new account in a hub, in groups that depend on the default group. -/
def registerRows (hubId userId : I64) (ids : I64 → List I64) : Option Db :=
  (db.insertHubMember ⟨hubId, userId, "member"⟩).bind fun db =>
    (db.defaultGroup? hubId).bind fun everyone =>
      db.insertMemberGroups hubId userId (ids everyone.id)

/-- What a registration is refused with. -/
def conflictCode (constraint : String) : Failure :=
  if constraint == "users_username_key" then err "username_taken" .conflict
  else if constraint == "idx_users_email" then err "email_taken" .conflict
  else internal

/-- `redeem_invite_link`, which anyone with the token may call; the reply names the
account. -/
def redeemInviteLink (parses : String → Bool) (token : String) (body : RedeemInviteLink)
    (now : Time) (nextId : I64) : Reply I64 :=
  let username := Text.trim body.username
  let displayName := Text.trim body.displayName
  let email := Text.trim body.email
  require (isValidUsername username) (err "username_invalid" .badRequest) <|
  require (decide (6 ≤ body.password.utf8ByteSize)) (err "password_too_short" .badRequest) <|
  require (isSafeDisplayName displayName) (err "display_name_invalid" .badRequest) <|
  require (isValidEmail parses email) (err "email_invalid" .badRequest) <|
  found (claim? db token now) (err "link_unavailable" .gone) fun l =>
  attempt ((claimSlot db l).insertUser
    ⟨nextId, username, displayName, some email, .permanent, none, none⟩) conflictCode fun db =>
  found (registerRows db l.hubId nextId fun everyone => groupIds everyone l.groupId) internal
    fun db => .ok (nextId, db)

/-! ### Invitations -/

/-- The body of `create_invitation`. -/
structure CreateInvitation where
  username : String
  email : Option String

/-- A name or an address that is in use, by a user or by a pending invitation. -/
def invitationConflict (hubId : I64) (username : String) (email : Option String) :
    Except String Unit :=
  let pending := db.invitations.filter fun i => decide (i.hubId = hubId) && i.usedAt.isNone
  if db.users.any fun u => u.username == username then .error "username_taken"
  else if pending.any fun i => i.username == username then .error "username_pending"
  else if email.isSome && db.users.any fun u => u.email == email then .error "email_taken"
  else if email.isSome && pending.any fun i => i.email == email then .error "email_pending"
  else .ok ()

/-- `create_invitation` -/
def createInvitation (parses : String → Bool) (hubId auth : I64) (body : CreateInvitation)
    (nextId : I64) (token : String) : Reply String :=
  let username := Text.trim body.username
  let email := (body.email.map Text.trim).filter fun e => !e.isEmpty
  require (!username.isEmpty) (err "username_required" .badRequest) <|
  require (email.all (isValidEmail parses)) (err "invalid_email" .badRequest) <|
  let caller := db.resolveUserPerms hubId auth
  require (caller.has Bits.invitePermanent) (err "forbidden" .forbidden) <|
  attempt (invitationConflict db hubId username email) (fun code => err code .conflict) fun _ =>
  found (db.insertInvitation ⟨nextId, hubId, token, username, email, none, auth, none, none⟩)
    internal fun db => .ok (token, db)

/-- The body of `accept_invitation`. -/
structure AcceptInvitation where
  displayName : String
  password : String

/-- An invitation is marked as used. -/
def useInvitation (i : Invitation) (userId : I64) (now : Time) : Db :=
  { db with
    invitations := Table.update (fun i' => decide (i'.id = i.id))
      (fun i' => { i' with usedAt := some now, usedBy := some userId }) db.invitations }

/-- `accept_invitation`, which anyone with the token may call; the reply names the
account. -/
def acceptInvitation (token : String) (body : AcceptInvitation) (now : Time) (nextId : I64) :
    Reply I64 :=
  require (!(body.password.isEmpty || (Text.trim body.displayName).isEmpty))
    (.status .badRequest) <|
  found (db.invitations.find? fun i => i.token == token) (.status .notFound) fun i =>
  require i.usedAt.isNone (.status .gone) <|
  attempt (db.insertUser ⟨nextId, i.username, body.displayName, i.email, .permanent, none, none⟩)
    (fun _ => .status .conflict) fun db =>
  found (registerRows db i.hubId nextId fun everyone => everyone :: i.groupId.toList)
    internalServerError fun db => .ok (nextId, useInvitation db i nextId now)

/-! ### Pending invites -/

/-- Who may take a pending invite back: who made it, and members with one of two
permissions. -/
def mayRetract (hubId auth createdBy : I64) (bit : Bits) : Bool :=
  decide (createdBy = auth) ||
    let caller := db.resolveUserPerms hubId auth
    caller.has bit || caller.has Bits.manageMembers

/-- `delete_pending_permanent` -/
def deletePendingPermanent (hubId auth invitationId : I64) : Reply Unit :=
  found (db.invitations.find? fun i => decide (i.id = invitationId ∧ i.hubId = hubId))
    (.status .notFound) fun i =>
  require i.usedAt.isNone (.status .gone) <|
  require (mayRetract db hubId auth i.createdBy Bits.invitePermanent) (.status .forbidden) <|
  .ok ((), { db with
    invitations := Table.delete
      (fun i => decide (i.id = invitationId ∧ i.hubId = hubId)) db.invitations })

/-- `delete_pending_temp` -/
def deletePendingTemp (hubId auth userId : I64) (now : Time) : Reply Unit :=
  found (tempUser? db hubId userId) (.status .notFound) fun t =>
  require (t.revokedAt.isNone && t.activeSession.isNone) (.status .gone) <|
  require (mayRetract db hubId auth t.createdBy Bits.createTempLinks) (.status .forbidden) <|
  .ok ((), expireUser (revokeRow db hubId userId now) userId now)

/-- `delete_pending_link` -/
def deletePendingLink (hubId auth linkId : I64) (now : Time) : Reply Unit :=
  found (db.inviteLinks.find? fun l => decide (l.id = linkId ∧ l.hubId = hubId))
    (.status .notFound) fun l =>
  require l.revokedAt.isNone (.status .gone) <|
  require (mayRetract db hubId auth l.createdBy Bits.invitePermanent) (.status .forbidden) <|
  .ok ((), { db with
    inviteLinks := Table.update (fun l => decide (l.id = linkId ∧ l.hubId = hubId))
      (fun l => { l with revokedAt := some now }) db.inviteLinks })

/-! ### What the endpoints do to groups and memberships -/

section Effects

variable {db} {db' : Db} {hubId auth userId nextId : I64} {token : String} {now : Time}

theorem createTempUser_ok {body : CreateTempUser} {r : I64 × Db}
    (h : createTempUser db hubId auth body now nextId token = .ok r) :
    db.Alone r.2 ∧ ∀ u ∈ db.users, u.id ≠ r.1 := by
  simp only [createTempUser, require_eq_ok, found_eq_ok, attempt_eq_ok] at h
  obtain ⟨-, -, db₁, huser, db₂, htemp, hr⟩ := h
  obtain rfl := Except.ok.inj hr
  obtain ⟨halone, hfresh⟩ := Db.insertUser_eq_ok huser
  exact ⟨halone.trans (Db.insertTempUser_alone htemp), hfresh⟩

theorem revokeTempUser_alone {r : Unit × Db} (h : revokeTempUser db hubId auth userId now = .ok r) :
    db.Alone r.2 := by
  simp only [revokeTempUser, require_eq_ok, found_eq_ok] at h
  obtain ⟨-, _, -, -, hr⟩ := h
  obtain rfl := Except.ok.inj hr
  exact ⟨rfl, rfl⟩

theorem joinViaToken_ok {session : String} {r : I64 × Db}
    (h : joinViaToken db token now session = .ok r) :
    ∃ t everyone, joinRow? db token now = some t ∧ db.defaultGroup? t.hubId = some everyone ∧
      r.1 = t.userId ∧ r.2.groups = db.groups ∧ ∀ mg, mg ∈ r.2.memberGroups ↔
        (∃ gid ∈ [everyone.id, t.groupId], mg = ⟨t.hubId, t.userId, gid⟩) ∨
          mg ∈ db.memberGroups := by
  simp only [joinViaToken, found_eq_ok] at h
  obtain ⟨t, ht, everyone, heveryone, db', hrows, hr⟩ := h
  obtain rfl := Except.ok.inj hr
  simp only [joinRows, Option.bind_eq_some_iff, Option.map_eq_some_iff] at hrows
  obtain ⟨db₁, hmember, db₂, hins, rfl⟩ := hrows
  have halone := Db.insertHubMemberNew_alone hmember
  obtain ⟨hgroups, hmem⟩ := Db.insertMemberGroups_eq_some hins
  refine ⟨t, everyone, ht, heveryone, rfl, hgroups.trans halone.groups, fun mg => ?_⟩
  rw [← halone.memberGroups]
  exact hmem mg

theorem createInviteLink_alone {body : CreateInviteLink} {r : I64 × Db}
    (h : createInviteLink db hubId auth body now nextId token = .ok r) : db.Alone r.2 := by
  simp only [createInviteLink, require_eq_ok, found_eq_ok] at h
  obtain ⟨-, -, -, -, db', hins, hr⟩ := h
  obtain rfl := Except.ok.inj hr
  exact Db.insertInviteLink_alone hins

theorem registerRows_ok {ids : I64 → List I64} (h : registerRows db hubId userId ids = some db') :
    ∃ everyone, db.defaultGroup? hubId = some everyone ∧ db'.groups = db.groups ∧
      ∀ mg, mg ∈ db'.memberGroups ↔
        (∃ gid ∈ ids everyone.id, mg = ⟨hubId, userId, gid⟩) ∨ mg ∈ db.memberGroups := by
  simp only [registerRows, Option.bind_eq_some_iff] at h
  obtain ⟨db₁, hmember, everyone, heveryone, hins⟩ := h
  have halone := Db.insertHubMember_alone hmember
  obtain ⟨hgroups, hmem⟩ := Db.insertMemberGroups_eq_some hins
  refine ⟨everyone, ?_, hgroups.trans halone.groups, fun mg => ?_⟩
  · rwa [Db.defaultGroup?, ← halone.groups]
  · rw [← halone.memberGroups]
    exact hmem mg

theorem redeemInviteLink_ok {parses : String → Bool} {body : RedeemInviteLink} {r : I64 × Db}
    (h : redeemInviteLink db parses token body now nextId = .ok r) :
    ∃ l everyone, claim? db token now = some l ∧ db.defaultGroup? l.hubId = some everyone ∧
      r.1 = nextId ∧ r.2.groups = db.groups ∧ (∀ u ∈ db.users, u.id ≠ nextId) ∧
      ∀ mg, mg ∈ r.2.memberGroups ↔
        (∃ gid ∈ groupIds everyone.id l.groupId, mg = ⟨l.hubId, nextId, gid⟩) ∨
          mg ∈ db.memberGroups := by
  simp only [redeemInviteLink, require_eq_ok, found_eq_ok, attempt_eq_ok] at h
  obtain ⟨-, -, -, -, l, hl, db₁, huser, db₂, hrows, hr⟩ := h
  obtain rfl := Except.ok.inj hr
  obtain ⟨halone, hfresh⟩ := Db.insertUser_eq_ok huser
  obtain ⟨everyone, heveryone, hgroups, hmem⟩ := registerRows_ok hrows
  refine ⟨l, everyone, hl, ?_, rfl, hgroups.trans halone.groups, hfresh, fun mg => ?_⟩
  · rw [Db.defaultGroup?, halone.groups] at heveryone
    exact heveryone
  · rw [hmem, halone.memberGroups]
    exact Iff.rfl

theorem createInvitation_alone {parses : String → Bool} {body : CreateInvitation} {r : String × Db}
    (h : createInvitation db parses hubId auth body nextId token = .ok r) : db.Alone r.2 := by
  simp only [createInvitation, require_eq_ok, found_eq_ok, attempt_eq_ok] at h
  obtain ⟨-, -, -, _, -, db', hins, hr⟩ := h
  obtain rfl := Except.ok.inj hr
  exact Db.insertInvitation_alone hins

theorem acceptInvitation_ok {body : AcceptInvitation} {r : I64 × Db}
    (h : acceptInvitation db token body now nextId = .ok r) :
    ∃ i everyone, (db.invitations.find? fun i => i.token == token) = some i ∧
      db.defaultGroup? i.hubId = some everyone ∧ r.1 = nextId ∧ r.2.groups = db.groups ∧
      (∀ u ∈ db.users, u.id ≠ nextId) ∧ ∀ mg, mg ∈ r.2.memberGroups ↔
        (∃ gid ∈ everyone.id :: i.groupId.toList, mg = ⟨i.hubId, nextId, gid⟩) ∨
          mg ∈ db.memberGroups := by
  simp only [acceptInvitation, require_eq_ok, found_eq_ok, attempt_eq_ok] at h
  obtain ⟨-, i, hi, -, db₁, huser, db₂, hrows, hr⟩ := h
  obtain rfl := Except.ok.inj hr
  obtain ⟨halone, hfresh⟩ := Db.insertUser_eq_ok huser
  obtain ⟨everyone, heveryone, hgroups, hmem⟩ := registerRows_ok hrows
  refine ⟨i, everyone, hi, ?_, rfl, hgroups.trans halone.groups, hfresh, fun mg => ?_⟩
  · rw [Db.defaultGroup?, halone.groups] at heveryone
    exact heveryone
  · rw [← halone.memberGroups]
    exact hmem mg

theorem deletePendingPermanent_alone {invitationId : I64} {r : Unit × Db}
    (h : deletePendingPermanent db hubId auth invitationId = .ok r) : db.Alone r.2 := by
  simp only [deletePendingPermanent, require_eq_ok, found_eq_ok] at h
  obtain ⟨_, -, -, -, hr⟩ := h
  obtain rfl := Except.ok.inj hr
  exact ⟨rfl, rfl⟩

theorem deletePendingTemp_alone {r : Unit × Db}
    (h : deletePendingTemp db hubId auth userId now = .ok r) : db.Alone r.2 := by
  simp only [deletePendingTemp, require_eq_ok, found_eq_ok] at h
  obtain ⟨_, -, -, -, hr⟩ := h
  obtain rfl := Except.ok.inj hr
  exact ⟨rfl, rfl⟩

theorem deletePendingLink_alone {linkId : I64} {r : Unit × Db}
    (h : deletePendingLink db hubId auth linkId now = .ok r) : db.Alone r.2 := by
  simp only [deletePendingLink, require_eq_ok, found_eq_ok] at h
  obtain ⟨_, -, -, -, hr⟩ := h
  obtain rfl := Except.ok.inj hr
  exact ⟨rfl, rfl⟩

end Effects

end Hub

end MateHub
