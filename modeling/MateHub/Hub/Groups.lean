import MateHub.Hub.Statements
import MateHub.Lib.Text

/-!
# Groups, channels and members

The endpoints of the hub service for groups and their members, for channels and their
permissions, and for members. Each looks up what the caller may do, and refuses the
request or writes.
-/

namespace MateHub

namespace Hub

open Chat (I64)

/-! ### Replies -/

/-- The status with which a handler fails. -/
inductive Status
  | badRequest
  | forbidden
  | notFound
  | conflict
  | gone
  | payloadTooLarge
  | unsupportedMediaType
  | internalServerError
  | serviceUnavailable
  deriving DecidableEq

/-- A refused request: a status, or a status with a code in the body. -/
inductive Failure
  | status (s : Status)
  | coded (s : Status) (error : String)
  deriving DecidableEq

/-- A reply; if the request is not refused, with the database after it. -/
abbrev Reply (α : Type) := Except Failure (α × Db)

section Reply

variable {α β ε : Type}

/-- A check whose failure refuses the request. -/
def require (c : Bool) (e : Failure) (reply : Reply α) : Reply α :=
  if c then reply else .error e

/-- A query or a statement without whose result the request is refused. -/
def found (o : Option β) (e : Failure) (reply : β → Reply α) : Reply α :=
  match o with
  | none => .error e
  | some b => reply b

/-- A statement whose failure tells which constraint it violates. -/
def attempt (x : Except ε β) (e : ε → Failure) (reply : β → Reply α) : Reply α :=
  match x with
  | .error c => .error (e c)
  | .ok b => reply b

@[simp] theorem require_eq_ok {c : Bool} {e : Failure} {reply : Reply α} {r : α × Db} :
    require c e reply = .ok r ↔ c = true ∧ reply = .ok r := by
  cases c <;> simp [require]

@[simp] theorem found_eq_ok {o : Option β} {e : Failure} {reply : β → Reply α} {r : α × Db} :
    found o e reply = .ok r ↔ ∃ b, o = some b ∧ reply b = .ok r := by
  cases o <;> simp [found]

@[simp] theorem attempt_eq_ok {x : Except ε β} {e : ε → Failure} {reply : β → Reply α}
    {r : α × Db} : attempt x e reply = .ok r ↔ ∃ b, x = .ok b ∧ reply b = .ok r := by
  cases x <;> simp [attempt]

end Reply

/-- The failure of a statement that a constraint refuses. -/
def internalServerError : Failure := .status .internalServerError

/-- An `i32` after overflow. -/
def wrapI32 (n : ℤ) : ℤ := (n + 2 ^ 31) % 2 ^ 32 - 2 ^ 31

/-! ### Groups -/

/-- The body of `create_group`. -/
structure CreateGroup where
  name : String
  color : Option String
  hubPermissions : Option Bits

/-- The body of `update_group`; what is not given stays. -/
structure UpdateGroup where
  name : Option String
  color : Option String
  position : Option ℤ
  hubPermissions : Option Bits

section Groups

variable (db : Db) (hubId auth : I64)

/-- `create_group` -/
def createGroup (body : CreateGroup) (nextId : I64) : Reply Group :=
  let caller := db.resolveUserPerms hubId auth
  require (caller.has Bits.manageRoles) (.status .forbidden) <|
  let requestedBits := body.hubPermissions.getD 0
  require (decide (requestedBits.Within caller.grantableBits)) (.status .forbidden) <|
  let maxPos := ((db.groups.filter fun g => decide (g.hubId = hubId)).map Group.position).max?
  let newPos := wrapI32 (maxPos.getD 0 + 1)
  let group : Group := ⟨nextId, hubId, body.name, body.color, newPos, false, requestedBits⟩
  found (db.insertGroup group) internalServerError fun db => .ok (group, db)

/-- The names that `update_group` and `delete_group` protect. -/
def isProtected (name : String) : Bool := name == "admin" || name == "everyone"

/-- The checks of `update_group`. The caller is not looked at where the group is
protected. -/
def mayUpdate (caller : UserPerms) (target : Group) (body : UpdateGroup) : Bool :=
  if isProtected target.name then body.position.isNone && body.hubPermissions.isNone
  else caller.has Bits.manageRoles && caller.canManagePosition target.position &&
    body.hubPermissions.all fun newBits => decide (newBits.Within caller.grantableBits)

/-- `update_group` -/
def updateGroup (groupId : I64) (body : UpdateGroup) : Reply Group :=
  let caller := db.resolveUserPerms hubId auth
  found (db.group? hubId groupId) (.status .notFound) fun target =>
  require (mayUpdate caller target body) (.status .forbidden) <|
  .ok (target.patch body.name body.color body.position body.hubPermissions,
    db.updateGroupRow hubId groupId body.name body.color body.position body.hubPermissions)

/-- `delete_group` -/
def deleteGroup (groupId : I64) : Reply Unit :=
  let caller := db.resolveUserPerms hubId auth
  require (caller.has Bits.manageRoles) (.status .forbidden) <|
  found (db.group? hubId groupId) (.status .notFound) fun target =>
  require (!(isProtected target.name || target.isDefault)) (.status .forbidden) <|
  require (caller.canManagePosition target.position) (.status .forbidden) <|
  require (decide (⟨hubId, auth, groupId⟩ ∉ db.memberGroups)) (.status .forbidden) <|
  .ok ((), db.deleteGroupRow hubId groupId)

/-- `add_member_to_group` -/
def addMemberToGroup (groupId userId : I64) : Reply Unit :=
  let caller := db.resolveUserPerms hubId auth
  require (caller.has Bits.manageRoles) (.status .forbidden) <|
  found (db.group? hubId groupId) (.status .notFound) fun target =>
  require (caller.canManagePosition target.position) (.status .forbidden) <|
  found (db.insertMemberGroup hubId userId groupId) internalServerError fun db => .ok ((), db)

/-- `remove_member_from_group` -/
def removeMemberFromGroup (groupId userId : I64) : Reply Unit :=
  let caller := db.resolveUserPerms hubId auth
  require (caller.has Bits.manageRoles) (.status .forbidden) <|
  found (db.group? hubId groupId) (.status .notFound) fun target =>
  require (caller.canManagePosition target.position) (.status .forbidden) <|
  require (!(target.name == "admin" && db.isCreator hubId userId)) (.status .forbidden) <|
  .ok ((), db.deleteMemberGroups fun mg => decide (mg = ⟨hubId, userId, groupId⟩))

end Groups

/-! ### Channels and their permissions -/

/-- The body of `set_channel_permission`. -/
structure SetPermission where
  allowBits : Bits
  denyBits : Bits

/-- The body of `create_channel`. -/
structure CreateChannel where
  name : String
  channelType : String
  iconId : Option String
  iconColor : Option String

/-- The body of `update_channel`; what is not given stays. -/
structure UpdateChannel where
  name : Option String
  position : Option ℤ
  icon : ChannelIcon

/-- The first field of the body of an upload: its type, and the length of its data. -/
structure IconField where
  contentType : Option String
  size : ℕ

/-- A storage of objects: the URL of an object that is put under a key, with its type; none
where that fails. -/
abbrev IconStorage := List Char → String → Option (List Char)

section Channels

variable (db : Db) (hubId auth : I64)

/-- `set_channel_permission` -/
def setChannelPermission (channelId groupId : I64) (body : SetPermission) : Reply Unit :=
  let caller := db.resolveUserPerms hubId auth
  require (caller.has Bits.adminChannel) (.status .forbidden) <|
  found (db.upsertChannelPermission ⟨channelId, groupId, body.allowBits, body.denyBits⟩)
    internalServerError fun db => .ok ((), db)

/-- `delete_channel_permission` -/
def deleteChannelPermission (channelId groupId : I64) : Reply Unit :=
  let caller := db.resolveUserPerms hubId auth
  require (caller.has Bits.adminChannel) (.status .forbidden) <|
  .ok ((), db.deleteChannelPermissionRow channelId groupId)

/-- What the effective endpoint answers. -/
structure EffectiveResponse where
  bits : Bits
  read : Bool
  write : Bool
  connect : Bool
  speak : Bool
  video : Bool
  manage : Bool
  admin : Bool

/-- What the other services are to rely on. -/
def getEffectivePermissions (channelId userId : I64) : EffectiveResponse :=
  let eff := effectivePermissions (db.channelPermsOf hubId channelId userId)
  { bits := eff
    read := hasPermission eff Bits.read
    write := hasPermission eff Bits.write
    connect := hasPermission eff Bits.connect
    speak := hasPermission eff Bits.speak
    video := hasPermission eff Bits.video
    manage := hasPermission eff Bits.manageChannel
    admin := hasPermission eff Bits.adminChannel }

/-- A name that is empty or too long. -/
def isBadName (name : String) : Bool := (Text.trim name).isEmpty || 100 < name.utf8ByteSize

/-- The row of a new channel, at the end of its hub. -/
def newChannel (body : CreateChannel) (nextId : I64) : Channel :=
  let maxPos := ((db.channels.filter fun c => decide (c.hubId = hubId)).map Channel.position).max?
  ⟨nextId, hubId, Text.trim body.name, body.channelType, wrapI32 (maxPos.getD (-1) + 1), none,
    ⟨body.iconId, body.iconColor, none⟩⟩

/-- What a new channel grants to the default group of its hub. -/
def grantDefault (channelId : I64) : Option Db :=
  match db.defaultGroup? hubId with
  | none => some db
  | some g => db.insertChannelPermission ⟨channelId, g.id, Bits.memberChannel, 0⟩

/-- `create_channel` -/
def createChannel (body : CreateChannel) (nextId : I64) : Reply Channel :=
  require (["text", "voice", "stage"].contains body.channelType) (.status .badRequest) <|
  require (!isBadName body.name) (.status .badRequest) <|
  let perms := db.resolveUserPerms hubId auth
  let required :=
    if body.channelType == "text" then Bits.createTextChannels else Bits.createVoiceChannels
  require (perms.has required) (.status .forbidden) <|
  let channel := newChannel db hubId body nextId
  found (db.insertChannelRow channel) internalServerError fun db =>
  found (grantDefault db hubId nextId) internalServerError fun db => .ok (channel, db)

/-- `update_channel` -/
def updateChannel (channelId : I64) (body : UpdateChannel) : Reply Unit :=
  let perms := db.resolveUserPerms hubId auth
  require (perms.has Bits.editOtherChannels) (.status .forbidden) <|
  require (!body.name.any isBadName) (.status .badRequest) <|
  found (db.channel? hubId channelId) (.status .notFound) fun _ =>
  .ok ((), db.updateChannelRow hubId channelId body.name body.position body.icon)

/-- The extension of an image. -/
def iconExt (contentType : String) : String :=
  if contentType = "image/jpeg" ∨ contentType = "image/jpg" then "jpg"
  else if contentType = "image/webp" then "webp"
  else if contentType = "image/gif" then "gif"
  else "png"

/-- The key of an icon. -/
def iconKey (channelId : I64) (randSuffix : ℕ) (contentType : String) : List Char :=
  hubId.display ++ ("/channels/".toList ++ (channelId.display ++
    '_' :: (Text.hex016 randSuffix ++ '.' :: (iconExt contentType).toList)))

/-- What `upload_icon` does before its statement: it puts the image into the storage. -/
def storeIcon (channelId : I64) (storage : Option IconStorage) (field : Option IconField)
    (randSuffix : ℕ) : Except Failure (List Char) := do
  let some put := storage | .error (.status .serviceUnavailable)
  let some field := field | .error (.status .badRequest)
  let contentType := field.contentType.getD "image/png"
  if !"image/".toList.isPrefixOf contentType.toList then
    .error (.status .unsupportedMediaType)
  else if 2 * 1024 * 1024 < field.size then .error (.status .payloadTooLarge)
  else match put (iconKey hubId channelId randSuffix contentType) contentType with
    | none => .error internalServerError
    | some url => .ok url

/-- `upload_icon` -/
def uploadIcon (channelId : I64) (storage : Option IconStorage) (field : Option IconField)
    (randSuffix : ℕ) : Reply (List Char) :=
  let perms := db.resolveUserPerms hubId auth
  require (perms.has Bits.editOtherChannels) (.status .forbidden) <|
  attempt (storeIcon hubId channelId storage field randSuffix) id fun url =>
  found (db.channel? hubId channelId) (.status .notFound) fun _ =>
  .ok (url, db.updateChannelRow hubId channelId none none ⟨none, none, some url⟩)

/-- `delete_channel` -/
def deleteChannel (channelId : I64) : Reply Unit :=
  let perms := db.resolveUserPerms hubId auth
  require (perms.has Bits.editOtherChannels) (.status .forbidden) <|
  found (db.channel? hubId channelId) (.status .notFound) fun _ =>
  .ok ((), db.deleteChannelRow hubId channelId)

/-- `dm_pair_key`: the two ids, the smaller one first. -/
def dmPairKey (a b : I64) : List Char :=
  if a.val ≤ b.val then a.display ++ ':' :: b.display else b.display ++ ':' :: a.display

/-- The channel of a pair. -/
def dmChannel? (pairKey : List Char) : Option Channel :=
  db.channels.find? fun c => decide (c.hubId = hubId ∧ c.dmPairKey = some pairKey)

/-- The transaction of `open_dm`: the channel of a pair is taken or made. -/
def openDmRows (me other nextId : I64) : Option (I64 × Db) :=
  let pairKey := dmPairKey me other
  let inserted := match dmChannel? db hubId pairKey with
    | some _ => some db
    | none => db.insertChannelRow ⟨nextId, hubId, "", "dm", 0, some pairKey, noIcon⟩
  inserted.bind fun db => (dmChannel? db hubId pairKey).bind fun c =>
    (db.insertDmParticipant c.id me).bind fun db =>
      (db.insertDmParticipant c.id other).map fun db => (c.id, db)

/-- `open_dm`, as one step. -/
def openDm (other nextId : I64) : Reply I64 :=
  require (auth != other) (.status .badRequest) <|
  let both := db.hubMembers.countP fun m =>
    decide (m.hubId = hubId ∧ (m.userId = auth ∨ m.userId = other))
  require (both == 2) (.status .notFound) <|
  found (openDmRows db hubId auth other nextId) internalServerError fun r => .ok r

end Channels

/-! ### Members -/

/-- `kick_member` -/
def kickMember (db : Db) (hubId auth userId : I64) : Reply Unit :=
  let caller := db.resolveUserPerms hubId auth
  require (caller.has Bits.manageMembers) (.status .forbidden) <|
  require (auth != userId) (.status .badRequest) <|
  require (!db.isCreator hubId userId) (.status .forbidden) <|
  require (caller.canManagePosition (db.resolveTargetPosition hubId userId))
    (.status .forbidden) <|
  let db := db.deleteMemberGroups fun mg => decide (mg.hubId = hubId ∧ mg.userId = userId)
  .ok ((), db.deleteHubMember hubId userId)

/-! ### What the endpoints do to groups and memberships -/

section Effects

variable {db : Db} {hubId auth groupId userId channelId : I64}

theorem createGroup_ok {body : CreateGroup} {nextId : I64} {r : Group × Db}
    (h : createGroup db hubId auth body nextId = .ok r) : r.2.groups = r.1 :: db.groups ∧
      r.2.memberGroups = db.memberGroups ∧ ∀ g ∈ db.groups, g.id ≠ r.1.id := by
  simp only [createGroup, require_eq_ok, found_eq_ok] at h
  obtain ⟨-, -, db', hins, hr⟩ := h
  obtain rfl := Except.ok.inj hr
  exact Db.insertGroup_eq_some hins

theorem updateGroup_ok {body : UpdateGroup} {r : Group × Db}
    (h : updateGroup db hubId auth groupId body = .ok r) :
    (∃ target, db.group? hubId groupId = some target) ∧
      r.2 = db.updateGroupRow hubId groupId body.name body.color body.position body.hubPermissions ∧
      ∀ bits ∈ body.hubPermissions, bits.Within (db.resolveUserPerms hubId auth).grantableBits := by
  simp only [updateGroup, require_eq_ok, found_eq_ok] at h
  obtain ⟨target, htarget, hmay, hr⟩ := h
  obtain rfl := Except.ok.inj hr
  refine ⟨⟨target, htarget⟩, rfl, fun bits hbits => ?_⟩
  rw [mayUpdate, hbits] at hmay
  -- the bits of a protected group cannot be written
  split_ifs at hmay
  · simp at hmay
  · simp only [Option.all_some, Bool.and_eq_true, decide_eq_true_eq] at hmay
    exact hmay.2

theorem deleteGroup_shrinks {r : Unit × Db} (h : deleteGroup db hubId auth groupId = .ok r) :
    db.Shrinks r.2 := by
  simp only [deleteGroup, require_eq_ok, found_eq_ok] at h
  obtain ⟨-, _, -, -, -, -, hr⟩ := h
  obtain rfl := Except.ok.inj hr
  exact Db.deleteGroupRow_shrinks

theorem addMemberToGroup_ok {r : Unit × Db}
    (h : addMemberToGroup db hubId auth groupId userId = .ok r) : r.2.groups = db.groups ∧
      ∀ mg, mg ∈ r.2.memberGroups ↔ mg = ⟨hubId, userId, groupId⟩ ∨ mg ∈ db.memberGroups := by
  simp only [addMemberToGroup, require_eq_ok, found_eq_ok] at h
  obtain ⟨-, _, -, -, db', hins, hr⟩ := h
  obtain rfl := Except.ok.inj hr
  exact Db.insertMemberGroup_eq_some hins

theorem removeMemberFromGroup_shrinks {r : Unit × Db}
    (h : removeMemberFromGroup db hubId auth groupId userId = .ok r) : db.Shrinks r.2 := by
  simp only [removeMemberFromGroup, require_eq_ok, found_eq_ok] at h
  obtain ⟨-, _, -, -, -, hr⟩ := h
  obtain rfl := Except.ok.inj hr
  exact Db.deleteMemberGroups_shrinks _

theorem setChannelPermission_alone {body : SetPermission} {r : Unit × Db}
    (h : setChannelPermission db hubId auth channelId groupId body = .ok r) : db.Alone r.2 := by
  simp only [setChannelPermission, require_eq_ok, found_eq_ok] at h
  obtain ⟨-, db', hset, hr⟩ := h
  obtain rfl := Except.ok.inj hr
  exact Db.upsertChannelPermission_alone hset

theorem deleteChannelPermission_alone {r : Unit × Db}
    (h : deleteChannelPermission db hubId auth channelId groupId = .ok r) : db.Alone r.2 := by
  simp only [deleteChannelPermission, require_eq_ok] at h
  obtain rfl := Except.ok.inj h.2
  exact ⟨rfl, rfl⟩

theorem grantDefault_alone {db' : Db} (h : grantDefault db hubId channelId = some db') :
    db.Alone db' := by
  rw [grantDefault] at h
  split at h
  · obtain rfl := Option.some.inj h
    exact ⟨rfl, rfl⟩
  · exact Db.insertChannelPermission_alone h

theorem createChannel_alone {body : CreateChannel} {nextId : I64} {r : Channel × Db}
    (h : createChannel db hubId auth body nextId = .ok r) : db.Alone r.2 := by
  simp only [createChannel, require_eq_ok, found_eq_ok] at h
  obtain ⟨-, -, -, db₁, hins, db₂, hgrant, hr⟩ := h
  obtain rfl := Except.ok.inj hr
  exact (Db.insertChannelRow_alone hins).trans (grantDefault_alone hgrant)

theorem updateChannel_alone {body : UpdateChannel} {r : Unit × Db}
    (h : updateChannel db hubId auth channelId body = .ok r) : db.Alone r.2 := by
  simp only [updateChannel, require_eq_ok, found_eq_ok] at h
  obtain ⟨-, -, _, -, hr⟩ := h
  obtain rfl := Except.ok.inj hr
  exact ⟨rfl, rfl⟩

theorem uploadIcon_alone {storage : Option IconStorage} {field : Option IconField}
    {randSuffix : ℕ} {r : List Char × Db}
    (h : uploadIcon db hubId auth channelId storage field randSuffix = .ok r) : db.Alone r.2 := by
  simp only [uploadIcon, require_eq_ok, attempt_eq_ok, found_eq_ok] at h
  obtain ⟨-, _, -, _, -, hr⟩ := h
  obtain rfl := Except.ok.inj hr
  exact ⟨rfl, rfl⟩

theorem deleteChannel_alone {r : Unit × Db} (h : deleteChannel db hubId auth channelId = .ok r) :
    db.Alone r.2 := by
  simp only [deleteChannel, require_eq_ok, found_eq_ok] at h
  obtain ⟨-, _, -, hr⟩ := h
  obtain rfl := Except.ok.inj hr
  exact Db.deleteChannelRow_alone

theorem openDmRows_alone {me other nextId : I64} {r : I64 × Db}
    (h : openDmRows db hubId me other nextId = some r) : db.Alone r.2 := by
  simp only [openDmRows, Option.bind_eq_some_iff, Option.map_eq_some_iff] at h
  obtain ⟨db₁, hins, c, -, db₂, hme, db₃, hother, rfl⟩ := h
  have hfirst : db.Alone db₁ := by
    split at hins
    · obtain rfl := Option.some.inj hins
      exact ⟨rfl, rfl⟩
    · exact Db.insertChannelRow_alone hins
  exact (hfirst.trans (Db.insertDmParticipant_alone hme)).trans
    (Db.insertDmParticipant_alone hother)

theorem openDm_alone {other nextId : I64} {r : I64 × Db}
    (h : openDm db hubId auth other nextId = .ok r) : db.Alone r.2 := by
  simp only [openDm, require_eq_ok, found_eq_ok] at h
  obtain ⟨-, -, r', hrows, hr⟩ := h
  obtain rfl := Except.ok.inj hr
  exact openDmRows_alone hrows

theorem kickMember_shrinks {r : Unit × Db} (h : kickMember db hubId auth userId = .ok r) :
    db.Shrinks r.2 := by
  simp only [kickMember, require_eq_ok] at h
  obtain ⟨-, -, -, -, hr⟩ := h
  obtain rfl := Except.ok.inj hr
  exact ⟨fun _ hg => hg, (Db.deleteMemberGroups_shrinks _).memberGroups⟩

end Effects

/-! ### A small hub

The hub that the service sets up for development: Alice has made it and is its admin, Bob and
Charlie are members, and there is a channel in which everyone may read and write. -/

namespace Seed

open Chat (i64)

def hub : I64 := i64 1
def alice : I64 := i64 1001
def bob : I64 := i64 1002
def charlie : I64 := i64 1003
def everyone : I64 := i64 2001
def admin : I64 := i64 2002
def guests : I64 := i64 2003
def general : I64 := i64 3001

/-- What `run_dev_seed` leaves, with one channel. -/
def devSeed : Db where
  hubs := [⟨hub, some alice⟩]
  users := [⟨alice, "alice", "Alice", some "alice@matehub.dev", .permanent, none, none⟩,
    ⟨bob, "bob", "Bob", some "bob@matehub.dev", .permanent, none, none⟩,
    ⟨charlie, "charlie", "Charlie", some "charlie@matehub.dev", .permanent, none, none⟩]
  hubMembers := [⟨hub, alice, "admin"⟩, ⟨hub, bob, "member"⟩, ⟨hub, charlie, "member"⟩]
  groups := [⟨admin, hub, "admin", some "#E74C3C", 0, false, Bits.all⟩,
    ⟨guests, hub, "guests", some "#95A5A6", 1, false, 0⟩,
    ⟨everyone, hub, "everyone", some "#99AAB5", 100, true, 0⟩]
  memberGroups := [⟨hub, alice, everyone⟩, ⟨hub, alice, admin⟩, ⟨hub, bob, everyone⟩,
    ⟨hub, charlie, everyone⟩]
  channels := [⟨general, hub, "general", "text", 0, none, noIcon⟩]
  channelPermissions := [⟨general, admin, Bits.all, 0⟩, ⟨general, everyone, Bits.memberChannel, 0⟩,
    ⟨general, guests, Bits.read, 0⟩]
  dmParticipants := []
  tempUsers := []
  invitations := []
  inviteLinks := []
  fk_memberGroups := by decide
  fk_memberUsers := by decide
  pk_channels := by decide

end Seed

end Hub

end MateHub
