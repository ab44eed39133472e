import MateHub.Hub.Calls
import MateHub.Hub.Dms
import MateHub.Lib.Script

/-!
# Calls as statements

What a call writes is a script: a list of statements, each of which a constraint may refuse
(`MateHub.Hub.Write.exec`). An accepted call executes its script to the end
(`MateHub.Hub.Call.run_writes`), and most calls do so in one transaction or have one
statement only. The other ones can fail after some of their statements, and then leave the
database somewhere in the middle of the script (`MateHub.Hub.Call.stops`).

There are two more endpoints that write: the setup of a hub in an empty database, and the
login of an account of the general service.
-/

namespace MateHub

namespace Hub

open Chat (I64)

/-! ### Statements -/

/-- The writes of the endpoints, each to one table. -/
inductive Write
  | insertHub (h : HubRow)
  | insertUser (u : User)
  | expireUser (userId : I64) (now : Time)
  | setEmail (userId : I64) (email : String)
  | insertGroup (g : Group)
  | updateGroup (hubId groupId : I64) (body : UpdateGroup)
  | deleteGroup (hubId groupId : I64)
  | insertMemberGroup (mg : MemberGroup)
  | deleteMemberGroup (mg : MemberGroup)
  | deleteMemberGroups (hubId userId : I64)
  | insertHubMember (m : HubMember)
  | insertHubMemberNew (m : HubMember)
  | deleteHubMember (hubId userId : I64)
  | insertChannel (c : Channel)
  | updateChannel (hubId channelId : I64) (body : UpdateChannel)
  | deleteChannel (hubId channelId : I64)
  | upsertChannelPermission (cp : ChannelPermission)
  | insertChannelPermission (cp : ChannelPermission)
  | deleteChannelPermission (channelId groupId : I64)
  | insertDmParticipant (channelId userId : I64)
  | insertTempUser (t : TempUser)
  | revokeTempUser (hubId userId : I64) (now : Time)
  | seatTempUser (userId : I64) (session : String)
  | insertInviteLink (l : InviteLink)
  | claimSlot (l : InviteLink)
  | revokeInviteLink (hubId linkId : I64) (now : Time)
  | insertInvitation (i : Invitation)
  | useInvitation (i : Invitation) (userId : I64) (now : Time)
  | deleteInvitation (hubId invitationId : I64)

namespace Db

variable (db : Db)

/-- `INSERT INTO hubs`. -/
def insertHub (h : HubRow) : Option Db :=
  if db.hasHub h.id || !(h.creatorId.all db.hasUser) then none
  else some { db with hubs := h :: db.hubs }

/-- Setting `email` of a user, whose index may refuse it. -/
def setEmail (userId : I64) (email : String) : Option Db :=
  if db.users.any fun u => decide (u.id ≠ userId ∧ u.email = some email) then none
  else some { db with
    users := Table.update (fun u => decide (u.id = userId))
      (fun u => { u with email := some email }) db.users
    fk_memberUsers := fun mg hmg => by
      obtain ⟨u, hu, hid⟩ := db.fk_memberUsers mg hmg
      refine ⟨_, Table.mem_update.mpr ⟨u, hu, rfl⟩, ?_⟩
      split
      · exact hid
      · exact hid }

/-- Setting `active_session` of a guest. -/
def seatTempUser (userId : I64) (session : String) : Db :=
  { db with
    tempUsers := Table.update (fun t => decide (t.userId = userId))
      (fun t => { t with activeSession := some session }) db.tempUsers }

/-- Setting `revoked_at` of a link. -/
def revokeInviteLink (hubId linkId : I64) (now : Time) : Db :=
  { db with
    inviteLinks := Table.update (fun l => decide (l.id = linkId ∧ l.hubId = hubId))
      (fun l => { l with revokedAt := some now }) db.inviteLinks }

/-- `DELETE FROM invitations`. -/
def deleteInvitation (hubId invitationId : I64) : Db :=
  { db with
    invitations := Table.delete
      (fun i => decide (i.id = invitationId ∧ i.hubId = hubId)) db.invitations }

end Db

/-- The database after a statement, if it is not refused. -/
def Write.exec (db : Db) : Write → Option Db
  | insertHub h => db.insertHub h
  | insertUser u => (db.insertUser u).toOption
  | expireUser userId now => some (Hub.expireUser db userId now)
  | setEmail userId email => db.setEmail userId email
  | insertGroup g => db.insertGroup g
  | updateGroup hubId groupId body =>
    some (db.updateGroupRow hubId groupId body.name body.color body.position body.hubPermissions)
  | deleteGroup hubId groupId => some (db.deleteGroupRow hubId groupId)
  | insertMemberGroup mg => db.insertMemberGroup mg.hubId mg.userId mg.groupId
  | deleteMemberGroup mg => some (db.deleteMemberGroups fun mg' => decide (mg' = mg))
  | deleteMemberGroups hubId userId =>
    some (db.deleteMemberGroups fun mg => decide (mg.hubId = hubId ∧ mg.userId = userId))
  | insertHubMember m => db.insertHubMember m
  | insertHubMemberNew m => db.insertHubMemberNew m
  | deleteHubMember hubId userId => some (db.deleteHubMember hubId userId)
  | insertChannel c => db.insertChannelRow c
  | updateChannel hubId channelId body =>
    some (db.updateChannelRow hubId channelId body.name body.position body.icon)
  | deleteChannel hubId channelId => some (db.deleteChannelRow hubId channelId)
  | upsertChannelPermission cp => db.upsertChannelPermission cp
  | insertChannelPermission cp => db.insertChannelPermission cp
  | deleteChannelPermission channelId groupId =>
    some (db.deleteChannelPermissionRow channelId groupId)
  | insertDmParticipant channelId userId => db.insertDmParticipant channelId userId
  | insertTempUser t => db.insertTempUser t
  | revokeTempUser hubId userId now => some (revokeRow db hubId userId now)
  | seatTempUser userId session => some (db.seatTempUser userId session)
  | insertInviteLink l => db.insertInviteLink l
  | claimSlot l => some (Hub.claimSlot db l)
  | revokeInviteLink hubId linkId now => some (db.revokeInviteLink hubId linkId now)
  | insertInvitation i => db.insertInvitation i
  | useInvitation i userId now => some (Hub.useInvitation db i userId now)
  | deleteInvitation hubId invitationId => some (db.deleteInvitation hubId invitationId)

/-! ### What statements leave alone -/

/-- The tables. -/
inductive Relation
  | hubs
  | users
  | hubMembers
  | groups
  | memberGroups
  | channels
  | channelPermissions
  | dmParticipants
  | tempUsers
  | invitations
  | inviteLinks

/-- A table is the same in two databases. -/
def Db.SameIn (db db' : Db) : Relation → Prop
  | .hubs => db'.hubs = db.hubs
  | .users => db'.users = db.users
  | .hubMembers => db'.hubMembers = db.hubMembers
  | .groups => db'.groups = db.groups
  | .memberGroups => db'.memberGroups = db.memberGroups
  | .channels => db'.channels = db.channels
  | .channelPermissions => db'.channelPermissions = db.channelPermissions
  | .dmParticipants => db'.dmParticipants = db.dmParticipants
  | .tempUsers => db'.tempUsers = db.tempUsers
  | .invitations => db'.invitations = db.invitations
  | .inviteLinks => db'.inviteLinks = db.inviteLinks

/-- The tables that a statement writes to. -/
def Write.touches : Write → Relation → Bool
  | insertHub _, .hubs => true
  | insertUser _, .users | expireUser _ _, .users | setEmail _ _, .users => true
  | insertGroup _, .groups | updateGroup _ _ _, .groups => true
  | deleteGroup _ _, .groups | deleteGroup _ _, .memberGroups
  | deleteGroup _ _, .channelPermissions | deleteGroup _ _, .tempUsers
  | deleteGroup _ _, .invitations | deleteGroup _ _, .inviteLinks => true
  | insertMemberGroup _, .memberGroups | deleteMemberGroup _, .memberGroups
  | deleteMemberGroups _ _, .memberGroups => true
  | insertHubMember _, .hubMembers | insertHubMemberNew _, .hubMembers
  | deleteHubMember _ _, .hubMembers => true
  | insertChannel _, .channels | updateChannel _ _ _, .channels => true
  | deleteChannel _ _, .channels | deleteChannel _ _, .channelPermissions
  | deleteChannel _ _, .dmParticipants => true
  | upsertChannelPermission _, .channelPermissions
  | insertChannelPermission _, .channelPermissions
  | deleteChannelPermission _ _, .channelPermissions => true
  | insertDmParticipant _ _, .dmParticipants => true
  | insertTempUser _, .tempUsers | revokeTempUser _ _ _, .tempUsers
  | seatTempUser _ _, .tempUsers => true
  | insertInviteLink _, .inviteLinks | claimSlot _, .inviteLinks
  | revokeInviteLink _ _ _, .inviteLinks => true
  | insertInvitation _, .invitations | useInvitation _ _ _, .invitations
  | deleteInvitation _ _, .invitations => true
  | _, _ => false

section Exec

variable {db db' : Db} {w : Write}

theorem exec_insertUser_eq_some {u : User} (h : Write.exec db (.insertUser u) = some db') :
    db.insertUser u = .ok db' := by
  rw [Write.exec] at h
  rcases hins : db.insertUser u with e | db₁
  · rw [hins] at h
    cases h
  · rw [hins] at h
    exact congrArg _ (Option.some.inj h)

/-- **The other tables are left alone.** -/
theorem Write.untouched (hexec : w.exec db = some db') (r : Relation)
    (h : w.touches r = false) : db.SameIn db' r := by
  cases w with
  | expireUser | updateGroup | deleteMemberGroup | deleteMemberGroups | deleteHubMember
  | updateChannel | deleteChannelPermission | revokeTempUser | seatTempUser | claimSlot
  | revokeInviteLink | useInvitation | deleteInvitation =>
    obtain rfl := Option.some.inj hexec
    cases r <;> first | rfl | cases h
  | insertHub | setEmail | insertGroup | insertMemberGroup | insertHubMemberNew | insertChannel
  | upsertChannelPermission | insertChannelPermission | insertDmParticipant =>
    dsimp only [exec, Db.insertHub, Db.setEmail, Db.insertGroup, Db.insertMemberGroup,
      Db.insertHubMemberNew, Db.insertChannelRow, Db.upsertChannelPermission,
      Db.insertChannelPermission, Db.insertDmParticipant] at hexec
    split_ifs at hexec
    obtain rfl := Option.some.inj hexec
    cases r <;> first | rfl | cases h
  | insertHubMember | insertTempUser | insertInviteLink | insertInvitation =>
    dsimp only [exec, Db.insertHubMember, Db.insertTempUser, Db.insertInviteLink,
      Db.insertInvitation] at hexec
    split_ifs at hexec
    obtain ⟨_, -, rfl⟩ := Option.map_eq_some_iff.mp hexec
    cases r <;> first | rfl | cases h
  | deleteGroup =>
    obtain rfl := Option.some.inj hexec
    rw [Db.deleteGroupRow]
    split <;> cases r <;> first | rfl | cases h
  | deleteChannel =>
    obtain rfl := Option.some.inj hexec
    rw [Db.deleteChannelRow]
    split <;> cases r <;> first | rfl | cases h
  | insertUser u =>
    have hins := exec_insertUser_eq_some hexec
    rw [Db.insertUser] at hins
    split at hins
    · cases hins
    · obtain rfl := Except.ok.inj hins
      cases r <;> first | rfl | cases h

end Exec

/-! ### What calls write -/

/-- Several memberships of one user. -/
def insertMemberGroups (hubId userId : I64) (groupIds : List I64) : List Write :=
  groupIds.map fun groupId => .insertMemberGroup ⟨hubId, userId, groupId⟩

/-- What a registration writes in a hub. -/
def registerWrites (db : Db) (hubId userId : I64) (ids : I64 → List I64) : List Write :=
  .insertHubMember ⟨hubId, userId, "member"⟩ ::
    (db.defaultGroup? hubId).toList.flatMap fun everyone =>
      insertMemberGroups hubId userId (ids everyone.id)

namespace Call

/-- The statements of a call that passes its checks. -/
def writes (db : Db) : Call → List Write
  | createGroup hubId _ body nextId =>
    let maxPos := ((db.groups.filter fun g => decide (g.hubId = hubId)).map Group.position).max?
    [.insertGroup ⟨nextId, hubId, body.name, body.color, wrapI32 (maxPos.getD 0 + 1), false,
      body.hubPermissions.getD 0⟩]
  | updateGroup hubId _ groupId body => [.updateGroup hubId groupId body]
  | deleteGroup hubId _ groupId => [.deleteGroup hubId groupId]
  | addMemberToGroup hubId _ groupId userId => [.insertMemberGroup ⟨hubId, userId, groupId⟩]
  | removeMemberFromGroup hubId _ groupId userId => [.deleteMemberGroup ⟨hubId, userId, groupId⟩]
  | setChannelPermission _ _ channelId groupId body =>
    [.upsertChannelPermission ⟨channelId, groupId, body.allowBits, body.denyBits⟩]
  | deleteChannelPermission _ _ channelId groupId => [.deleteChannelPermission channelId groupId]
  | createChannel hubId _ body nextId =>
    .insertChannel (newChannel db hubId body nextId) :: (db.defaultGroup? hubId).toList.map fun g =>
      .insertChannelPermission ⟨nextId, g.id, Bits.memberChannel, 0⟩
  | updateChannel hubId _ channelId body => [.updateChannel hubId channelId body]
  | deleteChannel hubId _ channelId => [.deleteChannel hubId channelId]
  | uploadIcon hubId _ channelId storage field randSuffix =>
    let url := (storeIcon hubId channelId storage field randSuffix).toOption
    [.updateChannel hubId channelId ⟨none, none, none, none, url⟩]
  | openDm hubId auth other nextId =>
    match dmChannel? db hubId (dmPairKey auth other) with
    | some c => [.insertDmParticipant c.id auth, .insertDmParticipant c.id other]
    | none => [.insertChannel ⟨nextId, hubId, "", "dm", 0, some (dmPairKey auth other), noIcon⟩,
        .insertDmParticipant nextId auth, .insertDmParticipant nextId other]
  | kickMember hubId _ userId => [.deleteMemberGroups hubId userId, .deleteHubMember hubId userId]
  | createTempUser hubId auth body now nextId token =>
    [.insertUser ⟨nextId, String.ofList ("guest-".toList ++ nextId.display),
        Text.trim body.nickname, none, .temp, some (now + body.ttlSeconds), none⟩,
      .insertTempUser ⟨nextId, hubId, token, body.groupId, auth, none, none⟩]
  | revokeTempUser hubId _ userId now => [.revokeTempUser hubId userId now, .expireUser userId now]
  | joinViaToken token now session =>
    (joinRow? db token now).toList.flatMap fun t =>
      (db.defaultGroup? t.hubId).toList.flatMap fun everyone =>
        .insertHubMemberNew ⟨t.hubId, t.userId, "guest"⟩ ::
          (insertMemberGroups t.hubId t.userId [everyone.id, t.groupId] ++
            [.seatTempUser t.userId session])
  | createInviteLink hubId auth body _ nextId token =>
    [.insertInviteLink ⟨nextId, hubId, token, body.expiresAt, body.maxUses, 0, body.groupId, auth,
      none⟩]
  | redeemInviteLink _ token body now nextId =>
    (claim? db token now).toList.flatMap fun l =>
      .claimSlot l :: .insertUser ⟨nextId, Text.trim body.username, Text.trim body.displayName,
        some (Text.trim body.email), .permanent, none, none⟩ ::
        registerWrites db l.hubId nextId fun everyone => groupIds everyone l.groupId
  | createInvitation _ hubId auth body nextId token =>
    [.insertInvitation ⟨nextId, hubId, token, Text.trim body.username,
      (body.email.map Text.trim).filter fun e => !e.isEmpty, none, auth, none, none⟩]
  | acceptInvitation token body now nextId =>
    (db.invitations.find? fun i => i.token == token).toList.flatMap fun i =>
      .insertUser ⟨nextId, i.username, body.displayName, i.email, .permanent, none, none⟩ ::
        (registerWrites db i.hubId nextId (fun everyone => everyone :: i.groupId.toList) ++
          [.useInvitation i nextId now])
  | deletePendingPermanent hubId _ invitationId => [.deleteInvitation hubId invitationId]
  | deletePendingTemp hubId _ userId now =>
    [.revokeTempUser hubId userId now, .expireUser userId now]
  | deletePendingLink hubId _ linkId now => [.revokeInviteLink hubId linkId now]

end Call

/-! ### What scripts leave alone -/

theorem Db.SameIn.trans {db db' db'' : Db} {r : Relation} (h : db.SameIn db' r)
    (h' : db'.SameIn db'' r) : db.SameIn db'' r := by
  cases r <;> exact Eq.trans h' h

theorem Write.run_untouched {db db' : Db} {ws : List Write} {r : Relation}
    (h : Script.run Write.exec db ws = some db') (hws : ∀ w ∈ ws, w.touches r = false) :
    db.SameIn db' r := by
  induction ws generalizing db with
  | nil =>
    obtain rfl := Option.some.inj h
    cases r <;> rfl
  | cons w ws ih =>
    obtain ⟨db₁, hexec, hrun⟩ := Option.bind_eq_some_iff.mp h
    have hrest := ih hrun fun w' hw' => hws w' (List.mem_cons_of_mem _ hw')
    exact (Write.untouched hexec r (hws w List.mem_cons_self)).trans hrest

theorem touches_insertMemberGroups {hubId userId : I64} {groupIds : List I64} {w : Write}
    {r : Relation} (h : w ∈ insertMemberGroups hubId userId groupIds) (hr : r ≠ .memberGroups) :
    w.touches r = false := by
  obtain ⟨groupId, -, rfl⟩ := List.mem_map.mp h
  cases r with
  | memberGroups => exact absurd rfl hr
  | _ => rfl

/-- A condition on the insertion of memberships that rests on the groups and the members
only. -/
theorem along_insertMemberGroups {P : Db → Write → Prop} {db : Db} {hubId userId : I64}
    {groupIds : List I64} (h : ∀ gid ∈ groupIds, ∀ db₁ : Db, db₁.groups = db.groups →
      db₁.hubMembers = db.hubMembers → P db₁ (.insertMemberGroup ⟨hubId, userId, gid⟩)) :
    Script.Along Write.exec P db (insertMemberGroups hubId userId groupIds) := by
  induction groupIds generalizing db with
  | nil => trivial
  | cons groupId groupIds ih =>
    refine ⟨h groupId List.mem_cons_self db rfl rfl, fun db₁ hexec => ih ?_⟩
    intro gid hgid db₂ hgroups hmembers
    refine h gid (List.mem_cons_of_mem _ hgid) db₂ ?_ ?_
    · exact hgroups.trans (Db.insertMemberGroup_eq_some hexec).1
    · have hsame : db.SameIn db₁ .hubMembers := Write.untouched hexec .hubMembers rfl
      exact hmembers.trans hsame

theorem touches_registerWrites {db : Db} {hubId userId : I64} {ids : I64 → List I64} {w : Write}
    {r : Relation} (h : w ∈ registerWrites db hubId userId ids) (hr : r ≠ .memberGroups)
    (hr' : r ≠ .hubMembers) : w.touches r = false := by
  rcases List.mem_cons.mp h with rfl | h
  · cases r with
    | hubMembers => exact absurd rfl hr'
    | _ => rfl
  · obtain ⟨everyone, -, h⟩ := List.mem_flatMap.mp h
    exact touches_insertMemberGroups h hr

/-! ### What the longer scripts consist of -/

namespace Call

variable {db : Db} {w : Write} {hubId auth nextId : I64} {token : String} {now : Time}

theorem mem_writes_joinViaToken {session : String}
    (h : w ∈ (joinViaToken token now session).writes db) : (∃ m, w = .insertHubMemberNew m) ∨
      (∃ mg, w = .insertMemberGroup mg) ∨ ∃ userId, w = .seatTempUser userId session := by
  obtain ⟨t, -, h⟩ := List.mem_flatMap.mp h
  obtain ⟨everyone, -, h⟩ := List.mem_flatMap.mp h
  rcases List.mem_cons.mp h with rfl | h
  · exact .inl ⟨_, rfl⟩
  · rcases List.mem_append.mp h with h | h
    · obtain ⟨groupId, -, rfl⟩ := List.mem_map.mp h
      exact .inr (.inl ⟨_, rfl⟩)
    · exact .inr (.inr ⟨_, List.mem_singleton.mp h⟩)

theorem mem_registerWrites {userId : I64} {ids : I64 → List I64}
    (h : w ∈ registerWrites db hubId userId ids) :
    (∃ m, w = .insertHubMember m) ∨ ∃ mg, w = .insertMemberGroup mg := by
  rcases List.mem_cons.mp h with rfl | h
  · exact .inl ⟨_, rfl⟩
  · obtain ⟨everyone, -, h⟩ := List.mem_flatMap.mp h
    obtain ⟨groupId, -, rfl⟩ := List.mem_map.mp h
    exact .inr ⟨_, rfl⟩

theorem mem_writes_redeemInviteLink {parses : String → Bool} {body : RedeemInviteLink}
    (h : w ∈ (redeemInviteLink parses token body now nextId).writes db) :
    (∃ l, w = .claimSlot l) ∨ (∃ u, w = .insertUser u) ∨ (∃ m, w = .insertHubMember m) ∨
      ∃ mg, w = .insertMemberGroup mg := by
  obtain ⟨l, -, h⟩ := List.mem_flatMap.mp h
  rcases List.mem_cons.mp h with rfl | h
  · exact .inl ⟨_, rfl⟩
  · rcases List.mem_cons.mp h with rfl | h
    · exact .inr (.inl ⟨_, rfl⟩)
    · exact .inr (.inr (mem_registerWrites h))

theorem mem_writes_acceptInvitation {body : AcceptInvitation}
    (h : w ∈ (acceptInvitation token body now nextId).writes db) :
    (∃ u, w = .insertUser u) ∨ ((∃ m, w = .insertHubMember m) ∨ ∃ mg, w = .insertMemberGroup mg) ∨
      ∃ i, w = .useInvitation i nextId now := by
  obtain ⟨i, -, h⟩ := List.mem_flatMap.mp h
  rcases List.mem_cons.mp h with rfl | h
  · exact .inl ⟨_, rfl⟩
  · rcases List.mem_append.mp h with h | h
    · exact .inr (.inl (mem_registerWrites h))
    · exact .inr (.inr ⟨_, List.mem_singleton.mp h⟩)

theorem mem_writes_createChannel {body : CreateChannel}
    (h : w ∈ (createChannel hubId auth body nextId).writes db) :
    (∃ c, w = .insertChannel c) ∨ ∃ cp, w = .insertChannelPermission cp := by
  rcases List.mem_cons.mp h with rfl | h
  · exact .inl ⟨_, rfl⟩
  · obtain ⟨g, -, rfl⟩ := List.mem_map.mp h
    exact .inr ⟨_, rfl⟩

theorem mem_writes_openDm {other : I64} (h : w ∈ (openDm hubId auth other nextId).writes db) :
    (∃ c, w = .insertChannel c) ∨
      ∃ channelId userId, w = .insertDmParticipant channelId userId := by
  dsimp only [writes] at h
  split at h <;> simp only [List.mem_cons, List.not_mem_nil, or_false] at h
  · rcases h with rfl | rfl <;> exact .inr ⟨_, _, rfl⟩
  · rcases h with rfl | rfl | rfl
    · exact .inl ⟨_, rfl⟩
    · exact .inr ⟨_, _, rfl⟩
    · exact .inr ⟨_, _, rfl⟩

/-- No call makes a hub. -/
theorem touches_hubs {call : Call} (h : w ∈ call.writes db) : w.touches .hubs = false := by
  cases call with
  | joinViaToken => rcases mem_writes_joinViaToken h with ⟨_, rfl⟩ | ⟨_, rfl⟩ | ⟨_, rfl⟩ <;> rfl
  | redeemInviteLink =>
    rcases mem_writes_redeemInviteLink h with ⟨_, rfl⟩ | ⟨_, rfl⟩ | ⟨_, rfl⟩ | ⟨_, rfl⟩ <;> rfl
  | acceptInvitation =>
    rcases mem_writes_acceptInvitation h with ⟨_, rfl⟩ | (⟨_, rfl⟩ | ⟨_, rfl⟩) | ⟨_, rfl⟩ <;> rfl
  | createChannel => rcases mem_writes_createChannel h with ⟨_, rfl⟩ | ⟨_, rfl⟩ <;> rfl
  | openDm => rcases mem_writes_openDm h with ⟨_, rfl⟩ | ⟨_, _, rfl⟩ <;> rfl
  | kickMember | createTempUser | revokeTempUser | deletePendingTemp =>
    rcases List.mem_pair.mp h with rfl | rfl <;> rfl
  | _ =>
    rw [List.mem_singleton.mp h]
    rfl

end Call

/-! ### An accepted call executes its script -/

section Run

variable {db db' : Db} {account : Option I64} {call : Call} {hubId userId : I64}

theorem run_insertMemberGroups (groupIds : List I64) :
    Script.run Write.exec db (insertMemberGroups hubId userId groupIds) =
      db.insertMemberGroups hubId userId groupIds := by
  induction groupIds generalizing db with
  | nil => rfl
  | cons groupId groupIds ih =>
    rw [insertMemberGroups, List.map_cons, Script.run_cons, Db.insertMemberGroups,
      List.foldlM_cons]
    exact Option.bind_congr fun db₁ _ => ih

/-- Inserting a member leaves the default group. -/
theorem defaultGroup?_insertHubMember {m : HubMember} {hub : I64}
    (h : db.insertHubMember m = some db') : db'.defaultGroup? hub = db.defaultGroup? hub := by
  rw [Db.defaultGroup?, Db.defaultGroup?, (Db.insertHubMember_alone h).groups]

theorem run_registerWrites {ids : I64 → List I64} {db₀ : Db}
    (hreg : registerRows db hubId userId ids = some db') (hgroups : db₀.groups = db.groups) :
    Script.run Write.exec db (registerWrites db₀ hubId userId ids) = some db' := by
  obtain ⟨db₁, hmember, h⟩ := Option.bind_eq_some_iff.mp hreg
  obtain ⟨everyone, heveryone, hins⟩ := Option.bind_eq_some_iff.mp h
  have hdefault : db₀.defaultGroup? hubId = some everyone := by
    rw [← heveryone, defaultGroup?_insertHubMember hmember, Db.defaultGroup?, Db.defaultGroup?,
      hgroups]
  rw [registerWrites, hdefault, Script.run_cons]
  refine Option.bind_eq_some_iff.mpr ⟨db₁, hmember, ?_⟩
  rw [Option.toList_some, List.flatMap_singleton, run_insertMemberGroups]
  exact hins

theorem exec_insertUser {u : User} (h : db.insertUser u = .ok db') :
    Write.exec db (.insertUser u) = some db' := by
  rw [Write.exec, h]
  rfl

/-- **An accepted call executes its script.** -/
theorem Call.run_writes (h : call.run db = .ok (account, db')) :
    Script.run Write.exec db (call.writes db) = some db' := by
  have hone {w : Write} (hw : w.exec db = some db') : Script.run Write.exec db [w] = some db' := by
    rw [Script.run_cons, hw]
    rfl
  cases call with
  | createGroup hubId auth body nextId =>
    obtain ⟨-, p, hp, rfl⟩ := silent_eq_ok h
    simp only [Hub.createGroup, require_eq_ok, found_eq_ok] at hp
    obtain ⟨-, -, db₁, hins, hr⟩ := hp
    obtain rfl := Except.ok.inj hr
    exact hone hins
  | updateGroup hubId auth groupId body =>
    obtain ⟨-, p, hp, rfl⟩ := silent_eq_ok h
    obtain ⟨-, hrow, -⟩ := updateGroup_ok hp
    exact hone (congrArg some hrow.symm)
  | deleteGroup hubId auth groupId =>
    obtain ⟨-, p, hp, rfl⟩ := silent_eq_ok h
    simp only [Hub.deleteGroup, require_eq_ok, found_eq_ok] at hp
    obtain ⟨-, _, -, -, -, -, hr⟩ := hp
    obtain rfl := Except.ok.inj hr
    exact hone rfl
  | addMemberToGroup hubId auth groupId userId =>
    obtain ⟨-, p, hp, rfl⟩ := silent_eq_ok h
    simp only [Hub.addMemberToGroup, require_eq_ok, found_eq_ok] at hp
    obtain ⟨-, _, -, -, db₁, hins, hr⟩ := hp
    obtain rfl := Except.ok.inj hr
    exact hone hins
  | removeMemberFromGroup hubId auth groupId userId =>
    obtain ⟨-, p, hp, rfl⟩ := silent_eq_ok h
    simp only [Hub.removeMemberFromGroup, require_eq_ok, found_eq_ok] at hp
    obtain ⟨-, _, -, -, -, hr⟩ := hp
    obtain rfl := Except.ok.inj hr
    exact hone rfl
  | setChannelPermission hubId auth channelId groupId body =>
    obtain ⟨-, p, hp, rfl⟩ := silent_eq_ok h
    simp only [Hub.setChannelPermission, require_eq_ok, found_eq_ok] at hp
    obtain ⟨-, db₁, hset, hr⟩ := hp
    obtain rfl := Except.ok.inj hr
    exact hone hset
  | deleteChannelPermission hubId auth channelId groupId =>
    obtain ⟨-, p, hp, rfl⟩ := silent_eq_ok h
    simp only [Hub.deleteChannelPermission, require_eq_ok] at hp
    obtain rfl := Except.ok.inj hp.2
    exact hone rfl
  | createChannel hubId auth body nextId =>
    obtain ⟨-, p, hp, rfl⟩ := silent_eq_ok h
    simp only [Hub.createChannel, require_eq_ok, found_eq_ok] at hp
    obtain ⟨-, -, -, db₁, hins, db₂, hgrant, hr⟩ := hp
    obtain rfl := Except.ok.inj hr
    have hdefault : db₁.defaultGroup? hubId = db.defaultGroup? hubId := by
      rw [Db.defaultGroup?, Db.defaultGroup?, (Db.insertChannelRow_alone hins).groups]
    rw [Call.writes, Script.run_cons]
    refine Option.bind_eq_some_iff.mpr ⟨db₁, hins, ?_⟩
    rw [grantDefault, hdefault] at hgrant
    cases hg : db.defaultGroup? hubId with
    | none =>
      rw [hg] at hgrant
      exact hgrant
    | some g =>
      rw [hg] at hgrant
      rw [Option.toList_some, List.map_singleton, Script.run_cons]
      exact Option.bind_eq_some_iff.mpr ⟨_, hgrant, rfl⟩
  | updateChannel hubId auth channelId body =>
    obtain ⟨-, p, hp, rfl⟩ := silent_eq_ok h
    simp only [Hub.updateChannel, require_eq_ok, found_eq_ok] at hp
    obtain ⟨-, -, _, -, hr⟩ := hp
    obtain rfl := Except.ok.inj hr
    exact hone rfl
  | deleteChannel hubId auth channelId =>
    obtain ⟨-, p, hp, rfl⟩ := silent_eq_ok h
    simp only [Hub.deleteChannel, require_eq_ok, found_eq_ok] at hp
    obtain ⟨-, _, -, hr⟩ := hp
    obtain rfl := Except.ok.inj hr
    exact hone rfl
  | uploadIcon hubId auth channelId storage field randSuffix =>
    obtain ⟨-, p, hp, rfl⟩ := silent_eq_ok h
    simp only [Hub.uploadIcon, require_eq_ok, attempt_eq_ok, found_eq_ok] at hp
    obtain ⟨-, url, hurl, _, -, hr⟩ := hp
    obtain rfl := Except.ok.inj hr
    refine hone ?_
    rw [hurl]
    rfl
  | openDm hubId auth other nextId =>
    obtain ⟨-, p, hp, rfl⟩ := silent_eq_ok h
    simp only [Hub.openDm, require_eq_ok, found_eq_ok] at hp
    obtain ⟨-, -, r, hrows, hr⟩ := hp
    obtain rfl := Except.ok.inj hr
    rw [openDmRows_eq] at hrows
    dsimp only [Call.writes]
    cases hc : dmChannel? db hubId (dmPairKey auth other) with
    | some c =>
      rw [hc] at hrows
      obtain ⟨db₁, hdb, rfl⟩ := Option.map_eq_some_iff.mp hrows
      simpa [commitDm, Write.exec] using hdb
    | none =>
      rw [hc] at hrows
      obtain ⟨db₁, hdb, rfl⟩ := Option.map_eq_some_iff.mp hrows
      simpa [commitDm, Write.exec] using hdb
  | kickMember hubId auth userId =>
    obtain ⟨-, p, hp, rfl⟩ := silent_eq_ok h
    simp only [Hub.kickMember, require_eq_ok] at hp
    obtain ⟨-, -, -, -, hr⟩ := hp
    obtain rfl := Except.ok.inj hr
    rfl
  | createTempUser hubId auth body now nextId token =>
    obtain ⟨p, hp, -, rfl⟩ := gives_eq_ok h
    simp only [Hub.createTempUser, require_eq_ok, found_eq_ok, attempt_eq_ok] at hp
    obtain ⟨-, -, db₁, huser, db₂, htemp, hr⟩ := hp
    obtain rfl := Except.ok.inj hr
    rw [Call.writes, Script.run_cons, exec_insertUser huser, Option.bind_some, Script.run_cons]
    exact Option.bind_eq_some_iff.mpr ⟨_, htemp, rfl⟩
  | revokeTempUser hubId auth userId now =>
    obtain ⟨-, p, hp, rfl⟩ := silent_eq_ok h
    simp only [Hub.revokeTempUser, require_eq_ok, found_eq_ok] at hp
    obtain ⟨-, _, -, -, hr⟩ := hp
    obtain rfl := Except.ok.inj hr
    rfl
  | joinViaToken token now session =>
    obtain ⟨p, hp, -, rfl⟩ := gives_eq_ok h
    simp only [Hub.joinViaToken, found_eq_ok] at hp
    obtain ⟨t, ht, everyone, heveryone, db₁, hrows, hr⟩ := hp
    obtain rfl := Except.ok.inj hr
    simp only [joinRows, Option.bind_eq_some_iff, Option.map_eq_some_iff] at hrows
    obtain ⟨db₂, hmember, db₃, hins, rfl⟩ := hrows
    rw [Call.writes, ht, Option.toList_some, List.flatMap_singleton, heveryone,
      Option.toList_some, List.flatMap_singleton, Script.run_cons]
    refine Option.bind_eq_some_iff.mpr ⟨db₂, hmember, ?_⟩
    rw [Script.run_append, run_insertMemberGroups, hins]
    rfl
  | createInviteLink hubId auth body now nextId token =>
    obtain ⟨-, p, hp, rfl⟩ := silent_eq_ok h
    simp only [Hub.createInviteLink, require_eq_ok, found_eq_ok] at hp
    obtain ⟨-, -, -, -, db₁, hins, hr⟩ := hp
    obtain rfl := Except.ok.inj hr
    exact hone hins
  | redeemInviteLink parses token body now nextId =>
    obtain ⟨p, hp, -, rfl⟩ := gives_eq_ok h
    simp only [Hub.redeemInviteLink, require_eq_ok, found_eq_ok, attempt_eq_ok] at hp
    obtain ⟨-, -, -, -, l, hl, db₁, huser, db₂, hrows, hr⟩ := hp
    obtain rfl := Except.ok.inj hr
    rw [Call.writes, hl, Option.toList_some, List.flatMap_singleton, Script.run_cons]
    refine Option.bind_eq_some_iff.mpr ⟨_, rfl, ?_⟩
    rw [Script.run_cons, exec_insertUser huser]
    exact run_registerWrites hrows (Db.insertUser_eq_ok huser).1.groups.symm
  | createInvitation parses hubId auth body nextId token =>
    obtain ⟨-, p, hp, rfl⟩ := silent_eq_ok h
    simp only [Hub.createInvitation, require_eq_ok, found_eq_ok, attempt_eq_ok] at hp
    obtain ⟨-, -, -, _, -, db₁, hins, hr⟩ := hp
    obtain rfl := Except.ok.inj hr
    exact hone hins
  | acceptInvitation token body now nextId =>
    obtain ⟨p, hp, -, rfl⟩ := gives_eq_ok h
    simp only [Hub.acceptInvitation, require_eq_ok, found_eq_ok, attempt_eq_ok] at hp
    obtain ⟨-, i, hi, -, db₁, huser, db₂, hrows, hr⟩ := hp
    obtain rfl := Except.ok.inj hr
    rw [Call.writes, hi, Option.toList_some, List.flatMap_singleton, Script.run_cons,
      exec_insertUser huser]
    rw [Option.bind_some, Script.run_append,
      run_registerWrites hrows (Db.insertUser_eq_ok huser).1.groups.symm]
    rfl
  | deletePendingPermanent hubId auth invitationId =>
    obtain ⟨-, p, hp, rfl⟩ := silent_eq_ok h
    simp only [Hub.deletePendingPermanent, require_eq_ok, found_eq_ok] at hp
    obtain ⟨_, -, -, -, hr⟩ := hp
    obtain rfl := Except.ok.inj hr
    exact hone rfl
  | deletePendingTemp hubId auth userId now =>
    obtain ⟨-, p, hp, rfl⟩ := silent_eq_ok h
    simp only [Hub.deletePendingTemp, require_eq_ok, found_eq_ok] at hp
    obtain ⟨_, -, -, -, hr⟩ := hp
    obtain rfl := Except.ok.inj hr
    rfl
  | deletePendingLink hubId auth linkId now =>
    obtain ⟨-, p, hp, rfl⟩ := silent_eq_ok h
    simp only [Hub.deletePendingLink, require_eq_ok, found_eq_ok] at hp
    obtain ⟨_, -, -, -, hr⟩ := hp
    obtain rfl := Except.ok.inj hr
    exact hone rfl

end Run

/-! ### Calls that fail halfway -/

/-- The checks of `add_member_to_group`. -/
def mayAssign (db : Db) (hubId auth groupId : I64) : Bool :=
  let caller := db.resolveUserPerms hubId auth
  caller.has Bits.manageRoles &&
    (db.group? hubId groupId).any fun target => caller.canManagePosition target.position

theorem addMemberToGroup_eq_ok {db : Db} {hubId auth groupId userId : I64} {r : Unit × Db}
    (h : addMemberToGroup db hubId auth groupId userId = .ok r) :
    mayAssign db hubId auth groupId = true ∧ db.hasUser userId = true := by
  simp only [addMemberToGroup, require_eq_ok, found_eq_ok] at h
  obtain ⟨hhas, target, htarget, hpos, db₁, hins, -⟩ := h
  refine ⟨?_, ?_⟩
  · rw [mayAssign, hhas, htarget]
    exact hpos
  · rw [Db.insertMemberGroup] at hins
    split_ifs at hins with hexists
    exact hexists.2

namespace Call

variable (db : Db)

/-- The checks of `kick_member`. -/
def mayKick (hubId auth userId : I64) : Bool :=
  let caller := db.resolveUserPerms hubId auth
  caller.has Bits.manageMembers && auth != userId && !db.isCreator hubId userId &&
    caller.canManagePosition (db.resolveTargetPosition hubId userId)

/-- The checks of `create_channel`. -/
def mayCreateChannel (hubId auth : I64) (body : CreateChannel) : Bool :=
  let perms := db.resolveUserPerms hubId auth
  ["text", "voice", "stage"].contains body.channelType && !isBadName body.name &&
    perms.has (if body.channelType == "text" then Bits.createTextChannels
      else Bits.createVoiceChannels)

/-- What a call leaves that fails between two of its statements, which only `create_channel`
and `kick_member` execute one by one. -/
def halfway : Call → Option Db
  | createChannel hubId auth body nextId =>
    if mayCreateChannel db hubId auth body then
      db.insertChannelRow (newChannel db hubId body nextId)
    else none
  | kickMember hubId auth userId =>
    if mayKick db hubId auth userId then
      some (db.deleteMemberGroups fun mg => decide (mg.hubId = hubId ∧ mg.userId = userId))
    else none
  | _ => none

/-- The databases that a call may leave: it is refused or fails at once, or it fails halfway,
or it succeeds. -/
def leaves (call : Call) : List Db :=
  db :: ((call.halfway db).toList ++
    match call.run db with
    | .ok (_, db) => [db]
    | .error _ => [])

variable {db} {db' : Db} {call : Call}

/-- **A call stops somewhere in its script.** -/
theorem stops (h : db' ∈ call.leaves db) :
    db' = db ∨ db' ∈ call.halfway db ∨ ∃ account, call.run db = .ok (account, db') := by
  rcases List.mem_cons.mp h with rfl | h
  · exact .inl rfl
  · rcases List.mem_append.mp h with hhalf | hrun
    · exact .inr (.inl (Option.mem_toList.mp hhalf))
    · split at hrun
      · rename_i account db₁ hok
        rw [List.mem_singleton] at hrun
        subst hrun
        exact .inr (.inr ⟨account, hok⟩)
      · cases hrun

theorem stops_of_leaves (h : db' ∈ call.leaves db) :
    Script.Stops Write.exec db (call.writes db) db' := by
  rcases stops h with rfl | hhalf | ⟨account, hrun⟩
  · exact Script.stops_self
  · -- after the first of two statements
    cases call with
    | createChannel hubId auth body nextId =>
      dsimp only [halfway] at hhalf
      split_ifs at hhalf
      · exact Script.stops_cons.mpr (.inr ⟨db', hhalf, Script.stops_self⟩)
      · cases hhalf
    | kickMember hubId auth userId =>
      dsimp only [halfway] at hhalf
      split_ifs at hhalf
      · exact Script.stops_cons.mpr (.inr ⟨db', hhalf, Script.stops_self⟩)
      · cases hhalf
    | _ => cases hhalf
  · exact Script.stops_of_run (run_writes hrun)

end Call

end Hub

end MateHub
