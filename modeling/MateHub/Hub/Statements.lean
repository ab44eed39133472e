import MateHub.Hub.Db

/-!
# The statements of the hub service

The statements with which the hub service writes, each with the constraints that may
refuse it and the deletions that it carries with it, and what they do to the groups and
the memberships.
-/

namespace MateHub

namespace Hub

open Chat (I64)

/-- The row of a group after a partial update. -/
def Group.patch (g : Group) (name color : Option String) (position : Option ℤ)
    (hubPermissions : Option Bits) : Group where
  id := g.id
  hubId := g.hubId
  name := name.getD g.name
  color := color <|> g.color
  position := position.getD g.position
  isDefault := g.isDefault
  hubPermissions := hubPermissions.getD g.hubPermissions

namespace Db

variable (db : Db)

/-! ### Groups -/

/-- `INSERT INTO groups`. -/
def insertGroup (g : Group) : Option Db :=
  if Table.hasKey Group.id g db.groups || !db.hasHub g.hubId then none
  else some { db with
    groups := g :: db.groups
    fk_memberGroups := fun mg hmg =>
      (db.fk_memberGroups mg hmg).imp fun _ h => ⟨List.mem_cons_of_mem _ h.1, h.2⟩ }

/-- `UPDATE groups`. -/
def updateGroupRow (hubId groupId : I64) (name color : Option String) (position : Option ℤ)
    (hubPermissions : Option Bits) : Db :=
  { db with
    groups := Table.update (fun g => decide (g.id = groupId ∧ g.hubId = hubId))
      (fun g => g.patch name color position hubPermissions) db.groups
    fk_memberGroups := fun mg hmg => by
      obtain ⟨g, hg, hid⟩ := db.fk_memberGroups mg hmg
      refine ⟨_, Table.mem_update.mpr ⟨g, hg, rfl⟩, ?_⟩
      split
      · exact hid
      · exact hid }

/-- `DELETE FROM groups`, with what hangs on the group. -/
def deleteGroupRow (hubId groupId : I64) : Db :=
  match db.group? hubId groupId with
  | none => db
  | some _ =>
    { db with
      groups := Table.delete (fun g => decide (g.id = groupId)) db.groups
      memberGroups := Table.delete (fun mg => decide (mg.groupId = groupId)) db.memberGroups
      channelPermissions :=
        Table.delete (fun cp => decide (cp.groupId = groupId)) db.channelPermissions
      tempUsers := Table.delete (fun t => decide (t.groupId = groupId)) db.tempUsers
      invitations := Table.update (fun i => decide (i.groupId = some groupId))
        (fun i => { i with groupId := none }) db.invitations
      inviteLinks := Table.update (fun l => decide (l.groupId = some groupId))
        (fun l => { l with groupId := none }) db.inviteLinks
      fk_memberGroups := fun mg hmg => by
        obtain ⟨hmg, hne⟩ := Table.mem_delete.mp hmg
        obtain ⟨g, hg, hid⟩ := db.fk_memberGroups mg hmg
        exact ⟨g, Table.mem_delete.mpr ⟨hg, by rw [hid]; exact hne⟩, hid⟩
      fk_memberUsers := fun mg hmg => db.fk_memberUsers mg (Table.mem_delete.mp hmg).1 }

/-! ### Memberships -/

/-- `INSERT INTO member_groups ... ON CONFLICT DO NOTHING`. -/
def insertMemberGroup (hubId userId groupId : I64) : Option Db :=
  if h : db.hasGroup groupId = true ∧ db.hasUser userId = true then
    if !db.hasHub hubId then none
    else some { db with
      memberGroups := Table.insertNew id ⟨hubId, userId, groupId⟩ db.memberGroups
      fk_memberGroups := fun mg hmg => by
        rcases Table.mem_insertNew_id.mp hmg with rfl | hmg
        · obtain ⟨g, hg, hid⟩ := List.any_eq_true.mp h.1
          exact ⟨g, hg, of_decide_eq_true hid⟩
        · exact db.fk_memberGroups mg hmg
      fk_memberUsers := fun mg hmg => by
        rcases Table.mem_insertNew_id.mp hmg with rfl | hmg
        · obtain ⟨u, hu, hid⟩ := List.any_eq_true.mp h.2
          exact ⟨u, hu, of_decide_eq_true hid⟩
        · exact db.fk_memberUsers mg hmg }
  else none

/-- Several insertions. -/
def insertMemberGroups (hubId userId : I64) (groupIds : List I64) : Option Db :=
  groupIds.foldlM (fun db groupId => db.insertMemberGroup hubId userId groupId) db

/-- `DELETE FROM member_groups`. -/
def deleteMemberGroups (p : MemberGroup → Bool) : Db :=
  { db with
    memberGroups := Table.delete p db.memberGroups
    fk_memberGroups := fun mg hmg => db.fk_memberGroups mg (Table.mem_delete.mp hmg).1
    fk_memberUsers := fun mg hmg => db.fk_memberUsers mg (Table.mem_delete.mp hmg).1 }

/-- `INSERT INTO hub_members`. -/
def insertHubMember (m : HubMember) : Option Db :=
  if !db.hasHub m.hubId || !db.hasUser m.userId then none
  else (Table.insert (fun m => (m.hubId, m.userId)) m db.hubMembers).map fun rows =>
    { db with hubMembers := rows }

/-- `INSERT INTO hub_members ... ON CONFLICT DO NOTHING`. -/
def insertHubMemberNew (m : HubMember) : Option Db :=
  if !db.hasHub m.hubId || !db.hasUser m.userId then none
  else some { db with
    hubMembers := Table.insertNew (fun m => (m.hubId, m.userId)) m db.hubMembers }

/-- `DELETE FROM hub_members`. -/
def deleteHubMember (hubId userId : I64) : Db :=
  { db with
    hubMembers :=
      Table.delete (fun m => decide (m.hubId = hubId ∧ m.userId = userId)) db.hubMembers }

/-! ### Channels -/

/-- `INSERT INTO channels`. -/
def insertChannelRow (c : Channel) : Option Db :=
  if h : Table.hasKey Channel.id c db.channels = true then none
  else if !db.hasHub c.hubId then none
  else some { db with
    channels := c :: db.channels
    pk_channels := fun c₁ h₁ c₂ h₂ heq => by
      have hfresh : ∀ c' ∈ db.channels, c'.id ≠ c.id := fun c' hc' hid =>
        h (Table.hasKey_iff.mpr ⟨c', hc', hid⟩)
      rcases List.mem_cons.mp h₁ with hc₁ | hc₁ <;> rcases List.mem_cons.mp h₂ with hc₂ | hc₂
      · exact hc₁.trans hc₂.symm
      · exact absurd (heq.symm.trans (congrArg Channel.id hc₁)) (hfresh c₂ hc₂)
      · exact absurd (heq.trans (congrArg Channel.id hc₂)) (hfresh c₁ hc₁)
      · exact db.pk_channels c₁ hc₁ c₂ hc₂ heq }

/-- `UPDATE channels`: the name, the position and the icon. -/
def updateChannelRow (hubId channelId : I64) (name : Option String) (position : Option ℤ)
    (icon : ChannelIcon) : Db :=
  { db with
    channels := Table.update (fun c => decide (c.id = channelId ∧ c.hubId = hubId))
      (fun c => { c with
        name := name.getD c.name
        position := position.getD c.position
        icon := icon.or c.icon })
      db.channels
    pk_channels := fun c₁ h₁ c₂ h₂ heq => by
      obtain ⟨d₁, hd₁, rfl⟩ := Table.mem_update.mp h₁
      obtain ⟨d₂, hd₂, rfl⟩ := Table.mem_update.mp h₂
      have hid : d₁.id = d₂.id := by
        split at heq <;> split at heq <;> exact heq
      rw [db.pk_channels d₁ hd₁ d₂ hd₂ hid] }

/-- `DELETE FROM channels`, with what hangs on the channel. -/
def deleteChannelRow (hubId channelId : I64) : Db :=
  match db.channel? hubId channelId with
  | none => db
  | some _ =>
    { db with
      channels := Table.delete (fun c => decide (c.id = channelId)) db.channels
      channelPermissions :=
        Table.delete (fun cp => decide (cp.channelId = channelId)) db.channelPermissions
      dmParticipants := Table.delete (fun p => decide (p.channelId = channelId)) db.dmParticipants
      pk_channels := fun c₁ h₁ c₂ h₂ heq => db.pk_channels c₁ (Table.mem_delete.mp h₁).1 c₂
        (Table.mem_delete.mp h₂).1 heq }

/-- `INSERT INTO channel_permissions ... ON CONFLICT DO UPDATE`. -/
def upsertChannelPermission (cp : ChannelPermission) : Option Db :=
  if !db.hasChannel cp.channelId || !db.hasGroup cp.groupId then none
  else some { db with
    channelPermissions :=
      Table.upsert (fun cp => (cp.channelId, cp.groupId)) cp db.channelPermissions }

/-- `INSERT INTO channel_permissions ... ON CONFLICT DO NOTHING`. -/
def insertChannelPermission (cp : ChannelPermission) : Option Db :=
  if !db.hasChannel cp.channelId || !db.hasGroup cp.groupId then none
  else some { db with
    channelPermissions :=
      Table.insertNew (fun cp => (cp.channelId, cp.groupId)) cp db.channelPermissions }

/-- `DELETE FROM channel_permissions`. -/
def deleteChannelPermissionRow (channelId groupId : I64) : Db :=
  { db with
    channelPermissions := Table.delete
      (fun cp => decide (cp.channelId = channelId ∧ cp.groupId = groupId)) db.channelPermissions }

/-- `INSERT INTO dm_participants ... ON CONFLICT DO NOTHING`. -/
def insertDmParticipant (channelId userId : I64) : Option Db :=
  if !db.hasChannel channelId || !db.hasUser userId then none
  else some { db with
    dmParticipants := Table.insertNew id ⟨channelId, userId⟩ db.dmParticipants }

/-! ### Accounts -/

/-- The constraint of `users` that a row violates, if any. -/
def userConflict (u : User) : Option String :=
  if db.users.any fun u' => decide (u'.username = u.username) then some "users_username_key"
  else if u.email.isSome && db.users.any fun u' => decide (u'.email = u.email) then
    some "idx_users_email"
  else if Table.hasKey User.id u db.users then some "users_pkey"
  else none

/-- `INSERT INTO users`. -/
def insertUser (u : User) : Except String Db :=
  match db.userConflict u with
  | some constraint => .error constraint
  | none => .ok { db with
      users := u :: db.users
      fk_memberUsers := fun mg hmg =>
        (db.fk_memberUsers mg hmg).imp fun _ h => ⟨List.mem_cons_of_mem _ h.1, h.2⟩ }

/-- `INSERT INTO temp_users`. -/
def insertTempUser (t : TempUser) : Option Db :=
  if !db.hasUser t.userId || !db.hasHub t.hubId || !db.hasGroup t.groupId ||
      !db.hasUser t.createdBy || Table.hasKey TempUser.token t db.tempUsers then none
  else (Table.insert TempUser.userId t db.tempUsers).map fun rows => { db with tempUsers := rows }

/-- `INSERT INTO invitations`. -/
def insertInvitation (i : Invitation) : Option Db :=
  if !db.hasHub i.hubId || !db.hasUser i.createdBy ||
      Table.hasKey Invitation.token i db.invitations then none
  else (Table.insert Invitation.id i db.invitations).map fun rows => { db with invitations := rows }

/-- `INSERT INTO invite_links`. -/
def insertInviteLink (l : InviteLink) : Option Db :=
  if !db.hasHub l.hubId || !(l.groupId.all db.hasGroup) || !db.hasUser l.createdBy ||
      Table.hasKey InviteLink.token l db.inviteLinks then none
  else (Table.insert InviteLink.id l db.inviteLinks).map fun rows => { db with inviteLinks := rows }

/-! ### What the statements do to groups and memberships -/

/-- Groups and memberships are left as they are. -/
structure Alone (db db' : Db) : Prop where
  groups : db'.groups = db.groups
  memberGroups : db'.memberGroups = db.memberGroups

/-- Groups and memberships may go, and none are new. -/
structure Shrinks (db db' : Db) : Prop where
  groups : db'.groups ⊆ db.groups
  memberGroups : db'.memberGroups ⊆ db.memberGroups

variable {db} {db' db'' : Db} {hubId userId groupId : I64}

theorem Alone.trans (h : db.Alone db') (h' : db'.Alone db'') : db.Alone db'' :=
  ⟨h'.groups.trans h.groups, h'.memberGroups.trans h.memberGroups⟩

theorem Alone.shrinks (h : db.Alone db') : db.Shrinks db' :=
  ⟨fun _ hg => h.groups ▸ hg, fun _ hmg => h.memberGroups ▸ hmg⟩

theorem Shrinks.groupsOf (h : db.Shrinks db') {g : Group} (hg : g ∈ db'.groupsOf hubId userId) :
    g ∈ db.groupsOf hubId userId := by
  obtain ⟨hg, hhub, hmg⟩ := mem_groupsOf.mp hg
  exact mem_groupsOf.mpr ⟨h.groups hg, hhub, h.memberGroups hmg⟩

theorem insertGroup_eq_some {g : Group} (h : db.insertGroup g = some db') :
    db'.groups = g :: db.groups ∧ db'.memberGroups = db.memberGroups ∧
      ∀ g' ∈ db.groups, g'.id ≠ g.id := by
  rw [insertGroup] at h
  split at h
  · cases h
  · rename_i hno
    obtain rfl := Option.some.inj h
    refine ⟨rfl, rfl, fun g' hg' heq => hno ?_⟩
    rw [Table.hasKey_iff.mpr ⟨g', hg', heq⟩, Bool.true_or]

theorem insertMemberGroup_eq_some (h : db.insertMemberGroup hubId userId groupId = some db') :
    db'.groups = db.groups ∧
      ∀ mg, mg ∈ db'.memberGroups ↔ mg = ⟨hubId, userId, groupId⟩ ∨ mg ∈ db.memberGroups := by
  rw [insertMemberGroup] at h
  split_ifs at h
  obtain rfl := Option.some.inj h
  exact ⟨rfl, fun mg => Table.mem_insertNew_id⟩

/-- Inserting memberships leaves everything else. -/
theorem insertMemberGroups_apart {α : Type*} (f : Db → α)
    (hf : ∀ (db : Db) rows h₁ h₂, f { db with
      memberGroups := rows
      fk_memberGroups := h₁
      fk_memberUsers := h₂ } = f db) {groupIds : List I64}
    (h : db.insertMemberGroups hubId userId groupIds = some db') : f db' = f db := by
  induction groupIds generalizing db with
  | nil =>
    obtain rfl := Option.some.inj h
    rfl
  | cons gid groupIds ih =>
    rw [insertMemberGroups, List.foldlM_cons] at h
    obtain ⟨db₁, h₁, h⟩ := Option.bind_eq_some_iff.mp h
    rw [ih h]
    rw [insertMemberGroup] at h₁
    split_ifs at h₁
    obtain rfl := Option.some.inj h₁
    exact hf _ _ _ _

theorem insertMemberGroups_eq_some {groupIds : List I64}
    (h : db.insertMemberGroups hubId userId groupIds = some db') :
    db'.groups = db.groups ∧ ∀ mg, mg ∈ db'.memberGroups ↔
      (∃ gid ∈ groupIds, mg = ⟨hubId, userId, gid⟩) ∨ mg ∈ db.memberGroups := by
  induction groupIds generalizing db with
  | nil =>
    obtain rfl := Option.some.inj h
    simp
  | cons gid groupIds ih =>
    rw [insertMemberGroups, List.foldlM_cons] at h
    obtain ⟨db₁, h₁, h⟩ := Option.bind_eq_some_iff.mp h
    obtain ⟨hgroups₁, hmem₁⟩ := insertMemberGroup_eq_some h₁
    obtain ⟨hgroups, hmem⟩ := ih h
    refine ⟨hgroups.trans hgroups₁, fun mg => ?_⟩
    rw [hmem, hmem₁, List.exists_mem_cons_iff, or_left_comm, or_assoc]

theorem deleteMemberGroups_shrinks (p : MemberGroup → Bool) :
    db.Shrinks (db.deleteMemberGroups p) :=
  ⟨fun _ hg => hg, fun _ hmg => (Table.mem_delete.mp hmg).1⟩

theorem deleteGroupRow_shrinks : db.Shrinks (db.deleteGroupRow hubId groupId) := by
  rw [deleteGroupRow]
  split
  · exact ⟨fun _ hg => hg, fun _ hmg => hmg⟩
  · exact ⟨fun _ hg => (Table.mem_delete.mp hg).1, fun _ hmg => (Table.mem_delete.mp hmg).1⟩

theorem insertHubMember_alone {m : HubMember} (h : db.insertHubMember m = some db') :
    db.Alone db' := by
  rw [insertHubMember] at h
  split_ifs at h
  obtain ⟨_, -, rfl⟩ := Option.map_eq_some_iff.mp h
  exact ⟨rfl, rfl⟩

theorem insertHubMemberNew_alone {m : HubMember} (h : db.insertHubMemberNew m = some db') :
    db.Alone db' := by
  rw [insertHubMemberNew] at h
  split_ifs at h
  obtain rfl := Option.some.inj h
  exact ⟨rfl, rfl⟩

theorem insertChannelRow_alone {c : Channel} (h : db.insertChannelRow c = some db') :
    db.Alone db' := by
  rw [insertChannelRow] at h
  split_ifs at h
  obtain rfl := Option.some.inj h
  exact ⟨rfl, rfl⟩

theorem deleteChannelRow_alone {channelId : I64} :
    db.Alone (db.deleteChannelRow hubId channelId) := by
  rw [deleteChannelRow]
  split <;> exact ⟨rfl, rfl⟩

theorem upsertChannelPermission_alone {cp : ChannelPermission}
    (h : db.upsertChannelPermission cp = some db') : db.Alone db' := by
  rw [upsertChannelPermission] at h
  split_ifs at h
  obtain rfl := Option.some.inj h
  exact ⟨rfl, rfl⟩

theorem insertChannelPermission_alone {cp : ChannelPermission}
    (h : db.insertChannelPermission cp = some db') : db.Alone db' := by
  rw [insertChannelPermission] at h
  split_ifs at h
  obtain rfl := Option.some.inj h
  exact ⟨rfl, rfl⟩

theorem insertDmParticipant_alone {channelId : I64}
    (h : db.insertDmParticipant channelId userId = some db') : db.Alone db' := by
  rw [insertDmParticipant] at h
  split_ifs at h
  obtain rfl := Option.some.inj h
  exact ⟨rfl, rfl⟩

theorem insertUser_eq_ok {u : User} (h : db.insertUser u = .ok db') :
    db.Alone db' ∧ ∀ u' ∈ db.users, u'.id ≠ u.id := by
  rw [insertUser] at h
  split at h
  · cases h
  · rename_i hnone
    obtain rfl := Except.ok.inj h
    refine ⟨⟨rfl, rfl⟩, fun u' hu' heq => ?_⟩
    rw [userConflict, Table.hasKey_iff.mpr ⟨u', hu', heq⟩, if_pos rfl] at hnone
    split_ifs at hnone

theorem insertTempUser_alone {t : TempUser} (h : db.insertTempUser t = some db') :
    db.Alone db' := by
  rw [insertTempUser] at h
  split_ifs at h
  obtain ⟨_, -, rfl⟩ := Option.map_eq_some_iff.mp h
  exact ⟨rfl, rfl⟩

theorem insertInvitation_alone {i : Invitation} (h : db.insertInvitation i = some db') :
    db.Alone db' := by
  rw [insertInvitation] at h
  split_ifs at h
  obtain ⟨_, -, rfl⟩ := Option.map_eq_some_iff.mp h
  exact ⟨rfl, rfl⟩

theorem insertInviteLink_alone {l : InviteLink} (h : db.insertInviteLink l = some db') :
    db.Alone db' := by
  rw [insertInviteLink] at h
  split_ifs at h
  obtain ⟨_, -, rfl⟩ := Option.map_eq_some_iff.mp h
  exact ⟨rfl, rfl⟩

/-- A new user is in no group. -/
theorem groupsOf_eq_nil (h : ∀ u ∈ db.users, u.id ≠ userId) : db.groupsOf hubId userId = [] := by
  rw [groupsOf, List.filter_eq_nil_iff]
  intro g _ hmg
  obtain ⟨-, hmg⟩ := of_decide_eq_true hmg
  obtain ⟨u, hu, hid⟩ := db.fk_memberUsers _ hmg
  exact h u hu hid

end Db

end Hub

end MateHub
