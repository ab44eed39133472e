import MateHub.Hub.Perms
import MateHub.Lib.Table

/-!
# The database of the hub service

The tables that the hub service writes and from which access is decided, with the
queries of the service as functions. A database carries the constraints on which later
results rest: a membership is of a user and in a group that exist, and channel ids are
unique.
-/

namespace MateHub

namespace Hub

open Chat (I64)

/-- Seconds. -/
abbrev Time := ℤ

/-! ### Rows -/

/-- A row of `hubs`. -/
structure HubRow where
  id : I64
  creatorId : Option I64
  deriving DecidableEq

/-- The type of a user. -/
inductive UserType
  | permanent
  | temp
  deriving DecidableEq

/-- A row of `users`. -/
structure User where
  id : I64
  username : String
  displayName : String
  email : Option String
  userType : UserType
  expiresAt : Option Time
  deletedAt : Option Time
  deriving DecidableEq

/-- A row of `hub_members`. -/
structure HubMember where
  hubId : I64
  userId : I64
  role : String
  deriving DecidableEq

/-- A row of `groups`. -/
structure Group where
  id : I64
  hubId : I64
  name : String
  color : Option String
  position : ℤ
  isDefault : Bool
  hubPermissions : Bits
  deriving DecidableEq

/-- A row of `member_groups`. -/
structure MemberGroup where
  hubId : I64
  userId : I64
  groupId : I64
  deriving DecidableEq

/-- The columns `icon_id`, `icon_color` and `icon_image_url` of a channel. -/
structure ChannelIcon where
  id : Option String
  color : Option String
  imageUrl : Option (List Char)
  deriving DecidableEq

/-- The columns are not set. -/
def noIcon : ChannelIcon := ⟨none, none, none⟩

/-- `COALESCE` of each column. -/
def ChannelIcon.or (icon old : ChannelIcon) : ChannelIcon :=
  ⟨icon.id.or old.id, icon.color.or old.color, icon.imageUrl.or old.imageUrl⟩

/-- A row of `channels`. -/
structure Channel where
  id : I64
  hubId : I64
  name : String
  channelType : String
  position : ℤ
  dmPairKey : Option (List Char)
  icon : ChannelIcon
  deriving DecidableEq

/-- A row of `dm_participants`. -/
structure DmParticipant where
  channelId : I64
  userId : I64
  deriving DecidableEq

/-- A row of `temp_users`. -/
structure TempUser where
  userId : I64
  hubId : I64
  token : String
  groupId : I64
  createdBy : I64
  revokedAt : Option Time
  activeSession : Option String
  deriving DecidableEq

/-- A row of `invitations`. -/
structure Invitation where
  id : I64
  hubId : I64
  token : String
  username : String
  email : Option String
  groupId : Option I64
  createdBy : I64
  usedAt : Option Time
  usedBy : Option I64
  deriving DecidableEq

/-- A row of `invite_links`. -/
structure InviteLink where
  id : I64
  hubId : I64
  token : String
  expiresAt : Time
  maxUses : Option ℤ
  usesCount : ℤ
  groupId : Option I64
  createdBy : I64
  revokedAt : Option Time
  deriving DecidableEq

/-- The tables. -/
structure Db where
  hubs : List HubRow
  users : List User
  hubMembers : List HubMember
  groups : List Group
  memberGroups : List MemberGroup
  channels : List Channel
  channelPermissions : List ChannelPermission
  dmParticipants : List DmParticipant
  tempUsers : List TempUser
  invitations : List Invitation
  inviteLinks : List InviteLink
  /-- Memberships are in groups that exist. -/
  fk_memberGroups : ∀ mg ∈ memberGroups, ∃ g ∈ groups, g.id = mg.groupId
  /-- Memberships are of users that exist. -/
  fk_memberUsers : ∀ mg ∈ memberGroups, ∃ u ∈ users, u.id = mg.userId
  /-- Channel ids are unique. -/
  pk_channels : ∀ c ∈ channels, ∀ c' ∈ channels, c.id = c'.id → c = c'

namespace Db

variable (db : Db)

/-! ### Queries -/

/-- A hub has this id. -/
def hasHub (hubId : I64) : Bool := db.hubs.any fun h => decide (h.id = hubId)

/-- A user has this id. -/
def hasUser (userId : I64) : Bool := db.users.any fun u => decide (u.id = userId)

/-- A group has this id. -/
def hasGroup (groupId : I64) : Bool := db.groups.any fun g => decide (g.id = groupId)

/-- A channel has this id. -/
def hasChannel (channelId : I64) : Bool := db.channels.any fun c => decide (c.id = channelId)

/-- The group of a hub with a given id. -/
def group? (hubId groupId : I64) : Option Group :=
  db.groups.find? fun g => decide (g.id = groupId ∧ g.hubId = hubId)

/-- The channel of a hub with a given id. -/
def channel? (hubId channelId : I64) : Option Channel :=
  db.channels.find? fun c => decide (c.id = channelId ∧ c.hubId = hubId)

/-- The default group of a hub. -/
def defaultGroup? (hubId : I64) : Option Group :=
  db.groups.find? fun g => decide (g.hubId = hubId) && g.isDefault

/-- The groups of a hub that a user is in. -/
def groupsOf (hubId userId : I64) : List Group :=
  db.groups.filter fun g => decide (g.hubId = hubId ∧ ⟨hubId, userId, g.id⟩ ∈ db.memberGroups)

/-- The rows of a channel for the groups that a user is in. -/
def channelPermsOf (hubId channelId userId : I64) : List ChannelPermission :=
  db.channelPermissions.filter fun cp =>
    decide (cp.channelId = channelId ∧ ⟨hubId, userId, cp.groupId⟩ ∈ db.memberGroups)

/-- A user takes part in a direct message. -/
def isParticipant (channelId userId : I64) : Bool :=
  db.dmParticipants.any fun p => decide (p.channelId = channelId ∧ p.userId = userId)

/-- A user has created a hub. -/
def isCreator (hubId userId : I64) : Bool :=
  match db.hubs.find? fun h => decide (h.id = hubId) with
  | some h => decide (h.creatorId = some userId)
  | none => false

/-- The least of some positions; `i32::MAX` if there is none. -/
def topPosition (groups : List Group) : ℤ := (groups.map Group.position).min?.getD (2 ^ 31 - 1)

/-- `resolve_user_perms` -/
def resolveUserPerms (hubId userId : I64) : UserPerms where
  hubBits := BitVec.unions Group.hubPermissions (db.groupsOf hubId userId)
  topPosition := topPosition (db.groupsOf hubId userId)
  isAdmin := (db.groupsOf hubId userId).any fun g => g.name == "admin"
  isCreator := db.isCreator hubId userId

/-- `resolve_target_position` -/
def resolveTargetPosition (hubId targetUserId : I64) : ℤ :=
  topPosition (db.groupsOf hubId targetUserId)

/-! ### Positions -/

section Position

variable {gs : List Group} {g : Group} {f : ℤ}

theorem topPosition_le (h : g ∈ gs) : topPosition gs ≤ g.position := by
  rw [topPosition]
  rcases hmin : (gs.map Group.position).min? with _ | m
  · rw [List.min?_eq_none_iff, List.map_eq_nil_iff] at hmin
    exact absurd h (hmin ▸ List.not_mem_nil)
  · exact (List.min?_eq_some_iff.mp hmin).2 _ (List.mem_map_of_mem h)

/-- The least position is that of a group, if there is one. -/
theorem topPosition_cases (gs : List Group) :
    gs = [] ∧ topPosition gs = 2 ^ 31 - 1 ∨ ∃ g ∈ gs, topPosition gs = g.position := by
  rw [topPosition]
  rcases hmin : (gs.map Group.position).min? with _ | m
  · rw [List.min?_eq_none_iff, List.map_eq_nil_iff] at hmin
    exact .inl ⟨hmin, rfl⟩
  · obtain ⟨g, hg, rfl⟩ := List.mem_map.mp (List.min?_eq_some_iff.mp hmin).1
    exact .inr ⟨g, hg, rfl⟩

theorem le_topPosition (hf : f ≤ 2 ^ 31 - 1) (h : ∀ g ∈ gs, f ≤ g.position) :
    f ≤ topPosition gs := by
  rcases topPosition_cases gs with ⟨-, hmax⟩ | ⟨g, hg, htop⟩
  · exact hmax ▸ hf
  · exact htop ▸ h g hg

end Position

variable {db} {hubId channelId userId groupId : I64}

theorem mem_groupsOf {g : Group} : g ∈ db.groupsOf hubId userId ↔
    g ∈ db.groups ∧ g.hubId = hubId ∧ ⟨hubId, userId, g.id⟩ ∈ db.memberGroups := by
  simp [groupsOf]

theorem mem_channelPermsOf {cp : ChannelPermission} :
    cp ∈ db.channelPermsOf hubId channelId userId ↔ cp ∈ db.channelPermissions ∧
      cp.channelId = channelId ∧ ⟨hubId, userId, cp.groupId⟩ ∈ db.memberGroups := by
  simp [channelPermsOf]

theorem isParticipant_iff : db.isParticipant channelId userId = true ↔
    ⟨channelId, userId⟩ ∈ db.dmParticipants := by
  rw [isParticipant, List.any_eq_true]
  constructor
  · rintro ⟨⟨c, u⟩, hp, heq⟩
    obtain ⟨rfl, rfl⟩ := of_decide_eq_true heq
    exact hp
  · exact fun h => ⟨_, h, decide_eq_true ⟨rfl, rfl⟩⟩

theorem channel?_eq_some {c : Channel} :
    db.channel? hubId channelId = some c ↔
      c ∈ db.channels ∧ c.id = channelId ∧ c.hubId = hubId := by
  constructor
  · intro h
    have hfound := List.find?_some h
    exact ⟨List.mem_of_find?_eq_some h, of_decide_eq_true hfound⟩
  · rintro ⟨hmem, hid, hhub⟩
    rcases hfind : db.channel? hubId channelId with _ | c'
    · exact absurd (decide_eq_true ⟨hid, hhub⟩) (List.find?_eq_none.mp hfind c hmem)
    · have hfound := List.find?_some hfind
      obtain ⟨hid', -⟩ := of_decide_eq_true hfound
      rw [db.pk_channels c hmem c' (List.mem_of_find?_eq_some hfind) (hid.trans hid'.symm)]

/-- **The admins of a hub** are in one of its groups called `admin`. -/
theorem isAdmin_iff : (db.resolveUserPerms hubId userId).isAdmin = true ↔
    ∃ g ∈ db.groups, g.hubId = hubId ∧ g.name = "admin" ∧
      ⟨hubId, userId, g.id⟩ ∈ db.memberGroups := by
  simp only [resolveUserPerms, List.any_eq_true, mem_groupsOf, beq_iff_eq]
  constructor
  · rintro ⟨g, ⟨hg, hhub, hmem⟩, hname⟩
    exact ⟨g, hg, hhub, hname, hmem⟩
  · rintro ⟨g, hg, hhub, hname, hmem⟩
    exact ⟨g, ⟨hg, hhub, hmem⟩, hname⟩

/-- Who is in no group of a hub has no permission in it. -/
theorem has_eq_false {bit : Bits} (hnone : db.groupsOf hubId userId = []) (hbit : bit ≠ 0) :
    (db.resolveUserPerms hubId userId).has bit = false := by
  rw [UserPerms.has, resolveUserPerms, hnone]
  show (0#32 &&& bit == bit) = false
  rw [BitVec.zero_and]
  exact beq_eq_false_iff_ne.mpr hbit.symm

/-- What a user holds in a hub lies within given bits if the groups of the user do. -/
theorem hubBits_within {bits : Bits} : (db.resolveUserPerms hubId userId).hubBits.Within bits ↔
    ∀ g ∈ db.groups, g.hubId = hubId → ⟨hubId, userId, g.id⟩ ∈ db.memberGroups →
      g.hubPermissions.Within bits := by
  simp only [resolveUserPerms, BitVec.unions_within, mem_groupsOf]
  constructor
  · exact fun h g hg hhub hmem => h g ⟨hg, hhub, hmem⟩
  · rintro h g ⟨hg, hhub, hmem⟩
    exact h g hg hhub hmem

end Db

end Hub

end MateHub
