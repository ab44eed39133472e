import MateHub.Hub.Belonging

/-!
# The rows of a hub

Many hubs share the tables, and every row belongs to one of them: by its own column, or as a
row of a channel does by the channel. This is what a statement that keeps to one hub does to
the rows of the others, namely nothing (`MateHub.Hub.Write.spared`), where primary keys are
unique and no row pairs a channel or a group of one hub with another hub; and it leaves it so
(`MateHub.Hub.Write.apart`).
-/

namespace MateHub

namespace Hub

open Chat (I64)

namespace Db

variable (db : Db)

/-- A channel is one of a hub. -/
def IsChannelOf (hubId channelId : I64) : Prop :=
  (hubId, channelId) ∈ db.channels.map fun c => (c.hubId, c.id)

instance (hubId channelId : I64) : Decidable (db.IsChannelOf hubId channelId) :=
  inferInstanceAs (Decidable (_ ∈ List.map _ _))

end Db

/-- The primary keys that matter here. -/
structure Keys (db : Db) : Prop where
  groups : Table.Keyed Group.id db.groups
  hubMembers : Table.Keyed (fun m => (m.hubId, m.userId)) db.hubMembers
  tempUsers : Table.Keyed TempUser.userId db.tempUsers
  invitations : Table.Keyed Invitation.id db.invitations
  inviteLinks : Table.Keyed InviteLink.id db.inviteLinks

/-- **The hubs are apart**: keys are unique, groups belong to their hubs, and a permission is
of a channel and a group of one hub. -/
structure Apart (db : Db) : Prop extends Grouped db where
  keys : Keys db
  paired : ∀ cp ∈ db.channelPermissions, ∃ hub,
    db.IsChannelOf hub cp.channelId ∧ db.IsGroupOf hub cp.groupId

/-- **The rows of a hub are spared**: none is created, changed or deleted. -/
structure Spared (hub : I64) (db db' : Db) : Prop where
  hubMembers : Table.SameOn (fun m => m.hubId = hub) db.hubMembers db'.hubMembers
  groups : Table.SameOn (fun g => g.hubId = hub) db.groups db'.groups
  memberGroups : Table.SameOn (fun mg => mg.hubId = hub) db.memberGroups db'.memberGroups
  channels : Table.SameOn (fun c => c.hubId = hub) db.channels db'.channels
  channelPermissions : Table.SameOn (fun cp => db.IsChannelOf hub cp.channelId)
    db.channelPermissions db'.channelPermissions
  dmParticipants : Table.SameOn (fun p => db.IsChannelOf hub p.channelId)
    db.dmParticipants db'.dmParticipants
  tempUsers : Table.SameOn (fun t => t.hubId = hub) db.tempUsers db'.tempUsers
  invitations : Table.SameOn (fun i => i.hubId = hub) db.invitations db'.invitations
  inviteLinks : Table.SameOn (fun l => l.hubId = hub) db.inviteLinks db'.inviteLinks

/-- **A statement keeps to a hub**, and to the groups and channels of it; and it does not
expel a given user. -/
def Write.Within (h u : I64) (db : Db) : Write → Prop
  | insertHub _ => False
  | insertUser _ | expireUser _ _ | setEmail _ _ => True
  | insertGroup g => g.hubId = h
  | updateGroup hubId _ _ | deleteGroup hubId _ => hubId = h
  | insertMemberGroup mg => mg.hubId = h ∧ db.IsGroupOf h mg.groupId
  | deleteMemberGroup mg => mg.hubId = h
  | deleteMemberGroups hubId _ => hubId = h
  | insertHubMember m | insertHubMemberNew m => m.hubId = h
  | deleteHubMember hubId userId => hubId = h ∧ userId ≠ u
  | insertChannel c => c.hubId = h
  | updateChannel hubId _ _ | deleteChannel hubId _ => hubId = h
  | upsertChannelPermission cp | insertChannelPermission cp =>
    db.IsChannelOf h cp.channelId ∧ db.IsGroupOf h cp.groupId
  | deleteChannelPermission channelId groupId => ∀ cp ∈ db.channelPermissions,
      cp.channelId = channelId → cp.groupId = groupId → db.IsChannelOf h channelId
  | insertDmParticipant channelId _ => db.IsChannelOf h channelId
  | insertTempUser t => t.hubId = h ∧ db.IsGroupOf h t.groupId
  | revokeTempUser hubId _ _ => hubId = h
  | seatTempUser userId _ => ∀ t ∈ db.tempUsers, t.userId = userId → t.hubId = h
  | insertInviteLink l => l.hubId = h ∧ ∀ groupId ∈ l.groupId, db.IsGroupOf h groupId
  | claimSlot l => ∀ l' ∈ db.inviteLinks, l'.id = l.id → l'.hubId = h
  | revokeInviteLink hubId _ _ => hubId = h
  | insertInvitation i => i.hubId = h ∧ ∀ groupId ∈ i.groupId, db.IsGroupOf h groupId
  | useInvitation i _ _ => ∀ i' ∈ db.invitations, i'.id = i.id → i'.hubId = h
  | deleteInvitation hubId _ => hubId = h

section Statements

variable {db db' db'' : Db} {h u hub hub' channelId groupId : I64} {w : Write}

theorem isChannelOf_iff : db.IsChannelOf hub channelId ↔
    ∃ c ∈ db.channels, c.hubId = hub ∧ c.id = channelId := by
  simp [Db.IsChannelOf]

theorem Apart.group_hub (hA : Apart db) (hg : db.IsGroupOf hub groupId)
    (hg' : db.IsGroupOf hub' groupId) : hub = hub' := by
  obtain ⟨g, hmem, rfl, hid⟩ := isGroupOf_iff.mp hg
  obtain ⟨g', hmem', rfl, hid'⟩ := isGroupOf_iff.mp hg'
  rw [hA.keys.groups.eq_of_key hmem hmem' (hid.trans hid'.symm)]

theorem channel_hub (hc : db.IsChannelOf hub channelId) (hc' : db.IsChannelOf hub' channelId) :
    hub = hub' := by
  obtain ⟨c, hmem, rfl, hid⟩ := isChannelOf_iff.mp hc
  obtain ⟨c', hmem', rfl, hid'⟩ := isChannelOf_iff.mp hc'
  rw [db.pk_channels c hmem c' hmem' (hid.trans hid'.symm)]

theorem Write.Within.groups (hw : w.Within h u db) : w.Groups db := by
  cases w with
  | insertMemberGroup | insertTempUser | insertInvitation | insertInviteLink =>
    obtain ⟨rfl, hgroup⟩ := hw
    exact hgroup
  | _ => trivial

/-! ### Keys stay unique -/

theorem Write.keyed_groups (hk : Table.Keyed Group.id db.groups) (hexec : w.exec db = some db') :
    Table.Keyed Group.id db'.groups := by
  have hsame := w.untouched hexec
  cases w with
  | insertGroup g =>
    obtain ⟨hgroups, -, hfresh⟩ := Db.insertGroup_eq_some hexec
    rw [hgroups]
    exact hk.cons hfresh
  | updateGroup =>
    obtain rfl := Option.some.inj hexec
    exact hk.update fun _ => rfl
  | deleteGroup =>
    obtain rfl := Option.some.inj hexec
    rw [Db.deleteGroupRow]
    split
    · exact hk
    · exact hk.delete
  | _ =>
    rw [hsame .groups rfl]
    exact hk

theorem Write.keyed_hubMembers (hk : Table.Keyed (fun m => (m.hubId, m.userId)) db.hubMembers)
    (hexec : w.exec db = some db') :
    Table.Keyed (fun m => (m.hubId, m.userId)) db'.hubMembers := by
  have hsame := w.untouched hexec
  cases w with
  | insertHubMember m =>
    dsimp only [exec, Db.insertHubMember] at hexec
    split_ifs at hexec
    obtain ⟨_, hrows, rfl⟩ := Option.map_eq_some_iff.mp hexec
    exact hk.insert hrows
  | insertHubMemberNew m =>
    dsimp only [exec, Db.insertHubMemberNew] at hexec
    split_ifs at hexec
    obtain rfl := Option.some.inj hexec
    exact hk.insertNew
  | deleteHubMember =>
    obtain rfl := Option.some.inj hexec
    exact hk.delete
  | _ =>
    rw [hsame .hubMembers rfl]
    exact hk

theorem Write.keyed_tempUsers (hk : Table.Keyed TempUser.userId db.tempUsers)
    (hexec : w.exec db = some db') : Table.Keyed TempUser.userId db'.tempUsers := by
  have hsame := w.untouched hexec
  cases w with
  | insertTempUser t =>
    dsimp only [exec, Db.insertTempUser] at hexec
    split_ifs at hexec
    obtain ⟨_, hrows, rfl⟩ := Option.map_eq_some_iff.mp hexec
    exact hk.insert hrows
  | revokeTempUser | seatTempUser =>
    obtain rfl := Option.some.inj hexec
    exact hk.update fun _ => rfl
  | deleteGroup =>
    obtain rfl := Option.some.inj hexec
    rw [Db.deleteGroupRow]
    split
    · exact hk
    · exact hk.delete
  | _ =>
    rw [hsame .tempUsers rfl]
    exact hk

theorem Write.keyed_invitations (hk : Table.Keyed Invitation.id db.invitations)
    (hexec : w.exec db = some db') : Table.Keyed Invitation.id db'.invitations := by
  have hsame := w.untouched hexec
  cases w with
  | insertInvitation i =>
    dsimp only [exec, Db.insertInvitation] at hexec
    split_ifs at hexec
    obtain ⟨_, hrows, rfl⟩ := Option.map_eq_some_iff.mp hexec
    exact hk.insert hrows
  | useInvitation =>
    obtain rfl := Option.some.inj hexec
    exact hk.update fun _ => rfl
  | deleteInvitation =>
    obtain rfl := Option.some.inj hexec
    exact hk.delete
  | deleteGroup =>
    obtain rfl := Option.some.inj hexec
    rw [Db.deleteGroupRow]
    split
    · exact hk
    · exact hk.update fun _ => rfl
  | _ =>
    rw [hsame .invitations rfl]
    exact hk

theorem Write.keyed_inviteLinks (hk : Table.Keyed InviteLink.id db.inviteLinks)
    (hexec : w.exec db = some db') : Table.Keyed InviteLink.id db'.inviteLinks := by
  have hsame := w.untouched hexec
  cases w with
  | insertInviteLink l =>
    dsimp only [exec, Db.insertInviteLink] at hexec
    split_ifs at hexec
    obtain ⟨_, hrows, rfl⟩ := Option.map_eq_some_iff.mp hexec
    exact hk.insert hrows
  | claimSlot | revokeInviteLink =>
    obtain rfl := Option.some.inj hexec
    exact hk.update fun _ => rfl
  | deleteGroup =>
    obtain rfl := Option.some.inj hexec
    rw [Db.deleteGroupRow]
    split
    · exact hk
    · exact hk.update fun _ => rfl
  | _ =>
    rw [hsame .inviteLinks rfl]
    exact hk

theorem Write.keys (hk : Keys db) (hexec : w.exec db = some db') : Keys db' where
  groups := keyed_groups hk.groups hexec
  hubMembers := keyed_hubMembers hk.hubMembers hexec
  tempUsers := keyed_tempUsers hk.tempUsers hexec
  invitations := keyed_invitations hk.invitations hexec
  inviteLinks := keyed_inviteLinks hk.inviteLinks hexec

/-! ### Permissions stay paired -/

theorem isGroupOf_insertGroup {g : Group} (hins : db.insertGroup g = some db')
    (hg : db.IsGroupOf hub groupId) : db'.IsGroupOf hub groupId := by
  rw [Db.IsGroupOf, (Db.insertGroup_eq_some hins).1]
  exact List.mem_cons_of_mem _ hg

theorem isGroupOf_updateGroupRow {hubId gid : I64} {body : UpdateGroup} :
    (db.updateGroupRow hubId gid body.name body.color body.position body.hubPermissions).IsGroupOf
      hub groupId ↔ db.IsGroupOf hub groupId := by
  have hsame : (db.updateGroupRow hubId gid body.name body.color body.position
      body.hubPermissions).groups.map (fun g => (g.hubId, g.id)) =
      db.groups.map fun g => (g.hubId, g.id) := Table.map_update_of_eq fun _ => rfl
  rw [Db.IsGroupOf, Db.IsGroupOf, hsame]

theorem isChannelOf_updateChannelRow {hubId cid : I64} {name : Option String}
    {position : Option ℤ} {icon : ChannelIcon} :
    (db.updateChannelRow hubId cid name position icon).IsChannelOf hub channelId ↔
      db.IsChannelOf hub channelId := by
  have hsame : (db.updateChannelRow hubId cid name position icon).channels.map
      (fun c => (c.hubId, c.id)) = db.channels.map fun c => (c.hubId, c.id) :=
    Table.map_update_of_eq fun _ => rfl
  rw [Db.IsChannelOf, Db.IsChannelOf, hsame]

theorem isChannelOf_insertChannelRow {c : Channel} (hins : db.insertChannelRow c = some db') :
    db'.IsChannelOf hub channelId ↔
      (hub, channelId) = (c.hubId, c.id) ∨ db.IsChannelOf hub channelId := by
  rw [Db.insertChannelRow] at hins
  split_ifs at hins
  obtain rfl := Option.some.inj hins
  exact List.mem_cons

/-- **Permissions stay paired**, one channel with one group of the same hub. -/
theorem Write.paired (hA : Apart db) (hw : w.Within h u db) (hexec : w.exec db = some db') :
    ∀ cp ∈ db'.channelPermissions, ∃ hub,
      db'.IsChannelOf hub cp.channelId ∧ db'.IsGroupOf hub cp.groupId := by
  intro cp hcp
  have hsame := w.untouched hexec
  -- where the channel and the group of a row stay
  have hold (hmem : cp ∈ db.channelPermissions)
      (hchannels : ∀ hub, db.IsChannelOf hub cp.channelId → db'.IsChannelOf hub cp.channelId)
      (hgroups : ∀ hub, db.IsGroupOf hub cp.groupId → db'.IsGroupOf hub cp.groupId) :
      ∃ hub, db'.IsChannelOf hub cp.channelId ∧ db'.IsGroupOf hub cp.groupId :=
    (hA.paired cp hmem).imp fun hub hp => ⟨hchannels hub hp.1, hgroups hub hp.2⟩
  cases w with
  | insertGroup g =>
    refine hold (hsame .channelPermissions rfl ▸ hcp) (fun hub hc => ?_) fun hub hg => ?_
    · rwa [Db.IsChannelOf, hsame .channels rfl]
    · exact isGroupOf_insertGroup hexec hg
  | updateGroup hubId groupId body =>
    obtain rfl := Option.some.inj hexec
    exact hold hcp (fun hub hc => hc) fun hub hg => isGroupOf_updateGroupRow.mpr hg
  | deleteGroup hubId groupId =>
    obtain rfl := Option.some.inj hexec
    rw [Db.deleteGroupRow] at hcp ⊢
    split at hcp
    · exact hA.paired cp hcp
    · obtain ⟨hmem, hne⟩ := Table.mem_delete.mp hcp
      obtain ⟨hub, hc, hg⟩ := hA.paired cp hmem
      obtain ⟨g, hgmem, rfl, hid⟩ := isGroupOf_iff.mp hg
      refine ⟨g.hubId, hc, isGroupOf_iff.mpr ⟨g, Table.mem_delete.mpr ⟨hgmem, ?_⟩, rfl, hid⟩⟩
      rw [hid]
      exact hne
  | insertChannel c =>
    refine hold (hsame .channelPermissions rfl ▸ hcp) (fun hub hc => ?_) fun hub hg => ?_
    · exact (isChannelOf_insertChannelRow hexec).mpr (.inr hc)
    · rwa [Db.IsGroupOf, hsame .groups rfl]
  | updateChannel hubId channelId body =>
    obtain rfl := Option.some.inj hexec
    exact hold hcp (fun hub hc => isChannelOf_updateChannelRow.mpr hc) fun hub hg => hg
  | deleteChannel hubId channelId =>
    obtain rfl := Option.some.inj hexec
    rw [Db.deleteChannelRow] at hcp ⊢
    split at hcp
    · exact hA.paired cp hcp
    · obtain ⟨hmem, hne⟩ := Table.mem_delete.mp hcp
      obtain ⟨hub, hc, hg⟩ := hA.paired cp hmem
      obtain ⟨c, hcmem, rfl, hid⟩ := isChannelOf_iff.mp hc
      refine ⟨c.hubId, isChannelOf_iff.mpr ⟨c, Table.mem_delete.mpr ⟨hcmem, ?_⟩, rfl, hid⟩, hg⟩
      rw [hid]
      exact hne
  | upsertChannelPermission cp' =>
    dsimp only [exec, Db.upsertChannelPermission] at hexec
    split_ifs at hexec
    obtain rfl := Option.some.inj hexec
    rcases Table.mem_of_mem_upsert hcp with rfl | ⟨hmem, -⟩
    · exact ⟨h, hw⟩
    · exact hA.paired cp hmem
  | insertChannelPermission cp' =>
    dsimp only [exec, Db.insertChannelPermission] at hexec
    split_ifs at hexec
    obtain rfl := Option.some.inj hexec
    rcases Table.mem_of_mem_insertNew hcp with rfl | hmem
    · exact ⟨h, hw⟩
    · exact hA.paired cp hmem
  | deleteChannelPermission =>
    obtain rfl := Option.some.inj hexec
    exact hA.paired cp (Table.mem_delete.mp hcp).1
  | _ =>
    refine hold (hsame .channelPermissions rfl ▸ hcp) (fun hub hc => ?_) fun hub hg => ?_
    · rwa [Db.IsChannelOf, hsame .channels rfl]
    · rwa [Db.IsGroupOf, hsame .groups rfl]

/-- **A statement that keeps to a hub** leaves the hubs apart. -/
theorem Write.apart (hA : Apart db) (hw : w.Within h u db) (hexec : w.exec db = some db') :
    Apart db' where
  toGrouped := Write.grouped hA.toGrouped hw.groups hexec
  keys := Write.keys hA.keys hexec
  paired := Write.paired hA hw hexec

/-- The user stays a member. -/
theorem Write.isMember (hm : db.IsMember h u) (hw : w.Within h u db)
    (hexec : w.exec db = some db') : db'.IsMember h u := by
  have hsame := w.untouched hexec
  cases w with
  | insertHubMember m => exact (isMember_of_insertHubMember hexec).2 _ _ hm
  | insertHubMemberNew m => exact (isMember_of_insertHubMemberNew hexec).2 _ _ hm
  | deleteHubMember hubId userId =>
    obtain rfl := Option.some.inj hexec
    obtain ⟨m, hmem, hhub, huser⟩ := isMember_iff.mp hm
    refine isMember_iff.mpr ⟨m, Table.mem_delete.mpr ⟨hmem, decide_eq_false ?_⟩, hhub, huser⟩
    exact fun heq => hw.2 (heq.2.symm.trans huser)
  | _ => rwa [Db.IsMember, hsame .hubMembers rfl]

/-! ### The rows of other hubs -/

variable (hA : Apart db) (hw : w.Within h u db) (hne : hub ≠ h) (hexec : w.exec db = some db')

include hw hne hexec

theorem Write.spares_hubMembers :
    Table.SameOn (fun m => m.hubId = hub) db.hubMembers db'.hubMembers := by
  have hsame := w.untouched hexec
  cases w with
  | insertHubMember m =>
    dsimp only [exec, Db.insertHubMember] at hexec
    split_ifs at hexec
    obtain ⟨_, hrows, rfl⟩ := Option.map_eq_some_iff.mp hexec
    exact Table.sameOn_insert hrows fun heq => hne (heq.symm.trans hw)
  | insertHubMemberNew m =>
    dsimp only [exec, Db.insertHubMemberNew] at hexec
    split_ifs at hexec
    obtain rfl := Option.some.inj hexec
    exact Table.sameOn_insertNew fun heq => hne (heq.symm.trans hw)
  | deleteHubMember hubId userId =>
    obtain rfl := Option.some.inj hexec
    refine Table.sameOn_delete fun m _ hm heq => hne ?_
    exact heq.symm.trans ((of_decide_eq_true hm).1.trans hw.1)
  | _ => exact Table.sameOn_of_eq (hsame .hubMembers rfl)

theorem Write.spares_channels :
    Table.SameOn (fun c => c.hubId = hub) db.channels db'.channels := by
  have hsame := w.untouched hexec
  cases w with
  | insertChannel c =>
    dsimp only [exec, Db.insertChannelRow] at hexec
    split_ifs at hexec
    obtain rfl := Option.some.inj hexec
    exact Table.sameOn_cons fun heq => hne (heq.symm.trans hw)
  | updateChannel hubId channelId body =>
    obtain rfl := Option.some.inj hexec
    refine Table.sameOn_update fun c _ hc => ?_
    have hother : c.hubId ≠ hub := fun heq =>
      hne (heq.symm.trans ((of_decide_eq_true hc).2.trans hw))
    exact ⟨hother, hother⟩
  | deleteChannel hubId channelId =>
    obtain rfl := Option.some.inj hexec
    rw [Db.deleteChannelRow]
    split
    · exact Table.sameOn_refl
    · rename_i c hc
      obtain ⟨hcmem, hid, hhub⟩ := Db.channel?_eq_some.mp hc
      refine Table.sameOn_delete fun c' hc' hid' heq => hne ?_
      rw [← heq, db.pk_channels c' hc' c hcmem ((of_decide_eq_true hid').trans hid.symm)]
      exact hhub.trans hw
  | _ => exact Table.sameOn_of_eq (hsame .channels rfl)

theorem Write.spares_dmParticipants :
    Table.SameOn (fun p => db.IsChannelOf hub p.channelId) db.dmParticipants
      db'.dmParticipants := by
  have hsame := w.untouched hexec
  cases w with
  | insertDmParticipant channelId userId =>
    dsimp only [exec, Db.insertDmParticipant] at hexec
    split_ifs at hexec
    obtain rfl := Option.some.inj hexec
    exact Table.sameOn_insertNew fun hc => hne (channel_hub hc hw)
  | deleteChannel hubId channelId =>
    obtain rfl := Option.some.inj hexec
    rw [Db.deleteChannelRow]
    split
    · exact Table.sameOn_refl
    · rename_i c hc
      obtain ⟨hcmem, hid, hhub⟩ := Db.channel?_eq_some.mp hc
      have hown : db.IsChannelOf h channelId :=
        isChannelOf_iff.mpr ⟨c, hcmem, hhub.trans hw, hid⟩
      refine Table.sameOn_delete fun p _ hp hpc => hne (channel_hub hpc ?_)
      exact (of_decide_eq_true hp).symm ▸ hown
  | _ => exact Table.sameOn_of_eq (hsame .dmParticipants rfl)

include hA

theorem Write.spares_groups :
    Table.SameOn (fun g => g.hubId = hub) db.groups db'.groups := by
  have hsame := w.untouched hexec
  cases w with
  | insertGroup g =>
    rw [(Db.insertGroup_eq_some hexec).1]
    exact Table.sameOn_cons fun heq => hne (heq.symm.trans hw)
  | updateGroup hubId groupId body =>
    obtain rfl := Option.some.inj hexec
    refine Table.sameOn_update fun g _ hg => ?_
    have hother : g.hubId ≠ hub := fun heq =>
      hne (heq.symm.trans ((of_decide_eq_true hg).2.trans hw))
    exact ⟨hother, hother⟩
  | deleteGroup hubId groupId =>
    obtain rfl := Option.some.inj hexec
    rw [Db.deleteGroupRow]
    split
    · exact Table.sameOn_refl
    · rename_i g hg
      refine Table.sameOn_delete fun g' hg' hid heq => hne ?_
      have hof : db.IsGroupOf hub groupId :=
        isGroupOf_iff.mpr ⟨g', hg', heq, of_decide_eq_true hid⟩
      exact (hA.group_hub hof (group?_isGroupOf hg)).trans hw
  | _ => exact Table.sameOn_of_eq (hsame .groups rfl)

theorem Write.spares_memberGroups :
    Table.SameOn (fun mg => mg.hubId = hub) db.memberGroups db'.memberGroups := by
  have hsame := w.untouched hexec
  cases w with
  | insertMemberGroup mg =>
    intro mg' heq
    rw [(Db.insertMemberGroup_eq_some hexec).2]
    refine or_iff_right ?_
    rintro rfl
    exact hne (heq.symm.trans hw.1)
  | deleteMemberGroup mg =>
    obtain rfl := Option.some.inj hexec
    refine Table.sameOn_delete fun mg' _ hmg heq => hne ?_
    exact heq.symm.trans ((congrArg _ (of_decide_eq_true hmg)).trans hw)
  | deleteMemberGroups hubId userId =>
    obtain rfl := Option.some.inj hexec
    refine Table.sameOn_delete fun mg' _ hmg heq => hne ?_
    exact heq.symm.trans ((of_decide_eq_true hmg).1.trans hw)
  | deleteGroup hubId groupId =>
    obtain rfl := Option.some.inj hexec
    rw [Db.deleteGroupRow]
    split
    · exact Table.sameOn_refl
    · rename_i g hg
      refine Table.sameOn_delete fun mg hmg hid heq => hne ?_
      have hof := hA.group mg hmg
      rw [heq, of_decide_eq_true hid] at hof
      exact (hA.group_hub hof (group?_isGroupOf hg)).trans hw
  | _ => exact Table.sameOn_of_eq (hsame .memberGroups rfl)

theorem Write.spares_channelPermissions :
    Table.SameOn (fun cp => db.IsChannelOf hub cp.channelId) db.channelPermissions
      db'.channelPermissions := by
  have hsame := w.untouched hexec
  cases w with
  | upsertChannelPermission cp =>
    dsimp only [exec, Db.upsertChannelPermission] at hexec
    split_ifs at hexec
    obtain rfl := Option.some.inj hexec
    refine Table.sameOn_upsert (fun hc => hne (channel_hub hc hw.1)) fun cp' _ hkey hc => ?_
    rw [(Prod.mk.inj hkey).1] at hc
    exact hne (channel_hub hc hw.1)
  | insertChannelPermission cp =>
    dsimp only [exec, Db.insertChannelPermission] at hexec
    split_ifs at hexec
    obtain rfl := Option.some.inj hexec
    exact Table.sameOn_insertNew fun hc => hne (channel_hub hc hw.1)
  | deleteChannelPermission channelId groupId =>
    obtain rfl := Option.some.inj hexec
    refine Table.sameOn_delete fun cp hcp hkey hc => hne ?_
    obtain ⟨hcid, hgid⟩ := of_decide_eq_true hkey
    exact channel_hub (hcid ▸ hc) (hw cp hcp hcid hgid)
  | deleteGroup hubId groupId =>
    obtain rfl := Option.some.inj hexec
    rw [Db.deleteGroupRow]
    split
    · exact Table.sameOn_refl
    · rename_i g hg
      refine Table.sameOn_delete fun cp hcp hid hc => hne ?_
      -- the channel of the row is of the hub of its group
      obtain ⟨hub', hc', hg'⟩ := hA.paired cp hcp
      rw [of_decide_eq_true hid] at hg'
      exact (channel_hub hc hc').trans ((hA.group_hub hg' (group?_isGroupOf hg)).trans hw)
  | deleteChannel hubId channelId =>
    obtain rfl := Option.some.inj hexec
    rw [Db.deleteChannelRow]
    split
    · exact Table.sameOn_refl
    · rename_i c hc
      obtain ⟨hcmem, hid, hhub⟩ := Db.channel?_eq_some.mp hc
      have hown : db.IsChannelOf h channelId :=
        isChannelOf_iff.mpr ⟨c, hcmem, hhub.trans hw, hid⟩
      refine Table.sameOn_delete fun cp _ hcp hcpc => hne (channel_hub hcpc ?_)
      exact (of_decide_eq_true hcp).symm ▸ hown
  | _ => exact Table.sameOn_of_eq (hsame .channelPermissions rfl)

theorem Write.spares_tempUsers :
    Table.SameOn (fun t => t.hubId = hub) db.tempUsers db'.tempUsers := by
  have hsame := w.untouched hexec
  cases w with
  | insertTempUser t =>
    dsimp only [exec, Db.insertTempUser] at hexec
    split_ifs at hexec
    obtain ⟨_, hrows, rfl⟩ := Option.map_eq_some_iff.mp hexec
    exact Table.sameOn_insert hrows fun heq => hne (heq.symm.trans hw.1)
  | revokeTempUser hubId userId now =>
    obtain rfl := Option.some.inj hexec
    refine Table.sameOn_update fun t _ ht => ?_
    have hother : t.hubId ≠ hub := fun heq =>
      hne (heq.symm.trans ((of_decide_eq_true ht).2.trans hw))
    exact ⟨hother, hother⟩
  | seatTempUser userId session =>
    obtain rfl := Option.some.inj hexec
    refine Table.sameOn_update fun t hmem ht => ?_
    have hother : t.hubId ≠ hub := fun heq =>
      hne (heq.symm.trans (hw t hmem (of_decide_eq_true ht)))
    exact ⟨hother, hother⟩
  | deleteGroup hubId groupId =>
    obtain rfl := Option.some.inj hexec
    rw [Db.deleteGroupRow]
    split
    · exact Table.sameOn_refl
    · rename_i g hg
      refine Table.sameOn_delete fun t ht hid heq => hne ?_
      have hof := hA.promised _ _ (promised_of_tempUser ht)
      rw [heq, of_decide_eq_true hid] at hof
      exact (hA.group_hub hof (group?_isGroupOf hg)).trans hw
  | _ => exact Table.sameOn_of_eq (hsame .tempUsers rfl)

theorem Write.spares_invitations :
    Table.SameOn (fun i => i.hubId = hub) db.invitations db'.invitations := by
  have hsame := w.untouched hexec
  cases w with
  | insertInvitation i =>
    dsimp only [exec, Db.insertInvitation] at hexec
    split_ifs at hexec
    obtain ⟨_, hrows, rfl⟩ := Option.map_eq_some_iff.mp hexec
    exact Table.sameOn_insert hrows fun heq => hne (heq.symm.trans hw.1)
  | useInvitation i userId now =>
    obtain rfl := Option.some.inj hexec
    refine Table.sameOn_update fun i' hmem hi => ?_
    have hother : i'.hubId ≠ hub := fun heq =>
      hne (heq.symm.trans (hw i' hmem (of_decide_eq_true hi)))
    exact ⟨hother, hother⟩
  | deleteInvitation hubId invitationId =>
    obtain rfl := Option.some.inj hexec
    refine Table.sameOn_delete fun i _ hi heq => hne ?_
    exact heq.symm.trans ((of_decide_eq_true hi).2.trans hw)
  | deleteGroup hubId groupId =>
    obtain rfl := Option.some.inj hexec
    rw [Db.deleteGroupRow]
    split
    · exact Table.sameOn_refl
    · rename_i g hg
      refine Table.sameOn_update fun i hmem hid => ?_
      have hof := hA.promised i.hubId groupId (of_decide_eq_true hid ▸ promised_of_invitation hmem)
      have hother : i.hubId ≠ hub := fun heq =>
        hne (heq.symm.trans ((hA.group_hub hof (group?_isGroupOf hg)).trans hw))
      exact ⟨hother, hother⟩
  | _ => exact Table.sameOn_of_eq (hsame .invitations rfl)

theorem Write.spares_inviteLinks :
    Table.SameOn (fun l => l.hubId = hub) db.inviteLinks db'.inviteLinks := by
  have hsame := w.untouched hexec
  cases w with
  | insertInviteLink l =>
    dsimp only [exec, Db.insertInviteLink] at hexec
    split_ifs at hexec
    obtain ⟨_, hrows, rfl⟩ := Option.map_eq_some_iff.mp hexec
    exact Table.sameOn_insert hrows fun heq => hne (heq.symm.trans hw.1)
  | claimSlot l =>
    obtain rfl := Option.some.inj hexec
    refine Table.sameOn_update fun l' hmem hl => ?_
    have hother : l'.hubId ≠ hub := fun heq =>
      hne (heq.symm.trans (hw l' hmem (of_decide_eq_true hl)))
    exact ⟨hother, hother⟩
  | revokeInviteLink hubId linkId now =>
    obtain rfl := Option.some.inj hexec
    refine Table.sameOn_update fun l _ hl => ?_
    have hother : l.hubId ≠ hub := fun heq =>
      hne (heq.symm.trans ((of_decide_eq_true hl).2.trans hw))
    exact ⟨hother, hother⟩
  | deleteGroup hubId groupId =>
    obtain rfl := Option.some.inj hexec
    rw [Db.deleteGroupRow]
    split
    · exact Table.sameOn_refl
    · rename_i g hg
      refine Table.sameOn_update fun l hmem hid => ?_
      have hof := hA.promised l.hubId groupId (of_decide_eq_true hid ▸ promised_of_inviteLink hmem)
      have hother : l.hubId ≠ hub := fun heq =>
        hne (heq.symm.trans ((hA.group_hub hof (group?_isGroupOf hg)).trans hw))
      exact ⟨hother, hother⟩
  | _ => exact Table.sameOn_of_eq (hsame .inviteLinks rfl)

/-- **A statement that keeps to a hub** spares the rows of the others. -/
theorem Write.spared : Spared hub db db' where
  hubMembers := spares_hubMembers hw hne hexec
  groups := spares_groups hA hw hne hexec
  memberGroups := spares_memberGroups hA hw hne hexec
  channels := spares_channels hw hne hexec
  channelPermissions := spares_channelPermissions hA hw hne hexec
  dmParticipants := spares_dmParticipants hw hne hexec
  tempUsers := spares_tempUsers hA hw hne hexec
  invitations := spares_invitations hA hw hne hexec
  inviteLinks := spares_inviteLinks hA hw hne hexec

end Statements

section Spared

variable {db db' db'' : Db} {hub channelId : I64}

theorem Spared.refl : Spared hub db db where
  hubMembers := Table.sameOn_refl
  groups := Table.sameOn_refl
  memberGroups := Table.sameOn_refl
  channels := Table.sameOn_refl
  channelPermissions := Table.sameOn_refl
  dmParticipants := Table.sameOn_refl
  tempUsers := Table.sameOn_refl
  invitations := Table.sameOn_refl
  inviteLinks := Table.sameOn_refl

theorem Spared.isChannelOf (h : Spared hub db db') (hc : db.IsChannelOf hub channelId) :
    db'.IsChannelOf hub channelId := by
  obtain ⟨c, hmem, hhub, hid⟩ := isChannelOf_iff.mp hc
  exact isChannelOf_iff.mpr ⟨c, (h.channels c hhub).mpr hmem, hhub, hid⟩

theorem Spared.trans (h : Spared hub db db') (h' : Spared hub db' db'') : Spared hub db db'' where
  hubMembers := h.hubMembers.trans h'.hubMembers fun _ => id
  groups := h.groups.trans h'.groups fun _ => id
  memberGroups := h.memberGroups.trans h'.memberGroups fun _ => id
  channels := h.channels.trans h'.channels fun _ => id
  channelPermissions := h.channelPermissions.trans h'.channelPermissions fun _ => h.isChannelOf
  dmParticipants := h.dmParticipants.trans h'.dmParticipants fun _ => h.isChannelOf
  tempUsers := h.tempUsers.trans h'.tempUsers fun _ => id
  invitations := h.invitations.trans h'.invitations fun _ => id
  inviteLinks := h.inviteLinks.trans h'.inviteLinks fun _ => id

end Spared

end Hub

end MateHub
