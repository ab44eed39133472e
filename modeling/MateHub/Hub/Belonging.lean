import MateHub.Hub.Api

/-!
# Which hub a group is of

A row of `member_groups` names a hub, a user and a group, and so do, in their ways, the rows of
guests, invitations and links, which promise a group of a hub to whoever comes. This is what
the statements of the service do to these rows: they belong together afterwards if they did
before and if what is inserted does.
-/

namespace MateHub

namespace Hub

open Chat (I64)

namespace Db

variable (db : Db)

/-- A user is a member of a hub. -/
def IsMember (hubId userId : I64) : Prop :=
  (hubId, userId) ∈ db.hubMembers.map fun m => (m.hubId, m.userId)

/-- A group is one of a hub. -/
def IsGroupOf (hubId groupId : I64) : Prop :=
  (hubId, groupId) ∈ db.groups.map fun g => (g.hubId, g.id)

/-- The groups that guests, invitations and links are to be put into, with their hubs. -/
def promises : List (I64 × Option I64) :=
  db.tempUsers.map (fun t => (t.hubId, some t.groupId)) ++
    (db.invitations.map (fun i => (i.hubId, i.groupId)) ++
      db.inviteLinks.map fun l => (l.hubId, l.groupId))

instance (hubId userId : I64) : Decidable (db.IsMember hubId userId) :=
  inferInstanceAs (Decidable (_ ∈ List.map _ _))

instance (hubId groupId : I64) : Decidable (db.IsGroupOf hubId groupId) :=
  inferInstanceAs (Decidable (_ ∈ List.map _ _))

end Db

/-- **Groups belong to their hubs**: a membership in a hub is in a group of it, and so are the
groups that are promised. -/
structure Grouped (db : Db) : Prop where
  group : ∀ mg ∈ db.memberGroups, db.IsGroupOf mg.hubId mg.groupId
  promised : ∀ hubId groupId, (hubId, some groupId) ∈ db.promises → db.IsGroupOf hubId groupId

section Statements

variable {db db' : Db} {hubId userId groupId : I64} {w : Write}

theorem isMember_iff : db.IsMember hubId userId ↔
    ∃ m ∈ db.hubMembers, m.hubId = hubId ∧ m.userId = userId := by
  simp [Db.IsMember]

theorem isGroupOf_iff : db.IsGroupOf hubId groupId ↔
    ∃ g ∈ db.groups, g.hubId = hubId ∧ g.id = groupId := by
  simp [Db.IsGroupOf]

theorem defaultGroup?_isGroupOf {everyone : Group} (h : db.defaultGroup? hubId = some everyone) :
    db.IsGroupOf hubId everyone.id := by
  have hfound := List.find?_some h
  rw [Bool.and_eq_true, decide_eq_true_eq] at hfound
  exact isGroupOf_iff.mpr ⟨everyone, List.mem_of_find?_eq_some h, hfound.1, rfl⟩

theorem group?_isGroupOf {g : Group} (h : db.group? hubId groupId = some g) :
    db.IsGroupOf hubId groupId := by
  have hfound := List.find?_some h
  obtain ⟨hid, hhub⟩ := of_decide_eq_true hfound
  exact isGroupOf_iff.mpr ⟨g, List.mem_of_find?_eq_some h, hhub, hid⟩

theorem mem_groupIds {gid everyone : I64} {linkGroupId : Option I64}
    (h : gid ∈ Hub.groupIds everyone linkGroupId) : gid = everyone ∨ linkGroupId = some gid := by
  cases linkGroupId with
  | none => exact .inl (List.mem_singleton.mp h)
  | some g =>
    dsimp only [groupIds] at h
    split_ifs at h
    · exact (List.mem_pair.mp h).imp_right fun heq => by rw [heq]
    · exact .inl (List.mem_singleton.mp h)

theorem promised_of_tempUser {t : TempUser} (h : t ∈ db.tempUsers) :
    (t.hubId, some t.groupId) ∈ db.promises :=
  List.mem_append_left _ (List.mem_map.mpr ⟨t, h, rfl⟩)

theorem promised_of_invitation {i : Invitation} (h : i ∈ db.invitations) :
    (i.hubId, i.groupId) ∈ db.promises :=
  List.mem_append_right _ (List.mem_append_left _ (List.mem_map.mpr ⟨i, h, rfl⟩))

theorem promised_of_inviteLink {l : InviteLink} (h : l ∈ db.inviteLinks) :
    (l.hubId, l.groupId) ∈ db.promises :=
  List.mem_append_right _ (List.mem_append_right _ (List.mem_map.mpr ⟨l, h, rfl⟩))

/-- Where a promise comes from. -/
theorem mem_promises {p : I64 × Option I64} : p ∈ db.promises ↔
    (∃ t ∈ db.tempUsers, (t.hubId, some t.groupId) = p) ∨
      (∃ i ∈ db.invitations, (i.hubId, i.groupId) = p) ∨
        ∃ l ∈ db.inviteLinks, (l.hubId, l.groupId) = p := by
  simp [Db.promises]

theorem promises_congr (htemp : db'.tempUsers = db.tempUsers)
    (hinv : db'.invitations = db.invitations) (hlinks : db'.inviteLinks = db.inviteLinks) :
    db'.promises = db.promises := by
  rw [Db.promises, Db.promises, htemp, hinv, hlinks]

/-- Groups stay, and no membership or promise is new. -/
theorem Grouped.of_le (h : Grouped db)
    (hgroups : ∀ hub g, db.IsGroupOf hub g → db'.IsGroupOf hub g)
    (hmg : db'.memberGroups ⊆ db.memberGroups) (hpromises : db'.promises ⊆ db.promises) :
    Grouped db' where
  group := fun mg hmem => hgroups _ _ (h.group mg (hmg hmem))
  promised := fun hub g hp => hgroups _ _ (h.promised hub g (hpromises hp))

/-- A new promise is of a group of its hub. -/
theorem Grouped.promise {p : I64 × Option I64} (h : Grouped db) (hgroups : db'.groups = db.groups)
    (hmg : db'.memberGroups = db.memberGroups) (hpromises : db'.promises ⊆ p :: db.promises)
    (hp : ∀ groupId ∈ p.2, db.IsGroupOf p.1 groupId) : Grouped db' := by
  have hgroup {hub g : I64} (hg : db.IsGroupOf hub g) : db'.IsGroupOf hub g := by
    rwa [Db.IsGroupOf, hgroups]
  refine ⟨fun mg hmem => hgroup (h.group mg (hmg ▸ hmem)), fun hub g hmem => ?_⟩
  rcases List.mem_cons.mp (hpromises hmem) with rfl | hmem
  · exact hgroup (hp g rfl)
  · exact hgroup (h.promised hub g hmem)

/-- What is left where the groups of some rows are forgotten. -/
theorem mem_map_update_none {ρ : Type} {rows : List ρ} {f : ρ → ρ} {hub : ρ → I64}
    {group : ρ → Option I64} {g : I64} (hf : ∀ r, group (f r) = none)
    (hmem : (hubId, some g) ∈ (Table.update (fun r => decide (group r = some groupId)) f rows).map
      fun r => (hub r, group r)) :
    (hubId, some g) ∈ rows.map (fun r => (hub r, group r)) ∧ g ≠ groupId := by
  obtain ⟨r', hr', heq⟩ := List.mem_map.mp hmem
  obtain ⟨r, hr, rfl⟩ := Table.mem_update.mp hr'
  split at heq
  · rw [hf] at heq
    cases heq
  · rename_i hne
    obtain ⟨rfl, hg⟩ := Prod.mk.inj heq
    refine ⟨List.mem_map.mpr ⟨r, hr, heq⟩, ?_⟩
    rintro rfl
    exact hne (decide_eq_true hg)

/-- **A group is deleted** with its memberships, and with what is promised of it. -/
theorem Grouped.deleteGroup (h : Grouped db) (hubId groupId : I64) :
    Grouped (db.deleteGroupRow hubId groupId) := by
  rw [Db.deleteGroupRow]
  split
  · exact h
  · -- the other groups are still there
    have hgroup {hub g : I64} (hg : db.IsGroupOf hub g) (hne : g ≠ groupId) :
        (hub, g) ∈ (Table.delete (fun g => decide (g.id = groupId)) db.groups).map
          fun g => (g.hubId, g.id) := by
      obtain ⟨g₀, hg₀, rfl, rfl⟩ := isGroupOf_iff.mp hg
      exact List.mem_map_of_mem (Table.mem_delete.mpr ⟨hg₀, decide_eq_false hne⟩)
    refine ⟨fun mg hmem => ?_, fun hub g hmem => ?_⟩
    · obtain ⟨hmem, hne⟩ := Table.mem_delete.mp hmem
      exact hgroup (h.group mg hmem) (of_decide_eq_false hne)
    · rcases List.mem_append.mp hmem with hmem | hmem
      · obtain ⟨t, ht, heq⟩ := List.mem_map.mp hmem
        obtain ⟨rfl, hg⟩ := Prod.mk.inj heq
        obtain rfl := Option.some.inj hg
        obtain ⟨ht, hne⟩ := Table.mem_delete.mp ht
        exact hgroup (h.promised _ _ (promised_of_tempUser ht)) (of_decide_eq_false hne)
      · rcases List.mem_append.mp hmem with hmem | hmem
        · obtain ⟨hmem, hne⟩ := mem_map_update_none (fun _ => rfl) hmem
          exact hgroup (h.promised _ _ (List.mem_append_right _ (List.mem_append_left _ hmem))) hne
        · obtain ⟨hmem, hne⟩ := mem_map_update_none (fun _ => rfl) hmem
          exact hgroup (h.promised _ _ (List.mem_append_right _ (List.mem_append_right _ hmem))) hne

/-! ### Members -/

theorem isMember_of_insertHubMember {m : HubMember} (h : db.insertHubMember m = some db') :
    db'.IsMember m.hubId m.userId ∧ ∀ hub u, db.IsMember hub u → db'.IsMember hub u := by
  rw [Db.insertHubMember] at h
  split_ifs at h
  obtain ⟨rows, hrows, rfl⟩ := Option.map_eq_some_iff.mp h
  refine ⟨isMember_iff.mpr ⟨m, (Table.mem_insert hrows).mpr (.inl rfl), rfl, rfl⟩, ?_⟩
  intro hub u hu
  obtain ⟨m', hm', hid⟩ := isMember_iff.mp hu
  exact isMember_iff.mpr ⟨m', (Table.mem_insert hrows).mpr (.inr hm'), hid⟩

theorem isMember_of_insertHubMemberNew {m : HubMember} (h : db.insertHubMemberNew m = some db') :
    db'.IsMember m.hubId m.userId ∧ ∀ hub u, db.IsMember hub u → db'.IsMember hub u := by
  rw [Db.insertHubMemberNew] at h
  split_ifs at h
  obtain rfl := Option.some.inj h
  constructor
  · rw [isMember_iff]
    by_cases hkey : Table.hasKey (fun m => (m.hubId, m.userId)) m db.hubMembers = true
    · obtain ⟨m', hm', heq⟩ := Table.hasKey_iff.mp hkey
      obtain ⟨hhub, huser⟩ := Prod.mk.inj heq
      exact ⟨m', Table.mem_insertNew_of_mem hm', hhub, huser⟩
    · refine ⟨m, ?_, rfl, rfl⟩
      rw [Table.insertNew, if_neg hkey]
      exact List.mem_cons_self
  · intro hub u hu
    obtain ⟨m', hm', hid⟩ := isMember_iff.mp hu
    exact isMember_iff.mpr ⟨m', Table.mem_insertNew_of_mem hm', hid⟩

/-! ### Promises -/

theorem mem_tempUsers_insert {t t' : TempUser} (h : db.insertTempUser t = some db')
    (ht' : t' ∈ db'.tempUsers) : t' = t ∨ t' ∈ db.tempUsers := by
  rw [Db.insertTempUser] at h
  split_ifs at h
  obtain ⟨rows, hrows, rfl⟩ := Option.map_eq_some_iff.mp h
  exact (Table.mem_insert hrows).mp ht'

theorem mem_invitations_insert {i i' : Invitation} (h : db.insertInvitation i = some db')
    (hi' : i' ∈ db'.invitations) : i' = i ∨ i' ∈ db.invitations := by
  rw [Db.insertInvitation] at h
  split_ifs at h
  obtain ⟨rows, hrows, rfl⟩ := Option.map_eq_some_iff.mp h
  exact (Table.mem_insert hrows).mp hi'

theorem mem_inviteLinks_insert {l l' : InviteLink} (h : db.insertInviteLink l = some db')
    (hl' : l' ∈ db'.inviteLinks) : l' = l ∨ l' ∈ db.inviteLinks := by
  rw [Db.insertInviteLink] at h
  split_ifs at h
  obtain ⟨rows, hrows, rfl⟩ := Option.map_eq_some_iff.mp h
  exact (Table.mem_insert hrows).mp hl'

/-- What a statement may promise. -/
def Write.promise? : Write → Option (I64 × Option I64)
  | insertTempUser t => some (t.hubId, some t.groupId)
  | insertInvitation i => some (i.hubId, i.groupId)
  | insertInviteLink l => some (l.hubId, l.groupId)
  | _ => none

/-- **The promises after a statement**, other than the deletion of a group. -/
theorem Write.promises_subset (hexec : w.exec db = some db') (hw : w.touches .groups = false) :
    db'.promises ⊆ w.promise?.toList ++ db.promises := by
  have hsame := w.untouched hexec
  intro p hp
  cases w with
  | insertTempUser t =>
    rw [promise?, Option.toList_some, List.singleton_append, List.mem_cons]
    rcases mem_promises.mp hp with ⟨t', ht', rfl⟩ | ⟨i, hi, rfl⟩ | ⟨l, hl, rfl⟩
    · exact (mem_tempUsers_insert hexec ht').imp (fun heq => by rw [heq]) promised_of_tempUser
    · exact .inr (promised_of_invitation (hsame .invitations rfl ▸ hi))
    · exact .inr (promised_of_inviteLink (hsame .inviteLinks rfl ▸ hl))
  | insertInvitation i =>
    rw [promise?, Option.toList_some, List.singleton_append, List.mem_cons]
    rcases mem_promises.mp hp with ⟨t, ht, rfl⟩ | ⟨i', hi', rfl⟩ | ⟨l, hl, rfl⟩
    · exact .inr (promised_of_tempUser (hsame .tempUsers rfl ▸ ht))
    · exact (mem_invitations_insert hexec hi').imp (fun heq => by rw [heq]) promised_of_invitation
    · exact .inr (promised_of_inviteLink (hsame .inviteLinks rfl ▸ hl))
  | insertInviteLink l =>
    rw [promise?, Option.toList_some, List.singleton_append, List.mem_cons]
    rcases mem_promises.mp hp with ⟨t, ht, rfl⟩ | ⟨i, hi, rfl⟩ | ⟨l', hl', rfl⟩
    · exact .inr (promised_of_tempUser (hsame .tempUsers rfl ▸ ht))
    · exact .inr (promised_of_invitation (hsame .invitations rfl ▸ hi))
    · exact (mem_inviteLinks_insert hexec hl').imp (fun heq => by rw [heq]) promised_of_inviteLink
  | revokeTempUser | seatTempUser =>
    obtain rfl := Option.some.inj hexec
    rcases mem_promises.mp hp with ⟨t', ht', rfl⟩ | ⟨i, hi, rfl⟩ | ⟨l, hl, rfl⟩
    · obtain ⟨t, ht, rfl⟩ := Table.mem_update.mp ht'
      have hold := promised_of_tempUser ht
      split <;> exact hold
    · exact promised_of_invitation hi
    · exact promised_of_inviteLink hl
  | useInvitation =>
    obtain rfl := Option.some.inj hexec
    rcases mem_promises.mp hp with ⟨t, ht, rfl⟩ | ⟨i', hi', rfl⟩ | ⟨l, hl, rfl⟩
    · exact promised_of_tempUser ht
    · obtain ⟨i, hi, rfl⟩ := Table.mem_update.mp hi'
      have hold := promised_of_invitation hi
      split <;> exact hold
    · exact promised_of_inviteLink hl
  | deleteInvitation =>
    obtain rfl := Option.some.inj hexec
    rcases mem_promises.mp hp with ⟨t, ht, rfl⟩ | ⟨i, hi, rfl⟩ | ⟨l, hl, rfl⟩
    · exact promised_of_tempUser ht
    · exact promised_of_invitation (Table.mem_delete.mp hi).1
    · exact promised_of_inviteLink hl
  | claimSlot | revokeInviteLink =>
    obtain rfl := Option.some.inj hexec
    rcases mem_promises.mp hp with ⟨t, ht, rfl⟩ | ⟨i, hi, rfl⟩ | ⟨l', hl', rfl⟩
    · exact promised_of_tempUser ht
    · exact promised_of_invitation hi
    · obtain ⟨l, hl, rfl⟩ := Table.mem_update.mp hl'
      have hold := promised_of_inviteLink hl
      split <;> exact hold
  | insertGroup | updateGroup | deleteGroup => cases hw
  | _ =>
    rw [promises_congr (hsame .tempUsers rfl) (hsame .invitations rfl)
      (hsame .inviteLinks rfl)] at hp
    exact List.mem_append_right _ hp

/-- What is inserted is of a group of its hub. -/
def Write.Groups (db : Db) : Write → Prop
  | insertMemberGroup mg => db.IsGroupOf mg.hubId mg.groupId
  | insertTempUser t => db.IsGroupOf t.hubId t.groupId
  | insertInvitation i => ∀ groupId ∈ i.groupId, db.IsGroupOf i.hubId groupId
  | insertInviteLink l => ∀ groupId ∈ l.groupId, db.IsGroupOf l.hubId groupId
  | _ => True

/-- **What a statement does to groups that belong to their hubs.** -/
theorem Write.grouped (h : Grouped db) (hw : w.Groups db) (hexec : w.exec db = some db') :
    Grouped db' := by
  have hsame := w.untouched hexec
  cases w with
  | insertGroup g =>
    obtain ⟨hgroups, hmg, -⟩ := Db.insertGroup_eq_some hexec
    refine h.of_le (fun hub g' hg' => ?_) (fun _ hmem => hmg ▸ hmem) ?_
    · rw [Db.IsGroupOf, hgroups]
      exact List.mem_cons_of_mem _ hg'
    · rw [promises_congr (hsame .tempUsers rfl) (hsame .invitations rfl) (hsame .inviteLinks rfl)]
      exact List.Subset.refl _
  | updateGroup hubId groupId body =>
    obtain rfl := Option.some.inj hexec
    have hgroups : (db.updateGroupRow hubId groupId body.name body.color body.position
        body.hubPermissions).groups.map (fun g => (g.hubId, g.id)) =
        db.groups.map fun g => (g.hubId, g.id) := Table.map_update_of_eq fun _ => rfl
    refine h.of_le (fun hub g hg => ?_) (fun _ hmem => hmem) fun _ hp => hp
    rwa [Db.IsGroupOf, hgroups]
  | deleteGroup hubId groupId =>
    obtain rfl := Option.some.inj hexec
    exact h.deleteGroup hubId groupId
  | insertMemberGroup mg =>
    obtain ⟨hgroups, hmem⟩ := Db.insertMemberGroup_eq_some hexec
    have hpromises := promises_subset hexec rfl
    refine ⟨fun mg' hmg' => ?_, fun hub g hp => ?_⟩
    · rw [Db.IsGroupOf, hgroups]
      rcases (hmem mg').mp hmg' with rfl | hmg'
      · exact hw
      · exact h.group mg' hmg'
    · rw [Db.IsGroupOf, hgroups]
      exact h.promised hub g (hpromises hp)
  | deleteMemberGroup | deleteMemberGroups =>
    obtain rfl := Option.some.inj hexec
    exact h.of_le (fun _ _ hg => hg) (fun _ hmem => (Table.mem_delete.mp hmem).1) fun _ hp => hp
  | insertTempUser t =>
    refine h.promise (hsame .groups rfl) (hsame .memberGroups rfl) (promises_subset hexec rfl) ?_
    rintro _ ⟨⟩
    exact hw
  | insertInvitation i =>
    exact h.promise (hsame .groups rfl) (hsame .memberGroups rfl) (promises_subset hexec rfl) hw
  | insertInviteLink l =>
    exact h.promise (hsame .groups rfl) (hsame .memberGroups rfl) (promises_subset hexec rfl) hw
  | _ =>
    refine h.of_le (fun hub g hg => ?_) (fun mg hmem => ?_) (promises_subset hexec rfl)
    · rwa [Db.IsGroupOf, hsame .groups rfl]
    · rwa [hsame .memberGroups rfl] at hmem

end Statements

end Hub

end MateHub
