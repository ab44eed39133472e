import MateHub.Hub.Tenancy

/-!
# Isolation of hubs

A user whose rights come from one hub calls the endpoints, with any hub in the path and any
ids. An endpoint authorizes the caller in the hub of the path, but four of them do not check
that the channel or the group is one of that hub, or do not authorize at all. With these
checks, no row of another hub would be created, changed or deleted, and no row would pair
a channel or a group of one hub with another hub (`MateHub.Hub.isolated_of_reach`).
-/

namespace MateHub

namespace Hub

open Chat (I64 i64)

/-- **A user whose rights come from one hub**: a member of it, and in no other hub a member,
in a group, or the maker of a guest, an invitation or a link. -/
structure Insider (h u : I64) (db : Db) : Prop where
  member : db.IsMember h u
  members : ∀ m ∈ db.hubMembers, m.userId = u → m.hubId = h
  memberGroups : ∀ mg ∈ db.memberGroups, mg.userId = u → mg.hubId = h
  tempUsers : ∀ t ∈ db.tempUsers, t.createdBy = u → t.hubId = h
  invitations : ∀ i ∈ db.invitations, i.createdBy = u → i.hubId = h
  inviteLinks : ∀ l ∈ db.inviteLinks, l.createdBy = u → l.hubId = h

/-- Who makes a call: the user; and with tokens of the hub only, which are rights too. -/
def Call.MadeBy (h u : I64) (db : Db) : Call → Prop
  | .createGroup _ auth _ _ | .updateGroup _ auth _ _ | .deleteGroup _ auth _
  | .addMemberToGroup _ auth _ _ | .removeMemberFromGroup _ auth _ _
  | .setChannelPermission _ auth _ _ _ | .deleteChannelPermission _ auth _ _
  | .createChannel _ auth _ _ | .updateChannel _ auth _ _ | .deleteChannel _ auth _
  | .uploadIcon _ auth _ _ _ _ | .openDm _ auth _ _ | .kickMember _ auth _
  | .createTempUser _ auth _ _ _ _
  | .revokeTempUser _ auth _ _ | .createInviteLink _ auth _ _ _ _
  | .createInvitation _ _ auth _ _ _ | .deletePendingPermanent _ auth _
  | .deletePendingTemp _ auth _ _ | .deletePendingLink _ auth _ _ => auth = u
  | .joinViaToken token now _ => ∀ t ∈ joinRow? db token now, t.hubId = h
  | .redeemInviteLink _ token _ now _ => ∀ l ∈ claim? db token now, l.hubId = h
  | .acceptInvitation token _ _ _ =>
    ∀ i ∈ db.invitations.find? fun i => i.token == token, i.hubId = h

/-- A login makes its account a member of the hub of the service. -/
def ApiCall.MadeBy (ssoHub h u : I64) (db : Db) : ApiCall → Prop
  | .call c => c.MadeBy h u db
  | .setupAdmin _ _ => True
  | .ssoLogin _ _ => ssoHub = h

/-- **What is not checked**: that who writes to a protected group is a member of the hub, and
that the channel and the group of a permission, and the group of a guest, are of the hub. -/
def Call.Confined (db : Db) : Call → Prop
  | .updateGroup hubId auth groupId body => ¬ db.IsMember hubId auth →
    ∀ target ∈ db.group? hubId groupId, isProtected target.name = true →
      (body.position.isNone && body.hubPermissions.isNone) = false
  | .setChannelPermission hubId auth channelId groupId _ =>
    (db.resolveUserPerms hubId auth).has Bits.adminChannel = true →
      db.hasChannel channelId = true → db.hasGroup groupId = true →
        db.IsChannelOf hubId channelId ∧ db.IsGroupOf hubId groupId
  | .deleteChannelPermission hubId auth channelId groupId =>
    (db.resolveUserPerms hubId auth).has Bits.adminChannel = true →
      ∀ cp ∈ db.channelPermissions, cp.channelId = channelId → cp.groupId = groupId →
        db.IsChannelOf hubId channelId
  | .createTempUser hubId auth body _ _ _ =>
    (db.resolveUserPerms hubId auth).has Bits.createTempLinks = true →
      db.hasGroup body.groupId = true → db.IsGroupOf hubId body.groupId
  | _ => True

/-- What is not checked, of any endpoint. -/
def ApiCall.Confined (db : Db) : ApiCall → Prop
  | .call c => c.Confined db
  | _ => True

/-- The hub in the path. -/
def Call.hub? : Call → Option I64
  | .createGroup hubId _ _ _ | .updateGroup hubId _ _ _ | .deleteGroup hubId _ _
  | .addMemberToGroup hubId _ _ _ | .removeMemberFromGroup hubId _ _ _
  | .setChannelPermission hubId _ _ _ _ | .deleteChannelPermission hubId _ _ _
  | .createChannel hubId _ _ _ | .updateChannel hubId _ _ _ | .deleteChannel hubId _ _
  | .uploadIcon hubId _ _ _ _ _ | .openDm hubId _ _ _ | .kickMember hubId _ _ | .createTempUser hubId _ _ _ _ _
  | .revokeTempUser hubId _ _ _ | .createInviteLink hubId _ _ _ _ _
  | .createInvitation _ hubId _ _ _ _ | .deletePendingPermanent hubId _ _
  | .deletePendingTemp hubId _ _ _ | .deletePendingLink hubId _ _ _ => some hubId
  | .joinViaToken _ _ _ | .redeemInviteLink _ _ _ _ _ | .acceptInvitation _ _ _ _ => none

section Calls

variable {db db' : Db} {h u hubId : I64} {call : Call} {account : Option I64}

/-! ### Rights -/

/-- **The user has permissions in one hub only.** -/
theorem Insider.hub_eq {bit : Bits} (hI : Insider h u db) (hbit : bit ≠ 0)
    (hhas : (db.resolveUserPerms hubId u).has bit = true) : hubId = h := by
  by_contra hne
  have hnone : db.groupsOf hubId u = [] :=
    List.filter_eq_nil_iff.mpr fun g _ hg => hne (hI.memberGroups _ (of_decide_eq_true hg).2 rfl)
  rw [Db.has_eq_false hnone hbit] at hhas
  cases hhas

/-- And so with what the user may retract. -/
theorem Insider.hub_eq_of_mayRetract {bit : Bits} {createdBy : I64} (hI : Insider h u db)
    (hbit : bit ≠ 0) (hcreated : createdBy = u → hubId = h)
    (hmay : mayRetract db hubId u createdBy bit = true) : hubId = h := by
  rw [mayRetract, Bool.or_eq_true, decide_eq_true_eq, Bool.or_eq_true] at hmay
  rcases hmay with heq | hhas | hhas
  · exact hcreated heq
  · exact hI.hub_eq hbit hhas
  · exact hI.hub_eq (by decide) hhas

/-- Two members of a hub, one of which is the user. -/
theorem Insider.hub_eq_of_both {other : I64} (hI : Insider h u db) (hk : Keys db)
    (hboth : (db.hubMembers.countP fun m =>
      decide (m.hubId = hubId ∧ (m.userId = u ∨ m.userId = other))) = 2) : hubId = h := by
  by_contra hne
  have hone : (db.hubMembers.countP fun m =>
      decide (m.hubId = hubId ∧ (m.userId = u ∨ m.userId = other))) ≤ 1 := by
    refine hk.hubMembers.countP_le_one fun m₁ h₁ m₂ h₂ hp₁ hp₂ => ?_
    obtain ⟨hhub₁, huser₁⟩ := of_decide_eq_true hp₁
    obtain ⟨hhub₂, huser₂⟩ := of_decide_eq_true hp₂
    -- neither is the user, who is no member
    have hother₁ := huser₁.resolve_left fun heq => hne (hhub₁ ▸ hI.members m₁ h₁ heq)
    have hother₂ := huser₂.resolve_left fun heq => hne (hhub₂ ▸ hI.members m₂ h₂ heq)
    rw [hhub₁, hhub₂, hother₁, hother₂]
  omega

/-- The user has the same rights where the other hubs are spared. -/
theorem Insider.of_spared (hI : Insider h u db) (hm : db'.IsMember h u)
    (hs : ∀ hub, hub ≠ h → Spared hub db db') : Insider h u db' where
  member := hm
  members := fun m hmem hu => by
    by_contra hne
    exact hne (hI.members m (((hs m.hubId hne).hubMembers m rfl).mp hmem) hu)
  memberGroups := fun mg hmem hu => by
    by_contra hne
    exact hne (hI.memberGroups mg (((hs mg.hubId hne).memberGroups mg rfl).mp hmem) hu)
  tempUsers := fun t hmem hu => by
    by_contra hne
    exact hne (hI.tempUsers t (((hs t.hubId hne).tempUsers t rfl).mp hmem) hu)
  invitations := fun i hmem hu => by
    by_contra hne
    exact hne (hI.invitations i (((hs i.hubId hne).invitations i rfl).mp hmem) hu)
  inviteLinks := fun l hmem hu => by
    by_contra hne
    exact hne (hI.inviteLinks l (((hs l.hubId hne).inviteLinks l rfl).mp hmem) hu)

/-! ### Calls keep to the hub -/

/-- **The hub in the path** of an accepted call is the one that the user has rights in. -/
theorem Insider.path_eq (hI : Insider h u db) (hk : Keys db) (hby : call.MadeBy h u db)
    (hcare : call.Confined db) (hrun : call.run db = .ok (account, db')) :
    ∀ hubId ∈ call.hub?, hubId = h := by
  intro hubId hhub
  cases call with
  | joinViaToken | redeemInviteLink | acceptInvitation => cases hhub
  | updateGroup path auth groupId body =>
    obtain rfl := Option.some.inj hhub
    obtain rfl := hby
    obtain ⟨-, p, hp, -⟩ := silent_eq_ok hrun
    simp only [Hub.updateGroup, require_eq_ok, found_eq_ok] at hp
    obtain ⟨target, htarget, hmay, -⟩ := hp
    by_contra hne
    have hno : ¬ db.IsMember path auth := fun hm => by
      obtain ⟨m, hmem, rfl, huser⟩ := isMember_iff.mp hm
      exact hne (hI.members m hmem huser)
    rw [mayUpdate] at hmay
    split_ifs at hmay with hprot
    · rw [hcare hno target htarget hprot] at hmay
      cases hmay
    · rw [Bool.and_eq_true, Bool.and_eq_true] at hmay
      exact hne (hI.hub_eq (by decide) hmay.1.1)
  | createGroup path auth body nextId =>
    obtain rfl := Option.some.inj hhub
    obtain rfl := hby
    obtain ⟨-, p, hp, -⟩ := silent_eq_ok hrun
    simp only [Hub.createGroup, require_eq_ok] at hp
    exact hI.hub_eq (by decide) hp.1
  | deleteGroup path auth groupId =>
    obtain rfl := Option.some.inj hhub
    obtain rfl := hby
    obtain ⟨-, p, hp, -⟩ := silent_eq_ok hrun
    simp only [Hub.deleteGroup, require_eq_ok] at hp
    exact hI.hub_eq (by decide) hp.1
  | addMemberToGroup path auth groupId userId =>
    obtain rfl := Option.some.inj hhub
    obtain rfl := hby
    obtain ⟨-, p, hp, -⟩ := silent_eq_ok hrun
    simp only [Hub.addMemberToGroup, require_eq_ok] at hp
    exact hI.hub_eq (by decide) hp.1
  | removeMemberFromGroup path auth groupId userId =>
    obtain rfl := Option.some.inj hhub
    obtain rfl := hby
    obtain ⟨-, p, hp, -⟩ := silent_eq_ok hrun
    simp only [Hub.removeMemberFromGroup, require_eq_ok] at hp
    exact hI.hub_eq (by decide) hp.1
  | setChannelPermission path auth channelId groupId body =>
    obtain rfl := Option.some.inj hhub
    obtain rfl := hby
    obtain ⟨-, p, hp, -⟩ := silent_eq_ok hrun
    simp only [Hub.setChannelPermission, require_eq_ok] at hp
    exact hI.hub_eq (by decide) hp.1
  | deleteChannelPermission path auth channelId groupId =>
    obtain rfl := Option.some.inj hhub
    obtain rfl := hby
    obtain ⟨-, p, hp, -⟩ := silent_eq_ok hrun
    simp only [Hub.deleteChannelPermission, require_eq_ok] at hp
    exact hI.hub_eq (by decide) hp.1
  | updateChannel path auth channelId body =>
    obtain rfl := Option.some.inj hhub
    obtain rfl := hby
    obtain ⟨-, p, hp, -⟩ := silent_eq_ok hrun
    simp only [Hub.updateChannel, require_eq_ok] at hp
    exact hI.hub_eq (by decide) hp.1
  | deleteChannel path auth channelId =>
    obtain rfl := Option.some.inj hhub
    obtain rfl := hby
    obtain ⟨-, p, hp, -⟩ := silent_eq_ok hrun
    simp only [Hub.deleteChannel, require_eq_ok] at hp
    exact hI.hub_eq (by decide) hp.1
  | uploadIcon path auth channelId storage field randSuffix =>
    obtain rfl := Option.some.inj hhub
    obtain rfl := hby
    obtain ⟨-, p, hp, -⟩ := silent_eq_ok hrun
    simp only [Hub.uploadIcon, require_eq_ok] at hp
    exact hI.hub_eq (by decide) hp.1
  | kickMember path auth userId =>
    obtain rfl := Option.some.inj hhub
    obtain rfl := hby
    obtain ⟨-, p, hp, -⟩ := silent_eq_ok hrun
    simp only [Hub.kickMember, require_eq_ok] at hp
    exact hI.hub_eq (by decide) hp.1
  | revokeTempUser path auth userId now =>
    obtain rfl := Option.some.inj hhub
    obtain rfl := hby
    obtain ⟨-, p, hp, -⟩ := silent_eq_ok hrun
    simp only [Hub.revokeTempUser, require_eq_ok] at hp
    exact hI.hub_eq (by decide) hp.1
  | createInviteLink path auth body now nextId token =>
    obtain rfl := Option.some.inj hhub
    obtain rfl := hby
    obtain ⟨-, p, hp, -⟩ := silent_eq_ok hrun
    simp only [Hub.createInviteLink, require_eq_ok] at hp
    exact hI.hub_eq (by decide) hp.1
  | createTempUser path auth body now nextId token =>
    obtain rfl := Option.some.inj hhub
    obtain rfl := hby
    obtain ⟨p, hp, -, -⟩ := gives_eq_ok hrun
    simp only [Hub.createTempUser, require_eq_ok] at hp
    exact hI.hub_eq (by decide) hp.1
  | createChannel path auth body nextId =>
    obtain rfl := Option.some.inj hhub
    obtain rfl := hby
    obtain ⟨-, p, hp, -⟩ := silent_eq_ok hrun
    simp only [Hub.createChannel, require_eq_ok] at hp
    refine hI.hub_eq ?_ hp.2.2.1
    split <;> decide
  | createInvitation parses path auth body nextId token =>
    obtain rfl := Option.some.inj hhub
    obtain rfl := hby
    obtain ⟨-, p, hp, -⟩ := silent_eq_ok hrun
    simp only [Hub.createInvitation, require_eq_ok] at hp
    exact hI.hub_eq (by decide) hp.2.2.1
  | openDm path auth other nextId =>
    obtain rfl := Option.some.inj hhub
    obtain rfl := hby
    obtain ⟨-, p, hp, -⟩ := silent_eq_ok hrun
    simp only [Hub.openDm, require_eq_ok] at hp
    exact hI.hub_eq_of_both hk (eq_of_beq hp.2.1)
  | deletePendingPermanent path auth invitationId =>
    obtain rfl := Option.some.inj hhub
    obtain rfl := hby
    obtain ⟨-, p, hp, -⟩ := silent_eq_ok hrun
    simp only [Hub.deletePendingPermanent, require_eq_ok, found_eq_ok] at hp
    obtain ⟨i, hi, -, hmay, -⟩ := hp
    obtain ⟨hmem, -, rfl⟩ := Table.of_find?_eq_some hi
    exact hI.hub_eq_of_mayRetract (by decide) (hI.invitations i hmem) hmay
  | deletePendingTemp path auth userId now =>
    obtain rfl := Option.some.inj hhub
    obtain rfl := hby
    obtain ⟨-, p, hp, -⟩ := silent_eq_ok hrun
    simp only [Hub.deletePendingTemp, require_eq_ok, found_eq_ok] at hp
    obtain ⟨t, ht, -, hmay, -⟩ := hp
    obtain ⟨hmem, -, rfl⟩ := Table.of_find?_eq_some ht
    exact hI.hub_eq_of_mayRetract (by decide) (hI.tempUsers t hmem) hmay
  | deletePendingLink path auth linkId now =>
    obtain rfl := Option.some.inj hhub
    obtain rfl := hby
    obtain ⟨-, p, hp, -⟩ := silent_eq_ok hrun
    simp only [Hub.deletePendingLink, require_eq_ok, found_eq_ok] at hp
    obtain ⟨l, hl, -, hmay, -⟩ := hp
    obtain ⟨hmem, -, rfl⟩ := Table.of_find?_eq_some hl
    exact hI.hub_eq_of_mayRetract (by decide) (hI.inviteLinks l hmem) hmay

theorem hasGroup_of_insertTempUser {t : TempUser} (hins : db.insertTempUser t = some db') :
    db.hasGroup t.groupId = true := by
  rw [Db.insertTempUser] at hins
  split_ifs at hins with hno
  simp only [Bool.or_eq_true, not_or, Bool.not_eq_true'] at hno
  exact Bool.not_eq_false _ |>.mp hno.1.1.2

/-- New memberships in groups of the hub. -/
theorem within_insertMemberGroups {userId : I64} {groupIds : List I64}
    (hgroups : ∀ groupId ∈ groupIds, db.IsGroupOf h groupId) :
    Script.Along Write.exec (Write.Within h u) db (insertMemberGroups h userId groupIds) := by
  refine along_insertMemberGroups fun gid hgid db₁ hsame _ => ⟨rfl, ?_⟩
  rw [Db.IsGroupOf, hsame]
  exact hgroups gid hgid

/-- A registration in the hub. -/
theorem within_registerWrites {db₀ : Db} {userId : I64} {ids : I64 → List I64}
    (hgroups : db.groups = db₀.groups) (hids : ∀ everyone ∈ db₀.defaultGroup? h,
      ∀ groupId ∈ ids everyone.id, db₀.IsGroupOf h groupId) :
    Script.Along Write.exec (Write.Within h u) db (registerWrites db₀ h userId ids) := by
  refine ⟨rfl, fun db₁ hexec => ?_⟩
  cases heveryone : db₀.defaultGroup? h with
  | none => trivial
  | some everyone =>
    rw [Option.toList_some, List.flatMap_singleton]
    refine within_insertMemberGroups fun groupId hgid => ?_
    rw [Db.IsGroupOf, Write.untouched hexec .groups rfl, hgroups]
    exact hids everyone heveryone groupId hgid

/-- Rows for two users of a channel of the hub. -/
theorem within_insertDmParticipants {channelId me other : I64} (hc : db.IsChannelOf h channelId) :
    Script.Along Write.exec (Write.Within h u) db
      [.insertDmParticipant channelId me, .insertDmParticipant channelId other] := by
  refine ⟨hc, fun db₁ hexec => ⟨?_, fun _ _ => trivial⟩⟩
  rw [Write.Within, Db.IsChannelOf, Write.untouched hexec .channels rfl]
  exact hc

/-- **The script of a call** keeps to the hub, if the call is accepted. -/
theorem Insider.along_within (hI : Insider h u db) (hA : Apart db) (hby : call.MadeBy h u db)
    (hcare : call.Confined db) (hrun : call.run db = .ok (account, db')) :
    Script.Along Write.exec (Write.Within h u) db (call.writes db) := by
  have hpath := hI.path_eq hA.keys hby hcare hrun
  cases call with
  | createGroup | updateGroup | deleteGroup | removeMemberFromGroup | updateChannel
  | deleteChannel | uploadIcon | deletePendingPermanent | deletePendingLink =>
    exact ⟨hpath _ rfl, fun _ _ => trivial⟩
  | revokeTempUser | deletePendingTemp =>
    exact ⟨hpath _ rfl, fun _ _ => ⟨trivial, fun _ _ => trivial⟩⟩
  | addMemberToGroup path auth groupId userId =>
    obtain rfl := hpath path rfl
    obtain ⟨-, p, hp, -⟩ := silent_eq_ok hrun
    simp only [Hub.addMemberToGroup, require_eq_ok, found_eq_ok] at hp
    obtain ⟨-, target, htarget, -⟩ := hp
    exact ⟨⟨rfl, group?_isGroupOf htarget⟩, fun _ _ => trivial⟩
  | setChannelPermission path auth channelId groupId body =>
    obtain rfl := hpath path rfl
    obtain ⟨-, p, hp, -⟩ := silent_eq_ok hrun
    simp only [Hub.setChannelPermission, require_eq_ok, found_eq_ok] at hp
    obtain ⟨hhas, db₁, hset, -⟩ := hp
    rw [Db.upsertChannelPermission] at hset
    split_ifs at hset with hno
    rw [Bool.or_eq_true, not_or, Bool.not_eq_true, Bool.not_eq_eq_eq_not] at hno
    exact ⟨hcare hhas (by simpa using hno.1) (by simpa using hno.2), fun _ _ => trivial⟩
  | deleteChannelPermission path auth channelId groupId =>
    obtain rfl := hpath path rfl
    obtain ⟨-, p, hp, -⟩ := silent_eq_ok hrun
    simp only [Hub.deleteChannelPermission, require_eq_ok] at hp
    exact ⟨hcare hp.1, fun _ _ => trivial⟩
  | createChannel path auth body nextId =>
    obtain rfl := hpath path rfl
    refine ⟨rfl, fun db₁ hexec => ?_⟩
    cases hg : db.defaultGroup? path with
    | none => trivial
    | some g =>
      refine ⟨⟨?_, ?_⟩, fun _ _ => trivial⟩
      · exact (isChannelOf_insertChannelRow hexec).mpr (.inl rfl)
      · rw [Db.IsGroupOf, Write.untouched hexec .groups rfl]
        exact defaultGroup?_isGroupOf hg
  | openDm path auth other nextId =>
    obtain rfl := hpath path rfl
    rw [Call.writes]
    split
    · rename_i c hc
      obtain ⟨hmem, hhub, -⟩ := Table.of_find?_eq_some hc
      exact within_insertDmParticipants (isChannelOf_iff.mpr ⟨c, hmem, hhub, rfl⟩)
    · refine ⟨rfl, fun db₁ hexec => within_insertDmParticipants ?_⟩
      exact (isChannelOf_insertChannelRow hexec).mpr (.inl rfl)
  | kickMember path auth userId =>
    obtain rfl := hby
    obtain ⟨-, p, hp, -⟩ := silent_eq_ok hrun
    simp only [Hub.kickMember, require_eq_ok] at hp
    refine ⟨hpath path rfl, fun _ _ => ⟨⟨hpath path rfl, ?_⟩, fun _ _ => trivial⟩⟩
    exact (bne_iff_ne.mp hp.2.1).symm
  | createTempUser path auth body now nextId token =>
    obtain rfl := hpath path rfl
    obtain ⟨p, hp, -, -⟩ := gives_eq_ok hrun
    simp only [Hub.createTempUser, require_eq_ok, found_eq_ok, attempt_eq_ok] at hp
    obtain ⟨hhas, -, db₁, huser, db₂, htemp, -⟩ := hp
    have hgroup := hasGroup_of_insertTempUser htemp
    rw [Db.hasGroup, (Db.insertUser_eq_ok huser).1.groups] at hgroup
    refine ⟨trivial, fun db₁ hexec => ⟨⟨rfl, ?_⟩, fun _ _ => trivial⟩⟩
    rw [Db.IsGroupOf, Write.untouched hexec .groups rfl]
    exact hcare hhas hgroup
  | createInviteLink path auth body now nextId token =>
    obtain rfl := hpath path rfl
    obtain ⟨-, p, hp, -⟩ := silent_eq_ok hrun
    simp only [Hub.createInviteLink, require_eq_ok] at hp
    obtain ⟨-, -, -, hgroup, -⟩ := hp
    refine ⟨⟨rfl, fun gid hgid => ?_⟩, fun _ _ => trivial⟩
    obtain ⟨g, hg⟩ := Option.isSome_iff_exists.mp (Option.all_eq_true _ _ |>.mp hgroup gid hgid)
    exact group?_isGroupOf hg
  | createInvitation parses path auth body nextId token =>
    obtain rfl := hpath path rfl
    exact ⟨⟨rfl, fun gid hgid => (by cases hgid)⟩, fun _ _ => trivial⟩
  | joinViaToken token now session =>
    dsimp only [Call.writes]
    cases ht : joinRow? db token now with
    | none => trivial
    | some t =>
      obtain rfl := hby t ht
      have hmem : t ∈ db.tempUsers := List.mem_of_find?_eq_some ht
      cases heveryone : db.defaultGroup? t.hubId with
      | none =>
        rw [Option.toList_some, List.flatMap_singleton, heveryone]
        trivial
      | some everyone =>
        rw [Option.toList_some, List.flatMap_singleton, heveryone, Option.toList_some,
          List.flatMap_singleton]
        refine ⟨rfl, fun db₁ hexec => Script.along_append.mpr ⟨?_, fun db₂ hrun₂ => ?_⟩⟩
        · refine within_insertMemberGroups fun gid hgid => ?_
          rw [Db.IsGroupOf, Write.untouched hexec .groups rfl]
          rcases List.mem_pair.mp hgid with rfl | rfl
          · exact defaultGroup?_isGroupOf heveryone
          · exact hA.promised _ _ (promised_of_tempUser hmem)
        · -- no other guest has the id
          have htemps : db₂.tempUsers = db.tempUsers :=
            (Write.untouched hexec .tempUsers rfl).trans (Write.run_untouched hrun₂ fun w hw =>
              touches_insertMemberGroups hw (by simp))
          refine ⟨fun t' ht' hid => ?_, fun _ _ => trivial⟩
          rw [htemps] at ht'
          rw [hA.keys.tempUsers.eq_of_key ht' hmem hid]
  | redeemInviteLink parses token body now nextId =>
    dsimp only [Call.writes]
    cases hl : claim? db token now with
    | none => trivial
    | some l =>
      obtain rfl := hby l hl
      have hmem : l ∈ db.inviteLinks := List.mem_of_find?_eq_some hl
      rw [Option.toList_some, List.flatMap_singleton]
      refine ⟨fun l' hl' hid => ?_, fun db₁ h₁ => ⟨trivial, fun db₂ h₂ =>
        within_registerWrites ?_ ?_⟩⟩
      · rw [hA.keys.inviteLinks.eq_of_key hl' hmem hid]
      · rw [Write.untouched h₂ .groups rfl, Write.untouched h₁ .groups rfl]
      · intro everyone heveryone gid hgid
        rcases mem_groupIds hgid with rfl | hgroup
        · exact defaultGroup?_isGroupOf heveryone
        · exact hA.promised _ _ (hgroup ▸ promised_of_inviteLink hmem)
  | acceptInvitation token body now nextId =>
    dsimp only [Call.writes]
    cases hi : db.invitations.find? fun i => i.token == token with
    | none => trivial
    | some i =>
      obtain rfl := hby i hi
      have hmem : i ∈ db.invitations := List.mem_of_find?_eq_some hi
      rw [Option.toList_some, List.flatMap_singleton]
      refine ⟨trivial, fun db₁ h₁ => Script.along_append.mpr ⟨within_registerWrites ?_ ?_, ?_⟩⟩
      · rw [Write.untouched h₁ .groups rfl]
      · intro everyone heveryone gid hgid
        rcases List.mem_cons.mp hgid with rfl | hgid
        · exact defaultGroup?_isGroupOf heveryone
        · refine hA.promised _ _ ?_
          exact (Option.mem_toList.mp hgid : i.groupId = some gid) ▸ promised_of_invitation hmem
      · intro db₂ hrun₂
        have hinvs : db₂.invitations = db.invitations :=
          (Write.untouched h₁ .invitations rfl).trans (Write.run_untouched hrun₂ fun w hw =>
            touches_registerWrites hw (by simp) (by simp))
        refine ⟨fun i' hi' hid => ?_, fun _ _ => trivial⟩
        rw [hinvs] at hi'
        rw [hA.keys.invitations.eq_of_key hi' hmem hid]

/-- **The first statement** of a call that fails halfway. -/
theorem Insider.halfway_within (hI : Insider h u db) (hby : call.MadeBy h u db)
    (hhalf : db' ∈ call.halfway db) : ∃ w : Write, w.Within h u db ∧ w.exec db = some db' := by
  cases call with
  | createChannel path auth body nextId =>
    obtain rfl := hby
    dsimp only [Call.halfway] at hhalf
    split_ifs at hhalf with hmay
    · rw [Call.mayCreateChannel, Bool.and_eq_true] at hmay
      refine ⟨.insertChannel _, hI.hub_eq ?_ hmay.2, hhalf⟩
      split <;> decide
    · cases hhalf
  | kickMember path auth userId =>
    obtain rfl := hby
    dsimp only [Call.halfway] at hhalf
    split_ifs at hhalf with hmay
    · simp only [Call.mayKick, Bool.and_eq_true] at hmay
      exact ⟨.deleteMemberGroups path userId, hI.hub_eq (by decide) hmay.1.1.1, hhalf⟩
    · cases hhalf
  | _ => cases hhalf

/-- The script of a login to the hub of the service. -/
theorem within_ssoWrites {st : Service} {newUserId : I64} {x : ExchangeResponse} :
    Script.Along Write.exec (Write.Within h u) st.db (st.ssoWrites h x newUserId) := by
  have hrows {user : I64} {db₁ : Db} (hgroups : db₁.groups = st.db.groups) :
      Script.Along Write.exec (Write.Within h u) db₁ (st.ssoRows h user) := by
    refine ⟨rfl, fun db₂ h₂ => ?_⟩
    cases heveryone : st.db.defaultGroup? h with
    | none => trivial
    | some everyone =>
      refine ⟨⟨rfl, ?_⟩, fun _ _ => trivial⟩
      rw [Db.IsGroupOf, Write.untouched h₂ .groups rfl, hgroups]
      exact defaultGroup?_isGroupOf heveryone
  rw [Service.ssoWrites]
  split
  · exact ⟨trivial, fun db₁ h₁ => hrows (Write.untouched h₁ .groups rfl)⟩
  · exact ⟨trivial, fun db₁ h₁ => hrows (Write.untouched h₁ .groups rfl)⟩

/-! ### Runs -/

/-- **What a run of the user leaves**: hubs that are apart, the other ones spared, and the user
a member. -/
structure Isolated (h u : I64) (db db' : Db) : Prop where
  apart : Apart db'
  spared : ∀ hub, hub ≠ h → Spared hub db db'
  member : db'.IsMember h u

theorem Isolated.exec {db₀ : Db} {w : Write} (hI : Isolated h u db₀ db) (hw : w.Within h u db)
    (hexec : w.exec db = some db') : Isolated h u db₀ db' where
  apart := Write.apart hI.apart hw hexec
  spared := fun hub hne => (hI.spared hub hne).trans (Write.spared hI.apart hw hne hexec)
  member := Write.isMember hI.member hw hexec

/-- **An endpoint that the user calls**, wherever it stops. -/
theorem Isolated.leaves {ssoHub : I64} {st st' : Service} {a : ApiCall} {db₀ : Db}
    (hI : Isolated h u db₀ st.db) (hin : Insider h u st.db) (hby : a.MadeBy ssoHub h u st.db)
    (hcare : a.Confined st.db) (hleaves : st' ∈ a.leaves ssoHub st) :
    Isolated h u db₀ st'.db := by
  have hkeeps (db₁ : Db) (w : Write) (db₂ : Db) (h₁ : Isolated h u db₀ db₁)
      (hw : w.Within h u db₁) (hexec : w.exec db₁ = some db₂) : Isolated h u db₀ db₂ :=
    h₁.exec hw hexec
  cases a with
  | call c =>
    obtain ⟨db₁, hdb, rfl⟩ := List.mem_map.mp hleaves
    rcases Call.stops hdb with rfl | hhalf | ⟨account, hrun⟩
    · exact hI
    · obtain ⟨w, hw, hexec⟩ := hin.halfway_within hby hhalf
      exact hI.exec hw hexec
    · exact (Script.stops_of_run (Call.run_writes hrun)).invariant hkeeps hI
        (hin.along_within hI.apart hby hcare hrun)
  | setupAdmin body ids =>
    -- there is a member, so that the setup is refused
    rcases List.mem_cons.mp hleaves with rfl | hleaves
    · exact hI
    · split at hleaves
      · rename_i userId db₁ hok
        simp only [Hub.setupAdmin, require_eq_ok] at hok
        obtain ⟨m, hmem, -⟩ := isMember_iff.mp hin.member
        rw [List.isEmpty_iff.mp hok.2.1] at hmem
        cases hmem
      · cases hleaves
  | ssoLogin x newUserId =>
    obtain rfl := hby
    exact (ApiCall.stops_of_leaves hleaves).invariant hkeeps hI within_ssoWrites

/-- **Isolation of hubs.** A user whose rights come from one hub calls the endpoints, one after
another, with any hub in the path and any ids; the databases before are those in which the
hubs are apart. If no call goes where nothing is checked, then whatever the calls are and
wherever they fail, no row of another hub has been created, changed or deleted, and
memberships and permissions are each within one hub. -/
theorem isolated_of_reach {ssoHub : I64} {st₀ st : Service} (hA : Apart st₀.db)
    (hI : Insider h u st₀.db)
    (hreach : (hubApi ssoHub fun st => st = st₀).Reach
      (fun st a => a.MadeBy ssoHub h u st.db ∧ a.Confined st.db) st) :
    (∀ hub, hub ≠ h → Spared hub st₀.db st.db) ∧
      (∀ mg ∈ st.db.memberGroups, ∃ g ∈ st.db.groups, g.hubId = mg.hubId ∧ g.id = mg.groupId) ∧
      ∀ cp ∈ st.db.channelPermissions, ∃ c ∈ st.db.channels, ∃ g ∈ st.db.groups,
        c.id = cp.channelId ∧ g.id = cp.groupId ∧ c.hubId = g.hubId := by
  have hst : Isolated h u st₀.db st.db := by
    refine hreach.invariant (I := fun st => Isolated h u st₀.db st.db) ?_ ?_
    · rintro _ rfl
      exact ⟨hA, fun _ _ => .refl, hI.member⟩
    · rintro st a st' hst ⟨hby, hcare⟩ hstep
      exact hst.leaves (hI.of_spared hst.member hst.spared) hby hcare hstep
  refine ⟨hst.spared, fun mg hmem => isGroupOf_iff.mp (hst.apart.group mg hmem), fun cp hcp => ?_⟩
  obtain ⟨hub, hc, hg⟩ := hst.apart.paired cp hcp
  obtain ⟨c, hcmem, hchub, hcid⟩ := isChannelOf_iff.mp hc
  obtain ⟨g, hgmem, hghub, hgid⟩ := isGroupOf_iff.mp hg
  exact ⟨c, hcmem, g, hgmem, hcid, hgid, hchub.trans hghub.symm⟩

end Calls

/-! ### Two hubs -/

namespace Seed

def dora : I64 := i64 1011
def otherHub : I64 := i64 2
def otherAdmin : I64 := i64 2012
def otherGeneral : I64 := i64 3011

/-- The development hub, and beside it a hub that Dora has made. -/
def twoHubs : Db where
  hubs := ⟨otherHub, some dora⟩ :: devSeed.hubs
  users := ⟨dora, "dora", "Dora", some "dora@matehub.dev", .permanent, none, none⟩ :: devSeed.users
  hubMembers := ⟨otherHub, dora, "admin"⟩ :: devSeed.hubMembers
  groups := ⟨otherAdmin, otherHub, "admin", some "#E74C3C", 0, false, Bits.all⟩ :: devSeed.groups
  memberGroups := ⟨otherHub, dora, otherAdmin⟩ :: devSeed.memberGroups
  channels := ⟨otherGeneral, otherHub, "general", "text", 0, none, noIcon⟩ :: devSeed.channels
  channelPermissions := ⟨otherGeneral, otherAdmin, Bits.all, 0⟩ :: devSeed.channelPermissions
  dmParticipants := []
  tempUsers := []
  invitations := []
  inviteLinks := []
  fk_memberGroups := by decide
  fk_memberUsers := by decide
  pk_channels := by decide

theorem apart_twoHubs : Apart twoHubs where
  group := by decide
  promised := fun _ _ h => absurd h List.not_mem_nil
  keys := ⟨by decide, by decide, by decide, by decide, by decide⟩
  paired := by
    have hpaired : ∀ cp ∈ twoHubs.channelPermissions, ∃ h ∈ twoHubs.hubs,
        twoHubs.IsChannelOf h.id cp.channelId ∧ twoHubs.IsGroupOf h.id cp.groupId := by decide
    intro cp hcp
    obtain ⟨h, -, hpair⟩ := hpaired cp hcp
    exact ⟨h.id, hpair⟩

theorem insider_alice : Insider hub alice twoHubs where
  member := by decide
  members := by decide
  memberGroups := by decide
  tempUsers := fun _ h => absurd h List.not_mem_nil
  invitations := fun _ h => absurd h List.not_mem_nil
  inviteLinks := fun _ h => absurd h List.not_mem_nil

/-- A run from the two hubs. -/
def twoHubsRun (as : List ApiCall) : Service := as.foldl (Service.after hub) ⟨twoHubs, []⟩

/-- Alice makes a channel, hides the other one from guests, and tries to delete a group of the
other hub. -/
def aliceAtHome : List ApiCall :=
  [.call (.createChannel hub alice ⟨"news", "text", none, none⟩ (i64 3002)),
    .call (.setChannelPermission hub alice general guests ⟨0, Bits.read⟩),
    .call (.deleteGroup otherHub alice otherAdmin)]

/-- The other hub is spared, and the channel is made. -/
theorem isolated_of_reach_aliceAtHome :
    (twoHubsRun aliceAtHome).db.IsChannelOf hub (i64 3002) ∧
    (∀ other, other ≠ hub → Spared other twoHubs (twoHubsRun aliceAtHome).db) := by
  have hreach : (hubApi hub fun st => st = ⟨twoHubs, []⟩).Reach
      (fun st a => a.MadeBy hub hub alice st.db ∧ a.Confined st.db) (twoHubsRun aliceAtHome) := by
    refine System.Reach.foldl (fun st a => Service.after_mem hub st a) (.start rfl) ?_
    refine ⟨⟨rfl, trivial⟩, ⟨rfl, fun _ _ _ => ?_⟩, ⟨rfl, trivial⟩, trivial⟩
    exact ⟨by decide +kernel, by decide +kernel⟩
  exact ⟨by decide +kernel, (isolated_of_reach apart_twoHubs insider_alice hreach).1⟩

/-- Alice lets her members write in a channel of the other hub, and renames its admin group. -/
def aliceAbroad : List ApiCall :=
  [.call (.setChannelPermission hub alice otherGeneral everyone ⟨Bits.memberChannel, 0⟩),
    .call (.updateGroup otherHub alice otherAdmin ⟨some "nobody", none, none, none⟩)]

/-- **Hubs are not isolated**: a permission pairs a channel of one hub with a group of another
one, and a group of the other hub is changed. -/
theorem not_isolated : Apart twoHubs ∧ Insider hub alice twoHubs ∧
    ∃ st, (hubApi hub fun st => st = ⟨twoHubs, []⟩).Reach
      (fun st a => a.MadeBy hub hub alice st.db) st ∧ ¬ Spared otherHub twoHubs st.db ∧
      ∃ cp ∈ st.db.channelPermissions, ∃ c ∈ st.db.channels, ∃ g ∈ st.db.groups,
        c.id = cp.channelId ∧ g.id = cp.groupId ∧ c.hubId ≠ g.hubId := by
  refine ⟨apart_twoHubs, insider_alice, twoHubsRun aliceAbroad, ?_, fun hs => ?_, ?_⟩
  · refine System.Reach.foldl (fun st a => Service.after_mem hub st a) (.start rfl) ?_
    exact ⟨rfl, rfl, trivial⟩
  · have hgone : (⟨otherAdmin, otherHub, "admin", some "#E74C3C", 0, false, Bits.all⟩ : Group) ∉
        (twoHubsRun aliceAbroad).db.groups := by decide +kernel
    exact hgone ((hs.groups _ rfl).mpr List.mem_cons_self)
  · decide +kernel

end Seed

end Hub

end MateHub
