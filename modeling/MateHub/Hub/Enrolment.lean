import MateHub.Hub.Belonging

/-!
# Members of groups are members of the hub

A row of `member_groups` names a hub, a user and a group. The endpoints take the three from
different places, and nothing in the tables says that they belong together: that the user is
a member of the hub, and that the group is one of the hub. It is so where two endpoints are
used with care, which check neither (`MateHub.Hub.enrolled_of_reach`): a user that is put into
a group is a member, and the group of a guest is of the hub of the guest. Then it does not
matter at which statement a request fails.
-/

namespace MateHub

namespace Hub

open Chat (I64 i64)

/-- **Memberships belong together**: who is in a group in a hub is a member of the hub, and
the group is one of it. -/
structure Enrolled (db : Db) : Prop extends Grouped db where
  member : ∀ mg ∈ db.memberGroups, db.IsMember mg.hubId mg.userId

section Statements

variable {db db' : Db} {hubId userId groupId : I64} {w : Write}

/-- What a statement must not do to memberships that belong together. -/
def Write.Enrols (db : Db) : Write → Prop
  | insertMemberGroup mg => db.IsMember mg.hubId mg.userId ∧ db.IsGroupOf mg.hubId mg.groupId
  | deleteHubMember hubId userId =>
    ∀ mg ∈ db.memberGroups, ¬ (mg.hubId = hubId ∧ mg.userId = userId)
  | w => w.Groups db

theorem Write.Enrols.groups (h : w.Enrols db) : w.Groups db := by
  cases w with
  | insertMemberGroup mg => exact h.2
  | deleteHubMember => trivial
  | _ => exact h

/-- **What a statement does to memberships that belong together.** -/
theorem Write.enrolled (h : Enrolled db) (hw : w.Enrols db) (hexec : w.exec db = some db') :
    Enrolled db' := by
  refine ⟨Write.grouped h.toGrouped hw.groups hexec, fun mg hmem => ?_⟩
  have hsame := w.untouched hexec
  cases w with
  | insertMemberGroup mg' =>
    rw [Db.IsMember, hsame .hubMembers rfl]
    rcases ((Db.insertMemberGroup_eq_some hexec).2 mg).mp hmem with rfl | hmem
    · exact hw.1
    · exact h.member mg hmem
  | deleteMemberGroup | deleteMemberGroups =>
    obtain rfl := Option.some.inj hexec
    exact h.member mg (Table.mem_delete.mp hmem).1
  | deleteGroup hubId groupId =>
    obtain rfl := Option.some.inj hexec
    rw [Db.IsMember, hsame .hubMembers rfl]
    exact h.member mg (Db.deleteGroupRow_shrinks.memberGroups hmem)
  | insertHubMember m =>
    rw [hsame .memberGroups rfl] at hmem
    exact (isMember_of_insertHubMember hexec).2 _ _ (h.member mg hmem)
  | insertHubMemberNew m =>
    rw [hsame .memberGroups rfl] at hmem
    exact (isMember_of_insertHubMemberNew hexec).2 _ _ (h.member mg hmem)
  | deleteHubMember hubId userId =>
    obtain rfl := Option.some.inj hexec
    -- the member that goes is in no group any more
    obtain ⟨m, hm, hhub, huser⟩ := isMember_iff.mp (h.member mg hmem)
    refine isMember_iff.mpr ⟨m, Table.mem_delete.mpr ⟨hm, decide_eq_false ?_⟩, hhub, huser⟩
    rintro ⟨rfl, rfl⟩
    exact hw mg hmem ⟨hhub.symm, huser.symm⟩
  | _ =>
    rw [Db.IsMember, hsame .hubMembers rfl]
    rw [hsame .memberGroups rfl] at hmem
    exact h.member mg hmem

/-! ### Calls -/

/-- A member that is put into groups of the hub. -/
theorem enrols_insertMemberGroups {groupIds : List I64} (hmember : db.IsMember hubId userId)
    (hgroups : ∀ groupId ∈ groupIds, db.IsGroupOf hubId groupId) :
    Script.Along Write.exec Write.Enrols db (insertMemberGroups hubId userId groupIds) := by
  refine along_insertMemberGroups fun gid hgid db₁ hsame hmembers => ⟨?_, ?_⟩
  · rwa [Db.IsMember, hmembers]
  · rw [Db.IsGroupOf, hsame]
    exact hgroups gid hgid

/-- A registration in a hub, with groups of the hub besides the default group. -/
theorem along_registerWrites {db₀ : Db} {ids : I64 → List I64} (hgroups : db.groups = db₀.groups)
    (hids : ∀ everyone ∈ db₀.defaultGroup? hubId, ∀ groupId ∈ ids everyone.id,
      db₀.IsGroupOf hubId groupId) :
    Script.Along Write.exec Write.Enrols db (registerWrites db₀ hubId userId ids) := by
  refine ⟨trivial, fun db₁ hexec => ?_⟩
  cases heveryone : db₀.defaultGroup? hubId with
  | none => trivial
  | some everyone =>
    rw [Option.toList_some, List.flatMap_singleton]
    refine enrols_insertMemberGroups (isMember_of_insertHubMember hexec).1 fun groupId hgid => ?_
    rw [Db.IsGroupOf, Write.untouched hexec .groups rfl, hgroups]
    exact hids everyone heveryone groupId hgid

/-- **Endpoints are used with care**: who is put into a group of a hub is a member of it, and
the group of a guest is of the hub. Neither is checked. -/
def ApiCall.Enrols (db : Db) : ApiCall → Prop
  | .call (.addMemberToGroup hubId auth groupId userId) =>
    mayAssign db hubId auth groupId = true → db.hasUser userId = true → db.IsMember hubId userId
  | .call (.createTempUser hubId auth body _ _ _) =>
    (db.resolveUserPerms hubId auth).has Bits.createTempLinks = true →
      db.IsGroupOf hubId body.groupId
  | _ => True

/-- **The script of a call** keeps what belongs together, if the call is accepted and made with
care. -/
theorem Call.along_enrols {call : Call} {account : Option I64} (h : Enrolled db)
    (hcare : ApiCall.Enrols db (.call call)) (hrun : call.run db = .ok (account, db')) :
    Script.Along Write.exec Write.Enrols db (call.writes db) := by
  cases call with
  | addMemberToGroup hubId auth groupId userId =>
    obtain ⟨-, p, hp, -⟩ := silent_eq_ok hrun
    obtain ⟨hmay, huser⟩ := addMemberToGroup_eq_ok hp
    simp only [Hub.addMemberToGroup, require_eq_ok, found_eq_ok] at hp
    obtain ⟨-, target, htarget, -⟩ := hp
    exact ⟨⟨hcare hmay huser, group?_isGroupOf htarget⟩, fun _ _ => trivial⟩
  | createTempUser hubId auth body now nextId token =>
    obtain ⟨p, hp, -, -⟩ := gives_eq_ok hrun
    simp only [Hub.createTempUser, require_eq_ok] at hp
    refine ⟨trivial, fun db₁ hexec => ?_⟩
    have hgroup : db₁.IsGroupOf hubId body.groupId := by
      rw [Db.IsGroupOf, Write.untouched hexec .groups rfl]
      exact hcare hp.1
    exact ⟨hgroup, fun _ _ => trivial⟩
  | createInviteLink hubId auth body now nextId token =>
    obtain ⟨-, p, hp, -⟩ := silent_eq_ok hrun
    simp only [Hub.createInviteLink, require_eq_ok] at hp
    obtain ⟨-, -, -, hgroup, -⟩ := hp
    refine ⟨fun gid hgid => ?_, fun _ _ => trivial⟩
    obtain ⟨g, hg⟩ := Option.isSome_iff_exists.mp (Option.all_eq_true _ _ |>.mp hgroup gid hgid)
    exact group?_isGroupOf hg
  | createInvitation parses hubId auth body nextId token =>
    exact ⟨fun gid hgid => (by cases hgid), fun _ _ => trivial⟩
  | joinViaToken token now session =>
    dsimp only [writes]
    cases ht : joinRow? db token now with
    | none => trivial
    | some t =>
      cases heveryone : db.defaultGroup? t.hubId with
      | none =>
        rw [Option.toList_some, List.flatMap_singleton, heveryone]
        trivial
      | some everyone =>
        rw [Option.toList_some, List.flatMap_singleton, heveryone, Option.toList_some,
          List.flatMap_singleton]
        refine ⟨trivial, fun db₁ hexec => Script.along_append.mpr ⟨?_, fun _ _ => ?_⟩⟩
        · have hmember := (isMember_of_insertHubMemberNew hexec).1
          refine enrols_insertMemberGroups hmember fun gid hgid => ?_
          rw [Db.IsGroupOf, Write.untouched hexec .groups rfl]
          rcases List.mem_pair.mp hgid with rfl | rfl
          · exact defaultGroup?_isGroupOf heveryone
          · refine h.promised _ _ (List.mem_append_left _ ?_)
            exact List.mem_map.mpr ⟨t, List.mem_of_find?_eq_some ht, rfl⟩
        · exact ⟨trivial, fun _ _ => trivial⟩
  | redeemInviteLink parses token body now nextId =>
    dsimp only [writes]
    cases hl : claim? db token now with
    | none => trivial
    | some l =>
      rw [Option.toList_some, List.flatMap_singleton]
      refine ⟨trivial, fun db₁ h₁ => ⟨trivial, fun db₂ h₂ => along_registerWrites ?_ ?_⟩⟩
      · rw [Write.untouched h₂ .groups rfl, Write.untouched h₁ .groups rfl]
      · intro everyone heveryone gid hgid
        rcases mem_groupIds hgid with rfl | hgroup
        · exact defaultGroup?_isGroupOf heveryone
        · refine h.promised _ _ (List.mem_append_right _ (List.mem_append_right _ ?_))
          exact List.mem_map.mpr ⟨l, List.mem_of_find?_eq_some hl, by rw [hgroup]⟩
  | acceptInvitation token body now nextId =>
    dsimp only [writes]
    cases hi : db.invitations.find? fun i => i.token == token with
    | none => trivial
    | some i =>
      rw [Option.toList_some, List.flatMap_singleton]
      refine ⟨trivial, fun db₁ h₁ => Script.along_append.mpr ⟨along_registerWrites ?_ ?_, ?_⟩⟩
      · rw [Write.untouched h₁ .groups rfl]
      · intro everyone heveryone gid hgid
        rcases List.mem_cons.mp hgid with rfl | hgid
        · exact defaultGroup?_isGroupOf heveryone
        · refine h.promised _ _ (List.mem_append_right _ (List.mem_append_left _ ?_))
          exact List.mem_map.mpr
            ⟨i, List.mem_of_find?_eq_some hi, by rw [Option.mem_toList.mp hgid]⟩
      · exact fun _ _ => ⟨trivial, fun _ _ => trivial⟩
  | kickMember hubId auth userId =>
    refine ⟨trivial, fun db₁ hexec => ⟨?_, fun _ _ => trivial⟩⟩
    obtain rfl := Option.some.inj hexec
    intro mg hmem heq
    exact of_decide_eq_false (Table.mem_delete.mp hmem).2 heq
  | createChannel hubId auth body nextId =>
    refine ⟨trivial, fun _ _ => Script.along_of_forall fun w hw _ => ?_⟩
    obtain ⟨g, -, rfl⟩ := List.mem_map.mp hw
    trivial
  | openDm hubId auth other nextId =>
    refine Script.along_of_forall fun w hw _ => ?_
    dsimp only [writes] at hw
    split at hw <;> simp only [List.mem_cons, List.not_mem_nil, or_false] at hw
    · rcases hw with rfl | rfl <;> trivial
    · rcases hw with rfl | rfl | rfl <;> trivial
  | revokeTempUser | deletePendingTemp =>
    exact ⟨trivial, fun _ _ => ⟨trivial, fun _ _ => trivial⟩⟩
  | _ => exact ⟨trivial, fun _ _ => trivial⟩

/-- **The first statement** of a call that fails halfway. -/
theorem Call.halfway_enrolled {call : Call} (h : Enrolled db) (hhalf : db' ∈ call.halfway db) :
    Enrolled db' := by
  cases call with
  | createChannel hubId auth body nextId =>
    dsimp only [halfway] at hhalf
    split_ifs at hhalf
    · exact Write.enrolled (w := .insertChannel _) h trivial hhalf
    · cases hhalf
  | kickMember hubId auth userId =>
    dsimp only [halfway] at hhalf
    split_ifs at hhalf
    · exact Write.enrolled (w := .deleteMemberGroups hubId userId) h trivial hhalf
    · cases hhalf
  | _ => cases hhalf

/-- The script of a setup: its hub has no groups and no members before. -/
theorem along_setupRows (ids : SetupIds) :
    Script.Along Write.exec Write.Enrols db (setupRows ids) := by
  refine ⟨trivial, fun db₁ h₁ => ⟨trivial, fun db₂ h₂ => ⟨trivial, fun db₃ h₃ => ⟨trivial,
    fun db₄ h₄ => ?_⟩⟩⟩⟩
  obtain ⟨hgroups₂, -, -⟩ := Db.insertGroup_eq_some h₂
  obtain ⟨hgroups₃, -, -⟩ := Db.insertGroup_eq_some h₃
  have hmember : db₄.IsMember ids.hubId ids.userId :=
    (isMember_of_insertHubMember h₄).1
  have hgroup {gid : I64} (hgid : gid ∈ [ids.adminGroupId, ids.everyoneGroupId]) :
      db₄.IsGroupOf ids.hubId gid := by
    rw [Db.IsGroupOf, Write.untouched h₄ .groups rfl, hgroups₃, hgroups₂]
    rcases List.mem_pair.mp hgid with rfl | rfl
    · exact List.mem_cons_of_mem _ List.mem_cons_self
    · exact List.mem_cons_self
  have hrows : Script.Along Write.exec Write.Enrols db₄ (insertMemberGroups ids.hubId ids.userId
      [ids.adminGroupId, ids.everyoneGroupId]) :=
    enrols_insertMemberGroups hmember fun gid hgid => hgroup hgid
  have hall : Script.Along Write.exec Write.Enrols db₄ (insertMemberGroups ids.hubId ids.userId
      [ids.adminGroupId, ids.everyoneGroupId] ++
        [.insertChannel ⟨ids.generalChannelId, ids.hubId, "general", "text", 0, none, noIcon⟩,
          .insertChannelPermission
            ⟨ids.generalChannelId, ids.everyoneGroupId, Bits.memberChannel, 0⟩]) :=
    Script.along_append.mpr
      ⟨hrows, fun _ _ => ⟨trivial, fun _ _ => ⟨trivial, fun _ _ => trivial⟩⟩⟩
  exact hall

/-- The script of a login. -/
theorem along_ssoWrites {st : Service} {ssoHub newUserId : I64} {x : ExchangeResponse} :
    Script.Along Write.exec Write.Enrols st.db (st.ssoWrites ssoHub x newUserId) := by
  have hrows {u : I64} {db₁ : Db} (hgroups : db₁.groups = st.db.groups) :
      Script.Along Write.exec Write.Enrols db₁ (st.ssoRows ssoHub u) := by
    refine ⟨trivial, fun db₂ h₂ => ?_⟩
    cases heveryone : st.db.defaultGroup? ssoHub with
    | none => trivial
    | some everyone =>
      refine ⟨⟨(isMember_of_insertHubMemberNew h₂).1, ?_⟩, fun _ _ => trivial⟩
      rw [Db.IsGroupOf, Write.untouched h₂ .groups rfl, hgroups]
      exact defaultGroup?_isGroupOf heveryone
  rw [Service.ssoWrites]
  split
  · exact ⟨trivial, fun db₁ h₁ => hrows (Write.untouched h₁ .groups rfl)⟩
  · exact ⟨trivial, fun db₁ h₁ => hrows (Write.untouched h₁ .groups rfl)⟩

/-- **An endpoint that is used with care**, wherever it stops. -/
theorem ApiCall.enrolled {ssoHub : I64} {st st' : Service} {a : ApiCall} (h : Enrolled st.db)
    (hcare : a.Enrols st.db) (hleaves : st' ∈ a.leaves ssoHub st) : Enrolled st'.db := by
  have hkeeps (db₁ : Db) (w : Write) (db₂ : Db) (h₁ : Enrolled db₁) (hw : w.Enrols db₁)
      (hexec : w.exec db₁ = some db₂) : Enrolled db₂ := Write.enrolled h₁ hw hexec
  cases a with
  | call c =>
    obtain ⟨db₁, hdb, rfl⟩ := List.mem_map.mp hleaves
    rcases Call.stops hdb with rfl | hhalf | ⟨account, hrun⟩
    · exact h
    · exact Call.halfway_enrolled h hhalf
    · exact (Script.stops_of_run (Call.run_writes hrun)).invariant hkeeps h
        (Call.along_enrols h hcare hrun)
  | setupAdmin body ids =>
    refine (ApiCall.stops_of_leaves hleaves).invariant hkeeps h ?_
    exact ⟨trivial, fun db₁ _ => along_setupRows ids⟩
  | ssoLogin x newUserId =>
    exact (ApiCall.stops_of_leaves hleaves).invariant hkeeps h along_ssoWrites

/-- **Members of groups are members of the hub.** Whatever endpoints are called, and wherever
they fail: if they are used with care, then in every state that is reached, who is in a group
in a hub is a member of the hub, and the group is one of it; so who is not a member of a hub
has no groups in it, no permissions, and no say in its channels. -/
theorem enrolled_of_reach {ssoHub : I64} {st : Service}
    (h : (hubApi ssoHub fun st => Enrolled st.db).Reach (fun st a => a.Enrols st.db) st) :
    (∀ mg ∈ st.db.memberGroups,
      (∃ m ∈ st.db.hubMembers, m.hubId = mg.hubId ∧ m.userId = mg.userId) ∧
        ∃ g ∈ st.db.groups, g.hubId = mg.hubId ∧ g.id = mg.groupId) ∧
    ∀ hubId userId, (∀ m ∈ st.db.hubMembers, ¬ (m.hubId = hubId ∧ m.userId = userId)) →
      st.db.groupsOf hubId userId = [] ∧
        ∀ channelId, st.db.channelPermsOf hubId channelId userId = [] := by
  have hst : Enrolled st.db := h.invariant (I := fun st => Enrolled st.db) (fun _ hinit => hinit)
    fun st a st' hI hcare hstep => ApiCall.enrolled hI hcare hstep
  refine ⟨fun mg hmem => ?_, fun hubId userId hno => ?_⟩
  · exact ⟨isMember_iff.mp (hst.member mg hmem), isGroupOf_iff.mp (hst.group mg hmem)⟩
  · have hnone (gid : I64) : ⟨hubId, userId, gid⟩ ∉ st.db.memberGroups := by
      intro hmem
      obtain ⟨m, hm, hid⟩ := isMember_iff.mp (hst.member _ hmem)
      exact hno m hm hid
    refine ⟨List.filter_eq_nil_iff.mpr fun g _ hg => ?_, fun channelId =>
      List.filter_eq_nil_iff.mpr fun cp _ hcp => ?_⟩
    · exact hnone _ (of_decide_eq_true hg).2
    · exact hnone _ (of_decide_eq_true hcp).2

end Statements

/-! ### A new installation -/

namespace Seed

theorem enrolled_emptyDb : Enrolled emptyDb where
  member := fun _ h => absurd h List.not_mem_nil
  group := fun _ h => absurd h List.not_mem_nil
  promised := fun _ _ h => absurd h List.not_mem_nil

/-- A run from an empty database. -/
def enrolRun (as : List ApiCall) : Service := as.foldl (Service.after hub) ⟨emptyDb, []⟩

/-- Alice sets up the hub, and makes a link with which a guest comes. -/
def guestComes : List ApiCall := [aliceSetsUp, aliceInvites everyone, gusJoins]

/-- The guest is a member of the hub, and in the default group. -/
theorem enrolled_of_reach_guestComes :
    ⟨hub, i64 1004, everyone⟩ ∈ (enrolRun guestComes).db.memberGroups ∧
    ∀ mg ∈ (enrolRun guestComes).db.memberGroups,
      (∃ m ∈ (enrolRun guestComes).db.hubMembers, m.hubId = mg.hubId ∧ m.userId = mg.userId) ∧
        ∃ g ∈ (enrolRun guestComes).db.groups, g.hubId = mg.hubId ∧ g.id = mg.groupId := by
  have hreach : (hubApi hub fun st => Enrolled st.db).Reach (fun st a => a.Enrols st.db)
      (enrolRun guestComes) := by
    refine System.Reach.foldl (fun st a => Service.after_mem hub st a) (.start enrolled_emptyDb) ?_
    exact ⟨trivial, fun _ => by decide +kernel, trivial, trivial⟩
  exact ⟨by decide +kernel, (enrolled_of_reach hreach).1⟩

/-- **A guest is in a group and not in the hub**: Alice puts the guest into the default group
before anybody has walked through the link. -/
theorem enrolled_before_joining : ∃ st, (hubApi hub fun st => st = ⟨emptyDb, []⟩).Reachable st ∧
    ∃ mg ∈ st.db.memberGroups,
      ∀ m ∈ st.db.hubMembers, ¬ (m.hubId = mg.hubId ∧ m.userId = mg.userId) := by
  refine ⟨enrolRun [aliceSetsUp, aliceInvites everyone,
    .call (.addMemberToGroup hub alice everyone (i64 1004))], ?_, ⟨hub, i64 1004, everyone⟩, ?_⟩
  · exact System.reachable_foldl rfl (fun st a => Service.after_mem hub st a) _
  · decide +kernel

end Seed

end Hub

end MateHub
