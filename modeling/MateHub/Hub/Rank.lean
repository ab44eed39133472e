import MateHub.Hub.Api
import MateHub.Hub.Privilege
import MateHub.Hub.Tenancy

/-!
# Ranks

A group has a position, and a lower one is a higher rank. Who manages whom depends on the
highest rank of each, and the endpoints that make, change, fill and clear groups compare the
position of the group with the caller's. They do not compare the position that a group is
moved to, nor the name that it is given, though the name `admin` stands above all ranks, and
the position of a new group may overflow. With these checks, members who are not admins
never rise above where the highest of them was at the start, and never come to manage
whom they could not manage then (`MateHub.Hub.rank_closed`).
-/

namespace MateHub

namespace Hub

open Chat (I64 i64)

namespace Db

variable (db : Db) (hubId : I64) (users : List I64)

/-- The lowest position of a group that some of the users are in. -/
def lowest : ℤ := topPosition (users.flatMap (db.groupsOf hubId))

/-- Some of the users may manage a user, by their positions. -/
def Manages (target : I64) : Prop := ∃ u ∈ users,
  (db.resolveUserPerms hubId u).canManagePosition (db.resolveTargetPosition hubId target) = true

instance (target : I64) : Decidable (db.Manages hubId users target) :=
  inferInstanceAs (Decidable (∃ u ∈ users, _))

end Db

/-- A position is an `i32`. -/
def IsI32 (n : ℤ) : Prop := -2 ^ 31 ≤ n ∧ n < 2 ^ 31

instance (n : ℤ) : Decidable (IsI32 n) := inferInstanceAs (Decidable (_ ∧ _))

/-- **Where some users and the others stand**: the users are no admins, and all their groups
are at a position or after it; the others have a group at the position or before it. -/
structure Ranked (hubId : I64) (users : List I64) (f : ℤ) (others : I64 → Prop) (db : Db) :
    Prop where
  keyed : Table.Keyed Group.id db.groups
  position : ∀ g ∈ db.groups, IsI32 g.position
  bound : f ≤ 2 ^ 31 - 1
  exist : ∀ u ∈ users, db.hasUser u = true
  low : ∀ u ∈ users, ∀ g ∈ db.groupsOf hubId u, g.name ≠ "admin" ∧ f ≤ g.position
  high : ∀ u, others u → db.resolveTargetPosition hubId u ≤ f

/-- What a statement must not do to the ranks. -/
def Write.Respects (hubId : I64) (users : List I64) (f : ℤ) (db : Db) : Write → Prop
  | insertGroup g => IsI32 g.position
  | updateGroup hub groupId body =>
    (∀ p ∈ body.position, IsI32 p) ∧ (hub = hubId →
      (∀ p ∈ body.position, f ≤ p ∧ ∀ g ∈ db.groups, g.id = groupId → f < g.position) ∧
      (body.name = some "admin" → ∀ u ∈ users, ⟨hubId, u, groupId⟩ ∉ db.memberGroups))
  | deleteGroup hub groupId => hub = hubId →
    ∀ g ∈ db.groups, g.id = groupId → f < g.position
  | insertMemberGroup mg => mg.hubId = hubId → mg.userId ∈ users →
    ∀ g ∈ db.groups, g.id = mg.groupId → g.hubId = hubId → g.name ≠ "admin" ∧ f ≤ g.position
  | deleteMemberGroup mg => mg.hubId = hubId →
    ∀ g ∈ db.groups, g.id = mg.groupId → f < g.position
  | deleteMemberGroups hub userId => hub = hubId → f < db.resolveTargetPosition hubId userId
  | _ => True

section Statements

variable {db db' : Db} {hubId u groupId : I64} {users : List I64} {f : ℤ} {others : I64 → Prop}
  {w : Write}

/-! ### What statements do to users and groups -/

/-- Users stay. -/
theorem Write.hasUser (hu : db.hasUser u = true) (hexec : w.exec db = some db') :
    db'.hasUser u = true := by
  have hsame := w.untouched hexec
  cases w with
  | insertUser user =>
    have hins := exec_insertUser_eq_some hexec
    rw [Db.insertUser] at hins
    split at hins
    · cases hins
    · obtain rfl := Except.ok.inj hins
      rw [Db.hasUser, List.any_cons, Bool.or_eq_true]
      exact .inr hu
  | expireUser userId now =>
    obtain rfl := Option.some.inj hexec
    obtain ⟨user, hmem, hid⟩ := List.any_eq_true.mp hu
    refine List.any_eq_true.mpr ⟨_, Table.mem_update.mpr ⟨user, hmem, rfl⟩, ?_⟩
    split <;> exact hid
  | setEmail userId email =>
    dsimp only [exec, Db.setEmail] at hexec
    split_ifs at hexec
    obtain rfl := Option.some.inj hexec
    obtain ⟨user, hmem, hid⟩ := List.any_eq_true.mp hu
    refine List.any_eq_true.mpr ⟨_, Table.mem_update.mpr ⟨user, hmem, rfl⟩, ?_⟩
    split <;> exact hid
  | _ => rwa [Db.hasUser, hsame .users rfl]

/-- **The groups of a user after a statement**: those before, one that the user is put into,
or one that is changed. -/
theorem Write.groupsOf_after {g : Group} (hexec : w.exec db = some db')
    (hg : g ∈ db'.groupsOf hubId u) : g ∈ db.groupsOf hubId u ∨
      (w = .insertMemberGroup ⟨hubId, u, g.id⟩ ∧ g ∈ db.groups ∧ g.hubId = hubId) ∨
      ∃ body, ∃ g₀ ∈ db.groupsOf hubId u, w = .updateGroup hubId g₀.id body ∧
        g = g₀.patch body.name body.color body.position body.hubPermissions := by
  have hsame := w.untouched hexec
  obtain ⟨hmem, hhub, hmg⟩ := Db.mem_groupsOf.mp hg
  cases w with
  | insertGroup g' =>
    obtain ⟨hgroups, hmembers, hfresh⟩ := Db.insertGroup_eq_some hexec
    rw [hmembers] at hmg
    rcases List.mem_cons.mp (hgroups ▸ hmem) with rfl | hmem
    · -- a new group has no members
      obtain ⟨g₁, hg₁, hid⟩ := db.fk_memberGroups _ hmg
      exact absurd hid (hfresh g₁ hg₁)
    · exact .inl (Db.mem_groupsOf.mpr ⟨hmem, hhub, hmg⟩)
  | updateGroup hub groupId body =>
    obtain rfl := Option.some.inj hexec
    obtain ⟨g₀, hg₀, heq⟩ := Table.mem_update.mp hmem
    split_ifs at heq with hp
    · obtain ⟨rfl, rfl⟩ := of_decide_eq_true hp
      subst heq
      obtain rfl : g₀.hubId = hubId := hhub
      exact .inr (.inr ⟨body, g₀, Db.mem_groupsOf.mpr ⟨hg₀, rfl, hmg⟩, rfl, rfl⟩)
    · exact .inl (Db.mem_groupsOf.mpr ⟨heq ▸ hg₀, hhub, hmg⟩)
  | insertMemberGroup mg =>
    obtain ⟨hgroups, hmembers⟩ := Db.insertMemberGroup_eq_some hexec
    rw [hgroups] at hmem
    rcases (hmembers _).mp hmg with heq | hmg
    · exact .inr (.inl ⟨congrArg _ heq.symm, hmem, hhub⟩)
    · exact .inl (Db.mem_groupsOf.mpr ⟨hmem, hhub, hmg⟩)
  | deleteGroup =>
    obtain rfl := Option.some.inj hexec
    exact .inl (Db.deleteGroupRow_shrinks.groupsOf hg)
  | deleteMemberGroup | deleteMemberGroups =>
    obtain rfl := Option.some.inj hexec
    exact .inl ((Db.deleteMemberGroups_shrinks _).groupsOf hg)
  | _ =>
    rw [hsame .groups rfl] at hmem
    rw [hsame .memberGroups rfl] at hmg
    exact .inl (Db.mem_groupsOf.mpr ⟨hmem, hhub, hmg⟩)

/-- Positions stay `i32`s. -/
theorem Ranked.position_after (h : Ranked hubId users f others db)
    (hw : w.Respects hubId users f db) (hexec : w.exec db = some db') :
    ∀ g ∈ db'.groups, IsI32 g.position := by
  have hsame := w.untouched hexec
  intro g hg
  cases w with
  | insertGroup g' =>
    rcases List.mem_cons.mp ((Db.insertGroup_eq_some hexec).1 ▸ hg) with rfl | hg
    · exact hw
    · exact h.position g hg
  | updateGroup hub groupId body =>
    obtain rfl := Option.some.inj hexec
    obtain ⟨g₀, hg₀, rfl⟩ := Table.mem_update.mp hg
    split
    · rw [Group.patch]
      cases hp : body.position with
      | none => exact h.position g₀ hg₀
      | some p => exact hw.1 p hp
    · exact h.position g₀ hg₀
  | deleteGroup =>
    obtain rfl := Option.some.inj hexec
    exact h.position g (Db.deleteGroupRow_shrinks.groups hg)
  | _ => exact h.position g (hsame .groups rfl ▸ hg)

/-- The users do not rise. -/
theorem Ranked.low_after (h : Ranked hubId users f others db)
    (hw : w.Respects hubId users f db) (hexec : w.exec db = some db') :
    ∀ u ∈ users, ∀ g ∈ db'.groupsOf hubId u, g.name ≠ "admin" ∧ f ≤ g.position := by
  intro u hu g hg
  rcases Write.groupsOf_after hexec hg with hold | ⟨rfl, hmem, hhub⟩ | ⟨body, g₀, hg₀, rfl, rfl⟩
  · exact h.low u hu g hold
  · exact hw rfl hu g hmem rfl hhub
  · obtain ⟨hname, hpos⟩ := h.low u hu g₀ hg₀
    obtain ⟨hmove, hrename⟩ := hw.2 rfl
    refine ⟨fun hadmin => ?_, ?_⟩
    · rw [Group.patch] at hadmin
      cases hbody : body.name with
      | none =>
        rw [hbody] at hadmin
        exact hname hadmin
      | some name =>
        rw [hbody] at hadmin
        exact hrename (hbody.trans (congrArg some hadmin)) u hu (Db.mem_groupsOf.mp hg₀).2.2
    · rw [Group.patch]
      cases hp : body.position with
      | none => exact hpos
      | some p => exact (hmove p hp).1

/-- **The others keep their rank**: a group at the position or before it stays where it is, and
stays theirs. -/
theorem Write.keeps_high (hkeyed : Table.Keyed Group.id db.groups)
    (hw : w.Respects hubId users f db) (hexec : w.exec db = some db') {g : Group}
    (hg : g ∈ db.groupsOf hubId u) (hpos : g.position ≤ f) :
    ∃ g' ∈ db'.groupsOf hubId u, g'.position ≤ f := by
  have hsame := w.untouched hexec
  obtain ⟨hmem, hhub, hmg⟩ := Db.mem_groupsOf.mp hg
  cases w with
  | insertGroup g' =>
    obtain ⟨hgroups, hmembers, -⟩ := Db.insertGroup_eq_some hexec
    refine ⟨g, Db.mem_groupsOf.mpr ⟨hgroups ▸ List.mem_cons_of_mem _ hmem, hhub, ?_⟩, hpos⟩
    exact hmembers ▸ hmg
  | updateGroup hub groupId body =>
    obtain rfl := Option.some.inj hexec
    refine ⟨_, Db.mem_groupsOf.mpr ⟨Table.mem_update.mpr ⟨g, hmem, rfl⟩, ?_, ?_⟩, ?_⟩
    · split <;> exact hhub
    · split <;> exact hmg
    · split
      · rename_i hp
        obtain ⟨rfl, rfl⟩ := of_decide_eq_true hp
        rw [Group.patch]
        cases hp : body.position with
        | none => exact hpos
        | some p =>
          have hlt := ((hw.2 hhub).1 p hp).2 g hmem rfl
          omega
      · exact hpos
  | deleteGroup hub groupId =>
    obtain rfl := Option.some.inj hexec
    rw [Db.deleteGroupRow]
    split
    · exact ⟨g, hg, hpos⟩
    · rename_i target htarget
      have hne : g.id ≠ groupId := by
        intro hid
        obtain ⟨htmem, htid, hthub⟩ := Table.of_find?_eq_some htarget
        obtain rfl := hkeyed.eq_of_key hmem htmem (hid.trans htid.symm)
        have hlt := hw (hthub.symm.trans hhub) g hmem hid
        omega
      refine ⟨g, Db.mem_groupsOf.mpr ⟨?_, hhub, ?_⟩, hpos⟩
      · exact Table.mem_delete.mpr ⟨hmem, decide_eq_false hne⟩
      · exact Table.mem_delete.mpr ⟨hmg, decide_eq_false hne⟩
  | insertMemberGroup mg =>
    obtain ⟨hgroups, hmembers⟩ := Db.insertMemberGroup_eq_some hexec
    exact ⟨g, Db.mem_groupsOf.mpr ⟨hgroups ▸ hmem, hhub, (hmembers _).mpr (.inr hmg)⟩, hpos⟩
  | deleteMemberGroup mg =>
    obtain rfl := Option.some.inj hexec
    refine ⟨g, Db.mem_groupsOf.mpr ⟨hmem, hhub, Table.mem_delete.mpr ⟨hmg, ?_⟩⟩, hpos⟩
    refine decide_eq_false fun heq => ?_
    subst heq
    have hlt := hw rfl g hmem rfl
    omega
  | deleteMemberGroups hub userId =>
    obtain rfl := Option.some.inj hexec
    refine ⟨g, Db.mem_groupsOf.mpr ⟨hmem, hhub, Table.mem_delete.mpr ⟨hmg, ?_⟩⟩, hpos⟩
    refine decide_eq_false fun heq => ?_
    obtain ⟨rfl, rfl⟩ := heq
    have hlt : f < db.resolveTargetPosition hubId u := hw rfl
    have hle : db.resolveTargetPosition hubId u ≤ g.position := Db.topPosition_le hg
    omega
  | _ =>
    refine ⟨g, Db.mem_groupsOf.mpr ⟨?_, hhub, ?_⟩, hpos⟩
    · exact hsame .groups rfl ▸ hmem
    · exact hsame .memberGroups rfl ▸ hmg

/-- **A statement that respects the ranks** leaves everyone where they stand. -/
theorem Write.ranked (h : Ranked hubId users f others db) (hw : w.Respects hubId users f db)
    (hexec : w.exec db = some db') : Ranked hubId users f others db' where
  keyed := keyed_groups h.keyed hexec
  position := h.position_after hw hexec
  bound := h.bound
  exist := fun u hu => hasUser (h.exist u hu) hexec
  low := h.low_after hw hexec
  high := fun u hu => by
    have hold := h.high u hu
    rcases Db.topPosition_cases (db.groupsOf hubId u) with ⟨-, hmax⟩ | ⟨g, hg, htop⟩
    · -- who has no group is at the end of the positions, and there everyone is
      have hf : f = 2 ^ 31 - 1 := by
        have hle := h.bound
        rw [Db.resolveTargetPosition, hmax] at hold
        omega
      rcases Db.topPosition_cases (db'.groupsOf hubId u) with ⟨-, hmax'⟩ | ⟨g', hg', htop'⟩
      · rw [Db.resolveTargetPosition, hmax', hf]
      · have hlt := (h.position_after hw hexec g' (Db.mem_groupsOf.mp hg').1).2
        rw [Db.resolveTargetPosition, htop', hf]
        omega
    · rw [Db.resolveTargetPosition, htop] at hold
      obtain ⟨g', hg', hpos'⟩ := keeps_high h.keyed hw hexec hg hold
      exact (Db.topPosition_le hg').trans hpos'

end Statements

/-! ### Calls -/

/-- Positions that are sent are `i32`s. -/
def Call.WellTyped : Call → Prop
  | .updateGroup _ _ _ body => ∀ p ∈ body.position, IsI32 p
  | _ => True

/-- **What is not checked**: that the next position is an `i32`, that a group is moved to a
position after the caller's own, that no user comes into a group called `admin`, by the
name or by the membership, and that a guest among the users finds no higher group. -/
def Call.RankChecked (hubId : I64) (users : List I64) (db : Db) : Call → Prop
  | .createGroup hub auth _ _ => hub = hubId →
    (db.resolveUserPerms hub auth).has Bits.manageRoles = true →
      ∀ g ∈ db.groups, g.hubId = hubId → g.position ≠ 2 ^ 31 - 1
  | .updateGroup hub auth groupId body => hub = hubId → ∀ target ∈ db.group? hub groupId,
    mayUpdate (db.resolveUserPerms hub auth) target body = true →
      (∀ p ∈ body.position, (db.resolveUserPerms hub auth).topPosition < p) ∧
      (body.name = some "admin" → ∀ u ∈ users, ⟨hubId, u, groupId⟩ ∉ db.memberGroups)
  | .addMemberToGroup hub auth groupId userId => hub = hubId → userId ∈ users →
    mayAssign db hub auth groupId = true → ∀ target ∈ db.group? hub groupId, target.name ≠ "admin"
  | .joinViaToken token now session =>
    ∀ mg ∈ (Call.joinViaToken token now session).joins db, mg.hubId = hubId → mg.userId ∈ users →
      ∀ g ∈ db.groups, g.id = mg.groupId → g.hubId = hubId →
        g.name ≠ "admin" ∧ db.lowest hubId users ≤ g.position
  | _ => True

/-- The caller. -/
def Call.auth? : Call → Option I64
  | .createGroup _ auth _ _ | .updateGroup _ auth _ _ | .deleteGroup _ auth _
  | .addMemberToGroup _ auth _ _ | .removeMemberFromGroup _ auth _ _
  | .setChannelPermission _ auth _ _ _ | .deleteChannelPermission _ auth _ _
  | .createChannel _ auth _ _ | .updateChannel _ auth _ _ | .deleteChannel _ auth _
  | .uploadIcon _ auth _ _ _ _ | .openDm _ auth _ _ | .kickMember _ auth _
  | .createTempUser _ auth _ _ _ _
  | .revokeTempUser _ auth _ _ | .createInviteLink _ auth _ _ _ _
  | .createInvitation _ _ auth _ _ _ | .deletePendingPermanent _ auth _
  | .deletePendingTemp _ auth _ _ | .deletePendingLink _ auth _ _ => some auth
  | .joinViaToken _ _ _ | .redeemInviteLink _ _ _ _ _ | .acceptInvitation _ _ _ _ => none

section Calls

variable {db db' : Db} {hubId u : I64} {users : List I64} {f : ℤ} {others : I64 → Prop}
  {call : Call} {account : Option I64}

theorem isI32_wrapI32 (n : ℤ) : IsI32 (wrapI32 n) := by
  rw [IsI32, wrapI32]
  omega

theorem Ranked.isAdmin (h : Ranked hubId users f others db) (hu : u ∈ users) :
    (db.resolveUserPerms hubId u).isAdmin = false := by
  rw [← Bool.not_eq_true, Db.isAdmin_iff]
  rintro ⟨g, hg, hhub, hname, hmg⟩
  exact (h.low u hu g (Db.mem_groupsOf.mpr ⟨hg, hhub, hmg⟩)).1 hname

theorem Ranked.le_top (h : Ranked hubId users f others db) (hu : u ∈ users) :
    f ≤ (db.resolveUserPerms hubId u).topPosition :=
  Db.le_topPosition h.bound fun g hg => (h.low u hu g hg).2

/-- **What a user manages** is after the position of the users. -/
theorem Ranked.lt_of_canManage {p : ℤ} (h : Ranked hubId users f others db) (hu : u ∈ users)
    (hcan : (db.resolveUserPerms hubId u).canManagePosition p = true) : f < p := by
  rw [UserPerms.canManagePosition, h.isAdmin hu, Bool.false_or, decide_eq_true_eq] at hcan
  exact (h.le_top hu).trans_lt hcan

theorem Ranked.le_lowest (h : Ranked hubId users f others db) : f ≤ db.lowest hubId users := by
  refine Db.le_topPosition h.bound fun g hg => ?_
  obtain ⟨u, hu, hg⟩ := List.mem_flatMap.mp hg
  exact (h.low u hu g hg).2

/-- The group of a hub with an id is the only one with the id. -/
theorem eq_of_group? {target g : Group} {groupId : I64}
    (hkeyed : Table.Keyed Group.id db.groups) (htarget : db.group? hubId groupId = some target)
    (hg : g ∈ db.groups) (hid : g.id = groupId) : g = target := by
  obtain ⟨hmem, htid, -⟩ := Table.of_find?_eq_some htarget
  exact hkeyed.eq_of_key hg hmem (hid.trans htid.symm)

/-- Several memberships of one user. -/
theorem respects_insertMemberGroups {hub userId : I64} {groupIds : List I64}
    (h : ∀ gid ∈ groupIds, hub = hubId → userId ∈ users → ∀ g ∈ db.groups, g.id = gid →
      g.hubId = hubId → g.name ≠ "admin" ∧ f ≤ g.position) :
    Script.Along Write.exec (Write.Respects hubId users f) db
      (insertMemberGroups hub userId groupIds) := by
  refine along_insertMemberGroups fun gid hgid db₁ hsame _ => ?_
  have hgid' := h gid hgid
  rwa [← hsame] at hgid'

/-- A registration of somebody else. -/
theorem respects_registerWrites {db₀ : Db} {hub userId : I64} {ids : I64 → List I64}
    (hnew : userId ∉ users) :
    Script.Along Write.exec (Write.Respects hubId users f) db
      (registerWrites db₀ hub userId ids) := by
  refine ⟨trivial, fun db₁ _ => ?_⟩
  cases db₀.defaultGroup? hub with
  | none => trivial
  | some everyone =>
    rw [Option.toList_some, List.flatMap_singleton]
    exact respects_insertMemberGroups fun gid _ _ hu => absurd hu hnew

/-- **The script of a call** of the users respects the ranks, if the call is accepted. -/
theorem Ranked.along_respects (h : Ranked hubId users f others db) (hby : call.By ⟨db, users⟩)
    (htyped : call.WellTyped) (hcare : call.RankChecked hubId users db)
    (hrun : call.run db = .ok (account, db')) :
    Script.Along Write.exec (Write.Respects hubId users f) db (call.writes db) := by
  cases call with
  | createGroup hub auth body nextId => exact ⟨isI32_wrapI32 _, fun _ _ => trivial⟩
  | updateGroup hub auth groupId body =>
    obtain ⟨-, p, hp, -⟩ := silent_eq_ok hrun
    simp only [Hub.updateGroup, require_eq_ok, found_eq_ok] at hp
    obtain ⟨target, htarget, hmay, -⟩ := hp
    refine ⟨⟨htyped, ?_⟩, fun _ _ => trivial⟩
    rintro rfl
    obtain ⟨hmove, hrename⟩ := hcare rfl target htarget hmay
    refine ⟨fun p hp => ⟨?_, fun g hg hid => ?_⟩, hrename⟩
    · exact (h.le_top hby).trans (hmove p hp).le
    · obtain rfl := eq_of_group? h.keyed htarget hg hid
      rw [mayUpdate, hp] at hmay
      split_ifs at hmay
      · cases hmay
      · rw [Bool.and_eq_true, Bool.and_eq_true] at hmay
        exact h.lt_of_canManage hby hmay.1.2
  | deleteGroup hub auth groupId =>
    obtain ⟨-, p, hp, -⟩ := silent_eq_ok hrun
    simp only [Hub.deleteGroup, require_eq_ok, found_eq_ok] at hp
    obtain ⟨-, target, htarget, -, hcan, -⟩ := hp
    refine ⟨?_, fun _ _ => trivial⟩
    rintro rfl g hg hid
    obtain rfl := eq_of_group? h.keyed htarget hg hid
    exact h.lt_of_canManage hby hcan
  | addMemberToGroup hub auth groupId userId =>
    obtain ⟨-, p, hp, -⟩ := silent_eq_ok hrun
    have hmay := (addMemberToGroup_eq_ok hp).1
    simp only [Hub.addMemberToGroup, require_eq_ok, found_eq_ok] at hp
    obtain ⟨-, target, htarget, hcan, -⟩ := hp
    refine ⟨?_, fun _ _ => trivial⟩
    rintro rfl hu g hg hid -
    obtain rfl := eq_of_group? h.keyed htarget hg hid
    exact ⟨hcare rfl hu hmay g htarget, (h.lt_of_canManage hby hcan).le⟩
  | removeMemberFromGroup hub auth groupId userId =>
    obtain ⟨-, p, hp, -⟩ := silent_eq_ok hrun
    simp only [Hub.removeMemberFromGroup, require_eq_ok, found_eq_ok] at hp
    obtain ⟨-, target, htarget, hcan, -⟩ := hp
    refine ⟨?_, fun _ _ => trivial⟩
    rintro rfl g hg hid
    obtain rfl := eq_of_group? h.keyed htarget hg hid
    exact h.lt_of_canManage hby hcan
  | kickMember hub auth userId =>
    obtain ⟨-, p, hp, -⟩ := silent_eq_ok hrun
    simp only [Hub.kickMember, require_eq_ok] at hp
    refine ⟨?_, fun _ _ => ⟨trivial, fun _ _ => trivial⟩⟩
    rintro rfl
    exact h.lt_of_canManage hby hp.2.2.2.1
  | joinViaToken token now session =>
    dsimp only [Call.writes]
    dsimp only [Call.RankChecked, Call.joins] at hcare
    cases ht : joinRow? db token now with
    | none => trivial
    | some t =>
      cases heveryone : db.defaultGroup? t.hubId with
      | none =>
        rw [Option.toList_some, List.flatMap_singleton, heveryone]
        trivial
      | some everyone =>
        rw [ht] at hcare
        dsimp only at hcare
        rw [heveryone, Option.toList_some, List.flatMap_singleton] at hcare
        rw [Option.toList_some, List.flatMap_singleton, heveryone, Option.toList_some,
          List.flatMap_singleton]
        refine ⟨trivial, fun db₁ hexec => Script.along_append.mpr ⟨?_, fun _ _ => ?_⟩⟩
        · refine respects_insertMemberGroups fun gid hgid hhub hu g hg hid hghub => ?_
          have hgroups : db₁.groups = db.groups := Write.untouched hexec .groups rfl
          have hjoin : (⟨t.hubId, t.userId, gid⟩ : MemberGroup) ∈
              ([⟨t.hubId, t.userId, everyone.id⟩, ⟨t.hubId, t.userId, t.groupId⟩] :
                List MemberGroup) := by
            rcases List.mem_pair.mp hgid with rfl | rfl
            · exact List.mem_cons_self
            · exact List.mem_cons_of_mem _ List.mem_cons_self
          obtain ⟨hname, hpos⟩ := hcare _ hjoin hhub hu g (hgroups ▸ hg) hid hghub
          exact ⟨hname, h.le_lowest.trans hpos⟩
        · exact ⟨trivial, fun _ _ => trivial⟩
  | redeemInviteLink parses token body now nextId =>
    obtain ⟨p, hp, -⟩ := gives_eq_ok hrun
    obtain ⟨l, everyone, hl, -, -, -, hfresh, -⟩ := redeemInviteLink_ok hp
    have hnew : nextId ∉ users := fun hu => by
      obtain ⟨user, hmem, hid⟩ := List.any_eq_true.mp (h.exist nextId hu)
      exact hfresh user hmem (of_decide_eq_true hid)
    rw [Call.writes, hl, Option.toList_some, List.flatMap_singleton]
    exact ⟨trivial, fun _ _ => ⟨trivial, fun _ _ => respects_registerWrites hnew⟩⟩
  | acceptInvitation token body now nextId =>
    obtain ⟨p, hp, -⟩ := gives_eq_ok hrun
    obtain ⟨i, everyone, hi, -, -, -, hfresh, -⟩ := acceptInvitation_ok hp
    have hnew : nextId ∉ users := fun hu => by
      obtain ⟨user, hmem, hid⟩ := List.any_eq_true.mp (h.exist nextId hu)
      exact hfresh user hmem (of_decide_eq_true hid)
    rw [Call.writes, hi, Option.toList_some, List.flatMap_singleton]
    refine ⟨trivial, fun _ _ => Script.along_append.mpr ⟨respects_registerWrites hnew, ?_⟩⟩
    exact fun _ _ => ⟨trivial, fun _ _ => trivial⟩
  | createChannel hub auth body nextId =>
    refine ⟨trivial, fun _ _ => Script.along_of_forall fun w hw _ => ?_⟩
    obtain ⟨g, -, rfl⟩ := List.mem_map.mp hw
    trivial
  | openDm hub auth other nextId =>
    dsimp only [Call.writes]
    split
    · exact ⟨trivial, fun _ _ => ⟨trivial, fun _ _ => trivial⟩⟩
    · exact ⟨trivial, fun _ _ => ⟨trivial, fun _ _ => ⟨trivial, fun _ _ => trivial⟩⟩⟩
  | createTempUser | revokeTempUser | deletePendingTemp =>
    exact ⟨trivial, fun _ _ => ⟨trivial, fun _ _ => trivial⟩⟩
  | _ => exact ⟨trivial, fun _ _ => trivial⟩

/-- **The first statement** of a call that fails halfway. -/
theorem Ranked.halfway (h : Ranked hubId users f others db) (hby : call.By ⟨db, users⟩)
    (hhalf : db' ∈ call.halfway db) : Ranked hubId users f others db' := by
  cases call with
  | createChannel hub auth body nextId =>
    dsimp only [Call.halfway] at hhalf
    split_ifs at hhalf
    · exact Write.ranked (w := .insertChannel _) h trivial hhalf
    · cases hhalf
  | kickMember hub auth userId =>
    dsimp only [Call.halfway] at hhalf
    split_ifs at hhalf with hmay
    · rw [Call.mayKick, Bool.and_eq_true] at hmay
      refine Write.ranked (w := .deleteMemberGroups hub userId) h ?_ hhalf
      rintro rfl
      exact h.lt_of_canManage hby hmay.2
    · cases hhalf
  | _ => cases hhalf

/-- **A call of the users**, wherever it stops. -/
theorem Ranked.leaves (h : Ranked hubId users f others db) (hby : call.By ⟨db, users⟩)
    (htyped : call.WellTyped) (hcare : call.RankChecked hubId users db)
    (hleaves : db' ∈ call.leaves db) : Ranked hubId users f others db' := by
  rcases Call.stops hleaves with rfl | hhalf | ⟨account, hrun⟩
  · exact h
  · exact h.halfway hby hhalf
  · have hkeeps (db₁ : Db) (w : Write) (db₂ : Db) (h₁ : Ranked hubId users f others db₁)
        (hw : w.Respects hubId users f db₁) (hexec : w.exec db₁ = some db₂) :
        Ranked hubId users f others db₂ := Write.ranked h₁ hw hexec
    exact (Script.stops_of_run (Call.run_writes hrun)).invariant hkeeps h
      (h.along_respects hby htyped hcare hrun)

/-! ### Where groups are put -/

/-- The calls that write to groups. -/
def Call.editsGroups : Call → Bool
  | .createGroup _ _ _ _ | .updateGroup _ _ _ _ | .deleteGroup _ _ _ => true
  | _ => false

theorem Call.touches_groups {w : Write} (hedits : call.editsGroups = false)
    (hw : w ∈ call.writes db) : w.touches .groups = false := by
  cases call with
  | createGroup | updateGroup | deleteGroup => cases hedits
  | joinViaToken =>
    rcases Call.mem_writes_joinViaToken hw with ⟨_, rfl⟩ | ⟨_, rfl⟩ | ⟨_, rfl⟩ <;> rfl
  | redeemInviteLink =>
    rcases Call.mem_writes_redeemInviteLink hw with ⟨_, rfl⟩ | ⟨_, rfl⟩ | ⟨_, rfl⟩ | ⟨_, rfl⟩ <;>
      rfl
  | acceptInvitation =>
    rcases Call.mem_writes_acceptInvitation hw with ⟨_, rfl⟩ | (⟨_, rfl⟩ | ⟨_, rfl⟩) | ⟨_, rfl⟩ <;>
      rfl
  | createChannel => rcases Call.mem_writes_createChannel hw with ⟨_, rfl⟩ | ⟨_, rfl⟩ <;> rfl
  | openDm => rcases Call.mem_writes_openDm hw with ⟨_, rfl⟩ | ⟨_, _, rfl⟩ <;> rfl
  | kickMember | createTempUser | revokeTempUser | deletePendingTemp =>
    rcases List.mem_pair.mp hw with rfl | rfl <;> rfl
  | _ =>
    rw [List.mem_singleton.mp hw]
    rfl

/-- The other calls leave the groups. -/
theorem Call.groups_eq (hedits : call.editsGroups = false) (hleaves : db' ∈ call.leaves db) :
    db'.groups = db.groups := by
  obtain ⟨ws, hpre, hrun⟩ := Call.stops_of_leaves hleaves
  exact Write.run_untouched (r := .groups) hrun fun w hw =>
    Call.touches_groups hedits (hpre.subset hw)

/-- The position of a new group. -/
theorem Ranked.lt_newPos (h : Ranked hubId users f others db)
    (hhas : (db.resolveUserPerms hubId u).has Bits.manageRoles = true)
    (hroom : ∀ g ∈ db.groups, g.hubId = hubId → g.position ≠ 2 ^ 31 - 1) :
    (db.resolveUserPerms hubId u).topPosition < wrapI32 ((((db.groups.filter fun g =>
      decide (g.hubId = hubId)).map Group.position).max?).getD 0 + 1) := by
  -- who has a permission is in a group
  rcases Db.topPosition_cases (db.groupsOf hubId u) with ⟨hnil, -⟩ | ⟨g, hg, htop⟩
  · rw [Db.has_eq_false hnil (by decide)] at hhas
    cases hhas
  · obtain ⟨hmem, hhub, -⟩ := Db.mem_groupsOf.mp hg
    have hin : g.position ∈ (db.groups.filter fun g => decide (g.hubId = hubId)).map
        Group.position := List.mem_map_of_mem (List.mem_filter.mpr ⟨hmem, decide_eq_true hhub⟩)
    rcases hmax : ((db.groups.filter fun g => decide (g.hubId = hubId)).map
        Group.position).max? with _ | m
    · rw [List.max?_eq_none_iff] at hmax
      exact absurd hin (hmax ▸ List.not_mem_nil)
    · obtain ⟨hm, hle⟩ := List.max?_eq_some_iff.mp hmax
      obtain ⟨g', hg', rfl⟩ := List.mem_map.mp hm
      obtain ⟨hmem', hhub'⟩ := List.mem_filter.mp hg'
      obtain ⟨hlow, hhigh⟩ := h.position g' hmem'
      have hne := hroom g' hmem' (of_decide_eq_true hhub')
      have hgle := hle _ hin
      have htop' : (db.resolveUserPerms hubId u).topPosition = g.position := htop
      rw [hmax, Option.getD_some, wrapI32, htop']
      omega

/-- **A group that is new or moved** is after the position of who does it. -/
theorem Ranked.lt_of_placed (h : Ranked hubId users f others db) (hby : call.By ⟨db, users⟩)
    (hcare : call.RankChecked hubId users db) (hleaves : db' ∈ call.leaves db) {auth : I64}
    (hauth : auth ∈ call.auth?) {g' : Group} (hg' : g' ∈ db'.groups) (hhub : g'.hubId = hubId)
    (hplaced : ∀ g ∈ db.groups, g.id = g'.id → g.position ≠ g'.position) :
    (db.resolveUserPerms hubId auth).topPosition < g'.position := by
  have hnew : g' ∉ db.groups := fun hmem => hplaced g' hmem rfl rfl
  cases call with
  | createGroup hub caller body nextId =>
    obtain rfl := Option.some.inj hauth
    rcases Call.stops hleaves with rfl | hhalf | ⟨account, hrun⟩
    · exact absurd hg' hnew
    · cases hhalf
    · obtain ⟨-, p, hp, rfl⟩ := silent_eq_ok hrun
      simp only [Hub.createGroup, require_eq_ok, found_eq_ok] at hp
      obtain ⟨hhas, -, db₁, hins, hr⟩ := hp
      obtain rfl := Except.ok.inj hr
      rcases List.mem_cons.mp ((Db.insertGroup_eq_some hins).1 ▸ hg') with rfl | hmem
      · obtain rfl : hub = hubId := hhub
        exact h.lt_newPos hhas (hcare rfl hhas)
      · exact absurd hmem hnew
  | updateGroup hub caller groupId body =>
    obtain rfl := Option.some.inj hauth
    rcases Call.stops hleaves with rfl | hhalf | ⟨account, hrun⟩
    · exact absurd hg' hnew
    · cases hhalf
    · obtain ⟨-, p, hp, rfl⟩ := silent_eq_ok hrun
      obtain ⟨-, hrow, -⟩ := updateGroup_ok hp
      simp only [Hub.updateGroup, require_eq_ok, found_eq_ok] at hp
      obtain ⟨target, htarget, hmay, -⟩ := hp
      rw [hrow] at hg'
      obtain ⟨g, hg, heq⟩ := Table.mem_update.mp hg'
      split_ifs at heq with hrowid
      · obtain ⟨-, rfl⟩ := of_decide_eq_true hrowid
        subst heq
        obtain rfl : g.hubId = hubId := hhub
        cases hpos : body.position with
        | none =>
          refine absurd ?_ (hplaced g hg rfl)
          rw [Group.patch, hpos]
          rfl
        | some p => exact (hcare rfl target htarget hmay).1 p hpos
      · exact absurd (heq ▸ hg) hnew
  | deleteGroup hub caller groupId =>
    rcases Call.stops hleaves with rfl | hhalf | ⟨account, hrun⟩
    · exact absurd hg' hnew
    · cases hhalf
    · obtain ⟨-, p, hp, rfl⟩ := silent_eq_ok hrun
      exact absurd ((deleteGroup_shrinks hp).groups hg') hnew
  | _ => exact absurd (Call.groups_eq rfl hleaves ▸ hg') hnew

/-! ### Runs -/

/-- The calls, one after another, each of which may fail at any statement. -/
def hubCalls (db₀ : Db) : System Db Call where
  init db := db = db₀
  step db call db' := db' ∈ call.leaves db

/-- Who cannot be managed is at the position of the users or before it. -/
theorem le_lowest_of_not_manages {target : I64} (hpos : ∀ g ∈ db.groups, IsI32 g.position)
    (hno : ¬ db.Manages hubId users target) :
    db.resolveTargetPosition hubId target ≤ db.lowest hubId users := by
  have hmax : db.resolveTargetPosition hubId target ≤ 2 ^ 31 - 1 := by
    rcases Db.topPosition_cases (db.groupsOf hubId target) with ⟨-, htop⟩ | ⟨g, hg, htop⟩
    · exact htop.le
    · have hlt := (hpos g (Db.mem_groupsOf.mp hg).1).2
      rw [Db.resolveTargetPosition, htop]
      omega
  have hle {u : I64} (hu : u ∈ users) : db.resolveTargetPosition hubId target ≤
      (db.resolveUserPerms hubId u).topPosition := by
    by_contra hlt
    refine hno ⟨u, hu, ?_⟩
    rw [UserPerms.canManagePosition, decide_eq_true (not_le.mp hlt), Bool.or_true]
  refine Db.le_topPosition hmax fun g hg => ?_
  obtain ⟨u, hu, hg⟩ := List.mem_flatMap.mp hg
  exact (hle hu).trans (Db.topPosition_le hg)

/-- **Rank closure.** Some members of a hub, none of them an admin, call what they like, and
each call may fail at any statement. As long as their calls are checked, none of their groups
comes to be higher than the highest was at the start; no group that one of them makes or
moves is at the position of the one or before it; and whom they could not manage at the
start they cannot manage later. -/
theorem rank_closed {db₀ : Db} (hkeyed : Table.Keyed Group.id db₀.groups)
    (hpos : ∀ g ∈ db₀.groups, IsI32 g.position) (hexist : ∀ u ∈ users, db₀.hasUser u = true)
    (hno : ∀ u ∈ users, (db₀.resolveUserPerms hubId u).isAdmin = false)
    (hreach : (hubCalls db₀).Reach (fun db call => call.By ⟨db, users⟩ ∧ call.WellTyped ∧
      call.RankChecked hubId users db) db) :
    db₀.lowest hubId users ≤ db.lowest hubId users ∧
    (∀ (call : Call) (db' : Db), call.By ⟨db, users⟩ → call.RankChecked hubId users db →
      db' ∈ call.leaves db → ∀ auth ∈ call.auth?, ∀ g' ∈ db'.groups, g'.hubId = hubId →
        (∀ g ∈ db.groups, g.id = g'.id → g.position ≠ g'.position) →
          (db.resolveUserPerms hubId auth).topPosition < g'.position) ∧
    ∀ target, ¬ db₀.Manages hubId users target → ¬ db.Manages hubId users target := by
  have hst : Ranked hubId users (db₀.lowest hubId users)
      (fun u => db₀.resolveTargetPosition hubId u ≤ db₀.lowest hubId users) db := by
    refine hreach.invariant (I := Ranked _ _ _ _) ?_ ?_
    · rintro db₀ rfl
      refine ⟨hkeyed, hpos, ?_, hexist, fun u hu g hg => ⟨fun hname => ?_, ?_⟩, fun _ hu => hu⟩
      · rcases Db.topPosition_cases (users.flatMap (db₀.groupsOf hubId)) with
          ⟨-, htop⟩ | ⟨g, hg, htop⟩
        · exact htop.le
        · obtain ⟨u, -, hg⟩ := List.mem_flatMap.mp hg
          have hlt := (hpos g (Db.mem_groupsOf.mp hg).1).2
          rw [Db.lowest, htop]
          omega
      · obtain ⟨hmem, hhub, hmg⟩ := Db.mem_groupsOf.mp hg
        have hadmin := Db.isAdmin_iff.mpr ⟨g, hmem, hhub, hname, hmg⟩
        rw [hno u hu] at hadmin
        cases hadmin
      · exact Db.topPosition_le (List.mem_flatMap.mpr ⟨u, hu, hg⟩)
    · rintro db call db' h ⟨hby, htyped, hcare⟩ hstep
      exact h.leaves hby htyped hcare hstep
  refine ⟨hst.le_lowest, fun call db' hby hcare hleaves auth hauth g' hg' hhub hplaced =>
    hst.lt_of_placed hby hcare hleaves hauth hg' hhub hplaced, fun target hcannot hcan => ?_⟩
  obtain ⟨u, hu, hcan⟩ := hcan
  have hlt := hst.lt_of_canManage hu hcan
  have hle := hst.high target
    (le_lowest_of_not_manages hpos hcannot)
  omega

end Calls

/-- What a call leaves if it does not fail. -/
def Db.after (db : Db) (call : Call) : Db := (call.leaves db).getLast?.getD db

theorem Db.after_mem (db : Db) (call : Call) : db.after call ∈ call.leaves db := by
  rw [after]
  cases hlast : (call.leaves db).getLast? with
  | none => exact List.mem_cons_self
  | some db' => exact List.mem_of_getLast? hlast

/-! ### A moderator -/

namespace Seed

def mods : I64 := i64 2004
def staff : I64 := i64 2005
def fans : I64 := i64 2006

/-- Bob is a moderator, and a fan; Charlie is of the staff, above the moderators. -/
def ranksSeed : Db where
  hubs := devSeed.hubs
  users := devSeed.users
  hubMembers := devSeed.hubMembers
  groups := ⟨mods, hub, "mods", none, 5, false, Bits.manageRoles ||| Bits.manageMembers⟩ ::
    ⟨staff, hub, "staff", none, 3, false, 0⟩ :: ⟨fans, hub, "fans", none, 10, false, 0⟩ ::
      devSeed.groups
  memberGroups := ⟨hub, bob, mods⟩ :: ⟨hub, bob, fans⟩ :: ⟨hub, charlie, staff⟩ ::
    devSeed.memberGroups
  channels := []
  channelPermissions := []
  dmParticipants := []
  tempUsers := []
  invitations := []
  inviteLinks := []
  fk_memberGroups := by decide
  fk_memberUsers := by decide
  pk_channels := emptyDb.pk_channels

/-- Bob makes a group, puts Charlie into it, and moves another one. -/
def bobReorders : List Call :=
  [.createGroup hub bob ⟨"club", none, none⟩ (i64 2007),
    .addMemberToGroup hub bob (i64 2007) charlie,
    .updateGroup hub bob fans ⟨none, none, some 50, none⟩]

/-- He is where he was, and Charlie still above him. -/
theorem rank_closed_bobReorders :
    ⟨hub, charlie, i64 2007⟩ ∈ (bobReorders.foldl Db.after ranksSeed).memberGroups ∧
    ranksSeed.lowest hub [bob] ≤ (bobReorders.foldl Db.after ranksSeed).lowest hub [bob] ∧
    ¬ (bobReorders.foldl Db.after ranksSeed).Manages hub [bob] charlie := by
  have hreach : (hubCalls ranksSeed).Reach (fun db call => call.By ⟨db, [bob]⟩ ∧ call.WellTyped ∧
      call.RankChecked hub [bob] db) (bobReorders.foldl Db.after ranksSeed) := by
    refine System.Reach.foldl (fun db call => Db.after_mem db call) (.start rfl) ?_
    refine ⟨⟨List.mem_cons_self, trivial, ?_⟩, ⟨List.mem_cons_self, trivial, ?_⟩,
      ⟨List.mem_cons_self, ?_, ?_⟩, trivial⟩
    · exact fun _ _ => by decide
    · exact fun _ hmem => absurd hmem (by decide)
    · rintro _ ⟨⟩
      decide
    · intro _ target _ _
      refine ⟨?_, fun hname => (by cases hname)⟩
      rintro _ ⟨⟩
      decide +kernel
  obtain ⟨hlow, -, hmanages⟩ := rank_closed (by decide) (by decide) (by decide) (by decide) hreach
  exact ⟨by decide +kernel, hlow, hmanages charlie (by decide)⟩

/-- **Bob rises**: he moves a group that he is in above his own position, and then manages
Charlie, whom he could not manage before. -/
theorem bob_rises : (ranksSeed.resolveUserPerms hub bob).isAdmin = false ∧
    ¬ ranksSeed.Manages hub [bob] charlie ∧
    ∃ db, (hubCalls ranksSeed).Reach (fun db call => call.By ⟨db, [bob]⟩ ∧ call.WellTyped) db ∧
      db.lowest hub [bob] < ranksSeed.lowest hub [bob] ∧ db.Manages hub [bob] charlie := by
  refine ⟨by decide, by decide, ranksSeed.after (.updateGroup hub bob fans
    ⟨none, none, some 1, none⟩), ?_, by decide +kernel, by decide +kernel⟩
  refine .step (.start rfl) ⟨List.mem_cons_self, ?_⟩ (Db.after_mem _ _)
  rintro _ ⟨⟩
  decide

end Seed

end Hub

end MateHub
