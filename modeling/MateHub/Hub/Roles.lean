import MateHub.Hub.Tenancy

/-!
# The built-in groups and the creator

A setup makes two groups, of which one is the admin group of the hub and the other the
default group, and puts the creator into both. Who is an admin is decided by the name of a
group, though, and names can be edited: anyone may rename the admin group, and whoever makes
groups may call one `admin`. And where the query for the creator fails, the answer is taken
to be no. If neither happens, the roles are what they were made to be
(`MateHub.Hub.roles_of_reach`).
-/

namespace MateHub

namespace Hub

open Chat (I64 i64)

/-! ### A query that fails -/

/-- `remove_member_from_group`, with the answer of the query for the creator, if it does not
fail. -/
def removeMemberFromGroupWith (creator : Option Bool) (db : Db) (hubId auth groupId userId : I64) :
    Reply Unit :=
  let caller := db.resolveUserPerms hubId auth
  require (caller.has Bits.manageRoles) (.status .forbidden) <|
  found (db.group? hubId groupId) (.status .notFound) fun target =>
  require (caller.canManagePosition target.position) (.status .forbidden) <|
  require (!(target.name == "admin" && creator.getD false)) (.status .forbidden) <|
  .ok ((), db.deleteMemberGroups fun mg => decide (mg = ⟨hubId, userId, groupId⟩))

/-- `kick_member`, with the answer of the query for the creator, if it does not fail. -/
def kickMemberWith (creator : Option Bool) (db : Db) (hubId auth userId : I64) : Reply Unit :=
  let caller := db.resolveUserPerms hubId auth
  require (caller.has Bits.manageMembers) (.status .forbidden) <|
  require (auth != userId) (.status .badRequest) <|
  require (!creator.getD false) (.status .forbidden) <|
  require (caller.canManagePosition (db.resolveTargetPosition hubId userId))
    (.status .forbidden) <|
  let db := db.deleteMemberGroups fun mg => decide (mg.hubId = hubId ∧ mg.userId = userId)
  .ok ((), db.deleteHubMember hubId userId)

theorem removeMemberFromGroupWith_some (db : Db) (hubId auth groupId userId : I64) :
    removeMemberFromGroupWith (some (db.isCreator hubId userId)) db hubId auth groupId userId =
      removeMemberFromGroup db hubId auth groupId userId := rfl

theorem kickMemberWith_some (db : Db) (hubId auth userId : I64) :
    kickMemberWith (some (db.isCreator hubId userId)) db hubId auth userId =
      kickMember db hubId auth userId := rfl

/-- What a call leaves whose query for the creator fails. -/
def Call.blindLeaves (db : Db) : Call → List Db
  | removeMemberFromGroup hubId auth groupId userId =>
    db :: match removeMemberFromGroupWith none db hubId auth groupId userId with
      | .ok (_, db') => [db']
      | .error _ => []
  | kickMember hubId auth userId =>
    db :: match kickMemberWith none db hubId auth userId with
      | .ok (_, db') =>
        [db.deleteMemberGroups fun mg => decide (mg.hubId = hubId ∧ mg.userId = userId), db']
      | .error _ => []
  | c => c.leaves db

/-- An operation: an endpoint, or a call whose query for the creator fails. -/
inductive Op
  | api (a : ApiCall)
  | blind (c : Call)

/-- What an operation may leave. -/
def Op.leaves (ssoHub : I64) (st : Service) : Op → List Service
  | api a => a.leaves ssoHub st
  | blind c => (c.blindLeaves st.db).map fun db => { st with db := db }

/-! ### Roles -/

/-- The built-in groups of a hub and its creator, as a setup makes them. -/
structure BuiltIn where
  hub : I64
  admin : I64
  everyone : I64
  creator : I64
  position : ℤ
  hubPermissions : Bits

/-- **The roles of a hub are what they were made to be**: the admin group is there, as it was,
and the only one with its name; the default group is there, and the only one; and the
creator is a member, in the admin group. -/
structure Holds (b : BuiltIn) (db : Db) : Prop where
  admin : ∃ g ∈ db.groups, g.id = b.admin ∧ g.hubId = b.hub ∧ g.name = "admin" ∧
    g.position = b.position ∧ g.hubPermissions = b.hubPermissions
  onlyAdmin : ∀ g ∈ db.groups, g.hubId = b.hub → g.name = "admin" → g.id = b.admin
  everyone : ∃ g ∈ db.groups, g.id = b.everyone ∧ g.hubId = b.hub ∧ g.isDefault = true
  onlyEveryone : ∀ g ∈ db.groups, g.hubId = b.hub → g.isDefault = true → g.id = b.everyone
  creator : ∃ h ∈ db.hubs, h.id = b.hub ∧ h.creatorId = some b.creator
  member : db.IsMember b.hub b.creator
  inAdmin : ⟨b.hub, b.creator, b.admin⟩ ∈ db.memberGroups

/-- What a statement must not do to the roles of a hub. -/
def Write.SparesRoles (b : BuiltIn) : Write → Prop
  | insertGroup g => g.hubId = b.hub → g.name ≠ "admin" ∧ g.isDefault = false
  | updateGroup hubId groupId body => hubId = b.hub →
    if groupId = b.admin then
      (∀ name ∈ body.name, name = "admin") ∧ body.position = none ∧ body.hubPermissions = none
    else body.name ≠ some "admin"
  | deleteGroup hubId groupId => hubId = b.hub → groupId ≠ b.admin ∧ groupId ≠ b.everyone
  | deleteMemberGroup mg => mg ≠ ⟨b.hub, b.creator, b.admin⟩
  | deleteMemberGroups hubId userId => ¬ (hubId = b.hub ∧ userId = b.creator)
  | deleteHubMember hubId userId => ¬ (hubId = b.hub ∧ userId = b.creator)
  | _ => True

section Statements

variable {db db' : Db} {b : BuiltIn} {w : Write}

/-- **Who is an admin** is decided by the membership of the admin group. -/
theorem Holds.isAdmin_iff (h : Holds b db) (u : I64) :
    (db.resolveUserPerms b.hub u).isAdmin = true ↔ ⟨b.hub, u, b.admin⟩ ∈ db.memberGroups := by
  rw [Db.isAdmin_iff]
  constructor
  · rintro ⟨g, hg, hhub, hname, hmg⟩
    rwa [← h.onlyAdmin g hg hhub hname]
  · intro hmg
    obtain ⟨g, hg, hid, hhub, hname, -⟩ := h.admin
    exact ⟨g, hg, hhub, hname, hid ▸ hmg⟩

/-- The groups are the same, and nobody goes. -/
theorem Holds.of_groups (h : Holds b db) (hgroups : db'.groups = db.groups)
    (hhubs : db.hubs ⊆ db'.hubs) (hmember : db'.IsMember b.hub b.creator)
    (hadmin : ⟨b.hub, b.creator, b.admin⟩ ∈ db'.memberGroups) : Holds b db' where
  admin := hgroups ▸ h.admin
  onlyAdmin := hgroups ▸ h.onlyAdmin
  everyone := hgroups ▸ h.everyone
  onlyEveryone := hgroups ▸ h.onlyEveryone
  creator := h.creator.imp fun _ hrow => ⟨hhubs hrow.1, hrow.2⟩
  member := hmember
  inAdmin := hadmin

/-- A group is new. -/
theorem Holds.insertGroup (h : Holds b db) {g : Group} (hw : (Write.insertGroup g).SparesRoles b)
    (hexec : db.insertGroup g = some db') : Holds b db' := by
  have hsame := Write.untouched (w := .insertGroup g) hexec
  obtain ⟨hgroups, hmembers, -⟩ := Db.insertGroup_eq_some hexec
  refine ⟨?_, fun g' hg' hhub hname => ?_, ?_, fun g' hg' hhub hdefault => ?_, ?_, ?_, ?_⟩
  · exact h.admin.imp fun _ hrow => ⟨hgroups ▸ List.mem_cons_of_mem _ hrow.1, hrow.2⟩
  · rcases List.mem_cons.mp (hgroups ▸ hg') with rfl | hg'
    · exact absurd hname (hw hhub).1
    · exact h.onlyAdmin g' hg' hhub hname
  · exact h.everyone.imp fun _ hrow => ⟨hgroups ▸ List.mem_cons_of_mem _ hrow.1, hrow.2⟩
  · rcases List.mem_cons.mp (hgroups ▸ hg') with rfl | hg'
    · rw [(hw hhub).2] at hdefault
      cases hdefault
    · exact h.onlyEveryone g' hg' hhub hdefault
  · exact h.creator.imp fun _ hrow => ⟨hsame .hubs rfl ▸ hrow.1, hrow.2⟩
  · rw [Db.IsMember, hsame .hubMembers rfl]
    exact h.member
  · exact hmembers ▸ h.inAdmin

/-- A group is changed. -/
theorem Holds.updateGroup (h : Holds b db) {hubId groupId : I64} {body : UpdateGroup}
    (hw : (Write.updateGroup hubId groupId body).SparesRoles b) :
    Holds b (db.updateGroupRow hubId groupId body.name body.color body.position
      body.hubPermissions) := by
  refine ⟨?_, fun g' hg' hhub hname => ?_, ?_, fun g' hg' hhub hdefault => ?_, h.creator, h.member,
    h.inAdmin⟩
  · obtain ⟨g, hg, hid, hhub, hname, hpos, hbits⟩ := h.admin
    refine ⟨_, Table.mem_update.mpr ⟨g, hg, rfl⟩, ?_⟩
    split
    · rename_i hrow
      obtain ⟨rfl, rfl⟩ := of_decide_eq_true hrow
      have hcond := hw hhub
      rw [if_pos hid] at hcond
      obtain ⟨hsame, hnone, hnone'⟩ := hcond
      refine ⟨hid, hhub, ?_, ?_, ?_⟩
      · rw [Group.patch]
        cases hbody : body.name with
        | none => exact hname
        | some name => exact hsame name hbody
      · rw [Group.patch, hnone]
        exact hpos
      · rw [Group.patch, hnone']
        exact hbits
    · exact ⟨hid, hhub, hname, hpos, hbits⟩
  · obtain ⟨g, hg, rfl⟩ := Table.mem_update.mp hg'
    split at hname
    · rename_i hrow
      obtain ⟨rfl, rfl⟩ := of_decide_eq_true hrow
      rw [if_pos hrow] at hhub ⊢
      have hcond := hw hhub
      split_ifs at hcond with hid
      · exact hid
      · rw [Group.patch] at hname
        cases hbody : body.name with
        | none =>
          rw [hbody] at hname
          exact h.onlyAdmin g hg hhub hname
        | some name =>
          rw [hbody] at hname
          exact absurd (hbody.trans (congrArg some hname)) hcond
    · rename_i hrow
      rw [if_neg hrow] at hhub ⊢
      exact h.onlyAdmin g hg hhub hname
  · obtain ⟨g, hg, hid, hhub, hdefault⟩ := h.everyone
    refine ⟨_, Table.mem_update.mpr ⟨g, hg, rfl⟩, ?_⟩
    split <;> exact ⟨hid, hhub, hdefault⟩
  · obtain ⟨g, hg, rfl⟩ := Table.mem_update.mp hg'
    split at hdefault
    · rename_i hrow
      rw [if_pos hrow] at hhub ⊢
      exact h.onlyEveryone g hg hhub hdefault
    · rename_i hrow
      rw [if_neg hrow] at hhub ⊢
      exact h.onlyEveryone g hg hhub hdefault

/-- A group is deleted. -/
theorem Holds.deleteGroup (h : Holds b db) (hkeyed : Table.Keyed Group.id db.groups)
    {hubId groupId : I64} (hw : (Write.deleteGroup hubId groupId).SparesRoles b) :
    Holds b (db.deleteGroupRow hubId groupId) := by
  rw [Db.deleteGroupRow]
  split
  · exact h
  · rename_i target htarget
    obtain ⟨htmem, htid, hthub⟩ := Table.of_find?_eq_some htarget
    -- neither of the two groups has the id
    have hother {g : Group} (hg : g ∈ db.groups) (hhub : g.hubId = b.hub)
        (hbuilt : g.id = b.admin ∨ g.id = b.everyone) : g.id ≠ groupId := by
      intro hid
      obtain rfl := hkeyed.eq_of_key hg htmem (hid.trans htid.symm)
      obtain ⟨hne, hne'⟩ := hw (hthub.symm.trans hhub)
      rcases hbuilt with heq | heq
      · exact hne (hid.symm.trans heq)
      · exact hne' (hid.symm.trans heq)
    refine ⟨?_, fun g hg => h.onlyAdmin g (Table.mem_delete.mp hg).1, ?_,
      fun g hg => h.onlyEveryone g (Table.mem_delete.mp hg).1, h.creator, h.member, ?_⟩
    · obtain ⟨g, hg, hid, hhub, hrest⟩ := h.admin
      have hne := hother hg hhub (.inl hid)
      exact ⟨g, Table.mem_delete.mpr ⟨hg, decide_eq_false hne⟩, hid, hhub, hrest⟩
    · obtain ⟨g, hg, hid, hhub, hrest⟩ := h.everyone
      have hne := hother hg hhub (.inr hid)
      exact ⟨g, Table.mem_delete.mpr ⟨hg, decide_eq_false hne⟩, hid, hhub, hrest⟩
    · obtain ⟨g, hg, hid, hhub, -⟩ := h.admin
      have hne := hother hg hhub (.inl hid)
      exact Table.mem_delete.mpr ⟨h.inAdmin, decide_eq_false (hid ▸ hne)⟩

/-- **A statement that spares the roles** leaves them as they are. -/
theorem Write.holds (h : Holds b db) (hkeyed : Table.Keyed Group.id db.groups)
    (hw : w.SparesRoles b) (hexec : w.exec db = some db') : Holds b db' := by
  have hsame := w.untouched hexec
  cases w with
  | insertHub row =>
    have hhubs : db'.hubs = row :: db.hubs := by
      dsimp only [exec, Db.insertHub] at hexec
      split_ifs at hexec
      obtain rfl := Option.some.inj hexec
      rfl
    refine h.of_groups (hsame .groups rfl) (hhubs ▸ List.subset_cons_self _ _) ?_ ?_
    · rw [Db.IsMember, hsame .hubMembers rfl]
      exact h.member
    · exact hsame .memberGroups rfl ▸ h.inAdmin
  | insertGroup g => exact h.insertGroup hw hexec
  | updateGroup hubId groupId body =>
    obtain rfl := Option.some.inj hexec
    exact h.updateGroup hw
  | deleteGroup hubId groupId =>
    obtain rfl := Option.some.inj hexec
    exact h.deleteGroup hkeyed hw
  | insertMemberGroup mg =>
    obtain ⟨hgroups, hmembers⟩ := Db.insertMemberGroup_eq_some hexec
    refine h.of_groups hgroups (fun _ hrow => hsame .hubs rfl ▸ hrow) ?_ ?_
    · rw [Db.IsMember, hsame .hubMembers rfl]
      exact h.member
    · exact (hmembers _).mpr (.inr h.inAdmin)
  | deleteMemberGroup mg =>
    obtain rfl := Option.some.inj hexec
    refine h.of_groups rfl (fun _ hrow => hrow) h.member ?_
    exact Table.mem_delete.mpr ⟨h.inAdmin, decide_eq_false fun heq => hw heq.symm⟩
  | deleteMemberGroups hubId userId =>
    obtain rfl := Option.some.inj hexec
    refine h.of_groups rfl (fun _ hrow => hrow) h.member ?_
    refine Table.mem_delete.mpr ⟨h.inAdmin, decide_eq_false fun heq => hw ?_⟩
    exact ⟨heq.1.symm, heq.2.symm⟩
  | insertHubMember m =>
    refine h.of_groups (hsame .groups rfl) (fun _ hrow => hsame .hubs rfl ▸ hrow) ?_ ?_
    · exact (isMember_of_insertHubMember hexec).2 _ _ h.member
    · exact hsame .memberGroups rfl ▸ h.inAdmin
  | insertHubMemberNew m =>
    refine h.of_groups (hsame .groups rfl) (fun _ hrow => hsame .hubs rfl ▸ hrow) ?_ ?_
    · exact (isMember_of_insertHubMemberNew hexec).2 _ _ h.member
    · exact hsame .memberGroups rfl ▸ h.inAdmin
  | deleteHubMember hubId userId =>
    obtain rfl := Option.some.inj hexec
    refine h.of_groups rfl (fun _ hrow => hrow) ?_ h.inAdmin
    obtain ⟨m, hm, hhub, huser⟩ := isMember_iff.mp h.member
    refine isMember_iff.mpr ⟨m, Table.mem_delete.mpr ⟨hm, decide_eq_false fun heq => hw ?_⟩, hhub,
      huser⟩
    exact ⟨heq.1.symm.trans hhub, heq.2.symm.trans huser⟩
  | _ =>
    refine h.of_groups (hsame .groups rfl) (fun _ hrow => hsame .hubs rfl ▸ hrow) ?_ ?_
    · rw [Db.IsMember, hsame .hubMembers rfl]
      exact h.member
    · exact hsame .memberGroups rfl ▸ h.inAdmin

end Statements

/-! ### Calls -/

/-- **What is not checked**: that the name `admin` is not given to another group, nor taken
from the one that has it. -/
def Call.RoleChecked (db : Db) : Call → Prop
  | .createGroup hubId auth body _ =>
    (db.resolveUserPerms hubId auth).has Bits.manageRoles = true → body.name ≠ "admin"
  | .updateGroup hubId auth groupId body => ∀ target ∈ db.group? hubId groupId,
    mayUpdate (db.resolveUserPerms hubId auth) target body = true →
      ∀ name ∈ body.name, name = "admin" ↔ target.name = "admin"
  | _ => True

/-- The answer to a query for the creator would have been no. -/
def Call.SparesCreator (db : Db) : Call → Prop
  | .removeMemberFromGroup hubId _ groupId userId => ∀ target ∈ db.group? hubId groupId,
    target.name = "admin" → db.isCreator hubId userId = false
  | .kickMember hubId _ userId => db.isCreator hubId userId = false
  | _ => True

/-- What is not checked, of an operation; a call whose query for the creator fails spares the
creator, too. -/
def Op.RoleChecked (db : Db) : Op → Prop
  | .api (.call c) => c.RoleChecked db
  | .api _ => True
  | .blind c => c.RoleChecked db ∧ c.SparesCreator db

/-- Groups and hubs have unique ids, and groups are of hubs that exist. -/
structure Housed (db : Db) : Prop where
  groups : Table.Keyed Group.id db.groups
  hubs : Table.Keyed HubRow.id db.hubs
  hub : ∀ g ∈ db.groups, db.hasHub g.hubId = true

section Calls

variable {db db' : Db} {b : BuiltIn} {w : Write} {call : Call} {account : Option I64}

/-- The hubs after a statement. -/
theorem Write.hubs_after (hexec : w.exec db = some db') : db'.hubs = db.hubs ∨
    ∃ row, w = .insertHub row ∧ db.hasHub row.id = false ∧ db'.hubs = row :: db.hubs := by
  cases w with
  | insertHub row =>
    dsimp only [exec, Db.insertHub] at hexec
    split_ifs at hexec with hno
    obtain rfl := Option.some.inj hexec
    rw [Bool.or_eq_true, not_or, Bool.not_eq_true] at hno
    exact .inr ⟨row, rfl, hno.1, rfl⟩
  | _ => exact .inl (Write.untouched hexec .hubs rfl)

theorem hasHub_mono (hsub : db.hubs ⊆ db'.hubs) {hub : I64} (h : db.hasHub hub = true) :
    db'.hasHub hub = true := by
  obtain ⟨row, hrow, hid⟩ := List.any_eq_true.mp h
  exact List.any_eq_true.mpr ⟨row, hsub hrow, hid⟩

theorem Write.housed (h : Housed db) (hexec : w.exec db = some db') : Housed db' := by
  have hsub : db.hubs ⊆ db'.hubs := by
    rcases Write.hubs_after hexec with heq | ⟨row, -, -, heq⟩
    · exact fun _ hrow => heq ▸ hrow
    · exact fun _ hrow => heq ▸ List.mem_cons_of_mem _ hrow
  refine ⟨keyed_groups h.groups hexec, ?_, fun g hg => ?_⟩
  · rcases Write.hubs_after hexec with heq | ⟨row, -, hno, heq⟩
    · exact heq ▸ h.hubs
    · rw [heq]
      refine h.hubs.cons fun row' hrow' hid => ?_
      have hhas : db.hasHub row.id = true :=
        List.any_eq_true.mpr ⟨row', hrow', decide_eq_true hid⟩
      rw [hno] at hhas
      cases hhas
  · have hsame := w.untouched hexec
    refine hasHub_mono hsub ?_
    cases w with
    | insertGroup g' =>
      rcases List.mem_cons.mp ((Db.insertGroup_eq_some hexec).1 ▸ hg) with rfl | hg
      · dsimp only [exec, Db.insertGroup] at hexec
        split_ifs at hexec with hno
        rw [Bool.or_eq_true, not_or] at hno
        simpa using hno.2
      · exact h.hub g hg
    | updateGroup =>
      obtain rfl := Option.some.inj hexec
      obtain ⟨g₀, hg₀, rfl⟩ := Table.mem_update.mp hg
      split <;> exact h.hub g₀ hg₀
    | deleteGroup =>
      obtain rfl := Option.some.inj hexec
      exact h.hub g (Db.deleteGroupRow_shrinks.groups hg)
    | _ => exact h.hub g (hsame .groups rfl ▸ hg)

/-- **The creator is found** by the query. -/
theorem Holds.isCreator (h : Holds b db) (hh : Housed db) :
    db.isCreator b.hub b.creator = true := by
  obtain ⟨row, hrow, hid, hcreator⟩ := h.creator
  rw [Db.isCreator]
  rcases hfind : db.hubs.find? fun h => decide (h.id = b.hub) with _ | row'
  · exact absurd (decide_eq_true hid) (List.find?_eq_none.mp hfind row hrow)
  · obtain ⟨hrow', hid'⟩ := Table.of_find?_eq_some hfind
    obtain rfl := hh.hubs.eq_of_key hrow' hrow (hid'.trans hid.symm)
    rw [hfind]
    exact decide_eq_true hcreator

/-- The admin group is found under its id. -/
theorem Holds.eq_admin (h : Holds b db) (hh : Housed db) {target : Group}
    (htarget : db.group? b.hub b.admin = some target) : target.name = "admin" := by
  obtain ⟨g, hg, hid, -, hname, -⟩ := h.admin
  obtain ⟨hmem, htid, -⟩ := Table.of_find?_eq_some htarget
  rwa [hh.groups.eq_of_key hmem hg (htid.trans hid.symm)]

theorem Holds.eq_everyone (h : Holds b db) (hh : Housed db) {target : Group}
    (htarget : db.group? b.hub b.everyone = some target) : target.isDefault = true := by
  obtain ⟨g, hg, hid, -, hdefault⟩ := h.everyone
  obtain ⟨hmem, htid, -⟩ := Table.of_find?_eq_some htarget
  rwa [hh.groups.eq_of_key hmem hg (htid.trans hid.symm)]

/-- **The statements of a call** spare the roles, if it is accepted. -/
theorem Holds.sparesRoles (h : Holds b db) (hh : Housed db) (hcare : call.RoleChecked db)
    (hrun : call.run db = .ok (account, db')) : ∀ w ∈ call.writes db, w.SparesRoles b := by
  intro w hw
  cases call with
  | createGroup hubId auth body nextId =>
    obtain rfl := List.mem_singleton.mp hw
    obtain ⟨-, p, hp, -⟩ := silent_eq_ok hrun
    simp only [Hub.createGroup, require_eq_ok] at hp
    exact fun _ => ⟨hcare hp.1, rfl⟩
  | updateGroup hubId auth groupId body =>
    obtain rfl := List.mem_singleton.mp hw
    obtain ⟨-, p, hp, -⟩ := silent_eq_ok hrun
    simp only [Hub.updateGroup, require_eq_ok, found_eq_ok] at hp
    obtain ⟨target, htarget, hmay, -⟩ := hp
    have hnames := hcare target htarget hmay
    rintro rfl
    split
    · rename_i hid
      subst hid
      have hname := h.eq_admin hh htarget
      refine ⟨fun name hbody => (hnames name hbody).mpr hname, ?_⟩
      rw [mayUpdate, hname, if_pos (by decide), Bool.and_eq_true] at hmay
      exact ⟨Option.isNone_iff_eq_none.mp hmay.1, Option.isNone_iff_eq_none.mp hmay.2⟩
    · rename_i hne
      intro hbody
      obtain ⟨htmem, rfl, hthub⟩ := Table.of_find?_eq_some htarget
      exact hne (h.onlyAdmin target htmem hthub ((hnames "admin" hbody).mp rfl))
  | deleteGroup hubId auth groupId =>
    obtain rfl := List.mem_singleton.mp hw
    obtain ⟨-, p, hp, -⟩ := silent_eq_ok hrun
    simp only [Hub.deleteGroup, require_eq_ok, found_eq_ok] at hp
    obtain ⟨-, target, htarget, hfree, -⟩ := hp
    rw [Bool.not_eq_true', Bool.or_eq_false_iff] at hfree
    rintro rfl
    constructor
    · rintro rfl
      rw [h.eq_admin hh htarget] at hfree
      cases hfree.1
    · rintro rfl
      rw [h.eq_everyone hh htarget] at hfree
      cases hfree.2
  | removeMemberFromGroup hubId auth groupId userId =>
    obtain rfl := List.mem_singleton.mp hw
    obtain ⟨-, p, hp, -⟩ := silent_eq_ok hrun
    simp only [Hub.removeMemberFromGroup, require_eq_ok, found_eq_ok] at hp
    obtain ⟨-, target, htarget, -, hfree, -⟩ := hp
    rintro heq
    obtain ⟨rfl, rfl, rfl⟩ := MemberGroup.mk.inj heq
    rw [h.eq_admin hh htarget, h.isCreator hh] at hfree
    cases hfree
  | kickMember hubId auth userId =>
    obtain ⟨-, p, hp, -⟩ := silent_eq_ok hrun
    simp only [Hub.kickMember, require_eq_ok] at hp
    have hother : ¬ (hubId = b.hub ∧ userId = b.creator) := by
      rintro ⟨rfl, rfl⟩
      rw [h.isCreator hh] at hp
      cases hp.2.2.1
    rcases List.mem_pair.mp hw with rfl | rfl <;> exact hother
  | joinViaToken =>
    rcases Call.mem_writes_joinViaToken hw with ⟨_, rfl⟩ | ⟨_, rfl⟩ | ⟨_, rfl⟩ <;> trivial
  | redeemInviteLink =>
    rcases Call.mem_writes_redeemInviteLink hw with ⟨_, rfl⟩ | ⟨_, rfl⟩ | ⟨_, rfl⟩ | ⟨_, rfl⟩ <;>
      trivial
  | acceptInvitation =>
    rcases Call.mem_writes_acceptInvitation hw with ⟨_, rfl⟩ | (⟨_, rfl⟩ | ⟨_, rfl⟩) | ⟨_, rfl⟩ <;>
      trivial
  | createChannel => rcases Call.mem_writes_createChannel hw with ⟨_, rfl⟩ | ⟨_, rfl⟩ <;> trivial
  | openDm => rcases Call.mem_writes_openDm hw with ⟨_, rfl⟩ | ⟨_, _, rfl⟩ <;> trivial
  | createTempUser | revokeTempUser | deletePendingTemp =>
    rcases List.mem_pair.mp hw with rfl | rfl <;> trivial
  | _ =>
    obtain rfl := List.mem_singleton.mp hw
    trivial

/-- **Where a script stops** whose statements spare the roles. -/
theorem Holds.of_stops {ws : List Write} (h : Holds b db) (hh : Housed db)
    (hws : ∀ w ∈ ws, w.SparesRoles b) (hstops : Script.Stops Write.exec db ws db') :
    Holds b db' := by
  have hboth : Holds b db' ∧ Housed db' := by
    refine hstops.invariant (I := fun db => Holds b db ∧ Housed db)
      (P := fun _ w => w.SparesRoles b) (fun db₁ w db₂ h₁ hw hexec => ?_) ⟨h, hh⟩
      (Script.along_of_forall fun w hw _ => hws w hw)
    exact ⟨Write.holds h₁.1 h₁.2.groups hw hexec, Write.housed h₁.2 hexec⟩
  exact hboth.1

theorem Housed.of_stops {ws : List Write} (hh : Housed db)
    (hstops : Script.Stops Write.exec db ws db') : Housed db' :=
  hstops.invariant (I := Housed) (P := fun _ _ => True)
    (fun _ _ _ h₁ _ hexec => Write.housed h₁ hexec) hh (Script.along_of_forall fun _ _ _ => trivial)

/-- A call, wherever it stops. -/
theorem Holds.call_leaves (h : Holds b db) (hh : Housed db) (hcare : call.RoleChecked db)
    (hleaves : db' ∈ call.leaves db) : Holds b db' := by
  rcases Call.stops hleaves with rfl | hhalf | ⟨account, hrun⟩
  · exact h
  · cases call with
    | createChannel hubId auth body nextId =>
      dsimp only [Call.halfway] at hhalf
      split_ifs at hhalf
      · exact Write.holds (w := .insertChannel _) h hh.groups trivial hhalf
      · cases hhalf
    | kickMember hubId auth userId =>
      dsimp only [Call.halfway] at hhalf
      split_ifs at hhalf with hmay
      · refine Write.holds (w := .deleteMemberGroups hubId userId) h hh.groups ?_ hhalf
        rintro ⟨rfl, rfl⟩
        simp only [Call.mayKick, h.isCreator hh, Bool.not_true, Bool.and_false, Bool.false_and]
          at hmay
        cases hmay
      · cases hhalf
    | _ => cases hhalf
  · exact h.of_stops hh (h.sparesRoles hh hcare hrun) (Script.stops_of_run (Call.run_writes hrun))

/-! ### Queries that fail -/

/-- **A failed query** does not matter where the answer would have been no. -/
theorem mem_leaves_of_blind (hspares : call.SparesCreator db) (h : db' ∈ call.blindLeaves db) :
    db' ∈ call.leaves db := by
  cases call with
  | removeMemberFromGroup hubId auth groupId userId =>
    have hsame : removeMemberFromGroupWith none db hubId auth groupId userId =
        removeMemberFromGroup db hubId auth groupId userId := by
      rw [← removeMemberFromGroupWith_some, removeMemberFromGroupWith, removeMemberFromGroupWith]
      rcases htarget : db.group? hubId groupId with _ | target
      · rfl
      · by_cases hname : target.name = "admin"
        · rw [hspares target htarget hname]
          rfl
        · have hother : (target.name == "admin") = false := beq_eq_false_iff_ne.mpr hname
          simp only [found, hother, Bool.false_and]
    dsimp only [Call.blindLeaves] at h
    rw [hsame] at h
    dsimp only [Call.leaves, Call.halfway, Call.run]
    rcases hrun : removeMemberFromGroup db hubId auth groupId userId with e | p
    · rw [hrun] at h
      exact h
    · rw [hrun] at h
      exact h
  | kickMember hubId auth userId =>
    have hnot : db.isCreator hubId userId = false := hspares
    have hsame : kickMemberWith none db hubId auth userId = kickMember db hubId auth userId := by
      rw [← kickMemberWith_some, kickMemberWith, kickMemberWith, hnot]
      rfl
    dsimp only [Call.blindLeaves] at h
    rw [hsame] at h
    dsimp only [Call.leaves, Call.halfway, Call.run]
    rcases hrun : kickMember db hubId auth userId with e | ⟨u, db₁⟩
    · rw [hrun] at h
      rcases List.mem_singleton.mp h with rfl
      exact List.mem_cons_self
    · rw [hrun] at h
      simp only [kickMember, require_eq_ok] at hrun
      have hmay : Call.mayKick db hubId auth userId = true := by
        simp only [Call.mayKick, Bool.and_eq_true]
        exact ⟨⟨⟨hrun.1, hrun.2.1⟩, hrun.2.2.1⟩, hrun.2.2.2.1⟩
      rw [if_pos hmay]
      exact h
  | _ => exact h

/-! ### Setup -/

/-- **A setup makes the roles** of its hub. -/
theorem setup_holds {ids : SetupIds} (hh : Housed db)
    (hrun : Script.run Write.exec db (setupRows ids) = some db') :
    Holds ⟨ids.hubId, ids.adminGroupId, ids.everyoneGroupId, ids.userId, 0, Bits.all⟩ db' ∧
      db.hasHub ids.hubId = false ∧
      db'.hubs = ⟨ids.hubId, some ids.userId⟩ :: db.hubs := by
  obtain ⟨db₁, h₁, hrun⟩ := Option.bind_eq_some_iff.mp hrun
  obtain ⟨db₂, h₂, hrun⟩ := Option.bind_eq_some_iff.mp hrun
  obtain ⟨db₃, h₃, hrun⟩ := Option.bind_eq_some_iff.mp hrun
  obtain ⟨db₄, h₄, hrun⟩ := Option.bind_eq_some_iff.mp hrun
  obtain ⟨db₅, h₅, hrun⟩ := Option.bind_eq_some_iff.mp hrun
  -- the hub is new, and so no group is of it
  have hrow : db.hasHub ids.hubId = false ∧ db₁.hubs = ⟨ids.hubId, some ids.userId⟩ :: db.hubs := by
    rcases Write.hubs_after h₁ with heq | ⟨row, hw, hno, heq⟩
    · dsimp only [Write.exec, Db.insertHub] at h₁
      split_ifs at h₁
      obtain rfl := Option.some.inj h₁
      exact absurd (congrArg List.length heq) (by simp)
    · obtain rfl := Write.insertHub.inj hw
      exact ⟨hno, heq⟩
  have hold (g : Group) (hg : g ∈ db.groups) : g.hubId ≠ ids.hubId := by
    intro heq
    have hhas := hh.hub g hg
    rw [heq, hrow.1] at hhas
    cases hhas
  have hlast : ∀ w ∈ ([.insertMemberGroup ⟨ids.hubId, ids.userId, ids.everyoneGroupId⟩,
      .insertChannel ⟨ids.generalChannelId, ids.hubId, "general", "text", 0, none, noIcon⟩,
      .insertChannelPermission ⟨ids.generalChannelId, ids.everyoneGroupId, Bits.memberChannel, 0⟩] :
        List Write), w.touches .groups = false ∧ w.touches .hubs = false ∧
          w.touches .hubMembers = false := by
    simp only [List.mem_cons, List.not_mem_nil, or_false]
    rintro w (rfl | rfl | rfl) <;> exact ⟨rfl, rfl, rfl⟩
  have hgroups : db'.groups = ⟨ids.everyoneGroupId, ids.hubId, "everyone", some "#99AAB5", 100,
      true, 0⟩ :: ⟨ids.adminGroupId, ids.hubId, "admin", some "#E74C3C", 0, false, Bits.all⟩ ::
        db.groups := by
    have hsame : db'.groups = db₅.groups :=
      Write.run_untouched (r := .groups) hrun fun w hw => (hlast w hw).1
    rw [hsame, (Db.insertMemberGroup_eq_some h₅).1, Write.untouched h₄ .groups rfl,
      (Db.insertGroup_eq_some h₃).1, (Db.insertGroup_eq_some h₂).1, Write.untouched h₁ .groups rfl]
  have hhubs : db'.hubs = ⟨ids.hubId, some ids.userId⟩ :: db.hubs := by
    have hsame : db'.hubs = db₅.hubs :=
      Write.run_untouched (r := .hubs) hrun fun w hw => (hlast w hw).2.1
    rw [hsame, Write.untouched h₅ .hubs rfl, Write.untouched h₄ .hubs rfl,
      Write.untouched h₃ .hubs rfl, Write.untouched h₂ .hubs rfl, hrow.2]
  have hmember : db'.IsMember ids.hubId ids.userId := by
    have hsame : db'.hubMembers = db₅.hubMembers :=
      Write.run_untouched (r := .hubMembers) hrun fun w hw => (hlast w hw).2.2
    rw [Db.IsMember, hsame, Write.untouched h₅ .hubMembers rfl]
    exact (isMember_of_insertHubMember h₄).1
  have hadmin : ⟨ids.hubId, ids.userId, ids.adminGroupId⟩ ∈ db'.memberGroups := by
    have h₅mem := ((Db.insertMemberGroup_eq_some h₅).2 _).mpr (.inl rfl)
    obtain ⟨db₆, h₆, hrun⟩ := Option.bind_eq_some_iff.mp hrun
    have hsame : db'.memberGroups = db₆.memberGroups := by
      refine Write.run_untouched (r := .memberGroups) hrun fun w hw => ?_
      rcases List.mem_pair.mp hw with rfl | rfl <;> rfl
    rw [hsame]
    exact ((Db.insertMemberGroup_eq_some h₆).2 _).mpr (.inr h₅mem)
  refine ⟨⟨?_, ?_, ?_, ?_, ?_, hmember, hadmin⟩, hrow.1, hhubs⟩
  · exact ⟨_, hgroups ▸ List.mem_cons_of_mem _ List.mem_cons_self, rfl, rfl, rfl, rfl, rfl⟩
  · intro g hg hhub hname
    rcases List.mem_cons.mp (hgroups ▸ hg) with rfl | hg
    · exact absurd hname (show "everyone" ≠ "admin" by decide)
    · rcases List.mem_cons.mp hg with rfl | hg
      · rfl
      · exact absurd hhub (hold g hg)
  · exact ⟨_, hgroups ▸ List.mem_cons_self, rfl, rfl, rfl⟩
  · intro g hg hhub hdefault
    rcases List.mem_cons.mp (hgroups ▸ hg) with rfl | hg
    · rfl
    · rcases List.mem_cons.mp hg with rfl | hg
      · cases hdefault
      · exact absurd hhub (hold g hg)
  · exact ⟨_, hhubs ▸ List.mem_cons_self, rfl, rfl⟩

end Calls

/-! ### Operations -/

/-- **Every hub has its roles.** -/
structure Settled (db : Db) : Prop extends Housed db where
  roles : ∀ row ∈ db.hubs, ∃ b, b.hub = row.id ∧ Holds b db

/-- The operations, one after another. -/
def hubOps (ssoHub : I64) (init : Service → Prop) : System Service Op where
  init := init
  step st o st' := st' ∈ o.leaves ssoHub st

section Operations

variable {ssoHub : I64} {st st' : Service} {b : BuiltIn} {a : ApiCall} {o : Op}

/-- The statements of a setup spare the roles of the other hubs. -/
theorem Holds.sparesRoles_setup {db : Db} {body : SetupAdmin} {ids : SetupIds} (h : Holds b db)
    (hno : db.hasHub ids.hubId = false) :
    ∀ w ∈ .insertUser (body.user ids.userId) :: setupRows ids, w.SparesRoles b := by
  have hne : ids.hubId ≠ b.hub := by
    obtain ⟨row, hrow, hid, -⟩ := h.creator
    rintro heq
    have hhas : db.hasHub ids.hubId = true :=
      List.any_eq_true.mpr ⟨row, hrow, decide_eq_true (hid.trans heq.symm)⟩
    rw [hno] at hhas
    cases hhas
  intro w hw
  simp only [setupRows, List.mem_cons, List.not_mem_nil, or_false] at hw
  rcases hw with rfl | rfl | rfl | rfl | rfl | rfl | rfl | rfl | rfl
  · trivial
  · trivial
  · exact fun heq => absurd heq hne
  · exact fun heq => absurd heq hne
  all_goals trivial

/-- What a login writes. -/
theorem mem_ssoWrites {w : Write} {x : ExchangeResponse} {newUserId : I64}
    (h : w ∈ st.ssoWrites ssoHub x newUserId) : (∃ u email, w = .setEmail u email) ∨
      (∃ u, w = .insertUser u) ∨ (∃ m, w = .insertHubMemberNew m) ∨
        ∃ mg, w = .insertMemberGroup mg := by
  have hrows {u : I64} (hw : w ∈ st.ssoRows ssoHub u) :
      (∃ m, w = .insertHubMemberNew m) ∨ ∃ mg, w = .insertMemberGroup mg := by
    rcases List.mem_cons.mp hw with rfl | hw
    · exact .inl ⟨_, rfl⟩
    · obtain ⟨everyone, -, rfl⟩ := List.mem_map.mp hw
      exact .inr ⟨_, rfl⟩
  rw [Service.ssoWrites] at h
  split at h
  · rcases List.mem_cons.mp h with rfl | h
    · exact .inl ⟨_, _, rfl⟩
    · exact .inr (.inr (hrows h))
  · rcases List.mem_cons.mp h with rfl | h
    · exact .inr (.inl ⟨_, rfl⟩)
    · exact .inr (.inr (hrows h))

theorem touches_hubs_ssoWrites {w : Write} {x : ExchangeResponse} {newUserId : I64}
    (h : w ∈ st.ssoWrites ssoHub x newUserId) : w.touches .hubs = false := by
  rcases mem_ssoWrites h with ⟨_, _, rfl⟩ | ⟨_, rfl⟩ | ⟨_, rfl⟩ | ⟨_, rfl⟩ <;> rfl

/-- The statements of a login spare the roles. -/
theorem sparesRoles_sso {x : ExchangeResponse} {newUserId : I64} :
    ∀ w ∈ st.ssoWrites ssoHub x newUserId, w.SparesRoles b := by
  intro w hw
  rcases mem_ssoWrites hw with ⟨_, _, rfl⟩ | ⟨_, rfl⟩ | ⟨_, rfl⟩ | ⟨_, rfl⟩ <;> trivial

/-- What an accepted setup does. -/
theorem setup_eq_ok {db : Db} {body : SetupAdmin} {ids : SetupIds} {r : I64 × Db}
    (h : Hub.setupAdmin db body ids = .ok r) :
    ∃ db₁, db.insertUser (body.user ids.userId) = .ok db₁ ∧
      Script.run Write.exec db₁ (setupRows ids) = some r.2 := by
  simp only [Hub.setupAdmin, require_eq_ok, found_eq_ok, attempt_eq_ok] at h
  obtain ⟨-, -, db₁, huser, db₂, hrows, hr⟩ := h
  obtain rfl := Except.ok.inj hr
  exact ⟨db₁, huser, hrows⟩

/-- **An operation leaves the roles of a hub**, wherever it stops. -/
theorem Holds.leaves (h : Holds b st.db) (hh : Housed st.db) (hcare : o.RoleChecked st.db)
    (hleaves : st' ∈ o.leaves ssoHub st) : Holds b st'.db := by
  cases o with
  | blind c =>
    obtain ⟨db, hdb, rfl⟩ := List.mem_map.mp hleaves
    exact h.call_leaves hh hcare.1 (mem_leaves_of_blind hcare.2 hdb)
  | api a =>
    have hapi : st' ∈ a.leaves ssoHub st := hleaves
    have hstops := ApiCall.stops_of_leaves hapi
    cases a with
    | call c =>
      obtain ⟨db, hdb, rfl⟩ := List.mem_map.mp hleaves
      exact h.call_leaves hh hcare hdb
    | setupAdmin body ids =>
      rcases List.mem_cons.mp hleaves with rfl | hdone
      · exact h
      · split at hdone
        · rename_i userId db hok
          obtain ⟨db₁, huser, hrows⟩ := setup_eq_ok hok
          have hexec := exec_insertUser huser
          have hno : st.db.hasHub ids.hubId = false := by
            have hhub := (setup_holds (Write.housed hh hexec) hrows).2.1
            rwa [Db.hasHub, Write.untouched hexec .hubs rfl] at hhub
          exact h.of_stops hh (h.sparesRoles_setup hno) hstops
        · cases hdone
    | ssoLogin x newUserId => exact h.of_stops hh sparesRoles_sso hstops

/-- **An operation leaves every hub with its roles.** -/
theorem Settled.leaves (h : Settled st.db) (hcare : o.RoleChecked st.db)
    (hleaves : st' ∈ o.leaves ssoHub st) : Settled st'.db := by
  -- a hub that was there keeps its roles
  have hkeep {row : HubRow} (hrow : row ∈ st.db.hubs) : ∃ b, b.hub = row.id ∧ Holds b st'.db :=
    (h.roles row hrow).imp fun b hb => ⟨hb.1, hb.2.leaves h.toHoused hcare hleaves⟩
  have hcall {c : Call} {db : Db} (hdb : db ∈ c.leaves st.db) :
      Housed db ∧ db.hubs = st.db.hubs := by
    have hstops := Call.stops_of_leaves hdb
    refine ⟨h.toHoused.of_stops hstops, ?_⟩
    obtain ⟨ws, hpre, hrun⟩ := hstops
    exact Write.run_untouched (r := .hubs) hrun fun w hw => Call.touches_hubs (hpre.subset hw)
  cases o with
  | blind c =>
    obtain ⟨db, hdb, rfl⟩ := List.mem_map.mp hleaves
    obtain ⟨hh, hhubs⟩ := hcall (mem_leaves_of_blind hcare.2 hdb)
    exact ⟨hh, fun row hrow => hkeep (hhubs ▸ hrow)⟩
  | api a =>
    have hapi : st' ∈ a.leaves ssoHub st := hleaves
    have hstops := ApiCall.stops_of_leaves hapi
    have hh := h.toHoused.of_stops hstops
    cases a with
    | call c =>
      obtain ⟨db, hdb, rfl⟩ := List.mem_map.mp hleaves
      exact ⟨hh, fun row hrow => hkeep ((hcall hdb).2 ▸ hrow)⟩
    | setupAdmin body ids =>
      rcases List.mem_cons.mp hleaves with rfl | hdone
      · exact h
      · split at hdone
        · rename_i userId db hok
          obtain ⟨db₁, huser, hrows⟩ := setup_eq_ok hok
          have hexec := exec_insertUser huser
          obtain rfl := List.mem_singleton.mp hdone
          obtain ⟨hnew, -, hhubs⟩ := setup_holds (Write.housed h.toHoused hexec) hrows
          refine ⟨hh, fun row hrow => ?_⟩
          rcases List.mem_cons.mp (hhubs ▸ hrow) with rfl | hrow
          · exact ⟨_, rfl, hnew⟩
          · have hsame : db₁.hubs = st.db.hubs := Write.untouched hexec .hubs rfl
            exact hkeep (hsame ▸ hrow)
        · cases hdone
    | ssoLogin x newUserId =>
      refine ⟨hh, fun row hrow => hkeep ?_⟩
      obtain ⟨ws, hpre, hrun⟩ := hstops
      have hsame : st'.db.hubs = st.db.hubs := Write.run_untouched (r := .hubs) hrun fun w hw =>
        touches_hubs_ssoWrites (hpre.subset hw)
      exact hsame ▸ hrow

/-- **Protected roles and the creator.** From an empty database on, or from any other one in
which every hub has its roles, whatever operations there are and wherever they fail: if the
name `admin` is neither given nor taken, and no query for the creator fails about the
creator, then every hub has one group called `admin`, which is as it was made, and one
default group, the creator is a member and an admin, and who is an admin is decided by the
membership of that group. No operation that is careful in this way changes which groups
these are. -/
theorem roles_of_reach
    (hreach : (hubOps ssoHub fun st => Settled st.db).Reach (fun st o => o.RoleChecked st.db) st) :
    (∀ row ∈ st.db.hubs, ∃ b, b.hub = row.id ∧ Holds b st.db) ∧
    (∀ b, Holds b st.db → (∀ u, (st.db.resolveUserPerms b.hub u).isAdmin = true ↔
      ⟨b.hub, u, b.admin⟩ ∈ st.db.memberGroups) ∧
      ∀ (o : Op) (st' : Service), o.RoleChecked st.db → st' ∈ o.leaves ssoHub st →
        Holds b st'.db) := by
  have hst : Settled st.db := hreach.invariant (I := fun st => Settled st.db) (fun _ h => h)
    fun st o st' h hcare hstep => h.leaves hcare hstep
  refine ⟨hst.roles, fun b hb => ⟨hb.isAdmin_iff, fun o st' hcare hleaves => ?_⟩⟩
  exact hb.leaves hst.toHoused hcare hleaves

end Operations

/-- What an operation leaves if it does not fail. -/
def Op.after (ssoHub : I64) (st : Service) (o : Op) : Service :=
  (o.leaves ssoHub st).getLast?.getD st

theorem Op.after_mem (ssoHub : I64) (st : Service) (o : Op) :
    o.after ssoHub st ∈ o.leaves ssoHub st := by
  have hself : st ∈ o.leaves ssoHub st := by
    cases o with
    | api a =>
      cases a with
      | call c => exact List.mem_map.mpr ⟨st.db, List.mem_cons_self, rfl⟩
      | setupAdmin body ids => exact List.mem_cons_self
      | ssoLogin x newUserId => exact List.mem_cons_self
    | blind c =>
      refine List.mem_map.mpr ⟨st.db, ?_, rfl⟩
      cases c <;> exact List.mem_cons_self
  rw [after]
  cases hlast : (o.leaves ssoHub st).getLast? with
  | none => exact hself
  | some st' => exact List.mem_of_getLast? hlast

/-! ### A new installation -/

namespace Seed

theorem settled_emptyDb : Settled emptyDb where
  groups := List.nodup_nil
  hubs := List.nodup_nil
  hub := fun _ h => absurd h List.not_mem_nil
  roles := fun _ h => absurd h List.not_mem_nil

/-- A run from an empty database. -/
def roleRun (os : List Op) : Service := os.foldl (fun st o => o.after hub st) ⟨emptyDb, []⟩

/-- The hub is set up, and a guest comes. -/
def hubOpens : List Op :=
  [.api aliceSetsUp, .api (aliceInvites everyone), .api gusJoins]

/-- Then Alice tries to delete the admin group, and kicks the guest, where a query fails. -/
def aliceTidiesUp : List Op := hubOpens ++ [.api (.call (.deleteGroup hub alice admin)),
  .blind (.kickMember hub alice (i64 1004))]

/-- The guest is gone, and the hub has its roles. -/
theorem roles_of_reach_aliceTidiesUp :
    ¬ (roleRun aliceTidiesUp).db.IsMember hub (i64 1004) ∧
    ∃ b, b.hub = hub ∧ Holds b (roleRun aliceTidiesUp).db := by
  have hreach : (hubOps hub fun st => Settled st.db).Reach (fun st o => o.RoleChecked st.db)
      (roleRun aliceTidiesUp) := by
    have hguest : (roleRun (hubOpens ++ [.api (.call (.deleteGroup hub alice admin))])).db.isCreator
        hub (i64 1004) = false := by decide +kernel
    refine System.Reach.foldl (fun st o => Op.after_mem hub st o) (.start settled_emptyDb) ?_
    exact ⟨trivial, trivial, trivial, trivial, ⟨trivial, hguest⟩, trivial⟩
  refine ⟨by decide +kernel, (roles_of_reach hreach).1 ⟨hub, some alice⟩ ?_⟩
  decide +kernel

/-- **A guest takes the role away**: he has no permission at all, and renames the admin group.
Then the hub has no admin, though its creator is in the group still. -/
theorem admin_renamed : ∃ st, (hubOps hub fun st => st = ⟨emptyDb, []⟩).Reachable st ∧
    st.db.isCreator hub alice = true ∧ ⟨hub, alice, admin⟩ ∈ st.db.memberGroups ∧
    (st.db.resolveUserPerms hub alice).isAdmin = false ∧
    ∀ g ∈ st.db.groups, g.hubId = hub → g.name ≠ "admin" := by
  refine ⟨roleRun (hubOpens ++
    [.api (.call (.updateGroup hub (i64 1004) admin ⟨some "staff", none, none, none⟩))]), ?_, ?_⟩
  · exact System.reachable_foldl rfl (fun st o => Op.after_mem hub st o) _
  · decide +kernel

end Seed

end Hub

end MateHub
