import MateHub.Hub.Calls
import MateHub.Hub.Groups
import MateHub.Lib.Runs

/-!
# What colluding accounts can gain

Some members of a hub, none of them an admin, call the endpoints of the hub service, and so
do the accounts that come of it: guests, and those who register with an invitation or a
link. An account gains what the groups have that it is put into, and what is done to the
groups it is in. The endpoints check the bits that are written into a group, so these stay
within what the callers hold. They do not check the group that an account is put into, nor
the new name of a group, though a group called `admin` has everything. With these checks
nobody would gain anything (`MateHub.Hub.privilege_closed`).
-/

namespace MateHub

namespace Hub

open Chat (I64 i64)

/-! ### Calls -/

namespace Call

variable (db : Db)

/-- The memberships that an accepted call makes. -/
def joins : Call → List MemberGroup
  | addMemberToGroup hubId _ groupId userId => [⟨hubId, userId, groupId⟩]
  | joinViaToken token now _ =>
    match joinRow? db token now with
    | none => []
    | some t => (db.defaultGroup? t.hubId).toList.flatMap fun everyone =>
        [⟨t.hubId, t.userId, everyone.id⟩, ⟨t.hubId, t.userId, t.groupId⟩]
  | redeemInviteLink _ token _ now nextId =>
    match claim? db token now with
    | none => []
    | some l => (db.defaultGroup? l.hubId).toList.flatMap fun everyone =>
        (groupIds everyone.id l.groupId).map fun gid => ⟨l.hubId, nextId, gid⟩
  | acceptInvitation token _ _ nextId =>
    match db.invitations.find? fun i => i.token == token with
    | none => []
    | some i => (db.defaultGroup? i.hubId).toList.flatMap fun everyone =>
        (everyone.id :: i.groupId.toList).map fun gid => ⟨i.hubId, nextId, gid⟩
  | _ => []

/-- The accounts that register with a call. -/
def newcomers : Call → List I64
  | redeemInviteLink _ _ _ _ nextId | acceptInvitation _ _ _ nextId => [nextId]
  | _ => []

/-- The group that a call renames to `admin`. -/
def renames : Call → Option (I64 × I64)
  | updateGroup hubId _ groupId body =>
    if body.name = some "admin" then some (hubId, groupId) else none
  | _ => none

end Call

/-! ### Runs -/

/-- The database, and the accounts of those who collude. -/
structure Collusion where
  db : Db
  accounts : List I64

/-- Who makes a call: one of the accounts, with its token; and with a link or an
invitation that one of the accounts has made, or as a guest that is one of them. -/
def Call.By (w : Collusion) : Call → Prop
  | .createGroup _ auth _ _ | .updateGroup _ auth _ _ | .deleteGroup _ auth _
  | .addMemberToGroup _ auth _ _ | .removeMemberFromGroup _ auth _ _
  | .setChannelPermission _ auth _ _ _ | .deleteChannelPermission _ auth _ _
  | .createChannel _ auth _ _ | .updateChannel _ auth _ _ | .deleteChannel _ auth _
  | .uploadIcon _ auth _ _ _ _ | .openDm _ auth _ _ | .kickMember _ auth _
  | .createTempUser _ auth _ _ _ _
  | .revokeTempUser _ auth _ _ | .createInviteLink _ auth _ _ _ _
  | .createInvitation _ _ auth _ _ _ | .deletePendingPermanent _ auth _
  | .deletePendingTemp _ auth _ _ | .deletePendingLink _ auth _ _ => auth ∈ w.accounts
  | .joinViaToken token now _ => ∀ t ∈ joinRow? w.db token now, t.userId ∈ w.accounts
  | .redeemInviteLink _ token _ now _ => ∀ l ∈ claim? w.db token now, l.createdBy ∈ w.accounts
  | .acceptInvitation token _ _ _ =>
    ∀ i ∈ w.db.invitations.find? fun i => i.token == token, i.createdBy ∈ w.accounts

/-- Handling a call; a refused one changes nothing. -/
def Collusion.next (w : Collusion) (call : Call) : Collusion :=
  match call.run w.db with
  | .error _ => w
  | .ok (account, db) => ⟨db, account.toList ++ w.accounts⟩

/-- The calls of those who collude, from given members on. -/
def collusion (db : Db) (members : List I64) : System Collusion Call where
  init w := w = ⟨db, members⟩
  step w call w' := call.By w ∧ w' = w.next call

/-! ### What is held, and what is let through -/

/-- All hub-level bits that some accounts hold. -/
def Db.held (db : Db) (hubId : I64) (accounts : List I64) : Bits :=
  BitVec.unions (fun u => (db.resolveUserPerms hubId u).hubBits) accounts

/-- What a group may have that colluding accounts are in. -/
def Harmless (bits : Bits) (g : Group) : Prop := g.name ≠ "admin" ∧ g.hubPermissions.Within bits

instance (bits : Bits) (g : Group) : Decidable (Harmless bits g) :=
  inferInstanceAs (Decidable (_ ∧ _))

/-- **No account has gained anything in a hub**: every group of an account is harmless. -/
def Contained (hubId : I64) (bits : Bits) (w : Collusion) : Prop :=
  ∀ u ∈ w.accounts, ∀ g ∈ w.db.groupsOf hubId u, Harmless bits g

/-- **A call is checked**: if it is accepted, then each group of the hub that it puts an
account into is harmless, and no account is in a group of the hub that it renames to
`admin`. -/
def Checked (hubId : I64) (bits : Bits) (w : Collusion) (call : Call) : Prop :=
  match call.run w.db with
  | .error _ => True
  | .ok _ =>
    (∀ mg ∈ call.joins w.db, mg.hubId = hubId → mg.userId ∈ call.newcomers ++ w.accounts →
      ∀ g ∈ w.db.groups, g.id = mg.groupId → g.hubId = hubId → Harmless bits g) ∧
    ∀ p ∈ call.renames.toList, p.1 = hubId → ∀ u ∈ w.accounts,
      ⟨hubId, u, p.2⟩ ∉ w.db.memberGroups

instance (hubId : I64) (bits : Bits) (w : Collusion) (call : Call) :
    Decidable (Checked hubId bits w call) :=
  match h : call.run w.db with
  | .error _ => .isTrue (by rw [Checked, h]; trivial)
  | .ok _ => decidable_of_iff
    ((∀ mg ∈ call.joins w.db, mg.hubId = hubId → mg.userId ∈ call.newcomers ++ w.accounts →
      ∀ g ∈ w.db.groups, g.id = mg.groupId → g.hubId = hubId → Harmless bits g) ∧
    ∀ p ∈ call.renames.toList, p.1 = hubId → ∀ u ∈ w.accounts,
      ⟨hubId, u, p.2⟩ ∉ w.db.memberGroups) (by rw [Checked, h])

/-! ### What a call does -/

section Effect

variable {db db' : Db} {call : Call} {account : Option I64} {hubId u : I64}

/-- **What an accepted call does to groups and memberships**: some may go, or a group is
new, or one is changed, or there are new memberships. -/
inductive Call.Effect (db : Db) (call : Call) (db' : Db) : Prop
  | shrinks : call.joins db = [] → call.renames = none → db.Shrinks db' → Effect db call db'
  | makes (g : Group) : call.joins db = [] → call.renames = none → db'.groups = g :: db.groups →
      db'.memberGroups = db.memberGroups → (∀ g' ∈ db.groups, g'.id ≠ g.id) → Effect db call db'
  | patches (hubId auth groupId : I64) (body : UpdateGroup) (target : Group) :
      call = .updateGroup hubId auth groupId body → db.group? hubId groupId = some target →
      db' = db.updateGroupRow hubId groupId body.name body.color body.position
        body.hubPermissions →
      (∀ bits ∈ body.hubPermissions,
        bits.Within (db.resolveUserPerms hubId auth).grantableBits) → Effect db call db'
  | joins : call.renames = none → db'.groups = db.groups →
      (∀ mg, mg ∈ db'.memberGroups ↔ mg ∈ call.joins db ∨ mg ∈ db.memberGroups) →
      Effect db call db'

theorem Call.effect (h : call.run db = .ok (account, db')) : call.Effect db db' := by
  cases call with
  | createGroup hubId auth body nextId =>
    obtain ⟨-, p, hp, rfl⟩ := silent_eq_ok h
    obtain ⟨hgroups, hmem, hfresh⟩ := createGroup_ok hp
    exact .makes p.1 rfl rfl hgroups hmem hfresh
  | updateGroup hubId auth groupId body =>
    obtain ⟨-, p, hp, rfl⟩ := silent_eq_ok h
    obtain ⟨⟨target, htarget⟩, hrow, hbits⟩ := updateGroup_ok hp
    exact .patches hubId auth groupId body target rfl htarget hrow hbits
  | deleteGroup =>
    obtain ⟨-, p, hp, rfl⟩ := silent_eq_ok h
    exact .shrinks rfl rfl (deleteGroup_shrinks hp)
  | addMemberToGroup =>
    obtain ⟨-, p, hp, rfl⟩ := silent_eq_ok h
    obtain ⟨hgroups, hmem⟩ := addMemberToGroup_ok hp
    refine .joins rfl hgroups fun mg => ?_
    rw [hmem, Call.joins, List.mem_singleton]
  | removeMemberFromGroup =>
    obtain ⟨-, p, hp, rfl⟩ := silent_eq_ok h
    exact .shrinks rfl rfl (removeMemberFromGroup_shrinks hp)
  | setChannelPermission =>
    obtain ⟨-, p, hp, rfl⟩ := silent_eq_ok h
    exact .shrinks rfl rfl (setChannelPermission_alone hp).shrinks
  | deleteChannelPermission =>
    obtain ⟨-, p, hp, rfl⟩ := silent_eq_ok h
    exact .shrinks rfl rfl (deleteChannelPermission_alone hp).shrinks
  | createChannel =>
    obtain ⟨-, p, hp, rfl⟩ := silent_eq_ok h
    exact .shrinks rfl rfl (createChannel_alone hp).shrinks
  | updateChannel =>
    obtain ⟨-, p, hp, rfl⟩ := silent_eq_ok h
    exact .shrinks rfl rfl (updateChannel_alone hp).shrinks
  | deleteChannel =>
    obtain ⟨-, p, hp, rfl⟩ := silent_eq_ok h
    exact .shrinks rfl rfl (deleteChannel_alone hp).shrinks
  | uploadIcon =>
    obtain ⟨-, p, hp, rfl⟩ := silent_eq_ok h
    exact .shrinks rfl rfl (uploadIcon_alone hp).shrinks
  | openDm =>
    obtain ⟨-, p, hp, rfl⟩ := silent_eq_ok h
    exact .shrinks rfl rfl (openDm_alone hp).shrinks
  | kickMember =>
    obtain ⟨-, p, hp, rfl⟩ := silent_eq_ok h
    exact .shrinks rfl rfl (kickMember_shrinks hp)
  | createTempUser =>
    obtain ⟨p, hp, -, rfl⟩ := gives_eq_ok h
    exact .shrinks rfl rfl (createTempUser_ok hp).1.shrinks
  | revokeTempUser =>
    obtain ⟨-, p, hp, rfl⟩ := silent_eq_ok h
    exact .shrinks rfl rfl (revokeTempUser_alone hp).shrinks
  | joinViaToken token now session =>
    obtain ⟨p, hp, -, rfl⟩ := gives_eq_ok h
    obtain ⟨t, everyone, ht, heveryone, -, hgroups, hmem⟩ := joinViaToken_ok hp
    refine .joins rfl hgroups fun mg => ?_
    rw [hmem, Call.joins, ht]
    simp [heveryone]
  | createInviteLink =>
    obtain ⟨-, p, hp, rfl⟩ := silent_eq_ok h
    exact .shrinks rfl rfl (createInviteLink_alone hp).shrinks
  | redeemInviteLink parses token body now nextId =>
    obtain ⟨p, hp, -, rfl⟩ := gives_eq_ok h
    obtain ⟨l, everyone, hl, heveryone, -, hgroups, -, hmem⟩ := redeemInviteLink_ok hp
    refine .joins rfl hgroups fun mg => ?_
    rw [hmem, Call.joins, hl]
    simp [heveryone, eq_comm]
  | createInvitation =>
    obtain ⟨-, p, hp, rfl⟩ := silent_eq_ok h
    exact .shrinks rfl rfl (createInvitation_alone hp).shrinks
  | acceptInvitation token body now nextId =>
    obtain ⟨p, hp, -, rfl⟩ := gives_eq_ok h
    obtain ⟨i, everyone, hi, heveryone, -, hgroups, -, hmem⟩ := acceptInvitation_ok hp
    refine .joins rfl hgroups fun mg => ?_
    rw [hmem, Call.joins, hi]
    simp [heveryone, eq_comm]
  | deletePendingPermanent =>
    obtain ⟨-, p, hp, rfl⟩ := silent_eq_ok h
    exact .shrinks rfl rfl (deletePendingPermanent_alone hp).shrinks
  | deletePendingTemp =>
    obtain ⟨-, p, hp, rfl⟩ := silent_eq_ok h
    exact .shrinks rfl rfl (deletePendingTemp_alone hp).shrinks
  | deletePendingLink =>
    obtain ⟨-, p, hp, rfl⟩ := silent_eq_ok h
    exact .shrinks rfl rfl (deletePendingLink_alone hp).shrinks

/-- An account that comes of a call is in no group before, or was one of the accounts. -/
theorem Call.account_new {w : Collusion} (hby : call.By w)
    (h : call.run w.db = .ok (some u, db')) :
    (∀ hubId, w.db.groupsOf hubId u = []) ∨ u ∈ w.accounts := by
  cases call with
  | createTempUser =>
    obtain ⟨p, hp, hu, -⟩ := gives_eq_ok h
    obtain rfl := Option.some.inj hu
    exact .inl fun _ => Db.groupsOf_eq_nil (createTempUser_ok hp).2
  | joinViaToken =>
    obtain ⟨p, hp, hu, -⟩ := gives_eq_ok h
    obtain ⟨t, _, ht, -, hid, -⟩ := joinViaToken_ok hp
    rw [Option.some.inj hu, hid]
    exact .inr (hby t ht)
  | redeemInviteLink =>
    obtain ⟨p, hp, hu, -⟩ := gives_eq_ok h
    obtain ⟨_, _, -, -, hid, -, hfresh, -⟩ := redeemInviteLink_ok hp
    rw [Option.some.inj hu, hid]
    exact .inl fun _ => Db.groupsOf_eq_nil hfresh
  | acceptInvitation =>
    obtain ⟨p, hp, hu, -⟩ := gives_eq_ok h
    obtain ⟨_, _, -, -, hid, -, hfresh, -⟩ := acceptInvitation_ok hp
    rw [Option.some.inj hu, hid]
    exact .inl fun _ => Db.groupsOf_eq_nil hfresh
  | _ => cases (silent_eq_ok h).1

/-- Of those that a call puts into a group, an account is one that registers with it or was
one of the accounts. -/
theorem Call.mem_newcomers {w : Collusion} {mg : MemberGroup} (hby : call.By w)
    (h : call.run w.db = .ok (account, db')) (hjoin : mg ∈ call.joins w.db) :
    mg.userId ∈ account.toList ++ w.accounts ↔ mg.userId ∈ call.newcomers ++ w.accounts := by
  cases call with
  | createTempUser => cases hjoin
  | joinViaToken =>
    obtain ⟨p, hp, rfl, -⟩ := gives_eq_ok h
    obtain ⟨t, _, ht, -, hid, -⟩ := joinViaToken_ok hp
    have hold := hby t ht
    simp only [Call.newcomers, Option.toList_some, List.cons_append, List.nil_append,
      List.mem_cons, hid]
    exact ⟨fun hu => hu.elim (· ▸ hold) id, .inr⟩
  | redeemInviteLink =>
    obtain ⟨p, hp, rfl, -⟩ := gives_eq_ok h
    obtain ⟨_, _, -, -, hid, -⟩ := redeemInviteLink_ok hp
    rw [hid]
    rfl
  | acceptInvitation =>
    obtain ⟨p, hp, rfl, -⟩ := gives_eq_ok h
    obtain ⟨_, _, -, -, hid, -⟩ := acceptInvitation_ok hp
    rw [hid]
    rfl
  | _ =>
    rw [(silent_eq_ok h).1]
    rfl

/-- The groups of a user after a call: the ones before, those that the call puts the user
into, and one that it changes. -/
theorem Call.Effect.groupsOf (h : call.Effect db db') {g : Group}
    (hg : g ∈ db'.groupsOf hubId u) : g ∈ db.groupsOf hubId u ∨
      (g ∈ db.groups ∧ g.hubId = hubId ∧ ⟨hubId, u, g.id⟩ ∈ call.joins db) ∨
      ∃ auth body, ∃ g₀ ∈ db.groupsOf hubId u, call = .updateGroup hubId auth g₀.id body ∧
        g = g₀.patch body.name body.color body.position body.hubPermissions ∧
        ∀ bits ∈ body.hubPermissions,
          bits.Within (db.resolveUserPerms hubId auth).grantableBits := by
  obtain ⟨hmem, hhub, hmg⟩ := Db.mem_groupsOf.mp hg
  rcases h with ⟨-, -, hs⟩ | ⟨g₁, -, -, hgroups, hmembers, hfresh⟩ |
    ⟨hubId', auth, groupId, body, target, hcall, -, rfl, hbits⟩ | ⟨-, hgroups, hmembers⟩
  · exact .inl (hs.groupsOf hg)
  · -- a new group has no members
    rw [hmembers] at hmg
    rw [hgroups] at hmem
    rcases List.mem_cons.mp hmem with rfl | hmem
    · obtain ⟨g₂, hg₂, hid⟩ := db.fk_memberGroups _ hmg
      exact absurd hid (hfresh g₂ hg₂)
    · exact .inl (Db.mem_groupsOf.mpr ⟨hmem, hhub, hmg⟩)
  · obtain ⟨g₀, hg₀, heq⟩ := Table.mem_update.mp hmem
    split_ifs at heq with hp
    · obtain ⟨hid, hhub'⟩ := of_decide_eq_true hp
      subst heq
      have hsame : hubId' = hubId := hhub'.symm.trans hhub
      refine .inr (.inr ⟨auth, body, g₀, Db.mem_groupsOf.mpr ⟨hg₀, hhub, hmg⟩, ?_, rfl, ?_⟩)
      · rw [hcall, hsame, hid]
      · rw [← hsame]
        exact hbits
    · subst heq
      exact .inl (Db.mem_groupsOf.mpr ⟨hg₀, hhub, hmg⟩)
  · rw [hgroups] at hmem
    rcases (hmembers _).mp hmg with hjoin | hmg
    · exact .inr (.inl ⟨hmem, hhub, hjoin⟩)
    · exact .inl (Db.mem_groupsOf.mpr ⟨hmem, hhub, hmg⟩)

end Effect

/-! ### Nothing is gained -/

section Contained

variable {hubId : I64} {bits : Bits} {w : Collusion} {call : Call}

theorem Contained.isAdmin (h : Contained hubId bits w) {u : I64} (hu : u ∈ w.accounts) :
    (w.db.resolveUserPerms hubId u).isAdmin = false := by
  rw [← Bool.not_eq_true, Db.isAdmin_iff]
  rintro ⟨g, hg, hhub, hname, hmg⟩
  exact (h u hu g (Db.mem_groupsOf.mpr ⟨hg, hhub, hmg⟩)).1 hname

theorem Contained.hubBits (h : Contained hubId bits w) {u : I64} (hu : u ∈ w.accounts) :
    (w.db.resolveUserPerms hubId u).hubBits.Within bits :=
  Db.hubBits_within.mpr fun g hg hhub hmg => (h u hu g (Db.mem_groupsOf.mpr ⟨hg, hhub, hmg⟩)).2

/-- What an account can write into a group is within what is held. -/
theorem Contained.grantableBits (h : Contained hubId bits w) {u : I64} (hu : u ∈ w.accounts) :
    (w.db.resolveUserPerms hubId u).grantableBits.Within bits := by
  rw [UserPerms.grantableBits, h.isAdmin hu]
  exact h.hubBits hu

/-- **One call**: a checked call of the accounts gains nothing. -/
theorem Contained.next (h : Contained hubId bits w) (hby : call.By w)
    (hchecked : Checked hubId bits w call) : Contained hubId bits (w.next call) := by
  rw [Collusion.next]
  split
  · exact h
  · rename_i account db' hrun
    rw [Checked, hrun] at hchecked
    intro u hu g hg
    have hbefore : ∀ g ∈ w.db.groupsOf hubId u, u ∈ w.accounts := by
      intro g₀ hg₀
      rcases List.mem_append.mp hu with hnew | hold
      · rw [Option.mem_toList.mp hnew] at hrun
        rcases Call.account_new hby hrun with hnil | hold
        · rw [hnil] at hg₀
          cases hg₀
        · exact hold
      · exact hold
    rcases (Call.effect hrun).groupsOf hg with hold | ⟨hmem, hhub, hjoin⟩ |
      ⟨auth, body, g₀, hg₀, rfl, rfl, hbits⟩
    · exact h u (hbefore g hold) g hold
    · exact hchecked.1 _ hjoin rfl ((Call.mem_newcomers hby hrun hjoin).mp hu) g hmem rfl hhub
    · have huold := hbefore g₀ hg₀
      have hharmless := h u huold g₀ hg₀
      obtain ⟨-, -, hmg⟩ := Db.mem_groupsOf.mp hg₀
      refine ⟨fun hname => ?_, ?_⟩
      · -- a group that an account is in is not renamed to `admin`
        rcases hbody : body.name with _ | name
        · rw [Group.patch, hbody] at hname
          exact hharmless.1 hname
        · rw [Group.patch, hbody] at hname
          refine hchecked.2 (hubId, g₀.id) ?_ rfl u huold hmg
          rw [Call.renames, hbody, show name = "admin" from hname, if_pos rfl]
          exact List.mem_singleton_self _
      · rw [Group.patch]
        rcases hbody : body.hubPermissions with _ | newBits
        · exact hharmless.2
        · exact (hbits newBits hbody).trans (h.grantableBits hby)

/-- **The checks are needed**: a call after which nothing is gained was checked. -/
theorem Checked.of_contained (hby : call.By w) (h : Contained hubId bits (w.next call)) :
    Checked hubId bits w call := by
  rw [Checked]
  rw [Collusion.next] at h
  split
  · trivial
  · rename_i reply hrun
    obtain ⟨account, db'⟩ := reply
    rw [hrun] at h
    refine ⟨fun mg hmg hhub hu g hg hid hghub => ?_, fun p hp hhub u hu hmg => ?_⟩
    · rcases Call.effect hrun with ⟨hnil, -⟩ | ⟨-, hnil, -⟩ | ⟨_, _, _, _, _, hcall, -⟩ |
        ⟨-, hgroups, hmembers⟩
      · rw [hnil] at hmg
        cases hmg
      · rw [hnil] at hmg
        cases hmg
      · rw [hcall] at hmg
        cases hmg
      · have hu' := (Call.mem_newcomers hby hrun hmg).mpr hu
        refine h mg.userId hu' g (Db.mem_groupsOf.mpr ⟨hgroups ▸ hg, hghub, ?_⟩)
        rw [hid, ← hhub]
        exact (hmembers mg).mpr (.inl hmg)
    · rcases Call.effect hrun with ⟨-, hnone, -⟩ | ⟨-, -, hnone, -⟩ |
        ⟨hubId', _, groupId, body, target, hcall, htarget, rfl, -⟩ | ⟨hnone, -⟩
      · rw [hnone] at hp
        cases hp
      · rw [hnone] at hp
        cases hp
      · have htarget' := List.find?_some htarget
        obtain ⟨hid, hthub⟩ := of_decide_eq_true htarget'
        rw [hcall, Call.renames] at hp
        split_ifs at hp with hname
        · obtain rfl := List.mem_singleton.mp hp
          refine (h u (List.mem_append_right _ hu) (target.patch body.name body.color body.position
            body.hubPermissions) (Db.mem_groupsOf.mpr ⟨?_, hthub.trans hhub, ?_⟩)).1 ?_
          · refine Table.mem_update.mpr ⟨target, List.mem_of_find?_eq_some htarget, ?_⟩
            rw [if_pos htarget']
          · rw [show (target.patch _ _ _ _).id = _ from hid]
            exact hmg
          · rw [Group.patch, hname]
            rfl
        · cases hp
      · rw [hnone] at hp
        cases hp

/-- At the start nothing has been gained by those who are not admins. -/
theorem Contained.start {db : Db} {members : List I64}
    (hno : ∀ u ∈ members, (db.resolveUserPerms hubId u).isAdmin = false) :
    Contained hubId (db.held hubId members) ⟨db, members⟩ := by
  intro u hu g hg
  obtain ⟨hmem, hhub, hmg⟩ := Db.mem_groupsOf.mp hg
  constructor
  · intro hname
    have hadmin := Db.isAdmin_iff.mpr ⟨g, hmem, hhub, hname, hmg⟩
    rw [hno u hu] at hadmin
    cases hadmin
  · have hheld := BitVec.unions_within.mp (BitVec.Within.refl (db.held hubId members)) u hu
    exact (Db.hubBits_within.mp (BitVec.Within.refl _) g hmem hhub hmg).trans hheld

/-- **Nobody gains anything.** Members who are not admins call what they like, as do the
accounts that come of it. As long as their calls are checked, none of them becomes an admin,
and together they hold nothing that they did not hold at the start. -/
theorem privilege_closed {db : Db} {members : List I64}
    (hno : ∀ u ∈ members, (db.resolveUserPerms hubId u).isAdmin = false)
    (hw : (collusion db members).Reach (Checked hubId (db.held hubId members)) w) :
    (∀ u ∈ w.accounts, (w.db.resolveUserPerms hubId u).isAdmin = false) ∧
      (w.db.held hubId w.accounts).Within (db.held hubId members) := by
  have hcontained : Contained hubId (db.held hubId members) w := by
    refine hw.invariant ?_ ?_
    · rintro _ rfl
      exact .start hno
    · rintro w call _ h hchecked ⟨hby, rfl⟩
      exact h.next hby hchecked
  exact ⟨fun u hu => hcontained.isAdmin hu,
    BitVec.unions_within.mpr fun u hu => hcontained.hubBits hu⟩

end Contained

section Seed

open Seed

/-- What the admin does first: Bob becomes a moderator, who manages the roles. -/
def appointBob : Collusion :=
  [Call.createGroup hub alice ⟨"mods", none, some Bits.manageRoles⟩ (i64 2004),
    .addMemberToGroup hub alice (i64 2004) bob].foldl Collusion.next ⟨devSeed, [alice]⟩

/-- Then Bob makes a group. -/
def bobMakes : Call := .createGroup hub bob ⟨"friends", none, some Bits.manageRoles⟩ (i64 2005)

/-- And he puts Charlie into it. -/
def bobAdds : Call := .addMemberToGroup hub bob (i64 2005) charlie

/-- The hub after that, with the two. -/
def bobHasCalled : Collusion :=
  ((Collusion.mk appointBob.db [bob, charlie]).next bobMakes).next bobAdds

/-- Neither is an admin, and the two hold what Bob held. -/
theorem privilege_closed_bob :
    (∀ u ∈ [bob, charlie], (bobHasCalled.db.resolveUserPerms hub u).isAdmin = false) ∧
      (bobHasCalled.db.held hub [bob, charlie]).Within (appointBob.db.held hub [bob, charlie]) ∧
      bobHasCalled.db.held hub [charlie] = Bits.manageRoles := by
  have hstart : (collusion appointBob.db [bob, charlie]).Reach
      (Checked hub (appointBob.db.held hub [bob, charlie])) ⟨appointBob.db, [bob, charlie]⟩ :=
    .start rfl
  have hmakes := hstart.step (l := bobMakes) (by decide) ⟨List.mem_cons_self, rfl⟩
  have hadds := hmakes.step (l := bobAdds) (by decide) ⟨List.mem_cons_self, rfl⟩
  have hclosed := privilege_closed (by decide) hadds
  exact ⟨hclosed.1, hclosed.2, by decide⟩

/-- **Bob makes himself an admin.** He has no permissions at all, and renames the group that
everyone is in. -/
theorem everyone_renamed :
    (∀ u ∈ [bob], (devSeed.resolveUserPerms hub u).isAdmin = false) ∧
    ∃ w, (collusion devSeed [bob]).Reachable w ∧ bob ∈ w.accounts ∧
      (w.db.resolveUserPerms hub bob).isAdmin = true := by
  refine ⟨by decide, (Collusion.mk devSeed [bob]).next
    (.updateGroup hub bob everyone ⟨some "admin", none, none, none⟩), ?_, ?_⟩
  · exact .step (.start rfl) trivial ⟨List.mem_singleton_self _, rfl⟩
  · decide

end Seed

end Hub

end MateHub
