import MateHub.Hub.Belonging
import MateHub.Hub.Onboarding

/-!
# Out of a hub

`kick_member` takes a member out of a hub, and out of its groups. From then on there are three
ways back (`MateHub.Hub.ApiCall.Readmits`): a member who may assign groups puts the user into
one, the user has come as a guest and walks through the link once more, or the user has an
account of the general service and logs in with it. Nothing else that any endpoint does, nor
where it stops, brings a user back (`MateHub.Hub.out_of_reach`).
-/

namespace MateHub

namespace Hub

open Chat (I64 i64)

/-- **A user is out of a hub**: neither a member of it, nor in a group there. -/
structure Db.Out (db : Db) (hubId userId : I64) : Prop where
  member : ¬ db.IsMember hubId userId
  groups : ∀ mg ∈ db.memberGroups, ¬ (mg.hubId = hubId ∧ mg.userId = userId)

/-- A user that is out stays out, and exists. -/
structure Db.Expelled (db : Db) (hubId userId : I64) : Prop extends db.Out hubId userId where
  user : ∃ u ∈ db.users, u.id = userId

section Statements

variable {db db' : Db} {hubId userId : I64} {w : Write}

/-- **No statement removes a user.** -/
theorem Write.keeps_user (h : w.exec db = some db') :
    ∀ u ∈ db.users, ∃ u' ∈ db'.users, u'.id = u.id := by
  intro u hu
  have hupdate : ∀ (p : User → Bool) (f : User → User), (∀ u, (f u).id = u.id) →
      ∃ u' ∈ Table.update p f db.users, u'.id = u.id := by
    intro p f hf
    refine ⟨_, Table.mem_update.mpr ⟨u, hu, rfl⟩, ?_⟩
    split
    · exact hf u
    · rfl
  cases w with
  | insertUser u₀ =>
    rw [Onboarding.users_insertUser (exec_insertUser_eq_some h)]
    exact ⟨u, List.mem_cons_of_mem _ hu, rfl⟩
  | expireUser userId now =>
    obtain rfl := Option.some.inj h
    exact hupdate _ _ fun _ => rfl
  | setEmail userId email =>
    rw [Write.exec, Db.setEmail] at h
    split_ifs at h
    obtain rfl := Option.some.inj h
    exact hupdate _ _ fun _ => rfl
  | _ =>
    have hsame : db'.users = db.users := Write.untouched h .users rfl
    rw [hsame]
    exact ⟨u, hu, rfl⟩

/-- A statement does not bring a user back. -/
def Write.KeepsOut (hubId userId : I64) : Write → Prop
  | insertMemberGroup mg => ¬ (mg.hubId = hubId ∧ mg.userId = userId)
  | insertHubMember m | insertHubMemberNew m => ¬ (m.hubId = hubId ∧ m.userId = userId)
  | _ => True

theorem Write.out (h : db.Out hubId userId) (hw : w.KeepsOut hubId userId)
    (hexec : w.exec db = some db') : db'.Out hubId userId := by
  have hsame := w.untouched hexec
  have hmember : db'.hubMembers ⊆ db.hubMembers → ¬ db'.IsMember hubId userId := by
    intro hsub hmem
    obtain ⟨m, hm, hid⟩ := isMember_iff.mp hmem
    exact h.member (isMember_iff.mpr ⟨m, hsub hm, hid⟩)
  have hgroups : db'.memberGroups ⊆ db.memberGroups →
      ∀ mg ∈ db'.memberGroups, ¬ (mg.hubId = hubId ∧ mg.userId = userId) :=
    fun hsub mg hmg => h.groups mg (hsub hmg)
  have hrefl {α : Type} {l l' : List α} (heq : l = l') : l ⊆ l' := heq ▸ List.Subset.refl _
  cases w with
  | insertMemberGroup mg' =>
    refine ⟨hmember (hrefl (hsame .hubMembers rfl)), fun mg hmg => ?_⟩
    rcases ((Db.insertMemberGroup_eq_some hexec).2 mg).mp hmg with rfl | hmg
    · exact hw
    · exact h.groups mg hmg
  | deleteMemberGroup | deleteMemberGroups =>
    obtain rfl := Option.some.inj hexec
    exact ⟨hmember (List.Subset.refl _), hgroups fun _ hmg => (Table.mem_delete.mp hmg).1⟩
  | deleteGroup hubId groupId =>
    obtain rfl := Option.some.inj hexec
    exact ⟨hmember (hrefl (hsame .hubMembers rfl)),
      hgroups fun _ hmg => Db.deleteGroupRow_shrinks.memberGroups hmg⟩
  | insertHubMember m =>
    refine ⟨fun hmem => ?_, hgroups (hrefl (hsame .memberGroups rfl))⟩
    rw [Write.exec, Db.insertHubMember] at hexec
    split_ifs at hexec
    obtain ⟨rows, hrows, rfl⟩ := Option.map_eq_some_iff.mp hexec
    obtain ⟨m', hm', hid⟩ := isMember_iff.mp hmem
    rcases (Table.mem_insert hrows).mp hm' with rfl | hm'
    · exact hw hid
    · exact h.member (isMember_iff.mpr ⟨m', hm', hid⟩)
  | insertHubMemberNew m =>
    refine ⟨fun hmem => ?_, hgroups (hrefl (hsame .memberGroups rfl))⟩
    rw [Write.exec, Db.insertHubMemberNew] at hexec
    split_ifs at hexec
    obtain rfl := Option.some.inj hexec
    obtain ⟨m', hm', hid⟩ := isMember_iff.mp hmem
    rcases Table.mem_of_mem_insertNew hm' with rfl | hm'
    · exact hw hid
    · exact h.member (isMember_iff.mpr ⟨m', hm', hid⟩)
  | deleteHubMember =>
    obtain rfl := Option.some.inj hexec
    exact ⟨hmember fun _ hm => (Table.mem_delete.mp hm).1, hgroups (List.Subset.refl _)⟩
  | _ =>
    exact ⟨hmember (hrefl (hsame .hubMembers rfl)), hgroups (hrefl (hsame .memberGroups rfl))⟩

theorem Write.expelled (h : db.Expelled hubId userId) (hw : w.KeepsOut hubId userId)
    (hexec : w.exec db = some db') : db'.Expelled hubId userId := by
  obtain ⟨u, hu, hid⟩ := h.user
  obtain ⟨u', hu', hid'⟩ := Write.keeps_user hexec u hu
  exact ⟨Write.out h.toOut hw hexec, u', hu', hid'.trans hid⟩

/-- A user that is made is another one. -/
theorem ne_of_insertUser {u : User} (h : ∃ u ∈ db.users, u.id = userId)
    (hexec : Write.exec db (.insertUser u) = some db') : u.id ≠ userId := by
  obtain ⟨u', hu', rfl⟩ := h
  exact fun heq => (Db.insertUser_eq_ok (exec_insertUser_eq_some hexec)).2 u' hu' heq.symm

/-! ### Calls -/

/-- **An endpoint brings a user back**: a member who may do so puts the user into a group, the
user is a guest that walks through the link, or logs in with an account. -/
def ApiCall.Readmits (ssoHub : I64) (st : Service) (hubId userId : I64) : ApiCall → Prop
  | .call (.addMemberToGroup h auth groupId u) =>
    (h = hubId ∧ u = userId) ∧ mayAssign st.db h auth groupId = true
  | .call (.joinViaToken token now _) =>
    ∃ t, joinRow? st.db token now = some t ∧ t.hubId = hubId ∧ t.userId = userId
  | .ssoLogin x _ => ssoHub = hubId ∧ st.accountUser? x.accountId = some userId
  | _ => False

/-- A registration of somebody else. -/
theorem along_registerWrites_other {h u : I64} {db₀ : Db} {ids : I64 → List I64}
    (hne : u ≠ userId) :
    Script.Along Write.exec (fun _ w => w.KeepsOut hubId userId) db
      (registerWrites db₀ h u ids) := by
  refine Script.along_of_forall fun w hw _ => ?_
  rw [registerWrites, List.mem_cons, List.mem_flatMap] at hw
  rcases hw with rfl | ⟨everyone, -, hw⟩
  · exact fun heq => hne heq.2
  · obtain ⟨gid, -, rfl⟩ := List.mem_map.mp hw
    exact fun heq => hne heq.2

/-- A script none of whose statements makes somebody a member. -/
theorem along_keepsOut {ws : List Write}
    (h : ∀ w ∈ ws, w.touches .memberGroups = false ∧ w.touches .hubMembers = false) :
    Script.Along Write.exec (fun _ w => w.KeepsOut hubId userId) db ws := by
  refine Script.along_of_forall fun w hw _ => ?_
  obtain ⟨hgroups, hmembers⟩ := h w hw
  cases w with
  | insertMemberGroup => cases hgroups
  | insertHubMember | insertHubMemberNew => cases hmembers
  | _ => trivial

/-- **The script of a call** brings nobody back, if the call does not. -/
theorem Call.along_keepsOut {ssoHub : I64} {st : Service} {call : Call} {account : Option I64}
    (huser : ∃ u ∈ st.db.users, u.id = userId)
    (hno : ¬ ApiCall.Readmits ssoHub st hubId userId (.call call))
    (hrun : call.run st.db = .ok (account, db')) :
    Script.Along Write.exec (fun _ w => w.KeepsOut hubId userId) st.db (call.writes st.db) := by
  cases call with
  | addMemberToGroup h auth groupId u =>
    obtain ⟨-, p, hp, -⟩ := silent_eq_ok hrun
    refine ⟨fun heq => ?_, fun _ _ => trivial⟩
    exact hno ⟨heq, (addMemberToGroup_eq_ok hp).1⟩
  | joinViaToken token now session =>
    refine Script.along_of_forall fun w hw _ => ?_
    obtain ⟨t, ht, hw⟩ := List.mem_flatMap.mp hw
    have hne : ¬ (t.hubId = hubId ∧ t.userId = userId) :=
      fun heq => hno ⟨t, Option.mem_toList.mp ht, heq⟩
    obtain ⟨everyone, -, hw⟩ := List.mem_flatMap.mp hw
    rcases List.mem_cons.mp hw with rfl | hw
    · exact hne
    · rcases List.mem_append.mp hw with hw | hw
      · obtain ⟨gid, -, rfl⟩ := List.mem_map.mp hw
        exact hne
      · rw [List.mem_singleton.mp hw]
        trivial
  | redeemInviteLink parses token body now nextId =>
    dsimp only [writes]
    cases hl : claim? st.db token now with
    | none => trivial
    | some l =>
      rw [Option.toList_some, List.flatMap_singleton]
      refine ⟨trivial, fun db₁ h₁ => ⟨trivial, fun db₂ h₂ => along_registerWrites_other ?_⟩⟩
      obtain ⟨u, hu, hid⟩ := huser
      obtain ⟨u', hu', hid'⟩ := Write.keeps_user h₁ u hu
      exact ne_of_insertUser ⟨u', hu', hid'.trans hid⟩ h₂
  | acceptInvitation token body now nextId =>
    dsimp only [writes]
    cases hi : st.db.invitations.find? fun i => i.token == token with
    | none => trivial
    | some i =>
      rw [Option.toList_some, List.flatMap_singleton]
      refine ⟨trivial, fun db₁ h₁ => Script.along_append.mpr
        ⟨along_registerWrites_other (ne_of_insertUser huser h₁), fun _ _ => ?_⟩⟩
      exact ⟨trivial, fun _ _ => trivial⟩
  | createChannel h auth body nextId =>
    refine Hub.along_keepsOut fun w hw => ?_
    rcases List.mem_cons.mp hw with rfl | hw
    · exact ⟨rfl, rfl⟩
    · obtain ⟨g, -, rfl⟩ := List.mem_map.mp hw
      exact ⟨rfl, rfl⟩
  | openDm h auth other nextId =>
    refine Hub.along_keepsOut fun w hw => ?_
    dsimp only [writes] at hw
    split at hw <;> simp only [List.mem_cons, List.not_mem_nil, or_false] at hw
    · rcases hw with rfl | rfl <;> exact ⟨rfl, rfl⟩
    · rcases hw with rfl | rfl | rfl <;> exact ⟨rfl, rfl⟩
  | kickMember | revokeTempUser | deletePendingTemp | createTempUser =>
    exact ⟨trivial, fun _ _ => ⟨trivial, fun _ _ => trivial⟩⟩
  | _ => exact ⟨trivial, fun _ _ => trivial⟩

theorem Call.halfway_expelled {call : Call} (h : db.Expelled hubId userId)
    (hhalf : db' ∈ call.halfway db) : db'.Expelled hubId userId := by
  cases call with
  | createChannel hub auth body nextId =>
    dsimp only [halfway] at hhalf
    split_ifs at hhalf
    · exact Write.expelled (w := .insertChannel _) h trivial hhalf
    · cases hhalf
  | kickMember hub auth u =>
    dsimp only [halfway] at hhalf
    split_ifs at hhalf
    · exact Write.expelled (w := .deleteMemberGroups hub u) h trivial hhalf
    · cases hhalf
  | _ => cases hhalf

/-- The script of a setup, whose user is new. -/
theorem along_setup {body : SetupAdmin} {ids : SetupIds}
    (huser : ∃ u ∈ db.users, u.id = userId) :
    Script.Along Write.exec (fun _ w => w.KeepsOut hubId userId) db
      (.insertUser (body.user ids.userId) :: setupRows ids) := by
  refine ⟨trivial, fun db₁ h₁ => Script.along_of_forall fun w hw _ => ?_⟩
  have hne : ids.userId ≠ userId := ne_of_insertUser huser h₁
  simp only [setupRows, List.mem_cons, List.not_mem_nil, or_false] at hw
  rcases hw with rfl | rfl | rfl | rfl | rfl | rfl | rfl | rfl
  case inr.inr.inr.inl | inr.inr.inr.inr.inl | inr.inr.inr.inr.inr.inl => exact fun heq => hne heq.2
  all_goals trivial

/-- The script of a login, of another user. -/
theorem along_sso {st : Service} {ssoHub newUserId : I64} {x : ExchangeResponse}
    (huser : ∃ u ∈ st.db.users, u.id = userId)
    (hno : ¬ ApiCall.Readmits ssoHub st hubId userId (.ssoLogin x newUserId)) :
    Script.Along Write.exec (fun _ w => w.KeepsOut hubId userId) st.db
      (st.ssoWrites ssoHub x newUserId) := by
  have hrows {u : I64} {db₁ : Db} (hne : ¬ (ssoHub = hubId ∧ u = userId)) :
      Script.Along Write.exec (fun _ w => w.KeepsOut hubId userId) db₁ (st.ssoRows ssoHub u) := by
    refine Script.along_of_forall fun w hw _ => ?_
    rcases List.mem_cons.mp hw with rfl | hw
    · exact hne
    · obtain ⟨everyone, -, rfl⟩ := List.mem_map.mp hw
      exact hne
  rw [Service.ssoWrites]
  split
  · rename_i u hknown
    refine ⟨trivial, fun db₁ _ => hrows fun heq => hno ⟨heq.1, ?_⟩⟩
    rw [hknown, heq.2]
  · exact ⟨trivial, fun db₁ h₁ => hrows fun heq => ne_of_insertUser huser h₁ heq.2⟩

/-- **An endpoint that does not bring a user back**, wherever it stops. -/
theorem ApiCall.expelled {ssoHub : I64} {st st' : Service} {a : ApiCall}
    (h : st.db.Expelled hubId userId) (hno : ¬ a.Readmits ssoHub st hubId userId)
    (hleaves : st' ∈ a.leaves ssoHub st) : st'.db.Expelled hubId userId := by
  have hkeeps (db₁ : Db) (w : Write) (db₂ : Db) (h₁ : db₁.Expelled hubId userId)
      (hw : w.KeepsOut hubId userId) (hexec : w.exec db₁ = some db₂) :
      db₂.Expelled hubId userId := Write.expelled h₁ hw hexec
  cases a with
  | call c =>
    obtain ⟨db₁, hdb, rfl⟩ := List.mem_map.mp hleaves
    rcases Call.stops hdb with rfl | hhalf | ⟨account, hrun⟩
    · exact h
    · exact Call.halfway_expelled h hhalf
    · exact (Script.stops_of_run (Call.run_writes hrun)).invariant
        (I := fun db => db.Expelled hubId userId) hkeeps h (Call.along_keepsOut h.user hno hrun)
  | setupAdmin body ids =>
    exact (ApiCall.stops_of_leaves hleaves).invariant
        (I := fun db => db.Expelled hubId userId) hkeeps h (along_setup h.user)
  | ssoLogin x newUserId =>
    exact (ApiCall.stops_of_leaves hleaves).invariant
        (I := fun db => db.Expelled hubId userId) hkeeps h (along_sso h.user hno)

/-- **A kick takes the user out.** -/
theorem out_of_kickMember {auth : I64} (h : kickMember db hubId auth userId = .ok ((), db')) :
    db'.Out hubId userId ∧ db'.users = db.users := by
  simp only [kickMember, require_eq_ok] at h
  obtain ⟨-, -, -, -, hr⟩ := h
  obtain ⟨-, rfl⟩ := Prod.mk.inj (Except.ok.inj hr)
  refine ⟨⟨fun hmem => ?_, fun mg hmg heq => ?_⟩, rfl⟩
  · obtain ⟨m, hm, hid⟩ := isMember_iff.mp hmem
    exact of_decide_eq_false (Table.mem_delete.mp hm).2 hid
  · exact of_decide_eq_false (Table.mem_delete.mp hmg).2 heq

/-- Who is out of a hub has no groups there, and no rows of its channels count. -/
theorem Db.Out.groupsOf (h : db.Out hubId userId) :
    db.groupsOf hubId userId = [] ∧ ∀ channelId, db.channelPermsOf hubId channelId userId = [] := by
  refine ⟨List.filter_eq_nil_iff.mpr fun g _ hg => ?_, fun channelId =>
    List.filter_eq_nil_iff.mpr fun cp _ hcp => ?_⟩
  · exact h.groups _ (of_decide_eq_true hg).2 ⟨rfl, rfl⟩
  · exact h.groups _ (of_decide_eq_true hcp).2 ⟨rfl, rfl⟩

/-! ### Runs -/

/-- **A user that has been kicked stays out**: in every run of the endpoints from a database
that `kick_member` has left, whatever fails, as long as none of the endpoints brings the user
back, the user is not a member of the hub, is in no group there, and has no permission. -/
theorem out_of_reach {ssoHub auth : I64} {st : Service}
    (hkick : kickMember db hubId auth userId = .ok ((), db'))
    (huser : ∃ u ∈ db.users, u.id = userId)
    (hst : (hubApi ssoHub fun st => st.db = db').Reach
      (fun st a => ¬ a.Readmits ssoHub st hubId userId) st) :
    (∀ m ∈ st.db.hubMembers, ¬ (m.hubId = hubId ∧ m.userId = userId)) ∧
      (∀ mg ∈ st.db.memberGroups, ¬ (mg.hubId = hubId ∧ mg.userId = userId)) ∧
      ∀ bit ≠ 0, (st.db.resolveUserPerms hubId userId).has bit = false := by
  obtain ⟨hout, husers⟩ := out_of_kickMember hkick
  have hexpelled : st.db.Expelled hubId userId := by
    refine hst.invariant (I := fun st => st.db.Expelled hubId userId) ?_ ?_
    · rintro st rfl
      exact ⟨hout, husers ▸ huser⟩
    · exact fun st a st' h hno hstep => ApiCall.expelled h hno hstep
  refine ⟨fun m hm hid => ?_, hexpelled.groups, fun bit hbit => ?_⟩
  · exact hexpelled.member (isMember_iff.mpr ⟨m, hm, hid⟩)
  · exact Db.has_eq_false hexpelled.groupsOf.1 hbit

end Statements

namespace Seed

/-- Alice has kicked Bob. -/
def bobKicked : Db :=
  match kickMember devSeed hub alice bob with
  | .ok (_, db) => db
  | .error _ => devSeed

/-- And she puts Charlie into a group. -/
def charlieAdded : Service :=
  Service.after hub ⟨bobKicked, []⟩ (.call (.addMemberToGroup hub alice everyone charlie))

theorem out_of_reach_bob :
    (devSeed.memberGroups.any fun mg => mg.hubId = hub ∧ mg.userId = bob) = true ∧
      (charlieAdded.db.memberGroups.any fun mg => mg.hubId = hub ∧ mg.userId = bob) = false := by
  have hkick : kickMember devSeed hub alice bob = .ok ((), bobKicked) := rfl
  have hstart : (hubApi hub fun st => st.db = bobKicked).Reach
      (fun st a => ¬ a.Readmits hub st hub bob) ⟨bobKicked, []⟩ := .start rfl
  have hreach : (hubApi hub fun st => st.db = bobKicked).Reach
      (fun st a => ¬ a.Readmits hub st hub bob) charlieAdded := by
    refine .step hstart (fun h => ?_) (Service.after_mem hub ⟨bobKicked, []⟩ _)
    exact absurd h.1.2 (by decide)
  have hgroups := (out_of_reach hkick (by decide) hreach).2.1
  refine ⟨by decide, List.any_eq_false.mpr fun mg hmg heq => ?_⟩
  exact hgroups mg hmg (of_decide_eq_true heq)

end Seed

end Hub

end MateHub
