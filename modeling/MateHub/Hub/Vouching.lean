import MateHub.Hub.Expelled
import MateHub.Lib.Sequences

/-!
# Who lets whom into a hub

A user comes into a hub through one of few doors. Somebody sets the hub up, or has an account of
the general service and logs in; a member who may assign groups puts the user into one; or the
user comes with the token of a guest, an invitation or a link, which a member has made who may do
so. So whoever is in a hub has been let in by somebody who was let in before, and so on back to
somebody who set the hub up or logged in (`MateHub.Hub.letIn_of_reach`), whatever fails on the
way, and whoever has left or has been kicked since. In particular nobody ever gets into a hub that
nobody has set up and that logins do not lead to (`MateHub.Hub.Roll.founder`).
-/

namespace MateHub

namespace Hub

open Chat (I64 i64)

/-! ### What happens -/

/-- How a user comes into a hub. -/
inductive Door
  | setup
  | sso
  /-- A member puts the user into a group. -/
  | assigned (auth : I64)
  /-- The user has a token. -/
  | token (token : String)
  deriving DecidableEq

/-- What is entered in the roll. -/
inductive RollEvent
  /-- There is a token, with which one comes into a hub, and somebody has made it. -/
  | offered (hubId : I64) (token : String) (createdBy : I64)
  | entered (hubId userId : I64) (door : Door)
  deriving DecidableEq

/-- The hub in which it happens. -/
def RollEvent.hubId : RollEvent → I64
  | offered hubId _ _ | entered hubId _ _ => hubId

/-- **What an event rests on**: who puts a user into a group or makes a token has come into the
hub, and a token that is used has been made. -/
def RollEvent.rests (ssoHub : I64) : RollEvent → (RollEvent → Prop) → Prop
  | offered hubId _ createdBy, S => ∃ door, S (.entered hubId createdBy door)
  | entered _ _ .setup, _ => True
  | entered hubId _ .sso, _ => hubId = ssoHub
  | entered hubId _ (.assigned auth), S => ∃ door, S (.entered hubId auth door)
  | entered hubId _ (.token token), S => ∃ createdBy, S (.offered hubId token createdBy)

theorem RollEvent.rests_mono (ssoHub : I64) : Grounds.Mono (RollEvent.rests ssoHub) := by
  intro e S S' hS h
  match e with
  | offered _ _ _ | entered _ _ (.assigned _) | entered _ _ (.token _) =>
    obtain ⟨x, hx⟩ := h
    exact ⟨x, hS _ hx⟩
  | entered _ _ .setup | entered _ _ .sso => exact h

/-- The hub that a token leads into, the token, and who has made it. -/
def TempUser.offer (t : TempUser) : I64 × String × I64 := (t.hubId, t.token, t.createdBy)

/-- What an invitation offers: its hub, its token, and who has made it. -/
def Invitation.offer (i : Invitation) : I64 × String × I64 := (i.hubId, i.token, i.createdBy)

/-- What a link offers: its hub, its token, and who has made it. -/
def InviteLink.offer (l : InviteLink) : I64 × String × I64 := (l.hubId, l.token, l.createdBy)

namespace Db

variable (db : Db)

/-- The hubs and the users that are in them: as members, or in a group. -/
def belongings : List (I64 × I64) :=
  db.hubMembers.map (fun m => (m.hubId, m.userId)) ++
    db.memberGroups.map fun mg => (mg.hubId, mg.userId)

/-- The tokens that there are. -/
def offers : List (I64 × String × I64) :=
  db.tempUsers.map TempUser.offer ++
    (db.invitations.map Invitation.offer ++ db.inviteLinks.map InviteLink.offer)

end Db

/-- The door that an endpoint opens. -/
def ApiCall.door? : ApiCall → Option Door
  | .call (.addMemberToGroup _ auth _ _) => some (.assigned auth)
  | .call (.joinViaToken token _ _) => some (.token token)
  | .call (.redeemInviteLink _ token _ _ _) => some (.token token)
  | .call (.acceptInvitation token _ _ _) => some (.token token)
  | .call _ => none
  | .setupAdmin _ _ => some .setup
  | .ssoLogin _ _ => some .sso

/-- What happens when an endpoint leaves another database: who is in a hub that was not there
before, and which tokens there are that were not. -/
def ApiCall.events (a : ApiCall) (db db' : Db) : List RollEvent :=
  (a.door?.toList.flatMap fun door =>
    (db'.belongings.filter fun p => decide (p ∉ db.belongings)).dedup.map fun p =>
      .entered p.1 p.2 door) ++
  (db'.offers.filter fun o => decide (o ∉ db.offers)).map fun o => .offered o.1 o.2.1 o.2.2

/-- The service, and what has happened, latest first. -/
structure Roll where
  st : Service
  log : List RollEvent

/-- The endpoints, from where nobody is in a hub and there are no tokens. -/
def rolls (ssoHub : I64) : System Roll ApiCall where
  init r := r.st.db.belongings = [] ∧ r.st.db.offers = [] ∧ r.log = []
  step r a r' := r'.st ∈ a.leaves ssoHub r.st ∧
    r'.log = a.events r.st.db r'.st.db ++ r.log

/-- An event stands. -/
def Roll.Stands (ssoHub : I64) (r : Roll) : RollEvent → Prop :=
  Grounds.Stands (RollEvent.rests ssoHub) r.log

/-! ### Statements -/

section Statements

variable {db db' : Db} {hubId userId : I64} {w : Write}

theorem mem_belongings : (hubId, userId) ∈ db.belongings ↔ ¬ db.Out hubId userId := by
  rw [Db.belongings, List.mem_append]
  constructor
  · rintro (hmem | hmem) hout
    · exact hout.member hmem
    · obtain ⟨mg, hmg, heq⟩ := List.mem_map.mp hmem
      exact hout.groups mg hmg (Prod.mk.inj heq)
  · intro hin
    by_contra hnot
    obtain ⟨hmember, hgroups⟩ := not_or.mp hnot
    exact hin ⟨hmember, fun mg hmg heq =>
      hgroups (List.mem_map.mpr ⟨mg, hmg, Prod.ext heq.1 heq.2⟩)⟩

/-- Whoever is in a hub after a statement was there before, or is brought in by it. -/
theorem Write.belongings (hexec : w.exec db = some db')
    (h : (hubId, userId) ∈ db'.belongings) :
    (hubId, userId) ∈ db.belongings ∨ ¬ w.KeepsOut hubId userId := by
  by_contra hnot
  obtain ⟨hbefore, hkeeps⟩ := not_or.mp hnot
  have hout : db.Out hubId userId := not_not.mp fun hin => hbefore (mem_belongings.mpr hin)
  exact mem_belongings.mp h (Write.out hout (not_not.mp hkeeps) hexec)

/-- The token that a statement makes. -/
def Write.offer? : Write → Option (I64 × String × I64)
  | insertTempUser t => some t.offer
  | insertInvitation i => some i.offer
  | insertInviteLink l => some l.offer
  | _ => none

theorem mem_offers {o : I64 × String × I64} : o ∈ db.offers ↔
    (∃ t ∈ db.tempUsers, t.offer = o) ∨ (∃ i ∈ db.invitations, i.offer = o) ∨
      ∃ l ∈ db.inviteLinks, l.offer = o := by
  simp [Db.offers]

/-- No table has got a new token. -/
theorem mem_offers_of_subset {o : I64 × String × I64} (h : o ∈ db'.offers)
    (htemp : db'.tempUsers.map TempUser.offer ⊆ db.tempUsers.map TempUser.offer)
    (hinv : db'.invitations.map Invitation.offer ⊆ db.invitations.map Invitation.offer)
    (hlinks : db'.inviteLinks.map InviteLink.offer ⊆ db.inviteLinks.map InviteLink.offer) :
    o ∈ db.offers := by
  rcases List.mem_append.mp h with h | h
  · exact List.mem_append_left _ (htemp h)
  · rcases List.mem_append.mp h with h | h
    · exact List.mem_append_right _ (List.mem_append_left _ (hinv h))
    · exact List.mem_append_right _ (List.mem_append_right _ (hlinks h))

/-- A column that a statement does not write. -/
theorem map_update_subset {ρ ω : Type} {p : ρ → Bool} {f : ρ → ρ} {g : ρ → ω} {rows : List ρ}
    (hg : ∀ r, g (f r) = g r) : (Table.update p f rows).map g ⊆ rows.map g := by
  rw [Table.map_update_of_eq hg]
  exact List.Subset.refl _

/-- **The tokens after a statement** were there before, or one is made by it. -/
theorem Write.offers (hexec : w.exec db = some db') {o : I64 × String × I64}
    (h : o ∈ db'.offers) : o ∈ db.offers ∨ w.offer? = some o := by
  have hsame := w.untouched hexec
  have hrefl {ρ : Type} (l : List ρ) : l ⊆ l := List.Subset.refl l
  cases w with
  | insertTempUser t =>
    rcases mem_offers.mp h with ⟨t', ht', rfl⟩ | ⟨i, hi, rfl⟩ | ⟨l, hl, rfl⟩
    · rcases mem_tempUsers_insert hexec ht' with rfl | ht'
      · exact .inr rfl
      · exact .inl (mem_offers.mpr (.inl ⟨t', ht', rfl⟩))
    · exact .inl (mem_offers.mpr (.inr (.inl ⟨i, hsame .invitations rfl ▸ hi, rfl⟩)))
    · exact .inl (mem_offers.mpr (.inr (.inr ⟨l, hsame .inviteLinks rfl ▸ hl, rfl⟩)))
  | insertInvitation i =>
    rcases mem_offers.mp h with ⟨t, ht, rfl⟩ | ⟨i', hi', rfl⟩ | ⟨l, hl, rfl⟩
    · exact .inl (mem_offers.mpr (.inl ⟨t, hsame .tempUsers rfl ▸ ht, rfl⟩))
    · rcases mem_invitations_insert hexec hi' with rfl | hi'
      · exact .inr rfl
      · exact .inl (mem_offers.mpr (.inr (.inl ⟨i', hi', rfl⟩)))
    · exact .inl (mem_offers.mpr (.inr (.inr ⟨l, hsame .inviteLinks rfl ▸ hl, rfl⟩)))
  | insertInviteLink l =>
    rcases mem_offers.mp h with ⟨t, ht, rfl⟩ | ⟨i, hi, rfl⟩ | ⟨l', hl', rfl⟩
    · exact .inl (mem_offers.mpr (.inl ⟨t, hsame .tempUsers rfl ▸ ht, rfl⟩))
    · exact .inl (mem_offers.mpr (.inr (.inl ⟨i, hsame .invitations rfl ▸ hi, rfl⟩)))
    · rcases mem_inviteLinks_insert hexec hl' with rfl | hl'
      · exact .inr rfl
      · exact .inl (mem_offers.mpr (.inr (.inr ⟨l', hl', rfl⟩)))
  | revokeTempUser | seatTempUser =>
    obtain rfl := Option.some.inj hexec
    exact .inl (mem_offers_of_subset h (map_update_subset fun _ => rfl) (hrefl _) (hrefl _))
  | useInvitation =>
    obtain rfl := Option.some.inj hexec
    exact .inl (mem_offers_of_subset h (hrefl _) (map_update_subset fun _ => rfl) (hrefl _))
  | deleteInvitation =>
    obtain rfl := Option.some.inj hexec
    exact .inl (mem_offers_of_subset h (hrefl _)
      (List.map_subset _ (List.filter_subset_self _)) (hrefl _))
  | claimSlot | revokeInviteLink =>
    obtain rfl := Option.some.inj hexec
    exact .inl (mem_offers_of_subset h (hrefl _) (hrefl _) (map_update_subset fun _ => rfl))
  | deleteGroup hubId groupId =>
    obtain rfl := Option.some.inj hexec
    rw [Db.deleteGroupRow] at h
    split at h
    · exact .inl h
    · exact .inl (mem_offers_of_subset h (List.map_subset _ (List.filter_subset_self _))
        (map_update_subset fun _ => rfl) (map_update_subset fun _ => rfl))
  | _ =>
    have heq : db'.offers = db.offers := by
      rw [Db.offers, Db.offers, hsame .tempUsers rfl, hsame .invitations rfl,
        hsame .inviteLinks rfl]
    exact .inl (heq ▸ h)

/-- Whoever has a permission in a hub is in it. -/
theorem mem_belongings_of_has {bit : Bits} (hbit : bit ≠ 0)
    (h : (db.resolveUserPerms hubId userId).has bit = true) :
    (hubId, userId) ∈ db.belongings := by
  refine mem_belongings.mpr fun hout => ?_
  rw [Db.has_eq_false hout.groupsOf.1 hbit] at h
  cases h

end Statements

/-! ### What statements rest on -/

/-- An event rests on those who are in the hubs, and on the tokens. -/
def RollEvent.Backed (ssoHub : I64) (db : Db) (e : RollEvent) : Prop :=
  e.rests ssoHub fun
    | .entered hubId userId _ => (hubId, userId) ∈ db.belongings
    | .offered hubId token createdBy => (hubId, token, createdBy) ∈ db.offers

/-- **What a statement brings about** through some door rests on what there is. -/
structure Write.Backed (ssoHub : I64) (db : Db) (door? : Option Door) (w : Write) : Prop where
  entered : ∀ hubId userId, ¬ w.KeepsOut hubId userId →
    ∃ door, door? = some door ∧ (RollEvent.entered hubId userId door).Backed ssoHub db
  offered : ∀ o, w.offer? = some o → (RollEvent.offered o.1 o.2.1 o.2.2).Backed ssoHub db

/-- **What is new in a database** rests on what there is in another one. -/
structure Db.Backs (ssoHub : I64) (db : Db) (door? : Option Door) (db' : Db) : Prop where
  entered : ∀ hubId userId, (hubId, userId) ∈ db'.belongings → (hubId, userId) ∉ db.belongings →
    ∃ door, door? = some door ∧ (RollEvent.entered hubId userId door).Backed ssoHub db
  offered : ∀ o ∈ db'.offers, o ∉ db.offers →
    (RollEvent.offered o.1 o.2.1 o.2.2).Backed ssoHub db

section Backs

variable {ssoHub hubId userId auth : I64} {db db₁ db₂ : Db} {door? : Option Door} {door : Door}
  {w : Write} {token : String} {call : Call} {st st' : Service} {a : ApiCall}

theorem Db.backs_refl : db.Backs ssoHub door? db :=
  ⟨fun _ _ h hnot => absurd h hnot, fun _ h hnot => absurd h hnot⟩

/-- **A statement adds what is backed.** -/
theorem Write.backs (h : db.Backs ssoHub door? db₁) (hw : w.Backed ssoHub db door?)
    (hexec : w.exec db₁ = some db₂) : db.Backs ssoHub door? db₂ where
  entered := by
    intro hubId userId hmem hnot
    rcases Write.belongings hexec hmem with hmem | hbrings
    · exact h.entered hubId userId hmem hnot
    · exact hw.entered hubId userId hbrings
  offered := by
    intro o ho hnot
    rcases Write.offers hexec ho with ho | hmakes
    · exact h.offered o ho hnot
    · exact hw.offered o hmakes

/-- A statement that brings nobody into a hub and makes no token. -/
theorem Write.backed_of_silent (hk : ∀ hubId userId, w.KeepsOut hubId userId)
    (ho : w.offer? = none) : w.Backed ssoHub db door? :=
  ⟨fun hubId userId hbrings => absurd (hk hubId userId) hbrings,
    fun _ hmakes => nomatch ho.symm.trans hmakes⟩

/-- A statement that brings one user into a hub. -/
theorem Write.backed_of_brings (hin : (RollEvent.entered hubId userId door).Backed ssoHub db)
    (hk : ∀ hub user, ¬ w.KeepsOut hub user → hubId = hub ∧ userId = user)
    (ho : w.offer? = none) : w.Backed ssoHub db (some door) := by
  refine ⟨fun hub user hbrings => ?_, fun _ hmakes => nomatch ho.symm.trans hmakes⟩
  obtain ⟨rfl, rfl⟩ := hk hub user hbrings
  exact ⟨door, rfl, hin⟩

/-- A statement that makes a token. -/
theorem Write.backed_of_makes (hin : (hubId, auth) ∈ db.belongings)
    (hk : ∀ hubId userId, w.KeepsOut hubId userId) (ho : w.offer? = some (hubId, token, auth)) :
    w.Backed ssoHub db door? := by
  refine ⟨fun hub user hbrings => absurd (hk hub user) hbrings, fun o hmakes => ?_⟩
  obtain rfl := Option.some.inj (ho.symm.trans hmakes)
  exact ⟨.setup, hin⟩

/-- The statements of a registration. -/
theorem backed_registerWrites {db₀ : Db} {ids : I64 → List I64}
    (hin : (RollEvent.entered hubId userId door).Backed ssoHub db)
    (hw : w ∈ registerWrites db₀ hubId userId ids) : w.Backed ssoHub db (some door) := by
  rcases List.mem_cons.mp hw with rfl | hw
  · exact Write.backed_of_brings hin (fun _ _ => not_not.mp) rfl
  · obtain ⟨everyone, -, hw⟩ := List.mem_flatMap.mp hw
    obtain ⟨groupId, -, rfl⟩ := List.mem_map.mp hw
    exact Write.backed_of_brings hin (fun _ _ => not_not.mp) rfl

/-! ### What endpoints rest on -/

/-- A user comes with a token. -/
theorem backed_token {o : I64 × String × I64} (ho : o ∈ db.offers) (htoken : o.2.1 = token) :
    (RollEvent.entered o.1 userId (.token token)).Backed ssoHub db :=
  ⟨o.2.2, htoken ▸ ho⟩

theorem backed_joinRow {now : Time} {t : TempUser} (ht : joinRow? db token now = some t) :
    (RollEvent.entered t.hubId t.userId (.token token)).Backed ssoHub db := by
  have hadmits := List.find?_some ht
  simp only [Bool.and_eq_true, beq_iff_eq] at hadmits
  exact backed_token (mem_offers.mpr (.inl ⟨t, List.mem_of_find?_eq_some ht, rfl⟩)) hadmits.1.1

theorem backed_claim {now : Time} {l : InviteLink} (hl : claim? db token now = some l) :
    (RollEvent.entered l.hubId userId (.token token)).Backed ssoHub db := by
  have hclaims := List.find?_some hl
  rw [Bool.and_eq_true, beq_iff_eq] at hclaims
  exact backed_token (mem_offers.mpr (.inr (.inr ⟨l, List.mem_of_find?_eq_some hl, rfl⟩)))
    hclaims.1

theorem backed_invitation {i : Invitation}
    (hi : db.invitations.find? (fun i => i.token == token) = some i) :
    (RollEvent.entered i.hubId userId (.token token)).Backed ssoHub db := by
  have hmatches := List.find?_some hi
  exact backed_token (mem_offers.mpr (.inr (.inl ⟨i, List.mem_of_find?_eq_some hi, rfl⟩)))
    (beq_iff_eq.mp hmatches)

/-- **The statements of an accepted call**: who puts a user into a group, or makes a token, may
do so in the hub, and whoever comes has a token. -/
theorem Call.backed {account : Option I64} (hrun : call.run db = .ok (account, db₁))
    (hw : w ∈ call.writes db) : w.Backed ssoHub db (ApiCall.call call).door? := by
  cases call with
  | addMemberToGroup hubId auth groupId userId =>
    obtain ⟨-, p, hp, -⟩ := silent_eq_ok hrun
    have hassign := (addMemberToGroup_eq_ok hp).1
    rw [mayAssign, Bool.and_eq_true] at hassign
    have hin : (RollEvent.entered hubId userId (.assigned auth)).Backed ssoHub db :=
      ⟨.setup, mem_belongings_of_has (by decide) hassign.1⟩
    rw [List.mem_singleton.mp hw]
    exact Write.backed_of_brings hin (fun _ _ => not_not.mp) rfl
  | joinViaToken token now session =>
    obtain ⟨t, ht, hw⟩ := List.mem_flatMap.mp hw
    obtain ⟨everyone, -, hw⟩ := List.mem_flatMap.mp hw
    have hin : (RollEvent.entered t.hubId t.userId (.token token)).Backed ssoHub db :=
      backed_joinRow (Option.mem_toList.mp ht)
    rcases List.mem_cons.mp hw with rfl | hw
    · exact Write.backed_of_brings hin (fun _ _ => not_not.mp) rfl
    · rcases List.mem_append.mp hw with hw | hw
      · obtain ⟨groupId, -, rfl⟩ := List.mem_map.mp hw
        exact Write.backed_of_brings hin (fun _ _ => not_not.mp) rfl
      · rw [List.mem_singleton.mp hw]
        exact Write.backed_of_silent (fun _ _ => trivial) rfl
  | redeemInviteLink parses token body now nextId =>
    obtain ⟨l, hl, hw⟩ := List.mem_flatMap.mp hw
    -- the use is counted and the account made first, which brings nobody into a hub
    rcases List.mem_cons.mp hw with rfl | hw
    · exact Write.backed_of_silent (fun _ _ => trivial) rfl
    · rcases List.mem_cons.mp hw with rfl | hw
      · exact Write.backed_of_silent (fun _ _ => trivial) rfl
      · exact backed_registerWrites (backed_claim (Option.mem_toList.mp hl)) hw
  | acceptInvitation token body now nextId =>
    obtain ⟨i, hi, hw⟩ := List.mem_flatMap.mp hw
    rcases List.mem_cons.mp hw with rfl | hw
    · exact Write.backed_of_silent (fun _ _ => trivial) rfl
    · rcases List.mem_append.mp hw with hw | hw
      · exact backed_registerWrites (backed_invitation (Option.mem_toList.mp hi)) hw
      · rw [List.mem_singleton.mp hw]
        exact Write.backed_of_silent (fun _ _ => trivial) rfl
  | createTempUser hubId auth body now nextId token =>
    obtain ⟨p, hp, -, rfl⟩ := gives_eq_ok hrun
    simp only [Hub.createTempUser, require_eq_ok] at hp
    have hin := mem_belongings_of_has (by decide) hp.1
    rcases List.mem_pair.mp hw with rfl | rfl
    · exact Write.backed_of_silent (fun _ _ => trivial) rfl
    · exact Write.backed_of_makes hin (fun _ _ => trivial) rfl
  | createInviteLink hubId auth body now nextId token =>
    obtain ⟨-, p, hp, rfl⟩ := silent_eq_ok hrun
    simp only [Hub.createInviteLink, require_eq_ok] at hp
    rw [List.mem_singleton.mp hw]
    exact Write.backed_of_makes (mem_belongings_of_has (by decide) hp.1) (fun _ _ => trivial) rfl
  | createInvitation parses hubId auth body nextId token =>
    obtain ⟨-, p, hp, rfl⟩ := silent_eq_ok hrun
    simp only [Hub.createInvitation, require_eq_ok] at hp
    rw [List.mem_singleton.mp hw]
    exact Write.backed_of_makes (mem_belongings_of_has (by decide) hp.2.2.1) (fun _ _ => trivial)
      rfl
  | createChannel =>
    rcases mem_writes_createChannel hw with ⟨_, rfl⟩ | ⟨_, rfl⟩ <;>
      exact Write.backed_of_silent (fun _ _ => trivial) rfl
  | openDm =>
    rcases mem_writes_openDm hw with ⟨_, rfl⟩ | ⟨_, _, rfl⟩ <;>
      exact Write.backed_of_silent (fun _ _ => trivial) rfl
  | kickMember | revokeTempUser | deletePendingTemp =>
    rcases List.mem_pair.mp hw with rfl | rfl <;>
      exact Write.backed_of_silent (fun _ _ => trivial) rfl
  | _ =>
    rw [List.mem_singleton.mp hw]
    exact Write.backed_of_silent (fun _ _ => trivial) rfl

/-- A call that fails halfway has brought nobody into a hub, and made no token. -/
theorem Call.halfway_backs (hhalf : db₁ ∈ call.halfway db) : db.Backs ssoHub door? db₁ := by
  cases call with
  | createChannel hub auth body nextId =>
    dsimp only [halfway] at hhalf
    split_ifs at hhalf
    · exact Write.backs (w := .insertChannel _) Db.backs_refl
        (Write.backed_of_silent (fun _ _ => trivial) rfl) hhalf
    · cases hhalf
  | kickMember hub auth u =>
    dsimp only [halfway] at hhalf
    split_ifs at hhalf
    · exact Write.backs (w := .deleteMemberGroups hub u) Db.backs_refl
        (Write.backed_of_silent (fun _ _ => trivial) rfl) hhalf
    · cases hhalf
  | _ => cases hhalf

/-- The statements of a login. -/
theorem backed_ssoWrites {x : ExchangeResponse} {newUserId : I64}
    (hw : w ∈ st.ssoWrites ssoHub x newUserId) : w.Backed ssoHub db (some .sso) := by
  have hrows {u : I64} (hw : w ∈ st.ssoRows ssoHub u) : w.Backed ssoHub db (some .sso) := by
    have hin : (RollEvent.entered ssoHub u .sso).Backed ssoHub db := rfl
    rcases List.mem_cons.mp hw with rfl | hw
    · exact Write.backed_of_brings hin (fun _ _ => not_not.mp) rfl
    · obtain ⟨everyone, -, rfl⟩ := List.mem_map.mp hw
      exact Write.backed_of_brings hin (fun _ _ => not_not.mp) rfl
  rw [Service.ssoWrites] at hw
  split at hw
  · rcases List.mem_cons.mp hw with rfl | hw
    · exact Write.backed_of_silent (fun _ _ => trivial) rfl
    · exact hrows hw
  · rcases List.mem_cons.mp hw with rfl | hw
    · exact Write.backed_of_silent (fun _ _ => trivial) rfl
    · exact hrows hw

/-- The statements of a setup. -/
theorem backed_setup {body : SetupAdmin} {ids : SetupIds}
    (hw : w ∈ Write.insertUser (body.user ids.userId) :: setupRows ids) :
    w.Backed ssoHub db (some .setup) := by
  refine ⟨fun hubId userId _ => ⟨.setup, rfl, trivial⟩, fun o ho => ?_⟩
  simp only [setupRows, List.mem_cons, List.not_mem_nil, or_false] at hw
  rcases hw with rfl | rfl | rfl | rfl | rfl | rfl | rfl | rfl | rfl <;> cases ho

/-- **What an endpoint adds** rests on what there was, wherever it stops. -/
theorem ApiCall.backs (hleaves : st' ∈ a.leaves ssoHub st) :
    st.db.Backs ssoHub a.door? st'.db := by
  have hstops {ws : List Write} {db : Db} (hws : ∀ w ∈ ws, w.Backed ssoHub st.db a.door?)
      (hstops : Script.Stops Write.exec st.db ws db) : st.db.Backs ssoHub a.door? db :=
    hstops.invariant (I := fun db => st.db.Backs ssoHub a.door? db)
      (P := fun _ w => w.Backed ssoHub st.db a.door?)
      (fun _ _ _ h hw hexec => Write.backs h hw hexec) Db.backs_refl
      (Script.along_of_forall fun w hw _ => hws w hw)
  cases a with
  | call c =>
    obtain ⟨db₁, hdb, rfl⟩ := List.mem_map.mp hleaves
    rcases Call.stops hdb with rfl | hhalf | ⟨account, hrun⟩
    · exact Db.backs_refl
    · exact Call.halfway_backs hhalf
    · exact hstops (fun w hw => Call.backed hrun hw)
        (Script.stops_of_run (Call.run_writes hrun))
  | setupAdmin body ids =>
    exact hstops (fun w hw => backed_setup hw) (ApiCall.stops_of_leaves hleaves)
  | ssoLogin x newUserId =>
    exact hstops (fun w hw => backed_ssoWrites hw) (ApiCall.stops_of_leaves hleaves)

end Backs

/-! ### Runs -/

section Runs

variable {ssoHub : I64} {r r' : Roll} {a : ApiCall} {db db' : Db} {e : RollEvent}

theorem mem_events : e ∈ a.events db db' ↔
    (∃ door hubId userId, a.door? = some door ∧ (hubId, userId) ∈ db'.belongings ∧
      (hubId, userId) ∉ db.belongings ∧ .entered hubId userId door = e) ∨
    ∃ o ∈ db'.offers, o ∉ db.offers ∧ .offered o.1 o.2.1 o.2.2 = e := by
  rw [ApiCall.events, List.mem_append]
  refine or_congr ⟨fun he => ?_, ?_⟩ ⟨fun he => ?_, ?_⟩
  · obtain ⟨door, hdoor, he⟩ := List.mem_flatMap.mp he
    obtain ⟨⟨hubId, userId⟩, hp, rfl⟩ := List.mem_map.mp he
    obtain ⟨hin, hnot⟩ := List.mem_filter.mp (List.mem_dedup.mp hp)
    exact ⟨door, hubId, userId, Option.mem_toList.mp hdoor, hin, of_decide_eq_true hnot, rfl⟩
  · rintro ⟨door, hubId, userId, hdoor, hin, hnot, rfl⟩
    refine List.mem_flatMap.mpr ⟨door, Option.mem_toList.mpr hdoor, ?_⟩
    exact List.mem_map.mpr ⟨(hubId, userId),
      List.mem_dedup.mpr (List.mem_filter.mpr ⟨hin, decide_eq_true hnot⟩), rfl⟩
  · obtain ⟨o, ho, rfl⟩ := List.mem_map.mp he
    obtain ⟨ho, hnot⟩ := List.mem_filter.mp ho
    exact ⟨o, ho, of_decide_eq_true hnot, rfl⟩
  · rintro ⟨o, ho, hnot, rfl⟩
    exact List.mem_map.mpr ⟨o, List.mem_filter.mpr ⟨ho, decide_eq_true hnot⟩, rfl⟩

/-- **Everything in a hub has been let in**: what there is has happened, and what has happened
stands. -/
structure Roll.Vouched (ssoHub : I64) (r : Roll) : Prop where
  entered : ∀ hubId userId, (hubId, userId) ∈ r.st.db.belongings →
    ∃ door, r.Stands ssoHub (.entered hubId userId door)
  offered : ∀ o ∈ r.st.db.offers, r.Stands ssoHub (.offered o.1 o.2.1 o.2.2)
  log : ∀ e ∈ r.log, r.Stands ssoHub e

theorem Roll.Vouched.rests (h : r.Vouched ssoHub) (he : e.Backed ssoHub r.st.db) :
    e.rests ssoHub (r.Stands ssoHub) := by
  match e with
  | .offered hubId token createdBy =>
    obtain ⟨_, hin⟩ := he
    exact h.entered hubId createdBy hin
  | .entered _ _ .setup => trivial
  | .entered _ _ .sso => exact he
  | .entered hubId _ (.assigned auth) =>
    obtain ⟨_, hin⟩ := he
    exact h.entered hubId auth hin
  | .entered hubId _ (.token token) =>
    obtain ⟨createdBy, ho⟩ := he
    exact ⟨createdBy, h.offered _ ho⟩

theorem Roll.Vouched.step (h : r.Vouched ssoHub) (hstep : (rolls ssoHub).step r a r') :
    r'.Vouched ssoHub := by
  obtain ⟨hleaves, hlog⟩ := hstep
  have hbacks := ApiCall.backs hleaves
  have hnew : ∀ e ∈ a.events r.st.db r'.st.db, r'.Stands ssoHub e := by
    intro e he
    have hbacked : e.Backed ssoHub r.st.db := by
      rcases mem_events.mp he with ⟨door, hubId, userId, hdoor, hin, hnot, rfl⟩ | ⟨o, ho, hnot, rfl⟩
      · obtain ⟨door', hdoor', hb⟩ := hbacks.entered hubId userId hin hnot
        obtain rfl := Option.some.inj (hdoor.symm.trans hdoor')
        exact hb
      · exact hbacks.offered o ho hnot
    rw [Roll.Stands, hlog]
    exact Grounds.stands_of_mem (RollEvent.rests_mono ssoHub) he (h.rests hbacked)
  have hold : ∀ e, r.Stands ssoHub e → r'.Stands ssoHub e := by
    intro e he
    rw [Roll.Stands, hlog]
    exact he.append _
  refine ⟨fun hubId userId hin => ?_, fun o ho => ?_, fun e he => ?_⟩
  · by_cases hbefore : (hubId, userId) ∈ r.st.db.belongings
    · obtain ⟨door, hstands⟩ := h.entered hubId userId hbefore
      exact ⟨door, hold _ hstands⟩
    · obtain ⟨door, hdoor, -⟩ := hbacks.entered hubId userId hin hbefore
      exact ⟨door, hnew _ (mem_events.mpr
        (.inl ⟨door, hubId, userId, hdoor, hin, hbefore, rfl⟩))⟩
  · by_cases hbefore : o ∈ r.st.db.offers
    · exact hold _ (h.offered o hbefore)
    · exact hnew _ (mem_events.mpr (.inr ⟨o, ho, hbefore, rfl⟩))
  · rw [hlog] at he
    rcases List.mem_append.mp he with he | he
    · exact hnew e he
    · exact hold e (h.log e he)

/-- **A hub in which anything happens** has been set up by somebody, or logins lead to it. -/
theorem Roll.founder (h : r.Stands ssoHub e) :
    e.hubId = ssoHub ∨ ∃ founder, .entered e.hubId founder .setup ∈ r.log := by
  refine h.handedDown (P := fun e => e.hubId = ssoHub ∨
    ∃ founder, .entered e.hubId founder .setup ∈ r.log) (RollEvent.rests_mono ssoHub) ?_
  intro e he hrests
  match e with
  | .offered _ _ _ | .entered _ _ (.assigned _) | .entered _ _ (.token _) =>
    obtain ⟨_, hground⟩ := hrests
    exact hground
  | .entered _ founder .setup => exact .inr ⟨founder, he⟩
  | .entered _ _ .sso => exact .inl hrests

/-- **Whoever is in a hub has been let in**: in every run of the endpoints, whatever fails, the
user has come through a door, opened by somebody who had come into the hub before, and so on back
to somebody who set the hub up or logged in; and so has everybody who has been there since. A hub
to which logins do not lead is empty unless somebody has set it up. -/
theorem letIn_of_reach (hr : (rolls ssoHub).Reachable r) :
    (∀ hubId userId, (hubId, userId) ∈ r.st.db.belongings →
      (∃ door, r.Stands ssoHub (.entered hubId userId door)) ∧
        (hubId = ssoHub ∨ ∃ founder, .entered hubId founder .setup ∈ r.log)) ∧
      ∀ e ∈ r.log, r.Stands ssoHub e := by
  have hvouched : r.Vouched ssoHub := by
    refine hr.invariant ?_ fun r a r' h _ hstep => h.step hstep
    rintro r ⟨hnobody, hnone, hlog⟩
    refine ⟨fun hubId userId hin => ?_, fun o ho => ?_, fun e he => ?_⟩
    · exact absurd (hnobody ▸ hin) List.not_mem_nil
    · exact absurd (hnone ▸ ho) List.not_mem_nil
    · exact absurd (hlog ▸ he) List.not_mem_nil
  refine ⟨fun hubId userId hin => ?_, hvouched.log⟩
  obtain ⟨door, hstands⟩ := hvouched.entered hubId userId hin
  exact ⟨⟨door, hstands⟩, Roll.founder hstands⟩

end Runs

/-- What follows if nothing fails. -/
def Roll.next (ssoHub : I64) (r : Roll) (a : ApiCall) : Roll :=
  let st := r.st.after ssoHub a
  ⟨st, a.events r.st.db st.db ++ r.log⟩

namespace Seed

/-- Alice sets up the hub and makes a link, and a guest comes with it. -/
def guestLetIn : Roll :=
  [aliceSetsUp, aliceInvites everyone, gusJoins].foldl (Roll.next hub) ⟨⟨emptyDb, []⟩, []⟩

theorem letIn_of_reach_guestLetIn :
    guestLetIn.log = [.entered hub (i64 1004) (.token "t"), .offered hub "t" alice,
      .entered hub alice .setup] ∧
    ∃ door, guestLetIn.Stands hub (.entered hub (i64 1004) door) := by
  have hreach : (rolls hub).Reachable guestLetIn := by
    refine System.reachable_foldl (M := rolls hub) ⟨rfl, rfl, rfl⟩ (fun r a => ⟨?_, rfl⟩) _
    exact Service.after_mem hub r.st a
  have hin : (hub, i64 1004) ∈ guestLetIn.st.db.belongings := by decide +kernel
  exact ⟨by decide +kernel, ((letIn_of_reach hreach).1 hub (i64 1004) hin).1⟩

end Seed

end Hub

end MateHub
