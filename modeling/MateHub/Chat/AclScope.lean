import MateHub.Chat.AclCache

/-!
# What the invalidations reach

A key is told apart from all others by its text, and the pattern of an invalidation fits the
texts of its channel, or of its user. The statements of a call that publishes something
change no answer but those that its invalidation is about (`MateHub.Chat.Statement.fits`),
unless a call writes to the rows of a channel of another hub.
-/

namespace MateHub

namespace Chat

open Hub (Bits Db Call ChannelPermission Granted effectivePermissions hasPermission)

/-! ### Keys and patterns -/

theorem label_injective {a a' : Action} (h : a.label = a'.label) : a = a' := by
  cases a <;> cases a' <;> first | rfl | exact absurd h (by decide)

/-- The fields of a key. -/
theorem splitOn_text (k : Key) : k.text.splitOn ':' =
    ["acl".toList, k.hubId.display, k.channelId.display, k.userId.display, [k.action.label]] := by
  have hacl : ':' ∉ "acl".toList := by decide
  have hlabel : ':' ∉ [k.action.label] := by
    cases k.action <;> decide
  have htext : k.text = "acl".toList ++ ':' :: (k.hubId.display ++ ':' :: (k.channelId.display ++
      ':' :: (k.userId.display ++ ':' :: [k.action.label]))) := by
    rw [Key.text, show "acl:".toList = "acl".toList ++ [':'] from rfl]
    simp only [List.append_assoc, List.cons_append, List.nil_append]
  rw [htext, List.splitOn_append_cons_self_of_not_mem hacl,
    List.splitOn_append_cons_self_of_not_mem (colon_not_mem_display _),
    List.splitOn_append_cons_self_of_not_mem (colon_not_mem_display _),
    List.splitOn_append_cons_self_of_not_mem (colon_not_mem_display _),
    List.splitOn_eq_singleton hlabel]

/-- **No two keys have one text.** -/
theorem Key.text_injective {k k' : Key} (h : k.text = k'.text) : k = k' := by
  have hfields := splitOn_text k
  rw [h, splitOn_text k'] at hfields
  simp only [List.cons.injEq, and_true, true_and] at hfields
  obtain ⟨hhub, hchannel, huser, hlabel⟩ := hfields
  rcases k with ⟨_, _, _, _⟩
  rcases k' with ⟨_, _, _, _⟩
  rw [Key.mk.injEq]
  exact ⟨(display_injective hhub).symm, (display_injective hchannel).symm,
    (display_injective huser).symm, (label_injective hlabel).symm⟩

theorem fits_channel (k : Key) :
    (InvalidatePayload.channel k.hubId k.channelId).fits k.text = true := by
  have hstart : '*' ∉ "acl:".toList ++ k.hubId.display ++ ':' :: (k.channelId.display ++ [':']) := by
    have hacl : '*' ∉ "acl:".toList := by decide
    simp only [List.mem_append, List.mem_cons, List.not_mem_nil, star_not_mem_display, hacl]
    decide
  rw [InvalidatePayload.fits, InvalidatePayload.pattern, Key.text]
  generalize "acl:".toList = acl at hstart
  have hpattern : acl ++ k.hubId.display ++ ':' :: (k.channelId.display ++ [':', '*']) =
      (acl ++ k.hubId.display ++ ':' :: (k.channelId.display ++ [':'])) ++ ['*'] := by
    simp only [List.append_assoc, List.cons_append, List.nil_append]
  have htext : acl ++ k.hubId.display ++ ':' :: (k.channelId.display ++
      ':' :: (k.userId.display ++ [':', k.action.label])) =
      (acl ++ k.hubId.display ++ ':' :: (k.channelId.display ++ [':'])) ++
        (k.userId.display ++ [':', k.action.label]) := by
    simp only [List.append_assoc, List.cons_append, List.nil_append]
  rw [hpattern, htext, Glob.fits_append hstart]
  exact Glob.fits_star_nil _

theorem fits_user (k : Key) : (InvalidatePayload.user k.hubId k.userId).fits k.text = true := by
  have hstart : '*' ∉ "acl:".toList ++ k.hubId.display ++ [':'] := by
    have hacl : '*' ∉ "acl:".toList := by decide
    simp only [List.mem_append, List.mem_cons, List.not_mem_nil, star_not_mem_display, hacl]
    decide
  have hmiddle : '*' ∉ ':' :: (k.userId.display ++ [':']) := by
    simp only [List.mem_append, List.mem_cons, List.not_mem_nil, star_not_mem_display]
    decide
  rw [InvalidatePayload.fits, InvalidatePayload.pattern, Key.text]
  generalize "acl:".toList = acl at hstart
  have hpattern : acl ++ k.hubId.display ++ ':' :: '*' :: ':' :: (k.userId.display ++ [':', '*']) =
      (acl ++ k.hubId.display ++ [':']) ++ '*' :: (':' :: (k.userId.display ++ [':']) ++ ['*']) := by
    simp only [List.append_assoc, List.cons_append, List.nil_append]
  have htext : acl ++ k.hubId.display ++ ':' :: (k.channelId.display ++
      ':' :: (k.userId.display ++ [':', k.action.label])) =
      (acl ++ k.hubId.display ++ [':']) ++ (k.channelId.display ++
        (':' :: (k.userId.display ++ [':']) ++ [k.action.label])) := by
    simp only [List.append_assoc, List.cons_append, List.nil_append]
  rw [hpattern, htext, Glob.fits_append hstart]
  refine Glob.fits_star _ ?_
  rw [Glob.fits_append hmiddle]
  exact Glob.fits_star_nil _

/-! ### What the answers depend on -/

/-- What an answer depends on is the same in two databases. -/
structure Same (k : Key) (db db' : Db) : Prop where
  channel : db'.channel? k.hubId k.channelId = db.channel? k.hubId k.channelId
  participant : ⟨k.channelId, k.userId⟩ ∈ db'.dmParticipants ↔
    ⟨k.channelId, k.userId⟩ ∈ db.dmParticipants
  groups : db'.groups = db.groups
  members : ∀ g, ⟨k.hubId, k.userId, g⟩ ∈ db'.memberGroups ↔ ⟨k.hubId, k.userId, g⟩ ∈ db.memberGroups
  rows : ∀ cp, cp.channelId = k.channelId →
    (cp ∈ db'.channelPermissions ↔ cp ∈ db.channelPermissions)

section Same

variable {k : Key} {db db' : Db} {hubId channelId userId : I64}

theorem answer_eq_false (h : db.channel? k.hubId k.channelId = none) : k.answer db = false := by
  rw [Key.answer, checkUncached, h]

theorem Same.answer (h : Same k db db') : k.answer db' = k.answer db := by
  have hadmin : (db'.resolveUserPerms k.hubId k.userId).isAdmin =
      (db.resolveUserPerms k.hubId k.userId).isAdmin := by
    rw [Bool.eq_iff_iff, Db.isAdmin_iff, Db.isAdmin_iff, h.groups]
    simp only [h.members]
  have hparticipant : db'.isParticipant k.channelId k.userId =
      db.isParticipant k.channelId k.userId := by
    rw [Bool.eq_iff_iff, Db.isParticipant_iff, Db.isParticipant_iff, h.participant]
  have hgranted : hasPermission
      (effectivePermissions (db'.channelPermsOf k.hubId k.channelId k.userId)) k.action.bit =
      hasPermission (effectivePermissions (db.channelPermsOf k.hubId k.channelId k.userId))
        k.action.bit := by
    rw [Bool.eq_iff_iff, hasPermission_bit, hasPermission_bit]
    refine Granted.congr (fun cp => ?_) _
    rw [Db.mem_channelPermsOf, Db.mem_channelPermsOf]
    constructor
    · rintro ⟨hcp, hch, hmg⟩
      exact ⟨(h.rows cp hch).mp hcp, hch, (h.members _).mp hmg⟩
    · rintro ⟨hcp, hch, hmg⟩
      exact ⟨(h.rows cp hch).mpr hcp, hch, (h.members _).mpr hmg⟩
  simp only [Key.answer, checkUncached, h.channel, hadmin, hparticipant, hgranted]

/-- The channel of an id, if there is one, is of a hub. -/
def AtHome (db : Db) (hubId channelId : I64) : Prop :=
  ∀ c ∈ db.channels, c.id = channelId → c.hubId = hubId

instance (db : Db) (hubId channelId : I64) : Decidable (AtHome db hubId channelId) :=
  inferInstanceAs (Decidable (∀ c ∈ db.channels, c.id = channelId → c.hubId = hubId))

theorem AtHome.channel?_eq_none (h : AtHome db hubId channelId) (hne : userId ≠ hubId) :
    db.channel? userId channelId = none := by
  rcases hc : db.channel? userId channelId with _ | c
  · rfl
  · obtain ⟨hmem, hid, hhub⟩ := Db.channel?_eq_some.mp hc
    exact absurd (hhub.symm.trans (h c hmem hid)) hne

/-- A statement changes one channel. -/
structure OnlyChannel (channelId : I64) (db db' : Db) : Prop where
  groups : db'.groups = db.groups
  memberGroups : db'.memberGroups = db.memberGroups
  channels : db.channels ⊆ db'.channels
  channel : ∀ h c, c ≠ channelId → db'.channel? h c = db.channel? h c
  participant : ∀ c u, c ≠ channelId → (⟨c, u⟩ ∈ db'.dmParticipants ↔ ⟨c, u⟩ ∈ db.dmParticipants)
  rows : ∀ cp, cp.channelId ≠ channelId →
    (cp ∈ db'.channelPermissions ↔ cp ∈ db.channelPermissions)

theorem OnlyChannel.fits (h : OnlyChannel channelId db db') (hhome : AtHome db' hubId channelId)
    (hne : k.answer db' ≠ k.answer db) :
    (InvalidatePayload.channel hubId channelId).fits k.text = true := by
  by_cases hch : k.channelId = channelId
  · by_cases hhub : k.hubId = hubId
    · rw [← hch, ← hhub]
      exact fits_channel k
    · -- another hub has no such channel, before and after
      have hbefore : AtHome db hubId channelId := fun c hc => hhome c (h.channels hc)
      subst hch
      exact absurd ((answer_eq_false (hhome.channel?_eq_none hhub)).trans
        (answer_eq_false (hbefore.channel?_eq_none hhub)).symm) hne
  · refine absurd (Same.answer ⟨h.channel _ _ hch, h.participant _ _ hch, h.groups, ?_, ?_⟩) hne
    · exact fun g => by rw [h.memberGroups]
    · exact fun cp hcp => h.rows cp (hcp ▸ hch)

/-- A statement changes the groups of one user in a hub. -/
structure OnlyUser (hubId userId : I64) (db db' : Db) : Prop where
  groups : db'.groups = db.groups
  channels : db'.channels = db.channels
  dmParticipants : db'.dmParticipants = db.dmParticipants
  channelPermissions : db'.channelPermissions = db.channelPermissions
  members : ∀ h u g, ¬ (h = hubId ∧ u = userId) →
    (⟨h, u, g⟩ ∈ db'.memberGroups ↔ ⟨h, u, g⟩ ∈ db.memberGroups)

theorem OnlyUser.fits (h : OnlyUser hubId userId db db') (hne : k.answer db' ≠ k.answer db) :
    (InvalidatePayload.user hubId userId).fits k.text = true := by
  by_cases huser : k.hubId = hubId ∧ k.userId = userId
  · rw [← huser.1, ← huser.2]
    exact fits_user k
  · refine absurd (Same.answer ⟨?_, ?_, h.groups, fun g => h.members _ _ g huser, ?_⟩) hne
    · rw [Db.channel?, Db.channel?, h.channels]
    · rw [h.dmParticipants]
    · exact fun cp _ => by rw [h.channelPermissions]

end Same

/-! ### What the statements change -/

section Statement

variable {db db' : Db} {hubId channelId userId : I64}

theorem upsertChannelPermission_onlyChannel {cp : ChannelPermission}
    (h : db.upsertChannelPermission cp = some db') :
    OnlyChannel cp.channelId db db' ∧ db'.channels = db.channels := by
  rw [Db.upsertChannelPermission] at h
  split_ifs at h
  obtain rfl := Option.some.inj h
  refine ⟨⟨rfl, rfl, List.Subset.refl _, fun _ _ _ => rfl, fun _ _ _ => Iff.rfl, ?_⟩, rfl⟩
  intro cp' hne
  constructor
  · intro hmem
    rcases Table.mem_of_mem_upsert hmem with rfl | ⟨hmem, -⟩
    · exact absurd rfl hne
    · exact hmem
  · exact fun hmem => Table.mem_upsert_of_mem hmem fun hkey => hne (congrArg Prod.fst hkey)

theorem insertChannelPermission_onlyChannel {cp : ChannelPermission}
    (h : db.insertChannelPermission cp = some db') :
    OnlyChannel cp.channelId db db' ∧ db'.channels = db.channels := by
  rw [Db.insertChannelPermission] at h
  split_ifs at h
  obtain rfl := Option.some.inj h
  refine ⟨⟨rfl, rfl, List.Subset.refl _, fun _ _ _ => rfl, fun _ _ _ => Iff.rfl, ?_⟩, rfl⟩
  intro cp' hne
  constructor
  · intro hmem
    rcases Table.mem_of_mem_insertNew hmem with rfl | hmem
    · exact absurd rfl hne
    · exact hmem
  · exact Table.mem_insertNew_of_mem

theorem deleteChannelPermissionRow_onlyChannel (groupId : I64) :
    OnlyChannel channelId db (db.deleteChannelPermissionRow channelId groupId) := by
  refine ⟨rfl, rfl, List.Subset.refl _, fun _ _ _ => rfl, fun _ _ _ => Iff.rfl, ?_⟩
  intro cp hne
  refine Table.mem_delete.trans ⟨And.left, fun hmem => ⟨hmem, ?_⟩⟩
  exact decide_eq_false fun heq => hne heq.1

theorem grantDefault_onlyChannel (h : Hub.grantDefault db hubId channelId = some db') :
    OnlyChannel channelId db db' ∧ db'.channels = db.channels := by
  rw [Hub.grantDefault] at h
  split at h
  · obtain rfl := Option.some.inj h
    exact ⟨⟨rfl, rfl, List.Subset.refl _, fun _ _ _ => rfl, fun _ _ _ => Iff.rfl,
      fun _ _ => Iff.rfl⟩, rfl⟩
  · exact insertChannelPermission_onlyChannel h

theorem insertChannelRow_onlyChannel {c : Hub.Channel} (h : db.insertChannelRow c = some db') :
    OnlyChannel c.id db db' ∧ db'.channels = c :: db.channels := by
  rw [Db.insertChannelRow] at h
  split_ifs at h
  obtain rfl := Option.some.inj h
  refine ⟨⟨rfl, rfl, fun _ => List.mem_cons_of_mem _, ?_, fun _ _ _ => Iff.rfl,
    fun _ _ => Iff.rfl⟩, rfl⟩
  intro hub id hne
  rw [Db.channel?, List.find?_cons_of_neg]
  · rfl
  · simp [Ne.symm hne]

theorem insertDmParticipant_onlyChannel (h : db.insertDmParticipant channelId userId = some db') :
    OnlyChannel channelId db db' ∧ db'.channels = db.channels := by
  rw [Db.insertDmParticipant] at h
  split_ifs at h
  obtain rfl := Option.some.inj h
  refine ⟨⟨rfl, rfl, List.Subset.refl _, fun _ _ _ => rfl, ?_, fun _ _ => Iff.rfl⟩, rfl⟩
  intro c u hne
  refine Table.mem_insertNew_id.trans ⟨fun hmem => hmem.resolve_left fun heq => hne ?_, .inr⟩
  exact congrArg Hub.DmParticipant.channelId heq

theorem OnlyChannel.trans {db'' : Db} (h : OnlyChannel channelId db db')
    (h' : OnlyChannel channelId db' db'') : OnlyChannel channelId db db'' where
  groups := h'.groups.trans h.groups
  memberGroups := h'.memberGroups.trans h.memberGroups
  channels _ hc := h'.channels (h.channels hc)
  channel hub c hne := (h'.channel hub c hne).trans (h.channel hub c hne)
  participant c u hne := (h'.participant c u hne).trans (h.participant c u hne)
  rows cp hne := (h'.rows cp hne).trans (h.rows cp hne)

/-- A channel that is there is at home in its hub. -/
theorem atHome_of_mem {c : Hub.Channel} (h : c ∈ db.channels) : AtHome db c.hubId c.id := by
  intro c' hc' hid
  rw [db.pk_channels c' hc' c h hid]

theorem openDmRows_onlyChannel {me other nextId : I64} {r : I64 × Db}
    (h : Hub.openDmRows db hubId me other nextId = some r) :
    OnlyChannel r.1 db r.2 ∧ AtHome r.2 hubId r.1 := by
  simp only [Hub.openDmRows, Option.bind_eq_some_iff, Option.map_eq_some_iff] at h
  obtain ⟨db₁, hins, c, hc, db₂, hme, db₃, hother, rfl⟩ := h
  have hfound := List.find?_some hc
  obtain ⟨hhub, -⟩ := of_decide_eq_true hfound
  have hfirst : OnlyChannel c.id db db₁ := by
    split at hins
    · obtain rfl := Option.some.inj hins
      exact ⟨rfl, rfl, List.Subset.refl _, fun _ _ _ => rfl, fun _ _ _ => Iff.rfl, fun _ _ => Iff.rfl⟩
    · -- the new channel is the one that is then found
      obtain ⟨honly, hchannels⟩ := insertChannelRow_onlyChannel hins
      rw [Hub.dmChannel?, hchannels, List.find?_cons_of_pos] at hc
      · obtain rfl := Option.some.inj hc
        exact honly
      · exact decide_eq_true ⟨rfl, rfl⟩
  obtain ⟨honly₂, hchannels₂⟩ := insertDmParticipant_onlyChannel hme
  obtain ⟨honly₃, hchannels₃⟩ := insertDmParticipant_onlyChannel hother
  refine ⟨(hfirst.trans honly₂).trans honly₃, ?_⟩
  rw [← hhub]
  refine atHome_of_mem ?_
  rw [hchannels₃, hchannels₂]
  exact List.mem_of_find?_eq_some hc

theorem insertMemberGroup_onlyUser {groupId : I64}
    (h : db.insertMemberGroup hubId userId groupId = some db') : OnlyUser hubId userId db db' := by
  have hmem := (Db.insertMemberGroup_eq_some h).2
  rw [Db.insertMemberGroup] at h
  split_ifs at h
  obtain rfl := Option.some.inj h
  refine ⟨rfl, rfl, rfl, rfl, fun hub u g hne => ?_⟩
  rw [hmem]
  refine ⟨fun hmg => hmg.resolve_left fun heq => hne ?_, .inr⟩
  exact ⟨congrArg Hub.MemberGroup.hubId heq, congrArg Hub.MemberGroup.userId heq⟩

theorem deleteMemberGroups_onlyUser {p : Hub.MemberGroup → Bool}
    (h : ∀ mg, p mg = true → mg.hubId = hubId ∧ mg.userId = userId) :
    OnlyUser hubId userId db (db.deleteMemberGroups p) := by
  refine ⟨rfl, rfl, rfl, rfl, fun hub u g hne => ?_⟩
  refine Table.mem_delete.trans ⟨And.left, fun hmg => ⟨hmg, ?_⟩⟩
  exact Bool.eq_false_iff.mpr fun hp => hne (h _ hp)

theorem deleteHubMember_onlyUser : OnlyUser hubId userId db (db.deleteHubMember hubId userId) :=
  ⟨rfl, rfl, rfl, rfl, fun _ _ _ _ => Iff.rfl⟩

/-- A statement publishes what it changes: the rows of a channel are written under the hub
that the channel is of. A call that is taken as a whole publishes nothing. -/
def Statement.Published (db : Db) : Statement → Prop
  | .upsertChannelPermission hubId cp => AtHome db hubId cp.channelId
  | .deleteChannelPermission hubId channelId _ => AtHome db hubId channelId
  | .grantDefault hubId channelId => AtHome db hubId channelId
  | .whole _ => False
  | _ => True

instance (db : Db) (statement : Statement) : Decidable (statement.Published db) :=
  match statement with
  | .upsertChannelPermission hubId cp => inferInstanceAs (Decidable (AtHome db hubId cp.channelId))
  | .deleteChannelPermission hubId channelId _ =>
    inferInstanceAs (Decidable (AtHome db hubId channelId))
  | .grantDefault hubId channelId => inferInstanceAs (Decidable (AtHome db hubId channelId))
  | .whole _ => inferInstanceAs (Decidable False)
  | .insertMemberGroup _ _ _ | .deleteMemberGroup _ _ _ | .deleteMemberGroups _ _
  | .deleteHubMember _ _ | .insertChannel _ | .openDm _ _ _ _ => inferInstanceAs (Decidable True)

/-- **What a statement changes, it publishes.** -/
theorem Statement.fits {statement : Statement} {payload : Option InvalidatePayload} {k : Key}
    (hrun : statement.run db = some (db', payload)) (hpub : statement.Published db)
    (hne : k.answer db' ≠ k.answer db) : ∃ p ∈ payload, p.fits k.text = true := by
  cases statement with
  | upsertChannelPermission hubId cp =>
    obtain ⟨_, hset, heq⟩ := Option.map_eq_some_iff.mp hrun
    obtain ⟨rfl, rfl⟩ := Prod.mk.inj heq
    obtain ⟨honly, hchannels⟩ := upsertChannelPermission_onlyChannel hset
    refine ⟨_, rfl, honly.fits ?_ hne⟩
    rw [AtHome, hchannels]
    exact hpub
  | deleteChannelPermission hubId channelId groupId =>
    obtain ⟨rfl, rfl⟩ := Prod.mk.inj (Option.some.inj hrun)
    exact ⟨_, rfl, (deleteChannelPermissionRow_onlyChannel groupId).fits hpub hne⟩
  | insertMemberGroup hubId userId groupId =>
    obtain ⟨_, hins, heq⟩ := Option.map_eq_some_iff.mp hrun
    obtain ⟨rfl, rfl⟩ := Prod.mk.inj heq
    exact ⟨_, rfl, (insertMemberGroup_onlyUser hins).fits hne⟩
  | deleteMemberGroup hubId userId groupId =>
    obtain ⟨rfl, rfl⟩ := Prod.mk.inj (Option.some.inj hrun)
    refine ⟨_, rfl, (deleteMemberGroups_onlyUser fun mg hmg => ?_).fits hne⟩
    rw [of_decide_eq_true hmg]
    exact ⟨rfl, rfl⟩
  | deleteMemberGroups hubId userId =>
    obtain ⟨rfl, rfl⟩ := Prod.mk.inj (Option.some.inj hrun)
    exact ⟨_, rfl, (deleteMemberGroups_onlyUser fun mg hmg => of_decide_eq_true hmg).fits hne⟩
  | deleteHubMember hubId userId =>
    obtain ⟨rfl, rfl⟩ := Prod.mk.inj (Option.some.inj hrun)
    exact ⟨_, rfl, deleteHubMember_onlyUser.fits hne⟩
  | insertChannel c =>
    obtain ⟨_, hins, heq⟩ := Option.map_eq_some_iff.mp hrun
    obtain ⟨rfl, rfl⟩ := Prod.mk.inj heq
    obtain ⟨honly, hchannels⟩ := insertChannelRow_onlyChannel hins
    refine ⟨_, rfl, honly.fits (atHome_of_mem ?_) hne⟩
    rw [hchannels]
    exact List.mem_cons_self
  | grantDefault hubId channelId =>
    obtain ⟨_, hgrant, heq⟩ := Option.map_eq_some_iff.mp hrun
    obtain ⟨rfl, rfl⟩ := Prod.mk.inj heq
    obtain ⟨honly, hchannels⟩ := grantDefault_onlyChannel hgrant
    refine ⟨_, rfl, honly.fits ?_ hne⟩
    rw [AtHome, hchannels]
    exact hpub
  | openDm hubId me other nextId =>
    obtain ⟨_, hopen, heq⟩ := Option.map_eq_some_iff.mp hrun
    obtain ⟨rfl, rfl⟩ := Prod.mk.inj heq
    obtain ⟨honly, hhome⟩ := openDmRows_onlyChannel hopen
    exact ⟨_, rfl, honly.fits hhome hne⟩
  | whole call => exact hpub.elim

end Statement

end Chat

end MateHub
