import MateHub.General.Handoff
import MateHub.General.Verification
import MateHub.Hub.Expelled

/-!
# Who is logged in at a hub

Whoever has been logged in at the pod of a hub is an account that is a member of that hub, and
for which a code was minted in the half minute before the code was claimed; no two logins rest
on the same code, and a code gives its account away only to the hub for which it was minted
(`MateHub.General.exchange_of_reachable`, `MateHub.General.login_of_reachable`). And a pod knows
an account by one user and a user by one account, whenever they log in
(`MateHub.General.identity_of_reachable`).

What a request knows was true when it read it. It stays true because of what no step takes away
(`MateHub.General.Grows`): the registry loses no hub, no member and no code, a hub that is ready
stays so, and pods do not forget accounts.
-/

namespace MateHub

namespace General

open Chat (I64)
open Mailer (Time Askama)
open Transaction (Body Handler)

/-! ### What steps keep -/

/-- An account at a later time: it may have been verified since. -/
def Account.Later (a a' : Account) : Prop :=
  a' = { a with emailVerified := a'.emailVerified } ∧
    (a.emailVerified = true → a'.emailVerified = true)

/-- A code at a later time: it may have been consumed since. -/
def AuthCode.Later (k k' : AuthCode) : Prop :=
  k' = { k with consumedAt := k'.consumedAt } ∧
    (k.consumedAt = none ∨ k'.consumedAt = k.consumedAt)

/-- A hub at a later time: its provisioning may have ended since. -/
def HubRow.Later (h h' : HubRow) : Prop :=
  h' = { h with status := h'.status } ∧ (h.status = .ready → h'.status = .ready)

/-- A pod at a later time. -/
def Pod.Later (p p' : Pod) : Prop :=
  p'.hubId = p.hubId ∧ p'.secret = p.secret ∧ p.service.accounts ⊆ p'.service.accounts

/-- **What no step takes away.** -/
structure Grows (st st' : Platform) : Prop where
  accounts : ∀ a ∈ st.service.accounts, ∃ a' ∈ st'.service.accounts, a.Later a'
  codes : ∀ k ∈ st.authCodes, ∃ k' ∈ st'.authCodes, k.Later k'
  hubs : ∀ h ∈ st.hubs, ∃ h' ∈ st'.hubs, h.Later h'
  members : st.hubMembers ⊆ st'.hubMembers
  issued : st.service.issued ⊆ st'.service.issued
  pods : ∀ p ∈ st.pods, ∃ p' ∈ st'.pods, p.Later p'

theorem Account.Later.refl (a : Account) : a.Later a := ⟨rfl, fun hverified => hverified⟩

theorem AuthCode.Later.refl (k : AuthCode) : k.Later k := ⟨rfl, .inr rfl⟩

theorem HubRow.Later.refl (h : HubRow) : h.Later h := ⟨rfl, fun hready => hready⟩

theorem Pod.Later.refl (p : Pod) : p.Later p := ⟨rfl, rfl, List.Subset.refl _⟩

theorem Grows.refl (st : Platform) : Grows st st where
  accounts a ha := ⟨a, ha, .refl a⟩
  codes k hk := ⟨k, hk, .refl k⟩
  hubs h hh := ⟨h, hh, .refl h⟩
  members := List.Subset.refl _
  issued := List.Subset.refl _
  pods p hp := ⟨p, hp, .refl p⟩

theorem Account.Later.trans {a₁ a₂ a₃ : Account} (h : a₁.Later a₂) (h' : a₂.Later a₃) :
    a₁.Later a₃ := by
  refine ⟨?_, fun hverified => h'.2 (h.2 hverified)⟩
  rw [h'.1, h.1]

theorem AuthCode.Later.trans {k₁ k₂ k₃ : AuthCode} (h : k₁.Later k₂) (h' : k₂.Later k₃) :
    k₁.Later k₃ := by
  obtain ⟨heq, hkeep⟩ := h
  obtain ⟨heq', hkeep'⟩ := h'
  refine ⟨?_, ?_⟩
  · rw [heq', heq]
  · rcases hkeep with hnone | hsame
    · exact .inl hnone
    · rcases hkeep' with hnone | hsame'
      · exact .inl (hsame ▸ hnone)
      · exact .inr (hsame'.trans hsame)

theorem HubRow.Later.trans {h₁ h₂ h₃ : HubRow} (h : h₁.Later h₂) (h' : h₂.Later h₃) :
    h₁.Later h₃ := by
  refine ⟨?_, fun hready => h'.2 (h.2 hready)⟩
  rw [h'.1, h.1]

theorem Pod.Later.trans {p₁ p₂ p₃ : Pod} (h : p₁.Later p₂) (h' : p₂.Later p₃) : p₁.Later p₃ :=
  ⟨h'.1.trans h.1, h'.2.1.trans h.2.1, List.Subset.trans h.2.2 h'.2.2⟩

theorem Grows.trans {st₁ st₂ st₃ : Platform} (h : Grows st₁ st₂) (h' : Grows st₂ st₃) :
    Grows st₁ st₃ where
  accounts a ha := by
    obtain ⟨a', ha', hlater⟩ := h.accounts a ha
    obtain ⟨a'', ha'', hlater'⟩ := h'.accounts a' ha'
    exact ⟨a'', ha'', hlater.trans hlater'⟩
  codes k hk := by
    obtain ⟨k', hk', hlater⟩ := h.codes k hk
    obtain ⟨k'', hk'', hlater'⟩ := h'.codes k' hk'
    exact ⟨k'', hk'', hlater.trans hlater'⟩
  hubs r hr := by
    obtain ⟨r', hr', hlater⟩ := h.hubs r hr
    obtain ⟨r'', hr'', hlater'⟩ := h'.hubs r' hr'
    exact ⟨r'', hr'', hlater.trans hlater'⟩
  members := List.Subset.trans h.members h'.members
  issued := List.Subset.trans h.issued h'.issued
  pods p hp := by
    obtain ⟨p', hp', hlater⟩ := h.pods p hp
    obtain ⟨p'', hp'', hlater'⟩ := h'.pods p' hp'
    exact ⟨p'', hp'', hlater.trans hlater'⟩

/-! ### The tables of the platform -/

/-- An account may enter a hub. -/
def Entitled (st : Platform) (accountId hubId : I64) : Prop :=
  (∃ m ∈ st.hubMembers, m.hubId = hubId ∧ m.accountId = accountId) ∧
    ∃ h ∈ st.hubs, h.id = hubId ∧ h.status = .ready

/-- A pod knows its accounts by different users, which it has. -/
structure Pod.Sound (p : Pod) : Prop where
  accounts : Table.Keyed Prod.fst p.service.accounts
  users : Table.Keyed Prod.snd p.service.accounts
  known : ∀ q ∈ p.service.accounts, ∃ u ∈ p.service.db.users, u.id = q.2

/-- What the row of a code says. -/
structure AuthCode.Sound (st : Platform) (k : AuthCode) : Prop where
  fresh : k.expiresAt ≤ st.now + codeTtlSecs
  consumed : ∀ t, k.consumedAt = some t → t < k.expiresAt ∧ k.expiresAt ≤ t + codeTtlSecs
  asked : ∃ claims ∈ st.service.issued, claims.sub = k.accountId
  entitled : Entitled st k.accountId k.hubId

/-- **What holds of the tables in every run.** -/
structure Registered (st : Platform) : Prop where
  codes : Table.Keyed AuthCode.code st.authCodes
  ids : Table.Keyed HubRow.id st.hubs
  secrets : Table.Keyed HubRow.hubSecret st.hubs
  sound : ∀ k ∈ st.authCodes, k.Sound st
  provisioning : st.provisioning.Nodup
  under : ∀ hubId ∈ st.provisioning, ∃ h ∈ st.hubs, h.id = hubId ∧ h.status = .provisioning
  podIds : Table.Keyed Pod.hubId st.pods
  podSecrets : ∀ p ∈ st.pods, ∃ h ∈ st.hubs, h.id = p.hubId ∧ h.hubSecret = p.secret
  pods : ∀ p ∈ st.pods, p.Sound

section Keeps

variable {st st' : Platform}

/-- Who is entitled stays so. -/
theorem Entitled.mono {accountId hubId : I64} (h : Entitled st accountId hubId)
    (hg : Grows st st') : Entitled st' accountId hubId := by
  obtain ⟨⟨m, hm, hmem⟩, r, hr, hid, hready⟩ := h
  obtain ⟨r', hr', heq, hkeep⟩ := hg.hubs r hr
  refine ⟨⟨m, hg.members hm, hmem⟩, r', hr', ?_, hkeep hready⟩
  rw [heq]
  exact hid

/-- **A sound code stays sound** as the platform grows, and time passes. -/
theorem AuthCode.Sound.mono {k : AuthCode} (h : k.Sound st) (hg : Grows st st')
    (hnow : st.now ≤ st'.now) : k.Sound st' where
  fresh := Nat.le_trans h.fresh (Nat.add_le_add_right hnow _)
  consumed := h.consumed
  asked := h.asked.imp fun _ hc => ⟨hg.issued hc.1, hc.2⟩
  entitled := h.entitled.mono hg

/-- A hub of a later time, by its id and secret. -/
theorem Grows.hub (hg : Grows st st') {hubId : I64} {secret : String}
    (h : ∃ r ∈ st.hubs, r.id = hubId ∧ r.hubSecret = secret) :
    ∃ r ∈ st'.hubs, r.id = hubId ∧ r.hubSecret = secret := by
  obtain ⟨r, hr, hid, hsecret⟩ := h
  obtain ⟨r', hr', heq, -⟩ := hg.hubs r hr
  refine ⟨r', hr', ?_, ?_⟩
  · rw [heq]
    exact hid
  · rw [heq]
    exact hsecret

/-! ### The general service -/

variable {cfg : Config} {hs : Hashes} {askama : Askama} {mailFrom : String}

/-- The general service at a later time. -/
structure Service.Later (s s' : Service) : Prop where
  now : s.mail.now ≤ s'.mail.now
  accounts : ∀ a ∈ s.accounts, ∃ a' ∈ s'.accounts, a.Later a'
  issued : s.issued ⊆ s'.issued

theorem Service.Later.refl (s : Service) : s.Later s :=
  ⟨Nat.le_refl _, fun a ha => ⟨a, ha, .refl a⟩, List.Subset.refl _⟩

/-- What has come of a service comes of what it was before its last answer. -/
theorem Issues.later {id : I64} {email : String} {s₀ s s' : Service} (h : Issues id email s s')
    (hs : s₀.Later s) : s₀.Later s' := by
  rcases h with rfl | ⟨c, -, -, rfl⟩
  · exact hs
  · exact { hs with issued := List.subset_cons_of_subset _ hs.issued }

/-- The claim of a token verifies an account, and changes no other. -/
theorem Service.Later.redeem (s : Service) (k : VerificationToken) (e : Redemption)
    (r : Mailer.MailOutbox) : s.Later (s.redeem k e r) where
  now := Nat.le_refl _
  accounts a ha := by
    refine ⟨_, Table.mem_update.mpr ⟨a, ha, rfl⟩, ?_⟩
    split
    · exact ⟨rfl, fun _ => rfl⟩
    · exact .refl a
  issued := List.Subset.refl _

/-- **The general service takes back no account and no token.** -/
theorem Step.later {s s' : Service} {a : Act} (h : Step cfg hs askama mailFrom s a s') :
    s.Later s' := by
  cases h with
  | signup req d faults =>
    rcases signup_cases req d faults s with heq | ⟨t, hrows, hissues⟩
    · rw [heq]
      exact .refl s
    · obtain ⟨s₁, -, hins, hmail⟩ := signupRows_eq_ok.mp hrows
      obtain ⟨-, -, rfl⟩ := insertAccount_eq_some.mp hins
      obtain ⟨-, -, -, -, rfl⟩ := issueVerificationEmail_eq_ok.mp hmail
      refine hissues.later { Service.Later.refl s with accounts := fun a ha => ?_ }
      exact ⟨a, List.mem_cons_of_mem _ ha, .refl a⟩
  | login req faults =>
    rcases login_cases req faults s with heq | ⟨a, -, -, -, hissues⟩
    · rw [heq]
      exact .refl s
    · exact hissues.later (.refl s)
  | verifyEmail token d faults =>
    rcases verifyEmail_cases token d faults s with heq | ⟨b, t, hrows, hissues⟩
    · rw [heq]
      exact .refl s
    · obtain ⟨k, a, -, -, -, -, hres⟩ := verifyRows_eq_ok hrows
      obtain ⟨rfl, rfl⟩ := Prod.mk.inj hres
      exact hissues.later (.redeem s k _ _)
  | resendReads email faults =>
    rw [General.resendReads]
    split
    · exact .refl s
    · split
      · exact .refl s
      · split <;> exact { Service.Later.refl s with }
  | @resendWrites id email d faults hmem =>
    rw [resend]
    rcases Handler.transaction_cases .begin .commit .commitAnswer Failure.internalServerError
      (issueVerificationEmail cfg hs d id email) faults
      { s with resending := s.resending.erase (id, email) } with ⟨e, h⟩ | ⟨u, t, h⟩
    · rw [h]
      exact { Service.Later.refl s with }
    · rw [Handler.state_of_commits h]
      obtain ⟨-, -, -, -, rfl⟩ := issueVerificationEmail_eq_ok.mp h.2.1
      exact { Service.Later.refl s with }
  | mail hne hstep => exact { Service.Later.refl s with now := (letters_of_step hstep hne).1 }

/-- Growth of the service is growth of the platform. -/
theorem Grows.general {s : Service} (h : st.service.Later s) : Grows st { st with service := s } :=
  { Grows.refl st with accounts := h.accounts, issued := h.issued }

/-- The registry is sound after it. -/
theorem Registered.general (hst : Registered st) {s : Service} (h : st.service.Later s) :
    Registered { st with service := s } :=
  { hst with sound := fun k hk => (hst.sound k hk).mono (.general h) h.now }

/-! ### Hubs -/

/-- What the insertion of a hub requires, and what it makes. -/
theorem insertHub_eq_ok {h : HubRow} : st.insertHub h = .ok st' ↔
    slugFormat h.slug = true ∧ (∀ r ∈ st.hubs, r.id ≠ h.id) ∧ (∀ r ∈ st.hubs, r.slug ≠ h.slug) ∧
      (∀ r ∈ st.hubs, r.hubSecret ≠ h.hubSecret) ∧ st.hasAccount h.ownerAccountId = true ∧
      { st with hubs := h :: st.hubs } = st' := by
  rw [Platform.insertHub]
  split_ifs with hformat hkey haccount
  · simp_all
  · simp only [Bool.or_eq_true, Table.hasKey_iff] at hkey
    constructor
    · intro h
      cases h
    · rintro ⟨-, hid, hslug, hsecret, -⟩
      rcases hkey with (⟨r, hr, heq⟩ | ⟨r, hr, heq⟩) | ⟨r, hr, heq⟩
      · exact absurd heq (hid r hr)
      · exact absurd heq (hslug r hr)
      · exact absurd heq (hsecret r hr)
  · simp_all
  · simp only [Bool.or_eq_true, Table.hasKey_iff, not_or, not_exists, not_and] at hkey
    obtain ⟨⟨hid, hslug⟩, hsecret⟩ := hkey
    simp only [Bool.not_eq_true'] at hformat haccount
    rw [Except.ok.injEq]
    exact ⟨fun h => ⟨by simpa using hformat, hid, hslug, hsecret, by simpa using haccount, h⟩,
      fun h => h.2.2.2.2.2⟩

/-- A member that is inserted is the only thing that is new. -/
theorem insertHubMember_eq_some {m : HubMember} (h : st.insertHubMember m = some st') :
    st' = { st with hubMembers := m :: st.hubMembers } := by
  rw [Platform.insertHubMember] at h
  split_ifs at h
  obtain ⟨rows, hrows, rfl⟩ := Option.map_eq_some_iff.mp h
  rw [Table.insert] at hrows
  split_ifs at hrows
  rw [Option.some.inj hrows]

/-- The platform with one more hub, and its owner. -/
def Platform.addHub (st : Platform) (h : HubRow) : Platform :=
  { st with
    hubs := h :: st.hubs
    hubMembers := ⟨h.id, h.ownerAccountId, "owner"⟩ :: st.hubMembers }

/-- **Spec of the transaction of `create_hub`.** -/
theorem createHubRows_eq_ok {h : HubRow} {faults : HubPoint → Bool} {r : Unit × Platform}
    (hok : createHubRows h faults st = .ok r) :
    slugFormat h.slug = true ∧ (∀ r ∈ st.hubs, r.id ≠ h.id) ∧ (∀ r ∈ st.hubs, r.slug ≠ h.slug) ∧
      (∀ r ∈ st.hubs, r.hubSecret ≠ h.hubSecret) ∧ r.2 = st.addHub h := by
  rw [createHubRows, Body.bind_eq_ok] at hok
  obtain ⟨_, st₁, hhub, hmember⟩ := hok
  rw [Body.statement_eq_ok] at hhub hmember
  rcases hins : st.insertHub h with e | st₂
  · rw [hins] at hhub
    cases hhub.2
  · rw [hins] at hhub
    obtain ⟨-, rfl⟩ := Prod.mk.inj (Except.ok.inj hhub.2)
    obtain ⟨hformat, hid, hslug, hsecret, -, rfl⟩ := insertHub_eq_ok.mp hins
    refine ⟨hformat, hid, hslug, hsecret, ?_⟩
    rcases hrow : Platform.insertHubMember { st with hubs := h :: st.hubs }
        ⟨h.id, h.ownerAccountId, "owner"⟩ with _ | st₃
    · rw [hrow] at hmember
      cases hmember.2
    · rw [hrow] at hmember
      rw [← Except.ok.inj hmember.2]
      exact insertHubMember_eq_some hrow

/-- A hub that is added is growth. -/
theorem Grows.addHub (h : HubRow) : Grows st (st.addHub h) :=
  { Grows.refl st with
    hubs := fun r hr => ⟨r, List.mem_cons_of_mem _ hr, .refl r⟩
    members := List.subset_cons_self _ _ }

/-- **A hub that is added** keeps the registry sound, if its id and its secret are new. -/
theorem Registered.addHub (hst : Registered st) {h : HubRow} (hid : ∀ r ∈ st.hubs, r.id ≠ h.id)
    (hsecret : ∀ r ∈ st.hubs, r.hubSecret ≠ h.hubSecret) : Registered (st.addHub h) :=
  { hst with
    ids := hst.ids.cons hid
    secrets := hst.secrets.cons hsecret
    sound := fun k hk => (hst.sound k hk).mono (.addHub h) (Nat.le_refl _)
    under := fun hubId hmem =>
      (hst.under hubId hmem).imp fun _ hr => ⟨List.mem_cons_of_mem _ hr.1, hr.2⟩
    podSecrets := fun p hp =>
      (hst.podSecrets p hp).imp fun _ hr => ⟨List.mem_cons_of_mem _ hr.1, hr.2⟩ }

/-- A new hub is to be provisioned. -/
theorem Registered.provision (hst : Registered st) {h : HubRow} (hh : h ∈ st.hubs)
    (hstatus : h.status = .provisioning) (hnew : h.id ∉ st.provisioning) :
    Registered { st with provisioning := h.id :: st.provisioning } :=
  { hst with
    sound := fun k hk => (hst.sound k hk).mono { Grows.refl st with } (Nat.le_refl _)
    provisioning := List.nodup_cons.mpr ⟨hnew, hst.provisioning⟩
    under := List.forall_mem_cons.mpr ⟨⟨h, hh, rfl, hstatus⟩, hst.under⟩ }

/-- **`create_hub`** makes the hub with its owner, or nothing. -/
theorem createHub_cases (k8s : Bool) (claims : AccountClaims) (req : CreateHubRequest)
    (hubId : I64) (hubSecret : String) (faults : HubPoint → Bool) (st : Platform) :
    (createHub k8s claims req hubId hubSecret faults st).2 = st ∨
      ∃ r, createHubRows (newHub claims req hubId hubSecret) faults st = .ok ((), r) ∧
        ((createHub k8s claims req hubId hubSecret faults st).2 = r ∨
          (createHub k8s claims req hubId hubSecret faults st).2 =
            { r with provisioning := hubId :: r.provisioning }) := by
  rcases Handler.transaction_cases .begin .commit .commitAnswer Failure.internalServerError
    (createHubRows (newHub claims req hubId hubSecret)) faults st with ⟨e, h⟩ | ⟨u, t, h⟩
  · refine .inl ?_
    rw [createHub, h]
  · refine .inr ⟨t, h.2.1, ?_⟩
    rw [createHub, Handler.transaction_of_commits h]
    -- a request that does not learn of its commit starts no task
    cases faults .commitAnswer
    · cases k8s
      · exact .inl rfl
      · exact .inr rfl
    · exact .inl rfl

/-- `create_hub` is growth, and keeps the registry sound. -/
theorem Registered.createHub (hst : Registered st) (k8s : Bool) (claims : AccountClaims)
    (req : CreateHubRequest) (hubId : I64) (hubSecret : String) (faults : HubPoint → Bool) :
    Grows st (createHub k8s claims req hubId hubSecret faults st).2 ∧
      Registered (General.createHub k8s claims req hubId hubSecret faults st).2 := by
  rcases createHub_cases k8s claims req hubId hubSecret faults st with heq | ⟨r, hrows, heq⟩
  · rw [heq]
    exact ⟨.refl st, hst⟩
  · obtain ⟨-, hid, -, hsecret, rfl⟩ := createHubRows_eq_ok hrows
    have hreg := hst.addHub hid hsecret
    rcases heq with heq | heq
    · rw [heq]
      exact ⟨.addHub _, hreg⟩
    · rw [heq]
      refine ⟨{ Grows.addHub (newHub claims req hubId hubSecret) with }, ?_⟩
      refine hreg.provision List.mem_cons_self rfl fun hmem => ?_
      obtain ⟨r, hr, heq, -⟩ := hst.under _ hmem
      exact hid r hr heq

/-- **A provisioning task** writes the status of a hub that has not been provisioned. -/
theorem Registered.provisioned (hst : Registered st) {hubId : I64} (hmem : hubId ∈ st.provisioning)
    (ok written : Bool) :
    Grows st (General.provisioned hubId ok written st) ∧
      Registered (General.provisioned hubId ok written st) := by
  have hrest : Registered { st with provisioning := st.provisioning.erase hubId } :=
    { hst with
      sound := fun k hk => (hst.sound k hk).mono { Grows.refl st with } (Nat.le_refl _)
      provisioning := hst.provisioning.erase _
      under := fun id hid => hst.under id (List.mem_of_mem_erase hid) }
  cases written with
  | false => exact ⟨{ Grows.refl st with }, hrest⟩
  | true =>
    rw [General.provisioned]
    simp only [if_true]
    generalize hstatus : (if ok = true then HubStatus.ready else HubStatus.failed) = status
    have hgrows : Grows st
        (Platform.setStatus { st with provisioning := st.provisioning.erase hubId } hubId
          status) :=
      { Grows.refl st with
        hubs := by
          intro h hh
          refine ⟨_, Table.mem_update.mpr ⟨h, hh, rfl⟩, ?_⟩
          split
          · rename_i hid
            -- the hub of a task is not ready yet
            obtain ⟨r, hr, hrid, hrstatus⟩ := hst.under hubId hmem
            have heq : h = r :=
              hst.ids.eq_of_key hh hr ((of_decide_eq_true hid).trans hrid.symm)
            refine ⟨rfl, fun hready => ?_⟩
            rw [heq, hrstatus] at hready
            cases hready
          · exact .refl h }
    refine ⟨hgrows, ?_⟩
    exact
      { hrest with
        ids := hst.ids.update fun _ => rfl
        secrets := hst.secrets.update fun _ => rfl
        sound := fun k hk => (hst.sound k hk).mono hgrows (Nat.le_refl _)
        under := by
          intro id hid
          obtain ⟨hne, hid⟩ := hst.provisioning.mem_erase_iff.mp hid
          obtain ⟨r, hr, hrid, hrstatus⟩ := hst.under id hid
          refine ⟨r, Table.mem_update.mpr ⟨r, hr, if_neg ?_⟩, hrid, hrstatus⟩
          exact fun h => hne (hrid.symm.trans (of_decide_eq_true h))
        podSecrets := fun p hp => hgrows.hub (hst.podSecrets p hp) }

/-! ### Codes -/

/-- A code that is inserted is new. -/
theorem insertCode_eq_some {k : AuthCode} (h : st.insertCode k = some st') :
    (∀ k' ∈ st.authCodes, k'.code ≠ k.code) ∧
      st' = { st with authCodes := k :: st.authCodes } := by
  rw [Platform.insertCode] at h
  split_ifs at h
  obtain ⟨rows, hrows, rfl⟩ := Option.map_eq_some_iff.mp h
  refine ⟨fun k' hk' => Table.key_ne_of_insert hrows hk', ?_⟩
  rw [Table.insert] at hrows
  split_ifs at hrows
  rw [Option.some.inj hrows]

/-- A code that is made is growth. -/
theorem Grows.mint (k : AuthCode) : Grows st { st with authCodes := k :: st.authCodes } :=
  { Grows.refl st with codes := fun k' hk' => ⟨k', List.mem_cons_of_mem _ hk', .refl k'⟩ }

/-- **A sound code that is new** keeps the registry sound. -/
theorem Registered.mint (hst : Registered st) {k : AuthCode}
    (hnew : ∀ k' ∈ st.authCodes, k'.code ≠ k.code) (hk : k.Sound st) :
    Registered { st with authCodes := k :: st.authCodes } :=
  { hst with
    codes := hst.codes.cons hnew
    sound := by
      refine List.forall_mem_cons.mpr ⟨hk.mono (.mint k) (Nat.le_refl _), fun k' hk' => ?_⟩
      exact (hst.sound k' hk').mono (.mint k) (Nat.le_refl _) }

/-- A code that is claimed is one of the hub's, unused and alive. -/
theorem Platform.claim?_eq_some {code : String} {hubId : I64} {k : AuthCode}
    (h : st.claim? code hubId = some k) : k ∈ st.authCodes ∧ k.code = code ∧ k.hubId = hubId ∧
      k.consumedAt = none ∧ st.now < k.expiresAt :=
  Table.of_find?_eq_some h

/-- A code that is claimed is consumed, and no other. -/
theorem consume_later (hst : Registered st) {k : AuthCode} (hk : k ∈ st.authCodes)
    (hnone : k.consumedAt = none) : ∀ k' ∈ st.authCodes,
      k'.Later (if k'.code = k.code then { k' with consumedAt := some st.now } else k') := by
  intro k' hk'
  split
  · rename_i heq
    refine ⟨rfl, .inl ?_⟩
    rw [hst.codes.eq_of_key hk' hk heq]
    exact hnone
  · exact .refl k'

/-- A code that is used up is growth. -/
theorem Grows.consume (hst : Registered st) {k : AuthCode} (hk : k ∈ st.authCodes)
    (hnone : k.consumedAt = none) : Grows st (st.consume k.code) :=
  { Grows.refl st with
    codes := by
      intro k' hk'
      refine ⟨_, Table.mem_update.mpr ⟨k', hk', rfl⟩, ?_⟩
      simp only [decide_eq_true_eq]
      exact consume_later hst hk hnone k' hk' }

/-- **A live code that is used up** keeps the registry sound. -/
theorem Registered.consume (hst : Registered st) {k : AuthCode} (hk : k ∈ st.authCodes)
    (hnone : k.consumedAt = none) (hlive : st.now < k.expiresAt) :
    Registered (st.consume k.code) :=
  have hgrows : Grows st (st.consume k.code) := .consume hst hk hnone
  { hst with
    codes := hst.codes.update fun _ => rfl
    sound := by
      intro k' hk'
      obtain ⟨k₀, hk₀, rfl⟩ := Table.mem_update.mp hk'
      have hsound : k₀.Sound (st.consume k.code) := (hst.sound k₀ hk₀).mono hgrows (Nat.le_refl _)
      split
      · rename_i heq
        obtain rfl : k₀ = k := hst.codes.eq_of_key hk₀ hk (of_decide_eq_true heq)
        refine { hsound with consumed := fun t ht => ?_ }
        obtain rfl := Option.some.inj ht
        exact ⟨hlive, hsound.fresh⟩
      · exact hsound }

/-! ### Pods -/

/-- A pod that is found is there, and is the hub's. -/
theorem pod?_eq_some {hubId : I64} {p : Pod} (h : st.pod? hubId = some p) :
    p ∈ st.pods ∧ p.hubId = hubId := Table.of_find?_eq_some h

/-- A pod that starts is growth. -/
theorem Grows.startPod (p : Pod) : Grows st { st with pods := p :: st.pods } :=
  { Grows.refl st with pods := fun p' hp' => ⟨p', List.mem_cons_of_mem _ hp', .refl p'⟩ }

/-- **A pod that starts** has the secret of its hub. -/
theorem Registered.startPod (hst : Registered st) {h : HubRow} (db : Hub.Db) (hh : h ∈ st.hubs)
    (hnone : st.pod? h.id = none) :
    Registered { st with pods := ⟨h.id, h.hubSecret, ⟨db, []⟩⟩ :: st.pods } :=
  { hst with
    sound := fun k hk => (hst.sound k hk).mono (.startPod _) (Nat.le_refl _)
    podIds := by
      refine hst.podIds.cons fun p hp heq => ?_
      exact absurd (decide_eq_true heq) (List.find?_eq_none.mp hnone p hp)
    podSecrets := List.forall_mem_cons.mpr ⟨⟨h, hh, rfl, rfl⟩, hst.podSecrets⟩
    pods := by
      refine List.forall_mem_cons.mpr ⟨⟨List.nodup_nil, List.nodup_nil, ?_⟩, hst.pods⟩
      exact fun _ hq => absurd hq List.not_mem_nil }

variable {hubId : I64} {p : Pod} {s : Hub.Service}

/-- A pod that links accounts is growth. -/
theorem Grows.setPod (hst : Registered st) (hp : st.pod? hubId = some p)
    (hsub : p.service.accounts ⊆ s.accounts) : Grows st (st.setPod hubId s) :=
  { Grows.refl st with
    pods := by
      obtain ⟨hmem, hid⟩ := pod?_eq_some hp
      intro p' hp'
      refine ⟨_, Table.mem_update.mpr ⟨p', hp', rfl⟩, ?_⟩
      split
      · rename_i heq
        obtain rfl := hst.podIds.eq_of_key hp' hmem ((of_decide_eq_true heq).trans hid.symm)
        exact ⟨rfl, rfl, hsub⟩
      · exact .refl p' }

/-- The registry is sound if the pod is. -/
theorem Registered.setPod (hst : Registered st) (hp : st.pod? hubId = some p)
    (hsub : p.service.accounts ⊆ s.accounts) (hs : Pod.Sound { p with service := s }) :
    Registered (st.setPod hubId s) :=
  have hgrows : Grows st (st.setPod hubId s) := .setPod hst hp hsub
  have hback : ∀ p' ∈ (st.setPod hubId s).pods, p' = { p with service := s } ∨ p' ∈ st.pods := by
    obtain ⟨hmem, hid⟩ := pod?_eq_some hp
    intro p' hp'
    obtain ⟨p₀, hp₀, rfl⟩ := Table.mem_update.mp hp'
    split
    · rename_i heq
      obtain rfl := hst.podIds.eq_of_key hp₀ hmem ((of_decide_eq_true heq).trans hid.symm)
      exact .inl rfl
    · exact .inr hp₀
  { hst with
    sound := fun k hk => (hst.sound k hk).mono hgrows (Nat.le_refl _)
    podIds := hst.podIds.update fun _ => rfl
    podSecrets := by
      intro p' hp'
      rcases hback p' hp' with rfl | hp'
      · exact hst.podSecrets p (pod?_eq_some hp).1
      · exact hst.podSecrets p' hp'
    pods := by
      intro p' hp'
      rcases hback p' hp' with rfl | hp'
      · exact hs
      · exact hst.pods p' hp' }

/-- A statement that has nothing to do with accounts. -/
theorem Pod.Sound.exec (hp : p.Sound) {db : Hub.Db} {w : Hub.Write}
    (h : w.exec p.service.db = some db) :
    Pod.Sound { p with service := ⟨db, p.service.accounts⟩ } :=
  { hp with
    known := by
      intro q hq
      obtain ⟨u, hu, hid⟩ := hp.known q hq
      obtain ⟨u', hu', hid'⟩ := Hub.Write.keeps_user h u hu
      exact ⟨u', hu', hid'.trans hid⟩ }

/-- A link that is found is there. -/
theorem accountUser?_eq_some {accountId userId : I64} (h : s.accountUser? accountId = some userId) :
    (accountId, userId) ∈ s.accounts := by
  obtain ⟨q, hq, rfl⟩ := Option.map_eq_some_iff.mp h
  obtain ⟨hmem, rfl⟩ := Table.of_find?_eq_some hq
  exact hmem

/-- Where none is found, the account has none. -/
theorem accountUser?_eq_none {accountId : I64} (h : s.accountUser? accountId = none) :
    ∀ q ∈ s.accounts, q.1 ≠ accountId := by
  intro q hq heq
  rw [Hub.Service.accountUser?, Option.map_eq_none_iff, List.find?_eq_none] at h
  exact h q hq (decide_eq_true heq)

/-- **Spec of the upsert**: the account has a user from now on. -/
theorem Pod.Sound.upsert (hp : p.Sound) {x : Hub.ExchangeResponse} {newUserId : I64}
    {u : Hub.User} (h : upsertUser p.service x newUserId = some (s, u)) :
    Pod.Sound { p with service := s } ∧ p.service.accounts ⊆ s.accounts ∧
      (x.accountId, u.id) ∈ s.accounts := by
  rw [upsertUser] at h
  split at h
  · rename_i userId hknown
    obtain ⟨db, hexec, h⟩ := Option.bind_eq_some_iff.mp h
    obtain ⟨u', hu', h⟩ := Option.map_eq_some_iff.mp h
    obtain ⟨rfl, rfl⟩ := Prod.mk.inj h
    obtain ⟨-, rfl⟩ := Table.of_find?_eq_some hu'
    have hwrite : Hub.Write.exec p.service.db (.setEmail u'.id x.email) = some db := hexec
    exact ⟨hp.exec hwrite, List.Subset.refl _, accountUser?_eq_some hknown⟩
  · rename_i hnew
    obtain ⟨db, hexec, h⟩ := Option.map_eq_some_iff.mp h
    obtain ⟨rfl, rfl⟩ := Prod.mk.inj h
    have hok := Hub.exec_insertUser_eq_some hexec
    refine ⟨⟨?_, ?_, ?_⟩, List.subset_cons_self _ _, List.mem_cons_self⟩
    · exact hp.accounts.cons (accountUser?_eq_none hnew)
    · -- the user of another account has another id
      refine hp.users.cons fun q hq heq => ?_
      obtain ⟨u', hu', hid⟩ := hp.known q hq
      exact (Hub.Db.insertUser_eq_ok hok).2 u' hu' (hid.trans heq)
    · refine List.forall_mem_cons.mpr ⟨?_, (hp.exec hexec).known⟩
      rw [Hub.Onboarding.users_insertUser hok]
      exact ⟨_, List.mem_cons_self, rfl⟩

/-- Joining the default group links nobody. -/
theorem Pod.Sound.joinDefaultGroup (hp : p.Sound) {userId : I64}
    (h : General.joinDefaultGroup p.service hubId userId = some s) :
    Pod.Sound { p with service := s } ∧ s.accounts = p.service.accounts := by
  rw [General.joinDefaultGroup] at h
  split at h
  · obtain rfl := Option.some.inj h
    exact ⟨hp, rfl⟩
  · rename_i everyone _
    obtain ⟨db, hexec, rfl⟩ := Option.map_eq_some_iff.mp h
    have hwrite : Hub.Write.exec p.service.db (.insertMemberGroup ⟨hubId, userId, everyone.id⟩) =
        some db := hexec
    exact ⟨hp.exec hwrite, rfl⟩

/-- **The surroundings** keep what is registered. -/
theorem Registered.around (hst : Registered st) {k8s : Bool} {a : PlatformAct}
    (h : Around cfg hs askama mailFrom k8s st a st') : Grows st st' ∧ Registered st' := by
  cases h with
  | general hstep => exact ⟨.general hstep.later, hst.general hstep.later⟩
  | createHub req hubId hubSecret faults _ => exact hst.createHub k8s _ req hubId hubSecret faults
  | provisioned ok written hmem => exact hst.provisioned hmem ok written
  | startPod db hh hnone => exact ⟨.startPod _, hst.startPod db hh hnone⟩
  | write hp hexec =>
    have hsound := (hst.pods _ (pod?_eq_some hp).1).exec hexec
    exact ⟨.setPod hst hp (List.Subset.refl _), hst.setPod hp (List.Subset.refl _) hsound⟩

/-- Only its own steps write to the tables of accounts. -/
theorem service_around (h : (system cfg hs askama mailFrom).Reachable st.service) {k8s : Bool}
    {a : PlatformAct} (hstep : Around cfg hs askama mailFrom k8s st a st') :
    (system cfg hs askama mailFrom).Reachable st'.service := by
  cases hstep with
  | general hstep => exact .step h trivial hstep
  | createHub req hubId hubSecret faults _ =>
    rcases createHub_cases k8s _ req hubId hubSecret faults st with heq | ⟨r, hrows, heq⟩
    · rwa [heq]
    · obtain ⟨-, -, -, -, rfl⟩ := createHubRows_eq_ok hrows
      rcases heq with heq | heq
      · rw [heq]
        exact h
      · rw [heq]
        exact h
  | provisioned ok written _ =>
    cases written <;> exact h
  | startPod | write => exact h

/-! ### What a request knows -/

/-- A code has been claimed for a hub. -/
def Spent (st : Platform) (code : String) (hubId accountId : I64) : Prop :=
  ∃ k ∈ st.authCodes, k.code = code ∧ k.hubId = hubId ∧ k.accountId = accountId ∧
    k.consumedAt ≠ none

/-- What a pod presents, it presents with its own secret. -/
def Authentic (st : Platform) (p : Presented) : Prop :=
  ∀ hubId, p.pod = some hubId → ∃ h ∈ st.hubs, h.id = hubId ∧ h.hubSecret = p.secret

/-- A secret is that of a hub. -/
def Identified (st : Platform) (p : Presented) (hubId : I64) : Prop :=
  ∃ h ∈ st.hubs, h.id = hubId ∧ h.hubSecret = p.secret

/-- The pod of a login knows its account by its user. -/
def Knows (st : Platform) (v : Visit) : Prop :=
  ∃ p ∈ st.pods, p.hubId = v.hubId ∧ (v.accountId, v.user.id) ∈ p.service.accounts

/-- A login rests on a code, and on what its pod knows. -/
def Visit.Backed (st : Platform) (v : Visit) : Prop :=
  Spent st v.code v.hubId v.accountId ∧ Knows st v

/-- **What a request knows**, where it stands. -/
def Request.Backed (st : Platform) : Request → Prop
  | .enter claims _ => claims ∈ st.service.issued
  | .found claims _ hubId => claims ∈ st.service.issued ∧ Entitled st claims.sub hubId
  | .redirected claims code _ => ∃ k ∈ st.authCodes, k.code = code ∧ k.accountId = claims.sub
  | .presented p => Authentic st p
  | .identified p hubId => Authentic st p ∧ Identified st p hubId
  | .claimed p hubId accountId =>
    (Authentic st p ∧ Identified st p hubId) ∧ Spent st p.code hubId accountId
  | .exchanged p hubId x =>
    (Authentic st p ∧ Identified st p hubId) ∧ Spent st p.code hubId x.accountId
  | .known v | .member v | .grouped v | .granted v _ => v.Backed st
  | .loggedIn v claims => v.Backed st ∧ claims.sub = v.user.id ∧ claims.hubId = v.hubId
  | .failed _ => True

/-- The code that a request has claimed. -/
def Request.held : Request → Option String
  | .claimed p _ _ | .exchanged p _ _ => some p.code
  | .known v | .member v | .grouped v | .granted v _ | .loggedIn v _ => some v.code
  | _ => none

/-- A code that is spent stays so. -/
theorem Spent.mono {code : String} {accountId : I64} (h : Spent st code hubId accountId)
    (hg : Grows st st') : Spent st' code hubId accountId := by
  obtain ⟨k, hk, hcode, hhub, haccount, hne⟩ := h
  obtain ⟨k', hk', heq, hnone | hsame⟩ := hg.codes k hk
  · exact absurd hnone hne
  · refine ⟨k', hk', ?_, ?_, ?_, hsame ▸ hne⟩
    · rw [heq]
      exact hcode
    · rw [heq]
      exact hhub
    · rw [heq]
      exact haccount

/-- Who is authentic stays so. -/
theorem Authentic.mono {p : Presented} (h : Authentic st p) (hg : Grows st st') :
    Authentic st' p := fun hubId hpod => hg.hub (h hubId hpod)

/-- Whose secret it is stays so. -/
theorem Identified.mono {p : Presented} (h : Identified st p hubId) (hg : Grows st st') :
    Identified st' p hubId := hg.hub h

/-- A visit that is backed stays so. -/
theorem Visit.Backed.mono {v : Visit} (h : v.Backed st) (hg : Grows st st') : v.Backed st' := by
  obtain ⟨hspent, p, hp, hid, hmem⟩ := h
  obtain ⟨p', hp', hid', -, hsub⟩ := hg.pods p hp
  exact ⟨hspent.mono hg, p', hp', hid'.trans hid, hsub hmem⟩

/-- **What a request knows stays true.** -/
theorem Request.Backed.mono {r : Request} (h : r.Backed st) (hg : Grows st st') :
    r.Backed st' := by
  cases r with
  | enter claims slug => exact hg.issued h
  | found claims slug hubId => exact ⟨hg.issued h.1, h.2.mono hg⟩
  | redirected claims code url =>
    obtain ⟨k, hk, hcode, haccount⟩ := h
    obtain ⟨k', hk', heq, -⟩ := hg.codes k hk
    refine ⟨k', hk', ?_, ?_⟩
    · rw [heq]
      exact hcode
    · rw [heq]
      exact haccount
  | presented p => exact Authentic.mono h hg
  | identified p hubId => exact ⟨h.1.mono hg, h.2.mono hg⟩
  | claimed p hubId accountId => exact ⟨⟨h.1.1.mono hg, h.1.2.mono hg⟩, h.2.mono hg⟩
  | exchanged p hubId x => exact ⟨⟨h.1.1.mono hg, h.1.2.mono hg⟩, h.2.mono hg⟩
  | known v | member v | grouped v | granted v groups => exact Visit.Backed.mono h hg
  | loggedIn v claims => exact ⟨h.1.mono hg, h.2⟩
  | failed e => trivial

end Keeps

/-! ### Steps of a request -/

section Requests

variable {template : String} {st st' : Platform} {r r' : Request} {a : RequestAct}

/-- **What a step of a request does**: it takes nothing away, it knows what it then needs, and
the code that it holds has been its own before, or nobody's. It does not write to the tables of
accounts. -/
structure Moves (st : Platform) (r : Request) (st' : Platform) (r' : Request) : Prop where
  service : st'.service = st.service
  grows : Grows st st'
  registered : Registered st'
  backed : r'.Backed st'
  held : ∀ code, r'.held = some code →
    r.held = some code ∨ ∃ k ∈ st.authCodes, k.code = code ∧ k.consumedAt = none

/-- A request that fails moves nothing. -/
theorem Moves.fail (hst : Registered st) (e : Failure) : Moves st r st (.failed e) where
  service := rfl
  grows := .refl st
  registered := hst
  backed := trivial
  held := fun _ h => nomatch h

/-- A refused exchange moves nothing. -/
theorem Moves.refuse (hst : Registered st) (p : Presented) (e : Failure) :
    Moves st r st (p.refuse e) := by
  rw [Presented.refuse.eq_def]
  split <;> exact .fail hst _

/-- A step that reads, and does not change what the request holds. -/
theorem Moves.stay (hst : Registered st) (hr' : r'.Backed st) (hheld : r'.held = r.held) :
    Moves st r st r' where
  service := rfl
  grows := .refl st
  registered := hst
  backed := hr'
  held := fun _ h => .inl (hheld ▸ h)

/-- A pod writes for a login. -/
theorem Moves.pod (hst : Registered st) {hubId : I64} {p : Pod} {s : Hub.Service}
    (hp : st.pod? hubId = some p) (hsub : p.service.accounts ⊆ s.accounts)
    (hs : Pod.Sound { p with service := s }) (hr' : r'.Backed (st.setPod hubId s))
    (hheld : r'.held = r.held) : Moves st r (st.setPod hubId s) r' where
  service := rfl
  grows := .setPod hst hp hsub
  registered := hst.setPod hp hsub hs
  backed := hr'
  held := fun _ h => .inl (hheld ▸ h)

/-- Who may enter a hub by its slug is entitled to it. -/
theorem enterable?_eq_some {slug : String} {accountId : I64} {h : HubRow}
    (hfound : st.enterable? slug accountId = some h) : Entitled st accountId h.id := by
  have hmem := List.mem_of_find?_eq_some hfound
  have hcond := List.find?_some hfound
  rw [Bool.and_eq_true, List.any_eq_true, decide_eq_true_eq] at hcond
  obtain ⟨⟨-, hready⟩, m, hm, hmember⟩ := hcond
  exact ⟨⟨m, hm, of_decide_eq_true hmember⟩, h, hmem, rfl, hready⟩

/-- **A step of `enter_hub`** at most makes a code for who asks. -/
theorem enterHub_moves (hst : Registered st) (hr : r.Backed st)
    (h : enterHub template st r a = some (st', r')) : Moves st r st' r' := by
  rw [enterHub.eq_def] at h
  split at h
  · rename_i claims slug
    split at h <;> obtain ⟨rfl, rfl⟩ := Prod.mk.inj (Option.some.inj h)
    · exact .fail hst _
    · rename_i hfound
      exact .stay hst ⟨hr, enterable?_eq_some hfound⟩ rfl
  · rename_i claims slug hubId code
    split at h <;> obtain ⟨rfl, rfl⟩ := Prod.mk.inj (Option.some.inj h)
    · exact .fail hst _
    · rename_i hins
      obtain ⟨hnew, rfl⟩ := insertCode_eq_some hins
      obtain ⟨hclaims, hentitled⟩ : _ ∧ Entitled st claims.sub hubId := hr
      refine ⟨rfl, .mint _, hst.mint hnew ⟨Nat.le_refl _, ?_, ⟨claims, hclaims, rfl⟩, hentitled⟩,
        ⟨_, List.mem_cons_self, rfl, rfl⟩, fun _ h => nomatch h⟩
      exact fun _ h => nomatch h
  · obtain ⟨rfl, rfl⟩ := Prod.mk.inj (Option.some.inj h)
    exact .fail hst _
  · obtain ⟨rfl, rfl⟩ := Prod.mk.inj (Option.some.inj h)
    exact .fail hst _
  · cases h

/-- **A step of `exchange_code`** at most claims the code that it is given. -/
theorem exchangeCode_moves (hst : Registered st) (hr : r.Backed st)
    (h : exchangeCode st r a = some (st', r')) : Moves st r st' r' := by
  rw [exchangeCode.eq_def] at h
  split at h
  · split at h <;> obtain ⟨rfl, rfl⟩ := Prod.mk.inj (Option.some.inj h)
    · exact .refuse hst _ _
    · rename_i row hfound
      obtain ⟨hmem, hsecret⟩ := Table.of_find?_eq_some hfound
      exact .stay hst ⟨hr, row, hmem, rfl, hsecret⟩ rfl
  · rename_i p hubId
    split at h <;> obtain ⟨rfl, rfl⟩ := Prod.mk.inj (Option.some.inj h)
    · exact .refuse hst _ _
    · rename_i k hfound
      obtain ⟨hk, hcode, hhub, hnone, hlive⟩ := Platform.claim?_eq_some hfound
      have hgrows : Grows st (st.consume p.code) := hcode ▸ .consume hst hk hnone
      refine ⟨rfl, hgrows, hcode ▸ hst.consume hk hnone hlive,
        ⟨⟨hr.1.mono hgrows, hr.2.mono hgrows⟩, ?_⟩, ?_⟩
      · refine ⟨_, Table.mem_update.mpr ⟨k, hk, rfl⟩, ?_⟩
        rw [if_pos (decide_eq_true hcode)]
        exact ⟨hcode, hhub, rfl, nofun⟩
      · intro code hheld
        obtain rfl := Option.some.inj hheld
        exact .inr ⟨k, hk, hcode, hnone⟩
  · split at h <;> obtain ⟨rfl, rfl⟩ := Prod.mk.inj (Option.some.inj h)
    · exact .refuse hst _ _
    · exact .stay hst hr rfl
  · obtain ⟨rfl, rfl⟩ := Prod.mk.inj (Option.some.inj h)
    exact .refuse hst _ _
  · obtain ⟨rfl, rfl⟩ := Prod.mk.inj (Option.some.inj h)
    exact .refuse hst _ _
  · obtain ⟨rfl, rfl⟩ := Prod.mk.inj (Option.some.inj h)
    exact .refuse hst _ _
  · cases h

/-- A pod is told only about codes of its own hub. -/
theorem hubId_of_authentic (hst : Registered st) {p : Presented} {pod hubId : I64}
    (hpod : p.pod = some pod) (hauth : Authentic st p) (hident : Identified st p hubId) :
    hubId = pod := by
  obtain ⟨h, hh, rfl, hsecret⟩ := hauth pod hpod
  obtain ⟨h', hh', rfl, hsecret'⟩ := hident
  rw [hst.secrets.eq_of_key hh' hh (hsecret'.trans hsecret.symm)]

/-- **A step of the login at a pod** at most links the account of the code. -/
theorem ssoLogin_moves (hst : Registered st) (hr : r.Backed st)
    (h : ssoLogin st r a = some (st', r')) : Moves st r st' r' := by
  rw [ssoLogin.eq_def] at h
  split at h
  · rename_i pod secret code hubId x newUserId
    split at h
    · cases h
    · rename_i p hp
      split at h <;> obtain ⟨rfl, rfl⟩ := Prod.mk.inj (Option.some.inj h)
      · exact .fail hst _
      · rename_i s user hupsert
        obtain ⟨hmem, hid⟩ := pod?_eq_some hp
        obtain ⟨hs, hsub, hknown⟩ := (hst.pods p hmem).upsert hupsert
        obtain ⟨⟨hauth, hident⟩, hspent⟩ := hr
        obtain rfl := hubId_of_authentic hst rfl hauth hident
        refine .pod hst hp hsub hs ⟨hspent.mono (.setPod hst hp hsub), ?_⟩ rfl
        refine ⟨{ p with service := s }, Table.mem_update.mpr ⟨p, hmem, ?_⟩, hid, hknown⟩
        rw [if_pos (decide_eq_true hid)]
  · obtain ⟨rfl, rfl⟩ := Prod.mk.inj (Option.some.inj h)
    exact .fail hst _
  · obtain ⟨rfl, rfl⟩ := Prod.mk.inj (Option.some.inj h)
    exact .fail hst _
  · rename_i v
    split at h
    · cases h
    · rename_i p hp
      split at h <;> obtain ⟨rfl, rfl⟩ := Prod.mk.inj (Option.some.inj h)
      · exact .fail hst _
      · rename_i db hexec
        have hwrite : Hub.Write.exec p.service.db
            (.insertHubMemberNew ⟨v.hubId, v.user.id, "member"⟩) = some db := hexec
        have hsub := List.Subset.refl p.service.accounts
        exact .pod hst hp hsub ((hst.pods p (pod?_eq_some hp).1).exec hwrite)
          (Visit.Backed.mono hr (.setPod hst hp hsub)) rfl
  · rename_i v
    split at h
    · cases h
    · rename_i p hp
      split at h <;> obtain ⟨rfl, rfl⟩ := Prod.mk.inj (Option.some.inj h)
      · exact .fail hst _
      · rename_i s hjoin
        obtain ⟨hs, heq⟩ := (hst.pods p (pod?_eq_some hp).1).joinDefaultGroup hjoin
        have hsub : p.service.accounts ⊆ s.accounts := heq ▸ List.Subset.refl _
        exact .pod hst hp hsub hs (Visit.Backed.mono hr (.setPod hst hp hsub)) rfl
  · obtain ⟨p, -, hres⟩ := Option.map_eq_some_iff.mp h
    obtain ⟨rfl, rfl⟩ := Prod.mk.inj hres
    exact .stay hst hr rfl
  · obtain ⟨rfl, rfl⟩ := Prod.mk.inj (Option.some.inj h)
    exact .stay hst hr rfl
  · obtain ⟨rfl, rfl⟩ := Prod.mk.inj (Option.some.inj h)
    exact .stay hst ⟨hr, rfl, rfl⟩ rfl
  · obtain ⟨rfl, rfl⟩ := Prod.mk.inj (Option.some.inj h)
    exact .fail hst _
  · obtain ⟨rfl, rfl⟩ := Prod.mk.inj (Option.some.inj h)
    exact .fail hst _
  · obtain ⟨rfl, rfl⟩ := Prod.mk.inj (Option.some.inj h)
    exact .fail hst _
  · obtain ⟨rfl, rfl⟩ := Prod.mk.inj (Option.some.inj h)
    exact .fail hst _
  · cases h

/-- A request that arrives is backed, and holds no code. -/
theorem arrive_backed (hst : Registered st) (h : arrive st a = some r) :
    r.Backed st ∧ r.held = none := by
  rw [arrive.eq_def] at h
  split at h
  · split_ifs at h with hverifies
    obtain rfl := Option.some.inj h
    exact ⟨(of_decide_eq_true hverifies).1, rfl⟩
  · obtain ⟨p, hp, rfl⟩ := Option.map_eq_some_iff.mp h
    refine ⟨fun hubId hpod => ?_, rfl⟩
    obtain rfl := Option.some.inj hpod
    obtain ⟨hmem, hid⟩ := pod?_eq_some hp
    exact hid ▸ hst.podSecrets p hmem
  · obtain rfl := Option.some.inj h
    exact ⟨fun hubId hpod => (nomatch hpod), rfl⟩
  · cases h

end Requests

/-! ### Runs -/

section Runs

variable {cfg : Config} {hs : Hashes} {askama : Askama} {mailFrom template : String} {k8s : Bool}
  {w : Tasks ℕ Platform (Option Request)}

/-- What a request of the platform knows, if it has come in. -/
def Informed (st : Platform) (_ : ℕ) (r : Option Request) : Prop := ∀ r' ∈ r, r'.Backed st

/-- A request has claimed a code. -/
def Holds (code : String) (r : Option Request) : Prop := r.bind Request.held = some code

/-- **The invariant of the platform.** -/
structure Agreed (w : Tasks ℕ Platform (Option Request)) : Prop where
  registered : Registered w.shared
  informed : Tasks.Each Informed w
  single : ∀ code, Tasks.AtMostOne (Holds code) w

/-- A code that is held is spent. -/
theorem Request.Backed.spent {st : Platform} {r : Request} {code : String} (h : r.Backed st)
    (hheld : r.held = some code) : ∃ hubId accountId, Spent st code hubId accountId := by
  cases r with
  | claimed p hubId accountId =>
    obtain rfl := Option.some.inj hheld
    exact ⟨_, _, h.2⟩
  | exchanged p hubId x =>
    obtain rfl := Option.some.inj hheld
    exact ⟨_, _, h.2⟩
  | known v | member v | grouped v | granted v groups =>
    obtain rfl := Option.some.inj hheld
    exact ⟨_, _, And.left h⟩
  | loggedIn v claims =>
    obtain rfl := Option.some.inj hheld
    exact ⟨_, _, h.1.1⟩
  | _ => cases hheld

/-- Nobody holds a code that has not been claimed. -/
theorem Agreed.free (h : Agreed w) {k : AuthCode} (hk : k ∈ w.shared.authCodes)
    (hnone : k.consumedAt = none) (j : ℕ) : ¬ Holds k.code (w.task j) := by
  intro hholds
  obtain ⟨r, hr, hheld⟩ := Option.bind_eq_some_iff.mp hholds
  obtain ⟨_, _, k', hk', hcode, -, -, hne⟩ := (h.informed j r hr).spent hheld
  rw [h.registered.codes.eq_of_key hk' hk hcode] at hne
  exact hne hnone

/-- A request that comes in. -/
theorem Agreed.arrive (h : Agreed w) {i : ℕ} {a : RequestAct} {st : Platform}
    {t : Option Request} (hi : w.task i = none)
    (hrun : run template w.shared i (w.task i) a = some (st, t)) :
    st = w.shared ∧ Agreed (w.set i st t) := by
  rw [hi] at hrun
  obtain ⟨r, harrive, heq⟩ := Option.map_eq_some_iff.mp hrun
  obtain ⟨rfl, rfl⟩ := Prod.mk.inj heq
  obtain ⟨hbacked, hheld⟩ := arrive_backed h.registered harrive
  refine ⟨rfl, h.registered, h.informed.set ?_ fun j _ hj => hj, fun code => ?_⟩
  · intro r' hr'
    obtain rfl := Option.some.inj hr'
    exact hbacked
  · refine (h.single code).set fun hholds => ?_
    rw [Holds, Option.bind_some, hheld] at hholds
    cases hholds

/-- A request that goes on. -/
theorem Agreed.moves (h : Agreed w) {i : ℕ} {a : RequestAct} {r : Request} {st : Platform}
    {t : Option Request} (hi : w.task i = some r)
    (hrun : run template w.shared i (w.task i) a = some (st, t)) :
    ∃ r', t = some r' ∧ Moves w.shared r st r' := by
  have hr : r.Backed w.shared := h.informed i r hi
  rw [hi] at hrun
  obtain ⟨⟨st', r'⟩, hstep, heq⟩ := Option.map_eq_some_iff.mp hrun
  obtain ⟨rfl, rfl⟩ := Prod.mk.inj heq
  refine ⟨r', rfl, ?_⟩
  rcases Option.or_eq_some_iff.mp hstep with hstep | ⟨-, hstep⟩
  · exact enterHub_moves h.registered hr hstep
  rcases Option.or_eq_some_iff.mp hstep with hstep | ⟨-, hstep⟩
  · exact exchangeCode_moves h.registered hr hstep
  · exact ssoLogin_moves h.registered hr hstep

/-- **One step of a request** keeps the requests in agreement with the tables. -/
theorem Agreed.task (h : Agreed w) {i : ℕ} {a : RequestAct} {st : Platform}
    {t : Option Request} (hrun : run template w.shared i (w.task i) a = some (st, t)) :
    Grows w.shared st ∧ st.service = w.shared.service ∧ Agreed (w.set i st t) := by
  cases hi : w.task i with
  | none =>
    obtain ⟨rfl, hagreed⟩ := h.arrive hi hrun
    exact ⟨.refl _, rfl, hagreed⟩
  | some r =>
    obtain ⟨r', rfl, hmoves⟩ := h.moves hi hrun
    have hall (j : ℕ) (hj : Informed w.shared j (w.task j)) : Informed st j (w.task j) :=
      fun r hr => (hj r hr).mono hmoves.grows
    refine ⟨hmoves.grows, hmoves.service, hmoves.registered,
      h.informed.set ?_ fun j _ hj => hall j hj, fun code => ?_⟩
    · intro r'' hr''
      obtain rfl := Option.some.inj hr''
      exact hmoves.backed
    · by_cases hheld : r'.held = some code
      · rcases hmoves.held code hheld with hold | ⟨k, hk, rfl, hnone⟩
        · refine (h.single code).set fun _ => ?_
          rw [hi]
          exact hold
        · exact .enter (h.free hk hnone)
      · exact (h.single code).set fun hholds => absurd hholds hheld

/-- A code that has been claimed is held only by whoever has held it before. -/
theorem Agreed.held_of_spent (h : Agreed w) {code : String} {hubId accountId : I64}
    (hspent : Spent w.shared code hubId accountId) {i : ℕ} {a : RequestAct} {st : Platform}
    {t : Option Request} (hrun : run template w.shared i (w.task i) a = some (st, t))
    (ht : Holds code t) : Holds code (w.task i) := by
  cases hi : w.task i with
  | none =>
    rw [hi] at hrun
    obtain ⟨r, harrive, heq⟩ := Option.map_eq_some_iff.mp hrun
    obtain ⟨rfl, rfl⟩ := Prod.mk.inj heq
    rw [Holds, Option.bind_some, (arrive_backed h.registered harrive).2] at ht
    cases ht
  | some r =>
    obtain ⟨r', rfl, hmoves⟩ := h.moves hi hrun
    rcases hmoves.held code ht with hold | ⟨k, hk, hcode, hnone⟩
    · exact hold
    · obtain ⟨k', hk', hcode', -, -, hne⟩ := hspent
      rw [h.registered.codes.eq_of_key hk' hk (hcode'.trans hcode.symm)] at hne
      exact absurd hnone hne

/-- **What happens besides** keeps them in agreement. -/
theorem Agreed.around (h : Agreed w) {e : PlatformAct} {st : Platform}
    (henv : Around cfg hs askama mailFrom k8s w.shared e st) :
    Grows w.shared st ∧ Agreed { w with shared := st } := by
  obtain ⟨hgrows, hregistered⟩ := h.registered.around henv
  exact ⟨hgrows, hregistered, h.informed.around fun j hj r hr => (hj r hr).mono hgrows, h.single⟩

/-- **The invariant, in every run**; and the platform drives the general service as its own
transition system allows it. -/
theorem agreed_of_reachable
    (hw : (platform cfg hs askama mailFrom template k8s).Reachable w) :
    Agreed w ∧ (system cfg hs askama mailFrom).Reachable w.shared.service := by
  refine Tasks.invariantIn
    (I := fun w => Agreed w ∧ (system cfg hs askama mailFrom).Reachable w.shared.service)
    ?_ ?_ ?_ hw
  · rintro w ⟨hidle, now, hshared⟩
    have hnone {α : Type} {P : α → Prop} : ∀ x ∈ ([] : List α), P x :=
      fun _ h => absurd h List.not_mem_nil
    refine ⟨⟨?_, fun i r hr => ?_, fun code i j hi => ?_⟩,
      .start ⟨now, congrArg Platform.service hshared⟩⟩
    · rw [hshared]
      exact ⟨.nil, .nil, .nil, hnone, .nil, hnone, .nil, hnone, hnone⟩
    · rw [hidle i] at hr
      cases hr
    · rw [Holds, hidle i] at hi
      cases hi
  · intro w i a st t h hrun
    obtain ⟨-, hservice, hagreed⟩ := h.1.task hrun
    exact ⟨hagreed, hservice.symm ▸ h.2⟩
  · exact fun w e st h henv => ⟨(h.1.around henv).2, service_around h.2 henv⟩

/-- **What the platform keeps**: from any state that is reached on, no account, code, hub, member or
account token is lost, an account that is verified stays so, as does a code that has been consumed
and a hub that is ready, and each pod goes on with its secret and knows the accounts that it knows
by the same users. -/
theorem grows_of_reachable (hw : (platform cfg hs askama mailFrom template k8s).Reachable w)
    {w' : Tasks ℕ Platform (Option Request)}
    (hw' : ((platform cfg hs askama mailFrom template k8s).startingAt w).Reachable w') :
    Grows w.shared w'.shared := by
  refine (hw'.invariant (I := fun w' => Agreed w' ∧ Grows w.shared w'.shared) ?_ ?_).2
  · rintro w' rfl
    exact ⟨(agreed_of_reachable hw).1, .refl _⟩
  · rintro w₁ a w₂ ⟨hagreed, hgrows⟩ - hstep
    cases hstep with
    | task hrun =>
      obtain ⟨hgrows', -, hagreed'⟩ := hagreed.task hrun
      exact ⟨hagreed', hgrows.trans hgrows'⟩
    | env henv =>
      obtain ⟨hgrows', hagreed'⟩ := hagreed.around henv
      exact ⟨hagreed', hgrows.trans hgrows'⟩

/-- **A code is good**: it was claimed within its half minute, and it had been minted for an
account that had a token of the general service and is a member of the hub, which is ready. -/
structure Good (st : Platform) (k : AuthCode) : Prop where
  claimed : ∃ t, k.consumedAt = some t ∧ t < k.expiresAt ∧ k.expiresAt ≤ t + codeTtlSecs
  asked : ∃ claims ∈ st.service.issued, claims.sub = k.accountId ∧
    st.service.HasAddress k.accountId claims.email
  entitled : Entitled st k.accountId k.hubId

/-- A code that is spent is in the table, and is good. -/
theorem good_of_spent (hw : (platform cfg hs askama mailFrom template k8s).Reachable w)
    {code : String} {hubId accountId : I64} (h : Spent w.shared code hubId accountId) :
    ∃ k ∈ w.shared.authCodes, k.code = code ∧ k.hubId = hubId ∧ k.accountId = accountId ∧
      Good w.shared k := by
  obtain ⟨k, hk, hcode, hhub, haccount, hne⟩ := h
  have hsound := (agreed_of_reachable hw).1.registered.sound k hk
  obtain ⟨t, ht⟩ := Option.ne_none_iff_exists'.mp hne
  obtain ⟨claims, hclaims, hsub⟩ := hsound.asked
  refine ⟨k, hk, hcode, hhub, haccount, ⟨t, ht, hsound.consumed t ht⟩, ?_, hsound.entitled⟩
  have haddress := (sound_of_reachable (agreed_of_reachable hw).2).1.issued claims hclaims
  exact ⟨claims, hclaims, hsub, hsub ▸ haddress⟩

/-- **What `exchange_code` gives away**: whoever is told an account has presented a good code of
that account, and the secret of the hub for which the code was minted. -/
theorem exchanged_good (hw : (platform cfg hs askama mailFrom template k8s).Reachable w) {i : ℕ}
    {p : Presented} {hubId : I64} {x : Hub.ExchangeResponse}
    (hi : w.task i = some (.exchanged p hubId x)) :
    ∃ k ∈ w.shared.authCodes, k.code = p.code ∧ k.accountId = x.accountId ∧ Good w.shared k ∧
      ∃ h ∈ w.shared.hubs, h.id = k.hubId ∧ h.hubSecret = p.secret := by
  obtain ⟨⟨-, hident⟩, hspent⟩ : _ ∧ Spent w.shared p.code hubId x.accountId :=
    (agreed_of_reachable hw).1.informed i _ hi
  obtain ⟨k, hk, hcode, rfl, haccount, hgood⟩ := good_of_spent hw hspent
  exact ⟨k, hk, hcode, haccount, hgood, hident⟩

/-- **A code that has been claimed is nobody else's for ever**, whatever becomes of the request
that has claimed it. -/
theorem holds_of_claimed (hw : (platform cfg hs askama mailFrom template k8s).Reachable w)
    {code : String} {i : ℕ} (hi : Holds code (w.task i))
    {w' : Tasks ℕ Platform (Option Request)}
    (hw' : ((platform cfg hs askama mailFrom template k8s).startingAt w).Reachable w') {j : ℕ}
    (hj : Holds code (w'.task j)) : j = i := by
  have hagreed := (agreed_of_reachable hw).1
  have hspent : ∃ hubId accountId, Spent w.shared code hubId accountId := by
    obtain ⟨r, hr, hheld⟩ := Option.bind_eq_some_iff.mp hi
    exact (hagreed.informed i r hr).spent hheld
  refine (Tasks.invariantIn (I := fun w' => Agreed w' ∧
    (∃ hubId accountId, Spent w'.shared code hubId accountId) ∧
      ∀ j, Holds code (w'.task j) → j = i) ?_ ?_ ?_ hw').2.2 j hj
  · rintro w' rfl
    exact ⟨hagreed, hspent, fun j hj => hagreed.single code j i hj hi⟩
  · rintro w₁ i' a st t ⟨hagreed, ⟨hubId, accountId, hspent⟩, halone⟩ hrun
    obtain ⟨hgrows, -, hagreed'⟩ := hagreed.task hrun
    refine ⟨hagreed', ⟨hubId, accountId, hspent.mono hgrows⟩, fun j hj => halone j ?_⟩
    by_cases hji : j = i'
    · subst hji
      rw [Tasks.task_set_self] at hj
      exact hagreed.held_of_spent hspent hrun hj
    · rwa [Tasks.task_set_of_ne hji] at hj
  · rintro w₁ e st ⟨hagreed, ⟨hubId, accountId, hspent⟩, halone⟩ henv
    obtain ⟨hgrows, hagreed'⟩ := hagreed.around henv
    exact ⟨hagreed', ⟨hubId, accountId, hspent.mono hgrows⟩, halone⟩

/-- **A code is answered once**: whoever is told an account has presented a good code of that
account, and the secret of the hub for which the code was minted; and from then on, whether the
one who was told goes on or fails, no other request is told anything for that code. -/
theorem exchange_of_reachable
    (hw : (platform cfg hs askama mailFrom template k8s).Reachable w) {i : ℕ} {p : Presented}
    {hubId : I64} {x : Hub.ExchangeResponse} (hi : w.task i = some (.exchanged p hubId x)) :
    (∃ k ∈ w.shared.authCodes, k.code = p.code ∧ k.accountId = x.accountId ∧ Good w.shared k ∧
      ∃ h ∈ w.shared.hubs, h.id = k.hubId ∧ h.hubSecret = p.secret) ∧
      ∀ w', ((platform cfg hs askama mailFrom template k8s).startingAt w).Reachable w' →
        ∀ j p' hubId' x', w'.task j = some (.exchanged p' hubId' x') → p'.code = p.code →
          j = i := by
  refine ⟨exchanged_good hw hi, fun w' hw' j p' hubId' x' hj hcode => ?_⟩
  have hheld : Holds p.code (w.task i) := by
    rw [Holds, hi]
    rfl
  refine holds_of_claimed hw hheld hw' ?_
  rw [Holds, hj]
  exact congrArg some hcode

/-- **Agreement**: whoever is logged in at the pod of a hub has brought a good code of an account
for that hub, on which no other login rests, and has a token for the user by whom the pod knows
the account. -/
theorem login_of_reachable (hw : (platform cfg hs askama mailFrom template k8s).Reachable w)
    {i : ℕ} {v : Visit} {claims : Hub.Claims} (hi : w.task i = some (.loggedIn v claims)) :
    (∃ k ∈ w.shared.authCodes, k.code = v.code ∧ k.hubId = v.hubId ∧ k.accountId = v.accountId ∧
      Good w.shared k) ∧
      (∀ j, Holds v.code (w.task j) → j = i) ∧ claims.hubId = v.hubId ∧
      ∃ p ∈ w.shared.pods, p.hubId = v.hubId ∧
        (v.accountId, claims.sub) ∈ p.service.accounts := by
  have hagreed := (agreed_of_reachable hw).1
  obtain ⟨⟨hspent, hknows⟩, hsub, hhub⟩ : v.Backed w.shared ∧ _ := hagreed.informed i _ hi
  refine ⟨good_of_spent hw hspent, fun j hj => hagreed.single _ j i hj ?_, hhub, ?_⟩
  · rw [Holds, hi]
    rfl
  · rw [hsub]
    exact hknows

/-- **Identity**: two logins at the same hub, however far apart, are of the same account if and
only if they are of the same user. -/
theorem identity_of_reachable (hw : (platform cfg hs askama mailFrom template k8s).Reachable w)
    {i j : ℕ} {v v' : Visit} {claims claims' : Hub.Claims}
    (hi : w.task i = some (.loggedIn v claims)) (hj : w.task j = some (.loggedIn v' claims'))
    (hhub : v.hubId = v'.hubId) : v.accountId = v'.accountId ↔ claims.sub = claims'.sub := by
  have hagreed := (agreed_of_reachable hw).1
  obtain ⟨⟨-, p, hp, hid, hmem⟩, hsub, -⟩ : v.Backed w.shared ∧ _ := hagreed.informed i _ hi
  obtain ⟨⟨-, p', hp', hid', hmem'⟩, hsub', -⟩ : v'.Backed w.shared ∧ _ :=
    hagreed.informed j _ hj
  have hregistered := hagreed.registered
  obtain rfl := hregistered.podIds.eq_of_key hp hp' (hid.trans (hhub.trans hid'.symm))
  have hsound := hregistered.pods p hp
  rw [hsub, hsub']
  constructor
  · intro heq
    exact congrArg Prod.snd (hsound.accounts.eq_of_key hmem hmem' heq)
  · intro heq
    exact congrArg Prod.fst (hsound.users.eq_of_key hmem hmem' heq)

end Runs

/-! ### Alice enters her hub -/

/-- The template of the development set-up. -/
def enterTemplate : String := "https://\x7bslug\x7d.matehub.io/auth/sso?code=\x7bcode\x7d"

/-- The claims of the token that Alice has got. -/
def aliceClaims : AccountClaims :=
  createAccountToken devConfig 0 (Chat.i64 1) "alice@example.com"

/-- The hub that Alice has made. -/
def aliceHub : HubRow :=
  newHub aliceClaims ⟨"alices-hub", "Alice's hub"⟩ (Chat.i64 7) "hub-secret"

/-- The database of its pod, which has been set up. -/
def podDb : Hub.Db := { Hub.Seed.emptyDb with hubs := [⟨aliceHub.id, none⟩] }

/-- The platform when Alice has made a hub. -/
def aliceMadeHub : Platform :=
  (createHub true aliceClaims ⟨"alices-hub", "Alice's hub"⟩ aliceHub.id "hub-secret"
    (fun _ => false) ⟨aliceVerified, [], [], [], [], []⟩).2

/-- Its pod has been started, and the hub is ready. -/
def hubReady : Platform :=
  provisioned aliceHub.id true true
    { aliceMadeHub with pods := [⟨aliceHub.id, aliceHub.hubSecret, ⟨podDb, []⟩⟩] }

/-- No request has come yet. -/
def untouched (st : Platform) : Tasks ℕ Platform (Option Request) := ⟨st, fun _ => none⟩

/-- Somebody asks for a code, and takes it to the pod, which draws an id. -/
def aliceVisit (i : ℕ) (code : String) (newUserId : I64) : List (ℕ × RequestAct) :=
  [(i, .enter aliceClaims "alices-hub"), (i, .next), (i, .mint code),
    (i + 1, .login aliceHub.id code), (i + 1, .next), (i + 1, .next), (i + 1, .next),
    (i + 1, .upsert newUserId), (i + 1, .next), (i + 1, .next), (i + 1, .next),
    (i + 1, .sign 5)]

/-- She does so twice. -/
def aliceRequests : List (ℕ × RequestAct) :=
  aliceVisit 0 "c" (Chat.i64 9) ++ aliceVisit 2 "d" (Chat.i64 10)

/-- The platform after some steps of requests. -/
def goOn (w : Tasks ℕ Platform (Option Request)) (as : List (ℕ × RequestAct)) :
    Tasks ℕ Platform (Option Request) :=
  as.foldl
    (fun w a => Tasks.next (run enterTemplate) (fun s (_ : PlatformAct) => s) w (.task a.1 a.2)) w

/-- And after the first of hers. -/
def aliceAfter (n : ℕ) : Tasks ℕ Platform (Option Request) :=
  goOn (untouched hubReady) (aliceRequests.take n)

/-- The platform of the example. -/
def devPlatform :
    System (Tasks ℕ Platform (Option Request)) (Tasks.Act ℕ RequestAct PlatformAct) :=
  platform devConfig plainHashes Mailer.noText "MateHub" enterTemplate true

/-- The run of Alice's first steps is one of the platform. -/
theorem reachable_aliceAfter (n : ℕ) : devPlatform.Reachable (aliceAfter n) := by
  have hstart : devPlatform.Reachable (untouched ⟨startedAt 0, [], [], [], [], []⟩) :=
    .start ⟨fun _ => rfl, 0, rfl⟩
  have hsigned : devPlatform.Reachable (untouched ⟨aliceSignedUp, [], [], [], [], []⟩) :=
    .step hstart trivial (.env (.general (.signup (startedAt 0) ..)))
  have hverified : devPlatform.Reachable (untouched ⟨aliceVerified, [], [], [], [], []⟩) :=
    .step hsigned trivial (.env (.general (.verifyEmail aliceSignedUp ..)))
  have hmade : devPlatform.Reachable (untouched aliceMadeHub) :=
    .step hverified trivial (.env (.createHub _ _ _ _ (by decide)))
  have hpod : devPlatform.Reachable (untouched
      { aliceMadeHub with pods := [⟨aliceHub.id, aliceHub.hubSecret, ⟨podDb, []⟩⟩] }) :=
    .step hmade trivial (.env (.startPod (h := aliceHub) podDb (by decide) rfl))
  have hready : devPlatform.Reachable (untouched hubReady) :=
    .step hpod trivial (.env (.provisioned true true (by decide)))
  exact Tasks.reachableIn_tasks hready _

/-- She has been answered, and whatever happens next, nobody else is answered for her code. -/
theorem exchange_of_reachable_alice : ∃ p hubId x,
    (aliceAfter 7).task 1 = some (.exchanged p hubId x) ∧ x.accountId = Chat.i64 1 ∧
      ∀ w', (devPlatform.startingAt (aliceAfter 7)).Reachable w' →
        ∀ j p' hubId' x', w'.task j = some (.exchanged p' hubId' x') → p'.code = p.code →
          j = 1 := by
  have hexchanged : (aliceAfter 7).task 1 = some (.exchanged
      ⟨some aliceHub.id, "hub-secret", "c"⟩ aliceHub.id
      ⟨Chat.i64 1, "alice@example.com", none⟩) := rfl
  exact ⟨_, _, _, hexchanged, rfl, (exchange_of_reachable (reachable_aliceAfter 7) hexchanged).2⟩

/-- Alice logs in at her hub, with a code of her account. -/
theorem login_of_reachable_alice : ∃ v claims,
    (aliceAfter 12).task 1 = some (.loggedIn v claims) ∧ claims.sub = Chat.i64 9 ∧
      ∃ k ∈ (aliceAfter 12).shared.authCodes, k.code = "c" ∧ k.accountId = Chat.i64 1 ∧
        Good (aliceAfter 12).shared k := by
  obtain ⟨⟨k, hk, hcode, -, haccount, hgood⟩, -⟩ :=
    login_of_reachable (reachable_aliceAfter 12) (i := 1) rfl
  exact ⟨_, _, rfl, rfl, k, hk, hcode, haccount, hgood⟩

/-- Alice logs in twice, with two codes, as the same user. -/
theorem identity_of_reachable_alice : ∃ v claims v' claims',
    (aliceAfter 24).task 1 = some (.loggedIn v claims) ∧
      (aliceAfter 24).task 3 = some (.loggedIn v' claims') ∧ v.code ≠ v'.code ∧
        claims.sub = claims'.sub := by
  refine ⟨_, _, _, _, rfl, rfl, by decide, ?_⟩
  exact (identity_of_reachable (reachable_aliceAfter 24) (i := 1) (j := 3) rfl rfl rfl).mp rfl

/-- The platform grows from one login of Alice to the next. -/
theorem grows_of_reachable_alice :
    Grows (aliceAfter 12).shared
      (goOn (aliceAfter 12) (aliceVisit 2 "d" (Chat.i64 10))).shared := by
  have hstart : (Tasks.systemIn (fun w => w = aliceAfter 12) (run enterTemplate)
      (Around devConfig plainHashes Mailer.noText "MateHub" true)).Reachable (aliceAfter 12) :=
    .start rfl
  exact grows_of_reachable (reachable_aliceAfter 12)
    (Tasks.reachableIn_tasks hstart (aliceVisit 2 "d" (Chat.i64 10)))

end General

end MateHub
