import MateHub.General.Accounts

/-!
# Mails that verify an account

There is no account without a mail that can verify it, and no such mail without a token that
it brings, whatever fails on the way (`MateHub.General.mails_of_reachable`). A token is
redeemed at most once, for the account to whose address it was mailed in the day before, and an
account is verified if and only if that has happened
(`MateHub.General.verified_of_reachable`). And if the worker does its part, no mail that verifies
an account is stuck or forgotten (`MateHub.General.mail_settled`).

The worker rewrites the rows of the outbox, but not what they say (`MateHub.General.letter`),
and the lists of tokens and of letters grow together, row by row.
-/

namespace MateHub

namespace General

open Chat (I64)
open Mailer (Time MailOutbox Payload Worker Askama)
open Transaction (Body Handler)

/-! ### What the tables say about each other -/

/-- What a row of the outbox says, and to whom. -/
structure Letter where
  template : String
  toEmail : String
  payload : Payload
  deriving DecidableEq

/-- The letter that a row of the outbox asks for. -/
def letter (r : MailOutbox) : Letter := ⟨r.template, r.toEmail, r.payload⟩

namespace Service

/-- The letters in the outbox that come from a template, the last one first. -/
def letters (st : Service) (template : String) : List Letter :=
  (st.mail.rows.map letter).filter fun l => decide (l.template = template)

/-- An account has an address. -/
def HasAddress (st : Service) (accountId : I64) (email : String) : Prop :=
  ∃ a ∈ st.accounts, a.id = accountId ∧ a.email = email

end Service

/-- **A letter brings a token** to the address of its account. -/
def Brings (cfg : Config) (hs : Hashes) (st : Service) (k : VerificationToken) (l : Letter) :
    Prop :=
  st.HasAddress k.accountId l.toEmail ∧
    ∃ token, hs.hashToken token = k.tokenHash ∧ l.payload = verifyPayload cfg token

/-- A letter welcomes the account that somebody has verified. -/
def Greets (cfg : Config) (st : Service) (e : Redemption) (l : Letter) : Prop :=
  st.HasAddress e.accountId l.toEmail ∧ l.payload = welcomePayload cfg

/-- What a redemption says of the token that it has consumed. -/
structure Redeems (hs : Hashes) (e : Redemption) (k : VerificationToken) : Prop where
  hash : k.tokenHash = hs.hashToken e.token
  account : k.accountId = e.accountId
  consumed : k.consumedAt = some e.time
  inTime : e.time < k.expiresAt ∧ k.expiresAt ≤ e.time + tokenLifetime

/-- **What holds in every run.** -/
structure Sound (cfg : Config) (hs : Hashes) (st : Service) : Prop where
  ids : Table.Keyed Account.id st.accounts
  emails : Table.Keyed Account.email st.accounts
  hashes : Table.Keyed VerificationToken.tokenHash st.tokens
  fresh : ∀ k ∈ st.tokens, k.expiresAt ≤ st.mail.now + tokenLifetime
  mails : List.Forall₂ (Brings cfg hs st) st.tokens (st.letters "account_verify")
  welcomes : List.Forall₂ (Greets cfg st) st.redeemed (st.letters "account_welcome")
  resending : ∀ p ∈ st.resending, st.HasAddress p.1 p.2
  redeems : ∀ e ∈ st.redeemed, ∃ k ∈ st.tokens, Redeems hs e k
  consumed : ∀ k ∈ st.tokens, k.consumedAt ≠ none → ∃ e ∈ st.redeemed, Redeems hs e k
  once : (st.redeemed.map fun e => hs.hashToken e.token).Nodup
  verified : ∀ a ∈ st.accounts, a.emailVerified = true ↔ ∃ e ∈ st.redeemed, e.accountId = a.id
  issued : ∀ c ∈ st.issued, st.HasAddress c.sub c.email

/-! ### What the statements do -/

section Statements

variable {cfg : Config} {hs : Hashes} {st st' : Service} {faults : Point → Bool}
  {r : Unit × Service}

theorem insertion_eq_ok {p : Point} {e : Failure} {f : Service → Option Service} :
    insertion p e f faults st = .ok r ↔ faults p = false ∧ f st = some r.2 := by
  rw [insertion, Body.statement_eq_ok]
  refine and_congr_right fun _ => ?_
  rcases f st with _ | st₁
  · exact ⟨nofun, nofun⟩
  · constructor
    · rintro ⟨⟩
      rfl
    · intro h
      rw [Option.some.inj h]

theorem insertAccount_eq_some {a : Account} : st.insertAccount a = some st' ↔
    (∀ b ∈ st.accounts, b.email ≠ a.email) ∧ (∀ b ∈ st.accounts, b.id ≠ a.id) ∧
      { st with accounts := a :: st.accounts } = st' := by
  simp [Service.insertAccount, Table.insert, Table.hasKey, and_assoc]

theorem insertToken_eq_some {k : VerificationToken} : st.insertToken k = some st' ↔
    (∃ a ∈ st.accounts, a.id = k.accountId) ∧ (∀ k' ∈ st.tokens, k'.tokenHash ≠ k.tokenHash) ∧
      { st with tokens := k :: st.tokens } = st' := by
  simp [Service.insertToken, Table.insert, Table.hasKey]

/-- The service with one more row in its outbox. -/
def Service.post (st : Service) (r : MailOutbox) : Service :=
  { st with mail := { st.mail with rows := r :: st.mail.rows } }

/-- A row that has just been enqueued. -/
def newRow (id : I64) (template toEmail : String) (payload : Payload) (now : Time) : MailOutbox :=
  ⟨id.1, template, toEmail, payload, .pending, 0, none, none, now, none⟩

theorem enqueue_eq_some {id : I64} {template toEmail : String} {payload : Payload} :
    st.enqueue id template toEmail payload = some st' ↔
      (∀ r ∈ st.mail.rows, r.id ≠ id.1) ∧
        st.post (newRow id template toEmail payload st.mail.now) = st' := by
  simp [Service.enqueue, Mailer.enqueue, Table.insert, Table.hasKey, Service.post, newRow]

/-- What `issue_verification_email` writes. -/
def Service.issue (st : Service) (k : VerificationToken) (r : MailOutbox) : Service :=
  Service.post { st with tokens := k :: st.tokens } r

/-- **Spec of `issue_verification_email`.** -/
theorem issueVerificationEmail_eq_ok {d : Draw} {accountId : I64} {email : String} :
    issueVerificationEmail cfg hs d accountId email faults st = .ok r ↔
      (faults .insertToken = false ∧ faults .enqueue = false) ∧
        (∃ a ∈ st.accounts, a.id = accountId) ∧
        (∀ k ∈ st.tokens, k.tokenHash ≠ hs.hashToken d.token) ∧
        (∀ r ∈ st.mail.rows, r.id ≠ d.outboxId.1) ∧
        st.issue (newToken hs d st.mail.now accountId)
          (newRow d.outboxId "account_verify" email (verifyPayload cfg d.token) st.mail.now) =
          r.2 := by
  rw [issueVerificationEmail, Body.bind_eq_ok]
  constructor
  · rintro ⟨_, st₁, htoken, hmail⟩
    obtain ⟨hf, hins⟩ := insertion_eq_ok.mp htoken
    obtain ⟨hf', henq⟩ := insertion_eq_ok.mp hmail
    obtain ⟨ha, hk, rfl⟩ := insertToken_eq_some.mp hins
    obtain ⟨hid, heq⟩ := enqueue_eq_some.mp henq
    exact ⟨⟨hf, hf'⟩, ha, hk, hid, heq⟩
  · rintro ⟨⟨hf, hf'⟩, ha, hk, hid, heq⟩
    exact ⟨(), _, insertion_eq_ok.mpr ⟨hf, insertToken_eq_some.mpr ⟨ha, hk, rfl⟩⟩,
      insertion_eq_ok.mpr ⟨hf', enqueue_eq_some.mpr ⟨hid, heq⟩⟩⟩

/-- The transaction of a signup inserts the account, and sends it a mail. -/
theorem signupRows_eq_ok {req : SignupRequest} {d : Draw} :
    signupRows cfg hs req d faults st = .ok r ↔ ∃ st₁, faults .insertAccount = false ∧
      st.insertAccount (newAccount hs req d) = some st₁ ∧
      issueVerificationEmail cfg hs d d.accountId req.email faults st₁ = .ok r := by
  rw [signupRows, Body.bind_eq_ok]
  constructor
  · rintro ⟨_, st₁, hins, hissue⟩
    obtain ⟨hf, hins⟩ := insertion_eq_ok.mp hins
    exact ⟨st₁, hf, hins, hissue⟩
  · rintro ⟨st₁, hf, hins, hissue⟩
    exact ⟨(), st₁, insertion_eq_ok.mpr ⟨hf, hins⟩, hissue⟩

theorem claim?_eq_some {tokenHash : String} {k : VerificationToken}
    (h : st.claim? tokenHash = some k) :
    k ∈ st.tokens ∧ k.tokenHash = tokenHash ∧ k.consumedAt = none ∧ st.mail.now < k.expiresAt := by
  obtain ⟨hmem, hk⟩ := Table.of_find?_eq_some h
  exact ⟨hmem, hk⟩

/-- What a verification writes. -/
def Service.redeem (st : Service) (k : VerificationToken) (e : Redemption) (r : MailOutbox) :
    Service :=
  Service.post { st.consume k with redeemed := e :: st.redeemed } r

/-- **What the transaction of a verification does.** -/
theorem verifyRows_eq_ok {token : String} {d : Draw} {res : Account × Service}
    (h : verifyRows cfg hs token d faults st = .ok res) :
    ∃ k a, st.claim? (hs.hashToken token) = some k ∧ a ∈ st.accounts ∧ a.id = k.accountId ∧
      (∀ r ∈ st.mail.rows, r.id ≠ d.outboxId.1) ∧ res = ({ a with emailVerified := true },
        st.redeem k ⟨token, a.id, st.mail.now⟩
          (newRow d.outboxId "account_welcome" a.email (welcomePayload cfg) st.mail.now)) := by
  rw [verifyRows, Body.bind_eq_ok] at h
  obtain ⟨b, st₁, hclaim, hrest⟩ := h
  rw [Body.bind_eq_ok] at hrest
  obtain ⟨_, st₂, henq, hpure⟩ := hrest
  obtain rfl := Body.pure_eq_ok.mp hpure
  rw [claimToken, Body.statement_eq_ok] at hclaim
  obtain ⟨-, hclaim⟩ := hclaim
  split at hclaim
  · cases hclaim
  · rename_i k hk
    split at hclaim
    · cases hclaim
    · rename_i a ha
      obtain ⟨rfl, rfl⟩ := Prod.mk.inj (Except.ok.inj hclaim)
      obtain ⟨hmem, hid⟩ := Table.of_find?_eq_some ha
      obtain ⟨hrows, rfl⟩ := enqueue_eq_some.mp (insertion_eq_ok.mp henq).2
      exact ⟨k, a, hk, hmem, hid, hrows, rfl⟩

end Statements

/-! ### What each statement keeps -/

section Keeps

variable {cfg : Config} {hs : Hashes} {st st' : Service}

theorem Service.HasAddress.unique (hst : Sound cfg hs st) {id : I64} {email email' : String}
    (h : st.HasAddress id email) (h' : st.HasAddress id email') : email = email' := by
  obtain ⟨a, ha, hid, rfl⟩ := h
  obtain ⟨b, hb, hid', rfl⟩ := h'
  rw [hst.ids.eq_of_key ha hb (hid.trans hid'.symm)]

/-- Every token has been mailed. -/
theorem Sound.brought (hst : Sound cfg hs st) {k : VerificationToken} (hk : k ∈ st.tokens) :
    ∃ r ∈ st.mail.rows, r.template = "account_verify" ∧ Brings cfg hs st k (letter r) := by
  obtain ⟨i, hi, rfl⟩ := List.mem_iff_getElem.mp hk
  have hi' : i < (st.letters "account_verify").length := hst.mails.length_eq ▸ hi
  have hbrings := hst.mails.get hi hi'
  obtain ⟨hletter, htemplate⟩ := List.mem_filter.mp (List.getElem_mem hi')
  obtain ⟨r, hr, heq⟩ := List.mem_map.mp hletter
  rw [List.get_eq_getElem, List.get_eq_getElem, ← heq] at hbrings
  rw [← heq] at htemplate
  exact ⟨r, hr, of_decide_eq_true htemplate, hbrings⟩

/-- And every verification mail brings a token. -/
theorem Sound.brings (hst : Sound cfg hs st) {r : MailOutbox} (hr : r ∈ st.mail.rows)
    (htemplate : r.template = "account_verify") :
    ∃ k ∈ st.tokens, Brings cfg hs st k (letter r) := by
  have hletter : letter r ∈ st.letters "account_verify" :=
    List.mem_filter.mpr ⟨List.mem_map_of_mem hr, decide_eq_true htemplate⟩
  obtain ⟨i, hi, heq⟩ := List.mem_iff_getElem.mp hletter
  have hi' : i < st.tokens.length := hst.mails.length_eq.symm ▸ hi
  have hbrings := hst.mails.get hi' hi
  rw [List.get_eq_getElem, List.get_eq_getElem, heq] at hbrings
  exact ⟨_, List.getElem_mem hi', hbrings⟩

/-- Every token belongs to an account. -/
theorem Sound.owned (hst : Sound cfg hs st) {k : VerificationToken} (hk : k ∈ st.tokens) :
    ∃ email, st.HasAddress k.accountId email := by
  obtain ⟨r, -, -, hbrings⟩ := hst.brought hk
  exact ⟨_, hbrings.1⟩

theorem Sound.owner (hst : Sound cfg hs st) {e : Redemption} (he : e ∈ st.redeemed) :
    ∃ email, st.HasAddress e.accountId email := by
  obtain ⟨k, hk, hredeems⟩ := hst.redeems e he
  rw [← hredeems.account]
  exact hst.owned hk

theorem Brings.mono {k : VerificationToken} {l : Letter} (h : Brings cfg hs st k l)
    (hst : ∀ id email, st.HasAddress id email → st'.HasAddress id email) : Brings cfg hs st' k l :=
  ⟨hst _ _ h.1, h.2⟩

theorem Greets.mono {e : Redemption} {l : Letter} (h : Greets cfg st e l)
    (hst : ∀ id email, st.HasAddress id email → st'.HasAddress id email) : Greets cfg st' e l :=
  ⟨hst _ _ h.1, h.2⟩

theorem letters_post {r : MailOutbox} {template : String} : (st.post r).letters template =
    (if r.template = template then [letter r] else []) ++ st.letters template := by
  simp only [Service.letters, Service.post, List.map_cons, List.filter_cons, letter]
  split <;> simp_all

/-- The account of a signup, before its mail. -/
theorem Sound.insertAccount (hst : Sound cfg hs st) {a : Account} (ha : a.emailVerified = false)
    (hins : st.insertAccount a = some st') : Sound cfg hs st' := by
  obtain ⟨hemail, hid, rfl⟩ := insertAccount_eq_some.mp hins
  have hold : ∀ id email, st.HasAddress id email →
      Service.HasAddress { st with accounts := a :: st.accounts } id email :=
    fun _ _ ⟨b, hb, h⟩ => ⟨b, List.mem_cons_of_mem a hb, h⟩
  exact
    { hst with
      ids := hst.ids.cons hid
      emails := hst.emails.cons hemail
      mails := hst.mails.imp fun _ _ h => h.mono hold
      welcomes := hst.welcomes.imp fun _ _ h => h.mono hold
      resending := fun p hp => hold _ _ (hst.resending p hp)
      issued := fun c hc => hold _ _ (hst.issued c hc)
      verified := fun b hb => by
        rcases List.mem_cons.mp hb with rfl | hb
        · refine iff_of_false (by simp [ha]) fun ⟨e, he, hid'⟩ => ?_
          -- whoever has been verified had an account before
          obtain ⟨_, b', hb', hb'id, -⟩ := hst.owner he
          exact hid b' hb' (hb'id.trans hid')
        · exact hst.verified b hb }

/-- **A token, and the mail that brings it.** -/
theorem Sound.issue (hst : Sound cfg hs st) {k : VerificationToken} {r : MailOutbox}
    (hhash : ∀ k' ∈ st.tokens, k'.tokenHash ≠ k.tokenHash) (hconsumed : k.consumedAt = none)
    (hfresh : k.expiresAt ≤ st.mail.now + tokenLifetime) (htemplate : r.template = "account_verify")
    (hbrings : Brings cfg hs st k (letter r)) : Sound cfg hs (st.issue k r) :=
  { hst with
    hashes := hst.hashes.cons hhash
    fresh := fun k' hk' => by
      rcases List.mem_cons.mp hk' with rfl | hk'
      · exact hfresh
      · exact hst.fresh k' hk'
    mails := by
      have hletters : (st.issue k r).letters "account_verify" =
          letter r :: st.letters "account_verify" := by
        rw [Service.issue, letters_post, if_pos htemplate]
        rfl
      rw [hletters]
      exact .cons (hbrings.mono fun _ _ h => h) hst.mails
    welcomes := by
      have hletters : (st.issue k r).letters "account_welcome" = st.letters "account_welcome" := by
        rw [Service.issue, letters_post, if_neg (by rw [htemplate]; decide)]
        rfl
      rw [hletters]
      exact hst.welcomes
    redeems := fun e he => by
      obtain ⟨k', hk', h⟩ := hst.redeems e he
      exact ⟨k', List.mem_cons_of_mem k hk', h⟩
    consumed := fun k' hk' hne => by
      rcases List.mem_cons.mp hk' with rfl | hk'
      · exact absurd hconsumed hne
      · exact hst.consumed k' hk' hne }

theorem hasAddress_consume {k : VerificationToken} {id : I64} {email : String} :
    (st.consume k).HasAddress id email ↔ st.HasAddress id email := by
  simp only [Service.HasAddress, Service.consume, Table.mem_update]
  constructor
  · rintro ⟨_, ⟨a, ha, rfl⟩, hid, hemail⟩
    exact ⟨a, ha, by split at hid <;> exact hid, by split at hemail <;> exact hemail⟩
  · rintro ⟨a, ha, rfl, rfl⟩
    exact ⟨_, ⟨a, ha, rfl⟩, by split <;> rfl, by split <;> rfl⟩

/-- **The claim of a token**, with the mail that welcomes its account. -/
theorem Sound.redeem (hst : Sound cfg hs st) {k : VerificationToken} {a : Account} {token : String}
    {r : MailOutbox} (hk : st.claim? (hs.hashToken token) = some k) (ha : a ∈ st.accounts)
    (hid : a.id = k.accountId)
    (hr : letter r = ⟨"account_welcome", a.email, welcomePayload cfg⟩) :
    Sound cfg hs (st.redeem k ⟨token, a.id, st.mail.now⟩ r) := by
  obtain ⟨hmem, hhash, hnone, htime⟩ := claim?_eq_some hk
  have haddr : ∀ id email, st.HasAddress id email →
      (st.redeem k ⟨token, a.id, st.mail.now⟩ r).HasAddress id email :=
    fun _ _ h => hasAddress_consume.mpr h
  have hsame : ∀ k' ∈ st.tokens, k'.tokenHash = k.tokenHash → k' = k :=
    fun k' hk' h => hst.hashes.eq_of_key hk' hmem h
  have hself : { k with consumedAt := some st.mail.now } ∈ (st.consume k).tokens :=
    Table.mem_update.mpr ⟨k, hmem, if_pos (decide_eq_true rfl)⟩
  -- no token that has been redeemed before is claimed, or changes
  have hold : ∀ {e k'}, k' ∈ st.tokens → Redeems hs e k' →
      k'.tokenHash ≠ k.tokenHash ∧ k' ∈ (st.consume k).tokens := by
    intro e k' hk' hredeems
    have hne : k'.tokenHash ≠ k.tokenHash := by
      intro h
      have hconsumed := hredeems.consumed
      rw [hsame k' hk' h, hnone] at hconsumed
      cases hconsumed
    exact ⟨hne, Table.mem_update.mpr ⟨k', hk', if_neg (by simpa using hne)⟩⟩
  have hnew : Redeems hs ⟨token, a.id, st.mail.now⟩ { k with consumedAt := some st.mail.now } :=
    ⟨hhash, hid.symm, rfl, htime, hst.fresh k hmem⟩
  have htemplate : r.template = "account_welcome" := congrArg Letter.template hr
  refine
    { ids := hst.ids.update fun _ => rfl
      emails := hst.emails.update fun _ => rfl
      hashes := hst.hashes.update fun _ => rfl
      fresh := fun k' hk' => ?_
      mails := ?_
      welcomes := ?_
      resending := fun p hp => haddr _ _ (hst.resending p hp)
      redeems := fun e he => ?_
      consumed := fun k' hk' hne => ?_
      once := List.nodup_cons.mpr ⟨fun hmem' => ?_, hst.once⟩
      verified := fun b hb => ?_
      issued := fun c hc => haddr _ _ (hst.issued c hc) }
  · obtain ⟨k₀, hk₀, rfl⟩ := Table.mem_update.mp hk'
    split <;> exact hst.fresh k₀ hk₀
  · have hletters : (st.redeem k ⟨token, a.id, st.mail.now⟩ r).letters "account_verify" =
        st.letters "account_verify" := by
      rw [Service.redeem, letters_post, if_neg (by rw [htemplate]; decide)]
      rfl
    rw [hletters]
    refine List.forall₂_map_left_iff.mpr (hst.mails.imp fun k' l h => ?_)
    split <;> exact h.mono haddr
  · have hletters : (st.redeem k ⟨token, a.id, st.mail.now⟩ r).letters "account_welcome" =
        letter r :: st.letters "account_welcome" := by
      rw [Service.redeem, letters_post, if_pos htemplate]
      rfl
    rw [hletters]
    refine .cons ⟨haddr _ _ ⟨a, ha, rfl, ?_⟩, ?_⟩ (hst.welcomes.imp fun _ _ h => h.mono haddr)
    · rw [hr]
    · rw [hr]
  · rcases List.mem_cons.mp he with rfl | he
    · exact ⟨_, hself, hnew⟩
    · obtain ⟨k', hk', h⟩ := hst.redeems e he
      exact ⟨k', (hold hk' h).2, h⟩
  · obtain ⟨k₀, hk₀, rfl⟩ := Table.mem_update.mp hk'
    split
    · rename_i h
      rw [hsame k₀ hk₀ (of_decide_eq_true h)]
      exact ⟨_, List.mem_cons_self, hnew⟩
    · rename_i h
      rw [if_neg h] at hne
      obtain ⟨e, he, hredeems⟩ := hst.consumed k₀ hk₀ hne
      exact ⟨e, List.mem_cons_of_mem _ he, hredeems⟩
  · obtain ⟨e, he, heq⟩ := List.mem_map.mp hmem'
    obtain ⟨k', hk', h⟩ := hst.redeems e he
    exact (hold hk' h).1 (h.hash.trans (heq.trans hhash.symm))
  · obtain ⟨b₀, hb₀, rfl⟩ := Table.mem_update.mp hb
    split
    · rename_i h
      have hb₀id : b₀.id = k.accountId := of_decide_eq_true h
      exact iff_of_true rfl ⟨_, List.mem_cons_self, hid.trans hb₀id.symm⟩
    · rename_i h
      refine (hst.verified b₀ hb₀).trans ⟨?_, ?_⟩
      · rintro ⟨e, he, heq⟩
        exact ⟨e, List.mem_cons_of_mem _ he, heq⟩
      · rintro ⟨e, he, heq⟩
        rcases List.mem_cons.mp he with rfl | he
        · exact absurd (decide_eq_true (heq.symm.trans hid)) h
        · exact ⟨e, he, heq⟩

/-- A worker that leaves the letters alone. -/
theorem Sound.mail (hst : Sound cfg hs st) {w : Worker} (hnow : st.mail.now ≤ w.now)
    (hletters : w.rows.map letter = st.mail.rows.map letter) :
    Sound cfg hs { st with mail := w } := by
  have heq : ∀ template, Service.letters { st with mail := w } template = st.letters template :=
    fun template => by rw [Service.letters, Service.letters, hletters]
  exact
    { hst with
      fresh := fun k hk => Nat.le_trans (hst.fresh k hk) (Nat.add_le_add_right hnow _)
      mails := by
        rw [heq]
        exact hst.mails.imp fun _ _ h => h.mono fun _ _ h => h
      welcomes := by
        rw [heq]
        exact hst.welcomes.imp fun _ _ h => h.mono fun _ _ h => h }

end Keeps

/-! ### Steps -/

section Steps

variable {cfg : Config} {hs : Hashes} {askama : Askama} {mailFrom : String} {st st' : Service}
  {faults : Point → Bool}

theorem map_letter_update {p : MailOutbox → Bool} {f : MailOutbox → MailOutbox}
    (hf : ∀ r, letter (f r) = letter r) (rows : List MailOutbox) :
    (Table.update p f rows).map letter = rows.map letter := by
  rw [Table.update, List.map_map]
  refine List.map_congr_left fun r _ => ?_
  rw [Function.comp_apply]
  split
  · exact hf r
  · rfl

theorem letter_change (mark : Mailer.Mark) (now : Time) (r : MailOutbox) :
    letter (mark.change now r) = letter r := by
  cases mark with
  | sent messageId => rfl
  | failed err attempts =>
    dsimp only [Mailer.Mark.change]
    split <;> rfl

theorem map_letter_apply (mark : Mailer.Mark) (now : Time) (id : ℤ) (rows : List MailOutbox) :
    (mark.apply now id rows).map letter = rows.map letter := by
  rw [Mailer.Mark.apply_eq]
  exact map_letter_update (letter_change mark now) rows

theorem map_letter_claimBatch (ids : List ℤ) (rows : List MailOutbox) :
    (Mailer.claimBatch ids rows).map letter = rows.map letter := by
  rw [Mailer.claimBatch]
  refine map_letter_update (fun r => ?_) rows
  rfl

/-- **The worker leaves the letters alone.** -/
theorem letters_of_step {w w' : Worker} {a : Worker.Act}
    (hstep : Worker.Step askama mailFrom w a w')
    (ha : ∀ id template toEmail payload, a ≠ .enqueue id template toEmail payload) :
    w.now ≤ w'.now ∧ w'.rows.map letter = w.rows.map letter := by
  cases hstep with
  | enqueue _ => exact absurd rfl (ha _ _ _ _)
  | wait => exact ⟨Nat.le_add_right _ _, rfl⟩
  | claim _ _ => exact ⟨Nat.le_refl _, map_letter_claimBatch _ _⟩
  | claimLost _ _ => exact ⟨Nat.le_refl _, map_letter_claimBatch _ _⟩
  | mark _ => exact ⟨Nat.le_refl _, map_letter_apply _ _ _ _⟩
  | @markFails row mark rest executed _ =>
    refine ⟨Nat.le_refl _, ?_⟩
    cases executed with
    | true => exact map_letter_apply _ _ _ _
    | false => rfl
  | _ => exact ⟨Nat.le_refl _, rfl⟩

/-- **How a request leaves the service**: an account token is issued on top, or none. -/
def Issues (id : I64) (email : String) (st st' : Service) : Prop :=
  st' = st ∨ ∃ c : AccountClaims, c.sub = id ∧ c.email = email ∧
    st' = { st with issued := c :: st.issued }

theorem issues_respond (cfg : Config) (id : I64) (email : String) (verified : Bool)
    (faults : Point → Bool) (st : Service) :
    Issues id email st (answered (respond cfg id email verified faults st)) := by
  have heq : respond cfg id email verified faults st =
      if faults .accountToken then (.error .internalServerError, st)
      else (.ok ⟨createAccountToken cfg st.mail.now id email, id, email, verified⟩, st) := by
    simp only [respond, Handler.read, bind, Handler.bind, pure]
    split_ifs <;> rfl
  rw [heq]
  split
  · exact .inl rfl
  · exact .inr ⟨_, rfl, rfl, rfl⟩

/-- A handler that begins with a transaction: it leaves nothing, or what its body has written,
and goes on if it learns of its commit. -/
theorem answered_transaction {α : Type} {body : Body Point Failure Service α}
    {f : α → Handler Point Failure Service AuthResponse} {r : Except Failure AuthResponse × Service}
    (hr : (Handler.transaction .begin .commit .commitAnswer .internalServerError body >>= f)
      faults st = r) :
    answered r = st ∨
      ∃ a t, body faults st = .ok (a, t) ∧
        (answered r = t ∨ answered r = answered (f a faults t)) := by
  rcases Handler.transaction_cases .begin .commit .commitAnswer Failure.internalServerError body
    faults st with ⟨e, h⟩ | ⟨a, t, h⟩
  · left
    rw [← hr, Handler.bind_of_error h]
    rfl
  · refine .inr ⟨a, t, h.2.1, ?_⟩
    have hcommits : Handler.transaction .begin .commit .commitAnswer .internalServerError body
        faults st = _ := Handler.transaction_of_commits h
    split at hcommits
    · left
      rw [← hr, Handler.bind_of_error hcommits]
      rfl
    · right
      rw [← hr, Handler.bind_of_ok hcommits]

/-- A signup leaves nothing, or all its rows. -/
theorem signup_cases (req : SignupRequest) (d : Draw) (faults : Point → Bool) (st : Service) :
    answered (signup cfg hs req d faults st) = st ∨ ∃ t,
      signupRows cfg hs req d faults st = .ok ((), t) ∧
        Issues d.accountId req.email t (answered (signup cfg hs req d faults st)) := by
  by_cases hf : faults .hashPassword = true
  · left
    have heq : signup cfg hs req d faults st = (.error .internalServerError, st) := by
      rw [signup]
      refine Handler.bind_of_error ?_
      rw [Handler.step, Handler.read, if_pos hf]
    rw [heq]
    rfl
  · have heq : signup cfg hs req d faults st =
        (Handler.transaction .begin .commit .commitAnswer .internalServerError
          (signupRows cfg hs req d) >>=
          fun _ => respond cfg d.accountId req.email false) faults st := by
      rw [signup]
      refine Handler.bind_of_ok (a := ()) ?_
      rw [Handler.step, Handler.read, if_neg hf]
    rcases answered_transaction heq.symm with h | ⟨_, t, hbody, h | h⟩
    · exact .inl h
    · exact .inr ⟨t, hbody, .inl h⟩
    · exact .inr ⟨t, hbody, h ▸ issues_respond ..⟩

/-- A verification leaves nothing, or all its rows. -/
theorem verifyEmail_cases (token : String) (d : Draw) (faults : Point → Bool) (st : Service) :
    answered (verifyEmail cfg hs token d faults st) = st ∨ ∃ a t,
      verifyRows cfg hs token d faults st = .ok (a, t) ∧
        Issues a.id a.email t (answered (verifyEmail cfg hs token d faults st)) := by
  rcases answered_transaction rfl with h | ⟨a, t, hbody, h | h⟩
  · exact .inl h
  · exact .inr ⟨a, t, hbody, .inl h⟩
  · exact .inr ⟨a, t, hbody, h ▸ issues_respond ..⟩

theorem answered_select {α : Type} {p : Point} {refusal : Failure} {f : Service → Option α}
    {g : α → Handler Point Failure Service AuthResponse} :
    answered ((select p refusal f >>= g) faults st) = st ∨ ∃ a, f st = some a ∧
      answered ((select p refusal f >>= g) faults st) = answered (g a faults st) := by
  by_cases hf : faults p = true
  · left
    rw [Handler.bind_of_error (e := .internalServerError) (t := st)]
    · rfl
    · rw [select, if_pos hf]
  · cases hfind : f st with
    | none =>
      left
      rw [Handler.bind_of_error (e := refusal) (t := st)]
      · rfl
      · rw [select, if_neg hf, hfind]
    | some a =>
      right
      refine ⟨a, rfl, ?_⟩
      rw [Handler.bind_of_ok (a := a) (t := st)]
      rw [select, if_neg hf, hfind]

/-- The account of an address, if its password is the one presented. -/
theorem login_cases (req : LoginRequest) (faults : Point → Bool) (st : Service) :
    answered (login cfg hs req faults st) = st ∨ ∃ a ∈ st.accounts, a.email = req.email ∧
      hs.verifyPassword req.password a.passwordHash = true ∧
        Issues a.id req.email st (answered (login cfg hs req faults st)) := by
  rw [login]
  rcases answered_select with h | ⟨a, ha, h⟩
  · exact .inl h
  · rcases answered_select with h' | ⟨_, hverify, h'⟩
    · exact .inl (h.trans h')
    · right
      obtain ⟨hmem, hemail⟩ := Table.of_find?_eq_some ha
      refine ⟨a, hmem, hemail, ?_, (h.trans h') ▸ issues_respond ..⟩
      by_contra hne
      rw [if_neg hne] at hverify
      cases hverify

/-! ### Every run -/

theorem Sound.issues (hst : Sound cfg hs st) {id : I64} {email : String}
    (haddr : st.HasAddress id email) (h : Issues id email st st') : Sound cfg hs st' := by
  rcases h with rfl | ⟨c, rfl, rfl, rfl⟩
  · exact hst
  · refine { hst with issued := fun c' hc' => ?_ }
    rcases List.mem_cons.mp hc' with rfl | hc'
    · exact haddr
    · exact hst.issued c' hc'

theorem Issues.tokens {id : I64} {email : String} (h : Issues id email st st') :
    st'.accounts = st.accounts ∧ st'.tokens = st.tokens := by
  rcases h with rfl | ⟨c, -, -, rfl⟩ <;> exact ⟨rfl, rfl⟩

/-- The mail of an account that is there. -/
theorem Sound.sendVerification (hst : Sound cfg hs st) {d : Draw} {id : I64} {email : String}
    {r : Unit × Service} (haddr : st.HasAddress id email)
    (h : issueVerificationEmail cfg hs d id email faults st = .ok r) : Sound cfg hs r.2 := by
  obtain ⟨-, -, hhash, -, heq⟩ := issueVerificationEmail_eq_ok.mp h
  rw [← heq]
  exact hst.issue hhash rfl (Nat.le_refl _) rfl ⟨haddr, d.token, rfl, rfl⟩

/-- **A step keeps what holds.** -/
theorem Sound.step (hst : Sound cfg hs st) {a : Act} (h : Step cfg hs askama mailFrom st a st') :
    Sound cfg hs st' := by
  cases h with
  | signup req d faults =>
    rcases signup_cases req d faults st with heq | ⟨t, hrows, hissues⟩
    · rwa [heq]
    · obtain ⟨st₁, -, hins, hmail⟩ := signupRows_eq_ok.mp hrows
      have haddr : st₁.HasAddress d.accountId req.email := by
        obtain ⟨-, -, rfl⟩ := insertAccount_eq_some.mp hins
        exact ⟨_, List.mem_cons_self, rfl, rfl⟩
      have ht : Sound cfg hs t := (hst.insertAccount rfl hins).sendVerification haddr hmail
      obtain ⟨-, -, -, -, rfl⟩ := issueVerificationEmail_eq_ok.mp hmail
      exact ht.issues haddr hissues
  | login req faults =>
    rcases login_cases req faults st with heq | ⟨a, ha, hemail, -, hissues⟩
    · rwa [heq]
    · exact hst.issues ⟨a, ha, rfl, hemail⟩ hissues
  | verifyEmail token d faults =>
    rcases verifyEmail_cases token d faults st with heq | ⟨b, t, hrows, hissues⟩
    · rwa [heq]
    · obtain ⟨k, a, hk, ha, hid, -, hres⟩ := verifyRows_eq_ok hrows
      obtain ⟨rfl, rfl⟩ := Prod.mk.inj hres
      refine (hst.redeem hk ha hid rfl).issues ?_ hissues
      exact hasAddress_consume.mpr ⟨a, ha, rfl, rfl⟩
  | resendReads email faults =>
    rw [resendReads]
    split
    · exact hst
    · split
      · exact hst
      · rename_i a ha
        split
        · exact hst
        · obtain ⟨hmem, hemail⟩ := Table.of_find?_eq_some ha
          refine { hst with resending := fun p hp => ?_ }
          rcases List.mem_cons.mp hp with rfl | hp
          · exact ⟨a, hmem, rfl, hemail⟩
          · exact hst.resending p hp
  | @resendWrites id email d faults hmem =>
    have hst₁ : Sound cfg hs { st with resending := st.resending.erase (id, email) } :=
      { hst with resending := fun p hp => hst.resending p (List.mem_of_mem_erase hp) }
    rw [resend]
    rcases Handler.transaction_cases .begin .commit .commitAnswer Failure.internalServerError
      (issueVerificationEmail cfg hs d id email) faults
      { st with resending := st.resending.erase (id, email) } with ⟨e, h⟩ | ⟨u, t, h⟩
    · rw [h]
      exact hst₁
    · rw [Handler.state_of_commits h]
      exact hst₁.sendVerification (hst.resending _ hmem) h.2.1
  | mail hne hstep =>
    obtain ⟨hnow, hletters⟩ := letters_of_step hstep hne
    exact hst.mail hnow hletters

/-- Every account has been sent a token. -/
def Asked (st : Service) : Prop := ∀ a ∈ st.accounts, ∃ k ∈ st.tokens, k.accountId = a.id

theorem Asked.step (hst : Asked st) {a : Act} (h : Step cfg hs askama mailFrom st a st') :
    Asked st' := by
  cases h with
  | signup req d faults =>
    rcases signup_cases req d faults st with heq | ⟨t, hrows, hissues⟩
    · rwa [heq]
    · obtain ⟨st₁, -, hins, hmail⟩ := signupRows_eq_ok.mp hrows
      obtain ⟨-, -, rfl⟩ := insertAccount_eq_some.mp hins
      obtain ⟨-, -, -, -, rfl⟩ := issueVerificationEmail_eq_ok.mp hmail
      rw [Asked, hissues.tokens.1, hissues.tokens.2]
      intro a ha
      rcases List.mem_cons.mp ha with rfl | ha
      · exact ⟨_, List.mem_cons_self, rfl⟩
      · obtain ⟨k, hk, hid⟩ := hst a ha
        exact ⟨k, List.mem_cons_of_mem _ hk, hid⟩
  | login req faults =>
    rcases login_cases req faults st with heq | ⟨a, -, -, -, hissues⟩
    · rwa [heq]
    · rw [Asked, hissues.tokens.1, hissues.tokens.2]
      exact hst
  | verifyEmail token d faults =>
    rcases verifyEmail_cases token d faults st with heq | ⟨b, t, hrows, hissues⟩
    · rwa [heq]
    · obtain ⟨k, a, -, -, -, -, hres⟩ := verifyRows_eq_ok hrows
      obtain ⟨rfl, rfl⟩ := Prod.mk.inj hres
      rw [Asked, hissues.tokens.1, hissues.tokens.2]
      intro b hb
      obtain ⟨b₀, hb₀, rfl⟩ := Table.mem_update.mp hb
      obtain ⟨k', hk', hid⟩ := hst b₀ hb₀
      refine ⟨_, Table.mem_update.mpr ⟨k', hk', rfl⟩, ?_⟩
      split <;> split <;> exact hid
  | resendReads email faults =>
    rw [resendReads]
    split
    · exact hst
    · split
      · exact hst
      · split <;> exact hst
  | @resendWrites id email d faults hmem =>
    rw [resend]
    rcases Handler.transaction_cases .begin .commit .commitAnswer Failure.internalServerError
      (issueVerificationEmail cfg hs d id email) faults
      { st with resending := st.resending.erase (id, email) } with ⟨e, h⟩ | ⟨u, t, h⟩
    · rw [h]
      exact hst
    · rw [Handler.state_of_commits h]
      obtain ⟨-, -, -, -, rfl⟩ := issueVerificationEmail_eq_ok.mp h.2.1
      intro a ha
      obtain ⟨k, hk, hid⟩ := hst a ha
      exact ⟨k, List.mem_cons_of_mem _ hk, hid⟩
  | mail hne hstep => exact hst

theorem sound_of_reachable (hst : (system cfg hs askama mailFrom).Reachable st) :
    Sound cfg hs st ∧ Asked st := by
  refine hst.invariant (I := fun st => Sound cfg hs st ∧ Asked st) ?_ ?_
  · rintro st ⟨now, rfl⟩
    refine ⟨⟨List.nodup_nil, List.nodup_nil, List.nodup_nil, ?_, ?_, ?_, ?_, ?_, ?_,
      List.nodup_nil, ?_, ?_⟩, ?_⟩
    case refine_2 | refine_3 =>
      rw [Service.letters]
      exact .nil
    all_goals exact fun _ h => absurd h List.not_mem_nil
  · rintro st a st' ⟨hsound, hasked⟩ - hstep
    exact ⟨hsound.step hstep, hasked.step hstep⟩

/-- **The outbox is transactional**: in every run of the service, whatever fails in its requests
and in the mail worker, each account has been sent a token, the verification mails in the outbox
bring the tokens to the addresses of their accounts, one mail for each token, and the other
mails in it welcome the accounts that have been verified, one for each redemption. -/
theorem mails_of_reachable (hst : (system cfg hs askama mailFrom).Reachable st) :
    (∀ a ∈ st.accounts, ∃ k ∈ st.tokens, k.accountId = a.id) ∧
      List.Forall₂ (Brings cfg hs st) st.tokens (st.letters "account_verify") ∧
      List.Forall₂ (Greets cfg st) st.redeemed (st.letters "account_welcome") :=
  have ⟨hsound, hasked⟩ := sound_of_reachable hst
  ⟨hasked, hsound.mails, hsound.welcomes⟩

/-- **Who is verified**: in every run, an account is verified if and only if a token has been
redeemed for it; no two redemptions are of tokens with the same hash; and what was redeemed had
the hash of a token that a mail had brought to the address of the account, at most a day
before. -/
theorem verified_of_reachable (hst : (system cfg hs askama mailFrom).Reachable st) :
    (∀ a ∈ st.accounts, a.emailVerified = true ↔ ∃ e ∈ st.redeemed, e.accountId = a.id) ∧
      (st.redeemed.map fun e => hs.hashToken e.token).Nodup ∧
      ∀ e ∈ st.redeemed, ∃ a ∈ st.accounts, a.id = e.accountId ∧ ∃ k ∈ st.tokens,
        Redeems hs e k ∧ ∃ r ∈ st.mail.rows, r.template = "account_verify" ∧
          r.toEmail = a.email ∧ ∃ token, hs.hashToken token = hs.hashToken e.token ∧
            r.payload = verifyPayload cfg token := by
  obtain ⟨hsound, -⟩ := sound_of_reachable hst
  refine ⟨hsound.verified, hsound.once, fun e he => ?_⟩
  obtain ⟨k, hk, hredeems⟩ := hsound.redeems e he
  obtain ⟨r, hr, htemplate, ⟨a, ha, hid, hemail⟩, token, hhash, hpayload⟩ := hsound.brought hk
  exact ⟨a, ha, hid.trans hredeems.account, k, hk, hredeems, r, hr, htemplate, hemail.symm, token,
    hhash.trans hredeems.hash, hpayload⟩

/-! ### The mails are sent -/

/-- The condition on a step: the worker does its part. -/
def Acknowledged (st : Service) : Act → Prop
  | .mail a => st.mail.Acknowledged a
  | _ => True

variable (st) in
/-- A new row, enqueued by a request. -/
theorem reach_post (hw : (Worker.system askama mailFrom).Reach Worker.Acknowledged st.mail)
    {id : I64} {template toEmail : String} {payload : Payload}
    (hid : ∀ r ∈ st.mail.rows, r.id ≠ id.1) :
    (Worker.system askama mailFrom).Reach Worker.Acknowledged
      (st.post (newRow id template toEmail payload st.mail.now)).mail := by
  refine .step (l := .enqueue id.1 template toEmail payload) hw trivial (.enqueue ?_)
  simpa [Mailer.enqueue, Table.insert, Table.hasKey, newRow] using hid

theorem Issues.mail {id : I64} {email : String} (h : Issues id email st st') :
    st'.mail = st.mail := by
  rcases h with rfl | ⟨c, -, -, rfl⟩ <;> rfl

/-- **The service drives the mail worker** as its own transition system allows it. -/
theorem mail_of_reach (hst : (system cfg hs askama mailFrom).Reach Acknowledged st) :
    (Worker.system askama mailFrom).Reach Worker.Acknowledged st.mail := by
  refine hst.invariant
    (I := fun st => (Worker.system askama mailFrom).Reach Worker.Acknowledged st.mail) ?_ ?_
  · rintro st ⟨now, rfl⟩
    exact .start ⟨now, rfl⟩
  · intro st a st' hw hok hstep
    cases hstep with
    | signup req d faults =>
      rcases signup_cases req d faults st with heq | ⟨t, hrows, hissues⟩
      · rwa [heq]
      · obtain ⟨st₁, -, hins, hmail⟩ := signupRows_eq_ok.mp hrows
        obtain ⟨-, -, rfl⟩ := insertAccount_eq_some.mp hins
        obtain ⟨-, -, -, hid, rfl⟩ := issueVerificationEmail_eq_ok.mp hmail
        rw [hissues.mail]
        exact reach_post st hw hid
    | login req faults =>
      rcases login_cases req faults st with heq | ⟨a, -, -, -, hissues⟩
      · rwa [heq]
      · rwa [hissues.mail]
    | verifyEmail token d faults =>
      rcases verifyEmail_cases token d faults st with heq | ⟨b, t, hrows, hissues⟩
      · rwa [heq]
      · obtain ⟨k, a, -, -, -, hid, hres⟩ := verifyRows_eq_ok hrows
        obtain ⟨rfl, rfl⟩ := Prod.mk.inj hres
        rw [hissues.mail]
        exact reach_post st hw hid
    | resendReads email faults =>
      rw [resendReads]
      split
      · exact hw
      · split
        · exact hw
        · split <;> exact hw
    | @resendWrites id email d faults hmem =>
      rw [resend]
      rcases Handler.transaction_cases .begin .commit .commitAnswer Failure.internalServerError
        (issueVerificationEmail cfg hs d id email) faults
        { st with resending := st.resending.erase (id, email) } with ⟨e, h⟩ | ⟨u, t, h⟩
      · rw [h]
        exact hw
      · rw [Handler.state_of_commits h]
        obtain ⟨-, -, -, hid, rfl⟩ := issueVerificationEmail_eq_ok.mp h.2.1
        exact reach_post st hw hid
    | mail hne hstep => exact .step hw hok hstep

/-- The templates render a verification mail. -/
def Renders (askama : Askama) : Prop :=
  ∀ url, ∃ html text, askama "account_verify.html" [url] = .ok html ∧
    askama "account_verify.txt" [url] = .ok text

theorem render_verifyPayload (cfg : Config) (mailFrom : String) (h : Renders askama)
    (toEmail token : String) :
    ∃ mail, Mailer.render askama "account_verify" toEmail (verifyPayload cfg token) mailFrom =
      .ok mail := by
  obtain ⟨html, text, hhtml, htext⟩ := h (verifyUrl cfg token)
  have hstrings : (verifyPayload cfg token).strings ["verify_url"] =
      some [verifyUrl cfg token] := rfl
  refine ⟨⟨toEmail, mailFrom, "Confirm your MateHub email", html, text⟩, ?_⟩
  have hname : "account_verify" ++ ".html" = "account_verify.html" := by decide
  have hname' : "account_verify" ++ ".txt" = "account_verify.txt" := by decide
  simp only [Mailer.render, Mailer.template?, hstrings, hname, hname', hhtml, htext]
  rfl

/-- A mail that verifies an account is not given up because it cannot be rendered. -/
theorem Brings.rendered {k : VerificationToken} {r : MailOutbox} (h : Brings cfg hs st k (letter r))
    (hrenders : Renders askama) (htemplate : r.template = "account_verify") :
    ∃ mail, Mailer.render askama r.template r.toEmail r.payload mailFrom = .ok mail := by
  obtain ⟨-, token, -, hpayload⟩ := h
  have hpayload' : r.payload = verifyPayload cfg token := hpayload
  rw [htemplate, hpayload']
  exact render_verifyPayload cfg mailFrom hrenders r.toEmail token

/-- **No verification mail is forgotten**: in the runs in which the worker does its part, whenever
it is between two ticks, each mail of the outbox that verifies an account has been sent, or given
up after six attempts, or will be due; and each account has such a mail, to its address, that
brings one of its tokens. -/
theorem mail_settled (hrenders : Renders askama)
    (hst : (system cfg hs askama mailFrom).Reach Acknowledged st) (hidle : st.mail.phase = .idle) :
    (∀ r ∈ st.mail.rows, r.template = "account_verify" →
      r.status = .sent ∨ (r.status = .failed ∧ r.attempts = 6) ∨
        ∃ d, r.isDue (st.mail.now + d) = true) ∧
      (∀ r ∈ st.mail.rows, r.template = "account_verify" →
        ∃ a ∈ st.accounts, r.toEmail = a.email ∧
          ∃ k ∈ st.tokens, k.accountId = a.id ∧ Brings cfg hs st k (letter r)) ∧
      ∀ a ∈ st.accounts, ∃ r ∈ st.mail.rows, r.template = "account_verify" ∧
        r.toEmail = a.email ∧ ∃ k ∈ st.tokens, k.accountId = a.id ∧ Brings cfg hs st k (letter r) := by
  obtain ⟨hsound, hasked⟩ := sound_of_reachable (hst.mono fun _ _ _ => trivial)
  obtain ⟨hworker, hattended⟩ := Worker.attended_of_reach (mail_of_reach hst)
  refine ⟨fun r hr htemplate => ?_, fun r hr htemplate => ?_, fun a ha => ?_⟩
  · obtain ⟨k, -, hbrings⟩ := hsound.brings hr htemplate
    have hstatus : r.status ≠ .sending := by
      intro hsending
      have hbatch := hattended r hr hsending
      rw [hidle] at hbatch
      exact absurd hbatch List.not_mem_nil
    rcases (hworker.legal r hr).settled hstatus st.mail.now with h | ⟨h, ⟨err, herr⟩ | h'⟩ | h
    · exact .inl h
    · obtain ⟨mail, hmail⟩ : ∃ mail, Mailer.render askama r.template r.toEmail r.payload
          mailFrom = .ok mail := hbrings.rendered hrenders htemplate
      rw [hmail] at herr
      cases herr
    · exact .inr (.inl ⟨h, h'⟩)
    · exact .inr (.inr h)
  · obtain ⟨k, hk, hbrings⟩ := hsound.brings hr htemplate
    obtain ⟨a, ha, hid, hemail⟩ := hbrings.1
    exact ⟨a, ha, hemail.symm, k, hk, hid.symm, hbrings⟩
  · obtain ⟨k, hk, hid⟩ := hasked a ha
    obtain ⟨r, hr, htemplate, hbrings⟩ := hsound.brought hk
    have hto : r.toEmail = a.email := hbrings.1.unique hsound ⟨a, ha, hid.symm, rfl⟩
    exact ⟨r, hr, htemplate, hto, k, hk, hid, hbrings⟩

end Steps

/-! ### Alice signs up -/

/-- Hashes that one can read. -/
def plainHashes : Hashes where
  hashPassword salt plain := salt ++ ":" ++ plain
  verifyPassword plain hash := decide (hash = "salt:" ++ plain)
  hashToken token := "sha256:" ++ token

def devConfig : Config := ⟨"https://matehub.io", 24 * 3600⟩

def noFaults : Point → Bool := fun _ => false

def startedAt (now : Time) : Service := ⟨[], [], ⟨now, [], .idle, [], []⟩, [], [], []⟩

/-- Alice has signed up. -/
def aliceSignedUp : Service :=
  answered (signup devConfig plainHashes ⟨"alice@example.com", "secret"⟩
    ⟨Chat.i64 1, "salt", "t", Chat.i64 2⟩ noFaults (startedAt 0))

/-- And she has opened the mail that she got. -/
def aliceVerified : Service :=
  answered (verifyEmail devConfig plainHashes "t" ⟨Chat.i64 3, "", "", Chat.i64 4⟩ noFaults
    aliceSignedUp)

theorem reach_aliceSignedUp :
    (system devConfig plainHashes Mailer.noText "MateHub").Reach Acknowledged aliceSignedUp :=
  .step (.start ⟨0, rfl⟩) (by exact trivial) (.signup (startedAt 0) ..)

theorem reach_aliceVerified :
    (system devConfig plainHashes Mailer.noText "MateHub").Reach Acknowledged aliceVerified :=
  .step reach_aliceSignedUp (by exact trivial) (.verifyEmail aliceSignedUp ..)

theorem mails_of_reachable_alice :
    aliceVerified.letters "account_welcome" ≠ [] ∧
      List.Forall₂ (Brings devConfig plainHashes aliceVerified) aliceVerified.tokens
        (aliceVerified.letters "account_verify") :=
  ⟨by decide, (mails_of_reachable (reach_aliceVerified.mono fun _ _ _ => trivial)).2.1⟩

theorem verified_of_reachable_alice :
    ∃ a ∈ aliceVerified.accounts, a.email = "alice@example.com" ∧ a.emailVerified = true ∧
      ∃ e ∈ aliceVerified.redeemed, e.accountId = a.id := by
  have hall := (verified_of_reachable (reach_aliceVerified.mono fun _ _ _ => trivial)).1
  refine ⟨⟨Chat.i64 1, "alice@example.com", "salt:secret", true, none⟩, by decide, rfl, rfl, ?_⟩
  exact (hall _ (by decide)).mp rfl

/-- Alice has not opened the mail yet, and asks for another one. -/
def aliceResent : Service :=
  (resend devConfig plainHashes (Chat.i64 1) "alice@example.com"
    ⟨Chat.i64 5, "", "u", Chat.i64 6⟩ noFaults aliceSignedUp).2

theorem reach_aliceResent :
    (system devConfig plainHashes Mailer.noText "MateHub").Reach Acknowledged aliceResent := by
  have hread : (system devConfig plainHashes Mailer.noText "MateHub").Reach Acknowledged
      (resendReads "alice@example.com" noFaults aliceSignedUp) :=
    .step reach_aliceSignedUp (by exact trivial) (.resendReads aliceSignedUp ..)
  exact .step hread (by exact trivial) (.resendWrites _ noFaults (by decide))

/-- Both mails are settled. -/
theorem mail_settled_alice :
    (aliceResent.letters "account_verify").length = 2 ∧ ∀ r ∈ aliceResent.mail.rows,
      r.status = .sent ∨ (r.status = .failed ∧ r.attempts = 6) ∨
        ∃ d, r.isDue (aliceResent.mail.now + d) = true := by
  have hrenders : Renders Mailer.noText := fun _ => ⟨"", "", rfl, rfl⟩
  obtain ⟨hsettled, -⟩ := mail_settled hrenders reach_aliceResent rfl
  have hall : ∀ r ∈ aliceResent.mail.rows, r.template = "account_verify" := by decide
  exact ⟨by decide, fun r hr => hsettled r hr (hall r hr)⟩

end General

end MateHub
