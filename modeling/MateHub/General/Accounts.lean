import MateHub.Chat.Fanout
import MateHub.Lib.Transaction
import MateHub.Mailer.Worker

/-!
# Accounts

An account of the general service is made by `signup`, and verified by whoever presents a token
that has been mailed to its address. Both endpoints, and `resend_verification`, write what they
have to say to the outbox in the transaction in which they write everything else, and the mail
worker sends it later. Each answers with an account token, as `login` does.

The hashes are parameters. The service takes its time from the clock of the mail worker, and a
transaction is a step of its own: each inserts new rows, or claims a token by a single
statement, for which a second one waits. `resend_verification` reads the account before its
transaction, so that it is two steps.
-/

namespace MateHub

namespace General

open Chat (I64)
open Mailer (Time MailOutbox Payload Worker Askama)
open Transaction (Body Handler)

/-! ### The tables -/

/-- A row of `accounts`. -/
structure Account where
  id : I64
  email : String
  passwordHash : String
  emailVerified : Bool
  displayName : Option String
  deriving DecidableEq

/-- A row of `email_verification_tokens`. -/
structure VerificationToken where
  tokenHash : String
  accountId : I64
  expiresAt : Time
  consumedAt : Option Time
  deriving DecidableEq

/-- The claims of an account token. -/
structure AccountClaims where
  sub : I64
  email : String
  exp : ℤ
  iat : ℤ
  deriving DecidableEq

/-- Somebody has presented a token, and an account has been verified by it. -/
structure Redemption where
  token : String
  accountId : I64
  time : Time

/-- The service: the tables, with the outbox in the hands of the mail worker. -/
structure Service where
  accounts : List Account
  tokens : List VerificationToken
  mail : Worker
  /-- The requests to send a mail again that have found their account not to be verified. -/
  resending : List (I64 × String)
  /-- The tokens that have been redeemed, the last one first. -/
  redeemed : List Redemption
  /-- The account tokens that have been issued, the last one first. -/
  issued : List AccountClaims

/-- The hashes that the service uses. -/
structure Hashes where
  hashPassword : (salt plain : String) → String
  verifyPassword : (plain hash : String) → Bool
  hashToken : String → String

/-- The part of the configuration that the handlers read. -/
structure Config where
  publicBaseUrl : String
  accountTokenTtlSecs : ℤ

/-! ### Requests -/

/-- Where a fault may strike. -/
inductive Point
  | hashPassword
  | begin
  | insertAccount
  | insertToken
  | enqueue
  | claimToken
  | commit
  /-- The commit is carried out, and its answer does not come. -/
  | commitAnswer
  | selectAccount
  | verifyPassword
  | accountToken
  deriving DecidableEq

/-- What a handler answers when it does not succeed. -/
inductive Failure
  /-- With the text of the error that has occurred. -/
  | internalServerError
  | refused (status : ℕ) (text : String)
  deriving DecidableEq

/-- What a request draws. -/
structure Draw where
  accountId : I64
  salt : String
  token : String
  outboxId : I64

/-- The body of `signup`. -/
structure SignupRequest where
  email : String
  password : String

/-- The body of `login`. -/
structure LoginRequest where
  email : String
  password : String

/-- What `signup`, `login` and `verify_email` answer. -/
structure AuthResponse where
  accessToken : AccountClaims
  accountId : I64
  email : String
  emailVerified : Bool
  deriving DecidableEq

namespace Service

variable (st : Service)

/-- `INSERT INTO accounts`, unless the id or the address is taken. -/
def insertAccount (a : Account) : Option Service :=
  if st.accounts.any fun b => decide (b.email = a.email) then none
  else (Table.insert Account.id a st.accounts).map fun rows => { st with accounts := rows }

/-- `INSERT INTO email_verification_tokens`, for an account that is there. -/
def insertToken (k : VerificationToken) : Option Service :=
  if st.accounts.any fun a => decide (a.id = k.accountId) then
    (Table.insert VerificationToken.tokenHash k st.tokens).map fun rows =>
      { st with tokens := rows }
  else none

/-- `enqueue_tx`. -/
def enqueue (id : I64) (template toEmail : String) (payload : Payload) : Option Service :=
  (Mailer.enqueue st.mail.now id.1 template toEmail payload st.mail.rows).map fun rows =>
    { st with mail := { st.mail with rows } }

/-- An account, by its address. -/
def accountOf? (email : String) : Option Account :=
  st.accounts.find? fun a => decide (a.email = email)

/-- The token that a hash claims: it has not been consumed, and not expired. -/
def claim? (tokenHash : String) : Option VerificationToken :=
  st.tokens.find? fun k =>
    decide (k.tokenHash = tokenHash ∧ k.consumedAt = none ∧ st.mail.now < k.expiresAt)

/-- What the claim of a token updates: the token, and its account. -/
def consume (k : VerificationToken) : Service :=
  { st with
    tokens := Table.update (fun k' => decide (k'.tokenHash = k.tokenHash))
      (fun k' => { k' with consumedAt := some st.mail.now }) st.tokens
    accounts := Table.update (fun a => decide (a.id = k.accountId))
      (fun a => { a with emailVerified := true }) st.accounts }

end Service

/-- `create_account_token`, before it is signed. -/
def createAccountToken (cfg : Config) (now : Time) (accountId : I64) (email : String) :
    AccountClaims :=
  ⟨accountId, email, now + cfg.accountTokenTtlSecs, now⟩

section Endpoints

variable (cfg : Config) (hs : Hashes)

/-- A statement that inserts a row. -/
def insertion (p : Point) (e : Failure) (f : Service → Option Service) :
    Body Point Failure Service Unit :=
  Body.statement p .internalServerError fun st =>
    match f st with
    | none => .error e
    | some st => .ok ((), st)

/-- The link in a verification mail. -/
def verifyUrl (token : String) : String := cfg.publicBaseUrl ++ "/verify-email?token=" ++ token

/-- The link in a welcome mail. -/
def dashboardUrl : String := cfg.publicBaseUrl ++ "/dashboard"

/-- The payload of a verification mail; the id of the account is a number. -/
def verifyPayload (token : String) : Payload :=
  .object [("account_id", none), ("verify_url", some (verifyUrl cfg token))]

/-- The payload of a welcome mail. -/
def welcomePayload : Payload :=
  .object [("account_id", none), ("dashboard_url", some (dashboardUrl cfg))]

/-- A verification token can be redeemed for a day. -/
def tokenLifetime : ℕ := 24 * 3600

/-- The token that an account is sent. -/
def newToken (d : Draw) (now : Time) (accountId : I64) : VerificationToken :=
  ⟨hs.hashToken d.token, accountId, now + tokenLifetime, none⟩

/-- `issue_verification_email`. -/
def issueVerificationEmail (d : Draw) (accountId : I64) (email : String) :
    Body Point Failure Service Unit := do
  insertion .insertToken .internalServerError fun st =>
    st.insertToken (newToken hs d st.mail.now accountId)
  insertion .enqueue .internalServerError fun st =>
    st.enqueue d.outboxId "account_verify" email (verifyPayload cfg d.token)

/-- The account that a request makes. -/
def newAccount (req : SignupRequest) (d : Draw) : Account :=
  ⟨d.accountId, req.email, hs.hashPassword d.salt req.password, false, none⟩

/-- The transaction of `signup`: the account, its verification token and the mail. -/
def signupRows (req : SignupRequest) (d : Draw) : Body Point Failure Service Unit := do
  insertion .insertAccount (.refused 409 "account already exists") fun st =>
    st.insertAccount (newAccount hs req d)
  issueVerificationEmail cfg hs d d.accountId req.email

/-- The account token, and the answer. -/
def respond (accountId : I64) (email : String) (emailVerified : Bool) :
    Handler Point Failure Service AuthResponse := do
  let claims ← Handler.read .accountToken .internalServerError fun st =>
    some (createAccountToken cfg st.mail.now accountId email)
  return ⟨claims, accountId, email, emailVerified⟩

/-- `signup` -/
def signup (req : SignupRequest) (d : Draw) : Handler Point Failure Service AuthResponse := do
  Handler.step .hashPassword .internalServerError
  Handler.transaction .begin .commit .commitAnswer .internalServerError
    (signupRows cfg hs req d)
  respond cfg d.accountId req.email false

/-- A `SELECT` that refuses the request if it finds nothing. -/
def select {α : Type} (p : Point) (refusal : Failure) (f : Service → Option α) :
    Handler Point Failure Service α := fun faults st =>
  if faults p then (.error .internalServerError, st)
  else match f st with
    | none => (.error refusal, st)
    | some a => (.ok a, st)

/-- The answer to a login with a wrong e-mail address or a wrong password, which is the same. -/
def invalidCredentials : Failure := .refused 401 "invalid credentials"

/-- `login` -/
def login (req : LoginRequest) : Handler Point Failure Service AuthResponse := do
  let a ← select .selectAccount invalidCredentials fun st => st.accountOf? req.email
  let _ ← select .verifyPassword invalidCredentials fun _ =>
    if hs.verifyPassword req.password a.passwordHash then some () else none
  respond cfg a.id req.email a.emailVerified

/-- The answer to a token that is unknown, used or expired. -/
def invalidToken : Failure := .refused 400 "invalid or expired verification token"

/-- The statement that claims a token and verifies its account. -/
def claimToken (token : String) : Body Point Failure Service Account :=
  Body.statement .claimToken .internalServerError fun st =>
    match st.claim? (hs.hashToken token) with
    | none => .error invalidToken
    | some k =>
      match st.accounts.find? fun a => decide (a.id = k.accountId) with
      | none => .error invalidToken
      | some a => .ok ({ a with emailVerified := true },
          { st.consume k with redeemed := ⟨token, a.id, st.mail.now⟩ :: st.redeemed })

/-- The transaction of `verify_email`: the token is claimed, and the welcome mail enqueued. -/
def verifyRows (token : String) (d : Draw) : Body Point Failure Service Account := do
  let a ← claimToken hs token
  insertion .enqueue .internalServerError fun st =>
    st.enqueue d.outboxId "account_welcome" a.email (welcomePayload cfg)
  return a

/-- `verify_email` -/
def verifyEmail (token : String) (d : Draw) : Handler Point Failure Service AuthResponse := do
  let a ← Handler.transaction .begin .commit .commitAnswer .internalServerError
    (verifyRows cfg hs token d)
  respond cfg a.id a.email a.emailVerified

/-- The transaction of `resend_verification`. -/
def resend (accountId : I64) (email : String) (d : Draw) : Handler Point Failure Service Unit :=
  Handler.transaction .begin .commit .commitAnswer .internalServerError
    (issueVerificationEmail cfg hs d accountId email)

end Endpoints

/-! ### The service -/

/-- What clients call, with the draws and the faults of each call, and the passing of time. -/
inductive Act
  | signup (req : SignupRequest) (d : Draw) (faults : Point → Bool)
  | login (req : LoginRequest) (faults : Point → Bool)
  | verifyEmail (token : String) (d : Draw) (faults : Point → Bool)
  /-- `resend_verification` reads the account of an address. -/
  | resendReads (email : String) (faults : Point → Bool)
  /-- One of those that have found their account goes on. -/
  | resendWrites (accountId : I64) (email : String) (d : Draw) (faults : Point → Bool)
  /-- The mail worker takes a step, or time passes. -/
  | mail (a : Worker.Act)

/-- What is left of a request that answers with an account token. -/
def answered (r : Except Failure AuthResponse × Service) : Service :=
  match r.1 with
  | .error _ => r.2
  | .ok response => { r.2 with issued := response.accessToken :: r.2.issued }

/-- `resend_verification`, up to its transaction. -/
def resendReads (email : String) (faults : Point → Bool) (st : Service) : Service :=
  if faults .selectAccount then st
  else match st.accountOf? email with
    | none => st
    | some a =>
      if a.emailVerified then st else { st with resending := (a.id, email) :: st.resending }

section System

variable (cfg : Config) (hs : Hashes) (askama : Askama) (mailFrom : String)

/-- A step of the service; rows of the outbox are not written by the worker. -/
inductive Step : Service → Act → Service → Prop
  | signup (st : Service) (req : SignupRequest) (d : Draw) (faults : Point → Bool) :
      Step st (.signup req d faults) (answered (signup cfg hs req d faults st))
  | login (st : Service) (req : LoginRequest) (faults : Point → Bool) :
      Step st (.login req faults) (answered (login cfg hs req faults st))
  | verifyEmail (st : Service) (token : String) (d : Draw) (faults : Point → Bool) :
      Step st (.verifyEmail token d faults) (answered (verifyEmail cfg hs token d faults st))
  | resendReads (st : Service) (email : String) (faults : Point → Bool) :
      Step st (.resendReads email faults) (resendReads email faults st)
  | resendWrites {st : Service} {accountId : I64} {email : String} (d : Draw)
      (faults : Point → Bool) : (accountId, email) ∈ st.resending →
      Step st (.resendWrites accountId email d faults)
        (resend cfg hs accountId email d faults
          { st with resending := st.resending.erase (accountId, email) }).2
  | mail {st : Service} {a : Worker.Act} {w : Worker} :
      (∀ id template toEmail payload, a ≠ .enqueue id template toEmail payload) →
      Worker.Step askama mailFrom st.mail a w → Step st (.mail a) { st with mail := w }

/-- The service starts with empty tables. -/
def system : System Service Act where
  init := fun st => ∃ now, st = ⟨[], [], ⟨now, [], .idle, [], []⟩, [], [], []⟩
  step := Step cfg hs askama mailFrom

end System

end General

end MateHub
