import MateHub.General.Accounts
import MateHub.Hub.Api
import MateHub.Hub.Refresh

/-!
# From the general service to a hub

The general service keeps a registry of hubs. A hub is made by `create_hub`, with a secret that
its pod gets as well, and `enter_hub` mints a code for an account that is a member of a hub
which is ready. Whoever has the code takes it to the pod, whose `sso_login` presents it to
`exchange_code` together with the secret of the pod, makes a user for the account that it is
told, or finds the one that it has made before, and issues a token of its own.

Every statement of these requests is a step, and so is what others do meanwhile: requests to the
general service, hubs that are made, and statements of any kind on the database of a pod. What
is presented to `exchange_code` need not come from a pod.
-/

namespace MateHub

namespace General

open Chat (I64)
open Mailer (Time Askama)
open Transaction (Body Handler)

/-! ### The registry -/

/-- The provisioning status of a hub. -/
inductive HubStatus
  | provisioning
  | ready
  | failed
  | deleting
  deriving DecidableEq

/-- A row of `hubs` of the general service. -/
structure HubRow where
  id : I64
  slug : String
  name : String
  ownerAccountId : I64
  status : HubStatus
  hubSecret : String
  deriving DecidableEq

/-- A row of `hub_members` of the general service. -/
structure HubMember where
  hubId : I64
  accountId : I64
  role : String
  deriving DecidableEq

/-- A code for the hand-off to a hub. -/
structure AuthCode where
  code : String
  accountId : I64
  hubId : I64
  expiresAt : Time
  consumedAt : Option Time
  deriving DecidableEq

/-- The pod of a hub: the secret is its `JWT_SECRET`. -/
structure Pod where
  hubId : I64
  secret : String
  service : Hub.Service

/-- The general service with the registry, and the pods. -/
structure Platform where
  service : Service
  hubs : List HubRow
  hubMembers : List HubMember
  authCodes : List AuthCode
  /-- The hubs whose provisioning is under way. -/
  provisioning : List I64
  pods : List Pod

/-- `CODE_TTL_SECS`. -/
def codeTtlSecs : ℕ := 30

/-- The leeway of `Validation::default`. -/
def leeway : ℤ := 60

/-- A letter or digit of a slug. -/
def slugAlnum (c : Char) : Bool := c.isLower || c.isDigit

/-- `hubs_slug_format`. -/
def slugFormat (slug : String) : Bool :=
  decide (3 ≤ slug.toList.length ∧ slug.toList.length ≤ 64) &&
    slug.toList.all (fun c => slugAlnum c || c == '-') &&
    slug.toList.head?.any slugAlnum && slug.toList.getLast?.any slugAlnum

/-- `hub_sso_url`. -/
def hubSsoUrl (template slug code : String) : String :=
  (template.replace "\x7bslug\x7d" slug).replace "\x7bcode\x7d" code

namespace Platform

variable (st : Platform)

/-- The clock of the platform. -/
def now : Time := st.service.mail.now

/-- An account has this id. -/
def hasAccount (accountId : I64) : Bool :=
  st.service.accounts.any fun a => decide (a.id = accountId)

/-- A hub has this id. -/
def hasHub (hubId : I64) : Bool := st.hubs.any fun h => decide (h.id = hubId)

/-- `verify_account_token`, of a token that the service has signed. -/
def verifies (claims : AccountClaims) : Bool :=
  decide (claims ∈ st.service.issued ∧ (st.now : ℤ) ≤ claims.exp + leeway)

/-- `INSERT INTO hubs`. -/
def insertHub (h : HubRow) : Except Failure Platform :=
  if !slugFormat h.slug then .error .internalServerError
  else if Table.hasKey HubRow.id h st.hubs || Table.hasKey HubRow.slug h st.hubs ||
      Table.hasKey HubRow.hubSecret h st.hubs then .error (.refused 409 "slug taken")
  else if !st.hasAccount h.ownerAccountId then .error .internalServerError
  else .ok { st with hubs := h :: st.hubs }

/-- `INSERT INTO hub_members`. -/
def insertHubMember (m : HubMember) : Option Platform :=
  if !st.hasHub m.hubId || !st.hasAccount m.accountId then none
  else (Table.insert (fun m => (m.hubId, m.accountId)) m st.hubMembers).map fun rows =>
    { st with hubMembers := rows }

/-- Setting the status of a hub. -/
def setStatus (hubId : I64) (status : HubStatus) : Platform :=
  { st with
    hubs := Table.update (fun h => decide (h.id = hubId)) (fun h => { h with status }) st.hubs }

/-- The hub that an account enters under a slug. -/
def enterable? (slug : String) (accountId : I64) : Option HubRow :=
  st.hubs.find? fun h => decide (h.slug = slug ∧ h.status = .ready) &&
    st.hubMembers.any fun m => decide (m.hubId = h.id ∧ m.accountId = accountId)

/-- `INSERT INTO auth_codes`. -/
def insertCode (k : AuthCode) : Option Platform :=
  if !st.hasHub k.hubId || !st.hasAccount k.accountId then none
  else (Table.insert AuthCode.code k st.authCodes).map fun rows => { st with authCodes := rows }

/-- The hub that a secret authenticates. -/
def hubOfSecret? (secret : String) : Option HubRow :=
  st.hubs.find? fun h => decide (h.hubSecret = secret)

/-- The row that a code claims for a hub. -/
def claim? (code : String) (hubId : I64) : Option AuthCode :=
  st.authCodes.find? fun k => decide
    (k.code = code ∧ k.hubId = hubId ∧ k.consumedAt = none ∧ st.now < k.expiresAt)

/-- What the claim of a code updates. -/
def consume (code : String) : Platform :=
  { st with
    authCodes := Table.update (fun k => decide (k.code = code))
      (fun k => { k with consumedAt := some st.now }) st.authCodes }

/-- The account with an id. -/
def account? (accountId : I64) : Option Account :=
  st.service.accounts.find? fun a => decide (a.id = accountId)

/-- The pod of a hub, if it has been started. -/
def pod? (hubId : I64) : Option Pod := st.pods.find? fun p => decide (p.hubId = hubId)

/-- A pod writes to its tables. -/
def setPod (hubId : I64) (service : Hub.Service) : Platform :=
  { st with
    pods := Table.update (fun p => decide (p.hubId = hubId)) (fun p => { p with service })
      st.pods }

end Platform

/-! ### Making a hub -/

/-- The points of `create_hub` at which it may fail. -/
inductive HubPoint
  | begin
  | insertHub
  | insertMember
  | commit
  /-- The commit is carried out, and its answer does not come. -/
  | commitAnswer
  deriving DecidableEq

/-- The body of `create_hub`. -/
structure CreateHubRequest where
  slug : String
  name : String

/-- What `create_hub` answers. -/
structure CreateHubResponse where
  id : I64
  slug : String
  name : String
  status : String
  deriving DecidableEq

/-- The hub that a request makes. -/
def newHub (claims : AccountClaims) (req : CreateHubRequest) (hubId : I64) (hubSecret : String) :
    HubRow :=
  ⟨hubId, req.slug, req.name, claims.sub, .provisioning, hubSecret⟩

/-- The transaction of `create_hub`: the hub, and its owner's membership. -/
def createHubRows (h : HubRow) : Body HubPoint Failure Platform Unit := do
  Body.statement .insertHub .internalServerError fun st =>
    (st.insertHub h).map fun st => ((), st)
  Body.statement .insertMember .internalServerError fun st =>
    match st.insertHubMember ⟨h.id, h.ownerAccountId, "owner"⟩ with
    | none => .error .internalServerError
    | some st => .ok ((), st)

/-- `create_hub`; `k8s` says whether there is a cluster, and then the hub is provisioned by a
task of its own. -/
def createHub (k8s : Bool) (claims : AccountClaims) (req : CreateHubRequest) (hubId : I64)
    (hubSecret : String) (faults : HubPoint → Bool) (st : Platform) :
    Except Failure CreateHubResponse × Platform :=
  match Handler.transaction .begin .commit .commitAnswer .internalServerError
      (createHubRows (newHub claims req hubId hubSecret)) faults st with
  | (.error e, st) => (.error e, st)
  | (.ok (), st) =>
    (.ok ⟨hubId, req.slug, req.name, "provisioning"⟩,
      if k8s then { st with provisioning := hubId :: st.provisioning } else st)

/-- The task that provisions a hub is done; what it writes may be lost. -/
def provisioned (hubId : I64) (ok written : Bool) (st : Platform) : Platform :=
  let st := { st with provisioning := st.provisioning.erase hubId }
  if written then st.setStatus hubId (if ok then .ready else .failed) else st

/-! ### Requests -/

/-- What is presented to `exchange_code`, by the pod of a hub or by somebody else. -/
structure Presented where
  pod : Option I64
  secret : String
  code : String
  deriving DecidableEq

/-- A login at the pod of a hub, whose user is known. -/
structure Visit where
  hubId : I64
  code : String
  accountId : I64
  user : Hub.User
  deriving DecidableEq

/-- Where a request stands. -/
inductive Request
  /-- `enter_hub`, with a token that has been verified. -/
  | enter (claims : AccountClaims) (slug : String)
  | found (claims : AccountClaims) (slug : String) (hubId : I64)
  | redirected (claims : AccountClaims) (code redirectUrl : String)
  /-- `exchange_code`. -/
  | presented (p : Presented)
  | identified (p : Presented) (hubId : I64)
  | claimed (p : Presented) (hubId accountId : I64)
  | exchanged (p : Presented) (hubId : I64) (x : Hub.ExchangeResponse)
  /-- `sso_login`, from its `INSERT INTO users` on. -/
  | known (v : Visit)
  | member (v : Visit)
  | grouped (v : Visit)
  | granted (v : Visit) (groups : List I64)
  | loggedIn (v : Visit) (claims : Hub.Claims)
  | failed (e : Failure)

/-- What happens to a request next. -/
inductive RequestAct
  | enter (claims : AccountClaims) (slug : String)
  /-- Somebody brings a code to the pod of a hub. -/
  | login (hubId : I64) (code : String)
  /-- Somebody calls `exchange_code`. -/
  | exchange (secret code : String)
  /-- Its statement is executed. -/
  | next
  /-- Its statement fails. -/
  | fault
  /-- Its statement is executed, with a code that has been drawn. -/
  | mint (code : String)
  /-- The pod has the answer of the general service, and draws an id for a user. -/
  | upsert (newUserId : I64)
  /-- The pod has no answer. -/
  | unreachable
  /-- The pod signs a token, by its own clock. -/
  | sign (now : Hub.Time)

/-- What a request answers that has presented something: a pod passes the error on. -/
def Presented.refuse (p : Presented) (e : Failure) : Request :=
  match p.pod, e with
  | some _, .refused status text => .failed (.refused status ("exchange failed: " ++ text))
  | _, e => .failed e

def hubNotFound : Failure := .refused 404 "hub not found"

def unknownSecret : Failure := .refused 401 "unknown hub secret"

def invalidCode : Failure := .refused 400 "invalid, expired, or already-consumed code"

/-- The `INSERT INTO users ... ON CONFLICT (account_id) DO UPDATE` of `sso_login`. -/
def upsertUser (s : Hub.Service) (x : Hub.ExchangeResponse) (newUserId : I64) :
    Option (Hub.Service × Hub.User) :=
  match s.accountUser? x.accountId with
  | some userId =>
    (s.db.setEmail userId x.email).bind fun db =>
      (db.users.find? fun u => decide (u.id = userId)).map fun u => (⟨db, s.accounts⟩, u)
  | none =>
    (Hub.Write.exec s.db (.insertUser (x.newUser newUserId))).map fun db =>
      (⟨db, (x.accountId, newUserId) :: s.accounts⟩, x.newUser newUserId)

/-- The statement that puts a user into the default group, if there is one. -/
def joinDefaultGroup (s : Hub.Service) (hubId userId : I64) : Option Hub.Service :=
  match s.db.defaultGroup? hubId with
  | none => some s
  | some everyone =>
    (s.db.insertMemberGroup hubId userId everyone.id).map fun db => ⟨db, s.accounts⟩

/-- `SELECT group_id FROM member_groups`. -/
def groupIdsOf (s : Hub.Service) (hubId userId : I64) : List I64 :=
  (s.db.memberGroups.filter fun mg => decide (mg.hubId = hubId ∧ mg.userId = userId)).map
    Hub.MemberGroup.groupId

/-- The token of a pod, before it is signed. -/
def podClaims (v : Visit) (groups : List I64) (now : Hub.Time) : Hub.Claims :=
  ⟨v.user.id, v.user.username, .permanent, v.hubId, groups, now, now + Hub.accessTokenTtlSecs⟩

section Requests

variable (template : String)

/-- A request comes in. -/
def arrive (st : Platform) : RequestAct → Option Request
  | .enter claims slug => if st.verifies claims then some (.enter claims slug) else none
  | .login hubId code =>
    (st.pod? hubId).map fun p => .presented ⟨some hubId, p.secret, code⟩
  | .exchange secret code => some (.presented ⟨none, secret, code⟩)
  | _ => none

/-- `enter_hub`. -/
def enterHub (st : Platform) : Request → RequestAct → Option (Platform × Request)
  | .enter claims slug, .next =>
    match st.enterable? slug claims.sub with
    | none => some (st, .failed hubNotFound)
    | some h => some (st, .found claims slug h.id)
  | .found claims slug hubId, .mint code =>
    match st.insertCode ⟨code, claims.sub, hubId, st.now + codeTtlSecs, none⟩ with
    | none => some (st, .failed .internalServerError)
    | some st => some (st, .redirected claims code (hubSsoUrl template slug code))
  | .enter _ _, .fault | .found _ _ _, .fault => some (st, .failed .internalServerError)
  | _, _ => none

/-- `exchange_code`. -/
def exchangeCode (st : Platform) : Request → RequestAct → Option (Platform × Request)
  | .presented p, .next =>
    match st.hubOfSecret? p.secret with
    | none => some (st, p.refuse unknownSecret)
    | some h => some (st, .identified p h.id)
  | .identified p hubId, .next =>
    match st.claim? p.code hubId with
    | none => some (st, p.refuse invalidCode)
    | some k => some (st.consume p.code, .claimed p hubId k.accountId)
  | .claimed p hubId accountId, .next =>
    match st.account? accountId with
    | none => some (st, p.refuse .internalServerError)
    | some a => some (st, .exchanged p hubId ⟨accountId, a.email, a.displayName⟩)
  | .presented p, .fault | .identified p _, .fault | .claimed p _ _, .fault =>
    some (st, p.refuse .internalServerError)
  | _, _ => none

/-- `sso_login`, around the exchange. -/
def ssoLogin (st : Platform) : Request → RequestAct → Option (Platform × Request)
  | .exchanged ⟨some pod, _, code⟩ _ x, .upsert newUserId =>
    match st.pod? pod with
    | none => none
    | some p =>
      match upsertUser p.service x newUserId with
      | none => some (st, .failed .internalServerError)
      | some (s, user) => some (st.setPod pod s, .known ⟨pod, code, x.accountId, user⟩)
  | .presented ⟨some _, _, _⟩, .unreachable | .exchanged ⟨some _, _, _⟩ _ _, .unreachable =>
    some (st, .failed (.refused 502 "general unreachable"))
  | .known v, .next =>
    match st.pod? v.hubId with
    | none => none
    | some p =>
      match p.service.db.insertHubMemberNew ⟨v.hubId, v.user.id, "member"⟩ with
      | none => some (st, .failed .internalServerError)
      | some db => some (st.setPod v.hubId ⟨db, p.service.accounts⟩, .member v)
  | .member v, .next =>
    match st.pod? v.hubId with
    | none => none
    | some p =>
      match joinDefaultGroup p.service v.hubId v.user.id with
      | none => some (st, .failed .internalServerError)
      | some s => some (st.setPod v.hubId s, .grouped v)
  | .grouped v, .next =>
    (st.pod? v.hubId).map fun p => (st, .granted v (groupIdsOf p.service v.hubId v.user.id))
  | .grouped v, .fault => some (st, .granted v [])
  | .granted v groups, .sign now => some (st, .loggedIn v (podClaims v groups now))
  | .exchanged ⟨some _, _, _⟩ _ _, .fault | .known _, .fault | .member _, .fault
  | .granted _ _, .fault => some (st, .failed .internalServerError)
  | _, _ => none

/-- A step of a request. -/
def run (st : Platform) (_ : ℕ) : Option Request → RequestAct → Option (Platform × Option Request)
  | none, a => (arrive st a).map fun r => (st, some r)
  | some r, a =>
    ((enterHub template st r a).or ((exchangeCode st r a).or (ssoLogin st r a))).map fun p =>
      (p.1, some p.2)

end Requests

/-! ### The platform -/

/-- What happens besides the requests. -/
inductive PlatformAct
  /-- The general service takes a step of its own. -/
  | general (a : Act)
  | createHub (claims : AccountClaims) (req : CreateHubRequest) (hubId : I64) (hubSecret : String)
      (faults : HubPoint → Bool)
  | provisioned (hubId : I64) (ok written : Bool)
  /-- The pod of a hub starts, with what its migrations leave. -/
  | startPod (hubId : I64) (db : Hub.Db)
  /-- An endpoint of a pod executes a statement. -/
  | write (hubId : I64) (w : Hub.Write)

section System

variable (cfg : Config) (hs : Hashes) (askama : Askama) (mailFrom template : String) (k8s : Bool)

/-- A step of the surroundings. -/
inductive Around : Platform → PlatformAct → Platform → Prop
  | general {st : Platform} {a : Act} {service : Service} :
      Step cfg hs askama mailFrom st.service a service →
      Around st (.general a) { st with service }
  | createHub {st : Platform} {claims : AccountClaims} (req : CreateHubRequest) (hubId : I64)
      (hubSecret : String) (faults : HubPoint → Bool) : st.verifies claims = true →
      Around st (.createHub claims req hubId hubSecret faults)
        (createHub k8s claims req hubId hubSecret faults st).2
  | provisioned {st : Platform} {hubId : I64} (ok written : Bool) : hubId ∈ st.provisioning →
      Around st (.provisioned hubId ok written) (provisioned hubId ok written st)
  | startPod {st : Platform} {h : HubRow} (db : Hub.Db) : h ∈ st.hubs → st.pod? h.id = none →
      Around st (.startPod h.id db)
        { st with pods := ⟨h.id, h.hubSecret, ⟨db, []⟩⟩ :: st.pods }
  | write {st : Platform} {p : Pod} {hubId : I64} {w : Hub.Write} {db : Hub.Db} :
      st.pod? hubId = some p → w.exec p.service.db = some db →
      Around st (.write hubId w) (st.setPod hubId ⟨db, p.service.accounts⟩)

/-- The platform starts with empty tables and without pods. -/
def Started (w : Tasks ℕ Platform (Option Request)) : Prop :=
  (∀ i, w.task i = none) ∧ ∃ now,
    w.shared = ⟨⟨[], [], ⟨now, [], .idle, [], []⟩, [], [], []⟩, [], [], [], [], []⟩

def platform : System (Tasks ℕ Platform (Option Request)) (Tasks.Act ℕ RequestAct PlatformAct) :=
  Tasks.systemIn Started (run template) (Around cfg hs askama mailFrom k8s)

end System

end General

end MateHub
