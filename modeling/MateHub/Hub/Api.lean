import MateHub.Hub.Writes
import MateHub.Hub.Groups
import MateHub.Lib.Runs

/-!
# The endpoints that write

Besides the calls of `MateHub.Hub.Call` there are two endpoints that write to the tables of a
hub. The setup makes the first hub with its admin, in one transaction. A login through the
general service makes the user of an account if there is none, a member of the hub if it is
not one, and puts it into the default group, with one statement after the other. Requests
come one after another here, and each may fail at any statement.
-/

namespace MateHub

namespace Hub

open Chat (I64 i64)

/-! ### Setup -/

/-- The body of `setup_admin`. -/
structure SetupAdmin where
  username : String
  password : String
  displayName : String
  email : Option String
  hubName : String

/-- The ids that a setup draws. -/
structure SetupIds where
  userId : I64
  hubId : I64
  adminGroupId : I64
  everyoneGroupId : I64
  generalChannelId : I64

/-- The first user of a hub. -/
def SetupAdmin.user (body : SetupAdmin) (userId : I64) : User :=
  ⟨userId, body.username, body.displayName, body.email, .permanent, none, none⟩

/-- What a setup writes after its user. -/
def setupRows (ids : SetupIds) : List Write :=
  [.insertHub ⟨ids.hubId, some ids.userId⟩,
    .insertGroup ⟨ids.adminGroupId, ids.hubId, "admin", some "#E74C3C", 0, false, Bits.all⟩,
    .insertGroup ⟨ids.everyoneGroupId, ids.hubId, "everyone", some "#99AAB5", 100, true, 0⟩,
    .insertHubMember ⟨ids.hubId, ids.userId, "admin"⟩,
    .insertMemberGroup ⟨ids.hubId, ids.userId, ids.adminGroupId⟩,
    .insertMemberGroup ⟨ids.hubId, ids.userId, ids.everyoneGroupId⟩,
    .insertChannel ⟨ids.generalChannelId, ids.hubId, "general", "text", 0, none, noIcon⟩,
    .insertChannelPermission ⟨ids.generalChannelId, ids.everyoneGroupId, Bits.memberChannel, 0⟩]

/-- `setup_admin`. The slug of a hub is left out: where a hub has the slug `default`, a second
setup is refused, and here it goes on. -/
def setupAdmin (db : Db) (body : SetupAdmin) (ids : SetupIds) : Reply I64 :=
  require (!(body.username.isEmpty || body.password.isEmpty || body.hubName.isEmpty))
    (.status .badRequest) <|
  require db.hubMembers.isEmpty (.status .conflict) <|
  attempt (db.insertUser (body.user ids.userId)) (fun _ => .status .conflict) fun db =>
  found (Script.run Write.exec db (setupRows ids)) internalServerError fun db =>
  .ok (ids.userId, db)

/-! ### Login through the general service -/

/-- What the general service says about a code. -/
structure ExchangeResponse where
  accountId : I64
  email : String
  displayName : Option String

/-- The database, with the column `account_id` of `users` kept apart: the accounts of the
general service, and their users. -/
structure Service where
  db : Db
  accounts : List (I64 × I64)

/-- The part of an e-mail address before the `@`. -/
def emailPrefix (email : String) : String :=
  String.ofList ((email.toList.splitOn '@').head?.getD email.toList)

/-- The user of an account that is not known. -/
def ExchangeResponse.newUser (x : ExchangeResponse) (userId : I64) : User :=
  ⟨userId, x.email, x.displayName.getD (emailPrefix x.email), some x.email, .permanent, none, none⟩

namespace Service

variable (st : Service)

/-- The user of an account. -/
def accountUser? (accountId : I64) : Option I64 :=
  (st.accounts.find? fun p => decide (p.1 = accountId)).map Prod.snd

/-- What `sso_login` writes for a user in the hub of the service. -/
def ssoRows (hubId userId : I64) : List Write :=
  .insertHubMemberNew ⟨hubId, userId, "member"⟩ ::
    (st.db.defaultGroup? hubId).toList.map fun everyone =>
      .insertMemberGroup ⟨hubId, userId, everyone.id⟩

/-- What `sso_login` writes. -/
def ssoWrites (hubId : I64) (x : ExchangeResponse) (newUserId : I64) : List Write :=
  match st.accountUser? x.accountId with
  | some userId => .setEmail userId x.email :: st.ssoRows hubId userId
  | none => .insertUser (x.newUser newUserId) :: st.ssoRows hubId newUserId

/-- The accounts after `sso_login`, which has inserted a user or not. -/
def ssoAccounts (x : ExchangeResponse) (newUserId : I64) : List (I64 × I64) :=
  match st.accountUser? x.accountId with
  | some _ => st.accounts
  | none => (x.accountId, newUserId) :: st.accounts

/-- What `sso_login` may leave: it fails at its first statement, or after it. -/
def ssoLeaves (hubId : I64) (x : ExchangeResponse) (newUserId : I64) : List Service :=
  st :: ((Script.stopsAt Write.exec st.db (st.ssoWrites hubId x newUserId)).tail.map fun db =>
    ⟨db, st.ssoAccounts x newUserId⟩)

end Service

/-! ### Any endpoint -/

/-- The calls of the endpoints that write. -/
inductive ApiCall
  | call (c : Call)
  | setupAdmin (body : SetupAdmin) (ids : SetupIds)
  | ssoLogin (x : ExchangeResponse) (newUserId : I64)

namespace ApiCall

/-- The statements of an endpoint; the service has one hub for logins. -/
def writes (ssoHub : I64) (st : Service) : ApiCall → List Write
  | call c => c.writes st.db
  | setupAdmin body ids => .insertUser (body.user ids.userId) :: setupRows ids
  | ssoLogin x newUserId => st.ssoWrites ssoHub x newUserId

/-- What an endpoint may leave. -/
def leaves (ssoHub : I64) (st : Service) : ApiCall → List Service
  | call c => (c.leaves st.db).map fun db => { st with db := db }
  | setupAdmin body ids =>
    st :: match Hub.setupAdmin st.db body ids with
      | .ok (_, db) => [{ st with db := db }]
      | .error _ => []
  | ssoLogin x newUserId => st.ssoLeaves ssoHub x newUserId

/-- **An endpoint stops somewhere in its script.** -/
theorem stops_of_leaves {ssoHub : I64} {st st' : Service} {a : ApiCall}
    (h : st' ∈ a.leaves ssoHub st) :
    Script.Stops Write.exec st.db (a.writes ssoHub st) st'.db := by
  cases a with
  | call c =>
    obtain ⟨db, hdb, rfl⟩ := List.mem_map.mp h
    exact Call.stops_of_leaves hdb
  | setupAdmin body ids =>
    rcases List.mem_cons.mp h with rfl | h
    · exact Script.stops_self
    · split at h
      · rename_i userId db hok
        obtain rfl := List.mem_singleton.mp h
        simp only [Hub.setupAdmin, require_eq_ok, found_eq_ok, attempt_eq_ok] at hok
        obtain ⟨-, -, db₁, huser, db₂, hrows, hr⟩ := hok
        obtain ⟨-, rfl⟩ := Prod.mk.inj (Except.ok.inj hr)
        refine Script.stops_of_run ?_
        rw [writes, Script.run_cons, exec_insertUser huser]
        exact hrows
      · cases h
  | ssoLogin x newUserId =>
    rcases List.mem_cons.mp h with rfl | h
    · exact Script.stops_self
    · obtain ⟨db, hdb, rfl⟩ := List.mem_map.mp h
      exact Script.mem_stopsAt.mp (List.mem_of_mem_tail hdb)

end ApiCall

/-- What an endpoint leaves if nothing fails but what its checks and the constraints refuse. -/
def Service.after (ssoHub : I64) (st : Service) (a : ApiCall) : Service :=
  (a.leaves ssoHub st).getLast?.getD st

theorem Service.after_mem (ssoHub : I64) (st : Service) (a : ApiCall) :
    st.after ssoHub a ∈ a.leaves ssoHub st := by
  have hself : st ∈ a.leaves ssoHub st := by
    cases a with
    | call c => exact List.mem_map.mpr ⟨st.db, List.mem_cons_self, rfl⟩
    | setupAdmin body ids => exact List.mem_cons_self
    | ssoLogin x newUserId => exact List.mem_cons_self
  rw [Service.after]
  cases hlast : (a.leaves ssoHub st).getLast? with
  | none => exact hself
  | some st' => exact List.mem_of_getLast? hlast

/-- The endpoints, called one after another, each of which may fail at any statement. -/
def hubApi (ssoHub : I64) (init : Service → Prop) : System Service ApiCall where
  init := init
  step st a st' := st' ∈ a.leaves ssoHub st

/-! ### The first hub -/

namespace Seed

/-- The database of a new installation. -/
def emptyDb : Db where
  hubs := []
  users := []
  hubMembers := []
  groups := []
  memberGroups := []
  channels := []
  channelPermissions := []
  dmParticipants := []
  tempUsers := []
  invitations := []
  inviteLinks := []
  fk_memberGroups := fun _ h => absurd h List.not_mem_nil
  fk_memberUsers := fun _ h => absurd h List.not_mem_nil
  pk_channels := fun _ h => absurd h List.not_mem_nil

/-- Alice sets up the hub. -/
def aliceSetsUp : ApiCall :=
  .setupAdmin ⟨"alice", "secret", "Alice", none, "MateHub"⟩ ⟨alice, hub, admin, everyone, general⟩

/-- And she makes a link for a guest, who is to be in a group. -/
def aliceInvites (groupId : I64) : ApiCall :=
  .call (.createTempUser hub alice ⟨"Gus", groupId, 3600⟩ 0 (i64 1004) "t")

/-- The guest walks through the link. -/
def gusJoins : ApiCall := .call (.joinViaToken "t" 10 "s")

end Seed

end Hub

end MateHub
