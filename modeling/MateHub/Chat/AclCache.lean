import MateHub.Hub.Calls
import MateHub.Chat.Access
import MateHub.Lib.Dict
import MateHub.Lib.Glob
import MateHub.Lib.Runs

/-!
# The cache of access decisions

The chat service keeps the answers of its access checks in Redis. The hub service tells it
what has changed: after its statements, a call that changes access publishes an
invalidation, and a consumer in the chat service looks for the keys of the entries that it
affects and deletes them. All of this interleaves: the queries of a check, the statements of
a call, the publication, the search and the deletion are steps of their own.
-/

namespace MateHub

namespace Chat

open Hub (Bits Db Call ChannelPermission effectivePermissions hasPermission)

/-! ### Keys -/

/-- What an entry answers. -/
structure Key where
  hubId : I64
  channelId : I64
  userId : I64
  action : Action
  deriving DecidableEq

namespace Key

/-- `cache_key`. -/
def text (k : Key) : List Char :=
  "acl:".toList ++ k.hubId.display ++
    ':' :: (k.channelId.display ++ ':' :: (k.userId.display ++ [':', k.action.label]))

/-- The answer that a database gives. -/
def answer (k : Key) (db : Db) : Bool :=
  checkUncached db k.hubId k.channelId k.userId k.action

end Key

/-! ### Invalidations -/

/-- `InvalidatePayload`: the entries of a channel are stale, or those of a user. -/
inductive InvalidatePayload
  | channel (hubId channelId : I64)
  | user (hubId userId : I64)
  deriving DecidableEq

namespace InvalidatePayload

/-- The pattern that an invalidation looks for keys with. -/
def pattern : InvalidatePayload → List Char
  | channel hubId channelId =>
    "acl:".toList ++ hubId.display ++ ':' :: (channelId.display ++ [':', '*'])
  | user hubId userId =>
    "acl:".toList ++ hubId.display ++ ':' :: '*' :: ':' :: (userId.display ++ [':', '*'])

/-- The keys that an invalidation is about. -/
def fits (p : InvalidatePayload) (text : List Char) : Bool := Glob.fits p.pattern text

end InvalidatePayload

/-! ### Calls, statement by statement -/

/-- The statements of the calls that publish something. A call that publishes nothing is
taken as a whole. -/
inductive Statement
  | upsertChannelPermission (hubId : I64) (cp : ChannelPermission)
  | deleteChannelPermission (hubId channelId groupId : I64)
  | insertMemberGroup (hubId userId groupId : I64)
  | deleteMemberGroup (hubId userId groupId : I64)
  | deleteMemberGroups (hubId userId : I64)
  | deleteHubMember (hubId userId : I64)
  | insertChannel (c : Hub.Channel)
  | grantDefault (hubId channelId : I64)
  | openDm (hubId me other nextId : I64)
  | whole (call : Call)

namespace Statement

/-- The database after a statement, if it does not fail, and what is to be published. -/
def run (db : Db) : Statement → Option (Db × Option InvalidatePayload)
  | upsertChannelPermission hubId cp =>
    (db.upsertChannelPermission cp).map (·, some (.channel hubId cp.channelId))
  | deleteChannelPermission hubId channelId groupId =>
    some (db.deleteChannelPermissionRow channelId groupId, some (.channel hubId channelId))
  | insertMemberGroup hubId userId groupId =>
    (db.insertMemberGroup hubId userId groupId).map (·, some (.user hubId userId))
  | deleteMemberGroup hubId userId groupId =>
    some (db.deleteMemberGroups fun mg => decide (mg = ⟨hubId, userId, groupId⟩),
      some (.user hubId userId))
  | deleteMemberGroups hubId userId =>
    some (db.deleteMemberGroups fun mg => decide (mg.hubId = hubId ∧ mg.userId = userId),
      some (.user hubId userId))
  | deleteHubMember hubId userId =>
    some (db.deleteHubMember hubId userId, some (.user hubId userId))
  | insertChannel c => (db.insertChannelRow c).map (·, some (.channel c.hubId c.id))
  | grantDefault hubId channelId =>
    (Hub.grantDefault db hubId channelId).map (·, some (.channel hubId channelId))
  | openDm hubId me other nextId =>
    (Hub.openDmRows db hubId me other nextId).map fun r => (r.2, some (.channel hubId r.1))
  | whole call =>
    match call.run db with
    | .ok (_, db) => some (db, none)
    | .error _ => none

/-- A statement that may also fail for a reason of its own. -/
def attempt (db : Db) (works : Bool) (statement : Statement) :
    Option (Db × Option InvalidatePayload) :=
  if works then statement.run db else none

end Statement

/-- What a call does after its checks. -/
def statements (db : Db) : Call → List Statement
  | .setChannelPermission hubId _ channelId groupId body =>
    [.upsertChannelPermission hubId ⟨channelId, groupId, body.allowBits, body.denyBits⟩]
  | .deleteChannelPermission hubId _ channelId groupId =>
    [.deleteChannelPermission hubId channelId groupId]
  | .addMemberToGroup hubId _ groupId userId => [.insertMemberGroup hubId userId groupId]
  | .removeMemberFromGroup hubId _ groupId userId => [.deleteMemberGroup hubId userId groupId]
  | .kickMember hubId _ userId =>
    [.deleteMemberGroups hubId userId, .deleteHubMember hubId userId]
  | .createChannel hubId _ body nextId =>
    [.insertChannel (Hub.newChannel db hubId body nextId), .grantDefault hubId nextId]
  | .openDm hubId auth other nextId => [.openDm hubId auth other nextId]
  | call => [.whole call]

/-- A call in progress: the statements to come, and what to publish after them. -/
structure Handler where
  todo : List Statement
  payload : Option InvalidatePayload

/-! ### Checks, query by query -/

/-- How far a check has come after the cache has had no answer. -/
inductive Stage
  | missed
  | typed (channelType : String)
  | notAdmin
  | answered (allowed : Bool)
  deriving DecidableEq

/-- An access check that goes on. -/
structure Check where
  key : Key
  stage : Stage
  deriving DecidableEq

namespace Check

/-- The next query of a check, which may fail. -/
def query (db : Db) (works : Bool) (c : Check) : Check where
  key := c.key
  stage :=
    let k := c.key
    match c.stage with
    | .missed =>
      if !works then .answered false
      else
        match db.channel? k.hubId k.channelId with
        | none => .answered false
        | some channel => .typed channel.channelType
    | .typed channelType =>
      if !works then .answered false
      else if channelType == "dm" then .answered (db.isParticipant k.channelId k.userId)
      else if (db.resolveUserPerms k.hubId k.userId).isAdmin then .answered true
      else .notAdmin
    | .notAdmin =>
      if !works then .answered false
      else
        let eff := effectivePermissions (db.channelPermsOf k.hubId k.channelId k.userId)
        .answered (hasPermission eff k.action.bit)
    | .answered allowed => .answered allowed

/-- **Undisturbed**, a check answers what `checkUncached` says. -/
theorem query_query_query (db : Db) (k : Key) :
    (((Check.mk k .missed).query db true).query db true).query db true =
      ⟨k, .answered (k.answer db)⟩ := by
  rw [Key.answer, checkUncached]
  rcases hc : db.channel? k.hubId k.channelId with _ | channel
  · simp [query, hc]
  · by_cases hdm : channel.channelType = "dm"
    · simp [query, hc, hdm]
    · by_cases hadmin : (db.resolveUserPerms k.hubId k.userId).isAdmin = true
      · simp [query, hc, hdm, hadmin]
      · simp [query, hc, hdm, hadmin]

end Check

/-! ### The system -/

/-- What the consumer is doing: nothing, looking for the keys of an invalidation, or deleting
those that it has found. While it looks, some of the keys are certain to be found. -/
inductive Consumer
  | idle
  | scanning (payload : InvalidatePayload) (due : List (List Char))
  | deleting (keys : List (List Char))
  deriving DecidableEq

/-- The database, the cache, the queue of invalidations, and what goes on. -/
structure AclState where
  db : Db
  cache : Dict (List Char) Bool
  checks : List Check
  handlers : List Handler
  queue : List InvalidatePayload
  consumer : Consumer

/-- What happens to it. -/
inductive AclEvent
  /-- A call has been let through. -/
  | request (call : Call)
  /-- A call goes on with its next statement, or publishes, which may fail. -/
  | advance (i : ℕ) (works : Bool)
  /-- A check looks into the cache, which may fail. -/
  | ask (k : Key) (works : Bool)
  /-- A check goes on with its next query, which may fail. -/
  | query (i : ℕ) (works : Bool)
  /-- A check ends and writes its answer into the cache, which may fail. -/
  | store (i : ℕ) (works : Bool)
  /-- An entry expires. -/
  | expire (text : List Char)
  /-- The consumer takes an invalidation and begins to look for keys. -/
  | scan
  /-- It has found some. -/
  | collect (keys : List (List Char))
  /-- It deletes them. -/
  | delete

namespace AclState

/-- The statement that a call has come to, or its publication. -/
def advance (s : AclState) (i : ℕ) (works : Bool) (h : Handler) : AclState :=
  match h.todo with
  -- a publication that fails is only logged
  | [] =>
    { s with
      handlers := s.handlers.eraseIdx i
      queue := if works then s.queue ++ h.payload.toList else s.queue }
  | statement :: todo =>
    match statement.attempt s.db works with
    -- the error is returned before anything is published
    | none => { s with handlers := s.handlers.eraseIdx i }
    | some (db, payload) => { s with db := db, handlers := s.handlers.set i ⟨todo, payload⟩ }

/-- The state after an event. -/
def next (s : AclState) : AclEvent → AclState
  | .request call => { s with handlers := s.handlers ++ [⟨statements s.db call, none⟩] }
  | .advance i works =>
    match s.handlers[i]? with
    | none => s
    | some h => s.advance i works h
  | .ask k works =>
    if works && (s.cache.lookup k.text).isSome then s
    else { s with checks := s.checks ++ [⟨k, .missed⟩] }
  | .query i works => { s with checks := s.checks.modify i (Check.query s.db works) }
  | .store i works =>
    match s.checks[i]? with
    | some ⟨k, .answered allowed⟩ =>
      { s with
        checks := s.checks.eraseIdx i
        cache := if works then s.cache.insert k.text allowed else s.cache }
    | _ => s
  | .expire text =>
    { s with
      cache := s.cache.erase text
      consumer :=
        match s.consumer with
        | .scanning payload due => .scanning payload (due.filter fun t => t ≠ text)
        | consumer => consumer }
  | .scan =>
    match s.consumer, s.queue with
    | .idle, payload :: queue =>
      { s with
        queue := queue
        consumer := .scanning payload ((s.cache.pairs.map Prod.fst).filter payload.fits) }
    | _, _ => s
  | .collect keys =>
    match s.consumer with
    | .scanning payload due =>
      if due ⊆ keys ∧ ∀ t ∈ keys, payload.fits t = true then { s with consumer := .deleting keys }
      else s
    | _ => s
  | .delete =>
    match s.consumer with
    | .deleting keys =>
      { s with cache := s.cache.retain fun t _ => decide (t ∉ keys), consumer := .idle }
    | _ => s

end AclState

/-- Calls, checks and the consumer, from any database and an empty cache on. What a caller
is allowed to do is left open: it only makes for fewer runs. -/
def aclCache : System AclState AclEvent where
  init s := ∃ db, s = ⟨db, ∅, [], [], [], .idle⟩
  step s e t := t = s.next e

end Chat

end MateHub
