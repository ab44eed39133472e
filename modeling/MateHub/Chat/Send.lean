import MateHub.Chat.AclScope
import MateHub.Chat.Authorship
import MateHub.Lib.Tasks

/-!
# Sending a message once

A client that sends a message gives it a `client_id`, so that it may send it again without
its being posted twice: `send_message` looks the `client_id` up in Redis, and answers with
the id of the message that it finds. If it finds none it writes the message, and a row of
the list of buckets, and then records the id in Redis. These are statements of their own,
with those of other requests in between, and each may fail.

So a message is posted twice if two requests look their `client_id` up before either has
recorded it, or if an attempt stops after it has written the message and is repeated
(`MateHub.Chat.sent_twice`). It is posted once in every run in which a request that finds
nothing is the first that does (`MateHub.Chat.sent_once`).
-/

namespace MateHub

namespace Chat

open Hub (Status)

/-! ### The shared state -/

/-- What the requests share: the table `messages` and the list of buckets, the
idempotency entries, each with its time to live, if there is a Redis, and the messages that
have been announced, latest first. -/
structure SendStore where
  messages : Messages
  buckets : List (I64 × I64 × ℤ)
  redis : Option (Dict (List Char) (I64 × ℕ))
  announced : List (MessageKey × Cells)
  now : ℕ

/-- `idempotency_key`. -/
def idempotencyKey (userId : I64) (clientId : String) : List Char :=
  "idem:".toList ++ userId.display ++ ':' :: clientId.toList

/-- The seconds for which an idempotency entry is kept. -/
def idempotencyTtl : ℕ := 86400

theorem idempotencyKey_injective {u u' : I64} {c c' : String}
    (h : idempotencyKey u c = idempotencyKey u' c') : u = u' ∧ c = c' := by
  have hsplit := congrArg (List.splitOn ':') (List.append_cancel_left
    (show "idem:".toList ++ (u.display ++ ':' :: c.toList) =
      "idem:".toList ++ (u'.display ++ ':' :: c'.toList) by
        simpa only [idempotencyKey, List.append_assoc] using h))
  rw [List.splitOn_append_cons_self_of_not_mem (colon_not_mem_display _),
    List.splitOn_append_cons_self_of_not_mem (colon_not_mem_display _)] at hsplit
  have huser : u = u' := display_injective (List.cons.inj hsplit).1
  subst huser
  rw [idempotencyKey, idempotencyKey] at h
  exact ⟨rfl, String.toList_inj.mp (List.cons.inj (List.append_cancel_left h)).2⟩

namespace SendStore

variable (st : SendStore)

/-- `check_idempotency`. -/
def checkIdempotency (userId : I64) (clientId : String) : Option I64 :=
  match st.redis.bind fun redis => redis.lookup (idempotencyKey userId clientId) with
  | some (messageId, expires) => if st.now < expires then some messageId else none
  | none => none

/-- `set_idempotency`. -/
def setIdempotency (userId : I64) (clientId : String) (messageId : I64) : SendStore :=
  { st with
    redis := st.redis.map fun redis =>
      redis.insert (idempotencyKey userId clientId) (messageId, st.now + idempotencyTtl) }

end SendStore

/-! ### A request -/

/-- The body of a request, with the attachments as they are stored. -/
structure SendMessageRequest where
  content : String
  clientId : Option String
  threadRootId : Option I64
  attachments : Option (List String)

/-- Why a request fails. -/
inductive SendError
  | status (s : Status)
  | rateLimited
  deriving DecidableEq

/-- Where a request stands in `send_message`. -/
inductive SendPhase
  | received
  /-- The request is allowed, and its `client_id` is to be looked up. -/
  | admitted
  /-- There is a message with this `client_id`. -/
  | duplicate (messageId : I64)
  /-- There is none. -/
  | fresh
  /-- The message is in the table. -/
  | written (key : MessageKey)
  /-- The bucket is in the list. -/
  | listed (key : MessageKey)
  /-- The `client_id` is recorded, as far as that has not failed. -/
  | recorded (key : MessageKey)
  | announced (key : MessageKey)
  | created (key : MessageKey)
  /-- The request has failed, or its connection was closed; perhaps with the message in the
  table. -/
  | failed (e : Option SendError) (sent : Option MessageKey)
  deriving DecidableEq

/-- A request to send a message, with what its task holds between two steps. -/
structure SendRequest where
  claims : Claims
  userType : String
  channelId : I64
  body : SendMessageRequest
  phase : SendPhase

/-- What happens to a request next. -/
inductive SendAct
  | arrive (claims : Claims) (userType : String) (channelId : I64) (body : SendMessageRequest)
  /-- What the access check and the rate limit say. -/
  | authorize (allowed within : Bool)
  /-- Its operation is carried out. -/
  | next
  /-- Its operation fails, and nothing of it is carried out. -/
  | fault
  /-- Its message is written, with the id that is drawn, in the current bucket. -/
  | insert (messageId : I64) (bucket : ℤ)
  /-- The same, but the reply of the database is lost. -/
  | insertLost (messageId : I64) (bucket : ℤ)
  /-- The connection is closed, and the handler is dropped. -/
  | drop

/-- The message that a request has put into the table. -/
def SendPhase.key? : SendPhase → Option MessageKey
  | .written key => some key
  | .listed key => some key
  | .recorded key => some key
  | .announced key => some key
  | .created key => some key
  | .failed _ sent => sent
  | _ => none

/-- The id that a successful request returns. -/
def SendPhase.answer? : SendPhase → Option I64
  | .duplicate messageId => some messageId
  | .created key => some key.messageId
  | _ => none

namespace SendRequest

variable (isAlphanumeric : Char → Bool) (r : SendRequest)

/-- The cells that `write_message` binds. -/
def bind (cells : Cells) : Cells :=
  let content := sanitizeContent (Text.trim r.body.content)
  { cells with
    authorId := some r.claims.sub.display
    authorType := some r.userType
    content := some content
    threadRootId := r.body.threadRootId
    mentions := some (parseMentions isAlphanumeric content)
    mentionGroups := some []
    mentionEveryone := some (containsText content "@everyone")
    attachments := some (r.body.attachments.getD [])
    clientId := r.body.clientId }

/-- A request has a text or an attachment. -/
def hasContent : Bool :=
  !(Text.trim r.body.content).isEmpty || !(r.body.attachments.getD []).isEmpty

end SendRequest

namespace SendStore

variable (isAlphanumeric : Char → Bool) (st : SendStore) (r : SendRequest)

/-- What the look-up of the `client_id` gives; one that fails gives nothing. -/
def lookUp : SendAct → Option I64
  | .next => r.body.clientId.bind (st.checkIdempotency r.claims.sub)
  | _ => none

/-- The row of the message, with the id that is drawn. -/
def keyOf (messageId : I64) (bucket : ℤ) : MessageKey :=
  ⟨r.claims.hubId, r.channelId, bucket, messageId⟩

/-- The `INSERT` into `messages`; a drawn id is nobody else's. -/
def insertMessage (key : MessageKey) : Option SendStore :=
  if ((st.messages key).bind Cells.authorId).isSome then none
  else some { st with messages := st.messages.upsert key (r.bind isAlphanumeric) }

/-- What the operation at which a request stands does, and where it gets. -/
def send : SendPhase → SendAct → Option (SendStore × SendPhase)
  | .received, .authorize allowed within =>
    if !allowed then some (st, .failed (some (.status .forbidden)) none)
    else if !r.hasContent then some (st, .failed (some (.status .badRequest)) none)
    else if st.redis.isSome && !within then some (st, .failed (some .rateLimited) none)
    else some (st, .admitted)
  | .admitted, .next => some (st, ((st.lookUp r .next).map SendPhase.duplicate).getD .fresh)
  | .admitted, .fault => some (st, .fresh)
  | .fresh, .insert messageId bucket =>
    (st.insertMessage isAlphanumeric r (keyOf r messageId bucket)).map
      (·, .written (keyOf r messageId bucket))
  | .fresh, .insertLost messageId bucket =>
    (st.insertMessage isAlphanumeric r (keyOf r messageId bucket)).map
      (·, .failed (some (.status .internalServerError)) (some (keyOf r messageId bucket)))
  | .fresh, .fault => some (st, .failed (some (.status .internalServerError)) none)
  | .written key, .next =>
    some ({ st with buckets := (key.hubId, key.channelId, key.bucket) :: st.buckets }, .listed key)
  | .written key, .fault =>
    some (st, .failed (some (.status .internalServerError)) (some key))
  | .listed key, .next =>
    some ((r.body.clientId.map fun clientId =>
      st.setIdempotency r.claims.sub clientId key.messageId).getD st, .recorded key)
  | .listed key, .fault => some (st, .recorded key)
  | .recorded key, .next =>
    some ({ st with announced := (key, r.bind isAlphanumeric .unset) :: st.announced },
      .announced key)
  | .recorded key, .fault => some (st, .announced key)
  | .announced key, .next => some (st, .created key)
  | .duplicate _, _ => none
  | .created _, _ => none
  | .failed _ _, _ => none
  | phase, .drop => some (st, .failed none phase.key?)
  | _, _ => none

/-- A step of a request. -/
def run : Option SendRequest → SendAct → Option (SendStore × Option SendRequest)
  | none, a =>
    match a with
    | .arrive claims userType channelId body =>
      some (st, some ⟨claims, userType, channelId, body, .received⟩)
    | _ => none
  | some r, a =>
    (st.send isAlphanumeric r r.phase a).map fun p => (p.1, some { r with phase := p.2 })

/-! ### The surroundings -/

/-- What happens besides: time passes, and messages are edited and deleted. -/
inductive Env
  | tick (d : ℕ)
  | edit (key : MessageKey) (content : String) (mentions : List String) (mentionEveryone : Bool)
    (now : Instant)
  | delete (key : MessageKey) (now : Instant)

/-- What others do to the store meanwhile. -/
def env : Env → SendStore
  | .tick d => { st with now := st.now + d }
  | .edit key content mentions mentionEveryone now =>
    { st with messages := st.messages.editMessage key content mentions [] mentionEveryone now }
  | .delete key now => { st with messages := st.messages.deleteMessage key now }

/-- The service starts with no message and no entry. -/
def Init (w : Tasks ℕ SendStore (Option SendRequest)) : Prop :=
  (∀ i, w.task i = none) ∧ w.shared.messages = (fun _ => none) ∧ w.shared.announced = [] ∧
    ∀ redis ∈ w.shared.redis, redis = ∅

/-- The service: its requests, and what they share. -/
def system : System (Tasks ℕ SendStore (Option SendRequest)) (Tasks.Act ℕ SendAct Env) :=
  Tasks.system Init (fun st _ => run isAlphanumeric st) env

end SendStore

/-! ### The first request with a `client_id` -/

/-- A row is a message of a user, with this `client_id`. -/
def Cells.IsOf (cells : Cells) (userId : I64) (clientId : String) : Prop :=
  cells.authorId = some userId.display ∧ cells.clientId = some clientId

instance (cells : Cells) (userId : I64) (clientId : String) :
    Decidable (cells.IsOf userId clientId) := inferInstanceAs (Decidable (_ ∧ _))

/-- A request is one of a user, with this `client_id`. -/
def SendRequest.Carries (r : SendRequest) (userId : I64) (clientId : String) : Prop :=
  r.claims.sub = userId ∧ r.body.clientId = some clientId

/-- A request has found nothing, and has not failed before its `INSERT`. -/
def SendPhase.Posts (phase : SendPhase) : Prop := phase = .fresh ∨ phase.key?.isSome

/-- A request posts a message of a user with this `client_id`. -/
def Posting (userId : I64) (clientId : String) (t : Option SendRequest) : Prop :=
  ∃ r ∈ t, r.Carries userId clientId ∧ r.phase.Posts

/-- **A request that finds nothing is the first**: each time a request looks its `client_id`
up and gets no id, no other request of the user with this `client_id` posts a message. -/
def SendStore.Firsts (w : Tasks ℕ SendStore (Option SendRequest)) :
    Tasks.Act ℕ SendAct SendStore.Env → Prop
  | .task i a => a = .next ∨ a = .fault → ∀ r ∈ w.task i, r.phase = .admitted →
    w.shared.lookUp r a = none → ∀ clientId ∈ r.body.clientId, ∀ j, j ≠ i →
      ¬ Posting r.claims.sub clientId (w.task j)
  | .env _ => True

/-! ### What a step does -/

/-- The id that a request has found. -/
def SendPhase.found? : SendPhase → Option I64
  | .duplicate messageId => some messageId
  | _ => none

/-- The message is not announced yet, and may be. -/
def SendPhase.Unannounced : SendPhase → Prop
  | .written _ => True
  | .listed _ => True
  | .recorded _ => True
  | _ => False

namespace SendStore

variable {isAlphanumeric : Char → Bool} {st st' : SendStore} {r : SendRequest} {a : SendAct}
  {phase : SendPhase}

/-- **What the operations of a request do.** -/
inductive Does (isAlphanumeric : Char → Bool) (st : SendStore) (r : SendRequest) :
    SendAct → SendStore → SendPhase → Prop
  /-- No message is written, recorded or announced. -/
  | keeps {a : SendAct} {st' : SendStore} {phase : SendPhase} : st'.messages = st.messages →
      st'.redis = st.redis → st'.announced = st.announced → phase.key? = r.phase.key? →
      phase ≠ .fresh → phase.found? = none →
      (phase.Unannounced → r.phase.Unannounced) → Does isAlphanumeric st r a st' phase
  | finds {clientId : String} {id : I64} : r.phase = .admitted → r.body.clientId = some clientId →
      st.checkIdempotency r.claims.sub clientId = some id →
      Does isAlphanumeric st r .next st (.duplicate id)
  | misses {a : SendAct} : a = .next ∨ a = .fault → r.phase = .admitted → st.lookUp r a = none →
      Does isAlphanumeric st r a st .fresh
  | posts {a : SendAct} {key : MessageKey} {phase : SendPhase} : r.phase = .fresh →
      (st.messages key).bind Cells.authorId = none → phase.key? = some key →
      phase.found? = none →
      Does isAlphanumeric st r a
        { st with messages := st.messages.upsert key (r.bind isAlphanumeric) } phase
  | records {clientId : String} {key : MessageKey} : r.phase = .listed key →
      r.body.clientId = some clientId →
      Does isAlphanumeric st r .next (st.setIdempotency r.claims.sub clientId key.messageId)
        (.recorded key)
  | announces {key : MessageKey} : r.phase = .recorded key →
      Does isAlphanumeric st r .next
        { st with announced := (key, r.bind isAlphanumeric .unset) :: st.announced }
        (.announced key)

theorem does_of_insert {messageId : I64} {bucket : ℤ} {p : SendPhase}
    (h : (st.insertMessage isAlphanumeric r (keyOf r messageId bucket)).map (·, p) =
      some (st', phase)) (hphase : r.phase = .fresh) (hkey : p.key? = some (keyOf r messageId bucket))
    (hp : p.found? = none) : Does isAlphanumeric st r a st' phase := by
  obtain ⟨st₁, hins, heq⟩ := Option.map_eq_some_iff.mp h
  obtain ⟨rfl, rfl⟩ := Prod.mk.inj heq
  rw [insertMessage] at hins
  split_ifs at hins with hnew
  obtain rfl := Option.some.inj hins
  exact .posts hphase (Option.not_isSome_iff_eq_none.mp hnew) hkey hp

theorem does_of_send (h : st.send isAlphanumeric r r.phase a = some (st', phase)) :
    Does isAlphanumeric st r a st' phase := by
  -- a step that only goes on
  have hkeep {p : SendPhase} (heq : some (st, p) = some (st', phase))
      (hkey : p.key? = r.phase.key?) (hfresh : p ≠ .fresh) (hdup : p.found? = none)
      (hun : p.Unannounced → r.phase.Unannounced) : Does isAlphanumeric st r a st' phase := by
    obtain ⟨rfl, rfl⟩ := Prod.mk.inj (Option.some.inj heq)
    exact .keeps rfl rfl rfl hkey hfresh hdup hun
  generalize hphase : r.phase = phase₀ at h hkeep
  cases phase₀ with
  | received =>
    cases a with
    | authorize allowed within =>
      dsimp only [send] at h
      split_ifs at h <;> exact hkeep h rfl nofun rfl id
    | drop => exact hkeep h rfl nofun rfl id
    | _ => cases h
  | admitted =>
    cases a with
    | next =>
      obtain ⟨rfl, rfl⟩ := Prod.mk.inj (Option.some.inj h)
      cases hfound : st.lookUp r .next with
      | none => exact .misses (.inl rfl) hphase hfound
      | some id =>
        obtain ⟨clientId, hclient, hid⟩ := Option.bind_eq_some_iff.mp hfound
        exact .finds hphase hclient hid
    | fault =>
      obtain ⟨rfl, rfl⟩ := Prod.mk.inj (Option.some.inj h)
      exact .misses (.inr rfl) hphase rfl
    | drop => exact hkeep h rfl nofun rfl id
    | _ => cases h
  | fresh =>
    cases a with
    | insert messageId bucket => exact does_of_insert h hphase rfl rfl
    | insertLost messageId bucket => exact does_of_insert h hphase rfl rfl
    | fault => exact hkeep h rfl nofun rfl id
    | drop => exact hkeep h rfl nofun rfl id
    | _ => cases h
  | written key =>
    cases a with
    | next =>
      obtain ⟨rfl, rfl⟩ := Prod.mk.inj (Option.some.inj h)
      refine .keeps rfl rfl rfl (by rw [hphase]; rfl) nofun rfl fun _ => ?_
      rw [hphase]
      trivial
    | fault => exact hkeep h rfl nofun rfl fun _ => trivial
    | drop => exact hkeep h rfl nofun rfl fun _ => trivial
    | _ => cases h
  | listed key =>
    cases a with
    | next =>
      obtain ⟨rfl, rfl⟩ := Prod.mk.inj (Option.some.inj h)
      cases hclient : r.body.clientId with
      | none =>
        refine .keeps rfl rfl rfl (by rw [hphase]; rfl) nofun rfl fun _ => ?_
        rw [hphase]
        trivial
      | some clientId => exact .records hphase hclient
    | fault => exact hkeep h rfl nofun rfl fun _ => trivial
    | drop => exact hkeep h rfl nofun rfl fun _ => trivial
    | _ => cases h
  | recorded key =>
    cases a with
    | next =>
      obtain ⟨rfl, rfl⟩ := Prod.mk.inj (Option.some.inj h)
      exact .announces hphase
    | fault => exact hkeep h rfl nofun rfl fun _ => trivial
    | drop => exact hkeep h rfl nofun rfl fun _ => trivial
    | _ => cases h
  | announced key =>
    cases a with
    | next => exact hkeep h rfl nofun rfl id
    | drop => exact hkeep h rfl nofun rfl id
    | _ => cases h
  | duplicate messageId => cases a <;> cases h
  | created key => cases a <;> cases h
  | failed e sent => cases a <;> cases h

end SendStore

/-! ### The invariant -/

/-- A request has put the message with this key into the table. -/
def Sends (userId : I64) (clientId : String) (key : MessageKey) (t : Option SendRequest) : Prop :=
  ∃ r ∈ t, r.Carries userId clientId ∧ r.phase.key? = some key

/-- A request has announced the message, or never will. -/
def Announced (userId : I64) (clientId : String) (key : MessageKey) (t : Option SendRequest) :
    Prop :=
  ∃ r ∈ t, r.Carries userId clientId ∧ r.phase.key? = some key ∧ ¬ r.phase.Unannounced

/-- **A `client_id` has one message**: whoever posts it is alone, and what is in the table,
recorded, found and announced for the `client_id` is what it has sent. -/
structure Once (w : Tasks ℕ SendStore (Option SendRequest)) : Prop where
  one : ∀ u c, w.AtMostOne (Posting u c)
  rows : ∀ u c key cells, w.shared.messages key = some cells → cells.IsOf u c →
    w.Somebody (Sends u c key)
  stored : ∀ u c key, w.Somebody (Sends u c key) →
    ∃ cells, w.shared.messages key = some cells ∧ cells.IsOf u c
  entries : ∀ redis ∈ w.shared.redis, ∀ k e, redis.lookup k = some e →
    ∃ u c key, k = idempotencyKey u c ∧ w.Somebody (Sends u c key) ∧ key.messageId = e.1
  found : ∀ i r, w.task i = some r → ∀ c ∈ r.body.clientId, ∀ id ∈ r.phase.found?,
    ∃ key, w.Somebody (Sends r.claims.sub c key) ∧ key.messageId = id
  announced : ∀ p ∈ w.shared.announced, ∀ u c, p.2.IsOf u c → w.Somebody (Announced u c p.1)
  once : ∀ u c, (w.shared.announced.filter fun p => decide (p.2.IsOf u c)).length ≤ 1

section Steps

variable {isAlphanumeric : Char → Bool} {w : Tasks ℕ SendStore (Option SendRequest)} {i : ℕ}
  {r : SendRequest} {st st' : SendStore} {phase : SendPhase} {a : SendAct} {u : I64} {c : String}
  {key : MessageKey} {t : Option SendRequest}

theorem Sends.posting (h : Sends u c key t) : Posting u c t := by
  obtain ⟨r, hr, hcarries, hkey⟩ := h
  exact ⟨r, hr, hcarries, .inr (by rw [hkey]; rfl)⟩

theorem Announced.sends (h : Announced u c key t) : Sends u c key t := by
  obtain ⟨r, hr, hcarries, hkey, -⟩ := h
  exact ⟨r, hr, hcarries, hkey⟩

/-- A key that is sent is that of the one who posts. -/
theorem Once.unique (h : Once w) {key' : MessageKey} (hs : w.Somebody (Sends u c key))
    (hs' : w.Somebody (Sends u c key')) : key = key' := by
  obtain ⟨i, hi⟩ := hs
  obtain ⟨j, hj⟩ := hs'
  obtain rfl := h.one u c i j hi.posting hj.posting
  obtain ⟨r, hr, -, hkey⟩ := hi
  obtain ⟨r', hr', -, hkey'⟩ := hj
  obtain rfl := Option.mem_unique hr hr'
  exact Option.some.inj (hkey.symm.trans hkey')

theorem isOf_bind {cells : Cells} : (r.bind isAlphanumeric cells).IsOf u c ↔ r.Carries u c := by
  refine and_congr ⟨fun h => ?_, fun h => ?_⟩ Iff.rfl
  · exact display_injective (Option.some.inj h)
  · rw [← h]
    rfl

open SendStore (Does)

/-- The table changes only where a request posts. -/
theorem messages_of_does (h : Does isAlphanumeric st r a st' phase) :
    (st'.messages = st.messages ∧ phase.key? = r.phase.key?) ∨
      ∃ key, (st.messages key).bind Cells.authorId = none ∧ r.phase = .fresh ∧
        phase.key? = some key ∧
        st'.messages = st.messages.upsert key (r.bind isAlphanumeric) := by
  cases h with
  | keeps hmessages _ _ hkey => exact .inl ⟨hmessages, hkey⟩
  | finds hphase => exact .inl ⟨rfl, by rw [hphase]; rfl⟩
  | misses _ hphase => exact .inl ⟨rfl, by rw [hphase]; rfl⟩
  | @posts _ key _ hphase hnew hkey => exact .inr ⟨key, hnew, hphase, hkey, rfl⟩
  | records hphase => exact .inl ⟨rfl, by rw [hphase]; rfl⟩
  | announces hphase => exact .inl ⟨rfl, by rw [hphase]; rfl⟩

/-- The entries change only where a request records its message. -/
theorem redis_of_does (h : Does isAlphanumeric st r a st' phase) :
    st'.redis = st.redis ∨ ∃ clientId key, r.body.clientId = some clientId ∧
      r.phase.key? = some key ∧
      st'.redis = (st.setIdempotency r.claims.sub clientId key.messageId).redis := by
  cases h with
  | keeps _ hredis => exact .inl hredis
  | @records clientId key hphase hclient =>
    exact .inr ⟨clientId, key, hclient, by rw [hphase]; rfl, rfl⟩
  | _ => exact .inl rfl

/-- A message is announced by the request that has sent it, which then has announced it. -/
theorem announced_of_does (h : Does isAlphanumeric st r a st' phase) :
    (st'.announced = st.announced ∧
      (phase.Unannounced → r.phase.Unannounced ∨ r.phase = .fresh)) ∨
    ∃ key, r.phase.key? = some key ∧ r.phase.Unannounced ∧ ¬ phase.Unannounced ∧
      st'.announced = (key, r.bind isAlphanumeric .unset) :: st.announced := by
  cases h with
  | keeps _ _ hannounced _ _ _ hun => exact .inl ⟨hannounced, fun h => .inl (hun h)⟩
  | finds => exact .inl ⟨rfl, False.elim⟩
  | misses => exact .inl ⟨rfl, False.elim⟩
  | posts hphase => exact .inl ⟨rfl, fun _ => .inr hphase⟩
  | records hphase =>
    refine .inl ⟨rfl, fun _ => .inl ?_⟩
    rw [hphase]
    trivial
  | @announces key hphase =>
    refine .inr ⟨key, by rw [hphase]; rfl, ?_, id, rfl⟩
    rw [hphase]
    trivial

/-- What a request has sent, it has sent after the step too. -/
theorem sends_of_does (h : Does isAlphanumeric st r a st' phase)
    (hs : Sends u c key (some r)) : Sends u c key (some { r with phase := phase }) := by
  obtain ⟨_, ⟨⟩, hcarries, hkey⟩ := hs
  rcases messages_of_does h with ⟨-, hkeep⟩ | ⟨_, -, hphase, -⟩
  · exact ⟨_, rfl, hcarries, hkeep.trans hkey⟩
  · rw [hphase] at hkey
    cases hkey

theorem announced_kept (h : Does isAlphanumeric st r a st' phase)
    (hs : Announced u c key (some r)) : Announced u c key (some { r with phase := phase }) := by
  obtain ⟨_, ⟨⟩, hcarries, hkey⟩ := sends_of_does h hs.sends
  obtain ⟨_, ⟨⟩, -, hkey₀, hdone⟩ := hs
  refine ⟨_, rfl, hcarries, hkey, fun hun => ?_⟩
  rcases announced_of_does h with ⟨-, hback⟩ | ⟨_, -, hun₀, -⟩
  · rcases hback hun with hun₀ | hfresh
    · exact hdone hun₀
    · rw [hfresh] at hkey₀
      cases hkey₀
  · exact hdone hun₀

/-- Whoever posts has found nothing. -/
theorem posts_of_does (h : Does isAlphanumeric st r a st' phase) (hposts : phase.Posts) :
    r.phase.Posts ∨
      (a = .next ∨ a = .fault) ∧ r.phase = .admitted ∧ st.lookUp r a = none := by
  rcases messages_of_does h with ⟨-, hkey⟩ | ⟨_, -, hphase, -⟩
  · cases h with
    | keeps _ _ _ _ hfresh => exact .inl (.inr (hkey ▸ hposts.resolve_left hfresh))
    | misses ha hphase hnone => exact .inr ⟨ha, hphase, hnone⟩
    | posts hphase => exact .inl (.inl hphase)
    | _ => exact .inl (.inr (hkey ▸ hposts.resolve_left nofun))
  · exact .inl (.inl hphase)

/-- What is found is in Redis. -/
theorem found_of_does (h : Does isAlphanumeric st r a st' phase) {id : I64}
    (hid : id ∈ phase.found?) : ∃ c, r.body.clientId = some c ∧
      st.checkIdempotency r.claims.sub c = some id := by
  cases h with
  | keeps _ _ _ _ _ hfound =>
    rw [hfound] at hid
    cases hid
  | @finds c _ _ hclient hcheck =>
    obtain rfl := Option.some.inj hid
    exact ⟨c, hclient, hcheck⟩
  | posts _ _ _ hfound =>
    rw [hfound] at hid
    cases hid
  | _ => cases hid

/-- An entry that is found is the id of what was sent. -/
theorem Once.found_check (h : Once w) {id : I64}
    (hid : w.shared.checkIdempotency u c = some id) :
    ∃ key, w.Somebody (Sends u c key) ∧ key.messageId = id := by
  rw [SendStore.checkIdempotency] at hid
  split at hid
  · rename_i messageId expires hentry
    split_ifs at hid
    obtain rfl := Option.some.inj hid
    obtain ⟨redis, hredis, he⟩ := Option.bind_eq_some_iff.mp hentry
    obtain ⟨u', c', key, hk, hs, hkey⟩ := h.entries redis hredis _ _ he
    obtain ⟨rfl, rfl⟩ := idempotencyKey_injective hk
    exact ⟨key, hs, hkey⟩
  · cases hid

/-- **A step of a request**, of which one that finds nothing is the first. -/
theorem Once.step (h : Once w) (hr : w.task i = some r)
    (hdoes : Does isAlphanumeric w.shared r a st' phase)
    (hfirst : a = .next ∨ a = .fault → r.phase = .admitted → w.shared.lookUp r a = none →
      ∀ c ∈ r.body.clientId, ∀ j, j ≠ i → ¬ Posting r.claims.sub c (w.task j)) :
    Once (w.set i st' (some { r with phase := phase })) := by
  have hkept {u : I64} {c : String} {key : MessageKey} (hs : w.Somebody (Sends u c key)) :
      (w.set i st' (some { r with phase := phase })).Somebody (Sends u c key) :=
    hs.set fun hi => sends_of_does hdoes (hr ▸ hi)
  refine ⟨fun u c => ?_, ?_, ?_, ?_, ?_, ?_, ?_⟩
  · by_cases hnew : Posting u c (some { r with phase := phase }) ∧ ¬ Posting u c (w.task i)
    · obtain ⟨⟨_, ⟨⟩, ⟨huser, hclient⟩, hposts⟩, hnot⟩ := hnew
      refine Tasks.AtMostOne.enter fun j => ?_
      rcases eq_or_ne j i with rfl | hne
      · exact hnot
      · rcases posts_of_does hdoes hposts with hposts₀ | ⟨ha, hphase, hnone⟩
        · exact absurd ⟨r, hr, ⟨huser, hclient⟩, hposts₀⟩ hnot
        · exact huser ▸ hfirst ha hphase hnone c hclient j hne
    · exact (h.one u c).set fun hp => by_contra fun hnot => hnew ⟨hp, hnot⟩
  · intro u c key cells hcells his
    rcases messages_of_does hdoes with ⟨hsame, -⟩ | ⟨key', -, -, hkey, hupsert⟩
    · exact hkept (h.rows u c key cells (by rw [← hsame]; exact hcells) his)
    · rw [Tasks.shared_set, hupsert] at hcells
      rcases eq_or_ne key key' with rfl | hne
      · rw [Messages.upsert, Function.update_self] at hcells
        obtain rfl := Option.some.inj hcells
        exact ⟨i, by rw [Tasks.task_set_self]; exact ⟨_, rfl, isOf_bind.mp his, hkey⟩⟩
      · rw [Messages.upsert, Function.update_of_ne hne] at hcells
        exact hkept (h.rows u c key cells hcells his)
  · intro u c key hs
    rcases messages_of_does hdoes with ⟨hsame, hkey⟩ | ⟨key', hfree, -, hkey, hupsert⟩
    · rw [Tasks.shared_set, hsame]
      refine h.stored u c key ?_
      rcases hs.of_set with ⟨_, ⟨⟩, hcarries, hsent⟩ | hs
      · exact ⟨i, r, hr, hcarries, hkey ▸ hsent⟩
      · exact hs
    · rw [Tasks.shared_set, hupsert]
      rcases hs.of_set with ⟨_, ⟨⟩, hcarries, hsent⟩ | hs
      · obtain rfl := Option.some.inj (hkey.symm.trans hsent)
        exact ⟨_, Function.update_self .., isOf_bind.mpr hcarries⟩
      · -- the row of another message is not written over
        obtain ⟨cells, hcells, his⟩ := h.stored u c key hs
        refine ⟨cells, ?_, his⟩
        rw [Messages.upsert, Function.update_of_ne, hcells]
        rintro rfl
        rw [hcells, Option.bind_some, his.1] at hfree
        cases hfree
  · intro redis hredis k e he
    rcases redis_of_does hdoes with hsame | ⟨c, key, hclient, hkey, hset⟩
    · obtain ⟨u, c, key, hk, hs, hid⟩ := h.entries redis (hsame ▸ hredis) k e he
      exact ⟨u, c, key, hk, hkept hs, hid⟩
    · rw [Tasks.shared_set, hset] at hredis
      obtain ⟨redis₀, hredis₀, rfl⟩ := Option.map_eq_some_iff.mp hredis
      rw [Dict.lookup_insert_eq] at he
      split at he
      · rename_i hk
        obtain rfl := Option.some.inj he
        exact ⟨_, c, key, hk, hkept ⟨i, r, hr, ⟨rfl, hclient⟩, hkey⟩, rfl⟩
      · obtain ⟨u, c', key', hk, hs, hid⟩ := h.entries redis₀ hredis₀ k e he
        exact ⟨u, c', key', hk, hkept hs, hid⟩
  · intro j r' hr' c hc id hid
    rcases eq_or_ne j i with rfl | hne
    · rw [Tasks.task_set_self] at hr'
      obtain rfl := Option.some.inj hr'
      obtain ⟨c', hclient, hcheck⟩ := found_of_does hdoes hid
      obtain rfl := Option.some.inj (hclient.symm.trans hc)
      obtain ⟨key, hs, hkey⟩ := h.found_check hcheck
      exact ⟨key, hkept hs, hkey⟩
    · rw [Tasks.task_set_of_ne hne] at hr'
      obtain ⟨key, hs, hkey⟩ := h.found j r' hr' c hc id hid
      exact ⟨key, hkept hs, hkey⟩
  · intro p hp u c his
    have hold (hp : p ∈ w.shared.announced) :=
      (h.announced p hp u c his).set (i := i) (s := st') fun hi => announced_kept hdoes (hr ▸ hi)
    rcases announced_of_does hdoes with ⟨hsame, -⟩ | ⟨key, hkey, -, hdone, hcons⟩
    · exact hold (hsame ▸ hp)
    · rw [Tasks.shared_set, hcons] at hp
      rcases List.mem_cons.mp hp with rfl | hp
      · have hs : Sends u c key (some r) := ⟨r, rfl, isOf_bind.mp his, hkey⟩
        obtain ⟨_, ⟨⟩, hcarries, hkey'⟩ := sends_of_does hdoes hs
        exact ⟨i, by rw [Tasks.task_set_self]; exact ⟨_, rfl, hcarries, hkey', hdone⟩⟩
      · exact hold hp
  · intro u c
    rcases announced_of_does hdoes with ⟨hsame, -⟩ | ⟨key, hkey, hun, -, hcons⟩
    · rw [Tasks.shared_set, hsame]
      exact h.once u c
    · rw [Tasks.shared_set, hcons, List.filter_cons]
      split
      · rename_i his
        -- nobody has announced a message, since this request alone has sent one
        have hnil : w.shared.announced.filter (fun p => decide (p.2.IsOf u c)) = [] := by
          refine List.filter_eq_nil_iff.mpr fun p hp hisp => ?_
          obtain ⟨j, hj⟩ := h.announced p hp u c (of_decide_eq_true hisp)
          have hi : Sends u c key (w.task i) :=
            ⟨r, hr, isOf_bind.mp (of_decide_eq_true his), hkey⟩
          obtain rfl := h.one u c j i hj.sends.posting hi.posting
          obtain ⟨r', hr', -, -, hdone⟩ := hj
          obtain rfl := Option.mem_unique hr' hr
          exact hdone hun
        rw [hnil]
        exact le_refl 1
      · exact h.once u c

/-- A request arrives. -/
theorem Once.arrive (h : Once w) (hnone : w.task i = none) (hphase : r.phase = .received) :
    Once (w.set i w.shared (some r)) := by
  have hkept {Q : Option SendRequest → Prop} (hQ : ¬ Q none) (hs : w.Somebody Q) :
      (w.set i w.shared (some r)).Somebody Q := hs.set fun hi => absurd (hnone ▸ hi) hQ
  have hnever {u : I64} {c : String} {key : MessageKey} : ¬ Sends u c key none := by
    rintro ⟨_, ⟨⟩, -⟩
  refine ⟨fun u c => (h.one u c).set ?_, ?_, ?_, ?_, ?_, ?_, h.once⟩
  · rintro ⟨_, ⟨⟩, -, hposts⟩
    rw [hphase] at hposts
    rcases hposts with ⟨⟨⟩⟩ | ⟨⟨⟩⟩
  · exact fun u c key cells hcells his => hkept hnever (h.rows u c key cells hcells his)
  · intro u c key hs
    rcases hs.of_set with ⟨_, ⟨⟩, -, hsent⟩ | hs
    · rw [hphase] at hsent
      cases hsent
    · exact h.stored u c key hs
  · intro redis hredis k e he
    obtain ⟨u, c, key, hk, hs, hid⟩ := h.entries redis hredis k e he
    exact ⟨u, c, key, hk, hkept hnever hs, hid⟩
  · intro j r' hr' c hc id hid
    rcases eq_or_ne j i with rfl | hne
    · rw [Tasks.task_set_self] at hr'
      obtain rfl := Option.some.inj hr'
      rw [hphase] at hid
      cases hid
    · rw [Tasks.task_set_of_ne hne] at hr'
      obtain ⟨key, hs, hkey⟩ := h.found j r' hr' c hc id hid
      exact ⟨key, hkept hnever hs, hkey⟩
  · exact fun p hp u c his => hkept (fun hn => hnever hn.sends) (h.announced p hp u c his)

/-- Whose message a row is, an edit and a deletion leave alone; and a row that they make is
nobody's. -/
theorem isOf_upsert {messages : Messages} {f : Cells → Cells}
    (hf : ∀ cells, (f cells).authorId = cells.authorId ∧ (f cells).clientId = cells.clientId)
    {key₀ : MessageKey} :
    (∃ cells, messages.upsert key₀ f key = some cells ∧ cells.IsOf u c) ↔
      ∃ cells, messages key = some cells ∧ cells.IsOf u c := by
  rcases eq_or_ne key key₀ with rfl | hne
  · rw [Messages.upsert, Function.update_self]
    rcases hcells : messages key with _ | cells
    · constructor
      · rintro ⟨_, ⟨⟩, his, -⟩
        rw [(hf _).1] at his
        cases his
      · rintro ⟨_, ⟨⟩, -⟩
    · simp only [Option.getD_some, Option.some.injEq, exists_eq_left', Cells.IsOf, (hf cells).1,
        (hf cells).2]
  · rw [Messages.upsert, Function.update_of_ne hne]

/-- **A step of the surroundings.** -/
theorem Once.env (h : Once w) (e : SendStore.Env) :
    Once { w with shared := w.shared.env e } := by
  have hupsert {f : Cells → Cells} (key₀ : MessageKey)
      (hf : ∀ cells, (f cells).authorId = cells.authorId ∧ (f cells).clientId = cells.clientId) :
      Once { w with shared := { w.shared with messages := w.shared.messages.upsert key₀ f } } := by
    refine ⟨h.one, ?_, ?_, h.entries, h.found, h.announced, h.once⟩
    · intro u c key cells hcells his
      obtain ⟨cells₀, hcells₀, his₀⟩ := (isOf_upsert hf).mp ⟨cells, hcells, his⟩
      exact h.rows u c key cells₀ hcells₀ his₀
    · exact fun u c key hs => (isOf_upsert hf).mpr (h.stored u c key hs)
  cases e with
  | tick d => exact ⟨h.one, h.rows, h.stored, h.entries, h.found, h.announced, h.once⟩
  | edit key content mentions mentionEveryone now => exact hupsert key fun _ => ⟨rfl, rfl⟩
  | delete key now => exact hupsert key fun _ => ⟨rfl, rfl⟩

theorem once_of_reach (hw : (SendStore.system isAlphanumeric).Reach SendStore.Firsts w) :
    Once w := by
  refine Tasks.invariant ?_ ?_ (fun w e h _ => h.env e) hw
  · rintro w ⟨hnone, hmessages, hannounced, hredis⟩
    have hnobody {Q : Option SendRequest → Prop} (hQ : ¬ Q none) : ¬ w.Somebody Q := by
      rintro ⟨i, hi⟩
      exact hQ (hnone i ▸ hi)
    refine ⟨?_, ?_, ?_, ?_, ?_, ?_, ?_⟩
    · rintro u c i j ⟨r, hr, -⟩
      rw [hnone] at hr
      cases hr
    · intro u c key cells hcells
      rw [hmessages] at hcells
      cases hcells
    · intro u c key hs
      exact absurd hs (hnobody fun ⟨_, hr, _⟩ => by cases hr)
    · intro redis hr k e he
      rw [hredis redis hr] at he
      cases he
    · intro i r hr
      rw [hnone] at hr
      cases hr
    · intro p hp
      rw [hannounced] at hp
      cases hp
    · intro u c
      rw [hannounced]
      exact Nat.zero_le 1
  · intro w i a st' t h hok hrun
    cases htask : w.task i with
    | none =>
      rw [htask] at hrun
      cases a with
      | arrive claims userType channelId body =>
        obtain ⟨rfl, rfl⟩ := Prod.mk.inj (Option.some.inj hrun)
        exact h.arrive htask rfl
      | _ => cases hrun
    | some r =>
      rw [htask] at hrun
      obtain ⟨⟨st, phase⟩, hstep, heq⟩ := Option.map_eq_some_iff.mp hrun
      obtain ⟨rfl, rfl⟩ := Prod.mk.inj heq
      exact h.step htask (SendStore.does_of_send hstep) fun ha => hok ha r htask

end Steps

/-- **A message is sent once.** In every run in which each request that finds no id for its
`client_id` is the first with it, at most one message of a user with a `client_id` is in the
table, at most one is announced, and that one is in the table; and every request that
succeeds returns its id. -/
theorem sent_once {isAlphanumeric : Char → Bool} {w : Tasks ℕ SendStore (Option SendRequest)}
    (hw : (SendStore.system isAlphanumeric).Reach SendStore.Firsts w) (userId : I64)
    (clientId : String) :
    (∀ key key' cells cells', w.shared.messages key = some cells → cells.IsOf userId clientId →
      w.shared.messages key' = some cells' → cells'.IsOf userId clientId → key = key') ∧
    (w.shared.announced.filter fun p => decide (p.2.IsOf userId clientId)).length ≤ 1 ∧
    (∀ p ∈ w.shared.announced, p.2.IsOf userId clientId →
      ∃ cells, w.shared.messages p.1 = some cells ∧ cells.IsOf userId clientId) ∧
    ∀ i r id, w.task i = some r → r.Carries userId clientId → r.phase.answer? = some id →
      ∃ key cells, w.shared.messages key = some cells ∧ cells.IsOf userId clientId ∧
        key.messageId = id := by
  have h := once_of_reach hw
  refine ⟨?_, h.once userId clientId, ?_, ?_⟩
  · intro key key' cells cells' hcells his hcells' his'
    exact h.unique (h.rows _ _ key cells hcells his) (h.rows _ _ key' cells' hcells' his')
  · intro p hp his
    obtain ⟨i, hi⟩ := h.announced p hp userId clientId his
    exact h.stored userId clientId p.1 ⟨i, hi.sends⟩
  · intro i r id hr hcarries hid
    -- it has sent the message, or found its id
    have hsent : ∃ key, w.Somebody (Sends userId clientId key) ∧ key.messageId = id := by
      cases hphase : r.phase with
      | duplicate messageId =>
        rw [hphase] at hid
        exact hcarries.1 ▸ h.found i r hr clientId hcarries.2 id (by rw [hphase]; exact hid)
      | created key =>
        rw [hphase] at hid
        exact ⟨key, ⟨i, r, hr, hcarries, by rw [hphase]; rfl⟩, Option.some.inj hid⟩
      | _ =>
        rw [hphase] at hid
        cases hid
    obtain ⟨key, hs, hkey⟩ := hsent
    obtain ⟨cells, hcells, his⟩ := h.stored userId clientId key hs
    exact ⟨key, cells, hcells, his, hkey⟩

/-! ### Runs -/

section Seed

open Hub.Seed

/-- Nothing has been sent yet. -/
def emptyStore : SendStore where
  messages := fun _ => none
  buckets := []
  redis := some ∅
  announced := []
  now := 0

/-- What comes of a run of requests from the empty store on. -/
def sendRun (as : List (Tasks.Act ℕ SendAct SendStore.Env)) :
    Tasks ℕ SendStore (Option SendRequest) :=
  as.foldl (Tasks.next (fun st _ => SendStore.run Char.isAlphanum st) SendStore.env)
    ⟨emptyStore, fun _ => none⟩

theorem init_emptyStore : SendStore.Init ⟨emptyStore, fun _ => none⟩ := by
  refine ⟨fun _ => rfl, rfl, rfl, ?_⟩
  rintro _ ⟨⟩
  rfl

/-- Bob sends a message, and his request is allowed. -/
def bobSends (i : ℕ) : List (Tasks.Act ℕ SendAct SendStore.Env) :=
  [.task i (.arrive ⟨bob, "bob", hub⟩ "permanent" general ⟨"hello", some "c", none, none⟩),
    .task i (.authorize true true)]

/-- The operations of a request from its `INSERT` on. -/
def fromInsert (i : ℕ) (messageId : I64) : List (Tasks.Act ℕ SendAct SendStore.Env) :=
  [.task i (.insert messageId 0), .task i .next, .task i .next, .task i .next, .task i .next]

/-- Bob sends his message again, after it was sent. -/
def sentAgain : List (Tasks.Act ℕ SendAct SendStore.Env) :=
  bobSends 0 ++ [.task 0 .next] ++ fromInsert 0 (i64 1) ++ bobSends 1 ++ [.task 1 .next]

/-- A step at which nothing is looked up. -/
theorem firsts_of_phase {w : Tasks ℕ SendStore (Option SendRequest)} {i : ℕ} {a : SendAct}
    (h : ((w.task i).any fun r => decide (r.phase = .admitted)) = false) :
    SendStore.Firsts w (.task i a) := by
  rintro - r hr hphase
  rw [hr, Option.any_some, hphase] at h
  cases h

theorem firsts_sentAgain : System.Accepted SendStore.Firsts
    (Tasks.next (fun st _ => SendStore.run Char.isAlphanum st) SendStore.env)
    ⟨emptyStore, fun _ => none⟩ sentAgain := by
  have hfirst : SendStore.Firsts (sendRun (bobSends 0)) (.task 0 .next) := by
    rintro - r hr - - c hc (_ | j) hne
    · exact absurd rfl hne
    · rintro ⟨_, ⟨⟩, -⟩
  have hagain : SendStore.Firsts (sendRun (sentAgain.take 10)) (.task 1 .next) := by
    rintro - r hr - hnone
    obtain rfl := Option.some.inj hr
    exact absurd hnone (by decide +kernel)
  exact ⟨firsts_of_phase rfl, firsts_of_phase rfl, hfirst, firsts_of_phase rfl,
    firsts_of_phase rfl, firsts_of_phase rfl, firsts_of_phase rfl, firsts_of_phase rfl,
    firsts_of_phase rfl, firsts_of_phase rfl, hagain, trivial⟩

theorem sent_once_again :
    ((sendRun sentAgain).task 1).bind (fun r => r.phase.answer?) = some (i64 1) ∧
    ((sendRun sentAgain).shared.announced.filter fun p => decide (p.2.IsOf bob "c")).length ≤ 1 :=
  ⟨rfl, (sent_once (Tasks.reach_foldl init_emptyStore firsts_sentAgain) bob "c").2.1⟩

/-- Bob's message is sent again before it is recorded. -/
def sentAtOnce : List (Tasks.Act ℕ SendAct SendStore.Env) :=
  bobSends 0 ++ bobSends 1 ++ [.task 0 .next, .task 1 .next] ++ fromInsert 0 (i64 1) ++
    fromInsert 1 (i64 2)

/-- Bob's first request fails after its `INSERT`. -/
def brokenOff : List (Tasks.Act ℕ SendAct SendStore.Env) :=
  bobSends 0 ++ [.task 0 .next, .task 0 (.insert (i64 1) 0), .task 0 .fault] ++ bobSends 1 ++
    [.task 1 .next] ++ fromInsert 1 (i64 2)

/-- **A message is sent twice**: by two requests that find nothing before either has
recorded its message, and by one that repeats a request which has failed after its
`INSERT`. -/
theorem sent_twice :
    (∃ w, (SendStore.system Char.isAlphanum).Reachable w ∧
      (w.shared.announced.filter fun p => decide (p.2.IsOf bob "c")).length = 2 ∧
      (w.task 0).bind (fun r => r.phase.answer?) = some (i64 1) ∧
      (w.task 1).bind (fun r => r.phase.answer?) = some (i64 2)) ∧
    ∃ w, (SendStore.system Char.isAlphanum).Reachable w ∧ ∃ key key', key ≠ key' ∧
      ((w.shared.messages key).any fun cells => decide (cells.IsOf bob "c")) = true ∧
      ((w.shared.messages key').any fun cells => decide (cells.IsOf bob "c")) = true :=
  ⟨⟨sendRun sentAtOnce, Tasks.reachable_foldl init_emptyStore _, by decide +kernel, rfl, rfl⟩,
    ⟨sendRun brokenOff, Tasks.reachable_foldl init_emptyStore _, ⟨hub, general, 0, i64 1⟩,
      ⟨hub, general, 0, i64 2⟩, by decide, by decide +kernel, by decide +kernel⟩⟩

end Seed

end Chat

end MateHub
