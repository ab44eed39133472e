import MateHub.Chat.Attachments
import MateHub.Chat.LiveContent

/-!
# The partition of a message

`write_message` reads the clock twice: the generator reads it for the id, and
`current_bucket` for the partition that the row goes to. An edit or a deletion has the id only
and computes the partition from it. The one thing to know is what time an id carries
(`MateHub.Chat.stamp`): that of the clock in units of ten milliseconds, unless the generator
is ahead of the clock.

The message is in the partition of its id if and only if this time and the second reading lie
in the same seven days (`MateHub.Chat.stored_in_bucket_iff`). A clock that passes a boundary
between the readings puts the row where no edit finds it (`MateHub.Chat.misplaced`).
-/

namespace MateHub

namespace Chat

/-! ### The generator -/

/-- The generator of the `sonyflake` crate. A draw is made at a reading of the clock, in
milliseconds since 1970, and gives an id or fails. -/
structure Sonyflake where
  State : Type
  elapsedTime : State → ℤ
  sequence : State → ℤ
  nextId : State → ℤ → Option (ℤ × State)

/-- A reading of the clock in units of ten milliseconds since the epoch of the generator. -/
def currentElapsedTime (now : ℤ) : ℤ := (now - sonyflakeEpochMs) / 10

/-- **The time and the sequence number of the next id**: those of the clock, or, where ids have
been drawn for that time or a later one, the next number of this time. After the last number the
generator goes ahead of the clock. -/
def stamp (elapsedTime sequence now : ℤ) : ℤ × ℤ :=
  if elapsedTime < currentElapsedTime now then (currentElapsedTime now, 0)
  else if (sequence + 1) % 2 ^ 8 = 0 then (elapsedTime + 1, 0)
  else (elapsedTime, (sequence + 1) % 2 ^ 8)

/-- What the crate documents: 39 bits of time, 8 bits of sequence and 16 bits of machine id. -/
structure Sonyflake.Documented (sf : Sonyflake) : Prop where
  layout : ∀ s now id s', sf.nextId s now = some (id, s') → ∃ machineId, 0 ≤ machineId ∧
    machineId < 2 ^ 16 ∧ id = sf.elapsedTime s' * 2 ^ 24 + sf.sequence s' * 2 ^ 16 + machineId
  width : ∀ s now id s', sf.nextId s now = some (id, s') →
    0 ≤ sf.elapsedTime s' ∧ sf.elapsedTime s' < 2 ^ 39
  stamped : ∀ s now id s', sf.nextId s now = some (id, s') →
    (sf.elapsedTime s', sf.sequence s') = stamp (sf.elapsedTime s) (sf.sequence s) now

/-! ### The two functions -/

namespace Snowflake

/-- The cast of an id to `i64`. -/
def castI64 (n : ℤ) : I64 := ⟨asI64 n, by unfold asI64; omega⟩

variable (sf : Sonyflake) {s s' : sf.State} {now : ℤ} {id : I64}

/-- `next_id`; where it gives none, the request panics. -/
def nextId (s : sf.State) (now : ℤ) : Option (I64 × sf.State) :=
  (sf.nextId s now).map fun p => (castI64 p.1, p.2)

/-- `current_bucket`; a clock before 1970 makes the request panic. -/
def currentBucket (now : ℤ) : Option ℤ :=
  if now < 0 then none else some (asI32 (now / 1000 / bucketIntervalSecs))

/-- The ids that the generator gives. -/
def Draws (id : I64) : Prop := ∃ s now s', nextId sf s now = some (id, s')

end Snowflake

open Snowflake

/-- The seven days of a time in milliseconds. -/
def bucketOfMs (ms : ℤ) : ℤ := ms / 1000 / bucketIntervalSecs

/-- The milliseconds that an id carries. -/
def stampedMs (elapsedTime sequence now : ℤ) : ℤ :=
  sonyflakeEpochMs + (stamp elapsedTime sequence now).1 * 10

/-- A generator that is not ahead of the clock stamps the seven days of the clock. -/
theorem bucketOfMs_stampedMs {elapsedTime sequence now : ℤ}
    (h : elapsedTime < currentElapsedTime now) :
    bucketOfMs (stampedMs elapsedTime sequence now) = bucketOfMs now := by
  rw [stampedMs, stamp, if_pos h]
  simp only [bucketOfMs, currentElapsedTime, sonyflakeEpochMs, bucketIntervalSecs]
  omega

theorem stamp_sequence_range (elapsedTime sequence now : ℤ) :
    0 ≤ (stamp elapsedTime sequence now).2 ∧ (stamp elapsedTime sequence now).2 < 2 ^ 8 := by
  unfold stamp
  split_ifs <;> dsimp only <;> omega

section Draw

variable {sf : Sonyflake} {s s' : sf.State} {now : ℤ} {id : I64}

/-- **What an id says**: it is positive, and its upper bits are the time that it was stamped
with. -/
theorem Sonyflake.Documented.nextId (hsf : sf.Documented)
    (h : Snowflake.nextId sf s now = some (id, s')) : IsSnowflake id.1 ∧
      id.1 / 2 ^ 24 = (stamp (sf.elapsedTime s) (sf.sequence s) now).1 ∧
      (stamp (sf.elapsedTime s) (sf.sequence s) now).1 < 2 ^ 39 := by
  obtain ⟨⟨id₀, s₀⟩, hdraw, hid⟩ := Option.map_eq_some_iff.mp h
  obtain ⟨rfl, rfl⟩ := Prod.mk.inj hid
  obtain ⟨machineId, hmachine, hmachine', hid₀⟩ := hsf.layout _ _ _ _ hdraw
  obtain ⟨htime, htime'⟩ := hsf.width _ _ _ _ hdraw
  have hstamp := hsf.stamped _ _ _ _ hdraw
  have hsequence := stamp_sequence_range (sf.elapsedTime s) (sf.sequence s) now
  rw [← hstamp] at hsequence ⊢
  dsimp only at hsequence htime htime' ⊢
  have hcast : (castI64 id₀).1 = id₀ := by
    dsimp only [castI64, asI64]
    omega
  rw [hcast, IsSnowflake]
  omega

/-- The partition that an edit computes is that of the time in the id. -/
theorem Sonyflake.Documented.bucketFromId_nextId (hsf : sf.Documented)
    (h : Snowflake.nextId sf s now = some (id, s')) : bucketFromId id.1 =
      bucketOfMs (stampedMs (sf.elapsedTime s) (sf.sequence s) now) := by
  obtain ⟨hid, htime, -⟩ := hsf.nextId h
  rw [bucketFromId_eq hid, htime, bucketOfMs, stampedMs]

/-- The two partitions are the same if and only if the two times lie in the same seven days, up
to the width of a bucket's number. -/
theorem Sonyflake.Documented.currentBucket_eq_iff (hsf : sf.Documented)
    (h : Snowflake.nextId sf s now = some (id, s')) {storedAt bucket : ℤ}
    (hbucket : currentBucket storedAt = some bucket) : bucket = bucketFromId id.1 ↔
      bucketOfMs storedAt % 2 ^ 32 =
        bucketOfMs (stampedMs (sf.elapsedTime s) (sf.sequence s) now) % 2 ^ 32 := by
  rw [hsf.bucketFromId_nextId h]
  obtain ⟨hid, htime, htime'⟩ := hsf.nextId h
  have hpos : 0 ≤ id.1 / 2 ^ 24 := Int.ediv_nonneg hid.1 (by decide)
  rw [currentBucket] at hbucket
  split_ifs at hbucket
  obtain rfl := Option.some_inj.mp hbucket
  rw [← bucketOfMs, asI32]
  have hsmall : 0 ≤ bucketOfMs (stampedMs (sf.elapsedTime s) (sf.sequence s) now) ∧
      bucketOfMs (stampedMs (sf.elapsedTime s) (sf.sequence s) now) < 2 ^ 31 := by
    simp only [bucketOfMs, stampedMs, sonyflakeEpochMs, bucketIntervalSecs]
    omega
  omega

end Draw

/-! ### Runs of writes -/

/-- A message that has been written: its key, the generator before, and the two readings. -/
structure Written (sf : Sonyflake) where
  key : MessageKey
  generator : sf.State
  drawnAt : ℤ
  storedAt : ℤ

/-- **The condition on a write**: the time that the id is stamped with and the second reading
lie in the same seven days, up to `2 ^ 32` weeks. -/
def Written.SameBucket {sf : Sonyflake} (w : Written sf) : Prop :=
  bucketOfMs w.storedAt % 2 ^ 32 =
    bucketOfMs (stampedMs (sf.elapsedTime w.generator) (sf.sequence w.generator) w.drawnAt) %
      2 ^ 32

/-- The instances of the service, each with its generator, on one store, and what they have
written. -/
structure WriteRun (sf : Sonyflake) where
  store : MessageStore
  generators : ℕ → sf.State
  writes : List (Written sf)

/-- A request to an instance. The clock may read anything, at every reading. -/
inductive WriteAct
  | write (pod : ℕ) (r : SendRequest) (drawnAt storedAt : ℤ) (lists : Bool)
  | edit (req : Request) (content : String)
  | delete (req : Request)

namespace WriteRun

variable {sf : Sonyflake} (isAlphanumeric : Char → Bool) (x : WriteRun sf)

/-- `write_message` draws the id, then reads the clock for the bucket. -/
def next : WriteAct → WriteRun sf
  | .write pod r drawnAt storedAt lists =>
    match Snowflake.nextId sf (x.generators pod) drawnAt with
    | none => x
    | some (messageId, generator) =>
      let generators := Function.update x.generators pod generator
      match currentBucket storedAt with
      | none => { x with generators := generators }
      | some bucket =>
        { store := x.store.next isAlphanumeric (.send r messageId bucket lists)
          generators := generators
          writes := ⟨SendStore.keyOf r messageId bucket, x.generators pod, drawnAt, storedAt⟩ ::
            x.writes }
  | .edit req content => { x with store := x.store.next isAlphanumeric (.edit req content) }
  | .delete req => { x with store := x.store.next isAlphanumeric (.delete req) }

/-- The instances start on empty tables. -/
def system (sf : Sonyflake) (isAlphanumeric : Char → Bool) : System (WriteRun sf) WriteAct where
  init := fun x => (MessageStore.system isAlphanumeric).init x.store ∧ x.writes = []
  step := fun x a x' => x' = x.next isAlphanumeric a

/-- What is recorded of a write is what happened, and its row is there. -/
def Recorded : Prop :=
  ∀ w ∈ x.writes, (x.store.chat.messages w.key).isSome = true ∧
    currentBucket w.storedAt = some w.key.bucket ∧
    ∃ generator, Snowflake.nextId sf w.generator w.drawnAt = some (w.key.messageId, generator)

end WriteRun

/-- No request removes a row. -/
theorem MessageStore.isSome_next (isAlphanumeric : Char → Bool) (st : MessageStore)
    (a : MessageStore.Act) {key : MessageKey} (h : (st.chat.messages key).isSome = true) :
    ((st.next isAlphanumeric a).chat.messages key).isSome = true := by
  have hupdate (key' : MessageKey) (cells : Cells) :
      (Function.update st.chat.messages key' (some cells) key).isSome = true := by
    rw [Function.update_apply]
    split
    · rfl
    · exact h
  cases a with
  | send r messageId bucket lists => exact hupdate _ _
  | edit req body =>
    rw [next]
    rcases editMessage_cases st.chat req body with ⟨e, he⟩ | ⟨he, -⟩
    · rw [he]
      exact h
    · rw [he]
      exact hupdate _ _
  | delete req =>
    rw [next]
    rcases deleteMessage_cases st.chat req with ⟨e, he⟩ | he
    · rw [he]
      exact h
    · rw [he]
      exact hupdate _ _

namespace WriteRun

variable {sf : Sonyflake} {isAlphanumeric : Char → Bool} {x : WriteRun sf}

theorem Recorded.next (h : x.Recorded) (a : WriteAct) : (x.next isAlphanumeric a).Recorded := by
  cases a with
  | write pod r drawnAt storedAt lists =>
    rw [WriteRun.next]
    split
    · exact h
    · rename_i messageId generator hdraw
      dsimp only
      split
      · exact h
      · rename_i bucket hbucket
        intro w hw
        rcases List.mem_cons.mp hw with rfl | hw
        · exact ⟨by simp [MessageStore.next, Messages.upsert], hbucket, generator, hdraw⟩
        · obtain ⟨hrow, hw⟩ := h w hw
          exact ⟨MessageStore.isSome_next isAlphanumeric _ _ hrow, hw⟩
  | edit req content =>
    intro w hw
    exact ⟨MessageStore.isSome_next isAlphanumeric _ _ (h w hw).1, (h w hw).2⟩
  | delete req =>
    intro w hw
    exact ⟨MessageStore.isSome_next isAlphanumeric _ _ (h w hw).1, (h w hw).2⟩

theorem recorded (hx : (system sf isAlphanumeric).Reachable x) : x.Recorded := by
  refine hx.invariant (I := Recorded) ?_ ?_
  · rintro x ⟨-, hwrites⟩ w hw
    rw [hwrites] at hw
    cases hw
  · rintro x a - h - rfl
    exact h.next a

end WriteRun

/-! ### The partition that is found -/

/-- A request about a message: it has the hub, the channel and the id. -/
def Request.Names (req : Request) (key : MessageKey) : Prop :=
  req.claims.hubId = key.hubId ∧ req.channelId = key.channelId ∧ req.messageId = key.messageId

theorem Request.key_eq_iff {req : Request} {key : MessageKey} (h : req.Names key) :
    req.key = key ↔ key.InBucket := by
  obtain ⟨hubId, channelId, bucket, messageId⟩ := key
  obtain ⟨rfl, rfl, rfl⟩ := h
  rw [Request.key, MessageKey.InBucket, MessageKey.mk.injEq]
  simp [eq_comm]

/-- **The partition of a message**: in every run of writes, edits and deletions, at whatever the
clock reads, the row of a message is in the partition of its id, and the one that every request
about it names, if and only if the two times of the write lie in the same seven days; and later
ids have later partitions. -/
theorem stored_in_bucket_iff {sf : Sonyflake} (hsf : sf.Documented) {isAlphanumeric : Char → Bool}
    {x : WriteRun sf} (hx : (WriteRun.system sf isAlphanumeric).Reachable x) :
    (∀ w ∈ x.writes, (x.store.chat.messages w.key).isSome = true ∧
      (w.key.InBucket ↔ w.SameBucket) ∧
      ∀ req : Request, req.Names w.key → (req.key = w.key ↔ w.SameBucket)) ∧
    ∀ id id' : I64, Draws sf id → Draws sf id' → id.1 ≤ id'.1 →
      bucketFromId id.1 ≤ bucketFromId id'.1 := by
  constructor
  · intro w hw
    obtain ⟨hrow, hbucket, generator, hdraw⟩ := WriteRun.recorded hx w hw
    have hiff : w.key.InBucket ↔ w.SameBucket := hsf.currentBucket_eq_iff hdraw hbucket
    exact ⟨hrow, hiff, fun req hreq => (Request.key_eq_iff hreq).trans hiff⟩
  · rintro id id' ⟨s, now, s', h⟩ ⟨t, now', t', h'⟩ hle
    exact bucketFromId_mono (hsf.nextId h).1 (hsf.nextId h').1 hle

section Seed

open Hub.Seed

/-- The generator of machine 7. -/
def machine7 : Sonyflake where
  State := ℤ × ℤ
  elapsedTime := Prod.fst
  sequence := Prod.snd
  nextId s now :=
    let s' := stamp s.1 s.2 now
    if 0 ≤ s'.1 ∧ s'.1 < 2 ^ 39 then some (s'.1 * 2 ^ 24 + s'.2 * 2 ^ 16 + 7, s') else none

theorem machine7_eq {s s' : machine7.State} {now id : ℤ}
    (h : machine7.nextId s now = some (id, s')) : s' = stamp s.1 s.2 now ∧
      id = s'.1 * 2 ^ 24 + s'.2 * 2 ^ 16 + 7 ∧ 0 ≤ s'.1 ∧ s'.1 < 2 ^ 39 := by
  dsimp only [machine7] at h
  split_ifs at h with htime
  obtain ⟨rfl, rfl⟩ := Prod.mk.inj (Option.some_inj.mp h)
  exact ⟨rfl, rfl, htime⟩

theorem machine7_documented : machine7.Documented where
  layout _ _ _ _ h := ⟨7, by decide, by decide, (machine7_eq h).2.1⟩
  width _ _ _ _ h := (machine7_eq h).2.2
  stamped _ _ _ _ h := (machine7_eq h).1

/-- The first millisecond of the partition 2331. -/
def boundary : ℤ := 2331 * 604800000

/-- Bob sends a message. The id is drawn in the last ten milliseconds of the partition 2330. -/
def aroundBoundary (storedAt : ℤ) : WriteRun machine7 :=
  WriteRun.next Char.isAlphanum ⟨emptyTables, fun _ => (0, 255), []⟩
    (.write 0 bobsHello (boundary - 1) storedAt true)

theorem reachable_aroundBoundary (storedAt : ℤ) :
    (WriteRun.system machine7 Char.isAlphanum).Reachable (aroundBoundary storedAt) :=
  .step (.start ⟨⟨rfl, rfl, rfl⟩, rfl⟩) trivial rfl

/-- What is recorded of Bob's message. -/
def bobsWrite (bucket storedAt : ℤ) : Written machine7 where
  key := ⟨hub, general, bucket, castI64 (25919999 * 2 ^ 24 + 7)⟩
  generator := (0, 255)
  drawnAt := boundary - 1
  storedAt := storedAt

theorem aroundBoundary_eq {storedAt : ℤ} (bucket : ℤ)
    (hbucket : currentBucket storedAt = some bucket) :
    aroundBoundary storedAt = {
      store := emptyTables.next Char.isAlphanum
        (.send bobsHello (bobsWrite bucket storedAt).key.messageId bucket true)
      generators := Function.update (fun _ => (0, 255)) 0 (25919999, 0)
      writes := [bobsWrite bucket storedAt] } := by
  have hdraw : Snowflake.nextId machine7 (0, 255) (boundary - 1) =
      some (castI64 (25919999 * 2 ^ 24 + 7), (25919999, 0)) := rfl
  rw [aroundBoundary, WriteRun.next, hdraw]
  dsimp only
  rw [hbucket]
  rfl

/-- The message is stored in the same millisecond. -/
theorem stored_before_boundary : (bobsWrite 2330 (boundary - 1)).key.InBucket := by
  have hmem : bobsWrite 2330 (boundary - 1) ∈ (aroundBoundary (boundary - 1)).writes := by
    rw [aroundBoundary_eq 2330 rfl]
    exact List.mem_singleton_self _
  have h := (stored_in_bucket_iff machine7_documented (reachable_aroundBoundary _)).1 _ hmem
  have hahead : (0 : ℤ) < currentElapsedTime (boundary - 1) := by decide
  exact h.2.1.mpr (congrArg (· % 2 ^ 32) (bucketOfMs_stampedMs hahead).symm)

/-- Bob edits his message. -/
def bobNames : Request :=
  { charlieNames with
    claims := ⟨bob, "bob", hub⟩
    messageId := castI64 (25919999 * 2 ^ 24 + 7) }

/-- **The clock passes the boundary between the two readings**: the row is in one partition, and
Bob's edit of the message names another, where there is no row. -/
theorem misplaced : machine7.Documented ∧ ∃ x : WriteRun machine7,
    (WriteRun.system machine7 Char.isAlphanum).Reachable x ∧
    ∃ w ∈ x.writes, w.drawnAt = boundary - 1 ∧ w.storedAt = boundary ∧ ¬ w.key.InBucket ∧
      bobNames.Names w.key ∧ x.store.chat.messages bobNames.key = none := by
  refine ⟨machine7_documented, _, reachable_aroundBoundary boundary, bobsWrite 2331 boundary, ?_⟩
  rw [aroundBoundary_eq 2331 rfl]
  refine ⟨List.mem_singleton_self _, rfl, rfl, ?_, ⟨rfl, rfl, rfl⟩, ?_⟩
  · rw [MessageKey.InBucket]
    decide
  · have hkey : bobNames.key ≠ (bobsWrite 2331 boundary).key := by decide
    exact Function.update_of_ne hkey (some (bobsHello.bind Char.isAlphanum .unset)) fun _ => none

end Seed

end Chat

end MateHub
