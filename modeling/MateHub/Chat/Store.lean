import Mathlib.Algebra.Group.Int.Defs
import Mathlib.Data.List.Nodup
import MateHub.Chat.Session

/-!
# The messages of a channel

The messages of a channel are stored in partitions, one per bucket of seven days, each in
descending order of message ids; another table lists the buckets of the channel. The
bucket of a message follows from its id, which has the time in its upper bits, and later
ids have later buckets (`MateHub.Chat.bucketFromId_mono`): read bucket after bucket,
newest first, the messages come in descending order of their ids
(`MateHub.Chat.Channel.descending_rows`).
-/

namespace MateHub

namespace Chat

/-! ### Buckets -/

/-- `SONYFLAKE_EPOCH_MS`. -/
def sonyflakeEpochMs : ℤ := 1409529600000

/-- `BUCKET_INTERVAL_SECS`. -/
def bucketIntervalSecs : ℤ := 7 * 24 * 3600

/-- The integer of a given width that has the same low bits: the casts `as u64` and
`as i32`. -/
def asU64 (n : ℤ) : ℤ := n % 2 ^ 64

/-- `as i32` of a 64-bit number. -/
def asI32 (n : ℤ) : ℤ := (n + 2 ^ 31) % 2 ^ 32 - 2 ^ 31

/-- `bucket_from_id`. -/
def bucketFromId (id : ℤ) : ℤ :=
  let time10ms := id / 2 ^ 24
  let unixMs := sonyflakeEpochMs + time10ms * 10
  let unixSecs := asU64 (unixMs.tdiv 1000)
  asI32 (unixSecs / bucketIntervalSecs)

/-- The ids that the generator makes: positive 64-bit integers. -/
def IsSnowflake (id : ℤ) : Prop := 0 ≤ id ∧ id < 2 ^ 63

/-- No cast changes the bucket of an id that the generator makes. -/
theorem bucketFromId_eq {id : ℤ} (h : IsSnowflake id) :
    bucketFromId id = (sonyflakeEpochMs + id / 2 ^ 24 * 10) / 1000 / bucketIntervalSecs := by
  obtain ⟨hpos, hlt⟩ := h
  have htime : 0 ≤ id / 2 ^ 24 ∧ id / 2 ^ 24 < 2 ^ 39 := by omega
  simp only [bucketFromId, asU64, asI32, sonyflakeEpochMs, bucketIntervalSecs]
  generalize id / 2 ^ 24 = time at htime
  rw [Int.tdiv_eq_ediv_of_nonneg (by omega)]
  omega

theorem bucketFromId_mono {id id' : ℤ} (h : IsSnowflake id) (h' : IsSnowflake id') (hle : id ≤ id') :
    bucketFromId id ≤ bucketFromId id' := by
  rw [bucketFromId_eq h, bucketFromId_eq h']
  have htime : id / 2 ^ 24 ≤ id' / 2 ^ 24 := Int.ediv_le_ediv (by decide) hle
  refine Int.ediv_le_ediv (by decide) (Int.ediv_le_ediv (by decide) ?_)
  omega

/-! ### Rows and messages -/

/-- A row of the table `messages`, as the queries of the history select it. -/
structure Row where
  hubId : ℤ
  channelId : ℤ
  bucket : ℤ
  messageId : ℤ
  authorId : String
  authorType : String
  content : String
  threadRootId : Option ℤ
  mentions : Option (List String)
  mentionGroups : Option (List String)
  mentionEveryone : Option Bool
  attachments : Option (List String)
  editedAt : Option Instant
  deletedAt : Option Instant
  clientId : Option String
  deriving DecidableEq

/-- A message; `A` is the type of attachments. -/
structure Message (A : Type) where
  hubId : ℤ
  channelId : ℤ
  messageId : ℤ
  authorId : String
  authorType : String
  content : String
  threadRootId : Option ℤ
  mentions : List String
  mentionGroups : List String
  mentionEveryone : Bool
  attachments : List A
  editedAt : Option String
  deletedAt : Option String
  clientId : Option String
  bucket : ℤ
  deriving DecidableEq

/-- The message that a row of the history becomes. -/
def Row.toMessage {A : Type} (fromStored : String → A) (r : Row) : Message A where
  hubId := r.hubId
  channelId := r.channelId
  bucket := r.bucket
  messageId := r.messageId
  authorId := r.authorId
  authorType := r.authorType
  content := r.content
  threadRootId := r.threadRootId
  mentions := r.mentions.getD []
  mentionGroups := r.mentionGroups.getD []
  mentionEveryone := r.mentionEveryone.getD false
  attachments := (r.attachments.getD []).map fromStored
  editedAt := none
  deletedAt := none
  clientId := r.clientId

/-- Rows in descending order of their ids. -/
abbrev Descending (rows : List Row) : Prop :=
  rows.Pairwise fun r r' => r'.messageId < r.messageId

theorem Descending.nodup_map {rows : List Row} (h : Descending rows) :
    (rows.map Row.messageId).Nodup :=
  (List.pairwise_map.mpr h).imp Int.ne_of_gt

/-- A list of messages can be told from the ids. -/
theorem Descending.eq_of_map_eq {rows l l' : List Row} (h : Descending rows) (hl : l ⊆ rows)
    (hl' : l' ⊆ rows) (heq : l.map Row.messageId = l'.map Row.messageId) : l = l' := by
  induction l generalizing l' with
  | nil => exact (List.map_eq_nil_iff.mp heq.symm).symm
  | cons r l ih =>
    obtain ⟨r', l', rfl, hr, htail⟩ := List.map_eq_cons_iff.mp heq.symm
    rw [List.cons_subset] at hl hl'
    rw [List.inj_on_of_nodup_map h.nodup_map hl.1 hl'.1 hr.symm, ih hl.2 hl'.2 htail.symm]

/-! ### A channel -/

/-- The stored messages of a channel, and the list of its buckets. -/
structure Channel where
  /-- The table `channel_buckets`. -/
  buckets : List ℤ
  /-- The partitions of the table `messages`. -/
  partition : ℤ → List Row
  pairwise_buckets : buckets.Pairwise fun b b' => b' < b
  descending_partition : ∀ b, Descending (partition b)
  snowflake : ∀ b, ∀ r ∈ partition b, IsSnowflake r.messageId
  bucket_eq : ∀ b, ∀ r ∈ partition b, bucketFromId r.messageId = b

namespace Channel

variable (ch : Channel)

/-- The query `select_buckets`. -/
def selectBuckets (limit : ℕ) : List ℤ := ch.buckets.take limit

/-- The query `select_history`. -/
def selectHistory (bucket : ℤ) (limit : ℕ) : List Row := (ch.partition bucket).take limit

/-- The query `select_since`. -/
def selectSince (bucket afterId : ℤ) (limit : ℕ) : List Row :=
  ((ch.partition bucket).reverse.filter fun r => afterId < r.messageId).take limit

/-- The messages of the newest buckets, newest first. -/
def rows (limit : ℕ) : List Row := (ch.selectBuckets limit).flatMap ch.partition

theorem descending_flatMap_partition {buckets : List ℤ} (h : buckets.Pairwise fun b b' => b' < b) :
    Descending (buckets.flatMap ch.partition) := by
  induction buckets with
  | nil => exact .nil
  | cons b buckets ih =>
    rw [List.pairwise_cons] at h
    rw [List.flatMap_cons]
    refine List.pairwise_append.mpr ⟨ch.descending_partition b, ih h.2, fun r hr r' hr' => ?_⟩
    obtain ⟨b', hb', hr'⟩ := List.mem_flatMap.mp hr'
    by_contra hle
    have hmono := bucketFromId_mono (ch.snowflake b r hr) (ch.snowflake b' r' hr') (Int.not_lt.mp hle)
    rw [ch.bucket_eq b r hr, ch.bucket_eq b' r' hr'] at hmono
    exact absurd (h.1 b' hb') (Int.not_lt.mpr hmono)

/-- All messages of the channel, newest first. -/
def messages : List Row := ch.buckets.flatMap ch.partition

theorem descending_messages : Descending ch.messages :=
  ch.descending_flatMap_partition ch.pairwise_buckets

/-- The whole channel lies in its newest buckets. -/
def Covered (limit : ℕ) : Prop := ∀ b, ch.partition b ≠ [] → b ∈ ch.selectBuckets limit

/-- Where the newest buckets have all messages, nothing is in the others. -/
theorem messages_eq_rows {limit : ℕ} (h : ch.Covered limit) : ch.messages = ch.rows limit := by
  have hnodup : ch.buckets.Nodup := ch.pairwise_buckets.imp fun hlt => Int.ne_of_gt hlt
  rw [← List.take_append_drop limit ch.buckets, List.nodup_append] at hnodup
  have hrest : (ch.buckets.drop limit).flatMap ch.partition = [] := by
    rw [List.flatMap_eq_nil_iff]
    intro b hb
    by_contra hne
    exact hnodup.2.2 b (h b hne) b hb rfl
  rw [messages, rows, selectBuckets]
  conv_lhs => rw [← List.take_append_drop limit ch.buckets, List.flatMap_append, hrest,
    List.append_nil]

end Channel

end Chat

end MateHub
