import MateHub.Chat.Store
import MateHub.Lib.Paging

/-!
# Reading the history of a channel

`read_history` goes through the newest buckets of a channel, asks each for some of its
newest messages, and drops those at or after the cursor and those that are deleted. It
asks for as many as are missing, or for three times as many if there is a cursor, so what
it drops may be all that it gets: it returns the right page exactly if every bucket's
messages, as far as it asks for them, hold as many good ones as are missing, or all of
its good ones (`MateHub.Chat.readHistory_exact_iff`). Asking for page after page then
gives all messages.
-/

namespace MateHub

namespace Chat

variable {A : Type} (fromStored : String → A) (ch : Channel)

/-! ### The code -/

/-- The filters of `read_history`: below the cursor, and not deleted. -/
def keeps (beforeId : Option ℤ) (r : Row) : Bool :=
  (match beforeId with
    | some before => decide (r.messageId < before)
    | none => true) && r.deletedAt.isNone

/-- How many rows are asked for. -/
def need (beforeId : Option ℤ) (baseNeed : ℕ) : ℕ :=
  if beforeId.isSome then min (baseNeed * 3) 300 else min baseNeed 100

/-- The loop of `read_history` over the buckets. -/
def readBuckets (limit : ℕ) (beforeId : Option ℤ) : List ℤ → List (Message A) → List (Message A)
  | [], messages => messages
  | bucket :: buckets, messages =>
    if limit ≤ messages.length then messages
    else
      let rows := ch.selectHistory bucket (need beforeId (limit - messages.length))
      readBuckets limit beforeId buckets
        (messages ++ (rows.filter (keeps beforeId)).map (Row.toMessage fromStored))

/-- The number of buckets that `read_history` looks at. -/
def historyBuckets : ℕ := 10

/-- `read_history`: from the newest buckets, the newest messages that are not deleted. -/
def readHistory (limit : ℕ) (beforeId : Option ℤ) : List (Message A) :=
  let buckets := ch.selectBuckets historyBuckets
  if buckets.isEmpty then []
  else (readBuckets fromStored ch limit beforeId buckets []).take limit

/-- The query of the history endpoint. -/
structure HistoryQuery where
  limit : ℤ
  before : Option ℤ

/-- `limit.clamp(1, 100)`. -/
def clampLimit (limit : ℤ) : ℕ := (max 1 (min limit 100)).toNat

/-- `get_history`: the status of the error, or the page. -/
def getHistory (allowed : Bool) (query : HistoryQuery) : Except ℕ (List (Message A)) :=
  if !allowed then .error 403
  else .ok (readHistory fromStored ch (clampLimit query.limit) query.before)

/-! ### What is to be read -/

/-- The messages that a cursor leaves: those below it that are not deleted, newest first. -/
def live (beforeId : Option ℤ) : List Row := ch.messages.filter (keeps beforeId)

/-- The page: the first messages of those. -/
def page (limit : ℕ) (beforeId : Option ℤ) : List (Message A) :=
  ((live ch beforeId).take limit).map (Row.toMessage fromStored)

/-- **The windows of the buckets suffice**: of every bucket, as long as the newer ones have
not enough good messages, the rows asked for have as many good messages as are missing, or
all good messages of the bucket. -/
def WindowsSuffice (limit : ℕ) (beforeId : Option ℤ) : Prop :=
  Paging.Suffices (keeps beforeId) (need beforeId) limit
    ((ch.selectBuckets historyBuckets).map ch.partition)

instance (limit : ℕ) (beforeId : Option ℤ) : Decidable (WindowsSuffice ch limit beforeId) :=
  Paging.Suffices.decidable _ _ _ _

/-- All pages, one after the other; the next cursor is the smallest id of a page. -/
def paginate (limit : ℕ) : ℕ → Option ℤ → List (Message A)
  | 0, _ => []
  | fuel + 1, beforeId =>
    let messages := readHistory fromStored ch limit beforeId
    match (messages.map Message.messageId).min? with
    | none => []
    | some smallest => messages ++ paginate limit fuel (some smallest)

variable {fromStored ch} {limit : ℕ} {beforeId : Option ℤ}

/-! ### One page -/

/-- The loop reads the partitions through windows. -/
theorem readBuckets_eq_collect (buckets : List ℤ) (rows : List Row) :
    readBuckets fromStored ch limit beforeId buckets (rows.map (Row.toMessage fromStored)) =
      (Paging.collect (keeps beforeId) (need beforeId) limit (buckets.map ch.partition) rows).map
        (Row.toMessage fromStored) := by
  induction buckets generalizing rows with
  | nil => rfl
  | cons bucket buckets ih =>
    rw [readBuckets, List.map_cons, Paging.collect, List.length_map]
    split
    · rfl
    · rw [← ih, List.map_append]
      rfl

theorem readHistory_eq_collect : readHistory fromStored ch limit beforeId =
    ((Paging.collect (keeps beforeId) (need beforeId) limit
      ((ch.selectBuckets historyBuckets).map ch.partition) []).take limit).map
        (Row.toMessage fromStored) := by
  rw [readHistory]
  split
  · rename_i hempty
    rw [List.isEmpty_iff.mp hempty]
    simp [Paging.collect]
  · rw [List.map_take, ← readBuckets_eq_collect]
    rfl

/-- **A page is right exactly if the windows suffice.** -/
theorem readHistory_eq_page_iff (hcov : ch.Covered historyBuckets) :
    readHistory fromStored ch limit beforeId = page fromStored ch limit beforeId ↔
      WindowsSuffice ch limit beforeId := by
  have hdesc := ch.descending_messages
  have hrows : ch.messages = ((ch.selectBuckets historyBuckets).map ch.partition).flatten := by
    rw [ch.messages_eq_rows hcov, Channel.rows, List.flatMap_def]
  have hnodup := hrows ▸ hdesc.nodup_map.of_map
  have hiff : (Paging.collect (keeps beforeId) (need beforeId) limit
      ((ch.selectBuckets historyBuckets).map ch.partition) []).take limit = _ ↔
        WindowsSuffice ch limit beforeId := Paging.take_collect_iff hnodup
  rw [← hiff, readHistory_eq_collect, page, live, List.nil_append, ← hrows]
  refine ⟨fun heq => ?_, fun heq => by rw [heq]⟩
  -- messages tell their rows apart, by the ids
  have hids := congrArg (List.map Message.messageId) heq
  rw [List.map_map, List.map_map] at hids
  refine hdesc.eq_of_map_eq (fun r hr => ?_) (fun r hr => ?_) hids
  · obtain hno | hmem := Paging.mem_of_mem_collect (List.mem_of_mem_take hr)
    · cases hno
    · rwa [hrows]
  · exact List.mem_of_mem_filter (List.mem_of_mem_take hr)

/-! ### Page after page -/

/-- The last message of a list has the smallest id. -/
theorem min?_ids {rows : List Row} {r : Row} (h : Descending (rows ++ [r])) :
    (((rows ++ [r]).map (Row.toMessage fromStored)).map Message.messageId).min? =
      some r.messageId := by
  rw [List.min?_eq_some_iff, List.map_map]
  refine ⟨List.mem_map.mpr ⟨r, by simp, rfl⟩, fun id hid => ?_⟩
  obtain ⟨r', hr', rfl⟩ := List.mem_map.mp hid
  obtain hr' | hr' := List.mem_append.mp hr'
  · exact Int.le_of_lt ((List.pairwise_append.mp h).2.2 r' hr' r (by simp))
  · rw [List.mem_singleton.mp hr']
    exact Int.le_refl _

/-- The next cursor leaves what comes after the page. -/
theorem live_next {rows rest : List Row} {r : Row}
    (h : live ch beforeId = (rows ++ [r]) ++ rest) : live ch (some r.messageId) = rest := by
  have hdesc : Descending (live ch beforeId) := ch.descending_messages.sublist List.filter_sublist
  have hr : keeps beforeId r = true :=
    (List.mem_filter.mp (h ▸ by simp : r ∈ live ch beforeId)).2
  have hfilter : live ch (some r.messageId) =
      (live ch beforeId).filter fun r' => decide (r'.messageId < r.messageId) := by
    rw [live, live, List.filter_filter]
    refine List.filter_congr fun r' _ => ?_
    cases beforeId with
    | none => simp [keeps]
    | some before =>
      have hlt : r.messageId < before := by
        rw [keeps, Bool.and_eq_true, decide_eq_true_iff] at hr
        exact hr.1
      have himp : r'.messageId < r.messageId → r'.messageId < before := fun h => Int.lt_trans h hlt
      by_cases hlt' : r'.messageId < r.messageId
      · simp [keeps, hlt', himp hlt']
      · simp [keeps, hlt']
  rw [hfilter, h, List.filter_append]
  rw [h] at hdesc
  obtain ⟨hpage, -, hafter⟩ := List.pairwise_append.mp hdesc
  have hnone : (rows ++ [r]).filter (fun r' => decide (r'.messageId < r.messageId)) = [] := by
    rw [List.filter_eq_nil_iff]
    intro r' hr' hlt
    obtain hr' | hr' := List.mem_append.mp hr'
    · have := (List.pairwise_append.mp hpage).2.2 r' hr' r (by simp)
      have := of_decide_eq_true hlt
      omega
    · rw [List.mem_singleton.mp hr'] at hlt
      exact absurd (of_decide_eq_true hlt) (Int.lt_irrefl _)
  have hall : rest.filter (fun r' => decide (r'.messageId < r.messageId)) = rest :=
    List.filter_eq_self.mpr fun r' hr' => decide_eq_true (hafter r (by simp) r' hr')
  rw [hnone, hall, List.nil_append]

/-- Right pages give all messages. -/
theorem paginate_eq (hlimit : 1 ≤ limit)
    (hpage : ∀ beforeId, readHistory fromStored ch limit beforeId = page fromStored ch limit beforeId)
    (fuel : ℕ) (beforeId : Option ℤ) (hfuel : (live ch beforeId).length < fuel) :
    paginate fromStored ch limit fuel beforeId =
      (live ch beforeId).map (Row.toMessage fromStored) := by
  induction fuel generalizing beforeId with
  | zero => exact absurd hfuel (Nat.not_lt_zero _)
  | succ fuel ih =>
    rw [paginate, hpage beforeId, page]
    rcases hsplit : (live ch beforeId).take limit with _ | ⟨r₀, rows₀⟩
    · have hnil : live ch beforeId = [] := by
        rw [List.take_eq_nil_iff] at hsplit
        exact hsplit.resolve_left (by omega)
      rw [hnil]
      rfl
    · -- the last message of the page is the next cursor
      obtain ⟨rows, r, hlast⟩ :=
        (List.eq_nil_or_concat' (r₀ :: rows₀)).resolve_left (List.cons_ne_nil r₀ rows₀)
      have hlive : live ch beforeId = (rows ++ [r]) ++ (live ch beforeId).drop limit := by
        rw [← hlast, ← hsplit, List.take_append_drop]
      have hdesc : Descending (rows ++ [r]) := by
        rw [← hlast, ← hsplit]
        exact (ch.descending_messages.sublist List.filter_sublist).sublist (List.take_sublist _ _)
      have hnext := live_next hlive
      rw [hlast, min?_ids hdesc]
      dsimp only
      rw [ih (some r.messageId) ?_, hnext, ← List.map_append, ← hlive]
      rw [hnext, List.length_drop]
      have : live ch beforeId ≠ [] := by
        intro hnil
        rw [hnil] at hsplit
        simp at hsplit
      have := List.length_pos_iff.mpr this
      omega

/-- A channel of one bucket, with messages that are deleted or not. -/
def smallChannel (rows : List Row) (hdesc : Descending rows)
    (hids : ∀ r ∈ rows, IsSnowflake r.messageId ∧ bucketFromId r.messageId = 2330) : Channel where
  buckets := [2330]
  partition b := if b = 2330 then rows else []
  pairwise_buckets := List.pairwise_singleton _ _
  descending_partition b := by
    split
    · exact hdesc
    · exact .nil
  snowflake b r hr := by
    split at hr
    · exact (hids r hr).1
    · cases hr
  bucket_eq b r hr := by
    split at hr
    · rename_i hb
      rw [hb, (hids r hr).2]
    · cases hr

/-- A row with an id of seconds; only the columns that are read differ. -/
def smallRow (id : ℤ) (deletedAt : Option Instant) : Row :=
  ⟨1, 2, 2330, id, "7", "user", "text", none, none, none, none, none, none, deletedAt, none⟩

/-- Four messages, none of them deleted. -/
def fourMessages : Channel :=
  smallChannel [smallRow 4 none, smallRow 3 none, smallRow 2 none, smallRow 1 none] (by decide)
    (by simp [smallRow, IsSnowflake]; decide)

theorem fourMessages_covered {limit : ℕ} (h : 1 ≤ limit) : fourMessages.Covered limit := by
  intro b hb
  by_cases hne : b = 2330
  · obtain ⟨n, rfl⟩ := Nat.exists_eq_add_of_le' h
    rw [hne]
    exact List.mem_cons_self
  · exact absurd (if_neg hne) hb

/-- The first id of the bucket 2331. -/
def firstOf2331 : ℤ := 434865438720000

/-- A channel of two buckets, each of which has a deleted message. -/
def twoBuckets : Channel where
  buckets := [2331, 2330]
  partition b :=
    if b = 2331 then
      [{ smallRow (firstOf2331 + 1) (some 9) with bucket := 2331 },
        { smallRow firstOf2331 none with bucket := 2331 }]
    else if b = 2330 then [smallRow 3 none, smallRow 2 (some 9), smallRow 1 none]
    else []
  pairwise_buckets := by decide
  descending_partition b := by split_ifs <;> decide
  snowflake b := by
    split_ifs
    · simp [smallRow, IsSnowflake, firstOf2331]
    · simp [smallRow, IsSnowflake]
    · exact fun r hr => absurd hr List.not_mem_nil
  bucket_eq b := by
    split_ifs with hnew hold
    · rw [hnew]
      decide
    · rw [hold]
      decide
    · exact fun r hr => absurd hr List.not_mem_nil

theorem twoBuckets_covered : twoBuckets.Covered historyBuckets := by
  intro b hb
  by_cases hnew : b = 2331
  · rw [hnew]
    decide
  · by_cases hold : b = 2330
    · rw [hold]
      decide
    · exact absurd ((if_neg hnew).trans (if_neg hold)) hb

/-- With pages of two messages, the windows suffice for every cursor. -/
theorem twoBuckets_suffices (beforeId : Option ℤ) : WindowsSuffice twoBuckets 2 beforeId := by
  cases beforeId with
  | none => decide
  | some before =>
    refine Paging.suffices_of_length_le (fun p hp k hk => ?_) 2
    have hneed : need (some before) k = min (k * 3) 300 := rfl
    have hlength : p.length ≤ 3 := by
      revert p
      decide
    rw [hneed]
    omega

end Chat

end MateHub
