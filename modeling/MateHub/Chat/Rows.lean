import MateHub.Chat.Send
import MateHub.Chat.Sync

/-!
# The rows of the table of messages

A row of the table `messages` is made by an `INSERT` of a message, and by any `UPDATE` that
names a key without a row. An edit or a deletion names the key that follows from the id that
its caller gives, so it may leave a row without an author. The readers of the history decode
rows that have one, and fail at the first that has not, so one such row makes every read of
its bucket fail (`MateHub.Chat.row_without_author`).

In the runs in which an edit or a deletion that gets as far as its statement names a row that
is there (`MateHub.Chat.MessageStore.NamesWritten`), every row is a message that was sent, and
every read decodes (`MateHub.Chat.rows_of_reach`).
-/

namespace MateHub

namespace Chat

/-! ### Reading with errors -/

/-- A row as the tuple that the readers expect, if it has the cells of one. -/
def Cells.decode (key : MessageKey) (cells : Cells) : Option Row := do
  let authorId ← cells.authorId
  let authorType ← cells.authorType
  let content ← cells.content
  return {
    hubId := key.hubId.1
    channelId := key.channelId.1
    bucket := key.bucket
    messageId := key.messageId.1
    authorId := .ofList authorId
    authorType := authorType
    content := content
    threadRootId := cells.threadRootId.map Subtype.val
    mentions := cells.mentions
    mentionGroups := cells.mentionGroups
    mentionEveryone := cells.mentionEveryone
    attachments := cells.attachments
    editedAt := cells.editedAt
    deletedAt := cells.deletedAt
    clientId := cells.clientId }

/-- The tables that the service keeps its messages in, and for each key the request whose
message was written under it, if there was one. -/
structure MessageStore where
  chat : ChatState
  /-- The table `channel_buckets`. -/
  buckets : List (I64 × I64 × ℤ)
  written : MessageKey → Option SendRequest

/-- A channel as the queries see it: its buckets, and the rows of each in descending order of
their ids. -/
structure RawChannel (messages : Messages) (listed : List (I64 × I64 × ℤ))
    (hubId channelId : I64) where
  buckets : List ℤ
  partition : ℤ → List (MessageKey × Cells)
  pairwise_buckets : buckets.Pairwise fun b b' => b' < b
  mem_buckets : ∀ b, b ∈ buckets ↔ (hubId, channelId, b) ∈ listed
  descending : ∀ b, (partition b).Pairwise fun p q => q.1.messageId.1 < p.1.messageId.1
  mem_partition : ∀ b key cells, (key, cells) ∈ partition b ↔
    key.hubId = hubId ∧ key.channelId = channelId ∧ key.bucket = b ∧ messages key = some cells

namespace RawChannel

variable {A : Type} (fromStored : String → A) {messages : Messages}
  {listed : List (I64 × I64 × ℤ)} {hubId channelId : I64}
  (ch : RawChannel messages listed hubId channelId)

/-- The rows of a query, decoded one after another: the first that does not decode is an
error. -/
def decodeRows (rows : List (MessageKey × Cells)) : Option (List Row) :=
  rows.mapM fun p => p.2.decode p.1

/-- The loop of `read_history` over the buckets. -/
def readBuckets (limit : ℕ) (beforeId : Option ℤ) :
    List ℤ → List (Message A) → Option (List (Message A))
  | [], messages => some messages
  | bucket :: buckets, messages =>
    if limit ≤ messages.length then some messages
    else do
      let rows ← decodeRows ((ch.partition bucket).take (need beforeId (limit - messages.length)))
      readBuckets limit beforeId buckets
        (messages ++ (rows.filter (keeps beforeId)).map (Row.toMessage fromStored))

/-- `read_history`, where the database answers. -/
def readHistory (limit : ℕ) (beforeId : Option ℤ) : Option (List (Message A)) :=
  let buckets := ch.buckets.take historyBuckets
  if buckets.isEmpty then some []
  else (ch.readBuckets fromStored limit beforeId buckets []).map (List.take limit)

/-- The loop of `read_since` over the buckets. -/
def readBucketsSince (afterId : ℤ) : List ℤ → List (Message A) → Option (List (Message A))
  | [], messages => some messages
  | bucket :: buckets, messages =>
    if messages.length > syncLimit then some messages
    else do
      let rows ← decodeRows (((ch.partition bucket).reverse.filter fun p =>
        decide (afterId < p.1.messageId.1)).take (syncLimit + 1))
      readBucketsSince afterId buckets
        (messages ++ (rows.filter fun r => r.deletedAt.isNone).map (Row.toMessage fromStored))

/-- `read_since`, where the database answers. -/
def readSince (afterId : ℤ) : Option (List (Message A) × Bool) := do
  let buckets := (ch.buckets.take syncBuckets).mergeSort fun b b' => decide (b ≤ b')
  let messages ← ch.readBucketsSince fromStored afterId buckets []
  let limited := decide (messages.length > syncLimit)
  if limited then return (messages.drop (messages.length - syncLimitedReturn), limited)
  else return (messages, limited)

/-- All rows of the channel decode. -/
def Decodes : Prop := ∀ b, ∀ p ∈ ch.partition b, (p.2.decode p.1).isSome = true

variable {fromStored ch}

theorem decodeRows_isSome {rows : List (MessageKey × Cells)}
    (h : ∀ p ∈ rows, (p.2.decode p.1).isSome = true) : (decodeRows rows).isSome = true := by
  induction rows with
  | nil => rfl
  | cons p rows ih =>
    obtain ⟨hp, hrows⟩ := List.forall_mem_cons.mp h
    obtain ⟨r, hr⟩ := Option.isSome_iff_exists.mp hp
    obtain ⟨rs, hrs⟩ := Option.isSome_iff_exists.mp (ih hrows)
    rw [decodeRows] at hrs
    rw [decodeRows, List.mapM_cons, hr, hrs]
    rfl

/-- What is read of a part of a partition decodes. -/
theorem Decodes.decodeRows (h : ch.Decodes) {b : ℤ} {rows : List (MessageKey × Cells)}
    (hrows : rows ⊆ ch.partition b) : ∃ rs, RawChannel.decodeRows rows = some rs :=
  Option.isSome_iff_exists.mp (decodeRows_isSome fun p hp => h b p (hrows hp))

theorem Decodes.readBuckets_isSome (h : ch.Decodes) (limit : ℕ) (beforeId : Option ℤ)
    (buckets : List ℤ) (messages : List (Message A)) :
    (ch.readBuckets fromStored limit beforeId buckets messages).isSome = true := by
  induction buckets generalizing messages with
  | nil => rfl
  | cons b buckets ih =>
    rw [readBuckets]
    split
    · rfl
    · obtain ⟨rs, hrs⟩ := h.decodeRows
        (List.take_subset (need beforeId (limit - messages.length)) (ch.partition b))
      rw [hrs]
      exact ih _

theorem Decodes.readBucketsSince_isSome (h : ch.Decodes) (afterId : ℤ) (buckets : List ℤ)
    (messages : List (Message A)) :
    (ch.readBucketsSince fromStored afterId buckets messages).isSome = true := by
  induction buckets generalizing messages with
  | nil => rfl
  | cons b buckets ih =>
    rw [readBucketsSince]
    split
    · rfl
    · have hsub : (((ch.partition b).reverse.filter fun p =>
          decide (afterId < p.1.messageId.1)).take (syncLimit + 1)) ⊆ ch.partition b := fun p hp =>
        List.mem_reverse.mp (List.mem_of_mem_filter (List.mem_of_mem_take hp))
      obtain ⟨rs, hrs⟩ := h.decodeRows hsub
      rw [hrs]
      exact ih _

/-- **Reads go through** where all rows decode. -/
theorem Decodes.reads (h : ch.Decodes) (limit : ℕ) (beforeId : Option ℤ) (afterId : ℤ) :
    (ch.readHistory fromStored limit beforeId).isSome = true ∧
      (ch.readSince fromStored afterId).isSome = true := by
  constructor
  · rw [readHistory]
    split
    · rfl
    · rw [Option.isSome_map]
      exact h.readBuckets_isSome _ _ _ _
  · have hread : (ch.readBucketsSince fromStored afterId ((ch.buckets.take syncBuckets).mergeSort
        fun b b' => decide (b ≤ b')) []).isSome = true := h.readBucketsSince_isSome afterId _ _
    obtain ⟨messages, hread⟩ := Option.isSome_iff_exists.mp hread
    rw [readSince, hread]
    dsimp only [Option.bind_eq_bind, Option.bind_some]
    split <;> rfl

end RawChannel

/-! ### The writers -/

namespace MessageStore

/-- The statements that write `messages`. -/
inductive Act
  /-- `write_message`, with the id that is drawn and the current bucket; the second statement
  may fail. -/
  | send (r : SendRequest) (messageId : I64) (bucket : ℤ) (lists : Bool)
  | edit (req : Request) (content : String)
  | delete (req : Request)

variable (isAlphanumeric : Char → Bool) (st : MessageStore)

/-- The effect of a request. -/
def next : Act → MessageStore
  | .send r messageId bucket lists =>
    let key := SendStore.keyOf r messageId bucket
    { chat := { st.chat with messages := st.chat.messages.upsert key (r.bind isAlphanumeric) }
      buckets := if lists then (key.hubId, key.channelId, bucket) :: st.buckets else st.buckets
      written := Function.update st.written key (some r) }
  | .edit req content => { st with chat := (editMessage st.chat req content).2 }
  | .delete req => { st with chat := (deleteMessage st.chat req).2 }

/-- The service starts with empty tables. -/
def system : System MessageStore Act where
  init := fun st => st.chat.messages = (fun _ => none) ∧ st.buckets = [] ∧
    st.written = fun _ => none
  step := fun st a st' => st' = st.next isAlphanumeric a

/-- **The condition on a request**: an edit or a deletion that gets as far as its statement
names a row. -/
def NamesWritten : Act → Prop
  | .send _ _ _ _ => True
  | .edit req content => req.allowed = true → (Text.trim content).isEmpty = false →
      req.executes = true → (st.chat.messages req.key).isSome = true
  | .delete req => req.allowed = true → req.executes = true →
      (st.chat.messages req.key).isSome = true

/-- **Every row is a message that was sent**: it has the author and the `client_id` of the
request that was written under its key, and a text. -/
def RowsReal : Prop :=
  ∀ key cells, st.chat.messages key = some cells → ∃ r, st.written key = some r ∧
    cells.authorId = some r.claims.sub.display ∧ cells.authorType = some r.userType ∧
    cells.clientId = r.body.clientId ∧ cells.content.isSome = true

variable {isAlphanumeric st} {key : MessageKey}

/-- One row that is there gets another text, and keeps its author and its `client_id`. -/
theorem RowsReal.rewrite (h : st.RowsReal) {chat : ChatState}
    (hkey : (st.chat.messages key).isSome = true)
    (hrow : ∃ cells, chat.messages key = some cells ∧
      cells.authorId = ((st.chat.messages key).getD .unset).authorId ∧
      cells.authorType = ((st.chat.messages key).getD .unset).authorType ∧
      cells.clientId = ((st.chat.messages key).getD .unset).clientId ∧
      cells.content.isSome = true)
    (hother : ∀ key', key' ≠ key → chat.messages key' = st.chat.messages key') :
    RowsReal { st with chat := chat } := by
  intro key' cells hcells
  by_cases hkey' : key' = key
  · subst hkey'
    obtain ⟨old, hold⟩ := Option.isSome_iff_exists.mp hkey
    obtain ⟨r, hr, hauthor, htype, hclient, -⟩ := h key' old hold
    obtain ⟨cells', hcells', hauthor', htype', hclient', hcontent'⟩ := hrow
    rw [hold, Option.getD_some] at hauthor' htype' hclient'
    obtain rfl : cells' = cells := Option.some_inj.mp (hcells'.symm.trans hcells)
    exact ⟨r, hr, hauthor'.trans hauthor, htype'.trans htype, hclient'.trans hclient, hcontent'⟩
  · exact h key' cells (hother key' hkey' ▸ hcells)

theorem RowsReal.edit (h : st.RowsReal) {req : Request} {content : String}
    (hok : st.NamesWritten (.edit req content)) :
    (st.next isAlphanumeric (.edit req content)).RowsReal := by
  dsimp only [next, editMessage]
  split
  · exact h
  · split
    · exact h
    · split
      · exact h
      · rename_i hallowed hempty hexecutes
        rw [Bool.not_eq_true, Bool.not_eq_false'] at hallowed hexecutes
        rw [sanitizeContent_isEmpty, Bool.not_eq_true] at hempty
        exact h.rewrite (hok hallowed hempty hexecutes)
          ⟨_, Function.update_self .., rfl, rfl, rfl, rfl⟩
          fun key' hne => Function.update_of_ne hne _ _

theorem RowsReal.delete (h : st.RowsReal) {req : Request}
    (hok : st.NamesWritten (.delete req)) :
    (st.next isAlphanumeric (.delete req)).RowsReal := by
  dsimp only [next, deleteMessage]
  split
  · exact h
  · split
    · exact h
    · rename_i hallowed hexecutes
      rw [Bool.not_eq_true, Bool.not_eq_false'] at hallowed hexecutes
      exact h.rewrite (hok hallowed hexecutes)
        ⟨_, Function.update_self .., rfl, rfl, rfl, rfl⟩
        fun key' hne => Function.update_of_ne hne _ _

theorem RowsReal.send (h : st.RowsReal) {r : SendRequest} {messageId : I64} {bucket : ℤ}
    {lists : Bool} : (st.next isAlphanumeric (.send r messageId bucket lists)).RowsReal := by
  intro key cells hrow
  dsimp only [next, Messages.upsert] at hrow ⊢
  by_cases hkey : key = SendStore.keyOf r messageId bucket
  · subst hkey
    rw [Function.update_self, Option.some_inj] at hrow
    subst hrow
    exact ⟨r, Function.update_self .., rfl, rfl, rfl, rfl⟩
  · rw [Function.update_of_ne hkey] at hrow ⊢
    exact h key cells hrow

theorem RowsReal.next (h : st.RowsReal) {a : Act} (hok : st.NamesWritten a) :
    (st.next isAlphanumeric a).RowsReal := by
  cases a with
  | send r messageId bucket lists => exact h.send
  | edit req content => exact h.edit hok
  | delete req => exact h.delete hok

/-- Rows that are messages decode. -/
theorem RowsReal.decodes (h : st.RowsReal) {listed : List (I64 × I64 × ℤ)}
    {hubId channelId : I64} (ch : RawChannel st.chat.messages listed hubId channelId) :
    ch.Decodes := by
  rintro b ⟨key, cells⟩ hp
  obtain ⟨-, -, -, hrow⟩ := (ch.mem_partition b key cells).mp hp
  obtain ⟨r, -, hauthor, htype, -, hcontent⟩ := h key cells hrow
  obtain ⟨content, hcontent⟩ := Option.isSome_iff_exists.mp hcontent
  simp [Cells.decode, hauthor, htype, hcontent]

end MessageStore

open MessageStore

/-- **Every stored row is a real message**, in the runs in which edits and deletions name rows
that are there; and every read of every channel decodes. -/
theorem rows_of_reach (isAlphanumeric : Char → Bool) {A : Type} (fromStored : String → A)
    {st : MessageStore} (hst : (system isAlphanumeric).Reach NamesWritten st) :
    st.RowsReal ∧ ∀ (hubId channelId : I64)
      (ch : RawChannel st.chat.messages st.buckets hubId channelId) (limit : ℕ)
      (beforeId : Option ℤ) (afterId : ℤ),
      (ch.readHistory fromStored limit beforeId).isSome = true ∧
        (ch.readSince fromStored afterId).isSome = true := by
  have hreal : st.RowsReal := by
    refine hst.invariant (I := RowsReal) ?_ ?_
    · rintro st ⟨hmessages, -, -⟩ key cells hrow
      rw [hmessages] at hrow
      cases hrow
    · rintro st a st' h hok rfl
      exact h.next hok
  exact ⟨hreal, fun hubId channelId ch limit beforeId afterId =>
    (hreal.decodes ch).reads limit beforeId afterId⟩

section Seed

open Hub.Seed

/-- No row has been written. -/
def emptyTables : MessageStore where
  chat := ⟨fun _ => none, []⟩
  buckets := []
  written := fun _ => none

/-- Bob sends a message. -/
def bobsHello : SendRequest where
  claims := ⟨bob, "bob", hub⟩
  userType := "human"
  channelId := general
  body := ⟨"hello", none, none, none⟩
  phase := .admitted

/-- Charlie names a message that nobody has sent. -/
def charlieGuesses : Request := { charlieNames with messageId := i64 2 }

/-- Bob's message, and Charlie's edit. -/
def guessed : List MessageStore.Act :=
  [.send bobsHello (i64 1) 2330 true, .edit charlieGuesses "bye"]

/-- The tables after both. -/
def guessedStore : MessageStore := guessed.foldl (MessageStore.next Char.isAlphanum) emptyTables

/-- The cells that the edit has made. -/
def guessedCells : Cells := { Cells.unset with
  content := some "bye"
  editedAt := some 7
  mentions := some []
  mentionGroups := some []
  mentionEveryone := some false }

theorem guessedStore_messages : guessedStore.chat.messages =
    Function.update (Function.update (fun _ => none) charlieNames.key
      (some (bobsHello.bind Char.isAlphanum .unset))) charlieGuesses.key (some guessedCells) := by
  have hedit : ∀ st, (editMessage st charlieGuesses "bye").2 =
      st.afterEdit charlieGuesses "bye" "bye" := fun st => by
    have hallowed : charlieGuesses.allowed = true := by decide
    have hbye : sanitizeContent (Text.trim "bye") = "bye" := by decide
    rw [editMessage, hallowed, hbye]
    rfl
  funext key
  rw [guessedStore, guessed, List.foldl_cons, List.foldl_cons, List.foldl_nil]
  dsimp only [MessageStore.next]
  rw [hedit]
  rfl

/-- The rows of the channel. -/
def guessedRows : List (MessageKey × Cells) :=
  [(charlieGuesses.key, guessedCells), (charlieNames.key, bobsHello.bind Char.isAlphanum .unset)]

theorem pairwise_listed : ([2330] : List ℤ).Pairwise fun b b' => b' < b :=
  List.pairwise_singleton _ _

/-- The channel of those tables. -/
def guessedChannel : RawChannel guessedStore.chat.messages guessedStore.buckets hub general where
  buckets := [2330]
  partition := fun b => if b = 2330 then guessedRows else []
  pairwise_buckets := pairwise_listed
  mem_buckets := by
    intro b
    have hlisted : guessedStore.buckets = [(hub, general, 2330)] := rfl
    simp [hlisted]
  descending := by
    intro b
    split
    · decide
    · exact List.Pairwise.nil
  mem_partition := by
    intro b key cells
    rw [guessedStore_messages]
    constructor
    · intro hp
      split at hp
      · rename_i hb
        subst hb
        rcases List.mem_cons.mp hp with heq | hp
        · obtain ⟨rfl, rfl⟩ := Prod.mk.inj heq
          exact ⟨rfl, rfl, rfl, Function.update_self ..⟩
        · obtain ⟨rfl, rfl⟩ := Prod.mk.inj (List.mem_singleton.mp hp)
          refine ⟨rfl, rfl, rfl, ?_⟩
          rw [Function.update_of_ne (by decide), Function.update_self]
      · exact absurd hp List.not_mem_nil
    · rintro ⟨-, -, rfl, hcells⟩
      by_cases hguess : key = charlieGuesses.key
      · subst hguess
        rw [Function.update_self, Option.some_inj] at hcells
        subst hcells
        exact List.mem_cons_self
      · rw [Function.update_of_ne hguess] at hcells
        by_cases hnames : key = charlieNames.key
        · subst hnames
          rw [Function.update_self, Option.some_inj] at hcells
          subst hcells
          exact List.mem_cons_of_mem _ List.mem_cons_self
        · rw [Function.update_of_ne hnames] at hcells
          cases hcells

/-- **An edit of a message that was never sent** makes a row without an author, and the
history of the channel cannot be read any more. -/
theorem row_without_author :
    (system Char.isAlphanum).Reachable guessedStore ∧
      (guessedStore.chat.messages charlieGuesses.key).bind Cells.authorId = none ∧
      (guessedStore.chat.messages charlieGuesses.key).isSome = true ∧
      guessedStore.written charlieGuesses.key = none ∧
      guessedChannel.readHistory id 50 none = none ∧ guessedChannel.readSince id 0 = none := by
  have hstart : (system Char.isAlphanum).Reachable emptyTables := .start ⟨rfl, rfl, rfl⟩
  have hguessed : System.Accepted (fun _ _ => True) (MessageStore.next Char.isAlphanum)
      emptyTables guessed := System.accepted_true _ _ _
  refine ⟨hstart.foldl (fun _ _ => rfl) hguessed, ?_, ?_, ?_, ?_, ?_⟩
  · rw [guessedStore_messages, Function.update_self]
    rfl
  · rw [guessedStore_messages, Function.update_self]
    rfl
  · decide
  · rfl
  · have hbuckets : (guessedChannel.buckets.take syncBuckets).mergeSort
        (fun b b' => decide (b ≤ b')) = [2330] := List.mergeSort_singleton _
    rw [RawChannel.readSince, hbuckets]
    rfl

/-- Bob's message, and his edit of it. -/
def reworded : List MessageStore.Act :=
  [.send bobsHello (i64 1) 2330 true,
    .edit { charlieNames with claims := ⟨bob, "bob", hub⟩ } "bye"]

theorem rows_reworded :
    RowsReal (reworded.foldl (MessageStore.next Char.isAlphanum) emptyTables) := by
  have hok : System.Accepted NamesWritten (MessageStore.next Char.isAlphanum) emptyTables
      reworded := ⟨trivial, fun _ _ _ => rfl, trivial⟩
  have hstart : (system Char.isAlphanum).Reach NamesWritten emptyTables := .start ⟨rfl, rfl, rfl⟩
  exact (rows_of_reach Char.isAlphanum id (hstart.foldl (fun _ _ => rfl) hok)).1

end Seed

end Chat

end MateHub
