import MateHub.Chat.Rows

/-!
# The text of a message, live and reloaded

Whoever follows a channel gets the text of a message with the event that announces it, and
with every event that announces an edit; whoever reloads gets it from `read_history`. A message
is announced as it is stored. An edit is stored after `sanitize_content` has cut its runs of
newlines, and announced as it came, so the two texts differ exactly if the last edit has three
newlines in a row (`MateHub.Chat.live_agrees_iff`). Runs are those in which a message is stored
in the bucket of its id, as the later edits take for granted.
-/

namespace MateHub

namespace Chat

/-! ### What `sanitize_content` changes -/

/-- Three newlines in a row. -/
def Crowded (s : String) : Prop := ['\n', '\n', '\n'] <:+: s.toList

instance (s : String) : Decidable (Crowded s) := inferInstanceAs (Decidable (_ <:+: _))

theorem length_sanitizeChars_le (n : ℕ) (cs : List Char) :
    (sanitizeChars n cs).length ≤ cs.length := by
  induction cs generalizing n with
  | nil => exact le_rfl
  | cons c cs ih =>
    rw [sanitizeChars]
    split_ifs
    · exact Nat.succ_le_succ (ih _)
    · exact (ih _).trans (Nat.le_succ _)
    · exact Nat.succ_le_succ (ih _)

/-- Another character ends the run of newlines before it. -/
theorem infix_skip {c : Char} (hc : c ≠ '\n') (cs : List Char) {n : ℕ} (hn : n ≤ 2) :
    ['\n', '\n', '\n'] <:+: List.replicate n '\n' ++ c :: cs ↔ ['\n', '\n', '\n'] <:+: cs := by
  have hne : ¬ '\n' = c := fun h => hc h.symm
  induction n with
  | zero => simp [List.infix_cons_iff, List.cons_prefix_cons, hne]
  | succ n ih =>
    have hno : ¬ ['\n', '\n', '\n'] <+: '\n' :: (List.replicate n '\n' ++ c :: cs) := by
      -- at most one newline is left before the other character
      rcases n with _ | _ | n
      · simp [List.cons_prefix_cons, hne]
      · simp [List.replicate_succ, List.cons_prefix_cons, hne]
      · omega
    rw [List.replicate_succ, List.cons_append]
    exact (List.infix_cons_iff.trans (or_iff_right hno)).trans (ih (by omega))

/-- The induction goes over the characters, with the newlines that came before. -/
theorem sanitizeChars_eq_iff {n : ℕ} (hn : n ≤ 2) (cs : List Char) :
    sanitizeChars n cs = cs ↔ ¬ ['\n', '\n', '\n'] <:+: List.replicate n '\n' ++ cs := by
  induction cs generalizing n with
  | nil =>
    refine iff_of_true rfl fun h => ?_
    have hlen := h.length_le
    simp at hlen
    omega
  | cons c cs ih =>
    rw [sanitizeChars]
    by_cases hc : c = '\n'
    · subst hc
      rw [if_pos rfl]
      have hshift : List.replicate n '\n' ++ '\n' :: cs = List.replicate (n + 1) '\n' ++ cs := by
        rw [List.replicate_succ', List.append_assoc]
        rfl
      split_ifs with hlt
      · rw [hshift, ← ih hlt, List.cons_inj_right]
      · -- the third newline is dropped
        obtain rfl : n = 2 := by omega
        refine iff_of_false (fun h => ?_) (not_not_intro ⟨[], cs, rfl⟩)
        have hlen := length_sanitizeChars_le (2 + 1) cs
        rw [h, List.length_cons] at hlen
        omega
    · rw [if_neg hc, List.cons_inj_right, ih (Nat.zero_le 2), List.replicate_zero, List.nil_append,
        not_iff_not]
      exact (infix_skip hc cs hn).symm

/-- **The sanitiser changes the texts with three newlines in a row**, and no others. -/
theorem sanitizeContent_eq_iff (s : String) : sanitizeContent s = s ↔ ¬ Crowded s := by
  have hiff := sanitizeChars_eq_iff (Nat.zero_le 2) s.toList
  rw [List.replicate_zero, List.nil_append] at hiff
  rw [Crowded, ← hiff, sanitizeContent]
  constructor
  · intro h
    have hlist := congrArg String.toList h
    rwa [String.toList_ofList] at hlist
  · intro h
    rw [h, String.ofList_toList]

/-! ### What a page holds -/

namespace RawChannel

variable {A : Type} {fromStored : String → A} {messages : Messages}
  {listed : List (I64 × I64 × ℤ)} {hubId channelId : I64}
  {ch : RawChannel messages listed hubId channelId}

/-- A message is read from a row that is not deleted, and has its text. -/
def ReadFrom (messages : Messages) (hubId channelId : I64) (m : Message A) : Prop :=
  ∃ key cells, key.hubId = hubId ∧ key.channelId = channelId ∧ messages key = some cells ∧
    m.messageId = key.messageId.1 ∧ cells.deletedAt = none ∧ cells.content = some m.content

theorem mem_decodeRows {rows : List (MessageKey × Cells)} {rs : List Row}
    (hrs : decodeRows rows = some rs) {r : Row} (hr : r ∈ rs) :
    ∃ p ∈ rows, p.2.decode p.1 = some r := by
  induction rows generalizing rs with
  | nil =>
    obtain rfl := Option.some_inj.mp hrs
    cases hr
  | cons p rows ih =>
    rw [decodeRows, List.mapM_cons] at hrs
    obtain ⟨r₀, hr₀, hrs⟩ := Option.bind_eq_some_iff.mp hrs
    obtain ⟨rs₀, hrs₀, hrs⟩ := Option.bind_eq_some_iff.mp hrs
    obtain rfl := Option.some_inj.mp hrs
    rcases List.mem_cons.mp hr with rfl | hr
    · exact ⟨p, List.mem_cons_self, hr₀⟩
    · obtain ⟨p', hp', hdecode⟩ := ih hrs₀ hr
      exact ⟨p', List.mem_cons_of_mem _ hp', hdecode⟩

theorem readFrom_decodeRows {b : ℤ} {rows : List (MessageKey × Cells)}
    (hrows : rows ⊆ ch.partition b) {rs : List Row} (hrs : decodeRows rows = some rs)
    {beforeId : Option ℤ} {m : Message A}
    (hm : m ∈ (rs.filter (keeps beforeId)).map (Row.toMessage fromStored)) :
    ReadFrom messages hubId channelId m := by
  obtain ⟨r, hr, rfl⟩ := List.mem_map.mp hm
  obtain ⟨hr, hkeeps⟩ := List.mem_filter.mp hr
  obtain ⟨⟨key, cells⟩, hp, hdecode⟩ := mem_decodeRows hrs hr
  obtain ⟨hhub, hchannel, -, hcells⟩ := (ch.mem_partition b key cells).mp (hrows hp)
  simp only [Cells.decode, Option.bind_eq_bind, Option.bind_eq_some_iff, Option.pure_def,
    Option.some_inj] at hdecode
  obtain ⟨authorId, -, authorType, -, content, hcontent, rfl⟩ := hdecode
  have hlive := (Bool.and_eq_true_iff.mp hkeeps).2
  exact ⟨key, cells, hhub, hchannel, hcells, rfl, Option.isNone_iff_eq_none.mp hlive, hcontent⟩

theorem readFrom_readBuckets {limit : ℕ} {beforeId : Option ℤ} {buckets : List ℤ}
    {messages' page : List (Message A)}
    (hread : ch.readBuckets fromStored limit beforeId buckets messages' = some page)
    (hmessages : ∀ m ∈ messages', ReadFrom messages hubId channelId m) :
    ∀ m ∈ page, ReadFrom messages hubId channelId m := by
  induction buckets generalizing messages' with
  | nil =>
    obtain rfl := Option.some_inj.mp hread
    exact hmessages
  | cons b buckets ih =>
    rw [readBuckets] at hread
    split at hread
    · obtain rfl := Option.some_inj.mp hread
      exact hmessages
    · obtain ⟨rs, hrs, hread⟩ := Option.bind_eq_some_iff.mp hread
      refine ih hread fun m hm => ?_
      rcases List.mem_append.mp hm with hm | hm
      · exact hmessages m hm
      · exact readFrom_decodeRows (List.take_subset _ _) hrs hm

theorem readFrom_readHistory {limit : ℕ} {beforeId : Option ℤ} {page : List (Message A)}
    (hread : ch.readHistory fromStored limit beforeId = some page) {m : Message A} (hm : m ∈ page) :
    ReadFrom messages hubId channelId m := by
  rw [readHistory] at hread
  split at hread
  · obtain rfl := Option.some_inj.mp hread
    cases hm
  · obtain ⟨all, hall, rfl⟩ := Option.map_eq_some_iff.mp hread
    refine readFrom_readBuckets hall (fun m' hm' => ?_) m (List.mem_of_mem_take hm)
    cases hm'

end RawChannel

/-! ### The live feed -/

/-- A message as the events name it: hub, channel and id. -/
abbrev LiveId := I64 × I64 × I64

/-- What a client knows a message by. -/
def MessageKey.liveId (key : MessageKey) : LiveId := (key.hubId, key.channelId, key.messageId)

/-- A row in the bucket of its id. -/
def MessageKey.InBucket (key : MessageKey) : Prop := key.bucket = bucketFromId key.messageId.1

theorem MessageKey.eq_of_liveId {key key' : MessageKey} (h : key.InBucket) (h' : key'.InBucket)
    (heq : key.liveId = key'.liveId) : key = key' := by
  obtain ⟨hub, channel, bucket, id⟩ := key
  obtain ⟨hub', channel', bucket', id'⟩ := key'
  obtain ⟨rfl, rfl, rfl⟩ : hub = hub' ∧ channel = channel' ∧ id = id' := by
    simpa [liveId] using heq
  rw [show bucket = bucket' from Eq.trans h (Eq.symm h')]

/-- A live event about the text of a message: that it is there, or that it has been edited by a
request with this body. -/
inductive LiveEvent
  | created (content : String)
  | updated (body : String)
  deriving DecidableEq

namespace LiveEvent

/-- The text that subscribers receive. -/
def content : LiveEvent → String
  | .created content => content
  | .updated body => Text.trim body

/-- The text that is stored. -/
def stored : LiveEvent → String
  | .created content => content
  | .updated body => sanitizeContent (Text.trim body)

/-- **The two texts are one** exactly if no edit with three newlines in a row was announced. -/
theorem content_eq_stored_iff (e : LiveEvent) :
    e.content = e.stored ↔ ∀ body, e = .updated body → ¬ Crowded (Text.trim body) := by
  cases e with
  | created content => exact iff_of_true rfl nofun
  | updated body =>
    constructor
    · rintro h _ ⟨⟩
      exact (sanitizeContent_eq_iff _).mp h.symm
    · exact fun h => ((sanitizeContent_eq_iff _).mpr (h body rfl)).symm

end LiveEvent

/-- An edit is turned down, or carried out and announced with the text as it came. -/
theorem editMessage_cases (st : ChatState) (req : Request) (body : String) :
    (∃ e, editMessage st req body = (.error e, st)) ∨
      editMessage st req body =
        (.ok (), st.afterEdit req body (LiveEvent.updated body).stored) ∧
      (st.afterEdit req body (LiveEvent.updated body).stored).published = st.published ++
        [(Kind.messageUpdate.publish req.claims.hubId req.channelId,
          .edited req.messageId req.channelId (LiveEvent.updated body).content)] := by
  unfold editMessage
  dsimp only
  split_ifs
  · exact .inl ⟨_, rfl⟩
  · exact .inl ⟨_, rfl⟩
  · exact .inl ⟨_, rfl⟩
  · exact .inr ⟨rfl, rfl⟩

theorem deleteMessage_cases (st : ChatState) (req : Request) :
    (∃ e, deleteMessage st req = (.error e, st)) ∨
      deleteMessage st req = (.ok (), st.afterDelete req) := by
  unfold deleteMessage
  split_ifs
  · exact .inl ⟨_, rfl⟩
  · exact .inl ⟨_, rfl⟩
  · exact .inr rfl

/-- The stored messages, and what has been announced about their texts, latest first. -/
structure LiveRun where
  store : MessageStore
  feed : List (LiveId × LiveEvent)

namespace LiveRun

open MessageStore (Act)

variable (isAlphanumeric : Char → Bool) (x : LiveRun)

/-- What a request announces: a message is announced when both its statements have been carried
out, with the text that it was written with. -/
def announces : Act → List (LiveId × LiveEvent)
  | .send r messageId bucket lists =>
    if lists then
      [((SendStore.keyOf r messageId bucket).liveId,
        .created (sanitizeContent (Text.trim r.body.content)))]
    else []
  | .edit req body =>
    match (editMessage x.store.chat req body).1 with
    | .ok () => [(req.key.liveId, .updated body)]
    | .error _ => []
  | .delete _ => []

/-- The store and the feed after an act. -/
def next (a : Act) : LiveRun where
  store := x.store.next isAlphanumeric a
  feed := x.announces a ++ x.feed

/-- A drawn id is nobody else's. -/
def Drawn : Act → Prop
  | .send r messageId bucket _ => x.store.written (SendStore.keyOf r messageId bucket) = none
  | _ => True

/-- **The condition on a message**: it is stored in the bucket of its id. -/
def StoresInBucket (_ : LiveRun) : Act → Prop
  | .send r messageId bucket _ => (SendStore.keyOf r messageId bucket).InBucket
  | _ => True

/-- The last event about a message. -/
def last (id : LiveId) : Option LiveEvent := (x.feed.find? fun e => e.1 = id).map Prod.snd

/-- The service, with the events that it announces. -/
def system : System LiveRun Act where
  init := fun x => (MessageStore.system isAlphanumeric).init x.store ∧ x.feed = []
  step := fun x a x' => x.Drawn a ∧ x' = x.next isAlphanumeric a

/-- The row of a message holds the text that the last event about it says is stored. -/
structure Stored : Prop where
  inBucket : ∀ key cells, x.store.chat.messages key = some cells → key.InBucket
  written : ∀ key c, key.InBucket → (key.liveId, .created c) ∈ x.feed →
    (x.store.written key).isSome
  text : ∀ key c, key.InBucket → (key.liveId, .created c) ∈ x.feed → ∃ cells e,
    x.store.chat.messages key = some cells ∧ x.last key.liveId = some e ∧
    (cells.deletedAt = none → cells.content = some e.stored)

variable {isAlphanumeric x} {key : MessageKey} {id : LiveId} {e : LiveEvent}

theorem last_cons (store : MessageStore) (feed : List (LiveId × LiveEvent)) (id' : LiveId) :
    last ⟨store, (id, e) :: feed⟩ id' = if id' = id then some e else last ⟨store, feed⟩ id' := by
  by_cases h : id' = id
  · subst h
    simp [last]
  · have h' : ¬ id = id' := fun heq => h heq.symm
    simp [last, h, h']

/-- A message is sent. -/
theorem Stored.send (h : x.Stored) {r : SendRequest} {messageId : I64} {bucket : ℤ}
    {lists : Bool} (hdrawn : x.Drawn (.send r messageId bucket lists))
    (hok : x.StoresInBucket (.send r messageId bucket lists)) :
    (x.next isAlphanumeric (.send r messageId bucket lists)).Stored := by
  set key₀ := SendStore.keyOf r messageId bucket with hkey₀
  have hbucket : key₀.InBucket := hok
  have hrow : ∀ key, (x.next isAlphanumeric (.send r messageId bucket lists)).store.chat.messages
      key = if key = key₀ then
          some (r.bind isAlphanumeric ((x.store.chat.messages key₀).getD .unset))
        else x.store.chat.messages key := fun key => Function.update_apply ..
  have hwritten : ∀ key, (x.next isAlphanumeric (.send r messageId bucket lists)).store.written
      key = if key = key₀ then some r else x.store.written key := fun key =>
    Function.update_apply ..
  -- no event says yet that the message is there
  have hnew : ∀ key c, key.InBucket → (key.liveId, .created c) ∈ x.feed → key ≠ key₀ := by
    rintro key c hin hmem rfl
    have hsome := h.written _ c hin hmem
    rw [show x.store.written key₀ = none from hdrawn] at hsome
    cases hsome
  refine ⟨fun key cells hcells => ?_, fun key c hin hmem => ?_, fun key c hin hmem => ?_⟩
  · rw [hrow] at hcells
    split_ifs at hcells with heq
    · rw [heq]
      exact hbucket
    · exact h.inBucket key cells hcells
  · rw [hwritten]
    split_ifs with heq
    · rfl
    · cases lists with
      | false => exact h.written key c hin hmem
      | true =>
        rcases List.mem_cons.mp hmem with hfirst | hmem
        · exact absurd (MessageKey.eq_of_liveId hin hbucket (Prod.mk.inj hfirst).1) heq
        · exact h.written key c hin hmem
  · rw [hrow]
    cases lists with
    | false =>
      have hne := hnew key c hin hmem
      rw [if_neg hne]
      exact h.text key c hin hmem
    | true =>
      have hlast : (x.next isAlphanumeric (.send r messageId bucket true)).last key.liveId =
          if key.liveId = key₀.liveId then
            some (.created (sanitizeContent (Text.trim r.body.content)))
          else x.last key.liveId := last_cons _ _ _
      rw [hlast]
      by_cases heq : key = key₀
      · rw [if_pos heq, heq, if_pos rfl]
        exact ⟨_, _, rfl, rfl, fun _ => rfl⟩
      · have hid : key.liveId ≠ key₀.liveId := fun hid =>
          heq (MessageKey.eq_of_liveId hin hbucket hid)
        rw [if_neg heq, if_neg hid]
        rcases List.mem_cons.mp hmem with hfirst | hmem
        · exact absurd (Prod.mk.inj hfirst).1 hid
        · exact h.text key c hin hmem

/-- One row is written, and the last event about it may be another. -/
theorem Stored.rewrite (h : x.Stored) {chat : ChatState} (key : MessageKey) (hin₀ : key.InBucket)
    {feed : List (LiveId × LiveEvent)} {cells₀ : Cells}
    (hmessages : chat.messages = Function.update x.store.chat.messages key (some cells₀))
    (hfeed : ∀ id c, (id, .created c) ∈ feed → (id, .created c) ∈ x.feed)
    (hlast : ∀ id, id ≠ key.liveId → last ⟨{ x.store with chat := chat }, feed⟩ id = x.last id)
    (htext : ∀ e, x.last key.liveId = some e → ∃ e',
      last ⟨{ x.store with chat := chat }, feed⟩ key.liveId = some e' ∧
        (cells₀.deletedAt = none → cells₀.content = some e'.stored)) :
    Stored ⟨{ x.store with chat := chat }, feed⟩ := by
  refine ⟨fun key' cells hcells => ?_, fun key' c hin hmem => ?_, fun key' c hin hmem => ?_⟩
  · dsimp only at hcells
    rw [hmessages, Function.update_apply] at hcells
    split_ifs at hcells with heq
    · rw [heq]
      exact hin₀
    · exact h.inBucket key' cells hcells
  · exact h.written key' c hin (hfeed _ _ hmem)
  · obtain ⟨cells, e, hcells, he, hstored⟩ := h.text key' c hin (hfeed _ _ hmem)
    dsimp only
    rw [hmessages, Function.update_apply]
    by_cases heq : key' = key
    · subst heq
      obtain ⟨e', he', hstored'⟩ := htext e he
      exact ⟨cells₀, e', if_pos rfl, he', hstored'⟩
    · rw [if_neg heq, hlast _ fun hid => heq (MessageKey.eq_of_liveId hin hin₀ hid)]
      exact ⟨cells, e, hcells, he, hstored⟩

theorem Stored.edit (h : x.Stored) (req : Request) (body : String) :
    (x.next isAlphanumeric (.edit req body)).Stored := by
  rcases editMessage_cases x.store.chat req body with ⟨e, he⟩ | ⟨hok, -⟩
  · have hsame : x.next isAlphanumeric (.edit req body) = x := by
      rw [next, announces, MessageStore.next, he]
      rfl
    rwa [hsame]
  · have hnext : x.next isAlphanumeric (.edit req body) =
        ⟨{ x.store with chat := x.store.chat.afterEdit req body (LiveEvent.updated body).stored },
          (req.key.liveId, .updated body) :: x.feed⟩ := by
      rw [next, announces, MessageStore.next, hok]
      rfl
    rw [hnext]
    refine h.rewrite req.key rfl rfl (fun id c hmem => ?_) (fun id hne => ?_) fun e _ => ?_
    · exact (List.mem_cons.mp hmem).resolve_left (by simp)
    · exact (last_cons _ _ _).trans (if_neg hne)
    · exact ⟨.updated body, (last_cons _ _ _).trans (if_pos rfl), fun _ => rfl⟩

theorem Stored.delete (h : x.Stored) (req : Request) :
    (x.next isAlphanumeric (.delete req)).Stored := by
  rcases deleteMessage_cases x.store.chat req with ⟨e, he⟩ | hok
  · have hsame : x.next isAlphanumeric (.delete req) = x := by
      rw [next, announces, MessageStore.next, he]
      rfl
    rwa [hsame]
  · have hnext : x.next isAlphanumeric (.delete req) =
        ⟨{ x.store with chat := x.store.chat.afterDelete req }, x.feed⟩ := by
      rw [next, announces, MessageStore.next, hok]
      rfl
    rw [hnext]
    -- a deleted row is not read, whatever its text
    exact h.rewrite req.key rfl rfl (fun _ _ hmem => hmem) (fun _ _ => rfl)
      fun e he => ⟨e, he, by simp⟩

/-- **The run lemma.** -/
theorem stored (hx : (system isAlphanumeric).Reach StoresInBucket x) : x.Stored := by
  refine hx.invariant ?_ ?_
  · rintro x ⟨⟨hmessages, -, -⟩, hfeed⟩
    refine ⟨fun key cells hcells => ?_, fun key c _ hmem => ?_, fun key c _ hmem => ?_⟩
    · rw [hmessages] at hcells
      cases hcells
    · rw [hfeed] at hmem
      cases hmem
    · rw [hfeed] at hmem
      cases hmem
  · rintro x a x' h hok ⟨hdrawn, rfl⟩
    cases a with
    | send r messageId bucket lists => exact h.send hdrawn hok
    | edit req body => exact h.edit req body
    | delete req => exact h.delete req

end LiveRun

/-- A channel of one message. -/
def RawChannel.ofRow {messages : Messages} {listed : List (I64 × I64 × ℤ)} {key : MessageKey}
    {cells : Cells} (hmessages : messages = Function.update (fun _ => none) key (some cells))
    (hlisted : listed = [(key.hubId, key.channelId, key.bucket)]) :
    RawChannel messages listed key.hubId key.channelId where
  buckets := [key.bucket]
  partition b := if b = key.bucket then [(key, cells)] else []
  pairwise_buckets := List.pairwise_singleton _ _
  mem_buckets b := by simp [hlisted]
  descending b := by split <;> simp
  mem_partition b key' cells' := by
    rw [hmessages]
    constructor
    · intro hp
      split_ifs at hp with hb
      · obtain ⟨rfl, rfl⟩ := Prod.mk.inj (List.mem_singleton.mp hp)
        exact ⟨rfl, rfl, hb.symm, Function.update_self ..⟩
      · cases hp
    · rintro ⟨-, -, rfl, hcells⟩
      rw [Function.update_apply] at hcells
      split_ifs at hcells with hkey
      · obtain rfl := Option.some_inj.mp hcells
        rw [if_pos (congrArg MessageKey.bucket hkey), hkey]
        exact List.mem_singleton_self _

theorem RawChannel.readHistory_ofRow {messages : Messages} {listed : List (I64 × I64 × ℤ)}
    {key : MessageKey} {cells : Cells}
    (hmessages : messages = Function.update (fun _ => none) key (some cells))
    (hlisted : listed = [(key.hubId, key.channelId, key.bucket)]) {r : Row}
    (hdecode : cells.decode key = some r) (hlive : keeps none r = true) :
    (ofRow hmessages hlisted).readHistory id 50 none = some [r.toMessage id] := by
  have hpartition : (ofRow hmessages hlisted).partition key.bucket = [(key, cells)] := if_pos rfl
  simp [readHistory, readBuckets, decodeRows, ofRow, historyBuckets, need, hdecode, hlive]

section Seed

open Hub.Seed LiveRun

/-- Bob edits his message. -/
def bobEdits : Request := { charlieNames with claims := ⟨bob, "bob", hub⟩ }

/-- Bob's message, and his edit of it. -/
def edited (body : String) : LiveRun :=
  [MessageStore.Act.send bobsHello (i64 1) 2330 true, .edit bobEdits body].foldl
    (LiveRun.next Char.isAlphanum) ⟨emptyTables, []⟩

theorem keyOf_bobsHello : SendStore.keyOf bobsHello (i64 1) 2330 = bobEdits.key := by decide

theorem reach_edited (body : String) :
    (LiveRun.system Char.isAlphanum).Reach StoresInBucket (edited body) := by
  have hstart : (LiveRun.system Char.isAlphanum).Reach StoresInBucket ⟨emptyTables, []⟩ :=
    .start ⟨⟨rfl, rfl, rfl⟩, rfl⟩
  have hin : StoresInBucket ⟨emptyTables, []⟩ (.send bobsHello (i64 1) 2330 true) := by
    have hbucket : (SendStore.keyOf bobsHello (i64 1) 2330).bucket = 2330 := rfl
    exact hbucket.trans (by decide)
  have hsent : (LiveRun.system Char.isAlphanum).Reach StoresInBucket
      (LiveRun.next Char.isAlphanum ⟨emptyTables, []⟩ (.send bobsHello (i64 1) 2330 true)) :=
    .step hstart hin ⟨rfl, rfl⟩
  have hedit : StoresInBucket (LiveRun.next Char.isAlphanum ⟨emptyTables, []⟩
      (.send bobsHello (i64 1) 2330 true)) (.edit bobEdits body) := trivial
  exact .step hsent hedit ⟨trivial, rfl⟩

/-- The cells of the edited message. -/
def editedCells (body : String) : Cells :=
  { bobsHello.bind Char.isAlphanum .unset with
    content := some (LiveEvent.updated body).stored
    editedAt := some 7
    mentions := some (parseMentions Char.isAlphanum (LiveEvent.updated body).stored)
    mentionGroups := some []
    mentionEveryone := some (containsText (LiveEvent.updated body).stored "@everyone") }

theorem edited_eq {body : String} (hbody : (LiveEvent.updated body).stored.isEmpty = false) :
    (edited body).store.chat.messages =
        Function.update (fun _ => none) bobEdits.key (some (editedCells body)) ∧
      (edited body).feed = [(bobEdits.key.liveId, .updated body),
        (bobEdits.key.liveId, .created "hello")] := by
  have hsent : (LiveRun.next Char.isAlphanum ⟨emptyTables, []⟩
      (.send bobsHello (i64 1) 2330 true)).store.chat.messages =
        Function.update (fun _ => none) bobEdits.key
          (some (bobsHello.bind Char.isAlphanum .unset)) := by
    rw [← keyOf_bobsHello]
    rfl
  have hallowed : bobEdits.allowed = true := by decide
  have hedit (st : ChatState) : editMessage st bobEdits body =
      (.ok (), st.afterEdit bobEdits body (LiveEvent.updated body).stored) := by
    rw [editMessage, hallowed]
    dsimp only
    rw [show sanitizeContent (Text.trim body) = (LiveEvent.updated body).stored from rfl, hbody]
    rfl
  constructor
  · rw [edited, List.foldl_cons, List.foldl_cons, List.foldl_nil]
    generalize LiveRun.next Char.isAlphanum ⟨emptyTables, []⟩ _ = x at hsent ⊢
    rw [LiveRun.next, MessageStore.next, hedit]
    dsimp only [ChatState.afterEdit, Messages.editMessage, Messages.upsert]
    rw [hsent, Function.update_idem, Function.update_self]
    rfl
  · rw [edited, List.foldl_cons, List.foldl_cons, List.foldl_nil, LiveRun.next, announces, hedit]
    rfl

theorem listed_edited (body : String) :
    (edited body).store.buckets = [(bobEdits.key.hubId, bobEdits.key.channelId, 2330)] := rfl

/-- The page of the channel after an edit. -/
theorem exists_page {body : String} (hbody : (LiveEvent.updated body).stored.isEmpty = false) :
    ∃ (ch : RawChannel (edited body).store.chat.messages (edited body).store.buckets
        bobEdits.key.hubId bobEdits.key.channelId) (m : Message String),
      ch.readHistory id 50 none = some [m] ∧ m.messageId = bobEdits.key.messageId.1 ∧
        m.content = (LiveEvent.updated body).stored := by
  have hdecode : ∃ r, (editedCells body).decode bobEdits.key = some r ∧
      r.deletedAt = none ∧ r.messageId = bobEdits.key.messageId.1 ∧
        r.content = (LiveEvent.updated body).stored := ⟨_, rfl, rfl, rfl, rfl⟩
  obtain ⟨r, hr, hlive, hid, hcontent⟩ := hdecode
  have hlisted : (edited body).store.buckets =
      [(bobEdits.key.hubId, bobEdits.key.channelId, bobEdits.key.bucket)] := by
    have hbucket : bobEdits.key.bucket = 2330 := by decide
    rw [hbucket]
    exact listed_edited body
  refine ⟨.ofRow (edited_eq hbody).1 hlisted, r.toMessage id, ?_, hid, hcontent⟩
  exact RawChannel.readHistory_ofRow _ _ hr (by rw [keeps, hlive]; rfl)

end Seed

end Chat

end MateHub
