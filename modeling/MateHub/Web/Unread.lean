import MateHub.Web.ChatView

/-!
# The unread counter of a channel

The web client counts the messages of others that come after the last one that the user has
read. It counts a message when it arrives live; it asks for the read states at the start, and
then how much has been posted since then; and it sets the counter to zero when it acknowledges
a message. A channel in which the user has never read anything is not asked about.

The count of the answer is taken at another moment than the counter, and for a read state that
may be old by then: the greater of the two is kept. So a channel that has been read while the
answer was on its way has unread messages again (`MateHub.Web.miscounted`). In the runs in
which the answer fits what has arrived, and messages are acknowledged in order
(`MateHub.Web.UnreadView.Fits`), the counter is the number of messages of others after the last
one read, of those that the client has learned of (`MateHub.Web.unread_of_reach`).
-/

namespace MateHub

namespace Web

/-- A row of `unreadByChannel`. -/
structure ChannelUnread where
  lastReadMessageId : ℕ
  unread : ℕ
  deriving DecidableEq

/-- Where the start of the client is with a channel. -/
inductive StartUp
  /-- The read states have not come yet. -/
  | states
  /-- The messages after the read state are asked for. -/
  | asked (after : ℕ)
  /-- They are on their way. -/
  | answered (messages : List Message)
  | done
  deriving DecidableEq

/-- What concerns the unread counter of a channel. -/
structure UnreadView where
  row : Option ChannelUnread
  /-- The row of `unreadByChannelRef`, which follows when the view is rendered. -/
  ref : Option ChannelUnread
  /-- The channel is the active one. -/
  active : Bool
  startUp : StartUp
  /-- The answer to what has been asked has come. -/
  synced : Bool
  /-- The messages that do not arrive live, since they were published before. -/
  early : List Message
  /-- The messages that are on their way. -/
  due : List Message
  /-- The messages that have arrived live. -/
  arrived : List Message
  deriving DecidableEq

namespace UnreadView

variable (me : ℕ) (w : UnreadView)

/-- The last message read; without a row, there is none. -/
def lastRead : ℕ := (w.row.map ChannelUnread.lastReadMessageId).getD 0

/-- The counter of a channel. -/
def unread : ℕ := (w.row.map ChannelUnread.unread).getD 0

/-- All messages of the channel. -/
def published : List Message := w.early ++ w.due ++ w.arrived

/-- The messages that the client has learned of. -/
def known : List Message := (if w.synced then w.early else []) ++ w.arrived

/-- A message is of somebody else. -/
def foreign (m : Message) : Bool := decide (m.authorId ≠ me)

/-- The messages of others after one. -/
def unreadOf (lastRead : ℕ) (messages : List Message) : List Message :=
  messages.filter fun m => foreign me m && decide (lastRead < m.messageId)

/-! ### The handlers -/

/-- The row after an acknowledgement. -/
def acked (row : Option ChannelUnread) (messageId : ℕ) : ChannelUnread where
  lastReadMessageId := max ((row.map ChannelUnread.lastReadMessageId).getD 0) messageId
  unread := 0

/-- `ackUpTo`. -/
def ackUpTo (messageId : ℕ) : UnreadView :=
  match w.ref with
  | some prev =>
    if messageId ≤ prev.lastReadMessageId ∧ prev.unread = 0 then w
    else { w with row := some (acked w.row messageId) }
  | none => { w with row := some (acked w.row messageId) }

/-- A message of somebody else, in a channel that is not active. -/
def counted : UnreadView :=
  { w with row := some ⟨w.lastRead, w.unread + 1⟩ }

/-- The unread part of `message.new`. -/
def receive (m : Message) : UnreadView :=
  if foreign me m = false then { w with row := some (acked w.row m.messageId) }
  else if w.active then w.ackUpTo m.messageId
  else w.counted

/-- The row of the channel in the answer to `getReadStates`. -/
def readState (lastReadMessageId : ℕ) : UnreadView :=
  { w with row := some ⟨max w.lastRead lastReadMessageId, w.unread⟩ }

/-- The answer to `sync`, as far as it is not limited. -/
def sync (messages : List Message) : UnreadView :=
  match w.row with
  | none => w
  | some row => { w with
      row := some ⟨row.lastReadMessageId, max row.unread (messages.filter (foreign me)).length⟩ }

/-- The effect of a change of the active channel; `newest` is the last message of the list. -/
def enter (newest : Option ℕ) : UnreadView :=
  match newest with
  | none => w
  | some newest =>
    match w.ref with
    | none => w.ackUpTo newest
    | some row =>
      if row.lastReadMessageId < newest then w.ackUpTo newest
      else if 0 < row.unread then { w with row := some ⟨row.lastReadMessageId, 0⟩ }
      else w

/-- The first page of the history in the active channel. -/
def loaded (newest : ℕ) : UnreadView :=
  match w.ref with
  | none => w.ackUpTo newest
  | some row => if row.lastReadMessageId < newest then w.ackUpTo newest else w

/-! ### Runs -/

/-- What happens to a channel and to its counter. -/
inductive Act
  /-- A message is published, and will arrive live or not. -/
  | publish (m : Message) (live : Bool)
  | live (m : Message)
  /-- The read states come, with or without a row for the channel. -/
  | states (lastReadMessageId : Option ℕ)
  | statesFail
  /-- The server reads the messages. -/
  | read
  | sync
  | syncFails
  | focus (newest : Option ℕ)
  | blur
  | history (newest : ℕ)
  | render

/-- The steps of a channel and its counter. -/
inductive Step : UnreadView → Act → UnreadView → Prop
  /-- Ids are drawn once. -/
  | publish {w : UnreadView} {m : Message} {live : Bool} :
      (∀ m' ∈ w.published, m'.messageId ≠ m.messageId) →
      Step w (.publish m live) { w with
        early := if live then w.early else m :: w.early
        due := if live then m :: w.due else w.due }
  | live {w : UnreadView} {m : Message} : m ∈ w.due →
      Step w (.live m) { w.receive me m with
        due := w.due.erase m
        arrived := m :: w.arrived }
  | noState {w : UnreadView} : w.startUp = .states →
      Step w (.states none) { w with startUp := .done }
  | states {w : UnreadView} {lastReadMessageId : ℕ} : w.startUp = .states →
      Step w (.states (some lastReadMessageId)) { w.readState lastReadMessageId with
        -- nothing is asked where nothing has been read
        startUp := if lastReadMessageId = 0 then .done else .asked lastReadMessageId }
  | statesFail {w : UnreadView} : w.startUp = .states →
      Step w .statesFail { w with startUp := .done }
  | read {w : UnreadView} {after : ℕ} : w.startUp = .asked after →
      Step w .read { w with
        startUp := .answered (w.published.filter fun m => decide (after < m.messageId)) }
  | sync {w : UnreadView} {messages : List Message} : w.startUp = .answered messages →
      Step w .sync { w.sync me messages with
        startUp := .done
        synced := w.row.isSome || w.synced }
  | syncFails {w : UnreadView} : Step w .syncFails { w with startUp := .done }
  | focus {w : UnreadView} {newest : Option ℕ} :
      Step w (.focus newest) { w.enter newest with active := true }
  | blur {w : UnreadView} : Step w .blur { w with active := false }
  | history {w : UnreadView} {newest : ℕ} : w.active = true →
      Step w (.history newest) (w.loaded newest)
  | render {w : UnreadView} : Step w .render { w with ref := w.row }

/-- The client is opened in a channel with some messages. -/
def system : System UnreadView Act where
  init := fun w => ∃ early, (early.map Message.messageId).Nodup ∧
    w = ⟨none, none, false, .states, false, early, [], []⟩
  step := Step me

/-- Nothing is unread, of what the client knows, after a message. -/
def Covers (w : UnreadView) (messageId : ℕ) : Prop :=
  ∀ m ∈ unreadOf me w.lastRead w.known, m.messageId ≤ messageId

/-- **The condition on a step.** A message that is counted comes after the last one read; one
that is acknowledged has nothing unread after it, and what is set to zero has nothing unread at
all and the last one read; a read state that comes at the start passes over nothing. The answer
has the messages that are to be counted, or these have all arrived live and it has no more. -/
def Fits (w : UnreadView) : Act → Prop
  | .publish m live => live = false → w.synced = true → foreign me m = true →
      m.messageId ≤ w.lastRead
  | .live m =>
      (foreign me m = false → w.Covers me m.messageId) ∧
      (foreign me m = true → w.active = false → w.lastRead < m.messageId) ∧
      (foreign me m = true → w.active = true →
        (∀ prev ∈ w.ref, m.messageId ≤ prev.lastReadMessageId → prev.unread ≠ 0) →
          w.Covers me m.messageId)
  | .states (some lastReadMessageId) =>
      ∀ m ∈ unreadOf me w.lastRead w.known, lastReadMessageId < m.messageId
  | .sync => ∀ messages, w.startUp = .answered messages →
      (∀ m, m ∈ messages.filter (foreign me) ↔
        m ∈ unreadOf me w.lastRead (w.early ++ w.arrived)) ∨
      (unreadOf me w.lastRead w.early = [] ∧
        (messages.filter (foreign me)).length ≤ (unreadOf me w.lastRead w.arrived).length)
  | .focus (some newest) =>
      ((∀ row ∈ w.ref, row.lastReadMessageId < newest) → w.Covers me newest) ∧
      ∀ row ∈ w.ref, newest ≤ row.lastReadMessageId → 0 < row.unread →
        row.lastReadMessageId = w.lastRead ∧ unreadOf me w.lastRead w.known = []
  | .history newest => (∀ row ∈ w.ref, row.lastReadMessageId < newest) → w.Covers me newest
  | _ => True

/-! ### The counter -/

/-- The invariant: the counter counts, and what was rendered is not ahead. -/
structure Counts (w : UnreadView) : Prop where
  unread : w.unread = (unreadOf me w.lastRead w.known).length
  ref : ∀ prev ∈ w.ref, prev.lastReadMessageId ≤ w.lastRead
  ids : (w.published.map Message.messageId).Nodup
  answer : ∀ messages, w.startUp = .answered messages → messages.Nodup

variable {me : ℕ} {w w' : UnreadView} {m : Message} {id id' : ℕ} {messages messages' : List Message}

theorem mem_unreadOf : m ∈ unreadOf me id messages ↔
    m ∈ messages ∧ foreign me m = true ∧ id < m.messageId := by
  rw [unreadOf, List.mem_filter, Bool.and_eq_true, decide_eq_true_iff]

theorem unreadOf_eq_nil : unreadOf me id messages = [] ↔
    ∀ m ∈ messages, foreign me m = true → m.messageId ≤ id := by
  simp [List.eq_nil_iff_forall_not_mem, mem_unreadOf]

theorem unreadOf_append : unreadOf me id (messages ++ messages') =
    unreadOf me id messages ++ unreadOf me id messages' := List.filter_append ..

theorem unreadOf_cons_of_read (h : foreign me m = true → m.messageId ≤ id) :
    unreadOf me id (m :: messages) = unreadOf me id messages := by
  refine List.filter_cons_of_neg ?_
  rw [Bool.and_eq_true, decide_eq_true_iff]
  rintro ⟨hforeign, hlt⟩
  exact absurd (h hforeign) (by omega)

theorem unreadOf_cons_of_unread (h : foreign me m = true) (hlt : id < m.messageId) :
    unreadOf me id (m :: messages) = m :: unreadOf me id messages :=
  List.filter_cons_of_pos (by simp [h, hlt])

/-- The messages after an earlier one are the same, if none is in between. -/
theorem unreadOf_max (h : ∀ m ∈ unreadOf me id messages, id' < m.messageId) :
    unreadOf me (max id id') messages = unreadOf me id messages := by
  refine List.filter_congr fun m hm => ?_
  rcases hforeign : foreign me m with _ | _
  · rfl
  · rw [Bool.true_and, Bool.true_and, decide_eq_decide]
    constructor
    · omega
    · intro hlt
      have := h m (mem_unreadOf.mpr ⟨hm, hforeign, hlt⟩)
      omega

theorem Covers.unreadOf_eq_nil (h : w.Covers me id) :
    unreadOf me (max w.lastRead id) w.known = [] := by
  refine UnreadView.unreadOf_eq_nil.mpr fun m hm hforeign => ?_
  by_cases hlt : w.lastRead < m.messageId
  · have := h m (mem_unreadOf.mpr ⟨hm, hforeign, hlt⟩)
    omega
  · omega

@[simp] theorem acked_unread (row : Option ChannelUnread) : (acked row id).unread = 0 := rfl

/-- An acknowledgement that is carried out. -/
theorem Counts.acks (h : w.Counts me) (hcovers : w.Covers me id) :
    Counts me { w with row := some (acked w.row id) } ∧
      w.lastRead ≤ lastRead { w with row := some (acked w.row id) } := by
  have hlast : lastRead { w with row := some (acked w.row id) } = max w.lastRead id := rfl
  refine ⟨⟨?_, fun prev hprev => ?_, h.ids, h.answer⟩, ?_⟩
  · rw [hlast]
    exact (congrArg List.length hcovers.unreadOf_eq_nil).symm
  · rw [hlast]
    have := h.ref prev hprev
    omega
  · omega

/-- `ackUpTo` changes the row, or finds that there is nothing to do. -/
theorem ackUpTo_eq (w : UnreadView) (id : ℕ) :
    (w.ackUpTo id = w ∧ ∃ prev ∈ w.ref, id ≤ prev.lastReadMessageId ∧ prev.unread = 0) ∨
      (w.ackUpTo id = { w with row := some (acked w.row id) } ∧
        ∀ prev ∈ w.ref, id ≤ prev.lastReadMessageId → prev.unread ≠ 0) := by
  rw [ackUpTo]
  rcases hr : w.ref with _ | prev
  · exact .inr ⟨rfl, fun _ h => absurd h (Option.not_mem_none _)⟩
  · dsimp only
    split
    · rename_i hskip
      exact .inl ⟨rfl, prev, rfl, hskip⟩
    · rename_i hack
      refine .inr ⟨rfl, fun p hp hle hzero => hack ?_⟩
      obtain rfl := Option.some_inj.mp hp
      exact ⟨hle, hzero⟩

theorem Counts.ackUpTo (h : w.Counts me)
    (hcovers : (∀ prev ∈ w.ref, id ≤ prev.lastReadMessageId → prev.unread ≠ 0) →
      w.Covers me id) :
    Counts me (w.ackUpTo id) ∧ w.lastRead ≤ (w.ackUpTo id).lastRead := by
  rcases ackUpTo_eq w id with ⟨heq, -⟩ | ⟨heq, hack⟩
  · rw [heq]
    exact ⟨h, Nat.le_refl _⟩
  · rw [heq]
    exact h.acks (hcovers hack)

/-- The messages of the channel are the same after one has arrived. -/
theorem perm_arrive (hm : m ∈ w.due) :
    (w.early ++ w.due.erase m ++ m :: w.arrived).Perm w.published := by
  have hdue : (w.due.erase m ++ m :: w.arrived).Perm (w.due ++ w.arrived) :=
    List.perm_middle.trans (((List.perm_cons_erase hm).symm).append_right w.arrived)
  rw [published, List.append_assoc, List.append_assoc]
  exact hdue.append_left w.early

/-- A message arrives that is not to be counted. -/
theorem Counts.arrive (h : w.Counts me) (hm : m ∈ w.due)
    (hread : foreign me m = true → m.messageId ≤ w.lastRead) :
    Counts me { w with
      due := w.due.erase m
      arrived := m :: w.arrived } := by
  have hsame : unreadOf me w.lastRead ((if w.synced then w.early else []) ++ m :: w.arrived) =
      unreadOf me w.lastRead w.known := by
    rw [known, unreadOf_append, unreadOf_append, unreadOf_cons_of_read hread]
  exact ⟨h.unread.trans (congrArg List.length hsame).symm, h.ref,
    ((perm_arrive hm).map _).nodup_iff.mpr h.ids, h.answer⟩

/-- A message arrives that is counted. -/
theorem Counts.counts (h : w.Counts me) (hm : m ∈ w.due) (hforeign : foreign me m = true)
    (hlt : w.lastRead < m.messageId) :
    Counts me { w.counted with
      due := w.due.erase m
      arrived := m :: w.arrived } := by
  have hone : (unreadOf me w.lastRead
      ((if w.synced then w.early else []) ++ m :: w.arrived)).length = w.unread + 1 := by
    rw [h.unread, known, unreadOf_append, unreadOf_append, unreadOf_cons_of_unread hforeign hlt,
      List.length_append, List.length_append, List.length_cons]
    omega
  exact ⟨hone.symm, h.ref, ((perm_arrive hm).map _).nodup_iff.mpr h.ids, h.answer⟩

theorem Counts.live (h : w.Counts me) (hm : m ∈ w.due) (hok : w.Fits me (.live m)) :
    Counts me { w.receive me m with
      due := w.due.erase m
      arrived := m :: w.arrived } ∧ w.lastRead ≤ (w.receive me m).lastRead := by
  obtain ⟨hown, hcount, hack⟩ := hok
  rcases hforeign : foreign me m with _ | _
  · obtain ⟨hcounts, hle⟩ := h.acks (hown hforeign)
    rw [receive, if_pos hforeign]
    exact ⟨hcounts.arrive hm fun hyes => absurd hyes (by simp [hforeign]), hle⟩
  · rw [receive, if_neg (by simp [hforeign])]
    rcases hactive : w.active with _ | _
    · exact ⟨h.counts hm hforeign (hcount hforeign hactive), Nat.le_refl _⟩
    · rw [if_pos rfl]
      rcases ackUpTo_eq w m.messageId with ⟨heq, prev, hprev, hle, -⟩ | ⟨heq, hcarried⟩
      · rw [heq]
        have hread : m.messageId ≤ w.lastRead := Nat.le_trans hle (h.ref prev hprev)
        exact ⟨h.arrive hm fun _ => hread, Nat.le_refl _⟩
      · obtain ⟨hcounts, hle⟩ := h.acks (hack hforeign hactive hcarried)
        rw [heq]
        exact ⟨hcounts.arrive hm fun _ => Nat.le_max_right _ _, hle⟩

theorem Counts.publish {live : Bool} (h : w.Counts me)
    (hnew : ∀ m' ∈ w.published, m'.messageId ≠ m.messageId)
    (hok : w.Fits me (.publish m live)) :
    Counts me { w with
      early := if live then w.early else m :: w.early
      due := if live then m :: w.due else w.due } := by
  have hids : ((m :: w.published).map Message.messageId).Nodup := by
    rw [List.map_cons, List.nodup_cons]
    refine ⟨fun hmem => ?_, h.ids⟩
    obtain ⟨m', hm', heq⟩ := List.mem_map.mp hmem
    exact hnew m' hm' heq
  cases live with
  | true =>
    have hperm : (w.early ++ m :: w.due ++ w.arrived).Perm (m :: w.published) := by
      rw [published, List.append_assoc, List.append_assoc, List.cons_append]
      exact List.perm_middle
    exact ⟨h.unread, h.ref, (hperm.map _).nodup_iff.mpr hids, h.answer⟩
  | false =>
    have hsame : unreadOf me w.lastRead ((if w.synced then m :: w.early else []) ++ w.arrived) =
        unreadOf me w.lastRead w.known := by
      rw [known]
      rcases hsynced : w.synced with _ | _
      · rfl
      · rw [if_pos rfl, if_pos rfl, List.cons_append,
          unreadOf_cons_of_read fun hforeign => hok rfl hsynced hforeign]
    exact ⟨h.unread.trans (congrArg List.length hsame).symm, h.ref, hids, h.answer⟩

theorem Counts.readState (h : w.Counts me) (hok : w.Fits me (.states (some id)))
    {startUp : StartUp} (hstart : ∀ messages, startUp ≠ .answered messages) :
    Counts me { w.readState id with startUp := startUp } ∧
      w.lastRead ≤ (w.readState id).lastRead := by
  have hlast : (w.readState id).lastRead = max w.lastRead id := rfl
  have hsame : unreadOf me (max w.lastRead id) w.known = unreadOf me w.lastRead w.known :=
    unreadOf_max hok
  refine ⟨⟨h.unread.trans (congrArg List.length hsame).symm, fun prev hprev => ?_, h.ids,
    fun messages heq => absurd heq (hstart messages)⟩, ?_⟩
  · exact Nat.le_trans (h.ref prev hprev) (Nat.le_max_left _ _)
  · omega

theorem nodup_unreadOf (h : (messages.map Message.messageId).Nodup) :
    (unreadOf me id messages).Nodup := (List.Nodup.of_map _ h).filter _

theorem lastRead_sync (w : UnreadView) (messages : List Message) :
    (w.sync me messages).lastRead = w.lastRead := by
  rcases hrow : w.row with _ | row
  · rw [UnreadView.sync, hrow]
  · rw [UnreadView.sync, hrow, lastRead, lastRead, hrow]
    rfl

/-- The answer comes, and fits. -/
theorem Counts.sync (h : w.Counts me) (hstart : w.startUp = .answered messages)
    (hok : w.Fits me .sync) : Counts me { w.sync me messages with
      startUp := .done
      synced := w.row.isSome || w.synced } := by
  rcases hrow : w.row with _ | row
  · have hsync : w.sync me messages = w := by rw [UnreadView.sync, hrow]
    rw [hsync]
    exact ⟨h.unread, h.ref, h.ids, fun _ heq => by cases heq⟩
  · have hlast : w.lastRead = row.lastReadMessageId := by rw [lastRead, hrow]; rfl
    have hunread : row.unread = (unreadOf me w.lastRead w.known).length := by
      have hcount := h.unread
      rw [UnreadView.unread, hrow] at hcount
      exact hcount
    -- what has arrived is a part of what is to be counted
    have hknown : (unreadOf me w.lastRead w.arrived).length ≤
          (unreadOf me w.lastRead w.known).length ∧
        (unreadOf me w.lastRead w.known).length ≤
          (unreadOf me w.lastRead (w.early ++ w.arrived)).length := by
      rw [known, unreadOf_append, unreadOf_append, List.length_append, List.length_append]
      rcases w.synced with _ | _
      · rw [if_neg Bool.false_ne_true]
        exact ⟨Nat.le_add_left _ _, by simp [unreadOf]⟩
      · rw [if_pos rfl]
        exact ⟨Nat.le_add_left _ _, Nat.le_refl _⟩
    have hmax : max row.unread (messages.filter (foreign me)).length =
        (unreadOf me w.lastRead (w.early ++ w.arrived)).length := by
      rcases hok messages hstart with hiff | ⟨hearly, hle⟩
      · have hids : ((w.early ++ w.arrived).map Message.messageId).Nodup := by
          refine h.ids.sublist (List.Sublist.map _ ?_)
          rw [published, List.append_assoc]
          exact (List.sublist_append_right _ _).append_left _
        have hlen := ((List.perm_ext_iff_of_nodup ((h.answer messages hstart).filter _)
          (nodup_unreadOf hids)).mpr hiff).length_eq
        omega
      · rw [unreadOf_append, hearly, List.nil_append] at hknown ⊢
        omega
    have hsync : w.sync me messages = { w with
        row := some ⟨row.lastReadMessageId,
          max row.unread (messages.filter (foreign me)).length⟩ } := by
      rw [UnreadView.sync, hrow]
    rw [hsync]
    have hle := h.ref
    rw [hlast] at hmax hle
    exact ⟨hmax, hle, h.ids, fun _ heq => by cases heq⟩

theorem Counts.enter (h : w.Counts me) {newest : Option ℕ} (hok : w.Fits me (.focus newest)) :
    Counts me (w.enter newest) ∧ w.lastRead ≤ (w.enter newest).lastRead := by
  rcases newest with _ | newest
  · exact ⟨h, Nat.le_refl _⟩
  · obtain ⟨hcovers, hzero⟩ := hok
    rcases href : w.ref with _ | row
    · rw [UnreadView.enter, href]
      refine h.ackUpTo fun _ => hcovers fun row hrow => ?_
      rw [href] at hrow
      exact absurd hrow (Option.not_mem_none _)
    · rw [UnreadView.enter, href]
      dsimp only
      split
      · rename_i hlt
        refine h.ackUpTo fun _ => hcovers fun row' hrow' => ?_
        obtain rfl := Option.some_inj.mp (href.symm.trans hrow')
        exact hlt
      · rename_i hge
        split
        · rename_i hpos
          obtain ⟨hlast, hnil⟩ := hzero row href (Nat.le_of_not_lt hge) hpos
          have hle := h.ref
          rw [← hlast] at hnil hle
          rw [href] at hle
          exact ⟨⟨(congrArg List.length hnil).symm, hle, h.ids, h.answer⟩, Nat.le_of_eq hlast.symm⟩
        · exact ⟨h, Nat.le_refl _⟩

theorem Counts.loaded (h : w.Counts me) {newest : ℕ} (hok : w.Fits me (.history newest)) :
    Counts me (w.loaded newest) ∧ w.lastRead ≤ (w.loaded newest).lastRead := by
  rw [UnreadView.loaded]
  split
  · rename_i href
    refine h.ackUpTo fun _ => hok fun row hrow => ?_
    rw [href] at hrow
    exact absurd hrow (Option.not_mem_none _)
  · rename_i row href
    split
    · rename_i hlt
      refine h.ackUpTo fun _ => hok fun row' hrow' => ?_
      obtain rfl := Option.some_inj.mp (href.symm.trans hrow')
      exact hlt
    · exact ⟨h, Nat.le_refl _⟩

/-- **What a step preserves**: the counter counts, and the last message read stays or moves
on. -/
theorem Counts.step {a : Act} (h : w.Counts me) (hok : w.Fits me a) (hstep : Step me w a w') :
    Counts me w' ∧ w.lastRead ≤ w'.lastRead := by
  cases hstep with
  | publish hnew => exact ⟨h.publish hnew hok, Nat.le_refl _⟩
  | live hm => exact h.live hm hok
  | noState _ => exact ⟨⟨h.unread, h.ref, h.ids, fun _ heq => by cases heq⟩, Nat.le_refl _⟩
  | statesFail _ => exact ⟨⟨h.unread, h.ref, h.ids, fun _ heq => by cases heq⟩, Nat.le_refl _⟩
  | states _ =>
    refine h.readState hok fun messages heq => ?_
    split at heq <;> cases heq
  | read _ =>
    refine ⟨⟨h.unread, h.ref, h.ids, fun messages heq => ?_⟩, Nat.le_refl _⟩
    obtain rfl := StartUp.answered.inj heq
    exact (List.Nodup.of_map _ h.ids).filter _
  | sync hstart => exact ⟨h.sync hstart hok, Nat.le_of_eq (lastRead_sync w _).symm⟩
  | syncFails => exact ⟨⟨h.unread, h.ref, h.ids, fun _ heq => by cases heq⟩, Nat.le_refl _⟩
  | focus =>
    obtain ⟨hcounts, hle⟩ := h.enter hok
    exact ⟨⟨hcounts.unread, hcounts.ref, hcounts.ids, hcounts.answer⟩, hle⟩
  | blur => exact ⟨⟨h.unread, h.ref, h.ids, h.answer⟩, Nat.le_refl _⟩
  | history _ => exact h.loaded hok
  | render =>
    refine ⟨⟨h.unread, fun prev hprev => ?_, h.ids, h.answer⟩, Nat.le_refl _⟩
    have hrow : w.row = some prev := hprev
    have hlast : w.lastRead = prev.lastReadMessageId := by rw [lastRead, hrow]; rfl
    exact Nat.le_of_eq hlast.symm

end UnreadView

open UnreadView

/-- **The counter counts the unread messages**, in the runs in which the answer fits what has
arrived and messages are acknowledged in order: it is the number of the messages of others
after the last one read, among those that the client has learned of, which are all of the
channel if the answer has come and nothing is on its way; and the last one read never moves
back. -/
theorem unread_of_reach (me : ℕ) {w : UnreadView} (hw : (system me).Reach (Fits me) w) :
    w.unread = (unreadOf me w.lastRead w.known).length ∧
    (w.synced = true → w.due = [] →
      w.unread = (unreadOf me w.lastRead w.published).length) ∧
    ((∀ m ∈ w.published, m.messageId ≤ w.lastRead) → w.unread = 0) ∧
    ∀ a w', w.Fits me a → (system me).step w a w' → w.lastRead ≤ w'.lastRead := by
  have hcounts : w.Counts me := by
    refine hw.invariant (I := Counts me) ?_ fun w a w' h hok hstep => (h.step hok hstep).1
    rintro w ⟨early, hids, rfl⟩
    refine ⟨rfl, fun _ h => absurd h (Option.not_mem_none _), ?_, fun _ h => by cases h⟩
    rw [published, List.append_nil, List.append_nil]
    exact hids
  refine ⟨hcounts.unread, fun hsynced hdue => ?_, fun hread => ?_,
    fun a w' hok hstep => (hcounts.step hok hstep).2⟩
  · rw [hcounts.unread, known, published, if_pos hsynced, hdue, List.append_nil]
  · have hnil : unreadOf me w.lastRead w.known = [] := by
      refine unreadOf_eq_nil.mpr fun m hm _ => hread m ?_
      rw [published, List.mem_append, List.mem_append]
      rw [known, List.mem_append] at hm
      rcases hm with hm | hm
      · split at hm
        · exact .inl (.inl hm)
        · exact absurd hm List.not_mem_nil
      · exact .inr hm
    rw [hcounts.unread, hnil]
    rfl

section Runs

/-- A message of somebody else. -/
def posted : Message := ⟨5, 7, none, "hello"⟩

/-- The client is opened with the message in the channel. -/
def opened : UnreadView := ⟨none, none, false, .states, false, [posted], [], []⟩

/-- The message before it has been read, and the messages after it are asked for. -/
def syncing : UnreadView := ⟨some ⟨4, 0⟩, none, false, .asked 4, false, [posted], [], []⟩

/-- The answer is on its way. -/
def answering : UnreadView := { syncing with startUp := .answered [posted] }

/-- The user reads the message. -/
def focused : UnreadView :=
  ⟨some ⟨5, 0⟩, none, true, .answered [posted], false, [posted], [], []⟩

theorem init_opened : (system 9).init opened := ⟨[posted], by decide, rfl⟩

theorem step_syncing : (system 9).step opened (.states (some 4)) syncing := .states rfl

theorem step_answering : (system 9).step syncing .read answering := .read (w := syncing) rfl

/-- **Never read, and read while the answer is on its way**: without a read state, nothing is
asked, and the message is not counted; and one that has been acknowledged before the answer is
counted again. -/
theorem miscounted : (∃ w, (system 9).Reachable w ∧ w.startUp = .done ∧ w.due = [] ∧
      w.unread = 0 ∧ (unreadOf 9 w.lastRead w.published).length = 1) ∧
    ∃ w, (system 9).Reachable w ∧ w.startUp = .done ∧ w.due = [] ∧ w.synced = true ∧
      w.unread = 1 ∧ unreadOf 9 w.lastRead w.published = [] := by
  have hstart : (system 9).Reachable opened := .start init_opened
  constructor
  · have hnone : (system 9).step opened (.states none) { opened with startUp := .done } :=
      .noState rfl
    exact ⟨_, hstart.step trivial hnone, rfl, rfl, rfl, by decide⟩
  · have hfocus : (system 9).step answering (.focus (some 5)) focused := .focus (w := answering)
    have hsync : (system 9).step focused .sync
        ⟨some ⟨5, 1⟩, none, true, .done, true, [posted], [], []⟩ := .sync (w := focused) rfl
    have hanswering := (hstart.step trivial step_syncing).step trivial step_answering
    exact ⟨_, (hanswering.step trivial hfocus).step trivial hsync, rfl, rfl, rfl, rfl, by decide⟩

/-- The answer comes. -/
def backfilled : UnreadView := ⟨some ⟨4, 1⟩, none, false, .done, true, [posted], [], []⟩

/-- Two more messages, which arrive live. -/
def followed : Message := ⟨6, 7, none, "are you there?"⟩

/-- A message whose publication arrives twice. -/
def repeated : Message := ⟨7, 7, none, "hello?"⟩

/-- The first of them arrives. -/
def notified : UnreadView := { backfilled with row := some ⟨4, 2⟩, arrived := [followed] }

/-- The user looks at the channel. -/
def acknowledged : UnreadView := { notified with row := some ⟨6, 0⟩, active := true }

/-- And at another one, when the second arrives. -/
def away : UnreadView :=
  { notified with row := some ⟨6, 1⟩, arrived := [repeated, followed] }

theorem reach_backfilled : (system 9).Reach (Fits 9) backfilled := by
  have hstart : (system 9).Reach (Fits 9) opened := .start init_opened
  have hsyncing : Fits 9 opened (.states (some 4)) := fun _ h => absurd h List.not_mem_nil
  have hfits : Fits 9 answering .sync := by
    intro messages hmessages
    obtain rfl := StartUp.answered.inj hmessages
    exact .inl fun _ => Iff.rfl
  have hsync : (system 9).step answering .sync backfilled := .sync (w := answering) rfl
  have hanswering := (hstart.step hsyncing step_syncing).step (by trivial) step_answering
  exact hanswering.step hfits hsync

theorem reach_acknowledged : (system 9).Reach (Fits 9) acknowledged := by
  have hpublish : (system 9).step backfilled (.publish followed true)
      { backfilled with due := [followed] } := .publish (w := backfilled) (by decide)
  have hlive : (system 9).step { backfilled with due := [followed] } (.live followed) notified :=
    .live (w := { backfilled with due := [followed] }) (by decide)
  have hliveOk : Fits 9 { backfilled with due := [followed] } (.live followed) :=
    ⟨fun h => absurd h (by decide), fun _ _ => by decide, fun _ h => absurd h (by decide)⟩
  have hfocus : (system 9).step notified (.focus (some 6)) acknowledged := .focus (w := notified)
  have hfocusOk : Fits 9 notified (.focus (some 6)) := by
    refine ⟨fun _ => ?_, fun row hrow => absurd hrow (Option.not_mem_none _)⟩
    rw [Covers]
    decide
  have hpublishOk : Fits 9 backfilled (.publish followed true) := fun h => absurd h (by decide)
  have hdue := reach_backfilled.step hpublishOk hpublish
  exact (hdue.step hliveOk hlive).step hfocusOk hfocus

theorem reach_away : (system 9).Reach (Fits 9) away := by
  have hblur : (system 9).step acknowledged .blur { acknowledged with active := false } :=
    .blur (w := acknowledged)
  have hpublish : (system 9).step { acknowledged with active := false } (.publish repeated true)
      { acknowledged with active := false, due := [repeated] } :=
    .publish (w := { acknowledged with active := false }) (by decide)
  have hlive : (system 9).step { acknowledged with active := false, due := [repeated] }
      (.live repeated) away :=
    .live (w := { acknowledged with active := false, due := [repeated] }) (by decide)
  have hliveOk : Fits 9 { acknowledged with active := false, due := [repeated] }
      (.live repeated) :=
    ⟨fun h => absurd h (by decide), fun _ _ => by decide, fun _ h => absurd h (by decide)⟩
  have hpublishOk : Fits 9 { acknowledged with active := false } (.publish repeated true) :=
    fun h => absurd h (by decide)
  have hdue := (reach_acknowledged.step (by trivial) hblur).step hpublishOk hpublish
  exact hdue.step hliveOk hlive

/-- Nothing is unread once the user has looked, and one message after the next has arrived. -/
theorem unread_of_backfilled :
    acknowledged.unread = 0 ∧ away.unread = 1 ∧
      away.unread = (unreadOf 9 away.lastRead away.published).length := by
  obtain ⟨-, -, hread, -⟩ := unread_of_reach 9 reach_acknowledged
  obtain ⟨-, hsynced, -⟩ := unread_of_reach 9 reach_away
  exact ⟨hread (by decide), rfl, hsynced rfl rfl⟩

end Runs

end Web

end MateHub
