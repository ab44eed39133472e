import Mathlib.Algebra.Group.Nat.Defs
import Mathlib.Data.List.Nodup
import Mathlib.Data.List.Perm.Basic
import MateHub.Lib.Runs

/-!
# The messages of a channel in the web client

The view of a channel has its messages from two sources: pages of the history, which it asks
for, and the messages that arrive live. A message that the user sends is in the list at once,
with an id made up by the client, until it arrives live itself and takes the place of the copy.

The sources are put together by different code. A message that arrives live goes to the end of
the list, if there is a list yet; the first page of the history replaces the list, but for the
copies; a later page goes to the front as it is. So a message that arrives while the first page
is on its way is lost, and one that is on the page and then arrives without a `client_id` is in
the list twice (`MateHub.Web.lost_and_doubled`).

In the runs in which the pages and the messages come in the order that this needs
(`MateHub.Web.ChatView.InOrder`), the messages of the list are in ascending order, each is there
once, and none is missing (`MateHub.Web.view_of_reach`).
-/

namespace MateHub

namespace Web

/-! ### Messages -/

/-- What matters of a message here. -/
structure Message where
  messageId : ℕ
  authorId : ℕ
  clientId : Option String
  content : String
  deriving DecidableEq

/-- `_status`. -/
inductive SendStatus
  | sending
  | failed
  deriving DecidableEq

/-- A message of the view; a copy of a message that is being sent has a status. -/
structure ChatMessage where
  message : Message
  status : Option SendStatus
  deriving DecidableEq

namespace ChatMessage

/-- The entry is a copy. -/
def pending (e : ChatMessage) : Bool := e.status.isSome

/-- The entry is a message from the server. -/
def confirmed (e : ChatMessage) : Bool := e.status.isNone

/-- A message has been sent with this client id. -/
def hasClientId (clientId : String) (e : ChatMessage) : Bool :=
  decide (e.message.clientId = some clientId)

/-- A message of the server is not pending. -/
@[simp] theorem pending_mk_none (m : Message) : pending ⟨m, none⟩ = false := rfl

/-- A message with a status is. -/
@[simp] theorem pending_mk_some (m : Message) (s : SendStatus) : pending ⟨m, some s⟩ = true := rfl

/-- A message of the server is confirmed. -/
@[simp] theorem confirmed_mk_none (m : Message) : confirmed ⟨m, none⟩ = true := rfl

/-- A message with a status is not. -/
@[simp] theorem confirmed_mk_some (m : Message) (s : SendStatus) :
    confirmed ⟨m, some s⟩ = false := rfl

/-- A message is confirmed, or pending. -/
theorem confirmed_eq_not (e : ChatMessage) : e.confirmed = !e.pending := by
  rcases e with ⟨m, _ | s⟩ <;> rfl

end ChatMessage

/-- A `client_id` that is not empty. -/
def Message.key (m : Message) : Option String := m.clientId.filter fun c => decide (c ≠ "")

open ChatMessage

/-- `sonyflakeEpochMs`, and the id of a copy. -/
def sonyflakeEpochMs : ℕ := 1409529600000

/-- The id of an optimistic copy. -/
def syntheticMessageId (now counter : ℕ) : ℕ :=
  (now - sonyflakeEpochMs) / 10 * 16777216 + counter % 2 ^ 24

/-! ### The list -/

/-- The list without the entry whose place a message takes. -/
def without (m : Message) (list : List ChatMessage) : List ChatMessage :=
  match m.key with
  | some clientId => list.eraseP (hasClientId clientId)
  | none => list

/-- The first entry with a `client_id` gets a status. -/
def markFirst (clientId : String) (status : SendStatus) : List ChatMessage → List ChatMessage
  | [] => []
  | e :: list =>
    if hasClientId clientId e then { e with status := some status } :: list
    else e :: markFirst clientId status list

/-- The first entry with a `client_id` is sent again. -/
def retryFirst (clientId : String) (list : List ChatMessage) : List ChatMessage :=
  match list.find? (hasClientId clientId) with
  | none => list
  | some e => list.eraseP (hasClientId clientId) ++ [{ e with status := some .sending }]

/-- The list after the first page of the history, which comes newest first. -/
def merge (page : List Message) (list : List ChatMessage) : List ChatMessage :=
  page.reverse.map (⟨·, none⟩) ++
    list.filter fun e => e.pending && !(page.map Message.messageId).contains e.message.messageId

/-- The view of a channel. -/
structure ChatView where
  /-- The entry of `messagesByChannel`. -/
  list : Option (List ChatMessage)
  /-- The entry of `messagesByChannelRef`, which follows when the view is rendered. -/
  ref : Option (List ChatMessage)
  loading : Bool
  loaded : Bool
  /-- The calls of `loadMore` that have no answer yet, by the id that they ask for. -/
  asked : List ℕ
  synthCounter : ℕ
  /-- The keys of `pendingPayload`. -/
  payloads : List String
  /-- The messages that were on a page or have arrived live. -/
  seen : List ℕ
  deriving DecidableEq

namespace ChatView

/-- What happens to a view. -/
inductive Act
  | ensureHistory
  /-- The answer to `ensureHistory`. -/
  | history (page : List Message)
  | historyFails
  | loadMore
  /-- The answer to a call of `loadMore`. -/
  | older (before : ℕ) (page : List Message)
  | olderFails (before : ℕ)
  /-- `message.new`. -/
  | live (m : Message)
  | send (now : ℕ) (clientId content : String)
  /-- The request to send a message fails. -/
  | sendFails (clientId : String)
  | retry (clientId : String)
  | cancel (clientId : String)
  | render

/-- What the server answers: at most so many messages, newest first, before an id. -/
structure IsPage (before : Option ℕ) (page : List Message) : Prop where
  length : page.length ≤ 50
  descending : page.Pairwise fun m m' => m'.messageId < m.messageId
  before : ∀ id ∈ before, ∀ m ∈ page, m.messageId < id

/-- A step of the view of the user `me`. -/
inductive Step (me : ℕ) : ChatView → Act → ChatView → Prop
  | ensureHistory {w : ChatView} : w.loaded = false → w.loading = false →
      Step me w .ensureHistory { w with loading := true }
  | history {w : ChatView} {page : List Message} : w.loading = true → IsPage none page →
      Step me w (.history page) { w with
        list := some (merge page (w.list.getD []))
        loading := false
        loaded := true
        seen := page.map Message.messageId ++ w.seen }
  | historyFails {w : ChatView} : w.loading = true →
      Step me w .historyFails { w with loading := false }
  | loadMore {w : ChatView} {oldest : ChatMessage} {rest : List ChatMessage} :
      w.ref = some (oldest :: rest) →
      Step me w .loadMore { w with asked := oldest.message.messageId :: w.asked }
  | older {w : ChatView} {before : ℕ} {page : List Message} : before ∈ w.asked →
      IsPage (some before) page →
      Step me w (.older before page) { w with
        list := if page.isEmpty then w.list
          else some (page.reverse.map (⟨·, none⟩) ++ w.list.getD [])
        asked := w.asked.erase before
        seen := page.map Message.messageId ++ w.seen }
  | olderFails {w : ChatView} {before : ℕ} : before ∈ w.asked →
      Step me w (.olderFails before) { w with asked := w.asked.erase before }
  | live {w : ChatView} {m : Message} :
      Step me w (.live m) { w with
        list := w.list.map fun list => without m list ++ [⟨m, none⟩]
        payloads := w.payloads.filter fun clientId => decide (m.key ≠ some clientId)
        seen := m.messageId :: w.seen }
  /-- The `client_id` is drawn at random, and so nobody else's. -/
  | send {w : ChatView} {now : ℕ} {clientId content : String} : clientId ≠ "" →
      (∀ list ∈ w.list, ∀ e ∈ list, e.message.clientId ≠ some clientId) →
      Step me w (.send now clientId content) { w with
        list := some (w.list.getD [] ++ [⟨⟨syntheticMessageId now (w.synthCounter + 1), me,
          some clientId, content⟩, some .sending⟩])
        synthCounter := (w.synthCounter + 1) % 2 ^ 24
        payloads := clientId :: w.payloads }
  | sendFails {w : ChatView} {clientId : String} :
      Step me w (.sendFails clientId) { w with list := w.list.map (markFirst clientId .failed) }
  | retry {w : ChatView} {clientId : String} : clientId ∈ w.payloads →
      Step me w (.retry clientId) { w with list := w.list.map (retryFirst clientId) }
  | cancel {w : ChatView} {clientId : String} :
      Step me w (.cancel clientId) { w with
        list := w.list.map (List.filter fun e => !hasClientId clientId e)
        payloads := w.payloads.filter fun c => decide (c ≠ clientId) }
  | render {w : ChatView} : Step me w .render { w with ref := w.list }

/-- The view is empty at first. -/
def system (me : ℕ) : System ChatView Act where
  init := fun w => w = ⟨none, none, false, false, [], 0, [], []⟩
  step := Step me

/-- No copy is of a message. -/
def Apart (page : List Message) (list : List ChatMessage) : Prop :=
  ∀ e ∈ list, e.pending = true → ∀ m ∈ page, e.message.clientId ≠ m.clientId

/-- **The condition on a step.** The first page has every message that has been there before;
once it is there, a message that arrives live is newer than all others, and what it replaces
is a copy or itself, and a later page is older than all that is there. No page has a message
whose copy is still in the list, and what fails, is sent again or is given up is a copy. -/
def InOrder (w : ChatView) : Act → Prop
  | .history page => (∀ id ∈ w.seen, id ∈ page.map Message.messageId) ∧
      ∀ list ∈ w.list, Apart page list
  | .older _ page => w.loaded = true → ∀ list ∈ w.list, Apart page list ∧
      ∀ m ∈ page, ∀ e ∈ list, e.confirmed = true → m.messageId < e.message.messageId
  | .live m => w.loaded = true → ∀ list ∈ w.list,
      (∀ e ∈ without m list, e.confirmed = true → e.message.messageId < m.messageId) ∧
      ∀ clientId ∈ m.key, ∀ e, list.find? (hasClientId clientId) = some e →
        e.confirmed = true → e.message.messageId = m.messageId
  | .sendFails clientId => ∀ list ∈ w.list, ∀ e ∈ list, hasClientId clientId e = true →
      e.pending = true
  | .retry clientId => ∀ list ∈ w.list, ∀ e ∈ list, hasClientId clientId e = true →
      e.pending = true
  | .cancel clientId => ∀ list ∈ w.list, ∀ e ∈ list, hasClientId clientId e = true →
      e.pending = true
  | _ => True

/-! ### What is to hold of the list -/

/-- The messages are in ascending order, and so each is there once. -/
def Ascending (list : List ChatMessage) : Prop :=
  (list.filter confirmed).Pairwise fun e e' => e.message.messageId < e'.message.messageId

/-- A message is there. -/
def Has (list : List ChatMessage) (id : ℕ) : Prop :=
  ∃ e ∈ list, e.confirmed = true ∧ e.message.messageId = id

/-- Copies have a `client_id` each, of their own. -/
def Copies (list : List ChatMessage) : Prop :=
  (∀ e ∈ list, e.pending = true → ∃ clientId ≠ "", e.message.clientId = some clientId) ∧
    ((list.filter pending).map fun e => e.message.clientId).Nodup

/-- No copy is of a message that is there. -/
def Single (list : List ChatMessage) : Prop :=
  ∀ e ∈ list, e.pending = true → ∀ e' ∈ list, e'.confirmed = true →
    e.message.clientId ≠ e'.message.clientId

section Lists

variable {list list' : List ChatMessage} {m : Message} {c : String} {e : ChatMessage} {id : ℕ}

/-- A message is confirmed, or it is pending. -/
theorem confirmed_or_pending (e : ChatMessage) : e.confirmed = true ∨ e.pending = true := by
  rcases e with ⟨m, _ | s⟩
  · exact .inl rfl
  · exact .inr rfl

/-- A confirmed message is not pending. -/
theorem not_pending_of_confirmed (h : e.confirmed = true) : ¬ e.pending = true := by
  rw [confirmed_eq_not] at h
  simpa using h

/-- Fewer messages are copies of different sends, too. -/
theorem Copies.sublist (h : Copies list) (hsub : list'.Sublist list) : Copies list' :=
  ⟨fun e he => h.1 e (hsub.subset he), h.2.sublist ((hsub.filter _).map _)⟩

/-- What a live message replaces is taken out of the list. -/
theorem without_sublist (m : Message) (list : List ChatMessage) :
    (without m list).Sublist list := by
  rw [without]
  split
  · exact List.eraseP_sublist
  · exact List.Sublist.refl _

/-- The first entry with a `client_id`, and what is around it. -/
theorem split_of_find? (h : list.find? (hasClientId c) = some e) : ∃ l₁ l₂, list = l₁ ++ e :: l₂ ∧
    list.eraseP (hasClientId c) = l₁ ++ l₂ ∧ e.message.clientId = some c := by
  obtain ⟨hp, l₁, l₂, rfl, hl₁⟩ := List.find?_eq_some_iff_append.mp h
  refine ⟨l₁, l₂, rfl, ?_, of_decide_eq_true hp⟩
  rw [List.eraseP_append_right _ (fun b hb => by simpa using hl₁ b hb),
    List.eraseP_cons_of_pos hp]

/-- What a message replaces is the first entry with its `client_id`. -/
theorem mem_without_or (he : e ∈ list) :
    e ∈ without m list ∨ ∃ c ∈ m.key, list.find? (hasClientId c) = some e := by
  rw [without]
  split
  · rename_i c hkey
    rcases hfind : list.find? (hasClientId c) with _ | e₀
    · rw [List.eraseP_of_forall_not (List.find?_eq_none.mp hfind)]
      exact .inl he
    · obtain ⟨l₁, l₂, rfl, herase, -⟩ := split_of_find? hfind
      rw [herase]
      rcases List.mem_append.mp he with he | he
      · exact .inl (List.mem_append_left _ he)
      · rcases List.mem_cons.mp he with rfl | he
        · exact .inr ⟨c, hkey, hfind⟩
        · exact .inl (List.mem_append_right _ he)
  · exact .inl he

/-- A message with a client id has it as its key. -/
theorem key_eq_some (hc : c ≠ "") (h : m.clientId = some c) : m.key = some c := by
  rw [Message.key, h, Option.filter_some, if_pos (decide_eq_true hc)]

/-- After a message has come, no copy of it is left. -/
theorem apart_without (hcopies : Copies list) (hsingle : Single list) (he : e ∈ without m list)
    (hpending : e.pending = true) : e.message.clientId ≠ m.clientId := by
  intro heq
  obtain ⟨c, hc, hclient⟩ := hcopies.1 e ((without_sublist m list).subset he) hpending
  rw [without, key_eq_some hc (heq.symm.trans hclient)] at he
  dsimp only at he
  rcases hfind : list.find? (hasClientId c) with _ | e₀
  · rw [List.eraseP_of_forall_not (List.find?_eq_none.mp hfind)] at he
    exact List.find?_eq_none.mp hfind e he (decide_eq_true hclient)
  · obtain ⟨l₁, l₂, rfl, herase, hclient₀⟩ := split_of_find? hfind
    rw [herase] at he
    rcases confirmed_or_pending e₀ with hconfirmed | hpending₀
    · refine hsingle e ?_ hpending e₀ (by simp) hconfirmed (hclient.trans hclient₀.symm)
      rw [List.mem_append, List.mem_cons]
      rcases List.mem_append.mp he with he | he
      · exact .inl he
      · exact .inr (.inr he)
    · -- two copies with one `client_id`
      have hnodup := hcopies.2
      rw [List.filter_append, List.filter_cons_of_pos hpending₀, List.map_append, List.map_cons,
        List.nodup_middle, List.nodup_cons] at hnodup
      refine hnodup.1 ?_
      rw [hclient₀, ← hclient, ← List.map_append, ← List.filter_append]
      exact List.mem_map_of_mem (List.mem_filter.mpr ⟨he, hpending⟩)

/-- Two lists in order, of which the second has the later messages, are in order. -/
theorem Ascending.append (h : Ascending list) (h' : Ascending list')
    (hlt : ∀ e ∈ list, e.confirmed = true → ∀ e' ∈ list', e'.confirmed = true →
      e.message.messageId < e'.message.messageId) : Ascending (list ++ list') := by
  rw [Ascending, List.filter_append, List.pairwise_append]
  refine ⟨h, h', fun e he e' he' => ?_⟩
  obtain ⟨he, hconfirmed⟩ := List.mem_filter.mp he
  obtain ⟨he', hconfirmed'⟩ := List.mem_filter.mp he'
  exact hlt e he hconfirmed e' he' hconfirmed'

/-- Fewer messages are in order, too. -/
theorem Ascending.sublist (h : Ascending list) (hsub : list'.Sublist list) : Ascending list' :=
  List.Pairwise.sublist (hsub.filter _) h

/-- A page, the oldest message first, is in order. -/
theorem ascending_page {page : List Message}
    (h : page.Pairwise fun m m' => m'.messageId < m.messageId) :
    Ascending (page.reverse.map (⟨·, none⟩)) := by
  rw [Ascending, List.filter_map]
  exact List.pairwise_map.mpr (List.Pairwise.filter _ (List.pairwise_reverse.mpr h))

/-- Pending messages do not matter to the order. -/
theorem ascending_of_pending (h : ∀ e ∈ list, e.pending = true) : Ascending list := by
  rw [Ascending, List.filter_eq_nil_iff.mpr fun e he hconfirmed =>
    not_pending_of_confirmed hconfirmed (h e he)]
  exact List.Pairwise.nil

/-- A page has no pending messages. -/
theorem pending_page {page : List Message} :
    (page.reverse.map fun m => (⟨m, none⟩ : ChatMessage)).filter pending = [] := by
  rw [List.filter_map]
  exact List.map_eq_nil_iff.mpr (List.filter_eq_nil_iff.mpr fun _ _ h => by cases h)

/-! ### The list after each step -/

/-- The list is as it should be, with the messages that are to be there. -/
structure Good (list : List ChatMessage) (seen : List ℕ) : Prop where
  ascending : Ascending list
  single : Single list
  has : ∀ id ∈ seen, Has list id

/-- The messages of a page are there. -/
theorem has_page {page : List Message} (h : id ∈ page.map Message.messageId) :
    Has (page.reverse.map (⟨·, none⟩) ++ list) id := by
  obtain ⟨m, hm, rfl⟩ := List.mem_map.mp h
  exact ⟨⟨m, none⟩, List.mem_append_left _ (List.mem_map_of_mem (List.mem_reverse.mpr hm)), rfl,
    rfl⟩

/-- What is in front of further messages is there. -/
theorem Has.append_left (h : Has list id) : Has (list ++ list') id := by
  obtain ⟨e, he, hof⟩ := h
  exact ⟨e, List.mem_append_left _ he, hof⟩

/-- What is behind further messages is there. -/
theorem Has.append_right (h : Has list' id) : Has (list ++ list') id := by
  obtain ⟨e, he, hof⟩ := h
  exact ⟨e, List.mem_append_right _ he, hof⟩

/-- **A live message** replaces its copy. -/
theorem Copies.live (h : Copies list) : Copies (without m list ++ [⟨m, none⟩]) := by
  have hwithout := h.sublist (without_sublist m list)
  refine ⟨fun e he hpending => ?_, ?_⟩
  · rcases List.mem_append.mp he with he | he
    · exact hwithout.1 e he hpending
    · obtain rfl := List.mem_singleton.mp he
      cases hpending
  · rw [List.filter_append, List.filter_cons_of_neg (by simp), List.filter_nil, List.append_nil]
    exact hwithout.2

/-- A message that arrives live, newer than the others. -/
theorem Good.live {seen : List ℕ} (h : Good list seen) (hcopies : Copies list)
    (hnewer : ∀ e ∈ without m list, e.confirmed = true → e.message.messageId < m.messageId)
    (hsame : ∀ clientId ∈ m.key, ∀ e, list.find? (hasClientId clientId) = some e →
      e.confirmed = true → e.message.messageId = m.messageId) :
    Good (without m list ++ [⟨m, none⟩]) (m.messageId :: seen) := by
  refine ⟨?_, ?_, ?_⟩
  · refine (h.ascending.sublist (without_sublist m list)).append (List.pairwise_singleton _ _) ?_
    intro e he hconfirmed e' he' _
    obtain rfl := List.mem_singleton.mp he'
    exact hnewer e he hconfirmed
  · intro e he hpending e' he' hconfirmed
    rcases List.mem_append.mp he with he | he
    · rcases List.mem_append.mp he' with he' | he'
      · exact h.single e ((without_sublist m list).subset he) hpending e'
          ((without_sublist m list).subset he') hconfirmed
      · obtain rfl := List.mem_singleton.mp he'
        exact apart_without hcopies h.single he hpending
    · obtain rfl := List.mem_singleton.mp he
      cases hpending
  · have hself : Has (without m list ++ [⟨m, none⟩]) m.messageId :=
      Has.append_right ⟨⟨m, none⟩, List.mem_singleton_self _, rfl, rfl⟩
    intro id hid
    rcases List.mem_cons.mp hid with rfl | hid
    · exact hself
    · obtain ⟨e, he, hconfirmed, rfl⟩ := h.has id hid
      rcases mem_without_or he with he | ⟨c, hc, hfind⟩
      · exact Has.append_left ⟨e, he, hconfirmed, rfl⟩
      · rw [hsame c hc e hfind hconfirmed]
        exact hself

/-- **A page that is merged** replaces the copies of its messages. -/
theorem Copies.merge {page : List Message} (h : Copies list) : Copies (merge page list) := by
  have hfiltered : Copies (list.filter fun e => e.pending &&
      !(page.map Message.messageId).contains e.message.messageId) := h.sublist List.filter_sublist
  rw [Web.merge]
  refine ⟨fun e he hpending => ?_, ?_⟩
  · rcases List.mem_append.mp he with he | he
    · obtain ⟨m, -, rfl⟩ := List.mem_map.mp he
      cases hpending
    · exact hfiltered.1 e he hpending
  · rw [List.filter_append, pending_page, List.nil_append]
    exact hfiltered.2

/-- The first page, with all that has been seen. -/
theorem Good.merge {seen : List ℕ} {page : List Message}
    (hpage : page.Pairwise fun m m' => m'.messageId < m.messageId) (hapart : Apart page list)
    (hseen : ∀ id ∈ seen, id ∈ page.map Message.messageId) :
    Good (merge page list) (page.map Message.messageId ++ seen) := by
  have hpending : ∀ e ∈ list.filter (fun e => e.pending &&
      !(page.map Message.messageId).contains e.message.messageId), e.pending = true :=
    fun e he => (Bool.and_eq_true_iff.mp (List.mem_filter.mp he).2).1
  rw [Web.merge]
  refine ⟨?_, ?_, ?_⟩
  · exact (ascending_page hpage).append (ascending_of_pending hpending) fun _ _ _ e' he' hc =>
      absurd (hpending e' he') (not_pending_of_confirmed hc)
  · intro e he hp e' he' hc
    rcases List.mem_append.mp he with he | he
    · obtain ⟨m, -, rfl⟩ := List.mem_map.mp he
      cases hp
    · rcases List.mem_append.mp he' with he' | he'
      · obtain ⟨m, hm, rfl⟩ := List.mem_map.mp he'
        exact hapart e (List.mem_of_mem_filter he) hp m (List.mem_reverse.mp hm)
      · exact absurd (hpending e' he') (not_pending_of_confirmed hc)
  · intro id hid
    rcases List.mem_append.mp hid with hid | hid
    · exact has_page hid
    · exact has_page (hseen id hid)

/-- A page of older messages has no copies. -/
theorem Copies.older {page : List Message} (h : Copies list) :
    Copies (page.reverse.map (⟨·, none⟩) ++ list) := by
  refine ⟨fun e he hpending => ?_, ?_⟩
  · rcases List.mem_append.mp he with he | he
    · obtain ⟨m, -, rfl⟩ := List.mem_map.mp he
      cases hpending
    · exact h.1 e he hpending
  · rw [List.filter_append, pending_page, List.nil_append]
    exact h.2

/-- A later page, older than what is there. -/
theorem Good.older {seen : List ℕ} {page : List Message} (h : Good list seen)
    (hpage : page.Pairwise fun m m' => m'.messageId < m.messageId) (hapart : Apart page list)
    (holder : ∀ m ∈ page, ∀ e ∈ list, e.confirmed = true →
      m.messageId < e.message.messageId) :
    Good (page.reverse.map (⟨·, none⟩) ++ list) (page.map Message.messageId ++ seen) := by
  refine ⟨?_, ?_, ?_⟩
  · refine (ascending_page hpage).append h.ascending ?_
    intro e he _ e' he' hconfirmed'
    obtain ⟨m, hm, rfl⟩ := List.mem_map.mp he
    exact holder m (List.mem_reverse.mp hm) e' he' hconfirmed'
  · intro e he hpending e' he' hconfirmed
    rcases List.mem_append.mp he with he | he
    · obtain ⟨m, -, rfl⟩ := List.mem_map.mp he
      cases hpending
    · rcases List.mem_append.mp he' with he' | he'
      · obtain ⟨m, hm, rfl⟩ := List.mem_map.mp he'
        exact hapart e he hpending m (List.mem_reverse.mp hm)
      · exact h.single e he hpending e' he' hconfirmed
  · intro id hid
    rcases List.mem_append.mp hid with hid | hid
    · exact has_page hid
    · exact (h.has id hid).append_right

/-- Copies come, go or change, and the messages stay. -/
theorem Good.of_confirmed {seen : List ℕ} (h : Good list seen)
    (hconfirmed : list'.filter confirmed = list.filter confirmed)
    (hpending : ∀ e ∈ list', e.pending = true → ∀ e' ∈ list, e'.confirmed = true →
      e.message.clientId ≠ e'.message.clientId) : Good list' seen := by
  have hmem : ∀ e, e.confirmed = true → (e ∈ list' ↔ e ∈ list) := fun e he => by
    rw [← and_iff_left (a := e ∈ list') he, ← and_iff_left (a := e ∈ list) he, ← List.mem_filter,
      ← List.mem_filter, hconfirmed]
  refine ⟨?_, ?_, ?_⟩
  · rw [Ascending, hconfirmed]
    exact h.ascending
  · exact fun e he hp e' he' hc => hpending e he hp e' ((hmem e' hc).mp he') hc
  · intro id hid
    obtain ⟨e, he, hc, rfl⟩ := h.has id hid
    exact ⟨e, (hmem e hc).mpr he, hc, rfl⟩

/-- The copies of a list are those of another, as far as their `client_id` goes. -/
def SameCopies (list list' : List ChatMessage) : Prop :=
  ((list'.filter pending).map fun e => e.message.clientId).Perm
    ((list.filter pending).map fun e => e.message.clientId)

/-- A pending message of the one list is one of the other. -/
theorem SameCopies.exists (h : SameCopies list list') (he : e ∈ list') (hp : e.pending = true) :
    ∃ e₀ ∈ list, e₀.pending = true ∧ e₀.message.clientId = e.message.clientId := by
  have hmem := h.subset (List.mem_map_of_mem (List.mem_filter.mpr ⟨he, hp⟩))
  obtain ⟨e₀, he₀, heq⟩ := List.mem_map.mp hmem
  obtain ⟨he₀, hp₀⟩ := List.mem_filter.mp he₀
  exact ⟨e₀, he₀, hp₀, heq⟩

/-- Lists with the same copies have them of different sends. -/
theorem Copies.of_same (h : Copies list) (hsame : SameCopies list list') : Copies list' := by
  refine ⟨fun e he hp => ?_, hsame.nodup_iff.mpr h.2⟩
  obtain ⟨e₀, he₀, hp₀, heq⟩ := hsame.exists he hp
  rw [← heq]
  exact h.1 e₀ he₀ hp₀

/-- Lists with the same copies and confirmed messages are equally good. -/
theorem Good.of_same {seen : List ℕ} (h : Good list seen)
    (hconfirmed : list'.filter confirmed = list.filter confirmed)
    (hsame : SameCopies list list') : Good list' seen := by
  refine h.of_confirmed hconfirmed fun e he hp e' he' hc => ?_
  obtain ⟨e₀, he₀, hp₀, heq⟩ := hsame.exists he hp
  rw [← heq]
  exact h.single e₀ he₀ hp₀ e' he' hc

/-- A pending message is not confirmed. -/
theorem not_confirmed_of_pending (h : e.pending = true) : ¬ e.confirmed = true :=
  fun hc => not_pending_of_confirmed hc h

/-- A status is set of a pending message only. -/
theorem confirmed_markFirst {status : SendStatus}
    (h : ∀ e ∈ list, hasClientId c e = true → e.pending = true) :
    (markFirst c status list).filter confirmed = list.filter confirmed := by
  induction list with
  | nil => rfl
  | cons e list ih =>
    obtain ⟨he, hlist⟩ := List.forall_mem_cons.mp h
    rw [markFirst]
    split
    · rename_i hc
      rw [List.filter_cons_of_neg (by simp),
        List.filter_cons_of_neg (not_confirmed_of_pending (he hc))]
    · rw [List.filter_cons, List.filter_cons, ih hlist]

/-- And the copies stay the same. -/
theorem sameCopies_markFirst {status : SendStatus}
    (h : ∀ e ∈ list, hasClientId c e = true → e.pending = true) :
    SameCopies list (markFirst c status list) := by
  induction list with
  | nil => exact .refl _
  | cons e list ih =>
    obtain ⟨he, hlist⟩ := List.forall_mem_cons.mp h
    rw [SameCopies, markFirst]
    split
    · rename_i hc
      rw [List.filter_cons_of_pos (by simp), List.filter_cons_of_pos (he hc)]
      exact .refl _
    · rcases hp : e.pending with _ | _
      · rw [List.filter_cons_of_neg (by simp [hp]), List.filter_cons_of_neg (by simp [hp])]
        exact ih hlist
      · rw [List.filter_cons_of_pos hp, List.filter_cons_of_pos hp, List.map_cons, List.map_cons]
        exact (ih hlist).cons _

/-- A copy that is sent once more is the same copy. -/
theorem retryFirst_same (h : ∀ e ∈ list, hasClientId c e = true → e.pending = true) :
    (retryFirst c list).filter confirmed = list.filter confirmed ∧
      SameCopies list (retryFirst c list) := by
  rw [retryFirst]
  split
  · exact ⟨rfl, .refl _⟩
  · rename_i e hfind
    obtain ⟨l₁, l₂, rfl, herase, hclient⟩ := split_of_find? hfind
    have hp : e.pending = true := h e (by simp) (decide_eq_true hclient)
    rw [herase]
    constructor
    · rw [List.filter_append, List.filter_append, List.filter_append,
        List.filter_cons_of_neg (by simp), List.filter_cons_of_neg (not_confirmed_of_pending hp),
        List.filter_nil, List.append_nil]
    · rw [SameCopies, List.filter_append, List.filter_append, List.filter_append,
        List.filter_cons_of_pos (by simp), List.filter_cons_of_pos hp, List.filter_nil,
        List.append_assoc, List.map_append, List.map_append, List.map_append, List.map_cons,
        List.map_cons, List.map_nil]
      exact (List.perm_append_singleton _ _).append_left _

/-- A copy that is cancelled takes no confirmed message with it. -/
theorem confirmed_cancel (h : ∀ e ∈ list, hasClientId c e = true → e.pending = true) :
    (list.filter fun e => !hasClientId c e).filter confirmed = list.filter confirmed := by
  rw [List.filter_filter]
  refine List.filter_congr fun e he => ?_
  rcases hc : hasClientId c e with _ | _
  · simp
  · simp [confirmed_eq_not, h e he hc]

/-- **A copy is added**, of a send of its own. -/
theorem Copies.send {id me : ℕ} {content : String} (h : Copies list) (hc : c ≠ "")
    (hnew : ∀ e ∈ list, e.message.clientId ≠ some c) :
    Copies (list ++ [⟨⟨id, me, some c, content⟩, some .sending⟩]) := by
  refine ⟨fun e he hp => ?_, ?_⟩
  · rcases List.mem_append.mp he with he | he
    · exact h.1 e he hp
    · obtain rfl := List.mem_singleton.mp he
      exact ⟨c, hc, rfl⟩
  · rw [List.filter_append, List.filter_cons_of_pos (by simp), List.filter_nil, List.map_append]
    refine List.nodup_append.mpr ⟨h.2, List.nodup_singleton _, ?_⟩
    intro x hx y hy
    obtain ⟨e, he, rfl⟩ := List.mem_map.mp hx
    obtain rfl := List.mem_singleton.mp hy
    exact hnew e (List.mem_of_mem_filter he)

/-- A copy that is added changes nothing in the order. -/
theorem Good.send {seen : List ℕ} {id me : ℕ} {content : String} (h : Good list seen)
    (hnew : ∀ e ∈ list, e.message.clientId ≠ some c) :
    Good (list ++ [⟨⟨id, me, some c, content⟩, some .sending⟩]) seen := by
  refine h.of_confirmed ?_ fun e he hp e' he' hc => ?_
  · rw [List.filter_append, List.filter_cons_of_neg (by simp), List.filter_nil, List.append_nil]
  · rcases List.mem_append.mp he with he | he
    · exact h.single e he hp e' he' hc
    · obtain rfl := List.mem_singleton.mp he
      exact (hnew e' he').symm

end Lists

/-! ### Runs -/

/-- The invariant: the list is as it should be from the first page on. -/
structure Sound (w : ChatView) : Prop where
  copies : ∀ list ∈ w.list, Copies list
  good : w.loaded = true → ∃ list, w.list = some list ∧ Good list w.seen

variable {me : ℕ} {w w' : ChatView} {a : Act}

/-- An empty list has no copies. -/
theorem Copies.nil : Copies [] :=
  ⟨fun _ h => absurd h List.not_mem_nil, List.nodup_nil⟩

/-- The copies of a view are of different sends. -/
theorem Sound.copies_getD (h : w.Sound) : Copies (w.list.getD []) := by
  rcases hlist : w.list with _ | list
  · exact .nil
  · exact h.copies list hlist

/-- A step that changes the list by a function that keeps what is to hold. -/
theorem Sound.map (h : w.Sound) {f : List ChatMessage → List ChatMessage} {payloads : List String}
    (hcopies : ∀ list ∈ w.list, Copies (f list))
    (hgood : ∀ list ∈ w.list, Good list w.seen → Good (f list) w.seen) :
    Sound { w with
      list := w.list.map f
      payloads := payloads } := by
  refine ⟨fun list hlist => ?_, fun hloaded => ?_⟩
  · obtain ⟨old, hold, rfl⟩ := Option.map_eq_some_iff.mp hlist
    exact hcopies old hold
  · obtain ⟨old, hold, hof⟩ := h.good hloaded
    refine ⟨f old, ?_, hgood old hold hof⟩
    dsimp only
    rw [hold, Option.map_some]

/-- **What happens** keeps a view sound. -/
theorem Sound.step (h : w.Sound) (hok : w.InOrder a) (hstep : Step me w a w') : w'.Sound := by
  cases hstep with
  | ensureHistory hloaded _ => exact ⟨h.copies, fun hyes => h.good hyes⟩
  | historyFails _ => exact ⟨h.copies, h.good⟩
  | loadMore _ => exact ⟨h.copies, h.good⟩
  | olderFails _ => exact ⟨h.copies, h.good⟩
  | render => exact ⟨h.copies, h.good⟩
  | @history page _ hpage =>
    have hapart : Apart page (w.list.getD []) := by
      rcases hlist : w.list with _ | list
      · exact fun _ he => absurd he List.not_mem_nil
      · exact hok.2 list hlist
    refine ⟨fun list hlist => ?_, fun _ => ⟨_, rfl, .merge hpage.descending hapart hok.1⟩⟩
    obtain rfl := Option.some_inj.mp hlist
    exact h.copies_getD.merge
  | @older before page _ hpage =>
    rcases hempty : page.isEmpty with _ | _
    · refine ⟨fun list hlist => ?_, fun hloaded => ?_⟩
      · obtain rfl := Option.some_inj.mp hlist
        exact h.copies_getD.older
      · obtain ⟨list, hlist, hgood⟩ := h.good hloaded
        obtain ⟨hapart, holder⟩ := hok hloaded list hlist
        refine ⟨_, rfl, ?_⟩
        rw [hlist]
        exact hgood.older hpage.descending hapart holder
    · obtain rfl := List.isEmpty_iff.mp hempty
      exact ⟨h.copies, h.good⟩
  | @live m =>
    refine ⟨fun list hlist => ?_, fun hloaded => ?_⟩
    · obtain ⟨old, hold, rfl⟩ := Option.map_eq_some_iff.mp hlist
      exact (h.copies old hold).live
    · obtain ⟨list, hlist, hgood⟩ := h.good hloaded
      obtain ⟨hnewer, hsame⟩ := hok hloaded list hlist
      refine ⟨without m list ++ [⟨m, none⟩], ?_, hgood.live (h.copies list hlist) hnewer hsame⟩
      dsimp only
      rw [hlist, Option.map_some]
  | @send now c content hc hnew =>
    have hnew' : ∀ e ∈ w.list.getD [], e.message.clientId ≠ some c := by
      rcases hlist : w.list with _ | list
      · exact fun _ he => absurd he List.not_mem_nil
      · exact hnew list hlist
    refine ⟨fun list hlist => ?_, fun hloaded => ?_⟩
    · obtain rfl := Option.some_inj.mp hlist
      exact h.copies_getD.send hc hnew'
    · obtain ⟨list, hlist, hgood⟩ := h.good hloaded
      refine ⟨_, rfl, ?_⟩
      rw [hlist]
      exact hgood.send (hnew list hlist)
  | sendFails =>
    exact h.map (fun list hlist => (h.copies list hlist).of_same
      (sameCopies_markFirst (hok list hlist))) fun list hlist hgood =>
        hgood.of_same (confirmed_markFirst (hok list hlist)) (sameCopies_markFirst (hok list hlist))
  | retry _ =>
    have hsame := fun list hlist => retryFirst_same (hok list hlist)
    exact h.map (fun list hlist => (h.copies list hlist).of_same (hsame list hlist).2)
      fun list hlist hgood => hgood.of_same (hsame list hlist).1 (hsame list hlist).2
  | cancel =>
    refine h.map (fun list hlist => (h.copies list hlist).sublist List.filter_sublist)
      fun list hlist hgood => hgood.of_confirmed (confirmed_cancel (hok list hlist)) ?_
    exact fun e he hp e' he' hc => hgood.single e (List.mem_of_mem_filter he) hp e' he' hc

end ChatView

open ChatView

/-- **Each message is there once**, in the runs in which pages and messages come in order: once
the history is loaded, the messages of the list are in ascending order, all that were on a page
or have arrived live are among them, and no copy is left of one that is. -/
theorem view_of_reach (me : ℕ) {w : ChatView} (hw : (system me).Reach InOrder w)
    (hloaded : w.loaded = true) : ∃ list, w.list = some list ∧ Ascending list ∧
      (∀ id ∈ w.seen, Has list id) ∧ Single list ∧
      ((∀ e ∈ list, e.confirmed = true) →
        list.Pairwise fun e e' => e.message.messageId < e'.message.messageId) := by
  have hsound : w.Sound := by
    refine hw.invariant (I := Sound) ?_ fun w a w' h hok hstep => h.step hok hstep
    rintro w rfl
    exact ⟨fun _ h => absurd h (Option.not_mem_none _), fun h => by cases h⟩
  obtain ⟨list, hlist, hgood⟩ := hsound.good hloaded
  refine ⟨list, hlist, hgood.ascending, hgood.has, hgood.single, fun hall => ?_⟩
  have hascending := hgood.ascending
  rw [Ascending, List.filter_eq_self.mpr hall] at hascending
  exact hascending

section Runs

/-- The messages of a channel. -/
def first : Message := ⟨1, 7, none, "hello"⟩

/-- It has no `client_id`. -/
def second : Message := ⟨2, 7, none, "bye"⟩

/-- Nothing is loaded yet. -/
def unloaded : ChatView := ⟨none, none, false, false, [], 0, [], []⟩

/-- The first page is on its way. -/
def asking : ChatView := { unloaded with loading := true }

/-- The view asks for the first page. -/
theorem step_asking (me : ℕ) : (system me).step unloaded .ensureHistory asking :=
  .ensureHistory rfl rfl

/-- A page of one message. -/
theorem isPage_first : IsPage none [first] :=
  ⟨by decide, List.pairwise_singleton _ _, fun _ h => absurd h (Option.not_mem_none _)⟩

/-- A page of both. -/
theorem isPage_both : IsPage none [second, first] :=
  ⟨by decide, by decide, fun _ h => absurd h (Option.not_mem_none _)⟩

/-- **A message that arrives while the first page is on its way is lost**, and one that is on
the page and then arrives without a `client_id` is there twice. -/
theorem lost_and_doubled : (∃ w, (system 9).Reachable w ∧ w.loaded = true ∧ w.loading = false ∧
      w.asked = [] ∧ second.messageId ∈ w.seen ∧ w.list = some [⟨first, none⟩]) ∧
    ∃ w, (system 9).Reachable w ∧ w.loaded = true ∧ w.loading = false ∧ w.asked = [] ∧
      w.list = some [⟨first, none⟩, ⟨second, none⟩, ⟨second, none⟩] := by
  have hstart : (system 9).Reachable unloaded := .start rfl
  have hasking := hstart.step trivial (step_asking 9)
  constructor
  · have hlive : (system 9).step asking (.live second) { asking with seen := [2] } := .live
    have hpage : (system 9).step { asking with seen := [2] } (.history [first])
        ⟨some [⟨first, none⟩], none, false, true, [], 0, [], [1, 2]⟩ := .history rfl isPage_first
    exact ⟨_, (hasking.step trivial hlive).step trivial hpage, rfl, rfl, rfl, by decide, rfl⟩
  · have hpage : (system 9).step asking (.history [second, first])
        ⟨some [⟨first, none⟩, ⟨second, none⟩], none, false, true, [], 0, [], [2, 1]⟩ :=
      .history rfl isPage_both
    have hlive : (system 9).step
        ⟨some [⟨first, none⟩, ⟨second, none⟩], none, false, true, [], 0, [], [2, 1]⟩ (.live second)
        ⟨some [⟨first, none⟩, ⟨second, none⟩, ⟨second, none⟩], none, false, true, [], 0, [],
          [2, 2, 1]⟩ := .live
    exact ⟨_, (hasking.step trivial hpage).step trivial hlive, rfl, rfl, rfl, rfl⟩

/-! ### A conversation -/

/-- A message of an older page. -/
def zeroth : Message := ⟨0, 7, none, "hi"⟩

/-- What user 9 says, as it comes back. -/
def echo : Message := ⟨2, 9, some "c", "good morning"⟩

/-- The first page has come. -/
def loaded : ChatView := ⟨some [⟨first, none⟩], none, false, true, [], 0, [], [1]⟩

/-- It has been rendered. -/
def rendered : ChatView := { loaded with ref := some [⟨first, none⟩] }

/-- The user has asked for what is older. -/
def scrolled : ChatView := { rendered with asked := [1] }

/-- And has said something. -/
def spoken : ChatView :=
  { scrolled with
    list := some [⟨first, none⟩, ⟨⟨1, 9, some "c", "good morning"⟩, some .sending⟩]
    synthCounter := 1
    payloads := ["c"] }

/-- The older page has come. -/
def paged : ChatView :=
  { spoken with
    list := some [⟨zeroth, none⟩, ⟨first, none⟩,
      ⟨⟨1, 9, some "c", "good morning"⟩, some .sending⟩]
    asked := []
    seen := [0, 1] }

/-- What the user has said comes back. -/
def viewed : ChatView :=
  { scrolled with
    list := some [⟨zeroth, none⟩, ⟨first, none⟩, ⟨echo, none⟩]
    asked := []
    synthCounter := 1
    seen := [2, 0, 1] }

/-- The user says something else, of which nothing has been heard yet. -/
def speaking : ChatView :=
  { viewed with
    list := some [⟨zeroth, none⟩, ⟨first, none⟩, ⟨echo, none⟩,
      ⟨⟨2, 9, some "d", "how are you?"⟩, some .sending⟩]
    synthCounter := 2
    payloads := ["d"] }

/-- The run in which a message comes live is in order. -/
theorem reach_spoken : (system 9).Reach InOrder spoken := by
  have hasking : (system 9).Reach InOrder asking :=
    .step (.start rfl) (by trivial) (step_asking 9)
  have hpage : (system 9).step asking (.history [first]) loaded := .history rfl isPage_first
  have hpageOk : InOrder asking (.history [first]) :=
    ⟨fun _ h => absurd h List.not_mem_nil, fun _ h => absurd h (Option.not_mem_none _)⟩
  have hrender : (system 9).step loaded .render rendered := .render
  have hmore : (system 9).step rendered .loadMore scrolled :=
    .loadMore (w := rendered) (show _ = some (⟨first, none⟩ :: []) from rfl)
  have hsend : (system 9).step scrolled (.send sonyflakeEpochMs "c" "good morning") spoken := by
    refine .send (by decide) fun list hlist => ?_
    obtain rfl := Option.some_inj.mp hlist
    decide
  exact (((hasking.step hpageOk hpage).step (by trivial) hrender).step (by trivial) hmore).step
    (by trivial) hsend

/-- So is the one with a copy, a later page and its echo. -/
theorem reach_speaking : (system 9).Reach InOrder speaking := by
  have holder : (system 9).step spoken (.older 1 [zeroth]) paged :=
    .older List.mem_cons_self ⟨by decide, List.pairwise_singleton _ _, by decide⟩
  have holderOk : InOrder spoken (.older 1 [zeroth]) := by
    intro _ list hlist
    obtain rfl := Option.some_inj.mp hlist
    refine ⟨?_, by decide⟩
    rw [Apart]
    decide
  have hlive : (system 9).step paged (.live echo) viewed := .live
  have hliveOk : InOrder paged (.live echo) := by
    intro _ list hlist
    obtain rfl := Option.some_inj.mp hlist
    refine ⟨by decide, fun c hc e he hconfirmed => ?_⟩
    -- what it replaces is the copy
    obtain rfl : "c" = c := Option.some_inj.mp hc
    obtain rfl := Option.some_inj.mp he
    cases hconfirmed
  have hsend : (system 9).step viewed (.send sonyflakeEpochMs "d" "how are you?") speaking := by
    refine .send (by decide) fun list hlist => ?_
    obtain rfl := Option.some_inj.mp hlist
    decide
  exact ((reach_spoken.step holderOk holder).step hliveOk hlive).step (by trivial) hsend

/-- What is shown in the end: three messages, and a copy that is being sent. -/
theorem view_of_viewed :
    speaking.list = some [⟨zeroth, none⟩, ⟨first, none⟩, ⟨echo, none⟩,
      ⟨⟨2, 9, some "d", "how are you?"⟩, some .sending⟩] ∧
    ∃ list, speaking.list = some list ∧ Ascending list ∧ (∀ id ∈ speaking.seen, Has list id) ∧
      Single list := by
  obtain ⟨list, hlist, hascending, hhas, hsingle, -⟩ := view_of_reach 9 reach_speaking rfl
  exact ⟨rfl, list, hlist, hascending, hhas, hsingle⟩

end Runs

end Web

end MateHub
