import MateHub.Chat.Access
import MateHub.Chat.Store

/-!
# Who may edit and delete a message

The handlers of the chat service that edit or delete a message ask whether the caller may
write in the channel, and then write to the row that the request names, whoever is its
author, and even if there is no such message: an update of this database makes the row. The
data layer leaves the check of the author to the handlers. So a request of someone else is
turned down exactly if the caller may not write in the channel, or an edit has no text, or
the database fails (`MateHub.Chat.authorship_iff`).
-/

namespace MateHub

namespace Chat

open Hub (Db Status effectivePermissions hasPermission)

/-! ### The text of a message -/

/-- The loop of `sanitize_content`; `n` newlines come before. -/
def sanitizeChars : ℕ → List Char → List Char
  | _, [] => []
  | n, c :: cs =>
    if c = '\n' then
      if n + 1 ≤ 2 then c :: sanitizeChars (n + 1) cs else sanitizeChars (n + 1) cs
    else c :: sanitizeChars 0 cs

/-- `sanitize_content`: of newlines in a row, two are left. -/
def sanitizeContent (content : String) : String := .ofList (sanitizeChars 0 content.toList)

/-- `parse_mentions`; `isAlphanumeric` is the table of Unicode. -/
def parseMentions (isAlphanumeric : Char → Bool) (content : String) : List String :=
  let names := ((Text.words content.toList).filter fun w => w.head? == some '@' && 1 < w.length).map
    fun w => String.ofList (Text.trimEnd (fun c => !isAlphanumeric c) w.tail)
  names.filter fun s => !s.isEmpty && s != "everyone" && s != "here"

/-- A text holds another. -/
def containsText (s t : String) : Bool := s.toList.tails.any fun l => t.toList.isPrefixOf l

theorem sanitizeContent_isEmpty (s : String) : (sanitizeContent s).isEmpty = s.isEmpty := by
  rcases hs : s.toList with _ | ⟨c, cs⟩
  · rw [sanitizeContent, hs, String.toList_eq_nil_iff.mp hs]
    rfl
  · have hcons : (sanitizeContent s).toList ≠ [] := by
      rw [sanitizeContent, hs, String.toList_ofList, sanitizeChars]
      split
      · simp
      · exact List.cons_ne_nil _ _
    have hne : s ≠ "" := fun h => by simp [h] at hs
    have hne' : sanitizeContent s ≠ "" := fun h => hcons (String.toList_eq_nil_iff.mpr h)
    rw [Bool.eq_iff_iff, String.isEmpty_iff, String.isEmpty_iff]
    exact iff_of_false hne' hne

/-! ### The table of messages -/

/-- The key of a row: the partition, and the message. -/
structure MessageKey where
  hubId : I64
  channelId : I64
  bucket : ℤ
  messageId : I64
  deriving DecidableEq

/-- The cells of a row, each of which may be unset. -/
structure Cells where
  authorId : Option (List Char)
  authorType : Option String
  content : Option String
  threadRootId : Option I64
  mentions : Option (List String)
  mentionGroups : Option (List String)
  mentionEveryone : Option Bool
  attachments : Option (List String)
  editedAt : Option Instant
  deletedAt : Option Instant
  clientId : Option String
  deriving DecidableEq

/-- No cell is written. -/
def Cells.unset : Cells := ⟨none, none, none, none, none, none, none, none, none, none, none⟩

/-- The table `messages`. -/
abbrev Messages := MessageKey → Option Cells

/-- An update, which makes the row if it is not there. -/
def Messages.upsert (m : Messages) (key : MessageKey) (f : Cells → Cells) : Messages :=
  Function.update m key (some (f ((m key).getD .unset)))

/-- `edit_message` of the data layer. -/
def Messages.editMessage (m : Messages) (key : MessageKey) (newContent : String)
    (mentions mentionGroups : List String) (mentionEveryone : Bool) (now : Instant) : Messages :=
  m.upsert key fun cells => { cells with
    content := some newContent
    editedAt := some now
    mentions := some mentions
    mentionGroups := some mentionGroups
    mentionEveryone := some mentionEveryone }

/-- `delete_message` of the data layer. -/
def Messages.deleteMessage (m : Messages) (key : MessageKey) (now : Instant) : Messages :=
  m.upsert key fun cells => { cells with
    deletedAt := some now
    content := some "" }

/-! ### The handlers -/

/-- The payload of a published event. -/
inductive Payload
  | edited (messageId channelId : I64) (content : String)
  | deleted (messageId channelId : I64)
  deriving DecidableEq

/-- The stored messages, and what has been published, by subject. -/
structure ChatState where
  messages : Messages
  published : List (List Char × Payload)

/-- What the handlers use: the access check, the table of alphanumeric characters, the
time, and whether the database carries out a statement. -/
structure Request where
  check : I64 → I64 → I64 → Action → Bool
  isAlphanumeric : Char → Bool
  now : Instant
  executes : Bool
  claims : Claims
  channelId : I64
  messageId : I64

variable (st : ChatState) (req : Request)

/-- The row that a request names. -/
def Request.key : MessageKey :=
  ⟨req.claims.hubId, req.channelId, bucketFromId req.messageId.1, req.messageId⟩

/-- The access check of a request. -/
def Request.allowed : Bool :=
  req.check req.claims.hubId req.channelId req.claims.sub .write

/-- The state after an edit. -/
def ChatState.afterEdit (content sanitized : String) : ChatState where
  messages := st.messages.editMessage req.key sanitized (parseMentions req.isAlphanumeric sanitized)
    [] (containsText sanitized "@everyone") req.now
  published := st.published ++ [(Kind.messageUpdate.publish req.claims.hubId req.channelId,
    .edited req.messageId req.channelId (Text.trim content))]

/-- The state after a deletion. -/
def ChatState.afterDelete : ChatState where
  messages := st.messages.deleteMessage req.key req.now
  published := st.published ++ [(Kind.messageDelete.publish req.claims.hubId req.channelId,
    .deleted req.messageId req.channelId)]

/-- `edit_message`: the handler, from the access check on. -/
def editMessage (content : String) : Except Status Unit × ChatState :=
  if !req.allowed then (.error .forbidden, st)
  else
    let sanitized := sanitizeContent (Text.trim content)
    if sanitized.isEmpty then (.error .badRequest, st)
    else if !req.executes then (.error .internalServerError, st)
    else (.ok (), st.afterEdit req content sanitized)

/-- `delete_message`: the handler, from the access check on. -/
def deleteMessage : Except Status Unit × ChatState :=
  if !req.allowed then (.error .forbidden, st)
  else if !req.executes then (.error .internalServerError, st)
  else (.ok (), st.afterDelete req)

/-! ### Who may do what -/

/-- The caller is the author of the message. -/
def IsAuthor (key : MessageKey) (userId : I64) : Prop :=
  (st.messages key).bind Cells.authorId = some userId.display

instance (key : MessageKey) (userId : I64) : Decidable (IsAuthor st key userId) :=
  inferInstanceAs (Decidable (_ = _))

/-- The permission `ADMIN_CHANNEL`, as it is resolved in a channel. -/
def holdsAdminChannel (db : Db) (hubId channelId userId : I64) : Bool :=
  match db.channel? hubId channelId with
  | none => false
  | some channel => channel.channelType != "dm" &&
    ((db.resolveUserPerms hubId userId).isAdmin ||
      hasPermission (effectivePermissions (db.channelPermsOf hubId channelId userId))
        Hub.Bits.adminChannel)

/-- **A request is for some callers only**: it changes a cell of a message only for those
who may, and everyone else is refused and changes nothing. -/
structure OnlyFor {α : Type} (may : MessageKey → Prop) (cell : Cells → α)
    (r : Except Status Unit × ChatState) : Prop where
  changes : ∀ key, (r.2.messages key).map cell ≠ (st.messages key).map cell → may key
  refused : ¬ may req.key → r.1 ≠ .ok () ∧ r.2 = st

variable {st req} {α : Type} {may : MessageKey → Prop} {cell : Cells → α}

/-- A handler that refuses, or changes one row. -/
theorem onlyFor_iff {r : Except Status Unit × ChatState} {refuses : Prop}
    (herr : refuses → r.1 ≠ .ok () ∧ r.2 = st) (hok : ¬ refuses → r.1 = .ok ())
    (hrow : ∀ key, key ≠ req.key → r.2.messages key = st.messages key) :
    OnlyFor st req may cell r ↔ may req.key ∨ refuses := by
  constructor
  · intro h
    by_contra hno
    rw [not_or] at hno
    exact (h.refused hno.1).1 (hok hno.2)
  · rintro (hmay | hrefuses)
    · refine ⟨fun key hne => ?_, fun hno => absurd hmay hno⟩
      by_contra hother
      exact hne (by rw [hrow key (fun heq => hother (heq ▸ hmay))])
    · exact ⟨fun key hne => absurd (by rw [(herr hrefuses).2]) hne, fun _ => herr hrefuses⟩

theorem editMessage_onlyFor (content : String) :
    OnlyFor st req may cell (editMessage st req content) ↔ may req.key ∨
      (req.allowed = false ∨ (Text.trim content).isEmpty = true ∨ req.executes = false) := by
  refine onlyFor_iff ?_ ?_ fun key hne => ?_
  · rintro (h | h | h)
    · simp [editMessage, h]
    · by_cases ha : req.allowed = true <;> simp [editMessage, sanitizeContent_isEmpty, h, ha]
    · by_cases ha : req.allowed = true <;>
        by_cases hc : (Text.trim content).isEmpty = true <;>
          simp [editMessage, sanitizeContent_isEmpty, h, ha, hc]
  · intro h
    simp only [not_or, Bool.not_eq_false, Bool.not_eq_true] at h
    simp [editMessage, sanitizeContent_isEmpty, h]
  · dsimp only [editMessage]
    split_ifs
    · rfl
    · rfl
    · rfl
    · exact Function.update_of_ne hne _ _

theorem deleteMessage_onlyFor :
    OnlyFor st req may cell (deleteMessage st req) ↔ may req.key ∨
      (req.allowed = false ∨ req.executes = false) := by
  refine onlyFor_iff ?_ ?_ fun key hne => ?_
  · rintro (h | h)
    · simp [deleteMessage, h]
    · by_cases ha : req.allowed = true <;> simp [deleteMessage, h, ha]
  · intro h
    simp only [not_or, Bool.not_eq_false] at h
    simp [deleteMessage, h]
  · dsimp only [deleteMessage]
    split_ifs
    · rfl
    · rfl
    · exact Function.update_of_ne hne _ _

/-- **Authorship**: an edit is for the author only, exactly if the caller is the author, or
the request is turned down for another reason; a deletion is for the author and those who
administer the channel, exactly if the caller is one of them, or likewise. -/
theorem authorship_iff (db : Db) (st : ChatState) (req : Request) (content : String) :
    (OnlyFor st req (fun key => IsAuthor st key req.claims.sub) Cells.content
        (editMessage st req content) ↔
      IsAuthor st req.key req.claims.sub ∨ (req.allowed = false ∨
        (Text.trim content).isEmpty = true ∨ req.executes = false)) ∧
    (OnlyFor st req (fun key => IsAuthor st key req.claims.sub ∨
        holdsAdminChannel db key.hubId key.channelId req.claims.sub = true) Cells.deletedAt
        (deleteMessage st req) ↔
      (IsAuthor st req.key req.claims.sub ∨
        holdsAdminChannel db req.claims.hubId req.channelId req.claims.sub = true) ∨
        (req.allowed = false ∨ req.executes = false)) :=
  ⟨editMessage_onlyFor content, deleteMessage_onlyFor⟩

section Seed

open Hub.Seed

/-- Charlie names a message of Bob's. -/
def charlieNames : Request where
  check := checkUncached devSeed
  isAlphanumeric := Char.isAlphanum
  now := 7
  executes := true
  claims := ⟨charlie, "charlie", hub⟩
  channelId := general
  messageId := i64 1

/-- The message of Bob's. -/
def bobsMessage : ChatState where
  messages := Function.update (fun _ => none) charlieNames.key (some { Cells.unset with
    authorId := some bob.display
    content := some "hello" })
  published := []

theorem charlie_not_author : ¬ IsAuthor bobsMessage charlieNames.key charlie := by decide

/-- **Charlie edits and deletes Bob's message**, being neither its author nor an
administrator of the channel. -/
theorem edited_by_another :
    ¬ OnlyFor bobsMessage charlieNames (fun key => IsAuthor bobsMessage key charlie) Cells.content
        (editMessage bobsMessage charlieNames "bye") ∧
    ¬ OnlyFor bobsMessage charlieNames (fun key => IsAuthor bobsMessage key charlie ∨
        holdsAdminChannel devSeed key.hubId key.channelId charlie = true) Cells.deletedAt
        (deleteMessage bobsMessage charlieNames) := by
  rw [editMessage_onlyFor, deleteMessage_onlyFor]
  refine ⟨?_, ?_⟩
  · rintro (h | h)
    · exact charlie_not_author h
    · revert h
      decide
  · rintro ((h | h) | h)
    · exact charlie_not_author h
    · revert h
      decide
    · revert h
      decide

end Seed

end Chat

end MateHub
