import Mathlib.Data.Rat.Init
import MateHub.Chat.Authorship
import MateHub.Lib.Text

/-!
# Attachments

An upload puts an object into the storage, under a key that begins with the hub, the channel
and the id of the attachment, and answers with a description of it. The client lists this
description when it sends the message; only then does the service write a row of the index of
attachments, from which `stream_attachment` takes the URL that it fetches and the channel
whose readers it serves. A video that browsers do not play is converted by the transcoder, and
its result replaces the URL in the message and in the index.

The storage is public by URL. The service puts an object under its key, and gets it by a URL with
the key in it, which it does not escape; what is served at a URL is up to the client that parses it
and to the storage.
-/

namespace MateHub

namespace Chat

/-! ### The descriptions -/

/-- The processing status of an attachment. -/
inductive AttachmentStatus
  | ready
  | transcoding
  | failed
  deriving DecidableEq

/-- An attachment, as clients list it and rows keep it. -/
structure Attachment where
  id : List Char
  url : List Char
  contentType : String
  name : List Char
  size : ℕ
  width : Option ℕ
  height : Option ℕ
  duration : Option ℚ
  thumbUrl : Option String
  status : AttachmentStatus
  deriving DecidableEq

/-- `needs_transcode`. -/
def needsTranscode (contentType : String) : Bool :=
  contentType ∈ ["video/quicktime", "video/x-msvideo", "video/x-matroska", "video/3gpp",
    "video/x-ms-wmv"]

/-- `BLOCKED_MIMES`. -/
def blockedMimes : List String :=
  ["application/x-msdownload", "application/x-ms-installer", "application/x-msi",
    "application/x-bat", "application/x-sh", "application/x-csh",
    "application/x-msdos-program", "application/vnd.microsoft.portable-executable",
    "application/x-mach-binary", "application/x-elf", "application/x-executable"]

/-! ### The storage -/

/-- Where the storage is: the base of its public URLs, and the bucket. -/
structure S3Storage where
  publicUrlBase : List Char
  bucket : List Char

/-- `public_url`. -/
def S3Storage.publicUrl (s3 : S3Storage) (key : List Char) : List Char :=
  s3.publicUrlBase ++ '/' :: s3.bucket ++ '/' :: key

/-- `strip_prefix`. -/
def stripPrefix (pre s : List Char) : Option (List Char) :=
  if pre.isPrefixOf s then some (s.drop pre.length) else none

/-- The part after the first slash. -/
def afterSlash (s : List Char) : Option (List Char) :=
  match s.dropWhile fun c => decide (c ≠ '/') with
  | [] => none
  | _ :: rest => some rest

/-- `build_s3_key`: what follows the host and the bucket. -/
def buildS3Key (url : List Char) : Option (List Char) := do
  let withoutProto ← (stripPrefix "https://".toList url).or (stripPrefix "http://".toList url)
  let behindHost ← afterSlash withoutProto
  afterSlash behindHost

/-- The beginning of the keys of an attachment. -/
def keyStem (hubId channelId : I64) (attachmentId : List Char) : List Char :=
  hubId.display ++ '/' :: (channelId.display ++ '/' :: attachmentId)

/-- The key of an uploaded file. -/
def uploadKey (hubId channelId attachmentId : I64) (randSuffix : ℕ) (ext : List Char) :
    List Char :=
  keyStem hubId channelId attachmentId.display ++ '_' :: (Text.hex016 randSuffix ++ '.' :: ext)

/-- The key of a converted file. -/
def outKey (hubId channelId : I64) (attachmentId : List Char) : List Char :=
  keyStem hubId channelId attachmentId ++ '_' :: ("transcoded".toList ++ '.' :: "mp4".toList)

/-! ### The tables -/

/-- The message that a row of the index belongs to. -/
structure Place where
  hubId : I64
  channelId : I64
  messageId : I64
  bucket : ℤ
  deriving DecidableEq

/-- `AttachmentIndexRow`; the place is unset in a row that is made by an `UPDATE`. -/
structure IndexRow where
  place : Option Place
  url : List Char
  contentType : String
  size : ℤ
  deriving DecidableEq

/-- The cast `as i64`. -/
def asI64 (n : ℤ) : ℤ := (n + 2 ^ 63) % 2 ^ 64 - 2 ^ 63

/-- A message as far as its attachments go. -/
structure Posted where
  author : I64
  attachments : List Attachment
  deriving DecidableEq

/-- The table `messages`, and the table `attachments`, which is the index. -/
structure MediaStore where
  messages : MessageKey → Option Posted
  index : List Char → Option IndexRow

namespace MediaStore

variable (st : MediaStore)

/-- `get_message_attachments`, with the default that its caller takes. -/
def attachmentsOf (key : MessageKey) : List Attachment :=
  ((st.messages key).map Posted.attachments).getD []

/-- `update_attachments`, of a message that is there. -/
def updateAttachments (key : MessageKey) (attachments : List Attachment) : MediaStore :=
  { st with
    messages := Function.update st.messages key
      ((st.messages key).map fun posted => { posted with attachments }) }

/-- `insert_attachment_index_row`. -/
def insertIndexRow (a : Attachment) (place : Place) : MediaStore :=
  { st with
    index := Function.update st.index a.id
      (some ⟨some place, a.url, a.contentType, asI64 a.size⟩) }

/-- `update_attachment_index_row`. -/
def updateIndexRow (attachmentId url : List Char) (contentType : String) (size : ℕ) :
    MediaStore :=
  { st with
    index := Function.update st.index attachmentId
      (some ⟨(st.index attachmentId).bind IndexRow.place, url, contentType, asI64 size⟩) }

/-- The loop of `send_message` over the attachments; `inserts` says which of the statements go
through. -/
def indexAttachments (inserts : Attachment → Bool) (place : Place) (attachments : List Attachment) :
    MediaStore :=
  attachments.foldl (fun st a =>
    if a.id.isEmpty then st else if inserts a then st.insertIndexRow a place else st) st

end MediaStore

/-! ### Conversion -/

/-- A job for the transcoder. -/
structure TranscodeRequest where
  attachmentId : List Char
  hubId : I64
  channelId : I64
  messageId : I64
  bucket : ℤ
  sourceKey : List Char
  sourceMime : String
  sourceName : List Char
  targetPreset : String
  deriving DecidableEq

/-- `make_request`. -/
def makeRequest (a : Attachment) (sourceKey : List Char) (place : Place) : TranscodeRequest where
  attachmentId := a.id
  hubId := place.hubId
  channelId := place.channelId
  messageId := place.messageId
  bucket := place.bucket
  sourceKey := sourceKey
  sourceMime := a.contentType
  sourceName := a.name
  targetPreset := "mp4_h264_aac"

/-- What `send_message` asks the transcoder for. -/
def transcodeRequests (place : Place) (attachments : List Attachment) : List TranscodeRequest :=
  (attachments.filter fun a => a.status = .transcoding).filterMap fun a =>
    (buildS3Key a.url).map fun sourceKey => makeRequest a sourceKey place

/-- How a job has ended. -/
inductive TranscodeStatus
  | ok (url : List Char) (contentType : String) (width height : Option ℕ) (duration : Option ℚ)
    (size : ℕ)
  | failed (error : String)
  deriving DecidableEq

/-- What the transcoder answers to a job. -/
structure TranscodeResult where
  attachmentId : List Char
  hubId : I64
  channelId : I64
  messageId : I64
  bucket : ℤ
  status : TranscodeStatus
  deriving DecidableEq

/-- The message of a result. -/
def TranscodeResult.key (res : TranscodeResult) : MessageKey :=
  ⟨res.hubId, res.channelId, res.bucket, res.messageId⟩

/-- What a result makes of its attachment. -/
def TranscodeStatus.apply (a : Attachment) : TranscodeStatus → Attachment
  | .ok url contentType width height duration size =>
    { a with
      url := url
      contentType := contentType
      width := width.or a.width
      height := height.or a.height
      duration := duration.or a.duration
      size := size
      status := .ready }
  | .failed _ => { a with status := .failed }

/-- The loop of `handle_result`: the first attachment with the id is changed, if there is
one. -/
def applyResult (id : List Char) (status : TranscodeStatus) :
    List Attachment → Option (List Attachment)
  | [] => none
  | a :: as =>
    if a.id = id then some (status.apply a :: as)
    else (applyResult id status as).map (a :: ·)

/-- How the statements of `handle_result` go. -/
inductive Outcome
  /-- All are carried out. -/
  | done
  | readFails
  /-- The `UPDATE` of the message fails; it is carried out all the same, if only the reply is
  lost. -/
  | listFails (executed : Bool)
  /-- The `UPDATE` of the index fails. -/
  | indexFails
  deriving DecidableEq

/-- The `UPDATE` of the index, for a result that is a success. -/
def MediaStore.indexResult (st : MediaStore) (res : TranscodeResult) : MediaStore :=
  match res.status with
  | .ok url contentType _ _ _ size => st.updateIndexRow res.attachmentId url contentType size
  | .failed _ => st

/-- `handle_result`. -/
def handleResult (st : MediaStore) (res : TranscodeResult) (o : Outcome) : MediaStore :=
  match applyResult res.attachmentId res.status (st.attachmentsOf res.key) with
  | none => st
  | some attachments =>
    match o with
    | .readFails => st
    | .listFails executed => if executed then st.updateAttachments res.key attachments else st
    | .indexFails => st.updateAttachments res.key attachments
    | .done => (st.updateAttachments res.key attachments).indexResult res

/-! ### What the statements do -/

section Lemmas

variable {st : MediaStore} {id : List Char} {status : TranscodeStatus} {as as' : List Attachment}
  {inserts : Attachment → Bool} {place : Place}

@[simp] theorem TranscodeStatus.apply_id (status : TranscodeStatus) (a : Attachment) :
    (status.apply a).id = a.id := by
  cases status <;> rfl

theorem applyResult_isSome : (applyResult id status as).isSome = true ↔ ∃ a ∈ as, a.id = id := by
  induction as with
  | nil => simp [applyResult]
  | cons a as ih =>
    rw [applyResult]
    split
    · rename_i heq
      exact iff_of_true rfl ⟨a, List.mem_cons_self, heq⟩
    · rename_i hne
      rw [Option.isSome_map, ih]
      simp [hne]

/-- Only an attachment with the id changes. -/
theorem mem_applyResult (h : applyResult id status as = some as') {a' : Attachment}
    (ha' : a' ∈ as') : a' ∈ as ∨ ∃ a ∈ as, a.id = id ∧ a' = status.apply a := by
  induction as generalizing as' with
  | nil => cases h
  | cons a as ih =>
    rw [applyResult] at h
    split at h
    · rename_i heq
      obtain rfl := Option.some_inj.mp h
      rcases List.mem_cons.mp ha' with rfl | hmem
      · exact .inr ⟨a, List.mem_cons_self, heq, rfl⟩
      · exact .inl (List.mem_cons_of_mem _ hmem)
    · obtain ⟨bs, hbs, rfl⟩ := Option.map_eq_some_iff.mp h
      rcases List.mem_cons.mp ha' with rfl | hmem
      · exact .inl List.mem_cons_self
      · rcases ih hbs hmem with hold | ⟨b, hb, hid, rfl⟩
        · exact .inl (List.mem_cons_of_mem _ hold)
        · exact .inr ⟨b, List.mem_cons_of_mem _ hb, hid, rfl⟩

theorem messages_indexAttachments :
    (st.indexAttachments inserts place as).messages = st.messages := by
  induction as generalizing st with
  | nil => rfl
  | cons a as ih =>
    rw [MediaStore.indexAttachments, List.foldl_cons]
    refine ih.trans ?_
    split
    · rfl
    · split <;> rfl

/-- A row of the index after a send is an old one, or one of an attachment. -/
theorem index_indexAttachments {row : IndexRow}
    (h : (st.indexAttachments inserts place as).index id = some row) : st.index id = some row ∨
      ∃ a ∈ as, a.id = id ∧ row = ⟨some place, a.url, a.contentType, asI64 a.size⟩ := by
  induction as generalizing st with
  | nil => exact .inl h
  | cons a as ih =>
    rw [MediaStore.indexAttachments, List.foldl_cons] at h
    rcases ih h with hrow | ⟨b, hb, hid, hrow⟩
    · split at hrow
      · exact .inl hrow
      · split at hrow
        · dsimp only [MediaStore.insertIndexRow] at hrow
          by_cases heq : id = a.id
          · subst heq
            rw [Function.update_self, Option.some_inj] at hrow
            exact .inr ⟨a, List.mem_cons_self, rfl, hrow.symm⟩
          · rw [Function.update_of_ne heq] at hrow
            exact .inl hrow
        · exact .inl hrow
    · exact .inr ⟨b, List.mem_cons_of_mem _ hb, hid, hrow⟩

/-- No row of the index goes away. -/
theorem isSome_indexAttachments (inserts : Attachment → Bool) (place : Place)
    (as : List Attachment) (h : (st.index id).isSome = true) :
    ((st.indexAttachments inserts place as).index id).isSome = true := by
  induction as generalizing st with
  | nil => exact h
  | cons a as ih =>
    rw [MediaStore.indexAttachments, List.foldl_cons]
    refine ih ?_
    split
    · exact h
    · split
      · dsimp only [MediaStore.insertIndexRow]
        by_cases heq : id = a.id
        · rw [heq, Function.update_self]
          rfl
        · rwa [Function.update_of_ne heq]
      · exact h

variable {res : TranscodeResult} {o : Outcome}

theorem messages_indexResult (st : MediaStore) (res : TranscodeResult) :
    (st.indexResult res).messages = st.messages := by
  rw [MediaStore.indexResult]
  split <;> rfl

/-- No message gets another author. -/
theorem authors_handleResult (st : MediaStore) (res : TranscodeResult) (o : Outcome)
    (key : MessageKey) :
    ((handleResult st res o).messages key).map Posted.author =
      (st.messages key).map Posted.author := by
  have hupdate : ∀ as, ((st.updateAttachments res.key as).messages key).map Posted.author =
      (st.messages key).map Posted.author := fun as => by
    dsimp only [MediaStore.updateAttachments]
    by_cases hkey : key = res.key
    · subst hkey
      rw [Function.update_self, Option.map_map]
      rfl
    · rw [Function.update_of_ne hkey]
  rw [handleResult]
  split
  · rfl
  · split
    · rfl
    · split
      · exact hupdate _
      · rfl
    · exact hupdate _
    · rw [messages_indexResult]
      exact hupdate _

/-- What a result does to the messages. -/
theorem messages_handleResult {key : MessageKey} {posted : Posted}
    (h : (handleResult st res o).messages key = some posted) : st.messages key = some posted ∨
      ∃ old, st.messages key = some old ∧ key = res.key ∧ posted.author = old.author ∧
        applyResult res.attachmentId res.status old.attachments = some posted.attachments := by
  have hupdate : ∀ as, applyResult res.attachmentId res.status (st.attachmentsOf res.key) =
      some as → (st.updateAttachments res.key as).messages key = some posted →
      st.messages key = some posted ∨
        ∃ old, st.messages key = some old ∧ key = res.key ∧ posted.author = old.author ∧
          applyResult res.attachmentId res.status old.attachments = some posted.attachments := by
    intro as happly h
    dsimp only [MediaStore.updateAttachments] at h
    by_cases hkey : key = res.key
    · subst hkey
      rw [Function.update_self] at h
      obtain ⟨old, hold, rfl⟩ := Option.map_eq_some_iff.mp h
      rw [MediaStore.attachmentsOf, hold] at happly
      exact .inr ⟨old, hold, rfl, rfl, happly⟩
    · rw [Function.update_of_ne hkey] at h
      exact .inl h
  rw [handleResult] at h
  split at h
  · exact .inl h
  · rename_i as happly
    split at h
    · exact .inl h
    · split at h
      · exact hupdate as happly h
      · exact .inl h
    · exact hupdate as happly h
    · rw [messages_indexResult] at h
      exact hupdate as happly h

/-- What a result does to the index. -/
theorem index_handleResult {row : IndexRow}
    (h : (handleResult st res o).index id = some row) : st.index id = some row ∨
      (o = .done ∧ id = res.attachmentId ∧
        (∃ a ∈ st.attachmentsOf res.key, a.id = res.attachmentId) ∧
        ∃ url contentType width height duration size,
          res.status = .ok url contentType width height duration size ∧
            row = ⟨(st.index id).bind IndexRow.place, url, contentType, asI64 size⟩) := by
  rw [handleResult] at h
  split at h
  · exact .inl h
  · rename_i as happly
    split at h
    · exact .inl h
    · split at h <;> exact .inl h
    · exact .inl h
    · rw [MediaStore.indexResult] at h
      split at h
      · rename_i url contentType width height duration size hstatus
        dsimp only [MediaStore.updateIndexRow, MediaStore.updateAttachments] at h
        by_cases hid : id = res.attachmentId
        · subst hid
          rw [Function.update_self, Option.some_inj] at h
          exact .inr ⟨rfl, rfl, applyResult_isSome.mp (Option.isSome_of_eq_some happly), url,
            contentType, width, height, duration, size, hstatus, h.symm⟩
        · rw [Function.update_of_ne hid] at h
          exact .inl h
      · exact .inl h

end Lemmas

/-! ### Upload and download -/

/-- The status with which a media request fails. -/
inductive MediaError
  | badRequest
  | forbidden
  | notFound
  | payloadTooLarge
  | unsupportedMediaType
  | internalServerError
  | badGateway
  | serviceUnavailable
  deriving DecidableEq

/-- `UploadError`. -/
inductive UploadError
  | tooLarge
  | empty
  | stream
  | s3
  deriving DecidableEq

/-- The status of an upload that has failed. -/
def UploadError.status : UploadError → MediaError
  | .tooLarge => .payloadTooLarge
  | .empty => .badRequest
  | .stream => .badRequest
  | .s3 => .internalServerError

/-- The field of an upload, as far as the client describes it. -/
structure UploadField where
  fileName : Option (List Char)
  contentType : Option String

/-- An upload: what it asks for, and what it finds. -/
structure UploadRequest where
  check : I64 → I64 → I64 → Action → Bool
  s3 : Option S3Storage
  claims : Claims
  channelId : I64
  field : Option UploadField
  attachmentId : I64
  randSuffix : ℕ
  /-- The number of bytes, if the storage takes them. -/
  stored : Except UploadError ℕ
  /-- The width and the height, if the file is an image. -/
  dimensions : Option ℕ × Option ℕ

/-- The name of the file, or a default. -/
def UploadField.name (f : UploadField) : List Char := f.fileName.getD "file".toList

/-- The content type of the field, or a default. -/
def UploadField.mime (f : UploadField) : String := f.contentType.getD "application/octet-stream"

/-- The key under which a file is stored. -/
def UploadRequest.key (req : UploadRequest) (f : UploadField) : List Char :=
  uploadKey req.claims.hubId req.channelId req.attachmentId req.randSuffix
    (Separator.afterLast '.' f.name)

/-- `upload_attachment`. -/
def uploadAttachment (req : UploadRequest) : Except MediaError Attachment :=
  if !req.check req.claims.hubId req.channelId req.claims.sub .write then .error .forbidden
  else match req.field with
  | none => .error .badRequest
  | some f =>
    if blockedMimes.any fun m => m.toList.isPrefixOf f.mime.toList then
      .error .unsupportedMediaType
    else match req.s3 with
    | none => .error .serviceUnavailable
    | some s3 =>
      match req.stored with
      | .error e => .error e.status
      | .ok size =>
        let image := "image/".toList.isPrefixOf f.mime.toList
        .ok {
          id := req.attachmentId.display
          url := s3.publicUrl (req.key f)
          contentType := f.mime
          name := f.name
          size := size
          width := if image then req.dimensions.1 else none
          height := if image then req.dimensions.2 else none
          duration := none
          thumbUrl := none
          status := if needsTranscode f.mime then .transcoding else .ready }

/-- `stream_attachment`, with the response that it passes on; `reads` says whether the index can be
read, and `get` what a GET of a URL is answered, if it is. -/
def streamAttachment {β : Type*} (st : MediaStore) (check : I64 → I64 → I64 → Action → Bool)
    (reads : Bool) (get : List Char → Option β) (attachmentId : List Char) (claims : Claims) :
    Except MediaError β :=
  if !reads then .error .internalServerError
  else match st.index attachmentId with
  | none => .error .notFound
  | some row =>
    match row.place with
    -- a row without a hub does not decode
    | none => .error .internalServerError
    | some place =>
      if place.hubId ≠ claims.hubId then .error .forbidden
      else if !check place.hubId place.channelId claims.sub .read then .error .forbidden
      else match get row.url with
      | none => .error .badGateway
      | some response => .ok response

end Chat

end MateHub
