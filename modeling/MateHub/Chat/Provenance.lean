import MateHub.Chat.PublicUrl
import MateHub.Hub.Groups
import MateHub.Lib.Runs

/-!
# Where an attachment comes from

The id and the URL of an attachment come back from the client when it sends the message, and
`send_message` writes them into the index as they are: the row of any id may be made to point
to any URL, in any channel in which the sender may write. So a client that lists what it has
not uploaded moves an attachment into another channel, whose readers are then served it
(`MateHub.Chat.redirected`). And the end of the name of a file becomes a part of its key as it is,
and so of the URL, in which it may mean something else: a client that names its file well is served
another object than the one that it has uploaded (`MateHub.Chat.traversed`).

In the runs in which each message lists only what an upload has answered to its sender in the
channel, and files are named by what means itself in a URL (`MateHub.Chat.Media.ListsOwn`), each row
of the index is of the upload with its id, and the download serves an object only to those who may
read the channel that it was uploaded to (`MateHub.Chat.provenance_of_reach`). The keys of the
storage decide this: a key has the id of its attachment in it, and no other key is the end of it
(`MateHub.Chat.IsKey.eq_of_suffix`).
-/

namespace MateHub

namespace Chat

/-! ### Keys -/

section Keys

/-- A key is one of an attachment: of the uploaded file, or of the converted one. -/
def IsKey (hubId channelId attachmentId : I64) (key : List Char) : Prop :=
  ∃ u v, '_' ∉ u ∧ '.' ∉ v ∧
    key = keyStem hubId channelId attachmentId.display ++ '_' :: (u ++ '.' :: v)

/-- Hexadecimal digits are no underscores. -/
theorem underscore_not_mem_hex016 (n : ℕ) : '_' ∉ Text.hex016 n := by
  intro h
  obtain ⟨i, -, hi⟩ := List.mem_map.mp h
  have hdigit : ∀ k < 16, Nat.digitChar k ≠ '_' := by decide
  exact hdigit _ (Nat.mod_lt _ (by decide)) hi

/-- No digit of a number is a slash. -/
theorem slash_not_mem_display (n : I64) : '/' ∉ n.display :=
  not_mem_display (by decide) (by decide) n

/-- No digit of a number is an underscore. -/
theorem underscore_not_mem_display (n : I64) : '_' ∉ n.display :=
  not_mem_display (by decide) (by decide) n

/-- The beginning of a key has no underscore. -/
theorem underscore_not_mem_keyStem (hubId channelId attachmentId : I64) :
    '_' ∉ keyStem hubId channelId attachmentId.display := by
  simp [keyStem, underscore_not_mem_display]

/-- The key of an upload is one of its attachment. -/
theorem isKey_uploadKey (hubId channelId attachmentId : I64) (randSuffix : ℕ)
    (name : List Char) : IsKey hubId channelId attachmentId
      (uploadKey hubId channelId attachmentId randSuffix (Separator.afterLast '.' name)) :=
  ⟨_, _, underscore_not_mem_hex016 randSuffix, Separator.not_mem_afterLast '.' name, rfl⟩

/-- The key of a converted file is one of its attachment. -/
theorem isKey_outKey (hubId channelId attachmentId : I64) :
    IsKey hubId channelId attachmentId (outKey hubId channelId attachmentId.display) :=
  ⟨_, _, by decide, by decide, rfl⟩

variable {h c i h' c' i' : I64} {key key' : List Char}

/-- **A key that ends in another key has the same id.** -/
theorem IsKey.eq_of_suffix (hkey : IsKey h c i key) (hkey' : IsKey h' c' i' key')
    {q : List Char} (hq : key' = q ++ key) : i = i' := by
  obtain ⟨u, v, -, hv, rfl⟩ := hkey
  obtain ⟨u', v', hu', hv', rfl⟩ := hkey'
  -- the last dots, then the only underscore before that of the longer key, then the last slash
  have hdot : (keyStem h' c' i'.display ++ '_' :: u') ++ '.' :: v' =
      (q ++ (keyStem h c i.display ++ '_' :: u)) ++ '.' :: v := by simpa using hq
  obtain ⟨hunderscore, -⟩ := Separator.eq_of_last hv' hv hdot
  rw [← List.append_assoc, List.append_cons_inj_of_notMem (underscore_not_mem_keyStem h' c' i')
    hu'] at hunderscore
  have hslash : (h'.display ++ '/' :: c'.display) ++ '/' :: i'.display =
      (q ++ (h.display ++ '/' :: c.display)) ++ '/' :: i.display := by
    simpa [keyStem] using hunderscore.1
  exact display_injective (Separator.eq_of_last (slash_not_mem_display i')
    (slash_not_mem_display i) hslash).2.symm

/-- A key is one of one attachment only. -/
theorem IsKey.eq (hkey : IsKey h c i key) (hkey' : IsKey h' c' i' key) : i = i' :=
  hkey.eq_of_suffix hkey' (List.nil_append key).symm

/-- What follows a slash is at the end of the text. -/
theorem afterSlash_suffix {s t : List Char} (h : afterSlash s = some t) :
    ∃ p, s = p ++ '/' :: t := by
  rw [afterSlash] at h
  split at h
  · cases h
  · rename_i c rest hdrop
    obtain rfl := Option.some_inj.mp h
    have hslash := List.head?_dropWhile_not (fun c => decide (c ≠ '/')) s
    rw [hdrop] at hslash
    obtain rfl : c = '/' := by simpa using hslash
    refine ⟨s.takeWhile fun c => decide (c ≠ '/'), ?_⟩
    rw [← hdrop, List.takeWhile_append_dropWhile]

/-- What follows a prefix is at the end of the text. -/
theorem stripPrefix_suffix {pre s t : List Char} (h : stripPrefix pre s = some t) :
    ∃ p, s = p ++ t := by
  rw [stripPrefix] at h
  split at h
  · obtain rfl := Option.some_inj.mp h
    exact ⟨s.take pre.length, (List.take_append_drop _ _).symm⟩
  · cases h

/-- What `build_s3_key` makes of a URL is the end of it, behind a slash. -/
theorem buildS3Key_suffix {url k : List Char} (h : buildS3Key url = some k) :
    ∃ p, url = p ++ '/' :: k := by
  rw [buildS3Key] at h
  obtain ⟨s, hs, h⟩ := Option.bind_eq_some_iff.mp h
  obtain ⟨t, ht, hk⟩ := Option.bind_eq_some_iff.mp h
  have hurl : ∃ p, url = p ++ s := by
    rcases Option.or_eq_some_iff.mp hs with hs | ⟨-, hs⟩
    · exact stripPrefix_suffix hs
    · exact stripPrefix_suffix hs
  obtain ⟨p₁, rfl⟩ := hurl
  obtain ⟨p₂, rfl⟩ := afterSlash_suffix ht
  obtain ⟨p₃, rfl⟩ := afterSlash_suffix hk
  exact ⟨p₁ ++ (p₂ ++ '/' :: p₃), by simp⟩

/-- **A key whose last part means itself in a URL does so as a whole.** -/
theorem literal_key {u v : List Char} (hu : ∀ a ∈ u, literalChar a = true) (hdot : '.' ∉ u)
    (hslash : '/' ∉ u) (hv : ∀ a ∈ v, literalChar a = true) (hdot' : '.' ∉ v)
    (hlast : v.getLast? ≠ some ' ') :
    Literal ('/' :: (keyStem h c i.display ++ '_' :: (u ++ '.' :: v))) := by
  have htext : '/' :: (keyStem h c i.display ++ '_' :: (u ++ '.' :: v)) =
      ('/' :: (keyStem h c i.display ++ '_' :: u)) ++ '.' :: v := by simp
  rw [htext]
  refine ⟨fun a ha => ?_, dots_of_one ?_ hdot' fun hend => ?_, ?_⟩
  · simp only [keyStem, List.mem_append, List.mem_cons] at ha
    rcases ha with (rfl | (ha | rfl | ha | rfl | ha) | rfl | ha) | rfl | ha
    · decide
    · exact literalChar_of_mem_display ha
    · decide
    · exact literalChar_of_mem_display ha
    · decide
    · exact literalChar_of_mem_display ha
    · decide
    · exact hu a ha
    · decide
    · exact hv a ha
  · simp [keyStem, dot_not_mem_display, hdot]
  · rw [← List.cons_append, List.getLast?_append_of_ne_nil _ (List.cons_ne_nil _ _)] at hend
    rcases List.mem_cons.mp (List.mem_of_getLast? hend) with hend | hmem
    · cases hend
    · exact hslash hmem
  · rw [List.getLast?_append_of_ne_nil _ (List.cons_ne_nil _ _), List.getLast?_cons]
    rcases hend : v.getLast? with _ | a
    · decide
    · rw [hend] at hlast
      exact hlast

/-- Hexadecimal digits mean themselves in a URL. -/
theorem literal_hex016 (n : ℕ) :
    (∀ a ∈ Text.hex016 n, literalChar a = true) ∧ '.' ∉ Text.hex016 n ∧ '/' ∉ Text.hex016 n := by
  have hdigit : ∀ k < 16, literalChar (Nat.digitChar k) = true ∧ Nat.digitChar k ≠ '.' ∧
      Nat.digitChar k ≠ '/' := by decide
  have hmem {a : Char} (ha : a ∈ Text.hex016 n) : ∃ k < 16, Nat.digitChar k = a := by
    obtain ⟨i, -, hi⟩ := List.mem_map.mp ha
    exact ⟨_, Nat.mod_lt _ (by decide), hi⟩
  refine ⟨fun a ha => ?_, fun ha => ?_, fun ha => ?_⟩ <;> obtain ⟨k, hk, hka⟩ := hmem ha
  · exact hka ▸ (hdigit k hk).1
  · exact (hdigit k hk).2.1 hka
  · exact (hdigit k hk).2.2 hka

/-- The end of the name of a file means itself in a URL. -/
def UploadField.Plain (f : UploadField) : Prop :=
  (∀ a ∈ Separator.afterLast '.' f.name, literalChar a = true) ∧
    (Separator.afterLast '.' f.name).getLast? ≠ some ' '

/-- **The key of an upload** means itself in a URL, if the end of the file name does. -/
theorem literal_uploadKey (hubId channelId attachmentId : I64) (randSuffix : ℕ) {f : UploadField}
    (hf : f.Plain) : Literal ('/' :: uploadKey hubId channelId attachmentId randSuffix
      (Separator.afterLast '.' f.name)) := by
  obtain ⟨hchars, hdot, hslash⟩ := literal_hex016 randSuffix
  exact literal_key hchars hdot hslash hf.1 (Separator.not_mem_afterLast '.' f.name) hf.2

/-- The key of a converted file means itself in a URL. -/
theorem literal_outKey (hubId channelId attachmentId : I64) :
    Literal ('/' :: outKey hubId channelId attachmentId.display) :=
  literal_key (List.all_eq_true.mp (by decide)) (by decide) (by decide)
    (List.all_eq_true.mp (by decide)) (by decide) (by decide)

end Keys

/-! ### The system -/

/-- An upload that has been answered. -/
structure Upload where
  hubId : I64
  channelId : I64
  uploader : I64
  attachmentId : I64
  answer : Attachment
  deriving DecidableEq

/-- A request to send a message with attachments, and what it finds. -/
structure MediaPost where
  check : I64 → I64 → I64 → Action → Bool
  claims : Claims
  channelId : I64
  attachments : List Attachment
  messageId : I64
  bucket : ℤ
  /-- Which rows of the index are written. -/
  inserts : Attachment → Bool
  /-- Which requests are queued. -/
  queues : TranscodeRequest → Bool

namespace MediaPost

variable (m : MediaPost)

/-- The place of a message. -/
def place : Place := ⟨m.claims.hubId, m.channelId, m.messageId, m.bucket⟩

end MediaPost

/-- The row of the message that a row of the index belongs to. -/
def Place.key (p : Place) : MessageKey := ⟨p.hubId, p.channelId, p.bucket, p.messageId⟩

/-- The service with its storage and the transcoder. -/
structure Media where
  store : MediaStore
  /-- What uploads have been answered. -/
  uploads : List Upload
  /-- The objects that there are, by key, and of which upload each is. -/
  objects : List Char → Option Upload
  /-- The jobs of the transcoder, each of which may be delivered more than once. -/
  requests : List TranscodeRequest
  /-- The results of the transcoder, likewise. -/
  results : List TranscodeResult

/-- The object that an upload makes. -/
def UploadRequest.made (req : UploadRequest) (answer : Attachment) : Upload :=
  ⟨req.claims.hubId, req.channelId, req.claims.sub, req.attachmentId, answer⟩

/-- The result of a job. -/
def TranscodeRequest.result (r : TranscodeRequest) (status : TranscodeStatus) : TranscodeResult :=
  ⟨r.attachmentId, r.hubId, r.channelId, r.messageId, r.bucket, status⟩

namespace Media

/-- What is got at a URL: the upload that the object there is of. -/
def get (serves : List Char → Option (List Char)) (w : Media) (url : List Char) : Option Upload :=
  (serves url).bind w.objects

/-- What happens to attachments. -/
inductive Act
  | upload (req : UploadRequest)
  | send (m : MediaPost)
  /-- A job, with what `ffmpeg` says of the file. -/
  | convert (r : TranscodeRequest) (width height : Option ℕ) (duration : Option ℚ) (size : ℕ)
  | convertFails (r : TranscodeRequest) (error : String)
  | apply (res : TranscodeResult) (o : Outcome)

/-- The state after a message. -/
def afterSend (w : Media) (m : MediaPost) : Media :=
  { w with
    store := { w.store with
      messages := Function.update w.store.messages m.place.key
        (some ⟨m.claims.sub, m.attachments⟩) }.indexAttachments m.inserts m.place m.attachments
    requests := (transcodeRequests m.place m.attachments).filter m.queues ++ w.requests }

/-- The state after an upload. -/
def afterUpload (w : Media) (req : UploadRequest) (f : UploadField) (a : Attachment) : Media :=
  { w with
    uploads := req.made a :: w.uploads
    objects := Function.update w.objects (req.key f) (some (req.made a)) }

variable (s3 : S3Storage) (serves : List Char → Option (List Char))

/-- The state after a job: what has been got at the URL of its source is stored again. -/
def afterConvert (w : Media) (r : TranscodeRequest) (up : Upload) (width height : Option ℕ)
    (duration : Option ℚ) (size : ℕ) : Media :=
  { w with
    objects := Function.update w.objects (outKey r.hubId r.channelId r.attachmentId) (some up)
    results := r.result (.ok (s3.publicUrl (outKey r.hubId r.channelId r.attachmentId))
      "video/mp4" width height duration size) :: w.results }

/-- A step of the service or of the transcoder. Nobody else draws an id that is drawn. -/
inductive Step : Media → Act → Media → Prop
  | upload {w : Media} {req : UploadRequest} {f : UploadField} {a : Attachment} :
      req.s3 = some s3 → req.field = some f → uploadAttachment req = .ok a →
      (∀ up ∈ w.uploads, up.attachmentId ≠ req.attachmentId) →
      Step w (.upload req) (w.afterUpload req f a)
  | send {w : Media} {m : MediaPost} :
      m.check m.claims.hubId m.channelId m.claims.sub .write = true →
      w.store.messages m.place.key = none →
      Step w (.send m) (w.afterSend m)
  | convert {w : Media} {r : TranscodeRequest} {up : Upload} {width height : Option ℕ}
      {duration : Option ℚ} {size : ℕ} : r ∈ w.requests →
      w.get serves (s3.publicUrl r.sourceKey) = some up →
      Step w (.convert r width height duration size)
        (w.afterConvert s3 r up width height duration size)
  | convertFails {w : Media} {r : TranscodeRequest} {error : String} : r ∈ w.requests →
      Step w (.convertFails r error) { w with results := r.result (.failed error) :: w.results }
  | apply {w : Media} {res : TranscodeResult} {o : Outcome} : res ∈ w.results →
      Step w (.apply res o) { w with store := handleResult w.store res o }

/-- Everything is empty at first. -/
def system : System Media Act where
  init := fun w => w = ⟨⟨fun _ => none, fun _ => none⟩, [], fun _ => none, [], []⟩
  step := Step s3 serves

/-- **The condition on a step**: a file is named by what means itself in a URL; a message lists only
what an upload has answered to its sender in its channel, and nothing of which the index has another
URL already; and a result that replaces a URL in the index finds its row there. -/
def ListsOwn (w : Media) : Act → Prop
  | .upload req => ∀ f ∈ req.field, f.Plain
  | .send m => ∀ a ∈ m.attachments, (∃ up ∈ w.uploads, up.answer = a ∧
      up.uploader = m.claims.sub ∧ up.hubId = m.claims.hubId ∧ up.channelId = m.channelId) ∧
        ∀ row, w.store.index a.id = some row → row.url = a.url
  | .apply res o => o = .done → (∀ error, res.status ≠ .failed error) →
      (∃ a ∈ w.store.attachmentsOf res.key, a.id = res.attachmentId) →
        (w.store.index res.attachmentId).isSome = true
  | _ => True

/-! ### What is to hold -/

/-- A row of the index is of an upload: at its URL one gets an object of the upload, and it
belongs to a message that the uploader has sent in the channel. -/
def RowOf (w : Media) (id : List Char) (row : IndexRow) (up : Upload) : Prop :=
  id = up.attachmentId.display ∧ w.get serves row.url = some up ∧
    ∃ place posted, row.place = some place ∧ place.hubId = up.hubId ∧
      place.channelId = up.channelId ∧ w.store.messages place.key = some posted ∧
      posted.author = up.uploader

/-- An attachment of a message is of an upload of its author in its channel. -/
def ListedOf (w : Media) (key : MessageKey) (posted : Posted) (a : Attachment) (up : Upload) :
    Prop :=
  a.id = up.attachmentId.display ∧ w.get serves a.url = some up ∧ up.uploader = posted.author ∧
    up.hubId = key.hubId ∧ up.channelId = key.channelId

/-- A job is for an upload: the key of its source is the end of the URL of the upload. -/
def RequestOf (r : TranscodeRequest) (up : Upload) : Prop :=
  r.attachmentId = up.attachmentId.display ∧ r.hubId = up.hubId ∧ r.channelId = up.channelId ∧
    ∃ p, up.answer.url = p ++ '/' :: r.sourceKey

/-- A result is for an upload. -/
def ResultOf (w : Media) (res : TranscodeResult) (up : Upload) : Prop :=
  res.attachmentId = up.attachmentId.display ∧ ∀ url contentType width height duration size,
    res.status = .ok url contentType width height duration size → w.get serves url = some up

/-- **Everything is traced to an upload.** -/
structure Traced (w : Media) : Prop where
  ids : ∀ up ∈ w.uploads, ∀ up' ∈ w.uploads, up.attachmentId = up'.attachmentId → up = up'
  answers : ∀ up ∈ w.uploads, up.answer.id = up.attachmentId.display ∧
    ∃ key, up.answer.url = s3.publicUrl key ∧ w.objects key = some up
  objects : ∀ key up, w.objects key = some up → up ∈ w.uploads ∧
    IsKey up.hubId up.channelId up.attachmentId key ∧ Literal ('/' :: key)
  requests : ∀ r ∈ w.requests, ∃ up ∈ w.uploads, RequestOf r up
  results : ∀ res ∈ w.results, ∃ up ∈ w.uploads, w.ResultOf serves res up
  posted : ∀ key posted, w.store.messages key = some posted → ∀ a ∈ posted.attachments,
    ∃ up ∈ w.uploads, w.ListedOf serves key posted a up
  index : ∀ id row, w.store.index id = some row → ∃ up ∈ w.uploads, w.RowOf serves id row up

/-! ### What the steps do -/

/-- Nothing is lost: uploads, objects, and the authors of messages. -/
structure Grows (w w' : Media) : Prop where
  uploads : ∀ up ∈ w.uploads, up ∈ w'.uploads
  objects : ∀ key up, w.objects key = some up → w'.objects key = some up
  authors : ∀ key posted, w.store.messages key = some posted →
    ∃ posted', w'.store.messages key = some posted' ∧ posted'.author = posted.author

variable {s3 serves} {w w' : Media} {up : Upload}

/-- What is got at a URL is still got there. -/
theorem Grows.get (hw : Grows w w') {url : List Char} (h : w.get serves url = some up) :
    w'.get serves url = some up := by
  obtain ⟨key, hkey, hobject⟩ := Option.bind_eq_some_iff.mp h
  exact Option.bind_eq_some_iff.mpr ⟨key, hkey, hw.objects key up hobject⟩

/-- A row that belongs to an upload belongs to it later. -/
theorem RowOf.mono {id : List Char} {row : IndexRow} (h : w.RowOf serves id row up)
    (hw : Grows w w') : w'.RowOf serves id row up := by
  obtain ⟨hid, hurl, place, posted, hplace, hhub, hchannel, hposted, hauthor⟩ := h
  obtain ⟨posted', hposted', hauthor'⟩ := hw.authors _ _ hposted
  exact ⟨hid, hw.get hurl, place, posted', hplace, hhub, hchannel, hposted',
    hauthor'.trans hauthor⟩

/-- An attachment that is listed traces to its upload later, too. -/
theorem ListedOf.mono {key : MessageKey} {posted posted' : Posted} {a : Attachment}
    (h : w.ListedOf serves key posted a up) (hw : Grows w w')
    (hauthor : posted'.author = posted.author) : w'.ListedOf serves key posted' a up :=
  ⟨h.1, hw.get h.2.1, h.2.2.1.trans hauthor.symm, h.2.2.2⟩

/-- A result that traces to its upload does so later. -/
theorem ResultOf.mono {res : TranscodeResult} (h : w.ResultOf serves res up) (hw : Grows w w') :
    w'.ResultOf serves res up :=
  ⟨h.1, fun _ _ _ _ _ _ hok => hw.get (h.2 _ _ _ _ _ _ hok)⟩

/-- At the URL of a key that means itself one gets the object under it. -/
theorem get_of_object (hpublic : Public s3 serves) {key : List Char} (hkey : Literal ('/' :: key))
    (h : w.objects key = some up) : w.get serves (s3.publicUrl key) = some up :=
  Option.bind_eq_some_iff.mpr ⟨key, hpublic.serves key hkey, h⟩

/-- What an upload has answered gives its object. -/
theorem Traced.get_answer (h : w.Traced s3 serves) (hpublic : Public s3 serves)
    (hup : up ∈ w.uploads) : w.get serves up.answer.url = some up := by
  obtain ⟨-, key, hurl, hobject⟩ := h.answers up hup
  rw [hurl]
  exact get_of_object hpublic (h.objects key up hobject).2.2 hobject

/-- What an upload answers: its id, and the URL of its key. -/
theorem uploadAttachment_ok {req : UploadRequest} {f : UploadField} {a : Attachment}
    (hs3 : req.s3 = some s3) (hfield : req.field = some f) (h : uploadAttachment req = .ok a) :
    a.id = req.attachmentId.display ∧ a.url = s3.publicUrl (req.key f) := by
  rw [uploadAttachment, hs3, hfield] at h
  split at h
  · cases h
  · dsimp only at h
    split at h
    · cases h
    · split at h
      · cases h
      · exact ⟨by cases h; rfl, by cases h; rfl⟩

/-- Where the tables and the jobs stay as they are, it is enough to look at the objects. -/
theorem Traced.stored (h : w.Traced s3 serves) (hw : Grows w w') (hstore : w'.store = w.store)
    (hrequests : w'.requests = w.requests)
    (hids : ∀ up ∈ w'.uploads, ∀ up' ∈ w'.uploads, up.attachmentId = up'.attachmentId → up = up')
    (hanswers : ∀ up ∈ w'.uploads, up.answer.id = up.attachmentId.display ∧
      ∃ key, up.answer.url = s3.publicUrl key ∧ w'.objects key = some up)
    (hobjects : ∀ key up, w'.objects key = some up → up ∈ w'.uploads ∧
      IsKey up.hubId up.channelId up.attachmentId key ∧ Literal ('/' :: key))
    (hresults : ∀ res ∈ w'.results, ∃ up ∈ w'.uploads, w'.ResultOf serves res up) :
    Traced s3 serves w' where
  ids := hids
  answers := hanswers
  objects := hobjects
  requests r hr := by
    obtain ⟨up, hup, hof⟩ := h.requests r (hrequests ▸ hr)
    exact ⟨up, hw.uploads _ hup, hof⟩
  results := hresults
  posted key posted hposted a ha := by
    obtain ⟨up, hup, hof⟩ := h.posted key posted (hstore ▸ hposted) a ha
    exact ⟨up, hw.uploads _ hup, hof.mono hw rfl⟩
  index id row hrow := by
    obtain ⟨up, hup, hof⟩ := h.index id row (hstore ▸ hrow)
    exact ⟨up, hw.uploads _ hup, hof.mono hw⟩

/-- **An upload**: its key is that of no other attachment. -/
theorem Traced.upload (h : w.Traced s3 serves) {req : UploadRequest} {f : UploadField}
    {a : Attachment} (hs3 : req.s3 = some s3) (hfield : req.field = some f)
    (hok : uploadAttachment req = .ok a) (hplain : f.Plain)
    (hnew : ∀ up ∈ w.uploads, up.attachmentId ≠ req.attachmentId) :
    Traced s3 serves (w.afterUpload req f a) := by
  obtain ⟨hid, hurl⟩ := uploadAttachment_ok hs3 hfield hok
  have hkey : IsKey req.claims.hubId req.channelId req.attachmentId (req.key f) :=
    isKey_uploadKey _ _ _ _ _
  -- the id is new, so no object has the key
  have hother : ∀ key up, w.objects key = some up → key ≠ req.key f := by
    rintro key up hup rfl
    obtain ⟨hmem, hkey', -⟩ := h.objects _ _ hup
    exact hnew up hmem (hkey'.eq hkey)
  have hgrows : Grows w (w.afterUpload req f a) :=
    { uploads := fun _ hmem => List.mem_cons_of_mem _ hmem
      objects := fun key up hup => (Function.update_of_ne (hother key up hup) _ _).trans hup
      authors := fun _ posted hposted => ⟨posted, hposted, rfl⟩ }
  refine h.stored hgrows rfl rfl ?_ ?_ ?_ ?_
  · intro up hup up' hup' heq
    rcases List.mem_cons.mp hup with rfl | hup
    · rcases List.mem_cons.mp hup' with rfl | hup'
      · rfl
      · exact absurd heq.symm (hnew _ hup')
    · rcases List.mem_cons.mp hup' with rfl | hup'
      · exact absurd heq (hnew _ hup)
      · exact h.ids _ hup _ hup' heq
  · intro up hup
    rcases List.mem_cons.mp hup with rfl | hup
    · exact ⟨hid, req.key f, hurl, Function.update_self ..⟩
    · obtain ⟨hid', key, hurl', hobject⟩ := h.answers up hup
      exact ⟨hid', key, hurl', hgrows.objects _ _ hobject⟩
  · intro key up hup
    dsimp only [afterUpload] at hup
    by_cases heq : key = req.key f
    · subst heq
      rw [Function.update_self, Option.some_inj] at hup
      subst hup
      exact ⟨List.mem_cons_self, hkey, literal_uploadKey _ _ _ _ hplain⟩
    · rw [Function.update_of_ne heq] at hup
      obtain ⟨hmem, hkey'⟩ := h.objects _ _ hup
      exact ⟨hgrows.uploads _ hmem, hkey'⟩
  · intro res hres
    obtain ⟨up, hup, hof⟩ := h.results res hres
    exact ⟨up, hgrows.uploads _ hup, hof.mono hgrows⟩

/-- At the URL of the source of a job one gets an object of the upload that the job is for, or
nothing. -/
theorem Traced.source (h : w.Traced s3 serves) (hpublic : Public s3 serves)
    {r : TranscodeRequest} {up' : Upload} (hup : up ∈ w.uploads) (hof : RequestOf r up)
    (hsource : w.get serves (s3.publicUrl r.sourceKey) = some up') : up' = up := by
  obtain ⟨-, -, -, p, hp⟩ := hof
  obtain ⟨-, key, hurl, hobject⟩ := h.answers up hup
  obtain ⟨-, hkey, hliteral⟩ := h.objects _ _ hobject
  -- what is behind a slash of the URL means itself too
  have hwhole : Literal (s3.publicUrl key) :=
    Literal.append (s := s3.publicUrlBase ++ '/' :: s3.bucket) hpublic.base hliteral
  rw [← hurl, hp] at hwhole
  rw [get, hpublic.serves r.sourceKey hwhole.of_append, Option.bind_some] at hsource
  obtain ⟨hmem', hkey', -⟩ := h.objects _ _ hsource
  have hend : (p ++ ['/']) ++ r.sourceKey =
      (s3.publicUrlBase ++ '/' :: s3.bucket ++ ['/']) ++ key := by
    simpa [S3Storage.publicUrl] using hp.symm.trans hurl
  refine h.ids _ hmem' _ hup ?_
  rcases Separator.suffix_or hend with ⟨q, hq⟩ | ⟨q, hq⟩
  · exact (hkey.eq_of_suffix hkey' hq).symm
  · exact hkey'.eq_of_suffix hkey hq

/-- **A job that succeeds**: its file is that of the upload whose URL it was given. -/
theorem Traced.convert (h : w.Traced s3 serves) (hpublic : Public s3 serves)
    {r : TranscodeRequest} {up' : Upload} {width height : Option ℕ} {duration : Option ℚ}
    {size : ℕ} (hr : r ∈ w.requests)
    (hsource : w.get serves (s3.publicUrl r.sourceKey) = some up') :
    Traced s3 serves (w.afterConvert s3 r up' width height duration size) := by
  obtain ⟨up, hup, hof⟩ := h.requests r hr
  obtain rfl := h.source hpublic hup hof hsource
  have hout : outKey r.hubId r.channelId r.attachmentId =
      outKey up'.hubId up'.channelId up'.attachmentId.display := by
    rw [hof.1, hof.2.1, hof.2.2.1]
  have hkey := isKey_outKey up'.hubId up'.channelId up'.attachmentId
  have hliteral := literal_outKey up'.hubId up'.channelId up'.attachmentId
  rw [← hout] at hkey hliteral
  -- an object that is there already is of the same upload
  have hsame : ∀ up, w.objects (outKey r.hubId r.channelId r.attachmentId) = some up →
      up = up' := fun up hobj => by
    obtain ⟨hmem, hkey', -⟩ := h.objects _ _ hobj
    exact h.ids _ hmem _ hup (hkey'.eq hkey)
  have hgrows : Grows w (w.afterConvert s3 r up' width height duration size) :=
    { uploads := fun _ hmem => hmem
      objects := fun key up hobj => by
        dsimp only [afterConvert]
        by_cases heq : key = outKey r.hubId r.channelId r.attachmentId
        · subst heq
          rw [Function.update_self, hsame up hobj]
        · rw [Function.update_of_ne heq, hobj]
      authors := fun _ posted hposted => ⟨posted, hposted, rfl⟩ }
  refine h.stored hgrows rfl rfl h.ids ?_ ?_ ?_
  · intro up hmem
    obtain ⟨hid, key, hurl, hobject⟩ := h.answers up hmem
    exact ⟨hid, key, hurl, hgrows.objects _ _ hobject⟩
  · intro key up hobj
    dsimp only [afterConvert] at hobj
    by_cases heq : key = outKey r.hubId r.channelId r.attachmentId
    · subst heq
      rw [Function.update_self, Option.some_inj] at hobj
      subst hobj
      exact ⟨hup, hkey, hliteral⟩
    · rw [Function.update_of_ne heq] at hobj
      exact h.objects _ _ hobj
  · intro res hres
    rcases List.mem_cons.mp hres with rfl | hres
    · refine ⟨up', hup, hof.1, fun url _ _ _ _ _ hok => ?_⟩
      cases hok
      exact get_of_object hpublic hliteral (Function.update_self ..)
    · obtain ⟨up, hmem, hres⟩ := h.results res hres
      exact ⟨up, hmem, hres.mono hgrows⟩

/-- A job that fails makes no file. -/
theorem Traced.convertFails (h : w.Traced s3 serves) {r : TranscodeRequest} {error : String}
    (hr : r ∈ w.requests) :
    Traced s3 serves { w with results := r.result (.failed error) :: w.results } := by
  refine { h with results := fun res hres => ?_ }
  rcases List.mem_cons.mp hres with rfl | hres
  · obtain ⟨up, hup, hof⟩ := h.requests r hr
    exact ⟨up, hup, hof.1, fun _ _ _ _ _ _ hok => by cases hok⟩
  · exact h.results res hres

/-- A message that is sent is in the table. -/
theorem messages_afterSend (w : Media) (m : MediaPost) : (w.afterSend m).store.messages =
    Function.update w.store.messages m.place.key (some ⟨m.claims.sub, m.attachments⟩) :=
  messages_indexAttachments

/-- A send takes nothing away. -/
theorem grows_afterSend {m : MediaPost} (hnew : w.store.messages m.place.key = none) :
    Grows w (w.afterSend m) where
  uploads _ hup := hup
  objects _ _ hup := hup
  authors key posted hposted := by
    have hne : key ≠ m.place.key := by
      rintro rfl
      rw [hnew] at hposted
      cases hposted
    rw [messages_afterSend, Function.update_of_ne hne]
    exact ⟨posted, hposted, rfl⟩

/-- **A send** of what is the sender's own. -/
theorem Traced.send (h : w.Traced s3 serves) (hpublic : Public s3 serves) {m : MediaPost}
    (hnew : w.store.messages m.place.key = none) (hok : ListsOwn w (.send m)) :
    Traced s3 serves (w.afterSend m) := by
  have hgrows := grows_afterSend hnew
  -- what is listed is of an upload of the sender in the channel
  have hlisted : ∀ a ∈ m.attachments, ∃ up ∈ w.uploads, up.answer = a ∧
      a.id = up.attachmentId.display ∧ w.get serves a.url = some up ∧
        up.uploader = m.claims.sub ∧ up.hubId = m.claims.hubId ∧
        up.channelId = m.channelId := fun a ha => by
    obtain ⟨⟨up, hup, rfl, hof⟩, -⟩ := hok a ha
    exact ⟨up, hup, rfl, (h.answers up hup).1, h.get_answer hpublic hup, hof⟩
  refine { h with requests := ?_, results := ?_, posted := ?_, index := ?_ }
  · intro r hr
    rcases List.mem_append.mp hr with hr | hr
    · obtain ⟨a, ha, hmake⟩ := List.mem_filterMap.mp (List.mem_of_mem_filter hr)
      obtain ⟨k, hk, rfl⟩ := Option.map_eq_some_iff.mp hmake
      obtain ⟨up, hup, hanswer, hid, -, -, hhub, hchannel⟩ :=
        hlisted a (List.mem_of_mem_filter ha)
      obtain ⟨p, hp⟩ := buildS3Key_suffix hk
      exact ⟨up, hup, hid, hhub.symm, hchannel.symm, p, hanswer ▸ hp⟩
    · exact h.requests r hr
  · intro res hres
    obtain ⟨up, hup, hof⟩ := h.results res hres
    exact ⟨up, hup, hof.mono hgrows⟩
  · intro key posted hposted a ha
    rw [messages_afterSend] at hposted
    by_cases hkey : key = m.place.key
    · subst hkey
      rw [Function.update_self, Option.some_inj] at hposted
      subst hposted
      obtain ⟨up, hup, -, hid, hurl, hsub, hhub, hchannel⟩ := hlisted a ha
      exact ⟨up, hup, hid, hurl, hsub, hhub, hchannel⟩
    · rw [Function.update_of_ne hkey] at hposted
      obtain ⟨up, hup, hof⟩ := h.posted key posted hposted a ha
      exact ⟨up, hup, hof.mono hgrows rfl⟩
  · intro id row hrow
    rcases index_indexAttachments hrow with hold | ⟨a, ha, rfl, rfl⟩
    · obtain ⟨up, hup, hof⟩ := h.index id row hold
      exact ⟨up, hup, hof.mono hgrows⟩
    · obtain ⟨up, hup, -, hid, hurl, hsub, hhub, hchannel⟩ := hlisted a ha
      refine ⟨up, hup, hid, hurl, m.place, ⟨m.claims.sub, m.attachments⟩, rfl, hhub.symm,
        hchannel.symm, ?_, hsub.symm⟩
      rw [messages_afterSend, Function.update_self]

/-- A result takes nothing away. -/
theorem grows_apply {res : TranscodeResult} {o : Outcome} :
    Grows w { w with store := handleResult w.store res o } where
  uploads _ hup := hup
  objects _ _ hup := hup
  authors key posted hposted := by
    have hauthor := authors_handleResult w.store res o key
    rw [hposted, Option.map_some] at hauthor
    exact Option.map_eq_some_iff.mp hauthor

/-- **A result is applied** to the row of its attachment. -/
theorem Traced.apply (h : w.Traced s3 serves) {res : TranscodeResult} {o : Outcome}
    (hres : res ∈ w.results) (hok : ListsOwn w (.apply res o)) :
    Traced s3 serves { w with store := handleResult w.store res o } := by
  have hgrows : Grows w { w with store := handleResult w.store res o } := grows_apply
  obtain ⟨upr, hupr, hidr, hurlr⟩ := h.results res hres
  refine { h with results := ?_, posted := ?_, index := ?_ }
  · intro res' hres'
    obtain ⟨up, hup, hof⟩ := h.results res' hres'
    exact ⟨up, hup, hof.mono hgrows⟩
  · intro key posted hposted a ha
    rcases messages_handleResult hposted with hold | ⟨old, hold, -, hauthor, happly⟩
    · obtain ⟨up, hup, hof⟩ := h.posted key posted hold a ha
      exact ⟨up, hup, hof.mono hgrows rfl⟩
    · rcases mem_applyResult happly ha with hmem | ⟨b, hb, hid, rfl⟩
      · obtain ⟨up, hup, hof⟩ := h.posted key old hold a hmem
        exact ⟨up, hup, hof.mono hgrows hauthor⟩
      · obtain ⟨up, hup, hof⟩ := h.posted key old hold b hb
        obtain rfl : up = upr := h.ids _ hup _ hupr (display_injective
          (hof.1.symm.trans (hid.trans hidr)))
        refine ⟨up, hup, (res.status.apply_id b).trans hof.1, ?_, hof.2.2.1.trans hauthor.symm,
          hof.2.2.2⟩
        rcases hstatus : res.status with ⟨url, contentType, width, height, duration, size⟩ | error
        · exact hurlr _ _ _ _ _ _ hstatus
        · exact hof.2.1
  · intro id row hrow
    rcases index_handleResult hrow with hold | ⟨rfl, rfl, hlisted, url, _, _, _, _, _, hstatus, rfl⟩
    · obtain ⟨up, hup, hof⟩ := h.index id row hold
      exact ⟨up, hup, hof.mono hgrows⟩
    · obtain ⟨old, hold⟩ := Option.isSome_iff_exists.mp
        (hok rfl (fun _ hfailed => by rw [hstatus] at hfailed; cases hfailed) hlisted)
      obtain ⟨up, hup, hof⟩ := h.index _ old hold
      obtain rfl : up = upr := h.ids _ hup _ hupr (display_injective (hof.1.symm.trans hidr))
      obtain ⟨-, -, place, posted, hplace, hrest⟩ := hof.mono hgrows
      rw [hold]
      exact ⟨up, hup, hidr, hurlr _ _ _ _ _ _ hstatus, place, posted, hplace, hrest⟩

/-- **What happens** leaves everything traced to its upload. -/
theorem Traced.step (h : w.Traced s3 serves) (hpublic : Public s3 serves) {a : Act}
    (hok : ListsOwn w a) (hstep : Step s3 serves w a w') : Traced s3 serves w' := by
  cases hstep with
  | upload hs3 hfield hanswer hnew => exact h.upload hs3 hfield hanswer (hok _ hfield) hnew
  | send _ hnew => exact h.send hpublic hnew hok
  | convert hr hsource => exact h.convert hpublic hr hsource
  | convertFails hr => exact h.convertFails hr
  | apply hres => exact h.apply hres hok

/-- At first there is nothing to be traced. -/
theorem Traced.init : Traced s3 serves ⟨⟨fun _ => none, fun _ => none⟩, [], fun _ => none, [], []⟩ where
  ids _ h := absurd h List.not_mem_nil
  answers _ h := absurd h List.not_mem_nil
  objects _ _ h := by cases h
  requests _ h := absurd h List.not_mem_nil
  results _ h := absurd h List.not_mem_nil
  posted _ _ h := by cases h
  index _ _ h := by cases h

/-- Rows with one id are of one upload, and so of one channel. -/
theorem RowOf.place_eq {id : List Char} {row row' : IndexRow} (h : w.RowOf serves id row up)
    (h' : w'.RowOf serves id row' up) : row'.place.map (fun p => (p.hubId, p.channelId)) =
      row.place.map (fun p => (p.hubId, p.channelId)) := by
  obtain ⟨-, -, p, -, hp, hhub, hchannel, -⟩ := h
  obtain ⟨-, -, p', -, hp', hhub', hchannel', -⟩ := h'
  rw [hp, hp', Option.map_some, Option.map_some, hhub, hchannel, hhub', hchannel']

/-- A message moves no row to another URL or channel. -/
theorem Traced.keeps (h : w.Traced s3 serves) (hpublic : Public s3 serves) {m : MediaPost} (hok : ListsOwn w (.send m))
    (hnew : w.store.messages m.place.key = none) {id : List Char} {row : IndexRow}
    (hrow : w.store.index id = some row) : ∃ row', (w.afterSend m).store.index id = some row' ∧
      row'.url = row.url ∧ row'.place.map (fun p => (p.hubId, p.channelId)) =
        row.place.map (fun p => (p.hubId, p.channelId)) := by
  have hsome : (({ w.store with
      messages := Function.update w.store.messages m.place.key
        (some ⟨m.claims.sub, m.attachments⟩) } : MediaStore).index id).isSome = true :=
    Option.isSome_of_eq_some hrow
  obtain ⟨row', hrow'⟩ := Option.isSome_iff_exists.mp (isSome_indexAttachments m.inserts m.place
    m.attachments hsome)
  have hurl : row'.url = row.url := by
    rcases index_indexAttachments hrow' with hold | ⟨a, ha, rfl, rfl⟩
    · rw [Option.some_inj.mp (hold.symm.trans hrow)]
    · exact ((hok a ha).2 row hrow).symm
  obtain ⟨up, hup, hof⟩ := h.index id row hrow
  obtain ⟨up', hup', hof'⟩ := (h.send hpublic hnew hok).index id row' hrow'
  obtain rfl : up = up' := h.ids _ hup _ hup' (display_injective (hof.1.symm.trans hof'.1))
  exact ⟨row', hrow', hurl, hof.place_eq hof'⟩

/-- The download serves an object to those who may read the channel of its upload. -/
theorem Traced.serves_reader (h : w.Traced s3 serves) {check : I64 → I64 → I64 → Action → Bool}
    {reads : Bool} {get : List Char → Option (Option Upload)} {id : List Char} {claims : Claims}
    {response : Option Upload} (hget : ∀ url r, get url = some r → r = w.get serves url)
    (hserved : streamAttachment w.store check reads get id claims = .ok response) :
    ∃ up, response = some up ∧ check up.hubId up.channelId claims.sub .read = true := by
  rw [streamAttachment] at hserved
  split at hserved
  · cases hserved
  · split at hserved
    · cases hserved
    · rename_i row hrow
      obtain ⟨up, -, -, hurl, place, -, hplace, hhub, hchannel, -⟩ := h.index id row hrow
      rw [hplace] at hserved
      dsimp only at hserved
      split at hserved
      · cases hserved
      · split at hserved
        · cases hserved
        · rename_i hallowed
          split at hserved
          · cases hserved
          · rename_i response' hresponse
            obtain rfl := Except.ok.inj hserved
            rw [Bool.not_eq_true, Bool.not_eq_false', hhub, hchannel] at hallowed
            exact ⟨up, (hget _ _ hresponse).trans hurl, hallowed⟩

end Media

open Media

/-- **Attachments are traced to their uploads**, in the runs in which files are named by what means
itself in a URL and messages list what their senders have uploaded to the channel: each row of the
index is of the upload with its id, each attachment of a message is of an upload of its author in
its channel, no message moves a row to another URL or channel, and the download serves only an
object, and only to those who may read the channel that it was uploaded to. -/
theorem provenance_of_reach {s3 : S3Storage} {serves : List Char → Option (List Char)}
    (hpublic : Public s3 serves) {w : Media} (hw : (system s3 serves).Reach ListsOwn w) :
    (∀ id row, w.store.index id = some row → ∃ up ∈ w.uploads, w.RowOf serves id row up) ∧
    (∀ key posted, w.store.messages key = some posted → ∀ a ∈ posted.attachments,
      ∃ up ∈ w.uploads, w.ListedOf serves key posted a up) ∧
    (∀ m w', ListsOwn w (.send m) → (system s3 serves).step w (.send m) w' → ∀ id row,
      w.store.index id = some row → ∃ row', w'.store.index id = some row' ∧ row'.url = row.url ∧
        row'.place.map (fun p => (p.hubId, p.channelId)) =
          row.place.map (fun p => (p.hubId, p.channelId))) ∧
    (∀ check reads get id claims response, (∀ url r, get url = some r → r = w.get serves url) →
      streamAttachment w.store check reads get id claims = .ok response →
        ∃ up, response = some up ∧ check up.hubId up.channelId claims.sub .read = true) := by
  have htraced : w.Traced s3 serves := by
    refine hw.invariant (I := Traced s3 serves) ?_ fun w a w' h hok hstep =>
      h.step hpublic hok hstep
    rintro w rfl
    exact Traced.init
  refine ⟨htraced.index, htraced.posted, ?_,
    fun _ _ _ _ _ _ hget hserved => htraced.serves_reader hget hserved⟩
  intro m w' hok hstep id row hrow
  cases hstep with
  | send _ hnew => exact htraced.keeps hpublic hok hnew hrow

section Seed

open Hub.Seed

/-- The direct message of Alice and Bob. -/
def dm : I64 := i64 3002

/-- Alice and Bob have a direct message. -/
def dmSeed : Hub.Db :=
  { devSeed with
    channels := ⟨dm, hub, "dm", "dm", 0, none, Hub.noIcon⟩ :: devSeed.channels
    dmParticipants := [⟨dm, alice⟩, ⟨dm, bob⟩]
    pk_channels := by decide }

/-- A storage at the root of its host. -/
def storage : S3Storage := ⟨"https://s3".toList, "chat-media".toList⟩

/-- Where the objects of the storage are got: dots are resolved, and the rest is decoded. -/
abbrev serving : List Char → Option (List Char) := servedKey storage

/-- It serves what is relied on. -/
theorem public_serving : Public storage serving := by
  refine public_servedKey ⟨List.all_eq_true.mp (by decide), fun u v heq => ?_, by decide⟩
  have hdot : '.' ∈ storage.publicUrl [] := by
    rw [heq]
    simp
  exact absurd hdot (by decide)

/-- An upload of a file. -/
def uploads (user : I64) (username : String) (channelId attachmentId : I64) (name : String) :
    UploadRequest where
  check := checkUncached dmSeed
  s3 := some storage
  claims := ⟨user, username, hub⟩
  channelId := channelId
  field := some ⟨some name.toList, some "application/pdf"⟩
  attachmentId := attachmentId
  randSuffix := 0
  stored := .ok 10
  dimensions := (none, none)

/-- A file that has been uploaded. -/
def file (id url name : String) : Attachment where
  id := id.toList
  url := url.toList
  contentType := "application/pdf"
  name := name.toList
  size := 10
  width := none
  height := none
  duration := none
  thumbUrl := none
  status := .ready

/-- Alice uploads a file for Bob. -/
def aliceUploads : UploadRequest := uploads alice "alice" dm (i64 7) "plan.pdf"

/-- The plan that Alice uploads. -/
def plan : Attachment :=
  file "7" "https://s3/chat-media/1/3002/7_0000000000000000.pdf" "plan.pdf"

/-- A message that lists a file. -/
def lists (user : I64) (username : String) (channelId messageId : I64) (a : Attachment) :
    MediaPost where
  check := checkUncached dmSeed
  claims := ⟨user, username, hub⟩
  channelId := channelId
  attachments := [a]
  messageId := messageId
  bucket := 2330
  inserts := fun _ => true
  queues := fun _ => true

/-- Nothing has been uploaded. -/
def nothing : Media := ⟨⟨fun _ => none, fun _ => none⟩, [], fun _ => none, [], []⟩

/-- Alice has uploaded the file. -/
def uploaded : Media :=
  nothing.afterUpload aliceUploads ⟨some "plan.pdf".toList, some "application/pdf"⟩ plan

/-- Alice sends it to Bob. -/
def sent : Media := uploaded.afterSend (lists alice "alice" dm (i64 1) plan)

/-- Charlie lists it in a message of his. -/
def relisted : Media := sent.afterSend (lists charlie "charlie" general (i64 2) plan)

/-- Alice uploads it. -/
theorem step_uploaded : (system storage serving).step nothing (.upload aliceUploads) uploaded :=
  .upload rfl rfl (by decide) fun _ h => absurd h List.not_mem_nil

/-- Alice sends it. -/
theorem step_sent : (system storage serving).step uploaded
    (.send (lists alice "alice" dm (i64 1) plan)) sent :=
  .send (by decide) rfl

/-- Charlie lists it, too. -/
theorem step_relisted : (system storage serving).step sent
    (.send (lists charlie "charlie" general (i64 2) plan)) relisted :=
  .send (by decide) (by decide)

/-- The name of the plan ends in plain characters. -/
theorem plain_plan : ListsOwn nothing (.upload aliceUploads) := by
  intro f hf
  obtain rfl := Option.mem_some_iff.mp hf
  exact ⟨List.all_eq_true.mp (by decide), by decide⟩

/-- Alice lists what is her own. -/
theorem lists_plan : ListsOwn uploaded (.send (lists alice "alice" dm (i64 1) plan)) := by
  intro a ha
  obtain rfl := List.mem_singleton.mp ha
  exact ⟨⟨_, List.mem_singleton_self _, rfl, rfl, rfl, rfl⟩, fun row hrow => by cases hrow⟩

/-- Alice has sent the file to Bob, which meets the condition. -/
theorem reach_sent : (system storage serving).Reach ListsOwn sent :=
  ((System.Reach.start rfl).step plain_plan step_uploaded).step lists_plan step_sent

/-- **Charlie is served what Alice has sent to Bob**: a message that lists it moves the row of
the index into a channel that he may read. -/
theorem redirected : (system storage serving).Reachable relisted ∧
    (∃ row, relisted.store.index plan.id = some row ∧
      ∀ up ∈ relisted.uploads, ¬ relisted.RowOf serving plan.id row up) ∧
    streamAttachment relisted.store (checkUncached dmSeed) true
      (fun url => some (relisted.get serving url)) plan.id ⟨charlie, "charlie", hub⟩ =
        .ok (some (aliceUploads.made plan)) ∧
    checkUncached dmSeed hub dm charlie .read = false := by
  refine ⟨?_, ?_, by decide, by decide⟩
  · exact (reach_sent.mono fun _ _ _ => trivial).step trivial step_relisted
  · refine ⟨⟨some ⟨hub, general, i64 2, 2330⟩, plan.url, plan.contentType, 10⟩, by decide,
      fun up hup hrow => ?_⟩
    obtain rfl := List.mem_singleton.mp hup
    obtain ⟨-, -, place, -, hplace, -, hchannel, -⟩ := hrow
    obtain rfl := Option.some_inj.mp hplace
    revert hchannel
    decide

/-- The name of a file whose end leads to Alice's. -/
def slyName : String := "x./%2e%2e/%2e%2e/3002/7_0000000000000000%2epdf"

/-- Charlie uploads a file of that name to the channel in which all may write. -/
def charlieUploads : UploadRequest := uploads charlie "charlie" general (i64 8) slyName

/-- What Charlie's upload answers; its URL leads elsewhere. -/
def slyFile : Attachment :=
  file "8" ("https://s3/chat-media/1/3001/8_0000000000000000." ++
    "/%2e%2e/%2e%2e/3002/7_0000000000000000%2epdf") slyName

/-- Charlie has uploaded it. -/
def slyUploaded : Media :=
  sent.afterUpload charlieUploads ⟨some slyName.toList, some "application/pdf"⟩ slyFile

/-- Charlie sends it there. -/
def slySent : Media := slyUploaded.afterSend (lists charlie "charlie" general (i64 2) slyFile)

/-- **Charlie is served it by the name of a file of his own**, which he lists in the channel that
he has uploaded it to. -/
theorem traversed : (system storage serving).Reachable slySent ∧
    ListsOwn slyUploaded (.send (lists charlie "charlie" general (i64 2) slyFile)) ∧
    streamAttachment slySent.store (checkUncached dmSeed) true
      (fun url => some (slySent.get serving url)) slyFile.id ⟨charlie, "charlie", hub⟩ =
        .ok (some (aliceUploads.made plan)) := by
  have huploaded : (system storage serving).step sent (.upload charlieUploads) slyUploaded := by
    refine .upload rfl rfl (by decide) fun up hup => ?_
    obtain rfl := List.mem_singleton.mp hup
    decide
  have hsent : (system storage serving).step slyUploaded
      (.send (lists charlie "charlie" general (i64 2) slyFile)) slySent :=
    .send (by decide) (by decide)
  refine ⟨?_, fun a ha => ?_, by decide⟩
  · exact ((reach_sent.mono fun _ _ _ => trivial).step trivial huploaded).step trivial hsent
  · obtain rfl := List.mem_singleton.mp ha
    exact ⟨⟨_, List.mem_cons_self, rfl, rfl, rfl, rfl⟩, fun row hrow => by cases hrow⟩

/-- The row of the index after Alice's message. -/
def sentRow : IndexRow :=
  ⟨some ⟨hub, dm, i64 1, 2330⟩, plan.url, plan.contentType, 10⟩

/-- The row is of Alice's upload, and Bob, who may read the channel, is served her file. -/
theorem provenance_of_sent : (∃ up ∈ sent.uploads, sent.RowOf serving plan.id sentRow up) ∧
    ∃ up, sent.get serving plan.url = some up ∧
      checkUncached dmSeed up.hubId up.channelId bob .read = true := by
  obtain ⟨hindex, -, -, hserves⟩ := provenance_of_reach public_serving reach_sent
  exact ⟨hindex plan.id sentRow (by decide), hserves (checkUncached dmSeed) true
    (fun url => some (sent.get serving url)) plan.id ⟨bob, "bob", hub⟩ _
    (fun url r hr => (Option.some.inj hr).symm) (by decide)⟩

end Seed

end Chat

end MateHub
