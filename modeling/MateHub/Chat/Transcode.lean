import MateHub.Chat.Provenance

/-!
# The results of the transcoder

A job of the transcoder may be carried out more than once, and its results may come in any
order. `handle_result` writes each of them over the attachment that it is for, without a look
at its status, and changes the message and the index by two statements. So a failure that
comes after a success makes the attachment fail (`MateHub.Chat.failed_again`), and one that
comes between the statements leaves the index with the old URL.

In the runs in which no failure is written after a success of the same attachment, and each
success is carried out as a whole (`MateHub.Chat.Transcoding.Settles`), an attachment is ready exactly
if there has been a success for it, and the message and the index agree on those that are
(`MateHub.Chat.transcode_of_reach`).
-/

namespace MateHub

namespace Chat

/-! ### What a result does to a message -/

/-- What a success says of the file: its URL, its type and its size. -/
def TranscodeStatus.output : TranscodeStatus → Option (List Char × String × ℕ)
  | .ok url contentType _ _ _ size => some (url, contentType, size)
  | .failed _ => none

/-- What an attachment says of its file. -/
def Attachment.file (a : Attachment) : List Char × String × ℕ := (a.url, a.contentType, a.size)

/-- The index agrees with an attachment. -/
def Agrees (index : List Char → Option IndexRow) (a : Attachment) : Prop :=
  ∃ row, index a.id = some row ∧ row.url = a.url ∧ row.contentType = a.contentType ∧
    row.size = a.size

/-- The outcome in which the message is written. -/
def Outcome.writes : Outcome → Bool
  | .done => true
  | .readFails => false
  | .listFails executed => executed
  | .indexFails => true

/-- What a result makes of each attachment of a message. -/
def TranscodeResult.revise (res : TranscodeResult) (a : Attachment) : Attachment :=
  if a.id = res.attachmentId then res.status.apply a else a

section Lemmas

variable {st : MediaStore} {res : TranscodeResult} {o : Outcome} {as as' : List Attachment}

@[simp] theorem TranscodeResult.revise_id (res : TranscodeResult) (a : Attachment) :
    (res.revise a).id = a.id := by
  rw [revise]
  split
  · exact res.status.apply_id a
  · rfl

theorem TranscodeResult.revise_of_ne {a : Attachment} (h : a.id ≠ res.attachmentId) :
    res.revise a = a := if_neg h

theorem map_revise_of_not_listed (h : ∀ a ∈ as, a.id ≠ res.attachmentId) :
    as.map res.revise = as := by
  conv_rhs => rw [← List.map_id as]
  exact List.map_congr_left fun a ha => TranscodeResult.revise_of_ne (h a ha)

/-- Where the ids are different, there is one attachment to change. -/
theorem applyResult_eq_map (hids : (as.map Attachment.id).Nodup)
    (h : applyResult res.attachmentId res.status as = some as') : as' = as.map res.revise := by
  induction as generalizing as' with
  | nil => cases h
  | cons a as ih =>
    obtain ⟨hnew, hids⟩ := List.nodup_cons.mp hids
    rw [applyResult] at h
    rw [List.map_cons]
    split at h
    · rename_i hid
      obtain rfl := Option.some_inj.mp h
      have hothers : ∀ b ∈ as, b.id ≠ res.attachmentId := fun b hb heq =>
        hnew (hid ▸ heq ▸ List.mem_map_of_mem hb)
      rw [map_revise_of_not_listed hothers, TranscodeResult.revise, if_pos hid]
    · rename_i hid
      obtain ⟨bs, hbs, rfl⟩ := Option.map_eq_some_iff.mp h
      rw [ih hids hbs, TranscodeResult.revise_of_ne hid]

theorem attachmentsOf_indexResult (key : MessageKey) :
    (st.indexResult res).attachmentsOf key = st.attachmentsOf key := by
  rw [MediaStore.attachmentsOf, MediaStore.attachmentsOf, messages_indexResult]

theorem attachmentsOf_updateAttachments {key : MessageKey} {a : Attachment}
    (h : a ∈ st.attachmentsOf key) : (st.updateAttachments key as).attachmentsOf key = as := by
  rcases hposted : st.messages key with _ | posted
  · rw [MediaStore.attachmentsOf, hposted] at h
    exact absurd h List.not_mem_nil
  · rw [MediaStore.attachmentsOf, MediaStore.updateAttachments]
    dsimp only
    rw [Function.update_self, hposted]
    rfl

/-- **What a result does to the attachments of its message.** -/
theorem attachmentsOf_handleResult (hids : ((st.attachmentsOf res.key).map Attachment.id).Nodup) :
    (handleResult st res o).attachmentsOf res.key =
      if o.writes then (st.attachmentsOf res.key).map res.revise
      else st.attachmentsOf res.key := by
  rcases happly : applyResult res.attachmentId res.status (st.attachmentsOf res.key) with _ | as
  · have hnone : ∀ a ∈ st.attachmentsOf res.key, a.id ≠ res.attachmentId := fun a ha hid => by
      have hsome : (applyResult res.attachmentId res.status _).isSome = true :=
        applyResult_isSome.mpr ⟨a, ha, hid⟩
      rw [happly] at hsome
      cases hsome
    rw [handleResult, happly, map_revise_of_not_listed hnone, ite_self]
  · obtain ⟨a, ha, -⟩ := applyResult_isSome.mp (Option.isSome_of_eq_some happly)
    have hmap := applyResult_eq_map hids happly
    have hwritten : (st.updateAttachments res.key as).attachmentsOf res.key =
        (st.attachmentsOf res.key).map res.revise :=
      (attachmentsOf_updateAttachments ha).trans hmap
    rw [handleResult, happly]
    rcases o with _ | _ | executed | _
    · exact (attachmentsOf_indexResult res.key).trans hwritten
    · rfl
    · cases executed
      · rfl
      · exact hwritten
    · exact hwritten

theorem index_indexResult_of_ne {id : List Char} (h : id ≠ res.attachmentId) :
    (st.indexResult res).index id = st.index id := by
  rw [MediaStore.indexResult]
  split
  · exact Function.update_of_ne h _ _
  · rfl

theorem index_indexResult_of_failed (h : res.status.output = none) :
    (st.indexResult res).index = st.index := by
  rw [MediaStore.indexResult]
  split
  · rename_i hstatus
    rw [hstatus] at h
    cases h
  · rfl

/-- The index changes as `indexResult` says, or not at all. -/
theorem index_handleResult_or (st : MediaStore) (res : TranscodeResult) (o : Outcome) :
    (handleResult st res o).index = st.index ∨
      (handleResult st res o).index = (st.indexResult res).index := by
  rw [handleResult]
  split
  · exact .inl rfl
  · rcases o with _ | _ | executed | _
    · refine .inr ?_
      dsimp only
      rw [MediaStore.indexResult, MediaStore.indexResult]
      split <;> rfl
    · exact .inl rfl
    · cases executed <;> exact .inl rfl
    · exact .inl rfl

theorem index_handleResult_of_ne {id : List Char} (h : id ≠ res.attachmentId) :
    (handleResult st res o).index id = st.index id := by
  rcases index_handleResult_or st res o with hindex | hindex
  · rw [hindex]
  · rw [hindex, index_indexResult_of_ne h]

theorem index_handleResult_of_failed (h : res.status.output = none) :
    (handleResult st res o).index = st.index := by
  rcases index_handleResult_or st res o with hindex | hindex
  · exact hindex
  · rw [hindex, index_indexResult_of_failed h]

/-- A success that is carried out as a whole. -/
theorem success_handleResult {a : Attachment} (ha : a ∈ st.attachmentsOf res.key)
    (hid : a.id = res.attachmentId) {url : List Char} {contentType : String} {size : ℕ}
    (hok : res.status.output = some (url, contentType, size)) (hsize : size < 2 ^ 63) :
    (res.revise a).status = .ready ∧ (res.revise a).file = (url, contentType, size) ∧
      Agrees (handleResult st res .done).index (res.revise a) := by
  obtain ⟨as, happly⟩ := Option.isSome_iff_exists.mp
    (applyResult_isSome.mpr ⟨a, ha, hid⟩ : (applyResult _ res.status _).isSome = true)
  rw [TranscodeResult.revise, if_pos hid, handleResult, happly]
  dsimp only
  rw [MediaStore.indexResult]
  rcases hstatus : res.status with ⟨url', contentType', width, height, duration, size'⟩ | error
  · rw [hstatus] at hok
    obtain ⟨rfl, rfl, rfl⟩ : url' = url ∧ contentType' = contentType ∧ size' = size := by
      simpa [TranscodeStatus.output] using hok
    refine ⟨rfl, rfl, ⟨(st.index res.attachmentId).bind IndexRow.place, url', contentType',
      asI64 size'⟩, ?_, rfl, rfl, ?_⟩
    · rw [TranscodeStatus.apply_id, hid]
      exact Function.update_self ..
    · dsimp only [TranscodeStatus.apply, asI64]
      omega
  · rw [hstatus] at hok
    cases hok

end Lemmas

/-! ### The results of a message -/

/-- The tables, and the results that have been processed. -/
structure Transcoding where
  store : MediaStore
  processed : List TranscodeResult

namespace Transcoding

variable (st₀ : MediaStore) (key : MessageKey)

/-- The results of a message, in any order and any number of times. -/
def system : System Transcoding (TranscodeResult × Outcome) where
  init := fun w => w = ⟨st₀, []⟩
  step := fun w l w' => l.1.key = key ∧
    w' = ⟨handleResult w.store l.1 l.2, l.1 :: w.processed⟩

/-- There has been a success for an attachment. -/
def Succeeded (w : Transcoding) (id : List Char) : Prop :=
  ∃ res ∈ w.processed, res.attachmentId = id ∧ res.status.output.isSome = true

/-- **The condition on a result**: a failure that is written comes before any success of its
attachment, and a success is carried out as a whole. -/
def Settles (w : Transcoding) (l : TranscodeResult × Outcome) : Prop :=
  (l.1.status.output = none → l.2.writes = true → ¬ w.Succeeded l.1.attachmentId) ∧
    ∀ url contentType size, l.1.status.output = some (url, contentType, size) →
      l.2 = .done ∧ size < 2 ^ 63

/-- **The condition on the message**: its attachments have ids of their own, and the index has
those of them that are ready from the start. -/
def WellSent : Prop :=
  ((st₀.attachmentsOf key).map Attachment.id).Nodup ∧
    ∀ a ∈ st₀.attachmentsOf key, a.status = .ready → Agrees st₀.index a

/-- An attachment as it was sent, and as it is now. -/
structure Follows (w : Transcoding) (a₀ a : Attachment) : Prop where
  id : a.id = a₀.id
  succeeded : w.Succeeded a.id → a.status = .ready ∧ ∃ res ∈ w.processed,
    res.attachmentId = a.id ∧ res.status.output = some a.file
  waiting : ¬ w.Succeeded a.id → a.status = a₀.status ∨ a.status = .failed
  agrees : a.status = .ready → Agrees w.store.index a

variable {st₀ key} {w : Transcoding} {res : TranscodeResult} {o : Outcome} {a₀ a : Attachment}

theorem Follows.succeeded_iff (h : w.Follows a₀ a) (hready : a₀.status ≠ .ready) :
    a.status = .ready ↔ w.Succeeded a.id := by
  constructor
  · intro hstatus
    by_contra hno
    rcases h.waiting hno with heq | hfailed
    · exact hready (heq ▸ hstatus)
    · rw [hfailed] at hstatus
      cases hstatus
  · exact fun hsucceeded => (h.succeeded hsucceeded).1

theorem succeeded_cons {id : List Char} {store : MediaStore} :
    Succeeded ⟨store, res :: w.processed⟩ id ↔
      (res.attachmentId = id ∧ res.status.output.isSome = true) ∨ w.Succeeded id := by
  rw [Succeeded, Succeeded]
  simp only [List.mem_cons, exists_eq_or_imp]

/-- What an attachment is now does not depend on the results of others. -/
theorem Follows.other (h : w.Follows a₀ a) (hid : a.id ≠ res.attachmentId) :
    Follows ⟨handleResult w.store res o, res :: w.processed⟩ a₀ a := by
  have hiff : Succeeded ⟨handleResult w.store res o, res :: w.processed⟩ a.id ↔
      w.Succeeded a.id := by
    rw [succeeded_cons, or_iff_right fun hres => hid hres.1.symm]
  refine ⟨h.id, fun hsucceeded => ?_, fun hno => h.waiting (hno ∘ hiff.mpr), fun hready => ?_⟩
  · obtain ⟨hready, res', hres', hof⟩ := h.succeeded (hiff.mp hsucceeded)
    exact ⟨hready, res', List.mem_cons_of_mem _ hres', hof⟩
  · rw [Agrees, index_handleResult_of_ne hid]
    exact h.agrees hready

/-- A failure is no success of any attachment. -/
theorem succeeded_cons_of_failed {id : List Char} {store : MediaStore}
    (hfailed : res.status.output = none) :
    Succeeded ⟨store, res :: w.processed⟩ id ↔ w.Succeeded id := by
  rw [succeeded_cons, hfailed]
  exact or_iff_right fun hres => Bool.false_ne_true hres.2

/-- A failure that is not written leaves an attachment as it is, whatever came before. -/
theorem Follows.unwritten (h : w.Follows a₀ a) (hfailed : res.status.output = none) :
    Follows ⟨handleResult w.store res o, res :: w.processed⟩ a₀ a := by
  refine ⟨h.id, fun hsucceeded => ?_, fun hno => ?_, fun hready => ?_⟩
  · obtain ⟨hready, res', hres', hof⟩ :=
      h.succeeded ((succeeded_cons_of_failed hfailed).mp hsucceeded)
    exact ⟨hready, res', List.mem_cons_of_mem _ hres', hof⟩
  · exact h.waiting (hno ∘ (succeeded_cons_of_failed hfailed).mpr)
  · rw [index_handleResult_of_failed hfailed]
    exact h.agrees hready

/-- A failure that is written makes an attachment fail. -/
theorem Follows.fails (h : w.Follows a₀ a) (hid : a.id = res.attachmentId)
    (hfailed : res.status.output = none) (hno : ¬ w.Succeeded res.attachmentId) :
    Follows ⟨handleResult w.store res o, res :: w.processed⟩ a₀ (res.revise a) := by
  have hid' : (res.revise a).id = a.id := res.revise_id a
  have hrevise : (res.revise a).status = .failed := by
    rw [TranscodeResult.revise, if_pos hid]
    rcases hstatus : res.status with _ | error
    · rw [hstatus] at hfailed
      cases hfailed
    · rfl
  refine ⟨hid'.trans h.id, fun hsucceeded => ?_, fun _ => .inr hrevise, fun hready => ?_⟩
  · rw [succeeded_cons_of_failed hfailed, hid', hid] at hsucceeded
    exact absurd hsucceeded hno
  · rw [hrevise] at hready
    cases hready

/-- A success makes an attachment ready. -/
theorem Follows.succeeds (h : w.Follows a₀ a) (ha : a ∈ w.store.attachmentsOf res.key)
    (hid : a.id = res.attachmentId) {url : List Char} {contentType : String} {size : ℕ}
    (hout : res.status.output = some (url, contentType, size)) (hsize : size < 2 ^ 63) :
    Follows ⟨handleResult w.store res .done, res :: w.processed⟩ a₀ (res.revise a) := by
  obtain ⟨hready, hfile, hagrees⟩ := success_handleResult ha hid hout hsize
  have hid' : res.attachmentId = (res.revise a).id := hid.symm.trans (res.revise_id a).symm
  refine ⟨(res.revise_id a).trans h.id, fun _ => ⟨hready, res, List.mem_cons_self, hid', ?_⟩,
    fun hno => ?_, fun _ => hagrees⟩
  · rw [hout, hfile]
  · refine absurd (succeeded_cons.mpr (.inl ⟨hid', ?_⟩)) hno
    rw [hout]
    rfl

variable (st₀ key) in
/-- The attachments of the message now, one by one, and as they were sent. -/
def FollowsAll (w : Transcoding) : Prop :=
  List.Forall₂ (fun a a₀ => w.Follows a₀ a) (w.store.attachmentsOf key) (st₀.attachmentsOf key)

theorem FollowsAll.ids (h : w.FollowsAll st₀ key) :
    (w.store.attachmentsOf key).map Attachment.id = (st₀.attachmentsOf key).map Attachment.id := by
  rw [← List.forall₂_eq_eq_eq, List.forall₂_map_left_iff, List.forall₂_map_right_iff]
  exact h.imp fun _ _ hfollows => hfollows.id

theorem FollowsAll.init (h₀ : WellSent st₀ key) : FollowsAll st₀ key ⟨st₀, []⟩ := by
  refine List.forall₂_same.mpr fun a ha => ⟨rfl, ?_, fun _ => .inl rfl, h₀.2 a ha⟩
  rintro ⟨res, hres, -⟩
  exact absurd hres List.not_mem_nil

theorem FollowsAll.step (h₀ : WellSent st₀ res.key) (h : w.FollowsAll st₀ res.key)
    (hok : w.Settles (res, o)) :
    FollowsAll st₀ res.key ⟨handleResult w.store res o, res :: w.processed⟩ := by
  have hids : ((w.store.attachmentsOf res.key).map Attachment.id).Nodup := h.ids ▸ h₀.1
  have hall := (List.forall₂_and_left _ _).mpr ⟨fun a ha => ha, h⟩
  -- each attachment is for another result, for a failure, or for a success
  have hone : ∀ a a₀, a ∈ w.store.attachmentsOf res.key ∧ w.Follows a₀ a →
      Follows ⟨handleResult w.store res o, res :: w.processed⟩ a₀
        (if o.writes then res.revise a else a) := by
    rintro a a₀ ⟨ha, hfollows⟩
    by_cases hid : a.id = res.attachmentId
    · rcases hout : res.status.output with _ | ⟨url, contentType, size⟩
      · -- a failure whose read or whose first statement fails may come after a success
        split
        · rename_i hwrites
          exact hfollows.fails hid hout (hok.1 hout hwrites)
        · exact hfollows.unwritten hout
      · obtain ⟨rfl, hsize⟩ := hok.2 url contentType size hout
        exact hfollows.succeeds ha hid hout hsize
    · rw [TranscodeResult.revise_of_ne hid, ite_self]
      exact hfollows.other hid
  rw [FollowsAll, attachmentsOf_handleResult hids]
  split
  · rename_i hwrites
    rw [List.forall₂_map_left_iff]
    exact hall.imp fun a a₀ hpair =>
      (if_pos hwrites).subst (motive := Follows _ a₀) (hone a a₀ hpair)
  · rename_i hwrites
    exact hall.imp fun a a₀ hpair =>
      (if_neg hwrites).subst (motive := Follows _ a₀) (hone a a₀ hpair)

end Transcoding

open Transcoding

/-- **Results are monotone**, in the runs in which the failures that are written come before
successes, and successes are carried out as a whole: an attachment with a success is ready, with the file of a
success; one that was not ready is so exactly if there has been a success; those that are ready
are in the index as they are in the message; and no result changes the attachment of another. -/
theorem transcode_of_reach (st₀ : MediaStore) (key : MessageKey) (h₀ : WellSent st₀ key)
    {w : Transcoding} (hw : (system st₀ key).Reach Settles w) :
    List.Forall₂ (fun a a₀ => a.id = a₀.id ∧
      (w.Succeeded a.id → a.status = .ready ∧ ∃ res ∈ w.processed,
        res.attachmentId = a.id ∧ res.status.output = some a.file) ∧
      (a₀.status ≠ .ready → (a.status = .ready ↔ w.Succeeded a.id)) ∧
      (a.status = .ready → Agrees w.store.index a))
      (w.store.attachmentsOf key) (st₀.attachmentsOf key) ∧
    ∀ res o w', (system st₀ key).step w (res, o) w' →
      List.Forall₂ (fun a a' => a.id ≠ res.attachmentId → a' = a)
        (w.store.attachmentsOf key) (w'.store.attachmentsOf key) := by
  have hall : w.FollowsAll st₀ key := by
    refine hw.invariant (I := FollowsAll st₀ key) ?_ ?_
    · rintro w rfl
      exact .init h₀
    · rintro w ⟨res, o⟩ w' h hok ⟨rfl, rfl⟩
      exact h.step h₀ hok
  constructor
  · exact hall.imp fun a a₀ h => ⟨h.id, h.succeeded, h.succeeded_iff, h.agrees⟩
  · rintro res o w' ⟨rfl, rfl⟩
    have hids : ((w.store.attachmentsOf res.key).map Attachment.id).Nodup := hall.ids ▸ h₀.1
    dsimp only
    rw [attachmentsOf_handleResult hids]
    split
    · rw [List.forall₂_map_right_iff]
      exact List.forall₂_same.mpr fun a _ hne => TranscodeResult.revise_of_ne hne
    · exact List.forall₂_same.mpr fun a _ _ => rfl

section Seed

open Hub.Seed

/-- A video that is to be converted. -/
def video : Attachment where
  id := "7".toList
  url := "https://s3/chat-media/1/3001/7_0000000000000000.mov".toList
  contentType := "video/quicktime"
  name := "clip.mov".toList
  size := 10
  width := none
  height := none
  duration := none
  thumbUrl := none
  status := .transcoding

/-- The message with the video. -/
def clip : MessageKey := ⟨hub, general, 2330, i64 1⟩

/-- Alice's message with a video that is being transcoded, and its place. -/
def clipStore : MediaStore :=
  MediaStore.insertIndexRow
    ⟨Function.update (fun _ => none) clip (some ⟨alice, [video]⟩), fun _ => none⟩
    video ⟨hub, general, i64 1, 2330⟩

/-- The job succeeds. -/
def converted : TranscodeResult :=
  ⟨video.id, hub, general, i64 1, 2330,
    .ok "https://s3/chat-media/1/3001/7_transcoded.mp4".toList "video/mp4" none none none 8⟩

/-- The job is delivered once more, and fails. -/
def retried : TranscodeResult :=
  { converted with status := .failed "transcode" }

/-- The success is applied. -/
def clipConverted : Transcoding := ⟨handleResult clipStore converted .done, [converted]⟩

/-- The failure is applied after it. -/
def clipRetried : Transcoding :=
  ⟨handleResult clipConverted.store retried .done, [retried, converted]⟩

/-- **A failure after a success** makes the attachment fail. -/
theorem failed_again : WellSent clipStore clip ∧ (system clipStore clip).Reachable clipRetried ∧
    clipRetried.Succeeded video.id ∧
    (clipRetried.store.attachmentsOf clip).map Attachment.status = [.failed] := by
  have hstart : (system clipStore clip).Reachable ⟨clipStore, []⟩ := .start rfl
  have hconverted : (system clipStore clip).step ⟨clipStore, []⟩ (converted, .done)
      clipConverted := ⟨rfl, rfl⟩
  have hretried : (system clipStore clip).step clipConverted (retried, .done) clipRetried :=
    ⟨rfl, rfl⟩
  refine ⟨⟨by decide, ?_⟩, (hstart.step trivial hconverted).step trivial hretried,
    ⟨converted, by decide, rfl, rfl⟩, by decide⟩
  intro a ha hready
  obtain rfl := List.mem_singleton.mp ha
  cases hready

theorem transcode_of_clip :
    List.Forall₂ (fun a a₀ => a.id = a₀.id ∧
      (clipConverted.Succeeded a.id → a.status = .ready ∧ ∃ res ∈ clipConverted.processed,
        res.attachmentId = a.id ∧ res.status.output = some a.file) ∧
      (a₀.status ≠ .ready → (a.status = .ready ↔ clipConverted.Succeeded a.id)) ∧
      (a.status = .ready → Agrees clipConverted.store.index a))
      (clipConverted.store.attachmentsOf clip) (clipStore.attachmentsOf clip) := by
  have hsent : WellSent clipStore clip := ⟨by decide, fun a ha hready => by
    obtain rfl := List.mem_singleton.mp ha
    cases hready⟩
  have hstart : (system clipStore clip).Reach Settles ⟨clipStore, []⟩ := .start rfl
  have hconverted : (system clipStore clip).step ⟨clipStore, []⟩ (converted, .done)
      clipConverted := ⟨rfl, rfl⟩
  have hsettles : Settles ⟨clipStore, []⟩ (converted, .done) := by
    refine ⟨fun hfailed => ?_, fun url contentType size hout => ⟨rfl, ?_⟩⟩
    · cases hfailed
    · cases hout
      decide
  exact (transcode_of_reach clipStore clip hsent (hstart.step hsettles hconverted)).1

end Seed

end Chat

end MateHub
