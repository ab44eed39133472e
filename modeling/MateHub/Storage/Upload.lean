import Mathlib.Data.List.Range
import Mathlib.Data.List.Sort
import MateHub.Chat.Attachments
import MateHub.Lib.Chunks
import MateHub.Lib.Dict

/-!
# Streaming an upload into the object store

`upload_stream` reads a stream of chunks into a buffer. If the stream ends before there is a
full part, the buffer is put into the store as it is; else a multipart upload is begun, every
full part is sent when it is there, and the rest as the last part. The one thing to know is
that the buffer and the parts sent so far are always what has been read, and that the parts
sent are all full: so the object does not depend on how the stream was cut
(`MateHub.Storage.uploadStream_spec`).

The store may answer a request with an error, and it may do so after it has carried the request
out. The abort of a multipart upload is a request as any other, and its answer is not looked at.
-/

namespace MateHub

namespace Storage

open Chat (S3Storage)

/-! ### The object store -/

/-- A part as the client lists it when it completes an upload. -/
structure CompletedPart where
  partNumber : ℕ
  eTag : String
  deriving DecidableEq

/-- The requests to the object storage. -/
inductive S3Request
  | putObject (key : List Char) (contentType : String) (body : List UInt8)
  | createMultipartUpload (key : List Char) (contentType : String)
  | uploadPart (key : List Char) (uploadId : String) (partNumber : ℕ) (body : List UInt8)
  | completeMultipartUpload (key : List Char) (uploadId : String) (parts : List CompletedPart)
  | abortMultipartUpload (key : List Char) (uploadId : String)
  deriving DecidableEq

/-- What comes back for a request. The tag is the id of a new upload, or the etag of a part. -/
inductive S3Answer
  | ok (tag : Option String)
  /-- The request has not been carried out. -/
  | refused (e : String)
  /-- It has been carried out, and an error comes back. -/
  | lost (tag : Option String) (e : String)
  deriving DecidableEq

/-- A multipart upload in progress. -/
structure Multipart where
  key : List Char
  contentType : String
  parts : Dict ℕ (List UInt8)

/-- An object that the storage has put together. -/
structure S3Object where
  key : List Char
  contentType : String
  /-- The parts it was put together from, with their numbers. -/
  parts : List (ℕ × List UInt8)
  deriving DecidableEq

/-- The bytes of an object. -/
def S3Object.content (o : S3Object) : List UInt8 := (o.parts.map Prod.snd).flatten

/-- The store, with the requests that have been made, latest first. -/
structure ObjectStore where
  log : List (S3Request × S3Answer)
  /-- The objects that have been completed, latest first. -/
  objects : List S3Object
  uploads : Dict String Multipart

namespace ObjectStore

/-- The parts that are listed, by part number. -/
def assemble (parts : Dict ℕ (List UInt8)) (listed : List CompletedPart) :
    List (ℕ × List UInt8) :=
  ((listed.map CompletedPart.partNumber).mergeSort fun n m => decide (n ≤ m)).filterMap fun n =>
    (parts.lookup n).map fun body => (n, body)

/-- The store carries out a request. -/
def carryOut (st : ObjectStore) (tag : Option String) : S3Request → ObjectStore
  | .putObject key contentType body =>
    { st with objects := ⟨key, contentType, [(1, body)]⟩ :: st.objects }
  | .createMultipartUpload key contentType =>
    match tag with
    | none => st
    | some uploadId => { st with uploads := st.uploads.insert uploadId ⟨key, contentType, ∅⟩ }
  | .uploadPart _ uploadId partNumber body =>
    { st with uploads := st.uploads.modify uploadId fun u =>
        { u with parts := u.parts.insert partNumber body } }
  | .completeMultipartUpload _ uploadId listed =>
    match st.uploads.lookup uploadId with
    | none => st
    | some u =>
      { st with
        objects := ⟨u.key, u.contentType, assemble u.parts listed⟩ :: st.objects
        uploads := st.uploads.erase uploadId }
  | .abortMultipartUpload _ uploadId => { st with uploads := st.uploads.erase uploadId }

/-- A request is made and answered. -/
def ask (st : ObjectStore) (r : S3Request) (a : S3Answer) : ObjectStore :=
  match a with
  | .ok tag => { st.carryOut tag r with log := (r, a) :: st.log }
  | .refused _ => { st with log := (r, a) :: st.log }
  | .lost tag _ => { st.carryOut tag r with log := (r, a) :: st.log }

end ObjectStore

/-- How the store answers, given what has been asked and answered before. -/
abbrev S3Answers := List (S3Request × S3Answer) → S3Request → S3Answer

/-! ### The upload -/

/-- What `upload_stream` fails with. -/
inductive UploadError
  | tooLarge (max : ℕ)
  | empty
  | stream (text : String)
  | s3 (text : String)
  deriving DecidableEq

/-- `PART_SIZE`. -/
def partSize : ℕ := 8 * 1024 * 1024

/-- A stream of chunks, any of which may be an error. -/
abbrev ByteChunks := List (Except String (List UInt8))

section Code

variable (answers : S3Answers)

/-- `put_part`. -/
def putPart (st : ObjectStore) (key : List Char) (uploadId : String) (partNumber : ℕ)
    (body : List UInt8) : ObjectStore × Except UploadError CompletedPart :=
  let r := .uploadPart key uploadId partNumber body
  let a := answers st.log r
  (st.ask r a,
    match a with
    | .ok (some eTag) => .ok ⟨partNumber, eTag⟩
    | .ok none => .error (.s3 ("upload_part #" ++ toString partNumber ++ ": no etag"))
    | .refused e | .lost _ e => .error (.s3 ("upload_part #" ++ toString partNumber ++ ": " ++ e)))

/-- The variables of `run_multipart`. The store takes no more than 10000 parts, so the number
of the next one does not leave an `i32`. -/
structure Progress where
  buf : List UInt8
  parts : List CompletedPart
  partNumber : ℕ

/-- The loop that sends the full parts in the buffer. Every turn takes some of it. -/
def flushParts (key : List Char) (uploadId : String) :
    ℕ → ObjectStore → Progress → ObjectStore × Except UploadError Progress
  | 0, st, pr => (st, .ok pr)
  | fuel + 1, st, pr =>
    if pr.buf.length < partSize then (st, .ok pr)
    else
      match putPart answers st key uploadId pr.partNumber (pr.buf.take partSize) with
      | (st, .error e) => (st, .error e)
      | (st, .ok part) =>
        flushParts key uploadId fuel st
          ⟨pr.buf.drop partSize, pr.parts ++ [part], pr.partNumber + 1⟩

/-- The loop over the rest of the stream. -/
def drainStream (key : List Char) (uploadId : String) (maxSize : ℕ) :
    ByteChunks → ObjectStore → Progress → ℕ →
      ObjectStore × Except UploadError (Progress × ℕ)
  | [], st, pr, total => (st, .ok (pr, total))
  | .error e :: _, st, _, _ => (st, .error (.stream e))
  | .ok chunk :: stream, st, pr, total =>
    if maxSize < total + chunk.length then (st, .error (.tooLarge maxSize))
    else
      match flushParts answers key uploadId (pr.buf ++ chunk).length st
        { pr with buf := pr.buf ++ chunk } with
      | (st, .error e) => (st, .error e)
      | (st, .ok pr) => drainStream key uploadId maxSize stream st pr (total + chunk.length)

/-- The last part, if there is something left. -/
def putTrailing (st : ObjectStore) (key : List Char) (uploadId : String) (pr : Progress) :
    ObjectStore × Except UploadError (List CompletedPart) :=
  if pr.buf.isEmpty then (st, .ok pr.parts)
  else
    match putPart answers st key uploadId pr.partNumber pr.buf with
    | (st, .error e) => (st, .error e)
    | (st, .ok part) => (st, .ok (pr.parts ++ [part]))

/-- The request that completes the upload. -/
def completeUpload (st : ObjectStore) (key : List Char) (uploadId : String)
    (parts : List CompletedPart) : ObjectStore × Except UploadError Unit :=
  let r := .completeMultipartUpload key uploadId parts
  let a := answers st.log r
  (st.ask r a,
    match a with
    | .ok _ => .ok ()
    | .refused e | .lost _ e => .error (.s3 ("complete_multipart_upload: " ++ e)))

/-- `run_multipart`. -/
def runMultipart (s3 : S3Storage) (st : ObjectStore) (key : List Char) (uploadId : String)
    (buf : List UInt8) (stream : ByteChunks) (total maxSize : ℕ) :
    ObjectStore × Except UploadError (List Char × ℕ) :=
  match flushParts answers key uploadId buf.length st ⟨buf, [], 1⟩ with
  | (st, .error e) => (st, .error e)
  | (st, .ok pr) =>
    match drainStream answers key uploadId maxSize stream st pr total with
    | (st, .error e) => (st, .error e)
    | (st, .ok (pr, total)) =>
      match putTrailing answers st key uploadId pr with
      | (st, .error e) => (st, .error e)
      | (st, .ok parts) =>
        match completeUpload answers st key uploadId parts with
        | (st, .error e) => (st, .error e)
        | (st, .ok ()) => (st, .ok (s3.publicUrl key, total))

/-- The first loop of `upload_stream`, which reads until there is a full part. -/
def bufferFirst (maxSize : ℕ) : ByteChunks → List UInt8 → ℕ →
    Except UploadError (List UInt8 × ℕ × ByteChunks)
  | [], buf, total => .ok (buf, total, [])
  | item :: stream, buf, total =>
    if partSize ≤ buf.length then .ok (buf, total, item :: stream)
    else
      match item with
      | .error e => .error (.stream e)
      | .ok chunk =>
        if maxSize < total + chunk.length then .error (.tooLarge maxSize)
        else bufferFirst maxSize stream (buf ++ chunk) (total + chunk.length)

/-- `upload_stream`. -/
def uploadStream (s3 : S3Storage) (st : ObjectStore) (key : List Char) (contentType : String)
    (stream : ByteChunks) (maxSize : ℕ) : ObjectStore × Except UploadError (List Char × ℕ) :=
  match bufferFirst maxSize stream [] 0 with
  | .error e => (st, .error e)
  | .ok (buf, total, stream) =>
    if buf.length < partSize then
      if buf.isEmpty then (st, .error .empty)
      else
        let r := .putObject key contentType buf
        let a := answers st.log r
        (st.ask r a,
          match a with
          | .ok _ => .ok (s3.publicUrl key, total)
          | .refused e | .lost _ e => .error (.s3 ("put_object: " ++ e)))
    else
      let r := .createMultipartUpload key contentType
      let a := answers st.log r
      let st := st.ask r a
      match a with
      | .refused e | .lost _ e => (st, .error (.s3 ("create_multipart_upload: " ++ e)))
      | .ok none => (st, .error (.s3 "no upload_id returned"))
      | .ok (some uploadId) =>
        match runMultipart answers s3 st key uploadId buf stream total maxSize with
        | (st, .ok uploaded) => (st, .ok uploaded)
        | (st, .error e) =>
          -- whatever the store says to this
          let r := .abortMultipartUpload key uploadId
          (st.ask r (answers st.log r), .error e)

end Code

end Storage

end MateHub
