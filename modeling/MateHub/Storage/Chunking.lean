import MateHub.Storage.Upload

/-!
# What an upload leaves in the store

Each function of the upload only adds requests to the log, and answers with an error of the
store only if a request has gone wrong (`MateHub.Storage.GoneWrong`). If none has, and the
stream has no error, the result depends on the bytes of the stream alone.
-/

namespace MateHub

namespace Storage

open Chat (S3Storage)

open Chunks (Chunked)

/-- The bytes of a stream. -/
def contents (stream : ByteChunks) : List UInt8 :=
  stream.flatMap fun
    | .ok chunk => chunk
    | .error _ => []

/-- No chunk of the stream is an error. -/
def Readable (stream : ByteChunks) : Prop := ∀ item ∈ stream, ∃ chunk, item = .ok chunk

/-- **A request has gone wrong**: the answer is an error, or lacks what it has to bring. -/
def GoneWrong : S3Request × S3Answer → Prop
  | (_, .refused _) => True
  | (_, .lost _ _) => True
  | (.createMultipartUpload _ _, .ok none) => True
  | (.uploadPart _ _ _ _, .ok none) => True
  | (_, .ok _) => False

/-- A request that completes an object is carried out, and an error comes back. -/
def CompletionLost : S3Request × S3Answer → Prop
  | (.putObject _ _ _, .lost _ _) => True
  | (.completeMultipartUpload _ _ _, .lost _ _) => True
  | _ => False

/-- A part is sent. -/
def IsUploadPart : S3Request × S3Answer → Prop
  | (.uploadPart _ _ _ _, _) => True
  | _ => False

/-- The id of a multipart upload is obtained. -/
def Obtains (uploadId : String) : S3Request × S3Answer → Prop
  | (.createMultipartUpload _ _, .ok tag) => tag = some uploadId
  | _ => False

section Spec

variable {answers : S3Answers} {st : ObjectStore} {key : List Char} {contentType uploadId : String}
  {pr : Progress} {cs : List (List UInt8)} {stream : ByteChunks} {maxSize total : ℕ}

@[simp] theorem contents_nil : contents [] = [] := rfl

@[simp] theorem contents_ok (chunk : List UInt8) (stream : ByteChunks) :
    contents (.ok chunk :: stream) = chunk ++ contents stream := rfl

@[simp] theorem contents_error (e : String) (stream : ByteChunks) :
    contents (.error e :: stream) = contents stream := rfl

theorem readable_nil : Readable [] := fun _ h => absurd h List.not_mem_nil

theorem readable_ok {chunk : List UInt8} (h : Readable stream) :
    Readable (.ok chunk :: stream) := by
  intro item hitem
  rcases List.mem_cons.mp hitem with rfl | hitem
  · exact ⟨chunk, rfl⟩
  · exact h item hitem

theorem Readable.tail {item : Except String (List UInt8)} (h : Readable (item :: stream)) :
    Readable stream := fun i hi => h i (List.mem_cons_of_mem item hi)

theorem not_readable_error {e : String} : ¬ Readable (.error e :: stream) := by
  intro h
  obtain ⟨chunk, hchunk⟩ := h _ List.mem_cons_self
  cases hchunk

theorem partSize_pos : 0 < partSize := by decide

@[simp] theorem log_ask (st : ObjectStore) (r : S3Request) (a : S3Answer) :
    (st.ask r a).log = (r, a) :: st.log := by
  cases a <;> rfl

/-! ### One part -/

/-- **What has been read is in the parts and in the buffer**: here, the parts. -/
structure Uploading (key : List Char) (contentType uploadId : String) (st : ObjectStore)
    (pr : Progress) (cs : List (List UInt8)) : Prop where
  upload : ∃ parts, st.uploads.lookup uploadId = some ⟨key, contentType, parts⟩ ∧
    ∀ i, parts.lookup (i + 1) = cs[i]?
  numbers : pr.parts.map CompletedPart.partNumber = List.range' 1 cs.length
  next : pr.partNumber = cs.length + 1

/-- What a stage has asked for: parts only, and one of them has gone wrong. -/
structure PartsOnly (st st' : ObjectStore) (wrong : Prop) : Prop where
  log : ∃ new, st'.log = new ++ st.log ∧ (∀ x ∈ new, IsUploadPart x) ∧
    (wrong → ∃ x ∈ new, GoneWrong x)
  objects : st'.objects = st.objects

theorem PartsOnly.refl (st : ObjectStore) : PartsOnly st st False :=
  ⟨⟨[], rfl, fun _ h => absurd h List.not_mem_nil, False.elim⟩, rfl⟩

theorem PartsOnly.trans {st' st'' : ObjectStore} {wrong : Prop}
    (h : PartsOnly st st' False) (h' : PartsOnly st' st'' wrong) :
    PartsOnly st st'' wrong := by
  obtain ⟨⟨new, hlog, hparts, -⟩, hobjects⟩ := h
  obtain ⟨⟨new', hlog', hparts', hwrong⟩, hobjects'⟩ := h'
  refine ⟨⟨new' ++ new, by rw [hlog', hlog, List.append_assoc], fun x hx => ?_, fun hw => ?_⟩,
    hobjects'.trans hobjects⟩
  · exact (List.mem_append.mp hx).elim (hparts' x) (hparts x)
  · obtain ⟨x, hx, hgone⟩ := hwrong hw
    exact ⟨x, List.mem_append_left _ hx, hgone⟩

/-- A request for a part is made. -/
theorem partsOnly_ask {wrong : Prop} (partNumber : ℕ) (body : List UInt8) {a : S3Answer}
    (hwrong : wrong → GoneWrong (.uploadPart key uploadId partNumber body, a)) :
    PartsOnly st (st.ask (.uploadPart key uploadId partNumber body) a) wrong := by
  refine ⟨⟨[_], log_ask _ _ _, fun x hx => ?_, fun hw => ?_⟩, ?_⟩
  · rw [List.mem_singleton.mp hx]
    trivial
  · exact ⟨_, List.mem_singleton_self _, hwrong hw⟩
  · cases a <;> rfl

/-- The part sent is one more in the store. -/
theorem Uploading.sent (h : Uploading key contentType uploadId st pr cs) (body : List UInt8)
    (tag : Option String) (buf : List UInt8) (eTag : String) :
    Uploading key contentType uploadId
      (st.ask (.uploadPart key uploadId pr.partNumber body) (.ok tag))
      ⟨buf, pr.parts ++ [⟨pr.partNumber, eTag⟩], pr.partNumber + 1⟩ (cs ++ [body]) := by
  obtain ⟨⟨parts, hlook, hparts⟩, hnumbers, hnext⟩ := h
  refine ⟨⟨parts.insert pr.partNumber body, ?_, fun i => ?_⟩, ?_, ?_⟩
  · have huploads : (st.ask (.uploadPart key uploadId pr.partNumber body) (.ok tag)).uploads =
        st.uploads.modify uploadId fun u =>
          { u with parts := u.parts.insert pr.partNumber body } := rfl
    rw [huploads, Dict.lookup_modify, if_pos rfl, hlook, Option.map_some]
  · rw [Dict.lookup_insert_eq, hnext]
    by_cases hi : i = cs.length
    · rw [if_pos (by rw [hi]), hi, List.getElem?_concat_length]
    · rw [if_neg (by omega), hparts]
      by_cases hlt : i < cs.length
      · rw [List.getElem?_append_left hlt]
      · rw [List.getElem?_eq_none (by omega),
          List.getElem?_eq_none (by rw [List.length_append, List.length_singleton]; omega)]
  · rw [List.map_append, hnumbers, List.map_singleton, hnext, List.length_append,
      List.length_singleton, List.range'_concat, Nat.one_mul, Nat.add_comm 1]
  · rw [hnext, List.length_append, List.length_singleton]

variable (answers) in
/-- **A part is sent**, or the request has gone wrong. -/
theorem putPart_spec (h : Uploading key contentType uploadId st pr cs) (body : List UInt8) :
    (∃ st' part, putPart answers st key uploadId pr.partNumber body = (st', .ok part) ∧
      PartsOnly st st' False ∧ ∀ buf, Uploading key contentType uploadId st'
        ⟨buf, pr.parts ++ [part], pr.partNumber + 1⟩ (cs ++ [body])) ∨
    ∃ st' e, putPart answers st key uploadId pr.partNumber body = (st', .error e) ∧
      PartsOnly st st' True := by
  rw [putPart]
  rcases answers st.log (.uploadPart key uploadId pr.partNumber body) with tag | e | ⟨tag, e⟩
  · rcases tag with _ | eTag
    · exact .inr ⟨_, _, rfl, partsOnly_ask _ _ fun _ => trivial⟩
    · exact .inl ⟨_, _, rfl, partsOnly_ask _ _ False.elim, fun buf => h.sent body _ buf eTag⟩
  · exact .inr ⟨_, _, rfl, partsOnly_ask _ _ fun _ => trivial⟩
  · exact .inr ⟨_, _, rfl, partsOnly_ask _ _ fun _ => trivial⟩

/-! ### The loops -/

variable (answers) in
/-- **The loop over the buffer** sends full parts until there is none left. -/
theorem flushParts_spec {fuel : ℕ} (hfuel : pr.buf.length ≤ fuel)
    (h : Uploading key contentType uploadId st pr cs) (hfull : ∀ c ∈ cs, c.length = partSize) :
    (∃ st' pr' cs', flushParts answers key uploadId fuel st pr = (st', .ok pr') ∧
      PartsOnly st st' False ∧ Uploading key contentType uploadId st' pr' cs' ∧
      (∀ c ∈ cs', c.length = partSize) ∧ cs'.flatten ++ pr'.buf = cs.flatten ++ pr.buf ∧
      pr'.buf.length < partSize) ∨
    ∃ st' e, flushParts answers key uploadId fuel st pr = (st', .error e) ∧
      PartsOnly st st' True := by
  induction fuel generalizing st pr cs with
  | zero =>
    have hlt : pr.buf.length < partSize := lt_of_le_of_lt hfuel partSize_pos
    exact .inl ⟨st, pr, cs, rfl, .refl st, h, hfull, rfl, hlt⟩
  | succ fuel ih =>
    rw [flushParts]
    split_ifs with hlt
    · exact .inl ⟨st, pr, cs, rfl, .refl st, h, hfull, rfl, hlt⟩
    · rcases putPart_spec answers h (pr.buf.take partSize) with
        ⟨st', part, heq, honly, hsent⟩ | ⟨st', e, heq, honly⟩
      · rw [heq]
        dsimp only
        have hpos := partSize_pos
        have hle : (pr.buf.drop partSize).length ≤ fuel := by
          rw [List.length_drop]
          omega
        have hfull' : ∀ c ∈ cs ++ [pr.buf.take partSize], c.length = partSize := by
          intro c hc
          rcases List.mem_append.mp hc with hc | hc
          · exact hfull c hc
          · rw [List.mem_singleton.mp hc, List.length_take]
            omega
        have hbytes : (cs ++ [pr.buf.take partSize]).flatten ++ pr.buf.drop partSize =
            cs.flatten ++ pr.buf := by
          rw [List.flatten_append, List.flatten_singleton, List.append_assoc,
            List.take_append_drop]
        rcases ih hle (hsent _) hfull' with
          ⟨st'', pr'', cs'', heq', honly', hup, hfull'', hbytes', hlt'⟩ | ⟨st'', e, heq', honly'⟩
        · exact .inl ⟨st'', pr'', cs'', heq', honly.trans honly', hup, hfull'',
            hbytes'.trans hbytes, hlt'⟩
        · exact .inr ⟨st'', e, heq', honly.trans honly'⟩
      · rw [heq]
        exact .inr ⟨st', e, rfl, honly⟩

/-- **What an error is due to**: a request that has gone wrong, or the stream. -/
inductive Due (stream : ByteChunks) (maxSize total : ℕ) : UploadError → Prop → Prop
  | store (e : UploadError) : Due stream maxSize total e True
  | stream (e : String) : ¬ Readable stream → Due stream maxSize total (.stream e) False
  | tooLarge : maxSize < total + (contents stream).length →
      Due stream maxSize total (.tooLarge maxSize) False

theorem Due.cons {chunk : List UInt8} {e : UploadError} {wrong : Prop}
    (h : Due stream maxSize (total + chunk.length) e wrong) :
    Due (.ok chunk :: stream) maxSize total e wrong := by
  cases h with
  | store => exact .store e
  | stream e hread => exact .stream e fun hr => hread hr.tail
  | tooLarge hbig =>
    refine .tooLarge ?_
    rw [contents_ok, List.length_append]
    omega

variable (answers stream) in
/-- **The loop over the stream** sends what is full, and has read all if there is no error. -/
theorem drainStream_spec (h : Uploading key contentType uploadId st pr cs)
    (hfull : ∀ c ∈ cs, c.length = partSize) (hlt : pr.buf.length < partSize)
    (htotal : total ≤ maxSize) :
    (∃ st' pr' cs', drainStream answers key uploadId maxSize stream st pr total =
        (st', .ok (pr', total + (contents stream).length)) ∧
      PartsOnly st st' False ∧ Uploading key contentType uploadId st' pr' cs' ∧
      (∀ c ∈ cs', c.length = partSize) ∧
      cs'.flatten ++ pr'.buf = cs.flatten ++ pr.buf ++ contents stream ∧
      pr'.buf.length < partSize ∧ total + (contents stream).length ≤ maxSize) ∨
    ∃ st' e wrong, drainStream answers key uploadId maxSize stream st pr total = (st', .error e) ∧
      PartsOnly st st' wrong ∧ Due stream maxSize total e wrong := by
  induction stream generalizing st pr cs total with
  | nil =>
    refine .inl ⟨st, pr, cs, rfl, .refl st, h, hfull, ?_, hlt, htotal⟩
    rw [contents_nil, List.append_nil]
  | cons item stream ih =>
    cases item with
    | error e => exact .inr ⟨st, _, _, rfl, .refl st, .stream e not_readable_error⟩
    | ok chunk =>
      have hlen : total + (chunk ++ contents stream).length =
          total + chunk.length + (contents stream).length := by
        rw [List.length_append, Nat.add_assoc]
      rw [drainStream, contents_ok, hlen]
      split_ifs with hmax
      · refine .inr ⟨st, _, _, rfl, .refl st, .tooLarge ?_⟩
        rw [contents_ok, hlen]
        omega
      · have hup : Uploading key contentType uploadId st { pr with buf := pr.buf ++ chunk } cs :=
          ⟨h.upload, h.numbers, h.next⟩
        rcases flushParts_spec answers le_rfl hup hfull with
          ⟨st', pr', cs', heq, honly, hup', hfull', hbytes, hlt'⟩ | ⟨st', e, heq, honly⟩
        · rw [heq]
          dsimp only
          rcases ih hup' hfull' hlt' (Nat.le_of_not_lt hmax) with
            ⟨st'', pr'', cs'', heq', honly', hup'', hfull'', hbytes', hrest⟩ |
            ⟨st'', e, wrong, heq', honly', hdue⟩
          · refine .inl ⟨st'', pr'', cs'', heq', honly.trans honly', hup'', hfull'', ?_, hrest⟩
            rw [hbytes', hbytes]
            simp only [List.append_assoc]
          · exact .inr ⟨st'', e, wrong, heq', honly.trans honly', hdue.cons⟩
        · rw [heq]
          exact .inr ⟨st', e, True, rfl, honly, .store e⟩

variable (answers) in
/-- **The last part** is sent, if there is something left; then the parts are a way to cut
what has been read. -/
theorem putTrailing_spec (h : Uploading key contentType uploadId st pr cs)
    (hfull : ∀ c ∈ cs, c.length = partSize) (hlt : pr.buf.length < partSize) :
    (∃ st' parts cs', putTrailing answers st key uploadId pr = (st', .ok parts) ∧
      PartsOnly st st' False ∧ Chunked partSize cs' ∧
      cs'.flatten = cs.flatten ++ pr.buf ∧
      parts.map CompletedPart.partNumber = List.range' 1 cs'.length ∧
      ∃ stored, st'.uploads.lookup uploadId = some ⟨key, contentType, stored⟩ ∧
        ∀ i, stored.lookup (i + 1) = cs'[i]?) ∨
    ∃ st' e, putTrailing answers st key uploadId pr = (st', .error e) ∧
      PartsOnly st st' True := by
  rw [putTrailing]
  split_ifs with hempty
  · have hnil : pr.buf = [] := List.isEmpty_iff.mp hempty
    refine .inl ⟨st, pr.parts, cs, rfl, .refl st, Chunks.chunked_of_full partSize_pos hfull,
      ?_, h.numbers, h.upload⟩
    rw [hnil, List.append_nil]
  · rcases putPart_spec answers h pr.buf with
      ⟨st', part, heq, honly, hsent⟩ | ⟨st', e, heq, honly⟩
    · rw [heq]
      have hpos : 0 < pr.buf.length := by
        rw [List.length_pos_iff]
        exact fun hnil => hempty (List.isEmpty_iff.mpr hnil)
      refine .inl ⟨st', _, cs ++ [pr.buf], rfl, honly,
        Chunks.chunked_concat hfull hpos hlt.le, ?_, (hsent []).numbers, (hsent []).upload⟩
      rw [List.flatten_append, List.flatten_singleton]
    · rw [heq]
      exact .inr ⟨st', e, rfl, honly⟩

/-! ### The end of a multipart upload -/

/-- The pieces, numbered from a number on. -/
def numbered (k : ℕ) (cs : List (List UInt8)) : List (ℕ × List UInt8) :=
  (cs.zipIdx k).map fun c => (c.2, c.1)

theorem filterMap_range' {stored : Dict ℕ (List UInt8)} (k : ℕ)
    (h : ∀ i, stored.lookup (k + i) = cs[i]?) :
    (List.range' k cs.length).filterMap (fun n => (stored.lookup n).map fun body => (n, body)) =
      numbered k cs := by
  induction cs generalizing k with
  | nil => rfl
  | cons c cs ih =>
    have hk : stored.lookup k = some c := h 0
    have hrest : ∀ i, stored.lookup (k + 1 + i) = cs[i]? := by
      intro i
      rw [Nat.add_assoc, Nat.add_comm 1 i, h (i + 1), List.getElem?_cons_succ]
    rw [List.length_cons, List.range'_succ, List.filterMap_cons, hk, ih (k + 1) hrest]
    rfl

/-- **The store puts the parts together** in their order. -/
theorem assemble_eq {stored : Dict ℕ (List UInt8)} {parts : List CompletedPart}
    (hnumbers : parts.map CompletedPart.partNumber = List.range' 1 cs.length)
    (hstored : ∀ i, stored.lookup (i + 1) = cs[i]?) :
    ObjectStore.assemble stored parts = numbered 1 cs := by
  have hsorted : ((List.range' 1 cs.length).mergeSort fun n m => decide (n ≤ m)) =
      List.range' 1 cs.length := by
    refine List.mergeSort_of_pairwise ?_
    have hlt : (List.range' 1 cs.length).Pairwise (· < ·) := List.pairwise_lt_range' ..
    exact hlt.imp fun h => decide_eq_true (Nat.le_of_lt h)
  rw [ObjectStore.assemble, hnumbers, hsorted]
  exact filterMap_range' 1 fun i => by rw [Nat.add_comm, hstored]

/-- What a multipart upload has asked for after its beginning; it completes no object, unless the
answer to that is lost. -/
structure Tried (st st' : ObjectStore) (wrong : Prop) : Prop where
  log : ∃ new, st'.log = new ++ st.log ∧ (∀ x ∈ new, ∀ uploadId, ¬ Obtains uploadId x) ∧
    (wrong → ∃ x ∈ new, GoneWrong x) ∧
    (st'.objects = st.objects ∨ ∃ x ∈ new, CompletionLost x)

theorem IsUploadPart.not_obtains {x : S3Request × S3Answer} (h : IsUploadPart x)
    (uploadId : String) : ¬ Obtains uploadId x := by
  obtain ⟨r, a⟩ := x
  cases r with
  | uploadPart => exact id
  | _ => exact h.elim

theorem PartsOnly.tried {st' : ObjectStore} {wrong : Prop} (h : PartsOnly st st' wrong) :
    Tried st st' wrong := by
  obtain ⟨⟨new, hlog, hparts, hwrong⟩, hobjects⟩ := h
  exact ⟨new, hlog, fun x hx => (hparts x hx).not_obtains, hwrong, .inl hobjects⟩

variable (answers) in
/-- **The upload is completed**, or the request has gone wrong. -/
theorem completeUpload_spec {st₀ : ObjectStore} {parts : List CompletedPart}
    {stored : Dict ℕ (List UInt8)} (honly : PartsOnly st₀ st False)
    (hstored : st.uploads.lookup uploadId = some ⟨key, contentType, stored⟩)
    (hparts : ObjectStore.assemble stored parts = numbered 1 cs) :
    (∃ st', completeUpload answers st key uploadId parts = (st', .ok ()) ∧
      st'.objects = ⟨key, contentType, numbered 1 cs⟩ :: st₀.objects ∧
      ∃ new, st'.log = new ++ st₀.log) ∨
    ∃ st' e, completeUpload answers st key uploadId parts = (st', .error e) ∧
      Tried st₀ st' True := by
  obtain ⟨⟨new, hlog, hnew, -⟩, hobjects⟩ := honly
  have hobtains : ∀ a, ∀ x ∈ (S3Request.completeMultipartUpload key uploadId parts, a) :: new,
      ∀ uploadId, ¬ Obtains uploadId x := by
    intro a x hx
    rcases List.mem_cons.mp hx with rfl | hx
    · exact fun _ => id
    · exact (hnew x hx).not_obtains
  have hlog' : ∀ a, (st.ask (.completeMultipartUpload key uploadId parts) a).log =
      ((.completeMultipartUpload key uploadId parts, a) :: new) ++ st₀.log := by
    intro a
    rw [log_ask, hlog, List.cons_append]
  rw [completeUpload]
  rcases answers st.log (.completeMultipartUpload key uploadId parts) with tag | e | ⟨tag, e⟩
  · refine .inl ⟨_, rfl, ?_, _, hlog' _⟩
    have hcarry : (st.ask (.completeMultipartUpload key uploadId parts) (.ok tag)).objects =
        ⟨key, contentType, ObjectStore.assemble stored parts⟩ :: st.objects := by
      dsimp only [ObjectStore.ask, ObjectStore.carryOut]
      rw [hstored]
    rw [hcarry, hparts, hobjects]
  · exact .inr ⟨_, _, rfl, _, hlog' _, hobtains _, fun _ => ⟨_, List.mem_cons_self, trivial⟩,
      .inl hobjects⟩
  · exact .inr ⟨_, _, rfl, _, hlog' _, hobtains _, fun _ => ⟨_, List.mem_cons_self, trivial⟩,
      .inr ⟨_, List.mem_cons_self, trivial⟩⟩

variable (answers stream) in
/-- **A multipart upload** stores all that it is given, or returns an error that is due. -/
theorem runMultipart_spec (s3 : S3Storage) {buf : List UInt8} (htotal : buf.length ≤ maxSize)
    (hopen : st.uploads.lookup uploadId = some ⟨key, contentType, ∅⟩) :
    (∃ st' cs, runMultipart answers s3 st key uploadId buf stream buf.length maxSize =
        (st', .ok (s3.publicUrl key, buf.length + (contents stream).length)) ∧
      buf.length + (contents stream).length ≤ maxSize ∧
      Chunked partSize cs ∧ cs.flatten = buf ++ contents stream ∧
      st'.objects = ⟨key, contentType, numbered 1 cs⟩ :: st.objects ∧
      ∃ new, st'.log = new ++ st.log) ∨
    ∃ st' e wrong, runMultipart answers s3 st key uploadId buf stream buf.length maxSize =
        (st', .error e) ∧ Tried st st' wrong ∧ Due stream maxSize buf.length e wrong := by
  have hstart : Uploading key contentType uploadId st ⟨buf, [], 1⟩ [] :=
    ⟨⟨∅, hopen, fun _ => rfl⟩, rfl, rfl⟩
  have hnone : ∀ c ∈ ([] : List (List UInt8)), c.length = partSize := by simp
  rw [runMultipart]
  rcases flushParts_spec answers le_rfl hstart hnone with
    ⟨st₁, pr₁, cs₁, heq₁, honly₁, hup₁, hfull₁, hbytes₁, hlt₁⟩ | ⟨st₁, e, heq₁, honly₁⟩
  swap
  · rw [heq₁]
    exact .inr ⟨st₁, e, True, rfl, honly₁.tried, .store e⟩
  rw [heq₁]
  dsimp only
  rcases drainStream_spec answers stream hup₁ hfull₁ hlt₁ htotal with
    ⟨st₂, pr₂, cs₂, heq₂, honly₂, hup₂, hfull₂, hbytes₂, hlt₂, hmax⟩ |
    ⟨st₂, e, wrong, heq₂, honly₂, hdue⟩
  swap
  · rw [heq₂]
    exact .inr ⟨st₂, e, wrong, rfl, (honly₁.trans honly₂).tried, hdue⟩
  rw [heq₂]
  dsimp only
  rcases putTrailing_spec answers hup₂ hfull₂ hlt₂ with
    ⟨st₃, parts, cs₃, heq₃, honly₃, hchunked, hbytes₃, hnumbers, stored, hstored, hparts⟩ |
    ⟨st₃, e, heq₃, honly₃⟩
  swap
  · rw [heq₃]
    exact .inr ⟨st₃, e, True, rfl, (honly₁.trans (honly₂.trans honly₃)).tried, .store e⟩
  rw [heq₃]
  dsimp only
  rcases completeUpload_spec answers (honly₁.trans (honly₂.trans honly₃)) hstored
    (assemble_eq hnumbers hparts) with ⟨st₄, heq₄, hobjects, hlog⟩ | ⟨st₄, e, heq₄, htried⟩
  swap
  · rw [heq₄]
    exact .inr ⟨st₄, e, True, rfl, htried, .store e⟩
  rw [heq₄]
  refine .inl ⟨st₄, cs₃, rfl, hmax, hchunked, ?_, hobjects, hlog⟩
  rw [hbytes₃, hbytes₂, hbytes₁, List.flatten_nil, List.nil_append]

/-! ### The first loop -/

variable (stream) in
/-- **The first loop** has all of a short stream, or a full part. -/
theorem bufferFirst_spec {buf : List UInt8} (hmax : buf.length ≤ maxSize) :
    (∃ buf' rest, bufferFirst maxSize stream buf buf.length = .ok (buf', buf'.length, rest) ∧
      buf'.length ≤ maxSize ∧ buf' ++ contents rest = buf ++ contents stream ∧
      (Readable stream → Readable rest) ∧ (buf'.length < partSize → rest = [] ∧ Readable stream)) ∨
    ∃ e, bufferFirst maxSize stream buf buf.length = .error e ∧
      Due stream maxSize buf.length e False := by
  induction stream generalizing buf with
  | nil => exact .inl ⟨buf, [], rfl, hmax, rfl, id, fun _ => ⟨rfl, readable_nil⟩⟩
  | cons item stream ih =>
    have hkeep (hfull : partSize ≤ buf.length) :
        bufferFirst maxSize (item :: stream) buf buf.length =
          .ok (buf, buf.length, item :: stream) := by
      unfold bufferFirst
      rw [if_pos hfull]
    by_cases hfull : partSize ≤ buf.length
    · exact .inl ⟨buf, _, hkeep hfull, hmax, rfl, id,
        fun hlt => absurd hfull (Nat.not_le_of_lt hlt)⟩
    · unfold bufferFirst
      rw [if_neg hfull]
      cases item with
      | error e => exact .inr ⟨_, rfl, .stream e not_readable_error⟩
      | ok chunk =>
        dsimp only
        rw [← List.length_append]
        split_ifs with hbig
        · refine .inr ⟨_, rfl, .tooLarge ?_⟩
          rw [contents_ok, List.length_append]
          rw [List.length_append] at hbig
          omega
        · rcases ih (Nat.le_of_not_lt hbig) with
            ⟨buf', rest, heq, hle, hbytes, hread, hshort⟩ | ⟨e, heq, hdue⟩
          · refine .inl ⟨buf', rest, heq, hle, ?_, fun hr => hread hr.tail, fun hlt => ?_⟩
            · rw [hbytes, contents_ok, List.append_assoc]
            · exact ⟨(hshort hlt).1, readable_ok (hshort hlt).2⟩
          · rw [List.length_append] at hdue
            exact .inr ⟨e, heq, hdue.cons⟩

/-! ### The upload -/

@[simp] theorem objects_abort (st : ObjectStore) (key : List Char) (uploadId : String)
    (a : S3Answer) : (st.ask (.abortMultipartUpload key uploadId) a).objects = st.objects := by
  cases a <;> rfl

/-- **An abort that is carried out** ends the upload. -/
theorem lookup_abort (st : ObjectStore) (key : List Char) (uploadId : String) {a : S3Answer}
    (h : ∀ e, a ≠ .refused e) :
    (st.ask (.abortMultipartUpload key uploadId) a).uploads.lookup uploadId = none := by
  cases a with
  | ok tag => exact AList.lookup_erase _ _
  | refused e => exact absurd rfl (h e)
  | lost tag e => exact AList.lookup_erase _ _

/-- What an error of an upload leaves: no new object, unless the answer to the request that
completes it is lost; and the last request is to abort a multipart upload that was begun. -/
def CleansUp (key : List Char) (st st' : ObjectStore) (new : List (S3Request × S3Answer)) : Prop :=
  (st'.objects = st.objects ∨ ∃ x ∈ new, CompletionLost x) ∧
  ∀ uploadId, (∃ x ∈ new, Obtains uploadId x) →
    ∃ a rest, new = (.abortMultipartUpload key uploadId, a) :: rest ∧
      ((∀ e, a ≠ .refused e) → st'.uploads.lookup uploadId = none)

/-- The bytes are one object, in the parts that they are cut into. -/
def Stored (key : List Char) (contentType : String) (bytes : List UInt8) (st st' : ObjectStore) :
    Prop :=
  ∃ parts, Chunked partSize parts ∧ parts.flatten = bytes ∧
    (∀ ps, Chunked partSize ps → ps.flatten = bytes → ps = parts) ∧
    st'.objects = ⟨key, contentType, numbered 1 parts⟩ :: st.objects

/-- **What is said of an upload** that has asked for `new` and answers with `result`. -/
structure Uploads (s3 : S3Storage) (key : List Char) (contentType : String) (stream : ByteChunks)
    (maxSize : ℕ) (st st' : ObjectStore) (result : Except UploadError (List Char × ℕ))
    (new : List (S3Request × S3Answer)) : Prop where
  log : st'.log = new ++ st.log
  readable : Readable stream → (∀ x ∈ new, ¬ GoneWrong x) →
    ((contents stream).length = 0 → result = .error .empty) ∧
    (maxSize < (contents stream).length → result = .error (.tooLarge maxSize)) ∧
    (0 < (contents stream).length → (contents stream).length ≤ maxSize →
      result = .ok (s3.publicUrl key, (contents stream).length) ∧
      Stored key contentType (contents stream) st st')
  cleansUp : ∀ e, result = .error e → CleansUp key st st' new

namespace Uploads

variable {s3 : S3Storage} {st' : ObjectStore} {new : List (S3Request × S3Answer)}
  {rest : ByteChunks} {e : UploadError} {wrong : Prop}

/-- All is stored, in parts of the size. -/
theorem stored (hlog : st'.log = new ++ st.log) (hchunked : Chunked partSize cs)
    (hbytes : cs.flatten = contents stream) (hpos : 0 < (contents stream).length)
    (hle : (contents stream).length ≤ maxSize)
    (hobjects : st'.objects = ⟨key, contentType, numbered 1 cs⟩ :: st.objects) :
    Uploads s3 key contentType stream maxSize st st'
      (.ok (s3.publicUrl key, (contents stream).length)) new where
  log := hlog
  readable _ _ := by
    refine ⟨fun h => absurd h hpos.ne', fun h => absurd hle (Nat.not_le_of_lt h),
      fun _ _ => ⟨rfl, cs, hchunked, hbytes, fun _ hps heq => ?_, hobjects⟩⟩
    exact hps.eq_of_flatten partSize_pos hchunked (heq.trans hbytes.symm)
  cleansUp e he := by cases he

/-- An error that is due, be it in the rest of the stream. -/
theorem due (h : Due rest maxSize total e wrong) (hread : Readable stream → Readable rest)
    (hbytes : total + (contents rest).length = (contents stream).length)
    (hlog : st'.log = new ++ st.log) (hwrong : wrong → ∃ x ∈ new, GoneWrong x)
    (hclean : CleansUp key st st' new) :
    Uploads s3 key contentType stream maxSize st st' (.error e) new where
  log := hlog
  readable hr hnone := by
    cases h with
    | store =>
      obtain ⟨x, hx, hgone⟩ := hwrong trivial
      exact absurd hgone (hnone x hx)
    | stream e hnot => exact absurd (hread hr) hnot
    | tooLarge hbig =>
      rw [hbytes] at hbig
      exact ⟨fun h0 => absurd hbig (by omega), fun _ => rfl,
        fun _ hle => absurd hbig (Nat.not_lt_of_le hle)⟩
  cleansUp _ _ := hclean

/-- The first request goes wrong. -/
theorem failed {r : S3Request} {a : S3Answer} (hgone : GoneWrong (r, a))
    (hnone : ∀ id, ¬ Obtains id (r, a))
    (hobjects : (st.ask r a).objects = st.objects ∨ CompletionLost (r, a)) :
    Uploads s3 key contentType stream maxSize st (st.ask r a) (.error e) [(r, a)] where
  log := log_ask st r a
  readable _ h := absurd hgone (h _ List.mem_cons_self)
  cleansUp _ _ := ⟨hobjects.imp_right fun h => ⟨_, List.mem_cons_self, h⟩, fun id ⟨_, hx, h⟩ =>
    absurd (List.mem_singleton.mp hx ▸ h) (hnone id)⟩

/-- **A multipart upload that fails is aborted**, under the id that was obtained for it. -/
theorem cleansUp_abort (hnew : ∀ x ∈ new, ∀ uploadId, ¬ Obtains uploadId x)
    (hobjects : st'.objects = st.objects ∨ ∃ x ∈ new, CompletionLost x) (a : S3Answer) :
    CleansUp key st (st'.ask (.abortMultipartUpload key uploadId) a)
      ((.abortMultipartUpload key uploadId, a) ::
        (new ++ [(.createMultipartUpload key contentType, .ok (some uploadId))])) := by
  refine ⟨?_, fun id ⟨x, hx, hobtains⟩ => ?_⟩
  · rw [objects_abort]
    exact hobjects.imp_right fun ⟨x, hx, hlost⟩ =>
      ⟨x, List.mem_cons_of_mem _ (List.mem_append_left _ hx), hlost⟩
  · -- no other id has been obtained
    obtain rfl : id = uploadId := by
      rcases List.mem_cons.mp hx with rfl | hx
      · exact hobtains.elim
      · rcases List.mem_append.mp hx with hx | hx
        · exact absurd hobtains (hnew x hx id)
        · rw [List.mem_singleton.mp hx] at hobtains
          exact (Option.some_inj.mp hobtains).symm
    exact ⟨a, _, rfl, lookup_abort st' key id⟩

theorem aborted (htried : Tried (st.ask (.createMultipartUpload key contentType)
      (.ok (some uploadId))) st' wrong)
    (hdue : Due rest maxSize total e wrong) (hread : Readable stream → Readable rest)
    (hbytes : total + (contents rest).length = (contents stream).length) (a : S3Answer) :
    ∃ new, Uploads s3 key contentType stream maxSize st
      (st'.ask (.abortMultipartUpload key uploadId) a) (.error e) new := by
  obtain ⟨new, hlog, hnew, hwrong, hobjects⟩ := htried
  refine ⟨_, .due hdue hread hbytes ?_ (fun hw => ?_)
    (@cleansUp_abort st _ contentType _ _ _ hnew hobjects a)⟩
  · rw [log_ask, hlog, log_ask, List.cons_append, List.append_assoc, List.singleton_append]
  · obtain ⟨x, hx, hgone⟩ := hwrong hw
    exact ⟨x, List.mem_cons_of_mem _ (List.mem_append_left _ hx), hgone⟩

end Uploads

end Spec

/-- **Uploads.** Without an error of the stream and of the store, an upload of no bytes is empty,
one of too many is too large, and any other is one object of these bytes, in parts that do not
depend on how the stream was cut. An error leaves no object, unless the store has completed it and
the answer is lost; and it is followed by a request to abort the multipart upload. -/
theorem uploadStream_spec (answers : S3Answers) (s3 : S3Storage) (st : ObjectStore)
    (key : List Char) (contentType : String) (stream : ByteChunks) (maxSize : ℕ) :
    ∃ st' result new, uploadStream answers s3 st key contentType stream maxSize = (st', result) ∧
      st'.log = new ++ st.log ∧
      (Readable stream → (∀ x ∈ new, ¬ GoneWrong x) →
        ((contents stream).length = 0 → result = .error .empty) ∧
        (maxSize < (contents stream).length → result = .error (.tooLarge maxSize)) ∧
        (0 < (contents stream).length → (contents stream).length ≤ maxSize →
          result = .ok (s3.publicUrl key, (contents stream).length) ∧
          Stored key contentType (contents stream) st st')) ∧
      ∀ e, result = .error e → CleansUp key st st' new := by
  suffices h : ∃ st' result new,
      uploadStream answers s3 st key contentType stream maxSize = (st', result) ∧
        Uploads s3 key contentType stream maxSize st st' result new by
    obtain ⟨st', result, new, heq, h⟩ := h
    exact ⟨st', result, new, heq, h.log, h.readable, h.cleansUp⟩
  rw [uploadStream]
  rcases @bufferFirst_spec stream _ [] (Nat.zero_le maxSize) with
    ⟨buf, rest, heq, hmax, hbytes, hread, hshort⟩ | ⟨e, heq, hdue⟩
  swap
  · rw [List.length_nil] at heq
    rw [heq]
    exact ⟨st, _, [], rfl, .due hdue id (Nat.zero_add _) rfl False.elim
      ⟨.inl rfl, fun _ ⟨_, hx, _⟩ => absurd hx List.not_mem_nil⟩⟩
  rw [List.length_nil] at heq
  rw [heq]
  rw [List.nil_append] at hbytes
  dsimp only
  have hlen : buf.length + (contents rest).length = (contents stream).length := by
    rw [← hbytes, List.length_append]
  split_ifs with hlt hempty
  · -- nothing has been read
    obtain ⟨rfl, -⟩ := hshort hlt
    obtain rfl := List.isEmpty_iff.mp hempty
    refine ⟨st, _, [], rfl, rfl, fun _ _ => ⟨fun _ => rfl, ?_⟩, fun _ _ => ⟨.inl rfl, by simp⟩⟩
    rw [← hlen]
    exact ⟨fun h => absurd h (Nat.not_lt_zero _), fun h => absurd h (Nat.lt_irrefl 0)⟩
  · -- one request
    obtain ⟨rfl, -⟩ := hshort hlt
    rw [contents_nil, List.append_nil] at hbytes
    have hpos : 0 < buf.length := List.length_pos_iff.mpr fun hnil => hempty (by rw [hnil]; rfl)
    rcases answers st.log (.putObject key contentType buf) with tag | e | ⟨tag, e⟩
    · subst hbytes
      refine ⟨_, _, [_], rfl, .stored rfl ?_
        (show [contents stream].flatten = _ from List.flatten_singleton ..) hpos hmax rfl⟩
      exact Chunks.chunked_concat (fun p hp => absurd hp List.not_mem_nil) hpos hlt.le
    · exact ⟨_, _, [_], rfl, .failed trivial (fun _ => id) (.inl rfl)⟩
    · exact ⟨_, _, [_], rfl, .failed trivial (fun _ => id) (.inr trivial)⟩
  · -- a multipart upload
    rcases answers st.log (.createMultipartUpload key contentType) with
      (_ | uploadId) | e | ⟨tag, e⟩
    · exact ⟨_, _, [_], rfl, .failed trivial (fun _ => nofun) (.inl rfl)⟩
    · have hopen : (st.ask (.createMultipartUpload key contentType)
          (.ok (some uploadId))).uploads.lookup uploadId = some ⟨key, contentType, ∅⟩ :=
        AList.lookup_insert _
      dsimp only
      rcases runMultipart_spec answers rest s3 hmax hopen with
        ⟨st', cs, heq', hle, hchunked, hflat, hobjects, new, hlog⟩ |
        ⟨st', e, wrong, heq', htried, hdue⟩
      · rw [heq']
        rw [hlen] at hle ⊢
        rw [log_ask, List.append_cons] at hlog
        refine ⟨st', _, _, rfl, .stored hlog hchunked (hflat.trans hbytes) ?_ hle hobjects⟩
        have := partSize_pos
        omega
      · rw [heq']
        obtain ⟨new, hnew⟩ := Uploads.aborted htried hdue hread hlen _
        exact ⟨_, _, new, rfl, hnew⟩
    · exact ⟨_, _, [_], rfl, .failed trivial (fun _ => id) (.inl rfl)⟩
    · refine ⟨_, _, [_], rfl, .failed trivial (fun _ => id) (.inl ?_)⟩
      cases tag <;> rfl

/-! ### Errors of the store -/

/-- A store that takes no part, and no abort. -/
def refusesParts : S3Answers
  | _, .createMultipartUpload _ _ => .ok (some "upload-1")
  | _, .uploadPart _ _ _ _ => .refused "SlowDown"
  | _, .abortMultipartUpload _ _ => .refused "SlowDown"
  | _, _ => .ok none

/-- A store whose answers are lost. -/
def losesAnswers : S3Answers := fun _ _ => .lost none "timeout"

def emptyStore : ObjectStore := ⟨[], [], ∅⟩

def minio : S3Storage := ⟨"https://demo.matehub.io/s3".toList, "chat-media".toList⟩

/-- A part is refused, and so is the abort: the upload is still there. -/
theorem refused_part {key : List Char} {contentType : String} {part : List UInt8}
    (hpart : part.length = partSize) :
    ∃ e, uploadStream refusesParts minio emptyStore key contentType [.ok part] partSize =
      (⟨[(.abortMultipartUpload key "upload-1", .refused "SlowDown"),
          (.uploadPart key "upload-1" 1 part, .refused "SlowDown"),
          (.createMultipartUpload key contentType, .ok (some "upload-1"))], [],
        AList.insert "upload-1" ⟨key, contentType, ∅⟩ ∅⟩, .error e) := by
  have hfirst : bufferFirst partSize [.ok part] [] 0 = .ok (part, part.length, []) := by
    simp [bufferFirst, hpart, partSize]
  have hflush (n : ℕ) (st : ObjectStore) : ∃ e,
      flushParts refusesParts key "upload-1" (n + 1) st ⟨part, [], 1⟩ =
        (st.ask (.uploadPart key "upload-1" 1 part) (.refused "SlowDown"), .error e) := by
    refine ⟨.s3 ("upload_part #" ++ toString 1 ++ ": " ++ "SlowDown"), ?_⟩
    rw [flushParts, if_neg (Nat.not_lt_of_le hpart.ge), List.take_of_length_le hpart.le]
    rfl
  have hsize : (8388607 + 1 : ℕ) = part.length := hpart.symm
  obtain ⟨e, he⟩ := hsize ▸ hflush 8388607
    ⟨[(.createMultipartUpload key contentType, .ok (some "upload-1"))], [],
      AList.insert "upload-1" ⟨key, contentType, ∅⟩ ∅⟩
  refine ⟨e, ?_⟩
  rw [uploadStream, hfirst]
  dsimp only
  rw [if_neg (Nat.not_lt_of_le hpart.ge)]
  have hask : emptyStore.ask (.createMultipartUpload key contentType)
      (refusesParts emptyStore.log (.createMultipartUpload key contentType)) =
        ⟨[(.createMultipartUpload key contentType, .ok (some "upload-1"))], [],
          AList.insert "upload-1" ⟨key, contentType, ∅⟩ ∅⟩ := rfl
  rw [hask]
  dsimp only [refusesParts]
  rw [runMultipart, he]
  rfl

/-- **An error, and an upload or an object is left**: an abort may be refused, and an answer may
be lost. -/
theorem upload_left :
    (∃ st' e u, uploadStream refusesParts minio emptyStore "1/2/3_0.bin".toList "video/mp4"
        [.ok (List.replicate partSize 0)] partSize = (st', .error e) ∧
      (∃ x ∈ st'.log, Obtains "upload-1" x) ∧ st'.uploads.lookup "upload-1" = some u) ∧
    ∃ st' e, uploadStream losesAnswers minio emptyStore "1/2/3_0.bin".toList "text/plain"
        [.ok [104, 105]] partSize = (st', .error e) ∧
      st'.objects = [⟨"1/2/3_0.bin".toList, "text/plain", [(1, [104, 105])]⟩] := by
  constructor
  · obtain ⟨e, he⟩ := @refused_part "1/2/3_0.bin".toList "video/mp4" _
      (List.length_replicate (n := partSize) (a := (0 : UInt8)))
    exact ⟨_, e, _, he, ⟨_, .tail _ (.tail _ (.head _)), rfl⟩, AList.lookup_insert _⟩
  · exact ⟨_, _, rfl, rfl⟩

end Storage

end MateHub
