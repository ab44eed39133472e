import MateHub.Chat.Provenance
import MateHub.Lib.Text

/-!
# The key of a stored object

`public_url` writes the base of the storage, the bucket and the key behind each other. The
storage takes this apart again by the same base (`key_from_url`). The chat service has a parser
of its own (`build_s3_key`), which knows neither the base nor the bucket: it takes what is
behind the second slash. So it gives the key back exactly if the base is a scheme and a host
(`MateHub.Chat.buildS3Key_publicUrl_iff`); behind a proxy, under a path, the bucket becomes a
part of the key.
-/

namespace MateHub

namespace Chat

/-- `from_env`: slashes at the end of the base are cut off. -/
def S3Storage.fromEnv (publicUrlBase bucket : List Char) : S3Storage where
  publicUrlBase := Text.trimEnd (fun c => c = '/') publicUrlBase
  bucket := bucket

/-- `key_from_url`. -/
def S3Storage.keyFromUrl (s3 : S3Storage) (url : List Char) : Option (List Char) :=
  stripPrefix (s3.publicUrlBase ++ '/' :: s3.bucket ++ ['/']) url

/-- The protocols that `build_s3_key` knows. -/
def protocols : List (List Char) := ["https://".toList, "http://".toList]

/-- **The storage is at the root of a host**: base and bucket are a protocol, a host and one
segment. -/
def S3Storage.AtRoot (s3 : S3Storage) : Prop :=
  ∃ protocol ∈ protocols, ∃ host segment, '/' ∉ host ∧ '/' ∉ segment ∧
    s3.publicUrlBase ++ '/' :: s3.bucket = protocol ++ (host ++ '/' :: segment)

section Parsers

variable {pre s t key : List Char} {s3 : S3Storage}

theorem stripPrefix_eq_some : stripPrefix pre s = some t ↔ s = pre ++ t := by
  rw [stripPrefix]
  constructor
  · intro h
    split_ifs at h with hpre
    obtain ⟨t', rfl⟩ := List.isPrefixOf_iff_prefix.mp hpre
    rw [List.drop_left] at h
    rw [Option.some_inj.mp h]
  · rintro rfl
    rw [if_pos (List.isPrefixOf_iff_prefix.mpr (List.prefix_append pre t)), List.drop_left]

theorem afterSlash_slash (s : List Char) : afterSlash ('/' :: s) = some s := rfl

theorem afterSlash_cons {c : Char} (h : c ≠ '/') (s : List Char) :
    afterSlash (c :: s) = afterSlash s := by
  have hdrop : (c :: s).dropWhile (fun c => decide (c ≠ '/')) =
      s.dropWhile fun c => decide (c ≠ '/') :=
    List.dropWhile_cons_of_pos (decide_eq_true h)
  rw [afterSlash, afterSlash, hdrop]

theorem afterSlash_eq_some : afterSlash s = some t ↔ ∃ a, '/' ∉ a ∧ s = a ++ '/' :: t := by
  induction s with
  | nil => simp [afterSlash]
  | cons c s ih =>
    by_cases hc : c = '/'
    · subst hc
      rw [afterSlash_slash]
      constructor
      · intro h
        exact ⟨[], List.not_mem_nil, by rw [Option.some_inj.mp h]; rfl⟩
      · rintro ⟨a, ha, heq⟩
        cases a with
        | nil => rw [List.tail_eq_of_cons_eq heq]
        | cons d a =>
          obtain ⟨rfl, -⟩ := List.cons.inj heq
          exact absurd List.mem_cons_self ha
    · rw [afterSlash_cons hc, ih]
      constructor
      · rintro ⟨a, ha, rfl⟩
        exact ⟨c :: a, by simp [ha, Ne.symm hc], rfl⟩
      · rintro ⟨a, ha, heq⟩
        cases a with
        | nil => exact absurd (List.cons.inj heq).1 hc
        | cons d a =>
          obtain ⟨rfl, rfl⟩ := List.cons.inj heq
          exact ⟨a, fun h => ha (List.mem_cons_of_mem _ h), rfl⟩

/-- **What `build_s3_key` finds** is behind a protocol and two segments. -/
theorem buildS3Key_eq_some : buildS3Key s = some key ↔ ∃ protocol ∈ protocols, ∃ host segment,
    '/' ∉ host ∧ '/' ∉ segment ∧ s = protocol ++ (host ++ '/' :: (segment ++ '/' :: key)) := by
  have hparts (t : List Char) : ((afterSlash t).bind afterSlash = some key) ↔
      ∃ host segment, '/' ∉ host ∧ '/' ∉ segment ∧ t = host ++ '/' :: (segment ++ '/' :: key) := by
    rw [Option.bind_eq_some_iff]
    constructor
    · rintro ⟨u, hu, hkey⟩
      obtain ⟨host, hhost, rfl⟩ := afterSlash_eq_some.mp hu
      obtain ⟨segment, hsegment, rfl⟩ := afterSlash_eq_some.mp hkey
      exact ⟨host, segment, hhost, hsegment, rfl⟩
    · rintro ⟨host, segment, hhost, hsegment, rfl⟩
      exact ⟨_, afterSlash_eq_some.mpr ⟨host, hhost, rfl⟩,
        afterSlash_eq_some.mpr ⟨segment, hsegment, rfl⟩⟩
  have hproto (t : List Char) : (stripPrefix "https://".toList s).or
      (stripPrefix "http://".toList s) = some t ↔ ∃ protocol ∈ protocols, s = protocol ++ t := by
    rw [Option.or_eq_some_iff, stripPrefix_eq_some, stripPrefix_eq_some]
    constructor
    · rintro (h | ⟨-, h⟩)
      · exact ⟨_, List.mem_cons_self, h⟩
      · exact ⟨_, List.mem_cons_of_mem _ List.mem_cons_self, h⟩
    · rintro ⟨protocol, hmem, rfl⟩
      rcases List.mem_pair.mp hmem with rfl | rfl
      · exact .inl rfl
      · -- the fifth character tells the protocols apart
        exact .inr ⟨rfl, rfl⟩
  rw [buildS3Key]
  constructor
  · intro h
    obtain ⟨t, ht, hkey⟩ := Option.bind_eq_some_iff.mp h
    obtain ⟨protocol, hprotocol, rfl⟩ := (hproto t).mp ht
    obtain ⟨host, segment, hhost, hsegment, rfl⟩ := (hparts t).mp hkey
    exact ⟨protocol, hprotocol, host, segment, hhost, hsegment, rfl⟩
  · rintro ⟨protocol, hprotocol, host, segment, hhost, hsegment, rfl⟩
    exact Option.bind_eq_some_iff.mpr ⟨_, (hproto _).mpr ⟨protocol, hprotocol, rfl⟩,
      (hparts _).mpr ⟨host, segment, hhost, hsegment, rfl⟩⟩

theorem publicUrl_eq (s3 : S3Storage) (key : List Char) :
    s3.publicUrl key = (s3.publicUrlBase ++ '/' :: s3.bucket) ++ '/' :: key := rfl

/-- **The storage takes its own URLs apart.** -/
theorem keyFromUrl_publicUrl (s3 : S3Storage) (key : List Char) :
    s3.keyFromUrl (s3.publicUrl key) = some key := by
  rw [S3Storage.keyFromUrl, stripPrefix_eq_some, publicUrl_eq]
  simp only [List.append_assoc, List.cons_append, List.nil_append]

/-- **The key comes back** exactly if the storage is at the root of a host. -/
theorem buildS3Key_publicUrl : buildS3Key (s3.publicUrl key) = some key ↔ s3.AtRoot := by
  rw [buildS3Key_eq_some, publicUrl_eq]
  refine exists_congr fun protocol => and_congr_right fun _ => exists_congr fun host =>
    exists_congr fun segment => and_congr_right fun _ => and_congr_right fun _ => ?_
  have hassoc : protocol ++ (host ++ '/' :: (segment ++ '/' :: key)) =
      (protocol ++ (host ++ '/' :: segment)) ++ '/' :: key := by
    simp only [List.append_assoc, List.cons_append]
  rw [hassoc, List.append_left_inj]

/-- The names of buckets have no slash; then the base is a protocol and a host. -/
theorem atRoot_iff (hbucket : '/' ∉ s3.bucket) :
    s3.AtRoot ↔ ∃ protocol ∈ protocols, ∃ host, '/' ∉ host ∧
      s3.publicUrlBase = protocol ++ host := by
  refine exists_congr fun protocol => and_congr_right fun _ => exists_congr fun host => ?_
  constructor
  · rintro ⟨segment, hhost, hsegment, heq⟩
    rw [← List.append_assoc] at heq
    exact ⟨hhost, (Separator.eq_of_last hbucket hsegment heq).1⟩
  · rintro ⟨hhost, heq⟩
    exact ⟨s3.bucket, hhost, hbucket, by rw [heq, List.append_assoc]⟩

end Parsers

/-- **Object URLs**: of what `public_url` makes of any key, for any base and bucket, the storage
finds the key again, and the chat service finds it, in agreement with the storage, exactly if the
storage is at the root of a host. -/
theorem buildS3Key_publicUrl_iff (publicUrlBase bucket key : List Char) :
    (S3Storage.fromEnv publicUrlBase bucket).keyFromUrl
        ((S3Storage.fromEnv publicUrlBase bucket).publicUrl key) = some key ∧
      (buildS3Key ((S3Storage.fromEnv publicUrlBase bucket).publicUrl key) = some key ↔
        (S3Storage.fromEnv publicUrlBase bucket).AtRoot) ∧
      (buildS3Key ((S3Storage.fromEnv publicUrlBase bucket).publicUrl key) =
          (S3Storage.fromEnv publicUrlBase bucket).keyFromUrl
            ((S3Storage.fromEnv publicUrlBase bucket).publicUrl key) ↔
        (S3Storage.fromEnv publicUrlBase bucket).AtRoot) ∧
      ('/' ∉ bucket → ((S3Storage.fromEnv publicUrlBase bucket).AtRoot ↔
        ∃ protocol ∈ protocols, ∃ host, '/' ∉ host ∧
          Text.trimEnd (fun c => c = '/') publicUrlBase = protocol ++ host)) := by
  refine ⟨keyFromUrl_publicUrl _ key, buildS3Key_publicUrl, ?_, fun hbucket => atRoot_iff hbucket⟩
  rw [keyFromUrl_publicUrl]
  exact buildS3Key_publicUrl

/-- The storage behind the proxy of a box, and the key of a video there. -/
def boxStorage : S3Storage := .fromEnv "https://demo.matehub.io/s3/".toList "chat-media".toList

/-- **The bucket gets into the key.** -/
theorem key_behind_proxy :
    boxStorage.publicUrl (uploadKey (i64 42) (i64 7) (i64 9) 1 "mov".toList) =
        "https://demo.matehub.io/s3/chat-media/42/7/9_0000000000000001.mov".toList ∧
      buildS3Key (boxStorage.publicUrl
          (uploadKey (i64 42) (i64 7) (i64 9) 1 "mov".toList)) =
        some "chat-media/42/7/9_0000000000000001.mov".toList ∧
      boxStorage.keyFromUrl (boxStorage.publicUrl
          (uploadKey (i64 42) (i64 7) (i64 9) 1 "mov".toList)) =
        some "42/7/9_0000000000000001.mov".toList := by
  decide

end Chat

end MateHub
