import MateHub.Chat.Attachments

/-!
# What is served at a URL

`public_url` writes the key of an object behind the base of the storage as it is. Whoever gets the
URL takes it apart: what is behind a question mark or a number sign is no part of the path, a
segment that is written as one dot or two is resolved, also where a dot is written as `%2e`, and the
storage decodes what is left. So the object that a URL is answered with need not be the one whose
key it was made from.

A key in which none of this is to be found is served at its URL (`MateHub.Chat.Public`); a client
and a storage of which that is true are in `MateHub.Chat.servedKey`.
-/

namespace MateHub

namespace Chat

/-- A character that means itself in a URL, or is encoded in it and decoded again. -/
def literalChar (c : Char) : Bool :=
  decide (32 ≤ c.toNat ∧ c.toNat ≠ 127 ∧ c ∉ "%?#\\+".toList)

theorem literalChar_of_isDigit {c : Char} (h : c.isDigit = true) : literalChar c = true := by
  have hrange := Char.isDigit_iff_toNat.mp h
  have hne {d : Char} (hd : d.isDigit = false) : c ≠ d := by
    rintro rfl
    rw [h] at hd
    cases hd
  have hzero : '0'.toNat = 48 := rfl
  have hnine : '9'.toNat = 57 := rfl
  have hother : c ∉ "%?#\\+".toList := fun hmem => by
    have hdigits : ("%?#\\+".toList.all fun d => d.isDigit == false) = true := by decide
    exact hne (eq_of_beq (List.all_eq_true.mp hdigits c hmem)) rfl
  exact decide_eq_true ⟨by omega, by omega, hother⟩

theorem literalChar_of_mem_display {n : I64} {c : Char} (h : c ∈ n.display) :
    literalChar c = true := by
  by_cases hdigit : c.isDigit = true
  · exact literalChar_of_isDigit hdigit
  · obtain rfl : c = '-' := by
      by_contra hminus
      exact not_mem_display (Bool.eq_false_iff.mpr hdigit) hminus n h
    decide

/-- **A text that means itself in a URL**: no character of it means anything else, no segment of it
begins with a dot, and no space is at its end. -/
structure Literal (s : List Char) : Prop where
  chars : ∀ c ∈ s, literalChar c = true
  dots : ∀ u v, s ≠ u ++ '/' :: '.' :: v
  last : s.getLast? ≠ some ' '

/-- **What is relied on of the client and of the storage**: at the URL of a key that means itself,
the object under this key is served. `serves` says the key of what is served at a URL, if it is an
object of the bucket. -/
structure Public (s3 : S3Storage) (serves : List Char → Option (List Char)) : Prop where
  /-- The base of the URLs means itself too. -/
  base : Literal (s3.publicUrl [])
  serves : ∀ key, Literal ('/' :: key) → serves (s3.publicUrl key) = some key

namespace Literal

variable {s t p : List Char}

/-- What is behind a slash of such a text is one. -/
theorem of_append (h : Literal (p ++ '/' :: t)) : Literal ('/' :: t) where
  chars c hc := h.chars c (List.mem_append_right p hc)
  dots u v heq := h.dots (p ++ u) v (by rw [heq, List.append_assoc])
  last := by
    have hlast := h.last
    rwa [List.getLast?_append_of_ne_nil _ (List.cons_ne_nil _ _)] at hlast

/-- Two texts are put together at a slash. -/
theorem append (h : Literal (s ++ ['/'])) (h' : Literal ('/' :: t)) :
    Literal (s ++ '/' :: t) where
  chars c hc := by
    rcases List.mem_append.mp hc with hc | hc
    · exact h.chars c (List.mem_append_left _ hc)
    · exact h'.chars c hc
  dots u v heq := by
    rcases List.append_eq_append_iff.mp heq with ⟨c, -, hc⟩ | ⟨c, hs, hc⟩
    · exact h'.dots c v hc
    · rcases c with _ | ⟨a, _ | ⟨b, c⟩⟩
      · exact h'.dots [] v hc.symm
      · cases hc
      · obtain ⟨ha, hc⟩ := List.cons.inj hc
        obtain ⟨rfl, -⟩ := List.cons.inj hc
        refine h.dots u (c ++ ['/']) ?_
        rw [hs, ← ha]
        simp
  last := by
    rw [List.getLast?_append_of_ne_nil _ (List.cons_ne_nil _ _)]
    exact h'.last

end Literal

/-- A text with one dot, which does not begin a segment. -/
theorem dots_of_one {s t : List Char} (hs : '.' ∉ s) (ht : '.' ∉ t) (hslash : s.getLast? ≠ some '/')
    (u v : List Char) : s ++ '.' :: t ≠ u ++ '/' :: '.' :: v := by
  intro heq
  have heq' : s ++ '.' :: t = (u ++ ['/']) ++ '.' :: v := by simpa using heq
  rcases List.append_eq_append_iff.mp heq' with ⟨c, hu, hc⟩ | ⟨c, hs', hc⟩
  · rcases c with _ | ⟨b, c⟩
    · rw [List.append_nil] at hu
      exact hslash (by rw [← hu]; simp)
    · obtain ⟨rfl, rfl⟩ := List.cons.inj hc
      exact ht (List.mem_append_right _ List.mem_cons_self)
  · rcases c with _ | ⟨b, c⟩
    · rw [List.append_nil] at hs'
      exact hslash (by rw [hs']; simp)
    · obtain ⟨rfl, -⟩ := List.cons.inj hc
      rw [hs'] at hs
      exact hs (List.mem_append_right _ List.mem_cons_self)

/-! ### A client and a storage -/

/-- A segment of one dot. -/
def singleDot : List (List Char) := [".".toList, "%2e".toList, "%2E".toList]

/-- A segment of two dots. -/
def doubleDot : List (List Char) := singleDot.flatMap fun a => singleDot.map (a ++ ·)

/-- The segments that are left behind those that have been read, last first. -/
def resolveDots (before : List (List Char)) : List (List Char) → List (List Char)
  | [] => before.reverse
  | s :: rest =>
    if doubleDot.contains s then resolveDots before.tail rest
    else if singleDot.contains s then resolveDots before rest
    else resolveDots (s :: before) rest

/-- The value of a hexadecimal digit. -/
def hexValue (c : Char) : Option ℕ :=
  (List.range 16).find? fun n => Nat.digitChar n = c.toLower

/-- The characters of ASCII that are written with a percent sign are decoded. -/
def percentDecode : List Char → List Char
  | [] => []
  | '%' :: a :: b :: s =>
    match hexValue a, hexValue b with
    | some hi, some lo => Char.ofNat (16 * hi + lo) :: percentDecode s
    | _, _ => '%' :: a :: b :: percentDecode s
  | c :: s => c :: percentDecode s

/-- The path of a URL as the storage gets to see it, with the protocol and the host in front. -/
def requestPath (url : List Char) : List Char :=
  let text := (url.map fun c => if c = '\\' then '/' else c).takeWhile fun c =>
    decide (c ≠ '?') && decide (c ≠ '#')
  match text.splitOn '/' with
  | [] => []
  | protocol :: segments =>
    percentDecode (['/'].intercalate (protocol :: resolveDots [] segments))

/-- The key that a GET of a URL is served. -/
def servedKey (s3 : S3Storage) (url : List Char) : Option (List Char) :=
  stripPrefix (s3.publicUrl []) (requestPath url)

theorem literalChar_ne {c d : Char} (h : literalChar c = true) (hd : literalChar d = false) :
    c ≠ d := by
  rintro rfl
  rw [h] at hd
  cases hd

theorem percentDecode_eq {s : List Char} (h : '%' ∉ s) : percentDecode s = s := by
  induction s with
  | nil => rfl
  | cons c s ih =>
    have hc : c ≠ '%' := fun heq => h (heq ▸ List.mem_cons_self)
    have hs := ih fun hmem => h (List.mem_cons_of_mem c hmem)
    unfold percentDecode
    split
    · rename_i heq
      cases heq
    · rename_i heq
      exact absurd (List.cons.inj heq).1 hc
    · rename_i heq
      obtain ⟨rfl, rfl⟩ := List.cons.inj heq
      rw [hs]

/-- Segments that are not of dots stay. -/
theorem resolveDots_eq {segments : List (List Char)}
    (h : ∀ s ∈ segments, s ∉ singleDot ∧ s ∉ doubleDot) (before : List (List Char)) :
    resolveDots before segments = before.reverse ++ segments := by
  induction segments generalizing before with
  | nil => rw [resolveDots, List.append_nil]
  | cons s segments ih =>
    obtain ⟨hsingle, hdouble⟩ := h s List.mem_cons_self
    rw [resolveDots, if_neg (mt List.contains_iff_mem.mp hdouble),
      if_neg (mt List.contains_iff_mem.mp hsingle),
      ih fun s' hs' => h s' (List.mem_cons_of_mem s hs')]
    simp

/-- A segment of dots begins with a dot or has a percent sign. -/
theorem begins_of_dots : ∀ s ∈ singleDot ++ doubleDot, s.head? = some '.' ∨ '%' ∈ s := by decide

/-- A segment stands behind a slash, but for the first one. -/
theorem segment_of_intercalate {segments : List (List Char)} {s : List Char} (h : s ∈ segments)
    (s₀ : List Char) : ∃ p q, ['/'].intercalate (s₀ :: segments) = p ++ '/' :: (s ++ q) := by
  induction segments generalizing s₀ with
  | nil => cases h
  | cons t segments ih =>
    rw [List.intercalate_cons_cons]
    rcases List.mem_cons.mp h with rfl | h
    · rcases segments with _ | ⟨t', segments⟩
      · exact ⟨s₀, [], by simp⟩
      · exact ⟨s₀, ['/'] ++ ['/'].intercalate (t' :: segments), by
          rw [List.intercalate_cons_cons]; simp⟩
    · obtain ⟨p, q, heq⟩ := ih h t
      exact ⟨s₀ ++ '/' :: p, q, by rw [heq]; simp⟩

/-- **The path of a text that means itself is the text.** -/
theorem requestPath_eq {url : List Char} (h : Literal url) : requestPath url = url := by
  have hne {c d : Char} (hc : c ∈ url) (hd : literalChar d = false) : c ≠ d :=
    literalChar_ne (h.chars c hc) hd
  have hslash : (url.map fun c => if c = '\\' then '/' else c) = url := by
    refine (List.map_congr_left fun c hc => if_neg (hne hc (by decide))).trans (List.map_id url)
  have htext : url.takeWhile (fun c => decide (c ≠ '?') && decide (c ≠ '#')) = url := by
    rw [List.takeWhile_eq_self_iff]
    intro c hc
    simp [hne hc (show literalChar '?' = false by decide),
      hne hc (show literalChar '#' = false by decide)]
  have hpercent : '%' ∉ url := fun hmem => hne hmem (show literalChar '%' = false by decide) rfl
  rw [requestPath, hslash, htext]
  have hjoin : ['/'].intercalate (url.splitOn '/') = url := List.intercalate_splitOn '/'
  split
  · rename_i hsplit
    rw [hsplit] at hjoin
    exact hjoin
  · rename_i protocol segments hsplit
    rw [hsplit] at hjoin
    have hplain : ∀ s ∈ segments, s ∉ singleDot ∧ s ∉ doubleDot := by
      intro s hs
      obtain ⟨p, q, heq⟩ := segment_of_intercalate hs protocol
      rw [hjoin] at heq
      have hnot : s ∉ singleDot ++ doubleDot := by
        intro hdots
        rcases begins_of_dots s hdots with hhead | hmem
        · obtain ⟨v, rfl⟩ := List.head?_eq_some_iff.mp hhead
          exact h.dots p (v ++ q) heq
        · refine hpercent ?_
          rw [heq]
          exact List.mem_append_right _ (List.mem_cons_of_mem _ (List.mem_append_left _ hmem))
      exact ⟨fun hs => hnot (List.mem_append_left _ hs),
        fun hd => hnot (List.mem_append_right _ hd)⟩
    rw [resolveDots_eq hplain, List.reverse_nil, List.nil_append, hjoin, percentDecode_eq hpercent]

/-- **A client that resolves and a storage that decodes serve such a key.** -/
theorem public_servedKey {s3 : S3Storage} (hbase : Literal (s3.publicUrl [])) :
    Public s3 (servedKey s3) where
  base := hbase
  serves key hkey := by
    have hurl : Literal (s3.publicUrl key) := by
      refine Literal.append (s := s3.publicUrlBase ++ '/' :: s3.bucket) ?_ hkey
      exact hbase
    have happ : s3.publicUrl key = s3.publicUrl [] ++ key := by
      simp [S3Storage.publicUrl]
    rw [servedKey, requestPath_eq hurl, happ, stripPrefix,
      if_pos (List.isPrefixOf_iff_prefix.mpr (List.prefix_append _ _)), List.drop_left]

end Chat

end MateHub
