import Mathlib.Data.List.Chain
import Mathlib.Data.List.DropRight
import MateHub.Lib.Tags

/-!
# The lists of the Markdown renderer

Of `renderMarkdown`, the stage that makes lists: one pass over the lines, with a flag for each kind
of list. A line that is no item closes what is open. A line that is an item opens a list of its own
kind if none is open, and does not look at the other flag: so a list is opened within the other
where a numbered line directly follows a bullet, or a bullet a numbered line. And the text of
an item ends at the first character that the dot of the regular expression does not match
(`MateHub.Web.rendered_iff`).
-/

namespace MateHub

namespace Web

/-! ### Lines -/

/-- `\s`. -/
def isSpace (c : Char) : Bool :=
  (0x09 ≤ c.val && c.val ≤ 0x0D) || c.val == 0x20 || c.val == 0xA0 || c.val == 0x1680 ||
    (0x2000 ≤ c.val && c.val ≤ 0x200A) || c.val == 0x2028 || c.val == 0x2029 ||
    c.val == 0x202F || c.val == 0x205F || c.val == 0x3000 || c.val == 0xFEFF

/-- What the dot does not match. -/
def isLineTerminator (c : Char) : Bool :=
  c.val == 0x0A || c.val == 0x0D || c.val == 0x2028 || c.val == 0x2029

/-- `(.+)`. -/
def matchText (s : List Char) : Option (List Char) :=
  match s.takeWhile fun c => !isLineTerminator c with
  | [] => none
  | item => some item

/-- `\s+(.+)`: the white space takes as much as it can, and gives back what the text needs. -/
def matchSpaceText : List Char → Option (List Char)
  | [] => none
  | c :: cs => if isSpace c then (matchSpaceText cs).or (matchText cs) else none

/-- `/^[-*]\s+(.+)/`. -/
def ulMatch : List Char → Option (List Char)
  | [] => none
  | c :: cs => if c = '-' ∨ c = '*' then matchSpaceText cs else none

/-- `/^\d+\.\s+(.+)/`. -/
def olMatch (line : List Char) : Option (List Char) :=
  match line.takeWhile Char.isDigit, line.dropWhile Char.isDigit with
  | _ :: _, '.' :: cs => matchSpaceText cs
  | _, _ => none

/-! ### The pass -/

/-- The kinds of lists. -/
inductive ListKind
  | ul
  | ol
  deriving DecidableEq

/-- What is between the tags of the lists: an item, or a line that is none. -/
inductive ListContent
  | item (text : List Char)
  | line (text : List Char)
  deriving DecidableEq

/-- An entry of `processed`. -/
abbrev Piece := Tag ListKind ListContent

/-- The HTML of a piece. -/
def Piece.html : Piece → List Char
  | .opens .ul => "<ul class=\"list-disc pl-4 my-0.5\">".toList
  | .opens .ol => "<ol class=\"list-decimal pl-4 my-0.5\">".toList
  | .closes .ul => "</ul>".toList
  | .closes .ol => "</ol>".toList
  | .text (.item text) => "<li>".toList ++ text ++ "</li>".toList
  | .text (.line text) => text

/-- The variables of the loop over the lines. -/
structure ListState where
  inUl : Bool
  inOl : Bool
  processed : List Piece

namespace ListState

/-- A piece is appended. -/
def push (s : ListState) (piece : Piece) : ListState :=
  { s with processed := s.processed ++ [piece] }

/-- A bulleted list that is open is closed. -/
def closeUl (s : ListState) : ListState :=
  if s.inUl then { s.push (.closes .ul) with inUl := false } else s

/-- A numbered list that is open is closed. -/
def closeOl (s : ListState) : ListState :=
  if s.inOl then { s.push (.closes .ol) with inOl := false } else s

/-- The body of the loop. -/
def next (s : ListState) (line : List Char) : ListState :=
  match ulMatch line, olMatch line with
  | some item, _ =>
    let s := if s.inUl then s else { s.push (.opens .ul) with inUl := true }
    s.push (.text (.item item))
  | none, some item =>
    let s := if s.inOl then s else { s.push (.opens .ol) with inOl := true }
    s.push (.text (.item item))
  | none, none => s.closeUl.closeOl.push (.text (.line line))

end ListState

/-- The list stage, from lines to `processed`. -/
def renderLists (lines : List (List Char)) : List Piece :=
  (lines.foldl ListState.next ⟨false, false, []⟩).closeUl.closeOl.processed

/-- The list stage, from a text to a text. -/
def listStage (html : List Char) : List Char :=
  ['\n'].intercalate ((renderLists (html.splitOn '\n')).map Piece.html)

/-! ### What is to come out -/

/-- A text without the white space around it. -/
def trim (s : List Char) : List Char := (s.dropWhile isSpace).rdropWhile isSpace

/-- The kind of item that a line is, and the text that it is given. -/
def marks (line : List Char) : Option (ListKind × List Char) :=
  match ulMatch line, olMatch line with
  | some item, _ => some (.ul, item)
  | none, some item => some (.ol, item)
  | none, none => none

/-- The kind of list that a line belongs to. -/
def kind? (line : List Char) : Option ListKind := (marks line).map Prod.fst

/-- What is behind the mark of an item. -/
def body (line : List Char) : ListKind → List Char
  | .ul => line.tail
  | .ol => (line.dropWhile Char.isDigit).tail

/-- The item that a line is: it is in one list, of its kind, and has the text behind the mark. -/
def itemOf (line : List Char) : Option (List ListKind × List Char) :=
  (kind? line).map fun k => ([k], trim (body line k))

/-- The items that have come out, with the lists that are open around them. -/
def itemsIn (around : List ListKind) (pieces : List Piece) : List (List ListKind × List Char) :=
  (Tag.contents around pieces).filterMap fun e =>
    match e.2 with
    | .item text => some (e.1, trim text)
    | .line _ => none

/-- **The law of the list stage.** -/
structure Rendered (lines : List (List Char)) (pieces : List Piece) : Prop where
  /-- Every list is closed by its own tag, and none is open at the end. -/
  nested : Tag.WellNested [] pieces
  /-- No list is open inside another. -/
  flat : Tag.Flat [] pieces
  /-- Every item is in one list, of its kind, and the texts are in order and complete. -/
  items : itemsIn [] pieces = lines.filterMap itemOf

/-- Two lines that follow each other are not items of two kinds. -/
def Agree (k k' : Option ListKind) : Prop := ∀ x ∈ k, ∀ y ∈ k', x = y

/-- No line is broken within the text of its item. -/
def Unbroken (line : List Char) : Prop :=
  ∀ k ∈ kind? line, ∀ c ∈ trim (body line k), isLineTerminator c = false

/-! ### The text of an item -/

theorem isSpace_of_isLineTerminator {c : Char} (h : isLineTerminator c = true) :
    isSpace c = true := by
  simp only [isLineTerminator, Bool.or_eq_true, beq_iff_eq] at h
  rcases h with ((h | h) | h) | h <;> simp [isSpace, h]

theorem rdropWhile_append_of_forall {p : Char → Bool} {s w : List Char} (h : ∀ c ∈ w, p c = true) :
    (s ++ w).rdropWhile p = s.rdropWhile p := by
  induction w using List.reverseRecOn with
  | nil => rw [List.append_nil]
  | append_singleton w c ih =>
    rw [← List.append_assoc, List.rdropWhile_concat_pos _ _ _ (h c (by simp))]
    exact ih fun c hc => h c (List.mem_append_left _ hc)

theorem matchText_eq_some {s t : List Char} (h : matchText s = some t) :
    t = s.takeWhile fun c => !isLineTerminator c := by
  unfold matchText at h
  generalize s.takeWhile _ = u at h ⊢
  cases u with
  | nil => cases h
  | cons c cs => exact (Option.some.inj h).symm

/-- What has no text at all is white space. -/
theorem forall_isSpace {s : List Char} (hspace : matchSpaceText s = none)
    (htext : matchText s = none) : ∀ c ∈ s, isSpace c = true := by
  induction s with
  | nil => exact fun c hc => absurd hc List.not_mem_nil
  | cons c cs ih =>
    have hterm : isLineTerminator c = true := by
      by_contra hdot
      rw [matchText, List.takeWhile_cons_of_pos (by simpa using hdot)] at htext
      cases htext
    have hc := isSpace_of_isLineTerminator hterm
    rw [matchSpaceText, if_pos hc, Option.or_eq_none_iff] at hspace
    exact List.forall_mem_cons.mpr ⟨hc, ih hspace.1 hspace.2⟩

/-- **What `\s+(.+)` takes for the text**: all behind the white space up to a line terminator, or,
of a text that is nothing but white space, some of that. -/
theorem matchSpaceText_eq_some {s t : List Char} (h : matchSpaceText s = some t) :
    (s.dropWhile isSpace = [] ∧ ∀ c ∈ t, isSpace c = true) ∨
      s.dropWhile isSpace ≠ [] ∧
        t = (s.dropWhile isSpace).takeWhile fun c => !isLineTerminator c := by
  induction s with
  | nil => cases h
  | cons c cs ih =>
    rw [matchSpaceText] at h
    split at h
    · rename_i hc
      rw [List.dropWhile_cons_of_pos hc]
      rcases hspace : matchSpaceText cs with _ | t'
      · rw [hspace, Option.none_or] at h
        have ht := matchText_eq_some h
        rcases cs with _ | ⟨d, ds⟩
        · cases h
        · by_cases hd : isSpace d = true
          · rw [matchSpaceText, if_pos hd, Option.or_eq_none_iff] at hspace
            have hds := forall_isSpace hspace.1 hspace.2
            have hall : ∀ x ∈ d :: ds, isSpace x = true := List.forall_mem_cons.mpr ⟨hd, hds⟩
            refine .inl ⟨List.dropWhile_eq_nil_iff.mpr hall, fun x hx => hall x ?_⟩
            exact (List.takeWhile_sublist _).subset (ht ▸ hx)
          · rw [List.dropWhile_cons_of_neg hd]
            exact .inr ⟨List.cons_ne_nil d ds, ht⟩
      · rw [hspace, Option.some_or] at h
        exact ih (hspace.trans h)
    · cases h

/-- **The text of an item is complete if and only if no line terminator is in it.** -/
theorem trim_eq_iff {s t : List Char} (h : matchSpaceText s = some t) :
    trim t = trim s ↔ ∀ c ∈ trim s, isLineTerminator c = false := by
  rcases matchSpaceText_eq_some h with ⟨hnil, hspace⟩ | ⟨hne, rfl⟩
  · have hs : trim s = [] := by rw [trim, hnil, List.rdropWhile_nil]
    have ht : trim t = [] := by
      rw [trim, List.dropWhile_eq_nil_iff.mpr hspace, List.rdropWhile_nil]
    rw [hs, ht]
    exact iff_of_true rfl fun c hc => absurd hc List.not_mem_nil
  · have hhead := List.head_dropWhile_not isSpace hne
    rw [trim, trim]
    generalize s.dropWhile isSpace = r at hne hhead ⊢
    obtain ⟨y, ys, rfl⟩ := List.exists_cons_of_ne_nil hne
    rw [List.head_cons] at hhead
    have hdot : (!isLineTerminator y) = true := by
      rw [Bool.not_eq_true', Bool.eq_false_iff]
      exact fun hterm => Bool.false_ne_true (hhead.symm.trans (isSpace_of_isLineTerminator hterm))
    have hstart : ((y :: ys).takeWhile fun c => !isLineTerminator c).dropWhile isSpace =
        (y :: ys).takeWhile fun c => !isLineTerminator c := by
      rw [List.takeWhile_cons_of_pos (p := fun c => !isLineTerminator c) hdot,
        List.dropWhile_cons_of_neg (by simp [hhead])]
    rw [hstart]
    refine ⟨fun heq c hc => ?_, fun hall => ?_⟩
    · rw [← heq] at hc
      have hmem := (List.rdropWhile_prefix _ _).subset hc
      simpa using List.mem_takeWhile_imp hmem
    · have hsplit : (y :: ys).rdropWhile isSpace ++ (y :: ys).rtakeWhile isSpace = y :: ys :=
        List.rdropWhile_append_rtakeWhile
      have htake : (y :: ys).takeWhile (fun c => !isLineTerminator c) =
          (y :: ys).rdropWhile isSpace ++
            ((y :: ys).rtakeWhile isSpace).takeWhile fun c => !isLineTerminator c := by
        conv_lhs => rw [← hsplit]
        exact List.takeWhile_append_of_pos fun c hc => by rw [hall c hc]; rfl
      rw [htake, rdropWhile_append_of_forall, List.rdropWhile_idempotent]
      intro c hc
      exact List.mem_rtakeWhile_imp ((List.takeWhile_sublist _).subset hc)

/-- Which of the expressions has matched. -/
theorem marks_eq_some {line item : List Char} {k : ListKind} (h : marks line = some (k, item)) :
    k = .ul ∧ ulMatch line = some item ∨
      k = .ol ∧ ulMatch line = none ∧ olMatch line = some item := by
  rw [marks] at h
  rcases hul : ulMatch line with _ | t
  · rcases hol : olMatch line with _ | t
    · rw [hul, hol] at h
      cases h
    · rw [hul, hol] at h
      obtain ⟨rfl, rfl⟩ := Prod.mk.inj (Option.some.inj h)
      exact .inr ⟨rfl, rfl, rfl⟩
  · rw [hul] at h
    obtain ⟨rfl, rfl⟩ := Prod.mk.inj (Option.some.inj h)
    exact .inl ⟨rfl, rfl⟩

theorem marks_eq_none {line : List Char} (h : marks line = none) :
    ulMatch line = none ∧ olMatch line = none := by
  rw [marks] at h
  split at h
  · cases h
  · cases h
  · rename_i hul hol
    exact ⟨hul, hol⟩

theorem matchSpaceText_body {line item : List Char} {k : ListKind}
    (h : marks line = some (k, item)) : matchSpaceText (body line k) = some item := by
  rcases marks_eq_some h with ⟨rfl, hul⟩ | ⟨rfl, -, hol⟩
  · rcases line with _ | ⟨c, cs⟩
    · cases hul
    · rw [ulMatch] at hul
      split at hul
      · exact hul
      · cases hul
  · rw [olMatch] at hol
    split at hol
    · rename_i heq
      rw [body, heq]
      exact hol
    · cases hol

/-! ### The pass, line by line -/

namespace ListState

variable {ps : List Piece} {line item : List Char} {k k' : ListKind}

/-- No list is open, or one of some kind. -/
def inside (k : Option ListKind) (ps : List Piece) : ListState :=
  ⟨decide (k = some .ul), decide (k = some .ol), ps⟩

theorem next_plain (h : marks line = none) (k : Option ListKind) : (inside k ps).next line =
    inside none (ps ++ (k.toList.map Tag.closes ++ [.text (.line line)])) := by
  obtain ⟨hul, hol⟩ := marks_eq_none h
  rw [next, hul, hol]
  rcases k with _ | _ | _ <;> simp [inside, closeUl, closeOl, push]

theorem next_first (h : marks line = some (k, item)) : (inside none ps).next line =
    inside (some k) (ps ++ [.opens k, .text (.item item)]) := by
  rcases marks_eq_some h with ⟨rfl, hul⟩ | ⟨rfl, hul, hol⟩
  · rw [next, hul]
    simp [inside, push]
  · rw [next, hul, hol]
    simp [inside, push]

theorem next_same (h : marks line = some (k, item)) : (inside (some k) ps).next line =
    inside (some k) (ps ++ [.text (.item item)]) := by
  rcases marks_eq_some h with ⟨rfl, hul⟩ | ⟨rfl, hul, hol⟩
  · rw [next, hul]
    simp [inside, push]
  · rw [next, hul, hol]
    simp [inside, push]

/-- **An item of the other kind**: its list is opened within the one that is open. -/
theorem next_other (h : marks line = some (k, item)) (hne : k ≠ k') :
    (inside (some k') ps).next line =
      ⟨true, true, ps ++ [.opens k, .text (.item item)]⟩ := by
  rcases marks_eq_some h with ⟨rfl, hul⟩ | ⟨rfl, hul, hol⟩
  · rw [next, hul]
    cases k' with
    | ul => exact absurd rfl hne
    | ol => simp [inside, push]
  · rw [next, hul, hol]
    cases k' with
    | ul => simp [inside, push]
    | ol => exact absurd rfl hne

/-- What is in `processed` stays there. -/
theorem processed_closed (s : ListState) :
    ∃ out, s.closeUl.closeOl.processed = s.processed ++ out := by
  obtain ⟨inUl, inOl, ps⟩ := s
  rcases inUl with _ | _ <;> rcases inOl with _ | _
  · exact ⟨[], (List.append_nil ps).symm⟩
  · exact ⟨[.closes .ol], rfl⟩
  · exact ⟨[.closes .ul], rfl⟩
  · exact ⟨[.closes .ul, .closes .ol], List.append_assoc ps _ _⟩

theorem processed_next (s : ListState) (line : List Char) :
    ∃ out, (s.next line).processed = s.processed ++ out := by
  obtain ⟨inUl, inOl, ps⟩ := s
  rw [next]
  split
  · rcases inUl with _ | _
    · exact ⟨_, List.append_assoc ps _ _⟩
    · exact ⟨_, rfl⟩
  · rcases inOl with _ | _
    · exact ⟨_, List.append_assoc ps _ _⟩
    · exact ⟨_, rfl⟩
  · obtain ⟨out, hout⟩ := processed_closed ⟨inUl, inOl, ps⟩
    refine ⟨out ++ [.text (.line line)], ?_⟩
    rw [push, hout, List.append_assoc]

theorem processed_foldl (s : ListState) (lines : List (List Char)) :
    ∃ out, (lines.foldl next s).closeUl.closeOl.processed = s.processed ++ out := by
  induction lines generalizing s with
  | nil => exact processed_closed s
  | cons line lines ih =>
    obtain ⟨out, hout⟩ := processed_next s line
    obtain ⟨rest, hrest⟩ := ih (s.next line)
    exact ⟨out ++ rest, by rw [List.foldl_cons, hrest, hout, List.append_assoc]⟩

end ListState

/-! ### The pass -/

theorem itemOf_of_none {line : List Char} (h : marks line = none) : itemOf line = none := by
  rw [itemOf, kind?, h]
  rfl

theorem itemOf_of_some {line item : List Char} {k : ListKind} (h : marks line = some (k, item)) :
    itemOf line = some ([k], trim (body line k)) := by
  rw [itemOf, kind?, h]
  rfl

theorem unbroken_iff {line item : List Char} {k : ListKind} (h : marks line = some (k, item)) :
    Unbroken line ↔ trim item = trim (body line k) := by
  rw [trim_eq_iff (matchSpaceText_body h), Unbroken, kind?, h]
  exact ⟨fun hall => hall k rfl, fun hall x hx => Option.some.inj hx ▸ hall⟩

section Items

variable {around : List ListKind} {k : ListKind} {text : List Char} {out : List Piece}

@[simp] theorem itemsIn_nil : itemsIn around [] = [] := rfl

@[simp] theorem itemsIn_opens :
    itemsIn around (.opens k :: out) = itemsIn (k :: around) out := rfl

@[simp] theorem itemsIn_closes :
    itemsIn around (.closes k :: out) = itemsIn around.tail out := rfl

@[simp] theorem itemsIn_item :
    itemsIn around (.text (.item text) :: out) = (around, trim text) :: itemsIn around out := rfl

@[simp] theorem itemsIn_line :
    itemsIn around (.text (.line text) :: out) = itemsIn around out := rfl

end Items

/-- What comes out of the pass, from where no list is open or one. -/
structure Comes (k : Option ListKind) (lines : List (List Char)) (out : List Piece) : Prop where
  items : itemsIn k.toList out = lines.filterMap itemOf ↔
    (k :: lines.map kind?).IsChain Agree ∧ ∀ line ∈ lines, Unbroken line
  nested : (k :: lines.map kind?).IsChain Agree → Tag.WellNested k.toList out
  flat : (k :: lines.map kind?).IsChain Agree → Tag.Flat k.toList out

section Comes

variable {k : Option ListKind} {x : ListKind} {line item : List Char} {lines : List (List Char)}
  {out : List Piece}

theorem comes_nil (k : Option ListKind) : Comes k [] (k.toList.map Tag.closes) := by
  have hchain : (k :: [].map kind?).IsChain Agree := List.isChain_singleton k
  have hunbroken : ∀ line ∈ ([] : List (List Char)), Unbroken line :=
    fun line hline => absurd hline List.not_mem_nil
  cases k with
  | none => exact ⟨iff_of_true rfl ⟨hchain, hunbroken⟩, fun _ => rfl, fun _ => trivial⟩
  | some x => exact ⟨iff_of_true rfl ⟨hchain, hunbroken⟩, fun _ => ⟨rfl, rfl⟩, fun _ => trivial⟩

/-- A line that is no item closes what is open. -/
theorem comes_plain (h : marks line = none) (hout : Comes none lines out) :
    Comes k (line :: lines) (k.toList.map Tag.closes ++ .text (.line line) :: out) := by
  have hkind : kind? line = none := by rw [kind?, h]; rfl
  have hchain : (k :: (line :: lines).map kind?).IsChain Agree ↔
      (none :: lines.map kind?).IsChain Agree := by
    rw [List.map_cons, hkind, List.isChain_cons_cons]
    exact and_iff_right fun _ _ _ hy => nomatch hy
  have hunbroken : Unbroken line := by
    rw [Unbroken, hkind]
    exact fun _ hx => nomatch hx
  have hitems : itemsIn k.toList (k.toList.map Tag.closes ++ .text (.line line) :: out) =
      itemsIn [] out := by
    cases k <;> rfl
  refine ⟨?_, fun hk => ?_, fun hk => ?_⟩
  · rw [hitems, List.filterMap_cons_none (itemOf_of_none h), hchain, List.forall_mem_cons,
      and_iff_right hunbroken]
    exact hout.items
  · have hnested := hout.nested (hchain.mp hk)
    cases k with
    | none => exact hnested
    | some y => exact ⟨rfl, hnested⟩
  · have hflat := hout.flat (hchain.mp hk)
    cases k <;> exact hflat

/-- An item in a list of its kind. -/
theorem comes_item (h : marks line = some (x, item)) (hout : Comes (some x) lines out) :
    itemsIn [x] (.text (.item item) :: out) = (line :: lines).filterMap itemOf ↔
      (some x :: lines.map kind?).IsChain Agree ∧ ∀ l ∈ line :: lines, Unbroken l := by
  rw [itemsIn_item, List.filterMap_cons_some (itemOf_of_some h), List.cons.injEq, Prod.mk.injEq,
    eq_self_iff_true, true_and, List.forall_mem_cons, unbroken_iff h]
  exact (and_congr_right fun _ => hout.items).trans and_left_comm

theorem comes_first (h : marks line = some (x, item)) (hout : Comes (some x) lines out) :
    Comes none (line :: lines) (.opens x :: .text (.item item) :: out) := by
  have hkind : kind? line = some x := by rw [kind?, h]; rfl
  have hchain : (none :: (line :: lines).map kind?).IsChain Agree ↔
      (some x :: lines.map kind?).IsChain Agree := by
    rw [List.map_cons, hkind, List.isChain_cons_cons]
    exact and_iff_right fun _ hx => nomatch hx
  refine ⟨?_, fun hk => hout.nested (hchain.mp hk), fun hk => ⟨rfl, hout.flat (hchain.mp hk)⟩⟩
  rw [hchain]
  exact comes_item h hout

theorem comes_same (h : marks line = some (x, item)) (hout : Comes (some x) lines out) :
    Comes (some x) (line :: lines) (.text (.item item) :: out) := by
  have hkind : kind? line = some x := by rw [kind?, h]; rfl
  have hchain : (some x :: (line :: lines).map kind?).IsChain Agree ↔
      (some x :: lines.map kind?).IsChain Agree := by
    rw [List.map_cons, hkind, List.isChain_cons_cons]
    exact and_iff_right fun _ hy _ hz => Option.some.inj (hy.symm.trans hz)
  refine ⟨?_, fun hk => hout.nested (hchain.mp hk), fun hk => hout.flat (hchain.mp hk)⟩
  rw [hchain]
  exact comes_item h hout

/-- An item in a list of its kind, within one of the other. -/
theorem comes_other {y : ListKind} (h : marks line = some (x, item)) (hne : x ≠ y)
    (out : List Piece) :
    Comes (some y) (line :: lines) (.opens x :: .text (.item item) :: out) := by
  have hkind : kind? line = some x := by rw [kind?, h]; rfl
  have hchain : ¬ (some y :: (line :: lines).map kind?).IsChain Agree := by
    rw [List.map_cons, hkind, List.isChain_cons_cons]
    exact fun hk => hne (hk.1 y rfl x rfl).symm
  refine ⟨iff_of_false (fun heq => ?_) fun hk => hchain hk.1, fun hk => absurd hk hchain,
    fun hk => absurd hk hchain⟩
  rw [List.filterMap_cons_some (itemOf_of_some h)] at heq
  have hhead := (Prod.mk.inj (List.head_eq_of_cons_eq heq)).1
  cases hhead

/-- **The pass**, from where no list is open or one. The induction is on the lines. -/
theorem exists_comes (k : Option ListKind) (lines : List (List Char)) (ps : List Piece) :
    ∃ out, (lines.foldl ListState.next (.inside k ps)).closeUl.closeOl.processed = ps ++ out ∧
      Comes k lines out := by
  induction lines generalizing k ps with
  | nil =>
    refine ⟨_, ?_, comes_nil k⟩
    rcases k with _ | _ | _
    · exact (List.append_nil ps).symm
    · rfl
    · rfl
  | cons line lines ih =>
    rw [List.foldl_cons]
    rcases h : marks line with _ | ⟨x, item⟩
    · rw [ListState.next_plain h]
      obtain ⟨out, hout, hcomes⟩ := ih none _
      refine ⟨_, hout.trans ?_, comes_plain h hcomes⟩
      simp
    · rcases k with _ | y
      · rw [ListState.next_first h]
        obtain ⟨out, hout, hcomes⟩ := ih (some x) _
        refine ⟨_, hout.trans ?_, comes_first h hcomes⟩
        simp
      · by_cases hxy : x = y
        · subst hxy
          rw [ListState.next_same h]
          obtain ⟨out, hout, hcomes⟩ := ih (some x) _
          refine ⟨_, hout.trans ?_, comes_same h hcomes⟩
          simp
        · rw [ListState.next_other h hxy]
          obtain ⟨out, hout⟩ := ListState.processed_foldl _ lines
          refine ⟨_, hout.trans ?_, comes_other h hxy out⟩
          simp

end Comes

/-- **What is rendered is well formed if and only if** no item directly follows an item of the
other kind, and no line is broken within the text of its item. -/
theorem rendered_iff (lines : List (List Char)) : Rendered lines (renderLists lines) ↔
    (lines.map kind?).IsChain Agree ∧ ∀ line ∈ lines, Unbroken line := by
  obtain ⟨out, hout, hcomes⟩ := exists_comes none lines []
  have hrender : renderLists lines = out := hout
  have hchain : (none :: lines.map kind?).IsChain Agree ↔ (lines.map kind?).IsChain Agree := by
    cases lines with
    | nil => exact iff_of_true (List.isChain_singleton none) List.isChain_nil
    | cons line lines =>
      rw [List.map_cons, List.isChain_cons_cons]
      exact and_iff_right fun _ hx => nomatch hx
  rw [hrender, ← hchain]
  refine ⟨fun h => hcomes.items.mp h.items, fun h => ?_⟩
  exact ⟨hcomes.nested h.1, hcomes.flat h.1, hcomes.items.mpr h⟩

example : renderLists ["- eggs".toList, "1. break them".toList] =
    [.opens .ul, .text (.item "eggs".toList), .opens .ol, .text (.item "break them".toList),
      .closes .ul, .closes .ol] := by decide

/-- A numbered line behind a bullet: its list is opened within the other, and closed after it. -/
theorem renderLists_mixed : ¬ ∀ lines, Rendered lines (renderLists lines) := by
  intro h
  have hflat := (h ["- eggs".toList, "1. break them".toList]).flat
  revert hflat
  decide

end Web

end MateHub
