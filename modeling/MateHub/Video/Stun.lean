import MateHub.Video.Dispatcher

/-!
# The ufrag of a STUN message

`MateHub.Video.parseStunLocalUfrag` runs over the bytes that are left. The function of the
source runs over an index of the datagram: it adds and it reads where a sum may not fit and
an index may be too large. Here each of these is an `Except`, as it is a panic in the source.

The one thing to know of its loop is that the index is at most three bytes behind the end of
the datagram: the padding of the last attribute may be missing. So nothing overflows, and an
iteration reads only where its guards have looked. The other half is about messages: the
bytes of an attribute are skipped together, so what they look like does not matter.
-/

namespace MateHub

namespace Video

/-! ### Reading by index -/

/-- Why an evaluation panics. -/
inductive Panic
  | outOfBounds
  | overflow
  deriving DecidableEq, Repr

/-- A `&[u8]`: it has at most `isize::MAX` bytes. -/
abbrev ByteSlice := {data : List UInt8 // data.length < 2 ^ 63}

/-- `data[i]`. -/
def readAt (data : List UInt8) (i : ℕ) : Except Panic UInt8 :=
  match data[i]? with
  | some b => .ok b
  | none => .error .outOfBounds

/-- `&data[a..b]`. -/
def readRange (data : List UInt8) (a b : ℕ) : Except Panic (List UInt8) :=
  if a ≤ b ∧ b ≤ data.length then .ok ((data.drop a).take (b - a)) else .error .outOfBounds

/-- `a.checked_add(b)` on `usize`. -/
def usizeCheckedAdd (a b : ℕ) : Option ℕ := if a + b < 2 ^ 64 then some (a + b) else none

/-- `a + b` on `usize`. -/
def usizeAdd (a b : ℕ) : Except Panic ℕ :=
  match usizeCheckedAdd a b with
  | some n => .ok n
  | none => .error .overflow

/-- `looks_like_stun`, with the reads it makes. -/
def readsLikeStun (data : List UInt8) : Except Panic Bool := do
  if 20 ≤ data.length then
    if (← readAt data 0) &&& 0xC0 == 0 then
      return (← readRange data 4 8) == stunMagicCookie
    else return false
  else return false

/-- What an iteration of `parse_stun_local_ufrag` comes to: the result, or the next index. -/
inductive StunTurn
  | done (ufrag : Option String)
  | next (p : ℕ)
  deriving DecidableEq

/-- What is read of the value of a USERNAME. -/
def readUfrag (val : List UInt8) : Except Panic (Option String) :=
  match val.findIdx? fun b => b = 58 with
  | none => return none
  | some colon => return String.fromUTF8? ⟨(← readRange val 0 colon).toArray⟩

/-- An iteration of the loop of `parse_stun_local_ufrag`, at index `p`. -/
def stunTurn (data : List UInt8) (p : ℕ) : Except Panic StunTurn := do
  if (← usizeAdd p 4) ≤ data.length then
    let attrType := u16FromBeBytes (← readAt data p) (← readAt data (← usizeAdd p 1))
    let attrLen := u16FromBeBytes (← readAt data (← usizeAdd p 2))
      (← readAt data (← usizeAdd p 3))
    let valueStart ← usizeAdd p 4
    match usizeCheckedAdd valueStart attrLen with
    | none => return .done none
    | some valueEnd =>
      if data.length < valueEnd then return .done none
      else if attrType = stunAttrUsername then
        return .done (← readUfrag (← readRange data valueStart valueEnd))
      else return .next (← usizeAdd valueEnd ((4 - attrLen % 4) % 4))
  else return .done none

/-- The loop, for as many iterations as there is fuel; `none` when it has not ended. -/
def stunLoop (data : List UInt8) : ℕ → ℕ → Option (Except Panic (Option String))
  | 0, _ => none
  | fuel + 1, p =>
    match stunTurn data p with
    | .error e => some (.error e)
    | .ok (.done ufrag) => some (.ok ufrag)
    | .ok (.next p') => stunLoop data fuel p'

/-- `parse_stun_local_ufrag`, with the reads it makes. -/
def readStunLocalUfrag (fuel : ℕ) (data : List UInt8) : Option (Except Panic (Option String)) :=
  match readsLikeStun data with
  | .error e => some (.error e)
  | .ok false => some (.ok none)
  | .ok true => stunLoop data fuel 20

/-! ### The reads are within bounds -/

theorem usizeCheckedAdd_of_lt {a b : ℕ} (h : a + b < 2 ^ 64) :
    usizeCheckedAdd a b = some (a + b) := if_pos h

theorem usizeAdd_of_lt {a b : ℕ} (h : a + b < 2 ^ 64) : usizeAdd a b = .ok (a + b) := by
  rw [usizeAdd, usizeCheckedAdd_of_lt h]

theorem readAt_of_getElem? {data : List UInt8} {i : ℕ} {b : UInt8} (h : data[i]? = some b) :
    readAt data i = .ok b := by
  rw [readAt, h]

theorem readRange_of_le {data : List UInt8} {a b : ℕ} (ha : a ≤ b) (hb : b ≤ data.length) :
    readRange data a b = .ok ((data.drop a).take (b - a)) := if_pos ⟨ha, hb⟩

theorem readsLikeStun_eq (data : List UInt8) : readsLikeStun data = .ok (looksLikeStun data) := by
  rw [readsLikeStun, looksLikeStun]
  by_cases hlen : 20 ≤ data.length
  · rcases data with _ | ⟨b, rest⟩
    · simp at hlen
    · have hrange := readRange_of_le (show 4 ≤ 8 by omega) (show 8 ≤ (b :: rest).length by omega)
      rw [if_pos hlen, readAt_of_getElem? (show (b :: rest)[0]? = some b from rfl), hrange, decide_eq_true hlen]
      simp only [bind, Except.bind, pure, Except.pure, List.headD_cons, Bool.true_and]
      by_cases hb : (b &&& 0xC0 == 0) = true
      · rw [if_pos hb, hb]
        rfl
      · rw [if_neg hb, Bool.eq_false_of_not_eq_true hb]
        rfl
  · rw [if_neg hlen, decide_eq_false hlen]
    rfl

/-- A colon is found within the value. -/
theorem readUfrag_eq (val : List UInt8) : readUfrag val = .ok (recipientUfrag val) := by
  rw [readUfrag, recipientUfrag]
  cases h : val.findIdx? fun b => b = 58 with
  | none => rfl
  | some colon =>
    have hlt := (List.findIdx?_eq_some_iff_findIdx_eq.mp h).1
    dsimp only
    rw [readRange_of_le (Nat.zero_le colon) hlt.le]
    rfl

/-- An iteration at the end of the datagram. -/
theorem stunTurn_of_lt {data : List UInt8} {p : ℕ} (hp : p + 4 < 2 ^ 64)
    (h : data.length < p + 4) : stunTurn data p = .ok (.done none) := by
  rw [stunTurn, usizeAdd_of_lt hp]
  exact if_neg (by omega)

/-- **An iteration reads within bounds**: it comes to what the bytes from its index on say. -/
theorem stunTurn_of_drop {data rest : List UInt8} {p : ℕ} {t₁ t₂ l₁ l₂ : UInt8}
    (hlen : data.length < 2 ^ 63) (h : data.drop p = t₁ :: t₂ :: l₁ :: l₂ :: rest) :
    stunTurn data p = .ok (
      if rest.length < u16FromBeBytes l₁ l₂ then .done none
      else if u16FromBeBytes t₁ t₂ = stunAttrUsername then
        .done (recipientUfrag (rest.take (u16FromBeBytes l₁ l₂)))
      else .next (p + 4 + u16FromBeBytes l₁ l₂ + (4 - u16FromBeBytes l₁ l₂ % 4) % 4)) := by
  have hp : data.length = p + 4 + rest.length := by
    have := congrArg List.length h
    simp only [List.length_drop, List.length_cons] at this
    omega
  have hat (i : ℕ) : data[p + i]? = (t₁ :: t₂ :: l₁ :: l₂ :: rest)[i]? := by
    rw [← h, List.getElem?_drop]
  have hrest : data.drop (p + 4) = rest := by
    rw [← List.drop_drop, h]
    rfl
  have hl : u16FromBeBytes l₁ l₂ < 2 ^ 16 := by
    have h₁ := l₁.toNat_lt
    have h₂ := l₂.toNat_lt
    rw [u16FromBeBytes]
    omega
  have hadd {i : ℕ} (hi : i ≤ 4) : usizeAdd p i = .ok (p + i) := usizeAdd_of_lt (by omega)
  rw [stunTurn, hadd (show 4 ≤ 4 by omega), hadd (show 1 ≤ 4 by omega),
    hadd (show 2 ≤ 4 by omega), hadd (show 3 ≤ 4 by omega)]
  simp only [bind, Except.bind, pure, Except.pure]
  rw [if_pos (by omega), readAt_of_getElem? (show data[p]? = some t₁ from hat 0), readAt_of_getElem? (hat 1),
    readAt_of_getElem? (hat 2), readAt_of_getElem? (hat 3)]
  dsimp only
  generalize u16FromBeBytes l₁ l₂ = len at hl ⊢
  rw [usizeCheckedAdd_of_lt (show p + 4 + len < 2 ^ 64 by omega)]
  dsimp only
  by_cases hfit : rest.length < len
  · rw [if_pos hfit, if_pos (by omega)]
  · rw [if_neg hfit, if_neg (by omega)]
    by_cases husername : u16FromBeBytes t₁ t₂ = stunAttrUsername
    · rw [if_pos husername, if_pos husername, readRange_of_le (by omega) (by omega), hrest,
        Nat.add_sub_cancel_left]
      dsimp only
      rw [readUfrag_eq]
    · rw [if_neg husername, if_neg husername,
        usizeAdd_of_lt (show p + 4 + len + (4 - len % 4) % 4 < 2 ^ 64 by omega)]

/-- **The loop ends**: an iteration takes four bytes or more. -/
theorem stunLoop_eq {data : List UInt8} (hlen : data.length < 2 ^ 63) {fuel fuel' p : ℕ}
    (hp : p ≤ data.length + 3) (hfuel : data.length < fuel + p) (hpos : 0 < fuel)
    (hfuel' : data.length ≤ fuel' + p) :
    stunLoop data fuel p = some (.ok (stunAttributes fuel' (data.drop p))) := by
  induction fuel generalizing fuel' p with
  | zero => exact absurd hpos (lt_irrefl 0)
  | succ fuel ih =>
    have hdrop := List.length_drop (i := p) (l := data)
    rw [stunLoop]
    rcases hbytes : data.drop p with _ | ⟨t₁, _ | ⟨t₂, _ | ⟨l₁, _ | ⟨l₂, rest⟩⟩⟩⟩
    case cons.cons.cons.cons =>
      rw [hbytes] at hdrop
      simp only [List.length_cons] at hdrop
      obtain ⟨fuel', rfl⟩ : ∃ n, fuel' = n + 1 := ⟨fuel' - 1, by omega⟩
      rw [stunTurn_of_drop hlen hbytes, stunAttributes]
      generalize u16FromBeBytes l₁ l₂ = len
      by_cases hfit : rest.length < len
      · simp only [if_pos hfit]
      · by_cases husername : u16FromBeBytes t₁ t₂ = stunAttrUsername
        · simp only [if_neg hfit, if_pos husername]
        · have hnext : data.drop (p + 4 + len + (4 - len % 4) % 4) =
              rest.drop (len + (4 - len % 4) % 4) := by
            rw [Nat.add_assoc, Nat.add_assoc, ← List.drop_drop, hbytes, Nat.add_comm 4]
            rfl
          simp only [if_neg hfit, if_neg husername]
          rw [← hnext]
          exact ih (by omega) (by omega) (by omega) (by omega)
    all_goals
      rw [hbytes] at hdrop
      simp only [List.length_cons, List.length_nil] at hdrop
      rw [stunTurn_of_lt (by omega) (by omega)]
      cases fuel' <;> rfl

/-- **Of every datagram**, it reads only what is there, it ends, and it returns what
`parseStunLocalUfrag` does. -/
theorem readStunLocalUfrag_eq (data : ByteSlice) {fuel : ℕ} (h : data.val.length < fuel) :
    readStunLocalUfrag fuel data.val = some (.ok (parseStunLocalUfrag data.val)) := by
  rw [readStunLocalUfrag, readsLikeStun_eq, parseStunLocalUfrag]
  cases hstun : looksLikeStun data.val with
  | false => rfl
  | true =>
    have hlong : 20 ≤ data.val.length := by
      rw [looksLikeStun, Bool.and_assoc, Bool.and_eq_true] at hstun
      exact of_decide_eq_true hstun.1
    exact stunLoop_eq data.2 (by omega) (by omega) (by omega) (by omega)

/-! ### Messages -/

/-- `u16::to_be_bytes`. -/
def u16ToBeBytes (n : ℕ) : List UInt8 := [UInt8.ofNat (n / 256), UInt8.ofNat n]

/-- An attribute of a STUN message, with the bytes that pad it: they may be any. -/
structure StunAttribute where
  type : ℕ
  value : List UInt8
  padding : List UInt8
  type_lt : type < 2 ^ 16
  length_lt : value.length < 2 ^ 16
  length_padding : padding.length = (4 - value.length % 4) % 4

/-- The bytes of an attribute. -/
def StunAttribute.encode (a : StunAttribute) : List UInt8 :=
  u16ToBeBytes a.type ++ u16ToBeBytes a.value.length ++ a.value ++ a.padding

/-- A well-formed STUN message. The two highest bits of its type are zero, and its length,
which is that of its attributes, is a `u16`. -/
structure StunMessage where
  type : ℕ
  transactionId : List UInt8
  attributes : List StunAttribute
  type_lt : type < 2 ^ 14
  length_transactionId : transactionId.length = 12
  length_lt : (attributes.flatMap StunAttribute.encode).length < 2 ^ 16

namespace StunMessage

/-- The bytes of the attributes. -/
def body (m : StunMessage) : List UInt8 := m.attributes.flatMap StunAttribute.encode

/-- The header of a message. -/
def header (m : StunMessage) : List UInt8 :=
  u16ToBeBytes m.type ++ u16ToBeBytes m.body.length ++ stunMagicCookie ++ m.transactionId

/-- The bytes of a message. -/
def encode (m : StunMessage) : List UInt8 := m.header ++ m.body

/-- The value of the first USERNAME. -/
def username? (m : StunMessage) : Option (List UInt8) :=
  (m.attributes.find? fun a => a.type = stunAttrUsername).map StunAttribute.value

end StunMessage

/-- `s` is the part of `val` before its first colon. -/
def BeforeColon (val : List UInt8) (s : String) : Prop :=
  (58 : UInt8) ∉ s.toUTF8.data.toList ∧ ∃ rest, val = s.toUTF8.data.toList ++ 58 :: rest

theorem u16FromBeBytes_toBeBytes {n : ℕ} (h : n < 2 ^ 16) :
    u16FromBeBytes (UInt8.ofNat (n / 256)) (UInt8.ofNat n) = n := by
  rw [u16FromBeBytes, UInt8.toNat_ofNat', UInt8.toNat_ofNat']
  omega

theorem fromUTF8?_eq_some_iff {b : ByteArray} {s : String} :
    String.fromUTF8? b = some s ↔ b = s.toUTF8 := by
  rw [String.fromUTF8?]
  constructor
  · intro h
    split at h
    · rw [← Option.some.inj h]
      rfl
    · cases h
  · rintro rfl
    exact dif_pos s.isValidUTF8

/-- **What is returned for a value**: the part before its first colon, where that is UTF-8. -/
theorem recipientUfrag_eq_some_iff {val : List UInt8} {s : String} :
    recipientUfrag val = some s ↔ BeforeColon val s := by
  rw [recipientUfrag, Option.bind_eq_some_iff]
  constructor
  · rintro ⟨colon, hcolon, hs⟩
    obtain ⟨hlt, hat, hbefore⟩ := List.findIdx?_eq_some_iff_getElem.mp hcolon
    have hutf : s.toUTF8.data.toList = val.take colon := by
      rw [← fromUTF8?_eq_some_iff.mp hs]
    rw [BeforeColon, hutf]
    refine ⟨fun hmem => ?_, val.drop (colon + 1), ?_⟩
    · obtain ⟨j, hj, hget⟩ := List.mem_iff_getElem.mp hmem
      rw [List.getElem_take] at hget
      rw [List.length_take] at hj
      exact hbefore j (lt_of_lt_of_le hj (Nat.min_le_left _ _)) (decide_eq_true hget)
    · rw [← of_decide_eq_true hat, List.cons_getElem_drop_succ, List.take_append_drop]
  · rintro ⟨hnot, rest, rfl⟩
    have hnone : s.toUTF8.data.toList.findIdx? (fun b => decide (b = 58)) = none := by
      rw [List.findIdx?_eq_none_iff]
      exact fun b hb => decide_eq_false fun h => hnot (h ▸ hb)
    refine ⟨s.toUTF8.data.toList.length, ?_, ?_⟩
    · rw [List.findIdx?_append, hnone, List.findIdx?_cons]
      simp
    · rw [List.take_left, fromUTF8?_eq_some_iff]

/-- The two highest bits of a byte below 64 are zero. -/
theorem andC0_ofNat {n : ℕ} (h : n < 64) : UInt8.ofNat n &&& 0xC0 = 0 := by
  revert n
  decide

theorem encode_append (a : StunAttribute) (bytes : List UInt8) :
    a.encode ++ bytes = UInt8.ofNat (a.type / 256) :: UInt8.ofNat a.type ::
      UInt8.ofNat (a.value.length / 256) :: UInt8.ofNat a.value.length ::
        (a.value ++ (a.padding ++ bytes)) := by
  simp only [StunAttribute.encode, u16ToBeBytes, List.append_assoc, List.cons_append,
    List.nil_append]

/-- The bytes of an attribute are read as one attribute, whatever they look like. -/
theorem stunAttributes_encode_append (a : StunAttribute) (bytes : List UInt8) (fuel : ℕ) :
    stunAttributes (fuel + 1) (a.encode ++ bytes) =
      if a.type = stunAttrUsername then recipientUfrag a.value else stunAttributes fuel bytes := by
  have hskip : (a.value ++ (a.padding ++ bytes)).drop
      (a.value.length + (4 - a.value.length % 4) % 4) = bytes := by
    rw [← a.length_padding, ← List.append_assoc]
    exact List.drop_left' List.length_append
  have hfits : ¬(a.value ++ (a.padding ++ bytes)).length < a.value.length := by
    rw [List.length_append]
    omega
  rw [encode_append, stunAttributes, u16FromBeBytes_toBeBytes a.type_lt,
    u16FromBeBytes_toBeBytes a.length_lt, if_neg hfits, List.take_left, hskip]

/-- By induction on the attributes: those before the first USERNAME are skipped. -/
theorem stunAttributes_flatMap {attributes : List StunAttribute} {fuel : ℕ}
    (h : (attributes.flatMap StunAttribute.encode).length ≤ fuel) :
    stunAttributes fuel (attributes.flatMap StunAttribute.encode) =
      ((attributes.find? fun a => a.type = stunAttrUsername).map StunAttribute.value).bind
        recipientUfrag := by
  induction attributes generalizing fuel with
  | nil => cases fuel <;> rfl
  | cons a attributes ih =>
    rw [List.flatMap_cons] at h ⊢
    have hlen := congrArg List.length
      (encode_append a (attributes.flatMap StunAttribute.encode))
    simp only [List.length_cons, List.length_append] at hlen h
    obtain ⟨fuel, rfl⟩ : ∃ n, fuel = n + 1 := ⟨fuel - 1, by omega⟩
    rw [stunAttributes_encode_append]
    by_cases husername : a.type = stunAttrUsername
    · rw [if_pos husername, List.find?_cons, decide_eq_true husername]
      rfl
    · rw [if_neg husername, List.find?_cons, decide_eq_false husername]
      exact ih (by omega)

namespace StunMessage

theorem length_header (m : StunMessage) : m.header.length = 20 := by
  simp only [header, u16ToBeBytes, stunMagicCookie, List.length_append, List.length_cons,
    List.length_nil, m.length_transactionId]

theorem length_encode_lt (m : StunMessage) : m.encode.length < 2 ^ 63 := by
  have hbody : m.body.length < 2 ^ 16 := m.length_lt
  rw [encode, List.length_append, m.length_header]
  omega

theorem looksLikeStun_encode (m : StunMessage) : looksLikeStun m.encode = true := by
  have hlt := m.type_lt
  have hlen : 20 ≤ m.encode.length := by
    rw [encode, List.length_append, m.length_header]
    exact Nat.le_add_right _ _
  have hfirst : UInt8.ofNat (m.type / 256) &&& 0xC0 = 0 := andC0_ofNat (by omega)
  rw [looksLikeStun, decide_eq_true hlen, Bool.true_and, Bool.and_eq_true]
  refine ⟨?_, rfl⟩
  exact beq_iff_eq.mpr hfirst

/-- **The ufrag of a message** is what its first USERNAME says. -/
theorem parseStunLocalUfrag_encode (m : StunMessage) :
    parseStunLocalUfrag m.encode = m.username?.bind recipientUfrag := by
  have hdrop : m.encode.drop 20 = m.body := List.drop_left' m.length_header
  rw [parseStunLocalUfrag, if_pos m.looksLikeStun_encode, hdrop]
  refine stunAttributes_flatMap ?_
  rw [encode, List.length_append]
  exact Nat.le_add_left _ _

end StunMessage

/-- **The ufrag of a STUN message.** Of every datagram it reads within bounds, adds without
overflow and returns, however many iterations may be made. Of a message it returns the part
before the first colon of its first USERNAME, where that is UTF-8, and nothing where there is
no USERNAME: what two messages differ in besides is of no account. -/
theorem readStunLocalUfrag_spec :
    (∀ (data : ByteSlice) (fuel : ℕ), data.val.length < fuel →
      ∃ ufrag, readStunLocalUfrag fuel data.val = some (.ok ufrag)) ∧
    (∀ (m : StunMessage) (fuel : ℕ), m.encode.length < fuel →
      ∃ ufrag, readStunLocalUfrag fuel m.encode = some (.ok ufrag) ∧
        (∀ s, ufrag = some s ↔ ∃ val, m.username? = some val ∧ BeforeColon val s) ∧
        (m.username? = none → ufrag = none)) ∧
    (∀ (m m' : StunMessage) (fuel : ℕ), m.username? = m'.username? →
      m.encode.length < fuel → m'.encode.length < fuel →
        readStunLocalUfrag fuel m.encode = readStunLocalUfrag fuel m'.encode) := by
  have hmessage (m : StunMessage) {fuel : ℕ} (h : m.encode.length < fuel) :
      readStunLocalUfrag fuel m.encode = some (.ok (m.username?.bind recipientUfrag)) := by
    rw [readStunLocalUfrag_eq ⟨m.encode, m.length_encode_lt⟩ h, m.parseStunLocalUfrag_encode]
  refine ⟨fun data fuel h => ⟨_, readStunLocalUfrag_eq data h⟩, fun m fuel h => ?_,
    fun m m' fuel husername h h' => ?_⟩
  · refine ⟨_, hmessage m h, fun s => ?_, fun hnone => ?_⟩
    · simp only [Option.bind_eq_some_iff, recipientUfrag_eq_some_iff]
    · rw [hnone]
      rfl
  · rw [hmessage m h, hmessage m' h', husername]

/-- A Binding request with a SOFTWARE attribute in front of its USERNAME; both are padded. -/
def bindingRequest : StunMessage where
  type := 1
  transactionId := [1, 2, 3, 4, 5, 6, 7, 8, 9, 10, 11, 12]
  attributes :=
    [⟨0x8022, [115, 116, 114, 48, 109], [0, 0, 0], by decide, by decide, by decide⟩,
      ⟨stunAttrUsername, [97, 98, 58, 99, 100, 58], [255, 58], by decide, by decide, by decide⟩]
  type_lt := by decide
  length_transactionId := rfl
  length_lt := by decide

theorem readStunLocalUfrag_spec_bindingRequest :
    bindingRequest.encode.length = 44 ∧
      readStunLocalUfrag 45 bindingRequest.encode = some (.ok (some "ab")) := by
  have hlength : bindingRequest.encode.length = 44 := by decide
  refine ⟨hlength, ?_⟩
  obtain ⟨ufrag, hread, hexact, -⟩ :=
    readStunLocalUfrag_spec.2.1 bindingRequest 45 (hlength ▸ Nat.lt_succ_self 44)
  have hbefore : BeforeColon [97, 98, 58, 99, 100, 58] "ab" := ⟨by decide, [99, 100, 58], rfl⟩
  rw [hread, (hexact "ab").mpr ⟨_, rfl, hbefore⟩]

end Video

end MateHub
