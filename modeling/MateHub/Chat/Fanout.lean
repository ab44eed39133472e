import Mathlib.Algebra.Group.Int.Defs
import Mathlib.Algebra.Group.Nat.Defs
import Mathlib.Data.List.Basic

/-!
# Subjects of the chat fan-out

The chat service publishes every event on a NATS subject that names the hub, the channel
and the event, `hub.{hub_id}.channel.{channel_id}.{event}`. A gateway connection
subscribes to the subjects of its hub, takes the channel and the event back out of the
subject of each message, and dispatches a frame with the name that the event has on the
gateway, by which the SDK tells what to do with it.

The two ends are written independently. They agree on all kinds of events but two: an
edit and a deletion are published under the gateway's names for them, in upper case,
which the table of the gateway does not know (`MateHub.Chat.roundTrip_iff`).
-/

namespace MateHub

namespace Chat

/-! ### 64-bit integers in decimal -/

/-- A 64-bit signed integer. -/
abbrev I64 := {n : ℤ // -2 ^ 63 ≤ n ∧ n < 2 ^ 63}

/-- The integer that a numeral stands for. -/
def i64 (n : ℕ) (h : decide (n < 2 ^ 63) = true := by exact Eq.refl true) : I64 :=
  ⟨n, by omega, by have hn := of_decide_eq_true h; omega⟩

/-- A number as a 64-bit integer, if it is one. -/
def toI64 (n : ℤ) : Option I64 :=
  if h : -2 ^ 63 ≤ n ∧ n < 2 ^ 63 then some ⟨n, h⟩ else none

/-- The decimal form of an integer. -/
def I64.display (n : I64) : List Char :=
  if n.1 < 0 then '-' :: Nat.toDigits 10 n.1.natAbs else Nat.toDigits 10 n.1.natAbs

/-- The number that a non-empty list of decimal digits stands for. -/
def parseDigits (ds : List Char) : Option ℕ :=
  if ds.isEmpty || !ds.all Char.isDigit then none else some (Nat.ofDigitChars 10 ds 0)

/-- `parse::<i64>`: an optional sign, digits, and a value in range. -/
def parseI64 : List Char → Option I64
  | '-' :: ds => (parseDigits ds).bind fun n => toI64 (-n)
  | '+' :: ds => (parseDigits ds).bind fun n => toI64 n
  | ds => (parseDigits ds).bind fun n => toI64 n

theorem parseDigits_toDigits (n : ℕ) : parseDigits (Nat.toDigits 10 n) = some n := by
  have hne : (Nat.toDigits 10 n).isEmpty = false := by
    rw [Nat.toDigits_eq_if (by decide)]
    split
    · rfl
    · simp
  have hall : (Nat.toDigits 10 n).all Char.isDigit = true := by
    rw [List.all_eq_true]
    exact fun c hc => Nat.isDigit_of_mem_toDigits (by decide) (by decide) hc
  simp [parseDigits, hne, hall]

theorem toI64_val (n : I64) : toI64 n.1 = some n := dif_pos n.2

/-- **Parsing undoes printing.** -/
theorem parseI64_display (n : I64) : parseI64 n.display = some n := by
  unfold I64.display
  split
  · rename_i hneg
    rw [parseI64, parseDigits_toDigits, Option.bind_some,
      show -(n.1.natAbs : ℤ) = n.1 by omega, toI64_val]
  · rename_i hpos
    have hval : (n.1.natAbs : ℤ) = n.1 := by omega
    have hdigit : ∀ c ∈ Nat.toDigits 10 n.1.natAbs, c ≠ '-' ∧ c ≠ '+' := by
      intro c hc
      have hd := Nat.isDigit_of_mem_toDigits (by decide) (by decide) hc
      refine ⟨?_, ?_⟩ <;> rintro rfl <;> exact absurd hd (by decide)
    have hplain : parseI64 (Nat.toDigits 10 n.1.natAbs) =
        (parseDigits (Nat.toDigits 10 n.1.natAbs)).bind fun n => toI64 n := by
      generalize Nat.toDigits 10 n.1.natAbs = ds at hdigit
      unfold parseI64
      split
      · exact absurd rfl (hdigit '-' List.mem_cons_self).1
      · exact absurd rfl (hdigit '+' List.mem_cons_self).2
      · rfl
    rw [hplain, parseDigits_toDigits, Option.bind_some, hval, toI64_val]

theorem display_injective {m n : I64} (h : m.display = n.display) : m = n :=
  Option.some.inj (by rw [← parseI64_display m, h, parseI64_display n])

/-- A printed integer has digits and a minus sign only. -/
theorem not_mem_display {c : Char} (hdigit : c.isDigit = false) (hminus : c ≠ '-') (n : I64) :
    c ∉ n.display := by
  have hdigits : c ∉ Nat.toDigits 10 n.1.natAbs := by
    intro hc
    rw [Nat.isDigit_of_mem_toDigits (by decide) (by decide) hc] at hdigit
    cases hdigit
  unfold I64.display
  split
  · exact fun h => (List.mem_cons.mp h).elim hminus hdigits
  · exact hdigits

theorem dot_not_mem_display (n : I64) : '.' ∉ n.display :=
  not_mem_display (by decide) (by decide) n

theorem colon_not_mem_display (n : I64) : ':' ∉ n.display :=
  not_mem_display (by decide) (by decide) n

theorem star_not_mem_display (n : I64) : '*' ∉ n.display :=
  not_mem_display (by decide) (by decide) n

/-- What is printed around a colon can be read back. -/
theorem display_colon_eq_iff {a b c d : I64} :
    a.display ++ ':' :: b.display = c.display ++ ':' :: d.display ↔ a = c ∧ b = d := by
  rw [List.append_cons_inj_of_notMem (colon_not_mem_display a) (colon_not_mem_display b)]
  constructor
  · rintro ⟨hac, -, hbd⟩
    exact ⟨display_injective hac, display_injective hbd⟩
  · rintro ⟨rfl, rfl⟩
    exact ⟨rfl, rfl, rfl⟩

/-! ### The names of events on the gateway -/

namespace events

def MESSAGE_CREATE : String := "MESSAGE_CREATE"
def MESSAGE_UPDATE : String := "MESSAGE_UPDATE"
def MESSAGE_DELETE : String := "MESSAGE_DELETE"
def ATTACHMENT_UPDATED : String := "ATTACHMENT_UPDATED"
def TYPING_START : String := "TYPING_START"
def DM_CALL_INVITE : String := "DM_CALL_INVITE"
def DM_CALL_DECLINE : String := "DM_CALL_DECLINE"
def DM_CALL_CANCEL : String := "DM_CALL_CANCEL"
def DM_CALL_ENDED : String := "DM_CALL_ENDED"

end events

/-! ### Publishing -/

/-- The subject of `publish_event`. -/
def publishEvent (hubId channelId : I64) (eventType : String) : List Char :=
  "hub.".toList ++ hubId.display ++ ".channel.".toList ++ channelId.display ++ ".".toList ++
    eventType.toList

/-- The subject of `publish_message`. -/
def publishMessage (hubId channelId : I64) : List Char :=
  "hub.".toList ++ hubId.display ++ ".channel.".toList ++ channelId.display ++ ".message".toList

/-- The subject of `publish_typing`. -/
def publishTyping (hubId channelId : I64) : List Char :=
  "hub.".toList ++ hubId.display ++ ".channel.".toList ++ channelId.display ++ ".typing".toList

/-- The kinds of events that the handlers and consumers publish. -/
inductive Kind
  | messageCreate
  | messageUpdate
  | messageDelete
  | typing
  | attachmentUpdate
  | dmCallInvite
  | dmCallDecline
  | dmCallCancel
  | dmCallEnded
  deriving DecidableEq, Repr

/-- The subject that the handler or consumer of a kind publishes on: `send_message` and
`write_system_message`, `edit_message`, `delete_message`, `typing`, the consumer of
transcoding results, and `start`, `decline`, `cancel` and `end` of the DM calls. -/
def Kind.publish (hubId channelId : I64) : Kind → List Char
  | .messageCreate => publishMessage hubId channelId
  | .messageUpdate => publishEvent hubId channelId events.MESSAGE_UPDATE
  | .messageDelete => publishEvent hubId channelId events.MESSAGE_DELETE
  | .typing => publishTyping hubId channelId
  | .attachmentUpdate => publishEvent hubId channelId "attachment_updated"
  | .dmCallInvite => publishEvent hubId channelId "dm_call_invite"
  | .dmCallDecline => publishEvent hubId channelId "dm_call_decline"
  | .dmCallCancel => publishEvent hubId channelId "dm_call_cancel"
  | .dmCallEnded => publishEvent hubId channelId "dm_call_ended"

/-! ### The gateway -/

/-- Whether a subject matches a filter, token by token: `*` stands for one token, and a
final `>` for one or more. -/
def natsMatches : List (List Char) → List (List Char) → Bool
  | [['>']], _ :: _ => true
  | p :: ps, t :: ts => (p = ['*'] || p = t) && natsMatches ps ts
  | [], [] => true
  | _, _ => false

theorem natsMatches_cons (p q : List Char) (ps : List (List Char)) (t : List Char)
    (ts : List (List Char)) : natsMatches (p :: q :: ps) (t :: ts) =
      ((p = ['*'] || p = t) && natsMatches (q :: ps) ts) := by
  rw [natsMatches]
  simp

/-- The subject that the sessions of a hub subscribe to. -/
def natsSubject (hubId : I64) : List Char :=
  "hub.".toList ++ hubId.display ++ ".channel.>".toList

/-- Whether the subscription of a hub's sessions gets a message. -/
def subscribed (hubId : I64) (subject : List Char) : Bool :=
  natsMatches ((natsSubject hubId).splitOn '.') (subject.splitOn '.')

/-- The table of `run_session`. -/
def eventType (suffix : List Char) : Option String :=
  if suffix = "message".toList then some events.MESSAGE_CREATE
  else if suffix = "typing".toList then some events.TYPING_START
  else if suffix = "message_update".toList then some events.MESSAGE_UPDATE
  else if suffix = "message_delete".toList then some events.MESSAGE_DELETE
  else if suffix = "attachment_updated".toList then some events.ATTACHMENT_UPDATED
  else if suffix = "dm_call_invite".toList then some events.DM_CALL_INVITE
  else if suffix = "dm_call_decline".toList then some events.DM_CALL_DECLINE
  else if suffix = "dm_call_cancel".toList then some events.DM_CALL_CANCEL
  else if suffix = "dm_call_ended".toList then some events.DM_CALL_ENDED
  else none

/-- What `run_session` makes of a subject: the event and the channel, or nothing, and the
message is dropped. -/
def route (subject : List Char) : Option (String × I64) :=
  let parts := subject.splitOn '.'
  match parts.getLast?.bind eventType with
  | none => none
  | some t =>
    match parts[3]?.bind parseI64 with
    | none => none
    | some channelId => some (t, channelId)

/-! ### The SDK -/

/-- The events that the SDK emits for frames with a sequence number. -/
inductive ChatClientEvent
  | messageNew
  | messageUpdated
  | messageDeleted
  | attachmentUpdated
  | typingStart
  | dmCallInvite
  | dmCallDecline
  | dmCallCancel
  | dmCallEnded
  deriving DecidableEq, Repr

/-- `handleDispatch`, without `READY` and `RESUMED`. -/
def handleDispatch : String → Option ChatClientEvent
  | "MESSAGE_CREATE" => some .messageNew
  | "MESSAGE_UPDATE" => some .messageUpdated
  | "MESSAGE_DELETE" => some .messageDeleted
  | "ATTACHMENT_UPDATED" => some .attachmentUpdated
  | "TYPING_START" => some .typingStart
  | "DM_CALL_INVITE" => some .dmCallInvite
  | "DM_CALL_DECLINE" => some .dmCallDecline
  | "DM_CALL_CANCEL" => some .dmCallCancel
  | "DM_CALL_ENDED" => some .dmCallEnded
  | _ => none

/-- What the SDK is to emit for a kind of event. -/
def Kind.clientEvent : Kind → ChatClientEvent
  | .messageCreate => .messageNew
  | .messageUpdate => .messageUpdated
  | .messageDelete => .messageDeleted
  | .typing => .typingStart
  | .attachmentUpdate => .attachmentUpdated
  | .dmCallInvite => .dmCallInvite
  | .dmCallDecline => .dmCallDecline
  | .dmCallCancel => .dmCallCancel
  | .dmCallEnded => .dmCallEnded

/-! ### The round trip -/

/-- The last token of the subject of a kind. -/
def Kind.suffix : Kind → String
  | .messageCreate => "message"
  | .messageUpdate => events.MESSAGE_UPDATE
  | .messageDelete => events.MESSAGE_DELETE
  | .typing => "typing"
  | .attachmentUpdate => "attachment_updated"
  | .dmCallInvite => "dm_call_invite"
  | .dmCallDecline => "dm_call_decline"
  | .dmCallCancel => "dm_call_cancel"
  | .dmCallEnded => "dm_call_ended"

theorem publish_eq (hubId channelId : I64) (k : Kind) :
    k.publish hubId channelId = publishEvent hubId channelId k.suffix := by
  cases k with
  | messageCreate => exact (List.append_assoc _ ".".toList "message".toList).symm
  | typing => exact (List.append_assoc _ ".".toList "typing".toList).symm
  | _ => rfl

theorem append_dot (p c e : List Char) : p ++ c ++ ['.'] ++ e = p ++ (c ++ '.' :: e) := by
  simp only [List.append_assoc, List.cons_append, List.nil_append]

/-- The text `hub.{hub_id}.channel.`, before some more. -/
theorem prefix_eq (hubId : I64) (rest : List Char) :
    "hub.".toList ++ hubId.display ++ ".channel.".toList ++ rest =
      "hub".toList ++ '.' :: (hubId.display ++ '.' :: ("channel".toList ++ '.' :: rest)) := by
  have hassoc (h d c : List Char) : h ++ ['.'] ++ d ++ ('.' :: (c ++ ['.'])) ++ rest =
      h ++ '.' :: (d ++ '.' :: (c ++ '.' :: rest)) := by
    simp only [List.append_assoc, List.cons_append, List.nil_append]
  exact hassoc "hub".toList hubId.display "channel".toList

theorem splitOn_prefix (hubId : I64) (rest : List Char) :
    ("hub.".toList ++ hubId.display ++ ".channel.".toList ++ rest).splitOn '.' =
      "hub".toList :: hubId.display :: "channel".toList :: rest.splitOn '.' := by
  have hhub : '.' ∉ "hub".toList := by decide
  have hchannel : '.' ∉ "channel".toList := by decide
  rw [prefix_eq]
  generalize "hub".toList = h at hhub
  generalize "channel".toList = c at hchannel
  rw [List.splitOn_append_cons_self_of_not_mem hhub,
    List.splitOn_append_cons_self_of_not_mem (dot_not_mem_display hubId),
    List.splitOn_append_cons_self_of_not_mem hchannel]

/-- **The tokens of a subject.** -/
theorem splitOn_publishEvent (hubId channelId : I64) {eventType : String}
    (h : '.' ∉ eventType.toList) : (publishEvent hubId channelId eventType).splitOn '.' =
      ["hub".toList, hubId.display, "channel".toList, channelId.display, eventType.toList] := by
  have hsubject : publishEvent hubId channelId eventType =
      "hub.".toList ++ hubId.display ++ ".channel.".toList ++
        (channelId.display ++ '.' :: eventType.toList) := append_dot _ _ _
  have hrest : (channelId.display ++ '.' :: eventType.toList).splitOn '.' =
      [channelId.display, eventType.toList] := by
    rw [List.splitOn_append_cons_self_of_not_mem (dot_not_mem_display channelId),
      List.splitOn_eq_singleton h]
  rw [hsubject, splitOn_prefix, hrest]

theorem splitOn_natsSubject (hubId : I64) : (natsSubject hubId).splitOn '.' =
    ["hub".toList, hubId.display, "channel".toList, ['>']] := by
  have hsubject : natsSubject hubId =
      "hub.".toList ++ hubId.display ++ ".channel.".toList ++ ['>'] :=
    (List.append_assoc _ ".channel.".toList ['>']).symm
  rw [hsubject, splitOn_prefix, List.splitOn_eq_singleton (show '.' ∉ ['>'] by decide)]

theorem dot_not_mem_suffix (k : Kind) : '.' ∉ k.suffix.toList := by
  cases k <;> decide

/-- The subscription of a hub gets the events of that hub and no others. -/
theorem subscribed_publish (hub hubId channelId : I64) (k : Kind) :
    subscribed hub (k.publish hubId channelId) = true ↔ hub = hubId := by
  have hne : hub.display ≠ ['*'] := by
    intro h
    have hparse := parseI64_display hub
    rw [h, show parseI64 ['*'] = none by decide] at hparse
    cases hparse
  have hmatch : subscribed hub (k.publish hubId channelId) =
      decide (hub.display = hubId.display) := by
    rw [subscribed, publish_eq, splitOn_natsSubject,
      splitOn_publishEvent _ _ (dot_not_mem_suffix k)]
    have hrest : natsMatches ["channel".toList, ['>']]
        ["channel".toList, channelId.display, k.suffix.toList] = true := rfl
    rw [natsMatches_cons, natsMatches_cons, hrest, decide_eq_false hne, decide_eq_true rfl,
      Bool.false_or, Bool.and_true, Bool.or_true, Bool.true_and]
  rw [hmatch, decide_eq_true_iff]
  exact ⟨display_injective, congrArg _⟩

/-- The gateway takes the channel out of a subject, and the event if its table has it. -/
theorem route_publish (hubId channelId : I64) (k : Kind) :
    route (k.publish hubId channelId) =
      (eventType k.suffix.toList).map fun t => (t, channelId) := by
  rw [route, publish_eq, splitOn_publishEvent _ _ (dot_not_mem_suffix k)]
  have hlast : ["hub".toList, hubId.display, "channel".toList, channelId.display,
      k.suffix.toList].getLast?.bind eventType = eventType k.suffix.toList := rfl
  have hchannel : ["hub".toList, hubId.display, "channel".toList, channelId.display,
      k.suffix.toList][3]?.bind parseI64 = some channelId := parseI64_display channelId
  simp only [hlast, hchannel]
  cases eventType k.suffix.toList <;> rfl

/-- A kind of event comes through: it gets to the sessions of its hub and no others, and
what they dispatch names its channel and makes the SDK emit what is expected. -/
structure RoundTrip (hubId channelId : I64) (k : Kind) : Prop where
  delivered : ∀ hub, subscribed hub (k.publish hubId channelId) = true ↔ hub = hubId
  routed : ∃ t, route (k.publish hubId channelId) = some (t, channelId) ∧
    handleDispatch t = some k.clientEvent

/-- **All kinds of events come through but edits and deletions.** -/
theorem roundTrip_iff (hubId channelId : I64) (k : Kind) :
    RoundTrip hubId channelId k ↔ k ≠ .messageUpdate ∧ k ≠ .messageDelete := by
  refine ⟨fun ⟨_, t, ht, _⟩ => ?_,
    fun h => ⟨fun hub => subscribed_publish hub hubId channelId k, ?_⟩⟩
  · rw [route_publish, Option.map_eq_some_iff] at ht
    obtain ⟨_, ht, _⟩ := ht
    refine ⟨?_, ?_⟩
    · rintro rfl
      rw [show eventType Kind.messageUpdate.suffix.toList = none by decide] at ht
      cases ht
    · rintro rfl
      rw [show eventType Kind.messageDelete.suffix.toList = none by decide] at ht
      cases ht
  · -- the table of the gateway and the switch of the SDK, entry by entry
    have htable :
        ∃ t, eventType k.suffix.toList = some t ∧ handleDispatch t = some k.clientEvent := by
      cases k with
      | messageCreate => exact ⟨_, rfl, rfl⟩
      | messageUpdate => exact absurd rfl h.1
      | messageDelete => exact absurd rfl h.2
      | typing => exact ⟨_, rfl, rfl⟩
      | attachmentUpdate => exact ⟨_, rfl, rfl⟩
      | dmCallInvite => exact ⟨_, rfl, rfl⟩
      | dmCallDecline => exact ⟨_, rfl, rfl⟩
      | dmCallCancel => exact ⟨_, rfl, rfl⟩
      | dmCallEnded => exact ⟨_, rfl, rfl⟩
    obtain ⟨t, ht, hclient⟩ := htable
    exact ⟨t, by rw [route_publish, ht]; rfl, hclient⟩

/-- **An edit is dropped**: the sessions of its hub get it, and make nothing of it. -/
theorem edit_dropped : ¬ RoundTrip ⟨1, by decide⟩ ⟨2, by decide⟩ .messageUpdate ∧
    subscribed ⟨1, by decide⟩ (Kind.publish ⟨1, by decide⟩ ⟨2, by decide⟩ .messageUpdate) = true ∧
    route (Kind.publish ⟨1, by decide⟩ ⟨2, by decide⟩ .messageUpdate) = none := by
  refine ⟨fun ⟨_, t, ht, _⟩ => ?_, by decide, by decide⟩
  rw [show route (Kind.publish ⟨1, by decide⟩ ⟨2, by decide⟩ .messageUpdate) = none by decide] at ht
  cases ht

end Chat

end MateHub
