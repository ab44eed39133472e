import MateHub.Video.Sfu.Writes

/-!
# The dispatcher of the datagrams

One thread receives every datagram and hands it to the shard of a participant: the one that
its source address is bound to; or, if the address is not bound and the datagram is a STUN
binding request, the one that its local ufrag is registered for, and then the address is
bound to that participant.

The dispatcher takes the lock of a table for one access at a time. `MateHub.Video.Dispatcher`
has its states between two accesses; the shards may write to the tables there.
-/

namespace MateHub

namespace Video

/-! ### STUN -/

/-- `STUN_MAGIC_COOKIE`. -/
def stunMagicCookie : List UInt8 := [0x21, 0x12, 0xA4, 0x42]

/-- `STUN_ATTR_USERNAME`. -/
def stunAttrUsername : ℕ := 0x0006

/-- `looks_like_stun`. -/
def looksLikeStun (data : List UInt8) : Bool :=
  decide (20 ≤ data.length) && data.headD 0 &&& 0xC0 == 0 &&
    (data.drop 4).take 4 == stunMagicCookie

/-- `u16::from_be_bytes`. -/
def u16FromBeBytes (hi lo : UInt8) : ℕ := hi.toNat * 256 + lo.toNat

/-- The part of a USERNAME before the colon: the ufrag of the recipient. -/
def recipientUfrag (val : List UInt8) : Option String :=
  (val.findIdx? fun b => b = 58).bind fun colon =>
    String.fromUTF8? ⟨(val.take colon).toArray⟩

/-- The loop of `parse_stun_local_ufrag` over the attributes, on the bytes that are left. -/
def stunAttributes : ℕ → List UInt8 → Option String
  | fuel + 1, t₁ :: t₂ :: l₁ :: l₂ :: rest =>
    let len := u16FromBeBytes l₁ l₂
    if rest.length < len then none
    else if u16FromBeBytes t₁ t₂ = stunAttrUsername then recipientUfrag (rest.take len)
    else
      -- an attribute is padded to four bytes
      stunAttributes fuel (rest.drop (len + (4 - len % 4) % 4))
  | _, _ => none

/-- `parse_stun_local_ufrag`. The header has 20 bytes. -/
def parseStunLocalUfrag (data : List UInt8) : Option String :=
  if looksLikeStun data then stunAttributes data.length (data.drop 20) else none

/-- An iteration takes four bytes or more, so there is fuel enough. -/
theorem stunAttributes_fuel {fuel fuel' : ℕ} {data : List UInt8} (h : data.length ≤ fuel)
    (h' : data.length ≤ fuel') : stunAttributes fuel data = stunAttributes fuel' data := by
  induction fuel generalizing fuel' data with
  | zero =>
    obtain rfl := List.eq_nil_of_length_eq_zero (Nat.le_zero.mp h)
    cases fuel' <;> rfl
  | succ fuel ih =>
    rcases data with _ | ⟨t₁, _ | ⟨t₂, _ | ⟨l₁, _ | ⟨l₂, rest⟩⟩⟩⟩
    · cases fuel' <;> rfl
    · cases fuel' <;> rfl
    · cases fuel' <;> rfl
    · cases fuel' <;> rfl
    · cases fuel' with
      | zero => cases h'
      | succ fuel' =>
        simp only [List.length_cons] at h h'
        have hrest := List.length_drop (i := u16FromBeBytes l₁ l₂ +
          (4 - u16FromBeBytes l₁ l₂ % 4) % 4) (l := rest)
        rw [stunAttributes, stunAttributes, @ih fuel' _ (by omega) (by omega)]

/-! ### The states of the dispatcher -/

/-- A datagram, with where it has come from. -/
structure Datagram where
  source : SocketAddr
  data : List UInt8
  deriving DecidableEq, Repr

/-- A datagram that the dispatcher is done with, and the target that it was sent to, if it
was. -/
structure Handled where
  datagram : Datagram
  target : Option ShardTarget
  /-- Whether the channel of the shard took it. -/
  taken : Bool
  deriving DecidableEq, Repr

/-- What the dispatcher is doing. -/
inductive Dispatcher
  | idle
  | received (d : Datagram)
  /-- The source is not bound, and the datagram has a ufrag. -/
  | unbound (d : Datagram) (ufrag : String)
  /-- The ufrag is registered, and the source is still to be bound. -/
  | resolved (d : Datagram) (t : ShardTarget)
  | sending (d : Datagram) (t : ShardTarget)
  deriving DecidableEq, Repr

namespace Dispatcher

/-- The next access of `dispatcher_loop`. The channel of the shard may be full. -/
def next (m : SharedMaps) (room : Bool) : Dispatcher → SharedMaps × Dispatcher × Option Handled
  | .idle => (m, .idle, none)
  | .received d =>
    match m.addrToTarget.lookup d.source with
    | some t => (m, .sending d t, none)
    | none =>
      if !looksLikeStun d.data then (m, .idle, some ⟨d, none, false⟩)
      else
        match parseStunLocalUfrag d.data with
        | none => (m, .idle, some ⟨d, none, false⟩)
        | some ufrag => (m, .unbound d ufrag, none)
  | .unbound d ufrag =>
    match m.ufragToTarget.lookup ufrag with
    | none => (m, .idle, some ⟨d, none, false⟩)
    | some t => (m, .resolved d t, none)
  | .resolved d t =>
    ({ m with addrToTarget := m.addrToTarget.insert d.source t }, .sending d t, none)
  | .sending d t => (m, .idle, some ⟨d, some t, room⟩)

/-- The target that the dispatcher is about to bind an address to. -/
def binding? : Dispatcher → Option ShardTarget
  | .resolved _ t => some t
  | _ => none

/-- The target that the dispatcher has in hand. -/
def target? : Dispatcher → Option ShardTarget
  | .resolved _ t => some t
  | .sending _ t => some t
  | _ => none

variable {m : SharedMaps} {room : Bool} {s : Dispatcher}

theorem ufragToTarget_next (m : SharedMaps) (room : Bool) (s : Dispatcher) :
    (s.next m room).1.ufragToTarget = m.ufragToTarget := by
  cases s with
  | received d =>
    dsimp only [next]
    split
    · rfl
    · split
      · rfl
      · split <;> rfl
  | unbound d ufrag =>
    dsimp only [next]
    split <;> rfl
  | _ => rfl

/-- **What is bound**: an address is bound to the target in hand, and nothing else changes. -/
theorem addrToTarget_next {a : SocketAddr} {t : ShardTarget}
    (h : (s.next m room).1.addrToTarget.lookup a = some t) :
    m.addrToTarget.lookup a = some t ∨ s.binding? = some t := by
  cases s with
  | received d =>
    left
    dsimp only [next] at h
    split at h
    · exact h
    · split at h
      · exact h
      · split at h <;> exact h
  | unbound d ufrag =>
    left
    dsimp only [next] at h
    split at h <;> exact h
  | resolved d t' =>
    dsimp only [next] at h
    rw [Dict.lookup_insert_eq] at h
    split at h
    · exact .inr h
    · exact .inl h
  | idle => exact .inl h
  | sending => exact .inl h

/-- The target in hand comes from a table, or was in hand before. -/
theorem target?_next {t : ShardTarget} (h : (s.next m room).2.1.target? = some t) :
    s.target? = some t ∨ (∃ a, m.addrToTarget.lookup a = some t) ∨
      ∃ ufrag, m.ufragToTarget.lookup ufrag = some t := by
  cases s with
  | idle => cases h
  | received d =>
    dsimp only [next] at h
    split at h
    · rename_i t' ht'
      obtain rfl := Option.some.inj h
      exact .inr (.inl ⟨_, ht'⟩)
    · split at h
      · cases h
      · split at h <;> cases h
  | unbound d ufrag =>
    dsimp only [next] at h
    split at h
    · cases h
    · rename_i t' ht'
      obtain rfl := Option.some.inj h
      exact .inr (.inr ⟨_, ht'⟩)
  | resolved d t' => exact .inl h
  | sending => cases h

/-- What the dispatcher sends it had in hand. -/
theorem handled_next {e : Handled} {t : ShardTarget} (h : (s.next m room).2.2 = some e)
    (ht : e.target = some t) : s.target? = some t := by
  cases s with
  | idle => cases h
  | received d =>
    dsimp only [next] at h
    split at h
    · cases h
    · split at h
      · cases h
        cases ht
      · split at h
        · cases h
          cases ht
        · cases h
  | unbound d ufrag =>
    dsimp only [next] at h
    split at h
    · cases h
      cases ht
    · cases h
  | resolved => cases h
  | sending d t' =>
    cases h
    exact ht

theorem target?_of_binding? {t : ShardTarget} (h : s.binding? = some t) :
    s.target? = some t := by
  cases s with
  | resolved d t' => exact h
  | _ => cases h

end Dispatcher

end Video

end MateHub
