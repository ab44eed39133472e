import MateHub.Hub.Groups
import MateHub.Lib.Tasks

/-!
# Opening direct messages concurrently

`open_dm` takes or makes the channel of a pair of members in one transaction: it inserts a
channel with the key of the pair, unless there is one, reads the channel of that key, and
inserts both participants. A unique index on the keys decides between two requests: while
one has inserted a key and is open, another that inserts the same key waits, and then finds
what was committed, or inserts its own if nothing was. So a request is a task that notes the
row that it has inserted, and its `COMMIT` writes it with the participants
(`MateHub.Hub.commitDm`).

The key of a pair is the key of no other (`MateHub.Hub.dmPairKey_eq_iff`), and there is at
most one channel for a pair, whoever opens it and how often (`MateHub.Hub.dm_unique`).
-/

namespace MateHub

namespace Hub

open Chat (I64 i64)

/-! ### The keys of pairs -/

theorem dmPairKey_comm (a b : I64) : dmPairKey a b = dmPairKey b a := by
  rw [dmPairKey, dmPairKey]
  split_ifs with hab hba
  · obtain rfl : a = b := Subtype.ext (le_antisymm hab hba)
    rfl
  · rfl
  · rfl
  · omega

theorem dmPairKey_of_le {a b : I64} (h : a.val ≤ b.val) :
    dmPairKey a b = a.display ++ ':' :: b.display := if_pos h

/-- **The key of a pair is the key of no other pair**, for all ids. -/
theorem dmPairKey_eq_iff {a b c d : I64} :
    dmPairKey a b = dmPairKey c d ↔ (a = c ∧ b = d) ∨ (a = d ∧ b = c) := by
  constructor
  · intro h
    rcases le_total a.val b.val with hab | hab <;> rcases le_total c.val d.val with hcd | hcd
    · rw [dmPairKey_of_le hab, dmPairKey_of_le hcd, Chat.display_colon_eq_iff] at h
      exact .inl h
    · rw [dmPairKey_of_le hab, dmPairKey_comm c, dmPairKey_of_le hcd, Chat.display_colon_eq_iff] at h
      exact .inr h
    · rw [dmPairKey_comm a, dmPairKey_of_le hab, dmPairKey_of_le hcd, Chat.display_colon_eq_iff] at h
      exact .inr h.symm
    · rw [dmPairKey_comm a, dmPairKey_of_le hab, dmPairKey_comm c, dmPairKey_of_le hcd,
        Chat.display_colon_eq_iff] at h
      exact .inl h.symm
  · rintro (⟨rfl, rfl⟩ | ⟨rfl, rfl⟩)
    · rfl
    · exact dmPairKey_comm a b

/-! ### The shared state -/

/-- The committed database, and the channels that open transactions have inserted. -/
structure DmStore where
  db : Db
  pending : List (ℕ × Channel)

namespace DmStore

variable (st : DmStore)

/-- An open transaction has inserted a channel with a pair key. -/
def keyHeld (hubId : I64) (pairKey : List Char) : Bool :=
  st.pending.any fun p => decide (p.2.hubId = hubId ∧ p.2.dmPairKey = some pairKey)

/-- An open transaction has inserted a channel with an id. -/
def idHeld (channelId : I64) : Bool := st.pending.any fun p => decide (p.2.id = channelId)

/-- A transaction ends, and holds nothing any more. -/
def release (i : ℕ) : DmStore :=
  { st with pending := st.pending.filter fun p => decide (p.1 ≠ i) }

end DmStore

/-! ### A request -/

/-- Where a request stands in `open_dm`; `own` is the channel that it has inserted itself. -/
inductive OpenDmPhase
  | received
  | connected
  /-- Both are members, and the transaction has begun. -/
  | began
  /-- There is a channel with the key. -/
  | inserted (own : Option Channel)
  | selected (own : Option Channel) (channelId : I64)
  /-- The participants are inserted. -/
  | joined (own : Option Channel) (channelId : I64)
  | committed (channelId : I64)
  | succeeded (channelId : I64)
  | failed (e : Failure)
  deriving DecidableEq

/-- A request to open a direct message, with the statement it has come to. -/
structure OpenDmRequest where
  hubId : I64
  me : I64
  other : I64
  phase : OpenDmPhase
  deriving DecidableEq

/-- What happens to a request next. -/
inductive OpenDmAct
  | arrive (hubId me other : I64)
  /-- Its statement is executed. -/
  | next
  /-- Its channel is inserted, with the id that is drawn, unless there is one. -/
  | insert (nextId : I64)
  /-- Its statement fails, or its connection does. -/
  | fault
  /-- Its connection fails after the `COMMIT`, before the answer to it. -/
  | lost

namespace OpenDmRequest

variable (r : OpenDmRequest)

/-- The key of a request's pair. -/
def pairKey : List Char := dmPairKey r.me r.other

/-- The row that a request inserts. -/
def newChannel (nextId : I64) : Channel := ⟨nextId, r.hubId, "", "dm", 0, some r.pairKey, noIcon⟩

/-- A channel is the one of the pair of a request. -/
def IsFor (c : Channel) : Prop := c.hubId = r.hubId ∧ c.dmPairKey = some r.pairKey

end OpenDmRequest

/-- What a transaction writes. -/
def commitDm (db : Db) (own : Option Channel) (channelId me other : I64) : Option Db :=
  (own.elim (some db) db.insertChannelRow).bind fun db =>
    (db.insertDmParticipant channelId me).bind fun db => db.insertDmParticipant channelId other

namespace DmStore

/-- A transaction ends without a commit. -/
def rollback (st : DmStore) (i : ℕ) : DmStore × OpenDmPhase :=
  (st.release i, .failed internalServerError)

/-- The `COMMIT`, and where the request is after it. -/
def commit (st : DmStore) (i : ℕ) (r : OpenDmRequest) (own : Option Channel) (channelId : I64)
    (phase : OpenDmPhase) : DmStore × OpenDmPhase :=
  match commitDm st.db own channelId r.me r.other with
  | none => st.rollback i
  | some db => ({ st.release i with db := db }, phase)

/-- What the statement at which a request stands does, and where it gets; none where it
waits. -/
def openDm (st : DmStore) (i : ℕ) (r : OpenDmRequest) :
    OpenDmPhase → OpenDmAct → Option (DmStore × OpenDmPhase)
  | .received, .next =>
    if r.me = r.other then some (st, .failed (.status .badRequest)) else some (st, .connected)
  | .connected, .next =>
    let both := st.db.hubMembers.countP fun m =>
      decide (m.hubId = r.hubId ∧ (m.userId = r.me ∨ m.userId = r.other))
    if both == 2 then some (st, .began) else some (st, .failed (.status .notFound))
  | .began, .insert nextId =>
    if st.keyHeld r.hubId r.pairKey then none
    else match dmChannel? st.db r.hubId r.pairKey with
      | some _ => some (st, .inserted none)
      | none =>
        if st.idHeld nextId then none
        else match st.db.insertChannelRow (r.newChannel nextId) with
          | none => some (st.rollback i)
          | some _ => some ({ st with pending := (i, r.newChannel nextId) :: st.pending },
              .inserted (some (r.newChannel nextId)))
  | .inserted own, .next =>
    match own.or (dmChannel? st.db r.hubId r.pairKey) with
    | none => some (st.rollback i)
    | some c => some (st, .selected own c.id)
  | .selected own channelId, .next =>
    if (own.isSome || st.db.hasChannel channelId) && st.db.hasUser r.me && st.db.hasUser r.other
    then some (st, .joined own channelId)
    else some (st.rollback i)
  | .joined own channelId, .next => some (st.commit i r own channelId (.committed channelId))
  | .joined own channelId, .lost =>
    some (st.commit i r own channelId (.failed internalServerError))
  | .committed channelId, .next => some (st, .succeeded channelId)
  | .succeeded _, _ => none
  | .failed _, _ => none
  | _, .fault => some (st.rollback i)
  | _, _ => none

/-- A step of a request. -/
def run (st : DmStore) (i : ℕ) :
    Option OpenDmRequest → OpenDmAct → Option (DmStore × Option OpenDmRequest)
  | none, a =>
    match a with
    | .arrive hubId me other => some (st, some ⟨hubId, me, other, .received⟩)
    | _ => none
  | some r, a => (st.openDm i r r.phase a).map fun p => (p.1, some { r with phase := p.2 })

/-! ### The surroundings -/

/-- The channels of direct messages. -/
def isDm (c : Channel) : Bool := c.channelType == "dm" || c.dmPairKey.isSome

/-- Other transactions commit. The channels of direct messages are only made here, so these
stay as they are. -/
def env (st : DmStore) (db : Db) : DmStore :=
  if db.channels.filter isDm = st.db.channels.filter isDm ∧
      db.dmParticipants = st.db.dmParticipants then { st with db := db }
  else st

end DmStore

/-! ### The invariant -/

/-- **The direct messages of a database.** A pair has at most one channel in a hub; it is of
type `dm`, and its participants are the two; and participants are of such channels only. -/
structure Paired (db : Db) : Prop where
  unique : ∀ c ∈ db.channels, ∀ c' ∈ db.channels, ∀ k, c.hubId = c'.hubId →
    c.dmPairKey = some k → c'.dmPairKey = some k → c = c'
  made : ∀ c ∈ db.channels, DmStore.isDm c = true → c.channelType = "dm" ∧ ∃ a b, a ≠ b ∧
    c.dmPairKey = some (dmPairKey a b) ∧ ∀ u, ⟨c.id, u⟩ ∈ db.dmParticipants ↔ u = a ∨ u = b
  owned : ∀ p ∈ db.dmParticipants, ∃ c ∈ db.channels, DmStore.isDm c = true ∧ c.id = p.channelId

namespace OpenDmPhase

/-- The channel that the open transaction of a request has inserted. -/
def own? : OpenDmPhase → Option Channel
  | .inserted own => own
  | .selected own _ => own
  | .joined own _ => own
  | _ => none

/-- The channel that the open transaction of a request has read. -/
def chosen? : OpenDmPhase → Option I64
  | .selected _ channelId => some channelId
  | .joined _ channelId => some channelId
  | _ => none

/-- The channel that a request has committed. -/
def result? : OpenDmPhase → Option I64
  | .committed channelId => some channelId
  | .succeeded channelId => some channelId
  | _ => none

/-- A request is past its first check. -/
def passed : OpenDmPhase → Bool
  | .received => false
  | .failed _ => false
  | _ => true

end OpenDmPhase

namespace DmStore

/-- The committed rows, and the ones that are to be committed: no two have one key. -/
structure Sound (st : DmStore) : Prop where
  paired : Paired st.db
  fresh : ∀ p ∈ st.pending, ∀ c ∈ st.db.channels, ∀ k, c.hubId = p.2.hubId →
    p.2.dmPairKey = some k → c.dmPairKey ≠ some k
  apart : ∀ p ∈ st.pending, ∀ q ∈ st.pending, p.2.hubId = q.2.hubId →
    p.2.dmPairKey = q.2.dmPairKey → p.1 = q.1

/-- **Where a request stands**: its own row is the one that is pending, and what it has read
or committed is the channel of its pair. -/
structure Stands (st : DmStore) (i : ℕ) (r : OpenDmRequest) : Prop where
  own : ∀ c, (i, c) ∈ st.pending ↔ c ∈ r.phase.own?
  row : ∀ c ∈ r.phase.own?, ∃ nextId, c = r.newChannel nextId
  chosen : ∀ channelId ∈ r.phase.chosen?, ∃ c, c.id = channelId ∧ r.IsFor c ∧
    (r.phase.own? = some c ∨ r.phase.own? = none ∧ c ∈ st.db.channels)
  result : ∀ channelId ∈ r.phase.result?, ∃ c ∈ st.db.channels, c.id = channelId ∧ r.IsFor c
  distinct : r.phase.passed = true → r.me ≠ r.other

/-- A task without a request has nothing pending. -/
def Standing (st : DmStore) (i : ℕ) : Option OpenDmRequest → Prop
  | none => ∀ c, (i, c) ∉ st.pending
  | some r => st.Stands i r

/-- What the others rely on: what is pending for them stays so, nothing else becomes it, and
no channel of a pair goes. -/
structure Spares (others : ℕ → Prop) (st st' : DmStore) : Prop where
  pending : ∀ j c, others j → ((j, c) ∈ st'.pending ↔ (j, c) ∈ st.pending)
  channels : ∀ c ∈ st.db.channels, isDm c = true → c ∈ st'.db.channels

/-! ### What a step does -/

/-- **What the statements of a request do.** -/
inductive Does (st : DmStore) (i : ℕ) (r : OpenDmRequest) : DmStore → OpenDmPhase → Prop
  | keeps {phase : OpenDmPhase} : phase.own? = r.phase.own? → phase.chosen? = r.phase.chosen? →
      phase.result? = r.phase.result? → (r.phase.passed = true ∨ r.me ≠ r.other) →
      Does st i r st phase
  | fails {e : Failure} : Does st i r (st.release i) (.failed e)
  | inserts {nextId : I64} {db : Db} : r.phase = .began →
      st.keyHeld r.hubId r.pairKey = false → dmChannel? st.db r.hubId r.pairKey = none →
      st.db.insertChannelRow (r.newChannel nextId) = some db →
      Does st i r { st with pending := (i, r.newChannel nextId) :: st.pending }
        (.inserted (some (r.newChannel nextId)))
  | selects {own : Option Channel} {c : Channel} : r.phase = .inserted own →
      own.or (dmChannel? st.db r.hubId r.pairKey) = some c →
      Does st i r st (.selected own c.id)
  | commits {own : Option Channel} {channelId : I64} {db : Db} {phase : OpenDmPhase} :
      r.phase = .joined own channelId → commitDm st.db own channelId r.me r.other = some db →
      phase = .committed channelId ∨ phase = .failed internalServerError →
      Does st i r { st.release i with db := db } phase

variable {st st' : DmStore} {i : ℕ} {r : OpenDmRequest} {phase : OpenDmPhase} {a : OpenDmAct}

/-- A request without a row of its own has nothing to release. -/
theorem release_eq_self (h : ∀ c, (i, c) ∉ st.pending) : st.release i = st := by
  rw [release, List.filter_eq_self.mpr]
  rintro ⟨j, c⟩ hp
  refine decide_eq_true ?_
  rintro rfl
  exact h c hp

theorem does_of_openDm (hs : st.Stands i r) (h : st.openDm i r r.phase a = some (st', phase)) :
    Does st i r st' phase := by
  have hback (heq : some (st.rollback i) = some (st', phase)) : Does st i r st' phase := by
    obtain ⟨rfl, rfl⟩ := Prod.mk.inj (Option.some.inj heq)
    exact .fails
  have hkeep {p : OpenDmPhase} (heq : some (st, p) = some (st', phase))
      (hown : p.own? = r.phase.own?) (hchosen : p.chosen? = r.phase.chosen?)
      (hresult : p.result? = r.phase.result?) (hpassed : r.phase.passed = true ∨ r.me ≠ r.other) :
      Does st i r st' phase := by
    obtain ⟨rfl, rfl⟩ := Prod.mk.inj (Option.some.inj heq)
    exact .keeps hown hchosen hresult hpassed
  -- a refusal before the transaction is a failure that releases nothing
  have hrefuse {e : Failure} (heq : some (st, .failed e) = some (st', phase))
      (hown : r.phase.own? = none) : Does st i r st' phase := by
    obtain ⟨rfl, rfl⟩ := Prod.mk.inj (Option.some.inj heq)
    have hnone : ∀ c, (i, c) ∉ st.pending := by
      intro c hc
      rw [hs.own, hown] at hc
      cases hc
    have hfails : Does st i r (st.release i) (.failed e) := .fails
    rwa [release_eq_self hnone] at hfails
  have hcommit {own : Option Channel} {channelId : I64} {p : OpenDmPhase}
      (hphase : r.phase = .joined own channelId)
      (hp : p = .committed channelId ∨ p = .failed internalServerError)
      (heq : some (st.commit i r own channelId p) = some (st', phase)) :
      Does st i r st' phase := by
    rw [commit] at heq
    split at heq
    · exact hback heq
    · rename_i db hdb
      obtain ⟨rfl, rfl⟩ := Prod.mk.inj (Option.some.inj heq)
      exact .commits hphase hdb hp
  generalize hphase : r.phase = phase₀ at h hkeep hrefuse
  cases phase₀ with
  | received =>
    cases a with
    | next =>
      dsimp only [openDm] at h
      split_ifs at h with heq
      · exact hrefuse h rfl
      · exact hkeep h rfl rfl rfl (.inr heq)
    | fault => exact hback h
    | _ => cases h
  | connected =>
    cases a with
    | next =>
      dsimp only [openDm] at h
      split_ifs at h
      · exact hkeep h rfl rfl rfl (.inl rfl)
      · exact hrefuse h rfl
    | fault => exact hback h
    | _ => cases h
  | began =>
    cases a with
    | insert nextId =>
      dsimp only [openDm] at h
      by_cases hheld : st.keyHeld r.hubId r.pairKey = true
      · rw [if_pos hheld] at h
        cases h
      · rw [if_neg hheld] at h
        rcases hfound : dmChannel? st.db r.hubId r.pairKey with _ | c
        · simp only [hfound] at h
          split_ifs at h
          split at h
          · exact hback h
          · rename_i db hins
            obtain ⟨rfl, rfl⟩ := Prod.mk.inj (Option.some.inj h)
            exact .inserts hphase (Bool.eq_false_iff.mpr hheld) hfound hins
        · simp only [hfound] at h
          exact hkeep h rfl rfl rfl (.inl rfl)
    | fault => exact hback h
    | _ => cases h
  | inserted own =>
    cases a with
    | next =>
      dsimp only [openDm] at h
      split at h
      · exact hback h
      · rename_i c hc
        obtain ⟨rfl, rfl⟩ := Prod.mk.inj (Option.some.inj h)
        exact .selects hphase hc
    | fault => exact hback h
    | _ => cases h
  | selected own channelId =>
    cases a with
    | next =>
      dsimp only [openDm] at h
      split_ifs at h
      · exact hkeep h rfl rfl rfl (.inl rfl)
      · exact hback h
    | fault => exact hback h
    | _ => cases h
  | joined own channelId =>
    cases a with
    | next => exact hcommit hphase (.inl rfl) h
    | lost => exact hcommit hphase (.inr rfl) h
    | fault => exact hback h
    | _ => cases h
  | committed channelId =>
    cases a with
    | next => exact hkeep h rfl rfl rfl (.inl rfl)
    | fault => exact hback h
    | _ => cases h
  | succeeded channelId => cases h
  | failed e => cases h

end DmStore

/-! ### The statements -/

namespace Db

variable {db db' : Db} {channelId userId : I64}

theorem insertChannelRow_eq_some {c : Channel} (h : db.insertChannelRow c = some db') :
    db'.channels = c :: db.channels ∧ db'.dmParticipants = db.dmParticipants ∧
      ∀ c' ∈ db.channels, c'.id ≠ c.id := by
  rw [insertChannelRow] at h
  split_ifs at h with hno
  obtain rfl := Option.some.inj h
  exact ⟨rfl, rfl, fun c' hc' hid => hno (Table.hasKey_iff.mpr ⟨c', hc', hid⟩)⟩

theorem insertDmParticipant_eq_some (h : db.insertDmParticipant channelId userId = some db') :
    db'.channels = db.channels ∧
      ∀ p, p ∈ db'.dmParticipants ↔ p = ⟨channelId, userId⟩ ∨ p ∈ db.dmParticipants := by
  rw [insertDmParticipant] at h
  split_ifs at h
  obtain rfl := Option.some.inj h
  exact ⟨rfl, fun p => Table.mem_insertNew_id⟩

end Db

theorem dmChannel?_eq_some {db : Db} {hubId : I64} {pairKey : List Char} {c : Channel}
    (h : dmChannel? db hubId pairKey = some c) :
    c ∈ db.channels ∧ c.hubId = hubId ∧ c.dmPairKey = some pairKey := by
  have hfound := List.find?_some h
  exact ⟨List.mem_of_find?_eq_some h, of_decide_eq_true hfound⟩

theorem dmChannel?_eq_none {db : Db} {hubId : I64} {pairKey : List Char}
    (h : dmChannel? db hubId pairKey = none) :
    ∀ c ∈ db.channels, c.hubId = hubId → c.dmPairKey ≠ some pairKey := by
  intro c hc hhub hkey
  exact List.find?_eq_none.mp h c hc (decide_eq_true ⟨hhub, hkey⟩)

/-- What a commit writes: its own row, if it has one, and the two participants. -/
theorem commitDm_eq_some {db db' : Db} {own : Option Channel} {channelId me other : I64}
    (h : commitDm db own channelId me other = some db') :
    db'.channels = own.toList ++ db.channels ∧
      (∀ c ∈ own, ∀ c' ∈ db.channels, c'.id ≠ c.id) ∧
      ∀ p, p ∈ db'.dmParticipants ↔
        p = ⟨channelId, me⟩ ∨ p = ⟨channelId, other⟩ ∨ p ∈ db.dmParticipants := by
  obtain ⟨db₁, hown, h⟩ := Option.bind_eq_some_iff.mp h
  obtain ⟨db₂, hme, hother⟩ := Option.bind_eq_some_iff.mp h
  obtain ⟨hchannels₂, hmem₂⟩ := Db.insertDmParticipant_eq_some hme
  obtain ⟨hchannels₃, hmem₃⟩ := Db.insertDmParticipant_eq_some hother
  have hfirst : db₁.channels = own.toList ++ db.channels ∧
      db₁.dmParticipants = db.dmParticipants ∧ ∀ c ∈ own, ∀ c' ∈ db.channels, c'.id ≠ c.id := by
    cases own with
    | none =>
      obtain rfl := Option.some.inj hown
      exact ⟨rfl, rfl, fun c hc => by cases hc⟩
    | some c =>
      obtain ⟨hchannels, hparticipants, hfresh⟩ := Db.insertChannelRow_eq_some hown
      refine ⟨hchannels, hparticipants, ?_⟩
      rintro _ ⟨⟩
      exact hfresh
  obtain ⟨hchannels₁, hparticipants₁, hfresh⟩ := hfirst
  refine ⟨hchannels₃.trans (hchannels₂.trans hchannels₁), hfresh, fun p => ?_⟩
  rw [hmem₃, hmem₂, hparticipants₁, or_left_comm]

/-- **One request by itself** does what `MateHub.Hub.openDmRows` says: it commits the channel
that is there, or a new one. -/
theorem openDmRows_eq (db : Db) (hubId me other nextId : I64) :
    openDmRows db hubId me other nextId =
      match dmChannel? db hubId (dmPairKey me other) with
      | some c => (commitDm db none c.id me other).map fun db => (c.id, db)
      | none => (commitDm db (some ⟨nextId, hubId, "", "dm", 0, some (dmPairKey me other), noIcon⟩)
          nextId me other).map fun db => (nextId, db) := by
  rw [openDmRows]
  rcases hfound : dmChannel? db hubId (dmPairKey me other) with _ | c
  · simp only [commitDm, Option.elim_some, Option.map_bind]
    refine Option.bind_congr fun db₁ hins => ?_
    -- the new row is the first with its key
    have hnew : dmChannel? db₁ hubId (dmPairKey me other) =
        some ⟨nextId, hubId, "", "dm", 0, some (dmPairKey me other), noIcon⟩ := by
      rw [dmChannel?, (Db.insertChannelRow_eq_some hins).1]
      exact List.find?_cons_of_pos (decide_eq_true ⟨rfl, rfl⟩)
    rw [hnew]
    simp
  · simp only [commitDm, Option.elim_none, Option.bind_some, hfound, Option.map_bind]
    rfl

/-! ### A commit -/

section Commit

variable {db db' : Db} {r : OpenDmRequest} {own : Option Channel} {channelId : I64} {c : Channel}

/-- The channel that a request inserts is the one of its pair, and so is any with the same
key. -/
theorem isFor_newChannel (nextId : I64) : r.IsFor (r.newChannel nextId) := ⟨rfl, rfl⟩

theorem isDm_of_isFor (h : r.IsFor c) : DmStore.isDm c = true := by
  rw [DmStore.isDm, h.2]
  simp

/-- The channel of a pair has the two as its participants. -/
theorem Paired.participants (h : Paired db) (hc : c ∈ db.channels) (hfor : r.IsFor c) (u : I64) :
    ⟨c.id, u⟩ ∈ db.dmParticipants ↔ u = r.me ∨ u = r.other := by
  obtain ⟨-, a, b, -, hkey, hpart⟩ := h.made c hc (isDm_of_isFor hfor)
  rw [hpart]
  rw [hfor.2] at hkey
  rcases dmPairKey_eq_iff.mp (Option.some.inj hkey) with ⟨rfl, rfl⟩ | ⟨rfl, rfl⟩
  · exact Iff.rfl
  · exact or_comm

/-- **A commit keeps the channels of pairs apart.** What a request has read is either its own
row, whose key is not taken, or the channel of its pair. -/
theorem Paired.commit (h : Paired db) (hne : r.me ≠ r.other) (hfor : r.IsFor c)
    (hown : own = some c ∧ (∃ nextId, c = r.newChannel nextId) ∧
        (∀ c' ∈ db.channels, c'.hubId = c.hubId → c'.dmPairKey ≠ c.dmPairKey) ∨
      own = none ∧ c ∈ db.channels)
    (hdb : commitDm db own c.id r.me r.other = some db') : Paired db' ∧ c ∈ db'.channels := by
  obtain ⟨hchannels, hid, hmem⟩ := commitDm_eq_some hdb
  rcases hown with ⟨rfl, ⟨nextId, hnew⟩, hfree⟩ | ⟨rfl, hc⟩
  · -- a row of its own: nobody took part in a channel with its id
    replace hchannels : db'.channels = c :: db.channels := hchannels
    have hnobody (u : I64) : ⟨c.id, u⟩ ∉ db.dmParticipants := by
      intro hu
      obtain ⟨c', hc', -, heq⟩ := h.owned _ hu
      exact hid c rfl c' hc' heq
    have hother {c' : Channel} (hc' : c' ∈ db.channels) (u : I64) :
        ⟨c'.id, u⟩ ∈ db'.dmParticipants ↔ ⟨c'.id, u⟩ ∈ db.dmParticipants := by
      have hne' := hid c rfl c' hc'
      rw [hmem]
      simp [hne']
    refine ⟨⟨?_, ?_, ?_⟩, hchannels ▸ List.mem_cons_self⟩
    · intro c₁ h₁ c₂ h₂ k hhub hk₁ hk₂
      rw [hchannels, List.mem_cons] at h₁ h₂
      rcases h₁ with rfl | h₁ <;> rcases h₂ with rfl | h₂
      · rfl
      · exact absurd (hk₂.trans hk₁.symm) (hfree c₂ h₂ hhub.symm)
      · exact absurd (hk₁.trans hk₂.symm) (hfree c₁ h₁ hhub)
      · exact h.unique c₁ h₁ c₂ h₂ k hhub hk₁ hk₂
    · intro c' hc' hdm
      rw [hchannels, List.mem_cons] at hc'
      rcases hc' with rfl | hc'
      · refine ⟨by rw [hnew]; rfl, r.me, r.other, hne, hfor.2, fun u => ?_⟩
        rw [hmem]
        simp [hnobody]
      · obtain ⟨htype, a, b, hab, hkey, hpart⟩ := h.made c' hc' hdm
        exact ⟨htype, a, b, hab, hkey, fun u => (hother hc' u).trans (hpart u)⟩
    · intro p hp
      rw [hchannels]
      rcases (hmem p).mp hp with rfl | rfl | hp
      · exact ⟨c, List.mem_cons_self, isDm_of_isFor hfor, rfl⟩
      · exact ⟨c, List.mem_cons_self, isDm_of_isFor hfor, rfl⟩
      · obtain ⟨c', hc', hdm, heq⟩ := h.owned p hp
        exact ⟨c', List.mem_cons_of_mem _ hc', hdm, heq⟩
  · -- the channel was there, with these participants
    replace hchannels : db'.channels = db.channels := hchannels
    have hsame (p : DmParticipant) : p ∈ db'.dmParticipants ↔ p ∈ db.dmParticipants := by
      rw [hmem]
      constructor
      · rintro (rfl | rfl | hp)
        · exact (h.participants hc hfor _).mpr (.inl rfl)
        · exact (h.participants hc hfor _).mpr (.inr rfl)
        · exact hp
      · exact fun hp => .inr (.inr hp)
    refine ⟨⟨?_, ?_, ?_⟩, hchannels ▸ hc⟩
    · rw [hchannels]
      exact h.unique
    · intro c' hc' hdm
      rw [hchannels] at hc'
      obtain ⟨htype, a, b, hab, hkey, hpart⟩ := h.made c' hc' hdm
      exact ⟨htype, a, b, hab, hkey, fun u => (hsame _).trans (hpart u)⟩
    · intro p hp
      rw [hchannels]
      exact h.owned p ((hsame p).mp hp)

end Commit

/-! ### A step -/

namespace DmStore

variable {st st' : DmStore} {i : ℕ} {r : OpenDmRequest} {phase : OpenDmPhase} {c : Channel}

theorem mem_release {j : ℕ} : (j, c) ∈ (st.release i).pending ↔ (j, c) ∈ st.pending ∧ j ≠ i := by
  simp [release]

theorem not_mem_release : (i, c) ∉ (st.release i).pending := fun h => (mem_release.mp h).2 rfl

/-- A transaction that ends takes nothing from the others. -/
theorem pending_release {j : ℕ} (h : j ≠ i) :
    (j, c) ∈ (st.release i).pending ↔ (j, c) ∈ st.pending :=
  mem_release.trans (and_iff_left h)

theorem Sound.release (h : Sound st) (i : ℕ) : Sound (st.release i) where
  paired := h.paired
  fresh := fun p hp => h.fresh p (List.mem_filter.mp hp).1
  apart := fun p hp q hq => h.apart p (List.mem_filter.mp hp).1 q (List.mem_filter.mp hq).1

/-- A request keeps its standing under what the others do. -/
theorem Stands.spared {others : ℕ → Prop} (h : st.Stands i r) (hsp : Spares others st st')
    (hi : others i) : st'.Stands i r where
  own := fun c => (hsp.pending i c hi).trans (h.own c)
  row := h.row
  chosen := fun channelId hc => by
    obtain ⟨c, hid, hfor, hown | ⟨hown, hmem⟩⟩ := h.chosen channelId hc
    · exact ⟨c, hid, hfor, .inl hown⟩
    · exact ⟨c, hid, hfor, .inr ⟨hown, hsp.channels c hmem (isDm_of_isFor hfor)⟩⟩
  result := fun channelId hc => by
    obtain ⟨c, hmem, hid, hfor⟩ := h.result channelId hc
    exact ⟨c, hsp.channels c hmem (isDm_of_isFor hfor), hid, hfor⟩
  distinct := h.distinct

theorem Standing.spared {others : ℕ → Prop} {t : Option OpenDmRequest} (h : Standing st i t)
    (hsp : Spares others st st') (hi : others i) : Standing st' i t := by
  cases t with
  | none => exact fun c hc => h c ((hsp.pending i c hi).mp hc)
  | some r => exact Stands.spared h hsp hi

/-- A request that holds nothing, and has committed at most one channel of its pair. -/
theorem Stands.idle (hpending : ∀ c, (i, c) ∉ st.pending) (hown : r.phase.own? = none)
    (hchosen : r.phase.chosen? = none)
    (hresult : ∀ channelId ∈ r.phase.result?,
      ∃ c ∈ st.db.channels, c.id = channelId ∧ r.IsFor c)
    (hdistinct : r.phase.passed = true → r.me ≠ r.other) : st.Stands i r where
  own := fun c => by
    rw [hown]
    exact ⟨fun hc => absurd hc (hpending c), fun hc => by cases hc⟩
  row := by
    rw [hown]
    intro c hc
    cases hc
  chosen := by
    rw [hchosen]
    intro channelId hc
    cases hc
  result := hresult
  distinct := hdistinct

/-- **A step of a request.** -/
theorem Sound.step (hs : Sound st) (h : st.Stands i r) (hdoes : Does st i r st' phase) :
    Sound st' ∧ st'.Stands i { r with phase := phase } ∧ Spares (fun j => j ≠ i) st st' := by
  cases hdoes with
  | keeps hown hchosen hresult hpassed =>
    refine ⟨hs, ⟨?_, ?_, ?_, ?_, ?_⟩, ⟨fun _ _ _ => Iff.rfl, fun _ hc _ => hc⟩⟩
    · exact hown ▸ h.own
    · exact hown ▸ h.row
    · dsimp only
      rw [hown, hchosen]
      exact h.chosen
    · exact hresult ▸ h.result
    · exact fun _ => hpassed.elim h.distinct id
  | fails =>
    refine ⟨hs.release i, .idle (fun c => not_mem_release) rfl rfl ?_ ?_,
      ⟨fun j c hj => pending_release hj, fun _ hc _ => hc⟩⟩
    · intro channelId hc
      cases hc
    · intro hpassed
      cases hpassed
  | @inserts nextId db hphase hheld hnone hins =>
    have hmine : ∀ c, (i, c) ∉ st.pending := by
      intro c hc
      rw [h.own, hphase] at hc
      cases hc
    -- nobody else has the key, committed or pending
    have hkey : ∀ p ∈ st.pending, p.2.hubId = r.hubId → p.2.dmPairKey ≠ some r.pairKey := by
      intro p hp hhub hkey
      exact List.any_eq_false.mp hheld p hp (decide_eq_true ⟨hhub, hkey⟩)
    refine ⟨⟨hs.paired, ?_, ?_⟩, ⟨?_, ?_, ?_, ?_, ?_⟩, ⟨?_, fun _ hc _ => hc⟩⟩
    · rintro p hp c hc k hhub hk
      rcases List.mem_cons.mp hp with rfl | hp
      · obtain rfl := Option.some.inj hk
        exact dmChannel?_eq_none hnone c hc hhub
      · exact hs.fresh p hp c hc k hhub hk
    · rintro p hp q hq hhub hsame
      rcases List.mem_cons.mp hp with rfl | hp <;> rcases List.mem_cons.mp hq with rfl | hq
      · rfl
      · exact absurd hsame.symm (hkey q hq hhub.symm)
      · exact absurd hsame (hkey p hp hhub)
      · exact hs.apart p hp q hq hhub hsame
    · intro c
      constructor
      · intro hc
        rcases List.mem_cons.mp hc with heq | hc
        · obtain ⟨-, rfl⟩ := Prod.mk.inj heq
          rfl
        · exact absurd hc (hmine c)
      · rintro ⟨⟩
        exact List.mem_cons_self
    · rintro _ ⟨⟩
      exact ⟨nextId, rfl⟩
    · intro channelId hc
      cases hc
    · intro channelId hc
      cases hc
    · exact fun _ => h.distinct (by rw [hphase]; rfl)
    · intro j c hj
      constructor
      · intro hc
        rcases List.mem_cons.mp hc with heq | hc
        · exact absurd (Prod.mk.inj heq).1 hj
        · exact hc
      · exact fun hc => List.mem_cons_of_mem _ hc
  | @selects own c hphase hfound =>
    have hown : r.phase.own? = own := by rw [hphase]; rfl
    refine ⟨hs, ⟨?_, ?_, ?_, ?_, ?_⟩, ⟨fun _ _ _ => Iff.rfl, fun _ hc _ => hc⟩⟩
    · exact hown ▸ h.own
    · exact hown ▸ h.row
    · rintro _ ⟨⟩
      cases own with
      | none =>
        obtain ⟨hmem, hhub, hkey⟩ := dmChannel?_eq_some hfound
        exact ⟨c, rfl, ⟨hhub, hkey⟩, .inr ⟨rfl, hmem⟩⟩
      | some c' =>
        obtain rfl : c' = c := Option.some.inj hfound
        obtain ⟨nextId, hnew⟩ := h.row c' hown
        refine ⟨c', rfl, ?_, .inl rfl⟩
        rw [hnew]
        exact isFor_newChannel nextId
    · intro channelId hc
      cases hc
    · exact fun _ => h.distinct (by rw [hphase]; rfl)
  | @commits own channelId db _ hphase hdb hreply =>
    have hown : r.phase.own? = own := by rw [hphase]; rfl
    have hne : r.me ≠ r.other := h.distinct (by rw [hphase]; rfl)
    obtain ⟨c, rfl, hfor, hcase⟩ := h.chosen channelId (by rw [hphase]; rfl)
    rw [hown] at hcase
    have hcase' : own = some c ∧ (∃ nextId, c = r.newChannel nextId) ∧
        (∀ c' ∈ st.db.channels, c'.hubId = c.hubId → c'.dmPairKey ≠ c.dmPairKey) ∨
        own = none ∧ c ∈ st.db.channels := by
      refine hcase.imp_left fun hsome => ⟨hsome, h.row c (hown.trans hsome), fun c' hc' hhub => ?_⟩
      rw [hfor.2]
      exact hs.fresh (i, c) ((h.own c).mpr (hown.trans hsome)) c' hc' _ hhub hfor.2
    obtain ⟨hpaired, hmem⟩ := hs.paired.commit hne hfor hcase' hdb
    obtain ⟨hchannels, -, -⟩ := commitDm_eq_some hdb
    refine ⟨⟨hpaired, ?_, (hs.release i).apart⟩, .idle (fun c => not_mem_release) ?_ ?_ ?_ ?_,
      ⟨fun j c hj => pending_release hj, fun c' hc' _ => ?_⟩⟩
    · intro p hp c' hc' k hhub hk hk'
      obtain ⟨hp, hpi⟩ := mem_release.mp hp
      rw [hchannels] at hc'
      rcases List.mem_append.mp hc' with hnew | hold
      · -- the others' keys are not the one that is committed
        refine hpi (hs.apart p hp (i, c') ?_ hhub.symm (hk.trans hk'.symm))
        exact (h.own c').mpr (hown.trans (Option.mem_toList.mp hnew))
      · exact hs.fresh p hp c' hold k hhub hk hk'
    · rcases hreply with rfl | rfl <;> rfl
    · rcases hreply with rfl | rfl <;> rfl
    · rcases hreply with rfl | rfl
      · rintro _ ⟨⟩
        exact ⟨c, hmem, rfl, hfor⟩
      · intro channelId hc
        cases hc
    · exact fun _ => hne
    · dsimp only
      rw [hchannels]
      exact List.mem_append_right _ hc'

/-- **A step of the surroundings.** -/
theorem Sound.around (h : Sound st) (db : Db) :
    Sound (st.env db) ∧ Spares (fun _ => True) st (st.env db) := by
  rw [env]
  split_ifs with hsame
  · obtain ⟨hchannels, hparticipants⟩ := hsame
    have hmem {c : Channel} (hdm : isDm c = true) : c ∈ db.channels ↔ c ∈ st.db.channels := by
      have hfilter := congrArg (fun cs => c ∈ cs) hchannels
      simpa [List.mem_filter, hdm] using hfilter
    have hkeyed {c : Channel} {k : List Char} (hk : c.dmPairKey = some k) : isDm c = true := by
      rw [isDm, hk]
      simp
    refine ⟨⟨⟨?_, ?_, ?_⟩, ?_, h.apart⟩, ⟨fun _ _ _ => Iff.rfl, fun c hc hdm => (hmem hdm).mpr hc⟩⟩
    · intro c hc c' hc' k hhub hk hk'
      exact h.paired.unique c ((hmem (hkeyed hk)).mp hc) c' ((hmem (hkeyed hk')).mp hc') k hhub
        hk hk'
    · intro c hc hdm
      rw [hparticipants]
      exact h.paired.made c ((hmem hdm).mp hc) hdm
    · intro p hp
      rw [hparticipants] at hp
      obtain ⟨c, hc, hdm, hid⟩ := h.paired.owned p hp
      exact ⟨c, (hmem hdm).mpr hc, hdm, hid⟩
    · intro p hp c hc k hhub hk hk'
      exact h.fresh p hp c ((hmem (hkeyed hk')).mp hc) k hhub hk hk'
  · exact ⟨h, ⟨fun _ _ _ => Iff.rfl, fun _ hc _ => hc⟩⟩

end DmStore

/-! ### Runs -/

namespace DmStore

/-- The service starts with a database whose direct messages are in order, for instance with
none. -/
def Init (w : Tasks ℕ DmStore (Option OpenDmRequest)) : Prop :=
  (∀ i, w.task i = none) ∧ w.shared.pending = [] ∧ Paired w.shared.db

/-- The service: its requests, and what they share. -/
def system : System (Tasks ℕ DmStore (Option OpenDmRequest)) (Tasks.Act ℕ OpenDmAct Db) :=
  Tasks.system Init run env

theorem sound {w : Tasks ℕ DmStore (Option OpenDmRequest)} (hw : system.Reachable w) :
    Sound w.shared ∧ Tasks.Each Standing w := by
  refine Tasks.invariant (I := fun w => Sound w.shared ∧ Tasks.Each Standing w) ?_ ?_ ?_ hw
  · rintro w ⟨hnone, hpending, hpaired⟩
    refine ⟨⟨hpaired, ?_, ?_⟩, fun i => ?_⟩
    · simp [hpending]
    · simp [hpending]
    · simp [hnone, hpending, Standing]
  · rintro w i a s t ⟨hs, heach⟩ - hrun
    have hi := heach i
    cases htask : w.task i with
    | none =>
      rw [htask] at hrun hi
      cases a with
      | arrive hubId me other =>
        obtain ⟨rfl, rfl⟩ := Prod.mk.inj (Option.some.inj hrun)
        refine ⟨hs, heach.set (Stands.idle hi rfl rfl ?_ ?_) fun j _ hj => hj⟩
        · intro channelId hc
          cases hc
        · intro hpassed
          cases hpassed
      | _ => cases hrun
    | some r =>
      rw [htask] at hrun hi
      obtain ⟨⟨st', phase⟩, hstep, heq⟩ := Option.map_eq_some_iff.mp hrun
      obtain ⟨rfl, rfl⟩ := Prod.mk.inj heq
      obtain ⟨hs', hi', hsp⟩ := hs.step hi (does_of_openDm hi hstep)
      exact ⟨hs', heach.set hi' fun j hne hj => hj.spared hsp hne⟩
  · rintro w db ⟨hs, heach⟩ -
    obtain ⟨hs', hsp⟩ := hs.around db
    exact ⟨hs', heach.around fun j hj => hj.spared hsp trivial⟩

end DmStore

/-- A channel is one of direct messages between two users: these are its participants. -/
def Channel.IsBetween (c : Channel) (db : Db) (a b : I64) : Prop :=
  c.channelType = "dm" ∧ ∀ u, ⟨c.id, u⟩ ∈ db.dmParticipants ↔ u = a ∨ u = b

/-- **One channel for a pair.** In every run of requests, whoever makes them and how often,
and wherever they fail: a hub has at most one channel of direct messages between two users,
and each is between two; and a request that succeeds has been given the channel between the
two users that it names, which are distinct. A key is the key of one pair. -/
theorem dm_unique {w : Tasks ℕ DmStore (Option OpenDmRequest)} (hw : DmStore.system.Reachable w) :
    (∀ a b, ∀ c ∈ w.shared.db.channels, ∀ c' ∈ w.shared.db.channels, c.hubId = c'.hubId →
      c.IsBetween w.shared.db a b → c'.IsBetween w.shared.db a b → c = c') ∧
    (∀ c ∈ w.shared.db.channels, c.channelType = "dm" →
      ∃ a b, a ≠ b ∧ c.IsBetween w.shared.db a b) ∧
    (∀ i r channelId, w.task i = some r → r.phase = .succeeded channelId → r.me ≠ r.other ∧
      ∃ c ∈ w.shared.db.channels, c.id = channelId ∧ c.hubId = r.hubId ∧
        c.IsBetween w.shared.db r.me r.other) ∧
    ∀ a b c d, dmPairKey a b = dmPairKey c d ↔ (a = c ∧ b = d) ∨ (a = d ∧ b = c) := by
  obtain ⟨hs, heach⟩ := DmStore.sound hw
  have hdm {c : Channel} (htype : c.channelType = "dm") : DmStore.isDm c = true := by
    rw [DmStore.isDm, htype]
    rfl
  refine ⟨?_, ?_, ?_, fun a b c d => dmPairKey_eq_iff⟩
  · rintro a b c hc c' hc' hhub ⟨htype, hpart⟩ ⟨htype', hpart'⟩
    obtain ⟨-, x, y, hxy, hkey, hxpart⟩ := hs.paired.made c hc (hdm htype)
    obtain ⟨-, x', y', hxy', hkey', hxpart'⟩ := hs.paired.made c' hc' (hdm htype')
    -- the pairs of the two keys have the same two members
    have hx := (hpart x).mp ((hxpart x).mpr (.inl rfl))
    have hy := (hpart y).mp ((hxpart y).mpr (.inr rfl))
    have hx' := (hpart' x').mp ((hxpart' x').mpr (.inl rfl))
    have hy' := (hpart' y').mp ((hxpart' y').mpr (.inr rfl))
    have hsame : dmPairKey x y = dmPairKey x' y' := by
      rw [dmPairKey_eq_iff]
      grind
    exact hs.paired.unique c hc c' hc' _ hhub hkey (hsame ▸ hkey')
  · intro c hc htype
    obtain ⟨-, a, b, hab, -, hpart⟩ := hs.paired.made c hc (hdm htype)
    exact ⟨a, b, hab, htype, hpart⟩
  · intro i r channelId hr hphase
    have hstands : w.shared.Stands i r := by
      have hi := heach i
      rwa [hr] at hi
    obtain ⟨c, hc, hid, hfor⟩ := hstands.result channelId (by rw [hphase]; rfl)
    refine ⟨hstands.distinct (by rw [hphase]; rfl), c, hc, hid, hfor.1, ?_, ?_⟩
    · exact (hs.paired.made c hc (isDm_of_isFor hfor)).1
    · exact hs.paired.participants hc hfor

/-! ### Two who write to each other -/

namespace Seed

theorem paired_devSeed : Paired devSeed where
  unique := by
    intro c hc c' _ k _ hk _
    rw [List.mem_singleton.mp hc] at hk
    cases hk
  made := by
    intro c hc hdm
    rw [List.mem_singleton.mp hc] at hdm
    cases hdm
  owned := by
    intro p hp
    cases hp

/-- What comes of a run of requests from the seeded database on. -/
def dmRun (as : List (Tasks.Act ℕ OpenDmAct Db)) : Tasks ℕ DmStore (Option OpenDmRequest) :=
  as.foldl (Tasks.next DmStore.run DmStore.env) ⟨⟨devSeed, []⟩, fun _ => none⟩

/-- Bob and Charlie write to each other at the same time. Bob's channel is inserted first, and
Charlie's request waits until that is committed. -/
def bothOpen : List (Tasks.Act ℕ OpenDmAct Db) :=
  [.task 0 (.arrive hub bob charlie), .task 1 (.arrive hub charlie bob), .task 0 .next,
    .task 1 .next, .task 0 .next, .task 1 .next, .task 0 (.insert (i64 3002)),
    .task 1 (.insert (i64 3003)), .task 0 .next, .task 0 .next, .task 0 .next,
    .task 1 (.insert (i64 3003)), .task 1 .next, .task 1 .next, .task 1 .next, .task 0 .next,
    .task 1 .next]

/-- Both are given the one channel. -/
theorem dm_unique_bothOpen :
    (∃ r, (dmRun bothOpen).task 0 = some r ∧ r.phase = .succeeded (i64 3002)) ∧
    (∃ r, (dmRun bothOpen).task 1 = some r ∧ r.phase = .succeeded (i64 3002)) ∧
    ∀ c ∈ (dmRun bothOpen).shared.db.channels, c.channelType = "dm" →
      ∃ a b, a ≠ b ∧ c.IsBetween (dmRun bothOpen).shared.db a b :=
  ⟨⟨⟨hub, bob, charlie, .succeeded (i64 3002)⟩, by decide +kernel, rfl⟩,
    ⟨⟨hub, charlie, bob, .succeeded (i64 3002)⟩, by decide +kernel, rfl⟩,
    (dm_unique (Tasks.reachable_foldl ⟨fun _ => rfl, rfl, paired_devSeed⟩ bothOpen)).2.1⟩

end Seed

end Hub

end MateHub
