import MateHub.Hub.Groups
import MateHub.Lib.Tasks
import Mathlib.Data.List.Sort

/-!
# Refresh tokens

A refresh token is redeemed for a new access token and a new refresh token: `refresh`
looks the row of the token up, reads what goes into the access token, deletes the row and
inserts one for the new token. These are statements of their own, between which other
requests run, so a request is a task whose steps are its statements.

The `DELETE` does not say whether it deleted anything. Two requests that have both read
the row before either deletes it both get a new pair
(`MateHub.Hub.redeemed_twice`), and a request whose last statement fails has taken the
token for nothing. In the runs in which a `DELETE` finds the row that its request has read
and the statements after it go through (`MateHub.Hub.TokenStore.RedeemsLive`), a token is
redeemed at most once, and only by a request that succeeds
(`MateHub.Hub.redeemed_once`).

A request is handled in the order: the `SELECT` of the row with the check of its expiry,
the name of the user, the groups, the access token with the `DELETE`, the `DELETE` of the
user's oldest tokens, the `INSERT`. The new token is drawn here with the `INSERT`, which is
the first to use it.
-/

namespace MateHub

namespace Hub

open Chat (I64 i64)

/-! ### The table -/

/-- `ACCESS_TOKEN_TTL_SECS`. -/
def accessTokenTtlSecs : ℤ := 30 * 60

/-- `REFRESH_TOKEN_TTL_SECS`. -/
def refreshTokenTtlSecs : ℤ := 30 * 24 * 3600

/-- A row of `refresh_tokens`. -/
structure RefreshToken where
  id : I64
  userId : I64
  hubId : I64
  tokenHash : String
  expiresAt : Time
  createdAt : Time
  deriving DecidableEq

/-- What an access token says. -/
structure Claims where
  sub : I64
  username : String
  userType : UserType
  hubId : I64
  groups : List I64
  iat : Time
  exp : Time
  deriving DecidableEq

/-- What a refresh answers. -/
structure RefreshResponse where
  accessToken : Claims
  refreshToken : String
  expiresIn : ℤ
  deriving DecidableEq

/-- What the requests share. -/
structure TokenStore where
  db : Db
  refreshTokens : List RefreshToken
  now : Time
  /-- The hashes of the tokens that have been stored or presented: a new token is none of
  them. -/
  known : List String
  /-- Who has deleted which token in order to redeem it. -/
  taken : List (String × ℕ)

namespace TokenStore

variable (st : TokenStore)

/-- The row of a token, by its hash. -/
def refreshToken? (tokenHash : String) : Option RefreshToken :=
  st.refreshTokens.find? fun r => decide (r.tokenHash = tokenHash)

/-- A token has a row that has not expired. -/
def accepts (hash : String → String) (token : String) : Bool :=
  (st.refreshToken? (hash token)).any fun row => decide (st.now ≤ row.expiresAt)

/-- `DELETE FROM refresh_tokens WHERE token_hash = $1`. -/
def deleteToken (tokenHash : String) : TokenStore :=
  { st with
    refreshTokens := Table.delete (fun r => decide (r.tokenHash = tokenHash)) st.refreshTokens }

/-- The tokens of a user in a hub, latest first. -/
def tokensOf (userId hubId : I64) : List RefreshToken :=
  (st.refreshTokens.filter fun r => decide (r.userId = userId ∧ r.hubId = hubId)).insertionSort
    fun a b => b.createdAt ≤ a.createdAt

/-- `DELETE FROM refresh_tokens WHERE id IN (... OFFSET 4)`. -/
def deleteOldest (userId hubId : I64) : TokenStore :=
  { st with
    refreshTokens := Table.delete
      (fun r => ((st.tokensOf userId hubId).drop 4).any fun old => decide (old.id = r.id))
      st.refreshTokens }

/-- `INSERT INTO refresh_tokens`. -/
def insertToken (r : RefreshToken) : Option TokenStore :=
  if !st.db.hasUser r.userId || !st.db.hasHub r.hubId ||
      Table.hasKey RefreshToken.tokenHash r st.refreshTokens then none
  else (Table.insert RefreshToken.id r st.refreshTokens).map fun rows =>
    { st with refreshTokens := rows }

/-- The name of a user. -/
def username? (userId : I64) : Option String :=
  (st.db.users.find? fun u => decide (u.id = userId)).map User.username

/-- The groups of a user in a hub. -/
def groupIdsOf (hubId userId : I64) : List I64 :=
  (st.db.memberGroups.filter fun mg => decide (mg.hubId = hubId ∧ mg.userId = userId)).map
    MemberGroup.groupId

/-- `issue_access_token`, before it is signed. -/
def issueAccessToken (userId : I64) (username : String) (hubId : I64) (groups : List I64) :
    Claims :=
  ⟨userId, username, .permanent, hubId, groups, st.now, st.now + accessTokenTtlSecs⟩

end TokenStore

/-! ### A request -/

/-- The status with which a refresh fails. -/
inductive RefreshFailure
  | unauthorized
  | internalServerError
  deriving DecidableEq

/-- Where a request stands in `refresh`. -/
inductive RefreshPhase
  | arrived
  /-- The token has expired, its row is to be deleted. -/
  | expired
  /-- The row has been read and has not expired. -/
  | valid (row : RefreshToken)
  | named (row : RefreshToken) (username : String)
  /-- The access token is to be signed, and the row to be deleted. -/
  | granted (row : RefreshToken) (claims : Claims)
  | deleted (row : RefreshToken) (claims : Claims)
  /-- The new token is to be inserted, which is valid until then. -/
  | trimmed (row : RefreshToken) (claims : Claims) (expiresAt : Time)
  | issued (reply : RefreshResponse)
  | refused (status : RefreshFailure)
  deriving DecidableEq

/-- A request to refresh, with the statement it has come to. -/
structure RefreshRequest where
  refreshToken : String
  phase : RefreshPhase
  deriving DecidableEq

/-- What happens to a request next. -/
inductive RefreshAct
  /-- It comes in. -/
  | arrive (refreshToken : String)
  /-- Its statement is executed. -/
  | next
  /-- Its statement fails. -/
  | fault
  /-- Its access token cannot be signed. -/
  | unsigned
  /-- Its new token, with the id drawn for the row, is inserted. -/
  | insert (id : I64) (raw : String)
  deriving DecidableEq

namespace TokenStore

/-- What the statement at which a request stands does, and where it gets. `hash` is
`hash_token`. -/
def refresh (hash : String → String) (st : TokenStore) (token : String) :
    RefreshPhase → RefreshAct → Option (TokenStore × RefreshPhase)
  | .arrived, .next =>
    match st.refreshToken? (hash token) with
    | none => some (st, .refused .unauthorized)
    | some row => if row.expiresAt < st.now then some (st, .expired) else some (st, .valid row)
  | .arrived, .fault => some (st, .refused .internalServerError)
  | .expired, .next => some (st.deleteToken (hash token), .refused .unauthorized)
  | .expired, .fault => some (st, .refused .unauthorized)
  | .valid row, .next =>
    match st.username? row.userId with
    | none => some (st, .refused .internalServerError)
    | some username => some (st, .named row username)
  | .valid _, .fault => some (st, .refused .internalServerError)
  | .named row username, .next =>
    some (st, .granted row (st.issueAccessToken row.userId username row.hubId
      (st.groupIdsOf row.hubId row.userId)))
  | .named row username, .fault =>
    some (st, .granted row (st.issueAccessToken row.userId username row.hubId []))
  | .granted _ _, .unsigned => some (st, .refused .internalServerError)
  | .granted row claims, .next => some (st.deleteToken (hash token), .deleted row claims)
  | .granted row claims, .fault => some (st, .deleted row claims)
  | .deleted row claims, .next =>
    some (st.deleteOldest row.userId row.hubId, .trimmed row claims (st.now + refreshTokenTtlSecs))
  | .deleted _ _, .fault => some (st, .refused .internalServerError)
  | .trimmed row claims expiresAt, .insert id raw =>
    if hash raw ∈ st.known then none
    else match st.insertToken ⟨id, row.userId, row.hubId, hash raw, expiresAt, st.now⟩ with
      | none => some (st, .refused .internalServerError)
      | some st => some ({ st with known := hash raw :: st.known },
          .issued ⟨claims, raw, accessTokenTtlSecs⟩)
  | .trimmed _ _ _, .fault => some (st, .refused .internalServerError)
  | _, _ => none

/-- Notes that a request which is about to redeem a token has deleted its row. -/
def note (hash : String → String) (i : ℕ) (r : RefreshRequest) (st st' : TokenStore) : TokenStore :=
  if r.phase ≠ .expired ∧ (st.refreshToken? (hash r.refreshToken)).isSome ∧
      (st'.refreshToken? (hash r.refreshToken)).isNone then
    { st' with taken := (hash r.refreshToken, i) :: st'.taken }
  else st'

/-- A step of a request. -/
def run (hash : String → String) (st : TokenStore) (i : ℕ) :
    Option RefreshRequest → RefreshAct → Option (TokenStore × Option RefreshRequest)
  | none, a =>
    match a with
    | .arrive token => some ({ st with known := hash token :: st.known }, some ⟨token, .arrived⟩)
    | _ => none
  | some r, a =>
    (st.refresh hash r.refreshToken r.phase a).map fun p =>
      (st.note hash i r p.1, some { r with phase := p.2 })

/-- What happens to the service besides: time passes, and other requests write. -/
inductive Env
  | tick (d : ℕ)
  | commit (db : Db)

/-- What others do to the store meanwhile. -/
def env (st : TokenStore) : Env → TokenStore
  | .tick d => { st with now := st.now + d }
  | .commit db => { st with db := db }

/-- The service starts with some tokens, and no request. -/
def Init (w : Tasks ℕ TokenStore (Option RefreshRequest)) : Prop :=
  (∀ i, w.task i = none) ∧ w.shared.taken = [] ∧
    ∀ r ∈ w.shared.refreshTokens, r.tokenHash ∈ w.shared.known

/-- The service: its requests, and what they share. -/
def system (hash : String → String) :
    System (Tasks ℕ TokenStore (Option RefreshRequest)) (Tasks.Act ℕ RefreshAct Env) :=
  Tasks.system Init (run hash) env

/-! ### The condition -/

/-- A step meets the condition: a request that redeems a token finds its row with the
`DELETE`, and its later statements go through. -/
def redeemsLive (hash : String → String) (st : TokenStore) (token : String) :
    RefreshPhase → RefreshAct → Bool
  | .granted _ _, .next => (st.refreshToken? (hash token)).isSome
  | .granted _ _, .fault => false
  | .deleted _ _, .fault => false
  | .trimmed _ _ _, .fault => false
  | .trimmed row _ expiresAt, .insert id raw =>
    (st.insertToken ⟨id, row.userId, row.hubId, hash raw, expiresAt, st.now⟩).isSome
  | _, _ => true

/-- **The condition on a step.** -/
def RedeemsLive (hash : String → String) (w : Tasks ℕ TokenStore (Option RefreshRequest)) :
    Tasks.Act ℕ RefreshAct Env → Prop
  | .task i a => ∀ r ∈ w.task i, w.shared.redeemsLive hash r.refreshToken r.phase a = true
  | .env _ => True

instance (hash : String → String) (w : Tasks ℕ TokenStore (Option RefreshRequest)) :
    ∀ a, Decidable (RedeemsLive hash w a)
  | .task i a =>
    inferInstanceAs
      (Decidable (∀ r ∈ w.task i, w.shared.redeemsLive hash r.refreshToken r.phase a = true))
  | .env _ => inferInstanceAs (Decidable True)

/-! ### What a step does -/

end TokenStore

/-- The row is deleted, and the request has not failed. -/
def RefreshPhase.Redeeming : RefreshPhase → Prop
  | .deleted _ _ => True
  | .trimmed _ _ _ => True
  | .issued _ => True
  | _ => False

namespace TokenStore

variable {hash : String → String} {st st' : TokenStore} {token : String} {i : ℕ}
  {phase phase' : RefreshPhase} {a : RefreshAct}

/-- **What the statements of a request do**, where the condition is met. -/
inductive Does (hash : String → String) (st : TokenStore) (token : String) :
    RefreshPhase → TokenStore → RefreshPhase → Prop
  /-- Nothing is written, and the row is not deleted yet. -/
  | reads {phase phase' : RefreshPhase} : ¬ phase.Redeeming → ¬ phase'.Redeeming →
      Does hash st token phase st phase'
  | expires {phase' : RefreshPhase} : ¬ phase'.Redeeming →
      Does hash st token .expired (st.deleteToken (hash token)) phase'
  | takes {row : RefreshToken} {claims : Claims} : (st.refreshToken? (hash token)).isSome = true →
      Does hash st token (.granted row claims) (st.deleteToken (hash token)) (.deleted row claims)
  | trims {row : RefreshToken} {claims : Claims} : Does hash st token (.deleted row claims)
      (st.deleteOldest row.userId row.hubId) (.trimmed row claims (st.now + refreshTokenTtlSecs))
  | issues {row : RefreshToken} {claims : Claims} {expiresAt : Time} {id : I64} {raw : String}
      {st' : TokenStore} : hash raw ∉ st.known →
      st.insertToken ⟨id, row.userId, row.hubId, hash raw, expiresAt, st.now⟩ = some st' →
      Does hash st token (.trimmed row claims expiresAt)
        { st' with known := hash raw :: st'.known } (.issued ⟨claims, raw, accessTokenTtlSecs⟩)

theorem does_of_refresh (h : st.refresh hash token phase a = some (st', phase'))
    (hlive : st.redeemsLive hash token phase a = true) :
    Does hash st token phase st' phase' := by
  have hread {p : RefreshPhase} (heq : some (st, p) = some (st', phase')) (hp : ¬ phase.Redeeming)
      (hp' : ¬ p.Redeeming) : Does hash st token phase st' phase' := by
    obtain ⟨rfl, rfl⟩ := Prod.mk.inj (Option.some.inj heq)
    exact .reads hp hp'
  cases phase with
  | arrived =>
    cases a with
    | next =>
      dsimp only [refresh] at h
      split at h
      · exact hread h id id
      · split at h <;> exact hread h id id
    | fault => exact hread h id id
    | _ => cases h
  | expired =>
    cases a with
    | next =>
      obtain ⟨rfl, rfl⟩ := Prod.mk.inj (Option.some.inj h)
      exact .expires id
    | fault => exact hread h id id
    | _ => cases h
  | valid row =>
    cases a with
    | next =>
      dsimp only [refresh] at h
      split at h <;> exact hread h id id
    | fault => exact hread h id id
    | _ => cases h
  | named row username =>
    cases a with
    | next => exact hread h id id
    | fault => exact hread h id id
    | _ => cases h
  | granted row claims =>
    cases a with
    | unsigned => exact hread h id id
    | next =>
      obtain ⟨rfl, rfl⟩ := Prod.mk.inj (Option.some.inj h)
      exact .takes hlive
    | fault => cases hlive
    | _ => cases h
  | deleted row claims =>
    cases a with
    | next =>
      obtain ⟨rfl, rfl⟩ := Prod.mk.inj (Option.some.inj h)
      exact .trims
    | fault => cases hlive
    | _ => cases h
  | trimmed row claims expiresAt =>
    cases a with
    | insert id raw =>
      dsimp only [refresh] at h
      split at h
      · cases h
      · rename_i hfresh
        obtain ⟨st₁, hins⟩ := Option.isSome_iff_exists.mp hlive
        rw [hins] at h
        obtain ⟨rfl, rfl⟩ := Prod.mk.inj (Option.some.inj h)
        exact .issues hfresh hins
    | fault => cases hlive
    | _ => cases h
  | issued reply => cases a <;> cases h
  | refused status => cases a <;> cases h

theorem refreshToken?_eq_none {h : String} :
    st.refreshToken? h = none ↔ ∀ r ∈ st.refreshTokens, r.tokenHash ≠ h := by
  simp [refreshToken?]

theorem refreshToken?_deleteToken {h : String} : (st.deleteToken h).refreshToken? h = none := by
  rw [refreshToken?_eq_none]
  intro r hr
  exact of_decide_eq_false (Table.mem_delete.mp hr).2

theorem insertToken_eq_some {r : RefreshToken} (h : st.insertToken r = some st') :
    st'.known = st.known ∧ st'.taken = st.taken ∧
      ∀ r', r' ∈ st'.refreshTokens ↔ r' = r ∨ r' ∈ st.refreshTokens := by
  rw [insertToken] at h
  split_ifs at h
  obtain ⟨rows, hrows, rfl⟩ := Option.map_eq_some_iff.mp h
  exact ⟨rfl, rfl, fun r' => Table.mem_insert hrows⟩

/-! ### The invariant -/

/-- What the requests leave behind, as far as tokens go: rows and taken tokens are known,
and a taken token has no row and is taken by one request. -/
structure Sound (st : TokenStore) : Prop where
  rows : ∀ r ∈ st.refreshTokens, r.tokenHash ∈ st.known
  known : ∀ p ∈ st.taken, p.1 ∈ st.known
  gone : ∀ p ∈ st.taken, st.refreshToken? p.1 = none
  once : ∀ p ∈ st.taken, ∀ q ∈ st.taken, p.1 = q.1 → p.2 = q.2

/-- A request has taken its token exactly from the `DELETE` on, unless it fails. -/
structure Holds (hash : String → String) (st : TokenStore) (i : ℕ) (t : Option RefreshRequest) :
    Prop where
  known : ∀ r ∈ t, hash r.refreshToken ∈ st.known
  taken : ∀ r ∈ t, r.phase.Redeeming → (hash r.refreshToken, i) ∈ st.taken
  redeeming : ∀ p ∈ st.taken, p.2 = i → ∃ r ∈ t, r.phase.Redeeming

/-- What is known stays known, and only one request may take something. -/
structure Extends (i : ℕ) (st st' : TokenStore) : Prop where
  known : st.known ⊆ st'.known
  taken : st.taken ⊆ st'.taken
  own : ∀ p ∈ st'.taken, p ∈ st.taken ∨ p.2 = i

theorem Extends.of_eq (hknown : st.known ⊆ st'.known) (htaken : st'.taken = st.taken) :
    Extends i st st' :=
  ⟨hknown, fun _ hp => htaken ▸ hp, fun _ hp => .inl (htaken ▸ hp)⟩

/-- The other requests hold what they held. -/
theorem Holds.others {j : ℕ} {t : Option RefreshRequest} (h : Holds hash st j t)
    (hext : Extends i st st') (hne : j ≠ i) : Holds hash st' j t where
  known := fun r hr => hext.known (h.known r hr)
  taken := fun r hr hp => hext.taken (h.taken r hr hp)
  redeeming := fun p hp hj => (hext.own p hp).elim (fun hp => h.redeeming p hp hj)
    fun hi => absurd (hj.symm.trans hi) hne

/-- A token that has a row is known. -/
theorem mem_known_of_row (hrows : ∀ r ∈ st.refreshTokens, r.tokenHash ∈ st.known) {h : String}
    (h' : (st.refreshToken? h).isSome) : h ∈ st.known := by
  by_contra hno
  have hnone : st.refreshToken? h = none :=
    refreshToken?_eq_none.mpr fun r hr heq => hno (heq ▸ hrows r hr)
  rw [hnone] at h'
  cases h'

/-- Fewer rows. -/
theorem Sound.shrink (h : Sound st) (hrows : st'.refreshTokens ⊆ st.refreshTokens)
    (hknown : st'.known = st.known) (htaken : st'.taken = st.taken) : Sound st' where
  rows := fun r hr => hknown ▸ h.rows r (hrows hr)
  known := fun p hp => hknown ▸ h.known p (htaken ▸ hp)
  gone := fun p hp => refreshToken?_eq_none.mpr fun r hr =>
    refreshToken?_eq_none.mp (h.gone p (htaken ▸ hp)) r (hrows hr)
  once := fun p hp q hq => h.once p (htaken ▸ hp) q (htaken ▸ hq)

theorem note_of_none {r : RefreshRequest} (h : st.refreshToken? (hash r.refreshToken) = none) :
    st.note hash i r st' = st' :=
  if_neg fun hc => by
    rw [h] at hc
    cases hc.2.1

theorem note_self {r : RefreshRequest} : st.note hash i r st = st :=
  if_neg fun ⟨_, hsome, hnone⟩ => by
    rw [Option.isNone_iff_eq_none.mp hnone] at hsome
    cases hsome

theorem note_take {r : RefreshRequest} (hphase : r.phase ≠ .expired)
    (h : (st.refreshToken? (hash r.refreshToken)).isSome = true) :
    st.note hash i r (st.deleteToken (hash r.refreshToken)) =
      { st.deleteToken (hash r.refreshToken) with
        taken := (hash r.refreshToken, i) :: st.taken } :=
  if_pos ⟨hphase, h, Option.isNone_iff_eq_none.mpr refreshToken?_deleteToken⟩

/-- A request that has taken its token, and is still redeeming it. -/
theorem Holds.keep {r : RefreshRequest} (h : Holds hash st i (some r)) (hext : Extends i st st')
    (hp : r.phase.Redeeming) (hp' : phase'.Redeeming) :
    Holds hash st' i (some { r with phase := phase' }) where
  known := by
    rintro _ ⟨⟩
    exact hext.known (h.known r rfl)
  taken := by
    rintro _ ⟨⟩ -
    exact hext.taken (h.taken r rfl hp)
  redeeming := fun p _ _ => ⟨_, rfl, hp'⟩

/-- A request that has not taken its token, and does not take it now. -/
theorem Holds.idle {r : RefreshRequest} (h : Holds hash st i (some r))
    (hknown : st.known ⊆ st'.known) (htaken : st'.taken = st.taken) (hp : ¬ r.phase.Redeeming)
    (hp' : ¬ phase'.Redeeming) : Holds hash st' i (some { r with phase := phase' }) where
  known := by
    rintro _ ⟨⟩
    exact hknown (h.known r rfl)
  taken := by
    rintro _ ⟨⟩ hr
    exact absurd hr hp'
  redeeming := by
    intro p hmem hi
    obtain ⟨_, ⟨⟩, hr⟩ := h.redeeming p (htaken ▸ hmem) hi
    exact absurd hr hp

/-- **A step of a request**, where the condition is met. -/
theorem Sound.step {r : RefreshRequest} (hs : Sound st) (h : Holds hash st i (some r))
    (hdoes : Does hash st r.refreshToken r.phase st' phase') :
    Sound (st.note hash i r st') ∧ Holds hash (st.note hash i r st') i
      (some { r with phase := phase' }) ∧ Extends i st (st.note hash i r st') := by
  generalize hphase : r.phase = phase at hdoes
  have hgone (hp : r.phase.Redeeming) : st.refreshToken? (hash r.refreshToken) = none :=
    hs.gone _ (h.taken r rfl hp)
  cases hdoes with
  | reads hp hp' =>
    rw [note_self]
    exact ⟨hs, h.idle (fun _ hx => hx) rfl (hphase ▸ hp) hp', .of_eq (fun _ hx => hx) rfl⟩
  | expires hp' =>
    rw [show st.note hash i r (st.deleteToken (hash r.refreshToken)) = _ from
      if_neg fun hc => hc.1 hphase]
    refine ⟨hs.shrink (fun _ hr => (Table.mem_delete.mp hr).1) rfl rfl,
      h.idle (fun _ hx => hx) rfl ?_ hp', .of_eq (fun _ hx => hx) rfl⟩
    rw [hphase]
    exact id
  | takes hfound =>
    rw [note_take (by rw [hphase]; nofun) hfound]
    have hfresh : ∀ p ∈ st.taken, p.1 ≠ hash r.refreshToken := fun p hp heq => by
      rw [← heq, hs.gone p hp] at hfound
      cases hfound
    have hdel : TokenStore.Sound (st.deleteToken (hash r.refreshToken)) :=
      hs.shrink (fun _ hr => (Table.mem_delete.mp hr).1) rfl rfl
    refine ⟨⟨hdel.rows, ?_, ?_, ?_⟩, ⟨?_, ?_, ?_⟩, ⟨fun _ hx => hx, ?_, ?_⟩⟩
    · rintro p (_ | ⟨_, hp⟩)
      · exact h.known r rfl
      · exact hs.known p hp
    · rintro p (_ | ⟨_, hp⟩)
      · exact refreshToken?_deleteToken
      · exact hdel.gone p hp
    · rintro p (_ | ⟨_, hp⟩) q (_ | ⟨_, hq⟩) heq
      · rfl
      · exact absurd heq.symm (hfresh q hq)
      · exact absurd heq (hfresh p hp)
      · exact hs.once p hp q hq heq
    · rintro _ ⟨⟩
      exact h.known r rfl
    · rintro _ ⟨⟩ -
      exact List.mem_cons_self
    · exact fun p _ _ => ⟨_, rfl, trivial⟩
    · exact fun _ hp => List.mem_cons_of_mem _ hp
    · rintro p (_ | ⟨_, hp⟩)
      · exact .inr rfl
      · exact .inl hp
  | @trims row claims =>
    have hp : r.phase.Redeeming := by rw [hphase]; trivial
    rw [note_of_none (hgone hp)]
    have hext : Extends i st (st.deleteOldest row.userId row.hubId) := .of_eq (fun _ hx => hx) rfl
    exact ⟨hs.shrink (fun _ hr => (Table.mem_delete.mp hr).1) rfl rfl, h.keep hext hp trivial, hext⟩
  | @issues row claims expiresAt id raw st₁ hfresh hins =>
    have hp : r.phase.Redeeming := by rw [hphase]; trivial
    obtain ⟨hknown, htaken, hrows⟩ := insertToken_eq_some hins
    rw [note_of_none (hgone hp)]
    have hext : Extends i st { st₁ with known := hash raw :: st₁.known } :=
      .of_eq (fun _ hx => List.mem_cons_of_mem _ (hknown ▸ hx)) htaken
    refine ⟨⟨fun r' hr' => ?_, fun p hp => ?_, fun p hp => ?_, fun p hp q hq => ?_⟩,
      h.keep hext hp trivial, hext⟩
    · rcases (hrows r').mp hr' with rfl | hr'
      · exact List.mem_cons_self
      · exact hext.known (hs.rows r' hr')
    · exact hext.known (hs.known p (htaken ▸ hp))
    · rw [refreshToken?_eq_none]
      intro r' hr'
      rcases (hrows r').mp hr' with rfl | hr'
      · -- the new token has not been seen before, and what is taken has
        intro heq
        rw [show hash raw = p.1 from heq] at hfresh
        exact hfresh (hs.known p (htaken ▸ hp))
      · exact refreshToken?_eq_none.mp (hs.gone p (htaken ▸ hp)) r' hr'
    · exact hs.once p (htaken ▸ hp) q (htaken ▸ hq)

/-- **The invariant of the service.** -/
structure Redeems (hash : String → String) (w : Tasks ℕ TokenStore (Option RefreshRequest)) :
    Prop where
  sound : Sound w.shared
  each : Tasks.Each (Holds hash) w

theorem Redeems.init {w : Tasks ℕ TokenStore (Option RefreshRequest)} (h : Init w) :
    Redeems hash w := by
  obtain ⟨hnone, htaken, hrows⟩ := h
  refine ⟨⟨hrows, ?_, ?_, ?_⟩, fun i => ⟨?_, ?_, ?_⟩⟩ <;>
    simp only [htaken, hnone, List.not_mem_nil, Option.mem_def, reduceCtorEq, false_implies,
      implies_true]

/-- A request comes in. -/
theorem Redeems.arrive {w : Tasks ℕ TokenStore (Option RefreshRequest)} (h : Redeems hash w)
    (hnone : w.task i = none) : Redeems hash (w.set i
      { w.shared with known := hash token :: w.shared.known } (some ⟨token, .arrived⟩)) := by
  have hext : Extends i w.shared { w.shared with known := hash token :: w.shared.known } :=
    .of_eq (fun _ hx => List.mem_cons_of_mem _ hx) rfl
  refine ⟨⟨fun r hr => hext.known (h.sound.rows r hr), fun p hp => hext.known (h.sound.known p hp),
    h.sound.gone, h.sound.once⟩, h.each.set ⟨?_, ?_, ?_⟩ fun j hne hj => hj.others hext hne⟩
  · rintro _ ⟨⟩
    exact List.mem_cons_self
  · rintro _ ⟨⟩ ⟨⟩
  · intro p hp hpi
    obtain ⟨r, hr, -⟩ := (h.each i).redeeming p hp hpi
    rw [hnone] at hr
    cases hr

/-- A request executes a statement. -/
theorem Redeems.step {w : Tasks ℕ TokenStore (Option RefreshRequest)} {r : RefreshRequest}
    (h : Redeems hash w) (hr : w.task i = some r)
    (hdoes : Does hash w.shared r.refreshToken r.phase st' phase') :
    Redeems hash (w.set i (w.shared.note hash i r st') (some { r with phase := phase' })) := by
  obtain ⟨hs, hi, hext⟩ := h.sound.step (hr ▸ h.each i) hdoes
  exact ⟨hs, h.each.set hi fun j hne hj => hj.others hext hne⟩

theorem Redeems.env {w : Tasks ℕ TokenStore (Option RefreshRequest)} (h : Redeems hash w)
    (e : Env) : Redeems hash { w with shared := env w.shared e } := by
  obtain ⟨⟨hrows, hknown, hgone, honce⟩, heach⟩ := h
  cases e <;>
    exact ⟨⟨hrows, hknown, hgone, honce⟩, heach.around fun j hj => ⟨hj.1, hj.2, hj.3⟩⟩

theorem redeems {w : Tasks ℕ TokenStore (Option RefreshRequest)}
    (hw : (system hash).Reach (RedeemsLive hash) w) : Redeems hash w := by
  refine Tasks.invariant (fun w => .init) ?_ (fun w e h _ => h.env e) hw
  intro w i a st t h hok hrun
  cases htask : w.task i with
  | none =>
    rw [htask] at hrun
    cases a with
    | arrive token =>
      obtain ⟨rfl, rfl⟩ := Prod.mk.inj (Option.some.inj hrun)
      exact h.arrive htask
    | _ => cases hrun
  | some r =>
    rw [htask] at hrun
    obtain ⟨⟨st', phase'⟩, hstep, heq⟩ := Option.map_eq_some_iff.mp hrun
    obtain ⟨rfl, rfl⟩ := Prod.mk.inj heq
    exact h.step htask (does_of_refresh hstep (hok r htask))

end TokenStore

open TokenStore

/-- A request has issued a new pair of tokens. -/
def Issues (token : String) (t : Option RefreshRequest) : Prop :=
  ∃ r ∈ t, r.refreshToken = token ∧ ∃ reply, r.phase = .issued reply

/-- A request has failed. -/
def Fails (t : Option RefreshRequest) : Prop := ∃ r ∈ t, ∃ status, r.phase = .refused status

/-- **A refresh token is redeemed at most once.** In every run whose requests find the row
that they delete, and whose later statements go through, at most one of the requests that
present a token succeeds, and a request that fails has not taken the token. -/
theorem redeemed_once {hash : String → String} {w : Tasks ℕ TokenStore (Option RefreshRequest)}
    (hw : (TokenStore.system hash).Reach (RedeemsLive hash) w) :
    (∀ token, w.AtMostOne (Issues token)) ∧
      ∀ i, Fails (w.task i) → ∀ p ∈ w.shared.taken, p.2 ≠ i := by
  obtain ⟨hs, heach⟩ := redeems hw
  constructor
  · rintro token i j ⟨r, hr, rfl, reply, hphase⟩ ⟨r', hr', htoken, reply', hphase'⟩
    have hi := (heach i).taken r hr (by rw [hphase]; trivial)
    have hj := (heach j).taken r' hr' (by rw [hphase']; trivial)
    exact hs.once _ hi _ hj (congrArg hash htoken.symm)
  · rintro i ⟨r, hr, status, hphase⟩ p hp hpi
    obtain ⟨r', hr', hred⟩ := (heach i).redeeming p hp hpi
    rw [Option.mem_unique hr' hr, hphase] at hred
    exact hred

/-! ### Two requests

Alice has one token, and two requests present it. Tokens are their own hashes here. -/

/-- Alice's token is `t`. -/
def oneToken : TokenStore where
  db := Seed.devSeed
  refreshTokens := [⟨i64 1, Seed.alice, Seed.hub, "t", 1000, 0⟩]
  now := 10
  known := ["t"]
  taken := []

/-- What comes of a run of requests with one token. -/
def refreshRun (as : List (Tasks.Act ℕ RefreshAct Env)) :
    Tasks ℕ TokenStore (Option RefreshRequest) :=
  as.foldl (Tasks.next (run id) env) ⟨oneToken, fun _ => none⟩

theorem init_oneToken : Init ⟨oneToken, fun _ => none⟩ := by
  refine ⟨fun _ => rfl, rfl, ?_⟩
  decide

theorem reachable_refreshRun (as : List (Tasks.Act ℕ RefreshAct Env)) :
    (TokenStore.system id).Reachable (refreshRun as) :=
  Tasks.reachable_foldl init_oneToken as

/-- A request up to its `DELETE`. -/
def untilDelete (i : ℕ) : List (Tasks.Act ℕ RefreshAct Env) :=
  [.task i (.arrive "t"), .task i .next, .task i .next, .task i .next]

/-- The statements of a request from its `DELETE` on. -/
def fromDelete (i : ℕ) (id : I64) (raw : String) : List (Tasks.Act ℕ RefreshAct Env) :=
  [.task i .next, .task i .next, .task i (.insert id raw)]

/-- One request after the other. -/
def inTurn : List (Tasks.Act ℕ RefreshAct Env) :=
  untilDelete 0 ++ fromDelete 0 (i64 2) "u" ++ untilDelete 1

theorem redeemed_once_inTurn :
    Issues "t" ((refreshRun inTurn).task 0) ∧ Fails ((refreshRun inTurn).task 1) ∧
      (∀ token, (refreshRun inTurn).AtMostOne (Issues token)) ∧
      ∀ i, Fails ((refreshRun inTurn).task i) → ∀ p ∈ (refreshRun inTurn).shared.taken, p.2 ≠ i :=
  ⟨⟨_, rfl, rfl, _, rfl⟩, ⟨_, rfl, _, rfl⟩,
    redeemed_once (Tasks.reach_foldl init_oneToken (by decide))⟩

/-- **Two requests redeem one token**, which both have read before either deletes it; and a
request that fails has taken its token. -/
theorem redeemed_twice :
    (∃ w, (TokenStore.system id).Reachable w ∧ Issues "t" (w.task 0) ∧ Issues "t" (w.task 1)) ∧
    ∃ w, (TokenStore.system id).Reachable w ∧ Fails (w.task 0) ∧ ("t", 0) ∈ w.shared.taken :=
  ⟨⟨_, reachable_refreshRun
      (untilDelete 0 ++ untilDelete 1 ++ fromDelete 0 (i64 2) "u" ++ fromDelete 1 (i64 3) "v"),
      ⟨_, rfl, rfl, _, rfl⟩, ⟨_, rfl, rfl, _, rfl⟩⟩,
    ⟨_, reachable_refreshRun
      (untilDelete 0 ++ [.task 0 .next, .task 0 .next, .task 0 .fault]),
      ⟨_, rfl, _, rfl⟩, by decide⟩⟩

end Hub

end MateHub
