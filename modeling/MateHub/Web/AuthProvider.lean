import MateHub.Hub.Refresh
import MateHub.Lib.Dict

/-!
# The sessions of the web client

`AuthProvider` keeps the session of the user who is logged in. Every open page (a tab) has
a copy in its state, and all of them share one in the storage of the browser. A session has
a short-lived access token and a refresh token; a tab renews both when its timer fires,
when a request is answered with 401, and when it is opened with an access token that has
expired.

A renewal is a request to `refresh` of the hub service (`MateHub.Hub.TokenStore.refresh`),
whose statements run in between. What the reply leads to depends on who has asked for the
renewal, and on the session that the asking callback had in its closure, which need not be
the one the tab has now.

Of a session only what `AuthProvider` itself reads is kept, and an access token is what it
says.
-/

namespace MateHub

namespace Web

open Hub

/-! ### Sessions -/

/-- The type of a session. -/
inductive SessionType
  | permanent
  | temp
  deriving DecidableEq

/-- `AuthSession`, as it is stored. -/
structure AuthSession where
  type : SessionType
  token : Claims
  refreshToken : Option String
  expiresIn : Option ℤ
  /-- When the link of a guest expires. -/
  expiresAt : Option Time
  deriving DecidableEq

/-- `isJwtExpired()` -/
def isJwtExpired (now : Time) (token : Claims) : Bool := decide (token.exp ≠ 0 ∧ token.exp < now)

/-- `jwtSecondsLeft()` -/
def jwtSecondsLeft (now : Time) (token : Claims) : ℤ := max 0 (token.exp - now)

/-- The session after a renewal. -/
def AuthSession.updated (s : AuthSession) (data : RefreshResponse) : AuthSession :=
  { s with
    token := data.accessToken
    refreshToken := some data.refreshToken
    expiresIn := some data.expiresIn }

/-! ### Tabs -/

/-- The state of `AuthProvider` in an open page. -/
structure Tab where
  session : Option AuthSession
  isLoading : Bool
  sessionExpired : Bool
  /-- The timer of the next renewal: when it is due, and the session in its callback. -/
  timer : Option (Time × AuthSession)
  /-- The sessions that callbacks have in their closures: all that there have been. -/
  closures : List AuthSession
  deriving DecidableEq

namespace Tab

/-- A page that has just been opened. -/
def new : Tab where
  session := none
  isLoading := true
  sessionExpired := false
  timer := none
  closures := []

variable (tab : Tab)

/-- At 80% of the remaining time, and not within 30 seconds. -/
def scheduleRefresh (now : Time) (s : AuthSession) : Tab :=
  match s.refreshToken with
  | none => { tab with timer := none }
  | some _ => { tab with timer := some (now + max 30 (jwtSecondsLeft now s.token * 4 / 5), s) }

/-- `setSession` and `scheduleRefresh`. -/
def adopt (now : Time) (s : AuthSession) : Tab :=
  { tab with session := some s, closures := s :: tab.closures }.scheduleRefresh now s

end Tab

/-! ### The browser and the service -/

/-- Who asks for a renewal. -/
inductive Caller
  | timer
  | restore
  | unauthorized
  deriving DecidableEq

/-- A renewal under way. -/
structure Renewal where
  tab : ℕ
  caller : Caller
  session : AuthSession
  deriving DecidableEq

/-- The tabs of a browser, their storage, and the service. A renewal has the number of its
request. -/
structure Browser where
  hub : Tasks ℕ TokenStore (Option RefreshRequest)
  stored : Option AuthSession
  tabs : ℕ → Option Tab
  renewals : Dict ℕ Renewal

namespace Browser

variable (hash : String → String) (w : Browser)

/-- A tab is written. -/
def setTab (k : ℕ) (tab : Tab) : Browser :=
  { w with tabs := Function.update w.tabs k (some tab) }

/-- What a caller does with the result of `tryRefresh`; the last case also sends the page
to `/login`, as a timer that has failed does. -/
def settle (k : ℕ) (tab : Tab) (s : AuthSession) : Caller → Option AuthSession → Browser
  | .timer, some updated => w.setTab k (tab.adopt w.hub.shared.now updated)
  | .timer, none => { w with stored := none }.setTab k { tab with session := none }
  | .restore, some updated =>
    w.setTab k { tab.adopt w.hub.shared.now updated with isLoading := false }
  | .restore, none => { w with stored := none }.setTab k { tab with isLoading := false }
  | .unauthorized, some updated => w.setTab k (tab.adopt w.hub.shared.now updated)
  | .unauthorized, none =>
    if s.type = .temp then w.setTab k { tab with sessionExpired := true }
    else { w with stored := none }.setTab k { tab with timer := none, session := none }

/-- `tryRefresh` until its request is sent; the number of the request is a new one. -/
def tryRefresh (k : ℕ) (tab : Tab) (caller : Caller) (s : AuthSession) (i : ℕ) : Browser :=
  match s.refreshToken with
  | none => w.settle k tab s caller none
  | some token =>
    if w.renewals.lookup i = none ∧ w.hub.task i = none then
      { w.setTab k tab with
        renewals := w.renewals.insert i ⟨k, caller, s⟩
        hub := w.hub.set i { w.hub.shared with known := hash token :: w.hub.shared.known }
          (some ⟨token, .arrived⟩) }
    else w

/-- `restore`, on a page that is opened. -/
def restore (k i : ℕ) : Browser :=
  match w.tabs k, w.stored with
  | some _, _ => w
  | none, none => w.setTab k { Tab.new with isLoading := false }
  | none, some parsed =>
    if parsed.expiresAt.any fun e => decide (e < w.hub.shared.now) then
      { w with stored := none }.setTab k { Tab.new with isLoading := false }
    else if !isJwtExpired w.hub.shared.now parsed.token then
      w.setTab k { Tab.new.adopt w.hub.shared.now parsed with isLoading := false }
    else w.tryRefresh hash k Tab.new .restore parsed i

/-- A page is closed, and nobody waits for the replies to its requests any more. -/
def close (k : ℕ) : Browser :=
  { w with
    tabs := Function.update w.tabs k none
    renewals := w.renewals.retain fun _ r => decide (r.tab ≠ k) }

/-- The timer of a tab fires, once it is due. -/
def fire (k i : ℕ) : Browser :=
  match w.tabs k with
  | none => w
  | some tab =>
    match tab.timer with
    | none => w
    | some (due, s) =>
      if due ≤ w.hub.shared.now then w.tryRefresh hash k { tab with timer := none } .timer s i
      else w

/-- `handleUnauthorized`, called through the `n`-th of the closures. -/
def handleUnauthorized (k n i : ℕ) : Browser :=
  match w.tabs k with
  | none => w
  | some tab =>
    match tab.closures[n]? with
    | none => w
    | some s => w.tryRefresh hash k tab .unauthorized s i

/-- The reply to a request arrives, and its caller goes on. -/
def answer (i : ℕ) : Browser :=
  match w.renewals.lookup i, w.hub.task i with
  | some r, some req =>
    match w.tabs r.tab with
    | none => w
    | some tab =>
      match req.phase with
      | .issued data =>
        let updated := r.session.updated data
        { w with renewals := w.renewals.erase i, stored := some updated }.settle r.tab tab r.session
          r.caller (some updated)
      | .refused _ =>
        { w with renewals := w.renewals.erase i }.settle r.tab tab r.session r.caller none
      | _ => w
  | _, _ => w

/-- The service executes a statement of a request. -/
def serve (i : ℕ) (a : RefreshAct) : Browser :=
  match w.hub.task i with
  | none => w
  | some _ => { w with hub := Tasks.next (TokenStore.run hash) TokenStore.env w.hub (.task i a) }

/-- Who takes a step. -/
inductive Act
  | openTab (k i : ℕ)
  | closeTab (k : ℕ)
  | timer (k i : ℕ)
  /-- A request of a tab is answered with 401. -/
  | unauthorized (k n i : ℕ)
  | serve (i : ℕ) (a : RefreshAct)
  | answer (i : ℕ)
  /-- Time passes, or other requests write at the service. -/
  | env (e : TokenStore.Env)

/-- The browser after an act. -/
def next : Act → Browser
  | .openTab k i => w.restore hash k i
  | .closeTab k => w.close k
  | .timer k i => w.fire hash k i
  | .unauthorized k n i => w.handleUnauthorized hash k n i
  | .serve i a => w.serve hash i a
  | .answer i => w.answer i
  | .env e => { w with hub := Tasks.next (TokenStore.run hash) TokenStore.env w.hub (.env e) }

/-- A user is logged in, with a refresh token of the service: the session is in the storage,
and in tabs that have it from there or have logged in. -/
def LoggedIn : Prop :=
  ∃ s token, s.type = .permanent ∧ s.expiresAt = none ∧ s.refreshToken = some token ∧
    w.stored = some s ∧ w.hub.shared.accepts hash token = true ∧
    TokenStore.Init w.hub ∧ w.renewals = ∅ ∧
    ∀ k tab, w.tabs k = some tab →
      tab = { Tab.new.adopt w.hub.shared.now s with isLoading := false }

/-- A browser and the hub service, from a login on. -/
def system : System Browser Act where
  init := LoggedIn hash
  step := fun w a w' => w' = w.next hash a

end Browser

end Web

end MateHub
