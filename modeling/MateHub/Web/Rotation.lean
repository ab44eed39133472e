import MateHub.Web.AuthProvider

/-!
# Renewals that log nobody out

The service redeems a refresh token once, and a tab whose renewal is refused drops its
session and erases the stored one. So it must not happen that two renewals present one
token, or that one presents a token that has been replaced: but every tab has a copy of
the session of its own, and callbacks keep older ones (`MateHub.Web.logged_out`).

In the runs in which every request finds the row of its token
(`MateHub.Web.Browser.Rotates`), nobody is logged out, and when all requests are answered
the service accepts the stored token (`MateHub.Web.never_logged_out`). The invariant: of
all tokens that the browser has in any place, only the stored one may have a row, and it
has one unless a single renewal has taken it, whose reply replaces it.
-/

namespace MateHub

namespace Web

open Hub

open Chat (i64)

namespace Browser

variable (hash : String → String)

/-! ### The condition -/

/-- A statement of a request does its work: the row of the token is there when it is read,
and when it is deleted. -/
def redeemable (st : TokenStore) (token : String) : RefreshPhase → RefreshAct → Bool
  | .arrived, .next => st.accepts hash token
  | .arrived, .fault => false
  | .valid row, .next => (st.username? row.userId).isSome
  | .valid _, .fault => false
  | .granted _ _, .unsigned => false
  | phase, a => st.redeemsLive hash token phase a

/-- The token that a reply brings has not expired when it arrives. -/
def fresh (st : TokenStore) : RefreshPhase → Bool
  | .issued data => st.accepts hash data.refreshToken
  | _ => true

/-- **The condition on a step**: requests find the rows of their tokens, a page is not
closed while it waits for a reply, and the stored token does not expire. -/
def Rotates (w : Browser) : Act → Prop
  | .serve i a => ∀ r ∈ w.hub.task i, redeemable hash w.hub.shared r.refreshToken r.phase a = true
  | .closeTab k => ∀ r ∈ w.renewals.values, r.tab ≠ k
  | .answer i => ∀ r ∈ w.hub.task i, fresh hash w.hub.shared r.phase = true
  | .env (.tick d) => ∀ s ∈ w.stored, ∀ token ∈ s.refreshToken,
      w.hub.shared.accepts hash token = true →
        (TokenStore.env w.hub.shared (.tick d)).accepts hash token = true
  | _ => True

instance (w : Browser) : ∀ a, Decidable (Rotates hash w a)
  | .openTab _ _ => inferInstanceAs (Decidable True)
  | .closeTab k => inferInstanceAs (Decidable (∀ r ∈ w.renewals.values, r.tab ≠ k))
  | .timer _ _ => inferInstanceAs (Decidable True)
  | .unauthorized _ _ _ => inferInstanceAs (Decidable True)
  | .serve i a => inferInstanceAs (Decidable (∀ r ∈ w.hub.task i,
      redeemable hash w.hub.shared r.refreshToken r.phase a = true))
  | .answer i =>
    inferInstanceAs (Decidable (∀ r ∈ w.hub.task i, fresh hash w.hub.shared r.phase = true))
  | .env (.tick d) => inferInstanceAs (Decidable (∀ s ∈ w.stored, ∀ token ∈ s.refreshToken,
      w.hub.shared.accepts hash token = true →
        (TokenStore.env w.hub.shared (.tick d)).accepts hash token = true))
  | .env (.commit _) => inferInstanceAs (Decidable True)

variable {hash} {w : Browser}

/-! ### The statements of a request -/

/-- A request that is on its way to a new pair of tokens. -/
def Fine : RefreshPhase → Prop
  | .expired => False
  | .refused _ => False
  | _ => True

theorem redeemsLive_of_redeemable {st : TokenStore} {token : String} {phase : RefreshPhase}
    {a : RefreshAct} (h : redeemable hash st token phase a = true) :
    st.redeemsLive hash token phase a = true := by
  cases phase <;> cases a <;> first | exact h | rfl

/-- **A statement that does its work leads on.** -/
theorem fine_of_redeemable {st st' : TokenStore} {token : String} {phase phase' : RefreshPhase}
    {a : RefreshAct} (h : redeemable hash st token phase a = true) (hfine : Fine phase)
    (hstep : st.refresh hash token phase a = some (st', phase')) : Fine phase' := by
  have hthere {p : RefreshPhase} {st₁ : TokenStore} (heq : some (st₁, p) = some (st', phase'))
      (hp : Fine p) : Fine phase' := (Prod.mk.inj (Option.some.inj heq)).2 ▸ hp
  cases phase with
  | arrived =>
    cases a with
    | next =>
      obtain ⟨row, hrow, hle⟩ := (Option.any_eq_true _ _).mp h
      simp only [TokenStore.refresh, hrow] at hstep
      rw [if_neg (not_lt.mpr (of_decide_eq_true hle))] at hstep
      exact hthere hstep trivial
    | fault => cases h
    | _ => cases hstep
  | valid row =>
    cases a with
    | next =>
      obtain ⟨username, hname⟩ := Option.isSome_iff_exists.mp h
      simp only [TokenStore.refresh, hname] at hstep
      exact hthere hstep trivial
    | fault => cases h
    | _ => cases hstep
  | named row username => cases a <;> first | exact hthere hstep trivial | cases hstep
  | granted row claims =>
    cases a with
    | unsigned => cases h
    | next => exact hthere hstep trivial
    | fault => cases h
    | _ => cases hstep
  | deleted row claims =>
    cases a with
    | next => exact hthere hstep trivial
    | fault => cases h
    | _ => cases hstep
  | trimmed row claims expiresAt =>
    cases a with
    | insert id raw =>
      obtain ⟨st₁, hins⟩ := Option.isSome_iff_exists.mp h
      simp only [TokenStore.refresh, hins] at hstep
      split at hstep
      · cases hstep
      · exact hthere hstep trivial
    | fault => cases h
    | _ => cases hstep
  | expired => exact hfine.elim
  | issued data => cases a <;> cases hstep
  | refused status => exact hfine.elim

end Browser

/-! ### The sessions that the browser has -/

/-- A tab has a session somewhere. -/
def Tab.Has (tab : Tab) (s : AuthSession) : Prop :=
  tab.session = some s ∨ (∃ due, tab.timer = some (due, s)) ∨ s ∈ tab.closures

theorem Tab.has_adopt {tab : Tab} {now : Time} {s s' : AuthSession} (h : (tab.adopt now s).Has s') :
    s' = s ∨ tab.Has s' := by
  rw [adopt, scheduleRefresh] at h
  split at h <;> rcases h with h | ⟨due, h⟩ | h
  · exact .inl (Option.some.inj h).symm
  · cases h
  · exact (List.mem_cons.mp h).imp_right fun h => .inr (.inr h)
  · exact .inl (Option.some.inj h).symm
  · exact .inl (Prod.mk.inj (Option.some.inj h)).2.symm
  · exact (List.mem_cons.mp h).imp_right fun h => .inr (.inr h)

@[simp] theorem Tab.session_adopt {tab : Tab} {now : Time} {s : AuthSession} :
    (tab.adopt now s).session = some s := by
  rw [adopt, scheduleRefresh]
  split <;> rfl

theorem Tab.not_has_new {s : AuthSession} : ¬ Tab.new.Has s := by
  rintro (h | ⟨due, h⟩ | h) <;> cases h

namespace Browser

/-- The browser has a session somewhere. -/
def Has (w : Browser) (s : AuthSession) : Prop :=
  w.stored = some s ∨ (∃ k tab, w.tabs k = some tab ∧ tab.Has s) ∨
    ∃ i r, w.renewals.lookup i = some r ∧ r.session = s

/-- A renewal waits for the reply to its request. -/
def Awaits (w : Browser) (i : ℕ) (r : Renewal) (req : RefreshRequest) : Prop :=
  w.renewals.lookup i = some r ∧ w.hub.task i = some req

/-- A session has a token, which has been replaced if it is not the current one. -/
structure Usable (hash : String → String) (st : TokenStore) (cur : String) (s : AuthSession) :
    Prop where
  expiresAt : s.expiresAt = none
  token : ∃ t, s.refreshToken = some t ∧ hash t ∈ st.known ∧
    (t = cur ∨ st.refreshToken? (hash t) = none)

/-- **The invariant**, with the stored token. -/
structure Rotating (hash : String → String) (w : Browser) (cur : String) : Prop where
  hub : TokenStore.Redeems hash w.hub
  stored : ∃ s, w.stored = some s ∧ s.refreshToken = some cur
  has : ∀ s, w.Has s → Usable hash w.hub.shared cur s
  /-- No tab has dropped its session. -/
  tabs : ∀ k tab, w.tabs k = some tab → tab.isLoading = false → tab.session.isSome
  renewals : ∀ i r, w.renewals.lookup i = some r → (w.tabs r.tab).isSome ∧
    ∃ req, w.hub.task i = some req ∧ r.session.refreshToken = some req.refreshToken ∧ Fine req.phase
  settled : ∀ i req, w.hub.task i = some req → w.renewals.lookup i = none →
    ∃ data, req.phase = .issued data
  /-- Only the current token is being redeemed. -/
  redeeming : ∀ i r req, w.Awaits i r req → req.phase.Redeeming → req.refreshToken = cur
  issued : ∀ i r req data, w.Awaits i r req → req.phase = .issued data →
    (w.hub.shared.refreshToken? (hash data.refreshToken)).isSome
  /-- The current token is accepted, or it is being redeemed. -/
  current : w.hub.shared.accepts hash cur = true ∨ ∃ i r req, w.Awaits i r req ∧ req.phase.Redeeming

variable {hash : String → String} {w : Browser} {cur : String} {s : AuthSession} {tab : Tab}
  {i j k : ℕ} {r : Renewal} {req : RefreshRequest}

theorem Usable.mono {st st' : TokenStore} (h : Usable hash st cur s) (hknown : st.known ⊆ st'.known)
    (hgone : ∀ h ∈ st.known, st.refreshToken? h = none → st'.refreshToken? h = none) :
    Usable hash st' cur s := by
  obtain ⟨t, ht, hmem, hcur⟩ := h.token
  exact ⟨h.expiresAt, t, ht, hknown hmem, hcur.imp_right (hgone _ hmem)⟩

/-- At most one renewal is past the `DELETE`. -/
theorem Rotating.one (h : Rotating hash w cur) {r' : Renewal} {req' : RefreshRequest}
    (hi : w.Awaits i r req) (hj : w.Awaits j r' req') (hp : req.phase.Redeeming)
    (hp' : req'.phase.Redeeming) : i = j := by
  have htaken := (h.hub.each i).taken req hi.2 hp
  have htaken' := (h.hub.each j).taken req' hj.2 hp'
  rw [h.redeeming i r req hi hp] at htaken
  rw [h.redeeming j r' req' hj hp'] at htaken'
  exact h.hub.sound.once _ htaken _ htaken' rfl

/-- A token that is being redeemed has no row. -/
theorem Rotating.gone (h : Rotating hash w cur) (hi : w.Awaits i r req) (hp : req.phase.Redeeming) :
    w.hub.shared.refreshToken? (hash cur) = none := by
  have htaken := (h.hub.each i).taken req hi.2 hp
  rw [h.redeeming i r req hi hp] at htaken
  exact h.hub.sound.gone _ htaken

theorem tabs_setTab (w : Browser) (k : ℕ) (tab : Tab) (k' : ℕ) :
    (w.setTab k tab).tabs k' = if k' = k then some tab else w.tabs k' :=
  Function.update_apply ..

/-- The state of a tab changes. -/
theorem Rotating.setTab (h : Rotating hash w cur) (htab : ∀ s, tab.Has s → w.Has s)
    (hload : tab.isLoading = false → tab.session.isSome) : Rotating hash (w.setTab k tab) cur where
  hub := h.hub
  stored := h.stored
  has := by
    rintro s (hs | ⟨k', tab', htab', hs⟩ | hs)
    · exact h.has s (.inl hs)
    · rw [tabs_setTab] at htab'
      split at htab'
      · obtain rfl := Option.some.inj htab'
        exact h.has s (htab s hs)
      · exact h.has s (.inr (.inl ⟨k', tab', htab', hs⟩))
    · exact h.has s (.inr (.inr hs))
  tabs := by
    intro k' tab' htab'
    rw [tabs_setTab] at htab'
    split at htab'
    · obtain rfl := Option.some.inj htab'
      exact hload
    · exact h.tabs k' tab' htab'
  renewals := by
    intro i r hr
    obtain ⟨hopen, hreq⟩ := h.renewals i r hr
    refine ⟨?_, hreq⟩
    rw [tabs_setTab]
    split
    · rfl
    · exact hopen
  settled := h.settled
  redeeming := h.redeeming
  issued := h.issued
  current := h.current

/-- A request is sent. -/
theorem Rotating.send (h : Rotating hash w cur) (hopen : (w.tabs r.tab).isSome) {token : String}
    (hs : Usable hash w.hub.shared cur r.session) (htoken : r.session.refreshToken = some token)
    (hfree : w.renewals.lookup i = none) (hnone : w.hub.task i = none) :
    Rotating hash { w with
      renewals := w.renewals.insert i r
      hub := w.hub.set i { w.hub.shared with known := hash token :: w.hub.shared.known }
        (some ⟨token, .arrived⟩) } cur := by
  have hother {j : ℕ} {r : Renewal} {req : RefreshRequest} (hj : w.Awaits j r req) : j ≠ i := by
    rintro rfl
    rw [hj.1] at hfree
    cases hfree
  -- what waits for a reply now: the new request, and what did before
  have hawaits {j : ℕ} {r' : Renewal} {req : RefreshRequest}
      (hr : (w.renewals.insert i r).lookup j = some r')
      (hreq : (w.hub.set i { w.hub.shared with known := hash token :: w.hub.shared.known }
        (some ⟨token, .arrived⟩)).task j = some req) :
      (j = i ∧ req = ⟨token, .arrived⟩) ∨ w.Awaits j r' req := by
    rcases eq_or_ne j i with rfl | hne
    · rw [Tasks.task_set_self] at hreq
      exact .inl ⟨rfl, (Option.some.inj hreq).symm⟩
    · rw [Dict.lookup_insert_eq, if_neg hne] at hr
      rw [Tasks.task_set_of_ne hne] at hreq
      exact .inr ⟨hr, hreq⟩
  refine ⟨h.hub.arrive hnone, h.stored, ?_, h.tabs, ?_, ?_, ?_, ?_, ?_⟩
  · intro s hs'
    suffices husable : Usable hash w.hub.shared cur s from
      husable.mono (fun _ hx => List.mem_cons_of_mem _ hx) fun _ _ hgone => hgone
    rcases hs' with hs' | hs' | ⟨j, r', hr', rfl⟩
    · exact h.has s (.inl hs')
    · exact h.has s (.inr (.inl hs'))
    · rw [Dict.lookup_insert_eq] at hr'
      split at hr'
      · obtain rfl := Option.some.inj hr'
        exact hs
      · exact h.has _ (.inr (.inr ⟨j, r', hr', rfl⟩))
  · intro j r' hr'
    dsimp only at hr' ⊢
    rw [Dict.lookup_insert_eq] at hr'
    rcases eq_or_ne j i with rfl | hne
    · rw [if_pos rfl] at hr'
      obtain rfl := Option.some.inj hr'
      exact ⟨hopen, _, Tasks.task_set_self, htoken, trivial⟩
    · rw [if_neg hne] at hr'
      rw [Tasks.task_set_of_ne hne]
      exact h.renewals j r' hr'
  · intro j req hreq hr
    dsimp only at hreq hr
    rw [Dict.lookup_insert_eq] at hr
    rcases eq_or_ne j i with rfl | hne
    · rw [if_pos rfl] at hr
      cases hr
    · rw [if_neg hne] at hr
      rw [Tasks.task_set_of_ne hne] at hreq
      exact h.settled j req hreq hr
  · rintro j r' req ⟨hr, hreq⟩ hp
    rcases hawaits hr hreq with ⟨rfl, rfl⟩ | hj
    · exact hp.elim
    · exact h.redeeming j r' req hj hp
  · rintro j r' req data ⟨hr, hreq⟩ hp
    rcases hawaits hr hreq with ⟨rfl, rfl⟩ | hj
    · cases hp
    · exact h.issued j r' req data hj hp
  · refine h.current.imp_right ?_
    rintro ⟨j, r', req, hj, hp⟩
    refine ⟨j, r', req, ⟨?_, ?_⟩, hp⟩
    · dsimp only
      rw [Dict.lookup_insert_eq, if_neg (hother hj)]
      exact hj.1
    · dsimp only
      rw [Tasks.task_set_of_ne (hother hj)]
      exact hj.2

/-- **A renewal starts**, with a session that the browser has. -/
theorem Rotating.tryRefresh (h : Rotating hash w cur) {caller : Caller} (hs : w.Has s)
    (htab : ∀ s, tab.Has s → w.Has s) (hload : tab.isLoading = false → tab.session.isSome) :
    Rotating hash (w.tryRefresh hash k tab caller s i) cur := by
  obtain ⟨t, ht, -⟩ := (h.has s hs).token
  simp only [Browser.tryRefresh, ht]
  split
  · rename_i hnew
    have hset : Rotating hash (w.setTab k tab) cur := h.setTab htab hload
    refine hset.send (r := ⟨k, caller, s⟩) ?_ (h.has s hs) ht hnew.1 hnew.2
    rw [tabs_setTab, if_pos rfl]
    rfl
  · exact h

/-- A page is opened. -/
theorem Rotating.restore (h : Rotating hash w cur) : Rotating hash (w.restore hash k i) cur := by
  obtain ⟨s, hs, -⟩ := h.stored
  have hhas : w.Has s := .inl hs
  have hnew : ∀ s, Tab.new.Has s → w.Has s := fun _ h => (Tab.not_has_new h).elim
  rw [Browser.restore, hs]
  rcases w.tabs k with _ | tab
  · dsimp only
    rw [(h.has s hhas).expiresAt, Option.any_none, if_neg Bool.false_ne_true]
    split
    · refine h.setTab (fun s' hs' => ?_) fun _ => ?_
      · have hadopt : s' = s ∨ Tab.new.Has s' := Tab.has_adopt hs'
        rcases hadopt with rfl | hs'
        · exact hhas
        · exact hnew s' hs'
      · rw [show (Tab.new.adopt w.hub.shared.now s).session = some s from Tab.session_adopt]
        rfl
    · exact h.tryRefresh hhas hnew nofun
  · exact h

theorem Rotating.fire (h : Rotating hash w cur) : Rotating hash (w.fire hash k i) cur := by
  rw [Browser.fire]
  split
  · exact h
  · rename_i tab htab
    split
    · exact h
    · rename_i due s htimer
      split
      · refine h.tryRefresh (.inr (.inl ⟨k, tab, htab, .inr (.inl ⟨due, htimer⟩)⟩)) ?_
          (h.tabs k tab htab)
        rintro s' (hs' | ⟨_, ⟨⟩⟩ | hs')
        · exact .inr (.inl ⟨k, tab, htab, .inl hs'⟩)
        · exact .inr (.inl ⟨k, tab, htab, .inr (.inr hs')⟩)
      · exact h

theorem Rotating.handleUnauthorized {n : ℕ} (h : Rotating hash w cur) :
    Rotating hash (w.handleUnauthorized hash k n i) cur := by
  rw [Browser.handleUnauthorized]
  split
  · exact h
  · rename_i tab htab
    split
    · exact h
    · rename_i s hs
      exact h.tryRefresh (.inr (.inl ⟨k, tab, htab, .inr (.inr (List.mem_of_getElem? hs))⟩))
        (fun s' hs' => .inr (.inl ⟨k, tab, htab, hs'⟩)) (h.tabs k tab htab)

/-- A page is closed that waits for no reply. -/
theorem Rotating.close (h : Rotating hash w cur) (hidle : ∀ r ∈ w.renewals.values, r.tab ≠ k) :
    Rotating hash (w.close k) cur := by
  have hlookup (j : ℕ) : (w.close k).renewals.lookup j = w.renewals.lookup j := by
    rw [Browser.close, Dict.lookup_retain]
    rcases hj : w.renewals.lookup j with _ | r
    · rfl
    · rw [Option.filter_some, if_pos (decide_eq_true (hidle r (Dict.mem_values.mpr ⟨j, hj⟩)))]
  have htabs (k' : ℕ) : (w.close k).tabs k' = if k' = k then none else w.tabs k' :=
    Function.update_apply ..
  have hawaits {j : ℕ} {r : Renewal} {req : RefreshRequest} :
      (w.close k).Awaits j r req ↔ w.Awaits j r req := by
    rw [Awaits, hlookup]
    exact Iff.rfl
  refine ⟨h.hub, h.stored, ?_, ?_, ?_, ?_, ?_, ?_, ?_⟩
  · rintro s (hs | ⟨k', tab, htab, hs⟩ | ⟨j, r, hr, hs⟩)
    · exact h.has s (.inl hs)
    · rw [htabs] at htab
      split at htab
      · cases htab
      · exact h.has s (.inr (.inl ⟨k', tab, htab, hs⟩))
    · exact h.has s (.inr (.inr ⟨j, r, hlookup j ▸ hr, hs⟩))
  · intro k' tab htab
    rw [htabs] at htab
    split at htab
    · cases htab
    · exact h.tabs k' tab htab
  · intro j r hr
    rw [hlookup] at hr
    rw [htabs, if_neg (hidle r (Dict.mem_values.mpr ⟨j, hr⟩))]
    exact h.renewals j r hr
  · intro j req hreq hr
    exact h.settled j req hreq (hlookup j ▸ hr)
  · exact fun j r req hj => h.redeeming j r req (hawaits.mp hj)
  · exact fun j r req data hj => h.issued j r req data (hawaits.mp hj)
  · refine h.current.imp_right ?_
    rintro ⟨j, r, req, hj, hp⟩
    exact ⟨j, r, req, hawaits.mpr hj, hp⟩

/-! ### The service and its replies -/

/-- What a statement of a request has to leave. -/
structure Leaves (hash : String → String) (w : Browser) (cur : String) (i : ℕ)
    (req : RefreshRequest) (st : TokenStore) (phase : RefreshPhase) : Prop where
  fine : Fine phase
  known : w.hub.shared.known ⊆ st.known
  /-- The row of a known token does not come back. -/
  gone : ∀ h ∈ w.hub.shared.known, w.hub.shared.refreshToken? h = none → st.refreshToken? h = none
  redeeming : phase.Redeeming → req.refreshToken = cur
  issued : ∀ data, phase = .issued data → (st.refreshToken? (hash data.refreshToken)).isSome
  others : ∀ j r req data, j ≠ i → w.Awaits j r req → req.phase = .issued data →
    (st.refreshToken? (hash data.refreshToken)).isSome
  current : phase.Redeeming ∨ ¬ req.phase.Redeeming ∧
    (w.hub.shared.accepts hash cur = true → st.accepts hash cur = true)

theorem Rotating.advance (h : Rotating hash w cur) {st : TokenStore} {phase : RefreshPhase}
    (hi : w.Awaits i r req) (hl : Leaves hash w cur i req st phase)
    (hub : TokenStore.Redeems hash (w.hub.set i st (some { req with phase := phase }))) :
    Rotating hash { w with hub := w.hub.set i st (some { req with phase := phase }) } cur := by
  have hawaits {j : ℕ} {r' : Renewal} {req' : RefreshRequest} (hr : w.renewals.lookup j = some r')
      (hreq : (w.hub.set i st (some { req with phase := phase })).task j = some req') :
      (j = i ∧ req' = { req with phase := phase }) ∨ j ≠ i ∧ w.Awaits j r' req' := by
    rcases eq_or_ne j i with rfl | hne
    · rw [Tasks.task_set_self] at hreq
      exact .inl ⟨rfl, (Option.some.inj hreq).symm⟩
    · rw [Tasks.task_set_of_ne hne] at hreq
      exact .inr ⟨hne, hr, hreq⟩
  refine ⟨hub, h.stored, fun s hs => (h.has s hs).mono hl.known hl.gone, h.tabs, ?_, ?_, ?_, ?_, ?_⟩
  · intro j r' hr'
    obtain ⟨hopen, req', hreq', htoken, hfine⟩ := h.renewals j r' hr'
    refine ⟨hopen, ?_⟩
    dsimp only
    rcases eq_or_ne j i with rfl | hne
    · obtain rfl := Option.some.inj (hreq'.symm.trans hi.2)
      exact ⟨_, Tasks.task_set_self, htoken, hl.fine⟩
    · rw [Tasks.task_set_of_ne hne]
      exact ⟨req', hreq', htoken, hfine⟩
  · intro j req' hreq' hr'
    rcases eq_or_ne j i with rfl | hne
    · rw [hi.1] at hr'
      cases hr'
    · dsimp only at hreq'
      rw [Tasks.task_set_of_ne hne] at hreq'
      exact h.settled j req' hreq' hr'
  · rintro j r' req' ⟨hr', hreq'⟩ hp
    rcases hawaits hr' hreq' with ⟨rfl, rfl⟩ | ⟨-, hj⟩
    · exact hl.redeeming hp
    · exact h.redeeming j r' req' hj hp
  · rintro j r' req' data ⟨hr', hreq'⟩ hp
    rcases hawaits hr' hreq' with ⟨rfl, rfl⟩ | ⟨hne, hj⟩
    · exact hl.issued data hp
    · exact hl.others j r' req' data hne hj hp
  · rcases hl.current with hp | ⟨hnot, hacc⟩
    · exact .inr ⟨i, r, _, ⟨hi.1, Tasks.task_set_self⟩, hp⟩
    · refine h.current.imp hacc ?_
      rintro ⟨j, r', req', hj, hp⟩
      have hne : j ≠ i := by
        rintro rfl
        obtain rfl := Option.some.inj (hj.2.symm.trans hi.2)
        exact hnot hp
      exact ⟨j, r', req', ⟨hj.1, (Tasks.task_set_of_ne hne).trans hj.2⟩, hp⟩

/-- The token of a request that has a row is the current one. -/
theorem Rotating.eq_current (h : Rotating hash w cur) (hi : w.Awaits i r req)
    (hrow : (w.hub.shared.refreshToken? (hash req.refreshToken)).isSome) :
    req.refreshToken = cur := by
  obtain ⟨-, req', hreq', htoken, -⟩ := h.renewals i r hi.1
  obtain rfl := Option.some.inj (hreq'.symm.trans hi.2)
  obtain ⟨t, ht, -, hcur⟩ := (h.has r.session (.inr (.inr ⟨i, r, hi.1, rfl⟩))).token
  obtain rfl := Option.some.inj (htoken.symm.trans ht)
  refine hcur.resolve_right fun hnone => ?_
  rw [hnone] at hrow
  cases hrow

/-- **What a statement leaves.** -/
theorem Rotating.leaves (h : Rotating hash w cur) (hi : w.Awaits i r req) {st : TokenStore}
    {phase : RefreshPhase} (hfine : Fine phase)
    (hdoes : TokenStore.Does hash w.hub.shared req.refreshToken req.phase st phase) :
    Leaves hash w cur i req (w.hub.shared.note hash i req st) phase := by
  -- while a request is past the `DELETE`, nobody else waits for a new token
  have hothers (hp : req.phase.Redeeming) {j : ℕ} {r' : Renewal} {req' : RefreshRequest}
      {data : RefreshResponse} (hne : j ≠ i) (hj : w.Awaits j r' req')
      (hissued : req'.phase = .issued data) : False :=
    hne (h.one hj hi (hissued ▸ trivial) hp)
  have hgone (hp : req.phase.Redeeming) :
      w.hub.shared.refreshToken? (hash req.refreshToken) = none := by
    rw [h.redeeming i r req hi hp]
    exact h.gone hi hp
  generalize hphase : req.phase = phase₀ at hdoes
  cases hdoes with
  | reads hp hp' =>
    rw [TokenStore.note_self]
    refine ⟨hfine, fun _ hx => hx, fun _ _ hn => hn, fun hp => absurd hp hp', ?_, ?_,
      .inr ⟨hphase ▸ hp, fun hacc => hacc⟩⟩
    · rintro data rfl
      exact absurd trivial hp'
    · exact fun j r' req' data _ hj hissued => h.issued j r' req' data hj hissued
  | expires hp' =>
    obtain ⟨-, req', hreq', -, hfine'⟩ := h.renewals i r hi.1
    obtain rfl := Option.some.inj (hreq'.symm.trans hi.2)
    rw [hphase] at hfine'
    exact hfine'.elim
  | takes hrow =>
    have hcur := h.eq_current hi hrow
    rw [TokenStore.note_take (by rw [hphase]; nofun) hrow]
    refine ⟨hfine, fun _ hx => hx, fun x _ hn => ?_, fun _ => hcur, by rintro _ ⟨⟩, ?_,
      .inl trivial⟩
    · exact TokenStore.refreshToken?_eq_none.mpr fun row hmem =>
        TokenStore.refreshToken?_eq_none.mp hn row (Table.mem_delete.mp hmem).1
    · intro j r' req' data _ hj hissued
      have hp' : req'.phase.Redeeming := hissued ▸ trivial
      rw [hcur, h.gone hj hp'] at hrow
      cases hrow
  | @trims row claims =>
    have hp : req.phase.Redeeming := hphase ▸ trivial
    rw [TokenStore.note_of_none (hgone hp)]
    refine ⟨hfine, fun _ hx => hx, fun x _ hn => ?_, fun _ => h.redeeming i r req hi hp,
      by rintro _ ⟨⟩, fun j r' req' data hne hj hissued => (hothers hp hne hj hissued).elim,
      .inl trivial⟩
    exact TokenStore.refreshToken?_eq_none.mpr fun row hmem =>
      TokenStore.refreshToken?_eq_none.mp hn row (Table.mem_delete.mp hmem).1
  | @issues row claims expiresAt id raw st₁ hfresh hins =>
    have hp : req.phase.Redeeming := hphase ▸ trivial
    obtain ⟨hknown, -, hrows⟩ := TokenStore.insertToken_eq_some hins
    rw [TokenStore.note_of_none (hgone hp)]
    refine ⟨hfine, fun _ hx => List.mem_cons_of_mem _ (hknown ▸ hx), fun x hx hn => ?_,
      fun _ => h.redeeming i r req hi hp, ?_,
      fun j r' req' data hne hj hissued => (hothers hp hne hj hissued).elim, .inl trivial⟩
    · rw [TokenStore.refreshToken?_eq_none]
      intro row' hmem heq
      rcases (hrows row').mp hmem with rfl | hmem
      · rw [show hash raw = x from heq] at hfresh
        exact hfresh hx
      · exact TokenStore.refreshToken?_eq_none.mp hn row' hmem heq
    · rintro data ⟨⟩
      rw [Option.isSome_iff_ne_none, ne_eq, TokenStore.refreshToken?_eq_none]
      exact fun hn => hn _ ((hrows _).mpr (.inl rfl)) rfl

/-- **A request executes a statement.** -/
theorem Rotating.serve (h : Rotating hash w cur) {a : RefreshAct}
    (hok : ∀ req ∈ w.hub.task i,
      redeemable hash w.hub.shared req.refreshToken req.phase a = true) :
    Rotating hash (w.serve hash i a) cur := by
  rw [Browser.serve]
  split
  · exact h
  rename_i req hreq
  rw [Tasks.next, hreq]
  split
  · exact h
  rename_i st t hrun
  obtain ⟨⟨st', phase'⟩, hstep, heq⟩ := Option.map_eq_some_iff.mp hrun
  obtain ⟨rfl, rfl⟩ := Prod.mk.inj heq
  have hred := hok req hreq
  have hdoes := TokenStore.does_of_refresh hstep (redeemsLive_of_redeemable hred)
  rcases hr : w.renewals.lookup i with _ | r
  · obtain ⟨data, hissued⟩ := h.settled i req hreq hr
    rw [hissued] at hstep
    cases a <;> cases hstep
  · obtain ⟨-, req', hreq', -, hfine⟩ := h.renewals i r hr
    obtain rfl := Option.some.inj (hreq'.symm.trans hreq)
    exact h.advance ⟨hr, hreq⟩ (h.leaves ⟨hr, hreq⟩ (fine_of_redeemable hred hfine hstep) hdoes)
      (h.hub.step hreq hdoes)

/-- The new session replaces the stored one. -/
theorem Rotating.store (h : Rotating hash w cur) (hi : w.Awaits i r req) {data : RefreshResponse}
    (hissued : req.phase = .issued data)
    (hacc : w.hub.shared.accepts hash data.refreshToken = true) :
    Rotating hash { w with
      renewals := w.renewals.erase i
      stored := some (r.session.updated data) } data.refreshToken := by
  have hp : req.phase.Redeeming := hissued ▸ trivial
  have hmem : hash data.refreshToken ∈ w.hub.shared.known :=
    TokenStore.mem_known_of_row h.hub.sound.rows (h.issued i r req data hi hissued)
  have hold {s : AuthSession} (hs : w.Has s) :
      Usable hash w.hub.shared data.refreshToken s := by
    obtain ⟨hexp, t, ht, hknown, hcur⟩ := h.has s hs
    refine ⟨hexp, t, ht, hknown, .inr ?_⟩
    rcases hcur with rfl | hnone
    · exact h.gone hi hp
    · exact hnone
  have herase {j : ℕ} {r' : Renewal} (hr : (w.renewals.erase i).lookup j = some r') :
      j ≠ i ∧ w.renewals.lookup j = some r' := by
    rw [Dict.lookup_erase_eq] at hr
    split at hr
    · cases hr
    · exact ⟨by assumption, hr⟩
  refine ⟨h.hub, ⟨_, rfl, rfl⟩, ?_, h.tabs, ?_, ?_, ?_, ?_, .inl hacc⟩
  · rintro s (hs | hs | ⟨j, r', hr', rfl⟩)
    · obtain rfl := Option.some.inj hs
      exact ⟨(h.has r.session (.inr (.inr ⟨i, r, hi.1, rfl⟩))).expiresAt, _, rfl, hmem, .inl rfl⟩
    · exact hold (.inr (.inl hs))
    · exact hold (.inr (.inr ⟨j, r', (herase hr').2, rfl⟩))
  · exact fun j r' hr' => h.renewals j r' (herase hr').2
  · intro j req' hreq' hr'
    rcases eq_or_ne j i with rfl | hne
    · obtain rfl := Option.some.inj (hreq'.symm.trans hi.2)
      exact ⟨data, hissued⟩
    · dsimp only at hr'
      rw [Dict.lookup_erase_eq, if_neg hne] at hr'
      exact h.settled j req' hreq' hr'
  · rintro j r' req' ⟨hr', hreq'⟩ hp'
    obtain ⟨hne, hr'⟩ := herase hr'
    exact absurd (h.one ⟨hr', hreq'⟩ hi hp' hp) hne
  · rintro j r' req' data' ⟨hr', hreq'⟩ hissued'
    exact h.issued j r' req' data' ⟨(herase hr').2, hreq'⟩ hissued'

/-- **The reply to a request arrives.** -/
theorem Rotating.answer (h : Rotating hash w cur)
    (hok : ∀ req ∈ w.hub.task i, fresh hash w.hub.shared req.phase = true) :
    ∃ cur', Rotating hash (w.answer i) cur' := by
  rw [Browser.answer]
  split
  · rename_i r req hr hreq
    obtain ⟨hopen, req', hreq', -, hfine⟩ := h.renewals i r hr
    obtain rfl := Option.some.inj (hreq'.symm.trans hreq)
    obtain ⟨tab, htab⟩ := Option.isSome_iff_exists.mp hopen
    rw [htab]
    dsimp only
    split
    · rename_i data hissued
      have hacc := hok req' hreq
      rw [hissued] at hacc
      have hs := h.store ⟨hr, hreq⟩ hissued hacc
      refine ⟨data.refreshToken, ?_⟩
      -- whoever has asked adopts the new session
      have hadopt {tab' : Tab} (hhas : ∀ s, tab'.Has s → s = r.session.updated data ∨ tab.Has s)
          (hload : tab'.isLoading = false → tab'.session.isSome) :=
        hs.setTab (k := r.tab) (fun s hs' => by
          rcases hhas s hs' with rfl | hs'
          · exact .inl rfl
          · exact .inr (.inl ⟨r.tab, tab, htab, hs'⟩)) hload
      cases r.caller with
      | timer => exact hadopt (fun s => Tab.has_adopt) fun _ => by rw [Tab.session_adopt]; rfl
      | restore => exact hadopt (fun s => Tab.has_adopt) fun _ => by rw [Tab.session_adopt]; rfl
      | unauthorized =>
        exact hadopt (fun s => Tab.has_adopt) fun _ => by rw [Tab.session_adopt]; rfl
    · rename_i status hrefused
      rw [hrefused] at hfine
      exact hfine.elim
    · exact ⟨cur, h⟩
  · exact ⟨cur, h⟩

/-- Time passes, or other requests write. -/
theorem Rotating.env (h : Rotating hash w cur) {e : TokenStore.Env}
    (hok : w.hub.shared.accepts hash cur = true →
      (TokenStore.env w.hub.shared e).accepts hash cur = true) :
    Rotating hash { w with hub := Tasks.next (TokenStore.run hash) TokenStore.env w.hub (.env e) }
      cur := by
  have hhas {s : AuthSession} (hs : w.Has s) :
      Usable hash (TokenStore.env w.hub.shared e) cur s := by
    refine (h.has s hs).mono ?_ ?_ <;> cases e
    · exact fun _ hx => hx
    · exact fun _ hx => hx
    · exact fun _ _ hn => hn
    · exact fun _ _ hn => hn
  refine ⟨h.hub.env e, h.stored, fun s hs => hhas hs, h.tabs, h.renewals, h.settled, h.redeeming,
    ?_, h.current.imp_left hok⟩
  intro j r' req' data hj hissued
  cases e <;> exact h.issued j r' req' data hj hissued

/-- **Every step that meets the condition keeps the invariant.** -/
theorem Rotating.next (h : Rotating hash w cur) {a : Act} (hok : Rotates hash w a) :
    ∃ cur', Rotating hash (w.next hash a) cur' := by
  cases a with
  | openTab k i => exact ⟨cur, h.restore⟩
  | closeTab k => exact ⟨cur, h.close hok⟩
  | timer k i => exact ⟨cur, h.fire⟩
  | unauthorized k n i => exact ⟨cur, h.handleUnauthorized⟩
  | serve i a => exact ⟨cur, h.serve hok⟩
  | answer i => exact h.answer hok
  | env e =>
    cases e with
    | tick d =>
      obtain ⟨s, hs, hcur⟩ := h.stored
      exact ⟨cur, h.env (hok s hs cur hcur)⟩
    | commit db => exact ⟨cur, h.env fun hacc => hacc⟩

theorem Rotating.init (h : LoggedIn hash w) : ∃ cur, Rotating hash w cur := by
  obtain ⟨s, token, -, hexp, htoken, hstored, hacc, hinit, hnone, htabs⟩ := h
  have hlookup (i : ℕ) (r : Renewal) : w.renewals.lookup i ≠ some r := by
    rw [hnone]
    nofun
  have hsession {s' : AuthSession} (hs : w.Has s') : s' = s := by
    rcases hs with hs | ⟨k, tab, htab, hs⟩ | ⟨i, r, hr, -⟩
    · exact Option.some.inj (hs.symm.trans hstored)
    · rw [htabs k tab htab] at hs
      have hadopt : s' = s ∨ Tab.new.Has s' := Tab.has_adopt hs
      exact hadopt.resolve_right Tab.not_has_new
    · exact absurd hr (hlookup i r)
  refine ⟨token, .init hinit, ⟨s, hstored, htoken⟩, ?_, ?_, ?_, ?_, ?_, ?_, .inl hacc⟩
  · intro s' hs
    obtain ⟨row, hrow, -⟩ := (Option.any_eq_true _ _).mp hacc
    have hmem := TokenStore.mem_known_of_row hinit.2.2 (Option.isSome_of_mem hrow)
    exact ⟨hsession hs ▸ hexp, token, hsession hs ▸ htoken, hmem, .inl rfl⟩
  · intro k tab htab _
    rw [htabs k tab htab]
    show (Tab.new.adopt w.hub.shared.now s).session.isSome = true
    rw [Tab.session_adopt]
    rfl
  · exact fun i r hr => absurd hr (hlookup i r)
  · intro i req hreq
    rw [hinit.1 i] at hreq
    cases hreq
  · exact fun i r req hi => absurd hi.1 (hlookup i r)
  · exact fun i r req data hi => absurd hi.1 (hlookup i r)

end Browser

open Browser

variable {hash : String → String}

/-- **Renewals log nobody out.** In every run whose requests find the rows of their tokens,
the stored session is not erased, no tab drops its session, and when no reply is
outstanding the service accepts the stored token. -/
theorem never_logged_out {w : Browser} (hw : (Browser.system hash).Reach (Rotates hash) w) :
    w.stored.isSome ∧ (∀ k tab, w.tabs k = some tab → tab.isLoading = false → tab.session.isSome) ∧
      (w.renewals = ∅ → ∃ s ∈ w.stored, ∃ token ∈ s.refreshToken,
        w.hub.shared.accepts hash token = true) := by
  obtain ⟨cur, h⟩ : ∃ cur, Rotating hash w cur := by
    refine System.Reach.invariant (I := fun w => ∃ cur, Rotating hash w cur)
      (fun w hinit => Rotating.init hinit) ?_ hw
    rintro w a w' ⟨cur, h⟩ hok hstep
    obtain rfl : w' = w.next hash a := hstep
    exact h.next hok
  obtain ⟨s, hs, hcur⟩ := h.stored
  refine ⟨hs ▸ rfl, h.tabs, fun hnone => ⟨s, hs, cur, hcur, ?_⟩⟩
  refine h.current.resolve_right ?_
  rintro ⟨i, r, req, ⟨hr, -⟩, -⟩
  rw [hnone] at hr
  cases hr

/-! ### Alice

Alice has logged in in one tab. Tokens are their own hashes here. -/

/-- The session of Alice, who is logged in. -/
def aliceSession : AuthSession where
  type := .permanent
  token := ⟨Seed.alice, "alice", .permanent, Seed.hub, [], 10, 1810⟩
  refreshToken := some "t"
  expiresIn := some accessTokenTtlSecs
  expiresAt := none

/-- Her browser, and the hub service. -/
def aliceBrowser : Browser where
  hub := ⟨{ oneToken with
    refreshTokens := [⟨i64 1, Seed.alice, Seed.hub, "t", 10 + refreshTokenTtlSecs, 10⟩] },
    fun _ => none⟩
  stored := some aliceSession
  tabs := fun k =>
    if k = 0 then some { Tab.new.adopt 10 aliceSession with isLoading := false } else none
  renewals := ∅

theorem loggedIn_alice : LoggedIn id aliceBrowser := by
  refine ⟨aliceSession, "t", rfl, rfl, rfl, rfl, by decide, ⟨fun _ => rfl, rfl, by decide⟩, rfl, ?_⟩
  intro k tab htab
  dsimp only [aliceBrowser] at htab
  split at htab
  · exact (Option.some.inj htab).symm
  · cases htab

/-- What comes of a run in her browser. -/
def aliceRun (as : List Act) : Browser := as.foldl (Browser.next id) aliceBrowser

/-- The service handles a request to its end. -/
def served (i : ℕ) (id : Chat.I64) (raw : String) : List Act :=
  [.serve i .next, .serve i .next, .serve i .next, .serve i .next, .serve i .next,
    .serve i (.insert id raw)]

/-- The timer fires, the reply comes, and a second tab is opened. -/
def renewed : List Act :=
  [.env (.tick 1500), .timer 0 0] ++ served 0 (i64 2) "u" ++ [.answer 0, .openTab 1 1]

theorem never_logged_out_renewed :
    (aliceRun renewed).stored.isSome ∧
      (∀ k tab, (aliceRun renewed).tabs k = some tab → tab.isLoading = false →
        tab.session.isSome) ∧
      ((aliceRun renewed).renewals = ∅ → ∃ s ∈ (aliceRun renewed).stored, ∃ token ∈ s.refreshToken,
        (aliceRun renewed).hub.shared.accepts id token = true) :=
  never_logged_out (System.Reach.foldl (M := Browser.system id) (fun _ _ => rfl)
    (.start loggedIn_alice) (by decide))

/-- **Two requests that are answered with 401 log Alice out**: both renew with the token `t`,
the first one succeeds, and the second one, which the service refuses, drops the session and
erases what the first one has stored. -/
theorem logged_out : ∃ w, (Browser.system id).Reachable w ∧ w.renewals = ∅ ∧ w.stored = none ∧
    ∃ tab, w.tabs 0 = some tab ∧ tab.isLoading = false ∧ tab.session = none :=
  ⟨aliceRun ([.unauthorized 0 0 0, .unauthorized 0 0 1] ++ served 0 (i64 2) "u" ++
      [.serve 1 .next, .answer 0, .answer 1]),
    System.reachable_foldl (M := Browser.system id) loggedIn_alice (fun _ _ => rfl) _,
    rfl, by decide, _, rfl, rfl, rfl⟩

end Web

end MateHub
