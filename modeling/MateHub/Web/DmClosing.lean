import MateHub.Web.DmCall

/-!
# What there is of one call

A call is followed here by itself: the requests about it, the events, and the users at whom it
rings or who take part in it. Of its start, the invitation, the ringing and the taking part of
the invited user there is at most one, each becoming the next; and a closing request finds
nothing of the call with its sender, and takes away what there is of it with the other user
(`MateHub.Web.CallView.Closes`). Each lemma is about one kind of change.
-/

namespace MateHub

namespace Web

/-! ### The call and its invariant -/

/-- What there is of one call. -/
structure CallView where
  requests : List CallRequest
  served : List CallRequest
  queue : ℕ → List CallEvent
  rings : ℕ → Bool
  talks : ℕ → Bool

namespace CallView

variable (call : Call) (v : CallView)

/-- The requests under way that start a call. -/
def starts : ℕ := v.requests.countP fun r => !r.closes

/-- The invitations that are on their way to a user. -/
def invitations (u : ℕ) : ℕ := (v.queue u).countP fun e => !e.closes

/-- How often the call is there for a user, on its way or with it. -/
def tokens (u : ℕ) : ℕ := v.starts + v.invitations u + (v.rings u).toNat + (v.talks u).toNat

/-- The closing requests, on their way or served. -/
def closings : List CallRequest := (v.requests ++ v.served).filter CallRequest.closes

/-- The call rings at a user, or will. -/
def Ringing (u : ℕ) : Prop := v.rings u = true ∨ u ≠ call.inviter ∧ 0 < v.invitations u

/-- The call is with a user, or will be. -/
def Stands (u : ℕ) : Prop := v.talks u = true ∨ v.Ringing call u

/-- **The invariant of a call.** -/
structure Closes : Prop where
  once : ∀ u, u ≠ call.inviter → v.tokens u ≤ 1
  closed : v.closings.length ≤ 1
  unstarted : ∀ r ∈ v.closings, v.starts = 0
  /-- The user who closes a call has left it. -/
  gone : ∀ r ∈ v.closings, ¬ v.Stands call r.sub
  /-- The event finds what it takes away. -/
  fits : ∀ r ∈ v.closings, ∀ u, u ≠ r.sub →
    if r.path = .cancel then v.talks u = false else ¬ v.Ringing call u
  /-- The event comes, if there is something left. -/
  comes : ∀ r ∈ v.closings, ∀ u, u ≠ r.sub → v.Stands call u →
    r ∈ v.requests ∨ r.event ∈ v.queue u
  order : ∀ u, (v.queue u).Pairwise fun e e' => e.closes = true → e'.closes = true
  echo : ∀ u, ∀ e ∈ v.queue u, e.closes = true → ∃ r ∈ v.served, r.event = e

variable {call : Call} {v v' : CallView} {u : ℕ} {r : CallRequest} {e : CallEvent}

theorem mem_closings : r ∈ v.closings ↔ (r ∈ v.requests ∨ r ∈ v.served) ∧ r.closes = true := by
  rw [closings, List.mem_filter, List.mem_append]

theorem closes_event (r : CallRequest) : r.event.closes = r.closes := by
  rcases r with ⟨sub, call, _ | reason | _ | secs, phase⟩ <;> rfl

theorem invitations_pos : 0 < v.invitations u ↔ ∃ e ∈ v.queue u, e.closes = false := by
  rw [invitations, List.countP_pos_iff]
  simp

theorem starts_pos : 0 < v.starts ↔ ∃ r ∈ v.requests, r.closes = false := by
  rw [starts, List.countP_pos_iff]
  simp

theorem toNat_le {a b : Bool} (h : a = true → b = true) : a.toNat ≤ b.toNat := by
  rcases a with _ | _
  · exact Nat.zero_le _
  · exact Nat.le_of_eq (congrArg Bool.toNat (h rfl).symm)

/-- A closing request in one place is not in another. -/
theorem Closes.eq_of_mem (h : v.Closes call) {r' : CallRequest} (hr : r ∈ v.closings)
    (hr' : r' ∈ v.closings) : r = r' := by
  have hlen := h.closed
  rcases hc : v.closings with _ | ⟨x, _ | ⟨y, l⟩⟩
  · rw [hc] at hr
    exact absurd hr (List.not_mem_nil)
  · rw [hc] at hr hr'
    rw [List.mem_singleton.mp hr, List.mem_singleton.mp hr']
  · rw [hc] at hlen
    simp at hlen

theorem Closes.not_served (h : v.Closes call) (hr : r ∈ v.requests) (hcloses : r.closes = true) :
    r ∉ v.served := by
  intro hserved
  obtain ⟨l₁, l₂, heq⟩ := List.append_of_mem hr
  obtain ⟨m₁, m₂, heq'⟩ := List.append_of_mem hserved
  have hlen := h.closed
  rw [closings, heq, heq'] at hlen
  simp [List.filter_append, hcloses] at hlen
  omega

/-- **What takes nothing but the call away** keeps the invariant, if it leaves the event that a
closing request brings to a user, or nothing of the call with the user. -/
theorem Closes.forget (h : v.Closes call) (hreq : v'.requests = v.requests)
    (hserved : v'.served = v.served) (hqueue : ∀ u, (v'.queue u).Sublist (v.queue u))
    (hrings : ∀ u, v'.rings u = true → v.Ringing call u)
    (htalks : ∀ u, v'.talks u = true → v.talks u = true)
    (htokens : ∀ u, u ≠ call.inviter → v'.tokens u ≤ v.tokens u)
    (hcomes : ∀ r ∈ v.closings, ∀ u, u ≠ r.sub → v'.Stands call u → r.event ∈ v.queue u →
      r.event ∈ v'.queue u) : v'.Closes call := by
  have hclosings : v'.closings = v.closings := by rw [closings, closings, hreq, hserved]
  have hstarts : v'.starts = v.starts := by rw [starts, starts, hreq]
  have hringing : ∀ u, v'.Ringing call u → v.Ringing call u := fun u hu => by
    rcases hu with hu | ⟨hne, hu⟩
    · exact hrings u hu
    · exact .inr ⟨hne, Nat.lt_of_lt_of_le hu ((hqueue u).countP_le)⟩
  have hstands : ∀ u, v'.Stands call u → v.Stands call u :=
    fun u hu => hu.imp (htalks u) (hringing u)
  constructor
  case once => exact fun u hu => Nat.le_trans (htokens u hu) (h.once u hu)
  case closed => rw [hclosings]; exact h.closed
  case unstarted => rw [hclosings, hstarts]; exact h.unstarted
  case gone =>
    rw [hclosings]
    exact fun r hr hu => h.gone r hr (hstands _ hu)
  case fits =>
    rw [hclosings]
    intro r hr u hu
    have hfits := h.fits r hr u hu
    split_ifs at hfits ⊢
    · rw [Bool.eq_false_iff] at hfits ⊢
      exact fun ht => hfits (htalks u ht)
    · exact fun hr => hfits (hringing u hr)
  case comes =>
    rw [hclosings, hreq]
    intro r hr u hu hs
    exact (h.comes r hr u hu (hstands u hs)).imp_right (hcomes r hr u hu hs)
  case order => exact fun u => (h.order u).sublist (hqueue u)
  case echo =>
    rw [hserved]
    exact fun u e he => h.echo u e ((hqueue u).subset he)

/-- What leaves the requests and the events as they are. -/
theorem Closes.leave (h : v.Closes call) (hreq : v'.requests = v.requests)
    (hserved : v'.served = v.served) (hqueue : v'.queue = v.queue)
    (hrings : ∀ u, v'.rings u = true → v.rings u = true)
    (htalks : ∀ u, v'.talks u = true → v.talks u = true) : v'.Closes call := by
  refine h.forget hreq hserved (fun u => hqueue ▸ List.Sublist.refl _)
    (fun u hu => .inl (hrings u hu)) htalks (fun u _ => ?_) fun r _ u _ _ hr => by rwa [hqueue]
  have h₁ := toNat_le (hrings u)
  have h₂ := toNat_le (htalks u)
  rw [tokens, tokens, starts, starts, invitations, invitations, hreq, hqueue]
  omega

/-- A user has closed the call who had it, and to whom the other was not closing it. -/
theorem Closes.closings_eq_nil (h : v.Closes call) (hu : v.Stands call u)
    (hreq : ∀ r ∈ v.requests, r.closes = true → r.sub = u)
    (hevent : ∀ e ∈ v.queue u, e.closes = true → e.fromUserId = u) : v.closings = [] := by
  rw [List.eq_nil_iff_forall_not_mem]
  intro r hr
  obtain ⟨-, hcloses⟩ := mem_closings.mp hr
  have hne : u ≠ r.sub := fun heq => h.gone r hr (heq ▸ hu)
  rcases h.comes r hr u hne hu with hmem | hmem
  · exact hne (hreq r hmem hcloses).symm
  · exact hne (hevent r.event hmem ((closes_event r).trans hcloses)).symm

/-- What there is of a call that nobody has closed. -/
theorem Closes.of_open (hnil : v.closings = []) (hevents : ∀ u, ∀ e ∈ v.queue u, e.closes = false)
    (honce : ∀ u, u ≠ call.inviter → v.tokens u ≤ 1) : v.Closes call := by
  constructor
  case once => exact honce
  case order =>
    refine fun u => List.pairwise_of_forall_mem_list fun e he e' _ hc => ?_
    exact absurd hc (by simp [hevents u e he])
  case echo => exact fun u e he hc => absurd hc (by simp [hevents u e he])
  all_goals rw [hnil]
  case closed => exact Nat.zero_le 1
  all_goals exact fun r hr => absurd hr List.not_mem_nil

/-- A call that nobody has closed has only invitations on their way. -/
theorem Closes.events (h : v.Closes call) (hnil : v.closings = []) :
    ∀ u, ∀ e ∈ v.queue u, e.closes = false := by
  intro u e he
  rw [Bool.eq_false_iff]
  intro hc
  obtain ⟨r, hr, rfl⟩ := h.echo u e he hc
  have hmem : r ∈ v.closings := mem_closings.mpr ⟨.inr hr, (closes_event r).symm.trans hc⟩
  rw [hnil] at hmem
  exact List.not_mem_nil hmem

/-- The call is accepted. -/
theorem Closes.accept (h : v.Closes call) (hnil : v.closings = []) (hreq : v'.requests = v.requests)
    (hserved : v'.served = v.served) (hqueue : v'.queue = v.queue)
    (htokens : ∀ u, u ≠ call.inviter → v'.tokens u ≤ v.tokens u) : v'.Closes call := by
  refine .of_open ?_ ?_ fun u hu => Nat.le_trans (htokens u hu) (h.once u hu)
  · rw [closings, hreq, hserved]
    exact hnil
  · rw [hqueue]
    exact h.events hnil

/-- A user who takes part in the call closes it. -/
theorem Closes.close (h : v.Closes call) (hnil : v.closings = []) (hcloses : r.closes = true)
    (hreq : v'.requests = v.requests ++ [r]) (hserved : v'.served = v.served)
    (hqueue : v'.queue = v.queue) (hstarts : v.starts = 0)
    (hrings : ∀ u, v'.rings u = true → v.rings u = true)
    (htalks : ∀ u, v'.talks u = true → v.talks u = true) (hgone : ¬ v'.Stands call r.sub)
    (hfits : ∀ u, u ≠ r.sub → if r.path = .cancel then v'.talks u = false
      else ¬ v'.Ringing call u) : v'.Closes call := by
  have hclosings : v'.closings = [r] := by
    have hsame : ((v.requests ++ [r]) ++ v.served).filter CallRequest.closes = [r] := by
      have hboth := hnil
      rw [CallView.closings, List.filter_append, List.append_eq_nil_iff] at hboth
      rw [List.filter_append, List.filter_append, hboth.1, hboth.2, List.filter_cons_of_pos hcloses]
      rfl
    rw [closings, hreq, hserved, hsame]
  have hstarts' : v'.starts = 0 := by
    rw [starts, hreq, List.countP_append, List.countP_cons_of_neg (by simp [hcloses])]
    exact hstarts
  constructor
  case once =>
    intro u hu
    have h₁ := toNat_le (hrings u)
    have h₂ := toNat_le (htalks u)
    have h₃ := h.once u hu
    rw [tokens, hstarts] at h₃
    rw [tokens, hstarts', invitations, hqueue]
    rw [invitations] at h₃
    omega
  case closed => rw [hclosings]; exact Nat.le_refl 1
  case unstarted => exact fun _ _ => hstarts'
  case gone => simpa [hclosings] using hgone
  case fits => simpa [hclosings] using hfits
  case comes =>
    rw [hclosings]
    intro x hx u _ _
    rw [List.mem_singleton.mp hx, hreq]
    exact .inl (List.mem_append_right _ (List.mem_singleton_self r))
  case order => rw [hqueue]; exact h.order
  case echo => rw [hqueue, hserved]; exact h.echo

/-! ### The server -/

section Serve

variable {l₁ l₂ : List CallRequest}

/-- A start comes to the server. -/
theorem Closes.serveStart (h : v.Closes call) (hreq : v.requests = l₁ ++ r :: l₂)
    (hreq' : v'.requests = l₁ ++ l₂) (hserved : v'.served = v.served ++ [r])
    (hqueue : ∀ u, v'.queue u = v.queue u ++ [r.event] ∨ v'.queue u = v.queue u)
    (hrings : v'.rings = v.rings) (htalks : v'.talks = v.talks) (hstart : r.closes = false) :
    v'.Closes call := by
  have hstarts : v.starts = v'.starts + 1 := by
    rw [starts, starts, hreq, hreq', List.countP_append, List.countP_append,
      List.countP_cons_of_pos (by simp [hstart])]
    omega
  have hnil : v.closings = [] := by
    rw [List.eq_nil_iff_forall_not_mem]
    intro x hx
    have := h.unstarted x hx
    omega
  have hnil' : v'.closings = [] := by
    rw [closings, hreq, List.append_assoc, List.cons_append, List.filter_append,
      List.filter_cons_of_neg (by simp [hstart]), List.filter_append,
      List.append_eq_nil_iff, List.append_eq_nil_iff] at hnil
    rw [closings, hreq', hserved]
    simp [List.filter_append, hnil.1, hnil.2.1, hnil.2.2, hstart]
  refine .of_open hnil' (fun u e he => ?_) fun u hu => ?_
  · rcases hqueue u with hq | hq
    · rw [hq, List.mem_append, List.mem_singleton] at he
      rcases he with he | rfl
      · exact h.events hnil u e he
      · exact (closes_event r).trans hstart
    · exact h.events hnil u e (hq ▸ he)
  · have hinv : v'.invitations u ≤ v.invitations u + 1 := by
      rw [invitations, invitations]
      rcases hqueue u with hq | hq
      · rw [hq, List.countP_append]
        have : [r.event].countP (fun e => !e.closes) ≤ 1 := List.countP_le_length
        omega
      · rw [hq]
        omega
    have hone := h.once u hu
    rw [tokens] at hone
    rw [tokens, hrings, htalks]
    omega

/-- A closing request comes to the server. -/
theorem Closes.serve (h : v.Closes call) (hreq : v.requests = l₁ ++ r :: l₂)
    (hreq' : v'.requests = l₁ ++ l₂) (hserved : v'.served = v.served ++ [r])
    (hqueue : ∀ u, v'.queue u = v.queue u ++ [r.event] ∨ v'.queue u = v.queue u)
    (hpublished : ∀ u, v.Stands call u → v'.queue u = v.queue u ++ [r.event])
    (hrings : v'.rings = v.rings) (htalks : v'.talks = v.talks) (hcloses : r.closes = true) :
    v'.Closes call := by
  have hperm : v'.closings.Perm v.closings := by
    rw [closings, closings, hreq, hreq', hserved]
    refine List.Perm.filter _ ?_
    rw [← List.append_assoc]
    refine List.perm_append_singleton r _ |>.trans ?_
    rw [List.append_assoc, List.append_assoc, List.cons_append]
    exact List.perm_middle.symm
  have hstarts : v'.starts = v.starts := by
    rw [starts, starts, hreq, hreq', List.countP_append, List.countP_append,
      List.countP_cons_of_neg (by simp [hcloses])]
  have hinvitations : ∀ u, v'.invitations u = v.invitations u := fun u => by
    rw [invitations, invitations]
    rcases hqueue u with hq | hq
    · rw [hq, List.countP_append, List.countP_singleton, closes_event, hcloses]
      rfl
    · rw [hq]
  have hringing : ∀ u, v'.Ringing call u ↔ v.Ringing call u := fun u => by
    rw [Ringing, Ringing, hrings, hinvitations]
  have hstands : ∀ u, v'.Stands call u ↔ v.Stands call u := fun u => by
    rw [Stands, Stands, htalks, hringing]
  have hsubset : ∀ u, ∀ e ∈ v.queue u, e ∈ v'.queue u := fun u e he => by
    rcases hqueue u with hq | hq
    · rw [hq]
      exact List.mem_append_left _ he
    · rwa [hq]
  constructor
  case once =>
    intro u hu
    rw [tokens, hstarts, hinvitations, hrings, htalks]
    exact h.once u hu
  case closed => rw [hperm.length_eq]; exact h.closed
  case unstarted => exact fun x hx => hstarts.trans (h.unstarted x (hperm.mem_iff.mp hx))
  case gone => exact fun x hx hs => h.gone x (hperm.mem_iff.mp hx) ((hstands _).mp hs)
  case fits =>
    intro x hx u hu
    rw [htalks, hringing]
    exact h.fits x (hperm.mem_iff.mp hx) u hu
  case comes =>
    intro x hx u hu hs
    have hx := hperm.mem_iff.mp hx
    rcases h.comes x hx u hu ((hstands u).mp hs) with hmem | hmem
    · rw [hreq] at hmem
      rw [hreq']
      rcases List.mem_append.mp hmem with hmem | hmem
      · exact .inl (List.mem_append_left _ hmem)
      · rcases List.mem_cons.mp hmem with rfl | hmem
        · refine .inr ?_
          rw [hpublished u ((hstands u).mp hs)]
          exact List.mem_append_right _ (List.mem_singleton_self _)
        · exact .inl (List.mem_append_right _ hmem)
    · exact .inr (hsubset u _ hmem)
  case order =>
    intro u
    rcases hqueue u with hq | hq
    · rw [hq]
      refine List.pairwise_append.mpr ⟨h.order u, List.pairwise_singleton _ _, ?_⟩
      intro e _ e' he' _
      rw [List.mem_singleton.mp he', closes_event, hcloses]
    · rw [hq]
      exact h.order u
  case echo =>
    intro u e he hc
    rw [hserved]
    have hold : e ∈ v.queue u → ∃ r' ∈ v.served ++ [r], r'.event = e := fun he => by
      obtain ⟨r', hr', heq⟩ := h.echo u e he hc
      exact ⟨r', List.mem_append_left _ hr', heq⟩
    rcases hqueue u with hq | hq
    · rw [hq, List.mem_append, List.mem_singleton] at he
      rcases he with he | rfl
      · exact hold he
      · exact ⟨r, List.mem_append_right _ (List.mem_singleton_self r), rfl⟩
    · exact hold (hq ▸ he)

/-- A request does not take effect. -/
theorem Closes.refuse (h : v.Closes call) (hreq : v.requests = l₁ ++ r :: l₂)
    (hreq' : v'.requests = l₁ ++ l₂) (hserved : v'.served = v.served)
    (hqueue : v'.queue = v.queue) (hrings : v'.rings = v.rings) (htalks : v'.talks = v.talks) :
    v'.Closes call := by
  have hsub : v'.requests.Sublist v.requests := by
    rw [hreq, hreq']
    exact List.Sublist.append_left (List.sublist_cons_self r l₂) l₁
  have hclosings : v'.closings.Sublist v.closings := by
    rw [closings, closings, hserved]
    exact (hsub.append_right _).filter _
  have hstarts : v'.starts ≤ v.starts := hsub.countP_le
  have hringing : ∀ u, v'.Ringing call u ↔ v.Ringing call u := fun u => by
    rw [Ringing, Ringing, hrings, invitations, invitations, hqueue]
  have hstands : ∀ u, v'.Stands call u ↔ v.Stands call u := fun u => by
    rw [Stands, Stands, htalks, hringing]
  constructor
  case once =>
    intro u hu
    have hone := h.once u hu
    rw [tokens, invitations] at hone
    rw [tokens, invitations, hrings, htalks, hqueue]
    omega
  case closed => exact Nat.le_trans hclosings.length_le h.closed
  case unstarted =>
    intro x hx
    have := h.unstarted x (hclosings.subset hx)
    omega
  case gone => exact fun x hx hs => h.gone x (hclosings.subset hx) ((hstands _).mp hs)
  case fits =>
    intro x hx u hu
    rw [htalks, hringing]
    exact h.fits x (hclosings.subset hx) u hu
  case comes =>
    intro x hx u hu hs
    rw [hqueue]
    refine (h.comes x (hclosings.subset hx) u hu ((hstands u).mp hs)).imp_left fun hmem => ?_
    -- it is not the one that is refused, since a call is closed once
    obtain ⟨hplace, hcloses⟩ := mem_closings.mp hx
    refine hplace.resolve_right fun hs => ?_
    exact h.not_served hmem hcloses (hserved ▸ hs)
  case order => rw [hqueue]; exact h.order
  case echo => rw [hqueue, hserved]; exact h.echo

end Serve

end CallView

end Web

end MateHub
