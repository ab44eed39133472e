import MateHub.Web.DmClosing

/-!
# One closing record for each call

A client closes a call when it finds that the voice channel is not that of the call. After
`startCall` and `accept` this is so until the session is there, so the first thing that a client
does with a call is to close it; and two clients that leave at the same time both close it
(`MateHub.Web.ended_twice`).

In the runs in which the effect waits for the voice channel and no client acts on a call that
the other is closing (`MateHub.Web.CallState.Orderly`), at most one closing request of a call
takes effect (`MateHub.Web.one_record_of_reach`). Every step is, for each call, one of the
changes that keep `MateHub.Web.CallView.Closes`.
-/

namespace MateHub

namespace Web

/-! ### The state -/

namespace CallState

open CallView CallClient

/-- What a state has of a call. -/
def view (s : CallState) (call : Call) : CallView where
  requests := s.requests.filter fun r => decide (r.call = call)
  served := s.served.filter fun r => decide (r.call = call)
  queue := fun u => (s.queues u).filter fun e => decide (e.call = call)
  rings := fun u => decide ((s.clients u).incomingCall = some call)
  talks := fun u => decide ((s.clients u).talk = some call)

/-- The call has been started, between two users of whom `u` is one. -/
structure Known (peers : ℕ → ℕ × ℕ) (next u : ℕ) (call : Call) : Prop where
  old : call.number < next
  inviter : Peer peers call.inviter call.channelId
  peer : Peer peers u call.channelId

/-- **The invariant.** -/
structure Ok (peers : ℕ → ℕ × ℕ) (s : CallState) : Prop where
  located : ∀ u, (s.clients u).Located
  talks : ∀ u d, (s.clients u).dmCall = some d →
    Known peers s.next u d.call ∧ (u ≠ d.call.inviter → d.startedAt ≠ none)
  rings : ∀ u call, (s.clients u).incomingCall = some call →
    Known peers s.next u call ∧ u ≠ call.inviter
  queues : ∀ u, ∀ e ∈ s.queues u, Known peers s.next u e.call ∧
    (e.closes = false → e.fromUserId = e.call.inviter)
  requests : ∀ r ∈ s.requests, Known peers s.next r.sub r.call ∧
    (r.closes = false → r.sub = r.call.inviter)
  served : ∀ r ∈ s.served, r.call.number < s.next
  sent : ∀ r ∈ s.sent, r.path = .cancel ∨ (∃ durationSecs, r.path = .ended durationSecs) →
    r.phase = .outside
  closes : ∀ call, (s.view call).Closes call

variable {peers : ℕ → ℕ × ℕ} {s t : CallState} {u w : ℕ} {call : Call} {e : CallEvent}
  {r : CallRequest}

/-- The events of one call among those on their way to a user. -/
theorem mem_view_queue : e ∈ (s.view call).queue u ↔ e ∈ s.queues u ∧ e.call = call := by
  simp [view]

/-- The requests of one call among all. -/
theorem mem_view_requests : r ∈ (s.view call).requests ↔ r ∈ s.requests ∧ r.call = call := by
  simp [view]

/-- A call rings at a user who has it as the incoming one. -/
theorem view_rings : (s.view call).rings u = true ↔ (s.clients u).incomingCall = some call :=
  decide_eq_true_iff

/-- A user talks in a call who takes part in it. -/
theorem view_talks : (s.view call).talks u = true ↔ (s.clients u).talk = some call :=
  decide_eq_true_iff

/-- Ringing, as the view of a call has it. -/
theorem rings_iff : s.Rings u call ↔ (s.view call).Ringing call u := by
  rw [Rings, Ringing, view_rings, invitations_pos]
  simp only [mem_view_queue, and_assoc]

/-- Talking, as the view of a call has it. -/
theorem talks_iff : s.Talks u call ↔ (s.view call).talks u = true := by
  rw [view_talks, talk_eq_some]
  rfl

/-- What is known of a call stays known as further calls are made. -/
theorem Known.mono {next next' : ℕ} (h : Known peers next u call) (hle : next ≤ next') :
    Known peers next' u call := ⟨Nat.lt_of_lt_of_le h.old hle, h.inviter, h.peer⟩

/-- A channel has two users. -/
theorem Known.eq_inviter {next : ℕ} (h : Known peers next u call) (hw : Known peers next w call)
    (hne : u ≠ w) (hu : u ≠ call.inviter) : w = call.inviter := by
  have h₁ := h.peer
  have h₂ := hw.peer
  have h₃ := h.inviter
  unfold Peer at h₁ h₂ h₃
  omega

/-- What is with a user is known. -/
theorem Ok.known (h : s.Ok peers) (hu : (s.view call).Stands call u) :
    Known peers s.next u call := by
  rcases hu with hu | hu | ⟨-, hu⟩
  · obtain ⟨d, hd, rfl⟩ := talk_eq_some.mp (view_talks.mp hu)
    exact (h.talks u d hd).1
  · exact (h.rings u call (view_rings.mp hu)).1
  · obtain ⟨e, he, -⟩ := invitations_pos.mp hu
    obtain ⟨hmem, rfl⟩ := mem_view_queue.mp he
    exact (h.queues u e hmem).1

/-- A call does not ring at the one who has made it. -/
theorem Ok.ne_inviter (h : s.Ok peers) (hu : (s.view call).Ringing call u) : u ≠ call.inviter := by
  rcases hu with hu | ⟨hne, -⟩
  · exact (h.rings u call (view_rings.mp hu)).2
  · exact hne

/-- A call that the other user is not closing, and which is with the user, is not closed. -/
theorem Ok.closings_eq_nil (h : s.Ok peers) (hu : (s.view call).Stands call u)
    (hopen : ¬ s.Closing u call) : (s.view call).closings = [] := by
  refine (h.closes call).closings_eq_nil hu (fun r hr hc => ?_) fun e he hc => ?_
  · by_contra hne
    obtain ⟨hr, hcall⟩ := mem_view_requests.mp hr
    exact hopen (.inl ⟨r, hr, hcall, hc, hne⟩)
  · by_contra hne
    obtain ⟨he, hcall⟩ := mem_view_queue.mp he
    exact hopen (.inr ⟨e, he, hcall, hc, hne⟩)

section Update

variable {out : CallClient × List CallRequest}

/-- An act of a user changes the client of no other. -/
theorem clients_update (s : CallState) (u : ℕ) (out : CallClient × List CallRequest) (w : ℕ) :
    (s.update u out).clients w = if w = u then out.1 else s.clients w := Function.update_apply ..

/-- A call rings after an act of a user only where it has rung before. -/
theorem rings_update (h : out.1.incomingCall = some call → (s.clients u).incomingCall = some call)
    (hw : ((s.update u out).view call).rings w = true) : (s.view call).rings w = true := by
  rw [view_rings] at hw ⊢
  rw [clients_update] at hw
  split_ifs at hw with heq
  · exact heq ▸ h hw
  · exact hw

/-- A user talks after an act only in a call that the user was in. -/
theorem talks_update (h : out.1.talk = some call → (s.clients u).talk = some call)
    (hw : ((s.update u out).view call).talks w = true) : (s.view call).talks w = true := by
  rw [view_talks] at hw ⊢
  rw [clients_update] at hw
  split_ifs at hw with heq
  · exact heq ▸ h hw
  · exact hw

/-- An act of a user does not change what rings at the others. -/
theorem rings_update_of_ne (hne : w ≠ u) :
    ((s.update u out).view call).rings w = (s.view call).rings w := by
  rw [view, view]
  dsimp only
  rw [clients_update, if_neg hne]

/-- Nor what the others talk in. -/
theorem talks_update_of_ne (hne : w ≠ u) :
    ((s.update u out).view call).talks w = (s.view call).talks w := by
  rw [view, view]
  dsimp only
  rw [clients_update, if_neg hne]

/-- A call that is not the incoming one any more does not ring. -/
theorem rings_update_self (h : out.1.incomingCall ≠ some call) :
    ((s.update u out).view call).rings u = false := by
  rw [Bool.eq_false_iff]
  intro hr
  rw [view_rings, clients_update, if_pos rfl] at hr
  exact h hr

/-- Who has left a call does not talk in it. -/
theorem talks_update_self (h : out.1.talk ≠ some call) :
    ((s.update u out).view call).talks u = false := by
  rw [Bool.eq_false_iff]
  intro ht
  rw [view_talks, clients_update, if_pos rfl] at ht
  exact h ht

/-- What a user asks for stands behind the other requests. -/
theorem requests_update (s : CallState) (u : ℕ) (out : CallClient × List CallRequest)
    (call : Call) : ((s.update u out).view call).requests =
      (s.view call).requests ++ out.2.filter fun r => decide (r.call = call) :=
  List.filter_append ..

/-- A call of which the client gets nothing, and about which it sends nothing. -/
theorem Ok.closes_update (h : s.Ok peers)
    (hrings : out.1.incomingCall = some call → (s.clients u).incomingCall = some call)
    (htalks : out.1.talk = some call → (s.clients u).talk = some call)
    (hsent : ∀ r ∈ out.2, r.call ≠ call) : ((s.update u out).view call).Closes call := by
  refine (h.closes call).leave ?_ rfl rfl (fun w => rings_update hrings)
    fun w => talks_update htalks
  rw [requests_update, List.filter_eq_nil_iff.mpr fun r hr => by simpa using hsent r hr,
    List.append_nil]

/-- The other parts of the invariant, when a client changes. -/
theorem Ok.update {next : ℕ} (h : s.Ok peers) (hnext : s.next ≤ next) (hlocated : out.1.Located)
    (htalks : ∀ d, out.1.dmCall = some d →
      Known peers next u d.call ∧ (u ≠ d.call.inviter → d.startedAt ≠ none))
    (hrings : ∀ call, out.1.incomingCall = some call →
      Known peers next u call ∧ u ≠ call.inviter)
    (hrequests : ∀ r ∈ out.2, Known peers next r.sub r.call ∧
      (r.closes = false → r.sub = r.call.inviter) ∧
      (r.path = .cancel ∨ (∃ durationSecs, r.path = .ended durationSecs) → r.phase = .outside))
    (hcloses : ∀ call, ((s.update u out).view call).Closes call) :
    Ok peers { s.update u out with next := next } := by
  have hclients : ∀ w, (s.update u out).clients w = if w = u then out.1 else s.clients w :=
    clients_update s u out
  constructor
  case located =>
    intro w
    change ((s.update u out).clients w).Located
    rw [hclients]
    split_ifs
    · exact hlocated
    · exact h.located w
  case talks =>
    intro w d hd
    change ((s.update u out).clients w).dmCall = some d at hd
    rw [hclients] at hd
    split_ifs at hd with heq
    · exact heq ▸ htalks d hd
    · obtain ⟨hknown, hstarted⟩ := h.talks w d hd
      exact ⟨hknown.mono hnext, hstarted⟩
  case rings =>
    intro w call hc
    change ((s.update u out).clients w).incomingCall = some call at hc
    rw [hclients] at hc
    split_ifs at hc with heq
    · exact heq ▸ hrings call hc
    · obtain ⟨hknown, hne⟩ := h.rings w call hc
      exact ⟨hknown.mono hnext, hne⟩
  case queues => exact fun w e he => (h.queues w e he).imp_left (·.mono hnext)
  case requests =>
    intro r hr
    rcases List.mem_append.mp hr with hr | hr
    · exact (h.requests r hr).imp_left (·.mono hnext)
    · exact ⟨(hrequests r hr).1, (hrequests r hr).2.1⟩
  case served => exact fun r hr => Nat.lt_of_lt_of_le (h.served r hr) hnext
  case sent =>
    intro r hr
    rcases List.mem_append.mp hr with hr | hr
    · exact h.sent r hr
    · exact (hrequests r hr).2.2
  case closes => exact hcloses

/-- A client has no more calls than before. -/
theorem Ok.fewer (h : s.Ok peers) (hfewer : Fewer (s.clients u) out.1) (hlocated : out.1.Located)
    (hnil : out.2 = []) : (s.update u out).Ok peers := by
  refine h.update (Nat.le_refl _) hlocated (fun d' hd' => ?_)
    (fun call hc => h.rings u call (hfewer.rings call hc)) (fun r hr => ?_) fun call => ?_
  · obtain ⟨d, hd, hcall, hstarted⟩ := hfewer.talks d' hd'
    obtain ⟨hknown, hrecipient⟩ := h.talks u d hd
    rw [hcall]
    exact ⟨hknown, fun hne => hstarted (hrecipient hne)⟩
  · rw [hnil] at hr
    exact absurd hr List.not_mem_nil
  · refine h.closes_update (hfewer.rings call) hfewer.talk fun r hr => ?_
    rw [hnil] at hr
    exact absurd hr List.not_mem_nil

/-- **A call is accepted**: it rings no more, and both talk. -/
theorem Ok.accept {d : DmCall} (h : s.Ok peers) (hin : (s.clients u).incomingCall = some d.call)
    (hopen : ¬ s.Closing u d.call) (hlocated : out.1.Located) (hnil : out.2 = [])
    (hrings : out.1.incomingCall = none) (htalks : out.1.dmCall = some d)
    (hstarted : d.startedAt ≠ none) : (s.update u out).Ok peers := by
  have htalk : out.1.talk = some d.call := talk_eq_some.mpr ⟨d, htalks, rfl⟩
  have hempty : ∀ call, ∀ r ∈ out.2, r.call ≠ call := by
    rw [hnil]
    exact fun _ r hr => absurd hr List.not_mem_nil
  refine h.update (Nat.le_refl _) hlocated (fun d' hd' => ?_) (fun call hc => ?_) (fun r hr => ?_)
    fun call => ?_
  · obtain rfl := Option.some_inj.mp (htalks.symm.trans hd')
    exact ⟨(h.rings u d.call hin).1, fun _ => hstarted⟩
  · rw [hrings] at hc
    exact absurd hc (Option.some_ne_none call).symm
  · exact absurd rfl (hempty r.call r hr)
  · rcases eq_or_ne call d.call with rfl | hne
    · have hnone := h.closings_eq_nil (.inr (.inl (view_rings.mpr hin))) hopen
      have hreq : ((s.update u out).view d.call).requests = (s.view d.call).requests := by
        rw [requests_update, hnil, List.filter_nil, List.append_nil]
      refine (h.closes d.call).accept hnone hreq rfl rfl fun w hw => ?_
      have hstarts : ((s.update u out).view d.call).starts = (s.view d.call).starts := by
        rw [starts, starts, hreq]
      have hinvitations : ((s.update u out).view d.call).invitations w =
          (s.view d.call).invitations w := rfl
      rw [tokens, tokens, hstarts, hinvitations]
      rcases eq_or_ne w u with rfl | hne
      · rw [rings_update_self (by simp [hrings]), view_rings.mpr hin]
        have := Bool.toNat_le (((s.update w out).view d.call).talks w)
        simp only [Bool.toNat_false, Bool.toNat_true]
        omega
      · exact Nat.le_of_eq (by rw [rings_update_of_ne hne, talks_update_of_ne hne])
    · refine h.closes_update (fun hc => ?_) (fun hc => ?_) (hempty call)
      · rw [hrings] at hc
        exact absurd hc (Option.some_ne_none call).symm
      · exact absurd (Option.some_inj.mp (hc.symm.trans htalk)) hne

/-- A user closes a call, which it has no more then. -/
theorem Ok.close (h : s.Ok peers) (hfewer : Fewer (s.clients u) out.1) (hlocated : out.1.Located)
    (hsent : out.2 = [r]) (hcloses : r.closes = true) (hsub : r.sub = u)
    (hu : (s.view r.call).Stands r.call u) (hopen : ¬ s.Closing u r.call)
    (hstarts : (s.view r.call).starts = 0)
    (hphase : r.path = .cancel ∨ (∃ durationSecs, r.path = .ended durationSecs) →
      r.phase = .outside)
    (hgone : ¬ ((s.update u out).view r.call).Stands r.call u)
    (hfits : ∀ w, w ≠ u → if r.path = .cancel then (s.view r.call).talks w = false
      else ¬ (s.view r.call).Ringing r.call w) : (s.update u out).Ok peers := by
  have hrings : ∀ call w, ((s.update u out).view call).rings w = true →
      (s.view call).rings w = true := fun call w => rings_update (hfewer.rings call)
  have htalks : ∀ call w, ((s.update u out).view call).talks w = true →
      (s.view call).talks w = true := fun call w => talks_update hfewer.talk
  refine h.update (Nat.le_refl _) hlocated (fun d' hd' => ?_)
    (fun call hc => h.rings u call (hfewer.rings call hc)) (fun x hx => ?_) fun call => ?_
  · obtain ⟨d, hd, hcall, hstarted⟩ := hfewer.talks d' hd'
    obtain ⟨hknown, hrecipient⟩ := h.talks u d hd
    rw [hcall]
    exact ⟨hknown, fun hne => hstarted (hrecipient hne)⟩
  · rw [hsent, List.mem_singleton] at hx
    subst hx
    exact ⟨hsub ▸ h.known hu, fun hc => absurd hc (by simp [hcloses]), hphase⟩
  · rcases eq_or_ne r.call call with rfl | hne
    · refine (h.closes r.call).close (r := r) (h.closings_eq_nil hu hopen) hcloses ?_ rfl rfl
        hstarts (hrings _) (htalks _) (hsub ▸ hgone) fun w hw => ?_
      · rw [requests_update, hsent, List.filter_cons_of_pos (by simp)]
        rfl
      · have hfits := hfits w (hsub ▸ hw)
        split_ifs at hfits ⊢
        · rw [Bool.eq_false_iff] at hfits ⊢
          exact fun ht => hfits (htalks _ w ht)
        · exact fun hr => hfits (hr.imp_left (hrings _ w))
    · refine h.closes_update (hfewer.rings call) hfewer.talk fun x hx => ?_
      rw [hsent, List.mem_singleton] at hx
      rwa [hx]

/-- **A call is declined**: it rings no more, and its closing is asked for. -/
theorem Ok.decline {reason : DeclineReason} (h : s.Ok peers)
    (hin : (s.clients u).incomingCall = some call) (hopen : ¬ s.Closing u call) :
    Ok peers (s.update u ({ s.clients u with incomingCall := none },
      [⟨u, call, .decline reason, .waiting⟩])) := by
  have hrings : (s.view call).rings u = true := view_rings.mpr hin
  obtain ⟨hknown, hne⟩ := h.rings u call hin
  have hone := (h.closes call).once u hne
  rw [tokens, hrings, Bool.toNat_true] at hone
  have hfewer : Fewer (s.clients u) { s.clients u with incomingCall := none } :=
    ⟨fun _ hc => absurd hc (Option.some_ne_none _).symm, fun d hd => ⟨d, hd, rfl, fun hs => hs⟩⟩
  have hstarts : (s.view call).starts = 0 := by omega
  refine h.close hfewer (h.located u) rfl rfl rfl (.inr (.inl hrings)) hopen hstarts ?_ ?_ ?_
  · rintro (hpath | ⟨_, hpath⟩)
    · exact CallPath.noConfusion hpath
    · exact CallPath.noConfusion hpath
  · rintro (ht | hr | ⟨-, hr⟩)
    · have ht : (s.view call).talks u = true := talks_update hfewer.talk ht
      rw [ht, Bool.toNat_true] at hone
      omega
    · rw [rings_update_self (Option.some_ne_none _).symm] at hr
      exact Bool.noConfusion hr
    · change 0 < (s.view call).invitations u at hr
      omega
  · intro w hw
    rw [if_neg (by simp)]
    intro hr
    exact h.ne_inviter hr (hknown.eq_inviter (h.known (.inr hr)) hw.symm hne)

/-- **The watcher closes a call** that its user has left. -/
theorem Ok.watch {d : DmCall} {now : ℕ} (h : s.Ok peers) (hd : (s.clients u).dmCall = some d)
    (hactive : (s.clients u).activeVoiceChannelId ≠ some d.call.channelId)
    (hphase : d.phase ≠ .waiting) (hunopposed : s.Unopposed u d) :
    Ok peers (s.update u ({ s.clients u with dmCall := none }, [closing u d now])) := by
  obtain ⟨hopen, hstarts, hpeer⟩ := hunopposed
  have htalks : (s.view d.call).talks u = true := view_talks.mpr (talk_eq_some.mpr ⟨d, hd, rfl⟩)
  have hpath : (closing u d now).path = .cancel ↔ d.startedAt = none := by
    rw [closing]
    rcases d.startedAt with _ | startedAt <;> simp
  have hcloses : (closing u d now).closes = true := by
    rw [closing, CallRequest.closes]
    rcases d.startedAt with _ | startedAt <;> rfl
  have hfewer : Fewer (s.clients u) { s.clients u with dmCall := none } :=
    ⟨fun _ hc => hc, fun _ hc => absurd hc (Option.some_ne_none _).symm⟩
  refine h.close hfewer (fun _ hc => absurd hc (Option.some_ne_none _).symm) rfl hcloses rfl
    (.inl htalks) hopen ?_ (fun _ => ?_) ?_ fun w hw => ?_
  · refine Nat.eq_zero_of_not_pos fun hpos => ?_
    obtain ⟨r, hr, hc⟩ := starts_pos.mp hpos
    obtain ⟨hr, hcall⟩ := mem_view_requests.mp hr
    exact hstarts ⟨r, hr, hcall, hc⟩
  · -- the voice channel of the call has been active, and is not now
    have hinside : d.phase ≠ .inside := fun hin => hactive ((h.located u d hd).mp hin)
    change d.phase = .outside
    rcases hp : d.phase with _ | _ | _
    · exact absurd hp hphase
    · exact absurd hp hinside
    · rfl
  · rintro (ht | hr)
    · rw [talks_update_self (by simp [talk])] at ht
      exact Bool.noConfusion ht
    · have hr : (s.view d.call).Ringing d.call u :=
        hr.imp_left (rings_update (hfewer.rings _))
      have hone := (h.closes d.call).once u (h.ne_inviter hr)
      rw [tokens, htalks, Bool.toNat_true] at hone
      rcases hr with hr | ⟨-, hr⟩
      · rw [hr, Bool.toNat_true] at hone
        omega
      · omega
  · have hpeer := hpeer w hw
    change if (closing u d now).path = .cancel then (s.view d.call).talks w = false
      else ¬ (s.view d.call).Ringing d.call w
    rw [if_congr hpath rfl rfl]
    split_ifs at hpeer ⊢
    · rw [Bool.eq_false_iff]
      exact fun ht => hpeer (talks_iff.mpr ht)
    · exact fun hr => hpeer (rings_iff.mpr hr)

/-- **A call is started**: it is new, so that nothing is known of it yet. -/
theorem Ok.startCall {channelId : ℕ} (h : s.Ok peers) (hpeer : Peer peers u channelId) :
    Ok peers { s.update u ((s.clients u).startCall u ⟨s.next, u, channelId⟩) with
      next := s.next + 1 } := by
  have hknown : Known peers (s.next + 1) u ⟨s.next, u, channelId⟩ :=
    ⟨Nat.lt_succ_self _, hpeer, hpeer⟩
  have hdm : ((s.clients u).startCall u ⟨s.next, u, channelId⟩).1.dmCall =
      some (DmCall.moved ⟨⟨s.next, u, channelId⟩, .inviter, none, .waiting⟩
        (s.clients u).activeVoiceChannelId) := joinVoice_dmCall _ _
  have hin : ((s.clients u).startCall u ⟨s.next, u, channelId⟩).1.incomingCall =
      (s.clients u).incomingCall := joinVoice_incomingCall _ _
  have htalk : ((s.clients u).startCall u ⟨s.next, u, channelId⟩).1.talk =
      some ⟨s.next, u, channelId⟩ := by rw [talk, hdm]; rfl
  refine h.update (Nat.le_succ _) ((located_setDmCall _ _ _ _).joinVoice _) (fun d hd => ?_)
    (fun call hc => ?_) (fun r hr => ?_) fun call => ?_
  · rw [hdm] at hd
    obtain rfl := Option.some_inj.mp hd
    exact ⟨hknown, fun hne => absurd rfl hne⟩
  · rw [hin] at hc
    exact (h.rings u call hc).imp_left (·.mono (Nat.le_succ _))
  · rw [List.mem_singleton.mp hr]
    refine ⟨hknown, fun _ => rfl, ?_⟩
    rintro (hpath | ⟨_, hpath⟩)
    · exact CallPath.noConfusion hpath
    · exact CallPath.noConfusion hpath
  · rcases eq_or_ne call ⟨s.next, u, channelId⟩ with rfl | hne
    · -- nothing is known of a call with this number yet
      have hfresh : ∀ w, ¬ (s.view ⟨s.next, u, channelId⟩).Stands ⟨s.next, u, channelId⟩ w :=
        fun w hw => absurd (h.known hw).old (Nat.lt_irrefl _)
      have hrequests : (s.view ⟨s.next, u, channelId⟩).requests = [] := by
        refine List.filter_eq_nil_iff.mpr fun r hr hc => ?_
        have := (h.requests r hr).1.old
        rw [of_decide_eq_true hc] at this
        exact absurd this (Nat.lt_irrefl _)
      have hserved : (s.view ⟨s.next, u, channelId⟩).served = [] := by
        refine List.filter_eq_nil_iff.mpr fun r hr hc => ?_
        have := h.served r hr
        rw [of_decide_eq_true hc] at this
        exact absurd this (Nat.lt_irrefl _)
      have hqueue : ∀ w, (s.view ⟨s.next, u, channelId⟩).queue w = [] := by
        refine fun w => List.filter_eq_nil_iff.mpr fun e he hc => ?_
        have := (h.queues w e he).1.old
        rw [of_decide_eq_true hc] at this
        exact absurd this (Nat.lt_irrefl _)
      have hrequests' := requests_update s u
        ((s.clients u).startCall u ⟨s.next, u, channelId⟩) ⟨s.next, u, channelId⟩
      rw [hrequests, List.nil_append] at hrequests'
      refine .of_open ?_ (fun w e he => ?_) fun w hw => ?_
      · rw [closings, hrequests']
        change (List.filter _ _ ++ (s.view ⟨s.next, u, channelId⟩).served).filter _ = []
        rw [hserved]
        simp [CallClient.startCall, CallRequest.closes]
      · change e ∈ (s.view ⟨s.next, u, channelId⟩).queue w at he
        rw [hqueue] at he
        exact absurd he List.not_mem_nil
      · have hstarts : (CallState.view (s.update u
            ((s.clients u).startCall u ⟨s.next, u, channelId⟩))
              ⟨s.next, u, channelId⟩).starts ≤ 1 := by
          rw [starts, hrequests']
          exact Nat.le_trans List.countP_le_length (List.length_filter_le _ _)
        have hinvitations : (s.view ⟨s.next, u, channelId⟩).invitations w = 0 := by
          rw [invitations, hqueue, List.countP_nil]
        have hrings : (s.view ⟨s.next, u, channelId⟩).rings w = false :=
          Bool.eq_false_iff.mpr fun hr => hfresh w (.inr (.inl hr))
        have htalks : (s.view ⟨s.next, u, channelId⟩).talks w = false :=
          Bool.eq_false_iff.mpr fun ht => hfresh w (.inl ht)
        rw [tokens, rings_update_of_ne hw, talks_update_of_ne hw, hrings, htalks]
        change _ + (s.view ⟨s.next, u, channelId⟩).invitations w + _ + _ ≤ 1
        rw [hinvitations]
        exact hstarts
    · refine h.closes_update (fun hc => hin ▸ hc) (fun hc => ?_) fun r hr => ?_
      · exact absurd (Option.some_inj.mp (hc.symm.trans htalk)) hne
      · rw [List.mem_singleton.mp hr]
        exact hne.symm

end Update

section Events

variable {rest : List CallEvent}

/-- The state after `u` has handled an event. -/
def received (s : CallState) (u : ℕ) (e : CallEvent) (rest : List CallEvent) : CallState :=
  { s with
    clients := Function.update s.clients u ((s.clients u).on u e)
    queues := Function.update s.queues u rest }

/-- An event changes the client of the user to whom it comes. -/
theorem clients_received (s : CallState) (u : ℕ) (e : CallEvent) (rest : List CallEvent) (w : ℕ) :
    (s.received u e rest).clients w = if w = u then (s.clients u).on u e else s.clients w :=
  Function.update_apply ..

/-- And no other queue. -/
theorem queue_received_of_ne (hne : w ≠ u) :
    ((s.received u e rest).view call).queue w = (s.view call).queue w := by
  rw [view, view, received]
  dsimp only
  rw [Function.update_of_ne hne]

/-- It is the first one of the queue. -/
theorem queue_received : ((s.received u e rest).view call).queue u =
    rest.filter fun e => decide (e.call = call) := by
  rw [view, received]
  dsimp only
  rw [Function.update_self]

/-- An event of another call leaves the queue of this one. -/
theorem queue_eq (hq : s.queues u = e :: rest) (hne : e.call ≠ call) :
    (s.view call).queue u = rest.filter fun e => decide (e.call = call) := by
  rw [view]
  dsimp only
  rw [hq, List.filter_cons_of_neg (by simpa using hne)]

/-- An event of a call is the first one of the call's queue. -/
theorem queue_eq_cons (hq : s.queues u = e :: rest) :
    (s.view e.call).queue u = e :: rest.filter fun e' => decide (e'.call = e.call) := by
  rw [view]
  dsimp only
  rw [hq, List.filter_cons_of_pos (by simp)]

/-- An event makes nobody talk who did not talk. -/
theorem talks_received (hw : ((s.received u e rest).view call).talks w = true) :
    (s.view call).talks w = true := by
  rw [view_talks] at hw ⊢
  rw [clients_received] at hw
  split_ifs at hw with heq
  · subst heq
    rcases on_cases w (s.clients w) e with hfewer | ⟨-, -, hon⟩
    · exact hfewer.talk hw
    · rwa [hon] at hw
  · exact hw

/-- An event rings only for the call it invites to. -/
theorem rings_received (hw : ((s.received u e rest).view call).rings w = true) :
    (s.view call).rings w = true ∨
      w = u ∧ e.call = call ∧ e.closes = false ∧ e.fromUserId ≠ u := by
  rw [view_rings] at hw ⊢
  rw [clients_received] at hw
  split_ifs at hw with heq
  · rcases on_cases u (s.clients u) e with hfewer | ⟨hinvite, hother, hon⟩
    · exact .inl (heq ▸ hfewer.rings call hw)
    · rw [hon] at hw
      exact .inr ⟨heq, Option.some_inj.mp hw, hinvite, hother⟩
  · exact .inl hw

/-- **The event of a closing request takes the call away.** -/
theorem Ok.takes_away (h : s.Ok peers) (hq : s.queues u = e :: rest)
    (hr : r ∈ (s.view e.call).closings) (heq : r.event = e) (hne : u ≠ r.sub) :
    ¬ ((s.received u e rest).view e.call).Stands e.call u := by
  have hcloses : e.closes = true := by
    rw [← heq, closes_event]
    exact (mem_closings.mp hr).2
  have hfrom : e.fromUserId ≠ u := fun hu => hne (hu.symm.trans (heq ▸ rfl))
  have hfits := (h.closes e.call).fits r hr u hne
  have hrings : ((s.received u e rest).view e.call).Ringing e.call u →
      (s.view e.call).Ringing e.call u := by
    rintro (hr | ⟨hi, hpos⟩)
    · rcases rings_received hr with hr | ⟨-, -, hinvite, -⟩
      · exact .inl hr
      · exact absurd hcloses (by simp [hinvite])
    · refine .inr ⟨hi, ?_⟩
      obtain ⟨e', he', hinvite⟩ := invitations_pos.mp hpos
      rw [queue_received] at he'
      exact invitations_pos.mpr ⟨e', by rw [queue_eq_cons hq]; exact List.mem_cons_of_mem _ he',
        hinvite⟩
  split_ifs at hfits with hpath
  · -- `cancel` takes away the ringing, and no invitation comes after it
    have htype : e.type = .cancel := by
      rw [← heq, CallRequest.event, hpath]
    rintro (ht | hr | ⟨-, hpos⟩)
    · rw [talks_received ht] at hfits
      exact Bool.noConfusion hfits
    · rw [view_rings, clients_received, if_pos rfl, on, htype] at hr
      exact absurd rfl (of_decide_eq_true (Option.filter_eq_some_iff.mp hr).2)
    · obtain ⟨e', he', hinvite⟩ := invitations_pos.mp hpos
      rw [queue_received] at he'
      have horder := (h.closes e.call).order u
      rw [queue_eq_cons hq, List.pairwise_cons] at horder
      rw [horder.1 e' he' hcloses] at hinvite
      exact Bool.noConfusion hinvite
  · -- the others take away the call that the user takes part in
    rintro (ht | hr)
    · have hon : (s.clients u).on u e = (s.clients u).hungUp e.call.channelId := by
        rw [on]
        rcases htype : e.type with _ | reason | _ | secs
        · simp [CallEvent.closes, htype] at hcloses
        · exact if_neg hfrom
        · refine absurd ?_ hpath
          rw [← heq, CallRequest.event] at htype
          dsimp only at htype
          split at htype
          · exact CallEventType.noConfusion htype
          · exact CallEventType.noConfusion htype
          · assumption
          · exact CallEventType.noConfusion htype
        · exact if_neg hfrom
      rw [view_talks, clients_received, if_pos rfl, hon] at ht
      exact channelId_of_hungUp ht rfl
    · exact hfits (hrings hr)

/-- An invitation that rings was on its way. -/
theorem tokens_received (hq : s.queues u = e :: rest) (w : ℕ) :
    ((s.received u e rest).view e.call).tokens w ≤ (s.view e.call).tokens w := by
  have htalks : (((s.received u e rest).view e.call).talks w).toNat ≤
      ((s.view e.call).talks w).toNat := toNat_le talks_received
  rcases eq_or_ne w u with rfl | hne
  · have hinvitations : (s.view e.call).invitations w =
        ((s.received w e rest).view e.call).invitations w + if e.closes = false then 1 else 0 := by
      rw [invitations, invitations, queue_eq_cons hq, queue_received, List.countP_cons]
      simp
    have hrings : (((s.received w e rest).view e.call).rings w).toNat ≤
        ((s.view e.call).rings w).toNat + if e.closes = false then 1 else 0 := by
      rcases hr : ((s.received w e rest).view e.call).rings w with _ | _
      · exact Nat.zero_le _
      · rcases rings_received hr with hr | ⟨-, -, hinvite, -⟩
        · rw [hr]
          exact Nat.le_add_right _ _
        · rw [if_pos hinvite]
          exact Nat.le_add_left _ _
    have hstarts : ((s.received w e rest).view e.call).starts = (s.view e.call).starts := rfl
    rw [tokens, tokens]
    omega
  · have hrings : ((s.received u e rest).view e.call).rings w = true →
        (s.view e.call).rings w = true := fun hr => by
      rcases rings_received hr with hr | ⟨heq, -⟩
      · exact hr
      · exact absurd heq hne
    have := toNat_le hrings
    rw [tokens, tokens, invitations, invitations, queue_received_of_ne hne]
    change (s.view e.call).starts + _ + _ + _ ≤ _
    omega

/-- **An event comes to a user.** -/
theorem Ok.receive (h : s.Ok peers) (hq : s.queues u = e :: rest) :
    (s.received u e rest).Ok peers := by
  have he : e ∈ s.queues u := hq ▸ List.mem_cons_self ..
  constructor
  case located =>
    intro w
    rw [clients_received]
    split_ifs
    · exact (h.located u).on e
    · exact h.located w
  case talks =>
    intro w d' hd'
    rw [clients_received] at hd'
    split_ifs at hd' with heq
    · subst heq
      rcases on_cases w (s.clients w) e with hfewer | ⟨-, -, hon⟩
      · obtain ⟨d, hd, hcall, hstarted⟩ := hfewer.talks d' hd'
        obtain ⟨hknown, hrecipient⟩ := h.talks w d hd
        rw [hcall]
        exact ⟨hknown, fun hne => hstarted (hrecipient hne)⟩
      · rw [hon] at hd'
        exact h.talks w d' hd'
    · exact h.talks w d' hd'
  case rings =>
    intro w call hc
    rcases rings_received (view_rings.mpr hc) with hr | ⟨rfl, rfl, hinvite, hother⟩
    · exact h.rings w call (view_rings.mp hr)
    · obtain ⟨hknown, hfrom⟩ := h.queues w e he
      exact ⟨hknown, fun heq => hother ((hfrom hinvite).trans heq.symm)⟩
  case queues =>
    intro w e' he'
    rw [received] at he'
    dsimp only at he'
    rw [Function.update_apply] at he'
    split_ifs at he' with heq
    · exact h.queues w e' (heq ▸ hq ▸ List.mem_cons_of_mem _ he')
    · exact h.queues w e' he'
  case requests => exact h.requests
  case served => exact h.served
  case sent => exact h.sent
  case closes =>
    intro call
    rcases eq_or_ne e.call call with rfl | hne
    · refine (h.closes e.call).forget rfl rfl (fun w => ?_) (fun w hw => ?_)
        (fun w => talks_received) (fun w _ => tokens_received hq w) fun r hr w hw hs hmem => ?_
      · rcases eq_or_ne w u with rfl | hne
        · rw [queue_received, queue_eq_cons hq]
          exact List.sublist_cons_self _ _
        · exact (queue_received_of_ne hne).symm ▸ List.Sublist.refl _
      · rcases rings_received hw with hw | ⟨rfl, -, hinvite, hother⟩
        · exact .inl hw
        · refine .inr ⟨fun heq => hother (((h.queues w e he).2 hinvite).trans heq.symm), ?_⟩
          exact invitations_pos.mpr ⟨e, mem_view_queue.mpr ⟨he, rfl⟩, hinvite⟩
      · rcases eq_or_ne w u with rfl | hne
        · rw [queue_eq_cons hq] at hmem
          rw [queue_received]
          rcases List.mem_cons.mp hmem with heq | hmem
          · exact absurd hs (h.takes_away hq hr heq hw)
          · exact hmem
        · rwa [queue_received_of_ne hne]
    · refine (h.closes call).leave rfl rfl (funext fun w => ?_) (fun w hw => ?_)
        fun w => talks_received
      · rcases eq_or_ne w u with rfl | hw
        · rw [queue_received, queue_eq hq hne]
        · exact queue_received_of_ne hw
      · rcases rings_received hw with hw | ⟨-, heq, -⟩
        · exact hw
        · exact absurd heq hne

/-- An event is lost that finds nothing to take away. -/
theorem Ok.lose {l₁ l₂ : List CallEvent} (h : s.Ok peers) (hq : s.queues u = l₁ ++ e :: l₂)
    (hok : s.Orderly (.lose u e)) :
    Ok peers { s with queues := Function.update s.queues u (l₁ ++ l₂) } := by
  have hsub : ∀ w, (Function.update s.queues u (l₁ ++ l₂) w).Sublist (s.queues w) := fun w => by
    rw [Function.update_apply]
    split_ifs with heq
    · rw [heq, hq]
      exact List.Sublist.append_left (List.sublist_cons_self e l₂) l₁
    · exact List.Sublist.refl _
  have hview : ∀ call w, ((CallState.view { s with
      queues := Function.update s.queues u (l₁ ++ l₂) } call).queue w).Sublist
        ((s.view call).queue w) := fun call w => (hsub w).filter _
  refine ⟨h.located, h.talks, h.rings, fun w e' he' => h.queues w e' ((hsub w).subset he'),
    h.requests, h.served, h.sent, fun call => ?_⟩
  refine (h.closes call).forget rfl rfl (hview call) (fun w hw => .inl hw) (fun w hw => hw)
    (fun w hw => ?_) fun r hr w hw hs hmem => ?_
  · have : CallView.invitations (CallState.view { s with
        queues := Function.update s.queues u (l₁ ++ l₂) } call) w ≤ (s.view call).invitations w :=
      (hview call w).countP_le
    rw [tokens, tokens]
    change (s.view call).starts + _ + ((s.view call).rings w).toNat +
      ((s.view call).talks w).toNat ≤ _
    omega
  · obtain ⟨hin, rfl⟩ := mem_view_queue.mp hmem
    refine mem_view_queue.mpr ⟨?_, rfl⟩
    change r.event ∈ Function.update s.queues u (l₁ ++ l₂) w
    rw [Function.update_apply]
    split_ifs with heq
    · subst heq
      rw [hq] at hin
      rcases List.mem_append.mp hin with hin | hin
      · exact List.mem_append_left _ hin
      · rcases List.mem_cons.mp hin with heq | hin
        · -- the one that is lost: there is nothing of the call with the user
          obtain ⟨-, hcloses⟩ := mem_closings.mp hr
          rw [← heq] at hok
          obtain ⟨htalks, hrings⟩ := hok ((closes_event r).trans hcloses) hw.symm
          refine absurd hs ?_
          rintro (ht | hr | ⟨hi, hpos⟩)
          · exact htalks (talks_iff.mpr ht)
          · exact hrings (rings_iff.mpr (.inl hr))
          · refine hrings (rings_iff.mpr (.inr ⟨hi, ?_⟩))
            exact Nat.lt_of_lt_of_le hpos (hview _ w).countP_le
        · exact List.mem_append_right _ hin
    · exact hin

end Events

section Requests

variable {l₁ l₂ : List CallRequest}

/-- A request stands among those of its call. -/
theorem requests_split (hreq : s.requests = l₁ ++ r :: l₂) :
    (s.view r.call).requests = l₁.filter (fun x => decide (x.call = r.call)) ++
      r :: l₂.filter fun x => decide (x.call = r.call) := by
  rw [view]
  dsimp only
  rw [hreq, List.filter_append, List.filter_cons_of_pos (by simp)]

/-- A request of another call is none of this one's. -/
theorem filter_requests (hreq : s.requests = l₁ ++ r :: l₂) (hne : r.call ≠ call) :
    (l₁ ++ l₂).filter (fun x => decide (x.call = call)) = (s.view call).requests := by
  rw [view]
  dsimp only
  rw [hreq, List.filter_append, List.filter_append, List.filter_cons_of_neg (by simpa using hne)]

/-- A request that is served sends its event to both users of the channel. -/
theorem queue_serve (s : CallState) (peers : ℕ → ℕ × ℕ) (r : CallRequest) (rest : List CallRequest)
    (w : ℕ) : ((s.serve peers r rest).view r.call).queue w =
      if Peer peers w r.call.channelId then (s.view r.call).queue w ++ [r.event]
      else (s.view r.call).queue w := by
  have hcall : r.event.call = r.call := rfl
  rw [view, serve]
  dsimp only
  split_ifs
  · rw [List.filter_append, List.filter_cons_of_pos (by simp [hcall])]
    rfl
  · rfl

/-- It sends nothing of other calls. -/
theorem queue_serve_of_ne (s : CallState) (peers : ℕ → ℕ × ℕ) (rest : List CallRequest)
    (hne : r.call ≠ call) :
    ((s.serve peers r rest).view call).queue = (s.view call).queue := by
  have hcall : r.event.call ≠ call := hne
  funext w
  rw [view, serve]
  dsimp only
  split_ifs
  · rw [List.filter_append, List.filter_cons_of_neg (by simpa using hcall), List.filter_nil,
      List.append_nil]
    rfl
  · rfl

/-- **A request is served**: its record is written, and its event is on the way. -/
theorem Ok.serve (h : s.Ok peers) (hreq : s.requests = l₁ ++ r :: l₂) :
    (s.serve peers r (l₁ ++ l₂)).Ok peers := by
  have hr : r ∈ s.requests := hreq ▸ List.mem_append_right _ (List.mem_cons_self ..)
  obtain ⟨hknown, hinviter⟩ := h.requests r hr
  have hsub : (l₁ ++ l₂).Sublist s.requests :=
    hreq ▸ List.Sublist.append_left (List.sublist_cons_self r l₂) l₁
  refine ⟨h.located, h.talks, h.rings, fun w e he => ?_,
    fun x hx => h.requests x (hsub.subset hx), fun x hx => ?_, h.sent, fun call => ?_⟩
  · rw [CallState.serve] at he
    dsimp only at he
    split_ifs at he with hpeer
    · rcases List.mem_append.mp he with he | he
      · exact h.queues w e he
      · rw [List.mem_singleton.mp he, closes_event]
        exact ⟨⟨hknown.old, hknown.inviter, hpeer⟩, hinviter⟩
    · exact h.queues w e he
  · rcases List.mem_append.mp hx with hx | hx
    · exact h.served x hx
    · rw [List.mem_singleton.mp hx]
      exact hknown.old
  · rcases eq_or_ne r.call call with rfl | hne
    · have hserved : ((s.serve peers r (l₁ ++ l₂)).view r.call).served =
          (s.view r.call).served ++ [r] := by
        rw [view, CallState.serve]
        dsimp only
        rw [List.filter_append, List.filter_cons_of_pos (by simp)]
        rfl
      have hqueue : ∀ w, ((s.serve peers r (l₁ ++ l₂)).view r.call).queue w =
          (s.view r.call).queue w ++ [r.event] ∨
          ((s.serve peers r (l₁ ++ l₂)).view r.call).queue w = (s.view r.call).queue w := by
        intro w
        rw [queue_serve]
        split_ifs
        · exact .inl rfl
        · exact .inr rfl
      rcases hc : r.closes with _ | _
      · exact (h.closes r.call).serveStart (requests_split hreq) (List.filter_append ..) hserved
          hqueue rfl rfl hc
      · refine (h.closes r.call).serve (requests_split hreq) (List.filter_append ..) hserved
          hqueue (fun w hw => ?_) rfl rfl hc
        rw [queue_serve, if_pos (h.known hw).peer]
    · refine (h.closes call).leave (filter_requests hreq hne) ?_ (queue_serve_of_ne s peers _ hne)
        (fun w hw => hw) fun w hw => hw
      rw [view, CallState.serve]
      dsimp only
      rw [List.filter_append, List.filter_cons_of_neg (by simpa using hne), List.filter_nil,
        List.append_nil]
      rfl

/-- **A request is refused**, and leaves nothing. -/
theorem Ok.refuse (h : s.Ok peers) (hreq : s.requests = l₁ ++ r :: l₂) :
    Ok peers { s with requests := l₁ ++ l₂ } := by
  have hsub : (l₁ ++ l₂).Sublist s.requests :=
    hreq ▸ List.Sublist.append_left (List.sublist_cons_self r l₂) l₁
  refine ⟨h.located, h.talks, h.rings, h.queues, fun x hx => h.requests x (hsub.subset hx),
    h.served, h.sent, fun call => ?_⟩
  rcases eq_or_ne r.call call with rfl | hne
  · exact (h.closes r.call).refuse (requests_split hreq) (List.filter_append ..) rfl rfl rfl rfl
  · exact (h.closes call).leave (filter_requests hreq hne) rfl rfl (fun w hw => hw) fun w hw => hw

end Requests

/-! ### Runs -/

/-- **What a user does** keeps each call in order. -/
theorem Ok.act {a : CallClient.Act} (h : s.Ok peers) (hok : s.Orderly (.act u a)) :
    (s.update u ((s.clients u).act u a)).Ok peers := by
  have hlocated : ((s.clients u).act u a).1.Located := (h.located u).act a
  rcases act_cases u (s.clients u) a with ⟨hfewer, hnil⟩ |
    ⟨call, now, d, rfl, hin, hnil, hrings, htalks, rfl, hstarted⟩ |
    ⟨call, reason, rfl, hin, heq⟩ | ⟨d, now, rfl, hd, hactive, heq⟩
  · exact h.fewer hfewer hlocated hnil
  · exact h.accept hin (hok d.call hin) hlocated hnil hrings htalks hstarted
  · rw [heq]
    exact h.decline hin (hok call hin)
  · rw [heq]
    obtain ⟨hphase, hunopposed⟩ := hok d hd hactive
    exact h.watch hd hactive hphase hunopposed

/-- **What happens** keeps each call in order. -/
theorem Ok.step {a : Act} (h : s.Ok peers) (hok : s.Orderly a) (hstep : Step peers s a t) :
    t.Ok peers := by
  cases hstep with
  | startCall hpeer => exact h.startCall hpeer
  | act => exact h.act hok
  | receive hq => exact h.receive hq
  | lose hq => exact h.lose hq hok
  | serve hreq => exact h.serve hreq
  | refuse hreq => exact h.refuse hreq

/-- At first there are no calls. -/
theorem ok_of_init (h : (system peers).init s) : s.Ok peers := by
  obtain rfl := h
  have hclients : ∀ u, (⟨none, none, none, []⟩ : CallClient).dmCall ≠ some u := by simp
  refine ⟨fun u d hd => absurd hd (hclients d), fun u d hd => absurd hd (hclients d),
    fun u call hc => absurd hc (by simp), fun u e he => absurd he List.not_mem_nil,
    fun r hr => absurd hr List.not_mem_nil, fun r hr => absurd hr List.not_mem_nil,
    fun r hr => absurd hr List.not_mem_nil, fun call => ?_⟩
  exact .of_open rfl (fun u e he => absurd he List.not_mem_nil) fun u _ => Nat.zero_le 1

/-- A record is of the call of its request. -/
theorem closes_of_systemMessage {m : SystemMessage} (h : r.systemMessage = some m) :
    m.call = r.call ∧ r.closes = true := by
  rcases r with ⟨sub, call, _ | (_ | _) | _ | secs, phase⟩
  · exact absurd h (by simp [CallRequest.systemMessage])
  · exact ⟨(Option.some_inj.mp h) ▸ rfl, rfl⟩
  · exact ⟨(Option.some_inj.mp h) ▸ rfl, rfl⟩
  · exact absurd h (by simp [CallRequest.systemMessage])
  · exact ⟨(Option.some_inj.mp h) ▸ rfl, rfl⟩

/-- There are no more messages than closing requests. -/
theorem length_messages_le (served : List CallRequest) (call : Call) :
    ((served.filterMap CallRequest.systemMessage).filter fun m => decide (m.call = call)).length ≤
      (served.filter fun r => r.closes && decide (r.call = call)).length := by
  induction served with
  | nil => exact Nat.le_refl 0
  | cons r served ih =>
    rcases hm : r.systemMessage with _ | m
    · rw [List.filterMap_cons_none hm]
      exact Nat.le_trans ih ((List.sublist_cons_self r served).filter _).length_le
    · obtain ⟨hcall, hcloses⟩ := closes_of_systemMessage hm
      rw [List.filterMap_cons_some hm, List.filter_cons, List.filter_cons, hcall, hcloses,
        Bool.true_and]
      split_ifs
      · exact Nat.succ_le_succ ih
      · exact ih

/-- A call in order has one closing record at most. -/
theorem Ok.oneRecord (h : s.Ok peers) : s.OneRecord := by
  have hclosings : ∀ call,
      (s.served.filter fun r => r.closes && decide (r.call = call)).length ≤ 1 := fun call => by
    have hsub : (s.served.filter fun r => r.closes && decide (r.call = call)).Sublist
        (s.view call).closings := by
      rw [closings, List.filter_append, view]
      dsimp only
      rw [List.filter_filter, List.filter_filter]
      exact List.sublist_append_right _ _
    exact Nat.le_trans hsub.length_le (h.closes call).closed
  exact ⟨hclosings, fun call => Nat.le_trans (length_messages_le s.served call) (hclosings call),
    h.sent⟩

/-- In the orderly runs each call is in order. -/
theorem ok_of_reach (h : (system peers).Reach Orderly s) : s.Ok peers :=
  h.invariant (I := Ok peers) (fun _ => ok_of_init)
    fun _ _ _ hok horderly hstep => hok.step horderly hstep

/-- **A call whose session does not fail has been in its voice channel** once no session of it is
awaited any more. -/
theorem connects_of_awaited (h : (system peers).Reach Awaited s) (u : ℕ) :
    (s.clients u).Connects := by
  refine h.invariant (I := fun s => ∀ u, (s.clients u).Connects) ?_ ?_ u
  · rintro s rfl u d hd
    cases hd
  · intro s a t hall hok hstep
    have hset (v : ℕ) {c : CallClient} (hc : c.Connects) (w : ℕ) :
        (Function.update s.clients v c w).Connects := by
      rw [Function.update_apply]
      split_ifs
      · exact hc
      · exact hall w
    cases hstep with
    | startCall hpeer => exact hset _ (connects_setDmCall _ _ _ _)
    | act =>
      refine hset _ ((hall _).act _ ?_)
      rintro channelId rfl
      exact hok
    | receive hq => exact hset _ ((hall _).on _)
    | lose | serve | refuse => exact hall

/-- An act that awaits the joins is orderly. -/
theorem orderly_of_awaited {a : Act} (h : ∀ u, (s.clients u).Connects) (ha : s.Awaited a) :
    s.Orderly a := by
  rcases a with _ | ⟨u, _ | _ | _ | _ | _ | _ | now | _⟩ | _ | _ | _ | _
  case act.watch =>
    intro d hd hactive
    obtain ⟨hnone, hunopposed⟩ := ha d hd hactive
    exact ⟨fun hwaits => hnone (h u d hd hwaits), hunopposed⟩
  case act.joinFails => trivial
  all_goals exact ha

/-- A run that awaits the joins is orderly. -/
theorem reach_of_awaited (h : (system peers).Reach Awaited s) : (system peers).Reach Orderly s := by
  induction h with
  | start hinit => exact .start hinit
  | step hreach hok hstep ih =>
    exact .step ih (orderly_of_awaited (connects_of_awaited hreach) hok) hstep

end CallState

/-- **A call is closed once**: in the runs in which the effect waits for the voice channel, and
no client acts on a call that the other is closing, at most one closing request of each call
takes effect and writes a message, and a client closes a call it has taken part in only after
its voice connection has been in the channel, and has left it. -/
theorem one_record_of_reach {peers : ℕ → ℕ × ℕ} {s : CallState}
    (h : (CallState.system peers).Reach CallState.Orderly s) : s.OneRecord :=
  (CallState.ok_of_reach h).oneRecord

/-- **So it is if the joins are awaited**: it is enough that the effect waits for the sessions that
have been asked for, and that none of a call fails. -/
theorem one_record_of_awaited {peers : ℕ → ℕ × ℕ} {s : CallState}
    (h : (CallState.system peers).Reach CallState.Awaited s) : s.OneRecord :=
  (CallState.ok_of_reach (CallState.reach_of_awaited h)).oneRecord

/-! ### A call with one record, and one with two -/

/-- The two users of the channel. -/
def pair : ℕ → ℕ × ℕ := fun _ => (1, 2)

namespace CallState

/-- A user does something. -/
def does (s : CallState) (u : ℕ) (a : CallClient.Act) : CallState :=
  s.update u ((s.clients u).act u a)

/-- Nobody is in a call. -/
def idle : CallState := ⟨fun _ => ⟨none, none, none, []⟩, fun _ => [], [], [], [], 0⟩

/-- User 1 has started a call in channel 7. -/
def calling : CallState :=
  { idle.update 1 ((idle.clients 1).startCall 1 ⟨0, 1, 7⟩) with next := 1 }

/-- The call rings at user 2. -/
def ringing : CallState :=
  ((calling.does 1 (.joined 7)).serve pair ⟨1, ⟨0, 1, 7⟩, .start, .waiting⟩ []).received 2
    ⟨1, ⟨0, 1, 7⟩, .invite⟩ []

/-- Both talk. -/
def talking : CallState :=
  ((ringing.does 2 (.accept 5000)).does 2 (.joined 7)).does 1 (.stamp 5000)

/-- User 1 has left. -/
def left : CallState := (talking.does 1 .leaveVoice).does 1 (.watch 70000)

/-- The end has come to the server and to user 2. -/
def concluded : CallState :=
  (left.serve pair ⟨1, ⟨0, 1, 7⟩, .ended 65, .outside⟩ []).received 2
    ⟨1, ⟨0, 1, 7⟩, .ended 65⟩ []

/-- User 2 has left at the same time. -/
def bothLeft : CallState :=
  (((left.does 2 .leaveVoice).does 2 (.watch 70000)).serve pair
    ⟨1, ⟨0, 1, 7⟩, .ended 65, .outside⟩ [⟨2, ⟨0, 1, 7⟩, .ended 65, .outside⟩]).serve pair
    ⟨2, ⟨0, 1, 7⟩, .ended 65, .outside⟩ []

/-- The run in which they come to talk is orderly. -/
theorem reach_talking : (system pair).Reach Orderly talking := by
  have h₁ : (system pair).Reach Orderly calling :=
    .step (.start rfl) (by trivial) (.startCall (.inl rfl))
  have h₂ : (system pair).Reach Orderly (calling.does 1 (.joined 7)) := h₁.step (by trivial) .act
  have h₃ : (system pair).Reach Orderly ringing :=
    (h₂.step (by trivial) (.serve (show _ = [] ++ _ from rfl))).step (by trivial) (.receive rfl)
  have h₄ : (system pair).Reach Orderly (ringing.does 2 (.accept 5000)) := by
    refine h₃.step ?_ .act
    rintro call - (⟨r, hr, -⟩ | ⟨e, he, -⟩)
    · exact absurd hr List.not_mem_nil
    · exact absurd he List.not_mem_nil
  exact (h₄.step (by trivial) .act).step (by trivial) .act

/-- The first user who leaves does so in order: the other takes part in the call, and nothing
about it is on its way. -/
theorem reach_left : (system pair).Reach Orderly left := by
  have hreach : (system pair).Reach Orderly (talking.does 1 .leaveVoice) :=
    reach_talking.step (by trivial) .act
  refine hreach.step ?_ .act
  intro d hd _
  obtain rfl := Option.some_inj.mp hd
  refine ⟨by decide, ?_, ?_, fun v hv => ?_⟩
  · rintro (⟨r, hr, -⟩ | ⟨e, he, -, hc, -⟩)
    · exact absurd hr List.not_mem_nil
    · obtain rfl := List.mem_singleton.mp he
      exact absurd hc (by decide)
  · rintro ⟨r, hr, -⟩
    exact absurd hr List.not_mem_nil
  · rw [if_neg (by decide)]
    intro hr
    rcases ((ok_of_reach hreach).known (.inr (rings_iff.mp hr))).peer with rfl | rfl
    · exact hv rfl
    · rcases hr with hr | ⟨-, e, he, -⟩
      · exact absurd hr (by decide)
      · exact absurd he List.not_mem_nil

/-- So is the one in which the call is concluded. -/
theorem reach_concluded : (system pair).Reach Orderly concluded :=
  (reach_left.step (by trivial) (.serve (show _ = [] ++ _ from rfl))).step (by trivial)
    (.receive rfl)

/-- The run in which both leave is a run. -/
theorem reach_bothLeft : (system pair).Reachable bothLeft := by
  have h₁ : (system pair).Reachable left := reach_left.mono fun _ _ _ => trivial
  have h₂ : (system pair).Reachable ((left.does 2 .leaveVoice).does 2 (.watch 70000)) :=
    (h₁.step trivial .act).step trivial .act
  have h₃ := h₂.step trivial (.serve (show _ = [] ++ _ from rfl))
  exact h₃.step trivial (.serve (show _ = [] ++ _ from rfl))

end CallState

/-- One of the two leaves, and the other is told: one record. -/
theorem ended_once : CallState.concluded.OneRecord ∧ CallState.concluded.messages.length = 1 :=
  ⟨one_record_of_reach CallState.reach_concluded, rfl⟩

/-- **Both leave**: the end of the call is recorded twice. And the effect, run before the voice
channel is there, closes a call at once. -/
theorem ended_twice :
    ((CallState.system pair).Reachable CallState.bothLeft ∧
      CallState.bothLeft.messages.length = 2 ∧ ¬ CallState.bothLeft.OneRecord) ∧
    ((CallState.system pair).Reachable (CallState.calling.does 1 (.watch 1)) ∧
      (CallState.calling.does 1 (.watch 1)).requests.map CallRequest.path = [.start, .cancel] ∧
      ¬ (CallState.calling.does 1 (.watch 1)).OneRecord) := by
  refine ⟨⟨CallState.reach_bothLeft, rfl, fun h => ?_⟩, ?_, rfl, fun h => ?_⟩
  · exact absurd (h.closings ⟨0, 1, 7⟩) (by decide)
  · exact .step (.step (.start rfl) trivial (.startCall (.inl rfl))) trivial .act
  · have := h.left ⟨1, ⟨0, 1, 7⟩, .cancel, .waiting⟩ (by decide) (.inl rfl)
    exact Phase.noConfusion this

end Web

end MateHub
