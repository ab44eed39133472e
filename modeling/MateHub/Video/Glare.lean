import MateHub.Lib.Runs
import MateHub.Video.Client

/-!
# Offers and answers under glare

A client and its participant in the SFU, joined by two links that keep the order of
messages. Both may offer at any time. That an answer of the client meets the offer it
answers holds in every run (`MateHub.Video.Exchange.Paired`): the SFU makes one offer at
a time, and the client answers each once.

The other way round it fails. When the offers of both sides cross, the client rolls its
own back and answers, and the SFU, which has queued the client's offer behind its own,
then answers an offer that the client no longer has
(`MateHub.Video.rolledBack_offer_answered`). It also fails when the client makes an
offer while an earlier one is still on its way. The runs in which neither happens are
those in which the client leaves the state of a local offer only for that offer's answer
while the offer is under way (`MateHub.Video.Exchange.Undisturbed`), and in them both
halves hold (`MateHub.Video.answers_meet_offers`).
-/

namespace MateHub

namespace Video

/-- A client, its participant in the SFU, and the messages between them. -/
structure Exchange where
  client : Client := {}
  sfu : Negotiator := {}
  toSfu : List ClientSdp := []
  toClient : List SfuMessage := []
  deriving DecidableEq, Repr

namespace Exchange

/-- Who takes the next step. -/
inductive Act
  | onopen
  | createAndSendOffer
  | renegotiate
  | setLocalOffer (i : ℕ)
  | refuseLocalOffer (i : ℕ)
  | sendOffer (i : ℕ)
  /-- The client takes the next message of the SFU. -/
  | handleServerMessage
  | setLocalAnswer
  | sendAnswer
  /-- The SFU takes the next message of the client; its transport accepts or refuses. -/
  | handleCommand (accepts : Bool)
  /-- The SFU offers new tracks, or takes those of a departed publisher back. -/
  | makeOffer
  deriving DecidableEq, Repr

/-- What the SFU makes of a message of the client. -/
def sfuHandle (n : Negotiator) (accepts : Bool) : ClientSdp → Negotiator × List SfuMessage
  | .join offer => n.handleJoin accepts offer
  | .offer offer => n.handleClientOffer accepts offer
  | .answer _ => n.handleAnswer accepts

/-- The exchange after an act. -/
def next (x : Exchange) : Act → Exchange
  | .onopen => { x with client := x.client.onopen }
  | .createAndSendOffer => { x with client := x.client.createAndSendOffer }
  | .renegotiate => { x with client := x.client.renegotiate }
  | .setLocalOffer i => { x with client := x.client.setLocalOffer i }
  | .refuseLocalOffer i => { x with client := x.client.refuseLocalOffer i }
  | .sendOffer i =>
    let r := x.client.sendOffer i
    { x with client := r.1, toSfu := x.toSfu ++ r.2 }
  | .handleServerMessage =>
    match x.toClient with
    | [] => x
    | msg :: rest =>
      if x.client.handling = .idle then
        { x with client := x.client.handleServerMessage msg, toClient := rest }
      else x
  | .setLocalAnswer => { x with client := x.client.setLocalAnswer }
  | .sendAnswer =>
    let r := x.client.sendAnswer
    { x with client := r.1, toSfu := x.toSfu ++ r.2 }
  | .handleCommand accepts =>
    match x.toSfu with
    | [] => x
    | msg :: rest =>
      let r := sfuHandle x.sfu accepts msg
      { x with sfu := r.1, toSfu := rest, toClient := x.toClient ++ r.2 }
  | .makeOffer =>
    let r := x.sfu.makeOffer
    { x with sfu := r.1, toClient := x.toClient ++ r.2 }

/-- The steps of an exchange. -/
inductive Step : Exchange → Act → Exchange → Prop
  | next (x : Exchange) (a : Act) : Step x a (x.next a)

/-- The exchange starts before the client connects. -/
def system : System Exchange Act where
  init := fun x => x = {}
  step := Step

/-! ### The offers under way -/

/-- The offer of the client that a message of it carries. -/
def clientOffer? : ClientSdp → Option ℕ
  | .join offer => some offer
  | .offer offer => some offer
  | .answer _ => none

/-- The offer of the client that a message of the SFU answers. -/
def answeredOffer? : SfuMessage → Option ℕ
  | .answer offer => some offer
  | .offer _ => none

/-- The offers of the client that are set as local description and not yet answered and
handled: to be sent, on their way, queued at the SFU, or answered. -/
def underWay (x : Exchange) : List ℕ :=
  x.toClient.filterMap answeredOffer? ++ x.sfu.queuedClientOffer.toList ++
    x.toSfu.filterMap clientOffer? ++ x.client.localSet.map OfferTask.offer

/-- The offer of the SFU that a message of it carries. -/
def sfuOffer? : SfuMessage → Option ℕ
  | .answer _ => none
  | .offer number => some number

/-- The offer of the SFU that a message of the client answers. -/
def sfuAnswered? : ClientSdp → Option ℕ
  | .answer offer => some offer
  | _ => none

/-- The offer of the SFU that the client is handling. -/
def handled? : Handling → Option ℕ
  | .remoteSet offer => some offer
  | .answered offer => some offer
  | _ => none

/-- The offers of the SFU that are on their way to the client, with it, or on their way
back as an answer. -/
def offered (x : Exchange) : List ℕ :=
  x.toClient.filterMap sfuOffer? ++ (handled? x.client.handling).toList ++
    x.toSfu.filterMap sfuAnswered?

/-! ### Answers of the client -/

/-- The message that asks to join. -/
def isJoin : ClientSdp → Bool
  | .join _ => true
  | _ => false

/-- How many Joins there are: to be made, to be sent, on their way, accepted. -/
def joins (x : Exchange) : ℕ :=
  x.client.created.countP OfferTask.join + x.client.localSet.countP OfferTask.join +
    x.toSfu.countP isJoin + x.sfu.joined.toNat

/-- **What holds in every run**: the offer of the SFU that awaits its answer is the one
that is under way, and the peer connection has an offer of the SFU exactly while the
client is to answer it. -/
structure Paired (x : Exchange) : Prop where
  offered : x.offered = x.sfu.pendingOffer.toList
  joined : x.sfu.pendingOffer.isSome → x.sfu.joined = true
  joins : x.joins ≤ x.client.joining.toNat
  remote : ∀ offer, x.client.signaling = .haveRemoteOffer offer ↔
    x.client.handling = .remoteSet offer

/-- **What holds in the undisturbed runs**: the client has one offer under way at most,
which is its local description then, and has rejected nothing. -/
structure Orderly (x : Exchange) : Prop where
  one : x.underWay.length ≤ 1
  localOffer : ∀ offer ∈ x.underWay, x.client.signaling = .haveLocalOffer offer
  accepted : x.client.handling ≠ .rejected

/-- **The condition on a step**: the client sets no local offer, and no offer of the SFU,
while an offer of its own is under way. -/
def Undisturbed (x : Exchange) : Act → Prop
  | .setLocalOffer i => x.client.created[i]?.isSome → x.underWay = []
  | .handleServerMessage => (x.toClient.head?.bind sfuOffer?).isSome →
      x.client.handling = .idle → x.underWay = []
  | _ => True

instance (x : Exchange) (a : Act) : Decidable (x.Undisturbed a) := by
  cases a <;> unfold Undisturbed <;> infer_instance

/-! ### Counting the Joins -/

theorem countP_eraseIdx {α : Type*} {l : List α} {i : ℕ} {a : α} (h : l[i]? = some a)
    (p : α → Bool) : (l.eraseIdx i).countP p + (p a).toNat = l.countP p := by
  obtain ⟨hi, rfl⟩ := List.getElem?_eq_some_iff.mp h
  rw [← (List.getElem_cons_eraseIdx_perm hi).countP_eq p, List.countP_cons]
  cases p l[i] <;> rfl

theorem joins_message (t : OfferTask) : ([t.message].countP isJoin) = t.join.toNat := by
  rw [OfferTask.message]
  cases t.join <;> rfl

/-! ### What the SFU does with the messages of the client -/

/-- A client offer is answered, queued in the place of an older one, or dropped. -/
theorem underWay_handleClientOffer (n : Negotiator) (accepts : Bool) (offer : ℕ) :
    let r := n.handleClientOffer accepts offer
    List.Subperm (r.2.filterMap answeredOffer? ++ r.1.queuedClientOffer.toList)
      (n.queuedClientOffer.toList ++ [offer]) := by
  dsimp only
  unfold Negotiator.handleClientOffer
  split
  · exact (List.sublist_append_left _ _).subperm
  · split
    · exact (List.sublist_append_right _ _).subperm
    · cases accepts with
      | false => exact (List.sublist_append_left _ _).subperm
      | true => exact List.perm_append_comm.subperm

/-- A queued offer is answered or dropped. -/
theorem underWay_drainQueuedOffer (n : Negotiator) (accepts : Bool) :
    let r := n.drainQueuedOffer accepts
    List.Subperm (r.2.filterMap answeredOffer? ++ r.1.queuedClientOffer.toList)
      n.queuedClientOffer.toList := by
  dsimp only
  unfold Negotiator.drainQueuedOffer
  split
  · exact List.Subperm.refl _
  · rename_i offer hq
    rw [hq]
    exact underWay_handleClientOffer { n with queuedClientOffer := none } accepts offer

/-- **Handling a message brings no offer of the client under way.** -/
theorem underWay_sfuHandle (n : Negotiator) (accepts : Bool) (msg : ClientSdp) :
    let r := sfuHandle n accepts msg
    List.Subperm (r.2.filterMap answeredOffer? ++ r.1.queuedClientOffer.toList)
      (n.queuedClientOffer.toList ++ [msg].filterMap clientOffer?) := by
  cases msg with
  | join offer =>
    refine List.Subperm.trans ?_ (List.sublist_append_right _ _).subperm
    cases accepts with
    | false => exact List.nil_subperm
    | true => exact List.Subperm.refl _
  | offer offer => exact underWay_handleClientOffer n accepts offer
  | answer offer =>
    refine List.Subperm.trans ?_ (List.sublist_append_left _ _).subperm
    dsimp only [sfuHandle]
    unfold Negotiator.handleAnswer
    split
    · exact List.Subperm.refl _
    · exact underWay_drainQueuedOffer { n with pendingOffer := none } accepts

/-- Handling a message makes no offer. -/
theorem sfuOffer_handleClientOffer (n : Negotiator) (accepts : Bool) (offer : ℕ) :
    (n.handleClientOffer accepts offer).2.filterMap sfuOffer? = [] ∧
      (n.handleClientOffer accepts offer).1.pendingOffer = n.pendingOffer ∧
      (n.handleClientOffer accepts offer).1.joined = n.joined := by
  unfold Negotiator.handleClientOffer
  split
  · exact ⟨rfl, rfl, rfl⟩
  · split
    · exact ⟨rfl, rfl, rfl⟩
    · cases accepts <;> exact ⟨rfl, rfl, rfl⟩

theorem sfuOffer_drainQueuedOffer (n : Negotiator) (accepts : Bool) :
    (n.drainQueuedOffer accepts).2.filterMap sfuOffer? = [] ∧
      (n.drainQueuedOffer accepts).1.pendingOffer = n.pendingOffer ∧
      (n.drainQueuedOffer accepts).1.joined = n.joined := by
  unfold Negotiator.drainQueuedOffer
  split
  · exact ⟨rfl, rfl, rfl⟩
  · exact sfuOffer_handleClientOffer { n with queuedClientOffer := none } accepts _

theorem sfuOffer_handleAnswer {n : Negotiator} (hjoined : n.joined = true) (accepts : Bool) :
    (n.handleAnswer accepts).2.filterMap sfuOffer? = [] ∧
      (n.handleAnswer accepts).1.pendingOffer = none ∧
      (n.handleAnswer accepts).1.joined = true := by
  have hn : n.handleAnswer accepts = ({ n with pendingOffer := none }).drainQueuedOffer accepts := by
    rw [Negotiator.handleAnswer, hjoined]
    rfl
  rw [hn, ← hjoined]
  exact sfuOffer_drainQueuedOffer { n with pendingOffer := none } accepts

/-! ### The invariants -/

variable {x : Exchange}

theorem paired_init : Paired {} := ⟨rfl, nofun, Nat.le_refl 0, fun _ => ⟨nofun, nofun⟩⟩

/-- An answer of the client that arrives meets the offer it answers. -/
theorem Paired.pendingOffer (h : x.Paired) {offer : ℕ} {rest : List ClientSdp}
    (hto : x.toSfu = .answer offer :: rest) : x.sfu.pendingOffer = some offer ∧
      x.toClient.filterMap sfuOffer? = [] ∧ handled? x.client.handling = none ∧
      rest.filterMap sfuAnswered? = [] := by
  have heq := h.offered
  rw [Exchange.offered, hto, List.filterMap_cons_some (f := sfuAnswered?) (b := offer) rfl] at heq
  have hlen := congrArg List.length heq
  simp only [List.length_append, List.length_cons] at hlen
  rcases hp : x.sfu.pendingOffer with _ | pending
  · rw [hp] at hlen
    simp at hlen
  · rw [hp] at hlen heq
    have h₁ : x.toClient.filterMap sfuOffer? = [] := List.length_eq_zero_iff.mp (by
      simp only [Option.toList_some, List.length_singleton] at hlen
      omega)
    have h₂ : (handled? x.client.handling).toList = [] := List.length_eq_zero_iff.mp (by
      simp only [Option.toList_some, List.length_singleton] at hlen
      omega)
    rw [h₁, h₂] at heq
    obtain ⟨rfl, hrest⟩ := List.cons.inj heq
    exact ⟨rfl, h₁, Option.toList_eq_nil_iff.mp h₂, hrest⟩

theorem Paired.createOffer (h : x.Paired) (join joining : Bool)
    (hj : x.joins + join.toNat ≤ joining.toNat) :
    Paired { x with client := { x.client.createOffer join with joining := joining } } := by
  unfold Client.createOffer
  split
  · exact ⟨h.offered, h.joined, le_trans (Nat.le_add_right _ _) hj, h.remote⟩
  · refine ⟨h.offered, h.joined, ?_, h.remote⟩
    refine le_trans (le_of_eq ?_) hj
    simp only [Exchange.joins, List.countP_append, List.countP_singleton]
    cases join
    · simp
    · simp
      omega

theorem Paired.setLocalOffer (h : x.Paired) (i : ℕ) :
    Paired { x with client := x.client.setLocalOffer i } := by
  unfold Client.setLocalOffer
  split
  · exact h
  · rename_i t ht
    have hcount := countP_eraseIdx ht OfferTask.join
    have hj := h.joins
    simp only [Exchange.joins] at hj
    split
    · refine ⟨h.offered, h.joined, ?_, h.remote⟩
      simp only [Exchange.joins]
      omega
    · rename_i hsig
      refine ⟨h.offered, h.joined, ?_, fun offer => ⟨nofun, fun hh => ?_⟩⟩
      · simp only [Exchange.joins, List.countP_append, List.countP_singleton]
        cases hjoin : t.join <;> simp only [hjoin, Bool.toNat_true, Bool.toNat_false] at hcount ⊢ <;>
          simp <;> omega
      · exact absurd ((h.remote offer).mpr hh) (hsig offer)

theorem Paired.refuseLocalOffer (h : x.Paired) (i : ℕ) :
    Paired { x with client := x.client.refuseLocalOffer i } := by
  refine ⟨h.offered, h.joined, ?_, h.remote⟩
  have hle := (List.eraseIdx_sublist x.client.created i).countP_le (p := OfferTask.join)
  have hj := h.joins
  simp only [Exchange.joins, Client.refuseLocalOffer] at hj ⊢
  omega

theorem Paired.sendOffer (h : x.Paired) (i : ℕ) : (x.next (.sendOffer i)).Paired := by
  dsimp only [next]
  unfold Client.sendOffer
  split
  · rw [List.append_nil]
    exact h
  · rename_i t ht
    have hcount := countP_eraseIdx ht OfferTask.join
    have hj := h.joins
    have hanswered : [t.message].filterMap sfuAnswered? = [] := by
      rw [OfferTask.message]
      cases t.join <;> rfl
    have hmsg := joins_message t
    refine ⟨?_, h.joined, ?_, h.remote⟩
    · rw [← h.offered]
      simp only [Exchange.offered, List.filterMap_append]
      cases x.client.opened <;> simp [hanswered]
    · simp only [Exchange.joins, List.countP_append] at hj ⊢
      cases x.client.opened
      · simp only [Bool.false_eq_true, if_false, List.countP_nil]
        omega
      · simp only [if_true, hmsg]
        omega

theorem Paired.handleServerMessage (h : x.Paired) : (x.next .handleServerMessage).Paired := by
  dsimp only [next]
  split
  · exact h
  · rename_i msg rest hto
    split
    · rename_i hidle
      have hoff := h.offered
      rw [Exchange.offered, hto, hidle] at hoff
      cases msg with
      | answer offer =>
        unfold Client.handleServerMessage
        dsimp only
        split
        · rename_i hsig
          refine ⟨?_, h.joined, h.joins, fun offer => ⟨nofun, fun hh => ?_⟩⟩
          · rw [← hoff, Exchange.offered, hidle]
            rfl
          · rw [hidle] at hh
            cases hh
        · refine ⟨?_, h.joined, h.joins, fun offer => ⟨fun hh => ?_, nofun⟩⟩
          · rw [← hoff]
            rfl
          · have := (h.remote offer).mp hh
            rw [hidle] at this
            cases this
      | offer number =>
        refine ⟨?_, h.joined, h.joins, fun offer => ?_⟩
        · -- the offer moves from the link into the client's hands
          have hrest : rest.filterMap sfuOffer? = [] := by
            have hlen := congrArg List.length hoff
            rw [List.filterMap_cons_some (f := sfuOffer?) (b := number) rfl] at hlen
            simp only [List.length_append, List.length_cons] at hlen
            have hone : x.sfu.pendingOffer.toList.length ≤ 1 := by
              cases x.sfu.pendingOffer <;> simp
            exact List.length_eq_zero_iff.mp (by omega)
          rw [← hoff, List.filterMap_cons_some (f := sfuOffer?) (b := number) rfl]
          simp [Exchange.offered, Client.handleServerMessage, handled?, hrest]
        · simp [Client.handleServerMessage]
    · exact h

theorem Paired.setLocalAnswer (h : x.Paired) :
    Paired { x with client := x.client.setLocalAnswer } := by
  unfold Client.setLocalAnswer
  split
  · rename_i offer hh
    have hsig := (h.remote offer).mpr hh
    rw [hsig]
    refine ⟨?_, h.joined, h.joins, fun offer => ⟨nofun, nofun⟩⟩
    rw [← h.offered, Exchange.offered, Exchange.offered, hh]
    rfl
  · exact h

theorem Paired.sendAnswer (h : x.Paired) : (x.next .sendAnswer).Paired := by
  dsimp only [next]
  unfold Client.sendAnswer
  split
  · rename_i offer hh
    have hoff := h.offered
    rw [Exchange.offered, hh] at hoff
    refine ⟨?_, h.joined, ?_, fun offer' => ⟨fun hsig => ?_, nofun⟩⟩
    · have hlen := congrArg List.length hoff
      have hone : x.sfu.pendingOffer.toList.length ≤ 1 := by
        cases x.sfu.pendingOffer <;> simp
      have hnil : x.toSfu.filterMap sfuAnswered? = [] := List.length_eq_zero_iff.mp (by
        simp only [handled?, Option.toList_some, List.length_append, List.length_singleton] at hlen
        omega)
      rw [← hoff]
      simp [Exchange.offered, handled?, hnil, sfuAnswered?]
    · refine le_trans (le_of_eq ?_) h.joins
      simp [Exchange.joins, isJoin]
    · have := (h.remote offer').mp hsig
      rw [hh] at this
      cases this
  · rw [List.append_nil]
    exact h

theorem Paired.handleCommand (h : x.Paired) (accepts : Bool) :
    (x.next (.handleCommand accepts)).Paired := by
  dsimp only [next]
  split
  · exact h
  · rename_i msg rest hto
    have hoff := h.offered
    have hj := h.joins
    rw [Exchange.offered, hto] at hoff
    rw [Exchange.joins, hto] at hj
    cases msg with
    | join offer =>
      -- the client joins once, so that nothing has been offered yet
      have hone : x.client.joining.toNat ≤ 1 := by cases x.client.joining <;> simp
      have hcons : (ClientSdp.join offer :: rest).countP isJoin = rest.countP isJoin + 1 :=
        List.countP_cons_of_pos rfl
      have hjoined : x.sfu.joined = false := by
        rcases hjo : x.sfu.joined with _ | _
        · rfl
        · rw [hjo, hcons, Bool.toNat_true] at hj
          omega
      have hnone : x.sfu.pendingOffer = none := by
        rcases hp : x.sfu.pendingOffer with _ | pending
        · rfl
        · have := h.joined (by rw [hp]; rfl)
          rw [hjoined] at this
          cases this
      refine ⟨?_, nofun, ?_, h.remote⟩
      · rw [hnone] at hoff
        refine Eq.trans ?_ hoff
        have hrest : (ClientSdp.join offer :: rest).filterMap sfuAnswered? =
            rest.filterMap sfuAnswered? := rfl
        rw [hrest]
        cases accepts with
        | false => simp [Exchange.offered, sfuHandle, Negotiator.handleJoin]
        | true =>
          have hanswer : [SfuMessage.answer offer].filterMap sfuOffer? = [] := rfl
          simp [Exchange.offered, sfuHandle, Negotiator.handleJoin, hanswer]
      · rw [hcons, hjoined] at hj
        cases accepts <;>
          simp only [Exchange.joins, sfuHandle, Negotiator.handleJoin, Bool.toNat_true,
            Bool.toNat_false] at hj ⊢ <;> omega
    | offer offer =>
      obtain ⟨hnil, hpend, hjoined⟩ := sfuOffer_handleClientOffer x.sfu accepts offer
      refine ⟨?_, ?_, ?_, h.remote⟩
      · simp only [Exchange.offered, sfuHandle, List.filterMap_append, hnil, hpend, List.append_nil]
        exact hoff
      · simp only [sfuHandle, hpend, hjoined]
        exact h.joined
      · simp only [Exchange.joins, sfuHandle, hjoined]
        exact hj
    | answer offer =>
      obtain ⟨hpending, hclient, hhandled, hrest⟩ := h.pendingOffer hto
      have hjo := h.joined (by rw [hpending]; rfl)
      obtain ⟨hnil, hpend, hjoined⟩ := sfuOffer_handleAnswer hjo accepts
      refine ⟨?_, ?_, ?_, h.remote⟩
      · simp only [Exchange.offered, sfuHandle, List.filterMap_append, hnil, hpend, hclient,
          hhandled, hrest, Option.toList_none, List.append_nil]
      · simp only [sfuHandle, hpend]
        exact nofun
      · rw [hjo] at hj
        simp only [Exchange.joins, sfuHandle, hjoined]
        exact hj

theorem Paired.makeOffer (h : x.Paired) : (x.next .makeOffer).Paired := by
  dsimp only [next]
  unfold Negotiator.makeOffer
  split
  · rename_i hcan
    rw [Bool.and_eq_true, Option.isNone_iff_eq_none] at hcan
    have hoff := h.offered
    rw [hcan.2] at hoff
    obtain ⟨hleft, hanswered⟩ := List.append_eq_nil_iff.mp hoff
    obtain ⟨hclient, hhandled⟩ := List.append_eq_nil_iff.mp hleft
    refine ⟨?_, fun _ => hcan.1, h.joins, h.remote⟩
    simp [Exchange.offered, hclient, hhandled, hanswered, sfuOffer?]
  · rw [List.append_nil]
    exact h

theorem Paired.step {a : Act} {x' : Exchange} (h : x.Paired) (hstep : Step x a x') :
    x'.Paired := by
  cases hstep
  cases a with
  | onopen => exact ⟨h.offered, h.joined, h.joins, h.remote⟩
  | createAndSendOffer =>
    dsimp only [next]
    unfold Client.createAndSendOffer
    split
    · rename_i hcan
      rw [Bool.and_eq_true, Bool.not_eq_true'] at hcan
      have hnot : x.client.joining = false := hcan.2
      have hj := h.joins
      rw [hnot] at hj
      exact h.createOffer true true (Nat.succ_le_succ hj)
    · exact h
  | renegotiate =>
    have hkeep : (x.client.createOffer false).joining = x.client.joining := by
      unfold Client.createOffer
      split <;> rfl
    have := h.createOffer false x.client.joining h.joins
    rw [← hkeep] at this
    exact this
  | setLocalOffer i => exact h.setLocalOffer i
  | refuseLocalOffer i => exact h.refuseLocalOffer i
  | sendOffer i => exact h.sendOffer i
  | handleServerMessage => exact h.handleServerMessage
  | setLocalAnswer => exact h.setLocalAnswer
  | sendAnswer => exact h.sendAnswer
  | handleCommand accepts => exact h.handleCommand accepts
  | makeOffer => exact h.makeOffer

theorem orderly_init : Orderly {} := ⟨Nat.zero_le 1, nofun, nofun⟩

/-- Nothing new is under way, and the client's state is the same. -/
theorem Orderly.keep {x' : Exchange} (h : x.Orderly) (hsub : x'.underWay.Subperm x.underWay)
    (hsig : x'.client.signaling = x.client.signaling)
    (hacc : x'.client.handling ≠ .rejected) : x'.Orderly where
  one := hsub.length_le.trans h.one
  localOffer := fun offer ho => hsig.trans (h.localOffer offer (hsub.subset ho))
  accepted := hacc

/-- Nothing is under way. -/
theorem Orderly.of_nil {x' : Exchange} (h : x'.underWay = [])
    (hacc : x'.client.handling ≠ .rejected) : x'.Orderly where
  one := by rw [h]; exact Nat.zero_le 1
  localOffer := by rw [h]; exact nofun
  accepted := hacc

theorem Orderly.createOffer (h : x.Orderly) (join joining : Bool) :
    Orderly { x with client := { x.client.createOffer join with joining := joining } } := by
  unfold Client.createOffer
  split
  · exact h.keep (List.Subperm.refl _) rfl h.accepted
  · exact h.keep (List.Subperm.refl _) rfl h.accepted

theorem Orderly.setLocalOffer (h : x.Orderly) {i : ℕ} (hok : x.Undisturbed (.setLocalOffer i)) :
    Orderly { x with client := x.client.setLocalOffer i } := by
  unfold Client.setLocalOffer
  split
  · exact h
  · rename_i t ht
    have hnil : x.underWay = [] := hok (by rw [ht]; rfl)
    split
    · exact h.keep (List.Subperm.refl _) rfl h.accepted
    · -- the offer that is set is the only one under way
      have hone : ({ x with client :=
          { x.client with
            signaling := .haveLocalOffer t.offer
            created := x.client.created.eraseIdx i
            localSet := x.client.localSet ++ [t] } } : Exchange).underWay = [t.offer] := by
        obtain ⟨hlinks, hset⟩ := List.append_eq_nil_iff.mp hnil
        simp only [underWay]
        rw [hlinks, List.map_append, hset]
        rfl
      refine ⟨by rw [hone]; exact Nat.le_refl 1, fun offer ho => ?_, h.accepted⟩
      rw [hone, List.mem_singleton] at ho
      rw [ho]

theorem Orderly.sendOffer (h : x.Orderly) (i : ℕ) : (x.next (.sendOffer i)).Orderly := by
  dsimp only [next]
  unfold Client.sendOffer
  split
  · rw [List.append_nil]
    exact h
  · rename_i t ht
    refine h.keep ?_ rfl h.accepted
    obtain ⟨hi, rfl⟩ := List.getElem?_eq_some_iff.mp ht
    -- the offer moves from the call into the link, or is dropped
    have hmsg : List.Subperm ((if x.client.opened then [x.client.localSet[i].message]
        else []).filterMap clientOffer?) [x.client.localSet[i].offer] := by
      rw [OfferTask.message]
      cases x.client.opened with
      | false => exact List.nil_subperm
      | true => cases x.client.localSet[i].join <;> exact List.Subperm.refl _
    have hperm := (List.getElem_cons_eraseIdx_perm hi).map OfferTask.offer
    simp only [underWay, List.filterMap_append, List.append_assoc]
    refine (List.Subperm.refl _).append ((List.Subperm.refl _).append
      ((List.Subperm.refl _).append ?_))
    exact (hmsg.append (List.Subperm.refl _)).trans hperm.subperm

theorem Orderly.handleServerMessage (h : x.Orderly)
    (hok : x.Undisturbed .handleServerMessage) : (x.next .handleServerMessage).Orderly := by
  dsimp only [next]
  split
  · exact h
  · rename_i msg rest hto
    split
    · rename_i hidle
      cases msg with
      | answer offer =>
        have hmem : offer ∈ x.underWay := by simp [underWay, hto, answeredOffer?]
        have hsig := h.localOffer offer hmem
        have hone := h.one
        have hcons : (SfuMessage.answer offer :: rest).filterMap answeredOffer? =
            offer :: rest.filterMap answeredOffer? := rfl
        refine .of_nil (List.length_eq_zero_iff.mp ?_) ?_
        · simp only [underWay, hto, hcons, List.length_append, List.length_cons] at hone
          simp only [underWay, Client.handleServerMessage, hsig, List.length_append]
          omega
        · simp only [Client.handleServerMessage, hsig]
          exact h.accepted
      | offer number =>
        have hnil := hok (by rw [hto]; rfl) hidle
        refine .of_nil ?_ (fun hrejected => by cases hrejected)
        rw [underWay, hto] at hnil
        exact hnil
    · exact h

theorem Orderly.setLocalAnswer (h : x.Orderly) (hpaired : x.Paired) :
    Orderly { x with client := x.client.setLocalAnswer } := by
  unfold Client.setLocalAnswer
  split
  · rename_i number hh
    have hsig := (hpaired.remote number).mpr hh
    rw [hsig]
    refine .of_nil ?_ nofun
    -- with an offer of the SFU set, none of the client's is under way
    by_contra hne
    obtain ⟨offer, ho⟩ := List.exists_mem_of_ne_nil _ hne
    have hlocal := h.localOffer offer ho
    rw [hsig] at hlocal
    cases hlocal
  · exact h

theorem Orderly.sendAnswer (h : x.Orderly) : (x.next .sendAnswer).Orderly := by
  dsimp only [next]
  unfold Client.sendAnswer
  split
  · rename_i number _
    have hnone : [ClientSdp.answer number].filterMap clientOffer? = [] := rfl
    refine h.keep ?_ rfl nofun
    simp only [underWay, List.filterMap_append, hnone, List.append_nil]
    exact List.Subperm.refl _
  · rw [List.append_nil]
    exact h

theorem Orderly.handleCommand (h : x.Orderly) (accepts : Bool) :
    (x.next (.handleCommand accepts)).Orderly := by
  dsimp only [next]
  split
  · exact h
  · rename_i msg rest hto
    refine h.keep ?_ rfl h.accepted
    have hmsg := underWay_sfuHandle x.sfu accepts msg
    dsimp only at hmsg
    have hcons : (msg :: rest).filterMap clientOffer? =
        [msg].filterMap clientOffer? ++ rest.filterMap clientOffer? :=
      List.filterMap_append (l := [msg])
    simp only [underWay, hto, hcons, List.filterMap_append, List.append_assoc]
    refine (List.Subperm.refl _).append ?_
    rw [← List.append_assoc, ← List.append_assoc (x.sfu.queuedClientOffer.toList)]
    exact hmsg.append (List.Subperm.refl _)

theorem Orderly.makeOffer (h : x.Orderly) : (x.next .makeOffer).Orderly := by
  dsimp only [next]
  unfold Negotiator.makeOffer
  split
  · have hnone : [SfuMessage.offer x.sfu.offers].filterMap answeredOffer? = [] := rfl
    refine h.keep ?_ rfl h.accepted
    simp only [underWay, List.filterMap_append, hnone, List.append_nil]
    exact List.Subperm.refl _
  · rw [List.append_nil]
    exact h

theorem Orderly.step {a : Act} {x' : Exchange} (h : x.Orderly) (hpaired : x.Paired)
    (hok : x.Undisturbed a) (hstep : Step x a x') : x'.Orderly := by
  cases hstep
  cases a with
  | onopen => exact h.keep (List.Subperm.refl _) rfl h.accepted
  | createAndSendOffer =>
    dsimp only [next]
    unfold Client.createAndSendOffer
    split
    · exact h.createOffer true true
    · exact h
  | renegotiate => exact h.createOffer false (x.client.createOffer false).joining
  | setLocalOffer i => exact h.setLocalOffer hok
  | refuseLocalOffer i => exact h.keep (List.Subperm.refl _) rfl h.accepted
  | sendOffer i => exact h.sendOffer i
  | handleServerMessage => exact h.handleServerMessage hok
  | setLocalAnswer => exact h.setLocalAnswer hpaired
  | sendAnswer => exact h.sendAnswer
  | handleCommand accepts => exact h.handleCommand accepts
  | makeOffer => exact h.makeOffer

theorem paired_of_reachable (hx : system.Reachable x) : x.Paired := by
  refine hx.invariant (fun x hinit => ?_) fun x a x' h _ hstep => h.step hstep
  obtain rfl := hinit
  exact paired_init

theorem orderly_of_reach (hx : system.Reach Undisturbed x) : x.Orderly := by
  refine (hx.invariant (I := fun x => x.Paired ∧ x.Orderly) (fun x hinit => ?_)
    fun x a x' h hok hstep => ⟨h.1.step hstep, h.2.step h.1 hok hstep⟩).2
  obtain rfl := hinit
  exact ⟨paired_init, orderly_init⟩

end Exchange

open Exchange

/-- **Offers and answers agree.** In every run in which the client sets no local offer and
no offer of the SFU while an offer of its own is under way, the client never rejects a
message; an answer of the SFU that it is about to handle finds it with the local offer
that the answer is for; and an answer of the client that the SFU is about to handle finds
the offer it is for pending. -/
theorem answers_meet_offers {x : Exchange} (hx : system.Reach Undisturbed x) :
    x.client.handling ≠ .rejected ∧
    (∀ offer rest, x.toClient = .answer offer :: rest → x.client.handling = .idle →
      x.client.signaling = .haveLocalOffer offer) ∧
    ∀ offer rest, x.toSfu = .answer offer :: rest → x.sfu.pendingOffer = some offer := by
  have horderly := orderly_of_reach hx
  refine ⟨horderly.accepted, fun offer rest hto _ => ?_, fun offer rest hto => ?_⟩
  · exact horderly.localOffer offer (by simp [underWay, hto, answeredOffer?])
  · exact ((paired_of_reachable (hx.mono fun _ _ _ => trivial)).pendingOffer hto).1

/-- **The half that always holds**: in every run, an answer of the client meets the offer
it is for. -/
theorem clientAnswer_meets_offer {x : Exchange} (hx : system.Reachable x) {offer : ℕ}
    {rest : List ClientSdp} (hto : x.toSfu = .answer offer :: rest) :
    x.sfu.pendingOffer = some offer :=
  ((paired_of_reachable hx).pendingOffer hto).1

/-! ### Crossing offers -/

/-- The client joins. -/
def joining : List Exchange.Act :=
  [.onopen, .createAndSendOffer, .setLocalOffer 0, .sendOffer 0, .handleCommand true,
    .handleServerMessage]

/-- The client shares its screen after it has answered an offer of the SFU. -/
def offersInTurn : List Exchange.Act :=
  joining ++ [.makeOffer, .handleServerMessage, .setLocalAnswer, .sendAnswer, .handleCommand true,
    .renegotiate, .setLocalOffer 0, .sendOffer 0, .handleCommand true]

theorem reach_offersInTurn :
    system.Reach Undisturbed (offersInTurn.foldl Exchange.next {}) :=
  System.Reach.foldl (M := system) Exchange.Step.next (.start rfl) (by decide)

/-- The answer to the screen share finds the client with that offer. -/
theorem answers_meet_offers_inTurn :
    (offersInTurn.foldl Exchange.next {}).toClient = [.answer 1] ∧
    (offersInTurn.foldl Exchange.next {}).client.signaling = .haveLocalOffer 1 :=
  ⟨by decide, (answers_meet_offers reach_offersInTurn).2.1 1 [] (by decide) (by decide)⟩

/-- The client shares its screen while an offer of the SFU is on its way. -/
def offersCrossing : List Exchange.Act :=
  joining ++ [.makeOffer, .renegotiate, .setLocalOffer 0, .sendOffer 0, .handleServerMessage,
    .setLocalAnswer, .sendAnswer, .handleCommand true, .handleCommand true]

/-- **When offers cross, the SFU answers an offer that is rolled back.** The answer finds
the client without a local offer, the client rejects it, and handles no message any more. -/
theorem rolledBack_offer_answered : ∃ x, system.Reachable x ∧ x.toClient = [.answer 1] ∧
    x.client.handling = .idle ∧ x.client.signaling = .stable ∧
    (x.next .handleServerMessage).client.handling = .rejected :=
  ⟨offersCrossing.foldl Exchange.next {},
    System.reachable_foldl (M := system) rfl Exchange.Step.next offersCrossing,
    by decide, by decide, by decide, by decide⟩

end Video

end MateHub
