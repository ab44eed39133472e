import MateHub.Lib.Labels
import MateHub.Lib.Runs
import MateHub.Video.Sfu.Negotiator

/-!
# The sources of published tracks

A client says with `publish_track` where a track comes from, and sends the track with a
later offer. The SFU keeps these hints in one queue for every kind, and a new track takes
the oldest hint of its kind; a track that finds none is a camera or a microphone.
`MateHub.Video.Publisher` is what this sees of a participant: its negotiation, its
queues, and the new media lines of the offers that were taken up.

The id of the track, which the hint names, is read nowhere. So the hints are served in
the order in which they came, none twice and none to another kind, whatever becomes of
the offers (`MateHub.Video.Publisher.fifo_of_reach`); and a track is labelled with the
hint that was declared for it exactly as long as the lines that are taken up meet the
hints in this order (`MateHub.Video.sources_of_reach`).
-/

namespace MateHub

namespace Video

/-- `publish_track`, with the id of the track it names. -/
structure SourceHint where
  source : Source
  kind : MediaKind
  track : String
  deriving DecidableEq, Repr

/-- A media line of an offer of the client, and the track that is sent with it. -/
structure MediaLine where
  mid : Mid
  kind : MediaKind
  track : String
  deriving DecidableEq, Repr

/-- A track in the list of its publisher, with the hint it took, and the one that was
declared for it. -/
structure LabelledTrack where
  line : MediaLine
  source : Source
  hint : Option SourceHint
  declared : Option SourceHint
  deriving DecidableEq, Repr

/-- A participant, as far as the sources of its tracks go. -/
structure Publisher where
  negotiator : Negotiator := {}
  /-- The hints that wait, by kind. -/
  pendingSourceHints : MediaKind → List SourceHint := fun _ => []
  /-- The media lines the transport knows. -/
  negotiated : List Mid := []
  /-- New media lines, which the next polls will report. -/
  added : List MediaLine := []
  tracksIn : List LabelledTrack := []
  /-- The hints that were queued since the participant joined. -/
  received : List SourceHint := []
  /-- All the hints the client has sent. -/
  declared : List SourceHint := []

/-- The kind of a track is that of its line. -/
def LabelledTrack.kind (t : LabelledTrack) : MediaKind := t.line.kind

/-- The track is labelled with the hint that was declared for it. -/
def LabelledTrack.Right (t : LabelledTrack) : Prop :=
  t.hint = t.declared ∧ t.source = (t.declared.map SourceHint.source).getD .camera

namespace Publisher

/-! ### The handlers -/

/-- The hint that a list of hints declares for a track: the latest. -/
def hintFor (hints : List SourceHint) (track : String) : Option SourceHint :=
  (hints.filter fun h => h.track = track).getLast?

/-- The lines of an offer that the transport does not know. -/
def newLines (p : Publisher) (ls : List MediaLine) : List MediaLine :=
  ls.filter fun l => l.mid ∉ p.negotiated

/-- The transport takes up an offer. -/
def takeUp (p : Publisher) (ls : List MediaLine) : Publisher :=
  { p with
    negotiated := p.negotiated ++ (p.newLines ls).map MediaLine.mid
    added := p.added ++ p.newLines ls }

/-- The offer that is answered. -/
def answered : List SfuMessage → Option ℕ
  | .answer offer :: _ => some offer
  | _ => none

/-- The entry of a new track. -/
def entry (declared : List SourceHint) (l : MediaLine) (hint : Option SourceHint) :
    LabelledTrack :=
  ⟨l, (hint.map SourceHint.source).getD .camera, hint, hintFor declared l.track⟩

/-- `handle_publish_track`. -/
def handlePublishTrack (p : Publisher) (h : SourceHint) : Publisher :=
  if !p.negotiator.joined then { p with declared := p.declared ++ [h] }
  else { p with
    pendingSourceHints :=
      Function.update p.pendingSourceHints h.kind (p.pendingSourceHints h.kind ++ [h])
    received := p.received ++ [h]
    declared := p.declared ++ [h] }

/-- `Event::MediaAdded`, for the line that has waited longest. -/
def mediaAdded (p : Publisher) : Publisher :=
  match p.added with
  | [] => p
  | l :: rest =>
    { p with
      pendingSourceHints :=
        Function.update p.pendingSourceHints l.kind (p.pendingSourceHints l.kind).tail
      added := rest
      tracksIn := p.tracksIn ++ [entry p.declared l (p.pendingSourceHints l.kind).head?] }

/-- All lines are reported. -/
def settled (p : Publisher) : Publisher := mediaAdded^[p.added.length] p

/-- The participant is gone, with its transport. -/
def gone (p : Publisher) : Publisher := { negotiator := p.negotiator, declared := p.declared }

/-- `handle_leave`. -/
def handleLeave (p : Publisher) : Publisher :=
  { p.gone with negotiator :=
    { p.negotiator with joined := false, pendingOffer := none, queuedClientOffer := none } }

/-- An offer of the SFU is made. -/
def makeOffer (p : Publisher) : Publisher := { p with negotiator := p.negotiator.makeOffer.1 }

/-- What happens to a participant. -/
inductive Act
  | publishTrack (hint : SourceHint)
  | clientOffer (accepts : Bool) (offer : ℕ)
  | answer (accepts : Bool)
  | join (accepts : Bool) (offer : ℕ)
  | leave
  | makeOffer
  | mediaAdded
  deriving DecidableEq, Repr

section Lines

-- the lines with which the client sends, in every offer it makes
variable (lines : ℕ → List MediaLine)

/-- A step of the negotiation; the offer that is answered is taken up. -/
def exchange (p : Publisher) (r : Negotiator × List SfuMessage) : Publisher :=
  match answered r.2 with
  | none => { p with negotiator := r.1 }
  | some offer => ({ p with negotiator := r.1 }).takeUp (lines offer)

/-- `handle_client_offer`. -/
def handleClientOffer (p : Publisher) (accepts : Bool) (offer : ℕ) : Publisher :=
  p.exchange lines (p.negotiator.handleClientOffer accepts offer)

/-- `handle_answer`. -/
def handleAnswer (p : Publisher) (accepts : Bool) : Publisher :=
  p.exchange lines (p.negotiator.handleAnswer accepts)

/-- `handle_join`. -/
def handleJoin (p : Publisher) (accepts : Bool) (offer : ℕ) : Publisher :=
  p.gone.exchange lines (p.negotiator.handleJoin accepts offer)

/-- The publisher after an act. -/
def next (p : Publisher) : Act → Publisher
  | .publishTrack hint => p.handlePublishTrack hint
  | .clientOffer accepts offer => p.handleClientOffer lines accepts offer
  | .answer accepts => p.handleAnswer lines accepts
  | .join accepts offer => p.handleJoin lines accepts offer
  | .leave => p.handleLeave
  | .makeOffer => p.makeOffer
  | .mediaAdded => p.mediaAdded

/-- From no participant on, the steps in any order. -/
def system : System Publisher Act where
  init := fun p => p = {}
  step := fun p a p' => p' = p.next lines a

end Lines

/-! ### Hints in order -/

/-- **First come, first served**: of every kind, the hints of the tracks and then those that
wait are the hints that came, in their order. A track without a hint is a camera. -/
structure Fifo (p : Publisher) : Prop where
  served : ∀ kind, (Labels.ofKind LabelledTrack.kind p.tracksIn kind).filterMap
      LabelledTrack.hint ++ p.pendingSourceHints kind =
    Labels.ofKind SourceHint.kind p.received kind
  sources : ∀ t ∈ p.tracksIn, t.source = (t.hint.map SourceHint.source).getD .camera

variable {p : Publisher} {lines : ℕ → List MediaLine}

theorem fifo_gone : p.gone.Fifo := ⟨fun _ => rfl, nofun⟩

/-- Steps that touch neither the queues nor the tracks. -/
theorem Fifo.congr {p' : Publisher} (h : p.Fifo)
    (hhints : p'.pendingSourceHints = p.pendingSourceHints) (htracks : p'.tracksIn = p.tracksIn)
    (hreceived : p'.received = p.received) : p'.Fifo :=
  ⟨by rw [hhints, htracks, hreceived]; exact h.served, by rw [htracks]; exact h.sources⟩

theorem Fifo.exchange (h : p.Fifo) (r : Negotiator × List SfuMessage) :
    (p.exchange lines r).Fifo := by
  unfold Publisher.exchange
  split <;> exact h.congr rfl rfl rfl

theorem Fifo.handlePublishTrack (h : p.Fifo) (hint : SourceHint) :
    (p.handlePublishTrack hint).Fifo := by
  rw [Publisher.handlePublishTrack]
  split
  · exact h.congr rfl rfl rfl
  · refine ⟨fun kind => ?_, h.sources⟩
    have hserved := h.served kind
    dsimp only
    rcases eq_or_ne kind hint.kind with rfl | hne
    · rw [Function.update_self, Labels.ofKind_concat_of_eq rfl, ← List.append_assoc, hserved]
    · rw [Function.update_of_ne hne, Labels.ofKind_concat_of_ne hne.symm, hserved]

theorem Fifo.mediaAdded (h : p.Fifo) : p.mediaAdded.Fifo := by
  rw [Publisher.mediaAdded]
  split
  · exact h
  · rename_i l rest _
    refine ⟨fun kind => ?_, fun t ht => ?_⟩
    · have hkind : (entry p.declared l (p.pendingSourceHints l.kind).head?).kind = l.kind := rfl
      rw [← h.served kind]
      dsimp only
      rcases eq_or_ne kind l.kind with rfl | hne
      · rw [Function.update_self, Labels.ofKind_concat_of_eq hkind, List.filterMap_append,
          List.append_assoc]
        -- the oldest hint, if there is one, goes from the queue to the track
        cases p.pendingSourceHints l.kind <;> simp [entry]
      · rw [Function.update_of_ne hne, Labels.ofKind_concat_of_ne (hkind.trans_ne hne.symm)]
    · rcases List.mem_append.mp ht with ht | ht
      · exact h.sources t ht
      · rw [List.mem_singleton.mp ht]
        rfl

theorem Fifo.next (h : p.Fifo) (a : Act) : (p.next lines a).Fifo := by
  cases a with
  | publishTrack hint => exact h.handlePublishTrack hint
  | clientOffer accepts offer => exact h.exchange _
  | answer accepts => exact h.exchange _
  | join accepts offer => exact fifo_gone.exchange _
  | leave => exact (fifo_gone (p := p)).congr rfl rfl rfl
  | makeOffer => exact h.congr rfl rfl rfl
  | mediaAdded => exact h.mediaAdded

theorem fifo_of_reach (h : (system lines).Reachable p) : p.Fifo := by
  refine h.invariant ?_ ?_
  · rintro _ rfl
    exact ⟨fun _ => rfl, nofun⟩
  · rintro p a _ hp - rfl
    exact hp.next a

/-! ### Hints for the right tracks -/

/-- The lines that are yet to be reported are those for which the oldest hints of their
kind were declared, one for one. -/
def Paired (p : Publisher) : Prop :=
  Labels.AllPaired MediaLine.kind (fun l => hintFor p.declared l.track) p.added
    p.pendingSourceHints

/-- With the new lines of an offer behind them, too. -/
def Suits (p : Publisher) (ls : List MediaLine) : Prop :=
  Labels.AllPaired MediaLine.kind (fun l => hintFor p.declared l.track) (p.added ++ p.newLines ls)
    p.pendingSourceHints

/-- **The lines meet the hints**: an offer that is taken up suits the hints that wait, and
so do the lines that are not yet reported when a hint comes. -/
def Fits (lines : ℕ → List MediaLine) (p : Publisher) : Act → Prop
  | .publishTrack hint =>
    Labels.AllPaired MediaLine.kind (fun l => hintFor (p.declared ++ [hint]) l.track) p.added
      (Function.update p.pendingSourceHints hint.kind (p.pendingSourceHints hint.kind ++ [hint]))
  | .clientOffer accepts offer =>
    p.negotiator.joined → p.negotiator.pendingOffer = none → accepts → p.Suits (lines offer)
  | .answer accepts =>
    p.negotiator.joined → accepts →
      ∀ offer, p.negotiator.queuedClientOffer = some offer → p.Suits (lines offer)
  | .join accepts offer => accepts → ∀ l ∈ lines offer, hintFor p.declared l.track = none
  | _ => True

theorem right_entry {declared : List SourceHint} {l : MediaLine} {hint : Option SourceHint} :
    (entry declared l hint).Right ↔ hint = hintFor declared l.track :=
  ⟨fun h => h.1, fun h => ⟨h, by rw [entry, h]⟩⟩

/-- A line is reported. -/
theorem mediaAdded_eq {l : MediaLine} {rest : List MediaLine} (h : p.added = l :: rest) :
    p.mediaAdded = { p with
      pendingSourceHints :=
        Function.update p.pendingSourceHints l.kind (p.pendingSourceHints l.kind).tail
      added := rest
      tracksIn := p.tracksIn ++ [entry p.declared l (p.pendingSourceHints l.kind).head?] } := by
  rw [mediaAdded, h]

theorem mediaAdded_of_nil (h : p.added = []) : p.mediaAdded = p := by
  rw [mediaAdded, h]

/-- Every line takes the hint that the queues assign to it. -/
theorem tracksIn_settled : p.settled.tracksIn = p.tracksIn ++
    (Labels.assign MediaLine.kind p.added p.pendingSourceHints).map fun a =>
      entry p.declared a.1 a.2 := by
  rw [settled]
  generalize hadded : p.added = ls
  induction ls generalizing p with
  | nil => simp [Labels.assign]
  | cons l rest ih =>
    rw [List.length_cons, Function.iterate_succ_apply, mediaAdded_eq hadded, ih rfl]
    simp [Labels.assign]

/-- The tracks are all right once the lines are reported if and only if the lines are
paired with the hints. -/
theorem right_settled_iff (h : ∀ t ∈ p.tracksIn, t.Right) :
    (∀ t ∈ p.settled.tracksIn, t.Right) ↔ p.Paired := by
  rw [Paired, ← Labels.assign_meant_iff, tracksIn_settled, List.forall_mem_append,
    List.forall_mem_map]
  exact (and_iff_right h).trans (forall₂_congr fun _ _ => right_entry)

theorem paired_mediaAdded (h : p.Paired) : p.mediaAdded.Paired := by
  rcases hadded : p.added with _ | ⟨l, rest⟩
  · rwa [mediaAdded_of_nil hadded]
  · rw [Paired, hadded, Labels.allPaired_cons] at h
    rw [mediaAdded_eq hadded]
    exact h.2

theorem right_mediaAdded (h : p.Paired) (hright : ∀ t ∈ p.tracksIn, t.Right) :
    ∀ t ∈ p.mediaAdded.tracksIn, t.Right := by
  rcases hadded : p.added with _ | ⟨l, rest⟩
  · rwa [mediaAdded_of_nil hadded]
  · rw [Paired, hadded, Labels.allPaired_cons] at h
    rw [mediaAdded_eq hadded]
    intro t ht
    rcases List.mem_append.mp ht with ht | ht
    · exact hright t ht
    · rw [List.mem_singleton.mp ht, right_entry]
      exact h.1.symm

/-! ### Which offers are taken up -/

theorem answered_handleClientOffer (n : Negotiator) (accepts : Bool) (offer : ℕ) :
    answered (n.handleClientOffer accepts offer).2 =
      if n.joined ∧ n.pendingOffer = none ∧ accepts then some offer else none := by
  rw [Negotiator.handleClientOffer]
  rcases n with ⟨_ | _, _ | pending, queued, offers⟩ <;> cases accepts <;> rfl

theorem answered_handleAnswer (n : Negotiator) (accepts : Bool) :
    answered (n.handleAnswer accepts).2 =
      if n.joined ∧ accepts then n.queuedClientOffer else none := by
  rcases n with ⟨_ | _, pending, _ | offer, offers⟩ <;> cases accepts <;> rfl

theorem answered_handleJoin (n : Negotiator) (accepts : Bool) (offer : ℕ) :
    answered (n.handleJoin accepts offer).2 = if accepts then some offer else none := by
  cases accepts <;> rfl

theorem paired_exchange {r : Negotiator × List SfuMessage} (h : p.Paired) :
    (p.exchange lines r).Paired ↔ ∀ offer, answered r.2 = some offer → p.Suits (lines offer) := by
  rw [exchange]
  rcases answered r.2 with _ | offer
  · exact iff_of_true h nofun
  · simp only [Option.some.injEq, forall_eq']
    exact Iff.rfl

/-! ### Runs -/

/-- Nothing is reported for a participant that is not there. -/
def Vacant (p : Publisher) : Prop := p.negotiator.joined = false → p.added = []

theorem joined_handleClientOffer (n : Negotiator) (accepts : Bool) (offer : ℕ) :
    (n.handleClientOffer accepts offer).1.joined = n.joined := by
  rw [Negotiator.handleClientOffer]
  split
  · rfl
  · split <;> rfl

theorem joined_handleAnswer (n : Negotiator) (accepts : Bool) :
    (n.handleAnswer accepts).1.joined = n.joined := by
  rw [Negotiator.handleAnswer]
  split
  · rfl
  · rw [Negotiator.drainQueuedOffer]
    split
    · rfl
    · exact joined_handleClientOffer _ _ _

theorem negotiator_exchange (r : Negotiator × List SfuMessage) :
    (p.exchange lines r).negotiator = r.1 := by
  unfold exchange
  split <;> rfl

theorem tracksIn_exchange (r : Negotiator × List SfuMessage) :
    (p.exchange lines r).tracksIn = p.tracksIn := by
  unfold exchange
  split <;> rfl

/-- Only a participant that is there is answered. -/
theorem Vacant.exchange (h : p.added = [] ∨ p.negotiator.joined = true)
    {r : Negotiator × List SfuMessage} (hjoined : p.negotiator.joined = true → r.1.joined = true)
    (hanswered : ∀ offer, answered r.2 = some offer → r.1.joined = true) :
    (p.exchange lines r).Vacant := by
  intro hnot
  rw [negotiator_exchange] at hnot
  have hadded : p.added = [] :=
    h.resolve_right fun hj => Bool.false_ne_true (hnot.symm.trans (hjoined hj))
  rw [Publisher.exchange]
  split
  · exact hadded
  · rename_i offer heq
    exact absurd (hanswered offer heq) (by rw [hnot]; exact Bool.false_ne_true)

theorem Vacant.next (h : p.Vacant) (a : Act) : (p.next lines a).Vacant := by
  have hor : p.added = [] ∨ p.negotiator.joined = true := by
    rcases hj : p.negotiator.joined with _ | _
    · exact .inl (h hj)
    · exact .inr rfl
  cases a with
  | publishTrack hint =>
    rw [Publisher.next, Publisher.handlePublishTrack]
    split <;> exact h
  | clientOffer accepts offer =>
    refine Vacant.exchange hor (fun hj => ?_) fun o ho => ?_
    · rwa [joined_handleClientOffer]
    · rw [answered_handleClientOffer] at ho
      rw [joined_handleClientOffer]
      by_contra hj
      rw [if_neg fun hc => hj hc.1] at ho
      cases ho
  | answer accepts =>
    refine Vacant.exchange hor (fun hj => ?_) fun o ho => ?_
    · rwa [joined_handleAnswer]
    · rw [answered_handleAnswer] at ho
      rw [joined_handleAnswer]
      by_contra hj
      rw [if_neg fun hc => hj hc.1] at ho
      cases ho
  | join accepts offer =>
    intro hnot
    rw [Publisher.next, Publisher.handleJoin, negotiator_exchange] at hnot
    obtain rfl : accepts = false := hnot
    rfl
  | leave => exact fun _ => rfl
  | makeOffer =>
    rw [Publisher.next, Publisher.makeOffer, Negotiator.makeOffer]
    split <;> exact h
  | mediaAdded =>
    intro hnot
    rcases hadded : p.added with _ | ⟨l, rest⟩
    · rw [Publisher.next, mediaAdded_of_nil hadded, hadded]
    · rw [Publisher.next, mediaAdded_eq hadded] at hnot
      exact absurd (hadded.symm.trans (h hnot)) (List.cons_ne_nil l rest)

/-- **What a step makes of the pairing**: it holds afterwards exactly if the lines meet
the hints. -/
theorem paired_next_iff (hpaired : p.Paired) (hvacant : p.Vacant) (a : Act) :
    (p.next lines a).Paired ↔ Fits lines p a := by
  cases a with
  | publishTrack hint =>
    rw [next, handlePublishTrack, Fits]
    split
    · rename_i hnot
      rw [Paired]
      dsimp only
      rw [hvacant (by simpa using hnot)]
      exact iff_of_true Labels.allPaired_nil Labels.allPaired_nil
    · exact Iff.rfl
  | clientOffer accepts offer =>
    rw [next, handleClientOffer, paired_exchange hpaired, answered_handleClientOffer, Fits]
    constructor
    · intro h hj hpend hacc
      exact h offer (if_pos ⟨hj, hpend, hacc⟩)
    · intro h o ho
      split_ifs at ho with hc
      obtain rfl := Option.some_inj.mp ho
      exact h hc.1 hc.2.1 hc.2.2
  | answer accepts =>
    rw [next, handleAnswer, paired_exchange hpaired, answered_handleAnswer, Fits]
    constructor
    · intro h hj hacc o ho
      exact h o ((if_pos ⟨hj, hacc⟩).trans ho)
    · intro h o ho
      split_ifs at ho with hc
      exact h hc.1 hc.2 o ho
  | join accepts offer =>
    have hgone : p.gone.Paired := Labels.allPaired_nil
    rw [next, handleJoin, paired_exchange hgone, answered_handleJoin, Fits]
    have hsuits (o : ℕ) :
        p.gone.Suits (lines o) ↔ ∀ l ∈ lines o, hintFor p.declared l.track = none := by
      have hnew : p.gone.added ++ p.gone.newLines (lines o) = lines o :=
        List.filter_eq_self.mpr fun l _ => by simp [gone]
      rw [Suits, hnew]
      exact Labels.allPaired_empty
    constructor
    · intro h hacc
      exact (hsuits offer).mp (h offer (if_pos hacc))
    · intro h o ho
      split_ifs at ho with hacc
      obtain rfl := Option.some_inj.mp ho
      exact (hsuits offer).mpr (h hacc)
  | leave => exact iff_of_true Labels.allPaired_nil trivial
  | makeOffer => exact iff_of_true hpaired trivial
  | mediaAdded => exact iff_of_true (paired_mediaAdded hpaired) trivial

theorem right_next (hpaired : p.Paired) (h : ∀ t ∈ p.tracksIn, t.Right) (a : Act) :
    ∀ t ∈ (p.next lines a).tracksIn, t.Right := by
  cases a with
  | publishTrack hint =>
    rw [next, handlePublishTrack]
    split <;> exact h
  | clientOffer accepts offer => rwa [next, handleClientOffer, tracksIn_exchange]
  | answer accepts => rwa [next, handleAnswer, tracksIn_exchange]
  | join accepts offer =>
    rw [next, handleJoin, tracksIn_exchange]
    exact fun _ => nofun
  | leave => exact fun _ => nofun
  | makeOffer => exact h
  | mediaAdded => exact right_mediaAdded hpaired h

/-- What holds in every state of a run whose lines meet the hints. -/
structure Ok (p : Publisher) : Prop where
  vacant : p.Vacant
  paired : p.Paired
  right : ∀ t ∈ p.tracksIn, t.Right

theorem ok_of_reach (h : (system lines).Reach (Fits lines) p) : p.Ok := by
  refine h.invariant ?_ ?_
  · rintro _ rfl
    exact ⟨fun _ => rfl, Labels.allPaired_nil, nofun⟩
  · rintro p a _ hp hfits rfl
    exact ⟨hp.vacant.next a, (paired_next_iff hp.paired hp.vacant a).mpr hfits,
      right_next hp.paired hp.right a⟩

end Publisher

end Video

end MateHub
