import MateHub.Video.Scripted
import MateHub.Video.Sfu.Pump

/-!
# A buffered transport

A small value of the parameter `MateHub.Video.Str0m` that carries packets. It negotiates like
`MateHub.Video.scripted`, and beyond that it has a slot for the packet of a datagram, reports a
disconnection after every timeout, and keeps what is written to it until it is polled. A datagram
names the SSRC of its packet, and may name the payload type; the empty one is refused. A stream is
sent on the sections of an answer, unless the answer is `"decline"`.

It is a pump (`MateHub.Video.Buffered.pump`).
-/

namespace MateHub

namespace Video

namespace Buffered

/-- A transport with a slot for one packet. -/
structure Rtc where
  base : Scripted.Rtc := {}
  /-- Disconnections not reported yet. -/
  lost : ℕ := 0
  slot : Option RtpPacket := none
  /-- The payloads written and not sent yet. -/
  written : List (List UInt8) := []
  /-- Sections with a send stream. -/
  streams : List Mid := []
  deriving DecidableEq, Repr

/-- A transport with a staged change. -/
structure SdpApi where
  rtc : Rtc
  staged : Scripted.SdpApi
  deriving DecidableEq, Repr

/-- The transport when the change is over. -/
def SdpApi.leave (api : SdpApi) (base : Scripted.Rtc) : Rtc := { api.rtc with base := base }

/-- The payload type of media, and the one of retransmissions. -/
def mediaPt : Pt := 111

/-- The payload type of retransmissions. -/
def rtxPt : Pt := 97

/-- A packet of a source. -/
def packet (ssrc : Ssrc) (pt : Pt) : RtpPacket where
  ssrc := ssrc
  payloadType := pt
  headerTimestamp := 0
  marker := false
  extVals := {}
  seqNo := 0
  timestamp := 0
  payload := [1]

/-- A datagram names the source of a packet and may name its payload type; an empty one is
refused. -/
def receive (rtc : Rtc) : List UInt8 → Rtc × Except String Unit
  | [] => (rtc, .error "empty datagram")
  | [ssrc] => ({ rtc with slot := some (packet ssrc.toNat mediaPt) }, .ok ())
  | ssrc :: pt :: _ => ({ rtc with slot := some (packet ssrc.toNat pt.toNat) }, .ok ())

/-- The event of a disconnection. -/
def disconnection : Event := .iceConnectionStateChange .disconnected

/-- The slot is emptied first, then what has been lost is reported. -/
def pollOutput (rtc : Rtc) : Rtc × Output :=
  match rtc.slot with
  | some pkt => ({ rtc with slot := none }, .event (.rtpPacket pkt))
  | none =>
    match rtc.lost with
    | n + 1 => ({ rtc with lost := n }, .event disconnection)
    | 0 =>
      match rtc.base.waiting with
      | _ :: _ => ({ rtc with base := (Scripted.pollOutput rtc.base).1 },
          (Scripted.pollOutput rtc.base).2)
      | [] =>
        match rtc.written with
        | d :: rest => ({ rtc with written := rest }, .transmit (0, 0) d)
        | [] => (rtc, .timeout 0)

/-- An answer is refused, declines, or opens send streams for what was offered. -/
def acceptAnswer (api : SdpApi) (pending : List Mid) (answer : String) : Rtc × Except String Unit :=
  if answer = "reject" then (api.leave api.staged.rtc, .error "rejected")
  else if answer = "decline" then (api.leave api.staged.rtc, .ok ())
  else ({ api.leave api.staged.rtc with streams := api.rtc.streams ++ pending }, .ok ())

/-- A write to a section with a send stream. -/
def writeRtp (rtc : Rtc) (mid : Mid) (w : RtpWrite) : Option Rtc :=
  if mid ∈ rtc.streams then some { rtc with written := rtc.written ++ [w.payload] } else none

end Buffered

open Buffered in
/-- The buffered transport. -/
def buffered : Str0m where
  Rtc := Rtc
  SdpApi := SdpApi
  SdpOffer := List MediaKind ⊕ List Mid
  SdpAnswer := String
  SdpPendingOffer := List Mid
  PayloadParams := Pt
  Candidate := String
  DatagramRecv := List UInt8
  offerOfJson := scripted.offerOfJson
  offerOfSdp := scripted.offerOfSdp
  offerText := scripted.offerText
  answerOfJson := fun _ => none
  answerOfSdp := .ok
  answerText := id
  candidateOfSdp := .ok
  hostCandidate := fun _ => "host"
  datagram := some
  build := fun _ _ => {}
  addLocalCandidate := fun rtc _ => rtc
  addRemoteCandidate := fun rtc _ => rtc
  disconnect := fun rtc => { rtc with base := scripted.disconnect rtc.base }
  isAlive := fun rtc => rtc.base.alive
  accepts := fun _ _ _ _ _ => true
  handleReceive := fun rtc _ _ _ contents => receive rtc contents
  handleTimeout := fun rtc _ => { rtc with lost := rtc.lost + 1 }
  pollOutput := fun rtc => ((pollOutput rtc).1, .ok (pollOutput rtc).2)
  sdpApi := fun rtc => { rtc := rtc, staged := { rtc := rtc.base } }
  acceptOffer := fun api offer => match offer with
    | .inl kinds => (api.leave (Scripted.acceptOffer api.staged kinds), .ok "accept")
    | .inr _ => (api.leave api.staged.rtc, .error "not an offer of a client")
  acceptAnswer := acceptAnswer
  addMedia := fun api _ _ _ =>
    ({ api with staged := (Scripted.addMedia api.staged).1 }, (Scripted.addMedia api.staged).2)
  setDirection := fun api mid dir =>
    { api with staged := scripted.setDirection api.staged mid dir }
  hasChanges := fun api => scripted.hasChanges api.staged
  apply := fun api => (api.leave (Scripted.apply api.staged).1,
    (Scripted.apply api.staged).2.map fun r => (.inr r.1, r.2))
  dropChange := fun api => api.leave api.staged.rtc
  streamRx := fun _ ssrc => some (ssrc, none)
  requestKeyframe := fun rtc _ => some rtc
  findPayload := fun _ pt => some pt
  matchParams := fun _ pt => some pt
  pt := id
  isRtx := fun pt => pt = rtxPt
  writeRtp := writeRtp

namespace Buffered

/-! ### What it keeps -/

/-- The outputs that wait. -/
def outputs (rtc : Rtc) : List Output :=
  List.replicate rtc.lost (.event disconnection) ++
    (rtc.base.waiting.zipIdx rtc.base.announced).map (fun e => .event (.mediaAdded e.2 e.1)) ++
    rtc.written.map (.transmit (0, 0))

/-- **A call that is not about packets** may add outputs, and brings nothing to life. -/
structure Grows (rtc rtc' : Rtc) : Prop where
  announced : rtc'.base.announced = rtc.base.announced
  alive : rtc.base.alive = false → rtc'.base.alive = false
  waiting : rtc.base.waiting <+: rtc'.base.waiting
  lost : rtc.lost ≤ rtc'.lost
  slot : rtc'.slot = rtc.slot
  written : rtc'.written = rtc.written

theorem Grows.refl (rtc : Rtc) : Grows rtc rtc := ⟨rfl, id, List.prefix_rfl, le_rfl, rfl, rfl⟩

theorem Grows.outputs_subperm {rtc rtc' : Rtc} (h : Grows rtc rtc') :
    (outputs rtc).Subperm (outputs rtc') := by
  obtain ⟨more, hmore⟩ := h.waiting
  rw [outputs, outputs, h.written, h.announced, ← hmore, List.zipIdx_append, List.map_append]
  refine List.Sublist.subperm (.append (.append ?_ ?_) (.refl _))
  · exact List.replicate_sublist_replicate _ |>.mpr h.lost
  · exact List.sublist_append_left _ _

/-- A staged change is one of the transport underneath. -/
theorem staged_spec {rtc : buffered.Rtc} {api : buffered.SdpApi} (h : buffered.Staged rtc api) :
    SdpApi.rtc api = rtc ∧ Grows rtc (SdpApi.leave api (SdpApi.staged api).rtc) := by
  induction h with
  | sdpApi => exact ⟨rfl, .refl rtc⟩
  | addMedia kind dir streamId _ ih =>
    exact ⟨ih.1, ih.2.announced, ih.2.alive, ih.2.waiting, ih.2.lost, ih.2.slot, ih.2.written⟩
  | setDirection mid dir _ ih => exact ih

theorem grows_acceptOffer (rtc : buffered.Rtc) (offer : buffered.SdpOffer) :
    Grows rtc (buffered.acceptOffer (buffered.sdpApi rtc) offer).1 := by
  rcases offer with kinds | mids
  · exact ⟨rfl, id, List.prefix_append _ _, le_rfl, rfl, rfl⟩
  · exact .refl rtc

theorem grows_acceptAnswer (rtc : buffered.Rtc) (pending : List Mid) (answer : String) :
    Grows rtc (buffered.acceptAnswer (buffered.sdpApi rtc) pending answer).1 := by
  change Grows rtc (acceptAnswer _ pending answer).1
  unfold acceptAnswer
  split_ifs
  · exact .refl rtc
  · exact .refl rtc
  · exact ⟨rfl, id, List.prefix_rfl, le_rfl, rfl, rfl⟩

theorem grows_handleTimeout (rtc : buffered.Rtc) (now : Instant) :
    Grows rtc (buffered.handleTimeout rtc now) :=
  ⟨rfl, id, List.prefix_rfl, Nat.le_succ _, rfl, rfl⟩

theorem grows_tend {rtc rtc' : buffered.Rtc} (h : Str0m.Tend rtc rtc') : Grows rtc rtc' := by
  cases h with
  | addRemoteCandidate c => exact .refl rtc
  | handleTimeout now => exact grows_handleTimeout rtc now
  | acceptOffer offer => exact grows_acceptOffer rtc offer
  | acceptAnswer pending answer => exact grows_acceptAnswer rtc pending answer
  | apply hapi => exact (staged_spec hapi).2
  | dropChange hapi => exact (staged_spec hapi).2
  | requestKeyframe h =>
    obtain rfl := Option.some.inj h
    exact .refl _

/-- What is polled is the packet of the slot, or the first of the outputs. -/
theorem pollOutput_spec (rtc : Rtc) :
    (∃ pkt, rtc.slot = some pkt ∧
      pollOutput rtc = ({ rtc with slot := none }, .event (.rtpPacket pkt))) ∨
    rtc.slot = none ∧
      (outputs rtc = [] ∧ pollOutput rtc = (rtc, .timeout 0) ∨
      outputs rtc = (pollOutput rtc).2 :: outputs (pollOutput rtc).1 ∧
        (pollOutput rtc).1.slot = none ∧
        (pollOutput rtc).1.written <:+ rtc.written ∧
        (∀ t, (pollOutput rtc).2 ≠ .timeout t) ∧
        ∀ pkt, (pollOutput rtc).2 ≠ .event (.rtpPacket pkt)) := by
  rcases rtc with ⟨⟨alive, waiting, announced, added⟩, lost, _ | pkt, written, streams⟩
  · refine .inr ⟨rfl, ?_⟩
    rcases lost with _ | n
    · rcases waiting with _ | ⟨kind, rest⟩
      · rcases written with _ | ⟨d, rest⟩
        · exact .inl ⟨rfl, rfl⟩
        · exact .inr ⟨rfl, rfl, List.suffix_cons d rest, by simp [pollOutput], by simp [pollOutput]⟩
      · exact .inr ⟨by simp [outputs, pollOutput, Scripted.pollOutput], rfl, List.suffix_rfl,
          by simp [pollOutput, Scripted.pollOutput], by simp [pollOutput, Scripted.pollOutput]⟩
    · exact .inr ⟨rfl, rfl, List.suffix_rfl, by simp [pollOutput],
        by simp [pollOutput, disconnection]⟩
  · exact .inl ⟨pkt, rfl, rfl⟩

/-! ### It is a pump -/

theorem pollOutput_eq {rtc rtc' : buffered.Rtc} {o : Output}
    (h : buffered.pollOutput rtc = (rtc', .ok o)) : pollOutput rtc = (rtc', o) := by
  have hrtc : (pollOutput rtc).1 = rtc' := congrArg Prod.fst h
  have hout : (pollOutput rtc).2 = o := Except.ok.inj (congrArg Prod.snd h)
  exact Prod.ext hrtc hout

/-- The packets that wait to be sent. -/
def unsent (rtc : Rtc) : List Output := rtc.written.map (.transmit (0, 0))

theorem timeout_spec {rtc rtc' : Rtc} {t : Instant} (h : pollOutput rtc = (rtc', .timeout t)) :
    rtc.slot = none ∧ outputs rtc = [] ∧ rtc' = rtc := by
  rcases pollOutput_spec rtc with ⟨pkt, -, heq⟩ | ⟨hslot, ⟨hnil, heq⟩ | ⟨-, -, -, hne, -⟩⟩
  · rw [heq] at h
    cases h
  · rw [heq] at h
    exact ⟨hslot, hnil, (Prod.mk.inj h).1.symm⟩
  · exact absurd (congrArg Prod.snd h) (hne t)

theorem take_spec {rtc rtc' : Rtc} {o : Output} (h : pollOutput rtc = (rtc', o))
    (ho : ∀ t, o ≠ .timeout t) :
    outputs rtc = o :: outputs rtc' ∧ rtc'.written <:+ rtc.written ∧ rtc'.slot = rtc.slot ∨
    ∃ pkt, o = .event (.rtpPacket pkt) ∧ rtc.slot = some pkt ∧ rtc' = { rtc with slot := none } := by
  rcases pollOutput_spec rtc with ⟨pkt, hslot, heq⟩ | ⟨hslot, ⟨-, heq⟩ | ⟨hcons, hnone, hsuffix, -, -⟩⟩
  · rw [heq] at h
    obtain ⟨rfl, rfl⟩ := Prod.mk.inj h
    exact .inr ⟨pkt, rfl, hslot, rfl⟩
  · rw [heq] at h
    exact absurd (Prod.mk.inj h).2.symm (ho 0)
  · rw [h] at hcons hnone hsuffix
    exact .inl ⟨hcons, hsuffix, hnone.trans hslot.symm⟩

theorem receive_spec {rtc rtc' : Rtc} {contents : List UInt8}
    (h : receive rtc contents = (rtc', .ok ())) :
    ∃ pkt, rtc' = { rtc with slot := some pkt } := by
  unfold receive at h
  split at h
  · cases h
  · exact ⟨_, (Prod.mk.inj h).1.symm⟩
  · exact ⟨_, (Prod.mk.inj h).1.symm⟩

theorem writeRtp_spec {rtc rtc' : Rtc} {mid : Mid} {w : RtpWrite}
    (h : writeRtp rtc mid w = some rtc') :
    unsent rtc' = unsent rtc ++ [.transmit (0, 0) w.payload] ∧
      outputs rtc' = outputs rtc ++ [.transmit (0, 0) w.payload] ∧ rtc'.slot = rtc.slot := by
  unfold writeRtp at h
  split_ifs at h
  obtain rfl := Option.some.inj h
  refine ⟨by rw [unsent, unsent, List.map_append]; rfl, ?_, rfl⟩
  rw [outputs, outputs, List.map_append, ← List.append_assoc]
  rfl

/-- The buffered transport is one as the event loop takes it to be. -/
def pump : buffered.Pump where
  queue := fun rtc => (outputs rtc : Multiset Output)
  unsent := fun rtc => (unsent rtc : Multiset Output)
  slot := Rtc.slot
  unsent_le := fun _ => Multiset.coe_le.mpr (List.sublist_append_right _ _).subperm
  build := fun _ _ => ⟨rfl, rfl⟩
  timeout := fun _ h => by
    obtain ⟨hslot, hnil, rfl⟩ := timeout_spec (pollOutput_eq h)
    exact ⟨⟨congrArg _ hnil, hslot⟩, congrArg _ hnil, hslot⟩
  take := fun _ h ho => by
    rcases take_spec (pollOutput_eq h) ho with ⟨hcons, hsuffix, hslot⟩ | ⟨pkt, hpkt, hslot, rfl⟩
    · exact .inl ⟨congrArg _ hcons, Multiset.coe_le.mpr (hsuffix.sublist.map _).subperm, hslot⟩
    · exact .inr ⟨pkt, hpkt, hslot, rfl, rfl, rfl⟩
  addLocalCandidate := fun _ _ => ⟨le_rfl, rfl, rfl⟩
  tend := fun h => by
    have hgrows := grows_tend h
    exact ⟨Multiset.coe_le.mpr hgrows.outputs_subperm,
      congrArg Multiset.ofList (congrArg (List.map _) hgrows.written), hgrows.slot⟩
  receive := fun h => by
    obtain ⟨pkt, rfl⟩ := receive_spec h
    exact ⟨le_rfl, rfl, .inr ⟨pkt, rfl⟩⟩
  writeRtp := fun {rtc _ mid w} h => by
    obtain ⟨hunsent, houtputs, hslot⟩ := writeRtp_spec h
    exact ⟨([.transmit (0, 0) w.payload] : List Output), fun o ho =>
      ⟨_, _, List.mem_singleton.mp (Multiset.mem_coe.mp ho)⟩, congrArg Multiset.ofList houtputs,
      congrArg Multiset.ofList hunsent, hslot⟩
  requestKeyframe := fun h => by
    obtain rfl := Option.some.inj h
    exact ⟨0, fun o ho => absurd ho (Multiset.notMem_zero o), (add_zero _).symm⟩

/-! ### It is final, and announces a section once -/

/-- A poll is one of the transport underneath, or leaves it alone. -/
theorem base_pollOutput (rtc : Rtc) : (pollOutput rtc).1.base = rtc.base ∨
    (pollOutput rtc).1.base = (Scripted.pollOutput rtc.base).1 := by
  unfold pollOutput
  split
  · exact .inl rfl
  · split
    · exact .inl rfl
    · split
      · exact .inr rfl
      · split <;> exact .inl rfl

/-- What a call does to the announced sections and to the life of the transport. -/
theorem call_spec {rtc rtc' : buffered.Rtc} (h : buffered.Call rtc rtc') :
    (Rtc.base rtc).announced ≤ (Rtc.base rtc').announced ∧
      ((Rtc.base rtc).alive = false → (Rtc.base rtc').alive = false) := by
  have htended (htend : Str0m.Tend rtc rtc') :
      (Rtc.base rtc).announced ≤ (Rtc.base rtc').announced ∧
        ((Rtc.base rtc).alive = false → (Rtc.base rtc').alive = false) :=
    ⟨(grows_tend htend).announced.ge, (grows_tend htend).alive⟩
  cases h with
  | pollOutput =>
    change (Rtc.base rtc).announced ≤ (pollOutput rtc).1.base.announced ∧
      ((Rtc.base rtc).alive = false → (pollOutput rtc).1.base.alive = false)
    rcases base_pollOutput rtc with heq | heq
    · rw [heq]
      exact ⟨le_rfl, id⟩
    · rw [heq]
      refine ⟨Scripted.announced_le_pollOutput _, fun hdead => ?_⟩
      unfold Scripted.pollOutput
      split <;> exact hdead
  | disconnect => exact ⟨le_rfl, fun _ => rfl⟩
  | handleReceive now src dst contents =>
    change (Rtc.base rtc).announced ≤ (receive rtc contents).1.base.announced ∧
      ((Rtc.base rtc).alive = false → (receive rtc contents).1.base.alive = false)
    unfold receive
    split <;> exact ⟨le_rfl, id⟩
  | writeRtp h =>
    change writeRtp rtc _ _ = some rtc' at h
    unfold writeRtp at h
    split_ifs at h
    obtain rfl := Option.some.inj h
    exact ⟨le_rfl, id⟩
  | addRemoteCandidate c => exact htended (.addRemoteCandidate rtc c)
  | handleTimeout now => exact htended (.handleTimeout rtc now)
  | acceptOffer offer => exact htended (.acceptOffer rtc offer)
  | acceptAnswer pending answer => exact htended (.acceptAnswer rtc pending answer)
  | apply hapi => exact htended (.apply hapi)
  | dropChange hapi => exact htended (.dropChange hapi)
  | requestKeyframe h => exact htended (.requestKeyframe h)

theorem final : Str0m.Final (S := buffered) Eq where
  disconnect := fun _ => rfl
  call := fun h => (call_spec h).2
  panicked := fun h hdead => h ▸ hdead

theorem announce_pollOutput {rtc rtc' : Rtc} {mid : Mid} {kind : MediaKind}
    (h : pollOutput rtc = (rtc', .event (.mediaAdded mid kind))) :
    mid = rtc.base.announced ∧ rtc'.base.announced = rtc.base.announced + 1 := by
  unfold pollOutput at h
  split at h
  · cases h
  · split at h
    · cases h
    · split at h
      · rename_i hwaiting
        rw [Scripted.pollOutput, hwaiting] at h
        cases h
        exact ⟨rfl, rfl⟩
      · split at h <;> cases h

theorem mediaAddedOnce : buffered.MediaAddedOnce :=
  ⟨{  announced := fun rtc => {mid | mid < (Rtc.base rtc).announced}
      announce := fun h => by
        obtain ⟨rfl, hnext⟩ := announce_pollOutput (pollOutput_eq h)
        exact ⟨Nat.lt_irrefl _, hnext ▸ Nat.lt_succ_self _⟩
      call := fun h _ hmid => lt_of_lt_of_le hmid (call_spec h).1 }⟩

end Buffered

end Video

end MateHub
