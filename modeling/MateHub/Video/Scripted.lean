import MateHub.Video.Str0m

/-!
# A scripted transport

A small value of the parameter `MateHub.Video.Str0m`, on which concrete runs of the
service can be computed. It negotiates media sections and nothing else: an offer of
a client names the sections it adds by a letter each (`a` for audio, `v` for video),
they are announced one after another under the mids 0, 1, 2, …, the sections the SFU
adds get the mids 1000, 1001, …, and an answer is accepted unless it is `"reject"`.

It announces no section twice (`MateHub.Video.Scripted.mediaAddedOnce`).
-/

namespace MateHub

namespace Video

namespace Scripted

/-- A transport that follows a script. -/
structure Rtc where
  alive : Bool := true
  /-- Sections negotiated and not announced yet. -/
  waiting : List MediaKind := []
  /-- Sections announced. -/
  announced : ℕ := 0
  /-- Sections the SFU has added. -/
  added : ℕ := 0
  deriving DecidableEq, Repr

/-- A transport with a staged change: the mids added, and those set inactive. -/
structure SdpApi where
  rtc : Rtc
  media : List Mid := []
  inactive : List Mid := []
  deriving DecidableEq, Repr

/-- The sections an offer adds, one letter each. -/
def parseOffer : List Char → Except String (List MediaKind)
  | [] => .ok []
  | 'a' :: cs => (parseOffer cs).map (.audio :: ·)
  | 'v' :: cs => (parseOffer cs).map (.video :: ·)
  | _ => .error "unknown section"

/-- An offer is a list of sections, of which each is going to be announced. -/
def acceptOffer (api : SdpApi) (offer : List MediaKind) : Rtc :=
  { api.rtc with waiting := api.rtc.waiting ++ offer }

/-- A section with a number of its own is added. -/
def addMedia (api : SdpApi) : SdpApi × Mid :=
  let mid := 1000 + api.rtc.added
  ({ api with
      rtc := { api.rtc with added := api.rtc.added + 1 }
      media := api.media ++ [mid] }, mid)

/-- The changes make an offer if there are any. -/
def apply (api : SdpApi) : Rtc × Option (List Mid × List Mid) :=
  (api.rtc, if api.media.isEmpty && api.inactive.isEmpty then none else some (api.media, api.media))

/-- The sections are announced one after the other. -/
def pollOutput (rtc : Rtc) : Rtc × Output :=
  match rtc.waiting with
  | [] => (rtc, .timeout 0)
  | kind :: rest =>
    ({ rtc with waiting := rest, announced := rtc.announced + 1 },
      .event (.mediaAdded rtc.announced kind))

end Scripted

open Scripted in
/-- The scripted transport. -/
def scripted : Str0m where
  Rtc := Rtc
  SdpApi := SdpApi
  SdpOffer := List MediaKind ⊕ List Mid
  SdpAnswer := Bool
  SdpPendingOffer := List Mid
  PayloadParams := Pt
  Candidate := String
  DatagramRecv := List UInt8
  offerOfJson := fun _ => none
  offerOfSdp := fun text => (parseOffer text.toList).map .inl
  offerText := fun
    | .inl kinds => String.ofList (kinds.map fun _ => 'm')
    | .inr mids => String.ofList (mids.map fun _ => 'm')
  answerOfJson := fun _ => none
  answerOfSdp := fun text => .ok (text ≠ "reject")
  answerText := fun ok => if ok then "accept" else "reject"
  candidateOfSdp := .ok
  hostCandidate := fun _ => "host"
  datagram := some
  build := fun _ _ => {}
  addLocalCandidate := fun rtc _ => rtc
  addRemoteCandidate := fun rtc _ => rtc
  disconnect := fun rtc => { rtc with alive := false }
  isAlive := Rtc.alive
  accepts := fun _ _ _ _ _ => true
  handleReceive := fun rtc _ _ _ _ => (rtc, .ok ())
  handleTimeout := fun rtc _ => rtc
  pollOutput := fun rtc => ((pollOutput rtc).1, .ok (pollOutput rtc).2)
  sdpApi := fun rtc => { rtc := rtc }
  acceptOffer := fun api offer => match offer with
    | .inl kinds => (acceptOffer api kinds, .ok true)
    | .inr _ => (api.rtc, .error "not an offer of a client")
  acceptAnswer := fun api _ ok => (api.rtc, if ok then .ok () else .error "rejected")
  addMedia := fun api _ _ _ => addMedia api
  setDirection := fun api mid _ => { api with inactive := api.inactive ++ [mid] }
  hasChanges := fun api => !(api.media.isEmpty && api.inactive.isEmpty)
  apply := fun api => ((apply api).1, (apply api).2.map fun r => (.inr r.1, r.2))
  dropChange := SdpApi.rtc
  streamRx := fun _ _ => none
  requestKeyframe := fun rtc _ => some rtc
  findPayload := fun _ _ => none
  matchParams := fun _ _ => none
  pt := id
  isRtx := fun _ => false
  writeRtp := fun rtc _ _ => some rtc

namespace Scripted

/-- The scripted transport, with other outputs and with packets. -/
def scriptedWith (pollOutput : Rtc → Rtc × Except String Output)
    (streamRx : Rtc → Ssrc → Option (Mid × Option Rid)) (params : Rtc → Pt → Option Pt) : Str0m :=
  { scripted with
    pollOutput := pollOutput
    streamRx := streamRx
    findPayload := params
    matchParams := params }

/-- What a call does to the count of announced sections and to the life of the transport. -/
theorem call_scriptedWith (pollOutput : Rtc → Rtc × Except String Output)
    (streamRx : Rtc → Ssrc → Option (Mid × Option Rid)) (params : Rtc → Pt → Option Pt)
    {rtc rtc' : (scriptedWith pollOutput streamRx params).Rtc}
    (h : (scriptedWith pollOutput streamRx params).Call rtc rtc') :
    rtc' = (pollOutput rtc).1 ∨
      Rtc.announced rtc' = Rtc.announced rtc ∧ (Rtc.alive rtc = false → Rtc.alive rtc' = false) := by
  have hstaged : ∀ {api}, (scriptedWith pollOutput streamRx params).Staged rtc api →
      (SdpApi.rtc api).announced = Rtc.announced rtc ∧
        (Rtc.alive rtc = false → (SdpApi.rtc api).alive = false) := by
    intro api hapi
    induction hapi with
    | sdpApi => exact ⟨rfl, id⟩
    | addMedia _ _ _ _ ih => exact ih
    | setDirection _ _ _ ih => exact ih
  cases h with
  | pollOutput => exact .inl rfl
  | addRemoteCandidate => exact .inr ⟨rfl, id⟩
  | disconnect => exact .inr ⟨rfl, fun _ => rfl⟩
  | handleReceive => exact .inr ⟨rfl, id⟩
  | handleTimeout => exact .inr ⟨rfl, id⟩
  | acceptOffer offer => rcases offer with kinds | mids <;> exact .inr ⟨rfl, id⟩
  | acceptAnswer => exact .inr ⟨rfl, id⟩
  | apply hapi => exact .inr (hstaged hapi)
  | dropChange hapi => exact .inr (hstaged hapi)
  | requestKeyframe h =>
    rw [← Option.some.inj h]
    exact .inr ⟨rfl, id⟩
  | writeRtp h =>
    rw [← Option.some.inj h]
    exact .inr ⟨rfl, id⟩

theorem announced_le_pollOutput (rtc : Rtc) :
    rtc.announced ≤ (pollOutput rtc).1.announced := by
  rcases hw : Rtc.waiting rtc with _ | ⟨kind, rest⟩
  · simp [pollOutput, hw]
  · simp [pollOutput, hw]

theorem announce_pollOutput {rtc rtc' : Rtc} {mid : Mid} {kind : MediaKind}
    (h : scripted.pollOutput rtc = (rtc', .ok (.event (.mediaAdded mid kind)))) :
    mid = rtc.announced ∧ rtc'.announced = rtc.announced + 1 := by
  obtain ⟨hrtc, hout⟩ : (pollOutput rtc).1 = rtc' ∧
      (pollOutput rtc).2 = .event (.mediaAdded mid kind) :=
    ⟨congrArg Prod.fst h, Except.ok.inj (congrArg Prod.snd h)⟩
  rcases hw : Rtc.waiting rtc with _ | ⟨kind', rest⟩
  · simp [pollOutput, hw] at hout
  · simp only [pollOutput, hw, Output.event.injEq, Event.mediaAdded.injEq] at hrtc hout
    exact ⟨hout.1.symm, by rw [← hrtc]⟩

/-- The sections announced are those below the count, if each is announced under the count. -/
def mediaRecord (pollOutput : Rtc → Rtc × Except String Output)
    (streamRx : Rtc → Ssrc → Option (Mid × Option Rid)) (params : Rtc → Pt → Option Pt)
    (hpoll : ∀ rtc, rtc.announced ≤ (pollOutput rtc).1.announced)
    (hannounce : ∀ {rtc rtc' mid kind},
      pollOutput rtc = (rtc', .ok (.event (.mediaAdded mid kind))) →
        mid = rtc.announced ∧ rtc'.announced = rtc.announced + 1) :
    (scriptedWith pollOutput streamRx params).MediaRecord where
  announced := fun rtc => {mid | mid < Rtc.announced rtc}
  announce := fun {rtc rtc' mid kind} h => by
    obtain ⟨rfl, hnext⟩ := hannounce h
    have hlt : Rtc.announced rtc < Rtc.announced rtc' := hnext ▸ Nat.lt_succ_self _
    exact ⟨Nat.lt_irrefl (Rtc.announced rtc), hlt⟩
  call := fun {rtc rtc'} h mid hmid => by
    have hmid : mid < Rtc.announced rtc := hmid
    rcases call_scriptedWith pollOutput streamRx params h with rfl | ⟨hsame, -⟩
    · exact lt_of_lt_of_le hmid (hpoll rtc)
    · exact hsame.symm ▸ hmid

theorem mediaAddedOnce : scripted.MediaAddedOnce :=
  ⟨mediaRecord scripted.pollOutput scripted.streamRx scripted.findPayload
    announced_le_pollOutput announce_pollOutput⟩

end Scripted

end Video

end MateHub
