import MateHub.Video.Sfu.Attend
import MateHub.Video.Sfu.Panics

/-!
# What keeps the flag of a dead participant

The zombie sweep goes by `ice_disconnected` and by `last_activity_at`. Once the transport of a
participant is dead, the flag stays as it is: only an ICE event writes it, a dead transport is
polled for none, and a Join brings a participant of its own. The last activity stays too, as long
as the transport is given no datagram that it accepts (`MateHub.Video.SfuShard.Deaf`).
`MateHub.Video.SfuShard.Keeping` says so for two states of the shard, and
`MateHub.Video.SfuShard.keeping_perform` for every step but the Join of the participant itself
and the panic that sets the flag.
-/

namespace MateHub

namespace Video

variable {S : Str0m} {leaves : S.Rtc → S.Rtc → Prop}

/-- **Disconnecting is final**: it makes `is_alive` false, and nothing makes it true again. -/
structure Str0m.Final (leaves : S.Rtc → S.Rtc → Prop) : Prop where
  disconnect : ∀ rtc, S.isAlive (S.disconnect rtc) = false
  call : ∀ {rtc rtc'}, S.Call rtc rtc' → S.isAlive rtc = false → S.isAlive rtc' = false
  panicked : ∀ {rtc rtc'}, leaves rtc rtc' → S.isAlive rtc = false → S.isAlive rtc' = false

theorem Str0m.Final.evolves (hfinal : Str0m.Final leaves) {rtc rtc' : S.Rtc}
    (h : S.Evolves rtc rtc') (hdead : S.isAlive rtc = false) : S.isAlive rtc' = false := by
  induction h with
  | refl => exact hdead
  | tail _ hcall ih => exact hfinal.call hcall ih

theorem Str0m.Final.touched (hfinal : Str0m.Final leaves) {rtc rtc' : S.Rtc}
    (h : Str0m.Touched leaves rtc rtc') (hdead : S.isAlive rtc = false) :
    S.isAlive rtc' = false := by
  induction h with
  | refl => exact hdead
  | tail _ htouch ih =>
    cases htouch with
    | writeRtp h => exact hfinal.call (.writeRtp h) ih
    | requestKeyframe h => exact hfinal.call (.requestKeyframe h) ih
    | panicked h => exact hfinal.panicked h ih

/-- **A dead participant stays dead**, with its flag, and with its last activity if it is
`deaf`. -/
def SfuParticipant.Keeps (deaf : Prop) (p p' : SfuParticipant S) : Prop :=
  S.isAlive p.rtc = false → S.isAlive p'.rtc = false ∧ p'.iceDisconnected = p.iceDisconnected ∧
    (deaf → p'.lastActivityAt = p.lastActivityAt)

variable {deaf : Prop}

theorem SfuParticipant.Keeps.trans {p p' p'' : SfuParticipant S} (h : p.Keeps deaf p')
    (h' : p'.Keeps deaf p'') : p.Keeps deaf p'' := by
  intro hdead
  obtain ⟨hdead', hflag, hactive⟩ := h hdead
  obtain ⟨hdead'', hflag', hactive'⟩ := h' hdead'
  exact ⟨hdead'', hflag'.trans hflag, fun hdeaf => (hactive' hdeaf).trans (hactive hdeaf)⟩

theorem Bystander.keeps (hfinal : Str0m.Final leaves) {p p' : SfuParticipant S}
    (h : Bystander leaves p p') : p.Keeps deaf p' := fun hdead =>
  ⟨hfinal.touched h.rtc hdead, h.iceDisconnected, fun _ => h.lastActivityAt⟩

namespace SfuShard

variable {sid : SessionId} {pid : ParticipantId} {st st' st'' : SfuShard S}

/-- Whoever is there was there, and kept what the sweep goes by if it was dead. -/
def Keeping (deaf : Prop) (sid : SessionId) (pid : ParticipantId) (st st' : SfuShard S) : Prop :=
  ∀ p', st'.participant? sid pid = some p' →
    ∃ p, st.participant? sid pid = some p ∧ p.Keeps deaf p'

namespace Keeping

theorem of_eq (h : st'.participant? sid pid = st.participant? sid pid) :
    Keeping deaf sid pid st st' :=
  fun p' hp' => ⟨p', h ▸ hp', fun hdead => ⟨hdead, rfl, fun _ => rfl⟩⟩

theorem refl (st : SfuShard S) : Keeping deaf sid pid st st := of_eq rfl

theorem of_rel {R : SfuParticipant S → SfuParticipant S → Prop}
    (h : Option.Rel R (st.participant? sid pid) (st'.participant? sid pid))
    (hR : ∀ p p', R p p' → p.Keeps deaf p') : Keeping deaf sid pid st st' := by
  intro p' hp'
  rw [hp'] at h
  obtain ⟨p, hp, hr⟩ := h.some_right
  exact ⟨p, hp, hR p p' hr⟩

/-- Somebody is written back. -/
theorem set {sid' : SessionId} {pid' : ParticipantId} {p p' : SfuParticipant S}
    (hp : st.participant? sid' pid' = some p) (h : sid' = sid → pid' = pid → p.Keeps deaf p') :
    Keeping deaf sid pid st (st.setParticipant sid' pid' p') := by
  intro q hq
  rw [participant?_setParticipant hp] at hq
  by_cases heq : sid = sid' ∧ pid = pid'
  · obtain ⟨rfl, rfl⟩ := heq
    rw [if_pos ⟨rfl, rfl⟩] at hq
    obtain rfl := Option.some.inj hq
    exact ⟨p, hp, h rfl rfl⟩
  · rw [if_neg heq] at hq
    exact refl st q hq

end Keeping

/-- **The participant is given no datagram** that its transport accepts, if that is dead. -/
def Deaf (st : SfuShard S) (sid : SessionId) (pid : ParticipantId) : Piece S → Prop
  | .command (.udpInput sid' pid' source data) _ now =>
    sid' = sid → pid' = pid → ∀ p contents, st.participant? sid pid = some p →
      S.isAlive p.rtc = false → S.datagram data = some contents →
        S.accepts p.rtc now source st.primaryCandidateAddr contents = false
  | _ => True

theorem participant?_rehashed (h : Rehashed st st') :
    st'.participant? sid pid = st.participant? sid pid := by
  have hrel := h.sessions sid
  rw [participant?, participant?]
  cases hs : st.session? sid with
  | none =>
    rw [hs] at hrel
    rw [hrel.none_left]
  | some s =>
    rw [hs] at hrel
    obtain ⟨s', hs', hr⟩ := hrel.some_left
    rw [hs', Option.bind_some, Option.bind_some]
    exact (AList.perm_lookup hr.participants).symm

/-! ### Commands -/

section Commands

variable (hfinal : Str0m.Final leaves)

include hfinal

/-- A participant that has been attended to. -/
theorem Attends.keeping (h : Attends sid pid st st') : Keeping deaf sid pid st st' := by
  intro p' hp'
  obtain ⟨p, hp, ha⟩ := h.participant p' hp'
  obtain ⟨hflag, hactive⟩ := Prod.mk.inj ha.marks
  exact ⟨p, hp, fun hdead => ⟨hfinal.evolves ha.evolves hdead, hflag, fun _ => hactive⟩⟩

/-- A datagram refreshes the last activity of the participant whose transport accepts it. -/
theorem keeping_handleUdpInput (st : SfuShard S) (now : Instant) (sid' : SessionId)
    (pid' : ParticipantId) (source : SocketAddr) (data : List UInt8)
    (hdeaf : deaf → sid' = sid → pid' = pid → ∀ p contents, st.participant? sid pid = some p →
      S.isAlive p.rtc = false → S.datagram data = some contents →
        S.accepts p.rtc now source st.primaryCandidateAddr contents = false) :
    Keeping deaf sid pid st (st.handleUdpInput now sid' pid' source data).1 := by
  unfold handleUdpInput
  split
  · exact .refl st
  · rename_i p hp
    split
    · exact .refl st
    · rename_i contents hcontents
      have hcall : S.Evolves p.rtc
          (S.handleReceive p.rtc now source st.primaryCandidateAddr contents).1 :=
        .single (.handleReceive p.rtc now source st.primaryCandidateAddr contents)
      split
      · exact .refl st
      · rename_i haccepts
        -- a dead transport accepts it only if it is not deaf
        have hheard (hsid : sid' = sid) (hpid : pid' = pid) (hdead : S.isAlive p.rtc = false) :
            ¬ deaf := by
          intro h
          rw [hdeaf h hsid hpid p contents (hsid ▸ hpid ▸ hp) hdead hcontents] at haccepts
          exact haccepts rfl
        split
        · rename_i heq
          rw [heq] at hcall
          exact .set hp fun hsid hpid hdead =>
            ⟨hfinal.evolves (.tail hcall (.disconnect _)) hdead, rfl,
              fun h => absurd h (hheard hsid hpid hdead)⟩
        · rename_i heq
          rw [heq] at hcall
          exact .set hp fun hsid hpid hdead => ⟨hfinal.evolves hcall hdead, rfl,
            fun h => absurd h (hheard hsid hpid hdead)⟩

/-! ### Turns -/

/-- A turn of the participant itself, or of another one. -/
theorem keeping_turn (st : SfuShard S) (sid' : SessionId) (pid' : ParticipantId) (now : Instant) :
    Keeping deaf sid pid st (pollParticipant now sid' pid' 1 st) := by
  have hspares : Spares leaves sid' pid' st (pollParticipant now sid' pid' 1 st) :=
    spares_pollParticipant now sid' pid' st
  by_cases heq : sid = sid' ∧ pid = pid'
  · obtain ⟨rfl, rfl⟩ := heq
    intro p' hp'
    have hown := hspares.own
    rw [hp'] at hown
    obtain ⟨p, hp, -⟩ := hown.some_right
    refine ⟨p, hp, fun hdead => ?_⟩
    -- a dead transport is not polled
    have hsame : pollParticipant now sid pid 1 st = st := by
      simp [pollParticipant, hp, hdead]
    obtain rfl : p = p' := Option.some.inj (hp.symm.trans (hsame ▸ hp'))
    exact ⟨hdead, rfl, fun _ => rfl⟩
  · exact .of_rel (hspares.others sid pid heq) fun _ _ hb => hb.keeps hfinal

theorem keeping_handleCommand (st : SfuShard S) (creds : IceCreds) (now : Instant)
    (cmd : SfuCommand) (hjoin : ∀ userId sdpOffer tx, cmd ≠ .join sid pid userId sdpOffer tx) :
    Keeping (st.Deaf sid pid (.command cmd creds now)) sid pid st
      (st.handleCommand creds now cmd).1 := by
  cases cmd with
  | join sid' pid' userId sdpOffer replyTx =>
    refine (attends_handleJoin st creds now (fun h => ?_) userId sdpOffer replyTx).keeping hfinal
    exact hjoin userId sdpOffer replyTx (by rw [h.1, h.2])
  | answer sid' pid' sdpAnswer =>
    exact (attends_handleAnswer st now sid' pid' sdpAnswer).keeping hfinal
  | iceCandidate sid' pid' candidate _ =>
    exact (attends_handleIceCandidate st sid' pid' candidate).keeping hfinal
  | leave sid' pid' => exact (attends_handleLeave st sid' pid').keeping hfinal
  | publishTrack sid' pid' source kind =>
    exact (attends_handlePublishTrack st sid' pid' source kind).keeping hfinal
  | clientOffer sid' pid' sdpOffer =>
    exact (attends_handleClientOffer st sid' pid' sdpOffer).keeping hfinal
  | udpInput sid' pid' source data =>
    exact keeping_handleUdpInput hfinal st now sid' pid' source data id

/-- **Every step keeps what the sweep goes by** of a dead participant, but for a Join of its id,
which brings another participant, and for a panic of its own poll, which sets the flag. -/
theorem keeping_perform {i : Piece S} (hi : st.Happens leaves i)
    (hjoin : ∀ userId sdpOffer tx creds now,
      i ≠ .command (.join sid pid userId sdpOffer tx) creds now)
    (hpanic : ∀ now calls poison, i ≠ .panic sid pid now calls poison) :
    Keeping (st.Deaf sid pid i) sid pid st (st.perform i) := by
  cases i with
  | command cmd creds now =>
    exact keeping_handleCommand hfinal st creds now cmd fun userId sdpOffer tx hcmd =>
      hjoin userId sdpOffer tx creds now (by rw [hcmd])
  | turn sid' pid' now => exact keeping_turn hfinal st sid' pid' now
  | panic sid' pid' now calls poison =>
    have hspares : Spares leaves sid' pid' st (pollCaught poison (some calls) now sid' pid' st) :=
      spares_pollCaught (fun rtc => .single (.panicked (hi.1 rtc))) (some calls) now sid' pid' st
    refine .of_rel (hspares.others sid pid fun h => ?_) fun _ _ hb => hb.keeps hfinal
    exact hpanic now calls poison (by rw [h.1, h.2])
  | tick now => exact (attends_tick st now).keeping hfinal
  | flush e => exact .of_eq rfl
  | negotiate => exact (attends_negotiatePendingTracks st).keeping hfinal
  | drain tx n => exact .of_eq rfl
  | close tx => exact .of_eq rfl
  | rehash => exact .refl st

end Commands

end SfuShard

end Video

end MateHub
