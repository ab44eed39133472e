import MateHub.Video.Sfu.Effects
import MateHub.Video.Sfu.Egress

/-!
# What a packet does to a subscription

A packet of a track goes to the subscriptions on the forwarding list of the track. For one of
them, `forward_rtp` does one of two things: it leaves the subscription as it was, or it gives
the packet a number there (`MateHub.Video.SfuShard.track?_forwardRtp`).
-/

namespace MateHub

namespace Video

/-- A packet has one number. -/
theorem TrackOut.rewriteSeq_rewriteSeq (t : TrackOut) (ssrc : Ssrc) (n : ℕ) :
    ((t.rewriteSeq ssrc n).1.rewriteSeq ssrc n).1 = (t.rewriteSeq ssrc n).1 := by
  simp only [rewriteSeq, if_pos, max_assoc, max_self]

namespace SfuShard

variable {S : Str0m}

/-! ### What a packet does to a subscription -/

/-- The subscription of a participant that is open under a mid. -/
def track? (st : SfuShard S) (sid : SessionId) (view : TrackKey) : Option TrackOut :=
  (st.participant? sid view.1).bind fun p => p.tracksOut.find? fun t => t.openMid = some view.2

/-- The forwarding list of a track. -/
def targets (st : SfuShard S) (sid : SessionId) (k : TrackKey) : List TrackKey :=
  ((st.session? sid).map fun s => s.targets k).getD []

/-- The filter lets a track through: it is not audio, or it is one of the loudest. -/
def letsThrough (st : SfuShard S) (sid : SessionId) (k : TrackKey) : Bool :=
  match st.session? sid with
  | none => false
  | some s =>
    match (s.participants.lookup k.1).bind fun p => p.tracksIn.find? fun t => t.mid = k.2 with
    | none => false
    | some track => decide (track.kind ≠ .audio) || (s.topAudioPublishers.lookup k).isSome

/-- `recompute_top_audio` of one session. -/
def recompute (st : SfuShard S) (sid : SessionId) : SfuShard S :=
  { st with sessions := st.sessions.modify sid SfuSession.recomputeTopAudio }

/-- A subscription gives a number to a packet. -/
def Gives (pkt : RtpPacket) (o o' : Option TrackOut) : Prop :=
  ∃ t, o = some t ∧ o' = some (t.rewriteSeq pkt.ssrc pkt.seqNo).1

theorem Gives.twice {pkt : RtpPacket} {o o' o'' : Option TrackOut} (h : Gives pkt o o')
    (h' : Gives pkt o' o'') : Gives pkt o o'' := by
  obtain ⟨t, rfl, rfl⟩ := h
  obtain ⟨t', ht', rfl⟩ := h'
  obtain rfl := Option.some.inj ht'
  exact ⟨t, rfl, by rw [TrackOut.rewriteSeq_rewriteSeq]⟩

section Replace

variable {α κ : Type*} [DecidableEq κ] (key : α → κ) {g g' : α → α}

theorem find?_replaceF {l : List α} (k k' : κ) (hg : ∀ a, key (g a) = key a) :
    (l.replaceF fun a => if key a = k then some (g a) else none).find? (fun a => key a = k') =
      if k' = k then (l.find? fun a => key a = k').map g else l.find? fun a => key a = k' := by
  induction l with
  | nil => simp
  | cons a l ih =>
    by_cases ha : key a = k
    · have hf : (if key a = k then some (g a) else none) = some (g a) := if_pos ha
      rw [List.replaceF_cons_of_some _ hf]
      by_cases hk : k' = k
      · simp [hk, hg, ha]
      · have hne : ¬ k = k' := fun h => hk h.symm
        simp [hg, ha, hk, hne]
    · have hf : (if key a = k then some (g a) else none) = none := if_neg ha
      rw [List.replaceF_cons_of_none _ hf]
      by_cases ha' : key a = k'
      · have hk : ¬ k' = k := fun h => ha (ha'.trans h)
        simp [ha', hk]
      · rw [List.find?_cons_of_neg (by simpa using ha'),
          List.find?_cons_of_neg (by simpa using ha'), ih]

theorem replaceF_replaceF {l : List α} (k : κ) (hg : ∀ a, key (g a) = key a)
    (hgg : ∀ a, g' (g a) = g a) :
    (l.replaceF fun a => if key a = k then some (g a) else none).replaceF
        (fun a => if key a = k then some (g' a) else none) =
      l.replaceF fun a => if key a = k then some (g a) else none := by
  induction l with
  | nil => rfl
  | cons a l ih =>
    by_cases ha : key a = k
    · have hf : (if key a = k then some (g a) else none) = some (g a) := if_pos ha
      have hf' : (if key (g a) = k then some (g' (g a)) else none) = some (g a) := by
        rw [if_pos ((hg a).trans ha), hgg]
      rw [List.replaceF_cons_of_some _ hf, List.replaceF_cons_of_some _ hf']
    · have hf : (if key a = k then some (g a) else none) = none := if_neg ha
      have hf' : (if key a = k then some (g' a) else none) = none := if_neg ha
      rw [List.replaceF_cons_of_none _ hf, List.replaceF_cons_of_none _ hf', ih]

end Replace

theorem find?_advanceSeq (p : SfuParticipant S) (mid mid' : Mid) (pkt : RtpPacket) :
    ((advanceSeq p mid pkt).tracksOut.find? fun t => t.openMid = some mid') =
      if mid' = mid then
        (p.tracksOut.find? fun t => t.openMid = some mid').map fun t =>
          (t.rewriteSeq pkt.ssrc pkt.seqNo).1
      else p.tracksOut.find? fun t => t.openMid = some mid' := by
  have h := find?_replaceF TrackOut.openMid (l := p.tracksOut) (some mid) (some mid')
    (g := fun t => (t.rewriteSeq pkt.ssrc pkt.seqNo).1) fun _ => rfl
  rwa [if_congr (Option.some_inj) rfl rfl] at h

theorem track?_setParticipant {st : SfuShard S} {sid : SessionId} {pid : ParticipantId}
    {q : SfuParticipant S} (hq : st.participant? sid pid = some q) (p : SfuParticipant S)
    (view : TrackKey) : (st.setParticipant sid pid p).track? sid view =
      if view.1 = pid then p.tracksOut.find? fun t => t.openMid = some view.2
      else st.track? sid view := by
  rw [track?, participant?_setParticipant hq]
  by_cases hpid : view.1 = pid
  · rw [if_pos ⟨rfl, hpid⟩, if_pos hpid, Option.bind_some]
  · rw [if_neg fun h => hpid h.2, if_neg hpid, track?]

/-- One turn of the loop. -/
theorem track?_forwardTo (sid : SessionId) (pkt : RtpPacket) (kind : MediaKind)
    (pp : S.PayloadParams) (st : SfuShard S) (target view : TrackKey) :
    (forwardTo sid pkt kind pp st target).track? sid view = st.track? sid view ∨
      view = target ∧ Gives pkt (st.track? sid view)
        ((forwardTo sid pkt kind pp st target).track? sid view) := by
  rw [forwardTo]
  split
  · exact .inl rfl
  · rename_i p hp
    split
    · exact .inl rfl
    · split
      · exact .inl rfl
      · rename_i t ht
        dsimp only
        have hview : ∀ q : SfuParticipant S, q.tracksOut = (advanceSeq p target.2 pkt).tracksOut →
            (st.setParticipant sid target.1 q).track? sid view = st.track? sid view ∨
              view = target ∧ Gives pkt (st.track? sid view)
                ((st.setParticipant sid target.1 q).track? sid view) := by
          intro q hq
          rw [track?_setParticipant hp, hq]
          by_cases hpid : view.1 = target.1
          · have hold : st.track? sid view =
                p.tracksOut.find? fun t => t.openMid = some view.2 := by
              rw [track?, hpid, hp, Option.bind_some]
            rw [if_pos hpid, hold, find?_advanceSeq]
            by_cases hmid : view.2 = target.2
            · rw [if_pos hmid, hmid, ht]
              exact .inr ⟨Prod.ext hpid hmid, t, rfl, rfl⟩
            · rw [if_neg hmid]
              exact .inl rfl
          · rw [if_neg hpid]
            exact .inl rfl
        split
        · exact hview _ rfl
        · rename_i rtc _
          exact hview { advanceSeq p target.2 pkt with rtc := rtc } rfl

/-- The loop. -/
theorem track?_foldl_forwardTo (sid : SessionId) (pkt : RtpPacket) (kind : MediaKind)
    (pp : S.PayloadParams) (targets : List TrackKey) (st : SfuShard S) (view : TrackKey) :
    (targets.foldl (forwardTo sid pkt kind pp) st).track? sid view = st.track? sid view ∨
      view ∈ targets ∧ Gives pkt (st.track? sid view)
        ((targets.foldl (forwardTo sid pkt kind pp) st).track? sid view) := by
  induction targets generalizing st with
  | nil => exact .inl rfl
  | cons target targets ih =>
    rw [List.foldl_cons]
    rcases track?_forwardTo sid pkt kind pp st target view with hsame | ⟨rfl, hgives⟩
    · rcases ih (forwardTo sid pkt kind pp st target) with h | ⟨hmem, h⟩
      · exact .inl (h.trans hsame)
      · exact .inr ⟨List.mem_cons_of_mem _ hmem, hsame ▸ h⟩
    · rcases ih (forwardTo sid pkt kind pp st view) with h | ⟨-, h⟩
      · exact .inr ⟨List.mem_cons_self, h ▸ hgives⟩
      · exact .inr ⟨List.mem_cons_self, hgives.twice h⟩

/-- The tables of a session beside its participants do not matter. -/
theorem track?_modify (st : SfuShard S) (sid : SessionId) {f : SfuSession S → SfuSession S}
    (hf : ∀ s, (f s).participants = s.participants) (view : TrackKey) :
    track? { st with sessions := st.sessions.modify sid f } sid view = st.track? sid view := by
  have hsession : session? { st with sessions := st.sessions.modify sid f } sid =
      (st.session? sid).map f := (Dict.lookup_modify st.sessions sid sid f).trans (if_pos rfl)
  rw [track?, track?, participant?, participant?, hsession]
  rcases st.session? sid with _ | s
  · rfl
  · rw [Option.map_some, Option.bind_some, Option.bind_some, hf]

theorem track?_setTargets (st : SfuShard S) (sid : SessionId) (key : TrackKey)
    (targets : List TrackKey) (view : TrackKey) :
    (st.setTargets sid key targets).track? sid view = st.track? sid view :=
  track?_modify st sid
    (f := fun s => { s with forwardingMap := s.forwardingMap.modify key fun _ => targets })
    (fun _ => rfl) view

theorem track?_forwardToAll (sid : SessionId) (pkt : RtpPacket) (kind : MediaKind)
    (pp : S.PayloadParams) (st : SfuShard S) (key view : TrackKey) :
    (st.forwardToAll sid key (forwardTo sid pkt kind pp)).track? sid view = st.track? sid view ∨
      view ∈ st.targets sid key ∧ Gives pkt (st.track? sid view)
        ((st.forwardToAll sid key (forwardTo sid pkt kind pp)).track? sid view) := by
  rw [forwardToAll]
  split
  · exact .inl rfl
  · exact .inl (track?_modify st sid
      (f := fun s => { s with forwardingMap := s.forwardingMap.erase key }) (fun _ => rfl) view)
  · rename_i list _ hlist
    have hlist' : st.targets sid key = list := by
      obtain ⟨s, hs, hlookup⟩ := Option.bind_eq_some_iff.mp hlist
      rw [SfuShard.targets, hs, Option.map_some, Option.getD_some, SfuSession.targets, hlookup,
        Option.getD_some]
    have hloop := track?_foldl_forwardTo sid pkt kind pp list (st.setTargets sid key []) view
    rw [track?_setTargets] at hloop
    rwa [track?_setTargets, hlist']

/-- **A packet** leaves a subscription alone, or is given a number: then the subscription is
on the list of its track, and the filter lets the track through. -/
theorem track?_forwardRtp (st : SfuShard S) (sid : SessionId) (pid : ParticipantId) (mid : Mid)
    (pkt : RtpPacket) (view : TrackKey) :
    (st.forwardRtp sid pid mid pkt).track? sid view = st.track? sid view ∨
      view ∈ st.targets sid (pid, mid) ∧ st.letsThrough sid (pid, mid) = true ∧
        Gives pkt (st.track? sid view) ((st.forwardRtp sid pid mid pkt).track? sid view) := by
  rw [forwardRtp]
  split
  · exact .inl rfl
  · rename_i s hs
    split
    · exact .inl rfl
    · rename_i p hp
      split
      · exact .inl rfl
      · rename_i track htrack
        have hpart : st.participant? sid pid = some p := participant?_eq_some.mpr ⟨s, hs, hp⟩
        dsimp only
        have hheard : (st.setParticipant sid pid (hearPacket p mid pkt)).track? sid view =
            st.track? sid view := by
          rw [track?_setParticipant hpart]
          by_cases hpid : view.1 = pid
          · rw [if_pos hpid, track?, hpid, hpart]
            rfl
          · rw [if_neg hpid]
        have htargets : (st.setParticipant sid pid (hearPacket p mid pkt)).targets sid (pid, mid) =
            st.targets sid (pid, mid) := by
          rw [SfuShard.targets, SfuShard.targets, session?_setParticipant, if_pos rfl, hs]
          rfl
        split
        · exact .inl hheard
        · split
          · exact .inl hheard
          · split
            · exact .inl hheard
            · rename_i pp _ _ hfilter
              have hlets : st.letsThrough sid (pid, mid) = true := by
                rw [letsThrough, hs]
                dsimp only
                rw [hp, Option.bind_some, htrack]
                by_cases haudio : track.kind = .audio
                · simpa [haudio, Option.isSome_iff_ne_none] using hfilter
                · simp [haudio]
              have hall := track?_forwardToAll sid pkt track.kind pp
                (st.setParticipant sid pid (hearPacket p mid pkt)) (pid, mid) view
              rw [hheard, htargets] at hall
              rcases hall with h | ⟨hmem, h⟩
              · exact .inl h
              · exact .inr ⟨hmem, hlets, h⟩

/-! ### The loudest publishers -/

/-- **Who is let through**, when no two publishers are equally loud. -/
theorem pickTopAudio_eq {audio top rest : List (ℚ × TrackKey)} (hperm : audio.Perm (top ++ rest))
    (hsorted : (top ++ rest).Pairwise fun a b => b.1 < a.1) (htop : top.length = audioTopK)
    (hrest : rest ≠ []) :
    pickTopAudio audio = top.foldl (fun out e => out.insert e.2 ()) ∅ := by
  have hpairwise : (audio.mergeSort fun a b => decide (b.1 ≤ a.1)).Pairwise fun a b =>
      b.1 ≤ a.1 := by
    refine (List.pairwise_mergeSort (fun a b c hab hbc => ?_) (fun a b => ?_) audio).imp fun hab =>
      of_decide_eq_true hab
    · exact decide_eq_true ((of_decide_eq_true hbc).trans (of_decide_eq_true hab))
    · simpa using le_total b.1 a.1
  have hsort : (audio.mergeSort fun a b => decide (b.1 ≤ a.1)) = top ++ rest := by
    refine List.Perm.eq_of_pairwise (fun a b ha hb hab hba => ?_) hpairwise (hsorted.imp le_of_lt)
      ((List.mergeSort_perm _ _).trans hperm)
    have hdiff : (top ++ rest).Pairwise fun a b => a.1 ≠ b.1 := hsorted.imp fun h => ne_of_gt h
    have hsymm : Std.Symm fun a b : ℚ × TrackKey => a.1 ≠ b.1 := ⟨fun _ _ h => h.symm⟩
    by_contra hne
    exact hdiff.forall (hperm.subset (List.mem_mergeSort.mp ha)) hb hne (le_antisymm hba hab)
  have hlen : ¬ audio.length < audioFilterMinPublishers := by
    have hpos := List.length_pos_of_ne_nil hrest
    rw [hperm.length_eq, List.length_append, htop, audioFilterMinPublishers]
    omega
  rw [pickTopAudio, if_neg hlen, hsort, ← htop, List.take_left]

/-- The loudness of the audio tracks of a session. -/
def loudness (s : SfuSession S) : List (ℚ × TrackKey) :=
  s.participants.pairs.flatMap fun e =>
    (e.2.tracksIn.filter fun t => t.kind = .audio).map fun t => (t.audioLoudnessEma, (e.1, t.mid))

/-- The loudest publishers of a session are these. -/
def setLoudest (st : SfuShard S) (sid : SessionId) (top : List (ℚ × TrackKey)) : SfuShard S :=
  { st with sessions := st.sessions.modify sid fun s =>
      { s with topAudioPublishers := top.foldl (fun out e => out.insert e.2 ()) ∅ } }

theorem recompute_eq {st : SfuShard S} {sid : SessionId} {s : SfuSession S}
    {top rest : List (ℚ × TrackKey)} (hs : st.session? sid = some s)
    (hperm : (loudness s).Perm (top ++ rest))
    (hsorted : (top ++ rest).Pairwise fun a b => b.1 < a.1) (htop : top.length = audioTopK)
    (hrest : rest ≠ []) : st.recompute sid = st.setLoudest sid top := by
  have hs : st.sessions.lookup sid = some s := hs
  have htop : (SfuSession.recomputeTopAudio s).topAudioPublishers =
      top.foldl (fun out e => out.insert e.2 ()) ∅ := pickTopAudio_eq hperm hsorted htop hrest
  simp only [recompute, setLoudest, Dict.modify, hs, ← htop]
  rfl

/-! ### What the filter withholds -/

/-- Before a packet that is withheld, its publisher is heard. -/
theorem forwardRtp_withheld {st : SfuShard S} {sid : SessionId} {pid : ParticipantId} {mid : Mid}
    {s : SfuSession S} {p : SfuParticipant S} {track : TrackIn} (hs : st.session? sid = some s)
    (hp : s.participants.lookup pid = some p)
    (htrack : (p.tracksIn.find? fun t => t.mid = mid) = some track) (hkind : track.kind = .audio)
    (hquiet : s.topAudioPublishers.lookup (pid, mid) = none) (pkt : RtpPacket) :
    st.forwardRtp sid pid mid pkt = st.setParticipant sid pid (hearPacket p mid pkt) := by
  rw [forwardRtp, hs]
  dsimp only
  rw [hp]
  dsimp only
  rw [htrack]
  dsimp only
  split
  · rfl
  · split
    · rfl
    · rw [if_pos ⟨hkind, by rw [hquiet]; rfl⟩]

theorem hear_mid (t : TrackIn) (ext : ExtensionValues) : (t.hear ext).mid = t.mid :=
  congrArg Room.Track.mid (track_hear t ext)

theorem hear_kind (t : TrackIn) (ext : ExtensionValues) : (t.hear ext).kind = t.kind :=
  congrArg (fun track => track.label.1) (track_hear t ext)

/-- A packet without a level says nothing new after another one. -/
theorem hearPacket_hearPacket (p : SfuParticipant S) (mid : Mid) {pkt pkt' : RtpPacket}
    (hlevel : pkt.extVals.audioLevel = none) (hlevel' : pkt'.extVals.audioLevel = none) :
    hearPacket (hearPacket p mid pkt) mid pkt' = hearPacket p mid pkt := by
  have hsame : ∀ t : TrackIn, (t.hear pkt.extVals).hear pkt'.extVals = t.hear pkt.extVals := by
    intro t
    simp only [TrackIn.hear, hlevel, hlevel']
    split_ifs <;> simp
  rw [hearPacket, hearPacket, replaceF_replaceF TrackIn.mid mid (fun t => hear_mid t _) hsame]

theorem setParticipant_setParticipant (st : SfuShard S) (sid : SessionId) (pid : ParticipantId)
    (p q : SfuParticipant S) :
    (st.setParticipant sid pid p).setParticipant sid pid q = st.setParticipant sid pid q := by
  rw [setParticipant, setParticipant, setParticipant]
  rcases hs : st.sessions.lookup sid with _ | s
  · simp only [Dict.modify, hs]
  · simp only [Dict.modify, hs, AList.lookup_insert, AList.insert_insert, SfuSession.setParticipant]

/-- **Silence**: after a packet that is withheld and has no level, any number of further ones
change nothing. -/
theorem forwardRtp_silence {st : SfuShard S} {sid : SessionId} {pid : ParticipantId} {mid : Mid}
    {s : SfuSession S} {p : SfuParticipant S} {track : TrackIn} (hs : st.session? sid = some s)
    (hp : s.participants.lookup pid = some p)
    (htrack : (p.tracksIn.find? fun t => t.mid = mid) = some track) (hkind : track.kind = .audio)
    (hquiet : s.topAudioPublishers.lookup (pid, mid) = none) {pkt pkt' : RtpPacket}
    (hlevel : pkt.extVals.audioLevel = none) (hlevel' : pkt'.extVals.audioLevel = none) :
    (st.forwardRtp sid pid mid pkt).forwardRtp sid pid mid pkt' =
      st.forwardRtp sid pid mid pkt := by
  have hsession : (st.setParticipant sid pid (hearPacket p mid pkt)).session? sid =
      some (s.setParticipant pid (hearPacket p mid pkt)) := by
    rw [session?_setParticipant, if_pos rfl, hs]
    rfl
  have hpart : (s.setParticipant pid (hearPacket p mid pkt)).participants.lookup pid =
      some (hearPacket p mid pkt) := AList.lookup_insert _
  have hfind : ((hearPacket p mid pkt).tracksIn.find? fun t => t.mid = mid) =
      some (track.hear pkt.extVals) := by
    have h := find?_replaceF TrackIn.mid (l := p.tracksIn) mid mid
      (g := fun t => t.hear pkt.extVals) fun t => hear_mid t _
    rwa [if_pos rfl, htrack] at h
  rw [forwardRtp_withheld hs hp htrack hkind hquiet,
    forwardRtp_withheld hsession hpart hfind ((hear_kind track _).trans hkind) hquiet,
    hearPacket_hearPacket p mid hlevel hlevel', setParticipant_setParticipant]

end SfuShard

end Video

end MateHub
