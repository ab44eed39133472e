import MateHub.Video.Sfu.Effects
import MateHub.Video.Scripted

/-!
# Joins that fail

A Join fails if its SDP cannot be read, or if the transport does not accept it. The handler
reads it only after the older participant of the same id has been told to go and has been taken
out, with its tracks, its forwarding entries and its addresses. So a Join that fails leaves the
state as it was exactly if there is no such participant
(`MateHub.Video.untouched_of_failed`); otherwise it is a kick, and nobody comes.
-/

namespace MateHub

namespace Video

namespace SfuShard

variable {S : Str0m} {st st' : SfuShard S} {tx : WsTx}

/-- **Nothing has changed** but that the sender of a command has been told of an error. -/
structure Untouched (st st' : SfuShard S) (tx : WsTx) : Prop where
  sessions : st'.sessions = st.sessions
  sharedMaps : st'.sharedMaps = st.sharedMaps
  pendingNegotiation : st'.pendingNegotiation = st.pendingNegotiation
  pendingFlush : st'.pendingFlush = st.pendingFlush
  others : ∀ other, other ≠ tx → st'.ws other = st.ws other
  told : ∃ message, st'.ws tx = (st.ws tx).trySend (.error message)

theorem untouched_wsTrySend (st : SfuShard S) (tx : WsTx) (message : String) :
    st.Untouched (st.wsTrySend tx (.error message)) tx :=
  ⟨rfl, rfl, rfl, rfl, fun _ hne => Function.update_of_ne hne _ _,
    ⟨message, Function.update_self _ _ _⟩⟩

theorem Untouched.participant? (h : st.Untouched st' tx) (sid : SessionId) (pid : ParticipantId) :
    st'.participant? sid pid = st.participant? sid pid := by
  rw [SfuShard.participant?, SfuShard.participant?, session?, session?, h.sessions]

theorem kickPrior_of_none {sid : SessionId} {pid : ParticipantId}
    (h : st.participant? sid pid = none) : st.kickPrior sid pid = st := by
  rw [kickPrior, h]

/-- **A Join that fails is a kick**, and an error for its sender. -/
theorem kick_of_failed {creds : IceCreds} {now : Instant} {sid : SessionId} {pid : ParticipantId}
    {userId sdpOffer : String} {replyTx : WsTx}
    (h : (st.handleJoin creds now sid pid userId sdpOffer replyTx).2 = none) :
    ∃ message, (st.handleJoin creds now sid pid userId sdpOffer replyTx).1 =
      (st.kickPrior sid pid).wsTrySend replyTx (.error message) := by
  unfold handleJoin at h ⊢
  dsimp only at h ⊢
  split at h
  · exact ⟨_, rfl⟩
  · split at h
    · exact ⟨_, rfl⟩
    · exact absurd h (Option.some_ne_none _)

end SfuShard

/-- **A Join that fails leaves the state as it was** exactly if no participant of its id is in
the session. -/
theorem untouched_of_failed {S : Str0m} (st : SfuShard S) (creds : IceCreds) (now : Instant)
    (sid : SessionId) (pid : ParticipantId) (userId sdpOffer : String) (replyTx : WsTx)
    (h : (st.handleJoin creds now sid pid userId sdpOffer replyTx).2 = none) :
    st.Untouched (st.handleJoin creds now sid pid userId sdpOffer replyTx).1 replyTx ↔
      st.participant? sid pid = none := by
  obtain ⟨message, heq⟩ := SfuShard.kick_of_failed h
  rw [heq]
  constructor
  · intro hsame
    rw [← hsame.participant? sid pid]
    exact SfuShard.participant?_kickPrior st sid pid
  · intro hnone
    rw [SfuShard.kickPrior_of_none hnone]
    exact SfuShard.untouched_wsTrySend st replyTx message

namespace Scripted

/-- Participant 1 has joined with a microphone. -/
def talking : SfuShard scripted :=
  SfuShard.run [(1, 2)] 12000 [.command (.join 7 1 "alice" "a" 11) ⟨"ua", "pa"⟩ 0 9]

/-- Somebody else fails to join. -/
theorem untouched_talking : talking.Untouched
    (talking.handleJoin ⟨"ub", "pb"⟩ 0 7 2 "bob" "x" 12).1 12 :=
  (untouched_of_failed talking ⟨"ub", "pb"⟩ 0 7 2 "bob" "x" 12 (by decide)).mpr (by decide)

/-- **The participant is gone** after a Join of the same id that fails. -/
theorem kicked_by_failed : (SfuShard.system scripted).Reachable talking ∧
    (talking.participant? 7 1).isSome = true ∧
    (talking.handleJoin ⟨"ua'", "pa'"⟩ 1 7 1 "alice" "x" 12).2 = none ∧
    (talking.handleJoin ⟨"ua'", "pa'"⟩ 1 7 1 "alice" "x" 12).1.participant? 7 1 = none ∧
    ¬ talking.Untouched (talking.handleJoin ⟨"ua'", "pa'"⟩ 1 7 1 "alice" "x" 12).1 12 := by
  have hlive : (talking.participant? 7 1).isSome = true := by decide
  have hgone : (talking.handleJoin ⟨"ua'", "pa'"⟩ 1 7 1 "alice" "x" 12).1.participant? 7 1 =
      none := by decide
  refine ⟨SfuShard.reachable_run _ _ _, hlive, by decide, hgone, fun h => ?_⟩
  rw [← h.participant? 7 1, hgone] at hlive
  exact Bool.noConfusion hlive

end Scripted

end Video

end MateHub
