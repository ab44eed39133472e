import MateHub.Lib.Promises
import MateHub.Lib.Runs
import MateHub.Video.Signaling

/-!
# The message queue of the video client

The video client of the SDK appends the handling of every message of the server to a chain
of promises, so that no two are handled at the same time. `handleServerMessage` awaits calls
of the peer connection, each of which may be rejected; only the one for a candidate is
caught. A rejected call rejects the promise of its message, nothing catches that one, and
`then` calls no handler behind it: all later messages of the connection are dropped
(`MateHub.Video.dropped_after_rejection`).

The queue does what it is for as long as only the last message of all is handled in vain
(`MateHub.Video.messages_handled`).
-/

namespace MateHub

namespace Video

/-- A message as the client parses it. -/
inductive ReceivedMessage
  | known (msg : ServerMessage)
  | iceCandidate (candidate : String) (sdpMid : Option String)
  | unknown (type : String)
  deriving DecidableEq

/-- What `handleServerMessage` awaits. -/
inductive WebRtcCall
  | setRemoteDescription
  | createAnswer
  | setLocalDescription
  | addIceCandidate
  deriving DecidableEq, Repr

/-- The calls that handling a message awaits, one after another. -/
def ReceivedMessage.calls : ReceivedMessage → List WebRtcCall
  | .known (.answer _ _) => [.setRemoteDescription]
  | .known (.offer _ _) => [.setRemoteDescription, .createAnswer, .setLocalDescription]
  | .iceCandidate _ _ => [.addIceCandidate]
  | _ => []

/-- Whether a rejection is caught. -/
def WebRtcCall.caught : WebRtcCall → Bool
  | .addIceCandidate => true
  | _ => false

/-- `msgQueue`; a handler is what it has still to await. -/
abbrev MessageQueue := PromiseChain ReceivedMessage (List WebRtcCall)

namespace MessageQueue

/-- What happens to the queue; `closed` is whether the peer connection is closed when the
handler looks. -/
inductive Act
  | onmessage (msg : ReceivedMessage)
  /-- The job of the next promise. -/
  | handleServerMessage (closed : Bool)
  /-- The call that is awaited is resolved. -/
  | resolves (closed : Bool)
  /-- The call that is awaited is rejected. -/
  | rejects
  /-- The handler returns, with nothing left to await. -/
  | returns
  deriving DecidableEq

/-- The queue after an act. -/
def after (q : MessageQueue) : Act → MessageQueue
  | .onmessage msg => q.append msg
  | .handleServerMessage closed =>
    PromiseChain.next q fun msg => if closed then [] else msg.calls
  | .resolves closed =>
    match q.running with
    | some (_, _ :: rest) => q.resume (if closed then [] else rest)
    | _ => q
  | .rejects =>
    match q.running with
    | some (_, call :: rest) => if call.caught then q.resume rest else q.settle false
    | _ => q
  | .returns =>
    match q.running with
    | some (_, []) => q.settle true
    | _ => q

/-- The messages and the calls of a connection, in any order. -/
def system : System MessageQueue Act where
  init := fun q => q = {}
  step := fun q a q' => q' = after q a

/-- **Nothing comes after a rejection**: a call that is not caught is rejected only while no
message waits, and no message is received once one was. -/
def Calm (q : MessageQueue) : Act → Prop
  | .onmessage _ => q.broken = false
  | .rejects => ∀ msg call rest, q.running = some (msg, call :: rest) → call.caught = false →
      q.waiting = []
  | _ => True

variable {q : MessageQueue} {a : Act}

/-- What a step does to the chain. -/
inductive Does (q : MessageQueue) : Act → MessageQueue → Prop
  | appends (msg : ReceivedMessage) : Does q (.onmessage msg) (q.append msg)
  | calls (closed : Bool) (start : ReceivedMessage → List WebRtcCall) :
      Does q (.handleServerMessage closed) (PromiseChain.next q start)
  | resumes (a : Act) (rest : List WebRtcCall) : Does q a (q.resume rest)
  | fails {msg : ReceivedMessage} {call : WebRtcCall} {rest : List WebRtcCall} :
      q.running = some (msg, call :: rest) → call.caught = false →
      Does q .rejects (q.settle false)
  | returns : Does q .returns (q.settle true)
  | keeps (a : Act) : Does q a q

theorem does_after (q : MessageQueue) (a : Act) : Does q a (after q a) := by
  cases a with
  | onmessage msg => exact .appends msg
  | handleServerMessage closed => exact .calls closed _
  | resolves closed =>
    rw [after]
    split
    · exact .resumes _ _
    · exact .keeps _
  | rejects =>
    rw [after]
    split
    · rename_i msg call rest hrun
      split
      · exact .resumes _ _
      · rename_i hcaught
        exact .fails hrun (Bool.eq_false_iff.mpr hcaught)
    · exact .keeps _
  | returns =>
    rw [after]
    split
    · exact .returns
    · exact .keeps _

theorem ordered_after (h : q.Ordered) (a : Act) : (after q a).Ordered := by
  have hdoes := does_after q a
  generalize after q a = q' at hdoes ⊢
  cases hdoes with
  | appends msg => exact h.append
  | calls closed start => exact h.next
  | resumes a rest => exact h.resume
  | fails => exact h.settle _
  | returns => exact h.settle _
  | keeps => exact h

theorem whole_after (h : q.Whole) (hcalm : Calm q a) : (after q a).Whole := by
  have hdoes := does_after q a
  generalize after q a = q' at hdoes ⊢
  cases hdoes with
  | appends msg => exact h.append hcalm
  | calls closed start => exact h.next
  | resumes a rest => exact h.resume
  | fails hrun hcaught => exact h.settle fun _ => hcalm _ _ _ hrun hcaught
  | returns => exact h.settle nofun
  | keeps => exact h

theorem dead_after (h : q.Dead) (a : Act) : (after q a).Dead := by
  have hdoes := does_after q a
  generalize after q a = q' at hdoes ⊢
  cases hdoes with
  | appends msg => exact h.append
  | calls closed start => exact h.next
  | resumes a rest => exact h.resume
  | fails => exact h.settle _
  | returns => exact h.settle _
  | keeps => exact h

/-- A step after which, or before which, a rejection is not the last. -/
theorem dead_of_not_calm (hw : q.Whole) (ho : q.Ordered) (h : ¬ Calm q a) : (after q a).Dead := by
  have hlen : q.called.length + q.waiting.length = q.appended.length := by
    rw [← hw.called_append ho, List.length_append]
  cases a with
  | onmessage msg =>
    have hbroken : q.broken = true := Bool.not_eq_false _ |>.mp h
    obtain ⟨hrun, hwait⟩ := hw.ends hbroken
    refine ⟨hbroken, hrun, ?_⟩
    rw [after, PromiseChain.append]
    dsimp only
    rw [List.length_append, ← hlen, List.length_singleton]
    omega
  | rejects =>
    simp only [Calm, not_forall] at h
    obtain ⟨msg, call, rest, hrun, hcaught, hwait⟩ := h
    have hafter : after q .rejects = q.settle false := by
      rw [after, hrun]
      exact if_neg (Bool.eq_false_iff.mp hcaught)
    rw [hafter, PromiseChain.settle, hrun]
    refine ⟨by simp [PromiseChain.broken], rfl, ?_⟩
    have := List.length_pos_iff.mpr hwait
    dsimp only
    omega
  | _ => exact absurd trivial h

theorem whole_of_reach (h : system.Reach Calm q) : q.Whole ∧ q.Ordered := by
  refine h.invariant (I := fun q => q.Whole ∧ q.Ordered) ?_ ?_
  · rintro _ rfl
    exact ⟨⟨nofun, nofun⟩, ⟨rfl, rfl⟩⟩
  · rintro q a _ ⟨hw, ho⟩ hcalm rfl
    exact ⟨whole_after hw hcalm, ordered_after ho a⟩

theorem dead_of_reachable {q₀ : MessageQueue} (h₀ : q₀.Dead)
    (h : (system.startingAt q₀).Reachable q) : q.Dead := by
  refine h.invariant ?_ ?_
  · rintro _ rfl
    exact h₀
  · rintro q a _ hq - rfl
    exact dead_after hq a

end MessageQueue

open MessageQueue

/-- **Every message is handled**, once, in the order of arrival, and when the handlers before
it have ended, in every run in which nothing comes after a rejection; and the handler of the
next message is called as soon as nothing is being handled. After a step that does not meet
this, some message is never handled. -/
theorem messages_handled {q : MessageQueue} (h : MessageQueue.system.Reach Calm q) :
    q.called ++ q.waiting = q.appended ∧
    q.called = q.settled.map Prod.fst ++ q.task? ∧
    (∀ msg rest closed, q.running = none → q.waiting = msg :: rest →
      (after q (.handleServerMessage closed)).task? = [msg]) ∧
    ∀ a, ¬ Calm q a → ∀ q', (MessageQueue.system.startingAt (after q a)).Reachable q' →
      q'.called.length < q'.appended.length := by
  obtain ⟨hw, ho⟩ := whole_of_reach h
  refine ⟨hw.called_append ho, hw.called_eq ho, fun msg rest closed hrun hwait => ?_,
    fun a ha q' hq' => (dead_of_reachable (dead_of_not_calm hw ho ha) hq').uncalled⟩
  have hbroken : q.broken = false := by
    by_contra hb
    rw [(hw.ends (Bool.not_eq_false _ |>.mp hb)).2] at hwait
    cases hwait
  rw [after, PromiseChain.next_of_whole hrun hwait hbroken]
  rfl

namespace MessageQueue

def answer : ReceivedMessage := .known (.answer "a" 1)

def joined : ReceivedMessage := .known (.participantJoined 2 "u")

/-- An answer is handled, and then a participant joins. -/
def whole : MessageQueue :=
  [.onmessage answer, .onmessage joined, .handleServerMessage false, .resolves false, .returns,
    .handleServerMessage false, .returns].foldl after {}

/-- The answer is one that the peer connection does not expect. -/
def cut : MessageQueue :=
  [.onmessage answer, .onmessage joined, .handleServerMessage false, .rejects,
    .handleServerMessage false].foldl after {}

theorem reach_whole : system.Reach Calm whole := by
  refine System.Reach.foldl (M := system) (fun _ _ => rfl) (.start rfl) ?_
  refine .intro rfl (.intro rfl ?_)
  repeat refine .intro trivial ?_
  trivial

theorem reachable_cut : system.Reachable cut :=
  System.reachable_foldl (M := system) rfl (fun _ _ => rfl) _

theorem dead_cut : cut.Dead := ⟨rfl, rfl, by decide⟩

end MessageQueue

/-- The answer and the participant are handled. -/
theorem whole_handled : whole.called = [answer, joined] ∧ whole.waiting = [] ∧
    whole.called ++ whole.waiting = whole.appended :=
  ⟨rfl, rfl, (messages_handled reach_whole).1⟩

/-- **Dropped after a rejection**: the answer cannot be set as remote description, and the
message that a participant has joined is never handled, whatever comes later. -/
theorem dropped_after_rejection : MessageQueue.system.Reachable cut ∧
    cut.settled = [(answer, .rejected), (joined, .skipped)] ∧ cut.called = [answer] ∧
    ∀ q, (MessageQueue.system.startingAt cut).Reachable q →
      q.called.length < q.appended.length :=
  ⟨reachable_cut, rfl, rfl, fun _ hq => (dead_of_reachable dead_cut hq).uncalled⟩

end Video

end MateHub
