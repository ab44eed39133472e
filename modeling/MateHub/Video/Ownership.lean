import MateHub.Lib.Sequences
import MateHub.Video.Scripted
import MateHub.Video.Sfu.Owner
import MateHub.Video.Ws

/-!
# A participant across reconnects

All connections of a user to a session have the same participant id, and when a new
one joins, the shard hands the participant over to it. The old handler still runs
then, and when it ends it sends a Leave for the id. The slot behind the REST API is
released only by the handler that owns it; the Leave is sent in any case, and takes
the participant of the new connection away (`MateHub.Video.removed_by_stale_leave`).

The runs in which this does not happen are those in which a handler sends its Leave
only while the id is its own or nobody's, by the commands that are in the queue
(`MateHub.Video.Service.LeavesOwn`). In them a participant leaves the shard only by
its own connection's Leave, by a newer Join or as a zombie
(`MateHub.Video.participant_leaves_only`). The invariant behind it is that every
Leave in the queue will find the id its sender's or nobody's, in the sense of
`Foreseen`.
-/

namespace MateHub

namespace Video

namespace Service

variable {S : Str0m} {cfg : Config} {w w' : Service S}

/-! ### What a step does to the queue and the shard -/

/-- Nothing is put in the queue, and nobody's place in the shard changes. -/
structure Quiet (w w' : Service S) : Prop where
  sessions : w'.sfu.sessions = w.sfu.sessions
  queue : w'.queue = w.queue

theorem Quiet.refl (w : Service S) : w.Quiet w := ⟨rfl, rfl⟩

theorem Quiet.trans {w'' : Service S} (h : w.Quiet w') (h' : w'.Quiet w'') : w.Quiet w'' :=
  ⟨h'.sessions.trans h.sessions, h'.queue.trans h.queue⟩

/-- A loop of quiet turns. -/
theorem Quiet.foldl {α : Type*} {f : Service S → α → Service S}
    (h : ∀ (w : Service S) a, w.Quiet (f w a)) (w : Service S) (l : List α) : w.Quiet (l.foldl f w) := by
  induction l generalizing w with
  | nil => exact .refl w
  | cons a l ih => exact (h w a).trans (ih _)

theorem quiet_publish (w : Service S) (uid : Option ℤ) (event : ℤ → NatsEvent) :
    w.Quiet (w.publish cfg uid event) := by
  unfold publish
  split
  · split
    · exact ⟨rfl, rfl⟩
    · exact .refl w
  · exact .refl w

theorem quiet_broadcast (w : Service S) (ps : Dict ParticipantId Participant)
    (msg : ServerMessage) : w.Quiet (w.broadcast ps msg) :=
  .foldl (f := fun w (p : Participant) => w.wsSendOrDrop p.wsTx msg) (fun _ _ => ⟨rfl, rfl⟩) w _

theorem quiet_broadcastExcept (w : Service S) (sid : SessionId) (pid : ParticipantId)
    (msg : ServerMessage) : w.Quiet (w.broadcastExcept sid pid msg) := by
  unfold broadcastExcept
  split
  · exact .refl w
  · exact quiet_broadcast w _ msg

theorem quiet_register (w : Service S) (c : WsTx) (h : Handler) : w.Quiet (w.register c h) := by
  unfold register
  split
  · exact ⟨rfl, rfl⟩
  · rename_i s hs
    have hpresence := Quiet.foldl (f := fun w msg => w.wsSendOrDrop c msg)
      (fun _ _ => ⟨rfl, rfl⟩) w (s.participants.values.flatMap presence)
    exact (hpresence.trans (quiet_broadcast _ s.participants _)).trans ⟨rfl, rfl⟩

theorem quiet_release (w : Service S) (c : WsTx) (h : Handler) : w.Quiet (w.release c h) := by
  unfold release
  split
  · exact .refl w
  · rename_i s hs
    split
    · have hset : w.Quiet (w.setSession h.sid { s with
          participants := s.participants.erase h.pid }) := ⟨rfl, rfl⟩
      have hb := hset.trans
        (quiet_broadcast _ (s.participants.erase h.pid) (.participantLeft h.pid h.userId))
      dsimp only
      split
      · exact hb.trans ⟨rfl, rfl⟩
      · exact hb
    · exact .refl w

/-- A handler sends a command: it is put in the queue, if there is room. -/
structure Sends (cfg : Config) (w : Service S) (sender : Option WsTx) (cmd : SfuCommand)
    (w' : Service S) : Prop where
  sessions : w'.sfu.sessions = w.sfu.sessions
  queue : w'.queue = w.queue ∨
    w.queue.length < cfg.cmdBuffer ∧ w'.queue = w.queue ++ [⟨sender, cmd⟩]

theorem sends_sfuSendOrDrop (w : Service S) (sender : Option WsTx) (cmd : SfuCommand) :
    w.Sends cfg sender cmd (w.sfuSendOrDrop cfg sender cmd) := by
  unfold sfuSendOrDrop
  split
  · rename_i hroom
    exact ⟨rfl, .inr ⟨hroom, rfl⟩⟩
  · exact ⟨rfl, .inl rfl⟩

theorem Sends.quiet {sender : Option WsTx} {cmd : SfuCommand} {w'' : Service S}
    (h : w.Sends cfg sender cmd w') (h' : w'.Quiet w'') : w.Sends cfg sender cmd w'' :=
  ⟨h'.sessions.trans h.sessions, h'.queue.symm ▸ h.queue⟩

theorem Quiet.sends {sender : Option WsTx} {cmd : SfuCommand} {w'' : Service S}
    (h : w.Quiet w') (h' : w'.Sends cfg sender cmd w'') : w.Sends cfg sender cmd w'' :=
  ⟨h'.sessions.trans h.sessions, h.queue ▸ h'.queue⟩

/-! ### The condition -/

/-- The handler that sends a Leave in a step, if one does. -/
def leaver (w : Service S) : Act → Option (WsTx × Handler)
  | .receive c .leave => (w.running? c).map fun h => (c, h)
  | .advance c => ((w.handlers c).filter fun h => h.phase = .leaving).map fun h => (c, h)
  | _ => none

/-- Whose a participant will be once the queue is worked off, as far as can be told. -/
def foreseenOwner (w : Service S) (sid : SessionId) (pid : ParticipantId) : Option WsTx :=
  w.queue.foldl (fun o e => SfuShard.lifecycle S sid pid o e.cmd) (w.sfu.owner sid pid)

/-- **The condition on a step**: a handler puts its Leave in the queue only while the
id is its own or nobody's, by the state of the shard and the commands in the queue. -/
def LeavesOwn (cfg : Config) (w : Service S) (a : Act) : Prop :=
  ∀ e ∈ w.leaver a, w.queue.length < cfg.cmdBuffer →
    w.foreseenOwner e.2.sid e.2.pid = none ∨ w.foreseenOwner e.2.sid e.2.pid = some e.1

/-- Whether a command is a Leave. -/
def isLeave : SfuCommand → Bool
  | .leave _ _ => true
  | _ => false

instance (cfg : Config) (w : Service S) (a : Act) : Decidable (LeavesOwn cfg w a) :=
  inferInstanceAs (Decidable (∀ e ∈ w.leaver a, _))

/-- What the steps of the service are to the queue and the shard. -/
inductive Kind (cfg : Config) (w : Service S) : Act → Service S → Prop
  | quiet {a : Act} {w' : Service S} : w.Quiet w' → Kind cfg w a w'
  /-- A command other than a Leave is sent. -/
  | sends {a : Act} {w' : Service S} {sender : Option WsTx} {cmd : SfuCommand} :
      isLeave cmd = false → w.Sends cfg sender cmd w' → Kind cfg w a w'
  | leaves {a : Act} {w' : Service S} {c : WsTx} {h : Handler} : (c, h) ∈ w.leaver a →
      w.Sends cfg (some c) (.leave h.sid h.pid) w' → Kind cfg w a w'
  | handles {w' : Service S} {e : Queued} (creds : IceCreds) (now : Instant) (fuel : ℕ) :
      w.queue = e :: w'.queue → w'.sfu = w.sfu.next (.command e.cmd creds now fuel) →
      Kind cfg w (.handle creds now fuel) w'
  | ticks {w' : Service S} (now : Instant) (fuel : ℕ) : w'.queue = w.queue →
      w'.sfu = w.sfu.next (.tick now fuel) → Kind cfg w (.tick now fuel) w'
  /-- The shard takes another step of its own, in which nobody comes or goes. -/
  | works {a : Act} {w' : Service S} {i : SfuShard.Input} : w'.queue = w.queue →
      SfuShard.Step w.sfu i w'.sfu → (∀ sid pid, ¬ SfuShard.Effects w.sfu i (.left sid pid)) →
      (∀ sid pid tx, ¬ SfuShard.Effects w.sfu i (.admitted sid pid tx)) → Kind cfg w a w'

theorem kind_onMessage {c : WsTx} {h : Handler} (hc : w.running? c = some h) (msg : ClientMessage) :
    w.Kind cfg (.receive c msg) (w.onMessage cfg c h msg) := by
  cases msg with
  | join sdpOffer =>
    exact .sends rfl ((sends_sfuSendOrDrop w _ _).quiet ⟨rfl, rfl⟩)
  | answer sdpAnswer => exact .sends rfl (sends_sfuSendOrDrop w _ _)
  | iceCandidate candidate sdpMid => exact .sends rfl (sends_sfuSendOrDrop w _ _)
  | publishTrack source kind =>
    dsimp only [onMessage]
    split
    · exact .sends rfl (sends_sfuSendOrDrop w _ _)
    · exact .quiet (.refl w)
  | offer sdpOffer => exact .sends rfl (sends_sfuSendOrDrop w _ _)
  | muteChanged kind muted =>
    have hslot : w.Quiet (w.modifySlot h.sid h.pid (muteSlot kind muted)) := ⟨rfl, rfl⟩
    exact .quiet ((hslot.trans (quiet_broadcastExcept _ _ _ _)).trans ⟨rfl, rfl⟩)
  | deafenChanged deafened =>
    have hslot : w.Quiet (w.modifySlot h.sid h.pid fun p => { p with deafened := deafened }) :=
      ⟨rfl, rfl⟩
    exact .quiet (hslot.trans (quiet_broadcastExcept _ _ _ _))
  | leave =>
    refine .leaves (c := c) (h := h) ?_ ((sends_sfuSendOrDrop w _ _).quiet ⟨rfl, rfl⟩)
    rw [leaver, hc]
    rfl

theorem kind_advance {c : WsTx} {h : Handler} (hc : w.handlers c = some h) :
    w.Kind cfg (.advance c) (w.advance cfg c h) := by
  unfold advance
  split
  · split
    · exact .quiet ⟨rfl, rfl⟩
    · exact .quiet ⟨rfl, rfl⟩
  · exact .quiet (quiet_register w c h)
  · exact .quiet ((quiet_publish w _ _).trans ⟨rfl, rfl⟩)
  · exact .quiet (.refl w)
  · exact .quiet ⟨rfl, rfl⟩
  · exact .quiet ((quiet_publish w _ _).trans ⟨rfl, rfl⟩)
  · rename_i hphase
    refine .leaves (c := c) (h := h) ?_ ((sends_sfuSendOrDrop w _ _).quiet ⟨rfl, rfl⟩)
    rw [leaver, hc, Option.filter_some, if_pos (decide_eq_true hphase)]
    rfl
  · exact .quiet ((quiet_release w c h).trans ⟨rfl, rfl⟩)
  · exact .quiet ((quiet_publish w _ _).trans ⟨rfl, rfl⟩)
  · exact .quiet (.refl w)

theorem kind_dispatch (w : Service S) (a : Act) (source : SocketAddr) (data : List UInt8)
    (ufrag : Option String) : w.Kind cfg a (w.dispatch cfg source data ufrag) := by
  unfold dispatch
  split
  · exact .sends rfl (sends_sfuSendOrDrop w _ _)
  · split
    · exact .quiet (.refl w)
    · rename_i t _
      have hlearn : w.Quiet (w.learn source t) := ⟨rfl, rfl⟩
      exact .sends rfl (hlearn.sends (sends_sfuSendOrDrop _ _ _))

/-- **Every step of the service is of one of these kinds.** -/
theorem kind_of_step {a : Act} (h : Step cfg w a w') : w.Kind cfg a w' := by
  cases h with
  | rehash hr => exact .works (i := .rehash) rfl (.rehash hr) (fun _ _ => id) fun _ _ _ => id
  | next =>
    cases a with
    | createSession channelId hubId sid =>
      dsimp only [next, createSession]
      split <;> exact .quiet ⟨rfl, rfl⟩
    | connect c sid userId userSnowflake random =>
      dsimp only [next, connect]
      split <;> exact .quiet ⟨rfl, rfl⟩
    | advance c =>
      dsimp only [next]
      split
      · exact .quiet (.refl w)
      · rename_i h hc
        exact kind_advance hc
    | receive c msg =>
      dsimp only [next]
      split
      · exact .quiet (.refl w)
      · rename_i h hc
        exact kind_onMessage hc msg
    | invalid c error =>
      dsimp only [next]
      split <;> exact .quiet ⟨rfl, rfl⟩
    | deliver c =>
      dsimp only [next]
      split <;> exact .quiet ⟨rfl, rfl⟩
    | hangUp c =>
      dsimp only [next]
      split <;> exact .quiet ⟨rfl, rfl⟩
    | datagram source data ufrag => exact kind_dispatch w _ source data ufrag
    | handle creds now fuel =>
      dsimp only [next]
      split
      · exact .quiet (.refl w)
      · rename_i e rest hq
        exact .handles creds now fuel hq rfl
    | tick now fuel => exact .ticks now fuel rfl rfl
    | flush now pollFuel fuel =>
      exact .works rfl (.next w.sfu (.flush now pollFuel fuel)) (fun _ _ => id) fun _ _ _ => id
    | negotiate => exact .works rfl (.next w.sfu .negotiate) (fun _ _ => id) fun _ _ _ => id
    | rehash => exact .quiet (.refl w)

/-! ### The invariant -/

/-- The Leave of an id is in order while the id is its sender's or nobody's. -/
def InOrder (sid : SessionId) (pid : ParticipantId) (o : Option WsTx) (e : Queued) : Prop :=
  e.cmd = .leave sid pid → o = none ∨ o = e.sender

/-- Every Leave in the queue will find the participant its sender's, or gone. -/
def LeavesInOrder (w : Service S) : Prop :=
  ∀ sid pid, Foreseen (fun o e => SfuShard.lifecycle S sid pid o e.cmd) (InOrder sid pid)
    (w.sfu.owner sid pid) w.queue

theorem LeavesInOrder.append (h : w.LeavesInOrder) {e : Queued}
    (howner : ∀ sid pid, w'.sfu.owner sid pid = w.sfu.owner sid pid)
    (hqueue : w'.queue = w.queue ++ [e])
    (he : ∀ sid pid, e.cmd = .leave sid pid →
      w.foreseenOwner sid pid = none ∨ w.foreseenOwner sid pid = e.sender) :
    w'.LeavesInOrder := by
  intro sid pid
  rw [howner, hqueue]
  exact (h sid pid).append (he sid pid)

/-- What is foreseen for a participant that is not there is no more than what is
foreseen for one that is. -/
theorem Foreseen.owner_none {sid : SessionId} {pid : ParticipantId} {o o' : Option WsTx}
    {q : List Queued} (ho : o' = o ∨ o' = none)
    (h : Foreseen (fun o e => SfuShard.lifecycle S sid pid o e.cmd) (InOrder sid pid) o q) :
    Foreseen (fun o e => SfuShard.lifecycle S sid pid o e.cmd) (InOrder sid pid) o' q := by
  refine h.mono (R := fun o o' => o' = o ∨ o' = none) (fun {o o'} e ho => ?_)
    (fun e ho hin hcmd => ?_) ho
  · cases e.cmd with
    | join sid' pid' userId sdpOffer replyTx =>
      dsimp only [SfuShard.lifecycle]
      split
      · exact .inl rfl
      · exact ho
    | leave sid' pid' =>
      dsimp only [SfuShard.lifecycle]
      split
      · exact .inl rfl
      · exact ho
    | _ => exact ho
  · rcases ho with rfl | rfl
    · exact hin hcmd
    · exact .inl rfl

theorem LeavesInOrder.keep (h : w.LeavesInOrder)
    (howner : ∀ sid pid, w'.sfu.owner sid pid = w.sfu.owner sid pid ∨
      w'.sfu.owner sid pid = none)
    (hqueue : w'.queue = w.queue) : w'.LeavesInOrder := by
  intro sid pid
  rw [hqueue]
  exact Foreseen.owner_none (howner sid pid) (h sid pid)

theorem LeavesInOrder.step (h : w.LeavesInOrder) {a : Act} (hok : w.LeavesOwn cfg a)
    (hstep : Step cfg w a w') : w'.LeavesInOrder := by
  cases kind_of_step hstep with
  | quiet hq =>
    exact h.keep (fun sid pid => .inl (SfuShard.owner_eq_of_sessions hq.sessions)) hq.queue
  | sends hcmd hs =>
    have howner (sid pid) : w'.sfu.owner sid pid = w.sfu.owner sid pid :=
      SfuShard.owner_eq_of_sessions hs.sessions
    rcases hs.queue with hq | ⟨-, hq⟩
    · exact h.keep (fun sid pid => .inl (howner sid pid)) hq
    · refine h.append howner hq fun sid pid heq => ?_
      cases heq
      cases hcmd
  | leaves hmem hs =>
    have howner (sid pid) : w'.sfu.owner sid pid = w.sfu.owner sid pid :=
      SfuShard.owner_eq_of_sessions hs.sessions
    rcases hs.queue with hq | ⟨hroom, hq⟩
    · exact h.keep (fun sid pid => .inl (howner sid pid)) hq
    · refine h.append howner hq fun sid pid heq => ?_
      obtain ⟨rfl, rfl⟩ := SfuCommand.leave.inj heq
      exact hok _ hmem hroom
  | handles creds now fuel hq hsfu =>
    intro sid pid
    have hcons := h sid pid
    rw [hq, Foreseen.cons_iff] at hcons
    refine Foreseen.owner_none ?_ hcons.2
    rw [hsfu]
    exact SfuShard.owner_command w.sfu _ creds now fuel
  | ticks now fuel hq hsfu =>
    refine h.keep (fun sid pid => ?_) hq
    rw [hsfu]
    exact (SfuShard.moves_of_step (.next w.sfu (.tick now fuel))).owner_or_none fun _ => id
  | works hq hsfu hl ha =>
    exact h.keep (fun sid pid => .inl ((SfuShard.moves_of_step hsfu).owner (hl sid pid)
      (ha sid pid))) hq

theorem Ids.step (h : w.sfu.Ids) {a : Act} (hstep : Step cfg w a w') : w'.sfu.Ids := by
  have hkeep : w'.sfu.sessions = w.sfu.sessions → w'.sfu.Ids := by
    intro hs sid pid p hp
    rw [SfuShard.participant?, SfuShard.session?, hs] at hp
    exact h sid pid p hp
  cases kind_of_step hstep with
  | quiet hq => exact hkeep hq.sessions
  | sends _ hs => exact hkeep hs.sessions
  | leaves _ hs => exact hkeep hs.sessions
  | handles creds now fuel _ hsfu =>
    rw [hsfu]
    exact SfuShard.Ids.step h (.next _ _)
  | ticks now fuel _ hsfu =>
    rw [hsfu]
    exact SfuShard.Ids.step h (.next _ _)
  | works _ hsfu _ _ => exact SfuShard.Ids.step h hsfu

theorem inv_of_reach (hw : (system S cfg).Reach (LeavesOwn cfg) w) :
    w.sfu.Ids ∧ w.LeavesInOrder := by
  refine hw.invariant (I := fun w => w.sfu.Ids ∧ w.LeavesInOrder) (fun w hinit => ?_)
    fun w a w' h hok hstep => ⟨Ids.step h.1 hstep, h.2.step hok hstep⟩
  obtain ⟨_, _, rfl⟩ := hinit
  exact ⟨SfuShard.ids_new _ _ _, fun _ _ => trivial⟩

end Service

variable {S : Str0m} {cfg : Config} {w w' : Service S}

/-- **A participant across reconnects.** In every run whose handlers send their Leave
only while the id is their own or nobody's, a participant stays in the shard, on the
connection that it belongs to, until a Leave of that connection is handled, or a Join of
the same id, or a tick finds it a zombie. -/
theorem participant_leaves_only (hw : (Service.system S cfg).Reach (Service.LeavesOwn cfg) w)
    {a : Service.Act} (hstep : Service.Step cfg w a w') {sid : SessionId} {pid : ParticipantId}
    {p : SfuParticipant S} (hp : w.sfu.participant? sid pid = some p) :
    w'.sfu.owner sid pid = some p.wsTx ∨
    (∃ creds now fuel rest, a = .handle creds now fuel ∧
      w.queue = ⟨some p.wsTx, .leave sid pid⟩ :: rest) ∨
    (∃ creds now fuel sender userId sdpOffer tx rest, a = .handle creds now fuel ∧
      w.queue = ⟨sender, .join sid pid userId sdpOffer tx⟩ :: rest) ∨
    ∃ now fuel, a = .tick now fuel ∧ SfuShard.isZombie w.sfu.zombieTimeout now p = true := by
  obtain ⟨hids, horder⟩ := Service.inv_of_reach hw
  have howner : w.sfu.owner sid pid = some p.wsTx := by rw [SfuShard.owner, hp, Option.map_some]
  have hkeep (h : w'.sfu.owner sid pid = w.sfu.owner sid pid) :
      w'.sfu.owner sid pid = some p.wsTx := h.trans howner
  cases Service.kind_of_step hstep with
  | quiet hq => exact .inl (hkeep (SfuShard.owner_eq_of_sessions hq.sessions))
  | sends _ hs => exact .inl (hkeep (SfuShard.owner_eq_of_sessions hs.sessions))
  | leaves _ hs => exact .inl (hkeep (SfuShard.owner_eq_of_sessions hs.sessions))
  | @handles _ e creds now fuel hq hsfu =>
    obtain ⟨sender, cmd⟩ := e
    have hin := horder sid pid
    rw [hq, Foreseen.cons_iff] at hin
    have hmoves := SfuShard.moves_of_step (.next w.sfu (.command cmd creds now fuel))
    rw [← hsfu] at hmoves
    cases cmd with
    | leave sid' pid' =>
      by_cases heq : sid' = sid ∧ pid' = pid
      · obtain ⟨rfl, rfl⟩ := heq
        rcases hin.1 rfl with hnone | hsender
        · rw [hnone] at howner
          cases howner
        · refine .inr (.inl ⟨creds, now, fuel, w'.queue, rfl, ?_⟩)
          rw [hq, show sender = some p.wsTx from hsender.symm.trans howner]
      · exact .inl (hkeep (hmoves.owner heq fun _ => id))
    | join sid' pid' userId sdpOffer tx =>
      by_cases heq : sid' = sid ∧ pid' = pid
      · obtain ⟨rfl, rfl⟩ := heq
        exact .inr (.inr (.inl
          ⟨creds, now, fuel, sender, userId, sdpOffer, tx, w'.queue, rfl, hq⟩))
      · exact .inl (hkeep (hmoves.owner heq fun tx ha => heq ⟨ha.1, ha.2.1⟩))
    | answer sid' pid' sdpAnswer => exact .inl (hkeep (hmoves.owner id fun _ => id))
    | iceCandidate sid' pid' candidate sdpMid => exact .inl (hkeep (hmoves.owner id fun _ => id))
    | publishTrack sid' pid' source kind => exact .inl (hkeep (hmoves.owner id fun _ => id))
    | clientOffer sid' pid' sdpOffer => exact .inl (hkeep (hmoves.owner id fun _ => id))
    | udpInput sid' pid' source data => exact .inl (hkeep (hmoves.owner id fun _ => id))
  | ticks now fuel hq hsfu =>
    by_cases hz : (sid, pid) ∈ (w.sfu.timeouts now).zombies now
    · obtain ⟨p', hp', hzombie⟩ := SfuShard.isZombie_of_mem_zombies hids hz
      obtain rfl : p = p' := Option.some.inj (hp.symm.trans hp')
      exact .inr (.inr (.inr ⟨now, fuel, rfl, hzombie⟩))
    · have hmoves := SfuShard.moves_of_step (.next w.sfu (.tick now fuel))
      rw [← hsfu] at hmoves
      exact .inl (hkeep (hmoves.owner hz fun _ => id))
  | works hq hsfu hl ha =>
    exact .inl (hkeep ((SfuShard.moves_of_step hsfu).owner (hl sid pid) (ha sid pid)))

/-! ### A reconnect

User 42 is in session 7 on connection 11 and comes back on connection 12. -/

/-- Identifiers that are derived from the session alone. -/
def reconnectConfig : Config where
  uuidV5 := fun sid _ => sid + 1
  cmdBuffer := 1024
  nats := true

/-- A user connects and joins. -/
def firstConnection : List Service.Act :=
  [.createSession 5 6 7, .connect 11 7 "42" (some 42) 0, .advance 11, .advance 11, .advance 11,
    .receive 11 (.join "a"), .advance 11, .handle ⟨"ua", "pa"⟩ 0 9]

/-- The user connects again and joins. -/
def secondConnection : List Service.Act :=
  [.connect 12 7 "42" (some 42) 0, .advance 12, .advance 12, .advance 12,
    .receive 12 (.join "a"), .advance 12]

/-- The state after a list of steps. -/
def reconnectRun (as : List Service.Act) : Service scripted :=
  as.foldl (Service.next reconnectConfig) (.new [(1, 2)] 12000)

/-- The first connection is over before the second one starts, and the client of the
second one leaves. -/
def properReconnect : List Service.Act :=
  firstConnection ++ [.hangUp 11, .advance 11, .handle ⟨"", ""⟩ 20 9] ++ secondConnection ++
    [.handle ⟨"ub", "pb"⟩ 50 9, .receive 12 .leave]

theorem reach_properReconnect : (Service.system scripted reconnectConfig).Reach
    (Service.LeavesOwn reconnectConfig) (reconnectRun properReconnect) :=
  System.Reach.foldl (M := Service.system scripted reconnectConfig) Service.Step.next
    (.start ⟨_, _, rfl⟩) (by decide)

/-- The Leave that takes the participant away then is that of the second connection. -/
theorem participant_leaves_only_properReconnect :
    (reconnectRun properReconnect).sfu.owner 7 8 = some 12 ∧
    ∃ rest, (reconnectRun properReconnect).queue = ⟨some 12, .leave 7 8⟩ :: rest := by
  have howner : (reconnectRun properReconnect).sfu.owner 7 8 = some 12 := by decide
  obtain ⟨p, hp, htx⟩ := Option.map_eq_some_iff.mp howner
  refine ⟨howner, ?_⟩
  rcases participant_leaves_only reach_properReconnect (.next _ (.handle ⟨"", ""⟩ 60 9)) hp with
    h | ⟨_, _, _, rest, -, h⟩ | ⟨_, _, _, _, _, _, _, _, -, h⟩ | ⟨_, _, h, -⟩
  · rw [show (Service.next reconnectConfig (reconnectRun properReconnect)
      (.handle ⟨"", ""⟩ 60 9)).sfu.owner 7 8 = none from by decide] at h
    cases h
  · exact ⟨rest, htx ▸ h⟩
  · have hhead : ((reconnectRun properReconnect).queue.map fun e => Service.isLeave e.cmd) =
      [true] := by decide
    rw [h] at hhead
    cases hhead
  · cases h

/-- The second connection replaces the first, whose client then hangs up. -/
def replacingReconnect : List Service.Act :=
  firstConnection ++ secondConnection ++ [.handle ⟨"ub", "pb"⟩ 50 9, .hangUp 11, .advance 11]

/-- **A stale Leave takes the participant of the new connection away**, which is running
and stays so. -/
theorem removed_by_stale_leave : ∃ w w' : Service scripted, ∃ a,
    (Service.system scripted reconnectConfig).Reachable w ∧ Service.Step reconnectConfig w a w' ∧
    w.sfu.owner 7 8 = some 12 ∧ w.queue = [⟨some 11, .leave 7 8⟩] ∧
    w'.queue = [] ∧ w'.sfu.owner 7 8 = none ∧
    (w'.handlers 12).map Handler.phase = some .running :=
  ⟨reconnectRun replacingReconnect, _, .handle ⟨"", ""⟩ 60 9,
    System.reachable_foldl (M := Service.system scripted reconnectConfig) ⟨_, _, rfl⟩
      Service.Step.next replacingReconnect,
    .next _ _, by decide, by decide, by decide, by decide, by decide⟩

end Video

end MateHub
