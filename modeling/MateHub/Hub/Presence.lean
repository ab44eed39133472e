import MateHub.Hub.Groups
import MateHub.Lib.Caches
import MateHub.Lib.Tasks

/-!
# Who is online

A member is online while a key of Redis is there, which a presence connection sets when it
opens and again with every message, each time for thirty seconds, to its session id. All
connections of a member have the same key. One that closes reads the key, and deletes it if
it finds its own session id there. So a connection is a task, whose steps are its commands.

The session id in the key is that of the connection that has set it last, which says nothing
about the others: if that one closes, it deletes the key under a tab that is still open
(`MateHub.Hub.offline_while_live`). A connection that closes does no harm if another one has set
the key after it, or if no other is live; and if nobody sets the key between its two commands. In
the runs in which all do so (`MateHub.Hub.Orderly`), a member with a live connection is online, and
in every run a member without one is offline at the end (`MateHub.Hub.presence_of_reach`).
-/

namespace MateHub

namespace Hub

open Chat (I64)

/-! ### Connections -/

/-- `PRESENCE_TTL_SECS`, in milliseconds. -/
def presenceTtl : ℕ := 30 * 1000

/-- `presence_key` -/
def presenceKey (hubId userId : I64) : List Char :=
  "presence:".toList ++ (hubId.display ++ ':' :: userId.display)

/-- What Redis has for presence: keys set to session ids. A session id is random, so it is
that of one connection. -/
structure Redis where
  keys : Expiring (List Char) ℕ
  /-- History: the connection that has set a key last. -/
  setBy : List Char → Option ℕ

namespace Redis

variable (st : Redis) (hubId userId : I64)

/-- Nothing has been set. -/
def empty : Redis := ⟨.empty, fun _ => none⟩

/-- A connection sets a key to its session id. -/
def setEx (key : List Char) (sessionId : ℕ) : Redis where
  keys := st.keys.setEx key sessionId presenceTtl
  setBy := Function.update st.setBy key (some sessionId)

/-- `set_online` -/
def setOnline (sessionId : ℕ) : Redis := st.setEx (presenceKey hubId userId) sessionId

/-- `refresh` -/
def refresh (sessionId : ℕ) : Redis := st.setEx (presenceKey hubId userId) sessionId

/-- `DEL` of a key. -/
def del (key : List Char) : Redis := { st with keys := st.keys.del key }

/-- `is_online` -/
def isOnline : Bool := (st.keys.get (presenceKey hubId userId)).isSome

/-- Time passes. -/
def wait (d : ℕ) : Redis := { st with keys := st.keys.wait d }

end Redis

/-- What a client sends. -/
inductive WsMessage
  | text
  | binary
  | ping
  | pong
  | close
  deriving DecidableEq

/-- Where a connection stands in `handle_presence`. -/
inductive PresencePhase
  /-- In its loop; it set the key last at that time. -/
  | online (lastSet : ℕ)
  /-- In `set_offline`, before the `GET`. -/
  | closing
  /-- It has found its own session id: the `DEL` is next. -/
  | matched
  | closed
  deriving DecidableEq

/-- A WebSocket of the hub service, with the step its handler has come to. -/
structure PresenceConn where
  hubId : I64
  userId : I64
  phase : PresencePhase
  deriving DecidableEq

/-- The key of a connection's user. -/
def PresenceConn.key (c : PresenceConn) : List Char := presenceKey c.hubId c.userId

/-- What happens to a connection next. -/
inductive PresenceAct
  /-- It opens, and sets the user online. -/
  | connect (hubId userId : I64)
  | receive (message : WsMessage)
  /-- Its stream is over, or something cannot be sent. -/
  | drop
  /-- The next command of `set_offline` is executed. -/
  | next
  deriving DecidableEq

/-- A step of a connection that is there. -/
def handlePresence (st : Redis) (sid : ℕ) (hubId userId : I64) :
    PresencePhase → PresenceAct → Option (Redis × PresencePhase)
  | .online lastSet, .receive message =>
    match message with
    | .text | .ping | .pong => some (st.refresh hubId userId sid, .online st.keys.now)
    | .close => some (st, .closing)
    | .binary => some (st, .online lastSet)
  | .online _, .drop => some (st, .closing)
  | .closing, .next =>
    if st.keys.get (presenceKey hubId userId) = some sid then some (st, .matched)
    else some (st, .closed)
  | .matched, .next => some (st.del (presenceKey hubId userId), .closed)
  | _, _ => none

/-- A step of a connection. -/
def runPresence (st : Redis) (sid : ℕ) :
    Option PresenceConn → PresenceAct → Option (Redis × Option PresenceConn)
  | none, a =>
    match a with
    | .connect hubId userId =>
      some (st.setOnline hubId userId sid, some ⟨hubId, userId, .online st.keys.now⟩)
    | _ => none
  | some c, a =>
    (handlePresence st sid c.hubId c.userId c.phase a).map fun p =>
      (p.1, some { c with phase := p.2 })

/-- The connections of all members, by their session ids, and Redis. -/
abbrev Presence := Tasks ℕ Redis (Option PresenceConn)

/-- The service starts with no connection and no key. Time passes. -/
def presence : System Presence (Tasks.Act ℕ PresenceAct ℕ) :=
  Tasks.system (fun w => w.shared = .empty ∧ ∀ sid, w.task sid = none) runPresence Redis.wait

/-! ### What the key is to say -/

/-- A member has a connection that is open and has set the key within the time to live. -/
def Live (w : Presence) (hubId userId : I64) : Prop :=
  ∃ sid lastSet, w.task sid = some ⟨hubId, userId, .online lastSet⟩ ∧
    w.shared.keys.now < lastSet + presenceTtl

/-- All connections of a member are closed, and have cleaned up. -/
def Gone (w : Presence) (hubId userId : I64) : Prop :=
  ∀ sid phase, w.task sid = some ⟨hubId, userId, phase⟩ → phase = .closed

/-- **A member with a live connection is online.** -/
def OnlineWhileLive (w : Presence) : Prop :=
  ∀ hubId userId, Live w hubId userId → w.shared.isOnline hubId userId = true

/-- **A member whose connections are all gone is offline.** -/
def OfflineWhenGone (w : Presence) : Prop :=
  ∀ hubId userId, Gone w hubId userId → w.shared.isOnline hubId userId = false

/-- A step in which a connection sets the key of a member. -/
def Sets (w : Presence) (hubId userId : I64) : Tasks.Act ℕ PresenceAct ℕ → Prop
  | .task sid (.connect hubId' userId') =>
    w.task sid = none ∧ hubId' = hubId ∧ userId' = userId
  | .task sid (.receive message) => (∃ lastSet, w.task sid = some ⟨hubId, userId, .online lastSet⟩) ∧
    (message = .text ∨ message = .ping ∨ message = .pong)
  | _ => False

/-- **The condition on a step**: where a connection reads the key in order to clean up, it is not
the last one that has set it, or no connection of the member is live; and nobody sets the key of a
member while a connection of the member is between its `GET` and its `DEL`. -/
structure Orderly (w : Presence) (a : Tasks.Act ℕ PresenceAct ℕ) : Prop where
  reads : ∀ sid hubId userId, a = .task sid .next →
    w.task sid = some ⟨hubId, userId, .closing⟩ → Live w hubId userId →
    w.shared.setBy (presenceKey hubId userId) ≠ some sid
  sets : ∀ hubId userId, Sets w hubId userId a →
    ∀ sid, w.task sid ≠ some ⟨hubId, userId, .matched⟩

/-! ### What a step does -/

theorem presenceKey_eq_iff {hubId userId hubId' userId' : I64} :
    presenceKey hubId userId = presenceKey hubId' userId' ↔ hubId = hubId' ∧ userId = userId' :=
  (List.append_right_inj _).trans Chat.display_colon_eq_iff

theorem PresenceConn.key_eq_iff {c c' : PresenceConn} :
    c.key = c'.key ↔ c.hubId = c'.hubId ∧ c.userId = c'.userId := presenceKey_eq_iff

/-- **What a connection does in a step.** -/
inductive Presents (w : Presence) (sid : ℕ) (a : PresenceAct) :
    Option PresenceConn → Redis → PresenceConn → Prop
  /-- It sets the key, with its opening or with a message. -/
  | sets {t : Option PresenceConn} {c : PresenceConn} : (∀ c' ∈ t, c'.key = c.key) →
      Sets w c.hubId c.userId (.task sid a) →
      Presents w sid a t (w.shared.setEx c.key sid) { c with phase := .online w.shared.keys.now }
  /-- Nothing is written, and it is where it was. -/
  | ignores {c : PresenceConn} : Presents w sid a (some c) w.shared c
  | leaves {c : PresenceConn} : Presents w sid a (some c) w.shared { c with phase := .closing }
  /-- It has read its own session id. -/
  | reads {c : PresenceConn} : a = .next → c.phase = .closing →
      w.shared.keys.get c.key = some sid →
      Presents w sid a (some c) w.shared { c with phase := .matched }
  /-- It has not read its own session id. -/
  | skips {c : PresenceConn} : w.shared.keys.get c.key ≠ some sid →
      Presents w sid a (some c) w.shared { c with phase := .closed }
  | deletes {c : PresenceConn} : c.phase = .matched →
      Presents w sid a (some c) (w.shared.del c.key) { c with phase := .closed }

variable {w : Presence} {st st' : Redis} {sid j : ℕ} {c : PresenceConn} {t : Option PresenceConn}

theorem presents_of_runPresence {t' : Option PresenceConn} {a : PresenceAct}
    (h : runPresence w.shared sid (w.task sid) a = some (st', t')) :
    ∃ c, t' = some c ∧ Presents w sid a (w.task sid) st' c := by
  cases ht : w.task sid with
  | none =>
    rw [ht] at h
    cases a with
    | connect hubId userId =>
      obtain ⟨rfl, rfl⟩ := Prod.mk.inj (Option.some.inj h)
      refine ⟨_, rfl, .sets (c := ⟨hubId, userId, .closed⟩) (fun c hc => ?_) ⟨ht, rfl, rfl⟩⟩
      exact absurd hc (Option.not_mem_none c)
    | _ => cases h
  | some c =>
    rw [ht] at h
    obtain ⟨⟨st₁, phase⟩, hrun, heq⟩ := Option.map_eq_some_iff.mp h
    obtain ⟨rfl, rfl⟩ := Prod.mk.inj heq
    refine ⟨_, rfl, ?_⟩
    obtain ⟨hubId, userId, phase₀⟩ := c
    cases phase₀ with
    | online lastSet =>
      have hsets {message : WsMessage}
          (hm : message = .text ∨ message = .ping ∨ message = .pong) :
          Presents w sid (.receive message) (some ⟨hubId, userId, .online lastSet⟩)
            (w.shared.refresh hubId userId sid) ⟨hubId, userId, .online w.shared.keys.now⟩ :=
        .sets (c := ⟨hubId, userId, .online lastSet⟩)
          (fun c' hc' => by rw [Option.mem_some_iff.mp hc']) ⟨⟨lastSet, ht⟩, hm⟩
      cases a with
      | receive message =>
        cases message with
        | binary =>
          obtain ⟨rfl, rfl⟩ := Prod.mk.inj (Option.some.inj hrun)
          exact .ignores
        | close =>
          obtain ⟨rfl, rfl⟩ := Prod.mk.inj (Option.some.inj hrun)
          exact .leaves
        | _ =>
          obtain ⟨rfl, rfl⟩ := Prod.mk.inj (Option.some.inj hrun)
          exact hsets (by simp)
      | drop =>
        obtain ⟨rfl, rfl⟩ := Prod.mk.inj (Option.some.inj hrun)
        exact .leaves
      | _ => cases hrun
    | closing =>
      cases a with
      | next =>
        dsimp only [handlePresence] at hrun
        split at hrun
        · rename_i hget
          obtain ⟨rfl, rfl⟩ := Prod.mk.inj (Option.some.inj hrun)
          exact .reads rfl rfl hget
        · rename_i hget
          obtain ⟨rfl, rfl⟩ := Prod.mk.inj (Option.some.inj hrun)
          exact .skips hget
      | _ => cases hrun
    | matched =>
      cases a with
      | next =>
        obtain ⟨rfl, rfl⟩ := Prod.mk.inj (Option.some.inj hrun)
        exact .deletes rfl
      | _ => cases hrun
    | closed => cases a <;> cases hrun

/-! ### Who has set a key -/

/-- A key holds the session id of the connection that has set it last. -/
def SetLast (st : Redis) : Prop := ∀ k sid, st.keys.get k = some sid → st.setBy k = some sid

theorem SetLast.setEx {k : List Char} (h : SetLast st) : SetLast (st.setEx k sid) := by
  intro k' sid' hget
  rcases Expiring.get_setEx hget with ⟨rfl, rfl⟩ | ⟨hne, hold⟩
  · exact Function.update_self ..
  · exact (Function.update_of_ne hne ..).trans (h k' sid' hold)

theorem SetLast.presents {a : PresenceAct} (h : SetLast w.shared)
    (hstep : Presents w sid a t st' c) : SetLast st' := by
  cases hstep with
  | sets => exact h.setEx
  | deletes => exact fun k sid' hget => h k sid' (Expiring.get_del hget).2
  | _ => exact h

/-! ### Who is live -/

/-- **A connection becomes live by setting its key**, and by nothing else. -/
theorem live_back {a : PresenceAct} {hubId userId : I64}
    (hstep : Presents w sid a (w.task sid) st' c)
    (hlive : Live (w.set sid st' (some c)) hubId userId) :
    Live w hubId userId ∨ Sets w hubId userId (.task sid a) := by
  obtain ⟨j, lastSet, hj, hlt⟩ := hlive
  generalize ht : w.task sid = t at hstep
  have hnow : st'.keys.now = w.shared.keys.now := by
    cases hstep <;> rfl
  rw [Tasks.shared_set, hnow] at hlt
  rcases ne_or_eq j sid with hne | rfl
  · rw [Tasks.task_set_of_ne hne] at hj
    exact .inl ⟨j, lastSet, hj, hlt⟩
  · rw [Tasks.task_set_self] at hj
    cases hstep with
    | @sets _ c _ hsets =>
      obtain ⟨hhub, huser, -⟩ := PresenceConn.mk.inj (Option.some.inj hj)
      exact .inr (hhub ▸ huser ▸ hsets)
    | ignores => exact .inl ⟨j, lastSet, ht.trans hj, hlt⟩
    | _ => cases hj

/-- No connection of a member is live while one is about to delete the key. -/
def Quiet (w : Presence) : Prop :=
  ∀ sid hubId userId, w.task sid = some ⟨hubId, userId, .matched⟩ → ¬ Live w hubId userId

/-- Who is about to delete the key has been, or has found that it set the key last, and then
nobody is live. -/
theorem Quiet.presents {a : PresenceAct} (h : Quiet w) (hlast : SetLast w.shared)
    (hok : Orderly w (.task sid a)) (hstep : Presents w sid a (w.task sid) st' c) :
    Quiet (w.set sid st' (some c)) := by
  intro j hubId userId hj hlive
  -- whoever is at that place in the state before
  have hwas (hj : w.task j = some ⟨hubId, userId, .matched⟩) : False :=
    (live_back hstep hlive).elim (h j hubId userId hj) fun hsets => hok.sets _ _ hsets j hj
  rcases ne_or_eq j sid with hne | rfl
  · rw [Tasks.task_set_of_ne hne] at hj
    exact hwas hj
  · rw [Tasks.task_set_self] at hj
    have hback := live_back hstep hlive
    generalize ht : w.task j = t at hstep hwas
    cases hstep with
    | ignores => exact hwas hj
    | @reads c ha hphase hget =>
      subst ha
      obtain ⟨hubId', userId', phase⟩ := c
      obtain rfl : phase = .closing := hphase
      obtain ⟨rfl, rfl, -⟩ := PresenceConn.mk.inj (Option.some.inj hj)
      exact hok.reads j _ _ rfl ht (hback.resolve_right id) (hlast _ _ hget)
    | _ => cases hj

/-! ### The key of a live connection -/

/-- A connection that is open keeps its key for the time to live, unless that is over. -/
def Keeps (st : Redis) (_ : ℕ) (t : Option PresenceConn) : Prop :=
  ∀ c ∈ t, ∀ lastSet, c.phase = .online lastSet → lastSet ≤ st.keys.now ∧
    (st.keys.now < lastSet + presenceTtl → st.keys.Lasts c.key (lastSet + presenceTtl))

theorem keeps_of_not_online (h : ∀ lastSet, c.phase ≠ .online lastSet) :
    Keeps st sid (some c) := by
  intro c' hc' lastSet hphase
  obtain rfl := Option.mem_some_iff.mp hc'
  exact absurd hphase (h lastSet)

/-- Whoever sets a key, everybody who keeps it keeps it. -/
theorem Keeps.setEx {k : List Char} (h : Keeps st j t) : Keeps (st.setEx k sid) j t := by
  intro c hc lastSet hphase
  obtain ⟨hle, hlasts⟩ := h c hc lastSet hphase
  exact ⟨hle, fun hlt => (hlasts hlt).setEx (Nat.add_le_add_right hle presenceTtl)⟩

theorem keeps_wait {d : ℕ} (h : Keeps st j t) : Keeps (st.wait d) j t := by
  intro c hc lastSet hphase
  obtain ⟨hle, hlasts⟩ := h c hc lastSet hphase
  have hnow : (st.wait d).keys.now = st.keys.now + d := rfl
  refine ⟨by omega, fun hlt => ?_⟩
  exact (hlasts (by omega)).wait

/-- A key that is deleted is that of no live connection. -/
theorem Keeps.del (h : Keeps w.shared j (w.task j)) (hdead : ¬ Live w c.hubId c.userId) :
    Keeps (w.shared.del c.key) j (w.task j) := by
  intro c' hc' lastSet hphase
  obtain ⟨hle, hlasts⟩ := h c' hc' lastSet hphase
  refine ⟨hle, fun hlt => (hlasts hlt).del fun hkey => hdead ?_⟩
  obtain ⟨hhub, huser⟩ := PresenceConn.key_eq_iff.mp hkey
  obtain ⟨hubId, userId, phase⟩ := c'
  subst hhub huser hphase
  exact ⟨j, lastSet, hc', hlt⟩

theorem each_keeps_presents {a : PresenceAct} (h : Tasks.Each Keeps w) (hquiet : Quiet w)
    (hstep : Presents w sid a (w.task sid) st' c) :
    Tasks.Each Keeps (w.set sid st' (some c)) := by
  generalize ht : w.task sid = t at hstep
  cases hstep with
  | sets =>
    refine h.set (fun c' hc' lastSet hphase => ?_) fun j _ => Keeps.setEx
    obtain rfl := Option.mem_some_iff.mp hc'
    obtain rfl := PresencePhase.online.inj hphase
    exact ⟨Nat.le_refl _, fun _ => Expiring.lasts_setEx⟩
  | ignores => exact h.set (ht ▸ h sid) fun j _ => id
  | @deletes c hphase =>
    refine h.set (keeps_of_not_online fun lastSet => nofun) fun j _ hj => hj.del ?_
    obtain ⟨hubId, userId, phase⟩ := c
    obtain rfl : phase = .matched := hphase
    exact hquiet sid hubId userId ht
  | _ => exact h.set (keeps_of_not_online fun lastSet => nofun) fun j _ => id

/-- **The invariant** of the runs that meet the condition. -/
structure Kept (w : Presence) : Prop where
  setLast : SetLast w.shared
  quiet : Quiet w
  keeps : Tasks.Each Keeps w

theorem kept_of_reach (hw : presence.Reach Orderly w) : Kept w := by
  refine Tasks.invariant (I := Kept) (fun w h₀ => ?_) (fun w sid a st' t' h hok hrun => ?_)
    (fun w d h _ => ?_) hw
  · refine ⟨fun k sid hget => ?_, fun sid hubId userId hsid => ?_, fun sid c hc => ?_⟩
    · rw [h₀.1] at hget
      cases hget
    · rw [h₀.2 sid] at hsid
      cases hsid
    · rw [h₀.2 sid] at hc
      exact absurd hc (Option.not_mem_none c)
  · obtain ⟨c, rfl, hstep⟩ := presents_of_runPresence hrun
    exact ⟨h.setLast.presents hstep, h.quiet.presents h.setLast hok hstep,
      each_keeps_presents h.keeps h.quiet hstep⟩
  · refine ⟨fun k sid hget => h.setLast k sid (Expiring.get_of_wait hget),
      fun sid hubId userId hsid hlive => ?_, h.keeps.around fun j => keeps_wait⟩
    obtain ⟨j, lastSet, hj, hlt⟩ := hlive
    exact h.quiet sid hubId userId hsid ⟨j, lastSet, hj, Nat.lt_of_le_of_lt (Nat.le_add_right _ d) hlt⟩

/-! ### The key of no connection -/

/-- A key that is there holds the session id of a connection that has not cleaned up. -/
def Owned (w : Presence) : Prop :=
  ∀ k sid, w.shared.keys.get k = some sid → ∃ c, w.task sid = some c ∧ c.key = k ∧ c.phase ≠ .closed

/-- A step that leaves the keys to the others, and sets no key but the connection's own. -/
theorem Owned.set (h : Owned w) (hget : ∀ k sid', st.keys.get k = some sid' →
      (sid' = sid ∧ c.key = k ∧ c.phase ≠ .closed) ∨
        (sid' ≠ sid ∧ w.shared.keys.get k = some sid')) :
    Owned (w.set sid st (some c)) := by
  intro k sid' hk
  rcases hget k sid' hk with ⟨rfl, hkey, hphase⟩ | ⟨hne, hold⟩
  · exact ⟨c, Tasks.task_set_self, hkey, hphase⟩
  · rw [Tasks.task_set_of_ne hne]
    exact h k sid' hold

theorem owned_of_reachable (hw : presence.Reachable w) : Owned w := by
  refine Tasks.invariant (I := Owned) (fun w h₀ k sid hk => ?_)
    (fun w sid a st' t' hI _ hrun => ?_)
    (fun w d hI _ k sid hk => hI k sid (Expiring.get_of_wait hk)) hw
  · rw [h₀.1] at hk
    obtain ⟨_, hentry, _⟩ := Expiring.get_eq_some.mp hk
    cases hentry
  · obtain ⟨c', rfl, hstep⟩ := presents_of_runPresence hrun
    generalize ht : w.task sid = t at hstep
    -- a key that holds the session id of this connection is its own
    have hown : ∀ k, w.shared.keys.get k = some sid → ∃ c ∈ t, c.key = k ∧ c.phase ≠ .closed := by
      intro k hk
      obtain ⟨c, hc, hkey⟩ := hI k sid hk
      exact ⟨c, ht ▸ hc, hkey⟩
    refine hI.set fun k sid' hk => ?_
    rcases ne_or_eq sid' sid with hne | rfl
    · refine .inr ⟨hne, ?_⟩
      cases hstep with
      | sets => exact ((Expiring.get_setEx hk).resolve_left fun h => hne h.2).2
      | deletes => exact (Expiring.get_del hk).2
      | _ => exact hk
    · refine .inl ⟨rfl, ?_⟩
      cases hstep with
      | sets hkeys =>
        rcases Expiring.get_setEx hk with ⟨hkey, -⟩ | ⟨-, hold⟩
        · exact ⟨hkey.symm, nofun⟩
        · obtain ⟨c, hc, hkey, -⟩ := hown k hold
          exact ⟨(hkeys c hc).symm.trans hkey, nofun⟩
      | ignores =>
        obtain ⟨c, hc, hkey, hphase⟩ := hown k hk
        obtain rfl := Option.mem_some_iff.mp hc
        exact ⟨hkey, hphase⟩
      | leaves =>
        obtain ⟨c, hc, hkey, -⟩ := hown k hk
        obtain rfl := Option.mem_some_iff.mp hc
        exact ⟨hkey, nofun⟩
      | reads =>
        obtain ⟨c, hc, hkey, -⟩ := hown k hk
        obtain rfl := Option.mem_some_iff.mp hc
        exact ⟨hkey, nofun⟩
      | skips hget =>
        obtain ⟨c, hc, hkey, -⟩ := hown k hk
        obtain rfl := Option.mem_some_iff.mp hc
        exact absurd (hkey ▸ hk) hget
      | deletes =>
        obtain ⟨hne, hold⟩ := Expiring.get_del hk
        obtain ⟨c, hc, hkey, -⟩ := hown k hold
        obtain rfl := Option.mem_some_iff.mp hc
        exact absurd hkey.symm hne

theorem offlineWhenGone_of_owned (h : Owned w) : OfflineWhenGone w := by
  intro hubId userId hgone
  rw [Redis.isOnline, Option.isSome_eq_false_iff, Option.isNone_iff_eq_none]
  by_contra hget
  obtain ⟨sid, hsid⟩ := Option.ne_none_iff_exists'.mp hget
  obtain ⟨c, hc, hkey, hphase⟩ := h _ sid hsid
  obtain ⟨hhub, huser⟩ := presenceKey_eq_iff.mp hkey
  obtain ⟨hubId', userId', phase⟩ := c
  subst hhub huser
  exact hphase (hgone sid phase hc)

/-- **Presence says who is there**: in a run in which a connection that cleans up has not set the
key last while another one is live, and nobody sets the key between its two commands, a member with
a live connection is online; and a member without any is offline, which holds in every run
(`MateHub.Hub.owned_of_reachable`). -/
theorem presence_of_reach (hw : presence.Reach Orderly w) :
    OnlineWhileLive w ∧ OfflineWhenGone w := by
  refine ⟨fun hubId userId hlive => ?_, ?_⟩
  · obtain ⟨sid, lastSet, hsid, hlt⟩ := hlive
    obtain ⟨-, hlasts⟩ := (kept_of_reach hw).keeps sid _ hsid lastSet rfl
    exact Expiring.get_isSome (hlasts hlt) hlt
  · exact offlineWhenGone_of_owned (owned_of_reachable (hw.mono fun _ _ _ => trivial))

/-! ### Two tabs -/

/-- Alice opens two tabs. -/
def Seed.twoTabs : List (Tasks.Act ℕ PresenceAct ℕ) :=
  [.task 0 (.connect hub alice), .task 1 (.connect hub alice)]

/-- A tab is closed, and cleans up. -/
def closesTab (sid : ℕ) : List (Tasks.Act ℕ PresenceAct ℕ) :=
  [.task sid (.receive .close), .task sid .next, .task sid .next]

/-- The state after some steps. -/
def Presence.after (as : List (Tasks.Act ℕ PresenceAct ℕ)) : Presence :=
  as.foldl (Tasks.next runPresence Redis.wait) ⟨.empty, fun _ => none⟩

/-- A connection may come while nobody is about to delete a key. -/
theorem orderly_connect {hubId userId : I64} (h : ∀ j, ∀ c ∈ w.task j, c.phase ≠ .matched) :
    Orderly w (.task sid (.connect hubId userId)) where
  reads _ _ _ ha := by cases ha
  sets _ _ _ j hj := h j _ hj rfl

theorem orderly_close : Orderly w (.task sid (.receive .close)) where
  reads _ _ _ ha := by cases ha
  sets _ _ hsets := by simp [Sets] at hsets

/-- A command of `set_offline` is in order if another connection has set the key last, or none is
in its loop. -/
theorem orderly_next (h : ∀ c ∈ w.task sid, c.phase = .closing → w.shared.setBy c.key ≠ some sid ∨
    ∀ j, ∀ c' ∈ w.task j, ∀ lastSet, c'.phase ≠ .online lastSet) :
    Orderly w (.task sid .next) where
  reads sid' hubId userId ha hsid hlive := by
    obtain ⟨rfl, -⟩ := Tasks.Act.task.inj ha
    obtain ⟨j, lastSet, hj, -⟩ := hlive
    exact (h _ hsid rfl).resolve_right fun hnone => hnone j _ hj lastSet rfl
  sets _ _ hsets := by cases hsets

/-- The first tab closes: the second one has set the key after it. -/
theorem reach_firstCloses :
    presence.Reach Orderly (Presence.after (Seed.twoTabs ++ closesTab 0)) := by
  refine Tasks.reach_foldl ⟨rfl, fun _ => rfl⟩ ⟨orderly_connect (fun j c hc => ?_),
    orderly_connect (fun j c hc => ?_), orderly_close, orderly_next (fun c hc _ => .inl ?_),
    orderly_next (fun c hc hphase => ?_), trivial⟩
  · exact absurd hc (Option.not_mem_none c)
  · match j with
    | 0 =>
      obtain rfl := Option.mem_some_iff.mp hc
      nofun
    | j + 1 => exact absurd hc (Option.not_mem_none c)
  · obtain rfl := Option.mem_some_iff.mp hc
    decide
  · obtain rfl := Option.mem_some_iff.mp hc
    cases hphase

/-- The second one closes too, and nobody is there any more. -/
theorem reach_bothClose :
    presence.Reach Orderly (Presence.after (Seed.twoTabs ++ closesTab 0 ++ closesTab 1)) := by
  rw [Presence.after, List.foldl_append]
  refine System.Reach.foldl (M := presence) (fun _ _ => rfl) reach_firstCloses
    ⟨orderly_close, orderly_next (fun c hc _ => .inr fun j c' hc' lastSet => ?_),
      orderly_next (fun c hc hphase => ?_), trivial⟩
  · match j with
    | 0 =>
      obtain rfl := Option.mem_some_iff.mp hc'
      nofun
    | 1 =>
      obtain rfl := Option.mem_some_iff.mp hc'
      nofun
    | j + 2 => exact absurd hc' (Option.not_mem_none c')
  · obtain rfl := Option.mem_some_iff.mp hc
    cases hphase

/-- The tab that has not set the key last is closed first, and Alice stays online; then the other
one is closed, and she is offline. -/
theorem presence_of_reach_twoTabs :
    (Presence.after (Seed.twoTabs ++ closesTab 0)).shared.isOnline Seed.hub Seed.alice = true ∧
    (Presence.after (Seed.twoTabs ++ closesTab 0 ++ closesTab 1)).shared.isOnline Seed.hub
      Seed.alice = false := by
  constructor
  · exact (presence_of_reach reach_firstCloses).1 Seed.hub Seed.alice ⟨1, 0, rfl, by decide⟩
  · refine (presence_of_reach reach_bothClose).2 Seed.hub Seed.alice fun sid phase hsid => ?_
    match sid with
    | 0 => exact (Option.some.inj (congrArg (Option.map PresenceConn.phase) hsid)).symm
    | 1 => exact (Option.some.inj (congrArg (Option.map PresenceConn.phase) hsid)).symm
    | n + 2 => cases hsid

/-- **A member with a live connection is offline**: Alice opens two tabs, the first one
answers a ping, and is closed. -/
theorem offline_while_live :
    ¬ ∀ w, presence.Reachable w → OnlineWhileLive w ∧ OfflineWhenGone w := by
  intro h
  have hlive := (h (Presence.after (Seed.twoTabs ++ .task 0 (.receive .pong) :: closesTab 0))
    (Tasks.reachable_foldl ⟨rfl, fun _ => rfl⟩ _)).1 Seed.hub Seed.alice
    ⟨1, 0, rfl, by decide⟩
  exact absurd hlive (by decide)

end Hub

end MateHub
