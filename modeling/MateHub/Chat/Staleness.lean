import MateHub.Chat.AclScope
import MateHub.Hub.Expelled
import MateHub.Lib.Caches

/-!
# How old an answer may be

The chat service keeps the answer of a check for thirty seconds, and whatever takes access away
publishes an invalidation besides. Invalidations can be lost, or come before an answer that is
written late. Even so, an answer is only as old as its entry and the check that wrote it: once
the database grants nothing any more, no check says yes after these thirty seconds and the time
that a check takes (`MateHub.Chat.denied_of_revoked`).

So a kick is final for the channels of a hub, apart from direct messages, even if everything
that it publishes is lost (`MateHub.Chat.kick_denies`).

What the hub service is and does is left open at first: a state with a database, and its steps.
-/

namespace MateHub

namespace Chat

open Hub (Db effectivePermissions hasPermission)

/-! ### The cache and the clock -/

/-- `ACL_TTL_SECS`. -/
def aclTtlSecs : ℕ := 30

/-- A check in progress, and when it began. -/
structure TimedCheck where
  check : Check
  since : ℕ

/-- What a check has answered, and when. -/
structure Verdict where
  key : Key
  allowed : Bool
  time : ℕ

/-- The hub service, the cache, and the checks. -/
structure AclClock (σ : Type) where
  hub : σ
  cache : Expiring (List Char) Bool
  checks : List TimedCheck
  /-- The answers, the last one first. -/
  verdicts : List Verdict

/-- What happens, with the time that passes. -/
inductive ClockEvent (σ ε : Type)
  | wait (d : ℕ)
  /-- The hub service takes a step. -/
  | hub (e : ε) (s' : σ)
  /-- A check looks into the cache, which may fail. -/
  | ask (k : Key) (works : Bool)
  /-- A check goes on with its next query, which may fail. -/
  | query (i : ℕ) (works : Bool)
  /-- A check writes its answer into the cache, which may fail, and returns. -/
  | store (i : ℕ) (works : Bool)
  /-- An entry is invalidated. -/
  | delete (text : List Char)

namespace AclClock

variable {σ ε : Type}

/-- `check` looks into the cache, and returns what it finds there. -/
def ask (w : AclClock σ) (k : Key) (works : Bool) : AclClock σ :=
  match if works then w.cache.get k.text else none with
  | some allowed => { w with verdicts := ⟨k, allowed, w.cache.now⟩ :: w.verdicts }
  | none => { w with checks := w.checks ++ [⟨⟨k, .missed⟩, w.cache.now⟩] }

/-- The end of `check`. -/
def store (w : AclClock σ) (i : ℕ) (works : Bool) : AclClock σ :=
  match w.checks[i]? with
  | some ⟨⟨k, .answered allowed⟩, _⟩ =>
    { w with
      checks := w.checks.eraseIdx i
      verdicts := ⟨k, allowed, w.cache.now⟩ :: w.verdicts
      cache := if works then w.cache.setEx k.text allowed aclTtlSecs else w.cache }
  | _ => w

/-- The next query of a check. -/
def query (db : Db) (w : AclClock σ) (i : ℕ) (works : Bool) : AclClock σ :=
  { w with checks := w.checks.modify i fun c => { c with check := c.check.query db works } }

end AclClock

section System

variable {σ ε : Type} (db : σ → Db) (step : σ → ε → σ → Prop)

/-- A step of the two services. -/
inductive ClockStep : AclClock σ → ClockEvent σ ε → AclClock σ → Prop
  | wait (w : AclClock σ) (d : ℕ) :
      ClockStep w (.wait d) { w with cache := w.cache.wait d }
  | hub {w : AclClock σ} {e : ε} {s' : σ} : step w.hub e s' →
      ClockStep w (.hub e s') { w with hub := s' }
  | ask (w : AclClock σ) (k : Key) (works : Bool) : ClockStep w (.ask k works) (w.ask k works)
  | query (w : AclClock σ) (i : ℕ) (works : Bool) :
      ClockStep w (.query i works) (w.query (db w.hub) i works)
  | store (w : AclClock σ) (i : ℕ) (works : Bool) :
      ClockStep w (.store i works) (w.store i works)
  | delete (w : AclClock σ) (text : List Char) :
      ClockStep w (.delete text) { w with cache := w.cache.del text }

/-- The two services, from any state of the hub service and an empty cache on. -/
def aclClock : System (AclClock σ) (ClockEvent σ ε) where
  init w := ∃ s, w = ⟨s, Expiring.empty, [], []⟩
  step := ClockStep db step

end System

/-! ### Checks that are prompt -/

section Runs

variable {σ ε : Type} {db : σ → Db} {step : σ → ε → σ → Prop} {D t₀ : ℕ} {k : Key}
  {w w' : AclClock σ}

/-- **Checks are prompt**: no check takes longer than some time. -/
def Prompt (D : ℕ) (w : AclClock σ) : ClockEvent σ ε → Prop
  | .wait d => ∀ c ∈ w.checks, w.cache.now + d ≤ c.since + D
  | _ => True

/-- **A database grants something**: to participants, to admins, or by the rows of a channel. -/
def Key.Granted (k : Key) (db : Db) : Prop :=
  db.isParticipant k.channelId k.userId = true ∨
    (db.resolveUserPerms k.hubId k.userId).isAdmin = true ∨
      hasPermission (effectivePermissions (db.channelPermsOf k.hubId k.channelId k.userId))
        k.action.bit = true

/-- A query says yes only if the database grants it. -/
theorem Check.query_answered {c : Check} {works : Bool} {d : Db}
    (h : (c.query d works).stage = .answered true) :
    c.stage = .answered true ∨ c.key.Granted d := by
  rw [Check.query] at h
  dsimp only at h
  split at h
  · split_ifs at h
    · simp at h
    · split at h <;> simp at h
  · split_ifs at h with hworks hdm hadmin
    · simp at h
    · exact .inr (.inl (Stage.answered.inj h))
    · exact .inr (.inr (.inl hadmin))
  · split_ifs at h
    · simp at h
    · exact .inr (.inr (.inr (Stage.answered.inj h)))
  · rename_i allowed hstage
    exact .inl (hstage.trans h)

/-- What holds of checks and entries in every run in which checks are prompt. -/
structure Timely (D : ℕ) (w : AclClock σ) : Prop where
  checks : ∀ c ∈ w.checks, c.since ≤ w.cache.now ∧ w.cache.now ≤ c.since + D
  entries : ∀ text v expiry, w.cache.entry text = some (v, expiry) →
    expiry ≤ w.cache.now + aclTtlSecs
  verdicts : ∀ v ∈ w.verdicts, v.time ≤ w.cache.now

/-- **What holds of a key since it is not granted any more**: a check says yes only if it is of
before, and an entry does so only if such a check has written it. -/
structure Fading (D t₀ : ℕ) (k : Key) (w : AclClock σ) : Prop where
  checks : ∀ c ∈ w.checks, c.check.key = k → c.check.stage = .answered true → c.since ≤ t₀
  entries : ∀ expiry, w.cache.entry k.text = some (true, expiry) → expiry ≤ t₀ + D + aclTtlSecs
  verdicts : ∀ v ∈ w.verdicts, v.key = k → v.allowed = true → v.time < t₀ + D + aclTtlSecs

theorem mem_modify {α : Type} {l : List α} {i : ℕ} {f : α → α} {b : α} (h : b ∈ l.modify i f) :
    b ∈ l ∨ ∃ a ∈ l, b = f a := by
  obtain ⟨j, hj⟩ := List.mem_iff_getElem?.mp h
  rw [List.getElem?_modify] at hj
  obtain ⟨a, ha, heq⟩ := Option.map_eq_some_iff.mp hj
  have hmem := List.mem_of_getElem? ha
  by_cases hij : i = j
  · rw [if_pos hij] at heq
    exact .inr ⟨a, hmem, heq.symm⟩
  · rw [if_neg hij] at heq
    exact .inl (heq ▸ hmem)

theorem Timely.next {e : ClockEvent σ ε} (h : Timely D w) (hprompt : Prompt D w e)
    (hstep : ClockStep db step w e w') : Timely D w' := by
  cases hstep with
  | wait d =>
    refine ⟨fun c hc => ⟨Nat.le_add_right_of_le (h.checks c hc).1, hprompt c hc⟩,
      fun text v expiry hentry => ?_, fun v hv => Nat.le_add_right_of_le (h.verdicts v hv)⟩
    refine Nat.le_trans (h.entries text v expiry hentry) ?_
    exact Nat.add_le_add_right (Nat.le_add_right w.cache.now d) aclTtlSecs
  | hub _ => exact ⟨h.checks, h.entries, h.verdicts⟩
  | ask k works =>
    rw [AclClock.ask]
    split
    · exact ⟨h.checks, h.entries, List.forall_mem_cons.mpr ⟨Nat.le_refl _, h.verdicts⟩⟩
    · refine ⟨fun c hc => ?_, h.entries, h.verdicts⟩
      rcases List.mem_append.mp hc with hc | hc
      · exact h.checks c hc
      · rw [List.mem_singleton.mp hc]
        exact ⟨Nat.le_refl _, Nat.le_add_right _ _⟩
  | query i works =>
    refine ⟨fun c hc => ?_, h.entries, h.verdicts⟩
    rcases mem_modify hc with hc | ⟨c₀, hc₀, rfl⟩
    · exact h.checks c hc
    · exact h.checks c₀ hc₀
  | store i works =>
    rw [AclClock.store]
    split
    · refine ⟨fun c hc => ?_, fun text v expiry hentry => ?_, ?_⟩
      · cases works <;> exact h.checks c (List.mem_of_mem_eraseIdx hc)
      · cases works with
        | false => exact h.entries text v expiry hentry
        | true =>
          rename_i k allowed _ _
          rcases eq_or_ne text k.text with rfl | hne
          · rw [if_pos rfl, Expiring.entry_setEx_self] at hentry
            exact Nat.le_of_eq (Prod.mk.inj (Option.some.inj hentry)).2.symm
          · rw [if_pos rfl, Expiring.entry_setEx_of_ne hne] at hentry
            exact h.entries text v expiry hentry
      · refine List.forall_mem_cons.mpr ?_
        cases works <;> exact ⟨Nat.le_refl _, h.verdicts⟩
    · exact h
  | delete text =>
    refine ⟨h.checks, fun text' v expiry hentry => ?_, h.verdicts⟩
    rcases eq_or_ne text' text with rfl | hne
    · rw [Expiring.entry_del_self] at hentry
      cases hentry
    · rw [Expiring.entry_del_of_ne hne] at hentry
      exact h.entries text' v expiry hentry

theorem timely_of_reach (hw : (aclClock db step).Reach (Prompt D) w) : Timely D w := by
  refine hw.invariant (I := Timely D) ?_ fun w e w' h hprompt hstep => h.next hprompt hstep
  rintro w ⟨s, rfl⟩
  exact ⟨fun _ hc => absurd hc List.not_mem_nil, fun _ _ _ h => (nomatch h),
    fun _ hv => absurd hv List.not_mem_nil⟩

/-- **One step** under which the database does not grant the key. -/
theorem Fading.next {e : ClockEvent σ ε} (h : Fading D t₀ k w) (htimely : Timely D w)
    (hno : ¬ k.Granted (db w.hub)) (hstep : ClockStep db step w e w') : Fading D t₀ k w' := by
  cases hstep with
  | wait d => exact ⟨h.checks, h.entries, h.verdicts⟩
  | hub _ => exact ⟨h.checks, h.entries, h.verdicts⟩
  | ask k' works =>
    rw [AclClock.ask]
    split
    · rename_i allowed hfound
      refine ⟨h.checks, h.entries, List.forall_mem_cons.mpr ⟨?_, h.verdicts⟩⟩
      rintro rfl hallowed
      obtain rfl : allowed = true := hallowed
      cases works with
      | false => cases hfound
      | true =>
        obtain ⟨expiry, hentry, hlt⟩ := Expiring.get_eq_some.mp hfound
        exact Nat.lt_of_lt_of_le hlt (h.entries expiry hentry)
    · refine ⟨fun c hc hkey hyes => ?_, h.entries, h.verdicts⟩
      rcases List.mem_append.mp hc with hc | hc
      · exact h.checks c hc hkey hyes
      · rw [List.mem_singleton.mp hc] at hyes
        cases hyes
  | query i works =>
    refine ⟨fun c hc hkey hyes => ?_, h.entries, h.verdicts⟩
    rcases mem_modify hc with hc | ⟨c₀, hc₀, rfl⟩
    · exact h.checks c hc hkey hyes
    · rcases Check.query_answered hyes with hyes | hgranted
      · exact h.checks c₀ hc₀ hkey hyes
      · have hkey' : c₀.check.key = k := hkey
        exact absurd (hkey' ▸ hgranted) hno
  | store i works =>
    rw [AclClock.store]
    split
    · rename_i k' allowed since hi
      have hmem := List.mem_of_getElem? hi
      -- a check that says yes is of before, and ends in time
      have hlate : k' = k → allowed = true → w.cache.now ≤ t₀ + D := by
        rintro rfl rfl
        have hsince : since ≤ t₀ := h.checks _ hmem rfl rfl
        have hnow : w.cache.now ≤ since + D := (htimely.checks _ hmem).2
        omega
      refine ⟨fun c hc => ?_, fun expiry hentry => ?_, List.forall_mem_cons.mpr ⟨?_, h.verdicts⟩⟩
      · exact h.checks c (List.mem_of_mem_eraseIdx hc)
      · cases works with
        | false => exact h.entries expiry hentry
        | true =>
          rcases eq_or_ne k.text k'.text with heq | hne
          · rw [if_pos rfl, heq, Expiring.entry_setEx_self] at hentry
            obtain ⟨rfl, rfl⟩ := Prod.mk.inj (Option.some.inj hentry)
            exact Nat.add_le_add_right (hlate (Key.text_injective heq.symm) rfl) _
          · rw [if_pos rfl, Expiring.entry_setEx_of_ne hne] at hentry
            exact h.entries expiry hentry
      · intro hkey hallowed
        have hpos : 0 < aclTtlSecs := by decide
        exact Nat.lt_of_le_of_lt (hlate hkey hallowed) (Nat.lt_add_of_pos_right hpos)
    · exact h
  | delete text =>
    refine ⟨h.checks, fun expiry hentry => ?_, h.verdicts⟩
    rcases eq_or_ne k.text text with heq | hne
    · rw [heq, Expiring.entry_del_self] at hentry
      cases hentry
    · rw [Expiring.entry_del_of_ne hne] at hentry
      exact h.entries expiry hentry

/-- The database does not grant a key after a step. -/
def Withheld (db : σ → Db) (k : Key) : ClockEvent σ ε → Prop
  | .hub _ s' => ¬ k.Granted (db s')
  | _ => True

theorem withheld_next {e : ClockEvent σ ε} (h : Withheld db k e) (hno : ¬ k.Granted (db w.hub))
    (hstep : ClockStep db step w e w') : ¬ k.Granted (db w'.hub) := by
  cases hstep with
  | hub _ => exact h
  | ask k works =>
    rw [AclClock.ask]
    split <;> exact hno
  | store i works =>
    rw [AclClock.store]
    split <;> exact hno
  | wait | query | delete => exact hno

theorem fading_of_reach (hw : (aclClock db step).Reach (Prompt D) w)
    (hno : ¬ k.Granted (db w.hub))
    (hw' : ((aclClock db step).startingAt w).Reach
      (fun w e => Prompt D w e ∧ Withheld db k e) w') : Fading D w.cache.now k w' := by
  have htimely := timely_of_reach hw
  refine (hw'.invariant (I := fun w' => (Timely D w' ∧ ¬ k.Granted (db w'.hub)) ∧
    Fading D w.cache.now k w') ?_ ?_).2
  · rintro w' rfl
    refine ⟨⟨htimely, hno⟩, fun c hc _ _ => (htimely.checks c hc).1, fun expiry hentry => ?_,
      fun v hv _ _ => ?_⟩
    · have hle := htimely.entries _ _ _ hentry
      omega
    · have hle := htimely.verdicts v hv
      have hpos : 0 < aclTtlSecs := by decide
      omega
  · rintro w₁ e w₂ ⟨⟨htimely, hno⟩, hfading⟩ ⟨hprompt, hwithheld⟩ hstep
    exact ⟨⟨htimely.next hprompt hstep, withheld_next hwithheld hno hstep⟩,
      hfading.next htimely hno hstep⟩

theorem Fading.denied (h : Fading D t₀ k w) : ∀ v ∈ w.verdicts, v.key = k →
    t₀ + D + aclTtlSecs ≤ v.time → v.allowed = false := by
  intro v hv hkey hlate
  by_contra hyes
  have hlt := h.verdicts v hv hkey (Bool.eq_true_of_not_eq_false hyes)
  omega

/-- **Answers are not older than their entries**: if checks take at most some time, then once
the database does not grant something any more, and as long as it does not, no check says yes
later than thirty seconds and that time after – however the checks, the invalidations and the
calls of the hub service interleave, and whichever of them fail. -/
theorem denied_of_revoked (hw : (aclClock db step).Reach (Prompt D) w)
    (hno : ¬ k.Granted (db w.hub))
    (hw' : ((aclClock db step).startingAt w).Reach
      (fun w e => Prompt D w e ∧ Withheld db k e) w') :
    ∀ v ∈ w'.verdicts, v.key = k → w.cache.now + D + aclTtlSecs ≤ v.time → v.allowed = false :=
  (fading_of_reach hw hno hw').denied

end Runs

/-! ### A kick -/

section Kicks

open Hub (ApiCall kickMember)

variable {ssoHub : I64} {D : ℕ} {k : Key} {w w' : AclClock Hub.Service}

/-- The hub service with its endpoints, each of which may fail at any statement. -/
def hubService (ssoHub : I64) (st : Hub.Service) (a : ApiCall) (st' : Hub.Service) : Prop :=
  st' ∈ a.leaves ssoHub st

/-- **Nobody lets a user in** to a channel: no endpoint brings the user back, and the channel is
not a direct message of the user's. -/
def KeptOut (ssoHub : I64) (k : Key) (w : AclClock Hub.Service) :
    ClockEvent Hub.Service ApiCall → Prop
  | .hub a st' => ¬ a.Readmits ssoHub w.hub k.hubId k.userId ∧
      st'.db.isParticipant k.channelId k.userId = false
  | _ => True

/-- Who is out of a hub is granted nothing there but direct messages. -/
theorem not_granted_of_out {db : Db} (h : db.Out k.hubId k.userId)
    (hdm : db.isParticipant k.channelId k.userId = false) : ¬ k.Granted db := by
  obtain ⟨hgroups, hperms⟩ := h.groupsOf
  rintro (hparticipant | hadmin | hrows)
  · rw [hdm] at hparticipant
    cases hparticipant
  · rw [Db.resolveUserPerms, hgroups] at hadmin
    cases hadmin
  · rw [hperms] at hrows
    rcases hk : k.action with _ | _ <;> rw [hk] at hrows <;> revert hrows <;> decide

theorem fading_of_kick {db : Db} {auth : I64}
    (hw : (aclClock Hub.Service.db (hubService ssoHub)).Reach (Prompt D) w)
    (hkick : kickMember db k.hubId auth k.userId = .ok ((), w.hub.db))
    (huser : ∃ u ∈ db.users, u.id = k.userId)
    (hdm : w.hub.db.isParticipant k.channelId k.userId = false)
    (hw' : ((aclClock Hub.Service.db (hubService ssoHub)).startingAt w).Reach
      (fun w e => Prompt D w e ∧ KeptOut ssoHub k w e) w') : Fading D w.cache.now k w' := by
  obtain ⟨hout, husers⟩ := Hub.out_of_kickMember hkick
  refine fading_of_reach hw (not_granted_of_out hout hdm) ?_
  refine (hw'.invariant (I := fun w' => w'.hub.db.Expelled k.hubId k.userId ∧
    ((aclClock Hub.Service.db (hubService ssoHub)).startingAt w).Reach
      (fun w e => Prompt D w e ∧ Withheld Hub.Service.db k e) w') ?_ ?_).2
  · rintro w' rfl
    exact ⟨⟨hout, husers ▸ huser⟩, .start rfl⟩
  · rintro w₁ e w₂ ⟨hexpelled, hreach⟩ ⟨hprompt, hkept⟩ hstep
    have hnext : w₂.hub.db.Expelled k.hubId k.userId ∧ Withheld Hub.Service.db k e := by
      cases hstep with
      | hub hleaves =>
        have hexpelled' := Hub.ApiCall.expelled hexpelled hkept.1 hleaves
        exact ⟨hexpelled', not_granted_of_out hexpelled'.toOut hkept.2⟩
      | ask k works =>
        rw [AclClock.ask]
        split <;> exact ⟨hexpelled, trivial⟩
      | store i works =>
        rw [AclClock.store]
        split <;> exact ⟨hexpelled, trivial⟩
      | wait | query | delete => exact ⟨hexpelled, trivial⟩
    exact ⟨hnext.1, .step hreach ⟨hprompt, hnext.2⟩ hstep⟩

/-- **A kick is final for channels**: in every run from the end of a kick, if checks take at
most some time, and as long as no endpoint brings the user back, no check of a channel of the
hub says yes to the user later than thirty seconds and that time after the kick, apart from
direct messages – even if every invalidation that the kick publishes is lost. -/
theorem kick_denies {db : Db} {auth : I64}
    (hw : (aclClock Hub.Service.db (hubService ssoHub)).Reach (Prompt D) w)
    (hkick : kickMember db k.hubId auth k.userId = .ok ((), w.hub.db))
    (huser : ∃ u ∈ db.users, u.id = k.userId)
    (hdm : w.hub.db.isParticipant k.channelId k.userId = false)
    (hw' : ((aclClock Hub.Service.db (hubService ssoHub)).startingAt w).Reach
      (fun w e => Prompt D w e ∧ KeptOut ssoHub k w e) w') :
    ∀ v ∈ w'.verdicts, v.key = k → w.cache.now + D + aclTtlSecs ≤ v.time → v.allowed = false :=
  (fading_of_kick hw hkick huser hdm hw').denied

/-! ### Bob is kicked -/

open Hub.Seed

/-- Bob reads in the channel of the small hub. -/
def bobsKey : Key := ⟨hub, general, bob, .read⟩

/-- He asks, and is answered after three queries. -/
def bobIsAnswered (w : AclClock Hub.Service) : AclClock Hub.Service :=
  ((((w.ask bobsKey true).query w.hub.db 0 true).query w.hub.db 0 true).query w.hub.db 0
    true).store 0 true

/-- He has been answered, and then Alice has kicked him. -/
def bobExpelled : AclClock Hub.Service :=
  { bobIsAnswered ⟨⟨devSeed, []⟩, Expiring.empty, [], []⟩ with hub := ⟨bobKicked, []⟩ }

/-- Half a minute later he asks again. -/
def bobReadsLater : AclClock Hub.Service :=
  bobIsAnswered { bobExpelled with cache := bobExpelled.cache.wait 30 }

/-- Five events, and what they do. -/
theorem reach_bobIsAnswered {M : System (AclClock Hub.Service) (ClockEvent Hub.Service ApiCall)}
    {ok : AclClock Hub.Service → ClockEvent Hub.Service ApiCall → Prop}
    (hM : M.step = ClockStep Hub.Service.db (hubService hub))
    (hok : ∀ w, ok w (.ask bobsKey true) ∧ ok w (.query 0 true) ∧ ok w (.store 0 true))
    (hw : M.Reach ok w) (hidle : (w.ask bobsKey true).hub = w.hub) :
    M.Reach ok (bobIsAnswered w) := by
  have hstep {w₁ w₂ : AclClock Hub.Service} {e : ClockEvent Hub.Service ApiCall}
      (h : ClockStep Hub.Service.db (hubService hub) w₁ e w₂) : M.step w₁ e w₂ := hM ▸ h
  have hask : M.Reach ok (w.ask bobsKey true) := .step hw (hok _).1 (hstep (.ask w bobsKey true))
  have hquery {w₁ : AclClock Hub.Service} (h : M.Reach ok w₁) :
      M.Reach ok (w₁.query w₁.hub.db 0 true) :=
    .step h (hok _).2.1 (hstep (.query w₁ 0 true))
  have hstore := System.Reach.step (hquery (hquery (hquery hask))) (hok _).2.2
    (hstep (.store _ 0 true))
  rw [bobIsAnswered, ← hidle]
  exact hstore

theorem reach_bobExpelled :
    (aclClock Hub.Service.db (hubService hub)).Reach (Prompt 0) bobExpelled := by
  have hasked : (aclClock Hub.Service.db (hubService hub)).Reach (Prompt 0)
      (bobIsAnswered ⟨⟨devSeed, []⟩, Expiring.empty, [], []⟩) :=
    reach_bobIsAnswered rfl (fun _ => ⟨trivial, trivial, trivial⟩) (.start ⟨_, rfl⟩) rfl
  have hleaves : hubService hub ⟨devSeed, []⟩ (.call (.kickMember hub alice bob))
      ⟨bobKicked, []⟩ := Hub.Service.after_mem hub ⟨devSeed, []⟩ _
  have hprompt : Prompt 0 (bobIsAnswered ⟨⟨devSeed, []⟩, Expiring.empty, [], []⟩)
      (.hub (ApiCall.call (.kickMember hub alice bob)) (Hub.Service.mk bobKicked [])) := trivial
  exact .step hasked hprompt (.hub hleaves)

theorem reach_bobReadsLater :
    ((aclClock Hub.Service.db (hubService hub)).startingAt bobExpelled).Reach
      (fun w e => Prompt 0 w e ∧ KeptOut hub bobsKey w e) bobReadsLater := by
  have hnone : bobExpelled.checks = [] := rfl
  have hprompt : Prompt (σ := Hub.Service) (ε := ApiCall) 0 bobExpelled (.wait 30) := by
    intro c hc
    rw [hnone] at hc
    cases hc
  have hwait : ((aclClock Hub.Service.db (hubService hub)).startingAt bobExpelled).Reach
      (fun w e => Prompt 0 w e ∧ KeptOut hub bobsKey w e)
      { bobExpelled with cache := bobExpelled.cache.wait 30 } :=
    .step (.start rfl) ⟨hprompt, trivial⟩ (.wait bobExpelled 30)
  exact reach_bobIsAnswered rfl
    (fun _ => ⟨⟨trivial, trivial⟩, ⟨trivial, trivial⟩, trivial, trivial⟩) hwait rfl

/-- The same, as no event of the run grants Bob anything. -/
theorem denied_of_revoked_bob :
    ∃ v ∈ bobReadsLater.verdicts, v.key = bobsKey ∧ v.time = 30 ∧ v.allowed = false := by
  have hnone : bobExpelled.checks = [] := rfl
  have hprompt : Prompt (σ := Hub.Service) (ε := ApiCall) 0 bobExpelled (.wait 30) := by
    intro c hc
    rw [hnone] at hc
    cases hc
  have hwait : ((aclClock Hub.Service.db (hubService hub)).startingAt bobExpelled).Reach
      (fun w e => Prompt 0 w e ∧ Withheld Hub.Service.db bobsKey e)
      { bobExpelled with cache := bobExpelled.cache.wait 30 } :=
    .step (.start rfl) ⟨hprompt, trivial⟩ (.wait bobExpelled 30)
  have hrun := reach_bobIsAnswered rfl
    (fun _ => ⟨⟨trivial, trivial⟩, ⟨trivial, trivial⟩, trivial, trivial⟩) hwait rfl
  have hkick : kickMember devSeed hub alice bob = .ok ((), bobExpelled.hub.db) := rfl
  have hno : ¬ bobsKey.Granted bobExpelled.hub.db :=
    not_granted_of_out (Hub.out_of_kickMember hkick).1 (by decide)
  have hall := denied_of_revoked reach_bobExpelled hno hrun
  exact ⟨_, List.mem_cons_self, rfl, rfl, hall _ List.mem_cons_self rfl (by decide)⟩

theorem kick_denies_bob : (∃ v ∈ bobExpelled.verdicts, v.key = bobsKey ∧ v.allowed = true) ∧
    ∃ v ∈ bobReadsLater.verdicts, v.key = bobsKey ∧ v.time = 30 ∧ v.allowed = false := by
  have hkick : kickMember devSeed hub alice bob = .ok ((), bobExpelled.hub.db) := rfl
  have hall := kick_denies (k := bobsKey) reach_bobExpelled hkick (by decide) (by decide)
    reach_bobReadsLater
  refine ⟨⟨⟨bobsKey, true, 0⟩, List.mem_cons_self, rfl, rfl⟩, ?_⟩
  exact ⟨_, List.mem_cons_self, rfl, rfl, hall _ List.mem_cons_self rfl (by decide)⟩

end Kicks

end Chat

end MateHub
