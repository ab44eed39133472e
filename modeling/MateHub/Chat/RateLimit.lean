import MateHub.Chat.Fanout
import MateHub.Lib.Runs
import MateHub.Lib.Text
import MateHub.Lib.Tally

/-!
# The rate limit of sending

A message is counted before it is stored, by a counter in Redis for each user in each channel.
The call that makes the counter gives it its time to live, in a command of its own; the calls
after it do not. So all depends on that one command: if it fails, or if the process ends before
it, the counter never expires, and once it is over the limit the user can write no more in the
channel (`MateHub.Chat.keeps_iff_arms`).
-/

namespace MateHub

namespace Chat

/-- `rate_key`. -/
def rateKey (userId : List Char) (channelId : I64) : List Char :=
  "rate:msg:".toList ++ userId ++ ':' :: channelId.display

/-- A `u64` as an `i64`. -/
def wrapI64 (n : ℕ) : ℤ := (n : ℤ).bmod (2 ^ 64)

/-- What goes wrong in a call of `check_rate_limit`. -/
structure Faults where
  /-- `INCR` fails. -/
  incr : Bool := false
  /-- The process ends when it has counted. -/
  dies : Bool := false
  /-- `EXPIRE` fails. -/
  expire : Bool := false
  /-- `TTL` fails. -/
  ttl : Bool := false
  deriving DecidableEq

/-- The answer of `check_rate_limit` to a count. -/
def rateAnswer (r : Tally (List Char)) (now : ℕ) (key : List Char) (limit : ℤ) (windowSecs : ℕ)
    (count : ℕ) (f : Faults) : Except ℕ Unit :=
  if (count : ℤ) ≤ limit then .ok ()
  else
    let ttl := if f.ttl then wrapI64 windowSecs else r.ttl now key
    let secs := if 0 < ttl then ttl.toNat else windowSecs
    .error (max secs 1)

/-- `check_rate_limit`: what is left in Redis, and the answer if the process lives to give one. -/
def checkRateLimit (r : Tally (List Char)) (now : ℕ) (userId : List Char) (channelId : I64)
    (limit : ℤ) (windowSecs : ℕ) (f : Faults) : Tally (List Char) × Option (Except ℕ Unit) :=
  let key := rateKey userId channelId
  let (count, r) := if f.incr then (1, r) else r.incr now key
  if f.dies then (r, none)
  else
    let r := if count = 1 ∧ f.expire = false then r.expire now key (wrapI64 windowSecs) else r
    (r, some (rateAnswer r now key limit windowSecs count f))

/-- A call of `check_rate_limit`. -/
structure RateCall where
  userId : List Char
  channelId : I64
  now : ℕ
  faults : Faults := {}

namespace RateCall

/-- Who calls, and for which channel. -/
def place (c : RateCall) : List Char × I64 := (c.userId, c.channelId)

/-- The counter that a call counts in. -/
def key (c : RateCall) : List Char := rateKey c.userId c.channelId

variable {c d : RateCall}

/-- Every user has a counter of its own in every channel. -/
theorem key_eq_iff : c.key = d.key ↔ c.place = d.place := by
  refine ⟨fun h => ?_, fun h => congrArg (fun e : List Char × I64 => rateKey e.1 e.2) h⟩
  obtain ⟨huser, hchannel⟩ := Separator.eq_of_last (colon_not_mem_display c.channelId)
    (colon_not_mem_display d.channelId) h
  rw [place, place, List.append_cancel_left huser, display_injective hchannel]

end RateCall

section Calls

variable (limit : ℤ) (windowSecs : ℕ)

/-- What a call leaves in Redis. -/
def rateStep (r : Tally (List Char)) (c : RateCall) : Tally (List Char) :=
  (checkRateLimit r c.now c.userId c.channelId limit windowSecs c.faults).1

/-- What a call is answered. -/
def verdict (r : Tally (List Char)) (c : RateCall) : Option (Except ℕ Unit) :=
  (checkRateLimit r c.now c.userId c.channelId limit windowSecs c.faults).2

/-- What a history of calls leaves in Redis. -/
def rateRun (history : List RateCall) : Tally (List Char) :=
  history.foldl (rateStep limit windowSecs) .empty

/-- How many calls of a user in a channel are allowed. -/
def allowed (place : List Char × I64) : Tally (List Char) → List RateCall → ℕ
  | _, [] => 0
  | r, c :: cs =>
    (if c.place = place ∧ verdict limit windowSecs r c = some (.ok ()) then 1 else 0) +
      allowed place (rateStep limit windowSecs r c) cs

end Calls

/-- A call that starts a window: there is no counter. -/
def Starts (r : Tally (List Char)) (c : RateCall) : Prop := r.count c.now c.key = 0

/-- A call gets its `EXPIRE` through, if it starts a window. -/
def Arms (r : Tally (List Char)) (c : RateCall) : Prop :=
  Starts r c → c.faults.dies = false ∧ c.faults.expire = false

instance (r : Tally (List Char)) (c : RateCall) : Decidable (Starts r c) :=
  inferInstanceAs (Decidable (_ = _))

instance (r : Tally (List Char)) (c : RateCall) : Decidable (Arms r c) :=
  inferInstanceAs (Decidable (_ → _))

/-- The calls come one after another, and each is counted. -/
structure Chronicle (history : List RateCall) : Prop where
  sorted : history.Pairwise fun c d => c.now ≤ d.now
  counted : ∀ c ∈ history, c.faults.incr = false

/-- **The law of the rate limit**, for a history. -/
structure Keeps (limit : ℤ) (windowSecs : ℕ) (history : List RateCall) : Prop where
  /-- From a call that starts a window to its end, no more calls are allowed than the limit. -/
  atMost : ∀ before c during after, history = before ++ c :: during ++ after →
    Starts (rateRun limit windowSecs before) c →
    (∀ d ∈ during, d.now < c.now + 1000 * windowSecs) →
    (allowed limit windowSecs c.place (rateRun limit windowSecs before) (c :: during) : ℤ) ≤ limit
  /-- A call that is denied has to wait. -/
  waits : ∀ before c after, history = before ++ c :: after →
    verdict limit windowSecs (rateRun limit windowSecs before) c ≠ some (.error 0)
  /-- At any point, a user who has sent nothing for a window is allowed. -/
  again : ∀ before after, history = before ++ after → ∀ c : RateCall,
    c.faults.incr = false → c.faults.dies = false → (∀ d ∈ before, d.now ≤ c.now) →
    (∀ d ∈ before, d.place = c.place → d.now + 1000 * windowSecs ≤ c.now) →
    verdict limit windowSecs (rateRun limit windowSecs before) c = some (.ok ())

/-! ### One call -/

section Step

variable {limit : ℤ} {windowSecs : ℕ} {r : Tally (List Char)} {c : RateCall} {k : List Char}
  {n t : ℕ}

theorem wrapI64_of_lt (h : windowSecs < 2 ^ 63) : wrapI64 windowSecs = windowSecs := by
  have hlow : -((2 ^ 64 : ℕ) : ℤ) ≤ (windowSecs : ℤ) * 2 := by
    have hnat : (0 : ℤ) ≤ windowSecs := Int.natCast_nonneg windowSecs
    omega
  have hhigh : (windowSecs : ℤ) * 2 < ((2 ^ 64 : ℕ) : ℤ) := by
    exact_mod_cast (by omega : windowSecs * 2 < 2 ^ 64)
  exact Int.bmod_eq_of_le_mul_two hlow hhigh

/-- What is counted, and what is left, when `INCR` works. -/
theorem checkRateLimit_eq (hincr : c.faults.incr = false) :
    checkRateLimit r c.now c.userId c.channelId limit windowSecs c.faults =
      if c.faults.dies then ((r.incr c.now c.key).2, none)
      else
        let r' := if Starts r c ∧ c.faults.expire = false then
          (r.incr c.now c.key).2.expire c.now c.key (wrapI64 windowSecs) else (r.incr c.now c.key).2
        let count := r.count c.now c.key + 1
        (r', some (rateAnswer r' c.now c.key limit windowSecs count c.faults)) := by
  have hone : r.count c.now c.key + 1 = 1 ↔ Starts r c := Nat.succ_inj
  simp only [checkRateLimit, hincr, Bool.false_eq_true, if_false]
  simp only [show rateKey c.userId c.channelId = c.key from rfl, Tally.incr_reply, hone]

/-- A call that starts no window, or loses its `EXPIRE`, only counts. -/
theorem rateStep_of_not (hincr : c.faults.incr = false)
    (h : ¬ (Starts r c ∧ c.faults.dies = false ∧ c.faults.expire = false)) :
    rateStep limit windowSecs r c = (r.incr c.now c.key).2 := by
  rw [rateStep, checkRateLimit_eq hincr]
  rcases hdies : c.faults.dies with _ | _
  · rw [if_neg Bool.false_ne_true]
    exact if_neg fun hs => h ⟨hs.1, hdies, hs.2⟩
  · rfl

/-- A call that starts a window gives it its time, if nothing goes wrong. -/
theorem rateStep_of_starts (hincr : c.faults.incr = false) (h : Starts r c)
    (hdies : c.faults.dies = false) (hexpire : c.faults.expire = false) :
    rateStep limit windowSecs r c =
      (r.incr c.now c.key).2.expire c.now c.key (wrapI64 windowSecs) := by
  rw [rateStep, checkRateLimit_eq hincr, if_neg (by rw [hdies]; exact Bool.false_ne_true)]
  exact if_pos ⟨h, hexpire⟩

/-- What is answered to a count over the limit. -/
theorem rateAnswer_of_not_le {now count : ℕ} {f : Faults} (h : ¬ (count : ℤ) ≤ limit)
    (r : Tally (List Char)) (k : List Char) (windowSecs : ℕ) :
    ∃ secs, rateAnswer r now k limit windowSecs count f = .error (max secs 1) :=
  ⟨_, if_neg h⟩

/-- A call that is answered is allowed exactly if the count is within the limit. -/
theorem verdict_eq_ok_iff (hincr : c.faults.incr = false) :
    verdict limit windowSecs r c = some (.ok ()) ↔
      c.faults.dies = false ∧ ((r.count c.now c.key + 1 : ℕ) : ℤ) ≤ limit := by
  rw [verdict, checkRateLimit_eq hincr]
  rcases hdies : c.faults.dies with _ | _
  · rw [if_neg Bool.false_ne_true]
    dsimp only
    by_cases hle : ((r.count c.now c.key + 1 : ℕ) : ℤ) ≤ limit
    · exact iff_of_true (congrArg some (if_pos hle)) ⟨rfl, hle⟩
    · obtain ⟨secs, hsecs⟩ := rateAnswer_of_not_le hle _ _ _
      rw [hsecs]
      exact iff_of_false nofun fun h => hle h.2
  · exact iff_of_false nofun nofun

/-- **Whoever is denied has to wait.** -/
theorem verdict_ne_zero : verdict limit windowSecs r c ≠ some (.error 0) := by
  have hanswer (r : Tally (List Char)) (count : ℕ) :
      rateAnswer r c.now c.key limit windowSecs count c.faults ≠ .error 0 := by
    by_cases hle : (count : ℤ) ≤ limit
    · rw [rateAnswer, if_pos hle]
      nofun
    · obtain ⟨secs, hsecs⟩ := rateAnswer_of_not_le hle _ _ _
      rw [hsecs]
      intro h
      have hmax := Nat.le_max_right secs 1
      rw [Except.error.inj h] at hmax
      exact absurd hmax (Nat.not_succ_le_zero 0)
  rw [verdict, checkRateLimit]
  rcases c.faults.dies with _ | _
  · exact fun h => hanswer _ _ (Option.some.inj h)
  · nofun

/-- The other counters are left alone. -/
theorem entry_rateStep_of_ne (hincr : c.faults.incr = false) (h : k ≠ c.key) :
    (rateStep limit windowSecs r c).entry k = r.entry k := by
  by_cases hset : Starts r c ∧ c.faults.dies = false ∧ c.faults.expire = false
  · rw [rateStep_of_starts hincr hset.1 hset.2.1 hset.2.2, Tally.entry_expire_of_ne h,
      Tally.entry_incr_of_ne h]
  · rw [rateStep_of_not hincr hset, Tally.entry_incr_of_ne h]

/-- A call within a window counts, and leaves the window as it is. -/
theorem lasts_rateStep (hincr : c.faults.incr = false) (h : r.Lasts c.key n t) (hnow : c.now < t) :
    (rateStep limit windowSecs r c).Lasts c.key (n + 1) t := by
  rw [rateStep_of_not hincr fun hset => absurd ((h.count hnow).symm.trans hset.1) h.pos.ne']
  exact h.incr hnow

theorem stays_rateStep (hincr : c.faults.incr = false) (h : r.Stays c.key n) :
    (rateStep limit windowSecs r c).Stays c.key (n + 1) := by
  have hlasts := h.lasts (c.now + 1)
  rw [rateStep_of_not hincr fun hset =>
    absurd ((hlasts.count (Nat.lt_succ_self c.now)).symm.trans hset.1) hlasts.pos.ne']
  exact h.incr

/-- **A window that a call starts lasts**, whether or not it is given its time. -/
theorem lasts_of_starts (hwindow : windowSecs < 2 ^ 63) (hincr : c.faults.incr = false)
    (h : Starts r c) :
    (rateStep limit windowSecs r c).Lasts c.key 1 (c.now + 1000 * windowSecs) := by
  by_cases hset : Starts r c ∧ c.faults.dies = false ∧ c.faults.expire = false
  · rw [rateStep_of_starts hincr h hset.2.1 hset.2.2, wrapI64_of_lt hwindow]
    exact (Tally.incr_stays h).expire_lasts windowSecs
  · rw [rateStep_of_not hincr hset]
    exact (Tally.incr_stays h).lasts _

/-- A counter that has its `EXPIRE` expires. -/
theorem goneBy_rateStep (hwindow : windowSecs < 2 ^ 63) (hincr : c.faults.incr = false)
    (harms : Arms r c) (h : r.GoneBy c.key t) (ht : c.now + 1000 * windowSecs ≤ t) :
    (rateStep limit windowSecs r c).GoneBy c.key t := by
  by_cases hstarts : Starts r c
  · obtain ⟨hdies, hexpire⟩ := harms hstarts
    rw [rateStep_of_starts hincr hstarts hdies hexpire, wrapI64_of_lt hwindow]
    intro d hd
    obtain ⟨e, he, hle⟩ := (Tally.incr_stays hstarts).expire_goneBy windowSecs d hd
    exact ⟨e, he, hle.trans ht⟩
  · rw [rateStep_of_not hincr fun hset => hstarts hset.1]
    exact h.incr hstarts

end Step

/-! ### Histories -/

section Runs

variable {limit : ℤ} {windowSecs : ℕ} {r : Tally (List Char)} {c : RateCall}
  {history before after calls : List RateCall}

/-- **No more calls are allowed in a window than the limit leaves.** The induction is on the calls,
with the count. -/
theorem allowed_le {n t : ℕ} (hcounted : ∀ d ∈ calls, d.faults.incr = false)
    (hcalls : ∀ d ∈ calls, d.now < t) (h : r.Lasts c.key n t) :
    (allowed limit windowSecs c.place r calls : ℤ) ≤ max (limit - n) 0 := by
  induction calls generalizing r n with
  | nil =>
    rw [allowed]
    omega
  | cons d ds ih =>
    obtain ⟨hd, hds⟩ := List.forall_mem_cons.mp hcounted
    obtain ⟨hnow, hnows⟩ := List.forall_mem_cons.mp hcalls
    rw [allowed]
    by_cases hplace : d.place = c.place
    · have hkey : d.key = c.key := RateCall.key_eq_iff.mpr hplace
      rw [← hkey] at h
      have hstep : (rateStep limit windowSecs r d).Lasts d.key (n + 1) t :=
        lasts_rateStep hd h hnow
      have hrest := ih hds hnows (hkey ▸ hstep)
      split_ifs with hok
      · have hle := ((verdict_eq_ok_iff hd).mp hok.2).2
        rw [h.count hnow] at hle
        omega
      · omega
    · rw [if_neg fun hok => hplace hok.1, Nat.zero_add]
      refine ih hds hnows ?_
      obtain ⟨e, hentry, he⟩ := h
      refine ⟨e, ?_, he⟩
      rw [entry_rateStep_of_ne hd fun hkey => hplace (RateCall.key_eq_iff.mp hkey.symm), hentry]

/-- **In a window no more calls are allowed than the limit**, counting the one that starts it. -/
theorem allowed_window_le (hlimit : 1 ≤ limit) (hwindow : windowSecs < 2 ^ 63)
    (hcounted : ∀ d ∈ c :: calls, d.faults.incr = false) (hstarts : Starts r c)
    (hcalls : ∀ d ∈ calls, d.now < c.now + 1000 * windowSecs) :
    (allowed limit windowSecs c.place r (c :: calls) : ℤ) ≤ limit := by
  obtain ⟨hc, hcs⟩ := List.forall_mem_cons.mp hcounted
  have hlasts : (rateStep limit windowSecs r c).Lasts c.key 1 (c.now + 1000 * windowSecs) :=
    lasts_of_starts hwindow hc hstarts
  have hrest : (allowed limit windowSecs c.place (rateStep limit windowSecs r c) calls : ℤ) ≤
      max (limit - (1 : ℕ)) 0 := allowed_le hcs hcalls hlasts
  rw [allowed]
  split_ifs <;> omega

/-- Counters have expired when nobody has called for a window, if they have all been given
their time. -/
theorem goneBy_run (hwindow : windowSecs < 2 ^ 63) {k : List Char} {t : ℕ}
    (hcounted : ∀ d ∈ calls, d.faults.incr = false)
    (hok : System.Accepted Arms (rateStep limit windowSecs) r calls)
    (hcalls : ∀ d ∈ calls, d.key = k → d.now + 1000 * windowSecs ≤ t) (h : r.GoneBy k t) :
    (calls.foldl (rateStep limit windowSecs) r).GoneBy k t := by
  induction calls generalizing r with
  | nil => exact h
  | cons d ds ih =>
    obtain ⟨hd, hds⟩ := List.forall_mem_cons.mp hcounted
    obtain ⟨ht, hts⟩ := List.forall_mem_cons.mp hcalls
    refine ih hds hok.2 hts ?_
    by_cases hkey : d.key = k
    · subst hkey
      exact goneBy_rateStep hwindow hd hok.1 h (ht rfl)
    · intro e he
      rw [entry_rateStep_of_ne hd (Ne.symm hkey)] at he
      exact h e he

/-- A counter that does not expire is there after any further calls. -/
theorem stays_run {k : List Char} {n : ℕ} (hcounted : ∀ d ∈ calls, d.faults.incr = false)
    (h : r.Stays k n) : ∃ m ≥ n + calls.countP fun d => d.key = k,
      (calls.foldl (rateStep limit windowSecs) r).Stays k m := by
  induction calls generalizing r n with
  | nil => exact ⟨n, le_rfl, h⟩
  | cons d ds ih =>
    obtain ⟨hd, hds⟩ := List.forall_mem_cons.mp hcounted
    by_cases hkey : d.key = k
    · subst hkey
      have hstep : (rateStep limit windowSecs r d).Stays d.key (n + 1) := stays_rateStep hd h
      obtain ⟨m, hm, hstays⟩ := ih hds hstep
      refine ⟨m, ?_, hstays⟩
      rw [List.countP_cons_of_pos (by simp)]
      omega
    · obtain ⟨e, hentry, he⟩ := h
      have hstep : (rateStep limit windowSecs r d).Stays k n :=
        ⟨e, (entry_rateStep_of_ne hd (Ne.symm hkey)).trans hentry, he⟩
      obtain ⟨m, hm, hstays⟩ := ih hds hstep
      refine ⟨m, ?_, hstays⟩
      rw [List.countP_cons_of_neg (by simpa using hkey)]
      exact hm

/-- **The law holds** if no call that starts a window loses its `EXPIRE`. -/
theorem keeps_of_arms (hlimit : 1 ≤ limit) (hwindow : windowSecs < 2 ^ 63)
    (h : Chronicle history)
    (hok : System.Accepted Arms (rateStep limit windowSecs) .empty history) :
    Keeps limit windowSecs history where
  atMost := by
    rintro before c during after rfl hstarts hcalls
    refine allowed_window_le hlimit hwindow (fun d hd => h.counted d ?_) hstarts hcalls
    exact List.mem_append_left _ (List.mem_append_right _ hd)
  waits := fun _ _ _ _ => verdict_ne_zero
  again := by
    rintro before after rfl c hincr hdies - hsilent
    refine (verdict_eq_ok_iff hincr).mpr ⟨hdies, ?_⟩
    have hgone : (rateRun limit windowSecs before).GoneBy c.key c.now := by
      refine goneBy_run hwindow (fun d hd => h.counted d (List.mem_append_left _ hd)) ?_ ?_
        Tally.goneBy_empty
      · exact (System.accepted_append.mp hok).1
      · exact fun d hd hkey => hsilent d hd (RateCall.key_eq_iff.mp hkey)
    rw [hgone.count le_rfl]
    omega

/-- A call that loses its `EXPIRE` leaves a counter that stays. -/
theorem stays_of_not_arms (hincr : c.faults.incr = false) (h : ¬ Arms r c) :
    (rateStep limit windowSecs r c).Stays c.key 1 := by
  rw [Arms, Classical.not_imp] at h
  rw [rateStep_of_not hincr fun hset => h.2 hset.2]
  exact Tally.incr_stays h.1

/-- **Whoever has a counter that stays can be locked out**: after so many more calls of its own,
at whatever time it calls next. -/
theorem denied_of_stays {n : ℕ} (hincr : c.faults.incr = false)
    (h : (rateRun limit windowSecs history).Stays c.key n) (hn : limit ≤ n) :
    verdict limit windowSecs (rateRun limit windowSecs history) c ≠ some (.ok ()) := by
  intro hok
  have hle := ((verdict_eq_ok_iff hincr).mp hok).2
  rw [(h.lasts (c.now + 1)).count (Nat.lt_succ_self c.now)] at hle
  omega

theorem exists_now_le (history : List RateCall) : ∃ t, ∀ d ∈ history, d.now ≤ t := by
  induction history with
  | nil => exact ⟨0, fun d hd => absurd hd List.not_mem_nil⟩
  | cons c cs ih =>
    obtain ⟨t, ht⟩ := ih
    refine ⟨max c.now t, List.forall_mem_cons.mpr ⟨Nat.le_max_left _ _, fun d hd => ?_⟩⟩
    exact (ht d hd).trans (Nat.le_max_right _ _)

/-- **A lost `EXPIRE` comes to light**: there are calls, none of them with a fault, after which
the user is denied for as long as it may wait. -/
theorem exists_locked_out (windowSecs : ℕ) (h : Chronicle history)
    (hlost : ¬ System.Accepted Arms (rateStep limit windowSecs) .empty history) :
    ∃ more, Chronicle (history ++ more) ∧ (∀ c ∈ more, c.faults = {}) ∧
      ¬ Keeps limit windowSecs (history ++ more) := by
  obtain ⟨before, c, after, rfl, hnot⟩ := System.exists_of_not_accepted hlost
  obtain ⟨t, ht⟩ := exists_now_le (before ++ c :: after)
  set again : RateCall := ⟨c.userId, c.channelId, t, {}⟩
  have hcounted : ∀ d ∈ after ++ List.replicate limit.toNat again, d.faults.incr = false := by
    refine List.forall_mem_append.mpr ⟨fun d hd => h.counted d ?_, fun d hd => ?_⟩
    · exact List.mem_append_right _ (List.mem_cons_of_mem c hd)
    · rw [List.eq_of_mem_replicate hd]
  refine ⟨List.replicate limit.toNat again, ⟨?_, ?_⟩, fun d hd => ?_, fun hkeeps => ?_⟩
  · refine List.pairwise_append.mpr ⟨h.sorted, List.pairwise_replicate.mpr (.inr le_rfl), ?_⟩
    intro d hd e he
    rw [List.eq_of_mem_replicate he]
    exact ht d hd
  · refine List.forall_mem_append.mpr ⟨h.counted, fun d hd => ?_⟩
    exact hcounted d (List.mem_append_right _ hd)
  · rw [List.eq_of_mem_replicate hd]
  · -- the next call comes a window later
    set next : RateCall := ⟨c.userId, c.channelId, t + 1000 * windowSecs, {}⟩
    have hlost : (rateStep limit windowSecs (rateRun limit windowSecs before) c).Stays c.key 1 :=
      stays_of_not_arms (h.counted c (List.mem_append_right _ List.mem_cons_self)) hnot
    obtain ⟨n, hn, hstays⟩ := stays_run hcounted hlost
    have hlate : ∀ d ∈ before ++ c :: after ++ List.replicate limit.toNat again, d.now ≤ t := by
      refine List.forall_mem_append.mpr ⟨ht, fun d hd => ?_⟩
      rw [List.eq_of_mem_replicate hd]
    have hagain := hkeeps.again _ [] (List.append_nil _).symm next rfl rfl
      (fun d hd => (hlate d hd).trans (Nat.le_add_right _ _))
      fun d hd _ => Nat.add_le_add_right (hlate d hd) _
    refine denied_of_stays (c := next) rfl (n := n) ?_ ?_ hagain
    · rw [rateRun, List.append_assoc, List.foldl_append]
      exact hstays
    · rw [List.countP_append, List.countP_replicate, if_pos (by simp [again, RateCall.key])] at hn
      omega

/-- **The law of the rate limit holds of a history, however it goes on without faults, if and only
if no call of it that starts a window loses its `EXPIRE`.** -/
theorem keeps_iff_arms (hlimit : 1 ≤ limit) (hwindow : windowSecs < 2 ^ 63)
    (h : Chronicle history) :
    (∀ more, Chronicle (history ++ more) → (∀ c ∈ more, c.faults = {}) →
      Keeps limit windowSecs (history ++ more)) ↔
    System.Accepted Arms (rateStep limit windowSecs) .empty history := by
  refine ⟨fun hkeeps => ?_, fun hok more hmore hfaults => ?_⟩
  · by_contra hlost
    obtain ⟨more, hmore, hfaults, hnot⟩ := exists_locked_out windowSecs h hlost
    exact hnot (hkeeps more hmore hfaults)
  · refine keeps_of_arms hlimit hwindow hmore (System.accepted_append.mpr ⟨hok, ?_⟩)
    refine System.accepted_of_forall fun c hc r _ => ?_
    rw [hfaults c hc]
    exact ⟨rfl, rfl⟩

end Runs

/-! ### A burst of messages -/

/-- A message of a user. -/
def burstCall (now : ℕ) (f : Faults) : RateCall := ⟨"41".toList, i64 7, now, f⟩

/-- A user sends twelve messages in a row, and one more when it has waited. -/
def burst (f : Faults) : List RateCall :=
  burstCall 0 f :: (List.replicate 11 (burstCall 100 {}) ++ [burstCall 10100 {}])

theorem chronicle_burst (expire : Bool) : Chronicle (burst { expire := expire }) := by
  revert expire
  have hsorted : ∀ expire, (burst { expire := expire }).Pairwise fun c d => c.now ≤ d.now := by
    decide
  have hcounted : ∀ expire, ∀ c ∈ burst { expire := expire }, c.faults.incr = false := by
    decide
  exact fun expire => ⟨hsorted expire, hcounted expire⟩

theorem arms_burst : System.Accepted Arms (rateStep 10 10) .empty (burst {}) := by decide +kernel

/-- Ten of the messages are allowed, and then the user is allowed again. -/
theorem keeps_burst : Keeps 10 10 (burst {}) := by
  have hkeeps := (keeps_iff_arms (by decide) (by omega) (chronicle_burst false)).mpr arms_burst []
    (by rw [List.append_nil]; exact chronicle_burst false) fun c hc => absurd hc List.not_mem_nil
  rwa [List.append_nil] at hkeeps

/-- **When the first `EXPIRE` is lost**, the user is denied after ten messages, however long it
waits. -/
theorem burst_locks_out : ¬ ∀ history, Chronicle history → Keeps 10 10 history := by
  intro h
  have hkeeps := h (burst { expire := true }) (chronicle_burst true)
  have hlate : ∀ c ∈ burst { expire := true }, c.now + 1000 * 10 ≤ 10 ^ 9 := by decide
  have hagain := hkeeps.again (burst { expire := true }) [] (List.append_nil _).symm
    (burstCall (10 ^ 9) {}) rfl rfl (fun c hc => (Nat.le_add_right _ _).trans (hlate c hc))
    fun c hc _ => hlate c hc
  have hdenied : verdict 10 10 (rateRun 10 10 (burst { expire := true }))
      (burstCall (10 ^ 9) {}) = some (.error 10) := by decide +kernel
  rw [hdenied] at hagain
  cases hagain

end Chat

end MateHub
