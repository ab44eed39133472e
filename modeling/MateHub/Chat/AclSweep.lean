import MateHub.Chat.AclScope
import MateHub.Lib.Cursor

/-!
# The sweep of an invalidation

The consumer looks for the keys of an invalidation with `SCAN`, batch by batch, and deletes
what it has found. Others write to the cache between the commands, so there is a cache for
each of them. Of `SCAN` it is only known what Redis promises of a whole iteration.

A sweep removes exactly the keys of the scope. That is half about the loop, which makes an
iteration (`MateHub.Cursor`), and half about the patterns: an id has no colon in its text, so
a star takes a field and never a part of one (`MateHub.Chat.InvalidatePayload.fits_iff`).
-/

namespace MateHub

namespace Chat

/-! ### What a pattern fits -/

namespace InvalidatePayload

/-- The keys that an invalidation is to remove. -/
def Scope : InvalidatePayload → Key → Prop
  | channel hubId channelId, k => k.hubId = hubId ∧ k.channelId = channelId
  | user hubId userId, k => k.hubId = hubId ∧ k.userId = userId

instance : ∀ (p : InvalidatePayload) (k : Key), Decidable (p.Scope k)
  | channel hubId channelId, k =>
    inferInstanceAs (Decidable (k.hubId = hubId ∧ k.channelId = channelId))
  | user hubId userId, k => inferInstanceAs (Decidable (k.hubId = hubId ∧ k.userId = userId))

end InvalidatePayload

/-- The fields of a text that begins with a hub. -/
theorem splitOn_hub (hubId : I64) (rest : List Char) :
    ("acl:".toList ++ hubId.display ++ ':' :: rest).splitOn ':' =
      "acl".toList :: hubId.display :: rest.splitOn ':' := by
  have hacl : ':' ∉ "acl".toList := by decide
  have htext : "acl:".toList ++ hubId.display ++ ':' :: rest =
      "acl".toList ++ ':' :: (hubId.display ++ ':' :: rest) := by
    rw [show "acl:".toList = "acl".toList ++ [':'] from rfl]
    simp only [List.append_assoc, List.cons_append, List.nil_append]
  rw [htext, List.splitOn_append_cons_self_of_not_mem hacl,
    List.splitOn_append_cons_self_of_not_mem (colon_not_mem_display _)]

theorem star_not_mem_hub (hubId : I64) : '*' ∉ "acl:".toList ++ hubId.display ++ [':'] := by
  have hacl : '*' ∉ "acl:".toList := by decide
  simp only [List.mem_append, List.mem_cons, List.not_mem_nil, star_not_mem_display, hacl]
  decide

theorem star_not_mem_id (id : I64) : '*' ∉ id.display ++ [':'] := by
  simp only [List.mem_append, List.mem_cons, List.not_mem_nil, star_not_mem_display]
  decide

/-- A text that fits the pattern of a channel begins with the channel. -/
theorem exists_of_fits_channel {hubId channelId : I64} {text : List Char}
    (h : (InvalidatePayload.channel hubId channelId).fits text = true) :
    ∃ rest, text = "acl:".toList ++ hubId.display ++ ':' :: (channelId.display ++ ':' :: rest) := by
  rw [InvalidatePayload.fits, InvalidatePayload.pattern] at h
  have hstart := star_not_mem_hub hubId
  have hid := star_not_mem_id channelId
  generalize "acl:".toList ++ hubId.display = start at h hstart ⊢
  have hpattern : start ++ ':' :: (channelId.display ++ [':', '*']) =
      (start ++ [':']) ++ ((channelId.display ++ [':']) ++ ['*']) := by
    simp only [List.append_assoc, List.cons_append, List.nil_append]
  rw [hpattern, Glob.fits_append_iff hstart] at h
  obtain ⟨rest, rfl, hrest⟩ := h
  obtain ⟨rest, rfl, -⟩ := (Glob.fits_append_iff hid _ _).mp hrest
  exact ⟨rest, by simp only [List.append_assoc, List.cons_append, List.nil_append]⟩

/-- A text that fits the pattern of a user has the user behind what the first star takes. -/
theorem exists_of_fits_user {hubId userId : I64} {text : List Char}
    (h : (InvalidatePayload.user hubId userId).fits text = true) :
    ∃ middle rest, text = "acl:".toList ++ hubId.display ++
      ':' :: (middle ++ ':' :: (userId.display ++ ':' :: rest)) := by
  rw [InvalidatePayload.fits, InvalidatePayload.pattern] at h
  have hstart := star_not_mem_hub hubId
  have hid : '*' ∉ ':' :: (userId.display ++ [':']) := by
    rw [List.mem_cons, not_or]
    exact ⟨by decide, star_not_mem_id userId⟩
  generalize "acl:".toList ++ hubId.display = start at h hstart ⊢
  have hpattern : start ++ ':' :: '*' :: ':' :: (userId.display ++ [':', '*']) =
      (start ++ [':']) ++ '*' :: (':' :: (userId.display ++ [':']) ++ ['*']) := by
    simp only [List.append_assoc, List.cons_append, List.nil_append]
  rw [hpattern, Glob.fits_append_iff hstart] at h
  obtain ⟨_, rfl, hstar⟩ := h
  obtain ⟨middle, _, rfl, huser⟩ := (Glob.fits_star_iff _ _).mp hstar
  obtain ⟨rest, rfl, -⟩ := (Glob.fits_append_iff hid _ _).mp huser
  exact ⟨middle, rest, by simp only [List.append_assoc, List.cons_append, List.nil_append]⟩

namespace InvalidatePayload

/-- **The pattern of an invalidation fits the keys of its scope and no others.** A key has five
fields, and the two stars of a pattern take one or more of them each. -/
theorem fits_iff (p : InvalidatePayload) (k : Key) : p.fits k.text = true ↔ p.Scope k := by
  refine ⟨fun h => ?_, fun h => ?_⟩
  · have hfields := splitOn_text k
    cases p with
    | channel hubId channelId =>
      obtain ⟨rest, htext⟩ := exists_of_fits_channel h
      rw [htext, splitOn_hub,
        List.splitOn_append_cons_self_of_not_mem (colon_not_mem_display _)] at hfields
      simp only [List.cons.injEq, true_and] at hfields
      exact ⟨(display_injective hfields.1).symm, (display_injective hfields.2.1).symm⟩
    | user hubId userId =>
      obtain ⟨middle, rest, htext⟩ := exists_of_fits_user h
      rw [htext, splitOn_hub, List.splitOn_append_cons_self,
        List.splitOn_append_cons_self_of_not_mem (colon_not_mem_display _)] at hfields
      simp only [List.cons.injEq, true_and] at hfields
      obtain ⟨hhub, hfields⟩ := hfields
      have hmiddle := List.splitOn_ne_nil ':' middle
      have hrest := List.splitOn_ne_nil ':' rest
      rcases hfirst : middle.splitOn ':' with _ | ⟨x, _ | ⟨y, xs⟩⟩
      · exact absurd hfirst hmiddle
      · rw [hfirst] at hfields
        simp only [List.cons_append, List.nil_append, List.cons.injEq] at hfields
        exact ⟨(display_injective hhub).symm, (display_injective hfields.2.1).symm⟩
      · -- the star would take two fields, and there would be six
        have hlen := congrArg List.length hfields
        have hpos := List.length_pos_iff.mpr hrest
        rw [hfirst] at hlen
        simp only [List.length_append, List.length_cons, List.length_nil] at hlen
        omega
  · cases p with
    | channel hubId channelId =>
      obtain ⟨rfl, rfl⟩ := h
      exact fits_channel k
    | user hubId userId =>
      obtain ⟨rfl, rfl⟩ := h
      exact fits_user k

end InvalidatePayload

/-! ### The sweep -/

/-- Redis as a sweep sees it. -/
structure Redis where
  /-- What is cached when the `t`-th command comes. -/
  cache : ℕ → Dict (List Char) Bool
  /-- The reply to `SCAN` with a pattern, for the `t`-th command and a cursor, if it works. -/
  scan : List Char → ℕ → ℕ → Option (Cursor.Reply (List Char))
  /-- Whether `DEL` works. -/
  del : ℕ → Bool

namespace Redis

/-- `collect_matching`, from the `t`-th command on. -/
def collectMatching (r : Redis) (pattern : List Char) (fuel t : ℕ) :
    Cursor.Outcome (List Char) :=
  Cursor.collect (r.scan pattern) fuel t 0 []

/-- `apply`, from the `t`-th command on: when it is done with the cache, and the cache then. -/
def apply (r : Redis) (payload : InvalidatePayload) (fuel t : ℕ) :
    Option (ℕ × Dict (List Char) Bool) :=
  match r.collectMatching payload.pattern fuel t with
  | .unfinished => none
  | .failed t' => some (t', r.cache t')
  | .done t' keys =>
    if keys.isEmpty then some (t', r.cache t')
    else if !r.del t' then some (t', r.cache t')
    else some (t', (r.cache t').retain fun text _ => !keys.contains text)

/-- What Redis promises of `SCAN`. -/
structure Scans (r : Redis) : Prop where
  /-- Of the keys, only those that fit the pattern are returned. -/
  fits : ∀ {pattern t c reply text}, r.scan pattern t c = some reply → text ∈ reply.batch →
    Glob.fits pattern text = true
  /-- An iteration returns every key that is there throughout. -/
  complete : ∀ {pattern t t' keys text}, Cursor.Iteration (r.scan pattern) t 0 t' keys →
    (∀ i, t ≤ i → i < t' → ((r.cache i).lookup text).isSome = true) →
      Glob.fits pattern text = true → text ∈ keys
  /-- An iteration ends, if no command fails. -/
  ends : ∀ {pattern}, (∀ t c, (r.scan pattern t c).isSome = true) →
    ∀ t, ∃ t' keys, Cursor.Iteration (r.scan pattern) t 0 t' keys

theorem lookup_retain_of_mem (cache : Dict (List Char) Bool) {text : List Char}
    {keys : List (List Char)} (h : text ∈ keys) :
    (cache.retain fun text _ => !keys.contains text).lookup text = none := by
  rw [Dict.lookup_retain, Option.filter_eq_none_iff]
  intro allowed _ hnot
  rw [List.contains_iff_mem.mpr h] at hnot
  cases hnot

theorem lookup_retain_of_not_mem (cache : Dict (List Char) Bool) {text : List Char}
    {keys : List (List Char)} (h : text ∉ keys) :
    (cache.retain fun text _ => !keys.contains text).lookup text = cache.lookup text := by
  rw [Dict.lookup_retain]
  rcases cache.lookup text with _ | allowed
  · rfl
  · refine Option.filter_some_pos ?_
    rw [Bool.eq_false_iff.mpr fun hc => h (List.contains_iff_mem.mp hc)]
    rfl

variable {r : Redis} {payload : InvalidatePayload} {fuel t t' : ℕ} {keys : List (List Char)}

/-- What is found is within the scope. -/
theorem Scans.scope_of_mem (hr : r.Scans)
    (h : Cursor.Iteration (r.scan payload.pattern) t 0 t' keys) {k : Key} (hk : k.text ∈ keys) :
    payload.Scope k := by
  obtain ⟨i, c, reply, -, -, hreply, hmem⟩ := h.exists_reply hk
  exact (payload.fits_iff k).mp (hr.fits hreply hmem)

/-- **Whatever fails**, nothing out of the scope is removed. -/
theorem Scans.lookup_apply (hr : r.Scans) {after : Dict (List Char) Bool}
    (h : r.apply payload fuel t = some (t', after)) {k : Key} (hk : ¬payload.Scope k) :
    after.lookup k.text = (r.cache t').lookup k.text := by
  rcases hout : r.collectMatching payload.pattern fuel t with _ | t₁ | ⟨t₁, keys⟩
  · rw [apply, hout] at h
    cases h
  · rw [apply, hout] at h
    obtain ⟨rfl, rfl⟩ := Prod.mk.inj (Option.some.inj h)
    rfl
  · obtain ⟨found, hkeys, hfound⟩ := Cursor.exists_iteration_of_collect hout
    obtain rfl : keys = found := hkeys
    rw [apply, hout] at h
    dsimp only at h
    split at h
    · obtain ⟨rfl, rfl⟩ := Prod.mk.inj (Option.some.inj h)
      rfl
    · split at h
      · obtain ⟨rfl, rfl⟩ := Prod.mk.inj (Option.some.inj h)
        rfl
      · obtain ⟨rfl, rfl⟩ := Prod.mk.inj (Option.some.inj h)
        exact lookup_retain_of_not_mem _ fun hmem => hk (hr.scope_of_mem hfound hmem)

/-- **A sweep in which nothing fails** removes what it has found. -/
theorem apply_eq (h : Cursor.Iteration (r.scan payload.pattern) t 0 t' keys)
    (hdel : r.del t' = true) (hfuel : t' ≤ t + fuel) :
    ∃ after, r.apply payload fuel t = some (t', after) ∧ ∀ text, after.lookup text =
      if text ∈ keys then none else (r.cache t').lookup text := by
  have hout : r.collectMatching payload.pattern fuel t = .done t' keys := h.collect hfuel []
  rw [apply, hout]
  dsimp only
  rw [hdel]
  split
  · rename_i hempty
    refine ⟨_, rfl, fun text => ?_⟩
    rw [List.isEmpty_iff.mp hempty, if_neg List.not_mem_nil]
  · refine ⟨_, rfl, fun text => ?_⟩
    split
    · rename_i hmem
      exact lookup_retain_of_mem _ hmem
    · rename_i hmem
      exact lookup_retain_of_not_mem _ hmem

/-- **A sweep is exact.** Whatever fails, nothing out of the scope is removed. If nothing
fails, it ends, and every key of the scope that was there while it was looking is removed:
if nobody else writes to the cache meanwhile, the keys of the scope are removed and the others
are as they were. -/
theorem apply_exact (r : Redis) (hr : r.Scans) (payload : InvalidatePayload) (t : ℕ) :
    (∀ fuel t' after, r.apply payload fuel t = some (t', after) →
      ∀ k : Key, ¬payload.Scope k → after.lookup k.text = (r.cache t').lookup k.text) ∧
    ((∀ i c, (r.scan payload.pattern i c).isSome = true) → (∀ i, r.del i = true) →
      ∃ t', ∀ fuel, t' ≤ t + fuel → ∃ after, r.apply payload fuel t = some (t', after) ∧
        (∀ k : Key, payload.Scope k →
          (∀ i, t ≤ i → i < t' → ((r.cache i).lookup k.text).isSome = true) →
            after.lookup k.text = none) ∧
        ((∀ i, t ≤ i → i ≤ t' → r.cache i = r.cache t) → ∀ k : Key, after.lookup k.text =
          if payload.Scope k then none else (r.cache t).lookup k.text)) := by
  refine ⟨fun fuel t' after h k hk => hr.lookup_apply h hk, fun hscan hdel => ?_⟩
  obtain ⟨t', keys, hkeys⟩ := hr.ends hscan t
  refine ⟨t', fun fuel hfuel => ?_⟩
  obtain ⟨after, happly, hafter⟩ := apply_eq hkeys (hdel t') hfuel
  have hremoved (k : Key) (hk : payload.Scope k)
      (hthere : ∀ i, t ≤ i → i < t' → ((r.cache i).lookup k.text).isSome = true) :
      after.lookup k.text = none := by
    rw [hafter, if_pos (hr.complete hkeys hthere ((payload.fits_iff k).mpr hk))]
  refine ⟨after, happly, hremoved, fun hquiet k => ?_⟩
  have hnow : r.cache t' = r.cache t := hquiet t' hkeys.lt.le le_rfl
  split
  · rename_i hk
    rcases hcached : (r.cache t).lookup k.text with _ | allowed
    · rw [hafter, hnow, hcached, ite_self]
    · refine hremoved k hk fun i hi hi' => ?_
      rw [hquiet i hi hi'.le, hcached]
      rfl
  · rename_i hk
    rw [hr.lookup_apply happly hk, hnow]

/-- A cache to which nobody writes, with its keys in two batches. -/
def inTwoBatches (first second : List Key) : Redis where
  cache _ := (first ++ second).foldl (fun cache k => cache.insert k.text true) ∅
  scan pattern _ c := some <|
    if c = 0 then ⟨1, (first.map Key.text).filter (Glob.fits pattern)⟩
    else ⟨0, (second.map Key.text).filter (Glob.fits pattern)⟩
  del _ := true

theorem iteration_inTwoBatches (first second : List Key) (pattern : List Char) (t : ℕ) :
    Cursor.Iteration ((inTwoBatches first second).scan pattern) t 0 (t + 2)
      (((first ++ second).map Key.text).filter (Glob.fits pattern)) := by
  rw [List.map_append, List.filter_append]
  exact .more rfl one_ne_zero (.last rfl)

theorem scans_inTwoBatches (first second : List Key) : (inTwoBatches first second).Scans where
  fits {pattern t c reply text} h hmem := by
    obtain rfl := Option.some.inj h
    split at hmem <;> exact List.of_mem_filter hmem
  complete {pattern t t' keys text} h hthere hfits := by
    have hkeys := h.collect (show t' ≤ t + (t' + 2) by omega) []
    rw [(iteration_inTwoBatches first second pattern t).collect (by omega) []] at hkeys
    obtain ⟨-, rfl⟩ := Cursor.Outcome.done.inj hkeys
    have htext := AList.lookup_isSome.mp (hthere t le_rfl h.lt)
    rcases (Dict.mem_foldl_insert Key.text true (first ++ second) ∅ text).mp htext with h | h
    · cases h
    · obtain ⟨k, hk, rfl⟩ := h
      exact List.mem_filter.mpr ⟨List.mem_map_of_mem hk, hfits⟩
  ends {pattern} _ t := ⟨t + 2, _, iteration_inTwoBatches first second pattern t⟩

/-- What user `userId` may read in channel 2 of a hub. -/
def readOf (hubId userId : I64) : Key := ⟨hubId, i64 2, userId, .read⟩

/-- User 3 of hub 1 is removed, and neither user 3 of hub 12 nor user 23 of hub 1. -/
theorem apply_exact_user :
    ∃ t' fuel after,
      (inTwoBatches [readOf (i64 1) (i64 3), readOf (i64 12) (i64 3)]
        [readOf (i64 1) (i64 23)]).apply (.user (i64 1) (i64 3)) fuel 0 =
          some (t', after) ∧
      after.lookup (readOf (i64 1) (i64 3)).text = none ∧
      (after.lookup (readOf (i64 12) (i64 3)).text).isSome = true ∧
      (after.lookup (readOf (i64 1) (i64 23)).text).isSome = true := by
  obtain ⟨t', h⟩ := (apply_exact _ (scans_inTwoBatches
    [readOf (i64 1) (i64 3), readOf (i64 12) (i64 3)]
    [readOf (i64 1) (i64 23)]) (.user (i64 1) (i64 3)) 0).2
      (fun _ _ => rfl) fun _ => rfl
  obtain ⟨after, happly, -, hafter⟩ := h t' (Nat.le_add_left _ _)
  have hquiet := hafter fun _ _ _ => rfl
  have hcached {k : Key} (hk : k ∈ [readOf (i64 1) (i64 3),
      readOf (i64 12) (i64 3)] ++ [readOf (i64 1) (i64 23)]) :
      (((inTwoBatches [readOf (i64 1) (i64 3), readOf (i64 12) (i64 3)]
        [readOf (i64 1) (i64 23)]).cache 0).lookup k.text).isSome = true :=
    AList.lookup_isSome.mpr ((Dict.mem_foldl_insert Key.text true _ ∅ k.text).mpr
      (.inr ⟨k, hk, rfl⟩))
  refine ⟨t', t', after, happly, ?_, ?_, ?_⟩
  · rw [hquiet, if_pos ⟨rfl, rfl⟩]
  · rw [hquiet, if_neg (by decide)]
    exact hcached (.tail _ (.head _))
  · rw [hquiet, if_neg (by decide)]
    exact hcached (.tail _ (.tail _ (.head _)))

end Redis

end Chat

end MateHub
