import MateHub.Chat.AclScope
import MateHub.Lib.Caches

/-!
# Coherence of the access cache

What a statement changes, it publishes, with the exceptions of `MateHub.Chat.Statement.fits`.
So an entry is stale only while an invalidation of its key is on the way, as long as the
other statements, and the answers that checks write, see to it as well; and once nothing is
on the way, all entries are current (`MateHub.Chat.acl_coherent`). They do not see to it: no
deletion of a channel or a group publishes anything, and a check may write what it has read
before an invalidation that has gone by.
-/

namespace MateHub

namespace Chat

open Hub (Bits Db Call)
open Invalidation (Guarded)

/-! ### What is on the way -/

/-- What a statement publishes, as far as it can be told beforehand. -/
def Statement.scope : Statement → Option InvalidatePayload
  | .upsertChannelPermission hubId cp => some (.channel hubId cp.channelId)
  | .deleteChannelPermission hubId channelId _ => some (.channel hubId channelId)
  | .insertMemberGroup hubId userId _ | .deleteMemberGroup hubId userId _
  | .deleteMemberGroups hubId userId | .deleteHubMember hubId userId => some (.user hubId userId)
  | .insertChannel c => some (.channel c.hubId c.id)
  | .grantDefault hubId channelId => some (.channel hubId channelId)
  | .openDm _ _ _ _ | .whole _ => none

theorem Statement.payload_eq {db db' : Db} {statement : Statement}
    {payload : Option InvalidatePayload} {p : InvalidatePayload}
    (hrun : statement.run db = some (db', payload)) (hscope : statement.scope = some p) :
    payload = some p := by
  cases statement with
  | upsertChannelPermission | insertMemberGroup | insertChannel | grantDefault =>
    obtain ⟨_, -, heq⟩ := Option.map_eq_some_iff.mp hrun
    exact (Prod.mk.inj heq).2.symm.trans hscope
  | deleteChannelPermission | deleteMemberGroup | deleteMemberGroups | deleteHubMember =>
    exact (Prod.mk.inj (Option.some.inj hrun)).2.symm.trans hscope
  | openDm | whole => cases hscope

theorem Statement.run_of_attempt {db : Db} {works : Bool} {statement : Statement}
    {r : Db × Option InvalidatePayload} (h : statement.attempt db works = some r) :
    statement.run db = some r :=
  (Option.ite_none_right_eq_some.mp h).2

/-- All statements of a call publish the same, and so does what is left of it. -/
structure Handler.Good (h : Handler) : Prop where
  pairwise : h.todo.Pairwise fun st st' => st.scope.isSome ∧ st'.scope = st.scope
  pending : ∀ p ∈ h.payload, ∀ st ∈ h.todo, st.scope = some p

theorem Handler.good_statements (db : Db) (call : Call) : Handler.Good ⟨statements db call, none⟩ := by
  refine ⟨?_, fun p hp => nomatch hp⟩
  cases call with
  | kickMember => exact List.pairwise_pair.mpr ⟨rfl, rfl⟩
  | createChannel => exact List.pairwise_pair.mpr ⟨rfl, rfl⟩
  | _ => exact List.pairwise_singleton _ _

/-- The keys that the consumer has found, or is certain to find. -/
def Consumer.keys : Consumer → List (List Char)
  | .idle => []
  | .scanning _ due => due
  | .deleting keys => keys

namespace AclState

/-- An entry is about to be deleted: a call is going to publish an invalidation of it, or
has done so, or the consumer is about to delete it. -/
def OnTheWay (s : AclState) (k : Key) : Prop :=
  (∃ h ∈ s.handlers, ∃ p ∈ h.payload, p.fits k.text = true) ∨
    (∃ p ∈ s.queue, p.fits k.text = true) ∨ k.text ∈ s.consumer.keys

/-- All published invalidations have been processed, and no call is about to publish one. -/
structure Quiet (s : AclState) : Prop where
  handlers : ∀ h ∈ s.handlers, h.payload = none
  queue : s.queue = []
  consumer : s.consumer = .idle

theorem Quiet.not_onTheWay {s : AclState} (h : s.Quiet) (k : Key) : ¬ s.OnTheWay k := by
  rintro (⟨h', hh', p, hp, -⟩ | ⟨p, hp, -⟩ | hk)
  · rw [h.handlers h' hh'] at hp
    cases hp
  · rw [h.queue] at hp
    cases hp
  · rw [h.consumer] at hk
    cases hk

/-- **The invariant**: a stale entry is on the way out. -/
structure Good (s : AclState) : Prop where
  handlers : ∀ h ∈ s.handlers, h.Good
  keys : ∀ t v, s.cache.lookup t = some v → ∃ k : Key, t = k.text
  guarded : Guarded (fun k : Key => k.answer s.db) (fun k => s.cache.lookup k.text) s.OnTheWay

end AclState

/-- What a call was to publish does not matter: the stale entries that it is about are on the
way out in the next state, too. -/
def Handler.Spare (h : Handler) (s s' : AclState) : Prop :=
  ∀ p ∈ h.payload, ∀ k : Key, ∀ v, s.cache.lookup k.text = some v →
    v ≠ k.answer s.db → p.fits k.text = true → s'.OnTheWay k

/-- **An event is careful**: what a call changes without publishing it, or leaves unpublished
as it fails, and what a check writes that is not the current answer, is on the way out. -/
def Careful (s : AclState) : AclEvent → Prop
  | .advance i works => ∀ h, s.handlers[i]? = some h →
    match h.todo with
    | [] => works = true ∨ h.Spare s (s.advance i works h)
    | statement :: _ =>
      match statement.attempt s.db works with
      | none => h.Spare s (s.advance i works h)
      | some (db, _) => statement.Published s.db ∨ ∀ k : Key, s.cache.lookup k.text ≠ none →
          k.answer db ≠ k.answer s.db → (s.advance i works h).OnTheWay k
  | .store i works => works = true → ∀ k allowed, s.checks[i]? = some ⟨k, .answered allowed⟩ →
    allowed = k.answer s.db ∨ s.OnTheWay k
  | _ => True

section Lists

variable {α : Type} {l : List α} {i : ℕ} {a b c : α}

theorem mem_set_of_getElem? (hi : l[i]? = some a) (hb : b ∈ l) (c : α) : b = a ∨ b ∈ l.set i c := by
  obtain ⟨j, hj⟩ := List.mem_iff_getElem?.mp hb
  by_cases hij : i = j
  · rw [← hij, hi] at hj
    exact .inl (Option.some.inj hj).symm
  · exact .inr (List.mem_of_getElem? ((List.getElem?_set_ne hij).trans hj))

theorem mem_set_self (hi : l[i]? = some a) (c : α) : c ∈ l.set i c :=
  List.mem_set (List.getElem?_eq_some_iff.mp hi).1 c

theorem mem_eraseIdx_of_getElem? (hi : l[i]? = some a) (hb : b ∈ l) : b = a ∨ b ∈ l.eraseIdx i := by
  obtain ⟨j, hj⟩ := List.mem_iff_getElem?.mp hb
  by_cases hij : j = i
  · rw [hij, hi] at hj
    exact .inl (Option.some.inj hj).symm
  · exact .inr (List.mem_eraseIdx_iff_getElem?.mpr ⟨j, hij, hj⟩)

end Lists

/-! ### One event -/

namespace AclState

variable {s : AclState} {i : ℕ} {h : Handler}

/-- A call publishes. -/
theorem Good.publish (hs : s.Good) (hi : s.handlers[i]? = some h) : Good { s with
    handlers := s.handlers.eraseIdx i
    queue := s.queue ++ h.payload.toList } where
  handlers h' hh' := hs.handlers h' (List.mem_of_mem_eraseIdx hh')
  keys := hs.keys
  guarded := by
    refine hs.guarded.mono fun k hk => ?_
    rcases hk with ⟨h', hh', p, hp, hfits⟩ | ⟨p, hp, hfits⟩ | hk
    · rcases mem_eraseIdx_of_getElem? hi hh' with rfl | hh'
      · exact .inr (.inl ⟨p, List.mem_append_right _ (Option.mem_toList.mpr hp), hfits⟩)
      · exact .inl ⟨h', hh', p, hp, hfits⟩
    · exact .inr (.inl ⟨p, List.mem_append_left _ hp, hfits⟩)
    · exact .inr (.inr hk)

/-- A call ends, and what it was to publish is lost. -/
theorem Good.lose (hs : s.Good) (hi : s.handlers[i]? = some h)
    (hspare : h.Spare s { s with handlers := s.handlers.eraseIdx i }) :
    Good { s with handlers := s.handlers.eraseIdx i } where
  handlers h' hh' := hs.handlers h' (List.mem_of_mem_eraseIdx hh')
  keys := hs.keys
  guarded k v hk hv := by
    rcases hs.guarded k v hk hv with ⟨h', hh', p, hp, hfits⟩ | hrest
    · rcases mem_eraseIdx_of_getElem? hi hh' with rfl | hh'
      · exact hspare p hp k v hk hv hfits
      · exact .inl ⟨h', hh', p, hp, hfits⟩
    · exact .inr hrest

/-- A call goes on. -/
theorem Good.advance (hs : s.Good) (hi : s.handlers[i]? = some h) {works : Bool}
    (hcareful : Careful s (.advance i works)) : (s.advance i works h).Good := by
  have hgood := hs.handlers h (List.mem_of_getElem? hi)
  have hcare := hcareful h hi
  rcases htodo : h.todo with _ | ⟨statement, todo⟩
  · simp only [htodo] at hcare
    rw [AclState.advance, htodo] at hcare ⊢
    cases works with
    | true => exact hs.publish hi
    | false => exact hs.lose hi (hcare.resolve_left Bool.false_ne_true)
  · simp only [htodo] at hcare
    have hpairwise := hgood.pairwise
    rw [htodo, List.pairwise_cons] at hpairwise
    rcases hattempt : statement.attempt s.db works with _ | ⟨db, payload⟩
    · rw [hattempt] at hcare
      rw [AclState.advance, htodo] at hcare ⊢
      simp only [hattempt] at hcare ⊢
      exact hs.lose hi hcare
    · have hrun := Statement.run_of_attempt hattempt
      rw [hattempt] at hcare
      rw [AclState.advance, htodo] at hcare ⊢
      simp only [hattempt] at hcare ⊢
      refine ⟨fun h' hh' => ?_, hs.keys, hs.guarded.change (fun k hk => ?_) fun k hk hne => ?_⟩
      · rcases List.mem_or_eq_of_mem_set hh' with hh' | rfl
        · exact hs.handlers h' hh'
        · refine ⟨hpairwise.2, fun p hp st hst => ?_⟩
          obtain ⟨hsome, hsame⟩ := hpairwise.1 st hst
          obtain ⟨q, hq⟩ := Option.isSome_iff_exists.mp hsome
          have hpq := Statement.payload_eq hrun hq
          rw [hsame, hq, ← hpq]
          exact hp
      · -- what it was to publish, it still is
        rcases hk with ⟨h', hh', p, hp, hfits⟩ | hrest
        · rcases mem_set_of_getElem? hi hh' ⟨todo, payload⟩ with rfl | hh'
          · have hscope := hgood.pending p hp statement (by rw [htodo]; exact List.mem_cons_self)
            exact .inl ⟨_, mem_set_self hi _, p, Statement.payload_eq hrun hscope, hfits⟩
          · exact .inl ⟨h', hh', p, hp, hfits⟩
        · exact .inr hrest
      · rcases hcare with hpub | hcare
        · obtain ⟨p, hp, hfits⟩ := Statement.fits hrun hpub hne
          exact .inl ⟨_, mem_set_self hi _, p, hp, hfits⟩
        · exact hcare k hk hne

theorem Good.store (hs : s.Good) {k : Key} {allowed : Bool} (works : Bool)
    (hcareful : works = true → allowed = k.answer s.db ∨ s.OnTheWay k) : Good { s with
      checks := s.checks.eraseIdx i
      cache := if works then s.cache.insert k.text allowed else s.cache } := by
  cases works with
  | false => exact ⟨hs.handlers, hs.keys, hs.guarded⟩
  | true =>
    refine ⟨hs.handlers, fun t v ht => ?_, hs.guarded.store (fun k' v hk' => ?_) (hcareful rfl)⟩
    · rw [if_pos rfl, Dict.lookup_insert_eq] at ht
      split_ifs at ht with htext
      · exact ⟨k, htext⟩
      · exact hs.keys t v ht
    · rw [if_pos rfl, Dict.lookup_insert_eq] at hk'
      split_ifs at hk' with htext
      · exact .inl ⟨Key.text_injective htext, (Option.some.inj hk').symm⟩
      · exact .inr hk'

theorem Good.expire (hs : s.Good) (text : List Char) : (s.next (.expire text)).Good := by
  have hlookup : ∀ t v, (s.cache.erase text).lookup t = some v →
      t ≠ text ∧ s.cache.lookup t = some v := by
    intro t v ht
    rw [Dict.lookup_erase_eq] at ht
    split_ifs at ht with htext
    exact ⟨htext, ht⟩
  refine ⟨hs.handlers, fun t v ht => hs.keys t v (hlookup t v ht).2,
    hs.guarded.drop (fun k v hk => (hlookup _ v hk).2) fun k v hk hway => ?_⟩
  rcases hway with hhandlers | hqueue | hkeys
  · exact .inl hhandlers
  · exact .inr (.inl hqueue)
  · refine .inr (.inr ?_)
    rw [AclState.next]
    rcases hc : s.consumer with _ | ⟨payload, due⟩ | keys
    · rw [hc] at hkeys
      cases hkeys
    · rw [hc] at hkeys
      exact List.mem_filter.mpr ⟨hkeys, decide_eq_true (hlookup _ v hk).1⟩
    · rw [hc] at hkeys
      exact hkeys

/-- The consumer begins to look for keys: all that are there are certain to be found. -/
theorem Good.scan (hs : s.Good) : (s.next .scan).Good := by
  rcases hc : s.consumer with _ | ⟨payload, due⟩ | keys
  · rcases hq : s.queue with _ | ⟨payload, queue⟩
    · simpa only [AclState.next, hc, hq] using hs
    · simp only [AclState.next, hc, hq]
      refine ⟨hs.handlers, hs.keys, hs.guarded.drop (fun _ _ hk => hk) fun k v hk hway => ?_⟩
      rcases hway with hhandlers | ⟨p, hp, hfits⟩ | hkeys
      · exact .inl hhandlers
      · rw [hq] at hp
        rcases List.mem_cons.mp hp with rfl | hp
        · refine .inr (.inr (List.mem_filter.mpr ⟨?_, hfits⟩))
          exact List.mem_map.mpr ⟨(k.text, v), Dict.mem_pairs.mpr hk, rfl⟩
        · exact .inr (.inl ⟨p, hp, hfits⟩)
      · rw [hc] at hkeys
        cases hkeys
  · simpa only [AclState.next, hc] using hs
  · simpa only [AclState.next, hc] using hs

theorem Good.collect (hs : s.Good) (keys : List (List Char)) : (s.next (.collect keys)).Good := by
  rw [AclState.next]
  split
  · rename_i payload due hc
    split_ifs with hfound
    · refine ⟨hs.handlers, hs.keys, hs.guarded.mono fun k hway => ?_⟩
      rcases hway with hhandlers | hqueue | hkeys
      · exact .inl hhandlers
      · exact .inr (.inl hqueue)
      · rw [hc] at hkeys
        exact .inr (.inr (hfound.1 hkeys))
    · exact hs
  · exact hs

theorem Good.delete (hs : s.Good) : (s.next .delete).Good := by
  rw [AclState.next]
  split
  · rename_i keys hc
    have hlookup : ∀ t v, (s.cache.retain fun t _ => decide (t ∉ keys)).lookup t = some v →
        t ∉ keys ∧ s.cache.lookup t = some v := by
      intro t v ht
      rw [Dict.lookup_retain, Option.filter_eq_some_iff] at ht
      exact ⟨of_decide_eq_true ht.2, ht.1⟩
    refine ⟨hs.handlers, fun t v ht => hs.keys t v (hlookup t v ht).2,
      hs.guarded.drop (fun k v hk => (hlookup _ v hk).2) fun k v hk hway => ?_⟩
    rcases hway with hhandlers | hqueue | hkeys
    · exact .inl hhandlers
    · exact .inr (.inl hqueue)
    · rw [hc] at hkeys
      exact absurd hkeys (hlookup _ v hk).1
  · exact hs

/-- **One event** that is careful keeps stale entries on the way out. -/
theorem Good.next (hs : s.Good) {e : AclEvent} (hcareful : Careful s e) : (s.next e).Good := by
  cases e with
  | request call =>
    refine ⟨fun h hh => ?_, hs.keys, hs.guarded.mono fun k hway => ?_⟩
    · rcases List.mem_append.mp hh with hh | hh
      · exact hs.handlers h hh
      · rw [List.mem_singleton.mp hh]
        exact Handler.good_statements s.db call
    · refine hway.imp_left ?_
      rintro ⟨h, hh, hp⟩
      exact ⟨h, List.mem_append_left _ hh, hp⟩
  | advance i works =>
    rcases hi : s.handlers[i]? with _ | h
    · simpa only [AclState.next, hi] using hs
    · simp only [AclState.next, hi]
      exact hs.advance hi hcareful
  | ask k works =>
    rw [AclState.next]
    split_ifs
    · exact hs
    · exact ⟨hs.handlers, hs.keys, hs.guarded⟩
  | query i works => exact ⟨hs.handlers, hs.keys, hs.guarded⟩
  | store i works =>
    rw [AclState.next]
    split
    · rename_i k allowed hi
      exact hs.store works fun hworks => hcareful hworks k allowed hi
    · exact hs
  | expire text => exact hs.expire text
  | scan => exact hs.scan
  | collect keys => exact hs.collect keys
  | delete => exact hs.delete

end AclState

/-- **The cache is coherent.** Calls, checks and the consumer interleave as they like. As long
as every event is careful, all entries are current once the invalidations have been
processed. -/
theorem acl_coherent {s : AclState} (hs : aclCache.Reach Careful s) (hquiet : s.Quiet)
    {t : List Char} {allowed : Bool} (ht : s.cache.lookup t = some allowed) :
    ∃ k : Key, t = k.text ∧
      allowed = checkUncached s.db k.hubId k.channelId k.userId k.action := by
  have hgood : s.Good := by
    refine hs.invariant ?_ ?_
    · rintro _ ⟨db, rfl⟩
      exact ⟨fun h hh => absurd hh List.not_mem_nil, fun t v ht => absurd ht (by simp),
        .empty fun _ => rfl⟩
    · rintro s e _ hgood hcareful rfl
      exact hgood.next hcareful
  obtain ⟨k, rfl⟩ := hgood.keys t allowed ht
  exact ⟨k, rfl, hgood.guarded.settled hquiet.not_onTheWay ht⟩

/-! ### Runs -/

/-- A way to be careful that can be computed: the statements are published, they and their
publications do not fail, and the answers of the checks are current. -/
def AclState.isPlain (s : AclState) : AclEvent → Bool
  | .advance i works =>
    match s.handlers[i]? with
    | some ⟨statement :: _, _⟩ =>
      (statement.attempt s.db works).isSome && decide (statement.Published s.db)
    | _ => works
  | .store i _ =>
    match s.checks[i]? with
    | some ⟨k, .answered allowed⟩ => allowed == k.answer s.db
    | _ => true
  | _ => true

theorem careful_of_isPlain {s : AclState} {e : AclEvent} (h : s.isPlain e = true) :
    Careful s e := by
  cases e with
  | advance i works =>
    rintro ⟨_ | ⟨statement, todo⟩, payload⟩ hi
    · rw [AclState.isPlain, hi] at h
      exact .inl h
    · rw [AclState.isPlain, hi] at h
      obtain ⟨hsome, hpub⟩ := Bool.and_eq_true_iff.mp h
      obtain ⟨r, hattempt⟩ := Option.isSome_iff_exists.mp hsome
      simp only [hattempt]
      exact .inl (of_decide_eq_true hpub)
  | store i works =>
    intro _ k allowed hi
    rw [AclState.isPlain, hi] at h
    exact .inl (beq_iff_eq.mp h)
  | _ => trivial

section Seed

open Hub.Seed

/-- Nothing is cached and nothing goes on. -/
def start : AclState := ⟨devSeed, ∅, [], [], [], .idle⟩

/-- Bob's reading of #general. -/
def bobReads : Key := ⟨hub, general, bob, .read⟩

/-- A check of whether Bob may read, up to its answer. -/
def bobAsks : List AclEvent :=
  [.ask bobReads true, .query 0 true, .query 0 true, .query 0 true]

/-- A call, up to the deletion of the keys that it affects. -/
def carryOut (call : Call) (keys : List (List Char)) : List AclEvent :=
  [.request call, .advance 0 true, .advance 0 true, .scan, .collect keys, .delete]

/-- Nobody but the admin may read any longer. -/
def deny : Call := .setChannelPermission hub alice general everyone ⟨0, Bits.read⟩

/-- Bob could read, and then cannot: the answer that is cached is the new one. -/
def askDenyAsk : List AclEvent :=
  bobAsks ++ [.store 0 true] ++ carryOut deny [bobReads.text] ++ bobAsks ++ [.store 0 true]

theorem acl_coherent_deny : ∃ s : AclState, aclCache.Reach Careful s ∧
    s.cache.lookup bobReads.text = some false ∧ ∃ k : Key, bobReads.text = k.text ∧
      false = checkUncached s.db k.hubId k.channelId k.userId k.action := by
  have hstart : aclCache.Reach (fun s e => s.isPlain e = true) start := .start ⟨devSeed, rfl⟩
  have hreach := System.Reach.foldl (fun s e => (rfl : s.next e = s.next e)) hstart
    (show System.Accepted _ AclState.next start askDenyAsk by decide)
  have hcareful := hreach.mono fun _ _ => careful_of_isPlain
  exact ⟨_, hcareful, by decide, acl_coherent hcareful ⟨by decide, by decide, by decide⟩ (by decide)⟩

/-- Bob may read a channel, and it is deleted, for which nothing is published. -/
def askDelete : List AclEvent :=
  bobAsks ++ [.store 0 true] ++ carryOut (.deleteChannel hub alice general) []

/-- **A deleted channel stays readable.** -/
theorem deleted_channel_cached : ∃ s, aclCache.Reachable s ∧ s.Quiet ∧ s.checks = [] ∧
    s.cache.lookup bobReads.text = some true ∧ bobReads.answer s.db = false := by
  have hstart : aclCache.init start := ⟨devSeed, rfl⟩
  have hreach := System.reachable_foldl hstart (fun s e => (rfl : s.next e = s.next e)) askDelete
  exact ⟨_, hreach, ⟨by decide, by decide, by decide⟩, by decide, by decide, by decide⟩

/-- A check has its answer, and a call takes the permission back. Its invalidation finds
nothing to delete, and then the answer is written. -/
def askDenyStore : List AclEvent := bobAsks ++ carryOut deny [] ++ [.store 0 true]

/-- **A late answer stays**, though all that was changed has been published. -/
theorem late_answer_cached : ∃ s, aclCache.Reachable s ∧ s.Quiet ∧ s.checks = [] ∧
    s.cache.lookup bobReads.text = some true ∧ bobReads.answer s.db = false := by
  have hstart : aclCache.init start := ⟨devSeed, rfl⟩
  have hreach := System.reachable_foldl hstart (fun s e => (rfl : s.next e = s.next e)) askDenyStore
  exact ⟨_, hreach, ⟨by decide, by decide, by decide⟩, by decide, by decide, by decide⟩

end Seed

end Chat

end MateHub
