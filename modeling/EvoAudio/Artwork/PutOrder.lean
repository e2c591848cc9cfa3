import EvoAudio.Artwork.NegativeCache

/-!
# The queue of the negative cache

A put moves its key to the end of the queue only where the key is in the map. A
`forget` takes a key out of the map and leaves its copy in the queue, and a put
of such a key before the next eviction pushes a second copy. `NoStaleCopy` says
that a call is no such put. In a run of these calls the queue holds a key once,
in the order of the latest puts, and a put into a full cache takes the least
recently put entry.
-/

namespace EvoAudio.Artwork.Memo

/-- The queue holds no copy of the key that a `forget` left. -/
def NoStaleCopy (cache : NegativeCache) (op : Op) : Prop :=
  ∀ key, op.puts = some key → key ∈ cache.order → key ∈ cache.map

/-- The entries that a put of `key` keeps, when `rank` tells how recently a key
was put. -/
inductive Kept (rank : Key → Nat) (cache : NegativeCache) (key : Key) (evictedAt : Nat) :
    Entries → Prop where
  | replaced (h : key ∈ cache.map) : Kept rank cache key evictedAt cache.map
  | spare (hkey : key ∉ cache.map) (h : cache.map.len < cache.capacity) :
      Kept rank cache key evictedAt cache.map
  | unexpired (hkey : key ∉ cache.map) (hfull : cache.map.len = cache.capacity)
      (h : (cache.fresh evictedAt).len < cache.capacity) :
      Kept rank cache key evictedAt (cache.fresh evictedAt)
  | notOldest (hkey : key ∉ cache.map) (hfull : cache.map.len = cache.capacity)
      (h : (cache.fresh evictedAt).len = cache.capacity) (oldest : Key)
      (hmem : oldest ∈ cache.fresh evictedAt)
      (hrank : ∀ other ∈ cache.fresh evictedAt, other ≠ oldest → rank oldest < rank other) :
      Kept rank cache key evictedAt ((cache.fresh evictedAt).erase oldest)

-- ---------------------------------------------------------------------------
-- What an eviction takes
-- ---------------------------------------------------------------------------

theorem Entries.len_erase {map : Entries} (h : key ∈ map) :
    Entries.len (map.erase key) = map.len - 1 := by
  rw [Entries.len, Table.length_erase, if_pos h]
  rfl

theorem NegativeCache.len_fresh_le (cache : NegativeCache) (now : Nat) :
    (cache.fresh now).len ≤ cache.map.len := by
  rw [Entries.len, NegativeCache.fresh]
  exact List.length_filter_le ..

theorem makeRoom_of_lt {map : Entries} (h : map.len < capacity) (order : List Key) :
    makeRoom capacity map order = (map, order) := by
  cases order with
  | nil => rfl
  | cons key order => exact if_neg (Nat.not_le.mpr h)

/-- A map that is just full loses the key at the front of the queue. -/
theorem makeRoom_of_full {map : Entries} (hpos : 0 < capacity) (h : map.len = capacity)
    (hkey : key ∈ map) (order : List Key) :
    makeRoom capacity map (key :: order) = (map.erase key, order) := by
  rw [makeRoom, if_pos h.ge]
  refine makeRoom_of_lt ?_ order
  rw [Entries.len_erase hkey]
  omega

/-- What an eviction leaves in a queue that holds every key once. -/
structure Evicted (rank : Key → Nat) (cache : NegativeCache) (key : Key) (evictedAt : Nat) :
    Prop where
  kept : Kept rank cache key evictedAt (cache.room key evictedAt).1
  queued : ∀ k ∈ (cache.room key evictedAt).2,
    k ∈ (cache.room key evictedAt).1 ∨ k ∉ cache.map ∧ k ∈ cache.order

theorem evicted_of_inv {ops : List Op} {cache : NegativeCache} (h : Inv ttl capacity ops cache)
    (hnodup : cache.order.Nodup) (key : Key) (evictedAt : Nat) :
    Evicted (lastPut ops) cache key evictedAt := by
  have hqueued : ∀ k ∈ cache.order, k ∈ cache.map ∨ k ∉ cache.map ∧ k ∈ cache.order :=
    fun k hk => (em (k ∈ cache.map)).imp_right fun hnot => ⟨hnot, hk⟩
  by_cases hkey : key ∈ cache.map
  · have hroom : cache.room key evictedAt = (cache.map, cache.order.filter (· != key)) := if_pos hkey
    refine ⟨?_, fun k hk => ?_⟩
    · rw [hroom]
      exact .replaced hkey
    · rw [hroom] at hk ⊢
      exact hqueued k (List.mem_of_mem_filter hk)
  by_cases hspare : cache.map.len < cache.capacity
  · have hroom : cache.room key evictedAt = (cache.map, cache.order) := by
      rw [NegativeCache.room, if_neg hkey, if_neg (Nat.not_le.mpr hspare)]
    refine ⟨?_, fun k hk => ?_⟩
    · rw [hroom]
      exact .spare hkey hspare
    · rw [hroom] at hk ⊢
      exact hqueued k hk
  have hfull : cache.map.len = cache.capacity := le_antisymm h.len (Nat.not_lt.mp hspare)
  have hroom : cache.room key evictedAt = makeRoom cache.capacity (cache.fresh evictedAt)
      (cache.order.filter fun k => decide (k ∈ cache.fresh evictedAt)) := by
    rw [NegativeCache.room, if_neg hkey, if_pos hfull.ge]
  have hlive : ∀ k ∈ cache.order.filter fun k => decide (k ∈ cache.fresh evictedAt),
      k ∈ cache.fresh evictedAt := fun k hk => of_decide_eq_true (List.mem_filter.mp hk).2
  rcases Nat.lt_or_ge (cache.fresh evictedAt).len cache.capacity with hlt | hge
  · rw [makeRoom_of_lt hlt] at hroom
    refine ⟨?_, fun k hk => .inl ?_⟩
    · rw [hroom]
      exact .unexpired hkey hfull hlt
    · rw [hroom] at hk ⊢
      exact hlive k hk
  -- As many unexpired entries as there is room for: the first of the queue goes.
  have hlen : (cache.fresh evictedAt).len = cache.capacity :=
    le_antisymm (hfull ▸ cache.len_fresh_le evictedAt) hge
  have hcovers : ∀ k ∈ cache.fresh evictedAt,
      k ∈ cache.order.filter fun k => decide (k ∈ cache.fresh evictedAt) := by
    intro k hk
    obtain ⟨entry, hentry, -⟩ := NegativeCache.mem_fresh.mp hk
    exact List.mem_filter.mpr ⟨h.keys k (NegativeCache.mem_of_lookup hentry), decide_eq_true hk⟩
  have hranked := (h.follows.filter fun k => decide (k ∈ cache.fresh evictedAt)).pairwise
    (hnodup.filter _)
  have hdistinct := hnodup.filter fun k => decide (k ∈ cache.fresh evictedAt)
  cases hqueue : cache.order.filter fun k => decide (k ∈ cache.fresh evictedAt) with
  | nil =>
    rw [hqueue] at hcovers
    have hzero := Entries.len_eq_zero fun k hk => List.not_mem_nil (hcovers k hk)
    exact absurd (hlen ▸ hzero) cache.capacity_pos.ne'
  | cons oldest rest =>
    rw [hqueue] at hroom hlive hcovers hranked hdistinct
    have holdest := hlive oldest List.mem_cons_self
    rw [makeRoom_of_full cache.capacity_pos hlen holdest] at hroom
    refine ⟨?_, fun k hk => .inl ?_⟩
    · rw [hroom]
      refine .notOldest hkey hfull hlen oldest holdest fun other hother hne => ?_
      exact List.rel_of_pairwise_cons hranked ((List.mem_cons.mp (hcovers other hother)).resolve_left hne)
    · rw [hroom] at hk ⊢
      have hne : k ≠ oldest := fun heq => (List.nodup_cons.mp hdistinct).1 (heq ▸ hk)
      exact AList.mem_erase.mpr ⟨hne, hlive k (List.mem_cons_of_mem _ hk)⟩

-- ---------------------------------------------------------------------------
-- Runs without a stale copy
-- ---------------------------------------------------------------------------

/-- Of a queue after some calls: no key stands in it twice, and one that is not of
the map was forgotten. -/
structure InPutOrder (ttl : Nat) (ops : List Op) (cache : NegativeCache) : Prop where
  nodup : cache.order.Nodup
  forgotten : ∀ key ∈ cache.order, key ∈ cache.map ∨ lastWrite ttl key ops = none

theorem inPutOrder_withTunables (ttl capacity : Nat) :
    InPutOrder ttl [] (NegativeCache.withTunables ttl capacity) where
  nodup := .nil
  forgotten := by simp [NegativeCache.withTunables]

theorem InPutOrder.put {ops : List Op} {cache cache' : NegativeCache} {op : Op}
    (h : InPutOrder ttl ops cache) (hinv : Inv ttl capacity ops cache) (hok : NoStaleCopy cache op)
    (hstep : step cache op = some cache') (hputs : op.puts = some key) :
    InPutOrder ttl (ops ++ [op]) cache' := by
  obtain ⟨note, lifetime, now, evictedAt, hput, -, hother⟩ := step_put hstep hputs
  obtain ⟨-, rfl⟩ := putWithTtl_eq_some hput
  have hroom := NegativeCache.room_spec hinv.keys key evictedAt
  have hqueued := (evicted_of_inv hinv h.nodup key evictedAt).queued
  rw [hinv.lifetime] at hother
  have hnew : key ∉ (cache.room key evictedAt).2 := by
    by_cases hkey : key ∈ cache.map
    · exact hroom.key hkey
    · exact fun hmem => hkey (hok key hputs (hroom.order.subset hmem))
  refine ⟨List.nodup_append_comm.mpr (.cons hnew (h.nodup.sublist hroom.order)), fun k hk => ?_⟩
  by_cases hkey : k = key
  · exact .inl ((AList.mem_insert _).mpr (.inl hkey))
  have hk : k ∈ (cache.room key evictedAt).2 := by simpa [hkey] using hk
  rcases hqueued k hk with hmap | ⟨hnot, hbefore⟩
  · exact .inl ((AList.mem_insert _).mpr (.inr hmap))
  · rw [lastWrite_concat, hother _ _ hkey]
    exact .inr ((h.forgotten k hbefore).resolve_left hnot)

theorem InPutOrder.get {ops : List Op} {cache : NegativeCache} (h : InPutOrder ttl ops cache)
    (key : Key) (now : Nat) : InPutOrder ttl (ops ++ [.get key now]) (cache.get key now).2 := by
  have hsame : InPutOrder ttl (ops ++ [.get key now]) cache := by
    refine ⟨h.nodup, fun k hk => ?_⟩
    rw [lastWrite_concat]
    exact h.forgotten k hk
  unfold NegativeCache.get
  split
  · exact hsame
  split
  · exact hsame
  · refine ⟨hsame.nodup.filter _, fun k hk => ?_⟩
    obtain ⟨hk, hne⟩ := List.mem_filter.mp hk
    have hne : k ≠ key := by simpa using hne
    exact (hsame.forgotten k hk).imp_left fun hmap => AList.mem_erase.mpr ⟨hne, hmap⟩

theorem InPutOrder.forget {ops : List Op} {cache : NegativeCache} (h : InPutOrder ttl ops cache)
    (key : Key) : InPutOrder ttl (ops ++ [.forget key]) (cache.forget key) := by
  refine ⟨h.nodup, fun k hk => ?_⟩
  rw [lastWrite_concat, Op.write]
  by_cases hkey : key = k
  · exact .inr (if_pos hkey)
  · rw [if_neg hkey]
    exact (h.forgotten k hk).imp_left fun hmap => AList.mem_erase.mpr ⟨Ne.symm hkey, hmap⟩

theorem InPutOrder.step {ops : List Op} {cache cache' : NegativeCache} {op : Op}
    (h : InPutOrder ttl ops cache) (hinv : Inv ttl capacity ops cache) (hok : NoStaleCopy cache op)
    (hstep : step cache op = some cache') : InPutOrder ttl (ops ++ [op]) cache' := by
  cases op with
  | put => exact h.put hinv hok hstep rfl
  | putWithTtl => exact h.put hinv hok hstep rfl
  | get key now =>
    cases hstep
    exact h.get key now
  | forget key =>
    cases hstep
    exact h.forget key
  | clear =>
    cases hstep
    exact ⟨.nil, by simp [NegativeCache.clear]⟩

theorem exec_inPutOrder {ttl capacity : Nat} {ops : List Op} {cache : NegativeCache}
    (h : Machine.exec step (NegativeCache.withTunables ttl capacity) ops = some cache)
    (hok : Machine.Meets step NoStaleCopy (NegativeCache.withTunables ttl capacity) ops) :
    InPutOrder ttl ops cache := by
  induction ops using List.reverseRecOn generalizing cache with
  | nil =>
    cases h
    exact inPutOrder_withTunables ttl capacity
  | append_singleton ops op ih =>
    obtain ⟨before, hbefore, hlast⟩ := Machine.exec_append.mp h
    obtain ⟨after, hstep, hafter⟩ := Machine.exec_cons.mp hlast
    cases hafter
    exact (ih hbefore hok.left).step (exec_inv hbefore) (hok.at hbefore) hstep

/-- The last copies in the queue stand in the order of the latest puts, whatever
was called. Without stale copies there are no others, the keys that are not of the
map are forgotten ones, and a put into a full cache takes the expired entries and,
if the others still fill it, the least recently put of them. -/
theorem queue_in_put_order {ttl capacity : Nat} {ops : List Op} {cache : NegativeCache}
    (h : Machine.exec step (NegativeCache.withTunables ttl capacity) ops = some cache) :
    (∀ key ∈ cache.map, key ∈ cache.order) ∧ Recency.Follows (lastPut ops) cache.order ∧
      (Machine.Meets step NoStaleCopy (NegativeCache.withTunables ttl capacity) ops →
        cache.order.Nodup ∧
        cache.order.Pairwise (fun key other => lastPut ops key < lastPut ops other) ∧
        (∀ key ∈ cache.order, key ∈ cache.map ∨ lastWrite ttl key ops = none) ∧
        ∀ key note lifetime now evictedAt cache',
          cache.putWithTtl key note lifetime now evictedAt = some cache' →
          ∃ kept, Kept (lastPut ops) cache key evictedAt kept ∧
            cache'.map = kept.insert key ⟨note, now + lifetime⟩) := by
  have hinv := exec_inv h
  refine ⟨hinv.keys, hinv.follows, fun hok => ?_⟩
  have horder := exec_inPutOrder h hok
  refine ⟨horder.nodup, hinv.follows.pairwise horder.nodup, horder.forgotten, ?_⟩
  intro key note lifetime now evictedAt cache' hput
  obtain ⟨-, rfl⟩ := putWithTtl_eq_some hput
  exact ⟨_, (evicted_of_inv hinv horder.nodup key evictedAt).kept, rfl⟩

/-- Three albums where two fit, one of them put anew. -/
theorem queue_in_put_order_of_two :
    ∃ cache cache', Machine.exec step (NegativeCache.withTunables 120 2)
        [.put (album 'a') (noted "first") 0 0, .put (album 'b') (noted "first") 1 1,
          .put (album 'a') (noted "second") 2 2] = some cache ∧
      cache.order.Nodup ∧
      cache.putWithTtl (album 'c') (noted "first") 120 3 3 = some cache' ∧
      ∃ kept, Kept (lastPut [.put (album 'a') (noted "first") 0 0,
          .put (album 'b') (noted "first") 1 1, .put (album 'a') (noted "second") 2 2])
        cache (album 'c') 3 kept ∧
        cache'.map = kept.insert (album 'c') ⟨noted "first", 123⟩ := by
  obtain ⟨cache, hrun, hput⟩ := Machine.exec_of_any step (NegativeCache.withTunables 120 2)
    [.put (album 'a') (noted "first") 0 0, .put (album 'b') (noted "first") 1 1,
      .put (album 'a') (noted "second") 2 2]
    (fun cache => (cache.putWithTtl (album 'c') (noted "first") 120 3 3).isSome) (by decide)
  obtain ⟨cache', hput⟩ := Option.isSome_iff_exists.mp hput
  obtain ⟨-, -, hordered⟩ := queue_in_put_order hrun
  have hok : Machine.Meets step NoStaleCopy (NegativeCache.withTunables 120 2)
      [.put (album 'a') (noted "first") 0 0, .put (album 'b') (noted "first") 1 1,
        .put (album 'a') (noted "second") 2 2] := by
    refine ⟨?_, ?_, ?_, trivial⟩ <;> intro key hkey hmem <;> cases hkey <;> revert hmem <;> decide
  obtain ⟨hnodup, -, -, hkept⟩ := hordered hok
  exact ⟨cache, cache', hrun, hnodup, hput, hkept _ _ _ _ _ _ hput⟩

/-- A forgotten key stays in the queue. When it is put once more before the next
eviction, the copy it left is taken as the oldest entry, here where `b` was put
before `a`. -/
theorem forgotten_copy_is_evicted_as_oldest :
    (∃ cache, Machine.exec step (NegativeCache.withTunables 120 2)
        [.put (album 'a') (noted "first") 0 0, .forget (album 'a')] = some cache ∧
      album 'a' ∉ cache.map ∧ cache.order = [album 'a']) ∧
    ∃ cache cache', Machine.exec step (NegativeCache.withTunables 120 2)
        [.put (album 'a') (noted "first") 0 0, .forget (album 'a'),
          .put (album 'b') (noted "first") 1 1, .put (album 'a') (noted "second") 2 2] =
        some cache ∧
      album 'a' ∈ cache.fresh 3 ∧ cache.order = [album 'a', album 'b', album 'a'] ∧
      cache.put (album 'c') (noted "first") 3 3 = some cache' ∧
      album 'a' ∉ cache'.map ∧ album 'b' ∈ cache'.map := by
  refine ⟨⟨_, rfl, ?_, rfl⟩, _, _, rfl, ?_, rfl, rfl, ?_, ?_⟩ <;> decide

end EvoAudio.Artwork.Memo
