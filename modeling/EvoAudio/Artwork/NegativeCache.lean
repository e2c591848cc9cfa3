import EvoAudio.Artwork.Providers
import EvoAudio.Lib.Machine
import EvoAudio.Lib.Recency
import EvoAudio.Lib.Table

/-!
# The negative cache

`NegativeCache` of `evo-device-audio-http/src/artwork_negative_cache.rs`: a map of
notes with an expiry, and a queue of its keys in the order they were put, from
whose front a put at capacity makes room. A `forget` takes a key out of the map
only; its copy stays in the queue.
-/

namespace EvoAudio.Artwork.Memo

/-- Scheme, value and size. -/
abbrev Key := List Char × List Char × List Char

structure NegativeEntry where
  note : NegativeNote
  expiresAt : Nat
  deriving DecidableEq, Repr

def NegativeEntry.isFresh (now : Nat) (entry : NegativeEntry) : Bool := now < entry.expiresAt

abbrev Entries := AList fun _ : Key => NegativeEntry

/-- `map.len()` -/
def Entries.len (map : Entries) : Nat := map.entries.length

structure NegativeCache where
  map : Entries
  order : List Key
  ttl : Nat
  capacity : Nat
  capacity_pos : 0 < capacity

/-- The instants that the clock can represent end here, in nanoseconds. -/
def instantLimit : Nat := 2 ^ 63 * 10 ^ 9

/-- The addition of `Instant` and `Duration`, which panics at the end of the clock. -/
def addDuration (now ttl : Nat) : Option Nat :=
  if now + ttl < instantLimit then some (now + ttl) else none

/-- The eviction loop: keys are taken from the front of the queue until there is
room in the map, or no key left. -/
def makeRoom (capacity : Nat) : Entries → List Key → Entries × List Key
  | map, [] => (map, [])
  | map, key :: order =>
    if capacity ≤ map.len then makeRoom capacity (map.erase key) order else (map, key :: order)

namespace NegativeCache

def withTunables (ttl capacity : Nat) : NegativeCache where
  map := ∅
  order := []
  ttl := ttl
  capacity := max capacity 1
  capacity_pos := by omega

def get (cache : NegativeCache) (key : Key) (now : Nat) : Option NegativeEntry × NegativeCache :=
  match cache.map.lookup key with
  | none => (none, cache)
  | some entry =>
    if entry.isFresh now then (some entry, cache)
    else (none, { cache with
      map := cache.map.erase key
      order := cache.order.filter (· != key) })

/-- The entries that are not expired. -/
def fresh (cache : NegativeCache) (now : Nat) : Entries :=
  Table.retain (fun key => (cache.map.lookup key).any (·.isFresh now)) cache.map

/-- The map and the queue before a key is put. The clock is read once more where
the map is full. -/
def room (cache : NegativeCache) (key : Key) (evictedAt : Nat) : Entries × List Key :=
  if key ∈ cache.map then (cache.map, cache.order.filter (· != key))
  else if cache.capacity ≤ cache.map.len then
    let live := cache.fresh evictedAt
    makeRoom cache.capacity live (cache.order.filter fun k => decide (k ∈ live))
  else (cache.map, cache.order)

def putWithTtl (cache : NegativeCache) (key : Key) (note : NegativeNote) (ttl now evictedAt : Nat) :
    Option NegativeCache :=
  (addDuration now ttl).map fun expiresAt =>
    let room := cache.room key evictedAt
    { cache with
      map := room.1.insert key ⟨note, expiresAt⟩
      order := room.2 ++ [key] }

def put (cache : NegativeCache) (key : Key) (note : NegativeNote) (now evictedAt : Nat) :
    Option NegativeCache :=
  cache.putWithTtl key note cache.ttl now evictedAt

def forget (cache : NegativeCache) (key : Key) : NegativeCache :=
  { cache with map := cache.map.erase key }

def clear (cache : NegativeCache) : NegativeCache := { cache with map := ∅, order := [] }

end NegativeCache

-- ---------------------------------------------------------------------------
-- Calls
-- ---------------------------------------------------------------------------

inductive Op where
  | put (key : Key) (note : NegativeNote) (now evictedAt : Nat)
  | putWithTtl (key : Key) (note : NegativeNote) (ttl now evictedAt : Nat)
  | get (key : Key) (now : Nat)
  | forget (key : Key)
  | clear
  deriving DecidableEq, Repr

/-- A call, and `none` where it panics. -/
def step (cache : NegativeCache) : Op → Option NegativeCache
  | .put key note now evictedAt => cache.put key note now evictedAt
  | .putWithTtl key note ttl now evictedAt => cache.putWithTtl key note ttl now evictedAt
  | .get key now => some (cache.get key now).2
  | .forget key => some (cache.forget key)
  | .clear => some cache.clear

/-- The key that a call puts. -/
def Op.puts : Op → Option Key
  | .put key _ _ _ => some key
  | .putWithTtl key _ _ _ _ => some key
  | _ => none

/-- The entry that a call leaves of a key, when it was `last` before. -/
def Op.write (defaultTtl : Nat) (key : Key) (last : Option NegativeEntry) :
    Op → Option NegativeEntry
  | .put k note now _ => if k = key then some ⟨note, now + defaultTtl⟩ else last
  | .putWithTtl k note ttl now _ => if k = key then some ⟨note, now + ttl⟩ else last
  | .get _ _ => last
  | .forget k => if k = key then none else last
  | .clear => none

/-- The latest put of a key since it was forgotten or all were cleared. -/
def lastWrite (defaultTtl : Nat) (key : Key) (ops : List Op) : Option NegativeEntry :=
  ops.foldl (Op.write defaultTtl key) none

/-- Where in a run a key was put last. -/
def lastPut (ops : List Op) : Key → Nat := Recency.lastAt (ops.filterMap Op.puts)

-- ---------------------------------------------------------------------------
-- Room for a put
-- ---------------------------------------------------------------------------

theorem Entries.len_eq_zero {map : Entries} (h : ∀ key, key ∉ map) : map.len = 0 := by
  rw [Entries.len, List.length_eq_zero_iff]
  cases hentries : map.entries with
  | nil => rfl
  | cons entry rest =>
    refine absurd ?_ (h entry.1)
    rw [AList.mem_keys, AList.keys, hentries]
    exact List.mem_cons_self ..

/-- With every key of the map in the queue the loop makes room. -/
theorem makeRoom_spec {capacity : Nat} (hpos : 0 < capacity) {map : Entries} {order : List Key}
    (hkeys : ∀ key ∈ map, key ∈ order) :
    (makeRoom capacity map order).1.len < capacity ∧
      (∀ key ∈ (makeRoom capacity map order).1, key ∈ (makeRoom capacity map order).2) ∧
      (makeRoom capacity map order).2 <:+ order ∧
      ∀ key, ∀ entry ∈ (makeRoom capacity map order).1.lookup key, entry ∈ map.lookup key := by
  induction order generalizing map with
  | nil =>
    have hnone : ∀ key, key ∉ map := fun key hkey => by cases hkeys key hkey
    refine ⟨?_, fun key hkey => absurd hkey (hnone key), List.suffix_refl _, fun _ _ h => h⟩
    rw [makeRoom, Entries.len_eq_zero hnone]
    exact hpos
  | cons first order ih =>
    unfold makeRoom
    split
    next hfull =>
      have hrest : ∀ key ∈ map.erase first, key ∈ order := by
        intro key hkey
        rw [AList.mem_erase] at hkey
        exact (List.mem_cons.mp (hkeys key hkey.2)).resolve_left hkey.1
      obtain ⟨hlen, hmem, hsuffix, hlookup⟩ := ih hrest
      refine ⟨hlen, hmem, hsuffix.trans (List.suffix_cons ..), fun key entry hentry => ?_⟩
      have herased := hlookup key entry hentry
      rw [Table.lookup_erase_ite] at herased
      split at herased
      · cases herased
      · exact herased
    next hroom => exact ⟨Nat.not_le.mp hroom, hkeys, List.suffix_refl _, fun _ _ h => h⟩

namespace NegativeCache

theorem lookup_fresh (cache : NegativeCache) (now : Nat) (key : Key) :
    (cache.fresh now).lookup key = (cache.map.lookup key).filter (·.isFresh now) := by
  rw [fresh, Table.lookup_retain]
  cases cache.map.lookup key with
  | none => simp
  | some entry => cases hfresh : entry.isFresh now <;> simp [Option.filter, hfresh]

theorem mem_fresh {cache : NegativeCache} {now : Nat} {key : Key} :
    key ∈ cache.fresh now ↔ ∃ entry ∈ cache.map.lookup key, entry.isFresh now = true := by
  rw [← AList.lookup_isSome, lookup_fresh]
  cases cache.map.lookup key <;> simp

theorem mem_of_lookup {cache : NegativeCache} {key : Key} {entry : NegativeEntry}
    (h : entry ∈ cache.map.lookup key) : key ∈ cache.map := by
  rw [← AList.lookup_isSome, h]
  rfl

/-- What a put finds before it pushes its key. -/
structure Room (cache : NegativeCache) (key : Key) (room : Entries × List Key) : Prop where
  keys : ∀ k ∈ room.1, k ≠ key → k ∈ room.2
  len : room.1.len < cache.capacity ∨ key ∈ room.1 ∧ room.1 = cache.map
  lookup : ∀ k, ∀ entry ∈ room.1.lookup k, entry ∈ cache.map.lookup k
  follows : ∀ {rank}, Recency.Follows rank cache.order → Recency.Follows rank room.2
  order : room.2.Sublist cache.order
  key : key ∈ cache.map → key ∉ room.2

theorem room_spec {cache : NegativeCache} (hkeys : ∀ k ∈ cache.map, k ∈ cache.order) (key : Key)
    (evictedAt : Nat) : Room cache key (cache.room key evictedAt) := by
  unfold room
  split
  next hmem =>
    refine ⟨fun k hk hne => ?_, .inr ⟨hmem, rfl⟩, fun _ _ h => h, fun h => h.filter _,
      List.filter_sublist, fun _ => by simp⟩
    exact List.mem_filter.mpr ⟨hkeys k hk, by simpa using hne⟩
  next hmem =>
    split
    next hfull =>
      have hlive : ∀ k ∈ cache.fresh evictedAt,
          k ∈ cache.order.filter fun k => decide (k ∈ cache.fresh evictedAt) := by
        intro k hk
        obtain ⟨entry, hentry, -⟩ := mem_fresh.mp hk
        exact List.mem_filter.mpr ⟨hkeys k (mem_of_lookup hentry), by simpa using hk⟩
      obtain ⟨hlen, hmem', hsuffix, hlookup⟩ := makeRoom_spec cache.capacity_pos hlive
      refine ⟨fun k hk _ => hmem' k hk, .inl hlen, fun k entry hentry => ?_,
        fun h => (h.filter _).suffix hsuffix, hsuffix.sublist.trans List.filter_sublist,
        fun h => absurd h hmem⟩
      have hfresh := hlookup k entry hentry
      rw [lookup_fresh] at hfresh
      exact (Option.filter_eq_some_iff.mp hfresh).1
    next hroom =>
      exact ⟨fun k hk _ => hkeys k hk, .inl (Nat.not_le.mp hroom), fun _ _ h => h, fun h => h,
        .refl _, fun h => absurd h hmem⟩

end NegativeCache

-- ---------------------------------------------------------------------------
-- What every run keeps
-- ---------------------------------------------------------------------------

/-- Of a cache that some calls have led to. -/
structure Inv (ttl capacity : Nat) (ops : List Op) (cache : NegativeCache) : Prop where
  lifetime : cache.ttl = ttl
  bound : cache.capacity = max capacity 1
  keys : ∀ key ∈ cache.map, key ∈ cache.order
  len : cache.map.len ≤ cache.capacity
  latest : ∀ key, ∀ entry ∈ cache.map.lookup key, lastWrite ttl key ops = some entry
  follows : Recency.Follows (lastPut ops) cache.order

theorem inv_withTunables (ttl capacity : Nat) :
    Inv ttl capacity [] (NegativeCache.withTunables ttl capacity) where
  lifetime := rfl
  bound := rfl
  keys := by simp [NegativeCache.withTunables]
  len := Nat.zero_le _
  latest := by simp [NegativeCache.withTunables]
  follows := trivial

theorem lastWrite_concat (ttl : Nat) (key : Key) (ops : List Op) (op : Op) :
    lastWrite ttl key (ops ++ [op]) = op.write ttl key (lastWrite ttl key ops) := by
  simp [lastWrite]

theorem lastPut_concat_of_none (ops : List Op) (h : op.puts = none) :
    lastPut (ops ++ [op]) = lastPut ops := by
  simp [lastPut, h]

theorem lastPut_concat (ops : List Op) (h : op.puts = some key) :
    lastPut (ops ++ [op]) = Recency.lastAt (ops.filterMap Op.puts ++ [key]) := by
  simp [lastPut, h]

/-- What is put, as the key and the lifetime that it is put with. -/
theorem step_put {cache cache' : NegativeCache} {op : Op} (h : step cache op = some cache')
    (hputs : op.puts = some key) :
    ∃ note ttl now evictedAt, cache.putWithTtl key note ttl now evictedAt = some cache' ∧
      (∀ last, op.write cache.ttl key last = some ⟨note, now + ttl⟩) ∧
      ∀ other last, other ≠ key → op.write cache.ttl other last = last := by
  cases op with
  | put k note now evictedAt =>
    cases hputs
    exact ⟨note, cache.ttl, now, evictedAt, h, fun _ => if_pos rfl,
      fun other _ hne => if_neg (Ne.symm hne)⟩
  | putWithTtl k note ttl now evictedAt =>
    cases hputs
    exact ⟨note, ttl, now, evictedAt, h, fun _ => if_pos rfl, fun other _ hne => if_neg (Ne.symm hne)⟩
  | get => cases hputs
  | forget => cases hputs
  | clear => cases hputs

theorem putWithTtl_eq_some {cache cache' : NegativeCache}
    (h : cache.putWithTtl key note ttl now evictedAt = some cache') :
    now + ttl < instantLimit ∧
      cache' = { cache with
        map := (cache.room key evictedAt).1.insert key ⟨note, now + ttl⟩
        order := (cache.room key evictedAt).2 ++ [key] } := by
  obtain ⟨expiresAt, hadd, rfl⟩ := Option.map_eq_some_iff.mp h
  unfold addDuration at hadd
  split at hadd
  next hlt =>
    cases hadd
    exact ⟨hlt, rfl⟩
  · cases hadd

theorem Inv.putWithTtl {ops : List Op} {cache cache' : NegativeCache} {op : Op}
    (h : Inv ttl capacity ops cache) (hstep : step cache op = some cache') (hputs : op.puts = some key) :
    Inv ttl capacity (ops ++ [op]) cache' := by
  obtain ⟨note, lifetime, now, evictedAt, hput, hwrite, hother⟩ := step_put hstep hputs
  obtain ⟨-, rfl⟩ := putWithTtl_eq_some hput
  have hroom := NegativeCache.room_spec h.keys key evictedAt
  rw [h.lifetime] at hwrite hother
  refine ⟨h.lifetime, h.bound, fun k hk => ?_, ?_, fun k entry hentry => ?_, ?_⟩
  · by_cases hkey : k = key
    · simp [hkey]
    · rw [AList.mem_insert] at hk
      exact List.mem_append_left _ (hroom.keys k (hk.resolve_left hkey) hkey)
  · rw [Entries.len, Table.length_insert]
    have hlen := h.len
    rcases hroom.len with hlt | ⟨hmem, hsame⟩
    · rw [Entries.len] at hlt
      dsimp only
      split <;> omega
    · rw [if_pos hmem, hsame]
      exact hlen
  · rw [lastWrite_concat]
    rw [Table.lookup_insert_ite] at hentry
    split at hentry
    next hkey =>
      cases hentry
      rw [hkey, hwrite]
    next hkey =>
      rw [hother _ _ hkey]
      exact h.latest k entry (hroom.lookup k entry hentry)
  · rw [lastPut_concat ops hputs]
    exact Recency.Follows.push (hroom.follows h.follows) key

theorem Inv.get {ops : List Op} {cache : NegativeCache} (h : Inv ttl capacity ops cache) (key : Key)
    (now : Nat) : Inv ttl capacity (ops ++ [.get key now]) (cache.get key now).2 := by
  have hops (k : Key) : lastWrite ttl k (ops ++ [.get key now]) = lastWrite ttl k ops := by
    rw [lastWrite_concat]
    rfl
  have hsame : Inv ttl capacity (ops ++ [.get key now]) cache := by
    refine ⟨h.lifetime, h.bound, h.keys, h.len, fun k entry hentry => ?_, ?_⟩
    · rw [hops]
      exact h.latest k entry hentry
    · rw [lastPut_concat_of_none ops rfl]
      exact h.follows
  unfold NegativeCache.get
  split
  · exact hsame
  split
  · exact hsame
  · refine ⟨h.lifetime, h.bound, fun k hk => ?_, ?_, fun k entry hentry => ?_, hsame.follows.filter _⟩
    · rw [AList.mem_erase] at hk
      exact List.mem_filter.mpr ⟨h.keys k hk.2, by simpa using hk.1⟩
    · have hlen := h.len
      rw [Entries.len, Table.length_erase]
      rw [Entries.len] at hlen
      dsimp only
      split <;> omega
    · rw [Table.lookup_erase_ite] at hentry
      split at hentry
      · cases hentry
      · exact hsame.latest k entry hentry

theorem Inv.forget {ops : List Op} {cache : NegativeCache} (h : Inv ttl capacity ops cache) (key : Key) :
    Inv ttl capacity (ops ++ [.forget key]) (cache.forget key) := by
  refine ⟨h.lifetime, h.bound, fun k hk => ?_, ?_, fun k entry hentry => ?_, ?_⟩
  · rw [NegativeCache.forget, AList.mem_erase] at hk
    exact h.keys k hk.2
  · have hlen := h.len
    rw [NegativeCache.forget, Entries.len, Table.length_erase]
    rw [Entries.len] at hlen
    dsimp only
    split <;> omega
  · rw [NegativeCache.forget, Table.lookup_erase_ite] at hentry
    split at hentry
    · cases hentry
    next hne =>
      rw [lastWrite_concat, Op.write, if_neg (Ne.symm hne)]
      exact h.latest k entry hentry
  · rw [lastPut_concat_of_none ops rfl]
    exact h.follows

theorem Inv.clear {ops : List Op} {cache : NegativeCache} (h : Inv ttl capacity ops cache) :
    Inv ttl capacity (ops ++ [.clear]) cache.clear where
  lifetime := h.lifetime
  bound := h.bound
  keys := by simp [NegativeCache.clear]
  len := Nat.zero_le _
  latest := by simp [NegativeCache.clear]
  follows := trivial

theorem Inv.step {ops : List Op} {cache cache' : NegativeCache} {op : Op} (h : Inv ttl capacity ops cache)
    (hstep : step cache op = some cache') : Inv ttl capacity (ops ++ [op]) cache' := by
  cases op with
  | put => exact h.putWithTtl hstep rfl
  | putWithTtl => exact h.putWithTtl hstep rfl
  | get key now =>
    cases hstep
    exact h.get key now
  | forget key =>
    cases hstep
    exact h.forget key
  | clear =>
    cases hstep
    exact h.clear

theorem exec_inv {ttl capacity : Nat} {ops : List Op} {cache : NegativeCache}
    (h : Machine.exec step (NegativeCache.withTunables ttl capacity) ops = some cache) :
    Inv ttl capacity ops cache := by
  induction ops using List.reverseRecOn generalizing cache with
  | nil =>
    cases h
    exact inv_withTunables ttl capacity
  | append_singleton ops op ih =>
    obtain ⟨before, hbefore, hlast⟩ := Machine.exec_append.mp h
    obtain ⟨after, hstep, hafter⟩ := Machine.exec_cons.mp hlast
    cases hafter
    exact (ih hbefore).step hstep

/-- Whatever the calls and their times, the cache holds no more than its capacity,
the queue has every key of the map, a put leaves the key it evicts for with room,
and a `get` answers with the latest put of its key that nothing has taken back,
before that expires. -/
theorem negative_cache_sound {ttl capacity : Nat} {ops : List Op} {cache : NegativeCache}
    (h : Machine.exec step (NegativeCache.withTunables ttl capacity) ops = some cache) :
    cache.map.len ≤ max capacity 1 ∧ (∀ key ∈ cache.map, key ∈ cache.order) ∧
      (∀ key evictedAt, key ∉ cache.map →
        (cache.room key evictedAt).1.len < max capacity 1) ∧
      ∀ key now, ∀ entry ∈ (cache.get key now).1,
        lastWrite ttl key ops = some entry ∧ now < entry.expiresAt := by
  have hinv := exec_inv h
  rw [← hinv.bound]
  refine ⟨hinv.len, hinv.keys, fun key evictedAt hkey => ?_, fun key now entry hentry => ?_⟩
  · have hroom := NegativeCache.room_spec hinv.keys key evictedAt
    refine hroom.len.resolve_right fun hsame => hkey ?_
    rw [← hsame.2]
    exact hsame.1
  · unfold NegativeCache.get at hentry
    split at hentry
    · cases hentry
    next stored hstored =>
      split at hentry
      next hfresh =>
        cases hentry
        exact ⟨hinv.latest key _ hstored, of_decide_eq_true hfresh⟩
      · cases hentry

/-- A note on an album. -/
def noted (detail : String) : NegativeNote := ⟨"not_found".toList, detail.toList, none⟩

/-- The album with a name of one letter. -/
def album (letter : Char) : Key := ("mpd-album".toList, [letter], "small".toList)

/-- Two albums where one fits, and a note that is replaced. -/
theorem negative_cache_sound_of_one :
    ∃ cache, Machine.exec step (NegativeCache.withTunables 120 1)
        [.put (album 'a') (noted "first") 0 0, .put (album 'b') (noted "first") 1 1,
          .putWithTtl (album 'b') (noted "second") 300 2 2] = some cache ∧
      cache.map.len ≤ 1 ∧ album 'b' ∈ cache.order ∧
      (cache.get (album 'b') 301).1 = some ⟨noted "second", 302⟩ ∧
      lastWrite 120 (album 'b')
        [.put (album 'a') (noted "first") 0 0, .put (album 'b') (noted "first") 1 1,
          .putWithTtl (album 'b') (noted "second") 300 2 2] = some ⟨noted "second", 302⟩ := by
  obtain ⟨cache, hrun, hget⟩ := Machine.exec_of_any step (NegativeCache.withTunables 120 1)
    [.put (album 'a') (noted "first") 0 0, .put (album 'b') (noted "first") 1 1,
      .putWithTtl (album 'b') (noted "second") 300 2 2]
    (fun cache => decide (album 'b' ∈ cache.map) &&
      decide ((cache.get (album 'b') 301).1 = some ⟨noted "second", 302⟩)) (by decide)
  rw [Bool.and_eq_true] at hget
  have hentry := of_decide_eq_true hget.2
  obtain ⟨hlen, hkeys, -, hlatest⟩ := negative_cache_sound hrun
  exact ⟨cache, hrun, hlen, hkeys _ (of_decide_eq_true hget.1), hentry,
    (hlatest (album 'b') 301 _ hentry).1⟩

end EvoAudio.Artwork.Memo
