import Mathlib.Data.List.Sort
import Mathlib.Data.String.Basic
import EvoAudio.Lib.Table
import EvoAudio.Multiroom.Groups

/-!
# Source-host election

`evaluate` of `election.rs`: prune the in-memory mirror to the groups that
exist, then walk the groups, elect a host for each over the live set, and
write, mirror and announce the elections that changed. A failed write ends
the walk with what was done so far in place.

`IsSourceHost` says which host a group is meant to have; `newSourceHost` is
what the walk computes.
-/

namespace EvoAudio.Multiroom

/-- `PersistedSourceHostElection`. -/
structure Election where
  groupId : String
  sourceHostDeviceId : Option String
  candidateCount : Nat
  electedAtMs : Nat
  deriving DecidableEq, Repr

structure SourceHostElected where
  groupId : String
  displayName : String
  sourceHostDeviceId : Option String
  priorSourceHostDeviceId : Option String
  candidateCount : Nat
  deriving DecidableEq, Repr

inductive ElectionError
  | persistence
  | groups
  deriving DecidableEq, Repr

-- ---------------------------------------------------------------------------
-- Who is elected
-- ---------------------------------------------------------------------------

/-- What the election is for: the pinned device while it is a live member,
otherwise the lowest live member, otherwise nobody. -/
inductive IsSourceHost (live : Finset String) (g : Group) : Option String → Prop
  | pinned : g.pinnedSourceHost = some pin → pin ∈ g.liveMembers live →
      IsSourceHost live g (some pin)
  | lowest : (∀ pin ∈ g.pinnedSourceHost, pin ∉ g.liveMembers live) →
      IsLeast (g.liveMembers live) host → IsSourceHost live g (some host)
  | nobody : g.liveMembers live = ∅ → IsSourceHost live g none

def candidates (members : List String) (live : Finset String) : List String :=
  members.filter (· ∈ live)

def newSourceHost (live : Finset String) (g : Group) : Option String :=
  match g.pinnedSourceHost with
  | some pin =>
    if pin ∈ candidates g.members live then some pin else (candidates g.members live).min?
  | none => (candidates g.members live).min?

def electSourceHost (members : List String) (live : Finset String) : Option String × Nat :=
  let sorted := (candidates members live).insertionSort (· ≤ ·)
  (sorted.head?, sorted.length)

/-- An audio-plane connection, as the live set reads it. -/
structure ChannelActivity where
  remoteDeviceId : String
  lastChannelActivityMs : Nat
  deriving DecidableEq, Repr

def liveDeviceSet (localDeviceId : String) (livenessWindowMs nowMs : Nat)
    (connections : List ChannelActivity) : Finset String :=
  let cutoff := nowMs - livenessWindowMs
  insert localDeviceId
    ((connections.filter fun c => c.lastChannelActivityMs ≥ cutoff).map (·.remoteDeviceId)).toFinset

theorem mem_candidates {g : Group} :
    m ∈ candidates g.members live ↔ m ∈ g.liveMembers live := by
  simp [candidates, Group.liveMembers]

theorem min?_candidates_some {g : Group} :
    (candidates g.members live).min? = some host ↔ IsLeast (g.liveMembers live) host := by
  rw [List.min?_eq_some_iff]
  simp only [mem_candidates]
  rfl

theorem min?_candidates_none {g : Group} :
    (candidates g.members live).min? = none ↔ g.liveMembers live = ∅ := by
  rw [List.min?_eq_none_iff, List.eq_nil_iff_forall_not_mem, Set.eq_empty_iff_forall_notMem]
  simp only [mem_candidates]

theorem min?_candidates_spec {g : Group}
    (hpin : ∀ pin ∈ g.pinnedSourceHost, pin ∉ g.liveMembers live) :
    IsSourceHost live g (candidates g.members live).min? := by
  cases h : (candidates g.members live).min? with
  | none => exact .nobody (min?_candidates_none.mp h)
  | some host => exact .lowest hpin (min?_candidates_some.mp h)

theorem newSourceHost_spec (live : Finset String) (g : Group) :
    IsSourceHost live g (newSourceHost live g) := by
  unfold newSourceHost
  split
  · rename_i pin hpin
    split
    · rename_i hmem
      exact .pinned hpin (mem_candidates.mp hmem)
    · rename_i hmem
      refine min?_candidates_spec ?_
      rw [hpin]
      rintro _ ⟨⟩
      exact mt mem_candidates.mpr hmem
  · rename_i hpin
    refine min?_candidates_spec ?_
    simp [hpin]

/-- A group has one source host. -/
theorem IsSourceHost.unique (h : IsSourceHost live g host) (h' : IsSourceHost live g host') :
    host = host' := by
  cases h with
  | pinned hpin hlive =>
    cases h' with
    | pinned hpin' _ => rw [← hpin, hpin']
    | lowest hno _ => exact absurd hlive (hno _ hpin)
    | nobody hempty => simp [hempty] at hlive
  | lowest hno hleast =>
    cases h' with
    | pinned hpin hlive => exact absurd hlive (hno _ hpin)
    | lowest _ hleast' => rw [hleast.unique hleast']
    | nobody hempty => simpa [hempty] using hleast.1
  | nobody hempty =>
    cases h' with
    | pinned _ hlive => simp [hempty] at hlive
    | lowest _ hleast => simpa [hempty] using hleast.1
    | nobody _ => rfl

/-- The order of the members does not matter. -/
theorem IsSourceHost.perm {g : Group} (h : IsSourceHost live g host)
    (hperm : members.Perm g.members) : IsSourceHost live { g with members := members } host := by
  have hlive : Group.liveMembers live { g with members := members } = g.liveMembers live := by
    ext m
    simp [Group.liveMembers, hperm.mem_iff]
  cases h with
  | pinned hpin hmem => exact .pinned hpin (hlive ▸ hmem)
  | lowest hno hleast => exact .lowest (hlive ▸ hno) (hlive ▸ hleast)
  | nobody hempty => exact .nobody (hlive ▸ hempty)

theorem electSourceHost_spec {g : Group} (hpin : g.pinnedSourceHost = none) :
    IsSourceHost live g (electSourceHost g.members live).1 := by
  have hsorted := List.pairwise_insertionSort (· ≤ ·) (candidates g.members live)
  have hmem : ∀ m, m ∈ (candidates g.members live).insertionSort (· ≤ ·) ↔
      m ∈ g.liveMembers live := by
    intro m
    rw [List.mem_insertionSort, mem_candidates]
  unfold electSourceHost
  cases h : (candidates g.members live).insertionSort (· ≤ ·) with
  | nil =>
    refine .nobody (Set.eq_empty_iff_forall_notMem.mpr ?_)
    intro m hm
    simpa [h] using (hmem m).mpr hm
  | cons host rest =>
    rw [h] at hsorted hmem
    refine .lowest (by simp [hpin]) ⟨(hmem host).mp (by simp), ?_⟩
    intro m hm
    rcases List.mem_cons.mp ((hmem m).mpr hm) with rfl | hrest
    · exact le_refl _
    · exact List.rel_of_pairwise_cons hsorted hrest

-- ---------------------------------------------------------------------------
-- Evaluate
-- ---------------------------------------------------------------------------

abbrev Elections := AList fun _ : String => Election

/-- The in-memory mirror and the persisted rows, both keyed by group id. -/
structure ElectionRuntime where
  mirror : Elections
  store : Elections

/-- The groups whose write fails, and those whose happening is not taken. -/
structure Faults where
  put : String → Bool
  emit : String → Bool

structure Outcome where
  result : Except ElectionError Unit
  runtime : ElectionRuntime
  puts : List Election
  emitted : List SourceHostElected

def electionFor (live : Finset String) (nowMs : Nat) (g : Group) : Election :=
  { groupId := g.groupId
    sourceHostDeviceId := newSourceHost live g
    candidateCount := (candidates g.members live).length
    electedAtMs := nowMs }

-- a group with no entry is written even when it elects nobody
def ElectionRuntime.isCurrent (rt : ElectionRuntime) (live : Finset String) (g : Group) : Bool :=
  match rt.mirror.lookup g.groupId with
  | some e => e.sourceHostDeviceId = newSourceHost live g
  | none => false

def ElectionRuntime.record (rt : ElectionRuntime) (e : Election) : ElectionRuntime :=
  { mirror := rt.mirror.insert e.groupId e, store := rt.store.insert e.groupId e }

def ElectionRuntime.happening (rt : ElectionRuntime) (g : Group) (e : Election) :
    SourceHostElected :=
  { groupId := g.groupId
    displayName := g.displayName
    sourceHostDeviceId := e.sourceHostDeviceId
    priorSourceHostDeviceId := (rt.mirror.lookup g.groupId).bind (·.sourceHostDeviceId)
    candidateCount := e.candidateCount }

def walk (live : Finset String) (nowMs : Nat) (faults : Faults) (rt : ElectionRuntime) :
    List Group → Outcome
  | [] => ⟨.ok (), rt, [], []⟩
  | g :: groups =>
    if rt.isCurrent live g then walk live nowMs faults rt groups
    else if faults.put g.groupId then ⟨.error .persistence, rt, [], []⟩
    else
      let e := electionFor live nowMs g
      let rest := walk live nowMs faults (rt.record e) groups
      { rest with
        puts := e :: rest.puts
        emitted :=
          if faults.emit g.groupId then rest.emitted else rt.happening g e :: rest.emitted }

def evaluate (listed : Except Unit Groups) (live : Finset String) (nowMs : Nat) (faults : Faults)
    (rt : ElectionRuntime) : Outcome :=
  match listed with
  | .error _ => ⟨.error .groups, rt, [], []⟩
  | .ok groups =>
    let pruned := Table.retain (· ∈ groups.ids) rt.mirror
    walk live nowMs faults { rt with mirror := pruned } groups.list

-- ---------------------------------------------------------------------------
-- What a walk leaves behind
-- ---------------------------------------------------------------------------

def ElectionRuntime.Agrees (rt : ElectionRuntime) (gid : String) : Prop :=
  rt.mirror.lookup gid = rt.store.lookup gid

@[simp] theorem electionFor_groupId : (electionFor live nowMs g).groupId = g.groupId := rfl

@[simp] theorem electionFor_host :
    (electionFor live nowMs g).sourceHostDeviceId = newSourceHost live g := rfl

theorem record_mirror (rt : ElectionRuntime) :
    (rt.record e).mirror.lookup gid = if gid = e.groupId then some e else rt.mirror.lookup gid :=
  Table.lookup_insert_ite ..

theorem record_agrees (rt : ElectionRuntime) :
    (rt.record e).Agrees gid ↔ rt.Agrees gid ∨ gid = e.groupId := by
  unfold ElectionRuntime.Agrees ElectionRuntime.record
  rw [Table.lookup_insert_ite, Table.lookup_insert_ite]
  split
  · rename_i h
    simp [h]
  · rename_i h
    simp [h]

/-- The walk either skips a group, stops there, or records its election. -/
theorem walk_cons (live : Finset String) (nowMs : Nat) (faults : Faults) (rt : ElectionRuntime)
    (g : Group) (groups : List Group) :
    (rt.isCurrent live g = true ∧
      walk live nowMs faults rt (g :: groups) = walk live nowMs faults rt groups) ∨
    walk live nowMs faults rt (g :: groups) = ⟨.error .persistence, rt, [], []⟩ ∨
    ∃ emitted, walk live nowMs faults rt (g :: groups) =
      { walk live nowMs faults (rt.record (electionFor live nowMs g)) groups with
        puts := electionFor live nowMs g ::
          (walk live nowMs faults (rt.record (electionFor live nowMs g)) groups).puts
        emitted := emitted } := by
  rw [walk]
  split
  · exact .inl ⟨‹_›, rfl⟩
  · split
    · exact .inr (.inl rfl)
    · exact .inr (.inr ⟨_, rfl⟩)

theorem isCurrent_iff {rt : ElectionRuntime} : rt.isCurrent live g = true ↔
    ∃ e, rt.mirror.lookup g.groupId = some e ∧ e.sourceHostDeviceId = newSourceHost live g := by
  unfold ElectionRuntime.isCurrent
  cases rt.mirror.lookup g.groupId <;> simp

/-- Mirror and store agree on a group after the walk exactly when they did
before or the walk wrote the group. -/
theorem walk_agrees (rt : ElectionRuntime) :
    (walk live nowMs faults rt groups).runtime.Agrees gid ↔
      rt.Agrees gid ∨ gid ∈ (walk live nowMs faults rt groups).puts.map Election.groupId := by
  induction groups generalizing rt with
  | nil => simp [walk]
  | cons g groups ih =>
    obtain ⟨_, h⟩ | h | ⟨_, h⟩ := walk_cons live nowMs faults rt g groups
    · rw [h, ih]
    · rw [h]; simp
    · rw [h]
      simp only [ih, record_agrees, List.map_cons, List.mem_cons, electionFor_groupId]
      rw [or_assoc]

/-- Groups outside the walk keep their mirror entry. -/
theorem walk_frame (rt : ElectionRuntime) (h : gid ∉ groups.map Group.groupId) :
    (walk live nowMs faults rt groups).runtime.mirror.lookup gid = rt.mirror.lookup gid := by
  induction groups generalizing rt with
  | nil => rfl
  | cons g groups ih =>
    simp only [List.map_cons, List.mem_cons, not_or] at h
    obtain ⟨_, hw⟩ | hw | ⟨_, hw⟩ := walk_cons live nowMs faults rt g groups
    · rw [hw, ih rt h.2]
    · rw [hw]
    · rw [hw]
      simp only [ih _ h.2, record_mirror, electionFor_groupId]
      exact if_neg h.1

/-- A walk that ends well leaves every group it saw current. -/
theorem walk_current (rt : ElectionRuntime) (hnodup : (groups.map Group.groupId).Nodup)
    (hok : (walk live nowMs faults rt groups).result = .ok ()) :
    ∀ g ∈ groups, (walk live nowMs faults rt groups).runtime.isCurrent live g = true := by
  induction groups generalizing rt with
  | nil => simp
  | cons g groups ih =>
    obtain ⟨hg, hnodup⟩ := List.nodup_cons.mp hnodup
    obtain ⟨hcur, hw⟩ | hw | ⟨_, hw⟩ := walk_cons live nowMs faults rt g groups
    · rw [hw] at hok ⊢
      rintro g' (_ | ⟨_, hg'⟩)
      · rw [isCurrent_iff, walk_frame rt hg]
        exact isCurrent_iff.mp hcur
      · exact ih rt hnodup hok g' hg'
    · rw [hw] at hok
      simp at hok
    · rw [hw] at hok ⊢
      rintro g' (_ | ⟨_, hg'⟩)
      · rw [isCurrent_iff]
        refine ⟨electionFor live nowMs g, ?_, rfl⟩
        simp [walk_frame _ hg, record_mirror]
      · exact ih _ hnodup hok g' hg'

theorem walk_of_current (rt : ElectionRuntime)
    (h : ∀ g ∈ groups, rt.isCurrent live g = true) :
    walk live nowMs faults rt groups = ⟨.ok (), rt, [], []⟩ := by
  induction groups with
  | nil => rfl
  | cons g groups ih =>
    rw [walk, if_pos (h g (by simp))]
    exact ih fun g' hg' => h g' (by simp [hg'])

-- ---------------------------------------------------------------------------
-- The fixpoint
-- ---------------------------------------------------------------------------

theorem pruned_mem {groups : Groups} {mirror : Elections} :
    gid ∈ Table.retain (· ∈ groups.ids) mirror ↔ gid ∈ groups.ids ∧ gid ∈ mirror := by
  rw [← AList.lookup_isSome, ← AList.lookup_isSome, Table.lookup_retain]
  by_cases h : gid ∈ groups.ids <;> simp [h]

theorem evaluate_ids (h : (evaluate (.ok groups) live nowMs faults rt).result = .ok ()) :
    gid ∈ (evaluate (.ok groups) live nowMs faults rt).runtime.mirror ↔ gid ∈ groups.ids := by
  simp only [evaluate] at h ⊢
  constructor
  · intro hmem
    by_contra hgid
    rw [← AList.lookup_isSome, walk_frame _ hgid, AList.lookup_isSome, pruned_mem] at hmem
    exact hgid hmem.1
  · intro hgid
    obtain ⟨g, hg, rfl⟩ := List.mem_map.mp hgid
    obtain ⟨e, he, _⟩ := isCurrent_iff.mp (walk_current _ groups.nodup h g hg)
    rw [← AList.lookup_isSome, he]
    rfl

theorem evaluate_host (h : (evaluate (.ok groups) live nowMs faults rt).result = .ok ())
    (hg : g ∈ groups.list) :
    ∃ e, (evaluate (.ok groups) live nowMs faults rt).runtime.mirror.lookup g.groupId = some e ∧
      IsSourceHost live g e.sourceHostDeviceId := by
  obtain ⟨e, he, hhost⟩ := isCurrent_iff.mp (walk_current _ groups.nodup h g hg)
  refine ⟨e, he, ?_⟩
  rw [hhost]
  exact newSourceHost_spec live g

theorem evaluate_again (h : (evaluate (.ok groups) live nowMs faults rt).result = .ok ()) :
    evaluate (.ok groups) live nowMs' faults' (evaluate (.ok groups) live nowMs faults rt).runtime =
      ⟨.ok (), (evaluate (.ok groups) live nowMs faults rt).runtime, [], []⟩ := by
  have hkept : Table.retain (· ∈ groups.ids)
      (evaluate (.ok groups) live nowMs faults rt).runtime.mirror =
        (evaluate (.ok groups) live nowMs faults rt).runtime.mirror := by
    apply Table.retain_eq_self
    intro gid hgid
    simpa using (evaluate_ids h).mp hgid
  have hcurrent := walk_current _ groups.nodup h
  rw [evaluate]
  simp only [hkept]
  exact walk_of_current _ hcurrent

theorem evaluate_agrees (groups : Groups) (hg : g ∈ groups.list) :
    (evaluate (.ok groups) live nowMs faults rt).runtime.Agrees g.groupId ↔
      rt.Agrees g.groupId ∨
        g.groupId ∈ (evaluate (.ok groups) live nowMs faults rt).puts.map Election.groupId := by
  have hgid : g.groupId ∈ groups.ids := List.mem_map_of_mem hg
  simp only [evaluate]
  rw [walk_agrees]
  simp only [ElectionRuntime.Agrees, Table.lookup_retain, hgid, decide_true, if_true]

theorem evaluate_fixpoint (groups : Groups) (live : Finset String) (nowMs : Nat) (faults : Faults)
    (rt : ElectionRuntime) :
    let o := evaluate (.ok groups) live nowMs faults rt
    (o.result = .ok () →
      (∀ gid, gid ∈ o.runtime.mirror ↔ gid ∈ groups.ids) ∧
      (∀ g ∈ groups.list, ∃ e, o.runtime.mirror.lookup g.groupId = some e ∧
        IsSourceHost live g e.sourceHostDeviceId ∧
        (g.pinnedSourceHost = none →
          e.sourceHostDeviceId = (electSourceHost g.members live).1) ∧
        ∀ members, members.Perm g.members →
          newSourceHost live { g with members := members } = e.sourceHostDeviceId) ∧
      ∀ nowMs' faults', evaluate (.ok groups) live nowMs' faults' o.runtime =
        ⟨.ok (), o.runtime, [], []⟩) ∧
    ∀ g ∈ groups.list, o.runtime.Agrees g.groupId ↔
      rt.Agrees g.groupId ∨ g.groupId ∈ o.puts.map Election.groupId := by
  refine ⟨fun hok => ⟨fun gid => evaluate_ids hok, ?_, fun _ _ => evaluate_again hok⟩, ?_⟩
  · intro g hg
    obtain ⟨e, he, hhost⟩ := evaluate_host hok hg
    refine ⟨e, he, hhost, ?_, ?_⟩
    · intro hpin
      exact hhost.unique (electSourceHost_spec hpin)
    · intro members hperm
      exact (newSourceHost_spec live _).unique (hhost.perm hperm)
  · intro g hg
    exact evaluate_agrees groups hg

/-- The mirror holds the right host, the row is gone: nothing is written. -/
theorem not_agrees_stale_mirror :
    let groups : Groups := ⟨[⟨"g", "Kitchen", ["dev-a"], none⟩], by decide⟩
    let rt : ElectionRuntime :=
      ⟨AList.singleton "g" ⟨"g", some "dev-a", 1, 5⟩, ∅⟩
    let o := evaluate (.ok groups) {"dev-a"} 9 ⟨fun _ => false, fun _ => false⟩ rt
    o.result = .ok () ∧ ¬ ∀ g ∈ groups.list, o.runtime.Agrees g.groupId := by
  refine ⟨rfl, ?_⟩
  intro h
  have := h _ List.mem_cons_self
  exact absurd this (by unfold ElectionRuntime.Agrees; decide)

end EvoAudio.Multiroom
