import EvoAudio.Multiroom.Election

/-!
# Split-brain resolution

A device greets a peer with the groups its own election mirror says it
hosts; the peer checks these against its mirror (`check_split_brain`) and
settles a conflict on the lower of the two ids. The election itself follows
the operator's pin first, so the two rules part company under a pin.
-/

namespace EvoAudio.Multiroom

structure SplitBrainDetected where
  groupId : String
  localViewSourceHost : Option String
  peerViewSourceHost : String
  resolutionSourceHost : String
  deriving DecidableEq, Repr

def sourceHostFor (mirror : Elections) (gid : String) : Option String :=
  (mirror.lookup gid).bind (·.sourceHostDeviceId)

/-- The groups `build_local_hello` claims, in the order `list` gives them. -/
def claimedSourceHostGroups (localId : String) (mirror : Elections) : List String :=
  (mirror.keys.insertionSort (· ≤ ·)).filter fun gid => sourceHostFor mirror gid = some localId

def pickLower (a b : String) : String := if a ≤ b then a else b

def checkSplitBrain (mirror : Elections) (remoteId : String) (remoteClaimed : List String) :
    List SplitBrainDetected :=
  remoteClaimed.filterMap fun gid =>
    match sourceHostFor mirror gid with
    | some other =>
      if other = remoteId then none
      else some
        { groupId := gid
          localViewSourceHost := some other
          peerViewSourceHost := remoteId
          resolutionSourceHost := pickLower other remoteId }
    | none => some
        { groupId := gid
          localViewSourceHost := none
          peerViewSourceHost := remoteId
          resolutionSourceHost := remoteId }

/-- The host a device stays with after greeting a peer: the resolution when
a conflict was found, its own view otherwise. -/
def keptHost (mirror : Elections) (remoteId : String) (remoteClaimed : List String)
    (gid : String) : Option String :=
  match (checkSplitBrain mirror remoteId remoteClaimed).find? (·.groupId = gid) with
  | some d => some d.resolutionSourceHost
  | none => sourceHostFor mirror gid

theorem pickLower_eq_min (a b : String) : pickLower a b = min a b := by
  rw [pickLower, min_def]

theorem mem_claimed : gid ∈ claimedSourceHostGroups localId mirror ↔
    sourceHostFor mirror gid = some localId := by
  have hkey : sourceHostFor mirror gid = some localId → gid ∈ mirror.keys := by
    intro h
    cases he : mirror.lookup gid with
    | none => simp [sourceHostFor, he] at h
    | some e =>
      rw [← AList.mem_keys, ← AList.lookup_isSome, he]
      rfl
  simp only [claimedSourceHostGroups, List.mem_filter, List.mem_insertionSort,
    decide_eq_true_eq]
  exact ⟨And.right, fun h => ⟨hkey h, h⟩⟩

theorem checkSplitBrain_mem (hclaim : gid ∈ claimed) (hview : sourceHostFor mirror gid = some a)
    (hne : a ≠ b) : ∃ d ∈ checkSplitBrain mirror b claimed, d.groupId = gid := by
  refine ⟨⟨gid, some a, b, pickLower a b⟩, ?_, rfl⟩
  rw [checkSplitBrain, List.mem_filterMap]
  exact ⟨gid, hclaim, by simp [hview, hne]⟩

theorem checkSplitBrain_resolution (hview : sourceHostFor mirror gid = some a)
    (hd : d ∈ checkSplitBrain mirror b claimed) (hgid : d.groupId = gid) :
    d.resolutionSourceHost = pickLower a b := by
  rw [checkSplitBrain, List.mem_filterMap] at hd
  obtain ⟨gid', _, hd⟩ := hd
  split at hd
  · rename_i other hother
    split at hd
    · contradiction
    · cases hd
      rw [show gid' = gid from hgid, hview] at hother
      cases hother
      rfl
  · rename_i hnone
    cases hd
    rw [show gid' = gid from hgid, hview] at hnone
    contradiction

/-- In a conflict a device keeps the lower of the two claimants. -/
theorem keptHost_conflict (hclaim : gid ∈ claimed) (hview : sourceHostFor mirror gid = some a)
    (hne : a ≠ b) : keptHost mirror b claimed gid = some (min a b) := by
  obtain ⟨d, hd, hgid⟩ := checkSplitBrain_mem hclaim hview hne
  unfold keptHost
  split
  · rename_i d' hfind
    have hmem := List.mem_of_find?_eq_some hfind
    have hgid' : d'.groupId = gid := by simpa using List.find?_some hfind
    rw [checkSplitBrain_resolution hview hmem hgid', pickLower_eq_min]
  · rename_i hfind
    have hnone := List.find?_eq_none.mp hfind d hd
    simp [hgid] at hnone

/-- Whether the lower of two live members is the elected host. -/
theorem isSourceHost_min_iff {g : Group} (ha : a ∈ g.liveMembers live)
    (hb : b ∈ g.liveMembers live) :
    IsSourceHost live g (some (min a b)) ↔
      (∀ pin ∈ g.pinnedSourceHost, pin ∈ g.liveMembers live → pin = min a b) ∧
      ((∀ pin ∈ g.pinnedSourceHost, pin ∉ g.liveMembers live) →
        ∀ m ∈ g.liveMembers live, min a b ≤ m) := by
  have hmin : min a b ∈ g.liveMembers live := by
    rcases min_choice a b with h | h
    · rwa [h]
    · rwa [h]
  constructor
  · intro h
    cases h with
    | pinned hpin hlive =>
      rw [hpin]
      refine ⟨by rintro _ ⟨⟩ _; rfl, ?_⟩
      intro hno
      exact absurd hlive (hno _ rfl)
    | lowest hno hleast =>
      exact ⟨fun pin hpin hlive => absurd hlive (hno pin hpin), fun _ m hm => hleast.2 hm⟩
  · rintro ⟨hpinned, hlowest⟩
    by_cases hno : ∀ pin ∈ g.pinnedSourceHost, pin ∉ g.liveMembers live
    · exact .lowest hno ⟨hmin, hlowest hno⟩
    · push Not at hno
      obtain ⟨pin, hpin, hlive⟩ := hno
      obtain rfl := hpinned pin hpin hlive
      exact .pinned hpin hmin

/-- Two members that both claim a group and see each other live. Each keeps
the host the election picks over the same live members exactly when the
operator's pin, if it is live, is the lower claimant, and otherwise no live
member is below both. -/
theorem keptHost_eq_elected_iff (g : Group) (live : Finset String) (a b : String)
    (mirrorA mirrorB : Elections) (hne : a ≠ b)
    (ha : a ∈ g.liveMembers live) (hb : b ∈ g.liveMembers live)
    (hclaimA : sourceHostFor mirrorA g.groupId = some a)
    (hclaimB : sourceHostFor mirrorB g.groupId = some b) :
    (keptHost mirrorA b (claimedSourceHostGroups b mirrorB) g.groupId = newSourceHost live g ∧
      keptHost mirrorB a (claimedSourceHostGroups a mirrorA) g.groupId = newSourceHost live g) ↔
    (∀ pin ∈ g.pinnedSourceHost, pin ∈ g.liveMembers live → pin = min a b) ∧
      ((∀ pin ∈ g.pinnedSourceHost, pin ∉ g.liveMembers live) →
        ∀ m ∈ g.liveMembers live, min a b ≤ m) := by
  rw [keptHost_conflict (mem_claimed.mpr hclaimB) hclaimA hne,
    keptHost_conflict (mem_claimed.mpr hclaimA) hclaimB hne.symm, min_comm b a, and_self,
    ← isSourceHost_min_iff ha hb]
  constructor
  · intro h
    rw [h]
    exact newSourceHost_spec live g
  · intro h
    exact h.unique (newSourceHost_spec live g)

def claimBy (host : String) : Elections := AList.singleton "g" ⟨"g", some host, 2, 0⟩

def kitchen (pin : Option String) : Group := ⟨"g", "Kitchen", ["dev-b", "dev-a"], pin⟩

theorem keptHost_eq_elected_unpinned :
    keptHost (claimBy "dev-a") "dev-b" (claimedSourceHostGroups "dev-b" (claimBy "dev-b")) "g" =
        newSourceHost {"dev-a", "dev-b"} (kitchen none) ∧
      keptHost (claimBy "dev-b") "dev-a" (claimedSourceHostGroups "dev-a" (claimBy "dev-a")) "g" =
        newSourceHost {"dev-a", "dev-b"} (kitchen none) := by
  refine (keptHost_eq_elected_iff (kitchen none) {"dev-a", "dev-b"} "dev-a" "dev-b" _ _
    (by decide) (by simp [Group.liveMembers, kitchen]) (by simp [Group.liveMembers, kitchen])
    (by decide) (by decide)).mpr ⟨by simp [kitchen], ?_⟩
  rintro - m ⟨hm, -⟩
  rcases List.mem_cons.mp hm with rfl | hm
  · decide
  · obtain rfl := List.mem_singleton.mp hm
    decide

/-- The operator pins the higher of the two claimants. -/
theorem keptHost_ne_elected_pinned :
    keptHost (claimBy "dev-a") "dev-b" (claimedSourceHostGroups "dev-b" (claimBy "dev-b")) "g" =
        some "dev-a" ∧
      keptHost (claimBy "dev-b") "dev-a" (claimedSourceHostGroups "dev-a" (claimBy "dev-a")) "g" =
        some "dev-a" ∧
      newSourceHost {"dev-a", "dev-b"} (kitchen (some "dev-b")) = some "dev-b" := by
  decide

end EvoAudio.Multiroom
