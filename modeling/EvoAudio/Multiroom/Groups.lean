import Mathlib.Data.Finset.Basic
import Mathlib.Order.Bounds.Basic

/-!
# Groups

The group record of the framework's group store, and the set of its members
that are live in some view of the network. The store keeps one record for
each group id, and lists its records in an order of its own: a record that
is written may take any place in it.
-/

namespace EvoAudio.Multiroom

structure Group where
  groupId : String
  displayName : String
  members : List String
  pinnedSourceHost : Option String
  deriving DecidableEq, Repr

structure Groups where
  list : List Group
  nodup : (list.map Group.groupId).Nodup

def Groups.ids (groups : Groups) : List String := groups.list.map Group.groupId

def Group.liveMembers (live : Finset String) (g : Group) : Set String :=
  {m | m ∈ g.members ∧ m ∈ live}

def Groups.find (groups : Groups) (gid : String) : Option Group :=
  groups.list.find? (·.groupId = gid)

def Groups.others (groups : Groups) (gid : String) : List Group :=
  groups.list.filter (·.groupId ≠ gid)

theorem Groups.others_nodup (groups : Groups) (gid : String) :
    ((groups.others gid).map Group.groupId).Nodup :=
  groups.nodup.sublist (List.filter_sublist.map _)

def Groups.put (groups : Groups) (g : Group) (pos : Nat) : Groups where
  list := (groups.others g.groupId).take pos ++ g :: (groups.others g.groupId).drop pos
  nodup := by
    have hperm : ((groups.others g.groupId).take pos ++ g :: (groups.others g.groupId).drop pos).Perm
        (g :: groups.others g.groupId) := by
      refine List.perm_middle.trans ?_
      rw [List.take_append_drop]
    rw [(hperm.map Group.groupId).nodup_iff, List.map_cons, List.nodup_cons]
    refine ⟨?_, groups.others_nodup g.groupId⟩
    simp [Groups.others]

def Groups.erase (groups : Groups) (gid : String) : Groups where
  list := groups.others gid
  nodup := groups.others_nodup gid

/-- `list_for_device`. -/
def Groups.forDevice (groups : Groups) (device : String) : List Group :=
  groups.list.filter fun g => device ∈ g.members

/-- Writing a record that leaves the device out does not change which group
is listed first for it, unless it was this one. -/
theorem Groups.head?_forDevice_put (groups : Groups) (pos : Nat) (hout : device ∉ g.members)
    (hfirst : ∀ first, (groups.forDevice device).head? = some first → first.groupId ≠ g.groupId) :
    ((groups.put g pos).forDevice device).head? = (groups.forDevice device).head? := by
  have hput : (groups.put g pos).forDevice device =
      (groups.forDevice device).filter (·.groupId ≠ g.groupId) := by
    rw [Groups.forDevice, Groups.put, List.filter_append, List.filter_cons_of_neg (by simpa using hout),
      ← List.filter_append, List.take_append_drop]
    simp only [Groups.others, Groups.forDevice, List.filter_filter, Bool.and_comm]
  rw [hput]
  cases h : groups.forDevice device with
  | nil => rfl
  | cons first rest =>
    rw [List.filter_cons_of_pos (by simpa using hfirst first (by rw [h]; rfl))]
    rfl

end EvoAudio.Multiroom
