import EvoAudio.Lib.FixedWidth
import EvoAudio.Multiroom.SyncProbes
import Mathlib.Algebra.Order.Ring.Cast
import Mathlib.Tactic.Abel
import Mathlib.Data.Rat.Cast.Order
import Mathlib.Tactic.Linarith
import Mathlib.Tactic.NormNum

/-!
# The clock sample of a sync response

`handle_sync_response` as a whole: the pending probe it takes out, the sample
it hands to the clock and the clock fields of the connection. The sample is an
offset estimated from the middle of the round trip, with half the round trip as
its uncertainty, all in whole milliseconds and in `i64` and `u32` arithmetic
that wraps.
-/

namespace EvoAudio.Multiroom.ClockSamples

open FixedWidth
open SyncProbes (Key PendingProbe SyncSample asI64 syncSample)

/-- The clock fields of `PeerConnectionInfo`. -/
structure ClockInfo where
  lastSyncOffsetMs : Option Int
  lastSyncAtMs : Nat
  deriving DecidableEq, Repr

/-- What the handler reads and writes of the audio plane. `samples` are the ones
handed to the clock so far. -/
structure Plane where
  pendingProbes : AList fun _ : Key => PendingProbe
  samples : List SyncSample
  connections : AList fun _ : String => ClockInfo
  deriving DecidableEq

namespace Plane

def recordSyncSample (s : Plane) (sample : SyncSample) : Plane :=
  { s with samples := s.samples ++ [sample] }

/-- A peer that has left in the meantime has no fields to update. -/
def updateConnection (s : Plane) (peerId : String) (info : ClockInfo) : Plane :=
  match s.connections.lookup peerId with
  | some _ => { s with connections := s.connections.insert peerId info }
  | none => s

def handleSyncResponse (s : Plane) (peerId groupId : String) (t1Ms t2Ms t4Ms : Nat) : Plane :=
  let taken := { s with pendingProbes := s.pendingProbes.erase (peerId, groupId) }
  match s.pendingProbes.lookup (peerId, groupId) with
  | none => taken
  | some pending =>
    -- the echo is looked at when the probe is out of the table already
    if pending.t1Ms ≠ t1Ms then taken
    else
      let sample := syncSample (peerId, groupId) pending t2Ms t4Ms
      (taken.recordSyncSample sample).updateConnection peerId ⟨some sample.offsetMs, t4Ms⟩

end Plane

-- ---------------------------------------------------------------------------
-- What a response does to the tables
-- ---------------------------------------------------------------------------

section Handling

variable {s : Plane} {peerId groupId : String} {t1Ms t2Ms t4Ms : Nat}

@[simp] theorem updateConnection_pendingProbes :
    (s.updateConnection peerId info).pendingProbes = s.pendingProbes := by
  unfold Plane.updateConnection
  split <;> rfl

@[simp] theorem updateConnection_samples :
    (s.updateConnection peerId info).samples = s.samples := by
  unfold Plane.updateConnection
  split <;> rfl

/-- However it ends, no probe is pending for the peer and the group. -/
theorem handleSyncResponse_pendingProbes :
    (s.handleSyncResponse peerId groupId t1Ms t2Ms t4Ms).pendingProbes =
      s.pendingProbes.erase (peerId, groupId) := by
  unfold Plane.handleSyncResponse
  dsimp only
  split
  · rfl
  · split
    · rfl
    · simp [Plane.recordSyncSample]

theorem handleSyncResponse_missing (h : s.pendingProbes.lookup (peerId, groupId) = none) :
    s.handleSyncResponse peerId groupId t1Ms t2Ms t4Ms = s := by
  have herase : s.pendingProbes.erase (peerId, groupId) = s.pendingProbes := by
    apply AList.ext
    exact List.kerase_of_notMem_keys (AList.lookup_eq_none.mp h)
  simp [Plane.handleSyncResponse, h, herase]

/-- The response that echoes the pending probe is the one that is sampled. -/
theorem handleSyncResponse_samples :
    (s.handleSyncResponse peerId groupId t1Ms t2Ms t4Ms).samples = s.samples ++
      ((s.pendingProbes.lookup (peerId, groupId)).filter (·.t1Ms == t1Ms)).toList.map
        (syncSample (peerId, groupId) · t2Ms t4Ms) := by
  unfold Plane.handleSyncResponse
  dsimp only
  split
  next h => simp [h]
  next pending h =>
    split
    next hne => simp [h, hne]
    next heq =>
      have hecho : pending.t1Ms = t1Ms := by simpa using heq
      simp [h, hecho, Option.filter, Plane.recordSyncSample]

/-- The handler and the first half of it that runs next to the probe passes. -/
theorem handleSyncResponse_takePending (plane : SyncProbes.State)
    (h : plane.pending = s.pendingProbes) :
    (plane.takePending (peerId, groupId) t1Ms t2Ms t4Ms).pending =
        (s.handleSyncResponse peerId groupId t1Ms t2Ms t4Ms).pendingProbes ∧
      ∃ own, (plane.takePending (peerId, groupId) t1Ms t2Ms t4Ms).recording =
          plane.recording ++ own.map (plane.handled.length, ·) ∧
        (s.handleSyncResponse peerId groupId t1Ms t2Ms t4Ms).samples = s.samples ++ own := by
  rw [handleSyncResponse_pendingProbes, handleSyncResponse_samples]
  unfold SyncProbes.State.takePending
  rw [h]
  dsimp only
  split
  next hnone => exact ⟨rfl, [], by simp, by simp [hnone]⟩
  next pending hpending =>
    split
    next hne => exact ⟨rfl, [], by simp, by simp [hpending, hne]⟩
    next heq =>
      have hecho : pending.t1Ms = t1Ms := by simpa using heq
      refine ⟨rfl, [syncSample (peerId, groupId) pending t2Ms t4Ms], rfl, ?_⟩
      simp [hpending, hecho, Option.filter]

end Handling

-- ---------------------------------------------------------------------------
-- Responses that do not echo the probe
-- ---------------------------------------------------------------------------

/-- A response, whether it echoes the probe or not, changes nothing and leaves the
echo to be sampled behind it exactly when no probe is pending for its peer and
group: the handler takes the probe out before it looks at the echo. -/
theorem response_ignored_iff (s : Plane) (peerId groupId : String) (t1Ms t2Ms t4Ms : Nat) :
    (s.handleSyncResponse peerId groupId t1Ms t2Ms t4Ms = s ∧
      ∀ probe ∈ s.pendingProbes.lookup (peerId, groupId), ∀ t2Ms' t4Ms',
        ((s.handleSyncResponse peerId groupId t1Ms t2Ms t4Ms).handleSyncResponse peerId groupId
          probe.t1Ms t2Ms' t4Ms').samples =
          s.samples ++ [syncSample (peerId, groupId) probe t2Ms' t4Ms']) ↔
      s.pendingProbes.lookup (peerId, groupId) = none := by
  constructor
  · rintro ⟨hsame, -⟩
    have htable := congrArg (fun s => s.pendingProbes.lookup (peerId, groupId)) hsame
    simp only [handleSyncResponse_pendingProbes, AList.lookup_erase] at htable
    exact htable.symm
  · intro hnone
    refine ⟨handleSyncResponse_missing hnone, ?_⟩
    simp [hnone]

/-- A probe to the host is outstanding. -/
def probed : Plane where
  pendingProbes := AList.insert ("host", "group") ⟨2000, 2000⟩ ∅
  samples := []
  connections := AList.insert "host" ⟨none, 0⟩ ∅

/-- The response to an older probe is not sampled, and neither is the genuine
one that comes behind it. -/
theorem stale_response_unseats_probe :
    let stale := probed.handleSyncResponse "host" "group" 1000 5002 2001
    probed.pendingProbes.lookup ("host", "group") = some ⟨2000, 2000⟩ ∧
      stale.pendingProbes.lookup ("host", "group") = none ∧
      (stale.handleSyncResponse "host" "group" 2000 6003 2004).samples = [] ∧
      (probed.handleSyncResponse "host" "group" 2000 6003 2004).samples =
        [syncSample ("host", "group") ⟨2000, 2000⟩ 6003 2004] := by
  decide

-- ---------------------------------------------------------------------------
-- The arithmetic of a sample
-- ---------------------------------------------------------------------------

/-- The offset wraps once, and the uncertainty keeps the low half. -/
theorem syncSample_eq (key : Key) (pending : PendingProbe) (t2Ms t4Ms : Nat) :
    let halfRtt : Nat := (t4Ms - pending.sentAtMs) / 2
    syncSample key pending t2Ms t4Ms =
      ⟨key.2, key.1, signed 64 (t2Ms - (pending.t1Ms + halfRtt)), halfRtt % 2 ^ 32, t4Ms⟩ := by
  intro halfRtt
  have hwrap : asI64 = signed 64 := rfl
  have hoffset : signed 64 (signed 64 t2Ms - signed 64 (signed 64 pending.t1Ms +
      signed 64 halfRtt)) = signed 64 (t2Ms - (pending.t1Ms + halfRtt)) := by
    rw [signed_signed_add, Int.add_comm _ (signed 64 _), signed_signed_add, signed_sub_signed,
      Int.add_comm (halfRtt : Int)]
  have hhalf : (signed 64 halfRtt % 2 ^ 32).toNat = halfRtt % 2 ^ 32 := by
    obtain ⟨k, hk⟩ := signed_eq_add 64 halfRtt
    omega
  simp only [syncSample, hwrap]
  rw [hoffset, hhalf]

/-- The sample with every operation and every cast checked. `rtt` saturates. -/
def checkedSample (key : Key) (pending : PendingProbe) (t2Ms t4Ms : Nat) : Option SyncSample := do
  let rtt := t4Ms - pending.sentAtMs
  let halfRtt ← signed? 64 (rtt / 2 : Nat)
  let t2 ← signed? 64 t2Ms
  let t1 ← signed? 64 pending.t1Ms
  let middle ← signed? 64 (t1 + halfRtt)
  let offsetMs ← signed? 64 (t2 - middle)
  let uncertaintyMs ← unsigned? 32 halfRtt
  return ⟨key.2, key.1, offsetMs, uncertaintyMs.toNat, t4Ms⟩

/-- What is computed for a response meets no overflow and no lossy cast. -/
def Plane.Exact (s : Plane) (peerId groupId : String) (t1Ms t2Ms t4Ms : Nat) : Prop :=
  ∀ pending ∈ s.pendingProbes.lookup (peerId, groupId), pending.t1Ms = t1Ms →
    (checkedSample (peerId, groupId) pending t2Ms t4Ms).isSome

theorem checkedSample_eq_some {key : Key} {pending : PendingProbe} {sample : SyncSample} :
    checkedSample key pending t2Ms t4Ms = some sample ↔
      let halfRtt : Nat := (t4Ms - pending.sentAtMs) / 2
      (t2Ms < 2 ^ 63 ∧ pending.t1Ms + halfRtt < 2 ^ 63 ∧ halfRtt < 2 ^ 32) ∧
        sample = ⟨key.2, key.1, t2Ms - (pending.t1Ms + halfRtt), halfRtt, t4Ms⟩ := by
  simp only [checkedSample, Option.bind_eq_bind, Option.pure_def, Option.bind_eq_some_iff,
    signed?_eq_some, unsigned?_eq_some, Option.some.injEq, Signed, Unsigned]
  constructor
  · rintro ⟨_, ⟨-, rfl⟩, _, ⟨ht2, rfl⟩, _, ⟨-, rfl⟩, _, ⟨hmiddle, rfl⟩, _, ⟨-, rfl⟩, _,
      ⟨hhalf, rfl⟩, rfl⟩
    refine ⟨⟨?_, ?_, ?_⟩, rfl⟩ <;> omega
  · rintro ⟨⟨ht2, hmiddle, hhalf⟩, rfl⟩
    refine ⟨_, ⟨?_, rfl⟩, _, ⟨?_, rfl⟩, _, ⟨?_, rfl⟩, _, ⟨?_, rfl⟩, _, ⟨?_, rfl⟩, _,
      ⟨?_, rfl⟩, rfl⟩ <;> omega

/-- Where nothing is refused, the handler's own arithmetic comes to the same. -/
theorem syncSample_of_checked {key : Key} {pending : PendingProbe} {sample : SyncSample}
    (h : checkedSample key pending t2Ms t4Ms = some sample) :
    syncSample key pending t2Ms t4Ms = sample := by
  obtain ⟨⟨ht2, hmiddle, hhalf⟩, rfl⟩ := checkedSample_eq_some.mp h
  rw [syncSample_eq, Nat.mod_eq_of_lt hhalf, signed_of_fits (by decide)]
  unfold Signed
  omega

/-- No operation of the handler overflows and no cast loses a value exactly when
the peer's clock and the middle of the round trip are below `2 ^ 63`, and half
the round trip is below `2 ^ 32`. -/
theorem exact_iff (s : Plane) (peerId groupId : String) (t1Ms t2Ms t4Ms : Nat) :
    s.Exact peerId groupId t1Ms t2Ms t4Ms ↔
      ∀ pending ∈ s.pendingProbes.lookup (peerId, groupId), pending.t1Ms = t1Ms →
        t2Ms < 2 ^ 63 ∧ t1Ms + (t4Ms - pending.sentAtMs) / 2 < 2 ^ 63 ∧
          (t4Ms - pending.sentAtMs) / 2 < 2 ^ 32 := by
  unfold Plane.Exact
  constructor
  · intro h pending hpending hecho
    obtain ⟨sample, hsample⟩ := Option.isSome_iff_exists.mp (h pending hpending hecho)
    exact hecho ▸ (checkedSample_eq_some.mp hsample).1
  · intro h pending hpending hecho
    obtain hfits := h pending hpending hecho
    rw [← hecho] at hfits
    exact Option.isSome_iff_exists.mpr ⟨_, checkedSample_eq_some.mpr ⟨hfits, rfl⟩⟩

/-- A peer's clock of `2 ^ 63` milliseconds is taken for a negative one, and the
offset from it overflows. -/
theorem peer_clock_overflows :
    ¬ probed.Exact "host" "group" 2000 (2 ^ 63) 2004 ∧
      ¬ Signed 64 (asI64 (2 ^ 63 : Nat) - (2000 + 2)) := by
  constructor
  · intro h
    have hchecked := h ⟨2000, 2000⟩ (by decide) rfl
    revert hchecked
    decide
  · decide

-- ---------------------------------------------------------------------------
-- How far off an offset is
-- ---------------------------------------------------------------------------

section Offsets

variable {α : Type} [CommRing α] [LinearOrder α]

/-- A clock that shows this time is read in whole milliseconds. -/
def Reads (time : α) (ms : Nat) : Prop := (ms : α) ≤ time ∧ time < ms + 1

/-- A probe and its response. The local clock shows `sent` when `t1` is read,
the peer reads `t2` a time `out` later from a clock that is `theta` ahead, and
the local clock is read as `t4` a time `back` later. -/
structure Exchange (α : Type) [CommRing α] [LinearOrder α] where
  sent : α
  out : α
  back : α
  theta : α
  t1Ms : Nat
  t2Ms : Nat
  t4Ms : Nat
  out_nonneg : 0 ≤ out
  back_nonneg : 0 ≤ back
  reads_t1 : Reads sent t1Ms
  reads_t2 : Reads (sent + out + theta) t2Ms
  reads_t4 : Reads (sent + out + back) t4Ms
  t4_fits : t4Ms < 2 ^ 64

namespace Exchange

variable (e : Exchange α)

def halfRtt : Nat := (e.t4Ms - e.t1Ms) / 2

/-- What reading whole milliseconds takes off the local clock. -/
def lostT1 : α := e.sent - e.t1Ms

/-- What it takes off the peer's. -/
def lostT2 : α := e.sent + e.out + e.theta - e.t2Ms

/-- The sample of a probe that is sent when `t1` is read. -/
def sample (key : Key) : SyncSample := syncSample key ⟨e.t1Ms, e.t1Ms⟩ e.t2Ms e.t4Ms

/-- The recorded offset is off by no more than the recorded uncertainty. -/
def Bounded (key : Key) : Prop :=
  |((e.sample key).offsetMs : α) - e.theta| ≤ ((e.sample key).uncertaintyMs : α)

theorem halfRtt_lt : e.halfRtt < 2 ^ 63 := by
  have hfits := e.t4_fits
  unfold halfRtt
  omega

theorem sample_eq (key : Key) :
    e.sample key = ⟨key.2, key.1, signed 64 (e.t2Ms - (e.t1Ms + e.halfRtt)), e.halfRtt % 2 ^ 32,
      e.t4Ms⟩ :=
  syncSample_eq key ⟨e.t1Ms, e.t1Ms⟩ e.t2Ms e.t4Ms

/-- An estimate is off by the forward delay, as the readings show it, against
the half round trip. -/
theorem estimate_sub_theta :
    ((e.t2Ms - (e.t1Ms + e.halfRtt) : Int) : α) - e.theta =
      e.out + e.lostT1 - e.lostT2 - e.halfRtt := by
  unfold lostT1 lostT2
  push_cast
  abel

variable [IsStrictOrderedRing α]

theorem t1_le_t4 : e.t1Ms ≤ e.t4Ms := by
  have hlt : (e.t1Ms : α) < e.t4Ms + 1 := by
    linarith [e.reads_t1.1, e.reads_t4.2, e.out_nonneg, e.back_nonneg]
  have hlt' : e.t1Ms < e.t4Ms + 1 := by exact_mod_cast hlt
  omega

theorem rtt_le : (e.t4Ms : α) - e.t1Ms ≤ 2 * e.halfRtt + 1 := by
  have hle := e.t1_le_t4
  have hnat : e.t4Ms ≤ e.t1Ms + (2 * e.halfRtt + 1) := by
    unfold halfRtt
    omega
  have hcast : (e.t4Ms : α) ≤ e.t1Ms + (2 * e.halfRtt + 1) := by exact_mod_cast hnat
  linarith

/-- The forward delay as the readings show it lies between the rounding errors. -/
theorem forward_bounds :
    -1 < e.out + e.lostT1 - e.lostT2 ∧ e.out + e.lostT1 - e.lostT2 < 2 * e.halfRtt + 2 := by
  have hrtt := e.rtt_le
  unfold lostT1 lostT2
  constructor
  · linarith [e.reads_t1.1, e.reads_t2.2, e.out_nonneg]
  · linarith [e.reads_t1.1, e.reads_t2.1, e.reads_t4.2, e.back_nonneg]

/-- An offset that wraps is off by more than any uncertainty. -/
theorem not_bounded_of_wraps (key : Key) (h : ¬ Signed 64 (e.t2Ms - (e.t1Ms + e.halfRtt))) :
    ¬ e.Bounded key := by
  obtain ⟨k, hk⟩ := signed_eq_add 64 (e.t2Ms - (e.t1Ms + e.halfRtt))
  have hzero : k ≠ 0 := by
    rintro rfl
    rw [zero_mul, add_zero] at hk
    exact h (hk ▸ signed_fits (by decide) _)
  have hoff : ((signed 64 (e.t2Ms - (e.t1Ms + e.halfRtt)) : Int) : α) - e.theta =
      e.out + e.lostT1 - e.lostT2 - e.halfRtt + k * 2 ^ 64 := by
    rw [hk, Int.cast_add, add_sub_right_comm, estimate_sub_theta]
    simp only [Int.cast_mul, Int.cast_pow, Int.cast_ofNat]
  have hhalf : (e.halfRtt : α) + 1 ≤ 2 ^ 63 := by exact_mod_cast e.halfRtt_lt
  have hkept : ((e.halfRtt % 2 ^ 32 : Nat) : α) < 2 ^ 32 := by
    exact_mod_cast Nat.mod_lt e.halfRtt (by decide)
  obtain ⟨hlow, hhigh⟩ := e.forward_bounds
  intro hbounded
  rw [Bounded, sample_eq, hoff, abs_le] at hbounded
  -- a whole turn is more than both half round trips together
  rcases lt_or_gt_of_ne hzero with hneg | hpos
  · have hturn : (k : α) ≤ -1 := by exact_mod_cast Int.le_sub_one_of_lt hneg
    linarith [hbounded.1]
  · have hturn : (1 : α) ≤ k := by exact_mod_cast hpos
    linarith [hbounded.2]

/-- The offset is within its uncertainty exactly when the estimate fits an `i64`
and the forward delay, as the readings show it, is no further from the half
round trip than what a `u32` keeps of that. -/
theorem bounded_iff (key : Key) :
    e.Bounded key ↔ Signed 64 (e.t2Ms - (e.t1Ms + e.halfRtt)) ∧
      e.lostT2 + e.halfRtt ≤ e.out + e.lostT1 + (e.halfRtt % 2 ^ 32 : Nat) ∧
      e.out + e.lostT1 ≤ e.lostT2 + e.halfRtt + (e.halfRtt % 2 ^ 32 : Nat) := by
  by_cases hfits : Signed 64 (e.t2Ms - (e.t1Ms + e.halfRtt))
  · rw [Bounded, sample_eq, signed_of_fits (by decide) hfits, estimate_sub_theta, abs_le]
    constructor
    · rintro ⟨hlow, hhigh⟩
      refine ⟨hfits, ?_, ?_⟩ <;> linarith
    · rintro ⟨-, hlow, hhigh⟩
      constructor <;> linarith
  · exact iff_of_false (e.not_bounded_of_wraps key hfits) fun h => hfits h.1

end Exchange

end Offsets

/-- Half a millisecond is lost of every reading, and two milliseconds go by
each way. -/
def evenTrip : Exchange ℚ where
  sent := 2000 + 1 / 2
  out := 2
  back := 2
  theta := 4000
  t1Ms := 2000
  t2Ms := 6002
  t4Ms := 2004
  out_nonneg := by norm_num
  back_nonneg := by norm_num
  reads_t1 := by norm_num [Reads]
  reads_t2 := by norm_num [Reads]
  reads_t4 := by norm_num [Reads]
  t4_fits := by norm_num

theorem bounded_iff_even_trip : evenTrip.Bounded ("host", "group") := by
  refine (evenTrip.bounded_iff _).mpr ⟨by decide, ?_, ?_⟩ <;>
    norm_num [Exchange.lostT1, Exchange.lostT2, Exchange.halfRtt, evenTrip]

/-- The response takes no time back, and the probe an odd number of milliseconds
out. -/
def oddTrip : Exchange ℚ where
  sent := 2000
  out := 1
  back := 0
  theta := 0
  t1Ms := 2000
  t2Ms := 2001
  t4Ms := 2001
  out_nonneg := by norm_num
  back_nonneg := by norm_num
  reads_t1 := by norm_num [Reads]
  reads_t2 := by norm_num [Reads]
  reads_t4 := by norm_num [Reads]
  t4_fits := by norm_num

/-- The clocks agree, and the sample is one millisecond off with no uncertainty. -/
theorem odd_trip_not_bounded :
    ¬ oddTrip.Bounded ("host", "group") ∧
      oddTrip.sample ("host", "group") = ⟨"group", "host", 1, 0, 2001⟩ := by
  have hsample : oddTrip.sample ("host", "group") = ⟨"group", "host", 1, 0, 2001⟩ := by
    change syncSample ("host", "group") ⟨2000, 2000⟩ 2001 2001 = _
    decide
  refine ⟨?_, hsample⟩
  rw [Exchange.Bounded, hsample]
  norm_num [oddTrip]

end EvoAudio.Multiroom.ClockSamples
