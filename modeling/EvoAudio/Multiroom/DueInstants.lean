import EvoAudio.Lib.FixedWidth
import EvoAudio.Multiroom.JitterBuffer

/-!
# The instants that frames are due at

The sums of the receiver's scheduler with the types of their operands: whole
milliseconds as a `u64`, and `Instant` and `Duration` of the standard library,
where the seconds of an instant are an `i64`. A sum that leaves its type is
`none`: of the first one an unchecked build keeps what is left of it, the second
one panics in every build.
-/

namespace EvoAudio.Multiroom.Receiver

open FixedWidth

def nanosPerSec : Nat := 1000000000

/-- `std::time::Duration` -/
structure Duration where
  secs : Nat
  nanos : Nat
  nanos_lt : nanos < nanosPerSec
  deriving DecidableEq

def Duration.fromMillis (ms : Nat) : Duration where
  secs := ms / 1000
  nanos := ms % 1000 * 1000000
  nanos_lt := by
    unfold nanosPerSec
    omega

/-- `std::time::Instant`: the seconds and nanoseconds of the monotonic clock. -/
structure Instant where
  secs : Int
  nanos : Nat
  secs_fits : Signed 64 secs
  nanos_lt : nanos < nanosPerSec
  deriving DecidableEq

namespace Instant

def sinceBoot (instant : Instant) : Int := instant.secs * nanosPerSec + instant.nanos

/-- Full nanoseconds are carried over to the seconds. -/
def checkedAdd (instant : Instant) (duration : Duration) : Option Instant :=
  if hsecs : Signed 64 (instant.secs + duration.secs) then
    if hnanos : instant.nanos + duration.nanos < nanosPerSec then
      some ⟨instant.secs + duration.secs, instant.nanos + duration.nanos, hsecs, hnanos⟩
    else if hcarry : Signed 64 (instant.secs + duration.secs + 1) then
      some ⟨instant.secs + duration.secs + 1, instant.nanos + duration.nanos - nanosPerSec, hcarry, by
        have := instant.nanos_lt
        have := duration.nanos_lt
        omega⟩
    else none
  else none

end Instant

/-- `render_at` with every operation checked. -/
def dueInstant (anchorLocal : Instant) (anchorPtsMs leaderMs : Nat) (head : Frame) :
    Option Instant :=
  let offsetMs := head.presentationTimeMs - anchorPtsMs
  if offsetMs + leaderMs < 2 ^ 64 then anchorLocal.checkedAdd (.fromMillis (offsetMs + leaderMs))
  else none

-- ---------------------------------------------------------------------------
-- The sums
-- ---------------------------------------------------------------------------

theorem Duration.fromMillis_nanos (ms : Nat) :
    (fromMillis ms).secs * nanosPerSec + (fromMillis ms).nanos = ms * 1000000 := by
  simp only [fromMillis, nanosPerSec]
  omega

namespace Instant

variable {instant : Instant} {duration : Duration}

/-- The last instant is one nanosecond before `2 ^ 63` seconds. -/
theorem sinceBoot_lt (instant : Instant) : instant.sinceBoot < 2 ^ 63 * nanosPerSec := by
  have hsecs := instant.secs_fits.2
  have hnanos := instant.nanos_lt
  simp only [sinceBoot, nanosPerSec] at *
  omega

theorem sinceBoot_checkedAdd (h : instant.checkedAdd duration = some later) :
    later.sinceBoot =
      instant.sinceBoot + (duration.secs * nanosPerSec + duration.nanos : Nat) := by
  unfold checkedAdd at h
  split_ifs at h with hsecs hnanos hcarry
  · cases h
    simp only [sinceBoot, nanosPerSec]
    omega
  · cases h
    simp only [sinceBoot, nanosPerSec] at hnanos ⊢
    omega

theorem checkedAdd_isSome_iff :
    (instant.checkedAdd duration).isSome ↔
      instant.sinceBoot + (duration.secs * nanosPerSec + duration.nanos : Nat) <
        2 ^ 63 * nanosPerSec := by
  constructor
  · intro h
    obtain ⟨later, hlater⟩ := Option.isSome_iff_exists.mp h
    rw [← sinceBoot_checkedAdd hlater]
    exact later.sinceBoot_lt
  · intro h
    have hlow := instant.secs_fits.1
    unfold checkedAdd
    split_ifs with hsecs hnanos hcarry
    · rfl
    · rfl
    · simp only [sinceBoot, nanosPerSec, Signed] at h hnanos hcarry hlow
      omega
    · simp only [sinceBoot, nanosPerSec, Signed] at h hsecs hlow
      omega

end Instant

-- ---------------------------------------------------------------------------
-- Due instants
-- ---------------------------------------------------------------------------

/-- Where no sum leaves its type, the frame is due when the scheduler says so. -/
theorem sinceBoot_dueInstant {anchorLocal due : Instant} {anchorPtsMs leaderMs : Nat} {head : Frame}
    (h : dueInstant anchorLocal anchorPtsMs leaderMs head = some due) {boot : Nat}
    (hboot : anchorLocal.sinceBoot = boot) :
    due.sinceBoot = renderAt (boot, anchorPtsMs) leaderMs head := by
  simp only [dueInstant] at h
  split at h
  next hfits =>
    rw [Instant.sinceBoot_checkedAdd h, Duration.fromMillis_nanos, hboot, renderAt,
      Nat.mod_eq_of_lt hfits, Nat.cast_add]
  · cases h

/-- The due instant is computed without leaving a type exactly when the offset
and the leader fit a `u64` together and the anchor is that far from the last
instant. -/
theorem dueInstant_total_iff (anchorLocal : Instant) (anchorPtsMs leaderMs : Nat) (head : Frame) :
    (dueInstant anchorLocal anchorPtsMs leaderMs head).isSome ↔
      head.presentationTimeMs - anchorPtsMs + leaderMs < 2 ^ 64 ∧
        anchorLocal.sinceBoot +
            (head.presentationTimeMs - anchorPtsMs + leaderMs : Nat) * 1000000 <
          2 ^ 63 * nanosPerSec := by
  unfold dueInstant
  dsimp only
  split
  next hfits =>
    rw [Instant.checkedAdd_isSome_iff, Duration.fromMillis_nanos, Nat.cast_mul, Nat.cast_ofNat]
    exact ⟨fun h => ⟨hfits, h⟩, And.right⟩
  next hfits => exact ⟨fun h => (Bool.false_ne_true h).elim, fun h => absurd h.1 hfits⟩

/-- The anchor of a stream that has started at boot. -/
def atBoot : Instant := ⟨0, 0, by decide, by decide⟩

/-- With the default leader of 200 ms, the sum for a frame of the far end of the
stream's clock is no `u64`. -/
theorem far_frame_has_no_instant :
    farFrame.presentationTimeMs < 2 ^ 64 ∧ dueInstant atBoot 0 200 farFrame = none := by
  decide

end EvoAudio.Multiroom.Receiver
