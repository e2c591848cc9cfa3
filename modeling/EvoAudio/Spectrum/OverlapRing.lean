import Mathlib.Algebra.Order.Group.Nat
import Mathlib.Data.List.Basic

/-!
# The overlap ring

The capture loop of `audio.terminus/src/capture.rs` reads the loopback a hop at a time and
analyses a longer window, which slides by a hop. Until enough hops have been read the ring is
filled from its start and nothing is analysed.
-/

namespace EvoAudio.Spectrum

def inputChannels : Nat := 2

/-- `HOP_SIZE` and `FFT_WINDOW`, in frames -/
structure Geometry where
  hopSize : Nat
  fftWindow : Nat
  positive : 0 < hopSize
  fits : hopSize ≤ fftWindow
  whole : hopSize ∣ fftWindow

namespace Geometry

def device : Geometry := ⟨1024, 16384, by decide, by decide, by decide⟩

variable (g : Geometry)

def hopSamples : Nat := g.hopSize * inputChannels

def windowSamples : Nat := g.fftWindow * inputChannels

/-- How many hops a window has. -/
def overlap : Nat := g.fftWindow / g.hopSize

theorem fftWindow_eq : g.fftWindow = g.overlap * g.hopSize := (Nat.div_mul_cancel g.whole).symm

theorem overlap_pos : 0 < g.overlap := Nat.div_pos g.fits g.positive

theorem windowSamples_eq : g.windowSamples = g.overlap * g.hopSamples := by
  rw [windowSamples, hopSamples, fftWindow_eq, Nat.mul_assoc]

end Geometry

structure OverlapRing where
  ring : List Int
  ringFrames : Nat
  deriving DecidableEq, Repr

namespace OverlapRing

variable (g : Geometry)

def initial : OverlapRing := ⟨List.replicate g.windowSamples 0, 0⟩

/-- The ring slides by a hop, or takes the hop behind the ones it has. -/
def push (r : OverlapRing) (hop : List Int) : OverlapRing :=
  if g.fftWindow ≤ r.ringFrames then { r with ring := r.ring.drop g.hopSamples ++ hop }
  else
    let start := r.ringFrames * inputChannels
    let stop := start + g.hopSamples
    { ring := if stop ≤ g.windowSamples then r.ring.take start ++ hop ++ r.ring.drop stop else r.ring
      ringFrames := min (r.ringFrames + g.hopSize) g.fftWindow }

/-- Whether there is a window to analyse. -/
def ready (r : OverlapRing) : Bool := g.fftWindow ≤ r.ringFrames

variable {g} {hops : List (List Int)}

theorem length_flatten_of_hops (h : ∀ hop ∈ hops, hop.length = g.hopSamples) :
    hops.flatten.length = hops.length * g.hopSamples := by
  rw [List.length_flatten, List.map_congr_left h, List.map_const', List.sum_replicate_nat]

/-- The ring begins with the hops it was given, and slides once it is full. -/
structure Holds (g : Geometry) (r : OverlapRing) (hops : List (List Int)) : Prop where
  frames : r.ringFrames = min hops.length g.overlap * g.hopSize
  length : r.ring.length = g.windowSamples
  begins : r.ring.take (min hops.length g.overlap * g.hopSamples) =
    (hops.take g.overlap).reverse.flatten

theorem holds_initial : Holds g (initial g) [] where
  frames := by simp [initial]
  length := by simp [initial]
  begins := by simp

theorem Holds.full_iff {r : OverlapRing} (h : Holds g r hops) :
    g.fftWindow ≤ r.ringFrames ↔ g.overlap ≤ hops.length := by
  rw [h.frames, g.fftWindow_eq, Nat.mul_le_mul_right_iff g.positive, le_min_iff]
  exact and_iff_left le_rfl

/-- A full ring holds the window. -/
theorem Holds.window {r : OverlapRing} (h : Holds g r hops) (hfull : g.overlap ≤ hops.length) :
    r.ring = (hops.take g.overlap).reverse.flatten := by
  have hbegins := h.begins
  rwa [min_eq_right hfull, ← g.windowSamples_eq, ← h.length, List.take_length] at hbegins

theorem Holds.push_full {r : OverlapRing} (h : Holds g r hops) (hfull : g.overlap ≤ hops.length)
    (hhops : ∀ hop ∈ hops, hop.length = g.hopSamples) (hhop : hop.length = g.hopSamples) :
    Holds g (r.push g hop) (hop :: hops) := by
  obtain ⟨n, hn⟩ := Nat.exists_eq_add_of_lt g.overlap_pos
  rw [Nat.zero_add] at hn
  have hpush : r.push g hop = { r with ring := r.ring.drop g.hopSamples ++ hop } :=
    if_pos (h.full_iff.mpr hfull)
  have hmin : min (hop :: hops).length g.overlap = g.overlap :=
    min_eq_right (hfull.trans (Nat.le_succ _))
  have hslid : r.ring.drop g.hopSamples ++ hop = ((hop :: hops).take g.overlap).reverse.flatten := by
    have hlast : n < hops.length := by omega
    have holdest := hhops hops[n] (List.getElem_mem hlast)
    rw [h.window hfull, hn, List.take_succ_eq_append_getElem hlast, List.reverse_append,
      List.reverse_singleton, List.singleton_append, List.flatten_cons, List.take_succ_cons,
      List.reverse_cons, List.flatten_append, List.flatten_singleton, ← holdest,
      List.drop_left]
  rw [hpush]
  refine ⟨?_, ?_, ?_⟩
  · rw [h.frames, min_eq_right hfull, hmin]
  · have hlength := h.length
    have hroom : g.hopSamples ≤ g.windowSamples := by
      rw [g.windowSamples_eq]
      exact Nat.le_mul_of_pos_left _ g.overlap_pos
    simp only [List.length_append, List.length_drop, hhop, hlength]
    omega
  · rw [hmin, hslid]
    refine List.take_of_length_le ?_
    rw [length_flatten_of_hops, List.length_reverse, List.length_take]
    · exact Nat.mul_le_mul_right _ (min_le_left _ _)
    · intro hop' hmem
      rcases List.mem_cons.mp (List.mem_of_mem_take (List.mem_reverse.mp hmem)) with rfl | hmem
      · exact hhop
      · exact hhops hop' hmem

theorem Holds.push_filling {r : OverlapRing} (h : Holds g r hops) (hroom : hops.length < g.overlap)
    (hhops : ∀ hop ∈ hops, hop.length = g.hopSamples) (hhop : hop.length = g.hopSamples) :
    Holds g (r.push g hop) (hop :: hops) := by
  have hless := min_eq_left hroom.le
  have hmore : min (hop :: hops).length g.overlap = hops.length + 1 := min_eq_left hroom
  have hframes : r.ringFrames = hops.length * g.hopSize := by rw [h.frames, hless]
  have hstart : r.ringFrames * inputChannels = hops.length * g.hopSamples := by
    rw [hframes, Geometry.hopSamples, Nat.mul_assoc]
  have hstop : hops.length * g.hopSamples + g.hopSamples ≤ g.windowSamples := by
    rw [g.windowSamples_eq, ← Nat.succ_mul]
    exact Nat.mul_le_mul_right _ hroom
  have hbegins := h.begins
  rw [hless, List.take_of_length_le hroom.le] at hbegins
  have hpush : r.push g hop =
      { ring := hops.reverse.flatten ++ hop ++
          r.ring.drop (hops.length * g.hopSamples + g.hopSamples)
        ringFrames := min (r.ringFrames + g.hopSize) g.fftWindow } := by
    rw [push, if_neg (by rw [h.full_iff]; omega)]
    simp only [hstart, if_pos hstop, hbegins]
  have hfilled : (hops.reverse.flatten ++ hop).length = (hops.length + 1) * g.hopSamples := by
    rw [List.length_append, hhop, length_flatten_of_hops, List.length_reverse, Nat.succ_mul]
    exact fun hop' hmem => hhops hop' (List.mem_reverse.mp hmem)
  rw [hpush]
  refine ⟨?_, ?_, ?_⟩
  · change min (r.ringFrames + g.hopSize) g.fftWindow = _
    rw [hmore, hframes, g.fftWindow_eq, ← Nat.succ_mul]
    exact min_eq_left (Nat.mul_le_mul_right g.hopSize hroom)
  · rw [List.length_append, hfilled, List.length_drop, h.length, Nat.succ_mul]
    omega
  · rw [hmore, ← hfilled, List.take_left, List.take_of_length_le (by simpa using Nat.succ_le_of_lt hroom),
      List.reverse_cons, List.flatten_append, List.flatten_singleton]

theorem Holds.push {r : OverlapRing} (h : Holds g r hops)
    (hhops : ∀ hop ∈ hops, hop.length = g.hopSamples) (hhop : hop.length = g.hopSamples) :
    Holds g (r.push g hop) (hop :: hops) := by
  rcases Nat.lt_or_ge hops.length g.overlap with hroom | hfull
  · exact h.push_filling hroom hhops hhop
  · exact h.push_full hfull hhops hhop

end OverlapRing

end EvoAudio.Spectrum
