import Mathlib.Data.List.Chain

/-!
# The emit throttle

`audio.terminus/src/emit_throttle.rs`: the capture loop asks at every hop whether a frame goes
out, and hops do not fall on the gaps that the demand asks for. The throttle keeps the ideal
instant of the next emit and moves it on by a gap, and by more only after a pause.
-/

namespace EvoAudio.Spectrum

/-- Before the first emit there is no instant. -/
structure EmitThrottle where
  nextEmitAt : Option Nat
  deriving DecidableEq, Repr

def EmitThrottle.new : EmitThrottle := ⟨none⟩

/-- The next ideal instant, when one has come. -/
def advance (scheduled now minGap : Nat) : Nat :=
  if now - scheduled < minGap then scheduled + minGap else now + minGap

def EmitThrottle.shouldEmit (t : EmitThrottle) (now minGap : Nat) : Bool × EmitThrottle :=
  t.nextEmitAt.elim (true, ⟨some (now + minGap)⟩) fun scheduled =>
    if now < scheduled then (false, t) else (true, ⟨some (advance scheduled now minGap)⟩)

/-- The instants among these at which a frame goes out. -/
def EmitThrottle.emits (minGap : Nat) (t : EmitThrottle) : List Nat → List Nat
  | [] => []
  | now :: later =>
    if (t.shouldEmit now minGap).1 then now :: (t.shouldEmit now minGap).2.emits minGap later
    else (t.shouldEmit now minGap).2.emits minGap later

variable {minGap hop now scheduled : Nat} {t : EmitThrottle} {calls : List Nat}

theorem le_advance (h : scheduled ≤ now) :
    now ≤ advance scheduled now minGap ∧ scheduled + minGap ≤ advance scheduled now minGap := by
  rw [advance]
  split_ifs <;> omega

/-- A call before the instant changes nothing; another one has a frame go out and moves the
instant on, not beyond a gap from now. -/
theorem shouldEmit_cases (t : EmitThrottle) (now minGap : Nat) :
    (∃ scheduled, t.nextEmitAt = some scheduled ∧ now < scheduled ∧
      t.shouldEmit now minGap = (false, t)) ∨
    ∃ next, now ≤ next ∧ next ≤ now + minGap ∧
      (∀ scheduled, t.nextEmitAt = some scheduled →
        scheduled ≤ now ∧ next = advance scheduled now minGap) ∧
      t.shouldEmit now minGap = (true, ⟨some next⟩) := by
  obtain ⟨nextEmitAt⟩ := t
  cases nextEmitAt with
  | none => exact .inr ⟨now + minGap, Nat.le_add_right .., le_rfl, by simp, rfl⟩
  | some scheduled =>
    by_cases hnow : now < scheduled
    · exact .inl ⟨scheduled, rfl, hnow, if_pos hnow⟩
    · have hdue := Nat.le_of_not_lt hnow
      refine .inr ⟨advance scheduled now minGap, (le_advance hdue).1, ?_, ?_, if_neg hnow⟩
      · rw [advance]
        split_ifs <;> omega
      · rintro _ ⟨⟩
        exact ⟨hdue, rfl⟩

theorem emits_early (h : now < scheduled) :
    (EmitThrottle.mk (some scheduled)).emits minGap (now :: calls) =
      (EmitThrottle.mk (some scheduled)).emits minGap calls := by
  simp [EmitThrottle.emits, EmitThrottle.shouldEmit, h]

theorem emits_due (h : scheduled ≤ now) :
    (EmitThrottle.mk (some scheduled)).emits minGap (now :: calls) =
      now :: (EmitThrottle.mk (some (advance scheduled now minGap))).emits minGap calls := by
  simp [EmitThrottle.emits, EmitThrottle.shouldEmit, Nat.not_lt.mpr h]

-- ---------------------------------------------------------------------------
-- No bursts
-- ---------------------------------------------------------------------------

/-- Up to so many gaps behind an instant there are no more emits than that. -/
theorem emits_armed_le {start : Nat} (h : start ≤ scheduled) (count : Nat) :
    ((EmitThrottle.mk (some scheduled)).emits minGap calls).countP
      (fun e => e < start + count * minGap) ≤ count := by
  induction calls generalizing scheduled start count with
  | nil => simp [EmitThrottle.emits]
  | cons now calls ih =>
    by_cases hnow : now < scheduled
    · rw [emits_early hnow]
      exact ih h count
    · have hdue := Nat.le_of_not_lt hnow
      obtain ⟨hpast, hgap⟩ : now ≤ advance scheduled now minGap ∧
          scheduled + minGap ≤ advance scheduled now minGap := le_advance hdue
      rw [emits_due hdue, List.countP_cons]
      by_cases hin : now < start + count * minGap
      · rw [if_pos (by simpa using hin)]
        cases count with
        | zero => omega
        | succ count =>
          have hnext : start + minGap ≤ advance scheduled now minGap := by omega
          have hrest := ih hnext count
          rw [Nat.succ_mul, Nat.add_comm (count * minGap), ← Nat.add_assoc]
          omega
      · rw [if_neg (by simpa using hin)]
        exact ih (h.trans (hdue.trans hpast)) count

/-- A window of so many gaps has at most one emit more than that, whenever the calls come: also
behind a pause. -/
theorem emits_in_window (t : EmitThrottle) (calls : List Nat) (minGap start count : Nat) :
    (t.emits minGap calls).countP (fun e => start ≤ e ∧ e < start + count * minGap) ≤
      count + 1 := by
  induction calls generalizing t with
  | nil => simp [EmitThrottle.emits]
  | cons now calls ih =>
    rw [EmitThrottle.emits]
    obtain ⟨scheduled, -, -, hcall⟩ | ⟨next, hnext, -, -, hcall⟩ := shouldEmit_cases t now minGap
    · rw [hcall]
      exact ih t
    · simp only [hcall, if_true, List.countP_cons]
      by_cases hstart : start ≤ now
      · have hrest : ((EmitThrottle.mk (some next)).emits minGap calls).countP
            (fun e => e < start + count * minGap) ≤ count :=
          emits_armed_le (hstart.trans hnext) count
        have hwindow : ((EmitThrottle.mk (some next)).emits minGap calls).countP
            (fun e => start ≤ e ∧ e < start + count * minGap) ≤
              ((EmitThrottle.mk (some next)).emits minGap calls).countP
                fun e => e < start + count * minGap :=
          List.countP_mono_left fun e _ he => by simpa using (of_decide_eq_true he).2
        split_ifs <;> omega
      · rw [if_neg (by simp [hstart])]
        exact ih _

-- ---------------------------------------------------------------------------
-- The rate
-- ---------------------------------------------------------------------------

/-- Hops that follow each other within a gap serve every ideal instant, each within a hop. -/
theorem emits_armed {previous : Nat} (hhop : hop ≤ minGap)
    (hchain : (previous :: calls).IsChain fun a b => a ≤ b ∧ b ≤ a + hop)
    (hbefore : previous < scheduled) (hgap : scheduled ≤ previous + minGap) :
    let emits := (EmitThrottle.mk (some scheduled)).emits minGap calls
    let last := calls.getLast?.getD previous
    (last < scheduled + emits.length * minGap ∧
      scheduled + emits.length * minGap ≤ last + minGap) ∧
    ∀ i e, emits[i]? = some e →
      scheduled + i * minGap ≤ e ∧ e < scheduled + i * minGap + hop := by
  induction calls generalizing previous scheduled with
  | nil => simpa [EmitThrottle.emits] using ⟨hbefore, hgap⟩
  | cons now calls ih =>
    obtain ⟨⟨hle, hnext⟩, hrest⟩ := List.isChain_cons_cons.mp hchain
    rw [List.getLast?_cons, Option.getD_some]
    by_cases hnow : now < scheduled
    · rw [emits_early hnow]
      exact ih hrest hnow (by omega)
    · have hdue := Nat.le_of_not_lt hnow
      have hadvance : advance scheduled now minGap = scheduled + minGap := if_pos (by omega)
      rw [emits_due hdue, hadvance]
      have hbehind : now < scheduled + minGap := by omega
      obtain ⟨⟨hlast, hlength⟩, heach⟩ := ih hrest hbehind (by omega)
      simp only [List.length_cons, Nat.succ_mul]
      refine ⟨⟨by omega, by omega⟩, fun i e he => ?_⟩
      cases i with
      | zero =>
        cases he
        omega
      | succ i =>
        have := heach i e he
        rw [Nat.succ_mul]
        omega

/-- With hops that follow each other within a gap, the emits behind the first one are as many as
the gaps that have passed, and each comes within a hop of its ideal instant. -/
theorem emits_on_schedule (hpos : 0 < minGap) (hhop : hop ≤ minGap) (first : Nat)
    (hchain : (first :: calls).IsChain fun a b => a ≤ b ∧ b ≤ a + hop) :
    ∃ emits, EmitThrottle.new.emits minGap (first :: calls) = first :: emits ∧
      emits.length = (calls.getLast?.getD first - first) / minGap ∧
      ∀ i e, emits[i]? = some e →
        first + (i + 1) * minGap ≤ e ∧ e < first + (i + 1) * minGap + hop := by
  have hbefore : first < first + minGap := by omega
  obtain ⟨⟨hlast, hlength⟩, heach⟩ := emits_armed hhop hchain hbefore le_rfl
  refine ⟨(EmitThrottle.mk (some (first + minGap))).emits minGap calls, rfl, ?_, fun i e he => ?_⟩
  · refine (Nat.div_eq_of_lt_le ?_ ?_).symm
    · omega
    · rw [Nat.succ_mul]
      omega
  · have := heach i e he
    rw [Nat.succ_mul]
    omega

/-- Hops of two in gaps of five. -/
theorem emits_of_five :
    ∃ emits, EmitThrottle.new.emits 5 [0, 2, 4, 6, 8, 10] = 0 :: emits ∧
      emits.length = (10 - 0) / 5 ∧
      ∀ i e, emits[i]? = some e → 0 + (i + 1) * 5 ≤ e ∧ e < 0 + (i + 1) * 5 + 2 :=
  emits_on_schedule (by decide) (by decide) 0 (by simp)

end EvoAudio.Spectrum
