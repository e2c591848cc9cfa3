import Mathlib.Data.List.Basic
import Mathlib.Logic.Function.Iterate

/-!
# Listings in blocks

Parsers of a listing in one pass: a header field begins a block, the fields up to
the next header are absorbed into it, and the next header or the end of the
listing completes it. To absorb a field may fail, and the whole parser then does.
What is in front of the first header is passed over.
-/

namespace Blocks

/-- How a parser begins, fills and completes a block. Headers are counted, and a
field may be answered at once. -/
structure BlockParser (κ φ β ω : Type) where
  header : φ → Bool
  start : κ → φ → β
  next : κ → κ
  absorb : β → φ → Option (β × List ω)
  build : β → List ω

namespace BlockParser

variable {κ φ β ω : Type} (p : BlockParser κ φ β ω)

def flush : Option β → List ω
  | none => []
  | some block => p.build block

/-- The loop over the fields and the last block behind it. -/
def run : κ → Option β → List φ → Option (List ω)
  | _, current, [] => some (p.flush current)
  | k, current, field :: fields =>
    if p.header field then
      (run (p.next k) (some (p.start k field)) fields).map (p.flush current ++ ·)
    else
      match current with
      | none => run k none fields
      | some block => do
        let (block, out) ← p.absorb block field
        (run k (some block) fields).map (out ++ ·)

def parse (k : κ) (fields : List φ) : Option (List ω) := p.run k none fields

/-- The count behind some fields. -/
def after (k : κ) (fields : List φ) : κ := p.next^[fields.countP p.header] k

/-- The fields of one block, absorbed one after the other. -/
def absorbAll : β → List φ → Option (β × List ω)
  | block, [] => some (block, [])
  | block, field :: fields => do
    let (block, out) ← p.absorb block field
    let (block, rest) ← absorbAll block fields
    some (block, out ++ rest)

attribute [local grind =] run absorbAll

section Fields

variable {p} {k : κ} {current : Option β} {block : β} {field : φ} {fields : List φ}

theorem run_header (h : p.header field = true) :
    p.run k current (field :: fields) =
      (p.run (p.next k) (some (p.start k field)) fields).map (p.flush current ++ ·) :=
  if_pos h

theorem run_outside (h : p.header field = false) :
    p.run k none (field :: fields) = p.run k none fields := by
  rw [run, if_neg (by simp [h])]

theorem run_within (h : p.header field = false) :
    p.run k (some block) (field :: fields) =
      (p.absorb block field).bind fun step =>
        (p.run k (some step.1) fields).map (step.2 ++ ·) := by
  rw [run, if_neg (by simp [h])]
  rfl

/-- A block without a header in it is completed at the end. -/
theorem run_block (h : ∀ field ∈ fields, p.header field = false) :
    p.run k (some block) fields =
      (p.absorbAll block fields).map fun step => step.2 ++ p.build step.1 := by
  induction fields generalizing block with
  | nil => rfl
  | cons field fields ih =>
    obtain ⟨hfield, hfields⟩ := List.forall_mem_cons.mp h
    rw [run_within hfield, absorbAll]
    cases p.absorb block field with
    | none => rfl
    | some step =>
      simp only [Option.bind_some, ih hfields, Option.bind_eq_bind]
      cases p.absorbAll step.1 fields with
      | none => rfl
      | some last => simp

/-- Fields that are absorbed without an answer move what is seen of the block. -/
theorem absorbAll_view {σ : Type} (view : β → σ) (step : σ → φ → σ)
    (h : ∀ block, ∀ field ∈ fields, ∃ block', p.absorb block field = some (block', []) ∧
      view block' = step (view block) field) (block : β) :
    ∃ block', p.absorbAll block fields = some (block', []) ∧
      view block' = fields.foldl step (view block) := by
  induction fields generalizing block with
  | nil => exact ⟨block, rfl, rfl⟩
  | cons field fields ih =>
    obtain ⟨next, habsorb, hnext⟩ := h block field (List.mem_cons_self ..)
    obtain ⟨last, hall, hlast⟩ := ih (fun block field hmem =>
      h block field (List.mem_cons_of_mem _ hmem)) next
    refine ⟨last, ?_, ?_⟩
    · rw [absorbAll, habsorb]
      simp [hall]
    · rw [hlast, hnext, List.foldl_cons]

/-- A listing that is one block. -/
theorem parse_block (k : κ) (hfield : p.header field = true)
    (h : ∀ field ∈ fields, p.header field = false) :
    p.parse k (field :: fields) =
      (p.absorbAll (p.start k field) fields).map fun step => step.2 ++ p.build step.1 := by
  rw [parse, run_header hfield, run_block h, Option.map_map]
  rfl

end Fields

-- ---------------------------------------------------------------------------
-- Two listings
-- ---------------------------------------------------------------------------

theorem after_cons (k : κ) (field : φ) (fields : List φ) :
    p.after k (field :: fields) =
      p.after (if p.header field then p.next k else k) fields := by
  rw [after, after, List.countP_cons]
  split_ifs
  · rw [Function.iterate_succ_apply]
  · rfl

/-- Nothing of one block gets into the next: a listing that begins with a header is
parsed behind another one as it is on its own, the count of headers apart. -/
theorem run_append (k : κ) (current : Option β) (a : List φ) {b : List φ}
    (hb : ∃ field rest, b = field :: rest ∧ p.header field = true) :
    p.run k current (a ++ b) =
      (p.run k current a).bind fun first =>
        (p.run (p.after k a) none b).map (first ++ ·) := by
  induction a generalizing k current with
  | nil =>
    obtain ⟨field, rest, rfl, hfield⟩ := hb
    rw [List.nil_append, run_header hfield, run, Option.bind_some, run_header hfield, Option.map_map]
    rfl
  | cons field a ih =>
    rw [List.cons_append, after_cons]
    by_cases hfield : p.header field = true
    · rw [run_header hfield, run_header hfield, ih, if_pos hfield]
      cases p.run (p.next k) (some (p.start k field)) a with
      | none => rfl
      | some first => simp [Option.map_map, Function.comp_def]
    · rw [if_neg hfield]
      rw [Bool.not_eq_true] at hfield
      cases current with
      | none => rw [run_outside hfield, run_outside hfield, ih]
      | some block =>
        rw [run_within hfield, run_within hfield]
        cases p.absorb block field with
        | none => rfl
        | some step =>
          simp only [Option.bind_some, ih]
          cases p.run k (some step.1) a with
          | none => rfl
          | some first => simp [Option.map_map, Function.comp_def]

theorem parse_append (k : κ) (a : List φ) {b : List φ}
    (hb : ∃ field rest, b = field :: rest ∧ p.header field = true) :
    p.parse k (a ++ b) =
      (p.parse k a).bind fun first => (p.parse (p.after k a) b).map (first ++ ·) :=
  p.run_append k none a hb

-- ---------------------------------------------------------------------------
-- Counts
-- ---------------------------------------------------------------------------

/-- Counts that are moved on move what is made of the blocks. -/
theorem run_map {τ : κ → κ} {moveBlock : β → β} {move : ω → ω}
    (hstart : ∀ k field, p.start (τ k) field = moveBlock (p.start k field))
    (hnext : ∀ k, p.next (τ k) = τ (p.next k))
    (habsorb : ∀ block field, p.absorb (moveBlock block) field =
      (p.absorb block field).map (Prod.map moveBlock (List.map move)))
    (hbuild : ∀ block, p.build (moveBlock block) = (p.build block).map move)
    (k : κ) (current : Option β) (fields : List φ) :
    p.run (τ k) (current.map moveBlock) fields = (p.run k current fields).map (List.map move) := by
  have hflush (current : Option β) : p.flush (current.map moveBlock) = (p.flush current).map move := by
    cases current with
    | none => rfl
    | some block => exact hbuild block
  induction fields generalizing k current with
  | nil => exact congrArg some (hflush current)
  | cons field fields ih =>
    by_cases hfield : p.header field = true
    · have hblock : some (p.start (τ k) field) = (some (p.start k field)).map moveBlock :=
        congrArg some (hstart k field)
      rw [run_header hfield, run_header hfield, hflush, hnext, hblock, ih, Option.map_map,
        Option.map_map]
      simp [Function.comp_def]
    · rw [Bool.not_eq_true] at hfield
      cases current with
      | none =>
        rw [Option.map_none, run_outside hfield, run_outside hfield]
        exact ih k none
      | some block =>
        rw [Option.map_some, run_within hfield, run_within hfield, habsorb]
        cases p.absorb block field with
        | none => rfl
        | some step =>
          have hrest := ih k (some step.1)
          rw [Option.map_some] at hrest
          simp only [Option.map_some, Option.bind_some, Prod.map, hrest, Option.map_map]
          simp [Function.comp_def]

section Marks

variable {ν : Type} (seen : ω → ν) (mark : β → ν) (count : κ → ν)
  (hstart : ∀ k field, mark (p.start k field) = count k)
  (habsorb : ∀ block field step, p.absorb block field = some step →
    mark step.1 = mark block ∧ step.2 = [])
  (hbuild : ∀ block, (p.build block).map seen = [mark block])

include hstart habsorb hbuild

theorem run_marks (k : κ) (current : Option β) (fields : List φ) {out : List ω}
    (h : p.run k current fields = some out) :
    out.map seen = (current.map mark).toList ++
      (List.range (fields.countP p.header)).map fun i => count (p.next^[i] k) := by
  have hflush (current : Option β) : (p.flush current).map seen = (current.map mark).toList := by
    cases current with
    | none => rfl
    | some block => exact hbuild block
  induction fields generalizing k current out with
  | nil =>
    cases h
    rw [hflush, List.countP_nil, List.range_zero, List.map_nil, List.append_nil]
  | cons field fields ih =>
    by_cases hfield : p.header field = true
    · rw [run_header hfield] at h
      obtain ⟨rest, hrest, rfl⟩ := Option.map_eq_some_iff.mp h
      rw [List.map_append, hflush, ih _ _ hrest, List.countP_cons_of_pos hfield,
        List.range_succ_eq_map, List.map_cons, List.map_map, Option.map_some, hstart]
      rfl
    · rw [List.countP_cons_of_neg hfield]
      rw [Bool.not_eq_true] at hfield
      cases current with
      | none =>
        rw [run_outside hfield] at h
        exact ih k none h
      | some block =>
        rw [run_within hfield] at h
        obtain ⟨step, hstep, h⟩ := Option.bind_eq_some_iff.mp h
        obtain ⟨rest, hrest, rfl⟩ := Option.map_eq_some_iff.mp h
        obtain ⟨hmark, hnone⟩ := habsorb block field step hstep
        rw [hnone, List.nil_append, ih k _ hrest, Option.map_some, hmark]
        rfl

/-- Where a block is completed to one answer and keeps the count that it began with,
the answers are marked with the counts in order. -/
theorem parse_marks (k : κ) (fields : List φ) {out : List ω} (h : p.parse k fields = some out) :
    out.map seen = (List.range (fields.countP p.header)).map fun i => count (p.next^[i] k) :=
  p.run_marks seen mark count hstart habsorb hbuild k none fields h

end Marks

-- ---------------------------------------------------------------------------
-- Failures
-- ---------------------------------------------------------------------------

/-- The fields that are absorbed into blocks of one kind, from within such a block
or not. -/
def fieldsIn (live : φ → Bool) : Bool → List φ → List φ
  | _, [] => []
  | within, field :: fields =>
    if p.header field then fieldsIn live (live field) fields
    else if within then field :: fieldsIn live within fields
    else fieldsIn live within fields

/-- The parser goes through where no field fails that is absorbed into a block of
the kind that it can fail in. -/
theorem parse_isSome_iff (live : φ → Bool) (kind : β → Bool) {bad : φ → Prop}
    (hstart : ∀ k field, kind (p.start k field) = live field)
    (hkeeps : ∀ block field step, p.absorb block field = some step → kind step.1 = kind block)
    (hfails : ∀ block field, p.header field = false →
      (p.absorb block field = none ↔ kind block = true ∧ bad field)) (k : κ) (fields : List φ) :
    (p.parse k fields).isSome ↔ ∀ field ∈ p.fieldsIn live false fields, ¬ bad field := by
  have hrun (current : Option β) :
      (p.run k current fields).isSome ↔
        ∀ field ∈ p.fieldsIn live (current.any kind) fields, ¬ bad field := by
    induction fields generalizing k current with
    | nil => exact iff_of_true rfl (by simp [fieldsIn])
    | cons field fields ih =>
      rw [fieldsIn]
      by_cases hfield : p.header field = true
      · rw [run_header hfield, Option.isSome_map, ih, if_pos hfield, Option.any_some, hstart]
      · rw [if_neg hfield]
        rw [Bool.not_eq_true] at hfield
        cases current with
        | none =>
          rw [run_outside hfield, ih]
          rfl
        | some block =>
          have hfails := hfails block field hfield
          rw [run_within hfield, Option.any_some]
          cases hstep : p.absorb block field with
          | none =>
            obtain ⟨hkind, hbad⟩ := hfails.mp hstep
            rw [if_pos hkind]
            exact iff_of_false (by simp) fun h => h field (List.mem_cons_self ..) hbad
          | some step =>
            rw [Option.bind_some, Option.isSome_map, ih, Option.any_some, hkeeps _ _ _ hstep]
            split_ifs with hkind
            · have hgood : ¬ bad field := fun hbad => by
                rw [hfails.mpr ⟨hkind, hbad⟩] at hstep
                cases hstep
              rw [List.forall_mem_cons, and_iff_right hgood]
            · rfl
  exact hrun none

end BlockParser

-- ---------------------------------------------------------------------------
-- One record
-- ---------------------------------------------------------------------------

section Record

variable {σ φ ε : Type}

/-- The loop over the fields of one record: a step may fail, or answer with an error
that ends the loop. -/
def absorbRecord (step : σ → φ → Option (Except ε σ)) : σ → List φ → Option (Except ε σ)
  | record, [] => some (.ok record)
  | record, field :: fields =>
    match step record field with
    | none => none
    | some (.error error) => some (.error error)
    | some (.ok record) => absorbRecord step record fields

/-- The loop fails at a field in front of which none is answered with an error. -/
theorem absorbRecord_isSome_iff {step : σ → φ → Option (Except ε σ)} {rejects : φ → Bool}
    {bad : φ → Prop} (hfails : ∀ record field, step record field = none ↔ bad field)
    (hrejects : ∀ record field, (∃ error, step record field = some (.error error)) ↔
      rejects field = true) (record : σ) (fields : List φ) :
    (absorbRecord step record fields).isSome ↔
      ∀ field ∈ fields.takeWhile (!rejects ·), ¬ bad field := by
  induction fields generalizing record with
  | nil => exact iff_of_true rfl (by simp)
  | cons field fields ih =>
    rw [absorbRecord]
    cases hstep : step record field with
    | none =>
      have hbad := (hfails record field).mp hstep
      have hno : rejects field = false := by
        rw [Bool.eq_false_iff, Ne, ← hrejects record field, hstep]
        simp
      exact iff_of_false (by simp) fun h => h field (by simp [hno]) hbad
    | some result =>
      have hgood : ¬ bad field := by
        rw [← hfails record field, hstep]
        simp
      cases result with
      | error error =>
        have hreject := (hrejects record field).mp ⟨error, hstep⟩
        exact iff_of_true rfl (by simp [hreject])
      | ok record =>
        have hno : rejects field = false := by
          rw [Bool.eq_false_iff, Ne, ← hrejects _ field, hstep]
          simp
        rw [List.takeWhile_cons_of_pos (by simp [hno]), List.forall_mem_cons, and_iff_right hgood]
        exact ih record

end Record

end Blocks
