import Mathlib.Logic.Relation

/-!
# Computations with checked arithmetic and loops

A `Checked α` computes an `Option α`, and on its way an addition can overflow, an
index be out of range and a loop go on without end. It runs with fuel, and more
fuel changes nothing once it has come to an end. `Returns` is what it returns with
enough fuel. `Ends` is its weakest precondition: it comes to an end without a fault,
and a value that it returns meets a condition. `Completes` is the first half alone.

A loop goes from state to state. `Ends.loop` is the rule for an invariant and a rank,
and `completes_loop_iff` reads whether a loop completes off the states that it reaches: the
body completes in each of them and never goes on to where it is.
-/

inductive Checked.Outcome (α : Type) where
  | running
  /-- An overflow, or an index that is out of range. -/
  | fault
  | absent
  | value (a : α)
  deriving DecidableEq, Repr

structure Checked (α : Type) where
  run : Nat → Checked.Outcome α
  settled : ∀ n, run n ≠ .running → run (n + 1) = run n

namespace Checked

variable {α β σ : Type}

-- ---------------------------------------------------------------------------
-- Operations
-- ---------------------------------------------------------------------------

def Outcome.bind (x : Outcome α) (f : α → Outcome β) : Outcome β :=
  match x with
  | .running => .running
  | .fault => .fault
  | .absent => .absent
  | .value a => f a

/-- An outcome that fuel does not change. -/
def const (x : Outcome α) : Checked α := ⟨fun _ => x, fun _ _ => rfl⟩

def fault : Checked α := const .fault

/-- The end of a function that returns `None`. -/
def absent : Checked α := const .absent

def bind (p : Checked α) (f : α → Checked β) : Checked β where
  run n := (p.run n).bind fun a => (f a).run n
  settled n h := by
    cases hp : p.run n with
    | running => simp [hp, Outcome.bind] at h
    | fault => rw [p.settled n (by simp [hp]), hp]; rfl
    | absent => rw [p.settled n (by simp [hp]), hp]; rfl
    | value a =>
      rw [p.settled n (by simp [hp]), hp]
      rw [hp] at h
      exact (f a).settled n h

instance : Monad Checked where
  pure a := const (.value a)
  bind := bind

/-- `?` on a value that is there or not. -/
def ofOption : Option α → Checked α
  | some a => pure a
  | none => absent

/-- A value whose absence is a fault, as that of a slice at no character boundary. -/
def orFault : Option α → Checked α
  | some a => pure a
  | none => fault

/-- A call whose `None` is a value of the caller. -/
def option (p : Checked α) : Checked (Option α) where
  run n :=
    match p.run n with
    | .running => .running
    | .fault => .fault
    | .absent => .value none
    | .value a => .value (some a)
  settled n h := by
    have hrun : p.run n ≠ .running := fun hp => h (by simp [hp])
    rw [p.settled n hrun]

/-- `+` on an integer type with so many values. -/
def add (limit a b : Nat) : Checked Nat := if a + b < limit then pure (a + b) else fault

/-- `checked_add(..)?` -/
def checkedAdd (limit a b : Nat) : Checked Nat := if a + b < limit then pure (a + b) else absent

/-- `checked_mul(..)?` -/
def checkedMul (limit a b : Nat) : Checked Nat := if a * b < limit then pure (a * b) else absent

/-- `checked_div(..)?` -/
def checkedDiv (a b : Nat) : Checked Nat := if b = 0 then absent else pure (a / b)

/-- `xs[i]` -/
def index (xs : List α) (i : Nat) : Checked α :=
  match xs[i]? with
  | some x => pure x
  | none => fault

/-- `&xs[i..j]` -/
def range (xs : List α) (i j : Nat) : Checked (List α) :=
  if i ≤ j ∧ j ≤ xs.length then pure ((xs.drop i).take (j - i)) else fault

/-- `xs.get(i..j)?` -/
def getRange (xs : List α) (i j : Nat) : Checked (List α) :=
  if i ≤ j ∧ j ≤ xs.length then pure ((xs.drop i).take (j - i)) else absent

/-- `return None` unless a test holds. -/
def require (b : Bool) : Checked Unit := if b then pure () else absent

/-- A loop, at each state of which the body goes on or breaks. -/
def runLoop (body : σ → Checked (σ ⊕ α)) : Nat → σ → Outcome α
  | 0, _ => .running
  | n + 1, s => ((body s).run n).bind fun
    | .inl s' => runLoop body n s'
    | .inr a => .value a

theorem runLoop_settled (body : σ → Checked (σ ⊕ α)) (n : Nat) (s : σ)
    (h : runLoop body n s ≠ .running) : runLoop body (n + 1) s = runLoop body n s := by
  induction n generalizing s with
  | zero => exact absurd rfl h
  | succ n ih =>
    rw [runLoop] at h ⊢
    rw [runLoop]
    have hbody : (body s).run n ≠ .running := fun hrun => h (by simp [hrun, Outcome.bind])
    rw [(body s).settled n hbody]
    cases hrun : (body s).run n with
    | running => exact absurd hrun hbody
    | fault => rfl
    | absent => rfl
    | value r =>
      rw [hrun] at h
      cases r with
      | inl s' => exact ih s' h
      | inr a => rfl

def loop (body : σ → Checked (σ ⊕ α)) (s : σ) : Checked α where
  run n := runLoop body n s
  settled n := runLoop_settled body n s

-- ---------------------------------------------------------------------------
-- What is returned
-- ---------------------------------------------------------------------------

def Outcome.ofOption : Option α → Outcome α
  | some a => .value a
  | none => .absent

def Returns (p : Checked α) (r : Option α) : Prop := ∃ n, p.run n = .ofOption r

theorem run_le {p : Checked α} (h : p.run n ≠ .running) (hle : n ≤ m) : p.run m = p.run n := by
  induction hle with
  | refl => rfl
  | step _ ih => rw [p.settled _ (by rwa [ih]), ih]

@[simp] theorem Outcome.ofOption_ne_running (r : Option α) : Outcome.ofOption r ≠ .running := by
  cases r <;> simp [Outcome.ofOption]

@[simp] theorem Outcome.ofOption_ne_fault (r : Option α) : Outcome.ofOption r ≠ .fault := by
  cases r <;> simp [Outcome.ofOption]

theorem Outcome.ofOption_injective : Function.Injective (Outcome.ofOption (α := α)) := by
  intro r r' h
  cases r <;> cases r' <;> simp_all [Outcome.ofOption]

theorem run_of_le {p : Checked α} (h : p.run n = .ofOption r) (hle : n ≤ m) :
    p.run m = .ofOption r := by
  rw [run_le (by rw [h]; exact Outcome.ofOption_ne_running r) hle, h]

/-- A computation returns one thing. -/
theorem Returns.unique {p : Checked α} (h : Returns p r) (h' : Returns p r') : r = r' := by
  obtain ⟨n, hn⟩ := h
  obtain ⟨m, hm⟩ := h'
  refine Outcome.ofOption_injective ?_
  rw [← run_of_le hn (Nat.le_max_left n m), run_of_le hm (Nat.le_max_right n m)]

theorem not_returns_of_fault {p : Checked α} (h : p.run n = .fault) : ¬Returns p r := by
  rintro ⟨m, hm⟩
  have hmax := run_le (p := p) (by simp [h]) (Nat.le_max_left n m)
  rw [run_of_le hm (Nat.le_max_right n m), h] at hmax
  exact Outcome.ofOption_ne_fault r hmax

theorem returns_const {x : Outcome α} : Returns (const x) r ↔ x = .ofOption r := by
  simp [Returns, const]

@[simp] theorem returns_pure : Returns (pure a : Checked α) r ↔ r = some a := by
  refine returns_const.trans ?_
  cases r with
  | none => simp [Outcome.ofOption]
  | some b => simp [Outcome.ofOption, eq_comm]

@[simp] theorem returns_absent : Returns (absent : Checked α) r ↔ r = none := by
  refine returns_const.trans ?_
  cases r <;> simp [Outcome.ofOption]

@[simp] theorem not_returns_fault : ¬Returns (fault : Checked α) r :=
  not_returns_of_fault (n := 0) rfl

@[simp] theorem returns_ofOption {o : Option α} : Returns (ofOption o) r ↔ r = o := by
  cases o <;> simp [ofOption]

theorem returns_orFault {o : Option α} : Returns (orFault o) r ↔ ∃ a, o = some a ∧ r = some a := by
  cases o <;> simp [orFault]

theorem returns_bind {p : Checked α} {f : α → Checked β} :
    Returns (p >>= f) r ↔
      Returns p none ∧ r = none ∨ ∃ a, Returns p (some a) ∧ Returns (f a) r := by
  constructor
  · rintro ⟨n, hn⟩
    have hrun : (p.run n).bind (fun a => (f a).run n) = .ofOption r := hn
    cases hp : p.run n with
    | running => rw [hp] at hrun; exact absurd hrun.symm (Outcome.ofOption_ne_running r)
    | fault => rw [hp] at hrun; exact absurd hrun.symm (Outcome.ofOption_ne_fault r)
    | absent =>
      rw [hp] at hrun
      cases r with
      | none => exact .inl ⟨⟨n, hp⟩, rfl⟩
      | some b => cases hrun
    | value a =>
      rw [hp] at hrun
      exact .inr ⟨a, ⟨n, hp⟩, n, hrun⟩
  · rintro (⟨⟨n, hn⟩, rfl⟩ | ⟨a, ⟨n, hn⟩, m, hm⟩)
    · refine ⟨n, ?_⟩
      change (p.run n).bind _ = _
      rw [hn]
      rfl
    · refine ⟨max n m, ?_⟩
      change (p.run (max n m)).bind _ = _
      rw [run_of_le hn (Nat.le_max_left n m)]
      exact run_of_le hm (Nat.le_max_right n m)

theorem Returns.bind_iff {p : Checked α} {f : α → Checked β} (h : Returns p (some a)) :
    Returns (p >>= f) r ↔ Returns (f a) r := by
  rw [returns_bind]
  constructor
  · rintro (⟨hnone, -⟩ | ⟨b, hb, hr⟩)
    · cases h.unique hnone
    · cases h.unique hb
      exact hr
  · exact fun hr => .inr ⟨a, h, hr⟩

theorem Returns.bind_none_iff {p : Checked α} {f : α → Checked β} (h : Returns p none) :
    Returns (p >>= f) r ↔ r = none := by
  rw [returns_bind]
  constructor
  · rintro (⟨-, rfl⟩ | ⟨b, hb, -⟩)
    · rfl
    · cases h.unique hb
  · exact fun hr => .inl ⟨h, hr⟩

theorem returns_option_some {p : Checked α} : Returns p.option (some r) ↔ Returns p r := by
  refine exists_congr fun n => ?_
  change (match p.run n with | .running => _ | .fault => _ | .absent => _ | .value a => _) = _ ↔ _
  cases p.run n <;> cases r <;> simp [Outcome.ofOption]

theorem not_returns_option_none {p : Checked α} : ¬Returns p.option none := by
  rintro ⟨n, hn⟩
  change (match p.run n with | .running => _ | .fault => _ | .absent => _ | .value a => _) = _ at hn
  cases hp : p.run n <;> rw [hp] at hn <;> cases hn

theorem returns_add : Returns (add limit a b) r ↔ a + b < limit ∧ r = some (a + b) := by
  unfold add
  split
  next h => simp [h]
  next h => simp [h]

theorem returns_checkedAdd :
    Returns (checkedAdd limit a b) r ↔ r = if a + b < limit then some (a + b) else none := by
  unfold checkedAdd
  split <;> simp

theorem returns_index {xs : List α} :
    Returns (index xs i) r ↔ ∃ x, xs[i]? = some x ∧ r = some x := by
  unfold index
  cases xs[i]? <;> simp

theorem returns_getRange {xs : List α} : Returns (getRange xs i j) r ↔
    r = if i ≤ j ∧ j ≤ xs.length then some ((xs.drop i).take (j - i)) else none := by
  unfold getRange
  split <;> simp

-- ---------------------------------------------------------------------------
-- Weakest preconditions
-- ---------------------------------------------------------------------------

/-- The computation comes to an end without a fault, and its value meets `Q`. -/
def Ends (p : Checked α) (Q : α → Prop) : Prop := ∃ r, Returns p r ∧ ∀ a, r = some a → Q a

/-- The computation comes to an end without a fault. -/
def Completes (p : Checked α) : Prop := Ends p fun _ => True

theorem Returns.completes {p : Checked α} (h : Returns p r) : Completes p := ⟨r, h, fun _ _ => trivial⟩

theorem Completes.returns {p : Checked α} (h : Completes p) : ∃ r, Returns p r :=
  h.imp fun _ hr => hr.1

theorem ends_congr {p q : Checked α} (h : ∀ r, Returns p r ↔ Returns q r) :
    Ends p Q ↔ Ends q Q :=
  exists_congr fun r => and_congr_left fun _ => h r

theorem Ends.mono {p : Checked α} (h : Ends p Q) (himp : ∀ a, Q a → R a) : Ends p R := by
  obtain ⟨r, hr, hQ⟩ := h
  exact ⟨r, hr, fun a ha => himp a (hQ a ha)⟩

theorem Ends.completes {p : Checked α} (h : Ends p Q) : Completes p := h.mono fun _ _ => trivial

theorem Ends.post {p : Checked α} (h : Ends p Q) (hr : Returns p (some a)) : Q a := by
  obtain ⟨r, hr', hQ⟩ := h
  exact hQ a (hr'.unique hr)

@[simp] theorem ends_pure : Ends (pure a : Checked α) Q ↔ Q a := by simp [Ends]

@[simp] theorem ends_absent : Ends (absent : Checked α) Q := by simp [Ends]

@[simp] theorem not_ends_fault : ¬Ends (fault : Checked α) Q := by simp [Ends]

@[simp] theorem ends_ofOption {o : Option α} : Ends (ofOption o) Q ↔ ∀ a, o = some a → Q a := by
  simp [Ends]

@[simp] theorem ends_orFault {o : Option α} : Ends (orFault o) Q ↔ ∃ a, o = some a ∧ Q a := by
  cases o <;> simp [orFault]

@[simp] theorem ends_bind {p : Checked α} {f : α → Checked β} :
    Ends (p >>= f) Q ↔ Ends p fun a => Ends (f a) Q := by
  constructor
  · rintro ⟨r, hr, hQ⟩
    rcases returns_bind.mp hr with ⟨hnone, rfl⟩ | ⟨a, ha, hf⟩
    · exact ⟨none, hnone, by simp⟩
    · exact ⟨some a, ha, by rintro _ ⟨⟩; exact ⟨r, hf, hQ⟩⟩
  · rintro ⟨r, hr, hf⟩
    cases r with
    | none => exact ⟨none, returns_bind.mpr (.inl ⟨hr, rfl⟩), by simp⟩
    | some a =>
      obtain ⟨r', hr', hQ⟩ := hf a rfl
      exact ⟨r', returns_bind.mpr (.inr ⟨a, hr, hr'⟩), hQ⟩

theorem ends_option {p : Checked α} : Ends p.option Q ↔ ∃ r, Returns p r ∧ Q r := by
  constructor
  · rintro ⟨r, hr, hQ⟩
    cases r with
    | none => exact absurd hr not_returns_option_none
    | some r => exact ⟨r, returns_option_some.mp hr, hQ r rfl⟩
  · rintro ⟨r, hr, hQ⟩
    exact ⟨some r, returns_option_some.mpr hr, by rintro _ ⟨⟩; exact hQ⟩

/-- A call whose `None` is a value ends as the call does, with what it returns. -/
theorem Ends.option {p : Checked α} (h : Ends p P) (hnone : Q none) (hsome : ∀ a, P a → Q (some a)) :
    Ends p.option Q := by
  obtain ⟨r, hr, hP⟩ := h
  refine ends_option.mpr ⟨r, hr, ?_⟩
  cases r with
  | none => exact hnone
  | some a => exact hsome a (hP a rfl)

@[simp] theorem completes_option {p : Checked α} :
    (Ends p.option fun _ => True) ↔ Ends p fun _ => True := by
  rw [ends_option]
  simp [Ends]

@[simp] theorem ends_add : Ends (add limit a b) Q ↔ a + b < limit ∧ Q (a + b) := by
  simp [Ends, returns_add, and_assoc]

@[simp] theorem ends_checkedAdd : Ends (checkedAdd limit a b) Q ↔ (a + b < limit → Q (a + b)) := by
  simp [Ends, returns_checkedAdd]

@[simp] theorem ends_checkedMul : Ends (checkedMul limit a b) Q ↔ (a * b < limit → Q (a * b)) := by
  unfold checkedMul
  split <;> simp [*]

@[simp] theorem ends_checkedDiv : Ends (checkedDiv a b) Q ↔ (b ≠ 0 → Q (a / b)) := by
  unfold checkedDiv
  split <;> simp [*]

@[simp] theorem ends_index {xs : List α} :
    Ends (index xs i) Q ↔ ∃ h : i < xs.length, Q xs[i] := by
  constructor
  · rintro ⟨r, hr, hQ⟩
    obtain ⟨x, hx, rfl⟩ := returns_index.mp hr
    obtain ⟨hi, rfl⟩ := List.getElem?_eq_some_iff.mp hx
    exact ⟨hi, hQ _ rfl⟩
  · rintro ⟨hi, hQ⟩
    refine ⟨some xs[i], returns_index.mpr ⟨_, List.getElem?_eq_getElem hi, rfl⟩, ?_⟩
    rintro _ ⟨⟩
    exact hQ

@[simp] theorem ends_range {xs : List α} : Ends (range xs i j) Q ↔
    (i ≤ j ∧ j ≤ xs.length) ∧ Q ((xs.drop i).take (j - i)) := by
  unfold range
  split <;> simp [*]

@[simp] theorem ends_getRange {xs : List α} : Ends (getRange xs i j) Q ↔
    (i ≤ j ∧ j ≤ xs.length → Q ((xs.drop i).take (j - i))) := by
  unfold getRange
  split <;> simp [*]

@[simp] theorem ends_require : Ends (require b) Q ↔ (b = true → Q ()) := by
  cases b <;> simp [require]

theorem ends_ite {c : Prop} [Decidable c] {p q : Checked α} :
    Ends (if c then p else q) Q ↔ (c → Ends p Q) ∧ (¬c → Ends q Q) := by
  split <;> simp [*]

theorem ends_iff {p : Checked α} :
    Ends p Q ↔ Completes p ∧ ∀ a, Returns p (some a) → Q a := by
  constructor
  · exact fun h => ⟨h.completes, fun a ha => h.post ha⟩
  · rintro ⟨⟨r, hr, -⟩, hQ⟩
    exact ⟨r, hr, fun a ha => hQ a (ha ▸ hr)⟩

/-- A value is returned when no other value is what the computation ends with. -/
theorem returns_some_iff {p : Checked α} :
    Returns p (some a) ↔ Completes p ∧ ¬Ends p (· ≠ a) := by
  constructor
  · exact fun h => ⟨h.completes, fun hne => hne.post h rfl⟩
  · rintro ⟨⟨r, hr, -⟩, hne⟩
    cases r with
    | none => exact absurd ⟨none, hr, by simp⟩ hne
    | some b =>
      by_cases hba : b = a
      · rwa [← hba]
      · exact absurd ⟨some b, hr, by rintro _ ⟨⟩; exact hba⟩ hne

-- ---------------------------------------------------------------------------
-- Loops
-- ---------------------------------------------------------------------------

/-- The body goes on from a state to another one. -/
def GoesOn (body : σ → Checked (σ ⊕ α)) (s s' : σ) : Prop := Returns (body s) (some (.inl s'))

theorem goesOn_iff {body : σ → Checked (σ ⊕ α)} : GoesOn body s s' ↔
    Completes (body s) ∧ ¬Ends (body s) (Sum.elim (· ≠ s') fun _ => True) := by
  have hne : (fun next : σ ⊕ α => next ≠ .inl s') = Sum.elim (· ≠ s') fun _ => True := by
    funext next
    cases next <;> simp
  rw [GoesOn, returns_some_iff, hne]

theorem runLoop_succ (body : σ → Checked (σ ⊕ α)) (n : Nat) (s : σ) :
    (loop body s).run (n + 1) = ((body s).run n).bind fun
      | .inl s' => (loop body s').run n
      | .inr a => .value a := rfl

theorem returns_loop {body : σ → Checked (σ ⊕ α)} {s : σ} : Returns (loop body s) r ↔
    Returns (body s) none ∧ r = none ∨ (∃ a, Returns (body s) (some (.inr a)) ∧ r = some a) ∨
      ∃ s', GoesOn body s s' ∧ Returns (loop body s') r := by
  constructor
  · rintro ⟨_ | n, hn⟩
    · exact absurd hn.symm (Outcome.ofOption_ne_running r)
    rw [runLoop_succ] at hn
    cases hbody : (body s).run n with
    | running => rw [hbody] at hn; exact absurd hn.symm (Outcome.ofOption_ne_running r)
    | fault => rw [hbody] at hn; exact absurd hn.symm (Outcome.ofOption_ne_fault r)
    | absent =>
      rw [hbody] at hn
      cases r <;> cases hn
      exact .inl ⟨⟨n, hbody⟩, rfl⟩
    | value next =>
      rw [hbody] at hn
      cases next with
      | inl s' => exact .inr (.inr ⟨s', ⟨n, hbody⟩, n, hn⟩)
      | inr a =>
        cases r <;> cases hn
        exact .inr (.inl ⟨a, ⟨n, hbody⟩, rfl⟩)
  · rintro (⟨⟨n, hn⟩, rfl⟩ | ⟨a, ⟨n, hn⟩, rfl⟩ | ⟨s', ⟨n, hn⟩, m, hm⟩)
    · exact ⟨n + 1, by rw [runLoop_succ, hn]; rfl⟩
    · exact ⟨n + 1, by rw [runLoop_succ, hn]; rfl⟩
    · refine ⟨max n m + 1, ?_⟩
      rw [runLoop_succ, run_of_le hn (Nat.le_max_left n m)]
      exact run_of_le hm (Nat.le_max_right n m)

/-- The value of a loop is the one that its body breaks with, in a state that is
reached. -/
theorem returns_loop_some {body : σ → Checked (σ ⊕ α)} {R : σ → σ → Prop}
    (hR : ∀ s s', GoesOn body s s' ↔ R s s') {s : σ} : Returns (loop body s) (some a) ↔
      ∃ t, Relation.ReflTransGen R s t ∧ Returns (body t) (some (.inr a)) := by
  constructor
  · rintro ⟨n, hn⟩
    induction n generalizing s with
    | zero => cases hn
    | succ n ih =>
      rw [runLoop_succ] at hn
      cases hrun : (body s).run n with
      | running => rw [hrun] at hn; cases hn
      | fault => rw [hrun] at hn; cases hn
      | absent => rw [hrun] at hn; cases hn
      | value next =>
        rw [hrun] at hn
        cases next with
        | inl s' =>
          obtain ⟨t, hreach, ht⟩ := ih hn
          exact ⟨t, .head ((hR s s').mp ⟨n, hrun⟩) hreach, ht⟩
        | inr b =>
          cases hn
          exact ⟨s, .refl, n, hrun⟩
  · rintro ⟨t, hreach, ht⟩
    induction hreach using Relation.ReflTransGen.head_induction_on with
    | refl => exact returns_loop.mpr (.inr (.inl ⟨a, ht, rfl⟩))
    | head hnext _ ih => exact returns_loop.mpr (.inr (.inr ⟨_, (hR _ _).mpr hnext, ih⟩))

/-- The rule for a loop that keeps an invariant and lowers a rank whenever it goes
on. -/
theorem Ends.loop {body : σ → Checked (σ ⊕ α)} {I : σ → Prop} {Q : α → Prop} (rank : σ → Nat)
    (hstep : ∀ s, I s → Ends (body s) (Sum.elim (fun s' => I s' ∧ rank s' < rank s) Q))
    {s : σ} (hs : I s) : Ends (Checked.loop body s) Q := by
  induction hrank : rank s using Nat.strongRecOn generalizing s with
  | ind n ih =>
    obtain ⟨r, hr, hnext⟩ := hstep s hs
    rcases r with _ | s' | a
    · exact ⟨none, returns_loop.mpr (.inl ⟨hr, rfl⟩), by simp⟩
    · obtain ⟨hs', hlt⟩ := hnext _ rfl
      obtain ⟨r, hloop, hQ⟩ := ih (rank s') (hrank ▸ hlt) hs' rfl
      exact ⟨r, returns_loop.mpr (.inr (.inr ⟨s', hr, hloop⟩)), hQ⟩
    · refine ⟨some a, returns_loop.mpr (.inr (.inl ⟨a, hr, rfl⟩)), ?_⟩
      rintro _ ⟨⟩
      exact hnext _ rfl

/-- A loop that comes to an end does not come back to a state, and its body completes
in every state that it reaches. -/
theorem Completes.of_loop {body : σ → Checked (σ ⊕ α)} {R : σ → σ → Prop}
    (hR : ∀ s s', GoesOn body s s' ↔ R s s') {s t : σ} (h : Completes (Checked.loop body s))
    (hreach : Relation.ReflTransGen R s t) : Completes (body t) ∧ ¬R t t := by
  obtain ⟨r, n, hn⟩ := h.returns
  clear h
  induction n generalizing s with
  | zero => exact absurd hn.symm (Outcome.ofOption_ne_running r)
  | succ n ih =>
    -- The rest of the run, from the next state on, needs less fuel.
    have hrest : ∀ s', R s s' → (Checked.loop body s').run n = .ofOption r := by
      intro s' hs'
      have hnext := (hR s s').mpr hs'
      rw [runLoop_succ] at hn
      cases hrun : (body s).run n with
      | running => rw [hrun] at hn; exact absurd hn.symm (Outcome.ofOption_ne_running r)
      | fault => rw [hrun] at hn; exact absurd hn.symm (Outcome.ofOption_ne_fault r)
      | absent =>
        have habsent : Returns (body s) none := ⟨n, hrun⟩
        cases hnext.unique habsent
      | value next =>
        have hvalue : Returns (body s) (some next) := ⟨n, hrun⟩
        cases hnext.unique hvalue
        rw [hrun] at hn
        exact hn
    rcases hreach.cases_head with rfl | ⟨s', hs', htail⟩
    · refine ⟨?_, fun hself => ?_⟩
      · rcases returns_loop.mp ⟨n + 1, hn⟩ with ⟨hbody, -⟩ | ⟨a, hbody, -⟩ | ⟨s', hbody, -⟩
        · exact hbody.completes
        · exact hbody.completes
        · exact hbody.completes
      · exact (ih .refl (hrest s hself)).2 hself
    · exact ih htail (hrest s' hs')

/-- When a body that goes on lowers a rank or stays where it is, its loop completes
exactly if the body completes in every state that is reached and stays in none. -/
theorem completes_loop_iff {body : σ → Checked (σ ⊕ α)} {R : σ → σ → Prop}
    (hR : ∀ s s', GoesOn body s s' ↔ R s s') (rank : σ → Nat)
    (hstep : ∀ s s', R s s' → s' = s ∨ rank s' < rank s) {s : σ} :
    Completes (loop body s) ↔ ∀ t, Relation.ReflTransGen R s t →
      Completes (body t) ∧ ¬R t t := by
  refine ⟨fun h t hreach => h.of_loop hR hreach, fun h => ?_⟩
  refine Ends.loop (I := Relation.ReflTransGen R s) rank ?_ .refl
  intro t ht
  obtain ⟨r, hr⟩ := (h t ht).1.returns
  refine ⟨r, hr, ?_⟩
  rintro (t' | a) rfl
  · have hnext := (hR t t').mp hr
    refine ⟨ht.tail hnext, (hstep t t' hnext).resolve_left ?_⟩
    rintro rfl
    exact (h t' ht).2 hnext
  · trivial

end Checked
