import EvoAudio.Options.Verbs

/-!
# The last known good settings

Each persist copies the state file to the sidecar before it replaces it. Where no
call leaves settings behind that it was refused, the file holds the settings in
force, so the sidecar holds settings that were in force before: those before the
last call that persisted, if its copy was made. A copy that fails is only logged.
-/

namespace EvoAudio.Options.Verbs

variable {φ : Type} [LE φ] [DecidableLE φ] [OfNat φ 0] [OfNat φ 1] (bounds : EqBounds φ)

-- ---------------------------------------------------------------------------
-- Calls that leave nothing behind
-- ---------------------------------------------------------------------------

/-- Once it has set the new type, a transition is refused only for want of a
persist, which it undoes. -/
def Course.Clean : Course → Prop
  | .stopped => True
  | .ran persist unmutes _ => persist.succeeds = true → unmutes = true
  | .cut point _ _ _ => point = .untouched

/-- The call does not fail after it has touched the settings, other than by a
transition that undoes what it did. -/
def Clean (s : Store φ) (call : Call φ) : Prop :=
  match call.verb with
  | .setMixerType _ => call.course.Clean
  | verb => call.persist.succeeds = true ∨ verb.puts bounds s.memory = none

/-- The call puts settings in force by a persist of its own, if it succeeds. -/
def Call.persists (s : Store φ) (call : Call φ) : Prop :=
  match call.verb with
  | .setMixerType target => s.memory.mixerType ≠ target
  | verb => verb.isSetter = true

/-- What goes wrong in that persist. -/
def Call.faults (call : Call φ) : PersistFaults :=
  match call.verb, call.course with
  | .setMixerType _, .ran persist _ _ => persist
  | _, _ => call.persist

/-- The settings that the calls of a run put in force, each acknowledged. -/
def acknowledged : Store φ → List (Call φ) → List (Settings φ)
  | _, [] => []
  | s, call :: calls =>
    let after := s.handle bounds call
    match after.1 with
    | .ok _ => after.2.memory :: acknowledged after.2 calls
    | .error _ => acknowledged after.2 calls

-- ---------------------------------------------------------------------------
-- What a clean call can do
-- ---------------------------------------------------------------------------

/-- What a clean call can do to a store whose file holds the settings in force. -/
inductive CleanCall (s : Store φ) (call : Call φ) : Except VerbError Unit → Store φ → Prop where
  /-- Nothing, or a copy of the file that was there. -/
  | kept (hmemory : s'.memory = s.memory) (hfile : s'.disk.file = s.disk.file)
    (hsidecar : s'.disk.lastKnownGood = s.disk.lastKnownGood ∨
      s'.disk.lastKnownGood = s.disk.file)
    (hpersists : result = .ok () → ¬call.persists s) : CleanCall s call result s'
  | persisted (hpersists : call.persists s) (hfile : s'.disk.file = some s'.memory)
    (hsidecar : s'.disk.lastKnownGood = (s.disk.snapshot call.faults.copyFails).lastKnownGood) :
    CleanCall s call (.ok ()) s'
  | restored (hverb : call.verb = .restoreLastKnownGood)
    (hmemory : s.disk.lastKnownGood = some s'.memory) (hfile : s'.disk.file = some s'.memory)
    (hsidecar : s'.disk.lastKnownGood = s.disk.lastKnownGood) : CleanCall s call (.ok ()) s'

section Cases

variable {s : Store φ} {call : Call φ}

omit [LE φ] [DecidableLE φ] [OfNat φ 0] [OfNat φ 1]

theorem snapshot_sidecar (disk : Disk φ) (copyFails : Bool) :
    (disk.snapshot copyFails).lastKnownGood = disk.lastKnownGood ∨
      (disk.snapshot copyFails).lastKnownGood = disk.file := by
  unfold Disk.snapshot
  split
  next settings hfile =>
    cases copyFails with
    | true => exact .inl rfl
    | false => exact .inr hfile.symm
  · exact .inl rfl

theorem CleanCall.unchanged (hpersists : result = .ok () → ¬call.persists s) :
    CleanCall s call result s := .kept rfl rfl (.inl rfl) hpersists

theorem cleanCall_put {faults : PersistFaults} (hfaults : call.faults = faults)
    (hpersists : call.persists s) (hsucceeds : faults.succeeds = true) (publishes : Bool)
    (settings : Settings φ) :
    CleanCall s call (s.put faults publishes settings).1 (s.put faults publishes settings).2 := by
  rw [Store.put_of_succeeds hsucceeds]
  exact .persisted hpersists (by simp) (by simp [hfaults])

variable [OfNat φ 0] [OfNat φ 1]

theorem cleanCall_transition (hagree : s.disk.file = some s.memory)
    (hverb : call.verb = .setMixerType target) (hpersists : call.persists s)
    (hclean : call.course.Clean) (publishes : Bool) :
    CleanCall s call (s.transition publishes target call.course).1
      (s.transition publishes target call.course).2 := by
  cases hcourse : call.course with
  | stopped => exact .unchanged (by simp [Store.transition])
  | ran persist unmutes restore =>
    have hfaults : call.faults = persist := by simp [Call.faults, hverb, hcourse]
    cases hsucceeds : persist.succeeds with
    | true =>
      obtain rfl : unmutes = true := by simpa [Course.Clean, hcourse, hsucceeds] using hclean
      have hput := cleanCall_put hfaults hpersists hsucceeds publishes
        { s.memory with mixerType := target }
      rw [Store.put_of_succeeds hsucceeds] at hput
      simpa only [Store.transition, Store.put_of_succeeds hsucceeds, if_true] using hput
    | false =>
      obtain ⟨disk, hput, hdisk⟩ := Store.put_of_fails hsucceeds publishes
        { s.memory with mixerType := target } s
      simp only [Store.transition, hput]
      obtain rfl | rfl := hdisk
      · exact .unchanged (by simp)
      · exact .kept rfl (file_snapshot s.disk false) (snapshot_sidecar s.disk false) (by simp)
  | cut point copyFails restoreCopyFails reloads =>
    obtain rfl : point = .untouched := by simpa [Course.Clean, hcourse] using hclean
    refine .kept ?_ ?_ (.inl ?_) (by simp [Store.transition])
    all_goals cases reloads <;> simp [Store.transition, Store.cutAt, Store.lateRename,
      Store.reload, hagree]

variable [LE φ] [DecidableLE φ] {bounds : EqBounds φ}

theorem setter_facts (hsetter : call.verb.isSetter = true) :
    call.faults = call.persist ∧ call.persists s ∧
      (Clean bounds s call →
        call.persist.succeeds = true ∨ call.verb.puts bounds s.memory = none) := by
  cases hverb : call.verb with
  | set setter => simp [Call.faults, Call.persists, Clean, hverb, Verb.isSetter]
  | resetToDefaults => simp [Call.faults, Call.persists, Clean, hverb, Verb.isSetter]
  | _ => simp [hverb, Verb.isSetter] at hsetter

theorem cleanCall_setter (hclean : Clean bounds s call) (hsetter : call.verb.isSetter = true) :
    CleanCall s call (s.handle bounds call).1 (s.handle bounds call).2 := by
  obtain ⟨hfaults, hpersists, hsafe⟩ := setter_facts hsetter
  obtain ⟨e, -, hrun⟩ | ⟨settings, hputs, hrun⟩ := handle_of_puts bounds hsetter s
  · rw [hrun]
    exact .unchanged (by simp)
  · rw [hrun]
    exact cleanCall_put hfaults hpersists ((hsafe hclean).resolve_right (by simp [hputs]))
      call.publishes settings

theorem cleanCall_handle (hagree : s.disk.file = some s.memory) (hclean : Clean bounds s call) :
    CleanCall s call (s.handle bounds call).1 (s.handle bounds call).2 := by
  cases hverb : call.verb with
  | get =>
    have hpersists : ¬call.persists s := by simp [Call.persists, hverb, Verb.isSetter]
    simpa [Store.handle, hverb] using CleanCall.unchanged fun _ => hpersists
  | malformed => simpa [Store.handle, hverb] using CleanCall.unchanged (by simp)
  | set setter => exact cleanCall_setter hclean (by simp [hverb, Verb.isSetter])
  | resetToDefaults => exact cleanCall_setter hclean (by simp [hverb, Verb.isSetter])
  | setMixerType target =>
    simp only [Store.handle, hverb]
    split
    · exact .unchanged (by simp)
    · split
      next hsame => exact .unchanged (by simp [Call.persists, hverb, hsame])
      next hother =>
        refine cleanCall_transition hagree hverb (by simpa [Call.persists, hverb] using hother) ?_
          call.publishes
        simpa [Clean, hverb] using hclean
  | restoreLastKnownGood =>
    simp only [Store.handle, hverb]
    cases hsidecar : s.disk.lastKnownGood with
    | none => exact .unchanged (by simp)
    | some settings =>
      dsimp only
      split
      · exact .unchanged (by simp)
      · exact .restored hverb (by simp [hsidecar]) (by simp) (by simp [hsidecar])

end Cases

-- ---------------------------------------------------------------------------
-- Runs of clean calls
-- ---------------------------------------------------------------------------

section Runs

variable {bounds} {start s s' : Store φ} {calls : List (Call φ)}

/-- The file holds the settings in force, and these and the sidecar are among the
settings that are known. -/
structure Known (K : Settings φ → Prop) (s : Store φ) : Prop where
  agree : s.disk.file = some s.memory
  memory : K s.memory
  sidecar : ∀ settings ∈ s.disk.lastKnownGood, K settings

omit [LE φ] [DecidableLE φ] [OfNat φ 0] [OfNat φ 1] in
theorem Known.clean {K : Settings φ → Prop} (h : Known K s) (hcall : CleanCall s call result s') :
    Known (fun settings => K settings ∨ result = .ok () ∧ settings = s'.memory) s' := by
  cases hcall with
  | kept hmemory hfile hsidecar _ =>
    refine ⟨by rw [hfile, hmemory, h.agree], .inl (hmemory ▸ h.memory), ?_⟩
    obtain hsidecar | hsidecar := hsidecar
    · rw [hsidecar]
      exact fun settings hs => .inl (h.sidecar settings hs)
    · rw [hsidecar, h.agree]
      simpa using .inl h.memory
  | persisted _ hfile hsidecar =>
    refine ⟨hfile, .inr ⟨rfl, rfl⟩, ?_⟩
    rw [hsidecar]
    obtain hold | hnew := snapshot_sidecar s.disk call.faults.copyFails
    · rw [hold]
      exact fun settings hs => .inl (h.sidecar settings hs)
    · rw [hnew, h.agree]
      simpa using .inl h.memory
  | restored _ _ hfile hsidecar =>
    refine ⟨hfile, .inr ⟨rfl, rfl⟩, ?_⟩
    rw [hsidecar]
    exact fun settings hs => .inl (h.sidecar settings hs)

theorem Known.exec {K : Settings φ → Prop} (h : Known K start)
    (hclean : Machine.Meets (Store.step bounds) (Clean bounds) start calls)
    (hexec : Machine.exec (Store.step bounds) start calls = some s) :
    Known (fun settings => K settings ∨ settings ∈ acknowledged bounds start calls) s := by
  induction calls generalizing start K with
  | nil =>
    cases hexec
    exact ⟨h.agree, .inl h.memory, fun settings hs => .inl (h.sidecar settings hs)⟩
  | cons call calls ih =>
    obtain ⟨hcall, hrest⟩ := (Machine.meets_cons rfl).mp hclean
    have hnext := ih (h.clean (cleanCall_handle h.agree hcall)) hrest hexec
    -- what is known after the call and what the rest acknowledges is what the whole run does
    have hknown (settings : Settings φ)
        (hs : (K settings ∨ (start.handle bounds call).1 = .ok () ∧
            settings = (start.handle bounds call).2.memory) ∨
          settings ∈ acknowledged bounds (start.handle bounds call).2 calls) :
        K settings ∨ settings ∈ acknowledged bounds start (call :: calls) := by
      simp only [acknowledged]
      cases hresult : (start.handle bounds call).1 with
      | error e => simpa [hresult] using hs
      | ok _ => simpa [hresult, or_assoc] using hs
    exact ⟨hnext.agree, hknown _ hnext.memory,
      fun settings hs => hknown _ (hnext.sidecar settings hs)⟩

omit [LE φ] [DecidableLE φ] [OfNat φ 0] [OfNat φ 1] in
theorem sidecar_of_persisted (hagree : s.disk.file = some s.memory) (hpersists : call.persists s)
    (hcopied : call.faults.copyFails = false) (hcall : CleanCall s call (.ok ()) s') :
    s'.disk.lastKnownGood = some s.memory := by
  cases hcall with
  | kept _ _ _ hnot => exact (hnot rfl hpersists).elim
  | persisted _ _ hsidecar => simp [hsidecar, hcopied, Disk.snapshot, hagree]
  | restored hverb _ _ _ => simp [Call.persists, hverb, Verb.isSetter] at hpersists

theorem restored_settings {restore : Call φ} (hverb : restore.verb = .restoreLastKnownGood)
    (hrun : s.handle bounds restore = (.ok (), s')) : s.disk.lastKnownGood = some s'.memory := by
  simp only [Store.handle, hverb] at hrun
  cases hsidecar : s.disk.lastKnownGood with
  | none => simp [hsidecar] at hrun
  | some settings =>
    simp only [hsidecar] at hrun
    split at hrun
    · cases hrun
    · cases hrun
      simp

/-- A restore after clean calls puts back settings that were in force, and the
settings before the last call where that was acknowledged and persisted and its
sidecar was copied. -/
theorem restore_puts_back_known_good (start : Store φ) (calls : List (Call φ))
    (hagree : start.disk.file = some start.memory)
    (hclean : Machine.Meets (Store.step bounds) (Clean bounds) start calls)
    (hexec : Machine.exec (Store.step bounds) start calls = some s) (restore : Call φ)
    (hverb : restore.verb = .restoreLastKnownGood)
    (hrestore : s.handle bounds restore = (.ok (), s')) :
    (s'.memory ∈ start.disk.lastKnownGood ∨ s'.memory = start.memory ∨
        s'.memory ∈ acknowledged bounds start calls) ∧
      ∀ earlier last before, calls = earlier ++ [last] →
        Machine.exec (Store.step bounds) start earlier = some before →
        (before.handle bounds last).1 = .ok () → last.persists before →
        last.faults.copyFails = false → s'.memory = before.memory := by
  have hsidecar := restored_settings hverb hrestore
  have hstart : Known (fun settings => settings ∈ start.disk.lastKnownGood ∨
      settings = start.memory) start :=
    ⟨hagree, .inr rfl, fun settings hs => .inl hs⟩
  constructor
  · simpa only [or_assoc] using (hstart.exec hclean hexec).sidecar s'.memory hsidecar
  · rintro earlier last before rfl hbefore hok hpersists hcopied
    obtain ⟨before', hbefore', hlast⟩ := Machine.exec_append.mp hexec
    obtain rfl : before = before' := by simpa [hbefore] using hbefore'
    obtain rfl : (before.handle bounds last).2 = s := by
      simpa [Machine.exec, Store.step] using hlast
    have hagree' := (hstart.exec hclean.left hbefore).agree
    have hcall := cleanCall_handle hagree' (hclean.at hbefore)
    rw [hok] at hcall
    have hcopy := sidecar_of_persisted hagree' hpersists hcopied hcall
    simpa [hcopy] using hsidecar.symm

end Runs

/-- The settings after `set_dop`. -/
def dopSet : Store Rat := (fresh.handle sourceBounds (smooth (.set (.dop true)))).2

theorem restore_puts_back_known_good_dop :
    let changed := (dopSet.handle sourceBounds (smooth (.set (.gapless false)))).2
    let restored := changed.handle sourceBounds (smooth .restoreLastKnownGood)
    restored.1 = .ok () ∧ restored.2.memory = dopSet.memory := by
  refine ⟨rfl, ?_⟩
  exact (restore_puts_back_known_good fresh
    [smooth (.set (.dop true)), smooth (.set (.gapless false))] rfl
    ⟨.inl rfl, .inl rfl, trivial⟩ rfl (smooth .restoreLastKnownGood) rfl rfl).2
    [smooth (.set (.dop true))] (smooth (.set (.gapless false))) dopSet rfl rfl rfl rfl rfl

/-- A transition that is rolled back for want of an unmute persists twice: the
sidecar is left with the type that was rolled back, and the restore puts it back. -/
theorem restore_of_rolledBack_settings :
    let rolledBack := fresh.handle sourceBounds { smooth (.setMixerType .none) with
      course := .ran PersistFaults.none false PersistFaults.none }
    let restored := rolledBack.2.handle sourceBounds (smooth .restoreLastKnownGood)
    rolledBack.1 = .error (.refused .transition) ∧ rolledBack.2.memory = fresh.memory ∧
      restored.1 = .ok () ∧ restored.2.memory = { fresh.memory with mixerType := .none } ∧
        restored.2.memory ≠ fresh.memory := by
  decide

-- The sidecar cannot be copied when `gapless` is set: the restore undoes `dop` as well.
example :
    let uncopied := { smooth (.set (.gapless false)) with persist := ⟨false, true, none⟩ }
    let changed := dopSet.handle sourceBounds uncopied
    let restored := changed.2.handle sourceBounds (smooth .restoreLastKnownGood)
    changed.1 = .ok () ∧ restored.1 = .ok () ∧ restored.2.memory.dop = false ∧
      dopSet.memory.dop = true := by
  decide

end EvoAudio.Options.Verbs
