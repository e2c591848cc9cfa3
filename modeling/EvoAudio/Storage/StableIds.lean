import EvoAudio.Lib.Words
import Mathlib.Data.List.DropRight

/-!
# The stable ids of USB partitions

`derive` of `storage.usb/src/stable_id.rs`: a ladder of texts, the first of which
with something left after `sanitise` names the drive, then a suffix for the
partition and one against collisions. `TOKEN_RE` is what the id is documented to
match: a letter or digit, and at most 31 letters, digits, underscores and hyphens
behind it. The suffixes come after the truncation, and the first character is
looked at once.
-/

namespace EvoAudio.Storage.StableId

inductive IdSource where
  | operatorAlias
  | fsLabel
  | vendorModel
  | modelOnly
  | synthesized
  deriving DecidableEq, Repr

/-- The PARTUUID, which the caller looks the alias up with, is not read. -/
structure DerivationInput where
  label : Option (List Char)
  vendor : Option (List Char)
  model : Option (List Char)
  serialShort : Option (List Char)
  partitionIndex : UInt32
  partitionCount : UInt32
  deriving DecidableEq, Repr

structure DerivationContext where
  operatorAlias : Option (List Char)
  inUseStableIds : List (List Char)
  deriving DecidableEq, Repr

structure DerivedId where
  stableId : List Char
  displayName : List Char
  idSource : IdSource
  deriving DecidableEq, Repr

-- ---------------------------------------------------------------------------
-- Sanitising
-- ---------------------------------------------------------------------------

/-- A character that `sanitise` leaves as it is. -/
def isKept (ch : Char) : Bool := ch.isAlphanum || ch = '_'

/-- The text so far, and whether it ends in a hyphen that was pushed. -/
def pushChar (state : List Char × Bool) (ch : Char) : List Char × Bool :=
  if isKept ch then (state.1 ++ [ch], false)
  else if !state.2 && !state.1.isEmpty then (state.1 ++ ['-'], true)
  else state

def collapse (input : List Char) : List Char := (input.foldl pushChar ([], false)).1

def sanitise (input : List Char) : List Char :=
  let out := (collapse input).rdropWhile (· == '-')
  let out := (out.dropWhile (· == '-')).take 32
  match out with
  | first :: rest => if first.isAlphanum then out else rest
  | [] => out

-- ---------------------------------------------------------------------------
-- The ladder
-- ---------------------------------------------------------------------------

def withPartitionSuffix (base : List Char) (input : DerivationInput) : List Char :=
  if input.partitionCount > 1 then base ++ "-p".toList ++ Text.decimal input.partitionIndex
  else base

def numbered (candidate : List Char) (n : Nat) : List Char :=
  candidate ++ '-' :: Nat.toDigits 10 n

/-- The loop over the numbers, with so many left to the ceiling. -/
def deconflictFrom (candidate : List Char) (inUse : List (List Char)) : Nat → Nat → List Char
  | 0, n => numbered candidate n
  | left + 1, n =>
    if !inUse.contains (numbered candidate n) then numbered candidate n
    else deconflictFrom candidate inUse left (n + 1)

/-- The numbers 2 to 1024 are tried, and 1025 is returned untried. -/
def deconflict (candidate : List Char) (inUse : List (List Char)) : List Char :=
  if !inUse.contains candidate then candidate else deconflictFrom candidate inUse 1023 2

def isUsb (vendor : List Char) : Bool := Text.asciiLower (Text.trim vendor) = "usb".toList

/-- A vendor that is more than the placeholder. -/
def isPresent (vendor : List Char) : Bool := !(Text.trim vendor).isEmpty && !isUsb vendor

def nonEmpty (text : List Char) : Option (List Char) := if text = [] then none else some text

/-- The base that a rule makes of a text. -/
def sanitised (text : Option (List Char)) : Option (List Char) :=
  text.bind fun text => nonEmpty (sanitise text)

def vendorToken (vendor : Option (List Char)) : List Char :=
  Text.asciiLower ((sanitised ((vendor.map Text.trim).filter isPresent)).getD "usb".toList)

def serialSix (serialShort : Option (List Char)) : List Char :=
  match serialShort with
  | some serial =>
    let digits := (Text.asciiLower serial).filter Char.isAlphanum
    if 6 ≤ digits.length then digits.drop (digits.length - 6) else digits.leftpad 6 '0'
  | none => "000000".toList

def vendorModel (input : DerivationInput) : Option (List Char) := do
  let vendor ← input.vendor.filter isPresent
  let v ← sanitised (some vendor)
  let m ← sanitised input.model
  some (v ++ '-' :: m)

/-- The text of the last rule. -/
def synthesized (input : DerivationInput) : List Char :=
  "unlabelled-".toList ++ vendorToken input.vendor ++ '-' :: serialSix input.serialShort

/-- The rule that names the drive, and the name. -/
def ladder (input : DerivationInput) (operatorAlias : Option (List Char)) : IdSource × List Char :=
  match sanitised operatorAlias with
  | some base => (.operatorAlias, base)
  | none =>
    match sanitised input.label with
    | some base => (.fsLabel, base)
    | none =>
      match vendorModel input with
      | some base => (.vendorModel, base)
      | none =>
        match sanitised input.model with
        | some base => (.modelOnly, base)
        | none => (.synthesized, sanitise (synthesized input))

def derive (input : DerivationInput) (ctx : DerivationContext) : DerivedId :=
  let (idSource, base) := ladder input ctx.operatorAlias
  ⟨deconflict (withPartitionSuffix base input) ctx.inUseStableIds, base, idSource⟩

/-- A match of `TOKEN_RE`. -/
def isToken : List Char → Bool
  | first :: rest => first.isAlphanum && rest.all (fun ch => isKept ch || ch = '-') && rest.length ≤ 31
  | [] => false

-- ---------------------------------------------------------------------------
-- What sanitising leaves
-- ---------------------------------------------------------------------------

def Begins (text : List Char) : Prop := ∃ c ∈ text.head?, c.isAlphanum = true

def IdChars (text : List Char) : Prop := ∀ c ∈ text, isKept c = true ∨ c = '-'

/-- After what is dropped at the start there is no underscore with something else
than a letter or digit behind it. -/
def BeginsWell (text : List Char) : Prop :=
  ∀ next, text.dropWhile (fun ch => !isKept ch) = '_' :: next → Begins next

theorem isToken_iff {text : List Char} :
    isToken text = true ↔ Begins text ∧ IdChars text ∧ text.length ≤ 32 := by
  cases text with
  | nil => simp [isToken, Begins]
  | cons first rest =>
    have hkept (h : first.isAlphanum = true) : isKept first = true := by simp [isKept, h]
    simp only [isToken, Begins, IdChars, List.head?_cons, Option.mem_some_iff, exists_eq_left',
      Bool.and_eq_true, List.all_eq_true, Bool.or_eq_true, decide_eq_true_eq, List.forall_mem_cons,
      List.length_cons]
    constructor
    · rintro ⟨⟨hfirst, hrest⟩, hlen⟩
      exact ⟨hfirst, ⟨.inl (hkept hfirst), hrest⟩, by omega⟩
    · rintro ⟨hfirst, ⟨-, hrest⟩, hlen⟩
      exact ⟨⟨hfirst, hrest⟩, by omega⟩

theorem Begins.append (h : text ≠ []) (suffix : List Char) :
    Begins (text ++ suffix) ↔ Begins text := by
  obtain ⟨c, rest, rfl⟩ := List.exists_cons_of_ne_nil h
  rfl

theorem Begins.of_isPrefix (hpre : text <+: other) (h : text ≠ []) :
    Begins other ↔ Begins text := by
  obtain ⟨suffix, rfl⟩ := hpre
  exact Begins.append h suffix

theorem IdChars.append (h : IdChars text) (hsuffix : IdChars suffix) : IdChars (text ++ suffix) :=
  fun c hc => (List.mem_append.mp hc).elim (h c) (hsuffix c)

theorem idChars_digits {digits : List Char} (h : ∀ c ∈ digits, c.isDigit = true) : IdChars digits :=
  fun c hc => .inl (by simp [isKept, Char.isAlphanum, h c hc])

/-- What is pushed stays, and what is pushed on is kept characters and hyphens. -/
theorem foldl_pushChar (input out : List Char) (last : Bool) :
    ∃ more, (input.foldl pushChar (out, last)).1 = out ++ more ∧ IdChars more := by
  induction input generalizing out last with
  | nil => exact ⟨[], by simp, by simp [IdChars]⟩
  | cons ch input ih =>
    rw [List.foldl_cons, pushChar]
    split
    next hkept =>
      obtain ⟨more, hmore, hchars⟩ := ih (out ++ [ch]) false
      exact ⟨ch :: more, by simp [hmore], List.forall_mem_cons.mpr ⟨.inl hkept, hchars⟩⟩
    split
    · obtain ⟨more, hmore, hchars⟩ := ih (out ++ ['-']) true
      exact ⟨'-' :: more, by simp [hmore], List.forall_mem_cons.mpr ⟨.inr rfl, hchars⟩⟩
    · exact ih out last

theorem collapse_dropWhile (input : List Char) :
    collapse (input.dropWhile fun ch => !isKept ch) = collapse input := by
  induction input with
  | nil => rfl
  | cons ch input ih =>
    by_cases hkept : isKept ch
    · rw [List.dropWhile_cons_of_neg (by simp [hkept])]
    · have hpush : pushChar ([], false) ch = ([], false) := by simp [pushChar, hkept]
      rw [List.dropWhile_cons_of_pos (by simp [hkept]), ih, collapse, collapse, List.foldl_cons, hpush]

/-- A kept character, and what is pushed behind it. -/
theorem collapse_cons {c : Char} (h : isKept c = true) (rest : List Char) :
    ∃ more, collapse (c :: rest) = c :: more ∧ IdChars more ∧ (Begins more ↔ Begins rest) := by
  have hfirst : collapse (c :: rest) = (rest.foldl pushChar ([c], false)).1 := by
    simp [collapse, pushChar, h]
  rw [hfirst]
  cases rest with
  | nil => exact ⟨[], rfl, by simp [IdChars], .rfl⟩
  | cons d rest =>
    rw [List.foldl_cons, pushChar]
    by_cases hkept : isKept d
    · obtain ⟨more, hmore, hchars⟩ := foldl_pushChar rest ([c] ++ [d]) false
      rw [if_pos hkept, hmore]
      exact ⟨d :: more, rfl, List.forall_mem_cons.mpr ⟨.inl hkept, hchars⟩, .rfl⟩
    · obtain ⟨more, hmore, hchars⟩ := foldl_pushChar rest ([c] ++ ['-']) true
      rw [if_neg hkept, if_pos (by simp), hmore]
      refine ⟨'-' :: more, rfl, List.forall_mem_cons.mpr ⟨.inr rfl, hchars⟩, ?_⟩
      have hd : d.isAlphanum = false := by
        rw [Bool.not_eq_true, isKept, Bool.or_eq_false_iff] at hkept
        exact hkept.1
      simp [Begins, hd]

theorem rdropWhile_cons {p : Char → Bool} {c : Char} (h : p c = false) (l : List Char) :
    (c :: l).rdropWhile p = c :: l.rdropWhile p := by
  rw [List.rdropWhile, List.reverse_cons, List.dropWhile_append]
  split
  next hempty =>
    rw [List.isEmpty_iff] at hempty
    simp [List.rdropWhile, hempty, h]
  next => simp [List.rdropWhile]

/-- What is left of a text that begins with a kept character. -/
theorem sanitise_of_kept {input rest : List Char} {c : Char} (h : isKept c = true)
    (hinput : input.dropWhile (fun ch => !isKept ch) = c :: rest) :
    ∃ more, (more.length ≤ 31 ∧ IdChars more ∧ (more ≠ [] → (Begins more ↔ Begins rest))) ∧
      sanitise input = if c.isAlphanum then c :: more else more := by
  obtain ⟨more, hmore, hchars, hbegins⟩ := collapse_cons h rest
  have hdash : (c == '-') = false := by
    rw [beq_eq_false_iff_ne]
    rintro rfl
    exact absurd h (by decide)
  have hpre : (more.rdropWhile (· == '-')).take 31 <+: more :=
    (List.take_prefix ..).trans (List.rdropWhile_prefix ..)
  refine ⟨(more.rdropWhile (· == '-')).take 31, ⟨List.length_take_le .., fun d hd => hchars d ?_,
    fun hne => ?_⟩, ?_⟩
  · exact hpre.subset hd
  · rw [← hbegins, Begins.of_isPrefix hpre hne]
  · have htrim := rdropWhile_cons (p := (· == '-')) hdash more
    rw [sanitise, ← collapse_dropWhile, hinput, hmore, htrim,
      List.dropWhile_cons_of_neg (by simpa using hdash)]
    rfl

theorem sanitise_of_dropped {input : List Char}
    (h : input.dropWhile (fun ch => !isKept ch) = []) : sanitise input = [] := by
  rw [sanitise, ← collapse_dropWhile, h]
  rfl

theorem isKept_of_dropWhile {input : List Char}
    (h : input.dropWhile (fun ch => !isKept ch) = c :: rest) : isKept c = true := by
  have := List.head?_dropWhile_not (fun ch => !isKept ch) input
  rw [h] at this
  simpa using this

/-- What is left is not too long, and of the characters of an id. -/
theorem sanitise_spec (input : List Char) :
    IdChars (sanitise input) ∧ (sanitise input).length ≤ 32 := by
  cases hinput : input.dropWhile fun ch => !isKept ch with
  | nil => simp [sanitise_of_dropped hinput, IdChars]
  | cons c rest =>
    have hkept := isKept_of_dropWhile hinput
    obtain ⟨more, ⟨hlen, hchars, -⟩, heq⟩ := sanitise_of_kept hkept hinput
    rw [heq]
    split
    · exact ⟨List.forall_mem_cons.mpr ⟨.inl hkept, hchars⟩, Nat.succ_le_succ hlen⟩
    · exact ⟨hchars, by omega⟩

/-- It begins with a letter or digit unless the one underscore that is taken off has
none behind it. -/
theorem sanitise_begins {input : List Char} (h : sanitise input ≠ []) :
    Begins (sanitise input) ↔ BeginsWell input := by
  unfold BeginsWell
  cases hinput : input.dropWhile fun ch => !isKept ch with
  | nil => exact absurd (sanitise_of_dropped hinput) h
  | cons c rest =>
    have hkept := isKept_of_dropWhile hinput
    obtain ⟨more, ⟨-, -, hbegins⟩, heq⟩ := sanitise_of_kept hkept hinput
    by_cases halnum : c.isAlphanum = true
    · rw [heq, if_pos halnum]
      refine iff_of_true ⟨c, rfl, halnum⟩ fun next hnext => ?_
      obtain ⟨rfl, -⟩ := List.cons.inj hnext
      exact absurd halnum (by decide)
    · have hunderscore : c = '_' := by simpa [isKept, halnum] using hkept
      rw [heq, if_neg halnum] at h ⊢
      rw [hbegins h, hunderscore]
      constructor
      · rintro hrest next hnext
        rw [← (List.cons.inj hnext).2]
        exact hrest
      · exact fun hnext => hnext rest rfl

-- ---------------------------------------------------------------------------
-- Collisions
-- ---------------------------------------------------------------------------

/-- The names that a candidate can be given. -/
def names (candidate : List Char) : List (List Char) :=
  candidate :: (List.range' 2 1024).map (numbered candidate)

/-- The first of the names that is not in use. -/
def freeName (candidate : List Char) (inUse : List (List Char)) : Option (List Char) :=
  (names candidate).find? fun name => !inUse.contains name

theorem deconflictFrom_eq (candidate : List Char) (inUse : List (List Char)) (left n : Nat) :
    deconflictFrom candidate inUse left n =
      (((List.range' n (left + 1)).map (numbered candidate)).find?
        fun name => !inUse.contains name).getD (numbered candidate (n + left)) := by
  induction left generalizing n with
  | zero =>
    rw [deconflictFrom, List.range'_one, List.map_singleton, List.find?_singleton]
    split <;> rfl
  | succ left ih =>
    rw [deconflictFrom, List.range'_succ, List.map_cons]
    split
    next hfree => rw [List.find?_cons_of_pos (by simpa using hfree), Option.getD_some]
    next hused =>
      rw [List.find?_cons_of_neg (by simpa using hused), ih, Nat.add_right_comm, Nat.add_assoc]

theorem deconflict_eq (candidate : List Char) (inUse : List (List Char)) :
    deconflict candidate inUse = (freeName candidate inUse).getD (numbered candidate 1025) := by
  unfold deconflict freeName names
  split
  next hfree => rw [List.find?_cons_of_pos (by simpa using hfree), Option.getD_some]
  next hused => rw [List.find?_cons_of_neg (by simpa using hused), deconflictFrom_eq]

/-- What is returned is fresh when one of the names is. -/
theorem deconflict_fresh_iff {candidate : List Char} {inUse : List (List Char)} :
    deconflict candidate inUse ∉ inUse ↔ freeName candidate inUse = some (deconflict candidate inUse) := by
  rw [deconflict_eq]
  cases hfree : freeName candidate inUse with
  | some name => simpa using List.find?_some hfree
  | none =>
    have hlast : numbered candidate 1025 ∈ names candidate :=
      List.mem_cons_of_mem _ (List.mem_map_of_mem (by simp))
    have hused := List.find?_eq_none.mp hfree _ hlast
    simpa using hused

theorem exists_suffix_of_deconflict (candidate : List Char) (inUse : List (List Char)) :
    ∃ suffix, deconflict candidate inUse = candidate ++ suffix ∧ IdChars suffix := by
  have hnumber (n : Nat) : ∃ suffix, numbered candidate n = candidate ++ suffix ∧ IdChars suffix :=
    ⟨'-' :: Nat.toDigits 10 n, rfl, List.forall_mem_cons.mpr ⟨.inr rfl,
      idChars_digits fun c hc => Nat.isDigit_of_mem_toDigits (by omega) (by omega) hc⟩⟩
  rw [deconflict_eq]
  cases hfree : freeName candidate inUse with
  | none => exact hnumber 1025
  | some name =>
    rcases List.mem_cons.mp (List.mem_of_find?_eq_some hfree) with rfl | hmem
    · exact ⟨[], by simp, by simp [IdChars]⟩
    · obtain ⟨n, -, rfl⟩ := List.mem_map.mp hmem
      exact hnumber n

theorem exists_suffix_of_partition (base : List Char) (input : DerivationInput) :
    ∃ suffix, withPartitionSuffix base input = base ++ suffix ∧ IdChars suffix := by
  have hdashes : IdChars "-p".toList := by
    intro c hc
    have hc : c = '-' ∨ c = 'p' := by simpa using hc
    rcases hc with rfl | rfl
    · exact .inr rfl
    · exact .inl (by decide)
  unfold withPartitionSuffix
  split
  · refine ⟨"-p".toList ++ Text.decimal input.partitionIndex, List.append_assoc .., ?_⟩
    exact hdashes.append (idChars_digits fun c hc => Text.isDigit_of_mem_decimal hc)
  · exact ⟨[], by simp, by simp [IdChars]⟩

-- ---------------------------------------------------------------------------
-- What names a drive
-- ---------------------------------------------------------------------------

/-- There is no text, or nothing left of it. -/
def Blank (text : Option (List Char)) : Prop := ∀ t ∈ text, sanitise t = []

/-- The text that the name of a drive begins with, and the name. -/
inductive Names (input : DerivationInput) (operatorAlias : Option (List Char)) :
    List Char → List Char → Prop where
  | operatorAlias (text : List Char) (h : operatorAlias = some text) (hleft : sanitise text ≠ []) :
      Names input operatorAlias text (sanitise text)
  | fsLabel (text : List Char) (halias : Blank operatorAlias) (h : input.label = some text)
      (hleft : sanitise text ≠ []) : Names input operatorAlias text (sanitise text)
  | vendorModel (vendor model : List Char) (halias : Blank operatorAlias)
      (hlabel : Blank input.label) (hvendor : input.vendor = some vendor)
      (hpresent : isPresent vendor = true) (hvendorLeft : sanitise vendor ≠ [])
      (hmodel : input.model = some model) (hmodelLeft : sanitise model ≠ []) :
      Names input operatorAlias vendor (sanitise vendor ++ '-' :: sanitise model)
  | modelOnly (model : List Char) (halias : Blank operatorAlias) (hlabel : Blank input.label)
      (hvendor : Blank (input.vendor.filter isPresent)) (hmodel : input.model = some model)
      (hleft : sanitise model ≠ []) : Names input operatorAlias model (sanitise model)
  | synthesized (halias : Blank operatorAlias) (hlabel : Blank input.label)
      (hmodel : Blank input.model) :
      Names input operatorAlias (synthesized input) (sanitise (synthesized input))

theorem sanitised_some {text : Option (List Char)} {t : List Char} (h : text = some t)
    (hleft : sanitise t ≠ []) : sanitised text = some (sanitise t) := by
  rw [h]
  exact if_neg hleft

theorem sanitised_eq_none {text : Option (List Char)} : sanitised text = none ↔ Blank text := by
  cases text with
  | none => simp [sanitised, Blank]
  | some t => simp [sanitised, Blank, nonEmpty]

theorem sanitised_cases (text : Option (List Char)) :
    Blank text ∨ ∃ t, text = some t ∧ sanitise t ≠ [] := by
  cases text with
  | none => simp [Blank]
  | some t => by_cases h : sanitise t = [] <;> simp [Blank, h]

theorem vendorModel_of_blank (h : Blank (input.vendor.filter isPresent) ∨ Blank input.model) :
    vendorModel input = none := by
  unfold vendorModel
  cases hvendor : input.vendor.filter isPresent with
  | none => rfl
  | some vendor =>
    rcases h with h | h
    · rw [hvendor] at h
      simp [sanitised_eq_none.mpr h]
    · simp [sanitised_eq_none.mpr h]

/-- The names are what the ladder finds. -/
theorem ladder_of_names (h : Names input operatorAlias lead base) :
    (ladder input operatorAlias).2 = base := by
  cases h with
  | operatorAlias _ h hleft => rw [ladder, sanitised_some h hleft]
  | fsLabel _ halias h hleft =>
    rw [ladder, sanitised_eq_none.mpr halias, sanitised_some h hleft]
  | vendorModel _ model halias hlabel hvendor hpresent hvendorLeft hmodel hmodelLeft =>
    have hfound : vendorModel input = some (sanitise lead ++ '-' :: sanitise model) := by
      simp [vendorModel, hvendor, Option.filter, hpresent, sanitised_some rfl hvendorLeft,
        sanitised_some hmodel hmodelLeft]
    rw [ladder, sanitised_eq_none.mpr halias, sanitised_eq_none.mpr hlabel, hfound]
  | modelOnly _ halias hlabel hvendor hmodel hleft =>
    rw [ladder, sanitised_eq_none.mpr halias, sanitised_eq_none.mpr hlabel,
      vendorModel_of_blank (.inl hvendor), sanitised_some hmodel hleft]
  | synthesized halias hlabel hmodel =>
    rw [ladder, sanitised_eq_none.mpr halias, sanitised_eq_none.mpr hlabel,
      vendorModel_of_blank (.inr hmodel), sanitised_eq_none.mpr hmodel]

theorem exists_names (input : DerivationInput) (operatorAlias : Option (List Char)) :
    ∃ lead base, Names input operatorAlias lead base := by
  rcases sanitised_cases operatorAlias with halias | ⟨text, h, hleft⟩
  case inr => exact ⟨_, _, .operatorAlias text h hleft⟩
  rcases sanitised_cases input.label with hlabel | ⟨text, h, hleft⟩
  case inr => exact ⟨_, _, .fsLabel text halias h hleft⟩
  rcases sanitised_cases input.model with hmodel | ⟨model, hmodel, hmodelLeft⟩
  · exact ⟨_, _, .synthesized halias hlabel hmodel⟩
  rcases sanitised_cases (input.vendor.filter isPresent) with hvendor | ⟨vendor, hvendor, hleft⟩
  · exact ⟨_, _, .modelOnly model halias hlabel hvendor hmodel hmodelLeft⟩
  · obtain ⟨hvendor, hpresent⟩ := Option.filter_eq_some_iff.mp hvendor
    exact ⟨_, _, .vendorModel vendor model halias hlabel hvendor hpresent hleft hmodel hmodelLeft⟩

/-- What is synthesized begins with a letter. -/
theorem synthesized_begins (input : DerivationInput) :
    sanitise (synthesized input) ≠ [] ∧ BeginsWell (synthesized input) := by
  have hkept : isKept 'u' = true := by decide
  obtain ⟨rest, hrest⟩ : ∃ rest, synthesized input = 'u' :: rest := by
    unfold synthesized
    rw [String.toList_ofList]
    exact ⟨_, rfl⟩
  have hdrop : (synthesized input).dropWhile (fun ch => !isKept ch) = 'u' :: rest := by
    rw [hrest, List.dropWhile_cons_of_neg (by simp [hkept])]
  obtain ⟨more, -, heq⟩ := sanitise_of_kept hkept hdrop
  refine ⟨by simp [heq], fun next hnext => ?_⟩
  rw [hdrop] at hnext
  exact absurd (List.cons.inj hnext).1 (by decide)

/-- What a name is made of, and when it begins as an id has to. -/
theorem Names.spec {chosen : Option (List Char)} (h : Names input chosen lead base) :
    base ≠ [] ∧ IdChars base ∧ (Begins base ↔ BeginsWell lead) := by
  cases h with
  | operatorAlias _ _ hleft => exact ⟨hleft, (sanitise_spec _).1, sanitise_begins hleft⟩
  | fsLabel _ _ _ hleft => exact ⟨hleft, (sanitise_spec _).1, sanitise_begins hleft⟩
  | vendorModel _ model _ _ _ _ hvendorLeft _ _ =>
    refine ⟨by simp, ?_, ?_⟩
    · exact (sanitise_spec lead).1.append
        (List.forall_mem_cons.mpr ⟨.inr rfl, (sanitise_spec model).1⟩)
    · rw [Begins.append hvendorLeft, sanitise_begins hvendorLeft]
  | modelOnly _ _ _ _ _ hleft => exact ⟨hleft, (sanitise_spec _).1, sanitise_begins hleft⟩
  | synthesized =>
    obtain ⟨hleft, -⟩ := synthesized_begins input
    exact ⟨hleft, (sanitise_spec _).1, sanitise_begins hleft⟩

/-- The id of an input and a set of ids in use is valid and fresh. -/
def ValidAndFresh (input : DerivationInput) (ctx : DerivationContext) : Prop :=
  isToken (derive input ctx).stableId = true ∧ (derive input ctx).stableId ∉ ctx.inUseStableIds

/-- The name has a letter or digit to begin with, and with the suffix of its partition
one of its 1025 numbers is free, the first of which fits. -/
def Nameable (input : DerivationInput) (ctx : DerivationContext) : Prop :=
  ∀ lead base, Names input ctx.operatorAlias lead base →
    BeginsWell lead ∧
      ∃ name ∈ freeName (withPartitionSuffix base input) ctx.inUseStableIds, name.length ≤ 32

theorem derive_valid_iff (input : DerivationInput) (ctx : DerivationContext) :
    ValidAndFresh input ctx ↔ Nameable input ctx := by
  have hnamed : ∀ lead base, Names input ctx.operatorAlias lead base →
      (ValidAndFresh input ctx ↔ BeginsWell lead ∧
        ∃ name ∈ freeName (withPartitionSuffix base input) ctx.inUseStableIds,
          name.length ≤ 32) := by
    intro lead base h
    obtain ⟨hne, hchars, hbegins⟩ := h.spec
    have hid : (derive input ctx).stableId =
        deconflict (withPartitionSuffix base input) ctx.inUseStableIds := by
      rw [← ladder_of_names h]
      rfl
    obtain ⟨partition, hpartition, hpartitionChars⟩ := exists_suffix_of_partition base input
    obtain ⟨number, hnumber, hnumberChars⟩ :=
      exists_suffix_of_deconflict (withPartitionSuffix base input) ctx.inUseStableIds
    have hparts : (derive input ctx).stableId = base ++ (partition ++ number) := by
      rw [hid, hnumber, hpartition, List.append_assoc]
    have hidChars := hchars.append (hpartitionChars.append hnumberChars)
    rw [ValidAndFresh, isToken_iff]
    constructor
    · rintro ⟨⟨hbegin, -, hlen⟩, hfresh⟩
      rw [hparts, Begins.append hne] at hbegin
      rw [hid] at hfresh hlen
      exact ⟨hbegins.mp hbegin, _, deconflict_fresh_iff.mp hfresh, hlen⟩
    · rintro ⟨hlead, name, hfree, hlen⟩
      have hname : (derive input ctx).stableId = name := by
        rw [hid, deconflict_eq, hfree, Option.getD_some]
      refine ⟨⟨?_, ?_, hname ▸ hlen⟩, ?_⟩
      · rw [hparts, Begins.append hne]
        exact hbegins.mpr hlead
      · rw [hparts]
        exact hidChars
      · rw [hname]
        simpa using List.find?_some hfree
  constructor
  · intro h lead base hnames
    exact (hnamed lead base hnames).mp h
  · intro h
    obtain ⟨lead, base, hnames⟩ := exists_names input ctx.operatorAlias
    exact (hnamed lead base hnames).mpr (h lead base hnames)

/-- A disk with a second partition, whose label has 33 characters. -/
def longLabel : DerivationInput where
  label := some "Recordings of the Berlin Concerts".toList
  vendor := none
  model := none
  serialShort := none
  partitionIndex := 1
  partitionCount := 2

/-- The label is cut to 32 characters, and the partition's suffix comes behind it. -/
theorem partition_suffix_outgrows_token :
    (derive longLabel ⟨none, []⟩).stableId = "Recordings-of-the-Berlin-Concert-p1".toList ∧
      ¬ValidAndFresh longLabel ⟨none, []⟩ := by
  have hid : (derive longLabel ⟨none, []⟩).stableId =
      "Recordings-of-the-Berlin-Concert-p1".toList := by
    unfold longLabel
    repeat rw [String.toList_ofList]
    decide
  refine ⟨hid, fun h => ?_⟩
  rw [ValidAndFresh, hid] at h
  exact absurd h.1 (by decide)

end EvoAudio.Storage.StableId
