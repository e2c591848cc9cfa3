import EvoAudio.Lib.Table
import EvoAudio.Lib.Trimming

/-!
# Wi-Fi roles

Which radio carries the station and which the access point, from the inventory, the order of
the bands and what the operator has named. Both names together are taken as they are.
One name alone is looked up among the radios that can bear it, and a name that none of
these has is passed over.
-/

namespace EvoAudio.Network

open Text

-- ---------------------------------------------------------------------------
-- Radios
-- ---------------------------------------------------------------------------

structure PhyBandSupport where
  ghz2_4 : Bool
  ghz5 : Bool
  ghz6 : Bool
deriving DecidableEq, Repr

def PhyBandSupport.bandCount (bands : PhyBandSupport) : Nat :=
  bands.ghz2_4.toNat + bands.ghz5.toNat + bands.ghz6.toNat

structure PhyCapability where
  interfaceModes : List (List Char)
  bands : PhyBandSupport
deriving DecidableEq, Repr

structure WifiDev where
  ifname : List Char
  phy : List Char

inductive ConnectionClass where
  | onboard
  | usb
deriving DecidableEq, Repr

def ConnectionClass.debug : ConnectionClass → List Char
  | .onboard => "Onboard".toList
  | .usb => "Usb".toList

structure WifiRadio where
  ifname : List Char
  phy : List Char
  capability : PhyCapability
  connectionClass : ConnectionClass
  isApVif : Bool
deriving DecidableEq, Repr

def isVirtualApIfname (name : List Char) : Bool :=
  match stripPrefix "ap".toList (asciiLower (trim name)) with
  | some rest => rest.isEmpty || rest.all Char.isDigit
  | none => false

def WifiRadio.fromDevAndCapability (dev : WifiDev) (capability : PhyCapability)
    (connectionClass : ConnectionClass) : WifiRadio :=
  { ifname := dev.ifname, phy := dev.phy, capability, connectionClass
    isApVif := isVirtualApIfname dev.ifname }

def WifiRadio.supports (radio : WifiRadio) (mode : String) : Bool :=
  radio.capability.interfaceModes.any fun m => asciiLower m == asciiLower mode.toList

def WifiRadio.staCapable (radio : WifiRadio) : Bool := radio.supports "managed"

def WifiRadio.apCapable (radio : WifiRadio) : Bool := radio.supports "ap"

inductive BandClass where
  | ghz6
  | ghz5
  | ghz2_4
deriving DecidableEq, Repr

def BandClass.supportedBy (bands : PhyBandSupport) : BandClass → Bool
  | .ghz6 => bands.ghz6
  | .ghz5 => bands.ghz5
  | .ghz2_4 => bands.ghz2_4

-- ---------------------------------------------------------------------------
-- Ranking the stations
-- ---------------------------------------------------------------------------

/-- The first band of the list that the radio supports makes the score, by its place as a
32-bit number. -/
def bandScore (radio : WifiRadio) (bandPriority : List BandClass) : Nat :=
  match bandPriority.findIdx? (·.supportedBy radio.capability.bands) with
  | some idx => 10 ^ (3 - idx % 2 ^ 32)
  | none => 0

def classScore : ConnectionClass → Nat
  | .onboard => 2
  | .usb => 1

def multiBandBonus (bands : PhyBandSupport) : Nat := if bands.bandCount > 1 then 1 else 0

def staScore (radio : WifiRadio) (bandPriority : List BandClass) : Nat :=
  bandScore radio bandPriority + classScore radio.connectionClass +
    multiBandBonus radio.capability.bands

def ranksUpTo (bandPriority : List BandClass) (a b : WifiRadio) : Bool :=
  decide (staScore a bandPriority ≤ staScore b bandPriority)

/-- `max_by_key`, for a set of candidates that is not empty. -/
def rankForSta (candidates : List WifiRadio) (bandPriority : List BandClass)
    (h : candidates ≠ []) : WifiRadio :=
  (Table.maxBy (ranksUpTo bandPriority) candidates).get
    (let ⟨_, hm⟩ := Table.maxBy_isSome h; hm ▸ rfl)

-- ---------------------------------------------------------------------------
-- Assigning the roles
-- ---------------------------------------------------------------------------

structure RoleAssignment where
  staIfname : List Char
  apIfname : List Char
  sameIface : Bool
  hadExplicitAp : Bool
  rationale : List Char
deriving DecidableEq, Repr

structure RoleOverrides where
  explicitSta : List Char := []
  explicitAp : List Char := []
  defaultStaFallback : List Char := []

def staCandidates (inventory : List WifiRadio) : List WifiRadio :=
  inventory.filter fun r => r.staCapable && !r.isApVif

def apCandidates (inventory : List WifiRadio) : List WifiRadio := inventory.filter (·.apCapable)

def RoleOverrides.fallback (overrides : RoleOverrides) : List Char :=
  if overrides.defaultStaFallback ≠ [] then overrides.defaultStaFallback else "wlan0".toList

def rationale (explicitSta explicitAp : List Char) (chosenSta chosenAp : WifiRadio) : List Char :=
  if explicitSta = [] ∧ explicitAp = [] then
    if chosenSta.ifname = chosenAp.ifname then
      "auto-assigned: only one radio (".toList ++ chosenSta.ifname ++ ", phy ".toList ++
        chosenSta.phy ++
        "); STA + AP share — concurrent-vif if PHY supports, else single-mode".toList
    else
      "auto-assigned: STA on ".toList ++ chosenSta.ifname ++ " (phy ".toList ++ chosenSta.phy ++
        ", class ".toList ++ chosenSta.connectionClass.debug ++ "), AP on ".toList ++
        chosenAp.ifname ++ " (phy ".toList ++ chosenAp.phy ++ ", class ".toList ++
        chosenAp.connectionClass.debug ++
        ") — split-radio by band priority + connection class".toList
  else if explicitSta ≠ [] then
    "STA pinned to ".toList ++ chosenSta.ifname ++ " by operator; AP auto-assigned to ".toList ++
      chosenAp.ifname
  else
    "AP pinned to ".toList ++ chosenAp.ifname ++ " by operator; STA auto-assigned to ".toList ++
      chosenSta.ifname

def chooseSta (first : WifiRadio) (rest : List WifiRadio) (bandPriority : List BandClass)
    (explicitSta : List Char) : WifiRadio :=
  if explicitSta ≠ [] then
    ((first :: rest).find? (·.ifname == explicitSta)).getD first
  else
    rankForSta (first :: rest) bandPriority (List.cons_ne_nil first rest)

def chooseAp (candidates : List WifiRadio) (chosenSta : WifiRadio) (explicitAp : List Char) :
    WifiRadio :=
  if explicitAp ≠ [] then (candidates.find? (·.ifname == explicitAp)).getD chosenSta
  else (candidates.find? (·.ifname != chosenSta.ifname)).getD chosenSta

def assignWifiRoles (inventory : List WifiRadio) (bandPriority : List BandClass)
    (overrides : RoleOverrides) : RoleAssignment :=
  let explicitSta := trim overrides.explicitSta
  let explicitAp := trim overrides.explicitAp
  if explicitSta ≠ [] ∧ explicitAp ≠ [] then
    { staIfname := explicitSta
      apIfname := explicitAp
      sameIface := explicitSta == explicitAp
      hadExplicitAp := true
      rationale :=
        if explicitSta = explicitAp then "operator pinned both legs to one iface".toList
        else "operator pinned STA + AP explicitly (split-radio)".toList }
  else
    match staCandidates inventory with
    | [] =>
      let chosenAp := if explicitAp ≠ [] then explicitAp else overrides.fallback
      { staIfname := overrides.fallback
        apIfname := chosenAp
        sameIface := chosenAp == overrides.fallback
        hadExplicitAp := explicitAp != []
        rationale := ("no STA-capable radio in inventory; falling back to default ifname " ++
          "(apply pipeline will surface the gap)").toList }
    | first :: rest =>
      let chosenSta := chooseSta first rest bandPriority explicitSta
      let chosenAp := chooseAp (apCandidates inventory) chosenSta explicitAp
      { staIfname := chosenSta.ifname
        apIfname := chosenAp.ifname
        sameIface := chosenSta.ifname == chosenAp.ifname
        hadExplicitAp := explicitAp != []
        rationale := rationale explicitSta explicitAp chosenSta chosenAp }

-- ---------------------------------------------------------------------------
-- What the ranking says
-- ---------------------------------------------------------------------------

/-- The last radio of the greatest score is taken: none before it has more, and all after it
have less. -/
theorem rankForSta_split (candidates : List WifiRadio) (bandPriority : List BandClass)
    (h : candidates ≠ []) : ∃ before after,
      candidates = before ++ rankForSta candidates bandPriority h :: after ∧
      (∀ r ∈ before, staScore r bandPriority ≤
        staScore (rankForSta candidates bandPriority h) bandPriority) ∧
      ∀ r ∈ after, staScore r bandPriority <
        staScore (rankForSta candidates bandPriority h) bandPriority := by
  have hsome : Table.maxBy (ranksUpTo bandPriority) candidates =
      some (rankForSta candidates bandPriority h) := (Option.some_get _).symm
  obtain ⟨before, after, hsplit, hbefore, hafter⟩ := Table.maxBy_split
    (fun a b => by simpa [ranksUpTo] using Nat.le_total _ _)
    (fun a b c hab hbc => by simp only [ranksUpTo, decide_eq_true_eq] at *; omega) hsome
  refine ⟨before, after, hsplit, fun r hr => of_decide_eq_true (hbefore r hr), fun r hr => ?_⟩
  exact Nat.lt_of_not_le fun hle => hafter r hr (decide_eq_true hle)

theorem rankForSta_best {candidates : List WifiRadio} (bandPriority : List BandClass)
    (h : candidates ≠ []) : rankForSta candidates bandPriority h ∈ candidates ∧
      ∀ r ∈ candidates, staScore r bandPriority ≤
        staScore (rankForSta candidates bandPriority h) bandPriority := by
  obtain ⟨before, after, hsplit, hbefore, hafter⟩ := rankForSta_split candidates bandPriority h
  refine ⟨?_, fun r hr => ?_⟩
  · have hmem := List.mem_append_right before
      (List.mem_cons_self (a := rankForSta candidates bandPriority h) (l := after))
    rwa [← hsplit] at hmem
  · rcases List.mem_append.mp (hsplit ▸ hr) with hr | hr
    · exact hbefore r hr
    · rcases List.mem_cons.mp hr with heq | hr
      · exact Nat.le_of_eq (congrArg (staScore · bandPriority) heq)
      · exact Nat.le_of_lt (hafter r hr)

/-- What a score owes to the class and the number of bands. -/
theorem staScore_bounds (radio : WifiRadio) (bandPriority : List BandClass) :
    bandScore radio bandPriority < staScore radio bandPriority ∧
      staScore radio bandPriority ≤ bandScore radio bandPriority + 3 := by
  have hclass : 1 ≤ classScore radio.connectionClass ∧ classScore radio.connectionClass ≤ 2 := by
    cases radio.connectionClass <;> decide
  have hbonus : multiBandBonus radio.capability.bands ≤ 1 := by
    rw [multiBandBonus]
    split <;> decide
  rw [staScore]
  omega

theorem le_bandScore {radio : WifiRadio} {bandPriority : List BandClass} (hi : i < 3)
    (hband : bandPriority[i]? = some band)
    (h : band.supportedBy radio.capability.bands = true) :
    10 ^ (3 - i) ≤ bandScore radio bandPriority := by
  obtain ⟨hlt, hget⟩ := List.getElem?_eq_some_iff.mp hband
  rw [bandScore]
  split
  · next idx hidx =>
    obtain ⟨_, _, hfirst⟩ := List.findIdx?_eq_some_iff_getElem.mp hidx
    have hle : idx ≤ i := Nat.le_of_not_lt fun hlt => hfirst i hlt (hget ▸ h)
    rw [Nat.mod_eq_of_lt (by omega)]
    exact Nat.pow_le_pow_right (by decide) (by omega)
  · next hnone =>
    have hno := List.findIdx?_eq_none_iff.mp hnone band (List.mem_of_getElem? hband)
    exact absurd (hno.symm.trans h) Bool.false_ne_true

theorem bandScore_le {radio : WifiRadio} {bandPriority : List BandClass}
    (h : ∀ j band, bandPriority[j]? = some band → j % 2 ^ 32 ≤ i →
      band.supportedBy radio.capability.bands = false) :
    bandScore radio bandPriority ≤ 10 ^ (2 - i) := by
  rw [bandScore]
  split
  · next idx hidx =>
    obtain ⟨hlt, hsupported, -⟩ := List.findIdx?_eq_some_iff_getElem.mp hidx
    have hlater : ¬idx % 2 ^ 32 ≤ i := by
      intro hle
      rw [h idx _ (List.getElem?_eq_getElem hlt) hle] at hsupported
      cases hsupported
    exact Nat.pow_le_pow_right (by decide) (by omega)
  · exact Nat.zero_le _

/-- A radio with a band in one of the first three places is above every radio that has none
up to that place. -/
theorem staScore_lt {bandPriority : List BandClass} {a b : WifiRadio} (hi : i < 3)
    (hband : bandPriority[i]? = some band) (ha : band.supportedBy a.capability.bands = true)
    (hb : ∀ j band, bandPriority[j]? = some band → j % 2 ^ 32 ≤ i →
      band.supportedBy b.capability.bands = false) :
    staScore b bandPriority < staScore a bandPriority := by
  have hlow := le_bandScore hi hband ha
  have hhigh := bandScore_le hb
  have hgap : 10 ^ (2 - i) + 3 ≤ 10 ^ (3 - i) := by
    obtain rfl | rfl | rfl : i = 0 ∨ i = 1 ∨ i = 2 := by omega
    all_goals decide
  have hbelow := (staScore_bounds b bandPriority).2
  have habove := (staScore_bounds a bandPriority).1
  omega

-- ---------------------------------------------------------------------------
-- What an assignment honours
-- ---------------------------------------------------------------------------

section Choices

variable {first chosenSta : WifiRadio} {rest candidates : List WifiRadio}
variable {bandPriority : List BandClass} {name : List Char}

theorem find_named (h : ∃ r ∈ candidates, r.ifname = name) (other : WifiRadio) :
    ((candidates.find? (·.ifname == name)).getD other).ifname = name := by
  cases hfind : candidates.find? (·.ifname == name) with
  | some r =>
    rw [Option.getD_some]
    simpa using List.find?_some hfind
  | none =>
    obtain ⟨r, hr, hname⟩ := h
    exact absurd (beq_iff_eq.mpr hname) (List.find?_eq_none.mp hfind r hr)

theorem find_unnamed (h : ∀ r ∈ candidates, r.ifname ≠ name) (other : WifiRadio) :
    (candidates.find? (·.ifname == name)).getD other = other := by
  have hnone : candidates.find? (·.ifname == name) = none :=
    List.find?_eq_none.mpr fun r hr => by simpa using h r hr
  rw [hnone, Option.getD_none]

/-- Without a name the access point goes to another radio, if one can bear it, and else to
the station's, which is then the only name that can. -/
theorem chooseAp_split (candidates : List WifiRadio) (chosenSta : WifiRadio) :
    (chooseAp candidates chosenSta [] ∈ candidates ∧
      (chooseAp candidates chosenSta []).ifname ≠ chosenSta.ifname) ∨
    (chooseAp candidates chosenSta [] = chosenSta ∧
      ∀ r ∈ candidates, r.ifname = chosenSta.ifname) := by
  rw [chooseAp, if_neg (not_not_intro rfl)]
  cases hfind : candidates.find? (·.ifname != chosenSta.ifname) with
  | some r => exact .inl ⟨List.mem_of_find?_eq_some hfind, by simpa using List.find?_some hfind⟩
  | none => exact .inr ⟨rfl, fun r hr => by simpa using List.find?_eq_none.mp hfind r hr⟩

end Choices

/-- The rules by which the roles are given. -/
structure Honours (inventory : List WifiRadio) (bandPriority : List BandClass)
    (overrides : RoleOverrides) (assigned : RoleAssignment) : Prop where
  /-- Two names are taken as they are. -/
  pinned : trim overrides.explicitSta ≠ [] → trim overrides.explicitAp ≠ [] →
    assigned.staIfname = trim overrides.explicitSta ∧
      assigned.apIfname = trim overrides.explicitAp
  /-- Without a radio for the station there is the default name. -/
  noStation : (trim overrides.explicitSta = [] ∨ trim overrides.explicitAp = []) →
    staCandidates inventory = [] →
    assigned.staIfname = overrides.fallback ∧
      assigned.apIfname =
        if trim overrides.explicitAp ≠ [] then trim overrides.explicitAp else overrides.fallback
  staNamed : (∃ r ∈ staCandidates inventory, r.ifname = trim overrides.explicitSta) →
    trim overrides.explicitSta ≠ [] → assigned.staIfname = trim overrides.explicitSta
  /-- A name that no station has gives way to the first station. -/
  staUnnamed : (∀ r ∈ staCandidates inventory, r.ifname ≠ trim overrides.explicitSta) →
    trim overrides.explicitSta ≠ [] → trim overrides.explicitAp = [] →
    ∀ first ∈ (staCandidates inventory).head?, assigned.staIfname = first.ifname
  staBest : trim overrides.explicitSta = [] → staCandidates inventory ≠ [] →
    ∃ r ∈ staCandidates inventory, assigned.staIfname = r.ifname ∧
      ∀ other ∈ staCandidates inventory, staScore other bandPriority ≤ staScore r bandPriority
  apNamed : (∃ r ∈ apCandidates inventory, r.ifname = trim overrides.explicitAp) →
    trim overrides.explicitAp ≠ [] → assigned.apIfname = trim overrides.explicitAp
  /-- A name that no access point has gives way to the station's. -/
  apUnnamed : (∀ r ∈ apCandidates inventory, r.ifname ≠ trim overrides.explicitAp) →
    trim overrides.explicitSta = [] → trim overrides.explicitAp ≠ [] →
    staCandidates inventory ≠ [] → assigned.apIfname = assigned.staIfname
  apCapable : trim overrides.explicitAp = [] → staCandidates inventory ≠ [] →
    apCandidates inventory ≠ [] → ∃ r ∈ apCandidates inventory, assigned.apIfname = r.ifname
  apApart : trim overrides.explicitAp = [] → staCandidates inventory ≠ [] →
    (∃ r ∈ apCandidates inventory, r.ifname ≠ assigned.staIfname) →
    assigned.apIfname ≠ assigned.staIfname
  /-- An earlier band, among the first three of the list, comes before all that follow. -/
  outranks : ∀ a b : WifiRadio, ∀ i band, i < 3 → bandPriority[i]? = some band →
    band.supportedBy a.capability.bands = true →
    (∀ j band, bandPriority[j]? = some band → j % 2 ^ 32 ≤ i →
      band.supportedBy b.capability.bands = false) →
    staScore b bandPriority < staScore a bandPriority

section Cases

variable {inventory : List WifiRadio} {overrides : RoleOverrides}

theorem honours_pinned (bandPriority : List BandClass) (hsta : trim overrides.explicitSta ≠ [])
    (hap : trim overrides.explicitAp ≠ []) : Honours inventory bandPriority overrides
      (assignWifiRoles inventory bandPriority overrides) := by
  rw [assignWifiRoles, if_pos ⟨hsta, hap⟩]
  exact {
    pinned := fun _ _ => ⟨rfl, rfl⟩
    noStation := fun h => by simp [hsta, hap] at h
    staNamed := fun _ _ => rfl
    staUnnamed := fun _ _ h => absurd h hap
    staBest := fun h => absurd h hsta
    apNamed := fun _ _ => rfl
    apUnnamed := fun _ h => absurd h hsta
    apCapable := fun h => absurd h hap
    apApart := fun h => absurd h hap
    outranks := fun _ _ _ _ hi => staScore_lt hi }

theorem honours_noStation (bandPriority : List BandClass)
    (hnames : ¬(trim overrides.explicitSta ≠ [] ∧ trim overrides.explicitAp ≠ []))
    (hnone : staCandidates inventory = []) : Honours inventory bandPriority overrides
      (assignWifiRoles inventory bandPriority overrides) := by
  simp only [assignWifiRoles, if_neg hnames, hnone]
  exact {
    pinned := fun hsta hap => absurd ⟨hsta, hap⟩ hnames
    noStation := fun _ _ => ⟨rfl, rfl⟩
    staNamed := fun h => by simp [hnone] at h
    staUnnamed := fun _ _ _ first hfirst => by simp [hnone] at hfirst
    staBest := fun _ h => absurd hnone h
    apNamed := fun _ h => if_pos h
    apUnnamed := fun _ _ _ h => absurd hnone h
    apCapable := fun _ h => absurd hnone h
    apApart := fun _ h => absurd hnone h
    outranks := fun _ _ _ _ hi => staScore_lt hi }

theorem honours_chosen {first : WifiRadio} {rest : List WifiRadio}
    (bandPriority : List BandClass)
    (hnames : ¬(trim overrides.explicitSta ≠ [] ∧ trim overrides.explicitAp ≠ []))
    (hcandidates : staCandidates inventory = first :: rest) :
    Honours inventory bandPriority overrides
      (assignWifiRoles inventory bandPriority overrides) := by
  simp only [assignWifiRoles, if_neg hnames, hcandidates]
  refine {
    pinned := fun hsta hap => absurd ⟨hsta, hap⟩ hnames
    noStation := fun _ h => nomatch hcandidates.symm.trans h
    staNamed := fun h hsta => ?_
    staUnnamed := fun h hsta _ first' hfirst => ?_
    staBest := fun h _ => ?_
    apNamed := fun h hap => ?_
    apUnnamed := fun h _ hap _ => ?_
    apCapable := fun hap _ h => ?_
    apApart := fun hap _ h => ?_
    outranks := fun _ _ _ _ hi => staScore_lt hi }
  · rw [chooseSta, if_pos hsta]
    exact find_named (hcandidates ▸ h) first
  · rw [hcandidates] at h hfirst
    obtain rfl := Option.some.inj hfirst
    rw [chooseSta, if_pos hsta, find_unnamed h]
  · rw [chooseSta, h, if_neg (not_not_intro rfl), hcandidates]
    obtain ⟨hmem, hbest⟩ := rankForSta_best bandPriority (List.cons_ne_nil first rest)
    exact ⟨_, hmem, rfl, hbest⟩
  · rw [chooseAp, if_pos hap]
    exact find_named h _
  · rw [chooseAp, if_pos hap, find_unnamed h]
  · rw [hap]
    rcases chooseAp_split (apCandidates inventory)
      (chooseSta first rest bandPriority (trim overrides.explicitSta)) with ⟨hmem, -⟩ | ⟨heq, hall⟩
    · exact ⟨_, hmem, rfl⟩
    · obtain ⟨r, hr⟩ := List.exists_mem_of_ne_nil _ h
      exact ⟨r, hr, by rw [heq, hall r hr]⟩
  · obtain ⟨r, hr, hother⟩ := h
    rw [hap]
    rcases chooseAp_split (apCandidates inventory)
      (chooseSta first rest bandPriority (trim overrides.explicitSta)) with ⟨-, hne⟩ | ⟨-, hall⟩
    · exact hne
    · exact absurd (hall r hr) hother

end Cases

theorem honours_assignWifiRoles (inventory : List WifiRadio) (bandPriority : List BandClass)
    (overrides : RoleOverrides) :
    Honours inventory bandPriority overrides
      (assignWifiRoles inventory bandPriority overrides) := by
  by_cases hnames : trim overrides.explicitSta ≠ [] ∧ trim overrides.explicitAp ≠ []
  · exact honours_pinned bandPriority hnames.1 hnames.2
  · cases hcandidates : staCandidates inventory with
    | nil => exact honours_noStation bandPriority hnames hcandidates
    | cons first rest => exact honours_chosen bandPriority hnames hcandidates

/-- Whether the legs share an interface, and whether the access point was named. -/
theorem assignWifiRoles_flags (inventory : List WifiRadio) (bandPriority : List BandClass)
    (overrides : RoleOverrides) :
    let assigned := assignWifiRoles inventory bandPriority overrides
    (assigned.sameIface = true ↔ assigned.staIfname = assigned.apIfname) ∧
      (assigned.hadExplicitAp = true ↔ trim overrides.explicitAp ≠ []) := by
  simp only [assignWifiRoles]
  split
  · next hnames => exact ⟨beq_iff_eq, iff_of_true rfl hnames.2⟩
  · split
    · exact ⟨beq_iff_eq.trans eq_comm, bne_iff_ne⟩
    · exact ⟨beq_iff_eq, bne_iff_ne⟩

/-- A virtual access point in front of a radio that is all there is, as in the crate's tests. -/
def besideVirtualAp : List WifiRadio :=
  let capability : PhyCapability :=
    ⟨["managed".toList, "AP".toList], ⟨false, false, false⟩⟩
  [.fromDevAndCapability ⟨"ap0".toList, "phy0".toList⟩ capability .onboard,
    .fromDevAndCapability ⟨"wlan0".toList, "phy0".toList⟩ capability .onboard]

/-- The name `ap0` is set for the station, and the station goes to `wlan0`. -/
theorem explicit_sta_passed_over : ¬ ∀ inventory bandPriority overrides,
    trim overrides.explicitSta ≠ [] →
    (assignWifiRoles inventory bandPriority overrides).staIfname = trim overrides.explicitSta := by
  intro h
  have hap0 := h besideVirtualAp [.ghz6, .ghz5, .ghz2_4]
    { explicitSta := "ap0".toList, defaultStaFallback := "wlan0".toList } (by decide +kernel)
  revert hap0
  decide +kernel

end EvoAudio.Network
