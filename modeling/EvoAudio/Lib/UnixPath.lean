import EvoAudio.Lib.Text

/-!
# Unix paths by their components

An absolute path is the list of its components, as `std::path::Path` compares
paths; `components` reads the text of a path and `join` writes it with single
slashes. `starts_with` is the prefix order on components.
-/

/-- A path component: not empty, not `.`, and without a slash. -/
structure Segment where
  text : List Char
  isName : text ≠ [] ∧ text ≠ ['.'] ∧ '/' ∉ text
  deriving DecidableEq, Repr

abbrev UnixPath := List Segment

namespace UnixPath

def segment? (text : List Char) : Option Segment :=
  if h : text ≠ [] ∧ text ≠ ['.'] ∧ '/' ∉ text then some ⟨text, h⟩ else none

/-- `Path::components`, empty ones and `.` dropped. -/
def components (text : List Char) : UnixPath := (text.splitOn '/').filterMap segment?

/-- The text of a relative path. -/
def join (path : UnixPath) : List Char := ['/'].intercalate (path.map Segment.text)

/-- The length of an absolute path's text in bytes. -/
def len : UnixPath → Nat
  | [] => 1
  | path => (path.map fun segment => 1 + (Text.encode segment.text).length).sum

-- ---------------------------------------------------------------------------
-- Text and components
-- ---------------------------------------------------------------------------

@[simp] theorem segment?_text (segment : Segment) : segment? segment.text = some segment :=
  dif_pos segment.isName

theorem splitOn_slash (before after : List Char) :
    (before ++ '/' :: after).splitOn '/' = before.splitOn '/' ++ after.splitOn '/' :=
  List.splitOnP_append_cons before after rfl

theorem components_append (before after : List Char) :
    components (before ++ '/' :: after) = components before ++ components after := by
  simp only [components, splitOn_slash, List.filterMap_append]

theorem splitOn_join {path : UnixPath} (h : path ≠ []) :
    (join path).splitOn '/' = path.map Segment.text := by
  refine List.splitOn_intercalate '/' ?_ (by simpa using h)
  intro text htext
  obtain ⟨segment, -, rfl⟩ := List.mem_map.mp htext
  exact segment.isName.2.2

theorem components_join (path : UnixPath) : components (join path) = path := by
  by_cases h : path = []
  · subst h
    rfl
  · rw [components, splitOn_join h, List.filterMap_map]
    have hsome : segment? ∘ Segment.text = some := funext segment?_text
    rw [hsome, List.filterMap_some]

/-- No segment is empty. -/
theorem join_ne_double_slash (path : UnixPath) (before after : List Char) :
    join path ≠ before ++ '/' :: '/' :: after := by
  intro h
  have hpath : path ≠ [] := by
    rintro rfl
    simp [join] at h
  have hsplit := splitOn_join hpath
  rw [h, splitOn_slash, ← List.nil_append ('/' :: after), splitOn_slash] at hsplit
  have hempty : [] ∈ path.map Segment.text := by simp [← hsplit]
  obtain ⟨segment, -, htext⟩ := List.mem_map.mp hempty
  exact segment.isName.1 htext

theorem join_injective {path path' : UnixPath} (h : join path = join path') : path = path' := by
  rw [← components_join path, h, components_join]

theorem join_append {base : UnixPath} (hbase : base ≠ []) (segment : Segment) (rest : UnixPath) :
    join (base ++ segment :: rest) = join base ++ '/' :: join (segment :: rest) := by
  induction base with
  | nil => exact absurd rfl hbase
  | cons first base ih =>
    cases base with
    | nil => simp [join]
    | cons second base =>
      have hrest := ih (List.cons_ne_nil _ _)
      simp only [join, List.map_cons, List.cons_append] at hrest ⊢
      rw [List.intercalate_cons_cons, hrest, List.intercalate_cons_cons]
      simp

/-- A path lies under another one, by its text up to a slash, exactly when it
extends the components. -/
theorem join_under_iff {base path : UnixPath} (hbase : base ≠ []) :
    (∃ rest, join path = join base ++ rest ∧ (rest = [] ∨ rest.head? = some '/')) ↔
      base <+: path := by
  constructor
  · rintro ⟨rest, hjoin, rfl | hslash⟩
    · rw [List.append_nil] at hjoin
      exact join_injective hjoin ▸ List.prefix_rfl
    · cases rest with
      | nil => cases hslash
      | cons c rest =>
        cases hslash
        refine ⟨components rest, ?_⟩
        rw [← components_join path, hjoin, components_append, components_join]
  · rintro ⟨rest, rfl⟩
    cases rest with
    | nil => exact ⟨[], by simp, .inl rfl⟩
    | cons segment rest => exact ⟨_, join_append hbase segment rest, .inr rfl⟩

-- ---------------------------------------------------------------------------
-- Lengths
-- ---------------------------------------------------------------------------

theorem len_lt_append {path rest : UnixPath} (h : rest ≠ []) : len path < len (path ++ rest) := by
  obtain ⟨segment, rest, rfl⟩ := List.exists_cons_of_ne_nil h
  have hname : 0 < (Text.encode segment.text).length := by
    obtain ⟨c, text, htext⟩ := List.exists_cons_of_ne_nil segment.isName.1
    rw [htext, Text.encode_cons, List.length_append]
    exact Nat.lt_of_lt_of_le (String.length_utf8EncodeChar c ▸ c.utf8Size_pos) (Nat.le_add_right _ _)
  cases path with
  | nil =>
    simp only [len, List.nil_append, List.map_cons, List.sum_cons]
    omega
  | cons first path =>
    simp only [len, List.cons_append, List.map_cons, List.map_append, List.sum_cons,
      List.sum_append]
    omega

/-- Of two paths that lead to the same place, the one that is not longer is an
ancestor of the other. -/
theorem prefix_of_len_le {path path' target : UnixPath} (h : path <+: target)
    (h' : path' <+: target) (hlen : len path ≤ len path') : path <+: path' := by
  rcases List.prefix_or_prefix_of_prefix h h' with hpre | ⟨rest, rfl⟩
  · exact hpre
  · cases rest with
    | nil => simp
    | cons segment rest =>
      exact absurd hlen (Nat.not_le.mpr (len_lt_append (List.cons_ne_nil _ _)))

end UnixPath
