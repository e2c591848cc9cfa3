import EvoAudio.Mpd.Responses

/-!
# Listings one behind the other

A listing that begins with the header of a block is parsed behind another one as it
is on its own: no field gets from one block into another. The entries of a stored
playlist are counted over both listings, in 32 bits without going over.
-/

namespace EvoAudio.Mpd.Responses

open Text Blocks

/-- The listing begins with one of the keys of a header. -/
def BeginsWith (keys : List (List Char)) (fields : List Field) : Prop :=
  ∃ f rest, fields = f :: rest ∧ f.key ∈ keys

/-- A listing that begins with a header adds to what is parsed in front of it what is
parsed of it alone, moved by the number of answers in front. -/
def Concatenates {α : Type} (parse : List Field → Option (List α)) (keys : List (List Char))
    (move : Nat → α → α) : Prop :=
  ∀ (a b : List Field) (x y : List α), BeginsWith keys b → parse a = some x → parse b = some y →
    parse (a ++ b) = some (x ++ y.map (move x.length))

-- ---------------------------------------------------------------------------
-- Parsers that count nothing
-- ---------------------------------------------------------------------------

theorem concatenates_of_uncounted {β ω : Type} (p : BlockParser Unit Field β ω)
    {keys : List (List Char)} (hheader : ∀ f, f.key ∈ keys → p.header f = true) :
    Concatenates (p.parse ()) keys fun _ => id := by
  rintro a b x y ⟨f, rest, rfl, hkey⟩ hx hy
  rw [p.parse_append () a ⟨f, rest, rfl, hheader f hkey⟩, hx, Option.bind_some, hy]
  simp

-- ---------------------------------------------------------------------------
-- The entries of a playlist
-- ---------------------------------------------------------------------------

/-- A position further on, as far as 32 bits go. -/
def moved (n : Nat) (position : UInt32) : UInt32 :=
  UInt32.ofNat (min (position.toNat + n) (2 ^ 32 - 1))

/-- The entry further on in the playlist. -/
def MpdPlaylistEntry.moved (n : Nat) (e : MpdPlaylistEntry) : MpdPlaylistEntry :=
  { e with position := Responses.moved n e.position }

theorem toNat_moved (n : Nat) (position : UInt32) :
    (moved n position).toNat = min (position.toNat + n) (2 ^ 32 - 1) :=
  UInt32.toNat_ofNat_of_lt' (Nat.lt_of_le_of_lt (Nat.min_le_right ..) (by decide))

theorem toNat_succSaturating (position : UInt32) :
    (succSaturating position).toNat = min (position.toNat + 1) (2 ^ 32 - 1) := by
  have hlt := position.toNat_lt
  rw [succSaturating]
  split_ifs with h
  · rw [UInt32.toNat_add, UInt32.toNat_one, Nat.mod_eq_of_lt h]
    omega
  · omega

theorem succSaturating_moved (n : Nat) (position : UInt32) :
    succSaturating (moved n position) = moved n (succSaturating position) := by
  apply UInt32.toNat_inj.mp
  rw [toNat_succSaturating, toNat_moved, toNat_moved, toNat_succSaturating]
  omega

theorem iterate_succSaturating (i : Nat) : succSaturating^[i] 0 = moved i 0 := by
  induction i with
  | zero => rfl
  | succ i ih =>
    apply UInt32.toNat_inj.mp
    rw [Function.iterate_succ_apply', ih, toNat_succSaturating, toNat_moved, toNat_moved,
      UInt32.toNat_zero]
    omega

/-- The positions of the entries, from 0 on, one for each header. -/
theorem playlist_positions {fields : List Field} {x : List MpdPlaylistEntry}
    (h : parsePlaylistEntries fields = some x) :
    x.length = fields.countP playlistEntries.header ∧
      x.map MpdPlaylistEntry.position = (List.range x.length).map (moved · 0) := by
  have hmarks := playlistEntries.parse_marks MpdPlaylistEntry.position MpdPlaylistEntry.position id
    (fun _ _ => rfl) (fun e f step hstep => by
      obtain ⟨tags, -, rfl⟩ := Option.map_eq_some_iff.mp hstep
      exact ⟨rfl, rfl⟩) (fun _ => rfl) 0 fields h
  have hlength : x.length = fields.countP playlistEntries.header := by
    simpa using congrArg List.length hmarks
  refine ⟨hlength, ?_⟩
  rw [hmarks, hlength]
  exact List.map_congr_left fun i _ => iterate_succSaturating i

/-- Later positions move the entries and nothing else of them. -/
theorem parse_moved (n : Nat) (fields : List Field) :
    playlistEntries.parse (moved n 0) fields =
      (parsePlaylistEntries fields).map (List.map (MpdPlaylistEntry.moved n)) :=
  playlistEntries.run_map (τ := moved n) (fun _ _ => rfl) (succSaturating_moved n) (fun e f => by
    change (e.toTrackTags.absorb f).map _ = ((e.toTrackTags.absorb f).map _).map _
    cases e.toTrackTags.absorb f <;> rfl) (fun _ => rfl) 0 none fields

theorem playlistEntries_concatenate :
    Concatenates parsePlaylistEntries ["file".toList] MpdPlaylistEntry.moved := by
  rintro a b x y ⟨f, rest, rfl, hkey⟩ hx hy
  have hheader : playlistEntries.header f = true := decide_eq_true (List.mem_singleton.mp hkey)
  have hcount : playlistEntries.after 0 a = moved x.length 0 := by
    rw [(playlist_positions hx).1]
    exact iterate_succSaturating _
  rw [parsePlaylistEntries, playlistEntries.parse_append 0 a ⟨f, rest, rfl, hheader⟩, hcount,
    parse_moved, hy]
  rw [parsePlaylistEntries] at hx
  rw [hx]
  rfl

/-- A song without a path. -/
def bareFile : Field := ⟨"file".toList, []⟩

theorem run_bareFiles (n : Nat) (position : UInt32) (current : Option MpdPlaylistEntry) :
    ∃ x, playlistEntries.run position current (List.replicate n bareFile) = some x := by
  induction n generalizing position current with
  | zero => exact ⟨_, rfl⟩
  | succ n ih =>
    obtain ⟨x, hx⟩ := ih (playlistEntries.next position) (some (playlistEntries.start position bareFile))
    rw [List.replicate_succ, BlockParser.run_header rfl, hx]
    exact ⟨_, rfl⟩

/-- Behind as many songs as there are positions, the next one is not moved by their
number. -/
theorem moved_short {n : Nat} (hn : 2 ^ 32 ≤ n) :
    ∃ x y z, parsePlaylistEntries (List.replicate n bareFile) = some x ∧
      parsePlaylistEntries [bareFile] = some y ∧
      parsePlaylistEntries (List.replicate n bareFile ++ [bareFile]) = some z ∧
      z.map (·.position.toNat) ≠
        x.map (·.position.toNat) ++ y.map (·.position.toNat + x.length) := by
  obtain ⟨x, hx⟩ := run_bareFiles n 0 none
  refine ⟨x, [{ position := 0, filePath := [] }], _, hx, rfl,
    playlistEntries_concatenate _ _ _ _ ⟨bareFile, [], rfl, List.mem_singleton.mpr rfl⟩ hx rfl, ?_⟩
  have hlength : x.length = n := by
    rw [(playlist_positions hx).1, List.countP_replicate, if_pos (by decide)]
  intro heq
  rw [List.map_append, List.append_cancel_left_eq] at heq
  have hlast : (moved x.length 0).toNat = 0 + x.length := List.singleton_injective heq
  rw [toNat_moved, hlength, UInt32.toNat_zero] at hlast
  omega

end EvoAudio.Mpd.Responses
