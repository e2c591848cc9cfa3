import EvoAudio.Lib.Text

/-!
# Buffered reading from a byte stream

What a peer sends reaches the reader as a run of arrivals: chunks of at least
one byte, stalls that outlast the reader's deadline, and faults. After the last
arrival the stream is at its end. A buffered reader keeps the bytes it has taken
from the transport and not yet handed out.
-/

/-- One read of the transport. A read of no bytes would mean the end of the
stream, so a chunk has at least one. -/
inductive Arrival (ε : Type) where
  | chunk (head : UInt8) (tail : List UInt8)
  | stall
  | fault (error : ε)
  deriving DecidableEq, Repr

structure ByteStream (ε : Type) where
  pending : List UInt8
  arrivals : List (Arrival ε)
  deriving DecidableEq, Repr

namespace ByteStream

/-- How a read up to a delimiter ends; `eof` carries the bytes before the end. -/
inductive Outcome (ε : Type) where
  | found (bytes : List UInt8)
  | eof (bytes : List UInt8)
  | stalled
  | fault (error : ε)
  deriving DecidableEq, Repr

variable {ε : Type}

def Outcome.prepend (front : List UInt8) : Outcome ε → Outcome ε
  | .found bytes => .found (front ++ bytes)
  | .eof bytes => .eof (front ++ bytes)
  | .stalled => .stalled
  | .fault error => .fault error

/-- `read_until` on what is buffered and the arrivals still to come. The bytes
read include the delimiter. A read that stalls or fails loses what it took. -/
def readUntil (delim : UInt8) : List UInt8 → List (Arrival ε) → Outcome ε × ByteStream ε
  | pending, arrivals =>
    match Text.splitOnce [delim] pending with
    | some (before, after) => (.found (before ++ [delim]), ⟨after, arrivals⟩)
    | none =>
      match arrivals with
      | [] => (.eof pending, ⟨[], []⟩)
      | .stall :: more => (.stalled, ⟨[], more⟩)
      | .fault error :: more => (.fault error, ⟨[], more⟩)
      | .chunk head tail :: more =>
        let (outcome, stream) := readUntil delim (head :: tail) more
        (outcome.prepend pending, stream)

-- ---------------------------------------------------------------------------
-- What a read can return
-- ---------------------------------------------------------------------------

/-- The bytes that reach the reader before it has to wait or stop. -/
def leading : List (Arrival ε) → List UInt8
  | .chunk head tail :: more => head :: tail ++ leading more
  | _ => []

def available (stream : ByteStream ε) : List UInt8 :=
  stream.pending ++ leading stream.arrivals

/-- The number of reads and bytes left, which bounds how often one can read. -/
def size (stream : ByteStream ε) : Nat :=
  stream.pending.length +
    (stream.arrivals.map fun
      | .chunk _ tail => tail.length + 1
      | _ => 1).sum

theorem readUntil_buffered {delim : UInt8} {pending before after : List UInt8}
    (arrivals : List (Arrival ε))
    (h : Text.splitOnce [delim] pending = some (before, after)) :
    readUntil delim pending arrivals = (.found (before ++ [delim]), ⟨after, arrivals⟩) := by
  unfold readUntil
  rw [h]

/-- A line that has arrived whole is read, however it was cut into chunks, and
what follows it stays available. -/
theorem readUntil_line {delim : UInt8} {line rest : List UInt8} (hline : delim ∉ line)
    (arrivals : List (Arrival ε)) (pending : List UInt8)
    (h : pending ++ leading arrivals = line ++ delim :: rest) :
    ∃ stream, readUntil delim pending arrivals = (.found (line ++ [delim]), stream) ∧
      stream.available = rest := by
  have hwhole : Text.splitOnce [delim] (pending ++ leading arrivals) = some (line, rest) := by
    rw [h]
    exact @Text.splitOnce_of_notMem _ _ delim [] line rest hline
  cases hs : Text.splitOnce [delim] pending with
  | some split =>
    obtain ⟨before, after⟩ := split
    obtain ⟨rfl, hbefore⟩ := Text.splitOnce_singleton_some hs
    have hfirst := @Text.splitOnce_of_notMem _ _ delim [] before (after ++ leading arrivals) hbefore
    rw [List.nil_append] at hfirst
    rw [List.append_assoc, List.cons_append, hfirst] at hwhole
    obtain ⟨rfl, rfl⟩ := Prod.mk.inj (Option.some.inj hwhole)
    exact ⟨⟨after, arrivals⟩, readUntil_buffered arrivals hs, rfl⟩
  | none =>
    have hpending : delim ∉ pending := Text.splitOnce_singleton_eq_none.mp hs
    -- The delimiter has not arrived yet, so the buffer is a front part of the line.
    have hsplit : ∃ tail, line = pending ++ tail ∧ leading arrivals = tail ++ delim :: rest := by
      obtain ⟨tail, hl, ht⟩ | ⟨_ | ⟨x, tail⟩, hl, ht⟩ := List.append_eq_append_iff.mp h
      · exact ⟨tail, hl, ht⟩
      · exact ⟨[], by simpa using hl.symm, ht.symm⟩
      · rw [List.cons_append, List.cons.injEq] at ht
        rw [hl, ht.1] at hpending
        exact absurd (by simp) hpending
    obtain ⟨tail, rfl, htail⟩ := hsplit
    match arrivals, htail with
    | .chunk head chunk :: more, htail =>
      obtain ⟨stream, hread, hrest⟩ := readUntil_line
        (fun hd => hline (List.mem_append_right _ hd)) more (head :: chunk) htail
      refine ⟨stream, ?_, hrest⟩
      unfold readUntil
      simp [hs, hread, Outcome.prepend]
    | [], htail | .stall :: _, htail | .fault _ :: _, htail =>
      exact absurd htail (by simp [leading])

theorem size_chunk (pending : List UInt8) (head : UInt8) (tail : List UInt8)
    (more : List (Arrival ε)) :
    size ⟨pending, .chunk head tail :: more⟩ = pending.length + size ⟨head :: tail, more⟩ := by
  simp only [size, List.map_cons, List.sum_cons, List.length_cons]

/-- Every read uses up some of the stream, apart from one at its very end. -/
theorem size_readUntil (delim : UInt8) (arrivals : List (Arrival ε)) (pending : List UInt8)
    (h : pending ≠ [] ∨ arrivals ≠ []) :
    (readUntil delim pending arrivals).2.size < (⟨pending, arrivals⟩ : ByteStream ε).size := by
  cases hs : Text.splitOnce [delim] pending with
  | some split =>
    rw [readUntil_buffered _ hs]
    obtain ⟨rfl, -⟩ := Text.splitOnce_singleton_some hs
    simp only [size, List.length_append, List.length_cons]
    omega
  | none =>
    unfold readUntil
    rw [hs]
    match arrivals with
    | [] =>
      have hne : pending ≠ [] := by simpa using h
      simp [size, List.length_pos_iff.mpr hne]
    | .stall :: more | .fault error :: more =>
      simp [size]
      omega
    | .chunk head tail :: more =>
      have hmore := size_readUntil delim more (head :: tail) (.inl (by simp))
      rw [size_chunk]
      simp only
      omega

-- ---------------------------------------------------------------------------
-- Reading a number of bytes
-- ---------------------------------------------------------------------------

inductive ReadError (ε : Type) where
  | unexpectedEof
  | fault (error : ε)
  deriving DecidableEq, Repr

/-- `read_exact` without a deadline: a stall is waited out, the end of the
stream before the last byte is an error. A read that fails loses what it took. -/
def readExact (count : Nat) : List UInt8 → List (Arrival ε) →
    Except (ReadError ε) (List UInt8) × ByteStream ε
  | pending, arrivals =>
    if count ≤ pending.length then
      (.ok (pending.take count), ⟨pending.drop count, arrivals⟩)
    else
      match arrivals with
      | [] => (.error .unexpectedEof, ⟨[], []⟩)
      | .stall :: more => readExact count pending more
      | .fault error :: more => (.error (.fault error), ⟨[], more⟩)
      | .chunk head tail :: more => readExact count (pending ++ head :: tail) more

/-- The bytes that reach a reader that waits out stalls. -/
def delivered : List (Arrival ε) → List UInt8
  | .chunk head tail :: more => head :: tail ++ delivered more
  | .stall :: more => delivered more
  | _ => []

def remaining (stream : ByteStream ε) : List UInt8 :=
  stream.pending ++ delivered stream.arrivals

/-- The transport carries the stream to its end. -/
def Sound (stream : ByteStream ε) : Prop := ∀ error, .fault error ∉ stream.arrivals

theorem Sound.of_cons {pending more : List _} {arrival : Arrival ε}
    (h : Sound ⟨pending, arrival :: more⟩) (pending' : List UInt8) : Sound ⟨pending', more⟩ :=
  fun error hm => h error (List.mem_cons_of_mem _ hm)

/-- Bytes that arrive are read, however they are cut into chunks, and what
follows them stays. -/
theorem readExact_ok {count : Nat} (arrivals : List (Arrival ε)) (pending : List UInt8)
    (h : count ≤ (remaining ⟨pending, arrivals⟩).length) :
    ∃ stream, readExact count pending arrivals =
        (.ok ((remaining ⟨pending, arrivals⟩).take count), stream) ∧
      stream.remaining = (remaining ⟨pending, arrivals⟩).drop count ∧
      (Sound ⟨pending, arrivals⟩ → stream.Sound) := by
  by_cases hlen : count ≤ pending.length
  · refine ⟨⟨pending.drop count, arrivals⟩, ?_, ?_, fun hs => hs⟩
    · unfold readExact
      rw [if_pos hlen]
      simp [remaining, List.take_append_of_le_length hlen]
    · simp [remaining, List.drop_append_of_le_length hlen]
  · unfold readExact
    rw [if_neg hlen]
    match arrivals with
    | [] | .fault _ :: _ => exact absurd h (by simpa [remaining, delivered] using hlen)
    | .stall :: more =>
      obtain ⟨stream, hread, hrest, hsound⟩ := readExact_ok more pending h
      exact ⟨stream, hread, hrest, fun hs => hsound (hs.of_cons pending)⟩
    | .chunk head tail :: more =>
      have heq : remaining ⟨pending, .chunk head tail :: more⟩ =
          remaining ⟨pending ++ head :: tail, more⟩ := by
        simp [remaining, delivered]
      rw [heq] at h ⊢
      obtain ⟨stream, hread, hrest, hsound⟩ := readExact_ok more (pending ++ head :: tail) h
      exact ⟨stream, hread, hrest, fun hs => hsound (hs.of_cons _)⟩

/-- A read past the end of a sound stream reports the end. -/
theorem readExact_eof {count : Nat} (arrivals : List (Arrival ε)) (pending : List UInt8)
    (h : (remaining ⟨pending, arrivals⟩).length < count) (hs : Sound ⟨pending, arrivals⟩) :
    (readExact count pending arrivals).1 = .error .unexpectedEof := by
  have hlen : ¬count ≤ pending.length := by
    simp only [remaining, List.length_append] at h
    omega
  unfold readExact
  rw [if_neg hlen]
  match arrivals with
  | [] => rfl
  | .fault error :: more => exact absurd (List.mem_cons_self ..) (hs error)
  | .stall :: more => exact readExact_eof more pending h (hs.of_cons pending)
  | .chunk head tail :: more =>
    refine readExact_eof more (pending ++ head :: tail) ?_ (hs.of_cons _)
    simpa [remaining, delivered] using h

-- ---------------------------------------------------------------------------
-- Lengths in big-endian order
-- ---------------------------------------------------------------------------

/-- `(n as u32).to_be_bytes()` -/
def beBytes (n : Nat) : List UInt8 :=
  [.ofNat (n / 16777216), .ofNat (n / 65536), .ofNat (n / 256), .ofNat n]

/-- `u32::from_be_bytes` -/
def ofBeBytes (bytes : List UInt8) : Nat :=
  bytes.foldl (fun n byte => n * 256 + byte.toNat) 0

theorem ofBeBytes_beBytes (n : Nat) : ofBeBytes (beBytes n) = n % 4294967296 := by
  simp only [ofBeBytes, beBytes, List.foldl_cons, List.foldl_nil, UInt8.toNat_ofNat']
  omega

-- ---------------------------------------------------------------------------
-- Writing
-- ---------------------------------------------------------------------------

/-- The peer's side of a writer. With a limit, the transport takes that many
more bytes and then fails. -/
structure Sink (ε : Type) where
  written : List UInt8
  limit : Option (Nat × ε)
  deriving DecidableEq, Repr

def Sink.writeAll (bytes : List UInt8) (sink : Sink ε) : Except ε Unit × Sink ε :=
  match sink.limit with
  | none => (.ok (), ⟨sink.written ++ bytes, none⟩)
  | some (room, error) =>
    if bytes.length ≤ room then
      (.ok (), ⟨sink.written ++ bytes, some (room - bytes.length, error)⟩)
    else (.error error, ⟨sink.written ++ bytes.take room, some (0, error)⟩)

end ByteStream
