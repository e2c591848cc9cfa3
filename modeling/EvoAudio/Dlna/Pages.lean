import EvoAudio.Dlna.Envelope

/-!
# Following the next page

A server answers a request from an index on with as many children as it likes, up to the
count that was asked for. `browse_page` takes the next starting index from the page number and
the page size: what a short page leaves out is not asked for again. Following the next page
from page 0 returns every child exactly once, in order, if and only if no page is short.
-/

namespace EvoAudio.Dlna

open Text Checked

variable {δ : Type} {parseDidl : List Char → Except DlnaError (List δ)}

-- ---------------------------------------------------------------------------
-- Arithmetic of pages
-- ---------------------------------------------------------------------------

theorem toNat_saturatingAdd (a b : UInt32) :
    (saturatingAdd a b).toNat = min (a.toNat + b.toNat) (2 ^ 32 - 1) := by
  unfold saturatingAdd
  split
  · rw [UInt32.toNat_add]
    omega
  · simp only [UInt32.toNat_ofNat']
    omega

theorem toNat_saturatingMul (a b : UInt32) :
    (saturatingMul a b).toNat = min (a.toNat * b.toNat) (2 ^ 32 - 1) := by
  unfold saturatingMul
  split
  · rw [UInt32.toNat_mul]
    omega
  · simp only [UInt32.toNat_ofNat']
    omega

theorem effectiveSize_pos (size : UInt32) : 0 < (effectiveSize size).toNat := by
  unfold effectiveSize
  split
  · decide
  next h =>
    split
    · decide
    · rw [UInt32.lt_iff_toNat_lt] at h
      exact Nat.pos_of_ne_zero fun hzero => h (by simp [hzero])

-- ---------------------------------------------------------------------------
-- Servers
-- ---------------------------------------------------------------------------

/-- A reply that these objects are read out of, with the paging data of a container of so
many children. -/
structure Carries (parseDidl : List Char → Except DlnaError (List δ)) (objects : List δ)
    (total : Nat) (reply : Reply) : Prop where
  success : reply.status.isSuccess = true
  noFault : ¬("Fault".toList <:+: reply.body ∧ "UPnPError".toList <:+: reply.body)
  result : ∃ xml, Returns (extractTag reply.body "Result".toList) (some xml) ∧
    parseDidl (xmlUnescape xml) = .ok objects
  returned : ∃ text, Returns (extractTag reply.body "NumberReturned".toList) (some text) ∧
    parseU32 text = some (UInt32.ofNat objects.length)
  total : ∃ text, Returns (extractTag reply.body "TotalMatches".toList) (some text) ∧
    parseU32 text = some (UInt32.ofNat total)

/-- A container whose children do not change, and how its server answers. -/
structure Server (parseDidl : List Char → Except DlnaError (List δ)) where
  controlUrl : List Char
  objectId : List Char
  children : List δ
  /-- The total is a `ui4` of the protocol. -/
  fits : children.length < 2 ^ 32
  post : List Char → List Char → Except DlnaError Reply
  /-- How many children the answer to a request has. -/
  answered : UInt32 → UInt32 → Nat
  bounded : ∀ start count, answered start count ≤ min count.toNat (children.length - start.toNat)
  nonempty : ∀ start count : UInt32, start.toNat < children.length → 0 < count.toNat →
    0 < answered start count
  answers : ∀ start count : UInt32, 0 < count.toNat → ∃ reply,
    post controlUrl (soapBrowseEnvelope objectId start count) = .ok reply ∧
      Carries parseDidl ((children.drop start.toNat).take (answered start count)) children.length
        reply

namespace Server

variable (server : Server parseDidl) (size : UInt32)

def browse (page : UInt32) : Checked (Except DlnaError (BrowsePage δ)) :=
  browsePage parseDidl server.post
    { controlUrl := server.controlUrl, objectId := server.objectId, page, pageSize := size }

/-- One page, with what the pages before it have returned. -/
def followStep (state : UInt32 × List δ) :
    Checked ((UInt32 × List δ) ⊕ Except DlnaError (List δ)) := do
  match ← server.browse size state.1 with
  | .error e => pure (.inr (.error e))
  | .ok page =>
    match page.nextPage with
    | some next => pure (.inl (next, state.2 ++ page.objects))
    | none => pure (.inr (.ok (state.2 ++ page.objects)))

/-- Follows `next_page` from page 0. -/
def follow : Checked (Except DlnaError (List δ)) := loop (server.followStep size) (0, [])

/-- The children that the request of a page is answered with. -/
def answer (page : UInt32) : List δ :=
  let start := startingIndex page (effectiveSize size)
  (server.children.drop start.toNat).take (server.answered start (effectiveSize size))

theorem length_answer (page : UInt32) :
    (server.answer size page).length =
      server.answered (startingIndex page (effectiveSize size)) (effectiveSize size) := by
  have hbounded := server.bounded (startingIndex page (effectiveSize size)) (effectiveSize size)
  rw [answer, List.length_take, List.length_drop]
  omega

/-- Whether there is more after a page, in numbers that do not overflow. -/
def More (page : UInt32) : Prop :=
  (startingIndex page (effectiveSize size)).toNat + (server.answer size page).length <
    server.children.length

instance (page : UInt32) : Decidable (server.More size page) :=
  inferInstanceAs (Decidable (_ < _))

theorem returns_readReply {reply : Reply} {objects : List δ} {total : Nat}
    (h : Carries parseDidl objects total reply) (page pageSize : UInt32) :
    Returns (readReply parseDidl page pageSize reply)
      (some (.ok (pageOf page pageSize objects (some (UInt32.ofNat objects.length))
        (some (UInt32.ofNat total))))) := by
  obtain ⟨xml, hxml, hparse⟩ := h.result
  obtain ⟨returned, hreturned, hcount⟩ := h.returned
  obtain ⟨all, hall, htotal⟩ := h.total
  rw [readReply, if_neg (by simp [h.success]), if_neg h.noFault,
    (returns_option_some.mpr hxml).bind_iff]
  simp only [hparse]
  rw [(returns_option_some.mpr hreturned).bind_iff, (returns_option_some.mpr hall).bind_iff]
  simp [hcount, htotal]

theorem returns_browse (page : UInt32) :
    Returns (server.browse size page) (some (.ok (pageOf page (effectiveSize size)
      (server.answer size page) (some (UInt32.ofNat (server.answer size page).length))
      (some (UInt32.ofNat server.children.length))))) := by
  obtain ⟨reply, hpost, hcarries⟩ :=
    server.answers (startingIndex page (effectiveSize size)) _ (effectiveSize_pos size)
  simp only [browse, browsePage, hpost]
  exact returns_readReply hcarries page (effectiveSize size)

theorem nextPage_eq (page : UInt32) :
    (pageOf page (effectiveSize size) (server.answer size page)
      (some (UInt32.ofNat (server.answer size page).length))
      (some (UInt32.ofNat server.children.length))).nextPage =
      if server.More size page then some (saturatingAdd page 1) else none := by
  have hfits := server.fits
  have hlength : (server.answer size page).length ≤ server.children.length := by
    rw [answer, List.length_take, List.length_drop]
    omega
  have hmore : saturatingAdd (startingIndex page (effectiveSize size))
      (UInt32.ofNat (server.answer size page).length) < UInt32.ofNat server.children.length ↔
      server.More size page := by
    rw [UInt32.lt_iff_toNat_lt, toNat_saturatingAdd, UInt32.toNat_ofNat', UInt32.toNat_ofNat',
      Nat.mod_eq_of_lt hfits, Nat.mod_eq_of_lt (by omega), More]
    omega
  simp [pageOf, hmore]

theorem returns_followStep (page : UInt32) (acc : List δ) :
    Returns (server.followStep size (page, acc)) (some
      (if server.More size page then .inl (saturatingAdd page 1, acc ++ server.answer size page)
        else .inr (.ok (acc ++ server.answer size page)))) := by
  rw [followStep, (server.returns_browse size page).bind_iff]
  simp only [server.nextPage_eq size page]
  by_cases hmore : server.More size page <;> simp [hmore, pageOf]

theorem goesOn_followStep (state next : UInt32 × List δ) :
    GoesOn (server.followStep size) state next ↔ server.More size state.1 ∧
      next = (saturatingAdd state.1 1, state.2 ++ server.answer size state.1) := by
  have hstep := server.returns_followStep size state.1 state.2
  constructor
  · intro h
    have heq := Option.some.inj (h.unique hstep)
    split at heq
    next hmore => exact ⟨hmore, Sum.inl.inj heq⟩
    next => cases heq
  · rintro ⟨hmore, rfl⟩
    rw [if_pos hmore] at hstep
    exact hstep

-- ---------------------------------------------------------------------------
-- Full pages
-- ---------------------------------------------------------------------------

/-- Whether the page that starts so many pages into the list is as long as it can be. -/
def FullAt (k : Nat) : Prop :=
  server.answered (UInt32.ofNat (k * (effectiveSize size).toNat)) (effectiveSize size) =
    min (effectiveSize size).toNat (server.children.length - k * (effectiveSize size).toNat)

/-- Every page that starts within the list is as long as it can be. -/
def Full : Prop :=
  ∀ k, k * (effectiveSize size).toNat < server.children.length → server.FullAt size k

variable {server size}

theorem startingIndex_of_lt {page : UInt32}
    (h : (startingIndex page (effectiveSize size)).toNat < server.children.length) :
    startingIndex page (effectiveSize size) =
        UInt32.ofNat (page.toNat * (effectiveSize size).toNat) ∧
      page.toNat * (effectiveSize size).toNat < server.children.length := by
  have hfits := server.fits
  rw [startingIndex, toNat_saturatingMul] at h
  refine ⟨UInt32.toNat_inj.mp ?_, by omega⟩
  rw [startingIndex, toNat_saturatingMul, UInt32.toNat_ofNat']
  omega

theorem length_answer_of_lt {page : UInt32}
    (h : (startingIndex page (effectiveSize size)).toNat < server.children.length) :
    (server.answer size page).length =
      server.answered (UInt32.ofNat (page.toNat * (effectiveSize size).toNat))
        (effectiveSize size) := by
  rw [length_answer, (startingIndex_of_lt h).1]

/-- What holds before a page: no page before it was longer than the page size, and when
none was shorter they were all full. -/
structure Visited (server : Server parseDidl) (size : UInt32) (state : UInt32 × List δ) : Prop where
  collected : state.2.length ≤ state.1.toNat * (effectiveSize size).toNat
  unfinished : 0 < state.1.toNat → state.2.length < server.children.length
  full : state.2.length = state.1.toNat * (effectiveSize size).toNat →
    ∀ k < state.1.toNat, server.FullAt size k

theorem Visited.step {state : UInt32 × List δ} (h : Visited server size state)
    (hmore : server.More size state.1) :
    Visited server size (saturatingAdd state.1 1, state.2 ++ server.answer size state.1) := by
  have hfits := server.fits
  have hpos := effectiveSize_pos size
  have hlt : (startingIndex state.1 (effectiveSize size)).toNat < server.children.length :=
    Nat.lt_of_le_of_lt (Nat.le_add_right _ _) hmore
  obtain ⟨hstart, hwithin⟩ := startingIndex_of_lt hlt
  have hbounded := server.bounded (UInt32.ofNat (state.1.toNat * (effectiveSize size).toNat))
    (effectiveSize size)
  have hlength := length_answer_of_lt hlt
  have hpage : state.1.toNat ≤ state.1.toNat * (effectiveSize size).toNat :=
    Nat.le_mul_of_pos_right _ hpos
  have hnext : (saturatingAdd state.1 1).toNat = state.1.toNat + 1 := by
    rw [toNat_saturatingAdd, UInt32.toNat_one]
    omega
  have hmul : (state.1.toNat + 1) * (effectiveSize size).toNat =
      state.1.toNat * (effectiveSize size).toNat + (effectiveSize size).toNat := Nat.succ_mul _ _
  have hindex : (UInt32.ofNat (state.1.toNat * (effectiveSize size).toNat)).toNat =
      state.1.toNat * (effectiveSize size).toNat := by
    rw [UInt32.toNat_ofNat']
    omega
  have hsum : state.1.toNat * (effectiveSize size).toNat + (server.answer size state.1).length <
      server.children.length := by
    rw [More, hstart, hindex] at hmore
    exact hmore
  have hcollected := h.collected
  rw [hindex] at hbounded
  constructor
  · rw [hnext, hmul, List.length_append]
    omega
  · intro _
    rw [List.length_append]
    omega
  · intro heq k hk
    rw [hnext, hmul, List.length_append] at heq
    rw [hnext] at hk
    rcases Nat.lt_succ_iff_lt_or_eq.mp hk with hbefore | rfl
    · exact h.full (by omega) k hbefore
    · rw [FullAt]
      omega

/-- The relation that the loop goes on by. -/
def Next (server : Server parseDidl) (size : UInt32) (state next : UInt32 × List δ) : Prop :=
  server.More size state.1 ∧
    next = (saturatingAdd state.1 1, state.2 ++ server.answer size state.1)

theorem Visited.of_reach {state : UInt32 × List δ}
    (h : Relation.ReflTransGen (Next server size) (0, []) state) : Visited server size state := by
  induction h with
  | refl => exact ⟨by simp, by simp, by simp⟩
  | tail _ hstep ih =>
    obtain ⟨hmore, rfl⟩ := hstep
    exact ih.step hmore

/-- Where the run ends with every child, no page was short. -/
theorem Visited.full_of_end {state : UInt32 × List δ} (h : Visited server size state)
    (hall : state.2 ++ server.answer size state.1 = server.children) : server.Full size := by
  have hfits := server.fits
  have hcollected := h.collected
  have hlength := congrArg List.length hall
  rw [List.length_append] at hlength
  intro k hk
  by_cases hlt : (startingIndex state.1 (effectiveSize size)).toNat < server.children.length
  · obtain ⟨hstart, hwithin⟩ := startingIndex_of_lt hlt
    have hbounded := server.bounded (UInt32.ofNat (state.1.toNat * (effectiveSize size).toNat))
      (effectiveSize size)
    have hindex : (UInt32.ofNat (state.1.toNat * (effectiveSize size).toNat)).toNat =
        state.1.toNat * (effectiveSize size).toNat := by
      rw [UInt32.toNat_ofNat']
      omega
    rw [hindex, ← length_answer_of_lt hlt] at hbounded
    rcases Nat.lt_trichotomy k state.1.toNat with hbefore | rfl | hafter
    · exact h.full (by omega) k hbefore
    · rw [FullAt, ← length_answer_of_lt hlt]
      omega
    · have hmul := Nat.mul_le_mul_right (effectiveSize size).toNat hafter
      rw [Nat.succ_mul] at hmul
      omega
  · -- Nothing is left at the start of the last page: the page before it was the last one.
    have hnone : (server.answer size state.1).length = 0 := by
      have hbounded := server.bounded (startingIndex state.1 (effectiveSize size))
        (effectiveSize size)
      rw [length_answer]
      omega
    have hunfinished := h.unfinished
    have hzero : state.1.toNat = 0 := by omega
    rw [hzero] at hcollected
    omega

theorem returns_inr_iff {state : UInt32 × List δ} :
    Returns (server.followStep size state) (some (.inr (.ok server.children))) ↔
      ¬server.More size state.1 ∧ state.2 ++ server.answer size state.1 = server.children := by
  have hstep := server.returns_followStep size state.1 state.2
  constructor
  · intro h
    have heq := Option.some.inj (h.unique hstep)
    split at heq
    next => cases heq
    next hmore => exact ⟨hmore, (Except.ok.inj (Sum.inr.inj heq)).symm⟩
  · rintro ⟨hmore, hall⟩
    rw [if_neg hmore, hall] at hstep
    exact hstep

/-- What full pages have returned is what stands in front of the next one. -/
theorem returns_follow_of_full (hfull : server.Full size) {k : Nat}
    (hk : k = 0 ∨ k * (effectiveSize size).toNat < server.children.length) :
    Returns (loop (server.followStep size)
      (UInt32.ofNat k, server.children.take (k * (effectiveSize size).toNat)))
      (some (.ok server.children)) := by
  have hfits := server.fits
  have hpos := effectiveSize_pos size
  induction hleft : server.children.length - k * (effectiveSize size).toNat
    using Nat.strongRecOn generalizing k with
  | ind left ih =>
    have hpage : (UInt32.ofNat k).toNat = k := by
      have hle : k ≤ k * (effectiveSize size).toNat := Nat.le_mul_of_pos_right _ hpos
      rw [UInt32.toNat_ofNat']
      omega
    have hstart : startingIndex (UInt32.ofNat k) (effectiveSize size) =
        UInt32.ofNat (k * (effectiveSize size).toNat) := by
      rw [← UInt32.toNat_inj, startingIndex, toNat_saturatingMul, hpage, UInt32.toNat_ofNat']
      rcases hk with rfl | hk <;> omega
    have hindex : (UInt32.ofNat (k * (effectiveSize size).toNat)).toNat =
        k * (effectiveSize size).toNat := by
      rw [UInt32.toNat_ofNat']
      rcases hk with rfl | hk <;> omega
    have hanswer : server.answer size (UInt32.ofNat k) =
        (server.children.drop (k * (effectiveSize size).toNat)).take (effectiveSize size).toNat := by
      rw [answer, hstart, hindex]
      rcases Nat.lt_or_ge (k * (effectiveSize size).toNat) server.children.length with hlt | hge
      · rw [hfull k hlt, List.take_eq_take_iff, List.length_drop]
        omega
      · rw [List.drop_eq_nil_of_le hge, List.take_nil, List.take_nil]
    have hmul : (k + 1) * (effectiveSize size).toNat =
        k * (effectiveSize size).toNat + (effectiveSize size).toNat := Nat.succ_mul _ _
    have htake : server.children.take (k * (effectiveSize size).toNat) ++
        server.answer size (UInt32.ofNat k) =
          server.children.take ((k + 1) * (effectiveSize size).toNat) := by
      rw [hanswer, hmul, List.take_add]
    by_cases hmore : server.More size (UInt32.ofNat k)
    · have hsum : k * (effectiveSize size).toNat +
          (server.answer size (UInt32.ofNat k)).length < server.children.length := by
        rw [More, hstart, hindex] at hmore
        exact hmore
      rw [hanswer, List.length_take, List.length_drop] at hsum
      have hnext : saturatingAdd (UInt32.ofNat k) 1 = UInt32.ofNat (k + 1) := by
        have hle : k ≤ k * (effectiveSize size).toNat := Nat.le_mul_of_pos_right _ hpos
        have hlt : k + 1 < 2 ^ 32 := by omega
        rw [← UInt32.toNat_inj, toNat_saturatingAdd, hpage, UInt32.toNat_ofNat', UInt32.toNat_one,
          Nat.mod_eq_of_lt hlt]
        exact Nat.min_eq_left (Nat.le_sub_one_of_lt hlt)
      have hrest := ih _ (by omega) (k := k + 1) (.inr (by omega)) rfl
      rw [← hnext, ← htake] at hrest
      exact returns_loop.mpr (.inr (.inr ⟨_, (server.goesOn_followStep size _ _).mpr
        ⟨hmore, rfl⟩, hrest⟩))
    · refine returns_loop.mpr (.inr (.inl ⟨_, returns_inr_iff.mpr ⟨hmore, ?_⟩, rfl⟩))
      rw [More, hstart, hindex, hanswer, List.length_take, List.length_drop] at hmore
      rw [htake]
      exact List.take_of_length_le (by omega)

theorem full_of_returns (h : Returns (server.follow size) (some (.ok server.children))) :
    server.Full size := by
  rw [follow, returns_loop_some (server.goesOn_followStep size)] at h
  obtain ⟨state, hreach, hend⟩ := h
  exact (Visited.of_reach hreach).full_of_end (returns_inr_iff.mp hend).2

/-- Following the next page returns every child exactly once and in order if and only if
each page is as long as it can be. -/
theorem follow_children_iff (server : Server parseDidl) (size : UInt32) :
    Returns (server.follow size) (some (.ok server.children)) ↔ server.Full size := by
  refine ⟨full_of_returns, fun hfull => ?_⟩
  have h := returns_follow_of_full hfull (.inl (Eq.refl 0))
  rw [Nat.zero_mul, List.take_zero] at h
  exact h

-- ---------------------------------------------------------------------------
-- A server of short pages
-- ---------------------------------------------------------------------------

def shortReply (objects : List Char) : Reply where
  status := { code := 200, shown := "200 OK".toList }
  body := "<Result>".toList ++ objects ++ "</Result><NumberReturned>".toList ++
    decimal (UInt32.ofNat objects.length) ++
    "</NumberReturned><TotalMatches>3</TotalMatches>".toList

/-- The starting index of a request. -/
def requestedStart (envelope : List Char) : Option UInt32 := do
  let (_, parts) ← Markup.read envelope
  parseU32 (← parts.lookup "StartingIndex".toList)

theorem requestedStart_eq (objectId : List Char) (starting requested : UInt32) :
    requestedStart (soapBrowseEnvelope objectId starting requested) = some starting := by
  have hopening : openingParts.lookup "StartingIndex".toList = none := by decide +kernel
  have hflags : flagParts.lookup "StartingIndex".toList = none := by decide +kernel
  have hid : ("StartingIndex".toList == "ObjectID".toList) = false := by decide +kernel
  have hlookup : (envelopeParts objectId starting requested).lookup "StartingIndex".toList =
      some (decimal starting) := by
    rw [envelopeParts, List.lookup_append, List.lookup_append, List.lookup_append, hopening,
      List.lookup_cons, hid, hflags, List.lookup_cons_self]
    rfl
  rw [requestedStart, read_soapBrowseEnvelope]
  simp [hlookup, parseU32_decimal, -String.reduceToList]

theorem carries_shortReply {objects : List Char} (h : objects ∈ [[], ['a'], ['b'], ['c']]) :
    Carries .ok objects 3 (shortReply objects) := by
  have hread : ∀ objects ∈ [[], ['a'], ['b'], ['c']],
      ¬("Fault".toList <:+: (shortReply objects).body ∧
        "UPnPError".toList <:+: (shortReply objects).body) ∧
      (extractTag (shortReply objects).body "Result".toList).run 3 = .value objects ∧
      xmlUnescape objects = objects ∧
      (extractTag (shortReply objects).body "NumberReturned".toList).run 3 =
        .value (decimal (UInt32.ofNat objects.length)) ∧
      (extractTag (shortReply objects).body "TotalMatches".toList).run 3 = .value (decimal 3) := by
    decide +kernel
  obtain ⟨hfault, hresult, hplain, hreturned, htotal⟩ := hread objects h
  exact ⟨rfl, hfault, ⟨objects, ⟨3, hresult⟩, congrArg Except.ok hplain⟩,
    ⟨_, ⟨3, hreturned⟩, parseU32_decimal _⟩, ⟨_, ⟨3, htotal⟩, parseU32_decimal _⟩⟩

/-- Three children, of which each request is answered with one. -/
def shortServer : Server (.ok : List Char → Except DlnaError (List Char)) where
  controlUrl := []
  objectId := "0".toList
  children := ['a', 'b', 'c']
  fits := by decide
  post _ envelope := match requestedStart envelope with
    | some start => .ok (shortReply ((['a', 'b', 'c'].drop start.toNat).take 1))
    | none => .error (.http [])
  answered start count := min 1 (min count.toNat (3 - start.toNat))
  bounded start count := Nat.min_le_right _ _
  nonempty start count hstart hcount := by
    change start.toNat < 3 at hstart
    omega
  answers start count hcount := by
    have htake : (['a', 'b', 'c'].drop start.toNat).take (min 1 (min count.toNat (3 - start.toNat))) =
        (['a', 'b', 'c'].drop start.toNat).take 1 := by
      rw [List.take_eq_take_iff, List.length_drop]
      change min _ (3 - start.toNat) = min 1 (3 - start.toNat)
      omega
    simp only [requestedStart_eq, htake]
    refine ⟨_, rfl, carries_shortReply ?_⟩
    rcases start.toNat with _ | _ | _ | n <;> simp

theorem not_follow_shortServer :
    ¬Returns (shortServer.follow 2) (some (.ok shortServer.children)) := by
  intro h
  have hfull : shortServer.FullAt 2 0 := full_of_returns h 0 (by decide)
  revert hfull
  unfold FullAt
  decide

end Server

end EvoAudio.Dlna
