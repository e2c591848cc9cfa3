import EvoAudio.Playback.FacetPages
import EvoAudio.Playback.QueueVerbs
import EvoAudio.Playback.Stickers

/-!
# Browsing the folders of a source

`library.browse_library` of `playback.mpd/src/library.rs`. A browse path is
relative to the source: it is joined under the source's mount and MPD is asked
for that directory of its database. A source out of reach is answered from the
listings that were seen before, and a DLNA source by the plugin that owns it.
-/

namespace EvoAudio.Playback

open Mpd (MpdError)
open Procedure (Triple)

inductive EntryKind where
  | directory
  | file
  deriving DecidableEq, Repr

/-- An entry of a browse response. -/
structure LibraryEntry where
  kind : EntryKind
  name : List Char
  uri : List Char
  deriving DecidableEq, Repr

/-- An entry of a `source.dlna.browse` response. A field that is missing reads
as the empty text. -/
structure DlnaItem where
  kind : List Char
  name : List Char
  path : List Char
  uri : List Char
  deriving DecidableEq, Repr

structure DlnaReply where
  entries : List DlnaItem
  page : Option Nat
  pageSize : Option Nat
  total : Option Nat
  truncated : Option Bool
  nextPage : Option Nat
  deriving DecidableEq, Repr

structure LibraryContext where
  musicDirectory : UnixPath
  registry : SourceRegistry
  /-- The service id of a `NetworkDlna` source. -/
  service : List Char → Option (List Char)
  /-- `source.dlna.browse` by service, object, page and page size. -/
  shelfDispatcher : Option (List Char → List Char → Nat → Nat → Except Reason DlnaReply)

structure Browser where
  session : Session
  /-- The last listing of each path of a source. -/
  browseCache : List ((List Char × List Char) × List LibraryEntry)

structure BrowseLibraryPayload where
  v : Nat
  sourceId : List Char
  path : Option (List Char)
  page : Option Nat
  pageSize : Option Nat
  deriving DecidableEq, Repr

structure BrowseResponse where
  path : List Char
  entries : List LibraryEntry
  stale : Bool
  sourceState : SourceState
  page : Nat
  pageSize : Nat
  total : Nat
  truncated : Bool
  nextPage : Option Nat
  deriving DecidableEq, Repr

inductive LibraryVerbError where
  | payloadVersion (verb : String) (got expected : Nat)
  | unknownSource (sourceId : List Char)
  | sourceOffline (sourceId : List Char)
  | library (error : LibraryError)
  | mpd (verb : String) (reason : Reason)
  deriving DecidableEq, Repr

-- ---------------------------------------------------------------------------
-- Rendering
-- ---------------------------------------------------------------------------

/-- `path.rsplit('/').next()` -/
def lastSegment (path : List Char) : List Char := (path.reverse.takeWhile (· != '/')).reverse

def renderLibraryEntry : DirEntry → LibraryEntry
  | .directory path => ⟨.directory, lastSegment path, path⟩
  | .file path => ⟨.file, lastSegment path, path⟩

/-- A container is named by its object id. -/
def renderDlnaBrowseEntry (serviceId : List Char) (entry : DlnaItem) : LibraryEntry :=
  let stableUri :=
    if "dlna:".toList.isPrefixOf entry.uri then entry.uri
    else "dlna:".toList ++ serviceId ++ '/' :: entry.path
  if entry.kind = "directory".toList then ⟨.directory, entry.name, entry.path⟩
  else ⟨.file, entry.name, stableUri⟩

def sourceMountRoots : List (List Char) := ["NAS".toList, "USB".toList]

/-- A child of `NAS` or `USB` is listed while a source is mounted there. -/
def floorListsDirectory (path : List Char) (musicDirectory : UnixPath)
    (sources : List SourceRecord) : Bool :=
  match (path.splitOn '/').filter (· ≠ []) with
  | [] => true
  | root :: rest =>
    if !sourceMountRoots.contains root then true
    else
      match rest with
      | [] =>
        sources.any fun source =>
          (absolutePath musicDirectory root).isPrefixOf source.mountPath
      | [_] => sources.any fun source => source.mountPath == absolutePath musicDirectory path
      | _ => true

def floorLists (ctx : LibraryContext) : DirEntry → Bool
  | .directory path => floorListsDirectory path ctx.musicDirectory ctx.registry.snapshot
  | .file _ => true

def renderListing (ctx : LibraryContext) (entries : List DirEntry) : List LibraryEntry :=
  (entries.filter (floorLists ctx)).map renderLibraryEntry

-- ---------------------------------------------------------------------------
-- The request
-- ---------------------------------------------------------------------------

def dlnaPageHardCap : Nat := 100

/-- The page size of a source, within its cap. -/
def browsePageSize (ctx : LibraryContext) (payload : BrowseLibraryPayload) : Nat :=
  match ctx.service payload.sourceId with
  | some _ => min (max (payload.pageSize.getD dlnaPageDefault) 1) dlnaPageHardCap
  | none => clampedSize payload.pageSize

def folderPage (payload : BrowseLibraryPayload) (pageSize : Nat) (record : SourceRecord)
    (stale : Bool) (full : List LibraryEntry) : BrowseResponse :=
  let page := payload.page.getD 0
  let (entries, nextPage, truncated) := paginate full (page * pageSize) pageSize
  { path := payload.path.getD [], entries, stale, sourceState := record.state, page, pageSize,
    total := full.length, truncated, nextPage }

def SourceState.outOfReach : SourceState → Bool
  | .offline _ _ | .retired => true
  | _ => false

/-- The root container has the object id `0`. -/
def objectId (path : List Char) : List Char := if path.isEmpty then ['0'] else path

def dlnaPage (record : SourceRecord) (serviceId path : List Char) (page pageSize : Nat)
    (reply : DlnaReply) : BrowseResponse where
  path := objectId path
  entries := reply.entries.map (renderDlnaBrowseEntry serviceId)
  stale := false
  sourceState := record.state
  page := reply.page.getD page
  pageSize := reply.pageSize.getD pageSize
  total := reply.total.getD 0
  truncated := reply.truncated.getD false
  nextPage := reply.nextPage

def browseDlnaViaSourceDlna (ctx : LibraryContext) (record : SourceRecord)
    (serviceId path : List Char) (page pageSize : Nat) : Except LibraryVerbError BrowseResponse :=
  match ctx.shelfDispatcher with
  | none =>
    .error (.mpd "browse_library" (.source ("requires the peer-shelf dispatcher, but " ++
      "LoadContext.shelf_request_dispatcher was None at admission") record.id))
  | some browse =>
    -- The page number is cut to 32 bits on its way.
    match browse serviceId (objectId path) (page % 2 ^ 32) pageSize with
    | .error reason => .error (.mpd "browse_library" reason)
    | .ok reply => .ok (dlnaPage record serviceId path (page % 2 ^ 32) pageSize reply)

/-- What a listing answers replaces what was seen of the path before. -/
def Browser.remember (s : Browser) (key : List Char × List Char) (entries : List LibraryEntry) :
    Browser :=
  { s with browseCache := (key, entries) :: s.browseCache.filter (·.1 != key) }

def browseFolder (ctx : LibraryContext) (link : Link) (record : SourceRecord)
    (payload : BrowseLibraryPayload) : Procedure Browser LibraryVerbError BrowseResponse :=
  let path := payload.path.getD []
  match mpdDatabaseRelativePath ctx.musicDirectory record.mountPath path with
  | .error (.sourceOutsideMusicDirectory _ mountPath musicDirectory) =>
    .throw (.library (.sourceOutsideMusicDirectory payload.sourceId mountPath musicDirectory))
  | .ok mpdPath => do
    let entries ← Procedure.within Browser.session (fun s session => { s with session })
      ((lsinfo link mpdPath).mapError fun error => LibraryVerbError.mpd "browse_library" (.mpd error))
    let rendered := renderListing ctx entries
    .modify fun s => s.remember (payload.sourceId, path) rendered
    return folderPage payload (browsePageSize ctx payload) record false rendered

def handleBrowseLibrary (ctx : LibraryContext) (link : Link) (payload : BrowseLibraryPayload) :
    Procedure Browser LibraryVerbError BrowseResponse :=
  if payload.v ≠ libraryPayloadVersion then
    .throw (.payloadVersion "library.browse_library" payload.v libraryPayloadVersion)
  else
    match ctx.registry.get payload.sourceId with
    | none => .throw (.unknownSource payload.sourceId)
    | some record =>
      if record.state.outOfReach then do
        let s ← Procedure.get
        let full := (s.browseCache.lookup (payload.sourceId, payload.path.getD [])).getD []
        return folderPage payload (browsePageSize ctx payload) record true full
      else
        match ctx.service payload.sourceId with
        | some serviceId =>
          match browseDlnaViaSourceDlna ctx record serviceId (payload.path.getD [])
            (payload.page.getD 0) (browsePageSize ctx payload) with
          | .ok response => return response
          | .error error => .throw error
        | none => browseFolder ctx link record payload

-- ---------------------------------------------------------------------------
-- Directories of the database
-- ---------------------------------------------------------------------------

/-- A directory is listed for a song that lies beneath it. -/
theorem lsinfo_directory {library : Library} (h : library.lsinfo dir = some entries)
    (hmem : .directory path ∈ entries) :
    ∃ song ∈ library.songs, ∃ head tail, '/' ∉ head ∧
      beneath dir song = some (head ++ '/' :: tail) ∧
      path = if dir = [] then head else dir ++ '/' :: head := by
  have hentry : DirEntry.directory path ∈ library.songs.filterMap (lsinfoEntry dir) := by
    unfold Library.lsinfo at h
    split at h
    · split at h <;> cases h
      cases hmem
    · cases h
      exact List.mem_eraseDups.mp hmem
  obtain ⟨song, hsong, hline⟩ := List.mem_filterMap.mp hentry
  obtain ⟨rest, hbeneath, hline⟩ := Option.map_eq_some_iff.mp hline
  split at hline
  next => cases hline
  next head tail hsplit =>
    obtain ⟨rfl, hhead⟩ := Text.splitOnce_singleton_some hsplit
    cases hline
    exact ⟨song, hsong, head, tail, hhead, hbeneath, rfl⟩

theorem beneath_append (hdir : dir ≠ []) : beneath dir (dir ++ '/' :: rest) = some rest := by
  simp [beneath, hdir]

theorem beneath_eq_some (hdir : dir ≠ []) (hrest : rest ≠ [])
    (h : beneath dir path = some rest) : path = dir ++ '/' :: rest := by
  rw [beneath, if_neg hdir] at h
  split at h
  next => exact absurd (Option.some.inj h).symm hrest
  next rest' hstrip =>
    cases h
    exact Text.stripPrefix_eq_some hstrip
  next => cases h

theorem lsinfo_of_beneath {library : Library} (hsong : song ∈ library.songs)
    (h : (beneath dir song).isSome) : ∃ entries, library.lsinfo dir = some entries := by
  obtain ⟨rest, hrest⟩ := Option.isSome_iff_exists.mp h
  unfold Library.lsinfo
  split
  next hnil =>
    have hline : (lsinfoEntry dir song).isSome := by simp [lsinfoEntry, hrest]
    obtain ⟨entry, hentry⟩ := Option.isSome_iff_exists.mp hline
    have hmem : entry ∈ (library.songs.filterMap (lsinfoEntry dir)).eraseDups :=
      List.mem_eraseDups.mpr (List.mem_filterMap.mpr ⟨song, hsong, hentry⟩)
    rw [hnil] at hmem
    cases hmem
  next => exact ⟨_, rfl⟩

/-- What is listed as a directory can be listed. -/
theorem lsinfo_child {library : Library} (h : library.lsinfo dir = some entries)
    (hmem : .directory path ∈ entries) : ∃ entries', library.lsinfo path = some entries' := by
  obtain ⟨song, hsong, head, tail, hhead, hbeneath, rfl⟩ := lsinfo_directory h hmem
  refine lsinfo_of_beneath hsong ?_
  by_cases hdir : dir = []
  · rw [if_pos hdir]
    by_cases hempty : head = []
    · simp [beneath, hempty]
    · have hpath : song = head ++ '/' :: tail := by simpa [beneath, hdir] using hbeneath
      rw [hpath, beneath_append hempty]
      rfl
  · have hpath := beneath_eq_some hdir (by simp) hbeneath
    have hsplit : song = (dir ++ '/' :: head) ++ '/' :: tail := by simpa using hpath
    rw [if_neg hdir, hsplit, beneath_append (by simp)]
    rfl

-- ---------------------------------------------------------------------------
-- Paths of a source
-- ---------------------------------------------------------------------------

theorem relativePath_root (musicDirectory : UnixPath) (userPath : List Char) :
    mpdDatabaseRelativePath musicDirectory musicDirectory userPath =
      .ok (userPath.dropWhile (· == '/')) := by
  have hstrip := Text.stripPrefix_append musicDirectory []
  rw [List.append_nil] at hstrip
  unfold mpdDatabaseRelativePath
  rw [hstrip]
  cases userPath.dropWhile (· == '/') <;> rfl

theorem join_head_ne_slash {relative : UnixPath} (h : relative ≠ []) :
    ∃ c rest, UnixPath.join relative = c :: rest ∧ c ≠ '/' := by
  obtain ⟨segment, relative, rfl⟩ := List.exists_cons_of_ne_nil h
  obtain ⟨c, text, htext⟩ := List.exists_cons_of_ne_nil segment.isName.1
  have hslash : c ≠ '/' := by
    rintro rfl
    exact segment.isName.2.2 (htext ▸ List.mem_cons_self ..)
  cases relative with
  | nil => exact ⟨c, text, by simp [UnixPath.join, htext], hslash⟩
  | cons next relative =>
    have hjoin := UnixPath.join_append (List.cons_ne_nil segment []) next relative
    refine ⟨c, text ++ '/' :: UnixPath.join (next :: relative), ?_, hslash⟩
    simp [UnixPath.join, htext] at hjoin ⊢

theorem relativePath_under (musicDirectory : UnixPath) {relative : UnixPath} (h : relative ≠ [])
    (userPath : List Char) :
    mpdDatabaseRelativePath musicDirectory (musicDirectory ++ relative) userPath =
      .ok (if userPath.dropWhile (· == '/') = [] then UnixPath.join relative
        else UnixPath.join relative ++ '/' :: userPath.dropWhile (· == '/')) := by
  obtain ⟨c, rest, hjoin, -⟩ := join_head_ne_slash h
  unfold mpdDatabaseRelativePath
  rw [Text.stripPrefix_append]
  simp only [hjoin]
  cases userPath.dropWhile (· == '/') <;> rfl

/-- A path without a slash before it. -/
def Trimmed (path : List Char) : Prop := path.dropWhile (· == '/') = path

theorem trimmed_cons (h : c ≠ '/') (rest : List Char) : Trimmed (c :: rest) :=
  List.dropWhile_cons_of_neg (by simpa using h)

theorem mpdPath_trimmed (hmount : mountPath = musicDirectory ++ relative)
    (h : mpdDatabaseRelativePath musicDirectory mountPath userPath = .ok mpdPath) :
    Trimmed mpdPath := by
  subst hmount
  by_cases hroot : relative = []
  · rw [hroot, List.append_nil, relativePath_root] at h
    cases h
    exact List.dropWhile_idempotent ..
  · obtain ⟨c, rest, hjoin, hslash⟩ := join_head_ne_slash hroot
    rw [relativePath_under musicDirectory hroot, hjoin] at h
    cases h
    split
    · exact trimmed_cons hslash rest
    · exact trimmed_cons hslash _

/-- The directories of a trimmed path are trimmed. -/
theorem lsinfo_trimmed {library : Library} (hdir : Trimmed dir)
    (h : library.lsinfo dir = some entries) (hmem : .directory path ∈ entries) : Trimmed path := by
  obtain ⟨-, -, head, -, hhead, -, rfl⟩ := lsinfo_directory h hmem
  cases dir with
  | nil =>
    cases head with
    | nil => rfl
    | cons c head =>
      rw [if_pos rfl]
      exact trimmed_cons (fun heq => hhead (heq ▸ List.mem_cons_self ..)) head
  | cons c rest =>
    rw [if_neg (List.cons_ne_nil c rest)]
    refine trimmed_cons (fun heq => ?_) _
    have hlen : (rest.dropWhile (· == '/')).length = rest.length + 1 := by
      simpa [Trimmed, heq] using congrArg List.length hdir
    have hle := (List.dropWhile_sublist (l := rest) (· == '/')).length_le
    omega

theorem mpdPath_under_ne_nil (hmount : mountPath = musicDirectory ++ relative)
    (hrelative : relative ≠ [])
    (h : mpdDatabaseRelativePath musicDirectory mountPath userPath = .ok mpdPath) :
    mpdPath ≠ [] := by
  obtain ⟨c, rest, hjoin, -⟩ := join_head_ne_slash hrelative
  rw [hmount, relativePath_under musicDirectory hrelative, hjoin] at h
  cases h
  split <;> simp

theorem lsinfo_directory_ne_nil {library : Library} (hdir : dir ≠ [])
    (h : library.lsinfo dir = some entries) (hmem : .directory path ∈ entries) : path ≠ [] := by
  obtain ⟨-, -, head, -, -, -, rfl⟩ := lsinfo_directory h hmem
  simp [hdir]

-- ---------------------------------------------------------------------------
-- What a browse answers
-- ---------------------------------------------------------------------------

/-- The listing of a directory of the database, as a browse renders it. -/
def directoryListing (ctx : LibraryContext) (server : Server) (dir : List Char) :
    Option (List LibraryEntry) :=
  (server.library.lsinfo dir).map (renderListing ctx)

theorem handleBrowse_folder {link : Link} (hget : ctx.registry.get sourceId = some record)
    (hreach : record.state.outOfReach = false) (hservice : ctx.service sourceId = none)
    (path : Option (List Char)) (page pageSize : Option Nat) :
    handleBrowseLibrary ctx link ⟨libraryPayloadVersion, sourceId, path, page, pageSize⟩ =
      browseFolder ctx link record ⟨libraryPayloadVersion, sourceId, path, page, pageSize⟩ := by
  simp [handleBrowseLibrary, hget, hreach, hservice]

theorem lsinfo_within (link : Link) (mpdPath : List Char) (f : MpdError → LibraryVerbError)
    (s : Browser) :
    Triple (Procedure.within Browser.session (fun s session => { s with session })
        ((lsinfo link mpdPath).mapError f)) s
      (fun entries s' => s.session.server.library.lsinfo mpdPath = some entries ∧
        s'.session.server = s.session.server ∧
        s'.session.log = (.lsinfo mpdPath, true) :: s.session.log)
      (fun _ _ => True) := by
  refine .within (E := fun _ _ => True) (.mapError (dispatch_run ..) fun _ _ _ => trivial) ?_
    fun _ _ _ => trivial
  rintro entries session ⟨hanswer, -, hlog⟩
  unfold Server.lsinfo at hanswer
  split at hanswer
  next hlist =>
    obtain ⟨rfl, hserver⟩ := Prod.mk.inj (Except.ok.inj hanswer)
    exact ⟨hlist, hserver.symm, hlog⟩
  next => cases hanswer

theorem browseFolder_run (ctx : LibraryContext) (link : Link) (record : SourceRecord)
    (payload : BrowseLibraryPayload) (s : Browser) :
    Triple (browseFolder ctx link record payload) s
      (fun response s' => ∃ mpdPath listing,
        mpdDatabaseRelativePath ctx.musicDirectory record.mountPath (payload.path.getD []) =
          .ok mpdPath ∧
        directoryListing ctx s.session.server mpdPath = some listing ∧
        response = folderPage payload (browsePageSize ctx payload) record false listing ∧
        s'.session.server = s.session.server ∧
        s'.session.log = (.lsinfo mpdPath, true) :: s.session.log)
      (fun _ _ => True) := by
  unfold browseFolder
  dsimp only
  split
  next => exact .throw trivial
  next mpdPath hpath =>
    refine .bind (lsinfo_within link mpdPath _ s) ?_
    rintro entries s' ⟨hlist, hserver, hlog⟩
    refine ⟨mpdPath, renderListing ctx entries, hpath, ?_, rfl, hserver, hlog⟩
    rw [directoryListing, hlist, Option.map_some]

theorem browseDlna_ok (record : SourceRecord) (hdispatcher : ctx.shelfDispatcher = some browse)
    (hreply : browse serviceId (objectId path) (page % 2 ^ 32) pageSize = .ok reply) :
    browseDlnaViaSourceDlna ctx record serviceId path page pageSize =
      .ok (dlnaPage record serviceId path (page % 2 ^ 32) pageSize reply) := by
  unfold browseDlnaViaSourceDlna
  simp only [hdispatcher, hreply]

theorem browseFolder_served (payload : BrowseLibraryPayload)
    (hpath : mpdDatabaseRelativePath ctx.musicDirectory record.mountPath (payload.path.getD []) =
      .ok mpdPath)
    (hlist : directoryListing ctx s.session.server mpdPath = some listing) :
    ∃ s', browseFolder ctx serving record payload s =
        (.ok (folderPage payload (browsePageSize ctx payload) record false listing), s') ∧
      s'.session.log = (.lsinfo mpdPath, true) :: s.session.log := by
  obtain ⟨entries, hentries, rfl⟩ := Option.map_eq_some_iff.mp hlist
  have hserver : Server.lsinfo mpdPath s.session.server = .ok (entries, s.session.server) := by
    simp [Server.lsinfo, hentries]
  have hlsinfo : lsinfo serving mpdPath s.session = _ := dispatch_served rfl hserver
  unfold browseFolder
  rw [hpath]
  exact ⟨_, Procedure.run_bind_ok (Procedure.run_within (Procedure.run_mapError hlsinfo)), rfl⟩

-- ---------------------------------------------------------------------------
-- From an entry to its directory
-- ---------------------------------------------------------------------------

/-- A browse by the uri asks MPD for the directory of that name and answers a
page of its listing. -/
def OpensFolder (ctx : LibraryContext) (record : SourceRecord) (s : Browser) (uri : List Char) :
    Prop :=
  ∃ listing, directoryListing ctx s.session.server uri = some listing ∧ ∀ page pageSize,
    let payload : BrowseLibraryPayload :=
      ⟨libraryPayloadVersion, record.id, some uri, page, pageSize⟩
    ∃ s', handleBrowseLibrary ctx serving payload s =
        (.ok (folderPage payload (browsePageSize ctx payload) record false listing), s') ∧
      s'.session.log = (.lsinfo uri, true) :: s.session.log

/-- A browse by the uri answers what the plugin has for the container of that
object id. -/
def OpensContainer (ctx : LibraryContext) (record : SourceRecord) (serviceId : List Char)
    (s : Browser) (uri : List Char) : Prop :=
  ∃ browse, ctx.shelfDispatcher = some browse ∧ ∀ page pageSize reply,
    let payload : BrowseLibraryPayload :=
      ⟨libraryPayloadVersion, record.id, some uri, page, pageSize⟩
    let page := page.getD 0 % 2 ^ 32
    browse serviceId (objectId uri) page (browsePageSize ctx payload) = .ok reply →
      (handleBrowseLibrary ctx serving payload s).1 =
        .ok (dlnaPage record serviceId uri page (browsePageSize ctx payload) reply)

def Opens (ctx : LibraryContext) (record : SourceRecord) (s : Browser) (uri : List Char) : Prop :=
  match ctx.service record.id with
  | some serviceId => OpensContainer ctx record serviceId s uri
  | none => OpensFolder ctx record s uri

/-- Each directory that a page of the path shows is opened by its own uri. An
answer marked stale is a copy of an earlier one. -/
def Navigable (ctx : LibraryContext) (record : SourceRecord) (s : Browser)
    (path : Option (List Char)) : Prop :=
  ∀ link page pageSize response s',
    handleBrowseLibrary ctx link ⟨libraryPayloadVersion, record.id, path, page, pageSize⟩ s =
      (.ok response, s') → response.stale = false →
    ∀ entry ∈ response.entries, entry.kind = .directory → Opens ctx record s' entry.uri

/-- MPD has a directory beneath the path of the source, and the floor shows it. -/
def ListsDirectory (ctx : LibraryContext) (record : SourceRecord) (s : Browser)
    (path : Option (List Char)) : Prop :=
  ∃ mpdPath listing,
    mpdDatabaseRelativePath ctx.musicDirectory record.mountPath (path.getD []) = .ok mpdPath ∧
    directoryListing ctx s.session.server mpdPath = some listing ∧
    ∃ entry ∈ listing, entry.kind = .directory

theorem mem_of_mem_folderPage
    (h : entry ∈ (folderPage payload pageSize record stale full).entries) : entry ∈ full := by
  change entry ∈ (paginate full _ pageSize).1 at h
  unfold paginate at h
  split at h
  · cases h
  · exact List.mem_of_mem_drop (List.mem_of_mem_take h)

/-- Each entry of a listing is on one of its pages. -/
theorem exists_page_mem {full : List LibraryEntry} (h : entry ∈ full) :
    ∃ i, entry ∈ (paginate full (i * 1) 1).1 := by
  obtain ⟨i, hi, rfl⟩ := List.mem_iff_getElem.mp h
  refine ⟨i, ?_⟩
  rw [paginate_eq full i Nat.one_pos, Paging.page, Nat.mul_one, List.drop_eq_getElem_cons hi]
  exact List.mem_cons_self ..

theorem directory_of_mem_listing
    (hlist : directoryListing ctx server dir = some listing) (hmem : entry ∈ listing)
    (hkind : entry.kind = .directory) :
    ∃ entries, server.library.lsinfo dir = some entries ∧ .directory entry.uri ∈ entries := by
  obtain ⟨entries, hentries, rfl⟩ := Option.map_eq_some_iff.mp hlist
  obtain ⟨line, hline, rfl⟩ := List.mem_map.mp hmem
  refine ⟨entries, hentries, ?_⟩
  cases line with
  | directory path => exact (List.mem_filter.mp hline).1
  | file path => cases hkind

section Source

variable {ctx : LibraryContext} {record : SourceRecord} {relative : UnixPath}

/-- At the root of the database a path of the source is a path of MPD. -/
theorem opensFolder_root (hget : ctx.registry.get record.id = some record)
    (hmount : record.mountPath = ctx.musicDirectory) (hservice : ctx.service record.id = none)
    (hreach : record.state.outOfReach = false) (huri : Trimmed uri)
    (hlist : directoryListing ctx s.session.server uri = some listing) :
    OpensFolder ctx record s uri := by
  refine ⟨listing, hlist, fun page pageSize => ?_⟩
  have hpath : mpdDatabaseRelativePath ctx.musicDirectory record.mountPath uri = .ok uri := by
    rw [hmount, relativePath_root, huri]
  dsimp only
  rw [handleBrowse_folder hget hreach hservice]
  exact browseFolder_served ⟨_, _, some uri, page, pageSize⟩ hpath hlist

/-- Under a mount of its own the source is asked for a longer path than the
uri, which has the mount in it already. -/
theorem not_opensFolder_under (hget : ctx.registry.get record.id = some record)
    (hmount : record.mountPath = ctx.musicDirectory ++ relative) (hrelative : relative ≠ [])
    (hservice : ctx.service record.id = none) (hreach : record.state.outOfReach = false)
    (huri : Trimmed uri) (hne : uri ≠ []) : ¬OpensFolder ctx record s uri := by
  rintro ⟨listing, -, hopens⟩
  obtain ⟨s', hrun, hlog⟩ := hopens none none
  rw [handleBrowse_folder hget hreach hservice] at hrun
  obtain ⟨mpdPath, -, hpath, -, -, -, hasked⟩ := (browseFolder_run ..).ok hrun
  have hlonger := relativePath_under ctx.musicDirectory hrelative uri
  rw [huri, if_neg hne, ← hmount] at hlonger
  have hsame : mpdPath = uri := by
    simpa using hasked.symm.trans hlog
  have hlength := congrArg List.length (Except.ok.inj (hlonger.symm.trans hpath))
  simp [hsame] at hlength
  omega

theorem navigable_root (hget : ctx.registry.get record.id = some record)
    (hmount : record.mountPath = ctx.musicDirectory) (hservice : ctx.service record.id = none)
    (hreach : record.state.outOfReach = false) : Navigable ctx record s path := by
  intro link page pageSize response s' hrun _ entry hentry hkind
  rw [handleBrowse_folder hget hreach hservice] at hrun
  obtain ⟨mpdPath, listing, hpath, hlist, rfl, hserver, -⟩ := (browseFolder_run ..).ok hrun
  obtain ⟨entries, hentries, hline⟩ :=
    directory_of_mem_listing hlist (mem_of_mem_folderPage hentry) hkind
  obtain ⟨children, hchildren⟩ := lsinfo_child hentries hline
  have htrimmed := mpdPath_trimmed (hmount.trans (List.append_nil _).symm) hpath
  have hlisting : directoryListing ctx s'.session.server entry.uri =
      some (renderListing ctx children) := by
    rw [directoryListing, hserver, hchildren, Option.map_some]
  unfold Opens
  rw [hservice]
  exact opensFolder_root hget hmount hservice hreach (lsinfo_trimmed htrimmed hentries hline)
    hlisting

theorem navigable_service (hget : ctx.registry.get record.id = some record)
    (hservice : ctx.service record.id = some serviceId)
    (hreach : record.state.outOfReach = false) : Navigable ctx record s path := by
  intro link page pageSize response s' hrun _ entry hentry hkind
  unfold Opens
  rw [hservice]
  cases hdispatcher : ctx.shelfDispatcher with
  | none =>
    simp [handleBrowseLibrary, hget, hreach, hservice, browseDlnaViaSourceDlna, hdispatcher] at hrun
  | some browse =>
    refine ⟨browse, hdispatcher, fun page pageSize reply hreply => ?_⟩
    have hanswer := browseDlna_ok record hdispatcher hreply
    simp [handleBrowseLibrary, hget, hreach, hservice, hanswer]

theorem navigable_outOfReach (hget : ctx.registry.get record.id = some record)
    (hreach : record.state.outOfReach = true) : Navigable ctx record s path := by
  intro link page pageSize response s' hrun hstale
  rw [handleBrowseLibrary, if_neg (not_not.mpr rfl)] at hrun
  simp only [hget, hreach, if_true] at hrun
  cases hrun
  cases hstale

theorem navigable_flat (hget : ctx.registry.get record.id = some record)
    (hservice : ctx.service record.id = none) (hreach : record.state.outOfReach = false)
    (hlists : ¬ListsDirectory ctx record s path) : Navigable ctx record s path := by
  intro link page pageSize response s' hrun _ entry hentry hkind
  rw [handleBrowse_folder hget hreach hservice] at hrun
  obtain ⟨mpdPath, listing, hpath, hlist, rfl, -⟩ := (browseFolder_run ..).ok hrun
  exact absurd ⟨mpdPath, listing, hpath, hlist, entry, mem_of_mem_folderPage hentry, hkind⟩ hlists

theorem not_navigable_under (hget : ctx.registry.get record.id = some record)
    (hmount : record.mountPath = ctx.musicDirectory ++ relative) (hrelative : relative ≠ [])
    (hservice : ctx.service record.id = none) (hreach : record.state.outOfReach = false)
    (hlists : ListsDirectory ctx record s path) : ¬Navigable ctx record s path := by
  intro hnavigable
  obtain ⟨mpdPath, listing, hpath, hlist, entry, hentry, hkind⟩ := hlists
  obtain ⟨entries, hentries, hline⟩ := directory_of_mem_listing hlist hentry hkind
  have htrimmed := lsinfo_trimmed (mpdPath_trimmed hmount hpath) hentries hline
  have hne := lsinfo_directory_ne_nil (mpdPath_under_ne_nil hmount hrelative hpath) hentries hline
  obtain ⟨i, hi⟩ := exists_page_mem hentry
  have hsize : browsePageSize ctx ⟨libraryPayloadVersion, record.id, path, some i, some 1⟩ = 1 := by
    rw [browsePageSize, hservice]
    rfl
  obtain ⟨s', hrun, -⟩ := browseFolder_served
    ⟨libraryPayloadVersion, record.id, path, some i, some 1⟩ hpath hlist
  rw [← handleBrowse_folder hget hreach hservice, hsize] at hrun
  have hopens := hnavigable serving (some i) (some 1) _ s' hrun rfl entry hi hkind
  rw [Opens, hservice] at hopens
  exact not_opensFolder_under hget hmount hrelative hservice hreach htrimmed hne hopens

/-- The uris of the entries are paths of the database, and a browse path is
relative to the mount: the two agree at the root of the database. -/
theorem navigable_iff (hget : ctx.registry.get record.id = some record)
    (hmount : record.mountPath = ctx.musicDirectory ++ relative) (s : Browser)
    (path : Option (List Char)) :
    Navigable ctx record s path ↔
      relative = [] ∨ ctx.service record.id ≠ none ∨ record.state.outOfReach ∨
        ¬ListsDirectory ctx record s path := by
  cases hservice : ctx.service record.id with
  | some serviceId =>
    cases hreach : record.state.outOfReach with
    | true => simp [navigable_outOfReach hget hreach]
    | false => simp [navigable_service hget hservice hreach]
  | none =>
    cases hreach : record.state.outOfReach with
    | true => simp [navigable_outOfReach hget hreach]
    | false =>
      by_cases hroot : relative = []
      · rw [hroot, List.append_nil] at hmount
        simp [hroot, navigable_root hget hmount hservice hreach]
      · by_cases hlists : ListsDirectory ctx record s path
        · simp [hroot, hlists, not_navigable_under hget hmount hroot hservice hreach hlists]
        · simp [hlists, navigable_flat hget hservice hreach hlists]

end Source

/-- The internal library at the root of the database, with a stick beneath it. -/
def stickContext : LibraryContext where
  musicDirectory := UnixPath.components "/music".toList
  registry := nestedSources
  service _ := none
  shelfDispatcher := none

def stickBrowser : Browser :=
  ⟨emptyQueue (.files ["USB/stick/album/a.flac".toList] (by decide) (by decide) (by decide)), []⟩

def internalSource : SourceRecord :=
  ⟨"local-internal".toList, UnixPath.components "/music".toList, .probing, none⟩

def stickSource : SourceRecord :=
  ⟨"usb".toList, UnixPath.components "/music/USB/stick".toList, .probing, none⟩

/-- A browse of the internal library can be followed. -/
theorem navigable_iff_internal :
    stickContext.registry.get internalSource.id = some internalSource ∧
      internalSource.mountPath = stickContext.musicDirectory ++ [] ∧
      Navigable stickContext internalSource stickBrowser (some "USB/stick".toList) :=
  ⟨by decide, by decide, (navigable_iff (by decide) (by decide : _ = _ ++ []) _ _).mpr (.inl rfl)⟩

/-- The stick shows its album as `USB/stick/album`, and asked for that path it
asks MPD for `USB/stick/USB/stick/album`. -/
theorem stick_album_not_found :
    let browse (path : Option (List Char)) :=
      handleBrowseLibrary stickContext serving
        ⟨libraryPayloadVersion, "usb".toList, path, none, none⟩ stickBrowser
    stickContext.registry.get stickSource.id = some stickSource ∧
      stickSource.mountPath =
        stickContext.musicDirectory ++ UnixPath.components "USB/stick".toList ∧
      (browse none).1.toOption.map BrowseResponse.entries =
        some [⟨.directory, "album".toList, "USB/stick/album".toList⟩] ∧
      (browse (some "USB/stick/album".toList)).1 =
        .error (.mpd "browse_library" (.mpd noExist)) ∧
      (browse (some "USB/stick/album".toList)).2.session.log =
        [(.lsinfo "USB/stick/USB/stick/album".toList, false)] ∧
      ¬Navigable stickContext stickSource stickBrowser none := by
  have hmount : stickSource.mountPath =
      stickContext.musicDirectory ++ UnixPath.components "USB/stick".toList := by decide
  refine ⟨by decide, hmount, by decide, by decide, by decide, ?_⟩
  refine not_navigable_under (by decide) hmount (by decide) rfl rfl ?_
  exact ⟨"USB/stick".toList, [⟨.directory, "album".toList, "USB/stick/album".toList⟩], by decide,
    by decide, _, List.mem_singleton_self _, rfl⟩

end EvoAudio.Playback
