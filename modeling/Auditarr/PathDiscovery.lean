/-
  Auditarr/PathDiscovery.lean
  ===========================
  **Suggested path mappings** (`app/integrations/discovery.py`, and `applySuggestions` of the
  mapping editor).

  The root folders that an upstream reports are each matched with a library by the last part of
  the path.  A suggestion names the first library of the best grade there is, and once it is
  applied, what the upstream has below its folder is translated to the same place below the
  root of that library, by the deepest folder that holds it.
-/
import Auditarr.PathMappingStore

namespace PathDiscovery

open PyValues PathMappings PathPrefixes PathTranslation PathMappingStore

/-! ### The folders of the upstream -/

/-- Library functions: `str.lower`, and `str` of a value that is no string. -/
structure DiscoveryRuntime where
  lower : String → String
  str : PyValue → String

/-- What a request to the upstream comes to: a document, an error of the client or the status,
    or a body that is no document. -/
inductive Reply where
  | json (payload : PyValue)
  | httpError
  | notJson

/-- `os.path.basename`. -/
def basename (path : String) : String :=
  String.ofList (path.toList.reverse.takeWhile (· ≠ '/')).reverse

/-- `os.path.dirname`. -/
def dirname (path : String) : String :=
  let head := String.ofList (path.toList.reverse.dropWhile (· ≠ '/')).reverse
  if head.toList.all (· = '/') then head else rstripSlash head

/-- What a function that reads the upstream raises: an error of the client, which is caught, or
    another. -/
inductive FetchError where
  | http
  | other (e : PyError)

def raised {α : Type} : Except PyError α → Except FetchError α
  | .ok a => .ok a
  | .error e => .error (.other e)

/-- `client.get`, `raise_for_status` and `response.json`. -/
def Reply.payload : Reply → Except FetchError PyValue
  | .json payload => .ok payload
  | .httpError => .error .http
  | .notJson => .error (.other .valueError)

section Fetch

variable (rt : DiscoveryRuntime)

/-- `str(v)`. -/
def pyStr : PyValue → String
  | .str s => s
  | v => rt.str v

/-- `[str(path)]` if the entry has one. -/
def pathsAt (key : String) (entry : PyValue) : Except PyError (List String) := do
  let path ← entry.get key
  return if path.truthy then [pyStr rt path] else []

/-- `_fetch_arr_root_folders`. -/
def fetchArrRootFolders (replies : String → Reply) : Except FetchError (List String) := do
  let payload ← (replies "/api/v3/rootfolder").payload
  raised do
    let entries ← payload.orEmpty.iterate
    let paths ← entries.mapM (pathsAt rt "path")
    return paths.flatten.eraseDups

/-- `os.path.dirname(os.fspath(p).rstrip("/"))`, for a path that there is. -/
def rootsAt (entry : PyValue) : Except PyError (List String) := do
  let path ← entry.get "path"
  if path.truthy then match path with
    | .str p =>
        let root := dirname (rstripSlash p)
        return if root ≠ "" then [root] else []
    | _ => .error .typeError
  else return []

/-- The roots of an endpoint of Bazarr; one that answers with an error is passed over. -/
def bazarrRoots (reply : Reply) : Except FetchError (List String) :=
  match reply.payload with
  | .error .http => .ok []
  | .error e => .error e
  | .ok payload => raised do
      let data ← payload.orDict.get "data"
      let entries ← data.orEmpty.iterate
      let roots ← entries.mapM rootsAt
      return roots.flatten

/-- `_fetch_bazarr_settings`. -/
def fetchBazarrSettings (replies : String → Reply) : Except FetchError (List String) := do
  let series ← bazarrRoots (replies "/api/series")
  let movies ← bazarrRoots (replies "/api/movies")
  return (series ++ movies).eraseDups.mergeSort fun a b => decide (a ≤ b)

/-- `payload.get(key, default)`. -/
def getWith (payload : PyValue) (key : String) (default_ : PyValue) : Except PyError PyValue :=
  match payload with
  | .dict entries => .ok ((entries.lookup key).getD default_)
  | _ => .error (.other "AttributeError")

/-- `_fetch_plex_section_locations`. -/
def fetchPlexSectionLocations (replies : String → Reply) : Except FetchError (List String) := do
  let payload ← (replies "/library/sections").payload
  raised do
    let container ← getWith payload.orDict "MediaContainer" (.dict [])
    let directories ← getWith container "Directory" (.list [])
    let directories ← directories.orEmpty.iterate
    let paths ← directories.mapM fun d => do
      let locations ← d.get "Location"
      let locations ← locations.orEmpty.iterate
      locations.mapM (pathsAt rt "path")
    return paths.flatten.flatten.eraseDups

/-- `_fetch_jellyfin_virtual_folders`. -/
def fetchJellyfinVirtualFolders (replies : String → Reply) : Except FetchError (List String) := do
  let payload ← (replies "/Library/VirtualFolders").payload
  raised do
    let folders ← payload.orEmpty.iterate
    let paths ← folders.mapM fun folder => do
      let locations ← folder.get "Locations"
      let locations ← locations.orEmpty.iterate
      return locations.map (pyStr rt)
    return paths.flatten.eraseDups

/-- The functions by kind. -/
def fetcher : String → (String → Reply) → Except FetchError (List String)
  | "sonarr" => fetchArrRootFolders rt
  | "radarr" => fetchArrRootFolders rt
  | "bazarr" => fetchBazarrSettings
  | "plex" => fetchPlexSectionLocations rt
  | "jellyfin" => fetchJellyfinVirtualFolders rt
  | _ => fun _ => .ok []

/-- `_fetch_upstream_paths`: `options` are those of the configuration, unless that could not be
    built. -/
def fetchUpstreamPaths (kind : String) (options : Option (List (String × PyValue)))
    (replies : String → Reply) : Except PyError (List String) :=
  match options with
  | none => .ok []
  | some entries =>
      let baseUrl := rstripSlash (pyStr rt ((entries.lookup "base_url").getD (.str "")))
      if baseUrl = "" then .ok []
      else match fetcher rt kind replies with
        | .ok paths => .ok paths
        | .error .http => .ok []
        | .error (.other e) => .error e

end Fetch

/-! ### Matching -/

/-- `Library`, with what the match reads of it. -/
structure DiscoveryLibrary where
  id : String
  name : String
  rootPath : String
  enabled : Bool

inductive Confidence where
  | high | medium | low | none
deriving DecidableEq

/-- `PathMappingSuggestion`. -/
structure PathMappingSuggestion where
  fromPath : String
  toPath : String
  confidence : Confidence
  libraryId : Option String
  libraryName : Option String
deriving DecidableEq

/-- What the loop over the libraries has found. -/
structure Picks where
  high : Option DiscoveryLibrary
  medium : Option DiscoveryLibrary
  low : Option DiscoveryLibrary

section Match

variable (rt : DiscoveryRuntime)

/-- `lib_basename`, `up_basename`. -/
def lastPart (path : String) : String := basename (rstripSlash path)

/-- Neither is empty, and one is part of the other. -/
def overlapping (a b : String) : Bool :=
  a ≠ "" && b ≠ "" && (decide (a.toList <:+: b.toList) || decide (b.toList <:+: a.toList))

/-- The loop; a library whose last part is the same ends it. -/
def matchLoop (up : String) : Picks → List DiscoveryLibrary → Picks
  | picks, [] => picks
  | picks, lib :: rest =>
      let lower := rt.lower (lastPart lib.rootPath)
      if lastPart lib.rootPath = lastPart up then { picks with high := some lib }
      else if lower = rt.lower (lastPart up) then
        matchLoop up { picks with medium := picks.medium.or (some lib) } rest
      else if overlapping (rt.lower (lastPart up)) lower then
        matchLoop up { picks with low := picks.low.or (some lib) } rest
      else matchLoop up picks rest

def suggestionOf (up : String) (lib : DiscoveryLibrary) (confidence : Confidence) :
    PathMappingSuggestion :=
  ⟨up, lib.rootPath, confidence, some lib.id, some lib.name⟩

/-- `_match_to_library`. -/
def matchToLibrary (up : String) (libraries : List DiscoveryLibrary) : PathMappingSuggestion :=
  let picks := matchLoop rt up ⟨none, none, none⟩ libraries
  match picks.high, picks.medium, picks.low with
  | some lib, _, _ => suggestionOf up lib .high
  | none, some lib, _ => suggestionOf up lib .medium
  | none, none, some lib => suggestionOf up lib .low
  | none, none, none => ⟨up, "", .none, none, none⟩

/-- `discover_path_mappings`. -/
def discoverPathMappings (kind : String) (options : Option (List (String × PyValue)))
    (replies : String → Reply) (libraries : List DiscoveryLibrary) :
    Except PyError (List PathMappingSuggestion) := do
  let paths ← fetchUpstreamPaths rt kind options replies
  return paths.map fun up => matchToLibrary rt up (libraries.filter (·.enabled))

end Match

/-- `applySuggestions`: the rows of the editor, and those of the suggestions. -/
def applySuggestions (rows : List PathMapping) (suggestions : List PathMappingSuggestion) :
    List PathMapping :=
  rows ++ (suggestions.filter (·.fromPath ≠ "")).map fun s => ⟨s.fromPath, s.toPath⟩

/-- `path_mappings` as it is saved. -/
def savedMappings (rows : List PathMapping) : PyValue := .list (rows.map dumpMapping)

/-! ### The roots are distinct -/

theorem nodup_eraseDups {α : Type} [DecidableEq α] (l : List α) : l.eraseDups.Nodup := by
  induction hn : l.length using Nat.strong_induction_on generalizing l with
  | _ n ih =>
    cases l with
    | nil => exact List.nodup_nil
    | cons a rest =>
      rw [List.eraseDups_cons, List.nodup_cons]
      constructor
      · simp [List.mem_eraseDups]
      · refine ih _ ?_ _ rfl
        rw [← hn]
        exact Nat.lt_succ_of_le (List.length_filter_le ..)

theorem raised_eq_ok {α : Type} {outcome : Except PyError α} {a : α}
    (h : raised outcome = .ok a) : outcome = .ok a := by
  cases outcome with
  | ok b => exact congrArg _ (Except.ok.inj h)
  | error e => cases h

section Roots

variable {rt : DiscoveryRuntime} {replies : String → Reply} {paths : List String}

theorem nodup_arr (h : fetchArrRootFolders rt replies = .ok paths) : paths.Nodup := by
  obtain ⟨payload, -, h⟩ := bind_eq_ok.mp h
  obtain ⟨entries, -, h⟩ := bind_eq_ok.mp (raised_eq_ok h)
  obtain ⟨found, -, h⟩ := bind_eq_ok.mp h
  cases h
  exact nodup_eraseDups _

theorem nodup_bazarr (h : fetchBazarrSettings replies = .ok paths) : paths.Nodup := by
  obtain ⟨series, -, h⟩ := bind_eq_ok.mp h
  obtain ⟨movies, -, h⟩ := bind_eq_ok.mp h
  cases h
  exact (List.mergeSort_perm ..).nodup_iff.mpr (nodup_eraseDups _)

theorem nodup_plex (h : fetchPlexSectionLocations rt replies = .ok paths) : paths.Nodup := by
  obtain ⟨payload, -, h⟩ := bind_eq_ok.mp h
  obtain ⟨container, -, h⟩ := bind_eq_ok.mp (raised_eq_ok h)
  obtain ⟨directories, -, h⟩ := bind_eq_ok.mp h
  obtain ⟨entries, -, h⟩ := bind_eq_ok.mp h
  obtain ⟨found, -, h⟩ := bind_eq_ok.mp h
  cases h
  exact nodup_eraseDups _

theorem nodup_jellyfin (h : fetchJellyfinVirtualFolders rt replies = .ok paths) :
    paths.Nodup := by
  obtain ⟨payload, -, h⟩ := bind_eq_ok.mp h
  obtain ⟨folders, -, h⟩ := bind_eq_ok.mp (raised_eq_ok h)
  obtain ⟨found, -, h⟩ := bind_eq_ok.mp h
  cases h
  exact nodup_eraseDups _

theorem nodup_fetcher {kind : String} (h : fetcher rt kind replies = .ok paths) :
    paths.Nodup := by
  unfold fetcher at h
  split at h
  · exact nodup_arr h
  · exact nodup_arr h
  · exact nodup_bazarr h
  · exact nodup_plex h
  · exact nodup_jellyfin h
  · cases h
    exact List.nodup_nil

theorem nodup_fetchUpstreamPaths {kind : String} {options : Option (List (String × PyValue))}
    (h : fetchUpstreamPaths rt kind options replies = .ok paths) : paths.Nodup := by
  unfold fetchUpstreamPaths at h
  split at h
  · cases h
    exact List.nodup_nil
  · dsimp only at h
    split at h
    · cases h
      exact List.nodup_nil
    · split at h
      · rename_i hfetched
        cases h
        exact nodup_fetcher hfetched
      · cases h
        exact List.nodup_nil
      · cases h

end Roots

/-! ### The folders that are reported -/

/-- A loop over `v or []` comes by the item. -/
def Yields (v item : PyValue) : Prop := ∃ items, v.orEmpty.iterate = .ok items ∧ item ∈ items

/-- The entry has a value under the key, and that is not empty. -/
def Has (entry : PyValue) (key : String) (v : PyValue) : Prop :=
  entry.get key = .ok v ∧ v.truthy = true

section Upstreams

variable (rt : DiscoveryRuntime) (replies : String → Reply) (path : String)

/-- A root folder of Sonarr or Radarr. -/
def ArrFolder : Prop :=
  ∃ payload, replies "/api/v3/rootfolder" = .json payload ∧
    ∃ entry, Yields payload entry ∧ ∃ v, Has entry "path" v ∧ path = pyStr rt v

/-- The folder that holds a title of Bazarr, by an endpoint that answers. -/
def BazarrFolder (reply : Reply) : Prop :=
  ∃ payload, reply = .json payload ∧ ∃ data, payload.orDict.get "data" = .ok data ∧
    ∃ entry, Yields data entry ∧ ∃ p, Has entry "path" (.str p) ∧
      dirname (rstripSlash p) ≠ "" ∧ path = dirname (rstripSlash p)

/-- A location of a section of Plex. -/
def PlexLocation : Prop :=
  ∃ payload, replies "/library/sections" = .json payload ∧
    ∃ container, getWith payload.orDict "MediaContainer" (.dict []) = .ok container ∧
    ∃ directories, getWith container "Directory" (.list []) = .ok directories ∧
    ∃ d, Yields directories d ∧ ∃ locations, d.get "Location" = .ok locations ∧
    ∃ loc, Yields locations loc ∧ ∃ v, Has loc "path" v ∧ path = pyStr rt v

/-- A location of a virtual folder of Jellyfin. -/
def JellyfinLocation : Prop :=
  ∃ payload, replies "/Library/VirtualFolders" = .json payload ∧
    ∃ folder, Yields payload folder ∧ ∃ locations, folder.get "Locations" = .ok locations ∧
    ∃ loc, Yields locations loc ∧ path = pyStr rt loc

/-- What each kind of upstream has for a root folder, by the documents it answers with. -/
def Reported (kind : String) : Prop :=
  (kind = "sonarr" ∨ kind = "radarr") ∧ ArrFolder rt replies path ∨
  kind = "bazarr" ∧ (BazarrFolder path (replies "/api/series") ∨
    BazarrFolder path (replies "/api/movies")) ∨
  kind = "plex" ∧ PlexLocation rt replies path ∨
  kind = "jellyfin" ∧ JellyfinLocation rt replies path

end Upstreams

/-- The configuration could be built, and it has the URL of the upstream. -/
def Configured (rt : DiscoveryRuntime) (options : Option (List (String × PyValue))) : Prop :=
  ∃ entries, options = some entries ∧
    rstripSlash (pyStr rt ((entries.lookup "base_url").getD (.str ""))) ≠ ""

section Reports

variable {rt : DiscoveryRuntime} {replies : String → Reply} {paths : List String} {path : String}

theorem payload_eq_ok {reply : Reply} {payload : PyValue} :
    reply.payload = .ok payload ↔ reply = .json payload := by
  cases reply <;> simp [Reply.payload]

theorem payload_eq_http {reply : Reply} : reply.payload = .error .http ↔ reply = .httpError := by
  cases reply <;> simp [Reply.payload]

theorem raised_ne_http {α : Type} (outcome : Except PyError α) :
    raised outcome ≠ .error .http := by
  cases outcome <;> simp [raised]

theorem yields_iff {v entry : PyValue} {entries : List PyValue}
    (hentries : v.orEmpty.iterate = .ok entries) : Yields v entry ↔ entry ∈ entries := by
  constructor
  · rintro ⟨items, hitems, hentry⟩
    obtain rfl : entries = items := Except.ok.inj (hentries.symm.trans hitems)
    exact hentry
  · intro hentry
    exact ⟨entries, hentries, hentry⟩

theorem mem_flatten_of_mapM {α : Type} {a : α} {v : PyValue} {entries : List PyValue}
    {f : PyValue → Except PyError (List α)} {lists : List (List α)}
    (hentries : v.orEmpty.iterate = .ok entries) (hlists : entries.mapM f = .ok lists) :
    a ∈ lists.flatten ↔ ∃ entry, Yields v entry ∧ ∃ found, f entry = .ok found ∧ a ∈ found := by
  simp only [List.mem_flatten, mem_mapM_ok hlists, yields_iff hentries]
  constructor
  · rintro ⟨found, ⟨entry, hentry, hfound⟩, ha⟩
    exact ⟨entry, hentry, found, hfound, ha⟩
  · rintro ⟨entry, hentry, found, hfound, ha⟩
    exact ⟨found, ⟨entry, hentry, hfound⟩, ha⟩

theorem exists_of_mapM {α : Type} {v entry : PyValue} {entries : List PyValue}
    {f : PyValue → Except PyError α} {found : List α} (hentries : v.orEmpty.iterate = .ok entries)
    (hfound : entries.mapM f = .ok found) (hentry : Yields v entry) : ∃ a, f entry = .ok a :=
  mapM_ok_iff.mp ⟨found, hfound⟩ entry ((yields_iff hentries).mp hentry)

theorem mem_pathsAt {key : String} {entry : PyValue} :
    (∃ found, pathsAt rt key entry = .ok found ∧ path ∈ found) ↔
      ∃ v, Has entry key v ∧ path = pyStr rt v := by
  constructor
  · rintro ⟨found, h, hpath⟩
    obtain ⟨v, hv, h⟩ := bind_eq_ok.mp h
    cases h
    by_cases htruthy : v.truthy
    · exact ⟨v, ⟨hv, htruthy⟩, by simpa [htruthy] using hpath⟩
    · simp [htruthy] at hpath
  · rintro ⟨v, ⟨hv, htruthy⟩, rfl⟩
    exact ⟨[pyStr rt v], bind_eq_ok.mpr ⟨v, hv, by rw [if_pos htruthy]; rfl⟩,
      List.mem_singleton_self _⟩

theorem mem_rootOf {root : String} :
    path ∈ (if root ≠ "" then [root] else []) ↔ root ≠ "" ∧ path = root := by
  by_cases h : root = "" <;> simp [h]

theorem mem_rootsAt {entry : PyValue} :
    (∃ found, rootsAt entry = .ok found ∧ path ∈ found) ↔
      ∃ p, Has entry "path" (.str p) ∧ dirname (rstripSlash p) ≠ "" ∧
        path = dirname (rstripSlash p) := by
  constructor
  · rintro ⟨found, h, hpath⟩
    obtain ⟨v, hv, h⟩ := bind_eq_ok.mp h
    by_cases htruthy : v.truthy = true
    · rw [if_pos htruthy] at h
      cases v with
      | str p =>
        rw [← Except.ok.inj h] at hpath
        exact ⟨p, ⟨hv, htruthy⟩, mem_rootOf.mp hpath⟩
      | _ => cases h
    · rw [if_neg htruthy] at h
      rw [← Except.ok.inj h] at hpath
      cases hpath
  · rintro ⟨p, ⟨hv, htruthy⟩, hroot⟩
    refine ⟨_, bind_eq_ok.mpr ⟨.str p, hv, ?_⟩, mem_rootOf.mpr hroot⟩
    rw [if_pos htruthy]
    rfl

theorem mem_arr (h : fetchArrRootFolders rt replies = .ok paths) :
    path ∈ paths ↔ ArrFolder rt replies path := by
  obtain ⟨payload, hpayload, h⟩ := bind_eq_ok.mp h
  obtain ⟨entries, hentries, h⟩ := bind_eq_ok.mp (raised_eq_ok h)
  obtain ⟨found, hfound, h⟩ := bind_eq_ok.mp h
  cases h
  rw [List.mem_eraseDups, mem_flatten_of_mapM hentries hfound]
  simp only [ArrFolder, mem_pathsAt, payload_eq_ok.mp hpayload, Reply.json.injEq, exists_eq_left']

theorem mem_bazarrRoots {reply : Reply} {roots : List String} (h : bazarrRoots reply = .ok roots) :
    path ∈ roots ↔ BazarrFolder path reply := by
  unfold bazarrRoots at h
  split at h
  · rename_i hhttp
    cases h
    simp [BazarrFolder, payload_eq_http.mp hhttp]
  · cases h
  · rename_i payload hpayload
    obtain ⟨data, hdata, h⟩ := bind_eq_ok.mp (raised_eq_ok h)
    obtain ⟨entries, hentries, h⟩ := bind_eq_ok.mp h
    obtain ⟨found, hfound, h⟩ := bind_eq_ok.mp h
    cases h
    rw [mem_flatten_of_mapM hentries hfound]
    simp only [BazarrFolder, mem_rootsAt, payload_eq_ok.mp hpayload, Reply.json.injEq,
      exists_eq_left', hdata, Except.ok.injEq]

theorem mem_plex (h : fetchPlexSectionLocations rt replies = .ok paths) :
    path ∈ paths ↔ PlexLocation rt replies path := by
  obtain ⟨payload, hpayload, h⟩ := bind_eq_ok.mp h
  obtain ⟨container, hcontainer, h⟩ := bind_eq_ok.mp (raised_eq_ok h)
  obtain ⟨directories, hdirectories, h⟩ := bind_eq_ok.mp h
  obtain ⟨entries, hentries, h⟩ := bind_eq_ok.mp h
  obtain ⟨found, hfound, h⟩ := bind_eq_ok.mp h
  cases h
  simp only [PlexLocation, List.mem_eraseDups, payload_eq_ok.mp hpayload, Reply.json.injEq,
    exists_eq_left', hcontainer, hdirectories, Except.ok.injEq]
  constructor
  · intro hpath
    obtain ⟨list, hlist, hpath⟩ := List.mem_flatten.mp hpath
    obtain ⟨d, hd, lists, hlists, hlist⟩ := (mem_flatten_of_mapM hentries hfound).mp hlist
    obtain ⟨locations, hlocations, h⟩ := bind_eq_ok.mp hlists
    obtain ⟨items, hitems, h⟩ := bind_eq_ok.mp h
    have hthere : path ∈ lists.flatten := List.mem_flatten.mpr ⟨list, hlist, hpath⟩
    obtain ⟨loc, hloc, hv⟩ := (mem_flatten_of_mapM hitems h).mp hthere
    exact ⟨d, hd, locations, hlocations, loc, hloc, mem_pathsAt.mp hv⟩
  · rintro ⟨d, hd, locations, hlocations, loc, hloc, hv⟩
    obtain ⟨lists, hlists⟩ := exists_of_mapM hentries hfound hd
    obtain ⟨locations', hlocations', h⟩ := bind_eq_ok.mp hlists
    obtain rfl : locations = locations' := Except.ok.inj (hlocations.symm.trans hlocations')
    obtain ⟨items, hitems, h⟩ := bind_eq_ok.mp h
    have hthere : path ∈ lists.flatten :=
      (mem_flatten_of_mapM hitems h).mpr ⟨loc, hloc, mem_pathsAt.mpr hv⟩
    obtain ⟨list, hlist, hpath⟩ := List.mem_flatten.mp hthere
    have hlisted : list ∈ found.flatten :=
      (mem_flatten_of_mapM hentries hfound).mpr ⟨d, hd, lists, hlists, hlist⟩
    exact List.mem_flatten.mpr ⟨list, hlisted, hpath⟩

theorem mem_jellyfin (h : fetchJellyfinVirtualFolders rt replies = .ok paths) :
    path ∈ paths ↔ JellyfinLocation rt replies path := by
  obtain ⟨payload, hpayload, h⟩ := bind_eq_ok.mp h
  obtain ⟨folders, hfolders, h⟩ := bind_eq_ok.mp (raised_eq_ok h)
  obtain ⟨found, hfound, h⟩ := bind_eq_ok.mp h
  cases h
  rw [List.mem_eraseDups, mem_flatten_of_mapM hfolders hfound]
  simp only [JellyfinLocation, payload_eq_ok.mp hpayload, Reply.json.injEq, exists_eq_left']
  refine exists_congr fun folder => and_congr_right fun hfolder => ?_
  constructor
  · rintro ⟨paths, h, hpath⟩
    obtain ⟨locations, hlocations, h⟩ := bind_eq_ok.mp h
    obtain ⟨items, hitems, h⟩ := bind_eq_ok.mp h
    cases h
    obtain ⟨loc, hloc, rfl⟩ := List.mem_map.mp hpath
    exact ⟨locations, hlocations, loc, ⟨items, hitems, hloc⟩, rfl⟩
  · rintro ⟨locations, hlocations, loc, ⟨items, hitems, hloc⟩, rfl⟩
    exact ⟨items.map (pyStr rt), bind_eq_ok.mpr ⟨locations, hlocations,
      bind_eq_ok.mpr ⟨items, hitems, rfl⟩⟩, List.mem_map_of_mem hloc⟩

theorem mem_bazarr (h : fetchBazarrSettings replies = .ok paths) : path ∈ paths ↔
    BazarrFolder path (replies "/api/series") ∨ BazarrFolder path (replies "/api/movies") := by
  obtain ⟨series, hseries, h⟩ := bind_eq_ok.mp h
  obtain ⟨movies, hmovies, h⟩ := bind_eq_ok.mp h
  cases h
  rw [List.mem_mergeSort, List.mem_eraseDups, List.mem_append, mem_bazarrRoots hseries,
    mem_bazarrRoots hmovies]

theorem mem_fetcher {kind : String} (h : fetcher rt kind replies = .ok paths) :
    path ∈ paths ↔ Reported rt replies path kind := by
  unfold fetcher at h
  split at h
  · simp [Reported, mem_arr h]
  · simp [Reported, mem_arr h]
  · simp [Reported, mem_bazarr h]
  · simp [Reported, mem_plex h]
  · simp [Reported, mem_jellyfin h]
  · rename_i hsonarr hradarr hbazarr hplex hjellyfin
    cases h
    refine iff_of_false List.not_mem_nil ?_
    rintro (⟨hkind, -⟩ | ⟨hkind, -⟩ | ⟨hkind, -⟩ | ⟨hkind, -⟩)
    · exact hkind.elim hsonarr hradarr
    · exact hbazarr hkind
    · exact hplex hkind
    · exact hjellyfin hkind

theorem not_json_of_http {α : Type} {reply : Reply} {k : PyValue → Except PyError α}
    (h : (reply.payload >>= fun payload => raised (k payload)) = .error .http)
    (payload : PyValue) : reply ≠ .json payload := by
  rintro rfl
  exact raised_ne_http _ h

theorem bazarrRoots_ne_http (reply : Reply) : bazarrRoots reply ≠ .error .http := by
  cases reply with
  | json payload => exact raised_ne_http _
  | _ => nofun

theorem fetchBazarrSettings_ne_http : fetchBazarrSettings replies ≠ .error .http := by
  unfold fetchBazarrSettings
  cases hseries : bazarrRoots (replies "/api/series") with
  | error e =>
    rintro ⟨⟩
    exact bazarrRoots_ne_http _ hseries
  | ok series =>
    cases hmovies : bazarrRoots (replies "/api/movies") with
    | error e =>
      rintro ⟨⟩
      exact bazarrRoots_ne_http _ hmovies
    | ok movies => nofun

theorem not_reported_of_http {kind : String} (h : fetcher rt kind replies = .error .http) :
    ¬Reported rt replies path kind := by
  unfold fetcher at h
  rintro (⟨rfl | rfl, payload, hreply, -⟩ | ⟨rfl, -⟩ | ⟨rfl, payload, hreply, -⟩ |
    ⟨rfl, payload, hreply, -⟩)
  · exact not_json_of_http h payload hreply
  · exact not_json_of_http h payload hreply
  · exact fetchBazarrSettings_ne_http h
  · exact not_json_of_http h payload hreply
  · exact not_json_of_http h payload hreply

theorem mem_fetchUpstreamPaths {kind : String} {options : Option (List (String × PyValue))}
    (h : fetchUpstreamPaths rt kind options replies = .ok paths) :
    path ∈ paths ↔ Configured rt options ∧ Reported rt replies path kind := by
  unfold fetchUpstreamPaths at h
  split at h
  · cases h
    exact iff_of_false List.not_mem_nil fun ⟨⟨_, hoptions, _⟩, _⟩ => nomatch hoptions
  · rename_i entries
    dsimp only at h
    split at h
    · rename_i hempty
      cases h
      refine iff_of_false List.not_mem_nil ?_
      rintro ⟨⟨_, ⟨⟩, hurl⟩, -⟩
      exact hurl hempty
    · rename_i hurl
      have hconfigured : Configured rt (some entries) := ⟨entries, rfl, hurl⟩
      rw [and_iff_right hconfigured]
      split at h
      · rename_i hfetched
        cases h
        exact mem_fetcher hfetched
      · rename_i hfetched
        cases h
        exact iff_of_false List.not_mem_nil (not_reported_of_http hfetched)
      · cases h

end Reports

/-! ### The first of the best grade -/

/-- How well a library fits a folder. -/
def grade (rt : DiscoveryRuntime) (up : String) (lib : DiscoveryLibrary) : Confidence :=
  if lastPart lib.rootPath = lastPart up then .high
  else if rt.lower (lastPart lib.rootPath) = rt.lower (lastPart up) then .medium
  else if overlapping (rt.lower (lastPart up)) (rt.lower (lastPart lib.rootPath)) then .low
  else .none

def Confidence.rank : Confidence → Nat
  | .high => 0
  | .medium => 1
  | .low => 2
  | .none => 3

theorem Confidence.medium_le {c : Confidence} (h : c ≠ .high) :
    Confidence.medium.rank ≤ c.rank := by
  cases c with
  | high => exact absurd rfl h
  | _ => decide

theorem Confidence.low_le {c : Confidence} (h : c ≠ .high) (h' : c ≠ .medium) :
    Confidence.low.rank ≤ c.rank := by
  cases c with
  | high => exact absurd rfl h
  | medium => exact absurd rfl h'
  | _ => decide

theorem Confidence.rank_injective : Function.Injective Confidence.rank := by
  intro c c' h
  cases c <;> cases c' <;> simp [rank] at h ⊢

/-- The suggestion is of the first library of the best grade, or of none where none fits. -/
def Foremost (rt : DiscoveryRuntime) (up : String) (libraries : List DiscoveryLibrary)
    (s : PathMappingSuggestion) : Prop :=
  (s = ⟨up, "", .none, none, none⟩ ∧ ∀ lib ∈ libraries, grade rt up lib = .none) ∨
  ∃ before lib after, libraries = before ++ lib :: after ∧
    grade rt up lib ≠ .none ∧ s = suggestionOf up lib (grade rt up lib) ∧
    (∀ other ∈ before, (grade rt up lib).rank < (grade rt up other).rank) ∧
    ∀ other ∈ after, (grade rt up lib).rank ≤ (grade rt up other).rank

section Grades

variable {rt : DiscoveryRuntime} {up : String}

theorem matchLoop_cons (picks : Picks) (lib : DiscoveryLibrary) (rest : List DiscoveryLibrary) :
    matchLoop rt up picks (lib :: rest) = match grade rt up lib with
      | .high => { picks with high := some lib }
      | .medium => matchLoop rt up { picks with medium := picks.medium.or (some lib) } rest
      | .low => matchLoop rt up { picks with low := picks.low.or (some lib) } rest
      | .none => matchLoop rt up picks rest := by
  rw [matchLoop, grade]
  split
  · rfl
  · split
    · rfl
    · split <;> rfl

/-- The first library of a grade. -/
def firstOf (rt : DiscoveryRuntime) (up : String) (c : Confidence)
    (libraries : List DiscoveryLibrary) : Option DiscoveryLibrary :=
  libraries.find? fun lib => grade rt up lib = c

theorem matchLoop_high (libraries : List DiscoveryLibrary) (picks : Picks)
    (hnone : picks.high = none) :
    (matchLoop rt up picks libraries).high = firstOf rt up .high libraries := by
  induction libraries generalizing picks with
  | nil => exact hnone
  | cons lib rest ih =>
    rw [matchLoop_cons, firstOf, List.find?_cons]
    cases hgrade : grade rt up lib <;> simp [hnone, ih, firstOf]

theorem matchLoop_rest (libraries : List DiscoveryLibrary) (picks : Picks)
    (hhigh : firstOf rt up .high libraries = none) :
    matchLoop rt up picks libraries = ⟨picks.high,
      picks.medium.or (firstOf rt up .medium libraries),
      picks.low.or (firstOf rt up .low libraries)⟩ := by
  induction libraries generalizing picks with
  | nil => simp [matchLoop, firstOf]
  | cons lib rest ih =>
    rw [firstOf, List.find?_cons] at hhigh
    rw [matchLoop_cons, firstOf, firstOf, List.find?_cons, List.find?_cons]
    cases hgrade : grade rt up lib with
    | high => simp [hgrade] at hhigh
    | _ =>
      have hrest : firstOf rt up .high rest = none := by simpa [firstOf, hgrade] using hhigh
      simp [ih _ hrest, firstOf]

theorem foremost_of_first {libraries : List DiscoveryLibrary} {c : Confidence}
    {lib : DiscoveryLibrary} (hc : c ≠ .none) (hfirst : firstOf rt up c libraries = some lib)
    (hbest : ∀ other ∈ libraries, c.rank ≤ (grade rt up other).rank) :
    Foremost rt up libraries (suggestionOf up lib c) := by
  obtain ⟨hgrade, before, after, rfl, hbefore⟩ := List.find?_eq_some_iff_append.mp hfirst
  obtain rfl : grade rt up lib = c := of_decide_eq_true hgrade
  refine .inr ⟨before, lib, after, rfl, hc, rfl, fun other hother => ?_, fun other hother => ?_⟩
  · refine lt_of_le_of_ne (hbest other (List.mem_append_left _ hother)) fun hrank => ?_
    have hsame := Confidence.rank_injective hrank
    simpa [hsame] using hbefore other hother
  · exact hbest other (List.mem_append_right _ (List.mem_cons_of_mem _ hother))

theorem foremost_matchToLibrary (libraries : List DiscoveryLibrary) :
    Foremost rt up libraries (matchToLibrary rt up libraries) := by
  unfold matchToLibrary
  cases hhigh : firstOf rt up .high libraries with
  | some lib =>
    simp only [matchLoop_high libraries ⟨none, none, none⟩ rfl, hhigh]
    exact foremost_of_first nofun hhigh fun _ _ => Nat.zero_le _
  | none =>
    simp only [matchLoop_rest libraries _ hhigh, Option.none_or]
    have hnothigh : ∀ other ∈ libraries, grade rt up other ≠ .high := by
      simpa [firstOf] using hhigh
    cases hmedium : firstOf rt up .medium libraries with
    | some lib =>
      exact foremost_of_first nofun hmedium fun other hother =>
        Confidence.medium_le (hnothigh other hother)
    | none =>
      have hnotmedium : ∀ other ∈ libraries, grade rt up other ≠ .medium := by
        simpa [firstOf] using hmedium
      cases hlow : firstOf rt up .low libraries with
      | some lib =>
        exact foremost_of_first nofun hlow fun other hother =>
          Confidence.low_le (hnothigh other hother) (hnotmedium other hother)
      | none =>
        have hnotlow : ∀ other ∈ libraries, grade rt up other ≠ .low := by
          simpa [firstOf] using hlow
        refine .inl ⟨rfl, fun other hother => ?_⟩
        cases hgrade : grade rt up other with
        | high => exact absurd hgrade (hnothigh other hother)
        | medium => exact absurd hgrade (hnotmedium other hother)
        | low => exact absurd hgrade (hnotlow other hother)
        | none => rfl

theorem Foremost.fromPath {libraries : List DiscoveryLibrary} {s : PathMappingSuggestion}
    (h : Foremost rt up libraries s) : s.fromPath = up := by
  rcases h with ⟨rfl, -⟩ | ⟨before, lib, after, -, -, rfl, -⟩ <;> rfl

end Grades

/-! ### Applied suggestions -/

/-- Something is left of both paths of a row, so that the parser keeps it. -/
def Usable (row : PathMapping) : Prop :=
  rstripSlash row.srcPrefix ≠ "" ∧ rstripSlash row.dstPrefix ≠ ""

def stripped (row : PathMapping) : PathMapping :=
  ⟨rstripSlash row.srcPrefix, rstripSlash row.dstPrefix⟩

def PathMappingSuggestion.row (s : PathMappingSuggestion) : PathMapping := ⟨s.fromPath, s.toPath⟩

theorem ne_of_rstripSlash_ne {s : String} (h : rstripSlash s ≠ "") : s ≠ "" := by
  rintro rfl
  exact h rfl

theorem parseEntry_dump_iff {row m : PathMapping} :
    parseEntry (dumpMapping row) = some m ↔ Usable row ∧ stripped row = m := by
  have hempty : rstripSlash "" = "" := rfl
  by_cases hsrc : row.srcPrefix = ""
  · simp [parseEntry, dumpMapping, getOr, List.lookup_cons, PyValue.truthy, hsrc, Usable, hempty]
  · by_cases hdst : row.dstPrefix = ""
    · simp [parseEntry, dumpMapping, getOr, List.lookup_cons, PyValue.truthy, hdst, Usable, hempty]
    · rw [parseEntry_dumpMapping hsrc hdst]
      by_cases hleft : rstripSlash row.srcPrefix = "" ∨ rstripSlash row.dstPrefix = ""
      · simp only [hleft, if_true, reduceCtorEq, false_iff]
        rintro ⟨⟨h, h'⟩, -⟩
        exact hleft.elim h h'
      · rw [if_neg hleft, Option.some_inj]
        exact (and_iff_right (not_or.mp hleft)).symm

theorem mem_savedMappings {rows : List PathMapping} {m : PathMapping} :
    m ∈ parseMappings (savedMappings rows) ↔ ∃ row ∈ rows, Usable row ∧ stripped row = m := by
  rw [savedMappings, parseMappings, List.mem_mergeSort, List.filterMap_map]
  simp only [List.mem_filterMap, Function.comp, parseEntry_dump_iff]

theorem mem_applySuggestions {rows : List PathMapping} {suggestions : List PathMappingSuggestion}
    {row : PathMapping} (husable : Usable row) :
    row ∈ applySuggestions rows suggestions ↔
      row ∈ rows ∨ ∃ s ∈ suggestions, s.row = row := by
  rw [applySuggestions, List.mem_append, List.mem_map]
  refine or_congr_right (exists_congr fun s => ?_)
  rw [List.mem_filter]
  constructor
  · exact fun h => ⟨h.1.1, h.2⟩
  · rintro ⟨hs, rfl⟩
    have hfrom : s.fromPath ≠ "" := ne_of_rstripSlash_ne husable.1
    exact ⟨⟨hs, by simpa using hfrom⟩, rfl⟩

/-- The mappings that are used once suggestions are applied and saved. -/
def appliedMappings (rows : List PathMapping) (suggestions : List PathMappingSuggestion) :
    List PathMapping :=
  parseMappings (savedMappings (applySuggestions rows suggestions))

/-- The suggested folder holds the path, and the parser keeps its row. -/
structure Holds (suggestions : List PathMappingSuggestion) (path : String)
    (s : PathMappingSuggestion) : Prop where
  suggested : s ∈ suggestions
  usable : Usable s.row
  under : Under (rstripSlash s.fromPath) path

section Applied

variable {rows : List PathMapping} {suggestions : List PathMappingSuggestion} {path : String}

theorem appliedBy_appliedMappings : AppliedBy id Longer (appliedMappings rows suggestions) path
    (remapPath path (appliedMappings rows suggestions)) := by
  have hsorted : (appliedMappings rows suggestions).Pairwise Longer := pairwise_parseMappings _
  have happlied : AppliedBy id Longer _ path
      (remapPath path ((appliedMappings rows suggestions).map id)) :=
    appliedBy_of_pairwise hsorted (fun _ => le_rfl) path
  rwa [List.map_id] at happlied

theorem Holds.mem {s : PathMappingSuggestion} (h : Holds suggestions path s) :
    stripped s.row ∈ appliedMappings rows suggestions :=
  mem_savedMappings.mpr
    ⟨s.row, (mem_applySuggestions h.usable).mpr (.inr ⟨s, h.suggested, rfl⟩), h.usable, rfl⟩

theorem holds_of_under
    (hrows : ∀ row ∈ rows, Usable row → ¬Under (rstripSlash row.srcPrefix) path)
    {m : PathMapping} (hm : m ∈ appliedMappings rows suggestions)
    (hunder : Under m.srcPrefix path) :
    ∃ s, Holds suggestions path s ∧ stripped s.row = m := by
  obtain ⟨row, hrow, husable, rfl⟩ := mem_savedMappings.mp hm
  rcases (mem_applySuggestions husable).mp hrow with hold | ⟨s, hs, rfl⟩
  · exact absurd hunder (hrows row hold husable)
  · exact ⟨s, ⟨hs, husable, hunder⟩, rfl⟩

theorem exchange_append (m : PathMapping) (rest : String) :
    exchange m (m.srcPrefix ++ rest) = m.dstPrefix ++ rest := by
  rw [exchange, drop_append_string]

theorem translated_by_longest
    (hrows : ∀ row ∈ rows, Usable row → ¬Under (rstripSlash row.srcPrefix) path)
    {s : PathMappingSuggestion} (hs : Holds suggestions path s) :
    ∃ best, Holds suggestions path best ∧
      (rstripSlash s.fromPath).length ≤ (rstripSlash best.fromPath).length ∧
      ∃ rest, path = rstripSlash best.fromPath ++ rest ∧
        remapPath path (appliedMappings rows suggestions) = rstripSlash best.toPath ++ rest ∧
        Under (rstripSlash best.toPath)
          (remapPath path (appliedMappings rows suggestions)) := by
  obtain ⟨m, hm, hbest, hout, hlongest⟩ : ∃ m ∈ appliedMappings rows suggestions,
      Under m.srcPrefix path ∧
      remapPath path (appliedMappings rows suggestions) = exchange m path ∧
      ∀ other ∈ appliedMappings rows suggestions, Under other.srcPrefix path → Longer m other :=
    appliedBy_appliedMappings.applied _ hs.mem hs.under
  obtain ⟨best, hholds, rfl⟩ := holds_of_under hrows hm hbest
  have hthere := (exchange_under hbest).1
  rw [← hout] at hthere
  obtain ⟨rest, hpath, -⟩ := hbest
  have htranslated : remapPath path (appliedMappings rows suggestions) =
      (stripped best.row).dstPrefix ++ rest := by
    rw [hout, hpath, exchange_append]
  have hle : Longer (stripped best.row) (stripped s.row) := hlongest _ hs.mem hs.under
  exact ⟨best, hholds, hle, rest, hpath, htranslated, hthere⟩

end Applied

/-- The roots that a configured upstream reports are suggested, and no others, once each and
    with the first library of the best grade.  Once they are applied, a path that no row was
    there for is translated by the longest suggested folder that holds it to the same place
    below the root of the library, and is left alone where there is none. -/
theorem suggestions_translate {rt : DiscoveryRuntime} {kind : String}
    {options : Option (List (String × PyValue))} {replies : String → Reply}
    {libraries : List DiscoveryLibrary} {suggestions : List PathMappingSuggestion}
    (hfound : discoverPathMappings rt kind options replies libraries = .ok suggestions)
    (rows : List PathMapping) :
    (∀ path, path ∈ suggestions.map (·.fromPath) ↔
      Configured rt options ∧ Reported rt replies path kind) ∧
    (suggestions.map (·.fromPath)).Nodup ∧
    (∀ s ∈ suggestions, Foremost rt s.fromPath (libraries.filter (·.enabled)) s) ∧
    ∀ path, (∀ row ∈ rows, Usable row → ¬Under (rstripSlash row.srcPrefix) path) →
      ((∀ s, ¬Holds suggestions path s) →
        remapPath path (appliedMappings rows suggestions) = path) ∧
      ∀ s, Holds suggestions path s → ∃ best, Holds suggestions path best ∧
        (rstripSlash s.fromPath).length ≤ (rstripSlash best.fromPath).length ∧
        ∃ rest, path = rstripSlash best.fromPath ++ rest ∧
          remapPath path (appliedMappings rows suggestions) = rstripSlash best.toPath ++ rest ∧
          Under (rstripSlash best.toPath)
            (remapPath path (appliedMappings rows suggestions)) := by
  obtain ⟨paths, hpaths, hmapped⟩ := bind_eq_ok.mp hfound
  cases hmapped
  have hroots : ∀ up, (matchToLibrary rt up (libraries.filter (·.enabled))).fromPath = up :=
    fun up => (foremost_matchToLibrary _).fromPath
  refine ⟨fun path => ?_, ?_, ?_, ?_⟩
  · simpa [Function.comp_def, hroots] using mem_fetchUpstreamPaths hpaths
  · simpa [Function.comp_def, hroots] using nodup_fetchUpstreamPaths hpaths
  · intro s hs
    obtain ⟨up, -, rfl⟩ := List.mem_map.mp hs
    have hforemost : Foremost rt up (libraries.filter (·.enabled)) _ := foremost_matchToLibrary _
    rw [hforemost.fromPath]
    exact hforemost
  · intro path hrows
    constructor
    · intro hnone
      refine appliedBy_appliedMappings.unchanged fun m hm hunder => ?_
      obtain ⟨s, hs, -⟩ := holds_of_under hrows hm hunder
      exact hnone s hs
    · exact fun s hs => translated_by_longest hrows hs

def asciiRuntime : DiscoveryRuntime :=
  ⟨fun s => String.ofList (s.toList.map Char.toLower), fun _ => "None"⟩

/-- A root folder, and the folder of one of the series in it. -/
def seriesReplies : String → Reply := fun _ => .json (.list
  [.dict [("path", .str "/data/tv/")], .dict [("path", .str "/data/tv/dune")],
    .dict [("path", .str "/data/tv/")]])

def seriesLibraries : List DiscoveryLibrary :=
  [⟨"lib-1", "Movies", "/mnt/media/Movies", true⟩, ⟨"lib-2", "Series", "/mnt/media/TV", true⟩]

def seriesSuggestions : List PathMappingSuggestion :=
  [⟨"/data/tv/", "/mnt/media/TV", .medium, some "lib-2", some "Series"⟩,
    ⟨"/data/tv/dune", "", .none, none, none⟩]

theorem suggestions_translate_series :
    discoverPathMappings asciiRuntime "sonarr" (some [("base_url", .str "http://sonarr:8989")])
      seriesReplies seriesLibraries = .ok seriesSuggestions ∧
    (∀ path, path ∈ seriesSuggestions.map (·.fromPath) ↔
      Configured asciiRuntime (some [("base_url", .str "http://sonarr:8989")]) ∧
        Reported asciiRuntime seriesReplies path "sonarr") ∧
    (seriesSuggestions.map (·.fromPath)).Nodup ∧
    (∀ s ∈ seriesSuggestions,
      Foremost asciiRuntime s.fromPath (seriesLibraries.filter (·.enabled)) s) ∧
    ∀ path, (∀ row ∈ ([] : List PathMapping), Usable row →
        ¬Under (rstripSlash row.srcPrefix) path) →
      ((∀ s, ¬Holds seriesSuggestions path s) →
        remapPath path (appliedMappings [] seriesSuggestions) = path) ∧
      ∀ s, Holds seriesSuggestions path s → ∃ best, Holds seriesSuggestions path best ∧
        (rstripSlash s.fromPath).length ≤ (rstripSlash best.fromPath).length ∧
        ∃ rest, path = rstripSlash best.fromPath ++ rest ∧
          remapPath path (appliedMappings [] seriesSuggestions) =
            rstripSlash best.toPath ++ rest ∧
          Under (rstripSlash best.toPath)
            (remapPath path (appliedMappings [] seriesSuggestions)) := by
  have hfound : discoverPathMappings asciiRuntime "sonarr"
      (some [("base_url", .str "http://sonarr:8989")]) seriesReplies seriesLibraries =
        .ok seriesSuggestions := by
    decide +kernel
  exact ⟨hfound, suggestions_translate hfound []⟩

end PathDiscovery
