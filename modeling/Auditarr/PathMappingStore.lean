/-
  Auditarr/PathMappingStore.lean
  ==============================
  **Storing the path mappings of the integrations** (`app/api/v1/path_mappings.py`).

  A request replaces the mappings of one integration in its configuration.  It goes through the
  parser that everything that translates paths uses, so what is stored is what they read back:
  after any run of requests an integration has the mappings of the last one that was accepted,
  and nothing else of any row has changed.
-/
import Auditarr.KeyedTable
import Auditarr.PathPrefixes
import Auditarr.PlexHistory
import Auditarr.Runs

namespace PathMappingStore

open PyValues Database KeyedTable PathMappings PathPrefixes
open PlexHistory (setKey)

/-- `PathMappingEntry`. -/
structure PathMappingEntry where
  from_ : String
  to_ : String
  from_length : 1 ≤ from_.length ∧ from_.length ≤ 1024
  to_length : 1 ≤ to_.length ∧ to_.length ≤ 1024

/-- `PathMappingsUpdate`. -/
structure PathMappingsUpdate where
  mappings : List PathMappingEntry
  mappings_length : mappings.length ≤ 200

/-- A row of the table of integrations, with what was discovered when it was added. -/
structure IntegrationRow extends Integration where
  discoveredPaths : PyValue

def IntegrationRow.key (ig : IntegrationRow) : String := ig.id

/-! ### Requests -/

/-- `{"from": …, "to": …}`. -/
def dumpMapping (m : PathMapping) : PyValue :=
  .dict [("from", .str m.srcPrefix), ("to", .str m.dstPrefix)]

/-- `raw_mappings`. -/
def rawMappings (body : PathMappingsUpdate) : PyValue :=
  .list (body.mappings.map fun e => dumpMapping ⟨e.from_, e.to_⟩)

/-- `ig.config.get("path_mappings") if isinstance(ig.config, dict) else None`. -/
def configMappings : PyValue → PyValue
  | .dict entries => (entries.lookup "path_mappings").getD .none
  | _ => .none

/-- `dict(ig.config or {})`. -/
def configCopy (config : PyValue) : Except PyError (List (String × PyValue)) :=
  match config.orDict with
  | .dict entries => .ok entries
  | _ => .error .typeError

inductive Refusal where
  | notFound (detail : String)
  | invalid (detail : String)
  | raised (e : PyError)

structure UpdateResponse where
  integrationId : String
  name : String
  kind : String
  mappings : PyValue

/-- What a row of the table becomes, and the answer. -/
def updateRow (ig : IntegrationRow) (body : PathMappingsUpdate) :
    Except Refusal (IntegrationRow × UpdateResponse) :=
  let parsed := parseMappings (rawMappings body)
  if parsed.length ≠ body.mappings.length then
    .error (.invalid ("One or more mappings had empty 'from' or 'to' after " ++
      "trimming trailing slashes. Re-check the entries and resubmit."))
  else match configCopy ig.config with
    | .error e => .error (.raised e)
    | .ok entries =>
        let mappings := PyValue.list (parsed.map dumpMapping)
        .ok ({ ig with config := .dict (setKey entries "path_mappings" mappings) },
          ⟨ig.id, ig.name, ig.kind, mappings⟩)

/-- `update_path_mappings`. -/
def updatePathMappings (integrationId : String) (body : PathMappingsUpdate)
    (rows : Table IntegrationRow.key) :
    Except Refusal (Table IntegrationRow.key × UpdateResponse) :=
  match rows.find? integrationId with
  | none => .error (.notFound ("Integration '" ++ integrationId ++ "' not found"))
  | some ig => do
      let (ig', response) ← updateRow ig body
      return (rows.upsert ig', response)

structure IntegrationMappings where
  integrationId : String
  name : String
  kind : String
  isActive : Bool
  mappings : List PyValue
  raw : List PyValue
  discoveredPaths : PyValue

/-- An entry of `list_path_mappings`. -/
def listed (ig : IntegrationRow) : IntegrationMappings where
  integrationId := ig.id
  name := ig.name
  kind := ig.kind
  isActive := ig.enabled
  mappings := (parseMappings (configMappings ig.config)).map dumpMapping
  raw := match configMappings ig.config with
    | .list entries => entries
    | _ => []
  discoveredPaths := ig.discoveredPaths

/-- `list_path_mappings`. -/
def listPathMappings (rows : Table IntegrationRow.key) : List IntegrationMappings :=
  (rows.rows.mergeSort fun ig ig' => decide (ig.name ≤ ig'.name)).map listed

/-! ### What is stored is read back -/

theorem rstripSlash_rstripSlash (s : String) : rstripSlash (rstripSlash s) = rstripSlash s := by
  simp only [rstripSlash, String.toList_ofList]
  exact congrArg String.ofList (List.rdropWhile_idempotent _ s.toList)

/-- A mapping as the parser makes them. -/
structure Trimmed (m : PathMapping) : Prop where
  src : rstripSlash m.srcPrefix = m.srcPrefix
  dst : rstripSlash m.dstPrefix = m.dstPrefix
  src_ne : m.srcPrefix ≠ ""
  dst_ne : m.dstPrefix ≠ ""

theorem trimmed_of_parseEntry {v : PyValue} {m : PathMapping} (h : parseEntry v = some m) :
    Trimmed m := by
  unfold parseEntry at h
  split at h
  · split at h
    · split at h
      · cases h
      · rename_i hne
        cases h
        push Not at hne
        exact ⟨rstripSlash_rstripSlash _, rstripSlash_rstripSlash _, hne.1, hne.2⟩
    · cases h
  · cases h

theorem parseEntry_dumpMapping {m : PathMapping} (hsrc : m.srcPrefix ≠ "")
    (hdst : m.dstPrefix ≠ "") :
    parseEntry (dumpMapping m) =
      if rstripSlash m.srcPrefix = "" ∨ rstripSlash m.dstPrefix = "" then none
      else some ⟨rstripSlash m.srcPrefix, rstripSlash m.dstPrefix⟩ := by
  simp [parseEntry, dumpMapping, getOr, List.lookup_cons, PyValue.truthy, hsrc, hdst]

theorem mem_parseMappings {v : PyValue} {m : PathMapping} (h : m ∈ parseMappings v) :
    Trimmed m := by
  unfold parseMappings at h
  split at h
  · obtain ⟨entry, -, hentry⟩ := List.mem_filterMap.mp (List.mem_mergeSort.mp h)
    exact trimmed_of_parseEntry hentry
  · exact absurd h List.not_mem_nil

theorem parseMappings_dump (v : PyValue) :
    parseMappings (.list ((parseMappings v).map dumpMapping)) = parseMappings v := by
  have hentries : ((parseMappings v).map dumpMapping).filterMap parseEntry = parseMappings v := by
    rw [List.filterMap_map]
    have hparse : ∀ m ∈ parseMappings v, (parseEntry ∘ dumpMapping) m = some m := by
      intro m hm
      obtain ⟨hsrc, hdst, hsrcne, hdstne⟩ := mem_parseMappings hm
      simp [parseEntry_dumpMapping hsrcne hdstne, hsrc, hdst, hsrcne, hdstne]
    rw [List.filterMap_congr hparse, List.filterMap_some]
  change (((parseMappings v).map dumpMapping).filterMap parseEntry).mergeSort _ = _
  rw [hentries]
  refine List.mergeSort_of_pairwise ((pairwise_parseMappings v).imp ?_)
  exact fun h => decide_eq_true (p := _ ≤ _) h

/-! ### One request -/

/-- Something is left of both paths of every entry. -/
def Acceptable (body : PathMappingsUpdate) : Prop :=
  ∀ e ∈ body.mappings, rstripSlash e.from_ ≠ "" ∧ rstripSlash e.to_ ≠ ""

instance (body : PathMappingsUpdate) : Decidable (Acceptable body) :=
  inferInstanceAs (Decidable (∀ e ∈ body.mappings, _))

theorem ne_of_length {s : String} (h : 1 ≤ s.length) : s ≠ "" := by
  rintro rfl
  simp at h

theorem length_parseMappings_iff (body : PathMappingsUpdate) :
    (parseMappings (rawMappings body)).length = body.mappings.length ↔ Acceptable body := by
  change ((((body.mappings.map fun e => dumpMapping ⟨e.from_, e.to_⟩).filterMap
    parseEntry).mergeSort _)).length = _ ↔ _
  rw [List.length_mergeSort, List.filterMap_map, List.length_filterMap_eq_countP,
    List.countP_eq_length]
  refine forall₂_congr fun e _ => ?_
  rw [Function.comp, parseEntry_dumpMapping (ne_of_length e.from_length.1)
    (ne_of_length e.to_length.1)]
  split <;> rename_i hempty
  · simp only [Option.isSome_none, Bool.false_eq_true, false_iff]
    exact fun h => hempty.elim h.1 h.2
  · simp only [Option.isSome_some, true_iff]
    exact not_or.mp hempty

theorem lookup_replaced (entries : List (String × PyValue)) (key other : String)
    (value : PyValue) :
    (entries.map fun entry => if entry.1 = key then (key, value) else entry).lookup other =
      if other = key then (entries.lookup key).map fun _ => value else entries.lookup other := by
  induction entries with
  | nil => simp
  | cons entry rest ih =>
    obtain ⟨name, old⟩ := entry
    rw [List.map_cons]
    by_cases hname : name = key
    · subst hname
      by_cases hother : other = name
      · simp [hother]
      · simp [hother, ih, List.lookup_cons, beq_false_of_ne hother]
    · by_cases hother : other = key
      · subst hother
        simp [hname, ih, List.lookup_cons, beq_false_of_ne (Ne.symm hname)]
      · simp [hname, hother, ih, List.lookup_cons]

theorem lookup_isSome (entries : List (String × PyValue)) (key : String) :
    (entries.lookup key).isSome = entries.any (·.1 = key) := by
  induction entries with
  | nil => rfl
  | cons entry rest ih =>
    obtain ⟨name, old⟩ := entry
    rw [List.lookup_cons, List.any_cons]
    by_cases hname : name = key
    · simp [hname]
    · simp [hname, beq_false_of_ne (Ne.symm hname), ih]

theorem lookup_setKey (entries : List (String × PyValue)) (key other : String) (value : PyValue) :
    (setKey entries key value).lookup other =
      if other = key then some value else entries.lookup other := by
  unfold setKey
  split
  · rename_i hany
    rw [lookup_replaced]
    rw [← lookup_isSome] at hany
    split
    · obtain ⟨old, hold⟩ := Option.isSome_iff_exists.mp hany
      rw [hold, Option.map_some]
    · rfl
  · rename_i hany
    rw [← lookup_isSome, Bool.not_eq_true, Option.isSome_eq_false_iff, Option.isNone_iff_eq_none]
      at hany
    rw [List.lookup_append]
    by_cases hother : other = key
    · simp [hother, hany]
    · simp [hother, List.lookup_cons, beq_false_of_ne hother]

theorem eq_of_mem_setKey {entries : List (String × PyValue)} {key : String} {value : PyValue}
    {entry : String × PyValue} (h : entry ∈ setKey entries key value) (hkey : entry.1 = key) :
    entry = (key, value) := by
  unfold setKey at h
  split at h
  · obtain ⟨old, -, hold⟩ := List.mem_map.mp h
    split at hold
    · exact hold.symm
    · rename_i hother
      exact absurd (hold ▸ hkey) hother
  · rename_i hnone
    rcases List.mem_append.mp h with hold | hnew
    · refine absurd (List.any_eq_true.mpr ⟨entry, hold, ?_⟩) hnone
      rw [hkey, decide_eq_true rfl]
    · exact List.mem_singleton.mp hnew

theorem setKey_setKey (entries : List (String × PyValue)) (key : String) (value : PyValue) :
    setKey (setKey entries key value) key value = setKey entries key value := by
  have hany : (setKey entries key value).any (·.1 = key) = true := by
    rw [← lookup_isSome, lookup_setKey, if_pos rfl]
    rfl
  rw [setKey, if_pos hany]
  conv_rhs => rw [← List.map_id (setKey entries key value)]
  apply List.map_congr_left
  intro entry hentry
  split
  · rename_i hkey
    exact (eq_of_mem_setKey hentry hkey).symm
  · rfl

/-! ### Any run of requests -/

section Requests

/-- The table after a request; a request that is refused leaves it as it is. -/
def afterPut (rows : Table IntegrationRow.key) (request : String × PathMappingsUpdate) :
    Table IntegrationRow.key :=
  match updatePathMappings request.1 request.2 rows with
  | .ok (rows', _) => rows'
  | .error _ => rows

/-- The last request for an integration that is accepted. -/
def lastAccepted (k : String) (run : List (String × PathMappingsUpdate)) :
    Option PathMappingsUpdate :=
  ((run.filter fun request => request.1 = k ∧ Acceptable request.2).map Prod.snd).getLast?

theorem updateRow_acceptable {ig : IntegrationRow} {entries : List (String × PyValue)}
    (hconfig : configCopy ig.config = .ok entries) {body : PathMappingsUpdate}
    (h : Acceptable body) :
    let mappings := PyValue.list ((parseMappings (rawMappings body)).map dumpMapping)
    updateRow ig body = .ok ({ ig with config := .dict (setKey entries "path_mappings" mappings) },
      ⟨ig.id, ig.name, ig.kind, mappings⟩) := by
  rw [← length_parseMappings_iff] at h
  simp only [updateRow, h, ne_eq, not_true, if_false, hconfig]

theorem updateRow_unacceptable (ig : IntegrationRow) {body : PathMappingsUpdate}
    (h : ¬Acceptable body) : ∃ detail, updateRow ig body = .error (.invalid detail) := by
  rw [← length_parseMappings_iff] at h
  exact ⟨_, if_pos h⟩

theorem lastAccepted_append (k : String) (done : List (String × PathMappingsUpdate))
    (request : String × PathMappingsUpdate) :
    lastAccepted k (done ++ [request]) =
      if request.1 = k ∧ Acceptable request.2 then some request.2 else lastAccepted k done := by
  by_cases h : request.1 = k ∧ Acceptable request.2 <;> simp [lastAccepted, h]

/-- How the row of an integration is after some requests. -/
structure Stored (ig : IntegrationRow) (entries : List (String × PyValue)) (k : String)
    (done : List (String × PathMappingsUpdate)) (ig' : IntegrationRow) : Prop where
  id : ig'.id = ig.id
  others : ig'.kind = ig.kind ∧ ig'.name = ig.name ∧ ig'.enabled = ig.enabled ∧
    ig'.discoveredPaths = ig.discoveredPaths
  config : ∃ entries', configCopy ig'.config = .ok entries' ∧
    ∀ key ≠ "path_mappings", entries'.lookup key = entries.lookup key
  read : parseMappings (configMappings ig'.config) =
    match lastAccepted k done with
    | none => parseMappings (configMappings ig.config)
    | some body => parseMappings (rawMappings body)
  written : (lastAccepted k done).isSome → ∃ entries', ig'.config = .dict (setKey entries'
    "path_mappings" (.list ((parseMappings (configMappings ig'.config)).map dumpMapping)))

theorem configMappings_setKey (entries : List (String × PyValue)) (value : PyValue) :
    configMappings (.dict (setKey entries "path_mappings" value)) = value := by
  rw [configMappings, lookup_setKey, if_pos rfl, Option.getD_some]

theorem configCopy_dict (entries : List (String × PyValue)) :
    configCopy (.dict entries) = .ok entries := by
  cases entries <;> rfl

theorem Stored.put {ig ig' : IntegrationRow} {entries : List (String × PyValue)} {k : String}
    {done : List (String × PathMappingsUpdate)} (h : Stored ig entries k done ig')
    {body : PathMappingsUpdate} (hbody : Acceptable body) :
    ∃ ig'' response, updateRow ig' body = .ok (ig'', response) ∧
      Stored ig entries k (done ++ [(k, body)]) ig'' := by
  obtain ⟨entries', hcopy, hothers⟩ := h.config
  refine ⟨_, _, updateRow_acceptable hcopy hbody, ?_⟩
  have hlast : lastAccepted k (done ++ [(k, body)]) = some body := by
    rw [lastAccepted_append, if_pos ⟨rfl, hbody⟩]
  have hread := parseMappings_dump (rawMappings body)
  constructor
  · exact h.id
  · exact h.others
  · refine ⟨_, configCopy_dict _, fun key hkey => ?_⟩
    rw [lookup_setKey, if_neg hkey]
    exact hothers key hkey
  · rw [hlast, configMappings_setKey, hread]
  · intro _
    refine ⟨entries', ?_⟩
    rw [configMappings_setKey, hread]

theorem Stored.of_lastAccepted {ig ig' : IntegrationRow} {entries : List (String × PyValue)}
    {k : String} {done done' : List (String × PathMappingsUpdate)}
    (h : Stored ig entries k done ig') (hlast : lastAccepted k done' = lastAccepted k done) :
    Stored ig entries k done' ig' := by
  obtain ⟨hid, hothers, hconfig, hread, hwritten⟩ := h
  exact ⟨hid, hothers, hconfig, by rw [hlast]; exact hread, by rw [hlast]; exact hwritten⟩

theorem updateRow_id {ig ig' : IntegrationRow} {body : PathMappingsUpdate}
    {response : UpdateResponse} (h : updateRow ig body = .ok (ig', response)) : ig'.id = ig.id := by
  unfold updateRow at h
  simp only at h
  split at h
  · cases h
  · split at h
    · cases h
    · cases h
      rfl

theorem afterPut_found {rows : Table IntegrationRow.key} {k : String} {ig : IntegrationRow}
    (hfind : rows.find? k = some ig) (body : PathMappingsUpdate) :
    afterPut rows (k, body) = match updateRow ig body with
      | .ok (ig', _) => rows.upsert ig'
      | .error _ => rows := by
  simp only [afterPut, updatePathMappings, hfind]
  cases updateRow ig body <;> rfl

theorem find?_afterPut_other {rows : Table IntegrationRow.key} {k other : String}
    (body : PathMappingsUpdate) (hne : k ≠ other) :
    (afterPut rows (other, body)).find? k = rows.find? k := by
  cases hfind : rows.find? other with
  | none => simp only [afterPut, updatePathMappings, hfind]
  | some ig =>
    rw [afterPut_found hfind]
    cases hrow : updateRow ig body with
    | error refusal => rfl
    | ok out =>
      have hkey : out.1.key = other := (updateRow_id hrow).trans (Table.mem_of_find? hfind).2
      rw [Table.find?_upsert, if_neg (hkey ▸ hne)]

theorem find?_final_none {rows : Table IntegrationRow.key} {k : String}
    (hnone : rows.find? k = none) (run : List (String × PathMappingsUpdate)) :
    (Runs.final afterPut rows run).find? k = none := by
  refine Runs.final_invariant (I := fun rows' : Table IntegrationRow.key => rows'.find? k = none)
    afterPut ?_ hnone
  rintro ⟨other, body⟩ - rows' hnone'
  by_cases hother : k = other
  · subst hother
    simp only [afterPut, updatePathMappings, hnone']
  · rw [find?_afterPut_other body hother, hnone']

theorem stored_final {rows : Table IntegrationRow.key} {k : String} {ig : IntegrationRow}
    {entries : List (String × PyValue)} (hfind : rows.find? k = some ig)
    (hconfig : configCopy ig.config = .ok entries) (run : List (String × PathMappingsUpdate)) :
    ∃ ig', (Runs.final afterPut rows run).find? k = some ig' ∧ Stored ig entries k run ig' := by
  have hk : ig.id = k := (Table.mem_of_find? hfind).2
  refine Runs.final_history (P := fun done (rows' : Table IntegrationRow.key) =>
    ∃ ig', rows'.find? k = some ig' ∧ Stored ig entries k done ig') _ ?_ ?_ run
  · exact ⟨ig, hfind, rfl, ⟨rfl, rfl, rfl, rfl⟩, ⟨entries, hconfig, fun _ _ => rfl⟩, rfl, nofun⟩
  · rintro done rows' ⟨other, body⟩ ⟨ig', hfind', hstored⟩
    by_cases hother : other = k
    · subst hother
      rw [afterPut_found hfind']
      by_cases hbody : Acceptable body
      · obtain ⟨ig'', response, hput, hstored'⟩ := hstored.put hbody
        refine ⟨ig'', ?_, hstored'⟩
        rw [hput, Table.find?_upsert, if_pos]
        exact (hstored'.id.trans hk).symm
      · obtain ⟨detail, hput⟩ := updateRow_unacceptable ig' hbody
        refine ⟨ig', by rw [hput]; exact hfind', hstored.of_lastAccepted ?_⟩
        rw [lastAccepted_append, if_neg fun h => hbody h.2]
    · refine ⟨ig', ?_, hstored.of_lastAccepted ?_⟩
      · rw [find?_afterPut_other body (Ne.symm hother), hfind']
      · rw [lastAccepted_append, if_neg fun h => hother h.1]

theorem Stored.put_listed {ig ig' : IntegrationRow} {entries : List (String × PyValue)} {k : String}
    {done : List (String × PathMappingsUpdate)} (h : Stored ig entries k done ig')
    (hput : (lastAccepted k done).isSome) {body : PathMappingsUpdate}
    (hbody : rawMappings body = .list (listed ig').mappings) :
    ∃ response, updateRow ig' body = .ok (ig', response) := by
  obtain ⟨entries', hconfig⟩ := h.written hput
  have hparse : parseMappings (rawMappings body) = parseMappings (configMappings ig'.config) := by
    rw [hbody]
    exact parseMappings_dump _
  have hlength : (parseMappings (rawMappings body)).length = body.mappings.length := by
    have hlists := congrArg List.length (PyValue.list.inj hbody)
    rw [List.length_map, listed, List.length_map] at hlists
    rw [hparse, hlists]
  have hcopy := congrArg configCopy hconfig
  rw [configCopy_dict] at hcopy
  have hput := updateRow_acceptable hcopy ((length_parseMappings_iff body).mp hlength)
  simp only [hparse, setKey_setKey, ← hconfig] at hput
  exact ⟨_, hput⟩

/-- After any run of requests the integrations are the same ones.  Each reads back the mappings of
    the last request for it that left something of every path, or those it had; the rest of its
    row, and of its configuration, is as it was; and where there was such a request, to put
    again what is listed for it is accepted and changes nothing. -/
theorem last_put_read_back (rows : Table IntegrationRow.key)
    (run : List (String × PathMappingsUpdate)) (k : String) :
    (rows.find? k = none → (Runs.final afterPut rows run).find? k = none) ∧
    ∀ ig entries, rows.find? k = some ig → configCopy ig.config = .ok entries →
      ∃ ig', (Runs.final afterPut rows run).find? k = some ig' ∧ Stored ig entries k run ig' ∧
        ((lastAccepted k run).isSome → ∀ body, rawMappings body = .list (listed ig').mappings →
          ∃ response, updateRow ig' body = .ok (ig', response)) := by
  refine ⟨fun hnone => find?_final_none hnone run, fun ig entries hfind hconfig => ?_⟩
  obtain ⟨ig', hfind', hstored⟩ := stored_final hfind hconfig run
  exact ⟨ig', hfind', hstored, fun hput body hbody => hstored.put_listed hput hbody⟩

end Requests

end PathMappingStore
