/-
  Auditarr/PathMappings.lean
  ==========================
  **Path translation between an integration's files and the library's**
  (`app/integrations/path_mapping.py`).
-/
import Auditarr.PyValues

namespace PathMappings

open PyValues

/-- `PathMapping`. -/
structure PathMapping where
  srcPrefix : String
  dstPrefix : String
deriving DecidableEq

/-- `s.rstrip("/")`. -/
def rstripSlash (s : String) : String :=
  String.ofList (s.toList.reverse.dropWhile (· = '/')).reverse

/-- `entry.get(key) or entry.get(other)`. -/
def getOr (entries : List (String × PyValue)) (key other : String) : PyValue :=
  let v := (entries.lookup key).getD .none
  if v.truthy then v else (entries.lookup other).getD .none

/-- One entry of the list; malformed ones are dropped. -/
def parseEntry : PyValue → Option PathMapping
  | .dict entries =>
      match getOr entries "from" "src_prefix", getOr entries "to" "dst_prefix" with
      | .str src, .str dst =>
          if rstripSlash src = "" ∨ rstripSlash dst = "" then none
          else some ⟨rstripSlash src, rstripSlash dst⟩
      | _, _ => none
  | _ => none

/-- `parse_mappings`: the longest prefix first. -/
def parseMappings : PyValue → List PathMapping
  | .list entries =>
      (entries.filterMap parseEntry).mergeSort fun m m' =>
        decide (m'.srcPrefix.length ≤ m.srcPrefix.length)
  | _ => []

/-- The path is the prefix or lies below it. -/
def PathMapping.applies (m : PathMapping) (path : String) : Bool :=
  decide (path = m.srcPrefix) || (m.srcPrefix.toList ++ ['/']).isPrefixOf path.toList

/-- `remap_path`: the first mapping that applies. -/
def remapPath (path : String) (mappings : List PathMapping) : String :=
  match mappings.find? (·.applies path) with
  | some m => m.dstPrefix ++ String.ofList (path.toList.drop m.srcPrefix.length)
  | none => path

/-- The path is what the mapping gives, or lies below it. -/
def PathMapping.appliesInverse (m : PathMapping) (path : String) : Bool :=
  decide (path = m.dstPrefix) || (m.dstPrefix.toList ++ ['/']).isPrefixOf path.toList

/-- `remap_path_inverse`: the longest `dst_prefix` first. -/
def remapPathInverse (path : String) (mappings : List PathMapping) : String :=
  let candidates := mappings.mergeSort fun m m' =>
    decide (m'.dstPrefix.length ≤ m.dstPrefix.length)
  match candidates.find? (·.appliesInverse path) with
  | some m => m.srcPrefix ++ String.ofList (path.toList.drop m.dstPrefix.length)
  | none => path

/-- `remap_path_chain`. -/
def remapPathChain (path : String) (integrationMappings globalMappings : List PathMapping) :
    String :=
  remapPath (remapPath path integrationMappings) globalMappings

/-! ### Drift -/

/-- `DriftReport`. -/
structure DriftReport where
  seenPaths : Nat
  resolved : Nat
  hasMappingsConfigured : Bool

/-- `resolution_rate`. -/
def DriftReport.resolutionRate (r : DriftReport) : PyFloat :=
  if r.seenPaths = 0 then .finite 1
  else PyFloat.ofExact ((r.resolved : ℚ) / r.seenPaths)

/-- `drift_suspected`. -/
def DriftReport.driftSuspected (r : DriftReport) : Bool :=
  if r.seenPaths < 5 then false else PyFloat.lt r.resolutionRate (.finite (1 / 2))

/-- `f"{x:.0f}"` of a finite number. -/
def wholeNumber : PyFloat → String
  | .finite q => toString (roundHalfEven q)
  | .inf negative => if negative then "-inf" else "inf"
  | .nan => "nan"

/-- `detail`. -/
def DriftReport.detail (r : DriftReport) : String :=
  if !r.driftSuspected then ""
  else
    let pct := wholeNumber ((PyFloat.sub (.finite 1) r.resolutionRate).scale 100)
    let unresolved : Int := (r.seenPaths : Int) - r.resolved
    if !r.hasMappingsConfigured then
      toString unresolved ++ " of " ++ toString r.seenPaths ++ " playback paths don't resolve to " ++
        "indexed files (" ++ pct ++ "%). Configure path mappings on this integration."
    else
      toString unresolved ++ " of " ++ toString r.seenPaths ++ " playback paths don't resolve even " ++
        "with configured mappings (" ++ pct ++ "%). Check that mappings cover every library prefix."

end PathMappings
