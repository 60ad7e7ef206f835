/-
  Auditarr/TracearrPath.lean
  ==========================
  **The pseudo-paths of Tracearr events** (`_synth_source_path` in
  `plugins/tracearr/backend.py`, `parse_tracearr_pseudo_path` in
  `app/services/playback/tracearr_reconciler.py`).

  Tracearr does not say where a file lies, so the provider makes a path of what a history
  item says of it, and the reconciler reads that back with three regular expressions.  The
  texts are put between separators as they are: the first position where the rest of an
  expression matches is the one that counts.
-/
import Auditarr.PyValues

namespace TracearrPath

open PyValues

/-! ### The provider -/

/-- The fields of a history item that make its path; one that is missing is `None`. -/
structure HistoryItem where
  serverId : PyValue
  mediaType : PyValue
  mediaTitle : PyValue
  year : PyValue
  showTitle : PyValue
  seasonNumber : PyValue
  episodeNumber : PyValue
  artistName : PyValue
  albumName : PyValue

section Synthesiser

variable (str : PyValue → String)

/-- `str(v)`. -/
def pyStr : PyValue → String
  | .str s => s
  | v => str v

/-- `str(v or default)`. -/
def textOr (default : String) (v : PyValue) : String := if v.truthy then pyStr str v else default

def HistoryItem.serverText (item : HistoryItem) : String := textOr str "tracearr" item.serverId

def HistoryItem.typeText (item : HistoryItem) : String := textOr str "unknown" item.mediaType

def HistoryItem.titleText (item : HistoryItem) : String :=
  let title := strip (textOr str "untitled" item.mediaTitle)
  if title = "" then "untitled" else title

/-- The year, where it is an integer. -/
def HistoryItem.yearInt (item : HistoryItem) : Option Int :=
  match item.year with
  | .int n => some n
  | .bool b => some (if b then 1 else 0)
  | _ => none

/-- Season and episode, where both are given. -/
def HistoryItem.numbers (item : HistoryItem) : Except PyError (Option (Int × Int)) :=
  if item.seasonNumber.isNone || item.episodeNumber.isNone then .ok none
  else do return some (← item.seasonNumber.toInt, ← item.episodeNumber.toInt)

/-- What the leaf of a path is made of. -/
inductive Leaf where
  | episode (showTitle : String) (numbers : Option (Int × Int)) (title : String)
  | track (names : List String)
  | other (title : String) (year : Option Int)

/-- A part of the path of a track; one that is not a string cannot be joined. -/
def joinable (v : PyValue) : Except PyError (List String) :=
  if v.truthy then match v with
    | .str s => .ok [s]
    | _ => .error .typeError
  else .ok []

def HistoryItem.leaf (item : HistoryItem) : Except PyError Leaf :=
  if item.typeText str = "episode" ∧ item.showTitle.truthy = true then do
    return .episode (pyStr str item.showTitle) (← item.numbers) (item.titleText str)
  else if item.typeText str = "track" then do
    return .track ((← joinable item.artistName) ++ (← joinable item.albumName) ++ [item.titleText str])
  else return .other (item.titleText str) item.yearInt

/-- The format `02d`. -/
def twoDigits (n : Int) : List Char :=
  if 0 ≤ n ∧ n < 10 then '0' :: (toString n).toList else (toString n).toList

def numberSuffix : Option (Int × Int) → List Char
  | none => []
  | some (season, episode) => '/' :: 'S' :: twoDigits season ++ 'E' :: twoDigits episode

def yearSuffix : Option Int → List Char
  | none => []
  | some year => ' ' :: '(' :: (toString year).toList ++ [')']

def separator : List Char := [' ', '—', ' ']

def Leaf.text : Leaf → List Char
  | .episode showTitle numbers title => showTitle.toList ++ numberSuffix numbers ++ separator ++ title.toList
  | .track names => ("/".intercalate names).toList
  | .other title year => title.toList ++ yearSuffix year

def tracearrPrefix : List Char := "tracearr://".toList

/-- `_synth_source_path`. -/
def synthSourcePath (item : HistoryItem) : Except PyError String := do
  let leaf ← item.leaf str
  return String.ofList (tracearrPrefix ++ (item.serverText str).toList ++ '/' ::
    (item.typeText str).toList ++ '/' :: leaf.text.dropWhile (· = '/'))

end Synthesiser

/-! ### The expressions -/

/-- A lazy group `.+?` and what must match after it: the shortest group that lets the rest
    match. -/
def lazily {β : Type} (rest : List Char → Option β) : List Char → Option (List Char × β)
  | [] => none
  | c :: cs =>
      if c = '\n' then none
      else match rest cs with
        | some b => some ([c], b)
        | none => (lazily rest cs).map fun (group, b) => (c :: group, b)

/-- `\s+—\s`, and what comes after it. -/
def dashMarker (cs : List Char) : Option (List Char) :=
  if cs.takeWhile isSpace = [] then none
  else match cs.dropWhile isSpace with
    | '—' :: c :: rest => if isSpace c then some rest else none
    | _ => none

/-- A group of digits that is not too long. -/
def digitsUpTo (limit : Nat) (cs : List Char) : Option (Int × List Char) :=
  let digits := cs.takeWhile isDigit
  if digits ≠ [] ∧ digits.length ≤ limit then some (natOfDigits digits, cs.dropWhile isDigit) else none

/-- `/S(?P<season>\d{1,3})E(?P<episode>\d{1,4})\s+—\s`, and what comes after it. -/
def numberMarker : List Char → Option ((Int × Int) × List Char)
  | '/' :: 'S' :: cs => match digitsUpTo 3 cs with
    | some (season, 'E' :: cs') => match digitsUpTo 4 cs' with
      | some (episode, cs'') => (dashMarker cs'').map fun rest => ((season, episode), rest)
      | none => none
    | _ => none
  | _ => none

/-- The rest of `\s+(?P<title>.+)$` in a text that is stripped. -/
def titleAtEnd (cs : List Char) : Option (List Char) :=
  let title := cs.dropWhile isSpace
  if title ≠ [] ∧ '\n' ∉ title then some title else none

/-- `_EPISODE_LEAF_RE`: the show, and the numbers and the title after it. -/
def episodeLeaf (leaf : List Char) : Option (List Char × (Int × Int) × List Char) :=
  lazily (fun cs => do
    let (numbers, rest) ← numberMarker cs
    let title ← titleAtEnd rest
    return (numbers, title)) leaf

/-- `_EPISODE_LEAF_NO_SE_RE`: the show and the title. -/
def episodeLeafNoSe (leaf : List Char) : Option (List Char × List Char) :=
  lazily (fun cs => do titleAtEnd (← dashMarker cs)) leaf

/-- `\s+\((?P<year>\d{4})\)$`. -/
def yearAtEnd (cs : List Char) : Option Int :=
  if cs.takeWhile isSpace = [] then none
  else match cs.dropWhile isSpace with
    | ['(', a, b, c, d, ')'] =>
        if [a, b, c, d].all isDigit then some (natOfDigits [a, b, c, d]) else none
    | _ => none

/-- `_MOVIE_LEAF_WITH_YEAR_RE`: the title and the year. -/
def movieLeafWithYear (leaf : List Char) : Option (List Char × Int) := lazily yearAtEnd leaf

/-! ### The parser -/

/-- `ParsedIdentity`. -/
structure ParsedIdentity where
  mediaType : String
  serverId : Option String
  title : Option String
  year : Option Int := none
  showTitle : Option String := none
  season : Option Int := none
  episode : Option Int := none
deriving DecidableEq

/-- `s or None`. -/
def orNone (s : String) : Option String := if s = "" then none else some s

/-- `group.strip() or None`. -/
def groupText (cs : List Char) : Option String := orNone (strip (String.ofList cs))

/-- What the leaf says, by the type of the media. -/
def parseLeaf (serverId mediaType leaf : String) : ParsedIdentity :=
  let serverId := orNone serverId
  if mediaType = "movie" then match movieLeafWithYear leaf.toList with
    | some (title, year) =>
        { mediaType := "movie", serverId := serverId, title := groupText title, year := some year }
    | none => { mediaType := "movie", serverId := serverId, title := orNone leaf }
  else if mediaType = "episode" then match episodeLeaf leaf.toList with
    | some (showTitle, (season, episode), title) =>
        { mediaType := "episode", serverId := serverId, title := groupText title,
          showTitle := groupText showTitle, season := some season, episode := some episode }
    | none => match episodeLeafNoSe leaf.toList with
      | some (showTitle, title) =>
          { mediaType := "episode", serverId := serverId, title := groupText title,
            showTitle := groupText showTitle }
      | none => { mediaType := "episode", serverId := serverId, title := orNone leaf }
  else { mediaType := (orNone mediaType).getD "unknown", serverId := serverId, title := orNone leaf }

/-- A text up to its first slash, and after it. -/
def cutSlash (cs : List Char) : Option (List Char × List Char) :=
  match cs.dropWhile (· ≠ '/') with
  | [] => none
  | _ :: rest => some (cs.takeWhile (· ≠ '/'), rest)

/-- `parse_tracearr_pseudo_path`. -/
def parseTracearrPseudoPath (path : String) : Option ParsedIdentity :=
  if tracearrPrefix <+: path.toList then
    match cutSlash (path.toList.drop tracearrPrefix.length) with
    | none => none
    | some (serverId, rest) => match cutSlash rest with
      | none => none
      | some (mediaType, leaf) =>
          let leaf := strip (String.ofList leaf)
          if leaf = "" then none
          else some (parseLeaf (String.ofList serverId) (String.ofList mediaType) leaf)
  else none

end TracearrPath
