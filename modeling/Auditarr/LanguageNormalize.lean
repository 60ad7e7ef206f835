/-
  Auditarr/LanguageNormalize.lean
  ===============================
  **Language tags** (`app/rules/language_normalize.py`).

  Operators write `en`, muxers write `eng`, `English` or `en-US`.  Both sides of a
  language comparison are folded to an ISO 639-1 code where the curated table
  knows the form, and to the lower-cased trimmed text where it does not.
-/
import Auditarr.PyValues

namespace LanguageNormalize

open PyValues

/-- `_CANONICAL_TO_ALIASES`. -/
def CANONICAL_TO_ALIASES : List (String × List String) :=
  [("en", ["en", "eng", "english", "en-us", "en-gb", "en_us", "en_gb", "en-au"]),
   ("es", ["es", "spa", "spanish", "español", "espanol", "es-es", "es-mx", "es-419"]),
   ("fr", ["fr", "fre", "fra", "french", "français", "francais", "fr-fr", "fr-ca"]),
   ("de", ["de", "ger", "deu", "german", "deutsch", "de-de", "de-at"]),
   ("it", ["it", "ita", "italian", "italiano"]),
   ("pt", ["pt", "por", "portuguese", "português", "portugues", "pt-br", "pt-pt"]),
   ("ja", ["ja", "jpn", "japanese", "日本語", "ja-jp"]),
   ("zh", ["zh", "chi", "zho", "chinese", "中文", "zh-cn", "zh-tw", "zh-hk", "zh-hans", "zh-hant",
      "cmn", "yue", "mandarin", "cantonese"]),
   ("ko", ["ko", "kor", "korean", "한국어"]),
   ("ru", ["ru", "rus", "russian", "русский"]),
   ("ar", ["ar", "ara", "arabic"]),
   ("hi", ["hi", "hin", "hindi"]),
   ("nl", ["nl", "nld", "dut", "dutch", "nederlands"]),
   ("sv", ["sv", "swe", "swedish", "svenska"]),
   ("no", ["no", "nor", "norwegian", "nob", "nno", "norsk"]),
   ("da", ["da", "dan", "danish", "dansk"]),
   ("fi", ["fi", "fin", "finnish", "suomi"]),
   ("pl", ["pl", "pol", "polish", "polski"]),
   ("tr", ["tr", "tur", "turkish", "türkçe"]),
   ("he", ["he", "heb", "hebrew", "iw"]),
   ("el", ["el", "gre", "ell", "greek"]),
   ("th", ["th", "tha", "thai"]),
   ("vi", ["vi", "vie", "vietnamese"]),
   ("uk", ["uk", "ukr", "ukrainian"]),
   ("cs", ["cs", "cze", "ces", "czech"]),
   ("hu", ["hu", "hun", "hungarian", "magyar"]),
   ("ro", ["ro", "rum", "ron", "romanian", "română"]),
   ("id", ["id", "ind", "indonesian"]),
   ("ms", ["ms", "may", "msa", "malay"]),
   ("fa", ["fa", "per", "fas", "persian", "farsi"])]

/-- `_ALIAS_INDEX`, the last entry for a key first: a later assignment to a
    dictionary key replaces an earlier one. -/
def aliasIndex (rt : PyRuntime) : List (String × String) :=
  (CANONICAL_TO_ALIASES.flatMap fun (canonical, aliases) =>
    (aliases ++ [canonical]).map fun form => (rt.lower (strip form), canonical)).reverse

/-- `s.split("-", 1)[0]`. -/
def primaryTag (s : String) : String := String.ofList (s.toList.takeWhile (· ≠ '-'))

/-- `normalize_language` of a string. -/
def normalizeLanguage (rt : PyRuntime) (raw : String) : Option String :=
  let s := rt.lower (strip raw)
  if s = "" then none
  else match (aliasIndex rt).lookup s with
    | some canonical => some canonical
    -- a region variant the table does not list falls back to its primary tag
    | none => match (aliasIndex rt).lookup (primaryTag s) with
      | some canonical => some canonical
      | none => some s

def normalizeInto (rt : PyRuntime) : List String → List String → List String
  | out, [] => out
  | out, v :: rest => match normalizeLanguage rt v with
    | none => normalizeInto rt out rest
    | some n => if n ∈ out then normalizeInto rt out rest else normalizeInto rt (out ++ [n]) rest

/-- `normalize_languages`: order kept, empty entries dropped, codes that collapse
    to one another kept once. -/
def normalizeLanguages (rt : PyRuntime) (values : List String) : List String :=
  normalizeInto rt [] values

end LanguageNormalize
