/-
  Auditarr/LanguageSpelling.lean
  ==============================
  **How a language is spelled does not matter to a rule.**

  `normalize_language` looks a text up in the table of aliases, then its primary tag, and
  keeps a text that neither finds.  The table is consistent: what is the code of one language
  is an alias of no other.  So normalizing twice is normalizing once, and a condition on a
  language field cannot tell two texts apart that are normalized to the same, in the value of
  the rule or in the list of the file.
-/
import Auditarr.RuleEvaluator

namespace LanguageSpelling

open PyValues RuleSchema LanguageNormalize RuleEvaluator

/-! ### Lower case -/

/-- What `str.lower` does to every text, and to the forms of the table, which are in lower
    case. -/
structure LowerLaws (rt : PyRuntime) : Prop where
  lower_lower : ∀ s, rt.lower (rt.lower s) = rt.lower s
  /-- No character becomes white space. -/
  strip_lower : ∀ s, strip (rt.lower (strip s)) = rt.lower (strip s)
  lower_form : ∀ entry ∈ CANONICAL_TO_ALIASES, ∀ form ∈ entry.2, rt.lower form = form

variable {rt : PyRuntime}

/-- The index of a table whose forms are in lower case. -/
def plainIndex : List (String × String) :=
  (CANONICAL_TO_ALIASES.flatMap fun (canonical, aliases) =>
    (aliases ++ [canonical]).map fun form => (form, canonical)).reverse

theorem canonical_mem_aliases : ∀ entry ∈ CANONICAL_TO_ALIASES, entry.1 ∈ entry.2 := by
  decide

theorem strip_form : ∀ entry ∈ CANONICAL_TO_ALIASES, ∀ form ∈ entry.2, strip form = form := by
  decide +kernel

theorem aliasIndex_eq (h : LowerLaws rt) : aliasIndex rt = plainIndex := by
  unfold aliasIndex plainIndex
  refine congrArg List.reverse (List.flatMap_congr fun entry hentry => List.map_congr_left ?_)
  intro form hform
  have hmem : form ∈ entry.2 := by
    rcases List.mem_append.mp hform with halias | hcode
    · exact halias
    · rw [List.mem_singleton.mp hcode]
      exact canonical_mem_aliases entry hentry
  rw [strip_form entry hentry form hmem, h.lower_form entry hentry form hmem]

theorem lookup_code : ∀ entry ∈ CANONICAL_TO_ALIASES,
    plainIndex.lookup entry.1 = some entry.1 := by
  decide +kernel

theorem code_nonempty : ∀ entry ∈ CANONICAL_TO_ALIASES, entry.1 ≠ "" := by
  decide

theorem code_of_lookup {form code : String} (h : plainIndex.lookup form = some code) :
    ∃ entry ∈ CANONICAL_TO_ALIASES, entry.1 = code := by
  obtain ⟨before, after, hsplit, -⟩ := List.lookup_eq_some_iff.mp h
  have hmem : (form, code) ∈ plainIndex := by
    rw [hsplit]
    exact List.mem_append_right _ (List.mem_cons_self ..)
  rw [plainIndex, List.mem_reverse, List.mem_flatMap] at hmem
  obtain ⟨entry, hentry, hpair⟩ := hmem
  obtain ⟨other, -, heq⟩ := List.mem_map.mp hpair
  exact ⟨entry, hentry, (Prod.mk.inj heq).2⟩

/-! ### Normalizing twice -/

theorem normalizeLanguage_code (h : LowerLaws rt) {form code : String}
    (hlookup : plainIndex.lookup form = some code) : normalizeLanguage rt code = some code := by
  obtain ⟨entry, hentry, rfl⟩ := code_of_lookup hlookup
  have hmem := canonical_mem_aliases entry hentry
  have hlower : rt.lower (strip entry.1) = entry.1 := by
    rw [strip_form entry hentry _ hmem, h.lower_form entry hentry _ hmem]
  unfold normalizeLanguage
  rw [aliasIndex_eq h, hlower, if_neg (code_nonempty entry hentry), lookup_code entry hentry]

theorem normalizeLanguage_normalized (h : LowerLaws rt) {s n : String}
    (hnormal : normalizeLanguage rt s = some n) : normalizeLanguage rt n = some n := by
  have hs := hnormal
  unfold normalizeLanguage at hnormal
  rw [aliasIndex_eq h] at hnormal
  dsimp only at hnormal
  by_cases hempty : rt.lower (strip s) = ""
  · rw [if_pos hempty] at hnormal
    cases hnormal
  · rw [if_neg hempty] at hnormal
    cases hfull : plainIndex.lookup (rt.lower (strip s)) with
    | some code =>
      rw [hfull] at hnormal
      cases hnormal
      exact normalizeLanguage_code h hfull
    | none =>
      cases hprimary : plainIndex.lookup (primaryTag (rt.lower (strip s))) with
      | some code =>
        simp only [hfull, hprimary, Option.some.injEq] at hnormal
        subst hnormal
        exact normalizeLanguage_code h hprimary
      | none =>
        simp only [hfull, hprimary, Option.some.injEq] at hnormal
        -- a text that is not in the table is in lower case, and trimmed, already
        have hsame : rt.lower (strip n) = rt.lower (strip s) := by
          rw [← hnormal, h.strip_lower, h.lower_lower]
        rw [← hs, normalizeLanguage, normalizeLanguage, hsame]

theorem normalizeLanguage_idempotent (h : LowerLaws rt) (s : String) :
    (normalizeLanguage rt s).bind (normalizeLanguage rt) = normalizeLanguage rt s := by
  cases hnormal : normalizeLanguage rt s with
  | none => rfl
  | some n => exact normalizeLanguage_normalized h hnormal

/-! ### Other spellings -/

/-- Two texts for the same language. -/
def SameLanguage (rt : PyRuntime) (s s' : String) : Prop :=
  normalizeLanguage rt s' = normalizeLanguage rt s

instance (rt : PyRuntime) (s s' : String) : Decidable (SameLanguage rt s s') :=
  inferInstanceAs (Decidable (_ = _))

/-- A value in a list, with a text for the same language in place of a text. -/
inductive ItemRespelled (rt : PyRuntime) : PyValue → PyValue → Prop where
  | same (v : PyValue) : ItemRespelled rt v v
  | text {s s' : String} : SameLanguage rt s s' → ItemRespelled rt (.str s) (.str s')

/-- The value of a rule, with other spellings of any of its languages. -/
inductive ValueRespelled (rt : PyRuntime) : PyValue → PyValue → Prop where
  | item {v v' : PyValue} : ItemRespelled rt v v' → ValueRespelled rt v v'
  | list {items items' : List PyValue} : List.Forall₂ (ItemRespelled rt) items items' →
      ValueRespelled rt (.list items) (.list items')

/-- A condition with other spellings of the languages that it asks for. -/
structure ConditionRespelled (rt : PyRuntime) (c c' : Condition) : Prop where
  field : c'.field = c.field
  op : c'.op = c.op
  language : c.field = .audioLanguages ∨ c.field = .subtitleLanguages →
    ValueRespelled rt c.value c'.value
  other : c.field ≠ .audioLanguages → c.field ≠ .subtitleLanguages → c'.value = c.value

mutual

/-- A match tree with other spellings in any of its conditions. -/
inductive MatchRespelled (rt : PyRuntime) : Match → Match → Prop where
  | allOf {all_ all_' : List Match} : ItemsRespelled rt all_ all_' →
      MatchRespelled rt (.allOf all_) (.allOf all_')
  | anyOf {any_ any_' : List Match} : ItemsRespelled rt any_ any_' →
      MatchRespelled rt (.anyOf any_) (.anyOf any_')
  | condition {c c' : Condition} : ConditionRespelled rt c c' →
      MatchRespelled rt (.condition c) (.condition c')

inductive ItemsRespelled (rt : PyRuntime) : List Match → List Match → Prop where
  | nil : ItemsRespelled rt [] []
  | cons {m m' : Match} {ms ms' : List Match} : MatchRespelled rt m m' →
      ItemsRespelled rt ms ms' → ItemsRespelled rt (m :: ms) (m' :: ms')

end

/-- A file with other spellings of the languages of its streams. -/
structure InputRespelled (rt : PyRuntime) (input input' : EvaluationInput) : Prop where
  same : input' = { input with
    audioLanguages := input'.audioLanguages, subtitleLanguages := input'.subtitleLanguages }
  audio : List.Forall₂ (SameLanguage rt) input.audioLanguages input'.audioLanguages
  subtitles : List.Forall₂ (SameLanguage rt) input.subtitleLanguages input'.subtitleLanguages

theorem normalizeInto_respelled {values values' : List String}
    (h : List.Forall₂ (SameLanguage rt) values values') (out : List String) :
    normalizeInto rt out values' = normalizeInto rt out values := by
  induction h generalizing out with
  | nil => rfl
  | cons hhead _ ih =>
    simp only [normalizeInto]
    rw [hhead]
    split
    · exact ih out
    · split
      · exact ih out
      · exact ih _

theorem expectedLanguages_item {v v' : PyValue} (h : ItemRespelled rt v v') :
    expectedLanguages rt v' = expectedLanguages rt v := by
  cases h with
  | same => rfl
  | text hsame => rw [expectedLanguages, expectedLanguages, hsame]

theorem expectedLanguages_respelled {v v' : PyValue} (h : ValueRespelled rt v v') :
    expectedLanguages rt v' = expectedLanguages rt v := by
  cases h with
  | item hitem => exact expectedLanguages_item hitem
  | list hitems =>
    refine congrArg PyValue.ofStrings ?_
    induction hitems with
    | nil => rfl
    | cons hhead _ ih =>
      cases hhead with
      | same => rw [List.filterMap_cons, List.filterMap_cons, ih]
      | text hsame =>
        simp only [List.filterMap_cons, ih]
        rw [hsame]

variable {input input' : EvaluationInput}

theorem comparedValues_respelled {c c' : Condition} (hc : ConditionRespelled rt c c')
    (hinput : InputRespelled rt input input') :
    comparedValues rt c' input' = comparedValues rt c input := by
  have hget : ∀ field, field ≠ .audioLanguages → field ≠ .subtitleLanguages →
      input'.get field = input.get field := by
    intro field haudio hsubtitles
    rw [hinput.same]
    cases field with
    | audioLanguages => exact absurd rfl haudio
    | subtitleLanguages => exact absurd rfl hsubtitles
    | _ => rfl
  have hlists : normalizeLanguages rt input'.audioLanguages =
        normalizeLanguages rt input.audioLanguages ∧
      normalizeLanguages rt input'.subtitleLanguages =
        normalizeLanguages rt input.subtitleLanguages :=
    ⟨normalizeInto_respelled hinput.audio [], normalizeInto_respelled hinput.subtitles []⟩
  unfold comparedValues
  rw [hc.field]
  cases hfield : c.field with
  | audioLanguages =>
    dsimp only
    rw [hlists.1, expectedLanguages_respelled (hc.language (.inl hfield))]
  | subtitleLanguages =>
    dsimp only
    rw [hlists.2, expectedLanguages_respelled (hc.language (.inr hfield))]
  | _ =>
    dsimp only
    rw [hget _ (by simp) (by simp), hc.other (by simp [hfield]) (by simp [hfield])]

theorem evalCondition_respelled {c c' : Condition} (hc : ConditionRespelled rt c c')
    (hinput : InputRespelled rt input input') :
    evalCondition rt c' input' = evalCondition rt c input := by
  rw [evalCondition_eq_applyOp, evalCondition_eq_applyOp, comparedValues_respelled hc hinput,
    hc.op]

mutual

theorem matchNode_respelled (hinput : InputRespelled rt input input') {m m' : Match} :
    MatchRespelled rt m m' → matchNode rt input' m' = matchNode rt input m
  | .allOf h => matchAll_respelled hinput h
  | .anyOf h => matchAny_respelled hinput h
  | .condition h => evalCondition_respelled h hinput

theorem matchAll_respelled (hinput : InputRespelled rt input input') {ms ms' : List Match} :
    ItemsRespelled rt ms ms' → matchAll rt input' ms' = matchAll rt input ms
  | .nil => rfl
  | .cons hhead hrest => by
    rw [matchAll, matchAll, matchNode_respelled hinput hhead, matchAll_respelled hinput hrest]

theorem matchAny_respelled (hinput : InputRespelled rt input input') {ms ms' : List Match} :
    ItemsRespelled rt ms ms' → matchAny rt input' ms' = matchAny rt input ms
  | .nil => rfl
  | .cons hhead hrest => by
    rw [matchAny, matchAny, matchNode_respelled hinput hhead, matchAny_respelled hinput hrest]

end

theorem applyAction_respelled (hinput : InputRespelled rt input input') :
    applyAction input' = applyAction input := by
  funext result action
  cases action with
  | delete reason =>
    have hpath : input'.path = input.path := by rw [hinput.same]
    simp only [applyAction, hpath]
  | _ => rfl

/-- **Spelling.**  Normalizing a language twice is normalizing it once; and a rule decides the
    same for a file, whatever spellings of their languages the rule and the file use. -/
theorem respelling_keeps_verdict (rt : PyRuntime) (h : LowerLaws rt) :
    (∀ s, (normalizeLanguage rt s).bind (normalizeLanguage rt) = normalizeLanguage rt s) ∧
    (∀ s n, normalizeLanguage rt s = some n → SameLanguage rt s n) ∧
    ∀ (d d' : RuleDefinition) (input input' : EvaluationInput),
      MatchRespelled rt d.match_ d'.match_ → d'.actions = d.actions →
        InputRespelled rt input input' → evaluate rt d' input' = evaluate rt d input := by
  refine ⟨normalizeLanguage_idempotent h, fun s n hn => ?_, ?_⟩
  · exact (normalizeLanguage_normalized h hn).trans hn.symm
  · intro d d' input input' hmatch hactions hinput
    rw [evaluate, evaluate, matchNode_respelled hinput hmatch, hactions,
      applyAction_respelled hinput]

/-! A rule for `English` and a file with an `en-us` stream -/

/-- For texts in lower case. -/
def plainRt : PyRuntime := ⟨id, fun _ _ => .notFound⟩

theorem lowerLaws_plainRt : LowerLaws plainRt := ⟨fun _ => rfl, strip_strip, fun _ _ _ _ => rfl⟩

/-- A file with one audio stream. -/
def spoken (language : String) : EvaluationInput :=
  { EvaluationInput.unprobed "m" "/m.mkv" "mkv" with audioLanguages := [language] }

theorem contains_mem_opsForField : Op.contains ∈ opsForField .audioLanguages := by
  decide

theorem language_allowed (language : String) :
    valueAllowed .audioLanguages .contains (.str language) = true :=
  rfl

theorem dub_lengthsAllowed : (Action.addTag "dub").lengthsAllowed = true := by
  decide

/-- The rule that tags the files in a language. -/
def taggedIf (language : String) : RuleDefinition :=
  simpleRule .audioLanguages .contains (.str language) (.addTag "dub") contains_mem_opsForField
    (language_allowed language) dub_lengthsAllowed rfl

theorem matchRespelled_taggedIf {s s' : String} (h : SameLanguage rt s s') :
    MatchRespelled rt (taggedIf s).match_ (taggedIf s').match_ :=
  .condition ⟨rfl, rfl, fun _ => .item (.text h), fun hfield => absurd rfl hfield⟩

theorem inputRespelled_spoken {s s' : String} (h : SameLanguage rt s s') :
    InputRespelled rt (spoken s) (spoken s') :=
  ⟨rfl, .cons h .nil, .nil⟩

theorem respelling_keeps_verdict_english :
    SameLanguage plainRt "english" "en" ∧
      evaluate plainRt (taggedIf "en") (spoken "en-us") =
        evaluate plainRt (taggedIf "english") (spoken "eng") := by
  have hlaw := respelling_keeps_verdict plainRt lowerLaws_plainRt
  have hrule : SameLanguage plainRt "english" "en" := hlaw.2.1 _ _ (by decide +kernel)
  have hfile : SameLanguage plainRt "eng" "en-us" := by decide +kernel
  exact ⟨hrule, hlaw.2.2 _ _ _ _ (matchRespelled_taggedIf hrule) rfl (inputRespelled_spoken hfile)⟩

end LanguageSpelling
