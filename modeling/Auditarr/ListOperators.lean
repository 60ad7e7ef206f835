/-
  Auditarr/ListOperators.lean
  ===========================
  **Lists of alternatives in a rule** (`app/rules/evaluator.py`, `_apply_op`).

  `any_of` and `none_of` take a single value for a list of one.  `in` takes what it is given: a
  text is searched for the field's text, and an empty one is an empty list.  So a bare text means
  the list of it iff the field's text is not a proper part of it, or both are empty.
-/
import Auditarr.RuleEvaluator

namespace ListOperators

open PyValues RuleSchema RuleEvaluator LanguageNormalize

/-! ### Conditions with one alternative -/

/-- The operator reads a list of alternatives. -/
def readsList : Op → Bool
  | .in_ | .anyOf | .noneOf => true
  | _ => false

/-- A condition on one alternative, accepted by the schema with the text alone as its value. -/
structure Alternative where
  field : Field
  op : Op
  text : String
  reads : readsList op = true
  op_allowed : op ∈ opsForField field
  value_allowed : valueAllowed field op (.str text) = true

def Alternative.bare (c : Alternative) : Condition :=
  ⟨c.field, c.op, .str c.text, c.op_allowed, c.value_allowed⟩

/-- The same condition with the list of the text for its value.  `vt_status` allows no bare text
    under `in`, and neither of the other two operators. -/
def Alternative.listed (c : Alternative) : Condition where
  field := c.field
  op := c.op
  value := .list [.str c.text]
  op_allowed := c.op_allowed
  value_allowed := by
    obtain ⟨field, op, text, hreads, hop, hvalue⟩ := c
    cases field with
    | vtStatus =>
      cases op with
      | in_ => exact Bool.noConfusion hvalue
      | anyOf | noneOf => exact absurd hop (by decide)
      | _ => exact Bool.noConfusion hreads
    | _ => rfl

/-- Both conditions have one verdict, and the bare one under `in` says that the field is the
    text. -/
structure Agrees (rt : PyRuntime) (input : EvaluationInput) (c : Alternative) : Prop where
  verdict : evalCondition rt c.bare input = evalCondition rt c.listed input
  member : c.op = .in_ →
    (evalCondition rt c.bare input = .ok true ↔ input.get c.field = .str c.text)

/-- Where the text of the field is part of the alternative, it is all of it and not empty. -/
def NotWithin (input : EvaluationInput) (c : Alternative) : Prop :=
  ∀ v, input.get c.field = .str v → v.toList <:+: c.text.toList → v = c.text ∧ v ≠ ""

/-! ### The operators -/

section Operators

variable {rt : PyRuntime} {input : EvaluationInput}

theorem ofOption_str (text : Option String) :
    PyValue.ofOption .str text = .none ∨ ∃ v, PyValue.ofOption .str text = .str v := by
  cases text with
  | none => exact .inl rfl
  | some v => exact .inr ⟨v, rfl⟩

theorem in_compares (rt : PyRuntime) (input : EvaluationInput) {field : Field} (hop : Op.in_ ∈ opsForField field) :
    (∀ c : Condition, c.field = field →
        evalCondition rt c input = applyOp rt c.op (input.get field) c.value) ∧
      (input.get field = .none ∨ ∃ v, input.get field = .str v) := by
  cases field with
  | subtitleLanguages | audioLanguages | tags | width | height | durationSeconds | bitrateKbps
  | framerate | sizeBytes | hasSubtitles | isOrphaned | probeFailed => exact absurd hop (by decide)
  | filename | extension | category =>
    refine ⟨fun c hc => ?_, .inr ⟨_, rfl⟩⟩
    rw [evalCondition, hc]
  | container | videoCodec | audioCodec | subtitleCodec | vtStatus =>
    refine ⟨fun c hc => ?_, ofOption_str _⟩
    rw [evalCondition, hc]

theorem eq_str {v : String} {item : PyValue} : (PyValue.str v).eq item = true ↔ item = .str v := by
  cases item with
  | str s =>
    rw [PyValue.eq, beq_iff_eq, PyValue.str.injEq]
    exact eq_comm
  | _ => simp [PyValue.eq, PyValue.numeric?]

theorem in_list {v : String} {items : List PyValue} :
    applyOp rt .in_ (.str v) (.list items) = .ok (items.any fun item => (PyValue.str v).eq item) := by
  cases items <;> rfl

theorem in_text {v text : String} : applyOp rt .in_ (.str v) (.str text) =
    .ok (decide (text ≠ "" ∧ v.toList <:+: text.toList)) := by
  by_cases hempty : text = ""
  · subst hempty
    rfl
  · simp [applyOp, ifPresent, PyValue.orEmpty, PyValue.truthy, PyValue.isIn, hempty]

theorem in_list_iff (c : Condition) (hop : c.op = .in_) {items : List PyValue}
    (hvalue : c.value = .list items) :
    evalCondition rt c input = .ok true ↔ ∃ v, input.get c.field = .str v ∧ .str v ∈ items := by
  obtain ⟨hcompares, hget⟩ := in_compares rt input (hop ▸ c.op_allowed)
  rw [hcompares c rfl, hop, hvalue]
  rcases hget with hnone | ⟨v, hv⟩
  · rw [hnone]
    constructor
    · intro h
      cases h
    · rintro ⟨v, hv, -⟩
      cases hv
  · rw [hv, in_list, Except.ok.injEq, List.any_eq_true]
    constructor
    · rintro ⟨item, hitem, heq⟩
      exact ⟨v, rfl, eq_str.mp heq ▸ hitem⟩
    · rintro ⟨v', hv', hmem⟩
      cases hv'
      exact ⟨_, hmem, eq_str.mpr rfl⟩

theorem eq_none_str (s : String) : PyValue.none.eq (.str s) = false := by
  simp [PyValue.eq, PyValue.numeric?]

theorem anyIn_language (rt : PyRuntime) (languages : List String) (text : String) :
    anyIn (PyValue.ofStrings languages).orEmpty (asItems (expectedLanguages rt (.str text))) =
      anyIn (PyValue.ofStrings languages).orEmpty
        (asItems (expectedLanguages rt (.list [.str text]))) := by
  simp only [expectedLanguages, List.filterMap_cons, List.filterMap_nil]
  cases normalizeLanguage rt text with
  | some code => rfl
  | none =>
    simp only [PyValue.ofOption, asItems, PyValue.ofStrings, List.map_nil, anyIn]
    rw [← PyValue.ofStrings, PyValue.isIn_orEmpty_ofStrings]
    have hnot : (languages.map PyValue.str).any (PyValue.none.eq ·) = false := by
      simp [eq_none_str]
    rw [hnot]
    rfl

theorem set_agrees (c : Alternative) (hop : c.op ≠ .in_) :
    evalCondition rt c.bare input = evalCondition rt c.listed input := by
  obtain ⟨field, op, text, hreads, hallowed, hvalue⟩ := c
  cases op with
  | in_ => exact absurd rfl hop
  | anyOf =>
    cases field with
    | tags => rfl
    | audioLanguages => exact anyIn_language rt (normalizeLanguages rt input.audioLanguages) text
    | subtitleLanguages =>
      exact anyIn_language rt (normalizeLanguages rt input.subtitleLanguages) text
    | _ => exact absurd hallowed (by decide)
  | noneOf =>
    cases field with
    | tags => rfl
    | audioLanguages =>
      exact congrArg (fun found => do return !(← found))
        (anyIn_language rt (normalizeLanguages rt input.audioLanguages) text)
    | subtitleLanguages =>
      exact congrArg (fun found => do return !(← found))
        (anyIn_language rt (normalizeLanguages rt input.subtitleLanguages) text)
    | _ => exact absurd hallowed (by decide)
  | _ => exact Bool.noConfusion hreads

theorem in_agrees_iff (rt : PyRuntime) (c : Alternative) (hop : c.op = .in_) :
    evalCondition rt c.bare input = evalCondition rt c.listed input ↔ NotWithin input c := by
  obtain ⟨hcompares, hget⟩ := in_compares rt input (hop ▸ c.op_allowed)
  rw [hcompares c.bare rfl, hcompares c.listed rfl]
  change applyOp rt c.op _ (.str c.text) = applyOp rt c.op _ (.list [.str c.text]) ↔ _
  rw [hop]
  rcases hget with hnone | ⟨v, hv⟩
  · rw [hnone]
    refine iff_of_true rfl fun v hv => ?_
    rw [hnone] at hv
    cases hv
  · have hself : (([.str c.text] : List PyValue).any fun item => (PyValue.str v).eq item) =
        decide (v = c.text) := by
      rw [List.any_cons, List.any_nil, Bool.or_false, Bool.eq_iff_iff, eq_str, decide_eq_true_eq,
        PyValue.str.injEq]
      exact eq_comm
    rw [hv, in_text, in_list, hself, Except.ok.injEq, decide_eq_decide]
    constructor
    · intro hagree v' hv' hpart
      rw [hv] at hv'
      cases hv'
      by_cases hempty : c.text = ""
      · rw [hempty] at hpart hagree
        have hv' : v = "" := by simpa using hpart
        exact absurd rfl (hagree.mpr hv').1
      · obtain rfl := hagree.mp ⟨hempty, hpart⟩
        exact ⟨rfl, hempty⟩
    · intro hwithin
      constructor
      · rintro ⟨-, hpart⟩
        exact (hwithin v hv hpart).1
      · rintro rfl
        exact ⟨(hwithin _ hv (List.infix_refl _)).2, List.infix_refl _⟩

end Operators

/-! ### The law -/

/-- A list under `in` holds iff the field is one of its items; and a condition on one alternative
    means the list of it iff its operator is not `in`, or the text of the field is no proper part
    of the alternative and not empty with it. -/
theorem alternative_agrees_iff (rt : PyRuntime) (input : EvaluationInput) :
    (∀ c : Condition, c.op = .in_ → ∀ items, c.value = .list items →
      (evalCondition rt c input = .ok true ↔ ∃ v, input.get c.field = .str v ∧ .str v ∈ items)) ∧
    ∀ c : Alternative, Agrees rt input c ↔ (c.op = .in_ → NotWithin input c) := by
  refine ⟨fun c hop items hvalue => in_list_iff c hop hvalue, fun c => ?_⟩
  constructor
  · rintro ⟨hverdict, -⟩ hop
    exact (in_agrees_iff rt c hop).mp hverdict
  · intro hwithin
    by_cases hop : c.op = .in_
    · have hverdict := (in_agrees_iff rt c hop).mpr (hwithin hop)
      refine ⟨hverdict, fun _ => ?_⟩
      rw [hverdict, in_list_iff c.listed hop rfl]
      constructor
      · rintro ⟨v, hv, hmem⟩
        cases List.mem_singleton.mp hmem
        exact hv
      · intro hv
        exact ⟨_, hv, List.mem_singleton_self _⟩
    · exact ⟨set_agrees c hop, fun h => absurd h hop⟩

/-! ### A transport stream -/

/-- `extension in "m2ts"`, as the visual builder writes it. -/
def m2ts : Alternative := ⟨.extension, .in_, "m2ts", rfl, by decide, rfl⟩

/-- A runtime whose patterns are never found. -/
def plainRuntime : PyRuntime := ⟨id, fun _ _ => .notFound⟩

/-- A file with the extension `ts` matches `in "m2ts"` and not `in ["m2ts"]`. -/
theorem bare_text_matches_part :
    ¬Agrees plainRuntime (.unprobed "m" "/a.ts" "ts") m2ts := by
  intro hagrees
  have hbare : evalCondition plainRuntime m2ts.bare (.unprobed "m" "/a.ts" "ts") = .ok true := by
    show applyOp plainRuntime .in_ (.str "ts") (.str "m2ts") = _
    rw [in_text]
    decide
  have hlisted :
      evalCondition plainRuntime m2ts.listed (.unprobed "m" "/a.ts" "ts") = .ok false := by
    show applyOp plainRuntime .in_ (.str "ts") (.list [.str "m2ts"]) = _
    rw [in_list]
    decide
  have hverdict := hagrees.verdict
  rw [hbare, hlisted] at hverdict
  cases hverdict

end ListOperators
