/-
  Auditarr/BitrateCeiling.lean
  ============================
  **What the suggested ceiling covers** (`app/services/playback/analyzer.py`,
  `app/rules/evaluator.py`).

  The ceiling is the 25th percentile of the bitrates, rounded down to 1000 kbps, and the rule is
  for files above it.  Where the percentile is itself a multiple of 1000 its own plays are not
  above the ceiling, and too few are left: the rule holds of three quarters of the plays iff the
  percentile is not one (`covers_iff`).
-/
import Auditarr.Doubles
import Auditarr.Paging
import Auditarr.RuleEvaluator
import Auditarr.SuggestionColumns

namespace BitrateCeiling

open Doubles Paging PlaybackHeuristics PyValues RuleEvaluator RuleSchema RuleDocument
open PlaybackAnalyzer (PlaybackRow)
open RuleSuggestions (Env)

/-! ### The plays and the rule -/

/-- The plays that a ceiling is derived from. -/
def transcodes (rows : List PlaybackRow) : List PlaybackRow := rows.filter isHighBitrate

/-- The bitrates of some plays. -/
def bitrates (plays : List PlaybackRow) : List Int := plays.map fun ev => ev.sourceBitrateKbps.getD 0

/-- A file with the bitrate that a play was transcoded from. -/
def fileOf (file : PlaybackRow → EvaluationInput) (ev : PlaybackRow) : EvaluationInput :=
  { file ev with bitrateKbps := ev.sourceBitrateKbps }

/-- The condition evaluates to true. -/
def holds (rt : PyRuntime) (condition : Match) (input : EvaluationInput) : Bool :=
  (matchNode rt input condition).toOption == some true

/-- The rule of the candidate holds of at least 75 percent of the plays. -/
def Covers (env : Env) (file : PlaybackRow → EvaluationInput) (rows : List PlaybackRow)
    (c : SuggestionCandidate) : Prop :=
  ∃ rule, modelValidate env.py env.rt.toPyRuntime c.definition = some rule ∧
    75 * (transcodes rows).length ≤ 100 * (transcodes rows).countP fun ev =>
      holds env.rt.toPyRuntime rule.match_ (fileOf file ev)

/-- A bitrate is above another, as doubles. -/
def above (ceiling b : Int) : Bool :=
  (floatOfInt b).any fun x => (floatOfInt ceiling).any fun y => PyFloat.lt y x

/-- A quarter of the way through the plays, by their bitrates. -/
def AtQuarter (plays : List PlaybackRow) (b : Int) : Prop :=
  before id (bitrates plays) b ≤ plays.length / 4 ∧ plays.length / 4 < upTo id (bitrates plays) b

/-- The bitrate is no multiple of 1000, and where it is beyond the integers that doubles tell
    apart, the multiple below it is another double. -/
def Uneven (b : Int) : Prop := ¬1000 ∣ b ∧ (2 ^ 53 < b → above (b / 1000 * 1000) b = true)

/-! ### Comparing bitrates -/

theorem above_small {ceiling b : Int} (hb : b.natAbs ≤ 2 ^ 53) (hceiling : ceiling.natAbs ≤ 2 ^ 53) :
    above ceiling b = true ↔ ceiling < b := by
  rw [above, floatOfInt_small hb, floatOfInt_small hceiling]
  simp [PyFloat.lt]

theorem not_above_self (b : Int) : above b b = false := by
  rw [above]
  rcases hb : floatOfInt b with _ | x
  · rfl
  · obtain ⟨q, rfl⟩ := floatOfInt_finite hb
    simp [PyFloat.lt]

theorem above_mono {ceiling b b' : Int} (hpos : 0 < b) (hle : b ≤ b')
    (hfloat : (floatOfInt b').isSome = true) (h : above ceiling b = true) :
    above ceiling b' = true := by
  obtain ⟨x', hx'⟩ := Option.isSome_iff_exists.mp hfloat
  rw [above, Option.any_eq_true] at h ⊢
  obtain ⟨x, hx, h⟩ := h
  obtain ⟨q, rfl⟩ := floatOfInt_finite hx
  obtain ⟨q', rfl⟩ := floatOfInt_finite hx'
  refine ⟨_, hx', ?_⟩
  rw [Option.any_eq_true] at h ⊢
  obtain ⟨y, hy, hlt⟩ := h
  refine ⟨y, hy, ?_⟩
  obtain ⟨r, rfl⟩ := floatOfInt_finite hy
  rw [PyFloat.lt, decide_eq_true_eq] at hlt ⊢
  exact hlt.trans_le (floatOfInt_mono hpos hle hx hx')

theorem above_iff_uneven {b : Int} (hpos : 0 < b) :
    above (b / 1000 * 1000) b = true ↔ Uneven b := by
  rw [Uneven]
  by_cases hsmall : b ≤ 2 ^ 53
  · rw [above_small (by omega) (by omega)]
    omega
  · constructor
    · intro habove
      refine ⟨?_, fun _ => habove⟩
      intro hdvd
      rw [Int.ediv_mul_cancel hdvd, not_above_self] at habove
      cases habove
    · rintro ⟨-, hlarge⟩
      exact hlarge (by omega)

theorem holds_gt (rt : PyRuntime) (condition : Condition) {ceiling b : Int}
    {input : EvaluationInput} (hfield : condition.field = .bitrateKbps) (hop : condition.op = .gt)
    (hvalue : condition.value = .int ceiling) (hb : input.bitrateKbps = some b) :
    holds rt (.condition condition) input = above ceiling b := by
  have hactual : input.get .bitrateKbps = .int b := by
    rw [EvaluationInput.get, hb]
    rfl
  have hcompared : evalCondition rt condition input =
      compareNumbers (fun a e => PyFloat.lt e a) (.int b) (.int ceiling) := by
    rw [evalCondition, hfield, hop, hvalue]
    dsimp only
    rw [hactual]
    rfl
  rw [holds, matchNode, hcompared, compareNumbers, above]
  simp only [PyValue.toFloat]
  rcases floatOfInt b with _ | x
  · rfl
  · rcases floatOfInt ceiling with _ | y
    · rfl
    · change (some (PyFloat.lt y x) == some true) = PyFloat.lt y x
      simp

/-! ### The percentile -/

section Percentile

variable {rows : List PlaybackRow} {c : SuggestionCandidate}

theorem sortedBitrates_perm (plays : List PlaybackRow) :
    (sortedBitrates plays).Perm (bitrates plays) := List.perm_insertionSort ..

theorem quarter_lt_length {plays : List PlaybackRow} (hsome : plays ≠ []) :
    plays.length / 4 < (sortedBitrates plays).length := by
  rw [(sortedBitrates_perm plays).length_eq, bitrates, List.length_map]
  have hpos := List.length_pos_iff.mpr hsome
  omega

theorem p25_mem {plays : List PlaybackRow} (hsome : plays ≠ []) : p25 plays ∈ bitrates plays := by
  rw [← (sortedBitrates_perm plays).mem_iff, p25, List.getD_eq_getElem _ _ (quarter_lt_length hsome)]
  exact List.getElem_mem _

theorem atQuarter_p25 {plays : List PlaybackRow} (hsome : plays ≠ []) :
    AtQuarter plays (p25 plays) := by
  have hplace := quarter_lt_length hsome
  have hvalue : p25 plays = (sortedBitrates plays)[plays.length / 4] := by
    rw [p25, List.getD_eq_getElem _ _ hplace]
  have hsplit : sortedBitrates plays = (sortedBitrates plays).take (plays.length / 4) ++
      p25 plays :: (sortedBitrates plays).drop (plays.length / 4 + 1) := by
    rw [hvalue, List.getElem_cons_drop, List.take_append_drop]
  have hsorted : (sortedBitrates plays).Pairwise (· ≤ ·) := List.pairwise_insertionSort ..
  have hposition := position (sortedBitrates_perm plays) hsorted hsplit
  rwa [List.length_take, Nat.min_eq_left hplace.le] at hposition

theorem atQuarter_unique {plays : List PlaybackRow} {b b' : Int} (h : AtQuarter plays b)
    (h' : AtQuarter plays b') : b = b' := by
  have hbelow : ∀ {x y : Int}, x < y → AtQuarter plays x → ¬AtQuarter plays y := by
    intro x y hlt hx hy
    have hcount : upTo id (bitrates plays) x ≤ before id (bitrates plays) y := by
      apply List.countP_mono_left
      intro z _ hz
      rw [decide_eq_true_eq] at hz ⊢
      exact lt_of_le_of_lt hz hlt
    exact absurd (hx.2.trans_le (hcount.trans hy.1)) (lt_irrefl _)
  rcases lt_trichotomy b b' with hlt | heq | hgt
  · exact absurd h' (hbelow hlt h)
  · exact heq
  · exact absurd h (hbelow hgt h')

/-! ### What the rule covers -/

theorem bitrate_of_transcode {ev : PlaybackRow} (h : ev ∈ transcodes rows) :
    ev ∈ rows ∧ ∃ b, ev.sourceBitrateKbps = some b ∧ 0 < b := by
  obtain ⟨hrow, hhigh⟩ := List.mem_filter.mp h
  rw [isHighBitrate, Bool.and_eq_true, Option.any_eq_true] at hhigh
  obtain ⟨-, b, hb, hlt⟩ := hhigh
  rw [decide_eq_true_eq, minBitrateCeilingKbps] at hlt
  exact ⟨hrow, b, hb, by omega⟩

theorem covers_iff_count (env : Env) (file : PlaybackRow → EvaluationInput) (ceiling : Int) :
    Covers env file rows (ceilingCandidate env.rt ceiling (transcodes rows)) ↔
      75 * (transcodes rows).length ≤ 100 * (bitrates (transcodes rows)).countP (above ceiling) := by
  have htag : 1 ≤ "bitrate-too-high".length ∧ "bitrate-too-high".length ≤ 64 := by decide
  obtain ⟨rule, hrule, hmatch⟩ := SuggestionColumns.validated_flagRule env
    ⟨.bitrateKbps, .gt, .int ceiling, by decide, rfl⟩ .warn htag
  have hcount : ((transcodes rows).countP fun ev =>
      holds env.rt.toPyRuntime rule.match_ (fileOf file ev)) =
        (bitrates (transcodes rows)).countP (above ceiling) := by
    rw [bitrates, List.countP_map]
    apply List.countP_congr
    intro ev hev
    obtain ⟨-, b, hb, -⟩ := bitrate_of_transcode hev
    rw [hmatch, holds_gt env.rt.toPyRuntime _ rfl rfl rfl (b := b) hb, Function.comp_apply, hb]
    rfl
  rw [← hcount]
  constructor
  · rintro ⟨rule', hrule', hcovers⟩
    obtain rfl := Option.some.inj (hrule.symm.trans hrule')
    exact hcovers
  · intro hcovers
    exact ⟨rule, hrule, hcovers⟩

theorem three_quarters_iff {plays : List PlaybackRow} (hsome : plays ≠ []) (ceiling : Int)
    (hpos : ∀ b ∈ bitrates plays, 0 < b)
    (hfloat : ∀ b ∈ bitrates plays, (floatOfInt b).isSome = true) :
    75 * plays.length ≤ 100 * (bitrates plays).countP (above ceiling) ↔
      above ceiling (p25 plays) = true := by
  obtain ⟨hlow, hhigh⟩ := atQuarter_p25 hsome
  have hlength : (bitrates plays).length = plays.length := List.length_map ..
  have hmem := p25_mem hsome
  constructor
  · intro hmost
    by_contra hnot
    -- nothing up to the percentile is above, and that is more than a quarter
    have hsplit := List.length_eq_countP_add_countP (above ceiling) (l := bitrates plays)
    have hrest : upTo id (bitrates plays) (p25 plays) ≤
        (bitrates plays).countP (fun b => ¬above ceiling b = true) := by
      apply List.countP_mono_left
      intro b hb hle
      rw [decide_eq_true_eq] at hle ⊢
      intro habove
      exact hnot (above_mono (hpos b hb) hle (hfloat _ hmem) habove)
    omega
  · intro habove
    -- from the percentile on everything is above, and below it is at most a quarter
    have hsplit := List.length_eq_countP_add_countP (fun b => decide (b < p25 plays))
      (l := bitrates plays)
    have hrest : (bitrates plays).countP (fun b => ¬decide (b < p25 plays) = true) ≤
        (bitrates plays).countP (above ceiling) := by
      apply List.countP_mono_left
      intro b hb hge
      rw [decide_eq_true_eq, decide_eq_true_eq, not_lt] at hge
      exact above_mono (hpos _ hmem) hge (hfloat b hb) habove
    have hfew : (bitrates plays).countP (fun b => decide (b < p25 plays)) ≤ plays.length / 4 := hlow
    omega

/-- The rule of a candidate holds of three quarters of the plays it is derived from iff the 25th
    percentile of their bitrates is no multiple of 1000. -/
theorem covers_iff (env : Env) (file : PlaybackRow → EvaluationInput) (rows : List PlaybackRow)
    (c : SuggestionCandidate) (hc : c ∈ bitrateCeiling env.rt rows)
    (hfloat : ∀ ev ∈ rows, ∀ b ∈ ev.sourceBitrateKbps, (floatOfInt b).isSome = true) :
    Covers env file rows c ↔ ∀ b, AtQuarter (transcodes rows) b → Uneven b := by
  obtain ⟨hplays, -, rfl⟩ := mem_bitrateCeiling.mp hc
  change Covers env file rows (ceilingCandidate env.rt (p25 (transcodes rows) / 1000 * 1000)
    (transcodes rows)) ↔ _
  have hsome : transcodes rows ≠ [] := by
    intro hnone
    rw [transcodes] at hnone
    rw [hnone] at hplays
    cases hplays
  have hbitrates : ∀ b ∈ bitrates (transcodes rows), 0 < b ∧ (floatOfInt b).isSome = true := by
    intro b hb
    obtain ⟨ev, hev, rfl⟩ := List.mem_map.mp hb
    obtain ⟨hrow, b, hbitrate, hpos⟩ := bitrate_of_transcode hev
    rw [hbitrate]
    exact ⟨hpos, hfloat ev hrow b hbitrate⟩
  have hquarter := atQuarter_p25 hsome
  rw [covers_iff_count, three_quarters_iff hsome _ (fun b hb => (hbitrates b hb).1)
    fun b hb => (hbitrates b hb).2]
  rw [above_iff_uneven (hbitrates _ (p25_mem hsome)).1]
  constructor
  · intro huneven b hb
    rwa [atQuarter_unique hb hquarter]
  · intro hall
    exact hall _ hquarter

end Percentile

/-! ### Ten plays of one bitrate -/

open PlaybackPoller (PlaybackEvent)
open RuleSuggestions (plainEnv)

/-- A play that was transcoded from a bitrate. -/
def transcodedFrom (bitrate : Int) : PlaybackRow := .event
  { integrationId := "plex"
    upstreamId := "1"
    mediaFileId := none
    sourcePath := "/m.mkv"
    deviceKind := none
    deviceName := none
    decision := "transcode"
    sourceCodec := none
    sourceBitrateKbps := some bitrate
    sourceWidth := none
    sourceHeight := none
    startedAt := 0 }

/-- Ten such plays. -/
def tenPlays (bitrate : Int) : List PlaybackRow := List.replicate 10 (transcodedFrom bitrate)

/-- The file that is played. -/
def plainFile : PlaybackRow → EvaluationInput := fun _ => .unprobed "m" "/m.mkv" "mkv"

theorem candidate_tenPlays (bitrate : Int)
    (hplays : (transcodes (tenPlays bitrate)).length = 10)
    (hceiling : minBitrateCeilingKbps ≤ p25 (transcodes (tenPlays bitrate)) / 1000 * 1000) :
    ceilingCandidate plainEnv.rt (p25 (transcodes (tenPlays bitrate)) / 1000 * 1000)
      (transcodes (tenPlays bitrate)) ∈ bitrateCeiling plainEnv.rt (tenPlays bitrate) :=
  mem_bitrateCeiling.mpr ⟨hplays.ge, hceiling, rfl⟩

theorem covers_iff_20500 :
    Covers plainEnv plainFile (tenPlays 20500) (ceilingCandidate plainEnv.rt
        (p25 (transcodes (tenPlays 20500)) / 1000 * 1000) (transcodes (tenPlays 20500))) ↔
      ∀ b, AtQuarter (transcodes (tenPlays 20500)) b → Uneven b := by
  apply covers_iff
  · exact candidate_tenPlays 20500 (by decide) (by decide)
  · intro ev hev b hb
    obtain rfl := List.eq_of_mem_replicate hev
    cases hb
    decide

/-- Ten plays of 20 Mbps are not above a ceiling of 20 Mbps. -/
theorem even_percentile_not_covered :
    ∃ c ∈ bitrateCeiling plainEnv.rt (tenPlays 20000), ¬Covers plainEnv plainFile (tenPlays 20000) c := by
  refine ⟨_, candidate_tenPlays 20000 (by decide) (by decide), ?_⟩
  rw [covers_iff_count]
  decide

end BitrateCeiling
