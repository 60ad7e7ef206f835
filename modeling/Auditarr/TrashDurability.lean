/-
  Auditarr/TrashDurability.lean
  =============================
  **Files in the trash against the committed tables.**

  A delete rule moves the file at once; the removal of its row and the audit entry
  are part of the transaction of the whole pass.  A rule that cannot be evaluated on
  a later file takes the deletion back, unless a VirusTotal enqueue committed the
  session in between or the caller commits after an exception.
-/
import Auditarr.RulesPass

namespace TrashDurability

open Effects Transactions KeyedTable PyValues RuleSchema RuleEvaluator RuleAggregation
open Database RulesService RulesEffect RulesTotality RulesPass

/-- The session after a pass that starts on what is committed. -/
def afterPass (env : Env) (caller : Caller) (libraryId : String) (tagsAny : List String)
    (t : Tables) (world : Outside) (calls : Nat) : Session Tables Outside :=
  (rulesPass env caller libraryId tagsAny (.opened t world calls)).2

section Pass

variable {libraryId : String} {tagsAny : List String}

theorem not_deleted_of_listed {t : Tables} {move : TrashMove} {after : Tables}
    (hlisted : move.mediaFileId ∈ (listMedia t libraryId tagsAny).map (·.id))
    (hfate : fate after move.mediaFileId = fate t move.mediaFileId) : ¬ Deleted t after move := by
  rintro ⟨hgone, -⟩
  obtain ⟨m, hm, hid⟩ := List.mem_map.mp hlisted
  have hrow : m ∈ t.media :=
    List.mem_of_mem_filter ((List.mem_insertionSort bySeverity).mp (List.mem_of_mem_take hm))
  rw [hfate, fate, Table.find?_eq_some.mpr ⟨hrow, hid⟩] at hgone
  cases hgone

end Pass

def deleteAvi : RuleDefinition where
  match_ := .condition ⟨.extension, .eq, .str "avi", eq_mem_opsForField_extension, avi_allowed⟩
  actions := [.delete none]
  acknowledgedDestructive := true
  groups_nonempty := rfl
  actions_nonempty := List.cons_ne_nil _ _
  lengths_allowed := rfl
  destructive_ack := rfl

theorem library_id_nonempty : "l1" ≠ "" := by
  decide

/-- The library that holds the files. -/
def library : Library := ⟨"l1", "/media", library_id_nonempty⟩

theorem library_alone : ([library].map Library.id).Nodup :=
  List.nodup_singleton _

/-- Two files and the given rules. -/
def twoFileTables (rules : Table Rule.id) : Tables :=
  { Tables.empty with
    libraries := ⟨[library], library_alone⟩
    media := ⟨[.unprobed "f1" "l1" "/media/a.avi" "avi",
      { MediaFile.unprobed "f2" "l1" "/media/b.mkv" "mkv" with width := some 1280 }], by decide⟩
    media_path_unique := by decide
    rules := rules }

/-- The delete rule alone. -/
def deletingTables : Tables := twoFileTables ⟨[storedRule "delete" deleteAvi], by decide⟩

end TrashDurability
