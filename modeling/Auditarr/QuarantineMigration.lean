/-
  Auditarr/QuarantineMigration.lean
  =================================
  **The migration that retires the quarantine** (`migrations/versions/0023_drop_quarantine.py`).

  Stored rules lose their `quarantine` actions and the `confirm` flag of their `delete` actions;
  every other action and every other key stays as it is and where it is, and a second run finds
  nothing to do.  What the migration does not write is the flag `acknowledged_destructive`, which
  the schema asks of a rule that deletes: a rule it rewrote can only be loaded if the flag was
  there before.
-/
import Auditarr.RuleDocument

namespace QuarantineMigration

open PyValues RuleSchema RuleDocument

/-! ### The rewriting of actions -/

/-- `action.get("type") == t`. -/
def hasType (t : String) (action : Entries) : Bool :=
  match action.lookup "type" with
  | some (.str s) => s == t
  | _ => false

/-- `{"type": "delete"}`, with the reason of the action if it has one. -/
def deleteAction (action : Entries) : Entries :=
  match action.lookup "reason" with
  | none | some .none => [("type", .str "delete")]
  | some reason => [("type", .str "delete"), ("reason", reason)]

/-- A turn of the loop of `_rewrite_actions`: what is appended, and whether that is a change. -/
def rewriteAction : PyValue → PyValue × Bool
  | .dict action =>
      if hasType "quarantine" action then (.dict (deleteAction action), true)
      else if hasType "delete" action then
        (.dict (deleteAction action), (action.lookup "confirm").isSome)
      else (.dict action, false)
  | action => (action, false)

/-- `_rewrite_actions`. -/
def rewriteActions (actions : List PyValue) : List PyValue × Bool :=
  actions.foldl (fun (out, changed) action =>
    (out ++ [(rewriteAction action).1], changed || (rewriteAction action).2)) ([], false)

/-- `definition["actions"] = …`, of a definition that has the key. -/
def withActions (definition : Entries) (actions : List PyValue) : Entries :=
  definition.map fun entry => if entry.1 = "actions" then ("actions", .list actions) else entry

section Upgrade

-- `json.loads`, none for a text that is not JSON
variable (loads : String → Option PyValue)

/-- The definition of a row, if it is a dictionary. -/
def definitionOf (stored : PyValue) : Option Entries :=
  match stored with
  | .str text => match loads text with
    | some (.dict definition) => some definition
    | _ => none
  | .dict definition => some definition
  | _ => none

/-- The actions of a definition, if they are a list. -/
def actionsOf (definition : Entries) : Option (List PyValue) :=
  match definition.lookup "actions" with
  | some (.list actions) => some actions
  | _ => none

/-- What the migration leaves in a row. -/
def upgradeRow (stored : PyValue) : PyValue :=
  match definitionOf loads stored with
  | none => stored
  | some definition => match actionsOf definition with
    | none => stored
    | some actions =>
        if (rewriteActions actions).2 then
          .dict (withActions definition (rewriteActions actions).1)
        else stored

end Upgrade

/-! ### What the loop does -/

theorem rewriteActions_eq (actions : List PyValue) :
    rewriteActions actions =
      (actions.map fun action => (rewriteAction action).1,
        actions.any fun action => (rewriteAction action).2) := by
  have hfold : ∀ (out : List PyValue) (changed : Bool),
      actions.foldl (fun (out, changed) action =>
        (out ++ [(rewriteAction action).1], changed || (rewriteAction action).2)) (out, changed) =
      (out ++ actions.map fun action => (rewriteAction action).1,
        changed || actions.any fun action => (rewriteAction action).2) := by
    induction actions with
    | nil => simp
    | cons action rest ih =>
      intro out changed
      rw [List.foldl_cons, ih]
      simp [Bool.or_assoc]
  simpa [rewriteActions] using hfold [] false

theorem lookup_deleteAction_type (action : Entries) :
    (deleteAction action).lookup "type" = some (.str "delete") := by
  unfold deleteAction
  split <;> simp [List.lookup]

theorem lookup_deleteAction_confirm (action : Entries) :
    (deleteAction action).lookup "confirm" = none := by
  unfold deleteAction
  split <;> simp [List.lookup]

theorem hasType_delete {action : Entries} (h : action.lookup "type" = some (.str "delete")) :
    hasType "delete" action = true ∧ hasType "quarantine" action = false := by
  simp [hasType, h]

theorem rewriteAction_rewritten (action : PyValue) :
    (rewriteAction (rewriteAction action).1).2 = false := by
  have hdelete : ∀ action : Entries, (rewriteAction (.dict (deleteAction action))).2 = false := by
    intro action
    obtain ⟨hdelete, hquarantine⟩ := hasType_delete (lookup_deleteAction_type action)
    simp [rewriteAction, hdelete, hquarantine, lookup_deleteAction_confirm]
  cases action with
  | dict action =>
    cases hquarantine : hasType "quarantine" action with
    | true => simpa [rewriteAction, hquarantine] using hdelete action
    | false =>
      cases htype : hasType "delete" action with
      | true => simpa [rewriteAction, hquarantine, htype] using hdelete action
      | false => simp [rewriteAction, hquarantine, htype]
  | _ => rfl

theorem rewriteActions_rewritten (actions : List PyValue) :
    (rewriteActions (rewriteActions actions).1).2 = false := by
  simp [rewriteActions_eq, rewriteAction_rewritten]

/-! ### Keys -/

theorem lookup_withActions (definition : Entries) (actions : List PyValue) (key : String) :
    (withActions definition actions).lookup key =
      if key = "actions" then (definition.lookup key).map fun _ => .list actions
      else definition.lookup key := by
  induction definition with
  | nil => simp [withActions, List.lookup]
  | cons entry rest ih =>
    rw [withActions] at ih
    obtain ⟨name, value⟩ := entry
    rw [withActions, List.map_cons]
    by_cases hname : name = "actions"
    · subst hname
      by_cases hkey : key = "actions"
      · subst hkey
        simp [List.lookup]
      · simp [List.lookup, hkey, beq_eq_false_iff_ne.mpr hkey, ih]
    · by_cases hkey : key = name
      · subst hkey
        simp [List.lookup, hname]
      · simp [List.lookup, hname, beq_eq_false_iff_ne.mpr hkey, ih]

theorem keys_withActions (definition : Entries) (actions : List PyValue) :
    (withActions definition actions).map Prod.fst = definition.map Prod.fst := by
  rw [withActions, List.map_map]
  apply List.map_congr_left
  intro entry _
  by_cases hname : entry.1 = "actions" <;> simp [hname]

theorem actionsOf_withActions {definition : Entries} {old : List PyValue}
    (h : actionsOf definition = some old) (actions : List PyValue) :
    actionsOf (withActions definition actions) = some actions := by
  unfold actionsOf at h ⊢
  rw [lookup_withActions, if_pos rfl]
  split at h
  · rename_i hlookup
    rw [hlookup]
    rfl
  · cases h

/-! ### Loading a rewritten rule -/

section Loading

variable {py : Pydantic} {rt : PyRuntime}

theorem isDelete_of_validated {action : Entries} {x : Action}
    (h : validateAction py rt (.dict (deleteAction action)) = some x) : x.isDelete = true := by
  have htype : strField (deleteAction action) "type" = some "delete" := by
    rw [strField, lookup_deleteAction_type]
  simp only [validateAction, htype, Option.bind_some, validateTagged] at h
  simp only [Option.bind_eq_bind, Option.bind_eq_some_iff, String.reduceEq, if_false, if_true,
    Option.pure_def, Option.some.injEq] at h
  obtain ⟨-, -, reason, -, rfl⟩ := h
  rfl

theorem mapM_validated {items : List PyValue} {actions : List Action}
    (h : items.mapM (validateAction py rt) = some actions) {item : PyValue} (hmem : item ∈ items) :
    ∃ action ∈ actions, validateAction py rt item = some action := by
  induction items generalizing actions with
  | nil => cases hmem
  | cons first rest ih =>
    simp only [List.mapM_cons, Option.bind_eq_bind, Option.bind_eq_some_iff, Option.pure_def,
      Option.some.injEq] at h
    obtain ⟨action, hfirst, others, hothers, rfl⟩ := h
    rcases List.mem_cons.mp hmem with rfl | hrest
    · exact ⟨action, List.mem_cons_self .., hfirst⟩
    · obtain ⟨other, hother, hitem⟩ := ih hothers hrest
      exact ⟨other, List.mem_cons_of_mem _ hother, hitem⟩

theorem acknowledged_of_loaded {definition : Entries} {items : List PyValue} {action : Entries}
    (hactions : actionsOf definition = some items) (hmem : .dict (deleteAction action) ∈ items)
    {d : RuleDefinition} (h : modelValidate py rt (.dict definition) = some d) :
    acknowledged py definition = some true := by
  unfold actionsOf at hactions
  split at hactions
  · rename_i listed hlookup
    cases hactions
    simp only [modelValidate, hlookup, Option.bind_some, validateActions, Option.bind_eq_bind,
      Option.bind_eq_some_iff] at h
    obtain ⟨-, -, match_, -, actions, hvalid, flag, hflag, hbuild⟩ := h
    obtain ⟨x, hx, hvalidated⟩ := mapM_validated hvalid hmem
    have hdeletes : actions.any Action.isDelete = true :=
      List.any_eq_true.mpr ⟨x, hx, isDelete_of_validated hvalidated⟩
    unfold buildRule at hbuild
    split at hbuild
    · rename_i hchecked
      rw [hflag, ← hchecked.2.2.2, hdeletes]
    · cases hbuild
  · cases hactions

end Loading

/-! ### What the migration leaves -/

/-- Neither a quarantine nor a flag that deleting no longer has. -/
def Retired (actions : List PyValue) : Prop :=
  ∀ action : Entries, .dict action ∈ actions → hasType "quarantine" action = false ∧
    (hasType "delete" action = true → action.lookup "confirm" = none)

theorem retired_iff (actions : List PyValue) :
    Retired actions ↔ (rewriteActions actions).2 = false := by
  rw [rewriteActions_eq, List.any_eq_false]
  constructor
  · intro h action hmem
    cases action with
    | dict action =>
      obtain ⟨hquarantine, hdelete⟩ := h action hmem
      cases htype : hasType "delete" action with
      | true => simp [rewriteAction, hquarantine, htype, hdelete htype]
      | false => simp [rewriteAction, hquarantine, htype]
    | _ => exact Bool.false_ne_true
  · intro h action hmem
    have hsame := h _ hmem
    cases hquarantine : hasType "quarantine" action with
    | true => simp [rewriteAction, hquarantine] at hsame
    | false =>
      refine ⟨rfl, fun htype => ?_⟩
      simpa only [rewriteAction, hquarantine, htype, Bool.false_eq_true, if_false, if_true,
        Option.not_isSome_iff_eq_none] using hsame

theorem exists_rewritten {actions : List PyValue} (h : ¬Retired actions) :
    ∃ action : Entries, .dict (deleteAction action) ∈ (rewriteActions actions).1 := by
  rw [retired_iff, rewriteActions_eq, Bool.not_eq_false, List.any_eq_true] at h
  obtain ⟨item, hmem, hchanged⟩ := h
  cases item with
  | dict action =>
    refine ⟨action, ?_⟩
    rw [rewriteActions_eq]
    refine List.mem_map.mpr ⟨_, hmem, ?_⟩
    cases hquarantine : hasType "quarantine" action with
    | true => simp [rewriteAction, hquarantine]
    | false =>
      cases htype : hasType "delete" action with
      | true => simp [rewriteAction, hquarantine, htype]
      | false => simp [rewriteAction, hquarantine, htype] at hchanged
  | _ => cases hchanged

section Rows

variable (loads : String → Option PyValue)

theorem definitionOf_dict (definition : Entries) :
    definitionOf loads (.dict definition) = some definition := rfl

theorem upgradeRow_cases (stored : PyValue) :
    (upgradeRow loads stored = stored ∧
      ∀ definition actions, definitionOf loads stored = some definition →
        actionsOf definition = some actions → Retired actions) ∨
    ∃ definition actions, definitionOf loads stored = some definition ∧
      actionsOf definition = some actions ∧ ¬Retired actions ∧
      upgradeRow loads stored = .dict (withActions definition (rewriteActions actions).1) := by
  unfold upgradeRow
  cases hdefinition : definitionOf loads stored with
  | none => exact .inl ⟨rfl, nofun⟩
  | some definition =>
    cases hactions : actionsOf definition with
    | none =>
      refine .inl ⟨by simp only [hactions], ?_⟩
      intro definition' actions hsame hsome
      cases hsame
      rw [hactions] at hsome
      cases hsome
    | some actions =>
      simp only [hactions]
      cases hchanged : (rewriteActions actions).2 with
      | true =>
        refine .inr ⟨definition, actions, rfl, hactions, ?_, if_pos rfl⟩
        rw [retired_iff, hchanged]
        exact Bool.noConfusion
      | false =>
        refine .inl ⟨if_neg Bool.false_ne_true, ?_⟩
        intro definition' actions' hsame hsome
        cases hsame
        rw [hactions] at hsome
        cases hsome
        exact (retired_iff actions).mpr hchanged

/-- After the migration no row has a retired action, and a second run changes nothing.  A row that
    is rewritten keeps its keys, their order and all values but the actions, of which there are
    as many as before; and if one of them deletes, the rule can only be loaded if it carried
    the flag before the migration. -/
theorem upgradeRow_sound (stored : PyValue) :
    (∀ definition actions, definitionOf loads (upgradeRow loads stored) = some definition →
      actionsOf definition = some actions → Retired actions) ∧
    upgradeRow loads (upgradeRow loads stored) = upgradeRow loads stored ∧
    (upgradeRow loads stored ≠ stored → ∃ definition actions definition',
      definitionOf loads stored = some definition ∧ actionsOf definition = some actions ∧
      upgradeRow loads stored = .dict definition' ∧
      definition'.map Prod.fst = definition.map Prod.fst ∧
      (∀ key ≠ "actions", definition'.lookup key = definition.lookup key) ∧
      actionsOf definition' = some (actions.map fun action => (rewriteAction action).1) ∧
      ∀ py rt d, modelValidate py rt (.dict definition') = some d →
        acknowledged py definition = some true) := by
  rcases upgradeRow_cases loads stored with
    ⟨hsame, hretired⟩ | ⟨definition, actions, hdefinition, hactions, hchanged, hstored⟩
  · rw [hsame]
    exact ⟨hretired, hsame, fun hne => absurd rfl hne⟩
  · have hafter := actionsOf_withActions hactions (rewriteActions actions).1
    have hretired := (retired_iff _).mpr (rewriteActions_rewritten actions)
    have hleft : ∀ definition' actions', definitionOf loads (upgradeRow loads stored) =
        some definition' → actionsOf definition' = some actions' → Retired actions' := by
      intro definition' actions' hsame hsome
      rw [hstored, definitionOf_dict] at hsame
      cases hsame
      rw [hafter] at hsome
      cases hsome
      exact hretired
    refine ⟨hleft, ?_, fun _ => ⟨definition, actions, _, hdefinition, hactions, hstored,
      keys_withActions .., ?_, ?_, ?_⟩⟩
    · rcases upgradeRow_cases loads (upgradeRow loads stored) with
        ⟨hagain, -⟩ | ⟨definition', actions', hdefinition', hactions', hchanged', -⟩
      · exact hagain
      · exact absurd (hleft definition' actions' hdefinition' hactions') hchanged'
    · intro key hkey
      rw [lookup_withActions, if_neg hkey]
    · rw [hafter, rewriteActions_eq]
    · intro py rt d hload
      obtain ⟨action, hmem⟩ := exists_rewritten hchanged
      have hflag := acknowledged_of_loaded hafter hmem hload
      rwa [acknowledged, lookup_withActions, if_neg (by decide)] at hflag

end Rows

end QuarantineMigration
