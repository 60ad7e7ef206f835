/-
  Auditarr/PluginOrder.lean
  =========================
  **The order in which plugins are loaded** (`app/plugins/loader.py`, `_topo_sort`).

  What a plugin needs among the discovered ones does not depend on the order in which they were
  found.  The loader leaves out the plugins from which a cycle can be reached and no others, and
  puts every other one behind what it needs (`ordered_and_complete`).
-/
import Auditarr.PluginRegistry

namespace PluginOrder

open FileTree PosixPath PluginInstall PluginLoader PluginPersistence PluginRegistry

/-! ### What plugins need -/

abbrev Item := Manifest × Loc Chars

/-- A plugin requires another one, and both are present. -/
def Needs (items : List Item) (a b : Item) : Prop :=
  a ∈ items ∧ b ∈ items ∧ b.1.id ∈ a.1.requires

/-- A dependency cycle can be reached from the plugin. -/
def ReachesCycle (items : List Item) (a : Item) : Prop :=
  ∃ b, Relation.ReflTransGen (Needs items) a b ∧ Relation.TransGen (Needs items) b b

/-- The requirements that are present come before the plugin. -/
def Behind (items order : List Item) : Prop :=
  ∀ before item after, order = before ++ item :: after → ∀ other, Needs items item other →
    other ∈ before

section Graph

variable {items : List Item} (hunique : (items.map (·.1.id)).Nodup)

include hunique in
theorem step_iff {a : Item} (ha : a ∈ items) {id : Chars} :
    TopoSort.Step (requiresOf items) a.1.id id ↔ ∃ b, Needs items a b ∧ b.1.id = id := by
  have hself : requiresOf items a.1.id = some a.1.requires := by
    rw [requiresOf, (byId_eq_some hunique).mpr ⟨ha, rfl⟩, Option.map_some]
  constructor
  · rintro ⟨requires, hrequires, hid, hknown⟩
    rw [hself, Option.some.injEq] at hrequires
    obtain ⟨b, hb, rfl⟩ := List.mem_map.mp ((requiresOf_known id).mp hknown)
    exact ⟨b, ⟨ha, hb, hrequires ▸ hid⟩, rfl⟩
  · rintro ⟨b, ⟨-, hb, hid⟩, rfl⟩
    exact ⟨a.1.requires, hself, hid, (requiresOf_known _).mpr (List.mem_map_of_mem hb)⟩

include hunique in
theorem exists_path {a : Item} (ha : a ∈ items) {id : Chars}
    (h : Relation.ReflTransGen (TopoSort.Step (requiresOf items)) a.1.id id) :
    ∃ b ∈ items, b.1.id = id ∧ Relation.ReflTransGen (Needs items) a b := by
  induction h with
  | refl => exact ⟨a, ha, rfl, .refl⟩
  | tail _ hstep ih =>
    obtain ⟨b, hb, rfl, hpath⟩ := ih
    obtain ⟨c, hneeds, rfl⟩ := (step_iff hunique hb).mp hstep
    exact ⟨c, hneeds.2.1, rfl, hpath.tail hneeds⟩

include hunique in
theorem step_of_needs {a b : Item} (h : Needs items a b) :
    TopoSort.Step (requiresOf items) a.1.id b.1.id :=
  (step_iff hunique h.1).mpr ⟨b, h, rfl⟩

include hunique in
theorem cyclic_iff {a : Item} (ha : a ∈ items) :
    TopoSort.Cyclic (requiresOf items) a.1.id ↔ ReachesCycle items a := by
  constructor
  · rintro ⟨id, hreach, hcycle⟩
    obtain ⟨b, hb, rfl, hpath⟩ := exists_path hunique ha hreach
    obtain ⟨id, hfirst, hback⟩ := Relation.TransGen.head'_iff.mp hcycle
    obtain ⟨c, hneeds, rfl⟩ := (step_iff hunique hb).mp hfirst
    obtain ⟨b', hb', hid, hrest⟩ := exists_path hunique hneeds.2.1 hback
    -- the path comes back to the plugin itself, as no other one has its id
    obtain rfl : b' = b := List.inj_on_of_nodup_map hunique hb' hb hid
    exact ⟨b', hpath, Relation.TransGen.head' hneeds hrest⟩
  · rintro ⟨b, hreach, hcycle⟩
    exact ⟨b.1.id, hreach.lift (fun item : Item => item.1.id) fun _ _ => step_of_needs hunique,
      hcycle.lift (fun item : Item => item.1.id) fun _ _ => step_of_needs hunique⟩

/-! ### The order -/

include hunique in
theorem behind_topoSort : Behind items (topoSort items) := by
  intro before item after hsplit other hneeds
  obtain ⟨ids, ids', hids, rfl, hrest⟩ := List.filterMap_eq_append_iff.mp hsplit
  obtain ⟨skipped, id, ids'', hrest', hskipped, hid, -⟩ := List.filterMap_eq_cons_iff.mp hrest
  obtain ⟨hitem, rfl⟩ := (byId_eq_some hunique).mp hid
  rw [hrest', ← List.append_assoc] at hids
  have hbefore : other.1.id ∈ ids ++ skipped :=
    TopoSort.ordered_topoSort (requiresOf items) _ _ _ _ hids _ (step_of_needs hunique hneeds)
  have hother : byId items other.1.id = some other := (byId_eq_some hunique).mpr ⟨hneeds.2.1, rfl⟩
  rcases List.mem_append.mp hbefore with hin | hin
  · exact List.mem_filterMap.mpr ⟨_, hin, hother⟩
  · rw [hskipped _ hin] at hother
    cases hother

/-- Whatever the order in which the plugins are found, each comes at most once and behind what
    it needs, and those that are left out are the ones from which a cycle can be reached. -/
theorem ordered_and_complete (items : List Item) (hunique : (items.map (·.1.id)).Nodup) :
    ((topoSort items).map (·.1.id)).Nodup ∧ Behind items (topoSort items) ∧
      ∀ item, item ∈ topoSort items ↔ item ∈ items ∧ ¬ReachesCycle items item := by
  refine ⟨nodup_ids_topoSort hunique, behind_topoSort hunique, fun item => ?_⟩
  rw [mem_topoSort_iff hunique]
  constructor
  · rintro ⟨hitem, hacyclic⟩
    exact ⟨hitem, fun hcycle => hacyclic ((cyclic_iff hunique hitem).mpr hcycle)⟩
  · rintro ⟨hitem, hacyclic⟩
    exact ⟨hitem, fun hcycle => hacyclic ((cyclic_iff hunique hitem).mp hcycle)⟩

end Graph

/-! ### Three plugins -/

def alpha : Item :=
  ({ id := "alpha".toList
     name := "Alpha"
     version := "1.0.0"
     id_slug := ⟨'a', "lpha".toList, by decide, by simp, by simp, by simp, .inl (by decide)⟩ }, [])

/-- It requires `alpha` and a plugin that is not there. -/
def beta : Item :=
  ({ id := "beta".toList
     name := "Beta"
     version := "1.0.0"
     requires := ["gone".toList, "alpha".toList]
     id_slug := ⟨'b', "eta".toList, by decide, by simp, by simp, by simp, .inl (by decide)⟩ }, [])

/-- It requires itself. -/
def gamma : Item :=
  ({ id := "gamma".toList
     name := "Gamma"
     version := "1.0.0"
     requires := ["alpha".toList, "gamma".toList]
     id_slug := ⟨'g', "amma".toList, by decide, by simp, by simp, by simp, .inl (by decide)⟩ }, [])

example : (topoSort [gamma, beta, alpha]).map (fun item => String.ofList item.1.id) =
    ["alpha", "beta"] := by
  decide

theorem ordered_and_complete_three :
    ((topoSort [gamma, beta, alpha]).map (·.1.id)).Nodup ∧
      Behind [gamma, beta, alpha] (topoSort [gamma, beta, alpha]) ∧
      ∀ item, item ∈ topoSort [gamma, beta, alpha] ↔
        item ∈ [gamma, beta, alpha] ∧ ¬ReachesCycle [gamma, beta, alpha] item :=
  ordered_and_complete [gamma, beta, alpha] (by decide)

end PluginOrder
