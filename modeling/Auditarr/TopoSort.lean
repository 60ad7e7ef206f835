/-
  Auditarr/TopoSort.lean
  ======================
  **Ordering nodes behind what they require, by depth-first search.**

  The search keeps the nodes it is in the middle of and those it has finished, and
  raises when it comes back to one of the former.  The caller goes on with the next
  node after such an exception, and what the search was in the middle of stays marked.

  A node is finished exactly if no cycle can be reached from it: the marks that an
  exception leaves behind lie on nodes from which one can.  It is finished after the nodes
  that it requires.
-/
import Auditarr.Effects
import Mathlib.Logic.Relation
import Mathlib.Data.List.Nodup

namespace TopoSort

open Effects

universe u

variable {ν : Type u} [DecidableEq ν]

structure Search (ν : Type u) where
  visiting : List ν
  /-- The finished nodes, in the order in which they were finished. -/
  visited : List ν

def Search.mark (s : Search ν) (node : ν) : Search ν := ⟨node :: s.visiting, s.visited⟩

def Search.finish (s : Search ν) (node : ν) : Search ν :=
  ⟨s.visiting.erase node, s.visited ++ [node]⟩

section Search

variable (next : ν → Option (List ν))

/-- Visit a node, what it requires first; `next` is `none` for an unknown node.  The
    fuel bounds the depth of the search. -/
def visit : Nat → List ν → ν → Call (Search ν) (List ν) PUnit.{u + 1}
  | 0, stack, node => Call.raise (stack ++ [node])
  | fuel + 1, stack, node => fun s =>
      if node ∈ s.visited then (.ok ⟨⟩, s)
      else if node ∈ s.visiting then (.error (stack ++ [node]), s)
      else match next node with
        | none => (.ok ⟨⟩, s)
        | some requires =>
            (Call.forEach (visit fuel (stack ++ [node])) requires >>= fun _ =>
              Call.modify fun t => t.finish node) (s.mark node)

/-- Visit the items one after the other, each exception caught. -/
def visitAll (items : List ν) : Call (Search ν) (List ν) PUnit.{u + 1} :=
  Call.forEach
    (fun item => Call.attempt (visit next (items.length + 1) [] item) fun _ => pure ⟨⟩) items

/-- The finished items in order. -/
def topoSort (items : List ν) : List ν := (visitAll next items ⟨[], []⟩).2.visited

/-- `b` is a known node that the known node `a` requires. -/
def Step (a b : ν) : Prop := ∃ requires, next a = some requires ∧ b ∈ requires ∧ next b ≠ none

/-- A cycle can be reached. -/
def Cyclic (a : ν) : Prop :=
  ∃ b, Relation.ReflTransGen (Step next) a b ∧ Relation.TransGen (Step next) b b

/-- No cycle can be reached from a finished node, and none is finished twice. -/
structure Settled (s : Search ν) : Prop where
  acyclic : ∀ v ∈ s.visited, next v ≠ none ∧ ¬Cyclic next v
  nodup : s.visited.Nodup
  apart : ∀ v ∈ s.visiting, v ∉ s.visited

/-- Every node comes after the known nodes that it requires. -/
def Ordered (order : List ν) : Prop :=
  ∀ before v after, order = before ++ v :: after → ∀ w, Step next v w → w ∈ before

end Search

section Correctness

variable {next : ν → Option (List ν)}

omit [DecidableEq ν] in
theorem cyclic_of_step {a b : ν} (hstep : Step next a b) (hb : Cyclic next b) : Cyclic next a := by
  obtain ⟨c, hreach, hcycle⟩ := hb
  exact ⟨c, hreach.head hstep, hcycle⟩

omit [DecidableEq ν] in
theorem Cyclic.step {a : ν} (ha : Cyclic next a) : ∃ b, Step next a b ∧ Cyclic next b := by
  obtain ⟨c, hreach, hcycle⟩ := ha
  rcases Relation.ReflTransGen.cases_head hreach with rfl | ⟨b, hstep, hrest⟩
  · obtain ⟨b, hstep, hback⟩ := Relation.TransGen.head'_iff.mp hcycle
    exact ⟨b, hstep, a, hback, hcycle⟩
  · exact ⟨b, hstep, c, hrest, hcycle⟩

omit [DecidableEq ν] in
theorem Cyclic.known {a : ν} (ha : Cyclic next a) : next a ≠ none := by
  obtain ⟨b, ⟨requires, hrequires, -⟩, -⟩ := ha.step
  simp [hrequires]

/-- What a visit leaves behind when it finishes the node. -/
structure Finished (next : ν → Option (List ν)) (start : Search ν) (nodes : List ν)
    (s : Search ν) : Prop where
  visiting : s.visiting = start.visiting
  settled : Settled next s
  keeps : ∀ v ∈ start.visited, v ∈ s.visited
  finished : ∀ v ∈ nodes, next v ≠ none → v ∈ s.visited

/-- What a visit leaves behind when it raises. -/
structure Stopped (next : ν → Option (List ν)) (start : Search ν) (node : ν) (s : Search ν) :
    Prop where
  cyclic : Cyclic next node
  settled : Settled next s
  keeps : ∀ v ∈ start.visited, v ∈ s.visited
  left : ∀ v ∈ s.visiting, v ∈ start.visiting ∨ Cyclic next v

/-- The marked nodes come before the node, or reach a cycle on their own. -/
def Blocked (next : ν → Option (List ν)) (s : Search ν) (node : ν) : Prop :=
  ∀ v ∈ s.visiting, next v ≠ none ∧
    (next node ≠ none → Cyclic next v ∨ Relation.TransGen (Step next) v node)

variable {known : List ν}

theorem unmarked_lt {visiting : List ν} {node : ν} (hnode : node ∈ known)
    (hfree : node ∉ visiting) :
    (known.filter (· ∉ node :: visiting)).length < (known.filter (· ∉ visiting)).length := by
  have hsplit : known.filter (· ∉ node :: visiting) =
      (known.filter (· ∉ visiting)).filter (· ≠ node) := by
    rw [List.filter_filter]
    apply List.filter_congr
    intro v _
    simp [not_or]
  rw [hsplit]
  apply List.length_filter_lt_length_iff_exists.mpr
  exact ⟨node, List.mem_filter.mpr ⟨hnode, by simpa using hfree⟩, by simp⟩

theorem triple_visit_requires {fuel : Nat} (stack : List ν) {requires : List ν} {node : ν}
    {start : Search ν} (hrequires : next node = some requires)
    (hblocked : Blocked next start node)
    (hfuel : (known.filter (· ∉ (start.mark node).visiting)).length < fuel)
    (hvisit : ∀ (node' : ν) (start' : Search ν), Settled next start' →
      Blocked next start' node' → (known.filter (· ∉ start'.visiting)).length < fuel →
      Ends (fun _ => Finished next start' [node'] (visit next fuel stack node' start').2)
        (fun _ => Stopped next start' node' (visit next fuel stack node' start').2)
        (visit next fuel stack node' start').1) :
    Triple (Finished next (start.mark node) [])
      (Call.forEach (visit next fuel stack) requires)
      (fun _ => Finished next (start.mark node) requires)
      (fun _ => Stopped next start node) := by
  apply Triple.forEach
    (I := fun done => Finished next (start.mark node) done)
  intro done node' rest hsplit s hs
  have hmem : node' ∈ requires := by simp [hsplit]
  have hblocked' : Blocked next s node' := by
    intro v hv
    rw [hs.visiting] at hv
    rcases List.mem_cons.mp hv with rfl | hv
    · exact ⟨by simp [hrequires], fun hknown => .inr (.single ⟨requires, hrequires, hmem, hknown⟩)⟩
    · obtain ⟨hv, hbefore⟩ := hblocked v hv
      refine ⟨hv, fun hknown => (hbefore (by simp [hrequires])).imp_right fun hreach => ?_⟩
      exact hreach.tail ⟨requires, hrequires, hmem, hknown⟩
  refine (hvisit node' s hs.settled hblocked' (by rw [hs.visiting]; exact hfuel)).imp ?_ ?_
  · intro _ h
    constructor
    · rw [h.visiting, hs.visiting]
    · exact h.settled
    · intro v hv
      exact h.keeps v (hs.keeps v hv)
    · intro v hv hknown
      rcases List.mem_append.mp hv with hdone | hlast
      · exact h.keeps v (hs.finished v hdone hknown)
      · exact h.finished v hlast hknown
  · intro _ h
    have hcyclic : Cyclic next node :=
      cyclic_of_step ⟨requires, hrequires, hmem, h.cyclic.known⟩ h.cyclic
    constructor
    · exact hcyclic
    · exact h.settled
    · intro v hv
      exact h.keeps v (hs.keeps v hv)
    · intro v hv
      rcases h.left v hv with hleft | hleft
      · rw [hs.visiting] at hleft
        rcases List.mem_cons.mp hleft with rfl | hold
        · exact .inr hcyclic
        · exact .inl hold
      · exact .inr hleft

theorem visit_spec (hknown : ∀ v, next v ≠ none → v ∈ known) (fuel : Nat) :
    ∀ (stack : List ν) (node : ν) (start : Search ν), Settled next start →
      Blocked next start node → (known.filter (· ∉ start.visiting)).length < fuel →
      Ends (fun _ => Finished next start [node] (visit next fuel stack node start).2)
        (fun _ => Stopped next start node (visit next fuel stack node start).2)
        (visit next fuel stack node start).1 := by
  induction fuel with
  | zero => intro _ _ _ _ _ hfuel; exact absurd hfuel (Nat.not_lt_zero _)
  | succ fuel ih =>
    intro stack node start hsettled hblocked hfuel
    simp only [visit]
    by_cases hvisited : node ∈ start.visited
    · rw [if_pos hvisited]
      exact ⟨rfl, hsettled, fun _ h => h, by simp [hvisited]⟩
    by_cases hvisiting : node ∈ start.visiting
    · rw [if_neg hvisited, if_pos hvisiting]
      -- the search came back to a marked node
      have hcyclic : Cyclic next node := by
        obtain ⟨hnode, hbefore⟩ := hblocked node hvisiting
        rcases hbefore hnode with h | h
        · exact h
        · exact ⟨node, .refl, h⟩
      exact ⟨hcyclic, hsettled, fun _ h => h, fun _ h => .inl h⟩
    rw [if_neg hvisited, if_neg hvisiting]
    cases hrequires : next node with
    | none => exact ⟨rfl, hsettled, fun _ h => h, by simp [hrequires]⟩
    | some requires =>
      have hnode : node ∈ known := hknown node (by simp [hrequires])
      have hfuel' : (known.filter (· ∉ (start.mark node).visiting)).length < fuel :=
        Nat.lt_of_lt_of_le (unmarked_lt hnode hvisiting) (Nat.le_of_lt_succ hfuel)
      have hmarked : Settled next (start.mark node) := by
        refine ⟨hsettled.acyclic, hsettled.nodup, fun v hv => ?_⟩
        rcases List.mem_cons.mp hv with rfl | hold
        · exact hvisited
        · exact hsettled.apart v hold
      have hloop := triple_visit_requires (stack ++ [node]) hrequires hblocked hfuel'
        (ih (stack ++ [node])) (start.mark node) ⟨rfl, hmarked, fun _ h => h, by simp⟩
      dsimp only
      rw [Call.run_bind]
      rcases hrun : Call.forEach (visit next fuel (stack ++ [node])) requires (start.mark node) with
        ⟨e | _, s⟩
      · rw [hrun] at hloop
        exact hloop
      · rw [hrun] at hloop
        replace hloop : Finished next (start.mark node) requires s := hloop
        have hvisit : (s.finish node).visiting = start.visiting := by
          rw [Search.finish, hloop.visiting, Search.mark, List.erase_cons_head]
        have hnew : node ∉ s.visited := by
          apply hloop.settled.apart
          rw [hloop.visiting]
          exact List.mem_cons_self ..
        show Finished next start [node] (s.finish node)
        constructor
        · exact hvisit
        · constructor
          · intro v hv
            rcases List.mem_append.mp hv with hold | hlast
            · exact hloop.settled.acyclic v hold
            · rw [List.mem_singleton.mp hlast]
              refine ⟨by simp [hrequires], fun hcyclic => ?_⟩
              -- the cycle would go on through a required node, which is finished
              obtain ⟨b, ⟨requires', hrequires', hmem, hb⟩, hcycle⟩ := hcyclic.step
              rw [hrequires, Option.some.injEq] at hrequires'
              exact (hloop.settled.acyclic b (hloop.finished b (hrequires' ▸ hmem) hb)).2 hcycle
          · exact List.nodup_append.mpr ⟨hloop.settled.nodup, List.nodup_singleton _, fun a ha b hb =>
              List.mem_singleton.mp hb ▸ fun h => hnew (h ▸ ha)⟩
          · intro v hv hmem
            rw [hvisit] at hv
            rcases List.mem_append.mp hmem with hold | hlast
            · exact hloop.settled.apart v (hloop.visiting ▸ List.mem_cons_of_mem _ hv) hold
            · exact hvisiting (List.mem_singleton.mp hlast ▸ hv)
        · intro v hv
          exact List.mem_append_left _ (hloop.keeps v hv)
        · intro v hv _
          exact List.mem_append_right _ hv

/-- What the whole search comes to. -/
structure Searched (next : ν → Option (List ν)) (done : List ν) (s : Search ν) : Prop where
  settled : Settled next s
  left : ∀ v ∈ s.visiting, Cyclic next v
  reached : ∀ v ∈ done, v ∈ s.visited ∨ Cyclic next v

theorem searched_visitAll {items : List ν} (hknown : ∀ v, next v ≠ none ↔ v ∈ items) :
    Searched next items (visitAll next items ⟨[], []⟩).2 := by
  have hloop : Triple (Searched next []) (visitAll next items)
      (fun _ => Searched next items) (fun _ => Searched next items) := by
    apply Triple.consequence (Triple.forEach (I := Searched next) (E := fun _ _ => False) items ?_)
      (fun _ h => h) (fun _ _ h => h) (fun _ _ h => h.elim)
    intro done item rest hsplit s hs
    have hitem : next item ≠ none := (hknown item).mpr (by simp [hsplit])
    have hblocked : Blocked next s item := fun v hv => ⟨(hs.left v hv).known, fun _ =>
      .inl (hs.left v hv)⟩
    have hvisit := visit_spec (fun v hv => (hknown v).mp hv) (items.length + 1) [] item s
      hs.settled hblocked (Nat.lt_succ_of_le (List.length_filter_le _ _))
    rw [Call.run_attempt]
    rcases hrun : visit next (items.length + 1) [] item s with ⟨e | _, s'⟩
    · rw [hrun] at hvisit
      replace hvisit : Stopped next s item s' := hvisit
      constructor
      · exact hvisit.settled
      · intro v hv
        exact (hvisit.left v hv).elim (hs.left v) id
      · intro v hv
        rcases List.mem_append.mp hv with hdone | hlast
        · exact (hs.reached v hdone).imp_left (hvisit.keeps v)
        · exact .inr (List.mem_singleton.mp hlast ▸ hvisit.cyclic)
    · rw [hrun] at hvisit
      replace hvisit : Finished next s [item] s' := hvisit
      constructor
      · exact hvisit.settled
      · intro v hv
        rw [hvisit.visiting] at hv
        exact hs.left v hv
      · intro v hv
        rcases List.mem_append.mp hv with hdone | hlast
        · exact (hs.reached v hdone).imp_left (hvisit.keeps v)
        · exact .inl (hvisit.finished v hlast (List.mem_singleton.mp hlast ▸ hitem))
  have hends := hloop ⟨[], []⟩ ⟨⟨by simp, List.nodup_nil, by simp⟩, by simp, by simp⟩
  cases hrun : (visitAll next items ⟨[], []⟩).1 with
  | ok _ => rw [hrun] at hends; exact hends
  | error _ => rw [hrun] at hends; exact hends

theorem mem_topoSort {items : List ν} (hknown : ∀ v, next v ≠ none ↔ v ∈ items) {v : ν} :
    v ∈ topoSort next items ↔ v ∈ items ∧ ¬Cyclic next v := by
  have hsearched := searched_visitAll hknown
  constructor
  · intro hv
    obtain ⟨hnode, hacyclic⟩ := hsearched.settled.acyclic v hv
    exact ⟨(hknown v).mp hnode, hacyclic⟩
  · rintro ⟨hv, hacyclic⟩
    exact (hsearched.reached v hv).resolve_right hacyclic

theorem nodup_topoSort {items : List ν} (hknown : ∀ v, next v ≠ none ↔ v ∈ items) :
    (topoSort next items).Nodup :=
  (searched_visitAll hknown).settled.nodup

/-! ### The order -/

omit [DecidableEq ν] in
theorem Ordered.append {order : List ν} {node : ν} (h : Ordered next order)
    (hnode : ∀ w, Step next node w → w ∈ order) : Ordered next (order ++ [node]) := by
  intro before v after hsplit w hstep
  rcases List.eq_nil_or_concat after with rfl | ⟨after', last, rfl⟩
  · obtain ⟨rfl, hlast⟩ := List.append_inj' hsplit rfl
    obtain rfl := List.singleton_inj.mp hlast
    exact hnode w hstep
  · rw [List.concat_eq_append, ← List.cons_append, ← List.append_assoc] at hsplit
    obtain ⟨hinit, -⟩ := List.append_inj' hsplit rfl
    exact h before v after' hinit w hstep

/-- A visit keeps the order, and one that returns has finished its node.  This needs nothing
    of the marks: those that an exception has left make a visit raise, not return early. -/
theorem visit_ordered (fuel : Nat) : ∀ (stack : List ν) (node : ν) (start : Search ν),
    Ordered next start.visited →
      Ends (fun _ => Ordered next (visit next fuel stack node start).2.visited ∧
          start.visited ⊆ (visit next fuel stack node start).2.visited ∧
          (next node ≠ none → node ∈ (visit next fuel stack node start).2.visited))
        (fun _ => Ordered next (visit next fuel stack node start).2.visited)
        (visit next fuel stack node start).1 := by
  induction fuel with
  | zero => intro _ _ _ hordered; exact hordered
  | succ fuel ih =>
    intro stack node start hordered
    simp only [visit]
    by_cases hvisited : node ∈ start.visited
    · rw [if_pos hvisited]
      exact ⟨hordered, List.Subset.refl _, fun _ => hvisited⟩
    by_cases hvisiting : node ∈ start.visiting
    · rw [if_neg hvisited, if_pos hvisiting]
      exact hordered
    rw [if_neg hvisited, if_neg hvisiting]
    cases hrequires : next node with
    | none => exact ⟨hordered, List.Subset.refl _, fun hknown => absurd rfl hknown⟩
    | some requires =>
      have hloop : Triple (fun s => Ordered next s.visited ∧ start.visited ⊆ s.visited ∧
            ∀ v ∈ ([] : List ν), next v ≠ none → v ∈ s.visited)
          (Call.forEach (visit next fuel (stack ++ [node])) requires)
          (fun _ s => Ordered next s.visited ∧ start.visited ⊆ s.visited ∧
            ∀ v ∈ requires, next v ≠ none → v ∈ s.visited)
          (fun _ s => Ordered next s.visited) := by
        apply Triple.forEach (I := fun (done : List ν) (s : Search ν) => Ordered next s.visited ∧
          start.visited ⊆ s.visited ∧ ∀ v ∈ done, next v ≠ none → v ∈ s.visited)
        rintro done required rest - s ⟨hs, hkept, hdone⟩
        refine (ih (stack ++ [node]) required s hs).imp (fun _ h => ?_) fun _ h => h
        obtain ⟨hs', hgrows, hnew⟩ := h
        refine ⟨hs', fun v hv => hgrows (hkept hv), fun v hv hknown => ?_⟩
        rcases List.mem_append.mp hv with hold | hlast
        · exact hgrows (hdone v hold hknown)
        · exact List.mem_singleton.mp hlast ▸ hnew (List.mem_singleton.mp hlast ▸ hknown)
      have hends := hloop (start.mark node) ⟨hordered, List.Subset.refl _, by simp⟩
      dsimp only
      rw [Call.run_bind]
      rcases hrun : Call.forEach (visit next fuel (stack ++ [node])) requires (start.mark node) with
        ⟨e | _, s⟩
      · rw [hrun] at hends
        exact hends
      · rw [hrun] at hends
        obtain ⟨hs, hkept, hdone⟩ := hends
        refine ⟨hs.append fun w hstep => ?_, fun v hv => List.mem_append_left _ (hkept hv), fun _ =>
          List.mem_append_right _ (List.mem_singleton_self node)⟩
        obtain ⟨requires', hrequires', hw, hknown⟩ := hstep
        rw [hrequires, Option.some.injEq] at hrequires'
        exact hdone w (hrequires' ▸ hw) hknown

theorem ordered_topoSort (next : ν → Option (List ν)) (items : List ν) :
    Ordered next (topoSort next items) := by
  have hloop : Triple (fun s => Ordered next s.visited) (visitAll next items)
      (fun _ s => Ordered next s.visited) (fun _ s => Ordered next s.visited) := by
    apply Triple.forEach (I := fun _ (s : Search ν) => Ordered next s.visited)
    intro done item rest _
    apply Triple.attempt (H := fun _ (s : Search ν) => Ordered next s.visited)
    · intro s hs
      exact (visit_ordered (items.length + 1) [] item s hs).imp (fun _ h => h.1) fun _ h => h
    · intro _
      exact triple_pure _ fun _ hs => hs
  refine (hloop ⟨[], []⟩ ?_).of_const
  intro before v after hsplit
  simp at hsplit

end Correctness

end TopoSort
