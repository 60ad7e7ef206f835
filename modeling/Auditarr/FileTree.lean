/-
  Auditarr/FileTree.lean
  ======================
  **Directory trees.**

  A location is the list of names from a node up to the root, the node's own name
  first, so that the directory of `name :: loc` is `loc` and everything below a
  directory has its location as a suffix.  A tree maps locations to directories and
  files; that every node lies in a directory is part of the type.
-/
import Mathlib.Data.List.Infix
import Mathlib.Logic.Function.Basic

namespace FileTree

universe u v

inductive Node (β : Type v) where
  | dir
  | file (content : β)
deriving DecidableEq

/-- The names from a node up to the root. -/
abbrev Loc (ν : Type u) := List ν

structure Tree (ν : Type u) (β : Type v) where
  node : Loc ν → Option (Node β)
  root : node [] = some .dir
  parent : ∀ name loc, node (name :: loc) ≠ none → node loc = some .dir

section Trees

variable {ν : Type u} {β : Type v}

@[ext] theorem Tree.ext {t t' : Tree ν β} (h : ∀ loc, t.node loc = t'.node loc) : t = t' := by
  cases t
  cases t'
  obtain rfl := funext h
  rfl

theorem Tree.ancestor {t : Tree ν β} {above loc : Loc ν} (hnode : t.node loc ≠ none)
    (habove : above <:+ loc) (hne : above ≠ loc) : t.node above = some .dir := by
  induction loc with
  | nil => exact absurd (List.suffix_nil.mp habove) hne
  | cons name rest ih =>
    have hrest := t.parent name rest hnode
    rcases List.suffix_cons_iff.mp habove with hself | hup
    · exact absurd hself hne
    · by_cases hsame : above = rest
      · rw [hsame, hrest]
      · exact ih (by simp [hrest]) hup hsame

theorem Tree.absent_below {t : Tree ν β} {loc below : Loc ν} (hnone : t.node loc = none)
    (hbelow : loc <:+ below) : t.node below = none := by
  by_contra hsome
  by_cases hsame : loc = below
  · rw [hsame] at hnone
    exact hsome hnone
  · rw [Tree.ancestor hsome hbelow hsame] at hnone
    cases hnone

theorem Tree.not_below_file {t : Tree ν β} {loc below : Loc ν} {c : β} (hfile : t.node loc = some (.file c))
    (hbelow : loc <:+ below) (hne : loc ≠ below) : t.node below = none := by
  by_contra hnode
  rw [Tree.ancestor hnode hbelow hne] at hfile
  cases hfile

theorem Tree.suffix_of_missing {t : Tree ν β} {above missing loc : Loc ν}
    (habove : t.node above ≠ none) (hmissing : t.node missing = none) (hloc : above <:+ loc)
    (hon : missing <:+ loc) : above <:+ missing := by
  rcases List.suffix_or_suffix_of_suffix hloc hon with h | h
  · exact h
  · exact absurd (Tree.absent_below hmissing h) habove

/-- Going up from a location, the first node met is a directory. -/
def Tree.anchored (t : Tree ν β) : Loc ν → Bool
  | [] => true
  | name :: loc => match t.node (name :: loc) with
    | some .dir => true
    | some (.file _) => false
    | none => t.anchored loc

/-- A tree with nothing in it. -/
def Tree.bare : Tree ν β where
  node
    | [] => some .dir
    | _ => none
  root := rfl
  parent _ _ hnode := absurd rfl hnode

variable [DecidableEq ν]

/-! ### Changes -/

/-- A new directory. -/
def Tree.addDir (t : Tree ν β) (name : ν) (loc : Loc ν) (hparent : t.node loc = some .dir) :
    Tree ν β where
  node := Function.update t.node (name :: loc) (some .dir)
  root := by rw [Function.update_of_ne (by simp), t.root]
  parent name' loc' hnode := by
    by_cases hself : loc' = name :: loc
    · rw [hself, Function.update_self]
    · rw [Function.update_of_ne hself]
      by_cases hnew : name' :: loc' = name :: loc
      · rw [(List.cons.inj hnew).2, hparent]
      · rw [Function.update_of_ne hnew] at hnode
        exact t.parent name' loc' hnode

/-- A file with new content, where there is no directory. -/
def Tree.putFile (t : Tree ν β) (name : ν) (loc : Loc ν) (content : β)
    (hparent : t.node loc = some .dir) (hfile : t.node (name :: loc) ≠ some .dir) : Tree ν β where
  node := Function.update t.node (name :: loc) (some (.file content))
  root := by rw [Function.update_of_ne (by simp), t.root]
  parent name' loc' hnode := by
    by_cases hnew : name' :: loc' = name :: loc
    · rw [(List.cons.inj hnew).2, Function.update_of_ne (by simp), hparent]
    · rw [Function.update_of_ne hnew] at hnode
      have hdir := t.parent name' loc' hnode
      by_cases hself : loc' = name :: loc
      · rw [hself] at hdir
        exact absurd hdir hfile
      · rw [Function.update_of_ne hself, hdir]

/-- Everything at and below a location removed. -/
def Tree.removeTree (t : Tree ν β) (name : ν) (loc : Loc ν) : Tree ν β where
  node below := if name :: loc <:+ below then none else t.node below
  root := by rw [if_neg (by simp), t.root]
  parent name' loc' hnode := by
    by_cases hbelow : name :: loc <:+ name' :: loc'
    · rw [if_pos hbelow] at hnode
      exact absurd rfl hnode
    · have hup : ¬ name :: loc <:+ loc' := fun h => hbelow (h.trans (List.suffix_cons _ _))
      rw [if_neg hbelow] at hnode
      rw [if_neg hup, t.parent name' loc' hnode]

/-- Everything at and below several locations removed, one after the other. -/
def Tree.removeTrees (t : Tree ν β) (locs : List (ν × Loc ν)) : Tree ν β :=
  locs.foldl (fun t loc => t.removeTree loc.1 loc.2) t

@[simp] theorem addDir_node (t : Tree ν β) (name : ν) (loc : Loc ν)
    (hparent : t.node loc = some .dir) :
    (t.addDir name loc hparent).node = Function.update t.node (name :: loc) (some .dir) := rfl

@[simp] theorem putFile_node (t : Tree ν β) (name : ν) (loc : Loc ν) (content : β)
    (hparent : t.node loc = some .dir) (hfile : t.node (name :: loc) ≠ some .dir) :
    (t.putFile name loc content hparent hfile).node =
      Function.update t.node (name :: loc) (some (.file content)) := rfl

/-- The directory at a location, with those above it that are missing; `none` if a file is in
    the way. -/
def Tree.mkdirs (t : Tree ν β) : (loc : Loc ν) → Option {t' : Tree ν β // t'.node loc = some .dir}
  | [] => some ⟨t, t.root⟩
  | name :: up => match h : t.node (name :: up) with
    | some .dir => some ⟨t, h⟩
    | some (.file _) => none
    | none => (t.mkdirs up).map fun made =>
        ⟨made.1.addDir name up made.2, by rw [addDir_node, Function.update_self]⟩

/-- What is at and below a location is at and below another one instead. -/
def Tree.moveTree (t : Tree ν β) (src : Loc ν) (name : ν) (loc : Loc ν) (hsrc : src ≠ [])
    (hparent : t.node loc = some .dir) (hout : ¬ src <:+ name :: loc) : Tree ν β where
  node other :=
    if name :: loc <:+ other then t.node (other.take (other.length - (name :: loc).length) ++ src)
    else if src <:+ other then none else t.node other
  root := by rw [if_neg (by simp), if_neg (by simpa using hsrc), t.root]
  parent name' loc' hnode := by
    by_cases hbelow : name :: loc <:+ loc'
    · obtain ⟨inner, rfl⟩ := hbelow
      have hinner : name :: loc <:+ name' :: (inner ++ name :: loc) := ⟨name' :: inner, rfl⟩
      rw [if_pos hinner] at hnode
      rw [if_pos (List.suffix_append ..)]
      simp only [List.length_cons, List.length_append, List.take_succ_cons, List.cons_append,
        show inner.length + (loc.length + 1) + 1 - (loc.length + 1) = inner.length + 1 by omega,
        show inner.length + (loc.length + 1) - (loc.length + 1) = inner.length by omega] at hnode ⊢
      exact t.parent name' _ hnode
    · rw [if_neg hbelow]
      by_cases hself : name :: loc <:+ name' :: loc'
      · have hloc : loc' = loc := by
          rcases List.suffix_cons_iff.mp hself with heq | hup
          · exact (List.cons.inj heq).2.symm
          · exact absurd hup hbelow
        rw [hloc, if_neg fun h => hout (h.trans (List.suffix_cons name loc)), hparent]
      · rw [if_neg hself] at hnode
        by_cases hon : src <:+ name' :: loc'
        · rw [if_pos hon] at hnode
          exact absurd rfl hnode
        · rw [if_neg hon] at hnode
          rw [if_neg fun h => hon (h.trans (List.suffix_cons name' loc')), t.parent name' loc' hnode]

theorem mkdirs_node {t : Tree ν β} {loc : Loc ν} {made : {t' : Tree ν β // t'.node loc = some .dir}}
    (h : t.mkdirs loc = some made) (other : Loc ν) : made.1.node other = t.node other ∨
      t.node other = none ∧ other <:+ loc ∧ made.1.node other = some .dir := by
  induction loc with
  | nil =>
    cases h
    exact .inl rfl
  | cons name up ih =>
    unfold Tree.mkdirs at h
    split at h
    · cases h
      exact .inl rfl
    · cases h
    · rename_i hmissing
      obtain ⟨above, habove, rfl⟩ := Option.map_eq_some_iff.mp h
      rw [addDir_node]
      by_cases hself : other = name :: up
      · rw [hself, Function.update_self]
        exact .inr ⟨hmissing, List.suffix_rfl, rfl⟩
      · rw [Function.update_of_ne hself]
        rcases ih habove with hsame | ⟨hnone, hon, hdir⟩
        · exact .inl hsame
        · exact .inr ⟨hnone, hon.trans (List.suffix_cons name up), hdir⟩

/-- A file that is moved is at its new location, nothing is where it was, and the rest is as
    before, unless there was a directory at the new location. -/
theorem moveTree_node_of_file {t : Tree ν β} {src : Loc ν} {name : ν} {loc : Loc ν} {c : β} (hsrc : src ≠ [])
    (hparent : t.node loc = some .dir) (hout : ¬ src <:+ name :: loc)
    (hfile : t.node src = some (.file c)) (hdir : t.node (name :: loc) ≠ some .dir) (other : Loc ν) :
    (t.moveTree src name loc hsrc hparent hout).node other =
      if other = name :: loc then some (.file c) else if other = src then none else t.node other := by
  show (if name :: loc <:+ other then t.node (other.take (other.length - (name :: loc).length) ++ src)
    else if src <:+ other then none else t.node other) = _
  by_cases hnew : other = name :: loc
  · subst hnew
    rw [if_pos List.suffix_rfl, if_pos rfl, Nat.sub_self, List.take_zero, List.nil_append, hfile]
  · rw [if_neg hnew]
    by_cases hbelow : name :: loc <:+ other
    · obtain ⟨inner, rfl⟩ := hbelow
      have hinner : inner ≠ [] := by
        rintro rfl
        exact hnew rfl
      have hne : src ≠ inner ++ src := by
        intro heq
        exact hinner (List.self_eq_append_left.mp heq)
      rw [if_pos (List.suffix_append ..), List.length_append, Nat.add_sub_cancel, List.take_left,
        Tree.not_below_file hfile (List.suffix_append ..) hne]
      -- nothing was below the new location either
      have hnone : t.node (inner ++ name :: loc) = none := by
        by_contra hnode
        exact hdir (Tree.ancestor hnode (List.suffix_append ..) (Ne.symm hnew))
      rw [hnone, ite_self]
    · rw [if_neg hbelow]
      by_cases hself : other = src
      · rw [if_pos (hself ▸ List.suffix_rfl), if_pos hself]
      · rw [if_neg hself]
        split
        · rename_i hon
          exact (Tree.not_below_file hfile hon (Ne.symm hself)).symm
        · rfl

theorem removeTrees_node_of_none {t : Tree ν β} {locs : List (ν × Loc ν)} {loc : Loc ν}
    (h : t.node loc = none) : (t.removeTrees locs).node loc = none := by
  induction locs generalizing t with
  | nil => exact h
  | cons first rest ih =>
    apply ih
    show (if first.1 :: first.2 <:+ loc then none else t.node loc) = none
    rw [h, ite_self]

theorem removeTrees_node_of_mem {t : Tree ν β} {locs : List (ν × Loc ν)} {below : Loc ν}
    {loc : ν × Loc ν} (hloc : loc ∈ locs) (hbelow : loc.1 :: loc.2 <:+ below) :
    (t.removeTrees locs).node below = none := by
  induction locs generalizing t with
  | nil => cases hloc
  | cons first rest ih =>
    rcases List.mem_cons.mp hloc with hfirst | hrest
    · rw [hfirst] at hbelow
      have hgone : (t.removeTree first.1 first.2).node below = none := if_pos hbelow
      exact removeTrees_node_of_none (t := t.removeTree first.1 first.2) hgone
    · exact ih hrest

theorem removeTrees_node_of_forall {t : Tree ν β} {locs : List (ν × Loc ν)} {other : Loc ν}
    (h : ∀ loc ∈ locs, ¬ loc.1 :: loc.2 <:+ other) :
    (t.removeTrees locs).node other = t.node other := by
  induction locs generalizing t with
  | nil => rfl
  | cons first rest ih =>
    refine (ih fun loc hloc => h loc (List.mem_cons_of_mem _ hloc)).trans ?_
    exact if_neg (h first (List.mem_cons_self ..))

theorem removeTree_eq {t t' : Tree ν β} {name : ν} {loc : Loc ν}
    (hmissing : t.node (name :: loc) = none)
    (hsame : ∀ other, ¬ name :: loc <:+ other → t'.node other = t.node other) :
    t'.removeTree name loc = t := by
  ext1 other
  by_cases hbelow : name :: loc <:+ other
  · show (if name :: loc <:+ other then none else t'.node other) = t.node other
    rw [if_pos hbelow, Tree.absent_below hmissing hbelow]
  · show (if name :: loc <:+ other then none else t'.node other) = t.node other
    rw [if_neg hbelow, hsame other hbelow]

end Trees

end FileTree
