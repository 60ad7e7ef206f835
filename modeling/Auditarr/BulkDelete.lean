/-
  Auditarr/BulkDelete.lean
  ========================
  **What a batch of deletions leaves in the trash.**

  Every file that is moved is where it is reported to be, with its content, iff no file has
  the relative path of an earlier one of the batch, or one that is a directory on the way to
  an earlier one.
-/
import Auditarr.MediaDelete

namespace MediaDelete

open FileTree PosixPath

variable {β : Type}

/-! ### Where a file goes -/

/-- Where the path of a row leads. -/
def MediaRow.src (row : MediaRow) : Loc Chars := (parse row.path).locate

/-- Where a row goes, seen from the bucket. -/
def MediaRow.place (row : MediaRow) : Loc Chars := (segments row.relativePath).reverse

section Places

variable {bucket : PosixPath} {row : MediaRow}

theorem relativePath_ne_nil (row : MediaRow) : row.relativePath ≠ [] := by
  intro hnil
  have hnamed := row.named
  rw [hnil] at hnamed
  exact hnamed (by decide)

theorem destination_eq (bucket : PosixPath) (row : MediaRow) :
    destination bucket row = bucket.join row.relativePath := by
  rw [destination, if_neg (relativePath_ne_nil row)]

theorem destination_locate : (destination bucket row).locate = row.place ++ bucket.locate := by
  rw [destination_eq, locate_join row.relative row.inside]
  rfl

theorem place_ne_nil (row : MediaRow) : row.place ≠ [] := by
  rw [MediaRow.place, Ne, List.reverse_eq_nil_iff]
  exact row.named

theorem destination_parent : (destination bucket row).parent.locate = row.place.tail ++ bucket.locate := by
  have hinside : dotdot ∉ (segments row.relativePath).dropLast := fun h =>
    row.inside (List.dropLast_subset _ h)
  have hparts : (destination bucket row).parent.parts =
      bucket.parts ++ (segments row.relativePath).dropLast := by
    rw [destination_eq]
    show (bucket.join row.relativePath).parts.dropLast = _
    rw [(parts_join row.relative).2, List.dropLast_append_of_ne_nil row.named]
  rw [locate, hparts, List.foldl_append, foldl_locate hinside, MediaRow.place, List.tail_reverse]
  rfl

theorem destination_inj {row row' : MediaRow} (h : row.place = row'.place) :
    destination bucket row = destination bucket row' := by
  obtain ⟨hroot, hparts⟩ := parts_join (p := bucket) row.relative
  obtain ⟨hroot', hparts'⟩ := parts_join (p := bucket) row'.relative
  rw [destination_eq, destination_eq, PosixPath.mk.injEq, hroot, hroot', hparts, hparts',
    List.reverse_injective h]
  exact ⟨rfl, rfl⟩

theorem suffix_join_name (dst : PosixPath) (row : MediaRow) :
    dst.locate <:+ (dst.join (parse row.path).name).locate := by
  have hslash := slash_notMem_name (parse row.path)
  have hhead : (parse row.path).name.head? ≠ some '/' := fun h => hslash (List.mem_of_head? h)
  have hplain : dotdot ∉ segments (parse row.path).name := by
    rw [segments, splitSlash_plain hslash]
    intro h
    exact row.filename (List.mem_singleton.mp (List.mem_filter.mp h).1).symm
  rw [locate_join hhead hplain]
  exact List.suffix_append ..

end Places

/-! ### One row -/

section Steps

variable {env : Env}

/-- What is reported of a row. -/
def MediaRow.result (row : MediaRow) (trashPath : Option PosixPath) : DeleteResult where
  mediaId := row.id
  path := row.path
  removedFromDisk := trashPath.isSome
  trashPath := trashPath.map render

theorem rename_cases {src dst : Loc Chars} {t t' : Tree Chars β} (h : rename src dst t = .ok t') :
    src = dst ∧ t' = t ∨ ∃ name loc hsrc hparent hout, dst = name :: loc ∧
      t' = t.moveTree src name loc hsrc hparent hout := by
  unfold rename at h
  split at h
  · split at h
    · rename_i hsame
      cases h
      exact .inl ⟨hsame, rfl⟩
    · cases h
  · split at h
    · cases h
    · split at h
      · split at h
        · cases h
        · cases h
          exact .inr ⟨_, _, _, _, _, rfl, rfl⟩
      · cases h

theorem shutilMove_cases {src dst : PosixPath} {t t' : Tree Chars β} (h : shutilMove src dst t = .ok t') :
    src.locate = dst.locate ∨ ∃ target, (target = dst.locate ∧ t.node dst.locate ≠ some .dir ∨
        target = (dst.join src.name).locate ∧ t.node dst.locate = some .dir ∧ t.node target = none) ∧
      rename src.locate target t = .ok t' := by
  unfold shutilMove at h
  split at h
  · rename_i hinto
    split at h
    · rename_i hsame
      exact .inl hsame
    · dsimp only at h
      split at h
      · cases h
      · rename_i hmissing
        exact .inr ⟨_, .inr ⟨rfl, isDir_iff.mp hinto, by simpa using hmissing⟩, h⟩
  · rename_i hother
    exact .inr ⟨_, .inl ⟨rfl, fun hdir => hother (isDir_iff.mpr hdir)⟩, h⟩

theorem deleteRecord_cases {row : MediaRow} {t t' : Tree Chars β} {result : DeleteResult}
    (h : deleteRecord env true (some env.bucket) row t = .ok (result, t')) :
    t.node row.src = none ∧ result = row.result none ∧ t' = t ∨
    t.node row.src ≠ none ∧ result = row.result (some (destination env.bucket row)) ∧
      ∃ made, t.mkdirs (destination env.bucket row).parent.locate = some made ∧
        shutilMove (parse row.path) (destination env.bucket row) made.1 = .ok t' := by
  unfold deleteRecord at h
  split at h
  · cases h
  · by_cases hsrc : t.node row.src = none
    · have hmove : moveToTrash env (some env.bucket) row t = .ok (none, t) := by
        show (if (t.node row.src).isNone then _ else _) = _
        rw [hsrc]
        rfl
      rw [if_pos rfl, hmove] at h
      cases h
      exact .inl ⟨hsrc, rfl, rfl⟩
    · have hmove : moveToTrash env (some env.bucket) row t =
          match t.mkdirs (destination env.bucket row).parent.locate with
          | none => .error notADirectory
          | some made => do
              let moved ← shutilMove (parse row.path) (destination env.bucket row) made.1
              return (some (destination env.bucket row), moved) := by
        show (if (t.node row.src).isNone then _ else _) = _
        rw [if_neg (by simpa using hsrc)]
        cases t.mkdirs (destination env.bucket row).parent.locate <;> rfl
      rw [if_pos rfl, hmove] at h
      split at h
      · cases h
      · rename_i made hmade
        cases hmoved : shutilMove (parse row.path) (destination env.bucket row) made.1 with
        | error text =>
          rw [hmoved] at h
          cases h
        | ok moved =>
          rw [hmoved] at h
          cases h
          exact .inr ⟨hsrc, rfl, made, hmade, hmoved⟩

/-- Where a row goes. -/
def Env.target (env : Env) (row : MediaRow) : Loc Chars := row.place ++ env.bucket.locate

variable {row : MediaRow} {t t' : Tree Chars β}

theorem moved_cases (hout : ¬ env.bucket.locate <:+ row.src)
    (h : shutilMove (parse row.path) (destination env.bucket row) t = .ok t') :
    ∃ name loc hsrc hparent hapart, env.target row <:+ name :: loc ∧
      (t.node (env.target row) ≠ some .dir → name :: loc = env.target row) ∧
      t.node (name :: loc) ≠ some .dir ∧ t' = t.moveTree row.src name loc hsrc hparent hapart := by
  have hdst : (destination env.bucket row).locate = env.target row := destination_locate
  have hbelow : env.bucket.locate <:+ env.target row := List.suffix_append ..
  rcases shutilMove_cases h with hsame | ⟨target, hat, hrename⟩
  · rw [hdst] at hsame
    rw [MediaRow.src, hsame] at hout
    exact absurd hbelow hout
  · rw [hdst] at hat
    have htarget : env.target row <:+ target := by
      rcases hat with ⟨rfl, -⟩ | ⟨rfl, -⟩
      · exact List.suffix_rfl
      · exact hdst ▸ suffix_join_name (destination env.bucket row) row
    rcases rename_cases hrename with ⟨hsame, -⟩ | ⟨name, loc, hsrc, hparent, hapart, rfl, rfl⟩
    · rw [MediaRow.src, hsame] at hout
      exact absurd (hbelow.trans htarget) hout
    · refine ⟨name, loc, hsrc, hparent, hapart, htarget, fun hnone => ?_, ?_, rfl⟩
      · rcases hat with ⟨heq, -⟩ | ⟨-, hdir, -⟩
        · exact heq
        · exact absurd hdir hnone
      · rcases hat with ⟨heq, hother⟩ | ⟨-, -, hmissing⟩
        · rw [heq]
          exact hother
        · simp [hmissing]

/-- A file has been moved: it is at or below its target, at it unless that is a directory; what
    else is new are directories on the way to it. -/
structure Lands (env : Env) (row : MediaRow) (c : β) (t t' : Tree Chars β) (target : Loc Chars) : Prop where
  source : t.node row.src = some (.file c)
  below : env.target row <:+ target
  at_target : t.node (env.target row) ≠ some .dir → target = env.target row
  free : t.node target ≠ some .dir
  there : t'.node target = some (.file c)
  gone : t'.node row.src = none
  others : ∀ other, other ≠ target → other ≠ row.src → t'.node other = t.node other ∨
    t.node other = none ∧ other <:+ env.target row ∧ t'.node other = some .dir

theorem exists_lands {c : β} (hout : ¬ env.bucket.locate <:+ row.src) (hfile : t.node row.src = some (.file c))
    {made : {m : Tree Chars β // m.node (destination env.bucket row).parent.locate = some .dir}}
    (hmade : t.mkdirs (destination env.bucket row).parent.locate = some made)
    (h : shutilMove (parse row.path) (destination env.bucket row) made.1 = .ok t') :
    ∃ target, Lands env row c t t' target := by
  have hparents : ∀ other, made.1.node other = t.node other ∨ t.node other = none ∧
      other <:+ row.place.tail ++ env.bucket.locate ∧ made.1.node other = some .dir := by
    rw [← destination_parent]
    exact mkdirs_node hmade
  have hup : row.place.tail ++ env.bucket.locate <:+ env.target row :=
    (List.suffix_append_self_iff ..).mpr (List.tail_suffix _)
  have hkept : made.1.node row.src = some (.file c) := by
    rcases hparents row.src with hsame | ⟨hnone, -⟩
    · rw [hsame, hfile]
    · rw [hfile] at hnone
      cases hnone
  have htarget : made.1.node (env.target row) = t.node (env.target row) := by
    rcases hparents (env.target row) with hsame | ⟨-, hon, -⟩
    · exact hsame
    · have hlen := hon.length_le
      have hpos := List.length_pos_iff.mpr (place_ne_nil row)
      simp only [Env.target, List.length_append, List.length_tail] at hlen
      omega
  obtain ⟨name, loc, hsrc, hparent, hapart, hon, hat, hdir, rfl⟩ := moved_cases hout h
  rw [htarget] at hat
  have hnode := moveTree_node_of_file hsrc hparent hapart hkept hdir
  have hne : row.src ≠ name :: loc := fun heq => hapart (heq ▸ List.suffix_rfl)
  refine ⟨name :: loc, hfile, hon, hat, fun hwas => ?_, ?_, ?_, fun other hnew hself => ?_⟩
  · rcases hparents (name :: loc) with hsame | ⟨hnone, -⟩
    · exact hdir (hsame.trans hwas)
    · rw [hwas] at hnone
      cases hnone
  · rw [hnode, if_pos rfl]
  · rw [hnode, if_neg hne, if_pos rfl]
  · rw [hnode, if_neg hnew, if_neg hself]
    rcases hparents other with hsame | ⟨hnone, hway, hmadeDir⟩
    · exact .inl hsame
    · exact .inr ⟨hnone, hway.trans hup, hmadeDir⟩

theorem Lands.dir_kept {c : β} {target loc : Loc Chars} (h : Lands env row c t t' target)
    (hdir : t.node loc = some .dir) : t'.node loc = some .dir := by
  have hnew : loc ≠ target := by
    rintro rfl
    exact h.free hdir
  have hself : loc ≠ row.src := by
    rintro rfl
    rw [h.source] at hdir
    cases hdir
  rcases h.others loc hnew hself with hsame | ⟨-, -, hmade⟩
  · rw [hsame, hdir]
  · exact hmade

theorem Lands.file_kept {c c' : β} {target loc : Loc Chars} (h : Lands env row c t t' target)
    (hout : ¬ env.bucket.locate <:+ row.src) (hbelow : env.bucket.locate <:+ loc)
    (hfile : t.node loc = some (.file c')) (hne : loc ≠ target) : t'.node loc = some (.file c') := by
  have hself : loc ≠ row.src := by
    rintro rfl
    exact hout hbelow
  rcases h.others loc hne hself with hsame | ⟨hnone, -⟩
  · rw [hsame, hfile]
  · rw [hfile] at hnone
    cases hnone

theorem Lands.outside {c : β} {target other : Loc Chars} (h : Lands env row c t t' target)
    (hbucket : t.node env.bucket.locate = some .dir) (hout : ¬ env.bucket.locate <:+ other)
    (hself : other ≠ row.src) : t'.node other = t.node other := by
  have hbelow : env.bucket.locate <:+ env.target row := List.suffix_append ..
  have hnew : other ≠ target := by
    rintro rfl
    exact hout (hbelow.trans h.below)
  rcases h.others other hnew hself with hsame | ⟨hnone, hway, -⟩
  · exact hsame
  · exfalso
    rcases List.suffix_or_suffix_of_suffix hway hbelow with habove | hin
    · rw [Tree.absent_below hnone habove] at hbucket
      cases hbucket
    · exact hout hin

end Steps

/-! ### The batch -/

section Batch

variable {env : Env}

/-- The rows that are moved: of those of one path the first, where there is something. -/
def movedRows (t : Tree Chars β) : List MediaRow → List MediaRow
  | [] => []
  | row :: rest =>
      if (t.node row.src).isNone then movedRows t rest
      else row :: (movedRows t rest).filter fun other => other.src ≠ row.src

/-- The rows have no node in the bucket, and directories only above it. -/
structure Ready (env : Env) (t : Tree Chars β) (rows : List MediaRow) : Prop where
  bucket : t.node env.bucket.locate = some .dir
  outside : ∀ row ∈ rows, ¬ env.bucket.locate <:+ row.src
  files : ∀ row ∈ rows, t.node row.src = some .dir → row.src <:+ env.bucket.locate

variable {row : MediaRow} {rows rest : List MediaRow} {t t' t₁ : Tree Chars β} {result : DeleteResult}
  {results : List DeleteResult}

theorem Ready.tail (hready : Ready env t (row :: rest)) : Ready env t rest where
  bucket := hready.bucket
  outside other hmem := hready.outside other (List.mem_cons_of_mem _ hmem)
  files other hmem := hready.files other (List.mem_cons_of_mem _ hmem)

theorem Ready.step (hready : Ready env t (row :: rest))
    (h : deleteRecord env true (some env.bucket) row t = .ok (result, t')) :
    t.node row.src = none ∧ result = row.result none ∧ t' = t ∨
    result = row.result (some (destination env.bucket row)) ∧ ∃ c target, Lands env row c t t' target := by
  have hout := hready.outside row (List.mem_cons_self ..)
  rcases deleteRecord_cases h with hkept | ⟨hsrc, hresult, made, hmade, hmove⟩
  · exact .inl hkept
  · refine .inr ⟨hresult, ?_⟩
    rcases hnode : t.node row.src with _ | _ | c
    · exact absurd hnode hsrc
    · obtain ⟨name, loc, -, -, hapart, hon, -⟩ := moved_cases hout hmove
      have habove := hready.files row (List.mem_cons_self ..) hnode
      exact absurd (habove.trans ((List.suffix_append ..).trans hon)) hapart
    · obtain ⟨target, hlands⟩ := exists_lands hout hnode hmade hmove
      exact ⟨c, target, hlands⟩

theorem Ready.next {c : β} {target : Loc Chars} (hready : Ready env t (row :: rest))
    (hlands : Lands env row c t t' target) : Ready env t' rest where
  bucket := hlands.dir_kept hready.bucket
  outside := hready.tail.outside
  files other hmem hdir := by
    by_cases hself : other.src = row.src
    · rw [hself, hlands.gone] at hdir
      cases hdir
    · rw [hlands.outside hready.bucket (hready.tail.outside other hmem) hself] at hdir
      exact hready.tail.files other hmem hdir

theorem deleteRecords_cons
    (h : deleteRecords env true (some env.bucket) (row :: rest) t = .ok (results, t')) :
    ∃ result t₁ later, deleteRecord env true (some env.bucket) row t = .ok (result, t₁) ∧
      deleteRecords env true (some env.bucket) rest t₁ = .ok (later, t') ∧ results = result :: later := by
  cases hrow : deleteRecord env true (some env.bucket) row t with
  | error text =>
    simp only [deleteRecords, hrow] at h
    cases h
  | ok first =>
    cases hrest : deleteRecords env true (some env.bucket) rest first.2 with
    | error text =>
      simp only [deleteRecords, hrow, bind, Except.bind, hrest] at h
      cases h
    | ok later =>
      simp only [deleteRecords, hrow, bind, Except.bind, hrest] at h
      cases h
      exact ⟨first.1, first.2, later.1, rfl, hrest, rfl⟩

theorem movedRows_of_none (hnone : t.node row.src = none) : movedRows t (row :: rest) = movedRows t rest := by
  rw [movedRows, if_pos (by simp [hnone])]

theorem mem_movedRows (h : row ∈ movedRows t rows) : row ∈ rows ∧ t.node row.src ≠ none := by
  induction rows with
  | nil => cases h
  | cons first rest ih =>
    by_cases hfirst : t.node first.src = none
    · rw [movedRows_of_none hfirst] at h
      exact ⟨List.mem_cons_of_mem _ (ih h).1, (ih h).2⟩
    · rw [movedRows, if_neg (by simpa using hfirst)] at h
      rcases List.mem_cons.mp h with rfl | hrest
      · exact ⟨List.mem_cons_self .., hfirst⟩
      · have hlater := ih (List.mem_filter.mp hrest).1
        exact ⟨List.mem_cons_of_mem _ hlater.1, hlater.2⟩

theorem movedRows_filter {src : Loc Chars} (hgone : t'.node src = none)
    (hothers : ∀ row ∈ rows, row.src ≠ src → t'.node row.src = t.node row.src) :
    movedRows t' rows = (movedRows t rows).filter fun row => row.src ≠ src := by
  induction rows with
  | nil => rfl
  | cons row rest ih =>
    have hrest := ih fun other hmem => hothers other (List.mem_cons_of_mem _ hmem)
    by_cases hself : row.src = src
    · rw [movedRows_of_none (hself ▸ hgone), hrest]
      by_cases hnone : t.node row.src = none
      · rw [movedRows_of_none hnone]
      · rw [movedRows, if_neg (by simpa using hnone), List.filter_cons_of_neg (by simpa using hself),
          List.filter_filter, hself]
        simp
    · have hsame := hothers row (List.mem_cons_self ..) hself
      by_cases hnone : t.node row.src = none
      · rw [movedRows_of_none hnone, movedRows_of_none (hsame.trans hnone), hrest]
      · rw [movedRows, movedRows, if_neg (by simpa [hsame] using hnone), if_neg (by simpa using hnone),
          List.filter_cons_of_pos (by simpa using hself), hrest, List.filter_comm]

theorem movedRows_congr (h : ∀ row ∈ rows, t'.node row.src = t.node row.src) :
    movedRows t' rows = movedRows t rows := by
  induction rows with
  | nil => rfl
  | cons row rest ih =>
    rw [movedRows, movedRows, h row (List.mem_cons_self ..), ih fun other hmem => h other (List.mem_cons_of_mem _ hmem)]

theorem movedRows_step {c : β} {target : Loc Chars} (hready : Ready env t (row :: rest))
    (hlands : Lands env row c t t' target) : movedRows t (row :: rest) = row :: movedRows t' rest := by
  rw [movedRows, if_neg (by simp [hlands.source]), movedRows_filter hlands.gone fun other hmem hself =>
    hlands.outside hready.bucket (hready.tail.outside other hmem) hself]

theorem results_removed (hready : Ready env t rows)
    (h : deleteRecords env true (some env.bucket) rows t = .ok (results, t')) :
    results.filter (·.removedFromDisk) =
      (movedRows t rows).map fun row => row.result (some (destination env.bucket row)) := by
  induction rows generalizing t results with
  | nil =>
    cases h
    rfl
  | cons row rest ih =>
    obtain ⟨result, t₁, later, hrow, hrest, rfl⟩ := deleteRecords_cons h
    rcases hready.step hrow with ⟨hnone, rfl, rfl⟩ | ⟨rfl, c, target, hlands⟩
    · rw [movedRows_of_none hnone, List.filter_cons_of_neg (by simp [MediaRow.result]), ih hready.tail hrest]
    · rw [movedRows_step hready hlands, List.filter_cons_of_pos (by simp [MediaRow.result]),
        ih (hready.next hlands) hrest, List.map_cons]

theorem dir_kept {loc : Loc Chars} (hready : Ready env t rows)
    (h : deleteRecords env true (some env.bucket) rows t = .ok (results, t')) (hdir : t.node loc = some .dir) :
    t'.node loc = some .dir := by
  induction rows generalizing t results with
  | nil =>
    cases h
    exact hdir
  | cons row rest ih =>
    obtain ⟨result, t₁, later, hrow, hrest, rfl⟩ := deleteRecords_cons h
    rcases hready.step hrow with ⟨-, -, rfl⟩ | ⟨-, c, target, hlands⟩
    · exact ih hready.tail hrest hdir
    · exact ih (hready.next hlands) hrest (hlands.dir_kept hdir)

theorem not_above (hready : Ready env t rows)
    (h : deleteRecords env true (some env.bucket) rows t = .ok (results, t')) :
    ∀ row ∈ rows, ¬ row.src <:+ env.bucket.locate := by
  induction rows generalizing t results with
  | nil => simp
  | cons first rest ih =>
    obtain ⟨result, t₁, later, hrow, hrest, rfl⟩ := deleteRecords_cons h
    have hdir : first.src <:+ env.bucket.locate → t.node first.src = some .dir := fun habove => by
      by_cases hself : first.src = env.bucket.locate
      · rw [hself, hready.bucket]
      · exact Tree.ancestor (by simp [hready.bucket]) habove hself
    intro row hmem habove
    rcases hready.step hrow with ⟨hnone, -, rfl⟩ | ⟨-, c, target, hlands⟩
    · rcases List.mem_cons.mp hmem with rfl | hlater
      · rw [hdir habove] at hnone
        cases hnone
      · exact ih hready.tail hrest row hlater habove
    · rcases List.mem_cons.mp hmem with rfl | hlater
      · have hsource := hlands.source
        rw [hdir habove] at hsource
        cases hsource
      · exact ih (hready.next hlands) hrest row hlater habove

/-! ### Every file at its place -/

/-- No row has the relative path of an earlier one, or one that is a directory on the way to it. -/
def Apart (rows : List MediaRow) : Prop := rows.Pairwise fun row later => ¬ later.place <:+ row.place

instance (rows : List MediaRow) : Decidable (Apart rows) := inferInstanceAs (Decidable (List.Pairwise _ _))

theorem target_suffix_iff {row later : MediaRow} :
    env.target later <:+ env.target row ↔ later.place <:+ row.place := List.suffix_append_self_iff

theorem Lands.place_free {c : β} {target : Loc Chars} {later : MediaRow} (hlands : Lands env row c t t' target)
    (hout : ¬ env.bucket.locate <:+ row.src) (hrow : t.node (env.target row) = none)
    (hfree : t.node (env.target later) = none) (hapart : ¬ later.place <:+ row.place) :
    t'.node (env.target later) = none := by
  have hat : target = env.target row := hlands.at_target (by simp [hrow])
  have hnew : env.target later ≠ target := by
    intro heq
    have hway : env.target later <:+ env.target row := by
      rw [heq, hat]
    exact hapart (target_suffix_iff.mp hway)
  have hself : env.target later ≠ row.src := by
    intro heq
    exact hout (heq ▸ List.suffix_append ..)
  rcases hlands.others _ hnew hself with hsame | ⟨-, hway, -⟩
  · rw [hsame, hfree]
  · exact absurd (target_suffix_iff.mp hway) hapart

theorem file_kept {loc : Loc Chars} {c : β} (hready : Ready env t rows)
    (h : deleteRecords env true (some env.bucket) rows t = .ok (results, t'))
    (hfree : ∀ row ∈ movedRows t rows, t.node (env.target row) = none) (hapart : Apart (movedRows t rows))
    (hbelow : env.bucket.locate <:+ loc) (hfile : t.node loc = some (.file c)) :
    t'.node loc = some (.file c) := by
  induction rows generalizing t results with
  | nil =>
    cases h
    exact hfile
  | cons row rest ih =>
    obtain ⟨result, t₁, later, hrow, hrest, rfl⟩ := deleteRecords_cons h
    have hout := hready.outside row (List.mem_cons_self ..)
    rcases hready.step hrow with ⟨hnone, -, rfl⟩ | ⟨-, c', target, hlands⟩
    · rw [movedRows_of_none hnone] at hfree hapart
      exact ih hready.tail hrest hfree hapart hfile
    · rw [movedRows_step hready hlands] at hfree hapart
      obtain ⟨hfirst, hothers⟩ := List.pairwise_cons.mp hapart
      have htarget := hfree row (List.mem_cons_self ..)
      have hne : loc ≠ target := by
        rintro rfl
        rw [hlands.at_target (by simp [htarget]), htarget] at hfile
        cases hfile
      exact ih (hready.next hlands) hrest (fun other hmem => hlands.place_free hout htarget
        (hfree other (List.mem_cons_of_mem _ hmem)) (hfirst other hmem)) hothers
        (hlands.file_kept hout hbelow hfile hne)

theorem files_arrive (hready : Ready env t rows)
    (h : deleteRecords env true (some env.bucket) rows t = .ok (results, t'))
    (hfree : ∀ row ∈ movedRows t rows, t.node (env.target row) = none) (hapart : Apart (movedRows t rows)) :
    ∀ row ∈ movedRows t rows, ∃ c, t.node row.src = some (.file c) ∧
      t'.node (env.target row) = some (.file c) := by
  induction rows generalizing t results with
  | nil => simp [movedRows]
  | cons row rest ih =>
    obtain ⟨result, t₁, later, hrow, hrest, rfl⟩ := deleteRecords_cons h
    have hout := hready.outside row (List.mem_cons_self ..)
    rcases hready.step hrow with ⟨hnone, -, rfl⟩ | ⟨-, c, target, hlands⟩
    · rw [movedRows_of_none hnone] at hfree hapart ⊢
      exact ih hready.tail hrest hfree hapart
    · rw [movedRows_step hready hlands] at hfree hapart ⊢
      obtain ⟨hfirst, hothers⟩ := List.pairwise_cons.mp hapart
      have htarget := hfree row (List.mem_cons_self ..)
      have hstill : ∀ other ∈ movedRows t₁ rest, t₁.node (env.target other) = none := fun other hmem =>
        hlands.place_free hout htarget (hfree other (List.mem_cons_of_mem _ hmem)) (hfirst other hmem)
      intro other hmem
      rcases List.mem_cons.mp hmem with rfl | hlater
      · refine ⟨c, hlands.source, ?_⟩
        have hthere := hlands.there
        rw [hlands.at_target (by simp [htarget])] at hthere
        exact file_kept (hready.next hlands) hrest hstill hothers (List.suffix_append ..) hthere
      · obtain ⟨c', hsource, harrived⟩ := ih (hready.next hlands) hrest hstill hothers other hlater
        have hself : other.src ≠ row.src := by
          intro heq
          rw [heq, hlands.gone] at hsource
          cases hsource
        have hother := hready.tail.outside other (mem_movedRows hlater).1
        exact ⟨c', (hlands.outside hready.bucket hother hself).symm.trans hsource, harrived⟩

/-- Where files arrive at different places, no place is on the way to an earlier one: it would be
    a directory. -/
theorem apart_of_arrive (hready : Ready env t rows)
    (h : deleteRecords env true (some env.bucket) rows t = .ok (results, t'))
    (hfiles : ∀ row ∈ movedRows t rows, ∃ c, t'.node (env.target row) = some (.file c))
    (hdistinct : (movedRows t rows).Pairwise fun row later => row.place ≠ later.place) :
    Apart (movedRows t rows) := by
  induction rows generalizing t results with
  | nil => exact List.Pairwise.nil
  | cons row rest ih =>
    obtain ⟨result, t₁, later, hrow, hrest, rfl⟩ := deleteRecords_cons h
    rcases hready.step hrow with ⟨hnone, -, rfl⟩ | ⟨-, c, target, hlands⟩
    · rw [movedRows_of_none hnone] at hfiles hdistinct ⊢
      exact ih hready.tail hrest hfiles hdistinct
    · rw [movedRows_step hready hlands] at hfiles hdistinct ⊢
      obtain ⟨hfirst, hothers⟩ := List.pairwise_cons.mp hdistinct
      refine List.pairwise_cons.mpr ⟨fun other hmem hon => ?_, ih (hready.next hlands) hrest
        (fun other hmem => hfiles other (List.mem_cons_of_mem _ hmem)) hothers⟩
      have hway : env.target other <:+ target := (target_suffix_iff.mpr hon).trans hlands.below
      have hne : env.target other ≠ target := by
        rintro rfl
        have hback := target_suffix_iff.mp hlands.below
        exact hfirst other hmem (hback.eq_of_length_le hon.length_le)
      have hdir : t₁.node (env.target other) = some .dir :=
        Tree.ancestor (by simp [hlands.there]) hway hne
      obtain ⟨c', hfile⟩ := hfiles other (List.mem_cons_of_mem _ hmem)
      rw [dir_kept (hready.next hlands) hrest hdir] at hfile
      cases hfile

end Batch

/-! ### What is reported -/

/-- Every file that is reported as removed is where it is said to be, with its content, and no
    two are at one path. -/
structure Recoverable (t t' : Tree Chars β) (results : List DeleteResult) : Prop where
  own : ∀ result ∈ results, result.removedFromDisk = true → ∃ trash content,
    result.trashPath = some trash ∧ t.node (parse result.path).locate = some (.file content) ∧
      t'.node (parse trash).locate = some (.file content)
  distinct : ((results.filter (·.removedFromDisk)).map (·.trashPath)).Nodup

/-- The bucket is new, and no row is a directory. -/
structure Fresh (env : Env) (t : Tree Chars β) (rows : List MediaRow) : Prop where
  absent : t.node env.bucket.locate = none
  outside : ∀ row ∈ rows, ¬ env.bucket.locate <:+ row.src
  files : ∀ row ∈ rows, t.node row.src ≠ some .dir

section Reports

variable {env : Env} {rows : List MediaRow} {t t' made : Tree Chars β} {results : List DeleteResult}

theorem allocateBucketDir_node {bucket : PosixPath} (h : allocateBucketDir env t = .ok (bucket, made)) :
    bucket = env.bucket ∧ made.node env.bucket.locate = some .dir ∧ ∀ loc, made.node loc = t.node loc ∨
      t.node loc = none ∧ loc <:+ env.bucket.locate ∧ made.node loc = some .dir := by
  unfold allocateBucketDir at h
  split at h
  · cases h
  · cases h
  · rename_i made' _ hmade
    cases h
    exact ⟨rfl, made'.2, mkdirs_node hmade⟩

theorem bulkDelete_run (hfresh : Fresh env t rows) (h : bulkDelete env true rows t = .ok (results, t')) :
    ∃ made, deleteRecords env true (some env.bucket) rows made = .ok (results, t') ∧ Ready env made rows ∧
      (∀ row ∈ rows, made.node row.src = t.node row.src) ∧ ∀ row, made.node (env.target row) = none := by
  cases halloc : allocateBucketDir env t with
  | error text =>
    simp only [bulkDelete, halloc, bind, Except.bind, if_true] at h
    cases h
  | ok first =>
    obtain ⟨bucket, made⟩ := first
    obtain ⟨rfl, hbucket, hnodes⟩ := allocateBucketDir_node halloc
    have hrun : deleteRecords env true (some env.bucket) rows made = .ok (results, t') := by
      simpa only [bulkDelete, halloc, bind, Except.bind, if_true] using h
    have hready : Ready env made rows := by
      refine ⟨hbucket, hfresh.outside, fun row hmem hdir => ?_⟩
      rcases hnodes row.src with hsame | ⟨-, habove, -⟩
      · exact absurd (hsame ▸ hdir) (hfresh.files row hmem)
      · exact habove
    refine ⟨made, hrun, hready, fun row hmem => ?_, fun row => ?_⟩
    · rcases hnodes row.src with hsame | ⟨-, habove, -⟩
      · exact hsame
      · exact absurd habove (not_above hready hrun row hmem)
    · rcases hnodes (env.target row) with hsame | ⟨-, habove, -⟩
      · exact hsame.trans (Tree.absent_below hfresh.absent (List.suffix_append ..))
      · have hlen := habove.length_le
        have hpos := List.length_pos_iff.mpr (place_ne_nil row)
        simp only [Env.target, List.length_append] at hlen
        omega

/-- Every removed file is recoverable iff no row has the relative path of an earlier one of
    those moved, or that of a directory on the way to it. -/
theorem recoverable_iff (hfresh : Fresh env t rows) (h : bulkDelete env true rows t = .ok (results, t')) :
    Recoverable t t' results ↔ Apart (movedRows t rows) := by
  obtain ⟨made, hrun, hready, hsame, hfree⟩ := bulkDelete_run hfresh h
  have hremoved := results_removed hready hrun
  have hlocate : ∀ row, (parse (render (destination env.bucket row))).locate = env.target row := fun row => by
    rw [parse_render, destination_locate]
    rfl
  rw [← movedRows_congr hsame]
  constructor
  · intro hrecoverable
    apply apart_of_arrive hready hrun
    · intro row hmem
      have hresult : row.result (some (destination env.bucket row)) ∈ results.filter (·.removedFromDisk) := by
        rw [hremoved]
        exact List.mem_map_of_mem hmem
      obtain ⟨trash, content, htrash, -, hthere⟩ :=
        hrecoverable.own _ (List.mem_filter.mp hresult).1 (List.mem_filter.mp hresult).2
      cases htrash
      rw [hlocate] at hthere
      exact ⟨content, hthere⟩
    · have hdistinct := hrecoverable.distinct
      rw [hremoved, List.map_map, List.Nodup, List.pairwise_map] at hdistinct
      refine hdistinct.imp fun hne hplace => hne ?_
      simp only [Function.comp, MediaRow.result, destination_inj hplace]
  · intro hapart
    refine ⟨fun result hmem hmovedResult => ?_, ?_⟩
    · have hresult := List.mem_filter.mpr ⟨hmem, hmovedResult⟩
      rw [hremoved] at hresult
      obtain ⟨row, hrow, rfl⟩ := List.mem_map.mp hresult
      obtain ⟨content, hsource, hthere⟩ :=
        files_arrive hready hrun (fun other _ => hfree other) hapart row hrow
      rw [hsame row (mem_movedRows hrow).1] at hsource
      refine ⟨_, content, rfl, hsource, ?_⟩
      rw [hlocate, hthere]
    · rw [hremoved, List.map_map, List.Nodup, List.pairwise_map]
      refine hapart.imp fun {row later} hplace hpath => hplace ?_
      have hdestination := render_injective (Option.some.inj hpath)
      have htarget : env.target row = env.target later := by
        rw [← hlocate, ← hlocate, hdestination]
      rw [List.append_cancel_right htarget]

end Reports

/-! ### One title in two libraries -/

/-- What is in the two libraries: one title in both, another in the second. -/
def titles : List (Loc Chars × Nat) :=
  [(["Akira.mkv".toList, "movies".toList], 1), (["Akira.mkv".toList, "uhd".toList], 2),
    (["Heat.mkv".toList, "uhd".toList], 3)]

def shelves : Tree Chars Nat where
  node
    | [] => some .dir
    | [shelf] => if shelf = "movies".toList ∨ shelf = "uhd".toList then some .dir else none
    | [name, shelf] =>
        if shelf = "movies".toList ∨ shelf = "uhd".toList then (titles.lookup [name, shelf]).map .file
        else none
    | _ => none
  root := rfl
  parent name loc hnode := by
    match loc with
    | [] => rfl
    | [shelf] =>
      by_cases hshelf : shelf = "movies".toList ∨ shelf = "uhd".toList
      · exact if_pos hshelf
      · exact absurd (if_neg hshelf) hnode
    | _ :: _ :: _ => exact absurd rfl hnode

def akira : MediaRow where
  id := "1"
  path := "/movies/Akira.mkv".toList
  relativePath := "Akira.mkv".toList
  relative := by decide
  inside := by decide
  named := by decide
  filename := by decide

def akiraUhd : MediaRow where
  id := "2"
  path := "/uhd/Akira.mkv".toList
  relativePath := "Akira.mkv".toList
  relative := by decide
  inside := by decide
  named := by decide
  filename := by decide

def heatUhd : MediaRow where
  id := "3"
  path := "/uhd/Heat.mkv".toList
  relativePath := "Heat.mkv".toList
  relative := by decide
  inside := by decide
  named := by decide
  filename := by decide

def oneMorning : Env where
  dataDir := { path := parse "/data".toList, absolute := by decide, resolved := by decide }
  today := "2024-05-01".toList
  uuid := "8f14e45f".toList
  bucketFault := none
  fault _ := none

/-- The same title of both libraries: the second file replaces the first. -/
theorem second_file_replaces_first : Fresh oneMorning shelves [akira, akiraUhd] ∧
    ∃ results t', bulkDelete oneMorning true [akira, akiraUhd] shelves = .ok (results, t') ∧
      ¬ Recoverable shelves t' results := by
  refine ⟨⟨by decide, by decide, by decide⟩, ?_⟩
  have hrun : (bulkDelete oneMorning true [akira, akiraUhd] shelves).map (fun run => run.1) =
      .ok [akira.result (some (destination oneMorning.bucket akira)),
        akiraUhd.result (some (destination oneMorning.bucket akiraUhd))] := by rfl
  cases hdelete : bulkDelete oneMorning true [akira, akiraUhd] shelves with
  | error text =>
    rw [hdelete] at hrun
    cases hrun
  | ok run =>
    rw [hdelete] at hrun
    have hresults : run.1 = _ := Except.ok.inj hrun
    refine ⟨run.1, run.2, rfl, fun hrecoverable => ?_⟩
    have hdistinct := hrecoverable.distinct
    rw [hresults] at hdistinct
    exact absurd hdistinct (by decide)

/-- Two titles are both in the trash. -/
theorem recoverable_iff_two_titles : ∃ results t', bulkDelete oneMorning true [akira, heatUhd] shelves =
    .ok (results, t') ∧ (Recoverable shelves t' results ↔ Apart (movedRows shelves [akira, heatUhd])) ∧
      Apart (movedRows shelves [akira, heatUhd]) := by
  cases hdelete : bulkDelete oneMorning true [akira, heatUhd] shelves with
  | error text =>
    have hrun : (bulkDelete oneMorning true [akira, heatUhd] shelves).isOk = true := by rfl
    rw [hdelete] at hrun
    cases hrun
  | ok run =>
    exact ⟨run.1, run.2, rfl, recoverable_iff ⟨by decide, by decide, by decide⟩ hdelete, by decide⟩

end MediaDelete
