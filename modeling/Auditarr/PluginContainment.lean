/-
  Auditarr/PluginContainment.lean
  ===============================
  **What an installation leaves in the directory tree.**

  The check on member names looks at the parsed path, in which repeated slashes are
  one; the extraction cuts the wrapper off the name as it is stored.  What is left of
  `top//etc/x` is the absolute path `/etc/x`, and joining it to the plugin's directory
  gives just that.  A member whose rest is relative stays below the directory.
-/
import Auditarr.PluginInstall

namespace PluginContainment

open Effects FileTree PosixPath PluginInstall

/-! ### What a call may do to the tree -/

/-- Directories stay, and what changes is on record. -/
structure Grows (h h' : Host) : Prop where
  dirs : ∀ loc, h.tree.node loc = some .dir → h'.tree.node loc = some .dir
  same : ∀ loc, loc ∉ h'.touched → h'.tree.node loc = h.tree.node loc
  touched : ∀ loc ∈ h.touched, loc ∈ h'.touched

instance : Std.Refl Grows := ⟨fun _ => ⟨fun _ hd => hd, fun _ _ => rfl, fun _ hl => hl⟩⟩

instance : IsTrans Host Grows := by
  constructor
  intro a b c hab hbc
  constructor
  · intro loc hdir
    exact hbc.dirs loc (hab.dirs loc hdir)
  · intro loc hnot
    rw [hbc.same loc hnot]
    exact hab.same loc fun hmem => hnot (hbc.touched loc hmem)
  · intro loc hmem
    exact hbc.touched loc (hab.touched loc hmem)

/-- Whatever is newly on record satisfies `P`. -/
def Records (P : Loc Chars → Prop) (h h' : Host) : Prop :=
  ∀ loc ∈ h'.touched, loc ∈ h.touched ∨ P loc

theorem Records.trans {P : Loc Chars → Prop} {a b c : Host} (hab : Records P a b)
    (hbc : Records P b c) : Records P a c := by
  intro loc hmem
  rcases hbc loc hmem with h | h
  · exact hab loc h
  · exact .inr h

instance (P : Loc Chars → Prop) : Std.Refl (Records P) := ⟨fun _ _ hmem => .inl hmem⟩

instance (P : Loc Chars → Prop) : IsTrans Host (Records P) := ⟨fun _ _ _ => Records.trans⟩

theorem Records.mono {P Q : Loc Chars → Prop} {a b : Host} (h : Records P a b)
    (himp : ∀ place, P place → Q place) : Records Q a b :=
  fun loc hmem => (h loc hmem).imp_right (himp loc)

theorem records_of_eq {P : Loc Chars → Prop} {h h' : Host} (heq : h'.touched = h.touched) :
    Records P h h' := fun _ hmem => .inl (heq ▸ hmem)

section Calls

variable {env : Env}

theorem grows_of_update {h h' : Host} {loc : Loc Chars} {n : Node Bytes}
    (hnode : h'.tree.node = Function.update h.tree.node loc (some n))
    (htouched : h'.touched = h.touched ++ [loc])
    (hnot : n = .dir ∨ h.tree.node loc ≠ some .dir) : Grows h h' := by
  constructor
  · intro other hdir
    rw [hnode]
    by_cases hsame : other = loc
    · rw [hsame, Function.update_self]
      rcases hnot with hn | hn
      · rw [hn]
      · exact absurd (hsame ▸ hdir) hn
    · rw [Function.update_of_ne hsame, hdir]
  · intro other hnew
    rw [htouched, List.mem_append, not_or, List.mem_singleton] at hnew
    rw [hnode, Function.update_of_ne hnew.2]
  · intro other hmem
    rw [htouched]
    exact List.mem_append_left _ hmem

theorem records_of_snoc {h h' : Host} {loc : Loc Chars} {P : Loc Chars → Prop}
    (htouched : h'.touched = h.touched ++ [loc]) (hloc : P loc) : Records P h h' := by
  intro other hmem
  rw [htouched] at hmem
  rcases List.mem_append.mp hmem with hold | hnew
  · exact .inl hold
  · rw [List.mem_singleton.mp hnew]
    exact .inr hloc

/-- A directory can be made at `loc`, with those above it that are missing. -/
def Creatable (env : Env) (h : Host) (loc : Loc Chars) : Prop :=
  h.tree.node loc = none ∧ h.tree.anchored loc = true ∧ env.fault h.calls = none

/-- What `os.mkdir` comes to. -/
inductive MkdirOutcome (env : Env) (name : Chars) (up : Loc Chars) (h : Host) :
    Except InstallError Unit × Host → Prop where
  | noParent : h.tree.node up = none → MkdirOutcome env name up h (.error .fileNotFound, h)
  | underFile (content : Bytes) : h.tree.node up = some (.file content) →
      MkdirOutcome env name up h (.error notADirectory, h)
  | taken : h.tree.node up = some .dir → h.tree.node (name :: up) ≠ none →
      MkdirOutcome env name up h (.error fileExists, h)
  | refused (text : String) : h.tree.node up = some .dir → h.tree.node (name :: up) = none →
      env.fault h.calls = some text →
      MkdirOutcome env name up h (.error (.osError text), { h with calls := h.calls + 1 })
  | made (h' : Host) : h.tree.node up = some .dir → h.tree.node (name :: up) = none →
      env.fault h.calls = none →
      h'.tree.node = Function.update h.tree.node (name :: up) (some .dir) →
      h'.touched = h.touched ++ [name :: up] → h'.bytesWritten = h.bytesWritten →
      MkdirOutcome env name up h (.ok (), h')

variable (env) in
theorem osMkdir_outcome (name : Chars) (up : Loc Chars) (h : Host) :
    MkdirOutcome env name up h (osMkdir env (name :: up) h) := by
  simp only [osMkdir]
  split
  · exact .noParent ‹_›
  · exact .underFile _ ‹_›
  · rename_i hup
    split
    · exact .taken hup (by simp [*])
    · rename_i hfree
      split
      · exact .refused _ hup hfree ‹_›
      · exact .made _ hup hfree ‹_› rfl rfl rfl

/-- What `path.mkdir(parents=True, exist_ok=True)` does. -/
structure MkdirsSpec (env : Env) (loc : Loc Chars) (h : Host) (r : Except InstallError Unit × Host) :
    Prop where
  grows : Grows h r.2
  records : Records (fun made => made <:+ loc ∧ h.tree.node made = none) h r.2
  bytes : r.2.bytesWritten = h.bytesWritten
  error : ∀ exc, r.1 = .error exc → exc.isOsError = true
  isDir : r.1 = .ok () → r.2.tree.node loc = some .dir
  present : h.tree.node loc = some .dir → r = (.ok (), h)
  creates : Creatable env h loc → ∃ made ∈ r.2.touched, made <:+ loc
  idle : ¬ Creatable env h loc → r.2.tree = h.tree ∧ r.2.touched = h.touched

variable (env) in
theorem mkdirExistOk_spec (name : Chars) {up : Loc Chars} {h : Host}
    (hup : h.tree.node up ≠ none) :
    MkdirsSpec env (name :: up) h (mkdirExistOk env (name :: up) h) := by
  have hout := osMkdir_outcome env name up h
  unfold mkdirExistOk
  rw [Call.run_attempt]
  generalize osMkdir env (name :: up) h = r at hout
  cases hout with
  | noParent hnone => exact absurd hnone hup
  | underFile content hfile =>
    have hfree : h.tree.node (name :: up) = none := by
      by_contra hsome
      rw [h.tree.parent name up hsome] at hfile
      cases hfile
    have hnot : ¬ Creatable env h (name :: up) := by
      rintro ⟨-, hanchored, -⟩
      cases up with
      | nil => rw [h.tree.root] at hfile; cases hfile
      | cons name' up' => simp [Tree.anchored, hfree, hfile] at hanchored
    have hrun : existOk (name :: up) notADirectory h = (.error notADirectory, h) := by
      simp [existOk, hfree]
    simp only [notADirectory] at hrun ⊢
    rw [hrun]
    exact ⟨Std.Refl.refl h, records_of_eq rfl, rfl, by simp [InstallError.isOsError], by simp,
      by simp [hfree], fun hc => absurd hc hnot, fun _ => ⟨rfl, rfl⟩⟩
  | taken hdir htaken =>
    have hnot : ¬ Creatable env h (name :: up) := fun hc => htaken hc.1
    by_cases hself : h.tree.node (name :: up) = some .dir
    · have hrun : existOk (name :: up) fileExists h = (.ok (), h) := by
        simp [existOk, hself, fileExists, InstallError.isOsError]
      simp only [fileExists] at hrun ⊢
      rw [hrun]
      exact ⟨Std.Refl.refl h, records_of_eq rfl, rfl, by simp, fun _ => hself, fun _ => rfl,
        fun hc => absurd hc hnot, fun _ => ⟨rfl, rfl⟩⟩
    · have hrun : existOk (name :: up) fileExists h = (.error fileExists, h) := by
        simp [existOk, hself]
      simp only [fileExists] at hrun ⊢
      rw [hrun]
      exact ⟨Std.Refl.refl h, records_of_eq rfl, rfl, by simp [InstallError.isOsError], by simp,
        fun hd => absurd hd hself, fun hc => absurd hc hnot, fun _ => ⟨rfl, rfl⟩⟩
  | refused text hdir hfree hfault =>
    have hnot : ¬ Creatable env h (name :: up) := by
      rintro ⟨-, -, hnone⟩
      rw [hfault] at hnone
      cases hnone
    have hrun : existOk (name :: up) (.osError text) { h with calls := h.calls + 1 } =
        (.error (.osError text), { h with calls := h.calls + 1 }) := by
      simp [existOk, hfree]
    dsimp only
    rw [hrun]
    exact ⟨⟨fun _ hd => hd, fun _ _ => rfl, fun _ hl => hl⟩, records_of_eq rfl, rfl,
      by simp [InstallError.isOsError], by simp, by simp [hfree], fun hc => absurd hc hnot,
      fun _ => ⟨rfl, rfl⟩⟩
  | made h' hdir hfree hfault hnode htouched hbytes =>
    refine ⟨grows_of_update hnode htouched (.inl rfl),
      records_of_snoc htouched ⟨List.suffix_refl _, hfree⟩, hbytes, by simp, fun _ => ?_,
      by simp [hfree], fun _ => ⟨name :: up, by simp [htouched], List.suffix_refl _⟩, ?_⟩
    · show h'.tree.node (name :: up) = some .dir
      rw [hnode, Function.update_self]
    · intro hnot
      refine absurd ⟨hfree, ?_, hfault⟩ hnot
      cases up with
      | nil => simp [Tree.anchored, hfree]
      | cons name' up' => simp [Tree.anchored, hfree, hdir]

theorem mkdirs_cons {name : Chars} {up : Loc Chars} {h : Host} (hup : h.tree.node up ≠ none) :
    mkdirs env (name :: up) h = mkdirExistOk env (name :: up) h := by
  have hout := osMkdir_outcome env name up h
  unfold mkdirs mkdirExistOk
  rw [Call.run_attempt, Call.run_attempt]
  generalize osMkdir env (name :: up) h = r at hout
  cases hout with
  | noParent hnone => exact absurd hnone hup
  | underFile content hfile => rfl
  | taken hdir htaken => rfl
  | refused text hdir hfree hfault => rfl
  | made h' hdir hfree hfault hnode htouched hbytes => rfl

theorem mkdirs_missing {name : Chars} {up : Loc Chars} {h : Host} (hup : h.tree.node up = none) :
    mkdirs env (name :: up) h = (do mkdirs env up; mkdirExistOk env (name :: up)) h := by
  have hrun : osMkdir env (name :: up) h = (.error .fileNotFound, h) := by
    have hout := osMkdir_outcome env name up h
    generalize osMkdir env (name :: up) h = r at hout
    cases hout with
    | noParent hnone => rfl
    | underFile content hfile => rw [hup] at hfile; cases hfile
    | taken hdir htaken => rw [hup] at hdir; cases hdir
    | refused text hdir hfree hfault => rw [hup] at hdir; cases hdir
    | made h' hdir hfree hfault hnode htouched hbytes => rw [hup] at hdir; cases hdir
  rw [mkdirs, Call.run_attempt, hrun]

variable (env) in
theorem mkdirsSpec (loc : Loc Chars) (h : Host) : MkdirsSpec env loc h (mkdirs env loc h) := by
  induction loc with
  | nil =>
    have hrun : mkdirs env [] h = (.ok (), h) := by
      simp [mkdirs, Call.run_attempt, osMkdir, existOk, fileExists, InstallError.isOsError,
        h.tree.root]
    rw [hrun]
    refine ⟨Std.Refl.refl h, records_of_eq rfl, rfl, by simp, fun _ => h.tree.root, fun _ => rfl,
      fun hcreate => ?_, fun _ => ⟨rfl, rfl⟩⟩
    rw [Creatable, h.tree.root] at hcreate
    cases hcreate.1
  | cons name up ih =>
    by_cases hup : h.tree.node up = none
    · -- the parents are made first
      have hfree : h.tree.node (name :: up) = none :=
        Tree.absent_below hup (List.suffix_cons _ _)
      have hcreatable : Creatable env h (name :: up) ↔ Creatable env h up := by
        unfold Creatable
        rw [hfree, hup]
        simp [Tree.anchored, hfree]
      have habove : ∀ made, made <:+ up ∧ h.tree.node made = none →
          made <:+ name :: up ∧ h.tree.node made = none :=
        fun made hmade => ⟨hmade.1.trans (List.suffix_cons _ _), hmade.2⟩
      have hspec := ih
      rw [mkdirs_missing hup]
      rcases hrun : mkdirs env up h with ⟨exc | ⟨⟩, h₁⟩
      · rw [hrun] at hspec
        rw [Call.run_bind_error hrun]
        refine ⟨hspec.grows, hspec.records.mono habove, hspec.bytes, hspec.error, by simp,
          by simp [hfree], fun hc => ?_, fun hn => hspec.idle (hcreatable.not.mp hn)⟩
        obtain ⟨made, hmem, hon⟩ := hspec.creates (hcreatable.mp hc)
        exact ⟨made, hmem, hon.trans (List.suffix_cons _ _)⟩
      · rw [hrun] at hspec
        rw [Call.run_bind_ok hrun]
        have hdir₁ : h₁.tree.node up = some .dir := hspec.isDir rfl
        have hspec₁ := mkdirExistOk_spec env name (h := h₁)
          (show h₁.tree.node up ≠ none by simp [hdir₁])
        refine ⟨IsTrans.trans _ _ _ hspec.grows hspec₁.grows, ?_,
          hspec₁.bytes.trans hspec.bytes, hspec₁.error, hspec₁.isDir, by simp [hfree],
          fun hc => ?_, fun hn => ?_⟩
        · refine (hspec.records.mono habove).trans (hspec₁.records.mono fun made hmade => ?_)
          refine ⟨hmade.1, ?_⟩
          rcases List.suffix_cons_iff.mp hmade.1 with hself | hon
          · rw [hself, hfree]
          · -- the second step makes nothing above the directory it is in
            have hpresent : h₁.tree.node made ≠ none := by
              by_cases hsame : made = up
              · simp [hsame, hdir₁]
              · rw [Tree.ancestor (by simp [hdir₁]) hon hsame]
                simp
            exact absurd hmade.2 hpresent
        · obtain ⟨made, hmem, hon⟩ := hspec.creates (hcreatable.mp hc)
          exact ⟨made, hspec₁.grows.touched made hmem, hon.trans (List.suffix_cons _ _)⟩
        · -- nothing was made, so the parent was there
          rw [(hspec.idle (hcreatable.not.mp hn)).1, hup] at hdir₁
          cases hdir₁
    · rw [mkdirs_cons hup]
      exact mkdirExistOk_spec env name hup

/-! ### One member -/

/-- What opening a file for writing does. -/
structure OpenSpec (env : Env) (loc : Loc Chars) (h : Host) (r : Except InstallError Unit × Host) :
    Prop where
  grows : Grows h r.2
  records : Records (fun made => made = loc) h r.2
  bytes : r.2.bytesWritten = h.bytesWritten
  error : ∀ exc, r.1 = .error exc → exc.isException = true
  creates : h.tree.node loc.tail = some .dir → h.tree.node loc ≠ some .dir →
    env.fault h.calls = none → loc ∈ r.2.touched
  idle : (h.tree.node loc = some .dir ∨ env.fault h.calls ≠ none) →
    r.2.tree = h.tree ∧ r.2.touched = h.touched ∧ ∃ exc, r.1 = .error exc

variable (env) in
theorem openSpec (loc : Loc Chars) (h : Host) : OpenSpec env loc h (openWrite env loc h) := by
  cases loc with
  | nil =>
    refine ⟨Std.Refl.refl h, records_of_eq rfl, rfl, ?_, fun _ hno => absurd h.tree.root hno,
      fun _ => ⟨rfl, rfl, isADirectory, rfl⟩⟩
    intro exc hexc
    cases hexc
    rfl
  | cons name up =>
    simp only [openWrite]
    split
    · rename_i hup
      refine ⟨Std.Refl.refl h, records_of_eq rfl, rfl, ?_, ?_, fun _ => ⟨rfl, rfl, _, rfl⟩⟩
      · intro exc hexc
        cases hexc
        rfl
      · intro hdir
        rw [show h.tree.node up = some .dir from hdir] at hup
        cases hup
    · rename_i hup
      refine ⟨Std.Refl.refl h, records_of_eq rfl, rfl, ?_, ?_, fun _ => ⟨rfl, rfl, _, rfl⟩⟩
      · intro exc hexc
        cases hexc
        rfl
      · intro hdir
        rw [show h.tree.node up = some .dir from hdir] at hup
        cases hup
    · split
      · rename_i hself
        refine ⟨Std.Refl.refl h, records_of_eq rfl, rfl, ?_, fun _ hno => absurd hself hno,
          fun _ => ⟨rfl, rfl, _, rfl⟩⟩
        intro exc hexc
        cases hexc
        rfl
      · rename_i hself
        split
        · rename_i text hfault
          refine ⟨⟨fun _ hd => hd, fun _ _ => rfl, fun _ hl => hl⟩, records_of_eq rfl, rfl, ?_, ?_,
            fun _ => ⟨rfl, rfl, _, rfl⟩⟩
          · intro exc hexc
            cases hexc
            rfl
          · intro _ _ hnone
            rw [hfault] at hnone
            cases hnone
        · rename_i hfault
          refine ⟨grows_of_update rfl rfl (.inr hself), records_of_snoc rfl rfl, rfl, by simp, ?_, ?_⟩
          · intro _ _ _
            simp
          · rintro (hdir | hraised)
            · exact absurd hdir hself
            · exact absurd hfault hraised

theorem within_write (chunk : Bytes) (loc : Loc Chars) : Within Grows (write env chunk loc) := by
  intro h
  cases loc with
  | nil => exact Std.Refl.refl h
  | cons name up =>
    simp only [write]
    split
    · split
      · rename_i content hfile
        split
        · exact ⟨fun _ hd => hd, fun _ _ => rfl, fun _ hl => hl⟩
        · exact grows_of_update rfl rfl (.inr (by simp [hfile]))
      · exact Std.Refl.refl h
    · exact Std.Refl.refl h

theorem records_write (chunk : Bytes) (loc : Loc Chars) :
    Within (Records fun made => made = loc) (write env chunk loc) := by
  intro h
  cases loc with
  | nil => exact records_of_eq rfl
  | cons name up =>
    simp only [write]
    split
    · split
      · split
        · exact records_of_eq rfl
        · exact records_of_snoc rfl rfl
      · exact records_of_eq rfl
    · exact records_of_eq rfl

theorem within_copyChunk {R : Host → Host → Prop} [Std.Refl R] [IsTrans Host R]
    {loc : Loc Chars} (hwrite : ∀ chunk, Within R (write env chunk loc)) (count : Nat)
    (chunk : Bytes) : Within R (copyChunk env loc count chunk) := by
  unfold copyChunk
  split
  · exact within_raise _
  · exact within_bind (hwrite chunk) fun _ => within_pure _

theorem within_copyChunks {R : Host → Host → Prop} [Std.Refl R] [IsTrans Host R]
    {loc : Loc Chars} (hwrite : ∀ chunk, Within R (write env chunk loc)) (count : Nat)
    (m : Member) : Within R (copyChunks env loc count m) := by
  refine within_bind (within_foldEach _ (fun acc chunk _ => within_copyChunk hwrite acc chunk) _)
    fun total => ?_
  split
  · exact within_raise _
  · exact within_pure _

theorem within_copyMember {R : Host → Host → Prop} [Std.Refl R] [IsTrans Host R]
    {loc : Loc Chars} (hopen : Within R (openWrite env loc))
    (hwrite : ∀ chunk, Within R (write env chunk loc)) (count : Nat) (m : Member) :
    Within R (copyMember env loc count m) := by
  unfold copyMember
  split
  · exact within_raise _
  · exact within_bind hopen fun _ => within_copyChunks hwrite count m

theorem within_mkdirs (loc : Loc Chars) : Within Grows (mkdirs env loc) :=
  fun h => (mkdirsSpec env loc h).grows

variable (env) in
theorem grows_copyMember (loc : Loc Chars) (count : Nat) (m : Member) :
    Within Grows (copyMember env loc count m) :=
  within_copyMember (fun h => (openSpec env loc h).grows) (fun chunk => within_write chunk loc) count m

theorem records_copyMember (loc : Loc Chars) (count : Nat) (m : Member) :
    Within (Records fun made => made = loc) (copyMember env loc count m) :=
  within_copyMember (fun h => (openSpec env loc h).records) (fun chunk => records_write chunk loc)
    count m

variable {id topLevel : Chars}

theorem grows_extractMember (count : Nat) (m : Member) :
    Within Grows (extractMember env id topLevel count m) := by
  unfold extractMember
  split
  · exact within_bind (within_mkdirs _) fun _ => within_pure _
  · exact within_bind (within_mkdirs _) fun _ => grows_copyMember env _ _ _

/-- The member makes or writes something outside the directory of the plugin: what its
    name leads to is not below it and can be made, or is a file that can be opened. -/
def Leaves (env : Env) (id topLevel : Chars) (h : Host) (m : Member) : Prop :=
  ¬ targetLoc env id <:+ (destOf env id topLevel m).locate ∧
  if m.isDir then Creatable env h (destOf env id topLevel m).locate
  else Creatable env h (destOf env id topLevel m).parent.locate ∨
    m.openError = none ∧ h.tree.node (destOf env id topLevel m).parent.locate = some .dir ∧
      h.tree.node (destOf env id topLevel m).locate ≠ some .dir ∧ env.fault h.calls = none

theorem locate_parent {p : PosixPath} (hplain : dotdot ∉ p.parts) :
    p.parent.locate = p.locate.tail := by
  have hparent : dotdot ∉ p.parent.parts := fun h => hplain (List.dropLast_subset _ h)
  rw [locate_eq_reverse hplain, locate_eq_reverse hparent, List.tail_reverse]
  rfl

theorem recorded_of_leaves {h : Host} {m : Member} (count : Nat)
    (hplain : dotdot ∉ (destOf env id topLevel m).parts) (hleaves : Leaves env id topLevel h m) :
    ∃ made ∈ (extractMember env id topLevel count m h).2.touched,
      ¬ targetLoc env id <:+ made := by
  obtain ⟨hout, hmakes⟩ := hleaves
  have hparent := locate_parent hplain
  have habove : ∀ made, made <:+ (destOf env id topLevel m).locate →
      ¬ targetLoc env id <:+ made := fun made hmade hin => hout (hin.trans hmade)
  unfold extractMember
  by_cases hdir : m.isDir = true
  · rw [if_pos hdir] at hmakes ⊢
    obtain ⟨made, hmem, hon⟩ := (mkdirsSpec env _ h).creates hmakes
    exact ⟨made, (within_rest (R := Grows) (fun _ => within_pure count) h).touched made hmem,
      habove made hon⟩
  · rw [if_neg hdir] at hmakes ⊢
    rcases hmakes with hcreate | ⟨hopen, hup, hself, hfault⟩
    · obtain ⟨made, hmem, hon⟩ := (mkdirsSpec env _ h).creates hcreate
      refine ⟨made, (within_rest (fun _ => grows_copyMember env _ count m) h).touched made
        hmem, habove made (hon.trans ?_)⟩
      rw [hparent]
      exact List.tail_suffix _
    · refine ⟨(destOf env id topLevel m).locate, ?_, hout⟩
      rw [Call.run_bind_ok ((mkdirsSpec env _ h).present hup), copyMember, hopen]
      rw [hparent] at hup
      exact (within_rest (fun _ => within_copyChunks (fun chunk => within_write chunk _) count m)
        h).touched _ ((openSpec env _ h).creates hup hself hfault)

theorem records_of_stays {h : Host} {m : Member} (count : Nat)
    (hplain : dotdot ∉ (destOf env id topLevel m).parts)
    (htarget : h.tree.node (targetLoc env id) = some .dir) (hstays : ¬ Leaves env id topLevel h m) :
    Records (targetLoc env id <:+ ·) h (extractMember env id topLevel count m h).2 := by
  have hparent := locate_parent hplain
  by_cases hin : targetLoc env id <:+ (destOf env id topLevel m).locate
  · -- what is made on the way is missing, and so below the directory
    have hmkdirs : ∀ loc, loc <:+ (destOf env id topLevel m).locate →
        Records (targetLoc env id <:+ ·) h (mkdirs env loc h).2 := by
      intro loc hloc
      refine (mkdirsSpec env loc h).records.mono fun made hmade => ?_
      exact Tree.suffix_of_missing (by simp [htarget]) hmade.2 hin (hmade.1.trans hloc)
    unfold extractMember
    by_cases hdir : m.isDir = true
    · rw [if_pos hdir]
      exact IsTrans.trans _ _ _ (hmkdirs _ (List.suffix_refl _))
        (within_rest (fun _ => within_pure _) h)
    · rw [if_neg hdir]
      refine IsTrans.trans _ _ _ (hmkdirs _ ?_) (within_rest (fun _ => ?_) h)
      · rw [hparent]
        exact List.tail_suffix _
      · intro h'
        refine (records_copyMember _ count m h').mono fun made hmade => ?_
        rw [hmade]
        exact hin
  · apply records_of_eq
    unfold extractMember
    by_cases hdir : m.isDir = true
    · have hno : ¬ Creatable env h (destOf env id topLevel m).locate := by
        intro hcreate
        exact hstays ⟨hin, by rw [if_pos hdir]; exact hcreate⟩
      have hidle := ((mkdirsSpec env _ h).idle hno).2
      rw [if_pos hdir]
      rcases hrun : mkdirs env (destOf env id topLevel m).locate h with ⟨exc | ⟨⟩, h'⟩
      · rw [hrun] at hidle
        rw [Call.run_bind_error hrun, hidle]
      · rw [hrun] at hidle
        rw [Call.run_bind_ok hrun]
        exact hidle
    · have hno : ¬ Creatable env h (destOf env id topLevel m).parent.locate := by
        intro hcreate
        exact hstays ⟨hin, by rw [if_neg hdir]; exact .inl hcreate⟩
      have hspec := mkdirsSpec env (destOf env id topLevel m).parent.locate h
      have hidle := hspec.idle hno
      rw [if_neg hdir]
      rcases hrun : mkdirs env (destOf env id topLevel m).parent.locate h with ⟨exc | ⟨⟩, h'⟩
      · rw [hrun] at hidle
        rw [Call.run_bind_error hrun, hidle.2]
      · -- the directory was there, and the file in it cannot be opened
        have hup : h.tree.node (destOf env id topLevel m).parent.locate = some .dir := by
          rw [← hidle.1]
          exact hspec.isDir (by rw [hrun])
        rw [Call.run_bind_ok (hspec.present hup), copyMember]
        cases hopen : m.openError with
        | some text => rfl
        | none =>
          have hshut : h.tree.node (destOf env id topLevel m).locate = some .dir ∨
              env.fault h.calls ≠ none := by
            by_contra hboth
            rw [not_or, not_not] at hboth
            exact hstays ⟨hin, by rw [if_neg hdir]; exact .inr ⟨hopen, hup, hboth.1, hboth.2⟩⟩
          obtain ⟨-, htouched, exc, hexc⟩ := (openSpec env _ h).idle hshut
          dsimp only
          rw [Call.run_bind_error (Call.run_of_outcome hexc), htouched]

/-! ### The count of bytes -/

/-- So many bytes more than at the start, and no more than the cap. -/
def Counted (start count : Nat) (h : Host) : Prop :=
  h.bytesWritten = start + count ∧ count ≤ maxExtractedBytes

/-- After an exception that `except Exception` catches. -/
def Raised (start : Nat) (exc : InstallError) (h : Host) : Prop :=
  exc.isException = true ∧ h.bytesWritten ≤ start + maxExtractedBytes

theorem Counted.le {start count : Nat} {h : Host} (hcounted : Counted start count h) :
    h.bytesWritten ≤ start + maxExtractedBytes := by
  obtain ⟨hbytes, hcap⟩ := hcounted
  omega

theorem triple_write (chunk : Bytes) (loc : Loc Chars) (start count : Nat)
    (hcap : count + chunk.length ≤ maxExtractedBytes) :
    Triple (Counted start count) (write env chunk loc)
      (fun _ => Counted start (count + chunk.length)) (Raised start) := by
  intro h hcounted
  have hraised : ∀ exc : InstallError, exc.isException = true → Raised start exc h :=
    fun exc hexc => ⟨hexc, hcounted.le⟩
  cases loc with
  | nil => exact hraised _ rfl
  | cons name up =>
    simp only [write]
    split
    · split
      · split
        · exact hraised _ rfl
        · refine ⟨?_, hcap⟩
          show h.bytesWritten + chunk.length = start + (count + chunk.length)
          rw [hcounted.1]
          omega
      · exact hraised _ rfl
    · exact hraised _ rfl

theorem triple_copyChunk (loc : Loc Chars) (start count : Nat) (chunk : Bytes) :
    Triple (Counted start count) (copyChunk env loc count chunk)
      (fun total => Counted start total) (Raised start) := by
  unfold copyChunk
  split
  · intro h hcounted
    exact ⟨rfl, hcounted.le⟩
  · rename_i hcap
    refine Triple.bind (triple_write chunk loc start count (by omega)) fun _ => ?_
    exact triple_pure _ fun _ hc => hc

theorem triple_copyMember (loc : Loc Chars) (start count : Nat) (m : Member) :
    Triple (Counted start count) (copyMember env loc count m)
      (fun total => Counted start total) (Raised start) := by
  unfold copyMember
  split
  · intro h hcounted
    exact ⟨rfl, hcounted.le⟩
  · refine Triple.bind (M := fun _ => Counted start count) ?_ fun _ => ?_
    · intro h hcounted
      have hspec := openSpec env loc h
      rcases hrun : openWrite env loc h with ⟨exc | ⟨⟩, h'⟩
      · rw [hrun] at hspec
        exact ⟨hspec.error exc rfl, by rw [hspec.bytes]; exact hcounted.le⟩
      · rw [hrun] at hspec
        exact ⟨by rw [hspec.bytes]; exact hcounted.1, hcounted.2⟩
    · refine Triple.bind (M := fun total => Counted start total) ?_ fun total => ?_
      · exact Triple.foldEach (I := fun _ total => Counted start total) count _
          fun _ chunk _ acc _ => triple_copyChunk loc start acc chunk
      · split
        · intro h hcounted
          exact ⟨rfl, hcounted.le⟩
        · exact triple_pure _ fun _ hc => hc

theorem triple_mkdirs (loc : Loc Chars) (start count : Nat) :
    Triple (Counted start count) (mkdirs env loc) (fun _ => Counted start count) (Raised start) := by
  intro h hcounted
  have hspec := mkdirsSpec env loc h
  rcases hrun : mkdirs env loc h with ⟨exc | ⟨⟩, h'⟩
  · rw [hrun] at hspec
    refine ⟨?_, by rw [hspec.bytes]; exact hcounted.le⟩
    have hos := hspec.error exc rfl
    cases exc <;> simp_all [InstallError.isOsError, InstallError.isException]
  · rw [hrun] at hspec
    exact ⟨by rw [hspec.bytes]; exact hcounted.1, hcounted.2⟩

theorem triple_extractMember (start count : Nat) (m : Member) :
    Triple (Counted start count) (extractMember env id topLevel count m)
      (fun total => Counted start total) (Raised start) := by
  unfold extractMember
  split
  · exact Triple.bind (triple_mkdirs _ start count) fun _ => triple_pure _ fun _ hc => hc
  · exact Triple.bind (triple_mkdirs _ start count) fun _ => triple_copyMember _ start count m

variable (env id topLevel) in
theorem triple_extractAll (start : Nat) (members : List Member) :
    Triple (Counted start 0) (Call.foldEach (extractMember env id topLevel) 0 members)
      (fun total => Counted start total) (Raised start) :=
  Triple.foldEach (I := fun _ total => Counted start total) 0 members
    fun _ m _ acc _ => triple_extractMember start acc m

/-! ### The loop -/

variable (env id topLevel) in
theorem grows_extractAll (members : List Member) (count : Nat) :
    Within Grows (Call.foldEach (extractMember env id topLevel) count members) :=
  within_foldEach members (fun acc m _ => grows_extractMember acc m) count

theorem recorded_of_reached {h h' : Host} {done : List Member} (rest : List Member) {m : Member}
    {count : Nat}
    (hplain : dotdot ∉ (destOf env id topLevel m).parts)
    (hreached : Call.foldEach (extractMember env id topLevel) 0 done h = (.ok count, h'))
    (hleaves : Leaves env id topLevel h' m) :
    ∃ made ∈ (Call.foldEach (extractMember env id topLevel) 0 (done ++ m :: rest) h).2.touched,
      ¬ targetLoc env id <:+ made := by
  obtain ⟨made, hmem, hout⟩ := recorded_of_leaves count hplain hleaves
  refine ⟨made, ?_, hout⟩
  rw [Call.foldEach_append, Call.run_bind_ok hreached]
  exact (within_rest (fun acc => grows_extractAll env id topLevel rest acc) h').touched made hmem

theorem records_extractAll {h : Host} {members : List Member}
    (htarget : h.tree.node (targetLoc env id) = some .dir)
    (hplain : ∀ m ∈ members, dotdot ∉ (destOf env id topLevel m).parts)
    (hstays : ∀ done m rest count h', members = done ++ m :: rest →
      Call.foldEach (extractMember env id topLevel) 0 done h = (.ok count, h') →
      ¬ Leaves env id topLevel h' m) :
    Records (targetLoc env id <:+ ·) h
      (Call.foldEach (extractMember env id topLevel) 0 members h).2 := by
  let I : List Member → Nat → Host → Prop := fun done count s =>
    Call.foldEach (extractMember env id topLevel) 0 done h = (.ok count, s) ∧
      Records (targetLoc env id <:+ ·) h s
  have hloop : Triple (I [] 0) (Call.foldEach (extractMember env id topLevel) 0 members) (I members)
      (fun _ s => Records (targetLoc env id <:+ ·) h s) := by
    apply Triple.foldEach
    rintro done m rest count hmembers s ⟨hreached, hrecords⟩
    have hdir : s.tree.node (targetLoc env id) = some .dir := by
      have hgrows := grows_extractAll env id topLevel done 0 h
      rw [hreached] at hgrows
      exact hgrows.dirs _ htarget
    have hstep := records_of_stays count (hplain m (by simp [hmembers])) hdir
      (hstays done m rest count s hmembers hreached)
    rcases hrun : extractMember env id topLevel count m s with ⟨exc | count', s'⟩
    · rw [hrun] at hstep
      exact hrecords.trans hstep
    · rw [hrun] at hstep
      constructor
      · rw [Call.foldEach_append, Call.run_bind_ok hreached]
        exact Call.run_bind_ok hrun
      · exact hrecords.trans hstep
  have hends := hloop h ⟨rfl, Std.Refl.refl h⟩
  rcases hrun : Call.foldEach (extractMember env id topLevel) 0 members h with ⟨exc | count, h'⟩
  · rw [hrun] at hends
    exact hends
  · rw [hrun] at hends
    exact hends.2

/-! ### The directory of the plugin -/

theorem Slug.plain (hslug : Slug id) : Plain id ∧ id ≠ dotdot := by
  obtain ⟨first, rest, hfirst, hrest, -, -, hid⟩ := hslug
  have hslash : '/' ∉ first :: rest := by
    intro hmem
    rcases List.mem_cons.mp hmem with hself | hin
    · rw [← hself] at hfirst
      exact absurd hfirst.1 (by decide)
    · rcases hrest _ hin with h | h | h
      · exact absurd h.1 (by decide)
      · exact absurd h.1 (by decide)
      · exact absurd h (by decide)
  have hdot : first ≠ '.' := by
    intro hself
    rw [hself] at hfirst
    exact absurd hfirst.1 (by decide)
  rcases hid with rfl | rfl
  · exact ⟨⟨by simp, by simp [hdot], hslash⟩, by simp [dotdot, hdot]⟩
  · refine ⟨⟨by simp, by simp [hdot], ?_⟩, by simp [dotdot, hdot]⟩
    rw [List.mem_append, not_or]
    exact ⟨hslash, by decide⟩

theorem segments_of_plain (hplain : Plain id) : segments id = [id] := by
  unfold segments
  rw [splitSlash_plain hplain.2.2]
  simp [hplain.1, hplain.2.1]

theorem targetPath_parts (hslug : Slug id) :
    (targetPath env id).root = env.pluginDir.path.root ∧
    (targetPath env id).parts = env.pluginDir.path.parts ++ [id] := by
  obtain ⟨hplain, -⟩ := Slug.plain hslug
  have hhead : id.head? ≠ some '/' := by
    intro hself
    exact hplain.2.2 (List.mem_of_mem_head? hself)
  have hjoin := parts_join (p := env.pluginDir.path) hhead
  rw [segments_of_plain hplain] at hjoin
  exact hjoin

theorem dotdot_notMem_target (hslug : Slug id) : dotdot ∉ (targetPath env id).parts := by
  rw [(targetPath_parts hslug).2, List.mem_append, not_or, List.mem_singleton]
  exact ⟨env.pluginDir.resolved, Ne.symm (Slug.plain hslug).2⟩

theorem targetLoc_eq (hslug : Slug id) : targetLoc env id = id :: env.pluginDir.path.locate := by
  rw [targetLoc, locate_eq_reverse (dotdot_notMem_target hslug),
    locate_eq_reverse env.pluginDir.resolved, (targetPath_parts hslug).2]
  simp

theorem dotdot_notMem_dest {members : List Member} {m : Member} (hslug : Slug id)
    (hsafe : ∀ m ∈ members, unsafePath m = false) (hm : m ∈ inWrapper topLevel members) :
    dotdot ∉ (destOf env id topLevel m).parts := by
  obtain ⟨hmem, hprefix⟩ := List.mem_filter.mp hm
  have hname : m.filename = topLevel ++ '/' :: relative topLevel m := by
    have hpre : topLevel ++ ['/'] <+: m.filename := by
      rw [Bool.and_eq_true] at hprefix
      exact List.isPrefixOf_iff_prefix.mp hprefix.1
    obtain ⟨rest, hrest⟩ := hpre
    unfold relative
    rw [← hrest]
    simp
  have hnone : dotdot ∉ segments (relative topLevel m) := by
    intro hin
    have hchecked := hsafe m hmem
    have hall : dotdot ∈ (PosixPath.parse m.filename).parts := by
      show dotdot ∈ segments m.filename
      rw [hname, segments, splitSlash_append, List.filter_append]
      exact List.mem_append_right _ hin
    rw [unsafePath] at hchecked
    simp [mem_splitSlash_render hall] at hchecked
  unfold destOf
  by_cases habs : (relative topLevel m).head? = some '/'
  · rw [join, if_pos (by rw [isAbsolute_parse]; simpa using habs)]
    exact hnone
  · rw [(parts_join habs).2, List.mem_append, not_or]
    exact ⟨dotdot_notMem_target hslug, hnone⟩

theorem not_below_of_above {made : Loc Chars} (hslug : Slug id)
    (hon : made <:+ env.pluginDir.path.locate) : ¬ targetLoc env id <:+ made := by
  intro hin
  have hlen := (hin.trans hon).length_le
  rw [targetLoc_eq hslug, List.length_cons] at hlen
  omega

variable (env topLevel) in
/-- `_extract_zip_to_plugin_dir` up to the creation of the directory: it is made and
    nothing else is, unless the plugin directory itself had to be. -/
theorem createTarget_cases (h : Host) (members : List Member) (hslug : Slug id) :
    (Creatable env h env.pluginDir.path.locate ∧
      ∃ made ∈ (createTarget env members id topLevel h).2.touched, ¬ targetLoc env id <:+ made) ∨
    (¬ Creatable env h env.pluginDir.path.locate ∧
      ∃ exc h₁, createTarget env members id topLevel h = (.error exc, h₁) ∧
        h₁.touched = h.touched ∧ h₁.bytesWritten = h.bytesWritten) ∨
    (¬ Creatable env h env.pluginDir.path.locate ∧
      ∃ h₁, createTarget env members id topLevel h = (.ok (), h₁) ∧ Grows h h₁ ∧
        Records (targetLoc env id <:+ ·) h h₁ ∧ targetLoc env id ∈ h₁.touched ∧
        h.tree.node (targetLoc env id) = none ∧ h₁.tree.node (targetLoc env id) = some .dir ∧
        h₁.bytesWritten = h.bytesWritten) := by
  have hspec := mkdirsSpec env env.pluginDir.path.locate h
  unfold createTarget
  by_cases hcreate : Creatable env h env.pluginDir.path.locate
  · left
    obtain ⟨made, hmem, hon⟩ := hspec.creates hcreate
    refine ⟨hcreate, made, ?_, not_below_of_above hslug hon⟩
    refine (within_rest (R := Grows) (fun _ => ?_) h).touched made hmem
    refine within_bind (within_read _) fun taken => ?_
    dsimp only
    split
    · exact within_raise _
    · split
      · exact within_raise _
      · intro h'
        rw [targetLoc_eq hslug]
        have hout := osMkdir_outcome env id env.pluginDir.path.locate h'
        generalize osMkdir env (id :: env.pluginDir.path.locate) h' = r at hout
        cases hout with
        | noParent _ => exact Std.Refl.refl h'
        | underFile _ _ => exact Std.Refl.refl h'
        | taken _ _ => exact Std.Refl.refl h'
        | refused _ _ _ _ => exact ⟨fun _ hd => hd, fun _ _ => rfl, fun _ hl => hl⟩
        | made _ _ _ _ hnode htouched _ => exact grows_of_update hnode htouched (.inl rfl)
  · right
    have hidle := hspec.idle hcreate
    rcases hrun : mkdirs env env.pluginDir.path.locate h with ⟨exc | ⟨⟩, h'⟩
    · left
      rw [hrun] at hidle hspec
      exact ⟨hcreate, exc, h', Call.run_bind_error hrun, hidle.2, hspec.bytes⟩
    · have hdir : h.tree.node env.pluginDir.path.locate = some .dir := by
        rw [← hidle.1]
        exact hspec.isDir (by rw [hrun])
      rw [Call.run_bind_ok (hspec.present hdir), Call.run_bind_ok (Call.run_read _ _)]
      by_cases htaken : (h.tree.node (targetLoc env id)).isSome = true
      · left
        rw [if_pos htaken]
        exact ⟨hcreate, _, h, rfl, rfl, rfl⟩
      · rw [if_neg htaken]
        have hfree : h.tree.node (targetLoc env id) = none := by simpa using htaken
        by_cases hcap : maxExtractedBytes <
            ((members.filter fun m => (topLevel ++ ['/']).isPrefixOf m.filename).map
              Member.fileSize).sum
        · left
          rw [if_pos hcap]
          exact ⟨hcreate, _, h, rfl, rfl, rfl⟩
        · rw [if_neg hcap]
          have hout := osMkdir_outcome env id env.pluginDir.path.locate h
          rw [targetLoc_eq hslug] at hfree ⊢
          generalize osMkdir env (id :: env.pluginDir.path.locate) h = r at hout
          cases hout with
          | noParent hnone => rw [hdir] at hnone; cases hnone
          | underFile _ hfile => rw [hdir] at hfile; cases hfile
          | taken _ hsome => exact absurd hfree hsome
          | refused text _ _ _ => exact .inl ⟨hcreate, _, _, rfl, rfl, rfl⟩
          | made h₁ _ _ _ hnode htouched hbytes =>
            right
            refine ⟨hcreate, h₁, rfl, grows_of_update hnode htouched (.inl rfl),
              records_of_snoc htouched (List.suffix_refl _), by simp [htouched], hfree, ?_, hbytes⟩
            rw [hnode, Function.update_self]

end Calls

/-! ### The whole installation -/

/-- A loader that has done nothing yet. -/
def Host.start (tree : Tree Chars Bytes) (plugins failedLoads : List Chars) : Host where
  tree := tree
  touched := []
  bytesWritten := 0
  calls := 0
  plugins := plugins
  failedLoads := failedLoads

/-- The manifest and the wrapper of an upload. -/
def requested (env : Env) (upload : Except String (List Member)) :
    Option (Manifest × Chars × List Member) :=
  match upload with
  | .error _ => none
  | .ok members => match findManifestInZip env members with
    | .error _ => none
    | .ok (m, topLevel) => match env.parseManifest m with
      | .error _ => none
      | .ok manifest => some (manifest, topLevel, members)

section Installation

variable (env : Env) (upload : Except String (List Member)) (h : Host)

/-- What the installation should do, of the outcome and the host it leaves. -/
structure Safe (r : Except InstallError Chars × Host) : Prop where
  inside : ∀ made ∈ r.2.touched, ∃ manifest topLevel members,
    requested env upload = some (manifest, topLevel, members) ∧ targetLoc env manifest.id <:+ made
  bytes : r.2.bytesWritten ≤ h.bytesWritten + maxExtractedBytes
  undone : ∀ exc manifest topLevel members, r.1 = .error exc →
    requested env upload = some (manifest, topLevel, members) →
    targetLoc env manifest.id ∈ r.2.touched →
    r.2.tree.node (targetLoc env manifest.id) = none ∧ r.2.tree = h.tree

/-- After the extraction an exception ends the installation that no handler catches. -/
def Stranded (manifest : Manifest) (h : Host) : Prop :=
  (∃ exc, env.loadOne manifest h.tree = some exc ∧ exc.isException = false) ∨
  (env.loadOne manifest h.tree = none ∧ env.app = true ∧ manifest.routes = true ∧
    env.includeRouter manifest ≠ none)

/-- If the id is free: the plugin directory need not be made, no member the extraction
    gets to leaves the directory of the plugin, and no uncaught exception follows a
    finished extraction. -/
def Contained : Prop :=
  ∀ manifest topLevel members, requested env upload = some (manifest, topLevel, members) →
    manifest.id ∉ h.plugins → manifest.id ∉ h.failedLoads →
    ¬ Creatable env h env.pluginDir.path.locate ∧
    ∀ h₁, createTarget env members manifest.id topLevel h = (.ok (), h₁) →
      (∀ done m rest count h₂, inWrapper topLevel members = done ++ m :: rest →
        Call.foldEach (extractMember env manifest.id topLevel) 0 done h₁ = (.ok count, h₂) →
        ¬ Leaves env manifest.id topLevel h₂ m) ∧
      ∀ count h₂, Call.foldEach (extractMember env manifest.id topLevel) 0
          (inWrapper topLevel members) h₁ = (.ok count, h₂) → ¬ Stranded env manifest h₂

end Installation

section Safety

variable {env : Env} {members : List Member} {topLevel : Chars} {manifest : Manifest} {h : Host}

theorem safe_members_of_found {found : Member × Chars}
    (hfound : findManifestInZip env members = .ok found) : ∀ m ∈ members, unsafePath m = false := by
  intro m hm
  unfold findManifestInZip at hfound
  split at hfound
  · cases hfound
  · split at hfound
    · cases hfound
    · rename_i hnone
      simpa using List.find?_eq_none.mp hnone m hm

theorem members_of_requested {upload : Except String (List Member)}
    (hrequested : requested env upload = some (manifest, topLevel, members)) :
    upload = .ok members ∧ ∃ m, findManifestInZip env members = .ok (m, topLevel) ∧
      env.parseManifest m = .ok manifest := by
  unfold requested at hrequested
  split at hrequested
  · cases hrequested
  · rename_i members'
    split at hrequested
    · cases hrequested
    · rename_i m topLevel' hfound
      split at hrequested
      · cases hrequested
      · rename_i manifest' hparse
        cases hrequested
        exact ⟨rfl, m, hfound, hparse⟩

variable (env) in
theorem run_refused (upload : Except String (List Member))
    (hrefused : ∀ manifest topLevel members, requested env upload = some (manifest, topLevel, members) →
      manifest.id ∈ h.plugins ∨ manifest.id ∈ h.failedLoads) :
    ∃ exc, installFromZip env upload h = (.error exc, h) := by
  unfold installFromZip
  cases upload with
  | error text => exact ⟨_, rfl⟩
  | ok members =>
    cases hfound : findManifestInZip env members with
    | error exc => exact ⟨exc, by simp only [hfound]; rfl⟩
    | ok found =>
      cases hparse : env.parseManifest found.1 with
      | error exc =>
        refine ⟨exc, ?_⟩
        simp only [hfound, orRaise, Call.bind_pure_left, hparse]
        rfl
      | ok manifest =>
        have hused := hrefused manifest found.2 members (by simp [requested, hfound, hparse])
        have hcollides : ∃ exc, checkCollision env manifest.id h = (.error exc, h) := by
          unfold checkCollision
          by_cases hloaded : manifest.id ∈ h.plugins
          · rw [if_pos hloaded]
            exact ⟨_, rfl⟩
          · rw [if_neg hloaded, if_pos (hused.resolve_left hloaded)]
            exact ⟨_, rfl⟩
        obtain ⟨exc, hexc⟩ := hcollides
        refine ⟨exc, ?_⟩
        simp only [hfound, orRaise, Call.bind_pure_left, hparse]
        rw [Call.run_bind_error hexc]

theorem run_accepted {upload : Except String (List Member)}
    (hrequested : requested env upload = some (manifest, topLevel, members))
    (hloaded : manifest.id ∉ h.plugins) (hfailed : manifest.id ∉ h.failedLoads) :
    installFromZip env upload h =
      (do extractZipToPluginDir env members manifest.id topLevel
          loadOrRollBack env manifest
          registerPlugin env manifest) h := by
  obtain ⟨rfl, m, hfound, hparse⟩ := members_of_requested hrequested
  have hfree : checkCollision env manifest.id h = (.ok (), h) := by
    rw [checkCollision, if_neg hloaded, if_neg hfailed]
  unfold installFromZip
  simp only [hfound, orRaise, Call.bind_pure_left, hparse]
  rw [Call.run_bind_ok hfree]

/-- Nothing is struck off the record. -/
def Logs (h h' : Host) : Prop := ∀ loc ∈ h.touched, loc ∈ h'.touched

instance : Std.Refl Logs := ⟨fun _ _ hmem => hmem⟩

instance : IsTrans Host Logs := ⟨fun _ _ _ hab hbc loc hmem => hbc loc (hab loc hmem)⟩

theorem within_rollBack {α : Type} (target : Loc Chars) (exc : InstallError) :
    Within Logs (rollBack target exc : Loader α) := by
  unfold rollBack
  split
  · refine within_bind ?_ fun _ => within_raise _
    cases target with
    | nil => exact within_pure _
    | cons name up => exact within_modify fun _ _ hmem => hmem
  · exact within_raise _

theorem within_loadOrRollBack : Within Logs (loadOrRollBack env manifest) := by
  refine within_bind (within_read _) fun raised => ?_
  cases raised with
  | some exc => exact within_rollBack _ exc
  | none => exact within_pure _

theorem within_registerPlugin : Within Logs (registerPlugin env manifest) := by
  refine within_bind (within_modify fun _ _ hmem => hmem) fun _ => ?_
  split
  · exact within_raise _
  · exact within_pure _

theorem logs_after_createTarget :
    Logs (createTarget env members manifest.id topLevel h).2
      ((do extractZipToPluginDir env members manifest.id topLevel
           loadOrRollBack env manifest
           registerPlugin env manifest) h).2 := by
  refine IsTrans.trans _ (extractZipToPluginDir env members manifest.id topLevel h).2 _ ?_ ?_
  · refine within_rest (fun _ => within_attempt ?_ fun exc => within_rollBack _ exc) h
    refine within_bind (fun h' => ?_) fun _ => within_pure _
    exact (grows_extractAll _ _ _ _ _ h').touched
  · exact within_rest (fun _ => within_bind within_loadOrRollBack fun _ => within_registerPlugin) h

theorem logs_after_loop {h₁ : Host}
    (hcreated : createTarget env members manifest.id topLevel h = (.ok (), h₁)) :
    Logs (Call.foldEach (extractMember env manifest.id topLevel) 0 (inWrapper topLevel members) h₁).2
      ((do extractZipToPluginDir env members manifest.id topLevel
           loadOrRollBack env manifest
           registerPlugin env manifest) h).2 := by
  refine IsTrans.trans _ (extractZipToPluginDir env members manifest.id topLevel h).2 _ ?_ ?_
  · rw [extractZipToPluginDir, Call.run_bind_ok hcreated, Call.run_attempt]
    rcases hloop : Call.foldEach (extractMember env manifest.id topLevel) 0
      (inWrapper topLevel members) h₁ with ⟨exc | count, h₂⟩
    · rw [Call.run_bind_error hloop]
      exact within_rollBack _ exc h₂
    · rw [Call.run_bind_ok hloop]
      exact Std.Refl.refl h₂
  · exact within_rest (fun _ => within_bind within_loadOrRollBack fun _ => within_registerPlugin) h

theorem run_rollBack (α : Type) {h₂ : Host} {exc : InstallError} (hslug : Slug manifest.id)
    (hcaught : exc.isException = true) (hgrows : Grows h h₂)
    (hrecords : Records (targetLoc env manifest.id <:+ ·) h h₂) (hfresh : h.touched = [])
    (hfree : h.tree.node (targetLoc env manifest.id) = none) :
    ∃ h₃, (rollBack (targetLoc env manifest.id) exc : Loader α) h₂ = (.error exc, h₃) ∧
      h₃.tree = h.tree ∧ h₃.touched = h₂.touched ∧ h₃.bytesWritten = h₂.bytesWritten := by
  have hbelow : ∀ made ∈ h₂.touched, targetLoc env manifest.id <:+ made := by
    intro made hmem
    rcases hrecords made hmem with hold | hin
    · rw [hfresh] at hold
      cases hold
    · exact hin
  unfold rollBack
  rw [if_pos hcaught]
  rw [targetLoc_eq hslug] at hfree hbelow ⊢
  refine ⟨_, rfl, ?_, rfl, rfl⟩
  exact removeTree_eq hfree fun other hout => hgrows.same other fun hmem => hout (hbelow other hmem)

theorem safe_iff_not_stranded {upload : Except String (List Member)} {h₁ h₂ : Host} {count : Nat}
    (hrequested : requested env upload = some (manifest, topLevel, members))
    (hfresh : h.touched = []) (hfree : h.tree.node (targetLoc env manifest.id) = none)
    (hcreated : createTarget env members manifest.id topLevel h = (.ok (), h₁))
    (hloop : Call.foldEach (extractMember env manifest.id topLevel) 0
      (inWrapper topLevel members) h₁ = (.ok count, h₂))
    (hgrows : Grows h h₂) (hrecords : Records (targetLoc env manifest.id <:+ ·) h h₂)
    (hdir : h₂.tree.node (targetLoc env manifest.id) = some .dir)
    (hmade : targetLoc env manifest.id ∈ h₂.touched)
    (hbytes : h₂.bytesWritten ≤ h.bytesWritten + maxExtractedBytes) :
    Safe env upload h ((do extractZipToPluginDir env members manifest.id topLevel
                           loadOrRollBack env manifest
                           registerPlugin env manifest) h) ↔ ¬ Stranded env manifest h₂ := by
  have hinside : ∀ made ∈ h₂.touched, ∃ manifest topLevel members,
      requested env upload = some (manifest, topLevel, members) ∧
        targetLoc env manifest.id <:+ made := by
    intro made hmem
    rcases hrecords made hmem with hold | hin
    · rw [hfresh] at hold
      cases hold
    · exact ⟨manifest, topLevel, members, hrequested, hin⟩
  have hextract : extractZipToPluginDir env members manifest.id topLevel h = (.ok (), h₂) := by
    rw [extractZipToPluginDir, Call.run_bind_ok hcreated, Call.run_attempt,
      Call.run_bind_ok hloop]
    rfl
  rw [Call.run_bind_ok hextract]
  -- an exception that leaves the directory behind
  have hescaped : ∀ (exc : InstallError) (h₃ : Host), h₃.tree = h₂.tree → h₃.touched = h₂.touched →
      ¬ Safe env upload h (.error exc, h₃) := by
    intro exc h₃ htree htouched hsafe
    have hundone := (hsafe.undone exc manifest topLevel members rfl hrequested
      (by rw [htouched]; exact hmade)).1
    rw [htree, hdir] at hundone
    cases hundone
  cases hload : env.loadOne manifest h₂.tree with
  | some exc =>
    have hrun : loadOrRollBack env manifest h₂ = rollBack (targetLoc env manifest.id) exc h₂ := by
      rw [loadOrRollBack, Call.run_bind_ok (Call.run_read _ _), hload]
    cases hcaught : exc.isException with
    | true =>
      obtain ⟨h₃, hback, htree, htouched, hbytes₃⟩ := run_rollBack Unit manifest.id_slug
        hcaught hgrows hrecords hfresh hfree
      rw [Call.run_bind_error (hrun.trans hback)]
      constructor
      · rintro - (⟨exc', hload', hcaught'⟩ | ⟨hload', -⟩)
        · rw [hload] at hload'
          cases hload'
          rw [hcaught] at hcaught'
          cases hcaught'
        · rw [hload] at hload'
          cases hload'
      · intro _
        refine ⟨by rw [htouched]; exact hinside, by rw [hbytes₃]; exact hbytes, ?_⟩
        intro _ manifest' _ _ _ hrequested' _
        have hsame : manifest' = manifest := by
          rw [hrequested] at hrequested'
          cases hrequested'
          rfl
        rw [hsame, htree]
        exact ⟨hfree, rfl⟩
    | false =>
      have hback : (rollBack (targetLoc env manifest.id) exc : Loader Unit) h₂ =
          (.error exc, h₂) := by
        rw [rollBack, if_neg (by simp [hcaught])]
        rfl
      rw [Call.run_bind_error (hrun.trans hback)]
      exact iff_of_false (hescaped exc h₂ rfl rfl) fun hno => hno (.inl ⟨exc, hload, hcaught⟩)
  | none =>
    have hrun : loadOrRollBack env manifest h₂ = (.ok (), h₂) := by
      rw [loadOrRollBack, Call.run_bind_ok (Call.run_read _ _), hload]
      rfl
    rw [Call.run_bind_ok hrun, registerPlugin, Call.run_bind_ok (Call.run_modify _ _)]
    cases hroutes : (if env.app && manifest.routes then env.includeRouter manifest else none) with
    | some exc =>
      have hmounts : env.app = true ∧ manifest.routes = true ∧ env.includeRouter manifest ≠ none := by
        split at hroutes
        · rename_i hboth
          rw [Bool.and_eq_true] at hboth
          exact ⟨hboth.1, hboth.2, by simp [hroutes]⟩
        · cases hroutes
      exact iff_of_false (hescaped exc _ rfl rfl) fun hno => hno (.inr ⟨hload, hmounts⟩)
    | none =>
      constructor
      · rintro - (⟨exc', hload', -⟩ | ⟨-, happ, hroute, hmount⟩)
        · rw [hload] at hload'
          cases hload'
        · rw [happ, hroute] at hroutes
          exact hmount (by simpa using hroutes)
      · intro _
        refine ⟨hinside, hbytes, ?_⟩
        intro exc _ _ _ herror
        cases herror

theorem safe_iff_contained_of_requested {upload : Except String (List Member)}
    (hrequested : requested env upload = some (manifest, topLevel, members))
    (hloaded : manifest.id ∉ h.plugins) (hfailed : manifest.id ∉ h.failedLoads)
    (hfresh : h.touched = []) :
    Safe env upload h (installFromZip env upload h) ↔ Contained env upload h := by
  have hthis : ∀ manifest' topLevel' members',
      requested env upload = some (manifest', topLevel', members') →
        manifest' = manifest ∧ topLevel' = topLevel ∧ members' = members := by
    intro manifest' topLevel' members' hrequested'
    rw [hrequested] at hrequested'
    cases hrequested'
    exact ⟨rfl, rfl, rfl⟩
  -- a location on record outside the directory
  have hescaped : ∀ r : Except InstallError Chars × Host,
      (∃ made ∈ r.2.touched, ¬ targetLoc env manifest.id <:+ made) → ¬ Safe env upload h r := by
    rintro r ⟨made, hmem, hout⟩ hsafe
    obtain ⟨manifest', _, _, hrequested', hin⟩ := hsafe.inside made hmem
    rw [(hthis _ _ _ hrequested').1] at hin
    exact hout hin
  obtain ⟨-, m, hfound, -⟩ := members_of_requested hrequested
  have hplain : ∀ m ∈ inWrapper topLevel members,
      dotdot ∉ (destOf env manifest.id topLevel m).parts := fun m hm =>
    dotdot_notMem_dest manifest.id_slug (safe_members_of_found hfound) hm
  rw [run_accepted hrequested hloaded hfailed]
  rcases createTarget_cases env topLevel h members manifest.id_slug with ⟨hcreate, made, hmem, hout⟩ | ⟨hcreate, exc, h₁, hrun, htouched, hbytes⟩ |
    ⟨hcreate, h₁, hrun, hgrows, hrecords, hmade, hfree, hdir, hbytes⟩
  · refine iff_of_false (hescaped _ ⟨made, logs_after_createTarget made hmem, hout⟩) fun hcontained => ?_
    exact (hcontained manifest topLevel members hrequested hloaded hfailed).1 hcreate
  · have hwhole : (do extractZipToPluginDir env members manifest.id topLevel
                      loadOrRollBack env manifest
                      registerPlugin env manifest) h = (.error exc, h₁) := by
      exact Call.run_bind_error (Call.run_bind_error hrun)
    rw [hwhole]
    refine iff_of_true ⟨?_, by rw [hbytes]; omega, ?_⟩ fun manifest' topLevel' members' hrequested' _ _ => ?_
    · intro made hmem
      rw [htouched, hfresh] at hmem
      cases hmem
    · intro _ _ _ _ _ _ hmem
      rw [htouched, hfresh] at hmem
      cases hmem
    · obtain ⟨rfl, rfl, rfl⟩ := hthis _ _ _ hrequested'
      refine ⟨hcreate, fun h₂ hok => ?_⟩
      rw [hrun] at hok
      cases hok
  · by_cases hstays : ∀ done m rest count h₂, inWrapper topLevel members = done ++ m :: rest →
        Call.foldEach (extractMember env manifest.id topLevel) 0 done h₁ = (.ok count, h₂) →
        ¬ Leaves env manifest.id topLevel h₂ m
    · have hloopRecords := records_extractAll hdir hplain hstays
      have hloopGrows := grows_extractAll env manifest.id topLevel
        (inWrapper topLevel members) 0 h₁
      have hcounted := triple_extractAll env manifest.id topLevel
        h.bytesWritten (inWrapper topLevel members) h₁ ⟨by rw [hbytes]; rfl, Nat.zero_le _⟩
      have hcontained : Contained env upload h ↔ ∀ count h₂,
          Call.foldEach (extractMember env manifest.id topLevel) 0 (inWrapper topLevel members) h₁ =
            (.ok count, h₂) → ¬ Stranded env manifest h₂ := by
        constructor
        · intro hall
          exact ((hall manifest topLevel members hrequested hloaded hfailed).2 h₁ hrun).2
        · intro hend manifest' topLevel' members' hrequested' _ _
          obtain ⟨rfl, rfl, rfl⟩ := hthis _ _ _ hrequested'
          refine ⟨hcreate, fun h₁' hrun' => ?_⟩
          rw [hrun] at hrun'
          cases hrun'
          exact ⟨hstays, hend⟩
      rw [hcontained]
      rcases hloop : Call.foldEach (extractMember env manifest.id topLevel) 0
        (inWrapper topLevel members) h₁ with ⟨exc | count, h₂⟩
      · rw [hloop] at hloopRecords hloopGrows hcounted
        obtain ⟨h₃, hback, htree, htouched, hbytes₃⟩ := run_rollBack Unit manifest.id_slug
          hcounted.1 (IsTrans.trans _ _ _ hgrows hloopGrows) (hrecords.trans hloopRecords) hfresh hfree
        have hextract : extractZipToPluginDir env members manifest.id topLevel h =
            (.error exc, h₃) := by
          rw [extractZipToPluginDir, Call.run_bind_ok hrun, Call.run_attempt,
            Call.run_bind_error hloop]
          exact hback
        rw [Call.run_bind_error hextract]
        refine iff_of_true ⟨?_, by rw [hbytes₃]; exact hcounted.2, ?_⟩ fun count' h₂' hok => ?_
        · intro made hmem
          rw [htouched] at hmem
          rcases hrecords.trans hloopRecords made hmem with hold | hin
          · rw [hfresh] at hold
            cases hold
          · exact ⟨manifest, topLevel, members, hrequested, hin⟩
        · intro _ manifest' topLevel' members' _ hrequested' _
          obtain ⟨rfl, rfl, rfl⟩ := hthis _ _ _ hrequested'
          rw [htree]
          exact ⟨hfree, rfl⟩
        · cases hok
      · rw [hloop] at hloopRecords hloopGrows hcounted
        rw [safe_iff_not_stranded hrequested hfresh hfree hrun hloop
          (IsTrans.trans _ _ _ hgrows hloopGrows) (hrecords.trans hloopRecords)
          (hloopGrows.dirs _ hdir) (hloopGrows.touched _ hmade) hcounted.le]
        constructor
        · intro hnot count' h₂' hok
          cases hok
          exact hnot
        · intro hend
          exact hend count h₂ rfl
    · push Not at hstays
      obtain ⟨done, m, rest, count, h₂, hsplit, hreached, hleaves⟩ := hstays
      refine iff_of_false (hescaped _ ?_) fun hcontained => ?_
      · obtain ⟨made, hmem, hout⟩ := recorded_of_reached rest
          (hplain m (by simp [hsplit])) hreached hleaves
        rw [← hsplit] at hmem
        exact ⟨made, logs_after_loop hrun made hmem, hout⟩
      · exact ((hcontained manifest topLevel members hrequested hloaded hfailed).2 h₁ hrun).1 done m
          rest count h₂ hsplit hreached hleaves

end Safety

/-- An installation writes below the directory of the plugin alone, no more than the
    cap, and takes everything back when it raises, exactly if: the plugin directory need
    not be made, no member that the extraction gets to has an absolute rest which leads
    to a place outside where something can be made, and after the extraction nothing
    raises but what the handler around the loading catches. -/
theorem safe_iff_contained (env : Env) (upload : Except String (List Member))
    (tree : Tree Chars Bytes) (plugins failedLoads : List Chars) :
    Safe env upload (Host.start tree plugins failedLoads)
        (installFromZip env upload (Host.start tree plugins failedLoads)) ↔
      Contained env upload (Host.start tree plugins failedLoads) := by
  by_cases haccepted : ∃ manifest topLevel members,
      requested env upload = some (manifest, topLevel, members) ∧ manifest.id ∉ plugins ∧
        manifest.id ∉ failedLoads
  · obtain ⟨manifest, topLevel, members, hrequested, hloaded, hfailed⟩ := haccepted
    exact safe_iff_contained_of_requested hrequested hloaded hfailed rfl
  · obtain ⟨exc, hrun⟩ := run_refused env upload
      (h := Host.start tree plugins failedLoads) (by
        intro manifest topLevel members hrequested
        by_contra hboth
        rw [not_or] at hboth
        exact haccepted ⟨manifest, topLevel, members, hrequested, hboth⟩)
    rw [hrun]
    refine iff_of_true ⟨?_, Nat.le_add_right _ _, ?_⟩ ?_
    · intro made hmem
      cases hmem
    · intro _ _ _ _ _ _ hmem
      cases hmem
    · intro manifest topLevel members hrequested hloaded hfailed
      exact absurd ⟨manifest, topLevel, members, hrequested, hloaded, hfailed⟩ haccepted

def demoManifest : Manifest where
  id := "demo".toList
  name := "Demo"
  version := "1.0.0"
  id_slug := ⟨'d', "emo".toList, by decide, by simp, by simp, by simp, .inl (by decide)⟩

/-- Every manifest is that of the demo plugin, and nothing fails. -/
def demoEnv : Env where
  pluginDir := ⟨.parse "/plugins".toList, by decide, by decide⟩
  repr name := "'" ++ String.ofList name ++ "'"
  fault _ := none
  parseManifest _ := .ok demoManifest
  loadOne _ _ := none
  app := false
  includeRouter _ := none

def textMember (name : String) : Member where
  filename := name.toList
  fileSize := 1
  openError := none
  chunks := [[1]]
  readError := none

/-- `/plugins` and `/etc`, both empty. -/
def twoDirectories : Tree Chars Bytes where
  node loc := if loc = [] ∨ loc = ["plugins".toList] ∨ loc = ["etc".toList] then some .dir else none
  root := by simp
  parent name loc hnode := by
    have hloc : loc = [] := by
      by_contra hne
      apply hnode
      cases loc with
      | nil => exact absurd rfl hne
      | cons _ _ => simp
    simp [hloc]

/-- `demo//etc/x` writes `/etc/x`. -/
theorem member_escapes_plugin_dir :
    ¬ ∀ (env : Env) (upload : Except String (List Member)) (tree : Tree Chars Bytes)
      (plugins failedLoads : List Chars),
      Safe env upload (Host.start tree plugins failedLoads)
        (installFromZip env upload (Host.start tree plugins failedLoads)) := by
  intro hall
  have hsafe := hall demoEnv (.ok [textMember "demo/manifest.json", textMember "demo//etc/x"])
    twoDirectories [] []
  obtain ⟨manifest, topLevel, members, hrequested, hin⟩ :=
    hsafe.inside ["x".toList, "etc".toList] (by decide +kernel)
  obtain ⟨-, m, -, hparse⟩ := members_of_requested hrequested
  obtain rfl : demoManifest = manifest := Except.ok.inj hparse
  exact absurd hin (by decide +kernel)

end PluginContainment
