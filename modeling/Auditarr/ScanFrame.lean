/-
  Auditarr/ScanFrame.lean
  =======================
  **What indexing a file upholds.**

  A scan inserts a row for a file or refreshes the one that is there.  A property of the tables
  that these two keep (`KeptBy`) holds after a file if it did before, whatever is raised and
  committed on the way.
-/
import Auditarr.ScanIndex
import Auditarr.RulesFrame

namespace ScanFrame

open Effects Transactions KeyedTable PyValues Database RulesService RulesFrame Scanner ScanIndex

section Frames

variable {D : Tables → Prop} {env : ScanEnv} {context : ScanContext}

theorem sparing_raising {α : Type} (r : Except ServiceError α) : Sparing D (raising r) := by
  cases r with
  | error e => exact sparing_raise e
  | ok a => exact sparing_pure a

theorem sparing_emitProgress (filesSeen : Nat) :
    Sparing D (emitProgress env context filesSeen) :=
  (sparing_load _).bind fun _ => (sparing_load _).bind fun _ => sparing_emit _

theorem sparing_enqueueSaved (hD : ReadsOnly D) (vt : Option (Option PyValue))
    (saved : MediaFile) : Sparing D (enqueueSaved env vt saved) := by
  cases vt with
  | none => exact sparing_pure _
  | some options =>
    refine (sparing_load _).bind fun _ => sparing_when ?_
    refine (sparing_raising _).bind fun required =>
      (sparing_when (sparing_raise _)).bind fun _ => (sparing_raising _).bind fun inScope =>
        sparing_when ?_
    exact (hD.enqueueForVtLookup saved.id).bind fun _ => sparing_pure _

/-- What rows of a kind cannot break when they are inserted or copied to the row of their
    file. -/
structure KeptBy (Row : MediaFile → Prop) (D : Tables → Prop) : Prop extends ReadsOnly D where
  add : ∀ t t' m, Row m → t.addMedia m = some t' → D t → D t'
  refresh : ∀ t mf id, Row mf → D t → D (refreshRow mf id t)

variable {Row : MediaFile → Prop}

theorem KeptBy.insertMedia (hD : KeptBy Row D) {m : MediaFile} (hm : Row m) :
    Sparing D (insertMedia env m) := by
  refine (sparing_read _).bind fun fits => ?_
  cases fits with
  | false => exact upheld_refused _
  | true =>
    refine Sparing.bind (upheld_edit fun t h => ?_) fun _ => sparing_flush
    cases hadd : t.addMedia m with
    | none => exact h
    | some t' => exact hD.add t t' m hm hadd h

theorem KeptBy.upsertByPath (hD : KeptBy Row D) {path : String}
    {row : Except DatabaseError MediaFile}
    (hrow : ∀ mf, row = .ok mf → ∀ id, Row { mf with id := id }) :
    Sparing D (upsertByPath env path row) := by
  refine (sparing_select _).bind fun existing => ?_
  cases row with
  | error e => exact upheld_refused _
  | ok mf =>
    have hmf : ∀ id, Row { mf with id := id } := hrow mf rfl
    cases existing with
    | none =>
      exact (sparing_read _).bind fun id =>
        Sparing.bind (hD.insertMedia (hmf id)) fun _ => sparing_pure _
    | some old =>
      exact Sparing.bind (upheld_edit fun t h => hD.refresh t mf old.id (hmf mf.id) h) fun _ =>
        sparing_flush.bind fun _ => sparing_pure _

theorem KeptBy.indexFile (hD : KeptBy Row D) (env : ScanEnv) (context : ScanContext)
    {file : Found} {disposition : Option Disposition}
    (hrow : ∀ mf result,
      buildMediaFile env context.libraryId context.runId disposition file result = .ok mf →
        ∀ id, Row { mf with id := id }) (counts : ScanCounts) :
    Sparing D (indexFile env context disposition counts file) := by
  refine upheld_of_triple ((triple_of_upheld (sparing_raising _)).bind fun result => ?_)
  refine triple_load_bind (fun _ _ hs => hs) (triple_load_bind (fun _ _ hs => hs.1) ?_)
  refine Triple.consequence (P := fun s => D s.working ∧ D s.committed) ?_ (fun _ hs => hs.1.1)
    (fun _ _ hs => hs) fun _ _ hs => hs
  refine triple_of_upheld ((sparing_select _).bind fun preExisting => ?_)
  refine (hD.upsertByPath fun mf hmf => hrow mf result hmf).bind fun saved => ?_
  refine (sparing_when (sparing_emit _)).bind fun _ =>
    (sparing_enqueueSaved hD.toReadsOnly context.vt saved).bind fun _ => ?_
  exact (sparing_read _).bind fun due => (sparing_when (sparing_emitProgress _)).bind fun _ =>
    sparing_pure _

end Frames

end ScanFrame
