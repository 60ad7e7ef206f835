/-
  Auditarr/Transactions.lean
  ==========================
  **Units of work over a database.**

  A session holds the tables as the running transaction sees them next to the
  tables as committed.  Everything outside the database that a program changes
  (files, messages) is the `world`: a rollback does not touch it.

  Every round trip to the database can fail, at a point the environment chooses.
  Two things follow the object-relational mapper the sessions stand for:

    * after a failed flush or commit the transaction is rolled back at once and the
      session refuses every further round trip until `rollback` is called;
    * a rollback expires the loaded objects, and reading an attribute of an
      expired object, which would need a query, raises.

  A session in neither condition is `Live`.  No operation but `rollback` leaves
  the first condition and none leaves the second, so a live session at the end of
  a computation was live throughout, and only live sessions need to be reasoned
  about.
-/
import Auditarr.Effects

namespace Transactions

open Effects

/-- A database session over tables `τ` and outside state `ω`. -/
structure Session (τ ω : Type) where
  working : τ
  committed : τ
  /-- A flush failed and nobody has rolled back yet. -/
  failed : Bool
  /-- Loaded objects were expired by a rollback. -/
  expired : Bool
  world : ω
  /-- Round trips made so far. -/
  calls : Nat

/-- A failing round trip: the exception, and whether it takes the transaction
    with it. -/
structure Fault (ε : Type) where
  error : ε
  aborts : Bool

/-- What the environment decides, and the two exceptions of the mapper. -/
structure Environment (ε : Type) where
  faultAt : Nat → Option (Fault ε)
  pendingRollback : ε
  missingGreenlet : ε

namespace Session

variable {τ ω : Type}

def Live (s : Session τ ω) : Prop := s.failed = false ∧ s.expired = false

/-- A fresh session on committed tables. -/
def opened (t : τ) (world : ω) (calls : Nat) : Session τ ω :=
  ⟨t, t, false, false, world, calls⟩

def reverted (s : Session τ ω) : Session τ ω :=
  { s with working := s.committed, expired := true }

end Session

section Operations

variable {τ ω ε α : Type} (env : Environment ε)

/-- One round trip.  A fault of a `fatal` one always takes the transaction with
    it. -/
def contact (fatal : Bool) : Call (Session τ ω) ε Unit := fun s =>
  if s.failed then (.error env.pendingRollback, s)
  else match env.faultAt s.calls with
    | none => (.ok (), { s with calls := s.calls + 1 })
    | some fault =>
        (.error fault.error,
          if fatal || fault.aborts then { s.reverted with failed := true, calls := s.calls + 1 }
          else { s with calls := s.calls + 1 })

/-- A query. -/
def select (query : τ → α) : Call (Session τ ω) ε α :=
  Call.andThen (contact env false) fun _ => Call.read fun s => query s.working

/-- A statement that changes rows in place. -/
def statement (change : τ → τ) : Call (Session τ ω) ε Unit :=
  Call.andThen (contact env false) fun _ => Call.modify fun s => { s with working := change s.working }

/-- A change to loaded objects, sent with the next flush. -/
def edit (change : τ → τ) : Call (Session τ ω) ε Unit :=
  Call.modify fun s => { s with working := change s.working }

def flush : Call (Session τ ω) ε Unit := contact env true

def commit : Call (Session τ ω) ε Unit :=
  Call.andThen (contact env true) fun _ => Call.modify fun s => { s with committed := s.working }

def rollback : Call (Session τ ω) ε Unit :=
  Call.modify fun s => { s.reverted with failed := false }

/-- A flush that the tables do not admit. -/
def refused (e : ε) : Call (Session τ ω) ε α := fun s =>
  if s.failed then (.error env.pendingRollback, s)
  else (.error e, { s.reverted with failed := true, calls := s.calls + 1 })

/-- Read an attribute of a loaded object. -/
def load (a : α) : Call (Session τ ω) ε α := fun s =>
  if s.expired then (.error env.missingGreenlet, s) else (.ok a, s)

/-- A change outside the database. -/
def outside (change : ω → ω) : Call (Session τ ω) ε Unit :=
  Call.modify fun s => { s with world := change s.world }

end Operations

/-! ### Frames -/

section Frames

variable {τ ω ε α γ δ : Type}

/-- Nothing was committed, `g` of the outside is what it was, and a run that ends
    live was live before and left `f` of the tables alone. -/
def Keeps (f : τ → γ) (g : ω → δ) (s s' : Session τ ω) : Prop :=
  s'.committed = s.committed ∧ g s'.world = g s.world ∧
    (s'.Live → s.Live ∧ f s'.working = f s.working)

instance (f : τ → γ) (g : ω → δ) : Std.Refl (Keeps f g) := ⟨fun _ => ⟨rfl, rfl, fun h => ⟨h, rfl⟩⟩⟩

instance (f : τ → γ) (g : ω → δ) : IsTrans (Session τ ω) (Keeps f g) where
  trans _ _ _ hab hbc := by
    refine ⟨hbc.1.trans hab.1, hbc.2.1.trans hab.2.1, fun hlive => ?_⟩
    obtain ⟨hb, heq⟩ := hbc.2.2 hlive
    obtain ⟨ha, heq'⟩ := hab.2.2 hb
    exact ⟨ha, heq.trans heq'⟩

theorem Keeps.imp {γ' δ' : Type} {f : τ → γ} {g : ω → δ} {f' : τ → γ'} {g' : ω → δ'}
    {s s' : Session τ ω} (h : Keeps f g s s') (hf : ∀ t t', f t' = f t → f' t' = f' t)
    (hg : ∀ o o', g o' = g o → g' o' = g' o) : Keeps f' g' s s' :=
  ⟨h.1, hg _ _ h.2.1, fun hlive => ⟨(h.2.2 hlive).1, hf _ _ (h.2.2 hlive).2⟩⟩

variable {env : Environment ε} {f : τ → γ} {g : ω → δ}

theorem contact_cases (env : Environment ε) (fatal : Bool) (s : Session τ ω) :
    (∃ e, (contact env fatal : Call _ _ Unit) s = (.error e, s)) ∨
      (s.failed = false ∧ contact env fatal s = (.ok (), { s with calls := s.calls + 1 })) ∨
      (∃ e, contact env fatal s = (.error e, { s with calls := s.calls + 1 })) ∨
      (∃ e, contact env fatal s =
        (.error e, { s.reverted with failed := true, calls := s.calls + 1 })) := by
  unfold contact
  cases hfailed : s.failed with
  | true => exact .inl ⟨_, rfl⟩
  | false =>
    cases env.faultAt s.calls with
    | none => exact .inr (.inl ⟨rfl, rfl⟩)
    | some fault =>
      cases habort : fatal || fault.aborts with
      | true => exact .inr (.inr (.inr ⟨fault.error, by simp [habort]⟩))
      | false => exact .inr (.inr (.inl ⟨fault.error, by simp [habort]⟩))

theorem contact_ok (fatal : Bool) {s : Session τ ω} (hs : s.failed = false)
    (h : env.faultAt s.calls = none) :
    contact env fatal s = (.ok (), { s with calls := s.calls + 1 }) := by
  unfold contact
  rw [hs, h]
  rfl

theorem contact_fault (fatal : Bool) {s : Session τ ω} (hs : s.failed = false)
    (h : env.faultAt s.calls ≠ none) :
    ∃ e s', contact env fatal s = (.error e, s') ∧ s'.committed = s.committed ∧
      s'.world = s.world := by
  obtain ⟨fault, hfault⟩ := Option.ne_none_iff_exists'.mp h
  unfold contact
  rw [hs, hfault]
  refine ⟨fault.error, _, rfl, ?_⟩
  split <;> exact ⟨rfl, rfl⟩

theorem commit_ok {s : Session τ ω} (hs : s.failed = false) (h : env.faultAt s.calls = none) :
    commit env s = (.ok (), { s with committed := s.working, calls := s.calls + 1 }) := by
  unfold commit
  rw [Call.andThen_eq_bind, Call.run_bind_ok (contact_ok true hs h)]
  rfl

theorem commit_fault {s : Session τ ω} (hs : s.failed = false)
    (h : env.faultAt s.calls ≠ none) :
    ∃ e s', commit env s = (.error e, s') ∧ s'.committed = s.committed ∧ s'.world = s.world := by
  obtain ⟨e, s', hrun, hkeep⟩ := contact_fault true hs h
  exact ⟨e, s', Call.run_bind_error hrun, hkeep⟩

theorem select_returned {query : τ → α} {s s' : Session τ ω} {a : α}
    (h : select env query s = (.ok a, s')) :
    a = query s.working ∧ s' = { s with calls := s.calls + 1 } := by
  unfold select at h
  rw [Call.andThen_eq_bind] at h
  rcases contact_cases env false s with ⟨e, hrun⟩ | ⟨-, hrun⟩ | ⟨e, hrun⟩ | ⟨e, hrun⟩
  · rw [Call.run_bind_error hrun] at h; cases h
  · rw [Call.run_bind_ok hrun] at h
    obtain ⟨hvalue, hstate⟩ := Prod.mk.inj h
    exact ⟨(Except.ok.inj hvalue).symm, hstate.symm⟩
  · rw [Call.run_bind_error hrun] at h; cases h
  · rw [Call.run_bind_error hrun] at h; cases h

theorem load_returned {s s' : Session τ ω} {a b : α} (h : load env a s = (.ok b, s')) :
    b = a ∧ s' = s := by
  unfold load at h
  split at h
  · cases h
  · obtain ⟨hvalue, hstate⟩ := Prod.mk.inj h
    exact ⟨(Except.ok.inj hvalue).symm, hstate.symm⟩

theorem flush_returned {s s' : Session τ ω} (h : flush env s = (.ok (), s')) :
    s' = { s with calls := s.calls + 1 } := by
  unfold flush at h
  rcases contact_cases env true s with ⟨e, hrun⟩ | ⟨-, hrun⟩ | ⟨e, hrun⟩ | ⟨e, hrun⟩
  · rw [hrun] at h; cases h
  · exact (Prod.mk.inj (h.symm.trans hrun)).2
  · rw [hrun] at h; cases h
  · rw [hrun] at h; cases h

theorem keeps_contact (fatal : Bool) :
    Within (Keeps f g) (contact env fatal : Call _ _ Unit) := by
  intro s
  rcases contact_cases env fatal s with ⟨e, h⟩ | ⟨-, h⟩ | ⟨e, h⟩ | ⟨e, h⟩
  · rw [h]; exact Std.Refl.refl s
  · rw [h]; exact ⟨rfl, rfl, fun hlive => ⟨hlive, rfl⟩⟩
  · rw [h]; exact ⟨rfl, rfl, fun hlive => ⟨hlive, rfl⟩⟩
  · rw [h]; exact ⟨rfl, rfl, fun hlive => absurd hlive.1 (by simp)⟩

theorem keeps_flush : Within (Keeps f g) (flush env : Call _ _ Unit) :=
  keeps_contact true

theorem keeps_select (query : τ → α) : Within (Keeps f g) (select env query) :=
  within_bind (keeps_contact false) fun _ => within_read _

theorem keeps_edit {change : τ → τ} (h : ∀ t, f (change t) = f t) :
    Within (Keeps f g) (edit change : Call _ ε Unit) :=
  fun s => ⟨rfl, rfl, fun hlive => ⟨hlive, h s.working⟩⟩

theorem keeps_load (a : α) : Within (Keeps f g) (load env a) := by
  intro s
  unfold load
  split <;> exact Std.Refl.refl s

theorem keeps_outside {change : ω → ω} (h : ∀ o, g (change o) = g o) :
    Within (Keeps f g) (outside change : Call _ ε Unit) :=
  fun s => ⟨rfl, h s.world, fun hlive => ⟨hlive, rfl⟩⟩

/-! ### What is upheld throughout -/

/-- Tables that meet `D`, as committed and as the transaction sees them, do so afterwards. -/
def Upheld (D : τ → Prop) (s s' : Session τ ω) : Prop :=
  D s.working ∧ D s.committed → D s'.working ∧ D s'.committed

variable {D : τ → Prop}

instance : Std.Refl (Upheld (ω := ω) D) := ⟨fun _ h => h⟩

instance : IsTrans (Session τ ω) (Upheld D) := ⟨fun _ _ _ hab hbc h => hbc (hab h)⟩

theorem upheld_contact (fatal : Bool) :
    Within (Upheld D) (contact env fatal : Call (Session τ ω) ε Unit) := by
  intro s h
  rcases contact_cases env fatal s with ⟨e, hrun⟩ | ⟨-, hrun⟩ | ⟨e, hrun⟩ | ⟨e, hrun⟩
  · rw [hrun]; exact h
  · rw [hrun]; exact h
  · rw [hrun]; exact h
  · rw [hrun]; exact ⟨h.2, h.2⟩

theorem upheld_flush : Within (Upheld D) (flush env : Call (Session τ ω) ε Unit) :=
  upheld_contact true

theorem upheld_select (query : τ → α) :
    Within (Upheld D) (select env query : Call (Session τ ω) ε α) :=
  within_bind (upheld_contact false) fun _ => within_read _

theorem upheld_edit {change : τ → τ} (h : ∀ t, D t → D (change t)) :
    Within (Upheld D) (edit change : Call (Session τ ω) ε Unit) :=
  fun _ hs => ⟨h _ hs.1, hs.2⟩

theorem upheld_refused (e : ε) : Within (Upheld D) (refused env e : Call (Session τ ω) ε α) := by
  intro s h
  unfold refused
  split
  · exact h
  · exact ⟨h.2, h.2⟩

theorem upheld_load (a : α) : Within (Upheld D) (load env a : Call (Session τ ω) ε α) := by
  intro s
  unfold load
  split <;> exact Std.Refl.refl s

theorem upheld_outside (change : ω → ω) :
    Within (Upheld D) (outside change : Call (Session τ ω) ε Unit) :=
  fun _ h => h

theorem upheld_commit : Within (Upheld D) (commit env : Call (Session τ ω) ε Unit) :=
  within_bind (upheld_contact true) fun _ _ h => ⟨h.1, h.1⟩

theorem upheld_rollback : Within (Upheld D) (rollback : Call (Session τ ω) ε Unit) :=
  fun _ h => ⟨h.2, h.2⟩

theorem triple_of_upheld {c : Call (Session τ ω) ε α} (h : Within (Upheld D) c) :
    Triple (fun s => D s.working ∧ D s.committed) c (fun _ s => D s.working ∧ D s.committed)
      (fun _ s => D s.working ∧ D s.committed) :=
  fun s hs => ends_const (h s hs) _

theorem triple_select_upheld (query : τ → α) :
    Triple (fun s : Session τ ω => D s.working ∧ D s.committed) (select env query)
      (fun a s => a = query s.working ∧ D s.working ∧ D s.committed)
      (fun _ s => D s.working ∧ D s.committed) :=
  (triple_of_upheld (upheld_contact false)).bind fun _ _ hs => ⟨rfl, hs⟩

theorem upheld_of_triple {c : Call (Session τ ω) ε α}
    (h : Triple (fun s => D s.working ∧ D s.committed) c (fun _ s => D s.working ∧ D s.committed)
      (fun _ s => D s.working ∧ D s.committed)) : Within (Upheld D) c :=
  fun s hs => (h s hs).of_const

end Frames

/-! ### Assertions about sessions -/

section Assertions

variable {τ ω ε α γ δ : Type}

/-- `D` of the committed tables, and `P` of the working ones if the session is
    live. -/
def Holding (D P : τ → Prop) (s : Session τ ω) : Prop :=
  D s.committed ∧ (s.Live → P s.working)

theorem Holding.imp {D P P' : τ → Prop} {s : Session τ ω} (h : Holding D P s)
    (himp : ∀ t, P t → P' t) : Holding D P' s :=
  ⟨h.1, fun hlive => himp _ (h.2 hlive)⟩

variable {env : Environment ε} {D P : τ → Prop}

theorem triple_of_keeps {f : τ → γ} {g : ω → δ} {c : Call (Session τ ω) ε α}
    (hc : Within (Keeps f g) c) (hP : ∀ t t', f t' = f t → P t → P t') :
    Triple (Holding D P) c (fun _ => Holding D P) (fun _ => Holding D P) := by
  intro s hs
  have hkeep := hc s
  have hpost : Holding D P (c s).2 := by
    refine ⟨hkeep.1 ▸ hs.1, fun hlive => ?_⟩
    obtain ⟨hbefore, heq⟩ := hkeep.2.2 hlive
    exact hP _ _ heq (hs.2 hbefore)
  cases (c s).1 <;> exact hpost

theorem triple_contact (fatal : Bool) :
    Triple (Holding (ω := ω) D P) (contact env fatal) (fun _ => Holding D P)
      (fun _ => Holding D P) := by
  refine triple_of_keeps (f := id) (g := id) (keeps_contact fatal) fun t t' heq hP => ?_
  rw [show t' = t from heq]; exact hP

theorem triple_select (query : τ → α) :
    Triple (Holding (ω := ω) D P) (select env query)
      (fun a => Holding D fun t => P t ∧ a = query t) (fun _ => Holding D P) :=
  (triple_contact false).bind fun _ _ hs => ⟨hs.1, fun hlive => ⟨hs.2 hlive, rfl⟩⟩

theorem triple_edit {Q : τ → Prop} {change : τ → τ} {E : ε → Session τ ω → Prop}
    (h : ∀ t, P t → Q (change t)) :
    Triple (Holding D P) (edit change : Call _ ε Unit) (fun _ => Holding D Q) E :=
  fun _ hs => ⟨hs.1, fun hlive => h _ (hs.2 hlive)⟩

theorem triple_flush :
    Triple (Holding (ω := ω) D P) (flush env)
      (fun _ s => Holding D P s ∧ s.failed = false) (fun _ => Holding D P) := by
  intro s hs
  unfold flush
  rcases contact_cases env true s with ⟨e, h⟩ | ⟨hfailed, h⟩ | ⟨e, h⟩ | ⟨e, h⟩
  · rw [h]; exact hs
  · rw [h]; exact ⟨hs, hfailed⟩
  · rw [h]; exact hs
  · rw [h]; exact ⟨hs.1, fun hlive => Bool.noConfusion hlive.1⟩

theorem triple_refused {A : Session τ ω → Prop} {Q : α → Session τ ω → Prop} (e : ε)
    (hD : ∀ s, A s → D s.committed) :
    Triple A (refused env e) Q (fun _ s => D s.committed) := by
  intro s hs
  unfold refused
  cases s.failed with
  | true => exact hD s hs
  | false => exact hD s hs

theorem triple_load {A : Session τ ω → Prop} (a : α) :
    Triple A (load env a) (fun b s => A s ∧ b = a ∧ s.expired = false) (fun _ => A) := by
  intro s hs
  unfold load
  cases hexpired : s.expired with
  | true => exact hs
  | false => exact ⟨hs, rfl, hexpired⟩

theorem triple_load_bind {β : Type} {A : Session τ ω → Prop} {a : α}
    {k : α → Call (Session τ ω) ε β} {Q : β → Session τ ω → Prop} {E : ε → Session τ ω → Prop}
    (hE : ∀ e s, A s → E e s) (hk : Triple (fun s => A s ∧ s.expired = false) (k a) Q E) :
    Triple A (load env a >>= k) Q E := by
  refine Triple.bind (M := fun b s => b = a ∧ A s ∧ s.expired = false) ?_ fun b => ?_
  · exact (triple_load a).consequence (fun _ hs => hs) (fun _ _ hs => ⟨hs.2.1, hs.1, hs.2.2⟩) hE
  · refine Triple.assuming fun hb => ?_
    subst hb
    exact hk

theorem triple_contact_of {A : Session τ ω → Prop} (fatal : Bool)
    (hA : ∀ s n, A s → A { s with calls := n }) (hD : ∀ s, A s → D s.committed) :
    Triple A (contact env fatal) (fun _ s => A s ∧ s.failed = false) (fun _ s => D s.committed) := by
  intro s hs
  rcases contact_cases env fatal s with ⟨e, h⟩ | ⟨hfailed, h⟩ | ⟨e, h⟩ | ⟨e, h⟩
  · rw [h]; exact hD s hs
  · rw [h]; exact ⟨hA s _ hs, hfailed⟩
  · rw [h]; exact hD s hs
  · rw [h]; exact hD s hs

theorem triple_select_of {A : Session τ ω → Prop} (query : τ → α)
    (hA : ∀ s n, A s → A { s with calls := n }) (hD : ∀ s, A s → D s.committed) :
    Triple A (select env query) (fun _ => A) (fun _ s => D s.committed) :=
  (triple_contact_of false hA hD).bind fun _ _ hs => hs.1

theorem triple_select_live (query : τ → α) :
    Triple (fun s : Session τ ω => Holding D P s ∧ s.expired = false) (select env query)
      (fun a s => (∃ t, P t ∧ a = query t) ∧ Holding D P s ∧ s.expired = false)
      (fun _ s => D s.committed) := by
  refine (triple_contact_of (A := fun s => Holding D P s ∧ s.expired = false) false
    (fun _ _ hs => hs) fun _ hs => hs.1.1).bind fun _ => fun s hs => ?_
  exact ⟨⟨s.working, hs.1.1.2 ⟨hs.2, hs.1.2⟩, rfl⟩, hs.1⟩

theorem triple_commit_of {A B : Session τ ω → Prop} (hA : ∀ s n, A s → A { s with calls := n })
    (hD : ∀ s, A s → D s.committed)
    (hB : ∀ s, A s → s.failed = false → B { s with committed := s.working }) :
    Triple A (commit env) (fun _ => B) (fun _ s => D s.committed) :=
  (triple_contact_of true hA hD).bind fun _ s hs => hB s hs.1 hs.2

/-- A live session on fit committed tables. -/
def Standing (D P : τ → Prop) (s : Session τ ω) : Prop :=
  D s.committed ∧ s.Live ∧ P s.working

theorem Standing.imp {D P P' : τ → Prop} {s : Session τ ω} (h : Standing D P s)
    (himp : ∀ t, P t → P' t) : Standing D P' s :=
  ⟨h.1, h.2.1, himp _ h.2.2⟩

theorem standing_contact (fatal : Bool) :
    Triple (Standing (ω := ω) D P) (contact env fatal) (fun _ => Standing D P)
      (fun _ s => D s.committed) :=
  (triple_contact_of (D := D) fatal (fun _ _ hs => hs) fun _ hs => hs.1).consequence
    (fun _ hs => hs) (fun _ _ hs => hs.1) fun _ _ hs => hs

theorem standing_select (query : τ → α) :
    Triple (Standing (ω := ω) D P) (select env query)
      (fun a => Standing D fun t => P t ∧ a = query t) (fun _ s => D s.committed) :=
  (standing_contact false).bind fun _ _ hs => ⟨hs.1, hs.2.1, hs.2.2, rfl⟩

theorem standing_load (a : α) :
    Triple (Standing (ω := ω) D P) (load env a) (fun b s => b = a ∧ Standing D P s)
      (fun _ s => D s.committed) :=
  (triple_load a).consequence (fun _ hs => hs) (fun _ _ hs => ⟨hs.2.1, hs.1⟩) fun _ _ hs => hs.1

theorem standing_read (f : Session τ ω → α) :
    Triple (Standing D P) (Call.read f : Call _ ε α) (fun _ => Standing D P)
      (fun _ s => D s.committed) :=
  fun _ hs => hs

theorem standing_flush :
    Triple (Standing (ω := ω) D P) (flush env) (fun _ => Standing D P)
      (fun _ s => D s.committed) :=
  standing_contact true

theorem standing_edit {P' : τ → Prop} {change : τ → τ} {E : ε → Session τ ω → Prop}
    (h : ∀ t, P t → P' (change t)) :
    Triple (Standing D P) (edit change : Call _ ε Unit) (fun _ => Standing D P') E :=
  fun _ hs => ⟨hs.1, hs.2.1, h _ hs.2.2⟩

theorem standing_commit (hPD : ∀ t, P t → D t) :
    Triple (Standing (ω := ω) D P) (commit env) (fun _ => Standing D P)
      (fun _ s => D s.committed) :=
  (standing_contact true).bind fun _ _ hs => ⟨hPD _ hs.2.2, hs.2.1, hs.2.2⟩

end Assertions

end Transactions
