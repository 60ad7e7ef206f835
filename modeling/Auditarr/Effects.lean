/-
  Auditarr/Effects.lean
  =====================
  **Imperative calls that may raise.**

  A call reads and writes a state and either returns a value or raises an
  exception.  Unlike a transaction, raising does not undo anything: the state
  reached at the `raise` is the state the handler sees.  This is the semantics
  of a method body in a language with exceptions and mutable objects, and the
  shape into which every stateful method is translated.

  Two kinds of reasoning are provided:

    * `Triple P c Q` — from a state satisfying `P`, the outcome and final state
      of `c` satisfy `Q`, whether `c` returns or raises;
    * `Within R c` — every run of `c`, returning or raising, relates the state
      before to the state after by the preorder `R`.  Frame conditions
      ("nothing outside this table changes") are of this kind and need no
      case analysis on the outcome.

  Both have one rule for each way of building a call.
-/
import Mathlib.Order.Defs.Unbundled
import Mathlib.Logic.Basic

namespace Effects

universe u v w x y

/-- A method body over a state `σ` with exceptions `ε`: the outcome together
    with the state reached, which is kept when an exception is raised. -/
def Call (σ : Type u) (ε : Type v) (α : Type w) : Type (max u v w) :=
  σ → Except ε α × σ

namespace Call

variable {σ : Type u} {ε : Type v} {α : Type w} {β : Type w}

def ret (a : α) : Call σ ε α := fun s => (.ok a, s)

def raise (e : ε) : Call σ ε α := fun s => (.error e, s)

def andThen (c : Call σ ε α) (k : α → Call σ ε β) : Call σ ε β := fun s =>
  match c s with
  | (.ok a, s') => k a s'
  | (.error e, s') => (.error e, s')

instance : Monad (Call σ ε) where
  pure := ret
  bind := andThen

/-- `try: c` / `except e: handler e`.  The handler starts in the state the
    failing call left behind. -/
def attempt (c : Call σ ε α) (handler : ε → Call σ ε α) : Call σ ε α := fun s =>
  match c s with
  | (.ok a, s') => (.ok a, s')
  | (.error e, s') => handler e s'

def read (f : σ → α) : Call σ ε α := fun s => (.ok (f s), s)

def modify (f : σ → σ) : Call σ ε PUnit.{w + 1} := fun s => (.ok ⟨⟩, f s)

/-- `if b: c`. -/
def when (b : Bool) (c : Call σ ε PUnit.{w + 1}) : Call σ ε PUnit.{w + 1} :=
  if b then c else ret ⟨⟩

/-- `for x in xs: body x`. -/
def forEach {ι : Type x} (body : ι → Call σ ε PUnit.{w + 1}) : List ι → Call σ ε PUnit.{w + 1}
  | [] => ret ⟨⟩
  | x :: rest => andThen (body x) fun _ => forEach body rest

/-- A loop with an accumulator: `for x in xs: acc = body acc x`. -/
def foldEach {ι : Type x} (body : β → ι → Call σ ε β) : β → List ι → Call σ ε β
  | acc, [] => ret acc
  | acc, x :: rest => andThen (body acc x) fun acc' => foldEach body acc' rest

/-! ### Running a call -/

@[simp] theorem run_pure (a : α) (s : σ) : (pure a : Call σ ε α) s = (.ok a, s) := rfl

@[simp] theorem run_ret (a : α) (s : σ) : (ret a : Call σ ε α) s = (.ok a, s) := rfl

@[simp] theorem run_raise (e : ε) (s : σ) : (raise e : Call σ ε α) s = (.error e, s) := rfl

@[simp] theorem run_read (f : σ → α) (s : σ) : (read f : Call σ ε α) s = (.ok (f s), s) := rfl

@[simp] theorem run_modify (f : σ → σ) (s : σ) :
    (modify f : Call σ ε PUnit.{w + 1}) s = (.ok ⟨⟩, f s) := rfl

theorem run_bind (c : Call σ ε α) (k : α → Call σ ε β) (s : σ) :
    (c >>= k) s = match c s with
      | (.ok a, s') => k a s'
      | (.error e, s') => (.error e, s') := rfl

@[simp] theorem andThen_eq_bind (c : Call σ ε α) (k : α → Call σ ε β) :
    andThen c k = c >>= k := rfl

theorem run_bind_ok {c : Call σ ε α} {k : α → Call σ ε β} {s s' : σ} {a : α}
    (h : c s = (.ok a, s')) : (c >>= k) s = k a s' := by
  rw [run_bind, h]

theorem run_bind_error {c : Call σ ε α} {k : α → Call σ ε β} {s s' : σ} {e : ε}
    (h : c s = (.error e, s')) : (c >>= k) s = (.error e, s') := by
  rw [run_bind, h]

theorem of_bind_ok {c : Call σ ε α} {k : α → Call σ ε β} {s s' : σ} {b : β}
    (h : (c >>= k) s = (.ok b, s')) : ∃ a mid, c s = (.ok a, mid) ∧ k a mid = (.ok b, s') := by
  rw [run_bind] at h
  rcases hc : c s with ⟨e | a, mid⟩
  · rw [hc] at h
    cases h
  · rw [hc] at h
    exact ⟨a, mid, rfl, h⟩

@[simp] theorem bind_pure_left (a : α) (k : α → Call σ ε β) : (pure a : Call σ ε α) >>= k = k a :=
  rfl

@[simp] theorem bind_ret_left (a : α) (k : α → Call σ ε β) : (ret a : Call σ ε α) >>= k = k a :=
  rfl

@[simp] theorem bind_raise_left (e : ε) (k : α → Call σ ε β) :
    (raise e : Call σ ε α) >>= k = raise e :=
  rfl

theorem bind_assoc {γ : Type w} (c : Call σ ε α) (k : α → Call σ ε β) (k' : β → Call σ ε γ) :
    (c >>= k) >>= k' = c >>= fun a => k a >>= k' := by
  funext s
  rcases hrun : c s with ⟨e | a, s'⟩
  · rw [run_bind_error hrun, run_bind_error (run_bind_error hrun)]
  · rw [run_bind_ok hrun, run_bind, run_bind_ok hrun]
    rfl

theorem foldEach_append {ι : Type x} (body : β → ι → Call σ ε β) (start : β) (xs ys : List ι) :
    foldEach body start (xs ++ ys) =
      foldEach body start xs >>= fun acc => foldEach body acc ys := by
  funext s
  induction xs generalizing start s with
  | nil => rfl
  | cons x rest ih =>
    show (body start x >>= fun acc => foldEach body acc (rest ++ ys)) s =
      ((body start x >>= fun acc => foldEach body acc rest) >>= fun acc => foldEach body acc ys) s
    rcases hrun : body start x s with ⟨e | acc, s'⟩
    · rw [run_bind_error hrun, run_bind_error (run_bind_error hrun)]
    · rw [run_bind_ok hrun, ih, run_bind, run_bind, run_bind_ok hrun]

theorem run_of_outcome {c : Call σ ε α} {s : σ} {outcome : Except ε α} (h : (c s).1 = outcome) :
    c s = (outcome, (c s).2) := by
  rw [← h]

theorem run_attempt (c : Call σ ε α) (handler : ε → Call σ ε α) (s : σ) :
    attempt c handler s = match c s with
      | (.ok a, s') => (.ok a, s')
      | (.error e, s') => handler e s' := rfl

end Call

open Call

/-! ### Pre- and postconditions -/

section Triples

variable {σ : Type u} {ε : Type v} {α : Type w} {β : Type w} {ι : Type x}

/-- `Q` of the value of a call that returned, `E` of the exception of one that
    raised. -/
def Ends (Q : α → Prop) (E : ε → Prop) : Except ε α → Prop
  | .ok a => Q a
  | .error e => E e

theorem Ends.imp {Q Q' : α → Prop} {E E' : ε → Prop} {outcome : Except ε α}
    (h : Ends Q E outcome) (hok : ∀ a, Q a → Q' a) (herror : ∀ e, E e → E' e) :
    Ends Q' E' outcome := by
  cases outcome with
  | ok a => exact hok a h
  | error e => exact herror e h

theorem ends_const {φ : Prop} (h : φ) (outcome : Except ε α) :
    Ends (fun _ => φ) (fun _ => φ) outcome := by
  cases outcome <;> exact h

theorem Ends.of_ok {Q : α → Prop} {E : ε → Prop} {outcome : Except ε α} {a : α}
    (h : Ends Q E outcome) (hok : outcome = .ok a) : Q a := by
  subst hok
  exact h

theorem Ends.of_const {φ : Prop} {outcome : Except ε α}
    (h : Ends (fun _ => φ) (fun _ => φ) outcome) : φ := by
  cases outcome <;> exact h

/-- From every state satisfying `P`, the call `c` either returns a value and a
    state satisfying `Q`, or raises an exception in a state satisfying `E`. -/
def Triple (P : σ → Prop) (c : Call σ ε α) (Q : α → σ → Prop) (E : ε → σ → Prop) : Prop :=
  ∀ s, P s → Ends (fun a => Q a (c s).2) (fun e => E e (c s).2) (c s).1

theorem Triple.consequence {P P' : σ → Prop} {c : Call σ ε α} {Q Q' : α → σ → Prop}
    {E E' : ε → σ → Prop} (h : Triple P c Q E) (hpre : ∀ s, P' s → P s)
    (hpost : ∀ a s, Q a s → Q' a s) (hexc : ∀ e s, E e s → E' e s) :
    Triple P' c Q' E' :=
  fun s hs => (h s (hpre s hs)).imp (fun a => hpost a _) fun e => hexc e _

theorem Triple.of_ok {P : σ → Prop} {c : Call σ ε α} {Q : α → σ → Prop} {E : ε → σ → Prop}
    (h : Triple P c Q E) {s s' : σ} {a : α} (hs : P s) (hrun : c s = (.ok a, s')) : Q a s' := by
  have hends := h s hs
  rw [hrun] at hends
  exact hends

theorem Triple.assuming {φ : Prop} {P : σ → Prop} {c : Call σ ε α} {Q : α → σ → Prop}
    {E : ε → σ → Prop} (h : φ → Triple P c Q E) : Triple (fun s => φ ∧ P s) c Q E :=
  fun s hs => h hs.1 s hs.2

theorem triple_pure {P : σ → Prop} {Q : α → σ → Prop} {E : ε → σ → Prop} (a : α)
    (h : ∀ s, P s → Q a s) : Triple P (pure a : Call σ ε α) Q E :=
  h

/-- The sequencing rule: the continuation runs from where `c` returned, and an
    exception of `c` is an exception of the whole. -/
theorem Triple.bind {P : σ → Prop} {c : Call σ ε α} {k : α → Call σ ε β}
    {M : α → σ → Prop} {Q : β → σ → Prop} {E : ε → σ → Prop}
    (hc : Triple P c M E) (hk : ∀ a, Triple (M a) (k a) Q E) :
    Triple P (c >>= k) Q E := by
  intro s hs
  have hmid := hc s hs
  rw [run_bind]
  rcases hcs : c s with ⟨_ | a, s'⟩
  · rw [hcs] at hmid; exact hmid
  · rw [hcs] at hmid; exact hk a s' hmid

theorem Triple.seq {s : σ} {c : Call σ ε α} {k : α → Call σ ε β} {M : α → σ → Prop}
    {Q : β → σ → Prop} {E : ε → σ → Prop} (hc : Triple (· = s) c M E)
    (hk : ∀ a s', M a s' → Triple (· = s') (k a) Q E) : Triple (· = s) (c >>= k) Q E :=
  hc.bind fun a s' hs' => hk a s' hs' s' rfl

theorem Triple.attempt {P : σ → Prop} {c : Call σ ε α} {handler : ε → Call σ ε α}
    {Q : α → σ → Prop} {H E : ε → σ → Prop}
    (hc : Triple P c Q H) (hh : ∀ e, Triple (H e) (handler e) Q E) :
    Triple P (Call.attempt c handler) Q E := by
  intro s hs
  have hmid := hc s hs
  rw [run_attempt]
  rcases hcs : c s with ⟨e | a, s'⟩
  · rw [hcs] at hmid; exact hh e s' hmid
  · rw [hcs] at hmid; exact hmid

theorem Triple.when {P : σ → Prop} {b : Bool} {c : Call σ ε PUnit.{w + 1}}
    {Q : PUnit.{w + 1} → σ → Prop} {E : ε → σ → Prop} (hc : b = true → Triple P c Q E)
    (hskip : b = false → ∀ s, P s → Q ⟨⟩ s) : Triple P (Call.when b c) Q E := by
  cases b with
  | true => exact hc rfl
  | false => exact hskip rfl

/-- The loop rule.  The invariant `I` speaks about the items already handled;
    an exception in the body leaves the loop with what the body guarantees. -/
theorem Triple.forEach {I : List ι → σ → Prop} {E : ε → σ → Prop}
    {body : ι → Call σ ε PUnit.{w + 1}} (xs : List ι)
    (hbody : ∀ done x rest, xs = done ++ x :: rest →
      Triple (I done) (body x) (fun _ => I (done ++ [x])) E) :
    Triple (I []) (Call.forEach body xs) (fun _ => I xs) E := by
  -- induction on the items still to come, the handled ones as a prefix
  suffices hgen : ∀ rest done, xs = done ++ rest →
      Triple (I done) (Call.forEach body rest) (fun _ => I xs) E from hgen xs [] rfl
  intro rest
  induction rest with
  | nil =>
    intro done hdone s hs
    have hxs : xs = done := by simpa using hdone
    rw [hxs]; exact hs
  | cons x rest ih =>
    intro done hdone
    refine Triple.bind (hbody done x rest hdone) fun _ => ?_
    exact ih (done ++ [x]) (by simp [hdone])

theorem Triple.foldEach {I : List ι → β → σ → Prop} {E : ε → σ → Prop}
    {body : β → ι → Call σ ε β} (start : β) (xs : List ι)
    (hbody : ∀ done x rest acc, xs = done ++ x :: rest →
      Triple (I done acc) (body acc x) (I (done ++ [x])) E) :
    Triple (I [] start) (Call.foldEach body start xs) (I xs) E := by
  suffices hgen : ∀ rest done acc, xs = done ++ rest →
      Triple (I done acc) (Call.foldEach body acc rest) (I xs) E from hgen xs [] start rfl
  intro rest
  induction rest with
  | nil =>
    intro done acc hdone s hs
    have hxs : xs = done := by simpa using hdone
    rw [hxs]; exact hs
  | cons x rest ih =>
    intro done acc hdone
    refine Triple.bind (hbody done x rest acc hdone) fun acc' => ?_
    exact ih (done ++ [x]) acc' (by simp [hdone])

theorem Triple.and {P P' : σ → Prop} {c : Call σ ε α} {Q Q' : α → σ → Prop} {E E' : ε → σ → Prop}
    (h : Triple P c Q E) (h' : Triple P' c Q' E') :
    Triple (fun s => P s ∧ P' s) c (fun a s => Q a s ∧ Q' a s) (fun e s => E e s ∧ E' e s) := by
  intro s hs
  have hleft := h s hs.1
  have hright := h' s hs.2
  rcases hcs : c s with ⟨e | a, s'⟩
  · rw [hcs] at hleft hright; exact ⟨hleft, hright⟩
  · rw [hcs] at hleft hright; exact ⟨hleft, hright⟩

end Triples

/-! ### Returning -/

section Returning

variable {σ : Type u} {ε : Type v} {α : Type w} {β : Type w} {ι : Type x}

/-- The call does not raise from this state. -/
def Returns (c : Call σ ε α) (s : σ) : Prop := ∃ a s', c s = (.ok a, s')

theorem returns_pure (a : α) (s : σ) : Returns (pure a : Call σ ε α) s := ⟨a, s, rfl⟩

theorem not_returns_raise (e : ε) (s : σ) : ¬Returns (raise e : Call σ ε α) s := by
  rintro ⟨a, s', h⟩
  cases h

theorem returns_modify (f : σ → σ) (s : σ) :
    Returns (Call.modify f : Call σ ε PUnit.{w + 1}) s :=
  ⟨⟨⟩, f s, rfl⟩

theorem returns_bind {c : Call σ ε α} {k : α → Call σ ε β} {s : σ} :
    Returns (c >>= k) s ↔ ∃ a s', c s = (.ok a, s') ∧ Returns (k a) s' := by
  constructor
  · rintro ⟨b, last, h⟩
    obtain ⟨a, s', hc, hk⟩ := of_bind_ok h
    exact ⟨a, s', hc, b, last, hk⟩
  · rintro ⟨a, s', hc, b, last, hk⟩
    exact ⟨b, last, (run_bind_ok hc).trans hk⟩

theorem returns_forEach {body : ι → Call σ ε PUnit.{w + 1}} {P : ι → σ → Prop}
    (hbody : ∀ x s, Returns (body x) s ↔ P x s)
    (hstable : ∀ x y s, P y (body x s).2 ↔ P y s) (xs : List ι) (s : σ) :
    Returns (forEach body xs) s ↔ ∀ x ∈ xs, P x s := by
  induction xs generalizing s with
  | nil => exact iff_of_true (returns_pure _ s) (List.forall_mem_nil _)
  | cons x rest ih =>
    rw [List.forall_mem_cons, ← hbody x s]
    refine returns_bind.trans ?_
    constructor
    · rintro ⟨a, s', hrun, hrest⟩
      refine ⟨⟨a, s', hrun⟩, fun y hy => ?_⟩
      rw [← hstable x y s, hrun]
      exact (ih s').mp hrest y hy
    · rintro ⟨⟨a, s', hrun⟩, hrest⟩
      refine ⟨a, s', hrun, (ih s').mpr fun y hy => ?_⟩
      have hafter := (hstable x y s).mpr (hrest y hy)
      rw [hrun] at hafter
      exact hafter

end Returning

/-! ### Frames -/

section Frames

variable {σ : Type u} {ε : Type v} {α : Type w} {β : Type w} {ι : Type x}

/-- Every run of `c` moves along `R`, whether it returns or raises. -/
def Within (R : σ → σ → Prop) (c : Call σ ε α) : Prop := ∀ s, R s (c s).2

variable {R : σ → σ → Prop}

theorem within_pure [Std.Refl R] (a : α) : Within R (pure a : Call σ ε α) :=
  fun s => Std.Refl.refl s

theorem within_ret [Std.Refl R] (a : α) : Within R (ret a : Call σ ε α) :=
  fun s => Std.Refl.refl s

theorem within_raise [Std.Refl R] (e : ε) : Within R (raise e : Call σ ε α) :=
  fun s => Std.Refl.refl s

theorem within_read [Std.Refl R] (f : σ → α) : Within R (read f : Call σ ε α) :=
  fun s => Std.Refl.refl s

theorem within_modify {f : σ → σ} (h : ∀ s, R s (f s)) :
    Within R (Call.modify f : Call σ ε PUnit.{w + 1}) :=
  h

theorem within_bind [IsTrans σ R] {c : Call σ ε α} {k : α → Call σ ε β}
    (hc : Within R c) (hk : ∀ a, Within R (k a)) : Within R (c >>= k) := by
  intro s
  have hmid := hc s
  rw [run_bind]
  rcases hcs : c s with ⟨_ | a, s'⟩
  · rw [hcs] at hmid; exact hmid
  · rw [hcs] at hmid; exact IsTrans.trans _ _ _ hmid (hk a s')

theorem within_rest [Std.Refl R] {c : Call σ ε α} {k : α → Call σ ε β}
    (hk : ∀ a, Within R (k a)) (s : σ) : R (c s).2 ((c >>= k) s).2 := by
  rw [run_bind]
  rcases hcs : c s with ⟨e | a, s'⟩
  · exact Std.Refl.refl s'
  · exact hk a s'

theorem within_attempt [IsTrans σ R] {c : Call σ ε α} {handler : ε → Call σ ε α}
    (hc : Within R c) (hh : ∀ e, Within R (handler e)) : Within R (attempt c handler) := by
  intro s
  have hmid := hc s
  rw [run_attempt]
  rcases hcs : c s with ⟨e | a, s'⟩
  · rw [hcs] at hmid; exact IsTrans.trans _ _ _ hmid (hh e s')
  · rw [hcs] at hmid; exact hmid

theorem within_when [Std.Refl R] {b : Bool} {c : Call σ ε PUnit.{w + 1}}
    (hc : b = true → Within R c) : Within R (Call.when b c) := by
  cases b with
  | true => exact hc rfl
  | false => exact within_ret _

theorem within_forEach [Std.Refl R] [IsTrans σ R] {body : ι → Call σ ε PUnit.{w + 1}}
    (xs : List ι) (hbody : ∀ x ∈ xs, Within R (body x)) : Within R (forEach body xs) := by
  induction xs with
  | nil => exact within_ret _
  | cons x rest ih =>
    refine within_bind (hbody x (by simp)) fun _ => ?_
    exact ih fun y hy => hbody y (by simp [hy])

theorem within_foldEach [Std.Refl R] [IsTrans σ R] {body : β → ι → Call σ ε β}
    (xs : List ι) (hbody : ∀ acc, ∀ x ∈ xs, Within R (body acc x)) (acc : β) :
    Within R (foldEach body acc xs) := by
  induction xs generalizing acc with
  | nil => exact within_ret _
  | cons x rest ih =>
    refine within_bind (hbody acc x (by simp)) fun acc' => ?_
    exact ih (fun a y hy => hbody a y (by simp [hy])) acc'

theorem Within.mono {R' : σ → σ → Prop} {c : Call σ ε α} (h : Within R c)
    (himp : ∀ s s', R s s' → R' s s') : Within R' c :=
  fun s => himp _ _ (h s)

theorem triple_within [IsTrans σ R] {c : Call σ ε α} (h : Within R c) (start : σ) :
    Triple (R start) c (fun _ => R start) (fun _ => R start) := by
  intro s hs
  exact ends_const (IsTrans.trans _ _ _ hs (h s)) _

end Frames

end Effects
