/-
  Auditarr/InvertedIndex.lean
  ===========================
  **An inverted index over documents that may replace each other.**

  A document is filed under each of its terms.  A later document with the same key replaces what
  is known about the key, but the terms of the earlier one still lead to it; so a lookup gives
  candidates, of which those that do not answer the query have to be dropped
  (`filterMap_candidates`).
-/
import Mathlib.Data.List.Dedup
import Mathlib.Data.List.Perm.Basic
import Mathlib.Logic.Function.Basic

namespace InvertedIndex

universe u v w

variable {κ : Type u} {τ : Type v} {φ : Type w}

/-- What is known of each document, and the documents filed under each term. -/
structure Index (κ : Type u) (τ : Type v) (φ : Type w) where
  docs : κ → Option φ
  postings : τ → List κ

namespace Index

def empty : Index κ τ φ := ⟨fun _ => none, fun _ => []⟩

/-- Every document is filed under each of its terms. -/
def Covers (terms : φ → List τ) (index : Index κ τ φ) : Prop :=
  ∀ k doc, index.docs k = some doc → ∀ t ∈ terms doc, k ∈ index.postings t

variable {terms : φ → List τ}

theorem covers_empty : Covers terms (empty : Index κ τ φ) := nofun

section Lookup

variable [DecidableEq κ]

/-- The documents that are filed under one of the terms. -/
def candidates (index : Index κ τ φ) (query : List τ) : List κ :=
  (query.flatMap index.postings).dedup

theorem mem_candidates {index : Index κ τ φ} {query : List τ} {k : κ} :
    k ∈ index.candidates query ↔ ∃ t ∈ query, k ∈ index.postings t := by
  simp [candidates]

end Lookup

section Build

variable [DecidableEq κ] [DecidableEq τ]

/-- File a document. -/
def add (terms : φ → List τ) (index : Index κ τ φ) (doc : κ × φ) : Index κ τ φ where
  docs := Function.update index.docs doc.1 (some doc.2)
  postings t := if t ∈ terms doc.2 then (index.postings t).insert doc.1 else index.postings t

def build (terms : φ → List τ) (docs : List (κ × φ)) : Index κ τ φ := docs.foldl (add terms) empty

theorem Covers.add {index : Index κ τ φ} (h : Covers terms index) (doc : κ × φ) :
    Covers terms (index.add terms doc) := by
  intro k doc' hdoc t ht
  simp only [Index.add] at hdoc ⊢
  by_cases hk : k = doc.1
  · subst hk
    rw [Function.update_self] at hdoc
    cases hdoc
    simp [ht]
  · rw [Function.update_of_ne hk] at hdoc
    have hfiled := h k doc' hdoc t ht
    split
    · exact List.mem_insert_of_mem hfiled
    · exact hfiled

theorem covers_build (docs : List (κ × φ)) : Covers terms (build terms docs) := by
  have hfold : ∀ index : Index κ τ φ, Covers terms index →
      Covers terms (docs.foldl (Index.add terms) index) := by
    induction docs with
    | nil => exact fun _ h => h
    | cons doc rest ih => exact fun index h => ih _ (h.add doc)
  exact hfold empty covers_empty

theorem docs_build (terms : φ → List τ) (docs : List (κ × φ)) (k : κ) :
    (build terms docs).docs k = (docs.reverse.find? fun doc => doc.1 = k).map Prod.snd := by
  have hfold : ∀ index : Index κ τ φ, (docs.foldl (Index.add terms) index).docs k =
      ((docs.reverse.find? fun doc => doc.1 = k).map Prod.snd).or (index.docs k) := by
    induction docs with
    | nil => simp
    | cons doc rest ih =>
      intro index
      rw [List.foldl_cons, ih, List.reverse_cons, List.find?_append]
      cases rest.reverse.find? fun doc => doc.1 = k with
      | some found => simp
      | none =>
        by_cases hk : doc.1 = k
        · simp [Index.add, hk]
        · simp [Index.add, hk, Function.update_of_ne (Ne.symm hk)]
  simpa [build, empty] using hfold empty

end Build

end Index

/-- What is found does not depend on which documents are looked at, as long as those that answer
    are among them. -/
theorem filterMap_perm {β : Type*} [DecidableEq κ] {answer : κ → Option β} {l l' : List κ}
    (hl : l.Nodup) (hl' : l'.Nodup) (h : ∀ k, answer k ≠ none → (k ∈ l ↔ k ∈ l')) :
    (l.filterMap answer).Perm (l'.filterMap answer) := by
  have hfilter : ∀ keys : List κ,
      keys.filterMap answer = (keys.filter fun k => (answer k).isSome).filterMap answer := by
    intro keys
    rw [List.filterMap_filter]
    refine List.filterMap_congr fun k _ => ?_
    cases answer k <;> simp
  rw [hfilter l, hfilter l']
  apply List.Perm.filterMap
  rw [List.perm_ext_iff_of_nodup (hl.filter _) (hl'.filter _)]
  intro k
  simp only [List.mem_filter]
  refine and_congr_left fun hsome => h k ?_
  rintro hnone
  simp [hnone] at hsome

/-- Going through the candidates of a query finds what going through all documents does, where
    a document answers only if it has one of the terms. -/
theorem filterMap_candidates {β : Type*} [DecidableEq κ] [DecidableEq τ] {terms : φ → List τ}
    {index : Index κ τ φ} (hcovers : index.Covers terms) {query : List τ} {answer : κ → Option β}
    {looked all : List κ} (hlooked : looked.Perm (index.candidates query)) (hall : all.Nodup)
    (hknown : ∀ k doc, index.docs k = some doc → k ∈ all)
    (hanswer : ∀ k, answer k ≠ none →
      ∃ doc, index.docs k = some doc ∧ ∃ t ∈ query, t ∈ terms doc) :
    (looked.filterMap answer).Perm (all.filterMap answer) := by
  apply filterMap_perm (hlooked.nodup_iff.mpr (List.nodup_dedup _)) hall
  intro k hk
  obtain ⟨doc, hdoc, t, ht, hterm⟩ := hanswer k hk
  have hcandidate : k ∈ index.candidates query :=
    Index.mem_candidates.mpr ⟨t, ht, hcovers k doc hdoc t hterm⟩
  exact iff_of_true (hlooked.mem_iff.mpr hcandidate) (hknown k doc hdoc)

end InvertedIndex
