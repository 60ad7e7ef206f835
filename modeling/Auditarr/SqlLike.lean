/-
  Auditarr/SqlLike.lean
  =====================
  **`text LIKE pattern`.**

  In a pattern `%` stands for any text and `_` for any one character; a database may have a
  character that takes their meaning from the next, and may take letters for one another.
  A text between two `%` that has none of these is looked for literally (`like_contains`); one
  that has is found in a text that does not contain it (`like_sampleOf`,
  `plain_of_infix_sampleOf`).
-/
import Mathlib.Data.List.Infix
import Mathlib.Data.List.Forall2

namespace SqlLike

/-- How a database reads patterns: which character of a text a character of the pattern
    stands for, and what escapes the next one, if anything does. -/
structure Dialect where
  same : Char → Char → Bool
  escape : Option Char
  same_self : ∀ c, same c c = true

/-- Characters compare as they are, and a backslash escapes. -/
def postgresql : Dialect where
  same c x := c == x
  escape := some '\\'
  same_self := beq_self_eq_true

inductive Token where
  | many
  | single
  | char (c : Char)
deriving DecidableEq

/-- What a character stands for that is not escaped. -/
def token (c : Char) : Token :=
  if c = '%' then .many else if c = '_' then .single else .char c

/-- The tokens of a pattern. -/
def tokens (d : Dialect) : List Char → List Token
  | [] => []
  | [c] => [token c]
  | c :: e :: rest =>
      if d.escape = some c then .char e :: tokens d rest else token c :: tokens d (e :: rest)

/-- The tokens stand for the text. -/
def stands (d : Dialect) : List Token → List Char → Bool
  | [], text => text.isEmpty
  | .many :: rest, text => text.tails.any (stands d rest)
  | .single :: rest, text => match text with
      | [] => false
      | _ :: text => stands d rest text
  | .char c :: rest, text => match text with
      | [] => false
      | x :: text => d.same c x && stands d rest text

def like (d : Dialect) (text pattern : String) : Bool := stands d (tokens d pattern.toList) text.toList

variable {d : Dialect}

/-! ### What the tokens stand for -/

@[simp] theorem stands_nil {text : List Char} : stands d [] text = true ↔ text = [] := by
  simp [stands]

@[simp] theorem stands_many {rest : List Token} {text : List Char} :
    stands d (.many :: rest) text = true ↔ ∃ before after, before ++ after = text ∧
      stands d rest after = true := by
  simp only [stands, List.any_eq_true, List.mem_tails]
  constructor
  · rintro ⟨after, ⟨before, hsplit⟩, hrest⟩
    exact ⟨before, after, hsplit, hrest⟩
  · rintro ⟨before, after, hsplit, hrest⟩
    exact ⟨after, ⟨before, hsplit⟩, hrest⟩

@[simp] theorem stands_single {rest : List Token} {text : List Char} :
    stands d (.single :: rest) text = true ↔ ∃ c after, c :: after = text ∧
      stands d rest after = true := by
  cases text with
  | nil => simp [stands]
  | cons c after => simp [stands]

@[simp] theorem stands_char {c : Char} {rest : List Token} {text : List Char} :
    stands d (.char c :: rest) text = true ↔ ∃ x after, x :: after = text ∧ d.same c x = true ∧
      stands d rest after = true := by
  cases text with
  | nil => simp [stands]
  | cons x after => simp [stands]

theorem stands_many_end (text : List Char) : stands d [.many] text = true := by
  rw [stands_many]
  exact ⟨text, [], List.append_nil text, stands_nil.mpr rfl⟩

theorem stands_chars {chars : List Char} {rest : List Token} {text : List Char} :
    stands d (chars.map .char ++ rest) text = true ↔ ∃ before after, before ++ after = text ∧
      List.Forall₂ (fun c x => d.same c x = true) chars before ∧ stands d rest after = true := by
  induction chars generalizing text with
  | nil => simp
  | cons c chars ih =>
    rw [List.map_cons, List.cons_append, stands_char]
    constructor
    · rintro ⟨x, text, rfl, hsame, hrest⟩
      obtain ⟨before, after, rfl, hbefore, hafter⟩ := ih.mp hrest
      exact ⟨x :: before, after, rfl, .cons hsame hbefore, hafter⟩
    · rintro ⟨before, after, rfl, hbefore, hafter⟩
      rcases hbefore with _ | ⟨hsame, hbefore⟩
      exact ⟨_, _, rfl, hsame, ih.mpr ⟨_, after, rfl, hbefore, hafter⟩⟩

/-! ### Plain texts -/

/-- The character stands for itself in every pattern. -/
def Plain (d : Dialect) (c : Char) : Prop := c ≠ '%' ∧ c ≠ '_' ∧ d.escape ≠ some c

instance (d : Dialect) (c : Char) : Decidable (Plain d c) :=
  inferInstanceAs (Decidable (_ ∧ _ ∧ _))

theorem Plain.token {c : Char} (h : Plain d c) : token c = .char c := by
  rw [SqlLike.token, if_neg h.1, if_neg h.2.1]

theorem tokens_plain {chars rest : List Char} (h : ∀ c ∈ chars, Plain d c) :
    tokens d (chars ++ rest) = chars.map .char ++ tokens d rest := by
  induction chars with
  | nil => rfl
  | cons c chars ih =>
    have hc := h c List.mem_cons_self
    have hchars := ih fun x hx => h x (List.mem_cons_of_mem _ hx)
    rw [List.cons_append, List.map_cons, List.cons_append, ← hchars, ← hc.token]
    cases chars ++ rest with
    | nil => rfl
    | cons e rest => rw [tokens, if_neg hc.2.2]

/-- Characters of a pattern stand for those of a text that they are. -/
def ExactOn (d : Dialect) (chars text : List Char) : Prop :=
  ∀ c ∈ chars, ∀ x ∈ text, d.same c x = true ↔ c = x

theorem ExactOn.forall₂ {chars text before after : List Char} (h : ExactOn d chars text)
    (hsplit : before ++ after = text) :
    List.Forall₂ (fun c x => d.same c x = true) chars before ↔ chars = before := by
  constructor
  · intro hsame
    rw [← List.forall₂_eq_eq_eq]
    refine List.forall₂_iff_zip.mpr ⟨hsame.length_eq, ?_⟩
    intro c x hpair
    obtain ⟨hc, hx⟩ := List.of_mem_zip hpair
    refine (h c hc x ?_).mp (List.forall₂_zip hsame hpair)
    rw [← hsplit]
    exact List.mem_append_left _ hx
  · rintro rfl
    exact List.forall₂_same.mpr fun c _ => d.same_self c

theorem like_begins {text pattern : String} (hexact : ExactOn d pattern.toList text.toList)
    (hplain : ∀ c ∈ pattern.toList, Plain d c) :
    like d text (pattern ++ "%") = true ↔ pattern.toList <+: text.toList := by
  have hpattern : (pattern ++ "%").toList = pattern.toList ++ ['%'] := String.toList_append
  have hend : tokens d ['%'] = [.many] := rfl
  rw [like, hpattern, tokens_plain hplain, hend, stands_chars]
  constructor
  · rintro ⟨before, after, hsplit, hbefore, -⟩
    rw [hexact.forall₂ hsplit] at hbefore
    exact ⟨after, by rw [hbefore, hsplit]⟩
  · rintro ⟨after, hsplit⟩
    exact ⟨pattern.toList, after, hsplit, (hexact.forall₂ hsplit).mpr rfl, stands_many_end after⟩

/-- The pattern that looks for a text. -/
def containing (needle : String) : String := "%" ++ needle ++ "%"

theorem toList_containing (needle : String) :
    (containing needle).toList = '%' :: (needle.toList ++ ['%']) := by
  simp [containing]

theorem like_containing {text needle : String} (hescape : d.escape ≠ some '%') :
    like d text (containing needle) = true ↔ ∃ before after, before ++ after = text.toList ∧
      stands d (tokens d (needle.toList ++ ['%'])) after = true := by
  have htokens : tokens d ('%' :: (needle.toList ++ ['%'])) =
      .many :: tokens d (needle.toList ++ ['%']) := by
    rcases hrest : needle.toList ++ ['%'] with _ | ⟨e, rest⟩
    · simp at hrest
    · rw [tokens, if_neg hescape]
      rfl
  rw [like, toList_containing, htokens, stands_many]

theorem like_contains {text needle : String} (hexact : ExactOn d needle.toList text.toList)
    (hescape : d.escape ≠ some '%') (hplain : ∀ c ∈ needle.toList, Plain d c) :
    like d text (containing needle) = true ↔ needle.toList <:+: text.toList := by
  have hend : tokens d ['%'] = [.many] := rfl
  rw [like_containing hescape, tokens_plain hplain, hend]
  constructor
  · rintro ⟨before, after, hsplit, hstands⟩
    obtain ⟨found, rest, rfl, hfound, -⟩ := stands_chars.mp hstands
    have hexact' : ExactOn d needle.toList (found ++ rest) := by
      intro c hc x hx
      refine hexact c hc x ?_
      rw [← hsplit]
      exact List.mem_append_right _ hx
    rw [hexact'.forall₂ rfl] at hfound
    exact ⟨before, rest, by rw [hfound, ← hsplit, List.append_assoc]⟩
  · rintro ⟨before, rest, hsplit⟩
    refine ⟨before, needle.toList ++ rest, by rw [← hsplit, List.append_assoc], ?_⟩
    refine stands_chars.mpr ⟨_, rest, rfl, ?_, stands_many_end rest⟩
    exact List.forall₂_same.mpr fun c _ => d.same_self c

/-! ### Texts that are not plain -/

/-- A text that the tokens stand for, with nothing for `%` and a letter for `_`. -/
def sample : List Token → List Char
  | [] => []
  | .many :: rest => sample rest
  | .single :: rest => 'x' :: sample rest
  | .char c :: rest => c :: sample rest

theorem stands_sample (toks : List Token) : stands d toks (sample toks) = true := by
  induction toks with
  | nil => exact stands_nil.mpr rfl
  | cons t rest ih =>
    cases t with
    | many => exact stands_many.mpr ⟨[], _, rfl, ih⟩
    | single => exact stands_single.mpr ⟨_, _, rfl, ih⟩
    | char c => exact stands_char.mpr ⟨_, _, rfl, d.same_self c, ih⟩

theorem sample_tokens (hescape : d.escape ≠ some '%') (chars : List Char) :
    (sample (tokens d (chars ++ ['%']))).length ≤ chars.length ∧
      (sample (tokens d (chars ++ ['%'])) = chars → ∀ c ∈ chars, Plain d c) := by
  induction hlength : chars.length using Nat.strong_induction_on generalizing chars with
  | _ n ih =>
    rcases chars with _ | ⟨c, rest⟩
    · exact ⟨Nat.zero_le n, fun _ _ hc => absurd hc List.not_mem_nil⟩
    · rw [List.length_cons] at hlength
      obtain ⟨e, after, hafter⟩ : ∃ e after, rest ++ ['%'] = e :: after :=
        List.exists_cons_of_ne_nil (by simp)
      rw [List.cons_append, hafter, tokens, ← hafter]
      by_cases hc : d.escape = some c
      · -- the escape takes the next character with it, be it the `%` at the end
        rw [if_pos hc]
        rcases rest with _ | ⟨e', rest⟩
        · obtain ⟨rfl, rfl⟩ := List.cons.inj hafter
          refine ⟨by rw [← hlength]; exact le_rfl, ?_⟩
          intro hsame
          rw [← (List.cons.inj hsame).1] at hc
          exact absurd hc hescape
        · rw [List.cons_append, List.cons.injEq] at hafter
          obtain ⟨rfl, rfl⟩ := hafter
          rw [List.length_cons] at hlength
          obtain ⟨hshort, -⟩ := ih rest.length (by omega) rest rfl
          have hlt : (sample (.char e' :: tokens d (rest ++ ['%']))).length < n := by
            rw [sample, List.length_cons]
            omega
          refine ⟨hlt.le, ?_⟩
          intro hsame
          rw [hsame, List.length_cons, List.length_cons] at hlt
          omega
      · rw [if_neg hc]
        obtain ⟨hshort, hplain⟩ := ih rest.length (by omega) rest rfl
        by_cases hmany : c = '%'
        · rw [token, if_pos hmany, sample]
          refine ⟨by omega, ?_⟩
          intro hsame
          rw [hsame, List.length_cons] at hshort
          omega
        · by_cases hsingle : c = '_'
          · rw [token, if_neg hmany, if_pos hsingle, sample, List.length_cons]
            refine ⟨by omega, ?_⟩
            intro hsame
            rw [← (List.cons.inj hsame).1] at hsingle
            exact absurd hsingle (by decide)
          · rw [token, if_neg hmany, if_neg hsingle, sample, List.length_cons]
            refine ⟨by omega, ?_⟩
            intro hsame x hx
            rcases List.mem_cons.mp hx with rfl | hx
            · exact ⟨hmany, hsingle, hc⟩
            · exact hplain (List.cons.inj hsame).2 x hx

/-- The text that is found for a needle although it may not contain it. -/
def sampleOf (d : Dialect) (needle : String) : String :=
  String.ofList (sample (tokens d (needle.toList ++ ['%'])))

theorem like_sampleOf (hescape : d.escape ≠ some '%') (needle : String) :
    like d (sampleOf d needle) (containing needle) = true := by
  rw [like_containing hescape, sampleOf, String.toList_ofList]
  exact ⟨[], _, rfl, stands_sample _⟩

theorem length_sampleOf (hescape : d.escape ≠ some '%') (needle : String) :
    (sampleOf d needle).toList.length ≤ needle.toList.length := by
  rw [sampleOf, String.toList_ofList]
  exact (sample_tokens hescape needle.toList).1

theorem plain_of_infix_sampleOf (hescape : d.escape ≠ some '%') {needle : String}
    (h : needle.toList <:+: (sampleOf d needle).toList) : ∀ c ∈ needle.toList, Plain d c := by
  have hsame := h.eq_of_length_le (length_sampleOf hescape needle)
  rw [sampleOf, String.toList_ofList] at hsame
  exact (sample_tokens hescape needle.toList).2 hsame.symm

theorem mem_sample_token {c a : Char} {rest : List Token} (h : c ∈ sample (token a :: rest)) :
    c = 'x' ∨ c = a ∨ c ∈ sample rest := by
  unfold token at h
  split at h
  · exact .inr (.inr h)
  · split at h
    · rcases List.mem_cons.mp h with rfl | h
      · exact .inl rfl
      · exact .inr (.inr h)
    · rcases List.mem_cons.mp h with rfl | h
      · exact .inr (.inl rfl)
      · exact .inr (.inr h)

theorem mem_sample {chars : List Char} {c : Char} (h : c ∈ sample (tokens d chars)) :
    c = 'x' ∨ c ∈ chars := by
  induction chars using tokens.induct d with
  | case1 => cases h
  | case2 a =>
    rcases mem_sample_token h with hx | rfl | h
    · exact .inl hx
    · exact .inr List.mem_cons_self
    · cases h
  | case3 a e rest hescape ih =>
    rw [tokens, if_pos hescape] at h
    rcases List.mem_cons.mp h with rfl | h
    · exact .inr (by simp)
    · exact (ih h).imp_right fun hc => by simp [hc]
  | case4 a e rest hescape ih =>
    rw [tokens, if_neg hescape] at h
    rcases mem_sample_token h with hx | rfl | h
    · exact .inl hx
    · exact .inr List.mem_cons_self
    · exact (ih h).imp_right fun hc => List.mem_cons_of_mem _ hc

end SqlLike
