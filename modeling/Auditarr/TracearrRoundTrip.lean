/-
  Auditarr/TracearrRoundTrip.lean
  ===============================
  **What a pseudo-path gives back.**

  A leaf is read back as it was written where none of the texts in it looks like a separator
  that stands earlier than the one that was meant.
-/
import Auditarr.TracearrPath
import Mathlib.Data.List.DropRight

namespace TracearrPath

open PyValues

/-! ### Stripped texts -/

/-- A text that is not empty, and neither begins nor ends with a space. -/
structure Trimmed (cs : List Char) : Prop where
  first : ∃ c rest, cs = c :: rest ∧ isSpace c = false
  last : ∃ rest c, cs = rest ++ [c] ∧ isSpace c = false

section Trimmed

variable {cs a b : List Char}

theorem Trimmed.ne_nil (h : Trimmed cs) : cs ≠ [] := by
  obtain ⟨c, rest, rfl, -⟩ := h.first
  exact List.cons_ne_nil c rest

theorem Trimmed.dropWhile (h : Trimmed cs) : cs.dropWhile isSpace = cs := by
  obtain ⟨c, rest, rfl, hc⟩ := h.first
  rw [List.dropWhile_cons, hc, if_neg Bool.false_ne_true]

theorem Trimmed.append (ha : Trimmed a) (hb : Trimmed b) (middle : List Char) :
    Trimmed (a ++ middle ++ b) := by
  obtain ⟨c, rest, rfl, hc⟩ := ha.first
  obtain ⟨rest', c', rfl, hc'⟩ := hb.last
  constructor
  · exact ⟨c, rest ++ middle ++ (rest' ++ [c']), by simp, hc⟩
  · exact ⟨c :: rest ++ middle ++ rest', c', by simp, hc'⟩

theorem strip_of_trimmed (h : Trimmed cs) : strip (String.ofList cs) = String.ofList cs := by
  obtain ⟨rest, c, heq, hc⟩ := h.last
  rw [strip, String.toList_ofList, h.dropWhile, heq, List.reverse_append, List.reverse_singleton,
    List.singleton_append, List.dropWhile_cons, hc, if_neg Bool.false_ne_true, List.reverse_cons,
    List.reverse_reverse]

theorem trimmed_strip {s : String} (h : strip s ≠ "") : Trimmed (strip s).toList := by
  have hlist : (strip s).toList = (s.toList.dropWhile isSpace).rdropWhile isSpace := by
    rw [strip, String.toList_ofList]
    rfl
  have hne : (s.toList.dropWhile isSpace).rdropWhile isSpace ≠ [] := by
    intro hnil
    rw [hnil] at hlist
    exact h (String.toList_eq_nil_iff.mp hlist)
  rw [hlist]
  constructor
  · obtain ⟨rest, hprefix⟩ := List.rdropWhile_prefix isSpace (l := s.toList.dropWhile isSpace)
    cases hstart : (s.toList.dropWhile isSpace).rdropWhile isSpace with
    | nil => exact absurd hstart hne
    | cons c cs =>
      refine ⟨c, cs, rfl, ?_⟩
      rw [hstart] at hprefix
      have hhead := List.head?_dropWhile_not isSpace s.toList
      rw [← hprefix] at hhead
      simpa using hhead
  · refine ⟨_, _, (List.dropLast_append_getLast hne).symm, ?_⟩
    simpa using List.rdropWhile_last_not isSpace (s.toList.dropWhile isSpace) hne

end Trimmed

/-! ### Lazy groups -/

section Lazily

variable {β : Type} {rest : List Char → Option β} {group u cs : List Char} {b : β}

theorem lazily_append (hne : group ≠ []) (hline : '\n' ∉ group) (hrest : rest u = some b)
    (hfirst : ∀ start c, group = start ++ c → start ≠ [] → c ≠ [] → rest (c ++ u) = none) :
    lazily rest (group ++ u) = some (group, b) := by
  induction group with
  | nil => exact absurd rfl hne
  | cons c cs ih =>
    obtain ⟨hc, hcs⟩ := not_or.mp (List.mem_cons.not.mp hline)
    rw [List.cons_append, lazily, if_neg (Ne.symm hc)]
    cases cs with
    | nil => rw [List.nil_append, hrest]
    | cons d ds =>
      rw [hfirst [c] (d :: ds) rfl (List.cons_ne_nil _ _) (List.cons_ne_nil _ _)]
      have hmeant := ih (List.cons_ne_nil _ _) hcs fun start c' heq hstart hc' =>
        hfirst (c :: start) c' (by rw [heq]; rfl) (List.cons_ne_nil _ _) hc'
      simp only [hmeant, Option.map_some]

theorem lazily_eq_none (hline : '\n' ∉ cs) (h : lazily rest cs = none) (start c : List Char)
    (heq : cs = start ++ c) (hstart : start ≠ []) : rest c = none := by
  induction start generalizing cs with
  | nil => exact absurd rfl hstart
  | cons d ds ih =>
    subst heq
    obtain ⟨hd, hds⟩ := not_or.mp (List.mem_cons.not.mp hline)
    simp only [List.cons_append, lazily, if_neg (Ne.symm hd)] at h
    cases hrest : rest (ds ++ c) with
    | some b =>
      rw [hrest] at h
      cases h
    | none =>
      rw [hrest, Option.map_eq_none_iff] at h
      cases ds with
      | nil => exact hrest
      | cons e es => exact ih hds h rfl (List.cons_ne_nil _ _)

end Lazily

/-! ### The markers -/

section Markers

variable {cs c v r gap digits : List Char} {x : Char} {limit : Nat} {n : Int}

theorem takeWhile_run {p : Char → Bool} (hall : ∀ y ∈ gap, p y = true)
    (hend : ∀ y, r.head? = some y → p y = false) :
    (gap ++ r).takeWhile p = gap ∧ (gap ++ r).dropWhile p = r := by
  rw [List.takeWhile_append_of_pos hall, List.dropWhile_append_of_pos hall]
  cases r with
  | nil => simp
  | cons y ys => simp [hend y rfl]

theorem dashMarker_append (hgap : gap ≠ []) (hspaces : ∀ y ∈ gap, isSpace y = true)
    (hx : isSpace x = true) : dashMarker (gap ++ '—' :: x :: r) = some r := by
  have hend : ∀ y, ('—' :: x :: r).head? = some y → isSpace y = false := by
    intro y hy
    cases hy
    decide
  obtain ⟨htake, hdrop⟩ := takeWhile_run hspaces hend
  rw [dashMarker, htake, hdrop, if_neg hgap]
  exact if_pos hx

theorem dashMarker_eq_some (h : dashMarker cs = some r) : ∃ gap x, gap ≠ [] ∧
    (∀ y ∈ gap, isSpace y = true) ∧ isSpace x = true ∧ cs = gap ++ '—' :: x :: r := by
  unfold dashMarker at h
  split at h
  · cases h
  · rename_i hgap
    split at h
    · rename_i x rest hdrop
      split at h
      · rename_i hx
        cases h
        refine ⟨_, x, hgap, fun y hy => List.mem_takeWhile_imp hy, hx, ?_⟩
        rw [← hdrop, List.takeWhile_append_dropWhile]
      · cases h
    · cases h

/-- Digits, followed by something else. -/
structure Digits (limit : Nat) (digits r : List Char) : Prop where
  nonempty : digits ≠ []
  short : digits.length ≤ limit
  all : ∀ y ∈ digits, isDigit y = true
  ends : ∀ y, r.head? = some y → isDigit y = false

theorem digitsUpTo_append (h : Digits limit digits r) :
    digitsUpTo limit (digits ++ r) = some ((natOfDigits digits : Int), r) := by
  obtain ⟨htake, hdrop⟩ := takeWhile_run h.all h.ends
  rw [digitsUpTo, htake, hdrop]
  exact if_pos ⟨h.nonempty, h.short⟩

theorem digitsUpTo_eq_some (h : digitsUpTo limit cs = some (n, r)) :
    ∃ digits, Digits limit digits r ∧ cs = digits ++ r := by
  simp only [digitsUpTo] at h
  split at h
  · rename_i hdigits
    cases h
    refine ⟨cs.takeWhile isDigit, ⟨hdigits.1, hdigits.2, fun y hy => List.mem_takeWhile_imp hy, ?_⟩,
      List.takeWhile_append_dropWhile.symm⟩
    intro y hy
    have hhead := List.head?_dropWhile_not isDigit cs
    rw [hy] at hhead
    simpa using hhead
  · cases h

theorem numberMarker_append {season episode : List Char} (hseason : Digits 3 season ('E' :: cs))
    (hepisode : Digits 4 episode v) (hcs : cs = episode ++ v) (hdash : dashMarker v = some r) :
    numberMarker ('/' :: 'S' :: season ++ 'E' :: cs) =
      some (((natOfDigits season : Int), (natOfDigits episode : Int)), r) := by
  subst hcs
  simp only [List.cons_append, numberMarker, digitsUpTo_append hseason, digitsUpTo_append hepisode,
    hdash, Option.map_some]

theorem numberMarker_eq_some {numbers : Int × Int} (h : numberMarker cs = some (numbers, r)) :
    ∃ season episode v, Digits 3 season ('E' :: (episode ++ v)) ∧ Digits 4 episode v ∧
      dashMarker v = some r ∧ cs = '/' :: 'S' :: season ++ 'E' :: (episode ++ v) := by
  unfold numberMarker at h
  split at h
  · rename_i cs
    split at h
    · rename_i season cs' hseason
      obtain ⟨seasonDigits, hfirst, rfl⟩ := digitsUpTo_eq_some hseason
      split at h
      · rename_i episode cs'' hepisode
        obtain ⟨episodeDigits, hsecond, rfl⟩ := digitsUpTo_eq_some hepisode
        obtain ⟨rest, hdash, heq⟩ := Option.map_eq_some_iff.mp h
        cases heq
        exact ⟨seasonDigits, episodeDigits, cs'', hfirst, hsecond, hdash, rfl⟩
      · cases h
    · cases h
  · cases h

theorem append_eq_of_sep {a m : List Char} {sep : Char} (h : a ++ sep :: v = m ++ r) (hm : sep ∉ m) :
    ∃ y, a = m ++ y ∧ r = y ++ sep :: v := by
  rcases List.append_eq_append_iff.mp h with ⟨x, rfl, hx⟩ | ⟨y, rfl, hy⟩
  · cases x with
    | nil => exact ⟨[], by simp, by simpa using hx.symm⟩
    | cons d ds =>
      rw [List.cons_append, List.cons.injEq] at hx
      refine absurd ?_ hm
      rw [List.mem_append, hx.1]
      exact .inr (List.mem_cons_self ..)
  · exact ⟨y, rfl, hy⟩

theorem numberMarker_of_append_slash {numbers : Int × Int} (hne : c ≠ [])
    (h : numberMarker (c ++ '/' :: v) = some (numbers, r)) :
    ∃ r', numberMarker c = some (numbers, r') := by
  obtain ⟨season, episode, w, hseason, hepisode, hdash, heq⟩ := numberMarker_eq_some h
  have hnumbers : numbers = ((natOfDigits season : Int), (natOfDigits episode : Int)) := by
    rw [heq, numberMarker_append hseason hepisode rfl hdash] at h
    cases h
    rfl
  obtain ⟨gap, x, hgap, hspaces, hx, rfl⟩ := dashMarker_eq_some hdash
  cases c with
  | nil => exact absurd rfl hne
  | cons first c' =>
    have hparts : c' ++ '/' :: v =
        ('S' :: season ++ 'E' :: episode ++ gap ++ ['—', x]) ++ r ∧ first = '/' := by
      simp only [List.cons_append, List.cons.injEq] at heq
      refine ⟨?_, heq.1⟩
      rw [heq.2]
      simp
    obtain ⟨hparts, rfl⟩ := hparts
    have hslash : '/' ∉ 'S' :: season ++ 'E' :: episode ++ gap ++ ['—', x] := by
      have hseason' : '/' ∉ season := fun hmem => absurd (hseason.all _ hmem) (by decide)
      have hepisode' : '/' ∉ episode := fun hmem => absurd (hepisode.all _ hmem) (by decide)
      have hgap' : '/' ∉ gap := fun hmem => absurd (hspaces _ hmem) (by decide)
      have hx' : '/' ≠ x := by
        rintro rfl
        exact absurd hx (by decide)
      simp [hseason', hepisode', hgap', hx']
    obtain ⟨y, rfl, -⟩ := append_eq_of_sep hparts hslash
    refine ⟨y, ?_⟩
    have hdash' : dashMarker (gap ++ '—' :: x :: y) = some y := dashMarker_append hgap hspaces hx
    have hepisode' : Digits 4 episode (gap ++ '—' :: x :: y) := by
      refine ⟨hepisode.nonempty, hepisode.short, hepisode.all, fun z hz => hepisode.ends z ?_⟩
      cases gap with
      | nil => exact absurd rfl hgap
      | cons d ds => exact hz
    have hseason' : Digits 3 season ('E' :: (episode ++ (gap ++ '—' :: x :: y))) :=
      ⟨hseason.nonempty, hseason.short, hseason.all, hseason.ends⟩
    have hmarker := numberMarker_append hseason' hepisode' rfl hdash'
    rw [← hnumbers] at hmarker
    rw [← hmarker]
    simp

theorem yearAtEnd_append (hgap : gap ≠ []) (hspaces : ∀ y ∈ gap, isSpace y = true)
    (hlength : digits.length = 4) (hall : ∀ y ∈ digits, isDigit y = true) :
    yearAtEnd (gap ++ '(' :: digits ++ [')']) = some (natOfDigits digits : Int) := by
  have hend : ∀ y, ('(' :: digits ++ [')']).head? = some y → isSpace y = false := by
    intro y hy
    cases hy
    decide
  obtain ⟨htake, hdrop⟩ := takeWhile_run hspaces hend
  rw [yearAtEnd, List.append_assoc, htake, hdrop, if_neg hgap]
  match digits, hlength with
  | [a, b, c, d], _ => exact if_pos (List.all_eq_true.mpr hall)

theorem yearAtEnd_eq_some (h : yearAtEnd cs = some n) : ∃ gap digits,
    (∀ y ∈ gap, isSpace y = true) ∧ digits.length = 4 ∧ cs = gap ++ '(' :: digits ++ [')'] := by
  unfold yearAtEnd at h
  split at h
  · cases h
  · split at h
    · rename_i a b c d hdrop
      refine ⟨cs.takeWhile isSpace, [a, b, c, d], fun y hy => List.mem_takeWhile_imp hy, rfl, ?_⟩
      have hparts := List.takeWhile_append_dropWhile (p := isSpace) (l := cs)
      rw [hdrop] at hparts
      simpa using hparts.symm
    · cases h

end Markers

/-! ### Numbers -/

theorem digit?_of_isDigit {c : Char} (h : c.isDigit = true) : digit? c = some (c.toNat - '0'.toNat) := by
  have hrange : 0x30 ≤ c.toNat ∧ c.toNat ≤ 0x39 := by
    simpa [Char.isDigit, UInt32.le_iff_toNat_le] using h
  have hfind : decimalZeros.find? (fun low => low ≤ c.toNat && c.toNat ≤ low + 9) = some 0x30 := by
    rw [decimalZeros, List.find?_cons_of_pos]
    simp [hrange]
  rw [digit?, hfind]
  rfl

theorem isDigit_toDigits {n : Nat} {c : Char} (h : c ∈ Nat.toDigits 10 n) : isDigit c = true := by
  rw [isDigit, digit?_of_isDigit (Nat.isDigit_of_mem_toDigits (by decide) (by decide) h)]
  rfl

theorem natOfDigits_toDigits (n : Nat) : natOfDigits (Nat.toDigits 10 n) = n := by
  have hfold : ∀ cs : List Char, (∀ c ∈ cs, c.isDigit = true) → ∀ start,
      cs.foldl (fun n c => 10 * n + (digit? c).getD 0) start = Nat.ofDigitChars 10 cs start := by
    intro cs
    induction cs with
    | nil => exact fun _ _ => rfl
    | cons c cs ih =>
      intro hall start
      rw [List.foldl_cons, digit?_of_isDigit (hall c (List.mem_cons_self ..)),
        ih fun d hd => hall d (List.mem_cons_of_mem _ hd)]
      rfl
  rw [natOfDigits, hfold, Nat.ofDigitChars_ten_toDigits]
  exact fun c hc => Nat.isDigit_of_mem_toDigits (by decide) (by decide) hc

theorem toList_toString (n : Nat) : (toString (n : Int)).toList = Nat.toDigits 10 n :=
  Nat.toList_repr

theorem twoDigits_spec {limit n : Nat} (hlimit : 2 ≤ limit) (hn : n < 10 ^ limit) {r : List Char}
    (hend : ∀ y, r.head? = some y → isDigit y = false) :
    Digits limit (twoDigits n) r ∧ natOfDigits (twoDigits n) = n := by
  rw [twoDigits, toList_toString]
  split
  · rename_i hsmall
    have hone : (Nat.toDigits 10 n).length ≤ 1 := by
      rw [Nat.length_toDigits_le_iff (by decide) (by decide)]
      omega
    refine ⟨⟨List.cons_ne_nil _ _, ?_, ?_, hend⟩, natOfDigits_toDigits n⟩
    · rw [List.length_cons]
      omega
    · rintro y (_ | ⟨_, hy⟩)
      · decide
      · exact isDigit_toDigits hy
  · refine ⟨⟨Nat.toDigits_ne_nil, ?_, fun y hy => isDigit_toDigits hy, hend⟩, natOfDigits_toDigits n⟩
    exact (Nat.length_toDigits_le_iff (by decide) (by omega)).mpr hn

/-! ### Leaves that are read back -/

section Leaves

variable {showTitle title : List Char}

theorem titleAtEnd_trimmed (h : Trimmed title) (hline : '\n' ∉ title) :
    titleAtEnd title = some title := by
  simp only [titleAtEnd, h.dropWhile]
  exact if_pos ⟨h.ne_nil, hline⟩

theorem Trimmed.not_spaces {start c rest gap : List Char} (h : Trimmed (start ++ c)) (hne : c ≠ [])
    (hgap : ∀ y ∈ gap, isSpace y = true) : gap ≠ c ++ rest := by
  rintro rfl
  obtain ⟨before, z, heq, hz⟩ := h.last
  have hlast : c.getLast hne = z := by
    have hboth := congrArg List.getLast? heq
    rw [List.getLast?_append_of_ne_nil _ hne, List.getLast?_eq_some_getLast hne, List.getLast?_concat] at hboth
    exact Option.some.inj hboth
  have hspace := hgap z (List.mem_append_left _ (hlast ▸ List.getLast_mem hne))
  rw [hz] at hspace
  cases hspace

theorem movieLeafWithYear_text (htitle : Trimmed title) (hline : '\n' ∉ title) {year : Int}
    (hlow : 1000 ≤ year) (hhigh : year ≤ 9999) :
    movieLeafWithYear (title ++ yearSuffix (some year)) = some (title, year) := by
  obtain ⟨n, rfl⟩ := Int.eq_ofNat_of_zero_le (show 0 ≤ year by omega)
  have hlength : (Nat.toDigits 10 n).length = 4 := by
    apply le_antisymm
    · rw [Nat.length_toDigits_le_iff (by decide) (by decide)]
      omega
    · by_contra hshort
      have hthree : (Nat.toDigits 10 n).length ≤ 3 := by omega
      rw [Nat.length_toDigits_le_iff (by decide) (by decide)] at hthree
      omega
  have hdigits : ∀ y ∈ Nat.toDigits 10 n, isDigit y = true := fun y hy => isDigit_toDigits hy
  have hvalue := natOfDigits_toDigits n
  rw [yearSuffix, toList_toString]
  generalize Nat.toDigits 10 n = digits at *
  apply lazily_append htitle.ne_nil hline
  · rw [← hvalue]
    exact yearAtEnd_append (List.cons_ne_nil ' ' []) (by simp; decide) hlength hdigits
  · intro start c heq _ hne
    cases hyear : yearAtEnd (c ++ (' ' :: '(' :: digits ++ [')'])) with
    | none => rfl
    | some year =>
      obtain ⟨gap, digits', hspaces, hlength', hcs⟩ := yearAtEnd_eq_some hyear
      have hends : (c ++ [' ']) ++ ('(' :: digits ++ [')']) = gap ++ ('(' :: digits' ++ [')']) := by
        simpa using hcs
      obtain ⟨hgap, -⟩ := List.append_inj' hends (by simp [hlength, hlength'])
      exact absurd hgap.symm ((heq ▸ htitle).not_spaces hne hspaces)

theorem episodeLeaf_text (hshow : Trimmed showTitle) (hline : '\n' ∉ showTitle)
    (htitle : Trimmed title) (hline' : '\n' ∉ title) (hfree : lazily numberMarker showTitle = none)
    {season episode : Int} (hseason : 0 ≤ season ∧ season ≤ 999)
    (hepisode : 0 ≤ episode ∧ episode ≤ 9999) :
    episodeLeaf (showTitle ++ numberSuffix (some (season, episode)) ++ separator ++ title) =
      some (showTitle, (season, episode), title) := by
  obtain ⟨s, rfl⟩ := Int.eq_ofNat_of_zero_le hseason.1
  obtain ⟨e, rfl⟩ := Int.eq_ofNat_of_zero_le hepisode.1
  have hdash : dashMarker (separator ++ title) = some title :=
    dashMarker_append (List.cons_ne_nil ' ' []) (by simp; decide) (by decide)
  obtain ⟨hepisode', hvalue⟩ : Digits 4 (twoDigits e) (separator ++ title) ∧
      natOfDigits (twoDigits e) = e :=
    twoDigits_spec (by decide) (by omega) (by rintro y ⟨⟩; decide)
  obtain ⟨hseason', hvalue'⟩ : Digits 3 (twoDigits s) ('E' :: (twoDigits e ++ (separator ++ title))) ∧
      natOfDigits (twoDigits s) = s :=
    twoDigits_spec (by decide) (by omega) (by rintro y ⟨⟩; decide)
  have hmarker := numberMarker_append hseason' hepisode' rfl hdash
  rw [hvalue, hvalue'] at hmarker
  have htext : showTitle ++ numberSuffix (some ((s : Int), (e : Int))) ++ separator ++ title =
      showTitle ++ '/' :: ('S' :: twoDigits s ++ 'E' :: (twoDigits e ++ (separator ++ title))) := by
    simp [numberSuffix]
  rw [htext]
  apply lazily_append hshow.ne_nil hline
  · rw [show '/' :: ('S' :: twoDigits s ++ 'E' :: (twoDigits e ++ (separator ++ title))) =
      '/' :: 'S' :: twoDigits s ++ 'E' :: (twoDigits e ++ (separator ++ title)) from rfl, hmarker]
    simp [titleAtEnd_trimmed htitle hline']
  · intro start c heq hstart hne
    cases hother : numberMarker (c ++ '/' :: ('S' :: twoDigits s ++ 'E' :: (twoDigits e ++
        (separator ++ title)))) with
    | none => rfl
    | some found =>
      obtain ⟨r', hmarker'⟩ := numberMarker_of_append_slash hne hother
      rw [lazily_eq_none hline hfree start c heq hstart] at hmarker'
      cases hmarker'

theorem episodeLeafNoSe_text (hshow : Trimmed showTitle) (hline : '\n' ∉ showTitle)
    (htitle : Trimmed title) (hline' : '\n' ∉ title)
    (hfree : lazily dashMarker (showTitle ++ [' ']) = none) :
    episodeLeafNoSe (showTitle ++ separator ++ title) = some (showTitle, title) := by
  have hdash : dashMarker (separator ++ title) = some title :=
    dashMarker_append (List.cons_ne_nil ' ' []) (by simp; decide) (by decide)
  rw [List.append_assoc]
  apply lazily_append hshow.ne_nil hline
  · rw [hdash]
    exact titleAtEnd_trimmed htitle hline'
  · intro start c heq hstart hne
    cases hother : dashMarker (c ++ (separator ++ title)) with
    | none => rfl
    | some found =>
      obtain ⟨gap, x, hgap, hspaces, hx, hcs⟩ := dashMarker_eq_some hother
      -- the gap ends within the show, and so does the dash
      rcases List.append_eq_append_iff.mp hcs with ⟨y, hinside, -⟩ | ⟨y, rfl, hy⟩
      · exact absurd hinside ((heq ▸ hshow).not_spaces hne hspaces)
      · cases y with
        | nil => cases hy
        | cons dash y =>
          obtain ⟨rfl, hrest⟩ := List.cons.inj hy
          have hblank : ∃ r', dashMarker (gap ++ '—' :: (y ++ [' '])) = some r' := by
            cases y with
            | nil => exact ⟨[], dashMarker_append hgap hspaces (by decide)⟩
            | cons z y =>
              obtain ⟨rfl, -⟩ := List.cons.inj hrest
              exact ⟨_, dashMarker_append hgap hspaces hx⟩
          obtain ⟨r', hblank⟩ := hblank
          have hnone := lazily_eq_none (by simp [hline]) hfree start (gap ++ '—' :: (y ++ [' ']))
            (by rw [heq]; simp) hstart
          rw [hnone] at hblank
          cases hblank

end Leaves

/-! ### The round trip -/

section RoundTrip

variable (str : PyValue → String)

/-- What a path carries of its item. -/
def carried (serverId mediaType : String) (leaf : Leaf) : ParsedIdentity :=
  match leaf with
  | .episode showTitle numbers title =>
      { mediaType := mediaType, serverId := some serverId, title := some title,
        showTitle := some showTitle, season := numbers.map (·.1), episode := numbers.map (·.2) }
  | .track _ => { mediaType := mediaType, serverId := some serverId, title := some (String.ofList leaf.text) }
  | .other title year =>
      if mediaType = "movie" then
        { mediaType := mediaType, serverId := some serverId, title := some title, year := year }
      else { mediaType := mediaType, serverId := some serverId, title := some (String.ofList leaf.text) }

/-- No text in the leaf is taken for a separator. -/
def Leaf.Plain (mediaType : String) (leaf : Leaf) : Prop :=
  match leaf with
  | .episode showTitle numbers title =>
      Trimmed showTitle.toList ∧ '\n' ∉ showTitle.toList ∧ '\n' ∉ title.toList ∧
        (match numbers with
        | some (season, number) => (0 ≤ season ∧ season ≤ 999) ∧ (0 ≤ number ∧ number ≤ 9999) ∧
            lazily numberMarker showTitle.toList = none
        | none => episodeLeaf leaf.text = none ∧ lazily dashMarker (showTitle.toList ++ [' ']) = none)
  | .track _ => Trimmed leaf.text
  | .other title year =>
      (mediaType = "movie" → match year with
        | some year => '\n' ∉ title.toList ∧ 1000 ≤ year ∧ year ≤ 9999
        | none => movieLeafWithYear title.toList = none) ∧
      (mediaType = "episode" → episodeLeaf leaf.text = none ∧ episodeLeafNoSe leaf.text = none)

/-- The texts of an item can be told apart in its path. -/
structure Plain (item : HistoryItem) (leaf : Leaf) : Prop where
  server : item.serverText str ≠ "" ∧ '/' ∉ (item.serverText str).toList
  type : item.typeText str ≠ "" ∧ '/' ∉ (item.typeText str).toList
  first : leaf.text.head? ≠ some '/'
  leaf : leaf.Plain (item.typeText str)

variable {str} {item : HistoryItem} {leaf : Leaf} {mediaType : String}

theorem titleText_trimmed (item : HistoryItem) : Trimmed (item.titleText str).toList := by
  simp only [HistoryItem.titleText]
  split
  · exact ⟨⟨'u', "ntitled".toList, by decide, by decide⟩, ⟨"untitle".toList, 'd', by decide, by decide⟩⟩
  · rename_i hne
    exact trimmed_strip hne

theorem leaf_type (h : item.leaf str = .ok leaf) :
    (∃ showTitle numbers, leaf = .episode showTitle numbers (item.titleText str) ∧
      item.typeText str = "episode") ∨
    (∃ names, leaf = .track names ∧ item.typeText str = "track") ∨
    leaf = .other (item.titleText str) item.yearInt := by
  unfold HistoryItem.leaf at h
  split at h
  · rename_i htype
    cases hnumbers : item.numbers with
    | error e =>
      rw [hnumbers] at h
      cases h
    | ok numbers =>
      rw [hnumbers] at h
      cases h
      exact .inl ⟨_, _, rfl, htype.1⟩
  · split at h
    · rename_i htype
      cases hartist : joinable item.artistName with
      | error e =>
        rw [hartist] at h
        cases h
      | ok artist =>
        cases halbum : joinable item.albumName with
        | error e =>
          rw [hartist, halbum] at h
          cases h
        | ok album =>
          rw [hartist, halbum] at h
          cases h
          exact .inr (.inl ⟨_, rfl, htype⟩)
    · cases h
      exact .inr (.inr rfl)

theorem groupText_trimmed {s : String} (h : Trimmed s.toList) : groupText s.toList = some s := by
  have hne : s ≠ "" := by
    rintro rfl
    exact h.ne_nil rfl
  rw [groupText, strip_of_trimmed h, String.ofList_toList, orNone, if_neg hne]

theorem orNone_of_ne {s : String} (h : s ≠ "") : orNone s = some s := if_neg h

theorem cutSlash_append {a b : List Char} (h : '/' ∉ a) : cutSlash (a ++ '/' :: b) = some (a, b) := by
  have hall : ∀ y ∈ a, decide (y ≠ '/') = true := by
    intro y hy
    rw [decide_eq_true_eq]
    rintro rfl
    exact h hy
  have hend : ∀ y, ('/' :: b).head? = some y → decide (y ≠ '/') = false := by
    rintro y ⟨⟩
    rfl
  obtain ⟨htake, hdrop⟩ := takeWhile_run hall hend
  rw [cutSlash, hdrop, htake]

theorem text_trimmed (hleaf : item.leaf str = .ok leaf) (hplain : leaf.Plain (item.typeText str)) :
    Trimmed leaf.text := by
  rcases leaf_type hleaf with ⟨showTitle, numbers, rfl, -⟩ | ⟨names, rfl, -⟩ | rfl
  · have htext : (Leaf.episode showTitle numbers (item.titleText str)).text =
        showTitle.toList ++ (numberSuffix numbers ++ separator) ++ (item.titleText str).toList := by
      simp [Leaf.text]
    rw [htext]
    exact hplain.1.append (titleText_trimmed item) _
  · exact hplain
  · cases hyear : item.yearInt with
    | none =>
      rw [Leaf.text, yearSuffix, List.append_nil]
      exact titleText_trimmed item
    | some year =>
      have hclose : Trimmed [')'] := ⟨⟨')', [], rfl, by decide⟩, ⟨[], ')', rfl, by decide⟩⟩
      rw [Leaf.text, yearSuffix, ← List.append_assoc]
      exact (titleText_trimmed item).append hclose (' ' :: '(' :: (toString year).toList)

theorem parseLeaf_text (hleaf : item.leaf str = .ok leaf) (hplain : Plain str item leaf) :
    parseLeaf (item.serverText str) (item.typeText str) (String.ofList leaf.text) =
      carried (item.serverText str) (item.typeText str) leaf := by
  have hserver := orNone_of_ne hplain.server.1
  have hne : String.ofList leaf.text ≠ "" := by
    intro hempty
    exact (text_trimmed hleaf hplain.leaf).ne_nil (String.ofList_eq_empty_iff.mp hempty)
  have htext := orNone_of_ne hne
  have htitle : Trimmed (item.titleText str).toList := titleText_trimmed item
  obtain ⟨-, ⟨htypeNe, -⟩, -, hleafPlain⟩ := hplain
  rcases leaf_type hleaf with ⟨showTitle, numbers, rfl, htype⟩ | ⟨names, rfl, htype⟩ | rfl
  · rw [htype] at hleafPlain ⊢
    obtain ⟨hshow, hline, hline', hnumbers⟩ := hleafPlain
    simp only [parseLeaf, String.toList_ofList, if_neg (show ("episode" : String) ≠ "movie" by decide),
      if_true, hserver, carried]
    cases numbers with
    | none =>
      obtain ⟨hnone, hfree⟩ := hnumbers
      have hread := episodeLeafNoSe_text hshow hline htitle hline' hfree
      rw [hnone]
      simp only [Leaf.text, numberSuffix, List.append_nil, hread, groupText_trimmed htitle,
        groupText_trimmed hshow]
      rfl
    | some pair =>
      obtain ⟨season, number⟩ := pair
      obtain ⟨hseason, hnumber, hfree⟩ := hnumbers
      have hread := episodeLeaf_text hshow hline htitle hline' hfree hseason hnumber
      simp only [Leaf.text, hread, groupText_trimmed htitle, groupText_trimmed hshow]
      rfl
  · rw [htype] at hleafPlain ⊢
    simp only [parseLeaf, if_neg (show ("track" : String) ≠ "movie" by decide),
      if_neg (show ("track" : String) ≠ "episode" by decide), hserver, htext, carried]
    rfl
  · obtain ⟨hmovie, hepisode⟩ := hleafPlain
    by_cases htype : item.typeText str = "movie"
    · have hyear := hmovie htype
      rw [htype]
      simp only [parseLeaf, String.toList_ofList, if_true, hserver, carried]
      cases hint : item.yearInt with
      | none =>
        rw [hint] at hyear htext
        simp only [Leaf.text, yearSuffix, List.append_nil, String.ofList_toList] at htext ⊢
        rw [hyear]
        simp only [htext]
      | some year =>
        rw [hint] at hyear
        obtain ⟨hline, hlow, hhigh⟩ := hyear
        simp only [Leaf.text, movieLeafWithYear_text htitle hline hlow hhigh, groupText_trimmed htitle]
    · by_cases htype' : item.typeText str = "episode"
      · obtain ⟨hnone, hnone'⟩ := hepisode htype'
        simp only [parseLeaf, if_neg htype, if_pos htype', String.toList_ofList, hnone, hnone', hserver,
          htext, carried]
        rw [htype']
      · simp only [parseLeaf, if_neg htype, if_neg htype', hserver, htext, carried, orNone_of_ne htypeNe]
        rfl

/-- Of a plain item the path gives back the server, the type of the media, and what the leaf
    was made of: title and year of a film; title, show, season and number of an episode. -/
theorem parse_synth (item : HistoryItem) (hleaf : item.leaf str = .ok leaf)
    (hplain : Plain str item leaf) : ∃ path, synthSourcePath str item = .ok path ∧
      parseTracearrPseudoPath path = some (carried (item.serverText str) (item.typeText str) leaf) := by
  have htrimmed := text_trimmed hleaf hplain.leaf
  have hfirst : leaf.text.dropWhile (· = '/') = leaf.text := by
    obtain ⟨c, rest, htext, -⟩ := htrimmed.first
    have hc := hplain.first
    rw [htext] at hc ⊢
    rw [List.dropWhile_cons, if_neg]
    simpa using hc
  have hne : String.ofList leaf.text ≠ "" := by
    intro hempty
    exact htrimmed.ne_nil (String.ofList_eq_empty_iff.mp hempty)
  refine ⟨String.ofList (tracearrPrefix ++ ((item.serverText str).toList ++ '/' ::
    ((item.typeText str).toList ++ '/' :: leaf.text))), ?_, ?_⟩
  · rw [synthSourcePath, hleaf]
    simp [bind, Except.bind, hfirst]
    rfl
  · rw [parseTracearrPseudoPath, String.toList_ofList, if_pos (List.prefix_append ..), List.drop_left,
      cutSlash_append hplain.server.2]
    simp only [cutSlash_append hplain.type.2, strip_of_trimmed htrimmed, String.ofList_toList, if_neg hne,
      parseLeaf_text hleaf hplain]

end RoundTrip

/-! ### What the path does not carry -/

/-- An identity has the values of an item. -/
structure Recovers (item : HistoryItem) (id : ParsedIdentity) : Prop where
  serverId : .ofOption .str id.serverId = item.serverId
  mediaType : .str id.mediaType = item.mediaType
  title : .ofOption .str id.title = item.mediaTitle
  year : .ofOption .int id.year = item.year
  showTitle : .ofOption .str id.showTitle = item.showTitle
  season : .ofOption .int id.season = item.seasonNumber
  episode : .ofOption .int id.episode = item.episodeNumber

def felina : HistoryItem where
  serverId := .str "s1"
  mediaType := .str "episode"
  mediaTitle := .str "Felina"
  year := .int 2013
  showTitle := .str "Breaking Bad"
  seasonNumber := .int 5
  episodeNumber := .int 16
  artistName := .none
  albumName := .none

def felinaLeaf : Leaf := .episode "Breaking Bad" (some (5, 16)) "Felina"

theorem parse_synth_felina : ∃ path, synthSourcePath (fun _ => "") felina = .ok path ∧
    parseTracearrPseudoPath path = some (carried "s1" "episode" felinaLeaf) := by
  have hplain : Plain (fun _ => "") felina felinaLeaf := by
    refine ⟨⟨by decide, by decide⟩, ⟨by decide, by decide⟩, by decide, ?_⟩
    refine ⟨⟨⟨'B', "reaking Bad".toList, by decide, by decide⟩,
      ⟨"Breaking Ba".toList, 'd', by decide, by decide⟩⟩, by decide, by decide, by decide, by decide, by decide⟩
  exact parse_synth felina rfl hplain

/-- The year of an episode is not in its path. -/
theorem year_not_recovered : ¬∀ item path, synthSourcePath (fun _ => "") item = .ok path →
    ∃ id, parseTracearrPseudoPath path = some id ∧ Recovers item id := by
  intro h
  obtain ⟨id, hid, hrecovers⟩ := h felina "tracearr://s1/episode/Breaking Bad/S05E16 — Felina" (by decide)
  have hparse : parseTracearrPseudoPath "tracearr://s1/episode/Breaking Bad/S05E16 — Felina" =
      some (carried "s1" "episode" felinaLeaf) := by decide
  rw [hparse] at hid
  cases hid
  cases hrecovers.year

end TracearrPath
