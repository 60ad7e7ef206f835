/-
  Auditarr/PyValues.lean
  ======================
  **Dynamically typed values.**

  The values a JSON document decodes to, with the language's own equality,
  truth value, membership test and conversion to a double.  Every operation that
  can raise returns `Except PyError`.

  Doubles are the finite binary64 values (as rationals), the infinities and NaN;
  the sign of zero is not kept because no comparison sees it.  Conversion from an
  integer or from a decimal literal rounds to nearest, ties to even.

  `str.lower` and `re.search` are the two library functions whose tables and
  engine are not written out: a `PyRuntime` supplies them, and everything stated
  over one holds for every behaviour they may have.
-/
import Mathlib.Data.List.DropRight
import Mathlib.Data.List.Infix
import Mathlib.Data.Rat.Floor
import Mathlib.Data.Int.Log

namespace PyValues

/-! ### Doubles -/

inductive PyFloat where
  | finite (q : ℚ)
  | inf (negative : Bool)
  | nan
deriving DecidableEq, Repr

namespace PyFloat

def lt : PyFloat → PyFloat → Bool
  | nan, _ | _, nan => false
  | finite p, finite q => decide (p < q)
  | finite _, inf negative => !negative
  | inf negative, finite _ => negative
  | inf m, inf n => m && !n

def eq : PyFloat → PyFloat → Bool
  | finite p, finite q => decide (p = q)
  | inf m, inf n => m == n
  | _, _ => false

def le (x y : PyFloat) : Bool := lt x y || eq x y

end PyFloat

/-- Round a scaled significand to an integer, ties to even. -/
def roundHalfEven (q : ℚ) : Int :=
  let low := ⌊q⌋
  let rest := q - low
  if rest < 1 / 2 then low
  else if 1 / 2 < rest then low + 1
  else if low % 2 = 0 then low else low + 1

/-- The nearest binary64 value of a rational, `none` when it rounds beyond the
    largest finite one. -/
def roundDouble (q : ℚ) : Option ℚ :=
  if q = 0 then some 0 else
    let ulp : Int := max (Int.log 2 |q| - 52) (-1074)
    let rounded : ℚ := roundHalfEven (q / 2 ^ ulp) * 2 ^ ulp
    if |rounded| < 2 ^ (1024 : ℕ) then some rounded else none

namespace PyFloat

/-- The double nearest to an exact result. -/
def ofExact (q : ℚ) : PyFloat :=
  match roundDouble q with
  | some rounded => finite rounded
  | none => inf (decide (q < 0))

def sub : PyFloat → PyFloat → PyFloat
  | nan, _ | _, nan => nan
  | finite p, finite q => ofExact (p - q)
  | inf negative, finite _ => inf negative
  | finite _, inf negative => inf !negative
  | inf m, inf n => if m = n then nan else inf m

def add : PyFloat → PyFloat → PyFloat
  | nan, _ | _, nan => nan
  | finite p, finite q => ofExact (p + q)
  | inf negative, finite _ => inf negative
  | finite _, inf negative => inf negative
  | inf m, inf n => if m = n then inf m else nan

def mul : PyFloat → PyFloat → PyFloat
  | nan, _ | _, nan => nan
  | finite p, finite q => ofExact (p * q)
  | inf m, inf n => inf (m != n)
  | inf m, finite q => if q = 0 then nan else inf (m != decide (q < 0))
  | finite p, inf n => if p = 0 then nan else inf (n != decide (p < 0))

/-- `min(x, y)`. -/
def min (x y : PyFloat) : PyFloat := if lt y x then y else x

def abs : PyFloat → PyFloat
  | finite q => finite |q|
  | inf _ => inf false
  | nan => nan

/-- The quotient by a double that is not zero. -/
def div : PyFloat → PyFloat → PyFloat
  | nan, _ | _, nan => nan
  | finite p, finite q => ofExact (p / q)
  | inf negative, finite q => inf (negative != decide (q < 0))
  | finite _, inf _ => finite 0
  | inf _, inf _ => nan

/-- `round(x, digits)`. -/
def roundTo (digits : Nat) : PyFloat → PyFloat
  | finite q => ofExact (roundHalfEven (q * 10 ^ digits) / 10 ^ digits)
  | other => other

/-- The product with a positive double. -/
def scale (x : PyFloat) (factor : ℚ) : PyFloat :=
  match x with
  | finite q => ofExact (q * factor)
  | other => other

/-- `bool(x)` of a float that may be `None`. -/
def truthy? : Option PyFloat → Bool
  | none => false
  | some x => !eq x (finite 0)

end PyFloat

/-- `float(n)` of an integer; `none` is `OverflowError`.  Up to `2 ^ 53` the
    conversion is exact. -/
def floatOfInt (n : Int) : Option PyFloat :=
  if n.natAbs ≤ 2 ^ 53 then some (.finite n) else (roundDouble n).map .finite

/-! ### Decimal literals -/

/-- `str.isspace` of one character. -/
def isSpace (c : Char) : Bool :=
  let n := c.toNat
  (9 ≤ n && n ≤ 13) || (28 ≤ n && n ≤ 32) || n == 0x85 || n == 0xa0 || n == 0x1680 ||
    (0x2000 ≤ n && n ≤ 0x200a) || n == 0x2028 || n == 0x2029 || n == 0x202f ||
    n == 0x205f || n == 0x3000

/-- `s.strip()`. -/
def strip (s : String) : String :=
  String.ofList ((s.toList.dropWhile isSpace).reverse.dropWhile isSpace).reverse

theorem strip_strip (s : String) : strip (strip s) = strip s := by
  have hstart := List.rdropWhile_prefix isSpace (l := s.toList.dropWhile isSpace)
  have hhead : ((s.toList.dropWhile isSpace).rdropWhile isSpace).dropWhile isSpace =
      (s.toList.dropWhile isSpace).rdropWhile isSpace := by
    rw [List.dropWhile_eq_self_iff]
    intro hpos
    rw [hstart.getElem hpos]
    exact List.dropWhile_get_zero_not isSpace s.toList (hpos.trans_le hstart.length_le)
  change String.ofList (((String.ofList ((s.toList.dropWhile isSpace).rdropWhile
    isSpace)).toList.dropWhile isSpace).rdropWhile isSpace) =
      String.ofList ((s.toList.dropWhile isSpace).rdropWhile isSpace)
  rw [String.toList_ofList, hhead, List.rdropWhile_idempotent]

/-- The code points of the digits zero; each is followed by its digits one to
    nine. -/
def decimalZeros : List Nat :=
  [0x30, 0x660, 0x6f0, 0x7c0, 0x966, 0x9e6, 0xa66, 0xae6, 0xb66, 0xbe6, 0xc66, 0xce6, 0xd66,
   0xde6, 0xe50, 0xed0, 0xf20, 0x1040, 0x1090, 0x17e0, 0x1810, 0x1946, 0x19d0, 0x1a80, 0x1a90,
   0x1b50, 0x1bb0, 0x1c40, 0x1c50, 0xa620, 0xa8d0, 0xa900, 0xa9d0, 0xa9f0, 0xaa50, 0xabf0,
   0xff10, 0x104a0, 0x10d30, 0x11066, 0x110f0, 0x11136, 0x111d0, 0x112f0, 0x11450, 0x114d0,
   0x11650, 0x116c0, 0x11730, 0x118e0, 0x11950, 0x11c50, 0x11d50, 0x11da0, 0x11f50, 0x16a60,
   0x16ac0, 0x16b50, 0x1d7ce, 0x1d7d8, 0x1d7e2, 0x1d7ec, 0x1d7f6, 0x1e140, 0x1e2f0, 0x1e4f0,
   0x1e950, 0x1fbf0]

/-- The value of a decimal digit of any script. -/
def digit? (c : Char) : Option Nat :=
  (decimalZeros.find? fun low => low ≤ c.toNat && c.toNat ≤ low + 9).map (c.toNat - ·)

def isDigit (c : Char) : Bool := (digit? c).isSome

/-- Digit groups may be separated by single underscores, each between two
    digits. -/
def underscoresOk : Option Char → List Char → Bool
  | _, [] => true
  | prev, '_' :: rest => prev.any isDigit && rest.head?.any isDigit && underscoresOk (some '_') rest
  | _, c :: rest => underscoresOk (some c) rest

def natOfDigits (cs : List Char) : Nat :=
  cs.foldl (fun n c => 10 * n + (digit? c).getD 0) 0

/-- The exponent part after the mantissa: absent, or `e` with an optional sign
    and at least one digit, up to the end of the text. -/
def exponent? : List Char → Option Int
  | [] => some 0
  | e :: rest =>
      if e = 'e' ∨ e = 'E' then
        match rest with
        | '-' :: ds => if ds ≠ [] ∧ ds.all isDigit then some (-(natOfDigits ds : Int)) else none
        | '+' :: ds => if ds ≠ [] ∧ ds.all isDigit then some (natOfDigits ds) else none
        | ds => if ds ≠ [] ∧ ds.all isDigit then some (natOfDigits ds) else none
      else none

/-- `float` of an unsigned numeral without underscores. -/
def decimal? (cs : List Char) : Option ℚ :=
  let whole := cs.takeWhile isDigit
  let afterWhole := cs.dropWhile isDigit
  let (fraction, afterFraction) := match afterWhole with
    | '.' :: rest => (rest.takeWhile isDigit, rest.dropWhile isDigit)
    | rest => ([], rest)
  if whole = [] ∧ fraction = [] then none
  else (exponent? afterFraction).map fun (exp : Int) =>
    (natOfDigits (whole ++ fraction) : ℚ) * 10 ^ (exp - (fraction.length : Int))

def unsignedFloat? (cs : List Char) : Option PyFloat :=
  let lowered := String.ofList (cs.map Char.toLower)
  if lowered = "inf" ∨ lowered = "infinity" then some (.inf false)
  else if lowered = "nan" then some .nan
  else if underscoresOk none cs then
    (decimal? (cs.filter (· ≠ '_'))).map fun q => match roundDouble q with
      | some r => .finite r
      | none => .inf false
  else none

def PyFloat.neg : PyFloat → PyFloat
  | .finite q => .finite (-q)
  | .inf negative => .inf !negative
  | .nan => .nan

/-- `float(s)` of a string; `none` is `ValueError`. -/
def floatOfStr (s : String) : Option PyFloat :=
  match (strip s).toList with
  | '-' :: cs => (unsignedFloat? cs).map PyFloat.neg
  | '+' :: cs => unsignedFloat? cs
  | cs => unsignedFloat? cs

/-- Python refuses to read longer integers. -/
def MAX_STR_DIGITS : Nat := 4300

/-- `int` of an unsigned numeral. -/
def unsignedInt? (cs : List Char) : Option Nat :=
  let digits := cs.filter (· ≠ '_')
  if digits ≠ [] ∧ digits.all isDigit ∧ underscoresOk none cs ∧ digits.length ≤ MAX_STR_DIGITS then
    some (natOfDigits digits)
  else none

/-- `int(s)` of a string; `none` is `ValueError`. -/
def intOfStr (s : String) : Option Int :=
  match (strip s).toList with
  | '-' :: cs => (unsignedInt? cs).map fun n => -(n : Int)
  | '+' :: cs => (unsignedInt? cs).map fun n => (n : Int)
  | cs => (unsignedInt? cs).map fun n => (n : Int)

/-! ### Values -/

inductive PyError where
  | typeError
  | valueError
  | overflowError
  | other (name : String)
deriving DecidableEq, Repr

/-- The values a JSON document decodes to.  The keys of a `dict` are distinct. -/
inductive PyValue where
  | none
  | bool (b : Bool)
  | int (n : Int)
  | float (x : PyFloat)
  | str (s : String)
  | list (items : List PyValue)
  | dict (entries : List (String × PyValue))

namespace PyValue

/-- `bool(v)`. -/
def truthy : PyValue → Bool
  | none => false
  | bool b => b
  | int n => n ≠ 0
  | float x => x ≠ .finite 0
  | str s => s ≠ ""
  | list items => !items.isEmpty
  | dict entries => !entries.isEmpty

def isNone : PyValue → Bool
  | none => true
  | _ => false

/-- The exact numeric value of a number; `True` and `False` are the integers one
    and zero. -/
def numeric? : PyValue → Option PyFloat
  | bool b => some (.finite (if b then 1 else 0))
  | int n => some (.finite n)
  | float x => some x
  | _ => Option.none

mutual

/-- `v == w`. -/
def eq : PyValue → PyValue → Bool
  | none, none => true
  | str s, str t => s == t
  | list xs, list ys => eqItems xs ys
  | dict xs, dict ys => xs.length == ys.length && eqEntries xs ys
  | v, w => match numeric? v, numeric? w with
    | some x, some y => x.eq y
    | _, _ => false

def eqItems : List PyValue → List PyValue → Bool
  | [], [] => true
  | x :: xs, y :: ys => eq x y && eqItems xs ys
  | _, _ => false

def eqEntries : List (String × PyValue) → List (String × PyValue) → Bool
  | [], _ => true
  | (key, x) :: xs, ys =>
      (match ys.lookup key with
        | some y => eq x y
        | Option.none => false) && eqEntries xs ys

end

/-- `v or []`. -/
def orEmpty (v : PyValue) : PyValue := if v.truthy then v else list []

def isHashable : PyValue → Bool
  | list _ | dict _ => false
  | _ => true

/-- `v in container`. -/
def isIn (v container : PyValue) : Except PyError Bool :=
  match container with
  | list items => .ok (items.any (eq v ·))
  | str text => match v with
    | str s => .ok (decide (s.toList <:+: text.toList))
    | _ => .error .typeError
  | dict entries =>
      if v.isHashable then .ok (entries.any fun entry => eq v (str entry.1))
      else .error .typeError
  | _ => .error .typeError

/-- `float(v)`. -/
def toFloat : PyValue → Except PyError PyFloat
  | bool b => .ok (.finite (if b then 1 else 0))
  | int n => match floatOfInt n with
    | some x => .ok x
    | Option.none => .error .overflowError
  | float x => .ok x
  | str s => match floatOfStr s with
    | some x => .ok x
    | Option.none => .error .valueError
  | _ => .error .typeError

/-- `int(v)`. -/
def toInt : PyValue → Except PyError Int
  | bool b => .ok (if b then 1 else 0)
  | int n => .ok n
  | float (.finite q) => .ok (if q < 0 then -⌊-q⌋ else ⌊q⌋)
  | float (.inf _) => .error .overflowError
  | float .nan => .error .valueError
  | str s => match intOfStr s with
    | some n => .ok n
    | Option.none => .error .valueError
  | _ => .error .typeError

/-- `v.get(key)`, which only a dictionary has. -/
def get (v : PyValue) (key : String) : Except PyError PyValue :=
  match v with
  | dict entries => .ok ((entries.lookup key).getD none)
  | _ => .error (.other "AttributeError")

/-- `v or {}`. -/
def orDict (v : PyValue) : PyValue := if v.truthy then v else dict []

/-- `for item in v`: a dictionary yields its keys and a string its characters. -/
def iterate : PyValue → Except PyError (List PyValue)
  | list items => .ok items
  | dict entries => .ok (entries.map fun entry => str entry.1)
  | str s => .ok (s.toList.map fun c => str (String.ofList [c]))
  | _ => .error .typeError

/-- A list of strings as a value. -/
def ofStrings (ss : List String) : PyValue := list (ss.map str)

/-- A value or `None`. -/
def ofOption {α : Type} (wrap : α → PyValue) : Option α → PyValue
  | some a => wrap a
  | Option.none => none

theorem isIn_orEmpty_ofStrings (v : PyValue) (ss : List String) :
    isIn v (ofStrings ss).orEmpty = .ok ((ss.map str).any (eq v ·)) := by
  cases ss with
  | nil => rfl
  | cons s rest => rfl

end PyValue

theorem bind_eq_ok {ε α β : Type} {c : Except ε α} {k : α → Except ε β} {b : β} :
    (c >>= k) = .ok b ↔ ∃ a, c = .ok a ∧ k a = .ok b := by
  cases c with
  | error e =>
    constructor
    · intro h
      cases h
    · rintro ⟨a, h, -⟩
      cases h
  | ok a =>
    constructor
    · intro h
      exact ⟨a, rfl, h⟩
    · rintro ⟨a', h, hk⟩
      cases h
      exact hk

theorem exists_bind_eq_ok {ε α β : Type} {c : Except ε α} {k : α → Except ε β} :
    (∃ b, (c >>= k) = .ok b) ↔ ∃ a, c = .ok a ∧ ∃ b, k a = .ok b := by
  simp only [bind_eq_ok]
  constructor
  · rintro ⟨b, a, hc, hk⟩
    exact ⟨a, hc, b, hk⟩
  · rintro ⟨a, hc, b, hk⟩
    exact ⟨b, a, hc, hk⟩

theorem mem_mapM_ok {α β : Type} {f : α → Except PyError β} {xs : List α} {ys : List β}
    (h : xs.mapM f = .ok ys) {y : β} : y ∈ ys ↔ ∃ x ∈ xs, f x = .ok y := by
  induction xs generalizing ys with
  | nil =>
    cases h
    simp
  | cons x rest ih =>
    rw [List.mapM_cons] at h
    obtain ⟨first, hfirst, h⟩ := bind_eq_ok.mp h
    obtain ⟨others, hothers, h⟩ := bind_eq_ok.mp h
    cases h
    rw [List.mem_cons, ih hothers]
    simp [hfirst, eq_comm]

theorem mapM_ok_iff {α β : Type} {f : α → Except PyError β} {xs : List α} :
    (∃ ys, xs.mapM f = .ok ys) ↔ ∀ x ∈ xs, ∃ y, f x = .ok y := by
  induction xs with
  | nil => exact iff_of_true ⟨[], rfl⟩ (List.forall_mem_nil _)
  | cons x rest ih =>
    rw [List.forall_mem_cons, ← ih, List.mapM_cons, exists_bind_eq_ok]
    constructor
    · rintro ⟨y, hy, h⟩
      obtain ⟨others, hothers, -⟩ := exists_bind_eq_ok.mp h
      exact ⟨⟨y, hy⟩, others, hothers⟩
    · rintro ⟨⟨y, hy⟩, others, hothers⟩
      exact ⟨y, hy, exists_bind_eq_ok.mpr ⟨others, hothers, _, rfl⟩⟩

/-! ### Library functions left open -/

/-- What a call of `re.search` can end in. -/
inductive ReSearch where
  | found
  | notFound
  | reError
  | raised (e : PyError)
deriving DecidableEq, Repr

structure PyRuntime where
  /-- `str.lower`. -/
  lower : String → String
  /-- `re.search(pattern, text)`. -/
  reSearch : String → String → ReSearch

end PyValues
