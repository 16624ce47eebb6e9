import Mathlib.Data.Nat.Digits
import Mathlib.Data.UInt
import Mathlib.Logic.Function.Basic

/-!
# Go's standard library, as the sources use it

The functions of Go's `strconv`, `strings` and `path/filepath` that the ingestion code calls,
each for the arguments it is called with: `strconv`'s base-10 conversions, `strings.Join`,
`strings.ReplaceAll` of one character, and `filepath.Join` with the Unix separator. None of
them is among the sources; each follows Go's algorithm.

`ParseUint` reads back what `FormatUint` writes up to its bound and fails with a range error
past it; `ParseInt` does the same at half the bound.
-/

namespace AuroraIngest.Go

/-- `strconv.ErrRange` ("value out of range") and `strconv.ErrSyntax` ("invalid syntax"). -/
inductive NumErrorKind where
  | range
  | invalid
  deriving DecidableEq, Repr

/-- `*strconv.NumError`: the function that failed, its input and the cause. -/
structure NumError where
  func : String
  num : String
  err : NumErrorKind
  deriving DecidableEq, Repr

/-- Modelled on Go's `strconv.FormatUint(i, 10)`: the decimal digits of `i`. -/
def formatUint (i : Nat) : String := Nat.repr i

/-- `math.MaxUint64 / 10 + 1`, the base-10 cutoff of `ParseUint`. -/
def cutoff10 : Nat := (2 ^ 64 - 1) / 10 + 1

/-- The digit loop of `strconv.ParseUint` in base 10, with the value read so far. Go stops
at the first byte that is not a digit with a syntax error, and at the first digit that takes
the value past `maxVal` with a range error and the value `maxVal`. Over `Nat`, `n1 > maxVal`
also covers Go's wrap test `n1 < n`. -/
def parseUintLoop (maxVal : Nat) : Nat → List Char → Nat × Option NumErrorKind
  | n, [] => (n, none)
  | n, c :: cs =>
    if c.isDigit then
      let n1 := n * 10 + (c.toNat - '0'.toNat)
      if n ≥ cutoff10 ∨ n1 > maxVal then (maxVal, some .range) else parseUintLoop maxVal n1 cs
    else (0, some .invalid)

/-- Modelled on Go's `strconv.ParseUint(s, 10, bitSize)`, for `bitSize` from 1 to 64. -/
def parseUint (s : String) (bitSize : Nat) : Nat × Option NumError :=
  if s = "" then (0, some ⟨"ParseUint", s, .invalid⟩)
  else
    match parseUintLoop (2 ^ bitSize - 1) 0 s.toList with
    | (n, none) => (n, none)
    | (n, some err) => (n, some ⟨"ParseUint", s, err⟩)

/-- Modelled on Go's `strconv.ParseInt(s, 10, bitSize)`, for `bitSize` from 1 to 64: the
sign, then `ParseUint` of the rest, whose range error is replaced by the signed range check. -/
def parseInt (s : String) (bitSize : Nat) : Int × Option NumError :=
  if s = "" then (0, some ⟨"ParseInt", s, .invalid⟩)
  else
    let (neg, rest) : Bool × String :=
      match s.toList with
      | '+' :: cs => (false, String.mk cs)
      | '-' :: cs => (true, String.mk cs)
      | _ => (false, s)
    let (un, err) := parseUint rest bitSize
    match err with
    | some e =>
      if e.err ≠ .range then (0, some ⟨"ParseInt", s, e.err⟩)
      else if !neg then (2 ^ (bitSize - 1) - 1, some ⟨"ParseInt", s, .range⟩)
      else (-(2 ^ (bitSize - 1) : Int), some ⟨"ParseInt", s, .range⟩)
    | none =>
      if !neg && un ≥ 2 ^ (bitSize - 1) then (2 ^ (bitSize - 1) - 1, some ⟨"ParseInt", s, .range⟩)
      else if neg && un > 2 ^ (bitSize - 1) then
        (-(2 ^ (bitSize - 1) : Int), some ⟨"ParseInt", s, .range⟩)
      else (if neg then -(un : Int) else un, none)

/-- Modelled on Go's `strconv.FormatBool`. -/
def formatBool (b : Bool) : String := if b then "true" else "false"

/-- Modelled on Go's `strconv.ParseBool`. -/
def parseBool (str : String) : Bool × Option NumError :=
  if str ∈ ["1", "t", "T", "TRUE", "true", "True"] then (true, none)
  else if str ∈ ["0", "f", "F", "FALSE", "false", "False"] then (false, none)
  else (false, some ⟨"ParseBool", str, .invalid⟩)

theorem digitChar_digit {k : Nat} (hk : k < 10) :
    (Nat.digitChar k).isDigit = true ∧ (Nat.digitChar k).toNat - '0'.toNat = k := by
  have h : ∀ k : Fin 10,
      (Nat.digitChar k).isDigit = true ∧ (Nat.digitChar k).toNat - '0'.toNat = k := by
    decide
  exact h ⟨k, hk⟩

/-- One more digit `k` after the value `n`. -/
theorem parseUintLoop_digit {maxVal : Nat} (hmax : maxVal < 2 ^ 64) (n : Nat) {k : Nat}
    (hk : k < 10) (ds : List Char) :
    parseUintLoop maxVal n (Nat.digitChar k :: ds) =
      if n * 10 + k ≤ maxVal then parseUintLoop maxVal (n * 10 + k) ds
      else (maxVal, some .range) := by
  obtain ⟨hdig, hval⟩ := digitChar_digit hk
  simp only [parseUintLoop, hdig, ↓reduceIte, hval]
  by_cases h : n * 10 + k ≤ maxVal
  · rw [if_neg (by unfold cutoff10; omega), if_pos h]
  · rw [if_pos (by omega), if_neg h]

/-- The digit loop reads the digits core's `toDigitsCore` writes, and stops with a range
error as soon as the value passes `maxVal`. -/
theorem parseUintLoop_toDigitsCore {maxVal : Nat} (hmax : maxVal < 2 ^ 64) :
    ∀ (fuel n : Nat) (ds : List Char), n < fuel →
      parseUintLoop maxVal 0 (Nat.toDigitsCore 10 fuel n ds) =
        if n ≤ maxVal then parseUintLoop maxVal n ds else (maxVal, some .range)
  | 0, _, _, h => absurd h (Nat.not_lt_zero _)
  | fuel + 1, n, ds, h => by
    have hmod := Nat.mod_lt n (by decide : 10 > 0)
    have hn : n / 10 * 10 + n % 10 = n := Nat.div_add_mod' n 10
    simp only [Nat.toDigitsCore]
    split
    · next h0 =>
      rw [parseUintLoop_digit hmax 0 hmod]
      simp only [h0, zero_mul, zero_add] at hn ⊢
      rw [hn]
    · next h0 =>
      rw [parseUintLoop_toDigitsCore hmax fuel (n / 10) _ (by omega)]
      by_cases hq : n / 10 ≤ maxVal
      · rw [if_pos hq, parseUintLoop_digit hmax _ hmod, hn]
      · have hm : ¬ n ≤ maxVal := by omega
        rw [if_neg hq, if_neg hm]

theorem toDigitsCore_ne_nil : ∀ (fuel m : Nat) (ds : List Char), 0 < fuel →
    Nat.toDigitsCore 10 fuel m ds ≠ []
  | 0, _, _, h => absurd h (Nat.lt_irrefl 0)
  | fuel + 1, m, ds, _ => by
    simp only [Nat.toDigitsCore]
    split
    · exact List.cons_ne_nil _ _
    · cases fuel with
      | zero => exact List.cons_ne_nil _ _
      | succ f => exact toDigitsCore_ne_nil (f + 1) _ _ (Nat.succ_pos f)

theorem formatUint_ne_empty (i : Nat) : formatUint i ≠ "" := by
  intro h
  exact toDigitsCore_ne_nil (i + 1) i [] (Nat.succ_pos i) (congrArg String.data h)

/-- `ParseUint` reads back what `FormatUint` wrote when it fits, and fails with a range
error when it does not. -/
theorem parseUint_formatUint (i bitSize : Nat) (hb : bitSize ≤ 64) :
    parseUint (formatUint i) bitSize =
      if i < 2 ^ bitSize then (i, none)
      else (2 ^ bitSize - 1, some (NumError.mk "ParseUint" (formatUint i) .range)) := by
  have hpow : 2 ^ bitSize ≤ 2 ^ 64 := Nat.pow_le_pow_right (by decide) hb
  have hpos : 0 < 2 ^ bitSize := Nat.pos_pow_of_pos _ (by decide)
  have hloop := parseUintLoop_toDigitsCore (show 2 ^ bitSize - 1 < 2 ^ 64 by omega) (i + 1) i []
    (Nat.lt_succ_self i)
  simp only [parseUint, formatUint_ne_empty, ↓reduceIte]
  change (match parseUintLoop (2 ^ bitSize - 1) 0 (Nat.toDigitsCore 10 (i + 1) i []) with
    | (n, none) => (n, none)
    | (n, some err) => (n, some (NumError.mk "ParseUint" (formatUint i) err))) = _
  rw [hloop]
  by_cases hi : i < 2 ^ bitSize
  · simp [hi, parseUintLoop, show i ≤ 2 ^ bitSize - 1 by omega]
  · simp [hi, show ¬ i ≤ 2 ^ bitSize - 1 by omega]

/-- Every character `toDigitsCore` adds in base 10 is a digit. -/
theorem toDigitsCore_isDigit : ∀ (fuel m : Nat) (ds : List Char), (∀ c ∈ ds, c.isDigit = true) →
    ∀ c ∈ Nat.toDigitsCore 10 fuel m ds, c.isDigit = true
  | 0, _, _, hds => hds
  | fuel + 1, m, ds, hds => by
    have hd := (digitChar_digit (Nat.mod_lt m (by decide : 10 > 0))).1
    have hcons : ∀ c ∈ Nat.digitChar (m % 10) :: ds, c.isDigit = true := fun c hc ↦ by
      rcases List.mem_cons.mp hc with rfl | hc
      exacts [hd, hds c hc]
    simp only [Nat.toDigitsCore]
    split
    · exact hcons
    · exact toDigitsCore_isDigit fuel _ _ hcons

theorem formatUint_isDigit (i : Nat) : ∀ c ∈ (formatUint i).data, c.isDigit = true :=
  toDigitsCore_isDigit (i + 1) i [] nofun

/-- The digits `FormatUint` writes carry no sign. -/
theorem formatUint_unsigned (i : Nat) :
    (match (formatUint i).toList with
      | '+' :: cs => (false, String.mk cs)
      | '-' :: cs => (true, String.mk cs)
      | _ => (false, formatUint i)) = (false, formatUint i) := by
  have hall := formatUint_isDigit i
  change (match (formatUint i).data with
      | '+' :: cs => (false, String.mk cs)
      | '-' :: cs => (true, String.mk cs)
      | _ => (false, formatUint i)) = _
  split
  · next cs h => exact absurd (hall '+' (h ▸ List.mem_cons_self _ _)) (by decide)
  · next cs h => exact absurd (hall '-' (h ▸ List.mem_cons_self _ _)) (by decide)
  · rfl

/-- `ParseInt` of a formatted unsigned number: the number below `2^(bitSize-1)`, a range
error from there on. -/
theorem parseInt_formatUint (i bitSize : Nat) (h1 : 1 ≤ bitSize) (hb : bitSize ≤ 64) :
    parseInt (formatUint i) bitSize =
      if i < 2 ^ (bitSize - 1) then ((i : Int), none)
      else ((2 ^ (bitSize - 1) - 1 : Int), some (NumError.mk "ParseInt" (formatUint i) .range)) := by
  have hsplit : 2 ^ bitSize = 2 ^ (bitSize - 1) * 2 := by
    rw [← Nat.pow_succ]; congr 1; omega
  simp only [parseInt, formatUint_ne_empty, ↓reduceIte, formatUint_unsigned,
    parseUint_formatUint i bitSize hb]
  by_cases hi : i < 2 ^ (bitSize - 1)
  · have hi' : i < 2 ^ bitSize := by omega
    simp [hi, hi']
  · by_cases hi' : i < 2 ^ bitSize
    · simp [hi, hi', show 2 ^ (bitSize - 1) ≤ i by omega]
    · simp [hi, hi']

theorem parseBool_formatBool (b : Bool) : parseBool (formatBool b) = (b, none) := by
  cases b <;> decide

/-- The value of a string of decimal digits, read after the value `n`. -/
def digitsValue : Nat → List Char → Nat
  | n, [] => n
  | n, c :: cs => digitsValue (n * 10 + (c.toNat - '0'.toNat)) cs

theorem digitsValue_cons (n : Nat) (c : Char) (cs : List Char) :
    digitsValue n (c :: cs) = digitsValue (n * 10 + (c.toNat - '0'.toNat)) cs := rfl

theorem digitsValue_toDigitsCore : ∀ (fuel n : Nat) (ds : List Char), n < fuel →
    digitsValue 0 (Nat.toDigitsCore 10 fuel n ds) = digitsValue n ds
  | 0, _, _, h => absurd h (Nat.not_lt_zero _)
  | fuel + 1, n, ds, h => by
    have hval := (digitChar_digit (Nat.mod_lt n (by decide : 10 > 0))).2
    have hn : n / 10 * 10 + n % 10 = n := Nat.div_add_mod' n 10
    simp only [Nat.toDigitsCore]
    split
    · rw [digitsValue_cons, hval, zero_mul, zero_add, Nat.mod_eq_of_lt (by omega)]
    · rw [digitsValue_toDigitsCore fuel (n / 10) _ (by omega), digitsValue_cons, hval, hn]

/-- Distinct numbers have distinct decimal texts. -/
theorem formatUint_injective : Function.Injective formatUint := by
  have hval : ∀ i, digitsValue 0 (formatUint i).data = i := fun i ↦ by
    show digitsValue 0 (Nat.toDigitsCore 10 (i + 1) i []) = i
    rw [digitsValue_toDigitsCore _ _ _ (Nat.lt_succ_self i)]
    rfl
  intro a b h
  rw [← hval a, ← hval b, h]

/-- Modelled on Go's `strings.Join(elems, sep)`. -/
def stringsJoin (elems : List String) (sep : String) : String :=
  ⟨sep.data.intercalate (elems.map String.data)⟩

/-- Modelled on Go's `strings.ReplaceAll(s, old, new)` for an `old` of one character. -/
def replaceAllChar (s : String) (old : Char) (new : String) : String :=
  ⟨s.data.flatMap fun c ↦ if c = old then new.data else [c]⟩

/-- Modelled on Go's `filepath.Clean` with the separator `/`: one separator between
elements, no `.` element, each `..` removed with the element before it, no `..` at the
start of a rooted path, and `.` for nothing. -/
def filepathClean (path : String) : String :=
  let rooted := path.data.head? = some '/'
  let stack := (path.data.splitOn '/').foldl (fun acc e ↦
      if e = [] ∨ e = ['.'] then acc
      else if e = ['.', '.'] then
        match acc with
        | x :: rest => if x = ['.', '.'] then ['.', '.'] :: acc else rest
        | [] => if rooted then [] else [['.', '.']]
      else e :: acc) []
  let body := ['/'].intercalate stack.reverse
  ⟨if rooted then '/' :: body else if body = [] then ['.'] else body⟩

/-- Modelled on Go's `filepath.Join` with the separator `/`: the elements from the first
nonempty one, joined and cleaned. -/
def filepathJoin : List String → String
  | [] => ""
  | e :: elem => if e = "" then filepathJoin elem else filepathClean (stringsJoin (e :: elem) "/")

example : filepathJoin ["/tmp/captive/", "buckets"] = "/tmp/captive/buckets" := by decide

example : filepathJoin ["a/../../b/./", "buckets"] = "../b/buckets" := by decide

end AuroraIngest.Go
