import Mathlib.Data.Prod.Lex
import Mathlib.Data.Sum.Order
import Mathlib.Order.WithBot
import Mathlib.Data.List.Lex
import Mathlib.Order.Compare
import Mathlib.Data.Char

/-!
# Semantic versions

A version is three numbers and the identifiers of a prerelease. Its text starts with a `v`; the last numbers may be left
out, and what follows a `+` does not count. Versions are in a linear order: a prerelease is before its release, a number
before any other identifier. Texts are compared as their versions, and a text of no version is before all that are
(`compareText`).
-/

namespace Semver

/-- An identifier of a prerelease: a number, or a text. Numbers come first. -/
abbrev Ident := Lex (ℕ ⊕ List Char)

/-- A version. The top is the release itself. -/
structure Version where
  major : ℕ
  minor : ℕ
  patch : ℕ
  prerelease : WithTop (List Ident)
  deriving DecidableEq

namespace Version

/-- What versions are ordered by. -/
def key (v : Version) : ℕ ×ₗ ℕ ×ₗ ℕ ×ₗ WithTop (List Ident) :=
  toLex (v.major, toLex (v.minor, toLex (v.patch, v.prerelease)))

theorem key_injective : Function.Injective key := by
  intro v w h
  simp only [key, EmbeddingLike.apply_eq_iff_eq, Prod.mk.injEq] at h
  obtain ⟨hmajor, hminor, hpatch, hprerelease⟩ := h
  cases v
  cases w
  simp_all

instance : LinearOrder Version := LinearOrder.lift' key key_injective

end Version

/-! ### Texts -/

/-- The number that digits write. -/
def number (digits : List Char) : ℕ := Nat.ofDigitChars 10 digits 0

/-- Has a number a zero too many in front? -/
def isPadded (digits : List Char) : Bool := digits.head? == some '0' && digits.length != 1

/-- A number in front of a text, and the rest. -/
def parseNumber (cs : List Char) : Option (ℕ × List Char) :=
  let digits := cs.takeWhile Char.isDigit
  if digits = [] ∨ isPadded digits then none else some (number digits, cs.dropWhile Char.isDigit)

/-- The characters of identifiers. -/
def isIdentChar (c : Char) : Bool := c.isAlphanum || c == '-'

/-- An identifier of a prerelease. -/
def parseIdent (cs : List Char) : Option Ident :=
  if cs = [] ∨ ¬cs.all isIdentChar then none
  else if cs.all Char.isDigit then (if isPadded cs then none else some (toLex (.inl (number cs))))
  else some (toLex (.inr cs))

/-- What follows the numbers: nothing or a build, which starts with `+`. -/
def isBuild : List Char → Bool
  | [] => true
  | '+' :: build => (build.splitOn '.').all fun cs => !cs.isEmpty && cs.all isIdentChar
  | _ => false

/-- The prerelease, and the build behind it. -/
def parsePrerelease : List Char → Option (WithTop (List Ident))
  | '-' :: cs =>
    if isBuild (cs.dropWhile (· ≠ '+')) then
      (((cs.takeWhile (· ≠ '+')).splitOn '.').mapM parseIdent).map fun ids => (ids : WithTop (List Ident))
    else none
  | cs => if isBuild cs then some ⊤ else none

/-- The version behind the `v`. -/
def parseNumbers (cs : List Char) : Option Version :=
  match parseNumber cs with
  | none => none
  | some (major, []) => some ⟨major, 0, 0, ⊤⟩
  | some (major, '.' :: cs) =>
    match parseNumber cs with
    | none => none
    | some (minor, []) => some ⟨major, minor, 0, ⊤⟩
    | some (minor, '.' :: cs) =>
      match parseNumber cs with
      | none => none
      | some (patch, cs) => (parsePrerelease cs).map fun prerelease => ⟨major, minor, patch, prerelease⟩
    | some _ => none
  | some _ => none

/-- The version of a text. -/
def parse (text : String) : Option Version :=
  match text.toList with
  | 'v' :: cs => parseNumbers cs
  | _ => none

/-- Compare texts as their versions. -/
def compareText (a b : String) : Ordering :=
  match parse a, parse b with
  | none, none => .eq
  | none, some _ => .lt
  | some _, none => .gt
  | some v, some w => compare v w

example : compareText "v3.5.0-rc.2" "v3.5.0" = .lt := by decide +kernel

/-- The version of a text that may do without the `v`. -/
def ofText (text : String) : Option Version :=
  if text.toList.head? = some 'v' then parse text else parse ("v" ++ text)

section

variable {a b text : String} {v w : Version}

theorem compareText_of_parse (ha : parse a = some v) (hb : parse b = some w) : compareText a b = compare v w := by
  simp only [compareText, ha, hb]

theorem compareText_eq_lt_iff (ha : parse a = some v) (hb : parse b = some w) : compareText a b = .lt ↔ v < w := by
  rw [compareText_of_parse ha hb, compare_lt_iff_lt]

theorem compareText_ne_gt_iff (ha : parse a = some v) (hb : parse b = some w) : compareText a b ≠ .gt ↔ v ≤ w := by
  rw [compareText_of_parse ha hb, Ne, compare_gt_iff_gt, not_lt]

/-- A text without a `v` in front is none of a version. -/
theorem parse_eq_none (h : text.toList.head? ≠ some 'v') : parse text = none := by
  unfold parse
  split
  · rename_i cs hcs
    rw [hcs] at h
    exact absurd rfl h
  · rfl

/-- There is no number in nothing. -/
theorem ofText_empty : ofText "" = none := by decide +kernel

end

end Semver
