import Mathlib.Logic.Basic

/-!
# The Boolean expressions of CEL

An expression of the Common Expression Language comes to a Boolean or to an error, such as that of selecting a field that is not
there. A disjunction is true if one of its sides is, whatever becomes of the other, and a conjunction is false if one of its sides
is; a rule is met if it comes to true (`or_eq_true`, `and_eq_true`, `not_eq_true`, `select_eq_true`, `all_eq_true`).
-/

namespace Cel

/-- What an expression comes to; `none` is an error. -/
abbrev Result := Option Bool

variable {α : Type}

/-- `has(o)`. -/
def has (o : Option α) : Result := some o.isSome

/-- `!a`. -/
def not (a : Result) : Result := a.map (!·)

/-- `a || b`. -/
def or : Result → Result → Result
  | some true, _ => some true
  | some false, b => b
  | none, some true => some true
  | none, _ => none

/-- `a && b`. -/
def and (a b : Result) : Result := not (or (not a) (not b))

/-- An expression in a field that may not be there. -/
def select (o : Option α) (f : α → Result) : Result := o.bind f

/-- `as.all(a, f(a))`. -/
def all (as : List α) (f : α → Result) : Result := as.foldr (fun a r => and (f a) r) (some true)

variable {a b : Result} {o : Option α} {f : α → Result} {as : List α} {c : Bool}

@[simp] theorem has_eq : has o = some c ↔ o.isSome = c := by simp [has]

@[simp] theorem not_eq : not a = some c ↔ a = some (!c) := by
  cases a with
  | none => simp [not]
  | some a => cases a <;> cases c <;> simp [not]

@[simp] theorem or_eq_true : or a b = some true ↔ a = some true ∨ b = some true := by
  cases a with
  | none => cases b with
    | none => simp [or]
    | some b => cases b <;> simp [or]
  | some a => cases a <;> simp [or]

@[simp] theorem or_eq_false : or a b = some false ↔ a = some false ∧ b = some false := by
  cases a with
  | none => cases b with
    | none => simp [or]
    | some b => cases b <;> simp [or]
  | some a => cases a <;> simp [or]

@[simp] theorem and_eq_true : and a b = some true ↔ a = some true ∧ b = some true := by simp [and]

@[simp] theorem and_eq_false : and a b = some false ↔ a = some false ∨ b = some false := by simp [and]

@[simp] theorem select_eq : select o f = some c ↔ ∃ x, o = some x ∧ f x = some c := by
  simp [select, Option.bind_eq_some_iff]

@[simp] theorem all_eq_true : all as f = some true ↔ ∀ x ∈ as, f x = some true := by
  induction as with
  | nil => simp [all]
  | cons x as ih =>
    have hcons : all (x :: as) f = and (f x) (all as f) := rfl
    rw [hcons, and_eq_true, ih, List.forall_mem_cons]

end Cel
