import Mathlib.Data.Nat.Notation

/-!
# Conditions

The conditions of a status: a list with at most one condition of each type. `SetCondition` takes
the time from a clock, which is an argument here. The order in which conditions
are marshalled is left out: nothing looks at it.
-/

namespace CoherenceOperator

/-- The types of condition, which are the phases as well: the ten that the operator uses, and any other text. -/
inductive ConditionType where
  | initialized | waiting | created | ready | scaling | rollingUpgrade | failed | stopped | completed
  | versioned
  | other (name : String)
  deriving DecidableEq, Repr

/-- `corev1.ConditionStatus`. -/
inductive ConditionStatus where
  | true | false | unknown
  | other (value : String)
  deriving DecidableEq, Repr

/-- One condition. -/
structure Condition where
  type : ConditionType
  status : ConditionStatus
  reason : String := ""
  message : String := ""
  lastTransitionTime : ℕ := 0
  deriving DecidableEq, Repr

/-- A list of conditions. -/
abbrev Conditions := List Condition

namespace Conditions

/-- Is the condition `c` changed by `new`? -/
def changes (c new : Condition) : Bool :=
  c.status != new.status || c.reason != new.reason || c.message != new.message

/-- `SetCondition`, at time `now`: replace the condition of this type, or add one. The flag says
whether the condition is new or changed. -/
def setCondition (now : ℕ) (new : Condition) : Conditions → Conditions × Bool
  | [] => ([{ new with lastTransitionTime := now }], true)
  | c :: cs =>
    if c.type = new.type then
      let time := if c.status = new.status then c.lastTransitionTime else now
      ({ new with lastTransitionTime := time } :: cs, changes c new)
    else
      let (cs', changed) := setCondition now new cs
      (c :: cs', changed)

/-- `NewConditions`: the conditions are set one after the other, each at the time that the clock shows then. -/
def newConditions (conds : List (ℕ × Condition)) : Conditions :=
  conds.foldl (fun cs c => (setCondition c.1 c.2 cs).1) []

/-- `RemoveCondition`: cut the first condition of the type out. The flag says whether there was one. -/
def removeCondition (t : ConditionType) : Conditions → Conditions × Bool
  | [] => ([], false)
  | c :: cs =>
    if c.type = t then (cs, true)
    else
      let (cs', removed) := removeCondition t cs
      (c :: cs', removed)

/-- `GetCondition`: the first condition of the type. -/
def getCondition (cs : Conditions) (t : ConditionType) : Option Condition :=
  cs.find? fun c => c.type = t

end Conditions

end CoherenceOperator
