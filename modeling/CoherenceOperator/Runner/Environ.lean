import CoherenceOperator.Footprint.Environment
import CoherenceOperator.Runner.Config

/-!
# The environment of the runner

The variables that the builder owns have the values that it gave them, or are not set; every other variable is arbitrary. An option
that the runner adds is expanded in its value only, when there is no dollar in what comes before the value.
-/

namespace CoherenceOperator

variable {name n : String} {vars vars' : List EnvVar}

/-! ### Variables -/

/-- The value that is seen under a name. -/
def lookedUp (name : String) (vars : List EnvVar) : Option String := (effectiveEnv name vars).map (·.value)

/-- The environment of a process: what is given under the owned names, and anything elsewhere. -/
def environ (own : List String) (vars : List EnvVar) (others : String → String) (name : String) : String :=
  if name ∈ own then (lookedUp name vars).getD "" else others name

theorem environ_own {own : List String} (h : name ∈ own) (vars : List EnvVar) (others : String → String) :
    environ own vars others name = (lookedUp name vars).getD "" := if_pos h

@[simp] theorem lookedUp_nil : lookedUp name [] = none := rfl

theorem lookedUp_append : lookedUp name (vars ++ vars') = (lookedUp name vars').or (lookedUp name vars) := by
  rw [lookedUp, effectiveEnv, namedEnv_append, List.getLast?_append, Option.map_or]
  rfl

theorem lookedUp_ite (c : Prop) [Decidable c] :
    lookedUp name (if c then vars else vars') = if c then lookedUp name vars else lookedUp name vars' := apply_ite _ _ _ _

theorem lookedUp_eq_none (h : namedEnv name vars = []) : lookedUp name vars = none := by
  rw [lookedUp, effectiveEnv, h]
  rfl

@[simp] theorem lookedUp_singleton (value : String) (valueFrom : Option EnvVarSource) :
    lookedUp name [{ name := n, value, valueFrom }] = if n = name then some value else none := by
  by_cases h : n = name
  · rw [if_pos h, lookedUp, effectiveEnv, namedEnv_cons_pos h]
    rfl
  · rw [if_neg h]
    exact lookedUp_eq_none (namedEnv_cons_neg h)

theorem lookedUp_cons (value : String) (valueFrom : Option EnvVarSource) : lookedUp name ({ name := n, value, valueFrom } :: vars) =
    (lookedUp name vars).or (if n = name then some value else none) := by
  rw [← List.singleton_append, lookedUp_append, lookedUp_singleton]

@[simp] theorem lookedUp_envOf (v : Option String) : lookedUp name (envOf n v) = if n = name then v else none := by
  cases v with
  | none => simp [envOf]
  | some value => exact lookedUp_singleton value none

@[simp] theorem lookedUp_envOfText (v : Option String) :
    lookedUp name (envOfText n v) = if n = name then v.filter (· ≠ "") else none := lookedUp_envOf _

@[simp] theorem lookedUp_envOfFlag (b : Option Bool) :
    lookedUp name (envOfFlag n b) = if n = name ∧ b = some true then some "true" else none := by
  rw [envOfFlag]
  by_cases hb : b = some true
  · rw [if_pos hb]
    simp [hb]
  · rw [if_neg hb]
    simp [hb]

@[simp] theorem lookedUp_envOfList (separator : String) (l : List String) :
    lookedUp name (envOfList n separator l) = if n = name ∧ l ≠ [] then some (separator.intercalate l) else none := by
  cases l with
  | nil => simp [envOfList]
  | cons x l => simp [envOfList]

/-- Nothing is the same as a variable that is not set. -/
theorem getD_filter_ne_empty (v : Option String) : (v.filter (· ≠ "")).getD "" = v.getD "" := by
  cases v with
  | none => rfl
  | some s =>
    by_cases h : s = ""
    · simp [Option.filter, h]
    · simp [Option.filter, h]

/-! ### Options -/

theorem expand_append {s t : String} (mapping : String → String) (hs : '$' ∉ s.toList) :
    expand mapping (s ++ t) = s ++ expand mapping t := by
  rw [expand, String.toList_append, expandFrom_append_of_notMem hs, String.ofList_append, String.ofList_toList]
  rfl

theorem expand_of_notMem {s : String} (mapping : String → String) (hs : '$' ∉ s.toList) : expand mapping s = s := by
  rw [expand, expandFrom_of_notMem hs, String.ofList_toList]

end CoherenceOperator
