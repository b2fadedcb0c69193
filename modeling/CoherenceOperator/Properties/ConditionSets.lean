import CoherenceOperator.Phases.Conditions
import Mathlib.Data.List.Nodup

/-!
# The conditions are a set

The list of conditions is changed in place, by `SetCondition` and by `RemoveCondition`. A list that began with `NewConditions` has
at most one condition of each type (`IsSet`), so that it is a finite map from types to conditions: to set a condition updates the
map at its type, and to remove one takes its type away. What a call does besides (`Conditions.Respects`) needs no more than that.
-/

namespace CoherenceOperator

/-- A call that changes a list of conditions. -/
inductive ConditionCall where
  | set (now : ℕ) (new : Condition)
  | remove (t : ConditionType)
  deriving DecidableEq

/-- The type of the condition that the call is about. -/
def ConditionCall.type : ConditionCall → ConditionType
  | .set _ new => new.type
  | .remove t => t

namespace Conditions

variable {cs : Conditions} {c old new : Condition} {t u : ConditionType} {now : ℕ}

/-- What a call makes of the conditions, and the flag that it returns. -/
def call (cs : Conditions) : ConditionCall → Conditions × Bool
  | .set now new => cs.setCondition now new
  | .remove t => cs.removeCondition t

/-- What calls one after the other make of the conditions. -/
def callAll (cs : Conditions) (calls : List ConditionCall) : Conditions := calls.foldl (fun cs c => (cs.call c).1) cs

/-- There is at most one condition of each type. -/
def IsSet (cs : Conditions) : Prop := (cs.map Condition.type).Nodup

/-- The conditions that are not of the type. -/
def others (cs : Conditions) (t : ConditionType) : Conditions := cs.filter fun c => c.type ≠ t

/-- A condition of the type of `new` is there, and says something else. -/
def Differs (cs : Conditions) (new : Condition) : Prop :=
  ∃ old ∈ cs, old.type = new.type ∧ (old.status ≠ new.status ∨ old.reason ≠ new.reason ∨ old.message ≠ new.message)

/-- What a call may do: it leaves the conditions of other types alone, it changes the transition time of a condition only with its
status, and its flag says whether the condition that is set is new or changed. -/
structure Respects (cs : Conditions) (call : ConditionCall) : Prop where
  others : (cs.call call).1.others call.type = cs.others call.type
  transition : ∀ old ∈ cs, ∀ c ∈ (cs.call call).1, old.type = c.type → old.lastTransitionTime ≠ c.lastTransitionTime →
    old.status ≠ c.status
  flag : ∀ now new, call = .set now new → ((cs.call call).2 = true ↔ (∀ c ∈ cs, c.type ≠ new.type) ∨ cs.Differs new)

theorem others_cons (c : Condition) (cs : Conditions) (t : ConditionType) :
    others (c :: cs) t = if c.type = t then cs.others t else c :: cs.others t := by
  rw [others, List.filter_cons]
  by_cases h : c.type = t
  · simp [h, others]
  · simp [h, others]

theorem isSet_cons : IsSet (c :: cs) ↔ (∀ x ∈ cs, x.type ≠ c.type) ∧ cs.IsSet := by
  rw [IsSet, List.map_cons, List.nodup_cons, IsSet, List.mem_map, not_exists]
  simp only [not_and, ne_eq]

/-! ### Where the conditions of a call are -/

theorem others_setCondition (now : ℕ) (new : Condition) (cs : Conditions) :
    (cs.setCondition now new).1.others new.type = cs.others new.type := by
  induction cs with
  | nil => simp [setCondition, others]
  | cons c cs ih =>
    rw [setCondition]
    by_cases hc : c.type = new.type
    · rw [if_pos hc, others_cons, others_cons, if_pos rfl, if_pos hc]
    · rw [if_neg hc, others_cons, others_cons, if_neg hc, if_neg hc, ← ih]

theorem others_removeCondition (t : ConditionType) (cs : Conditions) : (cs.removeCondition t).1.others t = cs.others t := by
  induction cs with
  | nil => rfl
  | cons c cs ih =>
    rw [removeCondition]
    by_cases hc : c.type = t
    · rw [if_pos hc, others_cons, if_pos hc]
    · rw [if_neg hc, others_cons, others_cons, if_neg hc, if_neg hc, ← ih]

/-- The types stay where they are; a type that was not there comes last. -/
theorem types_setCondition (now : ℕ) (new : Condition) (cs : Conditions) :
    (cs.setCondition now new).1.map Condition.type =
      if new.type ∈ cs.map Condition.type then cs.map Condition.type else cs.map Condition.type ++ [new.type] := by
  induction cs with
  | nil => simp [setCondition]
  | cons c cs ih =>
    rw [setCondition]
    by_cases hc : c.type = new.type
    · rw [if_pos hc, List.map_cons, List.map_cons, hc, if_pos List.mem_cons_self]
    · have hmem : new.type ∈ (c :: cs).map Condition.type ↔ new.type ∈ cs.map Condition.type := by
        rw [List.map_cons, List.mem_cons]
        exact or_iff_right (Ne.symm hc)
      rw [if_neg hc, List.map_cons, ih]
      simp only [hmem]
      split
      · rw [List.map_cons]
      · rw [List.map_cons, List.cons_append]

theorem types_removeCondition (t : ConditionType) (cs : Conditions) :
    (cs.removeCondition t).1.map Condition.type = (cs.map Condition.type).erase t := by
  induction cs with
  | nil => rfl
  | cons c cs ih =>
    rw [removeCondition]
    by_cases hc : c.type = t
    · rw [if_pos hc, List.map_cons, hc, List.erase_cons_head]
    · rw [if_neg hc, List.map_cons, List.map_cons, List.erase_cons_tail (by simpa using hc), ← ih]

/-! ### A set stays a set -/

theorem IsSet.setCondition (h : cs.IsSet) (now : ℕ) (new : Condition) : (cs.setCondition now new).1.IsSet := by
  rw [IsSet, types_setCondition]
  split
  · exact h
  · rename_i hnew
    refine List.nodup_append.2 ⟨h, List.nodup_singleton _, fun t ht u hu => ?_⟩
    rw [List.mem_singleton.1 hu]
    exact ne_of_mem_of_not_mem ht hnew

theorem IsSet.removeCondition (h : cs.IsSet) (t : ConditionType) : (cs.removeCondition t).1.IsSet := by
  rw [IsSet, types_removeCondition]
  exact h.erase t

theorem IsSet.call (h : cs.IsSet) (call : ConditionCall) : (cs.call call).1.IsSet := by
  cases call with
  | set now new => exact h.setCondition now new
  | remove t => exact h.removeCondition t

theorem IsSet.callAll (h : cs.IsSet) (calls : List ConditionCall) : (cs.callAll calls).IsSet := by
  induction calls generalizing cs with
  | nil => exact h
  | cons call calls ih => exact ih (h.call call)

/-- `NewConditions` sets the conditions one after the other. -/
theorem newConditions_eq (conds : List (ℕ × Condition)) :
    newConditions conds = callAll [] (conds.map fun c => .set c.1 c.2) := by
  rw [newConditions, callAll, List.foldl_map]
  rfl

theorem isSet_newConditions (conds : List (ℕ × Condition)) : (newConditions conds).IsSet := by
  have hempty : IsSet [] := List.nodup_nil
  rw [newConditions_eq]
  exact hempty.callAll _

/-! ### The map from types to conditions -/

theorem getCondition_eq_some (h : cs.IsSet) : cs.getCondition t = some c ↔ c ∈ cs ∧ c.type = t := by
  induction cs with
  | nil => simp [getCondition]
  | cons x cs ih =>
    obtain ⟨hx, hcs⟩ := isSet_cons.1 h
    rw [getCondition_cons, List.mem_cons]
    by_cases hc : x.type = t
    · rw [if_pos hc, Option.some.injEq]
      constructor
      · intro hxc
        exact ⟨.inl hxc.symm, hxc ▸ hc⟩
      · rintro ⟨hmem | hmem, ht⟩
        · exact hmem.symm
        · exact absurd (ht.trans hc.symm) (hx c hmem)
    · rw [if_neg hc, ih hcs]
      constructor
      · rintro ⟨hmem, ht⟩
        exact ⟨.inr hmem, ht⟩
      · rintro ⟨hmem | hmem, ht⟩
        · exact absurd (hmem ▸ ht) hc
        · exact ⟨hmem, ht⟩

theorem getCondition_eq_none : cs.getCondition t = none ↔ ∀ c ∈ cs, c.type ≠ t := by
  rw [getCondition, List.find?_eq_none]
  simp

/-- The transition time of a condition that is set. -/
def transitionTime (cs : Conditions) (now : ℕ) (new : Condition) : ℕ :=
  match cs.getCondition new.type with
  | some old => if old.status = new.status then old.lastTransitionTime else now
  | none => now

theorem transitionTime_cons_of_ne (h : c.type ≠ new.type) : transitionTime (c :: cs) now new = cs.transitionTime now new := by
  rw [transitionTime, getCondition_cons, if_neg h, transitionTime]

/-- To set a condition updates the map at its type. -/
theorem getCondition_setCondition (now : ℕ) (new : Condition) (cs : Conditions) :
    (cs.setCondition now new).1.getCondition =
      Function.update cs.getCondition new.type (some { new with lastTransitionTime := cs.transitionTime now new }) := by
  funext t
  by_cases ht : t = new.type
  · subst ht
    rw [Function.update_self]
    induction cs with
    | nil => simp [setCondition, getCondition, transitionTime]
    | cons c cs ih =>
      rw [setCondition]
      by_cases hc : c.type = new.type
      · rw [if_pos hc, getCondition_cons, if_pos rfl, transitionTime, getCondition_cons, if_pos hc]
      · rw [if_neg hc, getCondition_cons, if_neg hc, transitionTime_cons_of_ne hc, ← ih]
  · rw [Function.update_of_ne ht, getCondition_setCondition_of_ne ht]

/-- To remove a condition takes its type away. -/
theorem getCondition_removeCondition (h : cs.IsSet) (t : ConditionType) :
    (cs.removeCondition t).1.getCondition = Function.update cs.getCondition t none := by
  funext u
  induction cs with
  | nil =>
    by_cases hu : u = t
    · rw [hu, Function.update_self]
      rfl
    · rw [Function.update_of_ne hu]
      rfl
  | cons c cs ih =>
    obtain ⟨hc, hcs⟩ := isSet_cons.1 h
    rw [removeCondition]
    by_cases hct : c.type = t
    · rw [if_pos hct]
      by_cases hu : u = t
      · rw [hu, Function.update_self, getCondition_eq_none, ← hct]
        exact hc
      · rw [Function.update_of_ne hu, getCondition_cons, if_neg (by rw [hct]; exact Ne.symm hu)]
    · rw [if_neg hct, getCondition_cons]
      have hrest := ih hcs
      by_cases hu : u = t
      · rw [hu, Function.update_self] at hrest ⊢
        rw [if_neg hct, hrest]
      · rw [Function.update_of_ne hu] at hrest ⊢
        rw [hrest, getCondition_cons]

/-! ### What a call does -/

/-- A condition that is set keeps its transition time while its status stays. -/
theorem time_setCondition (h : cs.IsSet) (hold : old ∈ cs) (hc : c ∈ (cs.setCondition now new).1) (ht : old.type = c.type)
    (hs : old.status = c.status) : old.lastTransitionTime = c.lastTransitionTime := by
  have hwas : cs.getCondition c.type = some old := (getCondition_eq_some h).2 ⟨hold, ht⟩
  have his : (cs.setCondition now new).1.getCondition c.type = some c := (getCondition_eq_some (h.setCondition now new)).2 ⟨hc, rfl⟩
  rw [getCondition_setCondition] at his
  by_cases hnew : c.type = new.type
  · rw [hnew, Function.update_self, Option.some.injEq] at his
    rw [← his] at hs ⊢
    rw [transitionTime, ← hnew, hwas]
    exact (if_pos hs).symm
  · rw [Function.update_of_ne hnew, hwas, Option.some.injEq] at his
    rw [his]

/-- A condition that is left is as it was. -/
theorem eq_of_mem_removeCondition (h : cs.IsSet) (hold : old ∈ cs) (hc : c ∈ (cs.removeCondition t).1) (ht : old.type = c.type) :
    old = c := by
  have hwas : cs.getCondition c.type = some old := (getCondition_eq_some h).2 ⟨hold, ht⟩
  have his : (cs.removeCondition t).1.getCondition c.type = some c := (getCondition_eq_some (h.removeCondition t)).2 ⟨hc, rfl⟩
  rw [getCondition_removeCondition h] at his
  by_cases hct : c.type = t
  · rw [hct, Function.update_self] at his
    cases his
  · rwa [Function.update_of_ne hct, hwas, Option.some.injEq] at his

theorem records_iff (h : cs.IsSet) : cs.Records new ↔ (∃ c ∈ cs, c.type = new.type) ∧ ¬ cs.Differs new := by
  unfold Records Differs
  constructor
  · rintro ⟨old, hold, hch⟩
    obtain ⟨hmem, ht⟩ := (getCondition_eq_some h).1 hold
    refine ⟨⟨old, hmem, ht⟩, ?_⟩
    rintro ⟨old', hmem', ht', hne⟩
    have hold' := (getCondition_eq_some h).2 ⟨hmem', ht'⟩
    rw [hold, Option.some.injEq] at hold'
    subst hold'
    obtain ⟨hs, hr, hm⟩ := changes_eq_false.1 hch
    simp [hs, hr, hm] at hne
  · rintro ⟨⟨old, hmem, ht⟩, hno⟩
    refine ⟨old, (getCondition_eq_some h).2 ⟨hmem, ht⟩, changes_eq_false.2 ?_⟩
    by_contra hne
    refine hno ⟨old, hmem, ht, ?_⟩
    rwa [not_and_or, not_and_or] at hne

/-- Every call on a set respects it. -/
theorem IsSet.respects (h : cs.IsSet) (call : ConditionCall) : cs.Respects call := by
  cases call with
  | set now new =>
    refine ⟨others_setCondition now new cs, fun old hold c hc ht htime hs => htime (time_setCondition h hold hc ht hs), ?_⟩
    rintro now' new' heq
    obtain ⟨rfl, rfl⟩ := ConditionCall.set.inj heq
    rw [Conditions.call, setCondition_snd, records_iff h, not_and_or, not_not, not_exists]
    simp only [not_and, ne_eq]
  | remove t =>
    refine ⟨others_removeCondition t cs, fun old hold c hc ht htime => ?_, fun now new heq => by cases heq⟩
    exact absurd (congrArg Condition.lastTransitionTime (eq_of_mem_removeCondition h hold hc ht)) htime

/-- **The conditions are a set.** Whatever `NewConditions` begins with and whatever is called then, there is at most one condition of
each type, and the next call leaves the other types alone, changes a transition time only with the status, and returns whether the
condition is new or changed. -/
theorem conditions_set (conds : List (ℕ × Condition)) (calls : List ConditionCall) :
    ((newConditions conds).callAll calls).IsSet ∧ ∀ call, ((newConditions conds).callAll calls).Respects call := by
  have h := (isSet_newConditions conds).callAll calls
  exact ⟨h, h.respects⟩

end Conditions

end CoherenceOperator
