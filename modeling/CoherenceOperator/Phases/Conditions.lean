import CoherenceOperator.Api.Status

/-!
# What a condition says after it was set

The rules of `setCondition`: the condition that was set is found, every other one stays as it was, and
the flag is false exactly when the list had the condition already (`Records`), in which case nothing changes.
-/

namespace CoherenceOperator

namespace Conditions

variable {cs : Conditions} {c new : Condition} {t : ConditionType} {now : ℕ}

/-- The condition of the type of `c` says what `c` says, the time apart. -/
def Records (cs : Conditions) (c : Condition) : Prop := ∃ old, cs.getCondition c.type = some old ∧ changes old c = false

/-- The condition of the type is there, and true. -/
def IsTrue (cs : Conditions) (t : ConditionType) : Prop := ∃ c, cs.getCondition t = some c ∧ c.status = .true

/-- There is a condition of the type. -/
def Has (cs : Conditions) (t : ConditionType) : Prop := cs.getCondition t ≠ none

instance (cs : Conditions) (c : Condition) : Decidable (cs.Records c) :=
  match h : cs.getCondition c.type with
  | none => isFalse fun ⟨_, hold, _⟩ => by rw [h] at hold; cases hold
  | some old =>
    if hc : changes old c = false then isTrue ⟨old, h, hc⟩
    else isFalse fun ⟨_, hold, hc'⟩ => by rw [h] at hold; cases hold; exact hc hc'

instance (cs : Conditions) (t : ConditionType) : Decidable (cs.IsTrue t) :=
  match h : cs.getCondition t with
  | none => isFalse fun ⟨_, hold, _⟩ => by rw [h] at hold; cases hold
  | some c =>
    if hc : c.status = .true then isTrue ⟨c, h, hc⟩
    else isFalse fun ⟨_, hold, hc'⟩ => by rw [h] at hold; cases hold; exact hc hc'

instance (cs : Conditions) (t : ConditionType) : Decidable (cs.Has t) := inferInstanceAs (Decidable (_ ≠ none))

theorem changes_eq_false : changes c new = false ↔ c.status = new.status ∧ c.reason = new.reason ∧ c.message = new.message := by
  simp [changes, and_assoc]

theorem getCondition_cons (c : Condition) (cs : Conditions) (t : ConditionType) :
    getCondition (c :: cs) t = if c.type = t then some c else cs.getCondition t := by
  rw [getCondition, List.find?_cons]
  by_cases h : c.type = t <;> simp [h, getCondition]

/-- The condition that was set is found. -/
theorem getCondition_setCondition_self (now : ℕ) (new : Condition) (cs : Conditions) :
    ∃ time, (cs.setCondition now new).1.getCondition new.type = some { new with lastTransitionTime := time } := by
  induction cs with
  | nil => exact ⟨now, by simp [setCondition, getCondition]⟩
  | cons c cs ih =>
    obtain ⟨time, ih⟩ := ih
    rw [setCondition]
    by_cases h : c.type = new.type
    · rw [if_pos h]
      exact ⟨_, by simp [getCondition_cons]; rfl⟩
    · rw [if_neg h]
      refine ⟨time, ?_⟩
      rw [getCondition_cons, if_neg h]
      exact ih

/-- A condition of another type stays as it was. -/
theorem getCondition_setCondition_of_ne (h : t ≠ new.type) :
    (cs.setCondition now new).1.getCondition t = cs.getCondition t := by
  induction cs with
  | nil => simp [setCondition, getCondition, Ne.symm h]
  | cons c cs ih =>
    rw [setCondition]
    by_cases hc : c.type = new.type
    · rw [if_pos hc, getCondition_cons, getCondition_cons, if_neg (Ne.symm h), if_neg (by rw [hc]; exact Ne.symm h)]
    · rw [if_neg hc, getCondition_cons, getCondition_cons]
      rw [ih]

/-- A condition that is there already is not set again. -/
theorem setCondition_of_records (h : cs.Records new) : cs.setCondition now new = (cs, false) := by
  obtain ⟨old, hold, hch⟩ := h
  induction cs with
  | nil => cases hold
  | cons c cs ih =>
    rw [getCondition_cons] at hold
    rw [setCondition]
    by_cases hc : c.type = new.type
    · rw [if_pos hc, Option.some.injEq] at hold
      subst hold
      obtain ⟨hs, hr, hm⟩ := changes_eq_false.1 hch
      rw [if_pos hc, if_pos hs, hch, ← hc, ← hs, ← hr, ← hm]
    · rw [if_neg hc] at hold
      rw [if_neg hc, ih hold]

/-- The condition that was set is there. -/
theorem records_setCondition_self (now : ℕ) (new : Condition) (cs : Conditions) :
    (cs.setCondition now new).1.Records new := by
  obtain ⟨time, h⟩ := getCondition_setCondition_self now new cs
  exact ⟨_, h, by simp [changes]⟩

theorem records_setCondition_of_ne (new : Condition) (h : c.type ≠ new.type) :
    (cs.setCondition now new).1.Records c ↔ cs.Records c := by
  rw [Records, getCondition_setCondition_of_ne h, Records]

/-- The flag says whether the condition was there. -/
theorem setCondition_snd : (cs.setCondition now new).2 = true ↔ ¬ cs.Records new := by
  constructor
  · intro h hr
    rw [setCondition_of_records hr] at h
    cases h
  · intro h
    induction cs with
    | nil => rfl
    | cons c cs ih =>
      rw [setCondition]
      by_cases hc : c.type = new.type
      · rw [if_pos hc]
        by_contra hch
        exact h ⟨c, by rw [getCondition_cons, if_pos hc], by simpa using hch⟩
      · rw [if_neg hc]
        refine ih fun hr => h ?_
        rwa [Records, getCondition_cons, if_neg hc]

/-- Setting a condition that is not there changes the list. -/
theorem setCondition_ne_of_not_records (h : ¬ cs.Records new) : (cs.setCondition now new).1 ≠ cs := by
  intro heq
  have hself := records_setCondition_self now new cs
  rw [heq] at hself
  exact h hself

theorem isTrue_setCondition_self (new : Condition) : (cs.setCondition now new).1.IsTrue new.type ↔ new.status = .true := by
  obtain ⟨time, h⟩ := getCondition_setCondition_self now new cs
  constructor
  · rintro ⟨c, hc, ht⟩
    rw [h, Option.some.injEq] at hc
    subst hc
    exact ht
  · exact fun ht => ⟨_, h, ht⟩

theorem isTrue_setCondition_of_ne (new : Condition) (h : t ≠ new.type) : (cs.setCondition now new).1.IsTrue t ↔ cs.IsTrue t := by
  rw [IsTrue, getCondition_setCondition_of_ne h, IsTrue]

theorem isTrue_of_records (h : cs.Records c) (ht : c.status = .true) : cs.IsTrue c.type := by
  obtain ⟨old, hold, hch⟩ := h
  exact ⟨old, hold, (changes_eq_false.1 hch).1.trans ht⟩

theorem has_setCondition : (cs.setCondition now new).1.Has t ↔ t = new.type ∨ cs.Has t := by
  by_cases h : t = new.type
  · obtain ⟨time, hself⟩ := getCondition_setCondition_self now new cs
    subst h
    rw [Has, hself]
    simp
  · rw [Has, getCondition_setCondition_of_ne h]
    simp [h, Has]

end Conditions

end CoherenceOperator
