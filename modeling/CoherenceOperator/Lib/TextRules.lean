import Mathlib.Data.List.Infix
import Mathlib.Data.List.TakeWhile

/-!
# Rules on texts

A rule asks a text for some texts within it: one of each group. A classifier goes through the categories in order and
takes the first one with a rule that matches. A text with another one put before it matches what it matched, and besides
what the new text completes; so its category is the same exactly if no rule of a category that comes earlier is completed
(`classify_append_iff`).
-/

namespace TextRules

/-- The groups of texts of which a text has to have one each. -/
abbrev Rule := List (List String)

/-- An occurrence of `p` in `a ++ s` that starts in `a`. -/
def StartsIn (p a s : List Char) : Prop := ∃ k < a.length, p <+: (a ++ s).drop k

namespace Rule

/-- The text has one of each group. -/
def Matches (r : Rule) (s : List Char) : Prop := ∀ g ∈ r, ∃ p ∈ g, p.toList <:+: s

instance (r : Rule) (s : List Char) : Decidable (r.Matches s) := inferInstanceAs (Decidable (∀ g ∈ r, ∃ p ∈ g, p.toList <:+: s))

/-- With `a` before it, `s` has one of each group. -/
def CompletedBy (r : Rule) (a s : List Char) : Prop := ∀ g ∈ r, ∃ p ∈ g, p.toList <:+: s ∨ StartsIn p.toList a s

end Rule

variable {C : Type*} {p a s : List Char} {r : Rule} {cs : List (C × List Rule)} {d : C}

/-- The first category with a rule that matches, or else `d`. -/
def classify : List (C × List Rule) → C → List Char → C
  | [], d, _ => d
  | (c, rules) :: cs, d, s => if ∃ r ∈ rules, r.Matches s then c else classify cs d s

/-! ### Occurrences -/

/-- An occurrence of a text starts somewhere. -/
theorem infix_iff_drop : p <:+: s ↔ ∃ k, p <+: s.drop k := by
  constructor
  · rintro ⟨u, v, rfl⟩
    refine ⟨u.length, v, ?_⟩
    rw [List.append_assoc, List.drop_left]
  · rintro ⟨k, hp⟩
    exact hp.isInfix.trans (List.drop_suffix k s).isInfix

/-- It starts in the first part, or is one of the second. -/
theorem infix_append_iff : p <:+: a ++ s ↔ p <:+: s ∨ StartsIn p a s := by
  constructor
  · intro h
    obtain ⟨k, hp⟩ := infix_iff_drop.1 h
    by_cases hlt : k < a.length
    · exact .inr ⟨k, hlt, hp⟩
    · left
      rw [List.drop_append, List.drop_eq_nil_of_le (by omega), List.nil_append] at hp
      exact infix_iff_drop.2 ⟨_, hp⟩
  · intro h
    obtain h | ⟨k, -, hp⟩ := h
    · exact h.trans (List.suffix_append a s).isInfix
    · exact infix_iff_drop.2 ⟨k, hp⟩

theorem Rule.matches_append_iff : r.Matches (a ++ s) ↔ r.CompletedBy a s := by
  unfold Rule.Matches Rule.CompletedBy
  simp only [infix_append_iff]

/-- What a text matches it still matches with another one before it. -/
theorem Rule.Matches.append (h : r.Matches s) (a : List Char) : r.Matches (a ++ s) := by
  rw [matches_append_iff]
  intro g hg
  obtain ⟨p, hp, hin⟩ := h g hg
  exact ⟨p, hp, .inl hin⟩

/-! ### Categories -/

theorem classify_mem (cs : List (C × List Rule)) (d : C) (s : List Char) :
    classify cs d s = d ∨ classify cs d s ∈ cs.map Prod.fst := by
  induction cs with
  | nil => exact .inl rfl
  | cons g cs ih =>
    obtain ⟨c, rules⟩ := g
    rw [classify]
    split
    · exact .inr (by simp)
    · obtain ih | ih := ih
      · exact .inl ih
      · exact .inr (List.mem_cons_of_mem c ih)

/-- **A text put before another one** leaves its category alone exactly if it completes no rule of a category before that. -/
theorem classify_append_iff [DecidableEq C] (hnodup : (cs.map Prod.fst).Nodup) (hd : d ∉ cs.map Prod.fst) :
    classify cs d (a ++ s) = classify cs d s ↔
      ∀ g ∈ cs.takeWhile fun g => g.1 ≠ classify cs d s, ∀ r ∈ g.2, ¬r.CompletedBy a s := by
  induction cs with
  | nil => simp [classify]
  | cons g cs ih =>
    obtain ⟨c, rules⟩ := g
    rw [List.map_cons, List.nodup_cons] at hnodup
    rw [List.map_cons, List.mem_cons, not_or] at hd
    by_cases hs : ∃ r ∈ rules, r.Matches s
    · obtain ⟨r, hr, hmatches⟩ := hs
      have hsame : classify ((c, rules) :: cs) d s = c := if_pos ⟨r, hr, hmatches⟩
      rw [hsame, List.takeWhile_cons_of_neg (by simp)]
      simp only [List.not_mem_nil, false_implies, implies_true, iff_true]
      exact if_pos ⟨r, hr, hmatches.append a⟩
    · have hs' : classify ((c, rules) :: cs) d s = classify cs d s := if_neg hs
      have hne : c ≠ classify cs d s := by
        rintro rfl
        obtain h | h := classify_mem cs d s
        · exact hd.1 h.symm
        · exact hnodup.1 h
      rw [hs', List.takeWhile_cons_of_pos (by simpa using hne), List.forall_mem_cons, ← ih hnodup.2 hd.2]
      by_cases ha : ∃ r ∈ rules, r.Matches (a ++ s)
      · have hac : classify ((c, rules) :: cs) d (a ++ s) = c := if_pos ha
        obtain ⟨r, hr, hmatches⟩ := ha
        rw [hac]
        refine iff_of_false hne fun h => h.1 r hr (Rule.matches_append_iff.1 hmatches)
      · have hac : classify ((c, rules) :: cs) d (a ++ s) = classify cs d (a ++ s) := if_neg ha
        rw [hac]
        refine ⟨fun h => ⟨fun r hr hcompleted => ha ⟨r, hr, Rule.matches_append_iff.2 hcompleted⟩, h⟩, fun h => h.2⟩

end TextRules
