import Mathlib.Algebra.GroupWithZero.Nat
import Mathlib.Algebra.Order.BigOperators.Group.List
import Mathlib.Algebra.Order.Group.Nat
import Mathlib.Data.List.DropRight
import Mathlib.Data.List.Perm.Subperm

/-!
# Java commands

The launcher reads the options of the virtual machine up to the main class; some of them have their value in the next argument. Of the
options that set a system property, the last one counts (`systemProperty`).

`split` is `String.split` by one character: without the empty parts at the end. What it makes of a list that was joined is the list
(`split_intercalate`), and a text that has all elements of a list among its parts is not shorter than the list joined
(`length_le_of_subset_split`).
-/

namespace JavaCommand

/-! ### Options -/

/-- The options whose value is the next argument. -/
def takesValue (a : List Char) : Bool :=
  a ∈ ["--class-path", "-classpath", "-cp", "--module-path", "-p", "--upgrade-module-path", "--add-modules", "--enable-native-access",
    "--limit-modules", "--add-exports", "--add-opens", "--add-reads", "--patch-module", "--describe-module", "-d",
    "--source"].map String.toList

/-- Is the option followed by the program, or is the argument the program itself? -/
def isProgram (a : List Char) : Bool := a.head? ≠ some '-' || a ∈ ["-jar", "-m", "--module"].map String.toList

/-- The property that an option sets, and its value. -/
def setting : List Char → Option (List Char × List Char)
  | '-' :: 'D' :: s => some (s.takeWhile (· ≠ '='), (s.dropWhile (· ≠ '=')).tail)
  | _ => none

/-- The properties that are set, in the order of the options. -/
def settings : List (List Char) → List (List Char × List Char)
  | [] => []
  | [a] => if isProgram a then [] else (setting a).toList
  | a :: b :: as =>
    if isProgram a then []
    else if takesValue a then settings as
    else (setting a).toList ++ settings (b :: as)

/-- The value of a system property. -/
def systemProperty (name : List Char) (args : List (List Char)) : Option (List Char) :=
  ((settings args).filter (·.1 = name)).getLast?.map (·.2)

/-- The letters with which options begin that stand alone. -/
def aloneLetters : List Char := ['D', 'X', 'a']

/-- An option that stands alone: a system property, an option of the virtual machine, or an agent. -/
def isAlone : List Char → Bool
  | '-' :: c :: _ => c ∈ aloneLetters
  | _ => false

/-- The option does not set the property. -/
def DoesNotSet (name a : List Char) : Prop := ∀ p ∈ setting a, p.1 ≠ name

instance (name a : List Char) : Decidable (DoesNotSet name a) := inferInstanceAs (Decidable (∀ p ∈ setting a, p.1 ≠ name))

section

variable {name a value : List Char} {args before after : List (List Char)}

theorem exists_cons_of_isAlone (h : isAlone a = true) : ∃ c s, a = '-' :: c :: s ∧ c ∈ aloneLetters := by
  unfold isAlone at h
  split at h
  · rename_i c s
    exact ⟨c, s, rfl, of_decide_eq_true h⟩
  · cases h

theorem isProgram_of_isAlone (h : isAlone a = true) : isProgram a = false := by
  obtain ⟨c, s, rfl, hc⟩ := exists_cons_of_isAlone h
  rw [isProgram, Bool.or_eq_false_iff]
  refine ⟨by simp, ?_⟩
  simp only [aloneLetters, List.mem_cons, List.not_mem_nil, or_false] at hc
  obtain rfl | rfl | rfl := hc
  · simp
  · simp
  · simp

theorem takesValue_of_isAlone (h : isAlone a = true) : takesValue a = false := by
  obtain ⟨c, s, rfl, hc⟩ := exists_cons_of_isAlone h
  rw [takesValue]
  simp only [aloneLetters, List.mem_cons, List.not_mem_nil, or_false] at hc
  obtain rfl | rfl | rfl := hc
  · simp
  · simp
  · simp

theorem settings_cons (h : isAlone a = true) : settings (a :: args) = (setting a).toList ++ settings args := by
  cases args with
  | nil => simp [settings, isProgram_of_isAlone h]
  | cons b args => simp [settings, isProgram_of_isAlone h, takesValue_of_isAlone h]

/-- Options that stand alone are gone through one by one. -/
theorem settings_append (h : ∀ a ∈ before, isAlone a = true) : settings (before ++ args) = before.flatMap (fun a => (setting a).toList) ++ settings args := by
  induction before with
  | nil => rfl
  | cons a before ih =>
    obtain ⟨ha, hbefore⟩ := List.forall_mem_cons.1 h
    rw [List.cons_append, settings_cons ha, ih hbefore, List.flatMap_cons, List.append_assoc]

/-- An option with a value is passed over. -/
theorem settings_cons_cons (hprogram : isProgram a = false) (hvalue : takesValue a = true) (b : List Char) :
    settings (a :: b :: args) = settings args := by
  rw [settings, if_neg (by simp [hprogram]), if_pos hvalue]

/-- What is set is set by one of the arguments. -/
theorem exists_setting {p : List Char × List Char} (h : p ∈ settings args) : ∃ a ∈ args, setting a = some p := by
  fun_induction settings args with
  | case1 => simp at h
  | case2 a hprogram => simp at h
  | case3 a hprogram => exact ⟨a, List.mem_singleton_self a, by simpa using h⟩
  | case4 a b as hprogram => simp at h
  | case5 a b as hprogram hvalue ih =>
    obtain ⟨c, hc, hset⟩ := ih h
    exact ⟨c, List.mem_cons_of_mem a (List.mem_cons_of_mem b hc), hset⟩
  | case6 a b as hprogram hvalue ih =>
    obtain h | h := List.mem_append.1 h
    · exact ⟨a, List.mem_cons_self, by simpa using h⟩
    · obtain ⟨c, hc, hset⟩ := ih h
      exact ⟨c, List.mem_cons_of_mem a hc, hset⟩

/-- **The value of a property**, where one of the options sets it, after options that stand alone, and no other does. -/
theorem systemProperty_eq (hbefore : ∀ a ∈ before, isAlone a = true) (hset : setting a = some (name, value)) (ha : isAlone a = true)
    (hothers : ∀ b ∈ before ++ after, DoesNotSet name b) : systemProperty name (before ++ a :: after) = some value := by
  have hrest : ∀ as : List (List Char), (∀ b ∈ as, DoesNotSet name b) → (settings as).filter (·.1 = name) = [] := by
    intro as has
    refine List.filter_eq_nil_iff.2 fun p hp => ?_
    obtain ⟨b, hb, hset⟩ := exists_setting hp
    simpa using has b hb p hset
  have hfirst : (before.flatMap fun a => (setting a).toList).filter (·.1 = name) = [] := by
    refine List.filter_eq_nil_iff.2 fun p hp => ?_
    obtain ⟨b, hb, hset⟩ := List.mem_flatMap.1 hp
    simpa using hothers b (List.mem_append_left _ hb) p (Option.mem_toList.1 hset)
  rw [systemProperty, settings_append hbefore, settings_cons ha, List.filter_append, hfirst, List.nil_append, List.filter_append, hset,
    hrest after fun b hb => hothers b (List.mem_append_right _ hb)]
  simp

theorem systemProperty_eq_none (h : ∀ a ∈ args, DoesNotSet name a) : systemProperty name args = none := by
  have hnone : (settings args).filter (·.1 = name) = [] := by
    refine List.filter_eq_nil_iff.2 fun p hp => ?_
    obtain ⟨b, hb, hset⟩ := exists_setting hp
    simpa using h b hb p hset
  rw [systemProperty, hnone]
  rfl

/-- The option that sets a property to a value. -/
theorem setting_eq (hname : '=' ∉ name) (value : List Char) : setting ('-' :: 'D' :: (name ++ '=' :: value)) = some (name, value) := by
  have hne : ∀ c ∈ name, (c ≠ '=') = true := by
    intro c hc
    simp only [ne_eq, eq_iff_iff, iff_true]
    rintro rfl
    exact hname hc
  rw [setting, List.takeWhile_append_of_pos (by simpa using hne), List.dropWhile_append_of_pos (by simpa using hne)]
  simp

end

/-! ### Lists in a text -/

/-- `String.split`, by one character. -/
def split (c : Char) (s : List Char) : List (List Char) := if c ∈ s then (s.splitOn c).rdropWhile (· = []) else [s]

section

variable {c : Char} {s : List Char} {ls : List (List Char)}

/-- The length of a list that is joined: each element counts one more, but for the last. -/
theorem length_joined (c : Char) (h : ls ≠ []) : ([c].intercalate ls).length + 1 = (ls.map fun l => l.length + 1).sum := by
  induction ls with
  | nil => exact absurd rfl h
  | cons l ls ih =>
    cases ls with
    | nil => rw [List.intercalate_singleton, List.map_singleton, List.sum_singleton]
    | cons k ls =>
      have hrest := ih (List.cons_ne_nil k ls)
      rw [List.intercalate_cons_cons, List.map_cons, List.sum_cons, ← hrest, List.length_append, List.length_append, List.length_singleton]
      omega

theorem split_subset_splitOn : split c s ⊆ s.splitOn c := by
  rw [split]
  split_ifs with h
  · exact (List.rdropWhile_prefix _ _).subset
  · rw [List.splitOn_eq_singleton h]
    exact List.Subset.refl _

/-- What was joined is split again. -/
theorem split_intercalate (h : ls ≠ []) (hls : ∀ l ∈ ls, l ≠ [] ∧ c ∉ l) : split c ([c].intercalate ls) = ls := by
  have hsplit : ([c].intercalate ls).splitOn c = ls := List.splitOn_intercalate c (fun l hl => (hls l hl).2) h
  rw [split]
  split_ifs with hc
  · rw [hsplit, List.rdropWhile_eq_self_iff]
    intro hne
    simpa using (hls _ (List.getLast_mem hne)).1
  · exact (List.splitOn_eq_singleton hc).symm.trans hsplit

/-- A text that has all elements of a list among its parts is not shorter than the list joined. -/
theorem length_le_of_subset_split (hnodup : ls.Nodup) (h : ls ⊆ split c s) (hne : ls ≠ []) : ([c].intercalate ls).length ≤ s.length := by
  have hsub : ls.Subperm (s.splitOn c) := hnodup.subperm fun l hl => split_subset_splitOn (h hl)
  have hparts := length_joined c (List.splitOn_ne_nil c s)
  rw [List.intercalate_splitOn] at hparts
  have hjoined := length_joined c hne
  obtain ⟨ks, hperm, hks⟩ := hsub
  have hsum : (ls.map fun l => l.length + 1).sum ≤ ((s.splitOn c).map fun l => l.length + 1).sum := by
    rw [← (hperm.map _).sum_eq]
    exact (hks.map _).sum_le_sum fun _ _ => Nat.zero_le _
  omega

end

end JavaCommand
