import CoherenceOperator.Lib.ArgumentFile

/-!
# Arguments in lines

A file is written line by line (`IsLined`). An argument goes to a line of its own, or it is split at blanks first (`Written`). The
arguments are read back exactly when none is empty and all are plain (`sublist_arguments_iff`).
-/

namespace ArgumentFile

open Reader

/-! ### Split and join -/

section

variable {α : Type*}

theorem flatten_modifyHead_cons (x : α) {ls : List (List α)} (h : ls ≠ []) : (ls.modifyHead (x :: ·)).flatten = x :: ls.flatten := by
  cases ls with
  | nil => exact absurd rfl h
  | cons l ls => simp

variable [DecidableEq α]

/-- The parts of a list are the list without the separators. -/
theorem flatten_splitOn (a : α) (l : List α) : (l.splitOn a).flatten = l.filter (· ≠ a) := by
  induction l with
  | nil => simp
  | cons x l ih =>
    rw [List.splitOn_cons_eq_if_modifyHead]
    by_cases hx : x = a
    · simp [hx, ih]
    · rw [if_neg (by simpa using hx), flatten_modifyHead_cons x (List.splitOn_ne_nil a l), ih, List.filter_cons_of_pos (by simpa using hx)]

/-- What was joined is split into the parts of what was joined. -/
theorem splitOn_intercalate (a : α) {ls : List (List α)} (h : ls ≠ []) : (List.intercalate [a] ls).splitOn a = ls.flatMap (·.splitOn a) := by
  induction ls with
  | nil => exact absurd rfl h
  | cons l ls ih =>
    cases ls with
    | nil => simp
    | cons k ls =>
      rw [List.intercalate_cons_cons, List.append_assoc, List.singleton_append, List.splitOn_append_cons_self, ih (List.cons_ne_nil _ _),
        List.flatMap_cons (x := l)]

end

/-! ### Lines -/

section

variable {text : List Char} {lines : List (List Char)} {c : Char}

/-- Is the text made of these lines? Between them are ends of lines only. -/
structure IsLined (text : List Char) (lines : List (List Char)) : Prop where
  fields : fields text = lines.flatMap ArgumentFile.fields
  weight : weightOf text = weightOf lines.flatten
  mem : ∀ c ∈ lines.flatten, c ∈ text
  of_mem : ∀ c ∈ text, isNewline c = true ∨ c ∈ lines.flatten

theorem isLined_singleton (text : List Char) : IsLined text [text] where
  fields := by simp
  weight := by simp
  mem c hc := by simpa using hc
  of_mem c hc := .inr (by simpa using hc)

theorem isLined_nil : IsLined [] [] where
  fields := rfl
  weight := rfl
  mem _ hc := hc
  of_mem _ hc := absurd hc List.not_mem_nil

/-- Two texts, one line after the other. -/
theorem IsLined.append_cons {s t : List Char} {ls ks : List (List Char)} (hs : IsLined s ls) (ht : IsLined t ks) :
    IsLined (s ++ '\n' :: t) (ls ++ ks) where
  fields := by rw [fields_append_cons s t rfl, hs.fields, ht.fields, List.flatMap_append]
  weight := by
    have hnewline : Reader.weight '\n' = 0 := rfl
    rw [weightOf_append, weightOf_cons, hnewline, Nat.zero_add, hs.weight, ht.weight, List.flatten_append, weightOf_append]
  mem c hc := by
    rw [List.flatten_append, List.mem_append] at hc
    rcases hc with hc | hc
    · exact List.mem_append_left _ (hs.mem c hc)
    · exact List.mem_append_right _ (List.mem_cons_of_mem _ (ht.mem c hc))
  of_mem c hc := by
    rw [List.flatten_append, List.mem_append]
    rcases List.mem_append.1 hc with hc | hc
    · exact (hs.of_mem c hc).imp_right .inl
    · rcases List.mem_cons.1 hc with rfl | hc
      · exact .inl rfl
      · exact (ht.of_mem c hc).imp_right .inr

/-- **Texts in lines** are made of the lines of all of them. -/
theorem isLined_intercalate {texts : List (List Char)} {ls : List (List (List Char))} (h : List.Forall₂ IsLined texts ls) :
    IsLined (List.intercalate ['\n'] texts) ls.flatten := by
  induction h with
  | nil => exact isLined_nil
  | @cons t l texts ls ht htexts ih =>
    cases texts with
    | nil =>
      cases htexts
      simpa using ht
    | cons u texts =>
      rw [List.intercalate_cons_cons, List.append_assoc, List.singleton_append]
      exact ht.append_cons ih

/-- Some lines are made of themselves. -/
theorem isLined_lines (lines : List (List Char)) : IsLined (List.intercalate ['\n'] lines) lines := by
  have h := @isLined_intercalate lines (lines.map fun l => [l]) ?_
  · rwa [← List.flatMap_def, List.flatMap_singleton'] at h
  · rw [List.forall₂_map_right_iff, List.forall₂_same]
    exact fun l _ => isLined_singleton l

/-- Empty lines do not count. -/
theorem isLined_congr {ls ks : List (List Char)} (h : ls.filter (· ≠ []) = ks.filter (· ≠ [])) : IsLined text ls ↔ IsLined text ks := by
  have hfields : ∀ ls : List (List Char), (ls.filter (· ≠ [])).flatMap ArgumentFile.fields = ls.flatMap ArgumentFile.fields := by
    intro ls
    induction ls with
    | nil => rfl
    | cons l ls ih =>
      by_cases hl : l = []
      · rw [hl, List.filter_cons_of_neg (by simp), ih, List.flatMap_cons]
        rfl
      · rw [List.filter_cons_of_pos (by simpa using hl), List.flatMap_cons, ih, List.flatMap_cons]
  have hflatten : ∀ ls : List (List Char), (ls.filter (· ≠ [])).flatten = ls.flatten := by
    intro ls
    induction ls with
    | nil => rfl
    | cons l ls ih =>
      by_cases hl : l = []
      · rw [hl, List.filter_cons_of_neg (by simp), ih, List.flatten_cons, List.nil_append]
      · rw [List.filter_cons_of_pos (by simpa using hl), List.flatten_cons, ih, List.flatten_cons]
  have hpair : ls.flatMap ArgumentFile.fields = ks.flatMap ArgumentFile.fields ∧ ls.flatten = ks.flatten := by
    rw [← hfields ls, ← hfields ks, ← hflatten ls, ← hflatten ks, h]
    exact ⟨rfl, rfl⟩
  obtain ⟨hmap, hflat⟩ := hpair
  constructor
  · rintro ⟨hf, hw, hm, ho⟩
    exact ⟨hmap ▸ hf, hflat ▸ hw, hflat ▸ hm, hflat ▸ ho⟩
  · rintro ⟨hf, hw, hm, ho⟩
    exact ⟨hmap ▸ hf, hflat ▸ hw, hflat ▸ hm, hflat ▸ ho⟩

end

/-! ### Arguments -/

/-- May the text stand in a file as one argument, as it is? -/
def IsArgument (e : List Char) : Prop := e ≠ [] ∧ ∀ c ∈ e, isPlain c = true

instance (e : List Char) : Decidable (IsArgument e) :=
  have : Decidable (∀ c ∈ e, isPlain c = true) := List.decidableBAll _ _
  inferInstanceAs (Decidable (_ ∧ _))

/-- The lines to which an argument goes: one of its own, or one for each part between blanks. -/
inductive Written : List Char → List (List Char) → Prop
  | whole (e : List Char) : Written e [e]
  | split (e : List Char) : Written e (e.splitOn ' ')

section

variable {text e : List Char} {ls : List (List Char)} {es : List (List Char)} {lines : List (List (List Char))}

theorem weightOf_eq_countP (text : List Char) : weightOf text = text.countP (!isNewline ·) := by
  induction text with
  | nil => rfl
  | cons c text ih =>
    rw [weightOf_cons, ih, weight, List.countP_cons, Nat.add_comm]
    cases isNewline c with
    | false => rfl
    | true => rfl

theorem weightOf_le_length (text : List Char) : weightOf text ≤ text.length := by
  rw [weightOf_eq_countP]
  exact List.countP_le_length

theorem not_isNewline_of_weightOf (h : weightOf text = text.length) : ∀ c ∈ text, isNewline c = false := by
  rw [weightOf_eq_countP, List.countP_eq_length] at h
  exact fun c hc => by simpa using h c hc

/-- What is written of an argument is not more than the argument. -/
theorem Written.weight_le (h : Written e ls) : weightOf ls.flatten ≤ e.length := by
  cases h with
  | whole =>
    rw [List.flatten_singleton]
    exact weightOf_le_length e
  | split =>
    rw [flatten_splitOn]
    exact (weightOf_le_length _).trans (List.length_filter_le _ _)

/-- When it is as much, all its characters are written, and none of them ends a line. -/
theorem Written.of_weight_eq (h : Written e ls) (hweight : weightOf ls.flatten = e.length) :
    ∀ c ∈ e, isNewline c = false ∧ c ∈ ls.flatten := by
  cases h with
  | whole =>
    rw [List.flatten_singleton] at hweight ⊢
    exact fun c hc => ⟨not_isNewline_of_weightOf hweight c hc, hc⟩
  | split =>
    rw [flatten_splitOn] at hweight ⊢
    have hle := weightOf_le_length (e.filter (· ≠ ' '))
    have hfilter : e.filter (· ≠ ' ') = e := List.filter_sublist.eq_of_length_le (by omega)
    rw [hfilter] at hweight ⊢
    exact fun c hc => ⟨not_isNewline_of_weightOf hweight c hc, hc⟩

/-- An argument that may stand as it is is one line. -/
theorem Written.eq_singleton (h : Written e ls) (he : IsArgument e) : ls = [e] := by
  cases h with
  | whole => rfl
  | split =>
    refine List.splitOn_eq_singleton fun hblank => ?_
    exact absurd (he.2 _ hblank) (by decide)

theorem weight_le_total (h : List.Forall₂ Written es lines) : weightOf lines.flatten.flatten ≤ total es := by
  induction h with
  | nil => simp [weightOf]
  | cons he hes ih =>
    have hfirst := he.weight_le
    rw [List.flatten_cons, List.flatten_append, weightOf_append, total, List.map_cons, List.sum_cons, ← total]
    omega

theorem of_weight_eq_total (h : List.Forall₂ Written es lines) (hweight : weightOf lines.flatten.flatten = total es) :
    ∀ e ∈ es, ∀ c ∈ e, isNewline c = false ∧ c ∈ lines.flatten.flatten := by
  induction h with
  | nil => exact fun e he => absurd he List.not_mem_nil
  | cons he hes ih =>
    have hfirst := he.weight_le
    have hrest := weight_le_total hes
    rw [List.flatten_cons, List.flatten_append, weightOf_append, total, List.map_cons, List.sum_cons, ← total] at hweight
    rw [List.flatten_cons, List.flatten_append, List.forall_mem_cons]
    refine ⟨fun c hc => ?_, fun e' he' c hc => ?_⟩
    · exact (he.of_weight_eq (by omega) c hc).imp_right (List.mem_append_left _)
    · exact (ih (by omega) e' he' c hc).imp_right (List.mem_append_right _)

theorem flatten_eq_of_isArgument (h : List.Forall₂ Written es lines) (hes : ∀ e ∈ es, IsArgument e) : lines.flatten = es := by
  induction h with
  | nil => rfl
  | cons he _ ih =>
    obtain ⟨hfirst, hrest⟩ := List.forall_mem_cons.1 hes
    rw [List.flatten_cons, he.eq_singleton hfirst, ih hrest, List.singleton_append]

theorem written_whole (es : List (List Char)) : List.Forall₂ Written es (es.map fun e => [e]) := by
  rw [List.forall₂_map_right_iff, List.forall₂_same]
  exact fun e _ => .whole e

theorem written_split (es : List (List Char)) : List.Forall₂ Written es (es.map (·.splitOn ' ')) := by
  rw [List.forall₂_map_right_iff, List.forall₂_same]
  exact fun e _ => .split e

/-- A plain text has no empty field. -/
theorem ne_nil_of_mem_fields : ∀ e ∈ fields text, e ≠ [] := by
  intro e he
  simpa using (List.mem_filter.1 he).2

/-- Lines of plain characters are read as they are, but for those that are empty. -/
theorem arguments_of_isLined (htext : IsLined text es) (hes : ∀ e ∈ es, ∀ c ∈ e, isPlain c = true) : arguments text = es.filter (· ≠ []) := by
  have hplain : IsPlainText text := by
    intro c hc
    refine (htext.of_mem c hc).imp_right fun hmem => ?_
    obtain ⟨e, he, hce⟩ := List.mem_flatten.1 hmem
    exact hes e he c hce
  have hline : ∀ e ∈ es, fields e = if e = [] then [] else [e] :=
    fun e he => fields_line fun c hc => (isPlain_of_not_isNewline (hes e he c hc)).1
  rw [arguments_of_isPlain hplain, htext.fields]
  clear htext hplain hes
  induction es with
  | nil => rfl
  | cons e es ih =>
    obtain ⟨he, hes⟩ := List.forall_mem_cons.1 hline
    rw [List.flatMap_cons, he, ih hes]
    by_cases hempty : e = []
    · rw [if_pos hempty, List.filter_cons_of_neg (by simpa using hempty), List.nil_append]
    · rw [if_neg hempty, List.filter_cons_of_pos (by simpa using hempty), List.singleton_append]

/-- **Arguments are read back exactly when each may stand as it is.** What is lost of one is not made up by another. -/
theorem sublist_arguments_iff (h : List.Forall₂ Written es lines) (htext : IsLined text lines.flatten) :
    es.Sublist (arguments text) ↔ ∀ e ∈ es, IsArgument e := by
  constructor
  · intro hes
    -- nothing is lost, so that the text is plain
    have htotal : total es ≤ total (arguments text) := (hes.map List.length).sum_le_sum fun _ _ => Nat.zero_le _
    have hread := total_arguments_le text
    have hwritten := weight_le_total h
    rw [htext.weight] at hread
    have hplain : IsPlainText text := isPlain_of_total (by rw [htext.weight]; omega)
    have hchars := of_weight_eq_total h (by omega)
    intro e he
    refine ⟨?_, fun c hc => ?_⟩
    · have hmem := hes.mem he
      rw [arguments_of_isPlain hplain] at hmem
      exact ne_nil_of_mem_fields e hmem
    · obtain ⟨hnewline, hmem⟩ := hchars e he c hc
      exact (hplain c (htext.mem c hmem)).resolve_left (by simp [hnewline])
  · intro hes
    have hlines := flatten_eq_of_isArgument h hes
    rw [hlines] at htext
    rw [arguments_of_isLined htext fun e he => (hes e he).2, List.filter_eq_self.2 fun e he => by simpa using (hes e he).1]

end

end ArgumentFile
