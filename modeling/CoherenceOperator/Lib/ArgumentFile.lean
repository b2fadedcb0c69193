import Mathlib.Data.List.Basic
import Mathlib.Data.List.DropRight
import Mathlib.Algebra.BigOperators.Group.List.Basic
import Mathlib.Algebra.Order.BigOperators.Group.List
import Mathlib.Tactic.Ring

/-!
# Java argument files

The arguments in a file: they are separated by white space, quotes group, a backslash escapes inside quotes, and a hash starts a
comment. A quote that is open stops at the end of its line, unless the line ends with a backslash: then the next line is joined,
without its leading white space.

A text of plain characters is read as its lines (`arguments_of_isPlain`); of no text more is read than the characters of its
lines, so that a text of which nothing is lost is plain (`isPlain_of_total`).
-/

namespace ArgumentFile

/-! ### Characters -/

/-- The end of a line. -/
def isNewline (c : Char) : Bool := c = '\n' || c = '\r'

/-- White space. -/
def isBlank (c : Char) : Bool := isNewline c || c = ' ' || c = '\t' || c = Char.ofNat 12

/-- A quote. -/
def isQuote (c : Char) : Bool := c = '"' || c = '\''

/-- A character that stands for itself outside quotes. -/
def isPlain (c : Char) : Bool := !isBlank c && !isQuote c && c ≠ '#'

/-! ### Reading -/

/-- Where the reader is. -/
inductive Mode where
  | plain
  | quoted (q : Char)
  | escaped (q : Char)
  | joining (q : Char)
  | comment
  deriving DecidableEq

/-- What was read: the arguments, and the one that is being read. -/
structure Reader where
  done : List (List Char) := []
  current : Option (List Char) := none
  mode : Mode := .plain
  deriving DecidableEq

namespace Reader

/-- The argument ends. -/
def finish (r : Reader) (mode : Mode) : Reader := { done := r.done ++ r.current.toList, mode }

/-- A character of the argument. -/
def push (r : Reader) (c : Char) (mode : Mode) : Reader := { r with current := some (r.current.getD [] ++ [c]), mode }

/-- The escaped character. -/
def unescape (c : Char) : Char :=
  if c = 'n' then '\n' else if c = 'r' then '\r' else if c = 't' then '\t' else if c = 'f' then Char.ofNat 12 else c

/-- The next character inside quotes. -/
def stepQuoted (r : Reader) (q c : Char) : Reader :=
  if c = q then { r with mode := .plain }
  else if isNewline c then r.finish .plain
  else if c = '\\' then { r with mode := .escaped q }
  else r.push c (.quoted q)

/-- The next character. -/
def step (r : Reader) (c : Char) : Reader :=
  match r.mode with
  | .plain =>
    if isBlank c then r.finish .plain
    else if c = '#' then r.finish .comment
    else if isQuote c then { r with current := some (r.current.getD []), mode := .quoted c }
    else r.push c .plain
  | .comment => if isNewline c then { r with mode := .plain } else r
  | .quoted q => r.stepQuoted q c
  | .escaped q => if isNewline c then { r with mode := .joining q } else r.push (unescape c) (.quoted q)
  | .joining q => if isBlank c then r else r.stepQuoted q c

/-- How much was read. -/
def size (r : Reader) : ℕ := (r.done.map List.length).sum + (r.current.getD []).length

end Reader

/-- The arguments of a text. -/
def arguments (text : List Char) : List (List Char) := ((text.foldl Reader.step {}).finish .plain).done

/-! ### How much is read -/

namespace Reader

variable {r : Reader} {c : Char} {text : List Char}

/-- What a character counts. -/
def weight (c : Char) : ℕ := if isNewline c then 0 else 1

/-- What a text counts. -/
def weightOf (text : List Char) : ℕ := (text.map weight).sum

@[simp] theorem weightOf_cons : weightOf (c :: text) = weight c + weightOf text := by simp [weightOf]

@[simp] theorem weightOf_append (s t : List Char) : weightOf (s ++ t) = weightOf s + weightOf t := by simp [weightOf]

@[simp] theorem size_finish (r : Reader) (mode : Mode) : (r.finish mode).size = r.size := by
  cases h : r.current with
  | none => simp [finish, size, h]
  | some s => simp [finish, size, h]

@[simp] theorem size_push (r : Reader) (c : Char) (mode : Mode) : (r.push c mode).size = r.size + 1 := by
  simp [push, size]
  omega

@[simp] theorem size_mode (r : Reader) (mode : Mode) : ({ r with mode } : Reader).size = r.size := rfl

theorem size_open (r : Reader) (mode : Mode) : ({ r with current := some (r.current.getD []), mode } : Reader).size = r.size := rfl

theorem size_stepQuoted_le (r : Reader) (q c : Char) : (r.stepQuoted q c).size ≤ r.size + weight c := by
  rw [stepQuoted]
  split
  · simp
  split
  · simp
  rename_i hnewline
  split
  · simp
  · simp [weight, hnewline]

/-- A character adds one at most, and the end of a line nothing. -/
theorem size_step_le (r : Reader) (c : Char) : (r.step c).size ≤ r.size + weight c := by
  rw [step]
  cases r.mode with
  | plain =>
    dsimp only
    split
    · simp
    rename_i hblank
    split
    · simp
    split
    · rw [size_open]
      omega
    · have hnewline : isNewline c = false := by
        rw [isBlank] at hblank
        simp only [Bool.or_eq_true, not_or, Bool.not_eq_true] at hblank
        exact hblank.1.1.1
      simp [weight, hnewline]
  | comment =>
    dsimp only
    split
    · simp
    · omega
  | quoted q => exact r.size_stepQuoted_le q c
  | escaped q =>
    dsimp only
    split
    · simp
    · rename_i hnewline
      simp [weight, hnewline]
  | joining q =>
    dsimp only
    split
    · omega
    · exact r.size_stepQuoted_le q c

theorem size_foldl_le (text : List Char) (r : Reader) : (text.foldl step r).size ≤ r.size + weightOf text := by
  induction text generalizing r with
  | nil => simp [weightOf]
  | cons c text ih =>
    have hstep := size_step_le r c
    have hrest := ih (r.step c)
    rw [List.foldl_cons, weightOf_cons]
    omega

/-- Outside quotes, where nothing is lost all characters are plain, or end a line. -/
theorem isPlain_of_size (hmode : r.mode = .plain) (h : (text.foldl step r).size = r.size + weightOf text) :
    ∀ c ∈ text, isNewline c = true ∨ isPlain c = true := by
  induction text generalizing r with
  | nil => exact fun c hc => absurd hc List.not_mem_nil
  | cons c text ih =>
    have hrest := size_foldl_le text (r.step c)
    have hc := size_step_le r c
    rw [List.foldl_cons, weightOf_cons] at h
    have hstep : (r.step c).size = r.size + weight c := by omega
    have hfirst : (isNewline c = true ∨ isPlain c = true) ∧ (r.step c).mode = .plain := by
      rw [step, hmode] at hstep ⊢
      dsimp only at hstep ⊢
      by_cases hblank : isBlank c = true
      · rw [if_pos hblank] at hstep ⊢
        refine ⟨.inl ?_, rfl⟩
        rw [size_finish, weight] at hstep
        by_contra hnewline
        rw [if_neg hnewline] at hstep
        omega
      have hweight : weight c = 1 := by
        rw [isBlank] at hblank
        simp only [Bool.or_eq_true, not_or, Bool.not_eq_true] at hblank
        simp [weight, hblank.1.1.1]
      rw [if_neg hblank] at hstep ⊢
      by_cases hhash : c = '#'
      · rw [if_pos hhash, size_finish] at hstep
        omega
      rw [if_neg hhash] at hstep ⊢
      by_cases hquote : isQuote c = true
      · rw [if_pos hquote, size_open] at hstep
        omega
      rw [if_neg hquote]
      exact ⟨.inr (by simp [isPlain, hblank, hquote, hhash]), rfl⟩
    intro x hx
    rcases List.mem_cons.1 hx with rfl | hx
    · exact hfirst.1
    · exact ih hfirst.2 (by omega) x hx

end Reader

/-- The total length of some texts. -/
def total (texts : List (List Char)) : ℕ := (texts.map List.length).sum

/-- **No more is read** than the characters that are not the end of a line. -/
theorem total_arguments_le (text : List Char) : total (arguments text) ≤ Reader.weightOf text := by
  have h := Reader.size_foldl_le text {}
  have hfinish : total (arguments text) = (text.foldl Reader.step {}).size := by
    rw [← Reader.size_finish _ .plain]
    simp [total, arguments, Reader.size, Reader.finish]
  simpa [hfinish, Reader.size] using h

/-- A text of which nothing is lost is plain. -/
theorem isPlain_of_total {text : List Char} (h : total (arguments text) = Reader.weightOf text) :
    ∀ c ∈ text, isNewline c = true ∨ isPlain c = true := by
  have hfinish : total (arguments text) = (text.foldl Reader.step {}).size := by
    rw [← Reader.size_finish _ .plain]
    simp [total, arguments, Reader.size, Reader.finish]
  refine Reader.isPlain_of_size (r := {}) rfl ?_
  rw [← hfinish, h]
  simp [Reader.size]

/-! ### Plain text -/

/-- The lines of a text that are not empty. -/
def fields (text : List Char) : List (List Char) := (text.splitOnP isNewline).filter (· ≠ [])

/-- Is every character plain, or the end of a line? -/
def IsPlainText (text : List Char) : Prop := ∀ c ∈ text, isNewline c = true ∨ isPlain c = true

section

variable {line text : List Char} {c : Char} {r : Reader}

theorem isPlain_of_not_isNewline (h : isPlain c = true) : isNewline c = false ∧ isBlank c = false ∧ c ≠ '#' ∧ isQuote c = false := by
  simp only [isPlain, Bool.and_eq_true, Bool.not_eq_true', decide_eq_true_eq] at h
  obtain ⟨⟨hblank, hquote⟩, hhash⟩ := h
  have hnewline : isNewline c = false := by
    simp only [isBlank, Bool.or_eq_false_iff] at hblank
    exact hblank.1.1.1
  exact ⟨hnewline, hblank, hhash, hquote⟩

theorem fields_line (h : ∀ c ∈ line, isNewline c = false) : fields line = if line = [] then [] else [line] := by
  rw [fields, List.splitOnP_eq_singleton h]
  by_cases hline : line = []
  · simp [hline]
  · simp [hline]

theorem fields_append_cons (s t : List Char) (hc : isNewline c = true) : fields (s ++ c :: t) = fields s ++ fields t := by
  rw [fields, List.splitOnP_append_cons _ _ hc, List.filter_append]
  rfl

/-- A text in lines has the fields of its lines. -/
theorem fields_intercalate (texts : List (List Char)) : fields (List.intercalate ['\n'] texts) = texts.flatMap fields := by
  induction texts with
  | nil => rfl
  | cons t texts ih =>
    cases texts with
    | nil => simp
    | cons u texts =>
      rw [List.intercalate_cons_cons, List.append_assoc, List.singleton_append, fields_append_cons _ _ (by decide), ih]
      simp only [List.flatMap_cons]

/-- The lines of a text that has no other ends of a line are its fields. -/
theorem fields_intercalate_lines {lines : List (List Char)} (h : ∀ l ∈ lines, l ≠ [] ∧ ∀ c ∈ l, isNewline c = false) :
    fields (List.intercalate ['\n'] lines) = lines := by
  rw [fields_intercalate]
  induction lines with
  | nil => rfl
  | cons l lines ih =>
    obtain ⟨hl, hlines⟩ := List.forall_mem_cons.1 h
    rw [List.flatMap_cons, fields_line hl.2, if_neg hl.1, ih hlines, List.singleton_append]

/-- The reader at some place of a plain text. -/
theorem done_foldl (line : List Char) (hline : ∀ c ∈ line, isNewline c = false) (htext : IsPlainText text) (done : List (List Char)) :
    ((text.foldl Reader.step { done, current := if line = [] then none else some line }).finish .plain).done =
      done ++ fields (line ++ text) := by
  induction text generalizing line done with
  | nil =>
    rw [List.append_nil, fields_line hline]
    by_cases h : line = []
    · simp [h, Reader.finish]
    · simp [h, Reader.finish]
  | cons c text ih =>
    obtain ⟨hc, htext⟩ := List.forall_mem_cons.1 htext
    rw [List.foldl_cons]
    by_cases hnewline : isNewline c = true
    · have hstep : Reader.step { done, current := if line = [] then none else some line } c = { done := done ++ fields line } := by
        rw [fields_line hline]
        by_cases h : line = []
        · simp [Reader.step, isBlank, hnewline, Reader.finish, h]
        · simp [Reader.step, isBlank, hnewline, Reader.finish, h]
      have hrest := ih [] (fun c hc => absurd hc List.not_mem_nil) htext (done ++ fields line)
      rw [if_pos rfl, List.nil_append] at hrest
      rw [hstep, hrest, fields_append_cons _ _ hnewline, List.append_assoc]
    · obtain ⟨-, hblank, hhash, hquote⟩ := isPlain_of_not_isNewline (hc.resolve_left hnewline)
      have hstep : Reader.step { done, current := if line = [] then none else some line } c =
          { done, current := if line ++ [c] = [] then none else some (line ++ [c]) } := by
        by_cases h : line = []
        · simp [Reader.step, hblank, hhash, hquote, Reader.push, h]
        · simp [Reader.step, hblank, hhash, hquote, Reader.push, h]
      have hline' : ∀ x ∈ line ++ [c], isNewline x = false := by
        simpa [or_imp, forall_and, hnewline] using hline
      rw [hstep, ih _ hline' htext done, List.append_assoc, List.singleton_append]

/-- **A plain text is read as its fields.** -/
theorem arguments_of_isPlain (h : IsPlainText text) : arguments text = fields text := by
  have hdone := done_foldl [] (fun c hc => absurd hc List.not_mem_nil) h []
  rwa [if_pos rfl, List.nil_append, List.nil_append] at hdone

end

end ArgumentFile
