import Mathlib.Data.List.TakeWhile
import Mathlib.Tactic.Common

/-!
# Variables in a text

The runner replaces `$name`, `${name}` and `$(name)` in every option by the value of the variable. A dollar that no name follows
stays, and bad syntax is eaten.

Text without a dollar is left as it is (`expandFrom_of_notMem`). Where no variable is set a text becomes shorter by each reference
in it: it keeps its length only when there is none (`not_hasReference_of_length`).
-/

namespace CoherenceOperator

/-- `isShellSpecialVar`. -/
def isShellSpecialVar (c : Char) : Bool :=
  c ∈ ['*', '#', '$', '@', '!', '?', '-', '0', '1', '2', '3', '4', '5', '6', '7', '8', '9']

/-- `isAlphaNum`. -/
def isAlphaNum (c : Char) : Bool := c = '_' || c.isAlphanum

/-- The name after an opening brace, and the number of characters with both braces: one where the name does not end. -/
def getBracedName (closing : Char) (s : List Char) : List Char × ℕ :=
  if s.head?.any isShellSpecialVar ∧ s.tail.head? = some closing then (s.take 1, 3)
  else if closing ∈ s then (s.takeWhile (· ≠ closing), (s.takeWhile (· ≠ closing)).length + 2)
  else ([], 1)

/-- `GetShellName`: the name at the beginning, and the number of characters it takes. -/
def getShellName : List Char → List Char × ℕ
  | [] => ([], 0)
  | c :: s =>
    if c = '{' then getBracedName '}' s
    else if c = '(' then getBracedName ')' s
    else if isShellSpecialVar c then ([c], 1)
    else ((c :: s).takeWhile isAlphaNum, ((c :: s).takeWhile isAlphaNum).length)

/-- `Expand`, after as many characters as are still to be skipped. A dollar that no name follows is kept, and bad syntax is
eaten. -/
def expandFrom (mapping : String → String) : ℕ → List Char → List Char
  | _, [] => []
  | skip + 1, _ :: s => expandFrom mapping skip s
  | 0, c :: s =>
    if c = '$' ∧ s ≠ [] then
      let (name, w) := getShellName s
      (if name = [] then (if 0 < w then [] else [c]) else (mapping (String.ofList name)).toList) ++ expandFrom mapping w s
    else c :: expandFrom mapping 0 s

/-- `Expand`. -/
def expand (mapping : String → String) (s : String) : String := String.ofList (expandFrom mapping 0 s.toList)

/-! ### Texts without a reference -/

/-- Does a dollar before this character refer to something? -/
def isNameStart (c : Char) : Bool := c = '{' || c = '(' || isShellSpecialVar c || isAlphaNum c

/-- Is there a dollar before a character that starts a name? -/
def hasReference : List Char → Bool
  | c :: e :: s => (c = '$' && isNameStart e) || hasReference (e :: s)
  | _ => false

section

variable {mapping : String → String} {s t : List Char} {c : Char}

@[simp] theorem expandFrom_nil (mapping : String → String) (w : ℕ) : expandFrom mapping w [] = [] := by
  cases w with
  | zero => rfl
  | succ w => rfl

theorem expandFrom_skip (mapping : String → String) (w : ℕ) (s : List Char) :
    expandFrom mapping w s = expandFrom mapping 0 (s.drop w) := by
  induction w generalizing s with
  | zero => rfl
  | succ w ih =>
    cases s with
    | nil => simp
    | cons c s => exact ih s

theorem expandFrom_cons_of_ne (hc : c ≠ '$') : expandFrom mapping 0 (c :: s) = c :: expandFrom mapping 0 s := by
  rw [expandFrom, if_neg (fun h => hc h.1)]

/-- What comes before the first dollar stays. -/
theorem expandFrom_append_of_notMem (hs : '$' ∉ s) : expandFrom mapping 0 (s ++ t) = s ++ expandFrom mapping 0 t := by
  induction s with
  | nil => rfl
  | cons c s ih =>
    rw [List.mem_cons, not_or] at hs
    rw [List.cons_append, expandFrom_cons_of_ne (Ne.symm hs.1), ih hs.2, List.cons_append]

theorem expandFrom_of_notMem (hs : '$' ∉ s) : expandFrom mapping 0 s = s := by
  have h : expandFrom mapping 0 (s ++ []) = s ++ expandFrom mapping 0 [] := expandFrom_append_of_notMem hs
  simpa using h

/-- What a name takes is more than nothing where a name starts, and nothing elsewhere. -/
theorem getShellName_pos (hc : isNameStart c = true) : 0 < (getShellName (c :: s)).2 := by
  have hbraced : ∀ closing, 0 < (getBracedName closing s).2 := by
    intro closing
    rw [getBracedName]
    split
    · simp
    · split
      · simp
      · simp
  rw [getShellName]
  split
  · exact hbraced _
  split
  · exact hbraced _
  split
  · simp
  · rename_i hopen hparen hspecial
    simp only [isNameStart, hopen, hparen, hspecial, decide_false, Bool.false_or] at hc
    simp [hc]

theorem getShellName_of_not (hc : isNameStart c = false) : getShellName (c :: s) = ([], 0) := by
  simp only [isNameStart, Bool.or_eq_false_iff, decide_eq_false_iff_not] at hc
  obtain ⟨⟨⟨hopen, hparen⟩, hspecial⟩, halpha⟩ := hc
  simp [getShellName, hopen, hparen, hspecial, halpha]

/-- **A text without a reference stays.** -/
theorem expandFrom_of_not_hasReference (h : hasReference s = false) : expandFrom mapping 0 s = s := by
  induction s with
  | nil => rfl
  | cons c s ih =>
    cases s with
    | nil => simp [expandFrom]
    | cons e s =>
      rw [hasReference, Bool.or_eq_false_iff, Bool.and_eq_false_iff] at h
      obtain ⟨hfirst, hrest⟩ := h
      by_cases hc : c = '$'
      · have hname := getShellName_of_not (s := s) (hfirst.resolve_left (by simp [hc]))
        rw [expandFrom, if_pos ⟨hc, List.cons_ne_nil _ _⟩, hname]
        simp [ih hrest]
      · rw [expandFrom_cons_of_ne hc, ih hrest]

/-- Where no variable is set nothing becomes longer. -/
theorem length_expandFrom_le (hmapping : ∀ name, mapping name = "") (w : ℕ) (s : List Char) :
    (expandFrom mapping w s).length ≤ s.length := by
  induction s generalizing w with
  | nil => simp
  | cons c s ih =>
    cases w with
    | succ w =>
      have hrest := ih w
      simp only [expandFrom, List.length_cons]
      omega
    | zero =>
      rw [expandFrom]
      split
      · have hrest := ih (getShellName s).2
        dsimp only
        split
        · split
          · simp only [List.nil_append, List.length_cons]
            omega
          · simpa using hrest
        · simp only [hmapping, String.toList_empty, List.nil_append, List.length_cons]
          omega
      · simpa using ih 0

/-- Where no variable is set nothing new comes in. -/
theorem mem_of_mem_expandFrom {w : ℕ} {x : Char} (h : x ∈ expandFrom (fun _ => "") w s) : x ∈ s := by
  induction s generalizing w with
  | nil => simp at h
  | cons c s ih =>
    cases w with
    | succ w => exact List.mem_cons_of_mem c (ih h)
    | zero =>
      rw [expandFrom] at h
      split at h
      · generalize getShellName s = read at h
        obtain ⟨name, width⟩ := read
        obtain h | h := List.mem_append.1 h
        · split_ifs at h
          · cases h
          · rw [List.mem_singleton.1 h]
            exact List.mem_cons_self
          · cases h
        · exact List.mem_cons_of_mem c (ih h)
      · obtain rfl | h := List.mem_cons.1 h
        · exact List.mem_cons_self
        · exact List.mem_cons_of_mem c (ih h)

/-- Where no variable is set and a text keeps its length there is no reference in it. -/
theorem not_hasReference_of_length (hmapping : ∀ name, mapping name = "") (h : s.length ≤ (expandFrom mapping 0 s).length) :
    hasReference s = false := by
  induction s with
  | nil => rfl
  | cons c s ih =>
    cases s with
    | nil => rfl
    | cons e s =>
      rw [hasReference, Bool.or_eq_false_iff, Bool.and_eq_false_iff]
      by_cases hc : c = '$'
      · have hrest := length_expandFrom_le hmapping (getShellName (e :: s)).2 (e :: s)
        rw [expandFrom, if_pos ⟨hc, List.cons_ne_nil _ _⟩] at h
        dsimp only at h
        have hname : isNameStart e = false := by
          by_contra hstart
          have hpos := getShellName_pos (s := s) (by simpa using hstart)
          have hempty : (if (getShellName (e :: s)).1 = [] then (if 0 < (getShellName (e :: s)).2 then [] else [c])
              else (mapping (String.ofList (getShellName (e :: s)).1)).toList) = [] := by
            simp [hpos, hmapping]
          rw [hempty, List.nil_append] at h
          simp only [List.length_cons] at h hrest
          omega
        refine ⟨.inr hname, ih ?_⟩
        rw [getShellName_of_not hname] at h
        simpa using h
      · refine ⟨.inl (by simpa using hc), ih ?_⟩
        rw [expandFrom_cons_of_ne hc] at h
        simpa using h

end

/-! ### References in parts of a text -/

/-- A text has a reference exactly when a part of it has one, when it is put together at characters that start no name. -/
theorem hasReference_append_cons {s t : List Char} {c : Char} (hc : isNameStart c = false) (hdollar : c ≠ '$') :
    hasReference (s ++ c :: t) = (hasReference s || hasReference t) := by
  induction s with
  | nil =>
    cases t with
    | nil => rfl
    | cons e t => simp [hasReference, hdollar]
  | cons x s ih =>
    cases s with
    | nil =>
      rw [List.nil_append] at ih
      rw [List.cons_append, List.nil_append, hasReference, hc, Bool.and_false, Bool.false_or, ih]
      rfl
    | cons y s =>
      rw [List.cons_append, List.cons_append, hasReference, ← List.cons_append, ih, hasReference, Bool.or_assoc]

end CoherenceOperator
