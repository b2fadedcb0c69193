import Mathlib.Data.List.Basic
import Mathlib.Data.Char

/-!
# JSON

A text of JSON is read character by character. A state of the reader says what is expected next, and holds the arrays and the objects
that are still open; `step` reads a character. What is read inside an open array or object is read as it would be on its own
(`run_frame`), so the text of a value may stand inside another one (`run_of_parse_object`).
-/

/-- A JSON value; a number is kept as it is written. -/
inductive Json where
  | null
  | bool (b : Bool)
  | number (text : List Char)
  | string (s : String)
  | array (items : List Json)
  | object (fields : List (String × Json))

namespace Json

/-! ### Strings -/

/-- A part of the text of a string: a character, or a code unit that is written in hexadecimal. -/
inductive Part where
  | char (c : Char)
  | unit (n : ℕ)

/-- The value of a hexadecimal digit. -/
def hexValue (c : Char) : Option ℕ :=
  if '0' ≤ c ∧ c ≤ '9' then some (c.toNat - '0'.toNat)
  else if 'a' ≤ c ∧ c ≤ 'f' then some (c.toNat - 'a'.toNat + 10)
  else if 'A' ≤ c ∧ c ≤ 'F' then some (c.toNat - 'A'.toNat + 10)
  else none

/-- The character that a letter behind a backslash stands for. -/
def escaped : Char → Char
  | 'b' => '\x08'
  | 'f' => '\x0c'
  | 'n' => '\n'
  | 'r' => '\r'
  | 't' => '\t'
  | c => c

/-- The parts of the text of a string. -/
def parts : List Char → List Part
  | '\\' :: 'u' :: a :: b :: c :: d :: cs =>
    .unit ([a, b, c, d].foldl (fun n x => 16 * n + (hexValue x).getD 0) 0) :: parts cs
  | '\\' :: c :: cs => .char (escaped c) :: parts cs
  | c :: cs => .char c :: parts cs
  | [] => []

/-- The characters of the parts: two surrogates are one character, and one that is alone is replaced. -/
def join : List Part → List Char
  | .unit m :: .unit n :: ps =>
    if 0xD800 ≤ m ∧ m < 0xDC00 ∧ 0xDC00 ≤ n ∧ n < 0xE000 then
      Char.ofNat (0x10000 + (m - 0xD800) * 0x400 + (n - 0xDC00)) :: join ps
    else (if 0xD800 ≤ m ∧ m < 0xE000 then '\uFFFD' else Char.ofNat m) :: join (.unit n :: ps)
  | .unit m :: ps => (if 0xD800 ≤ m ∧ m < 0xE000 then '\uFFFD' else Char.ofNat m) :: join ps
  | .char c :: ps => c :: join ps
  | [] => []

/-- The string that a text between quotes stands for. -/
def unquote (cs : List Char) : String := String.ofList (join (parts cs))

/-- A character that stands for itself between quotes. -/
def IsPlain (c : Char) : Prop := c ≠ '"' ∧ c ≠ '\\' ∧ ' ' ≤ c

instance (c : Char) : Decidable (IsPlain c) := inferInstanceAs (Decidable (_ ∧ _))

/-! ### The reader -/

/-- An array or an object that is open, with what it has so far, the last one first. -/
inductive Frame where
  | items (done : List Json)
  | fields (done : List (String × Json))
  /-- An object of which the field `name` is being read. -/
  | field (done : List (String × Json)) (name : String)

/-- Where a string is: behind a backslash, in a code unit of which so many digits are missing behind the next one, or neither. -/
inductive Escape where
  | none | backslash
  | hex (missing : ℕ)

/-- Where a number is. -/
inductive Digits where
  | minus | zero | whole | point | fraction | exponent | sign | power

/-- Where a number is after another character, if that belongs to it. -/
def Digits.next : Digits → Char → Option Digits
  | .minus, c => if c = '0' then some .zero else if c.isDigit then some .whole else none
  | .zero, c => if c = '.' then some .point else if c = 'e' ∨ c = 'E' then some .exponent else none
  | .whole, c =>
    if c.isDigit then some .whole else if c = '.' then some .point else if c = 'e' ∨ c = 'E' then some .exponent else none
  | .point, c => if c.isDigit then some .fraction else none
  | .fraction, c => if c.isDigit then some .fraction else if c = 'e' ∨ c = 'E' then some .exponent else none
  | .exponent, c => if c = '+' ∨ c = '-' then some .sign else if c.isDigit then some .power else none
  | .sign, c => if c.isDigit then some .power else none
  | .power, c => if c.isDigit then some .power else none

/-- May a number end here? -/
def Digits.mayEnd : Digits → Bool
  | .zero | .whole | .fraction | .power => true
  | .minus | .point | .exponent | .sign => false

/-- What is expected next. -/
inductive Mode where
  | value
  /-- A value, or the end of an array. -/
  | valueOrEnd
  | name
  /-- The name of a field, or the end of an object. -/
  | nameOrEnd
  | colon (name : String)
  | string (isName : Bool) (read : List Char) (escape : Escape)
  | number (read : List Char) (digits : Digits)
  /-- The rest of the word that stands for `v`. -/
  | word (rest : List Char) (v : Json)
  /-- What comes after the value `v`. -/
  | after (v : Json)

abbrev State := Mode × List Frame

def isSpace (c : Char) : Bool := c = ' ' || c = '\t' || c = '\n' || c = '\r'

/-- The first character of a value. -/
def start (st : List Frame) (c : Char) : Option State :=
  if c = '"' then some (.string false [] .none, st)
  else if c = '{' then some (.nameOrEnd, .fields [] :: st)
  else if c = '[' then some (.valueOrEnd, .items [] :: st)
  else if c = 't' then some (.word ['r', 'u', 'e'] (.bool true), st)
  else if c = 'f' then some (.word ['a', 'l', 's', 'e'] (.bool false), st)
  else if c = 'n' then some (.word ['u', 'l', 'l'] .null, st)
  else if c = '-' then some (.number [c] .minus, st)
  else if c = '0' then some (.number [c] .zero, st)
  else if c.isDigit then some (.number [c] .whole, st)
  else none

/-- The character behind the value `v`. -/
def next (v : Json) (st : List Frame) (c : Char) : Option State :=
  if isSpace c then some (.after v, st)
  else
    match st with
    | .items done :: st =>
      if c = ',' then some (.value, .items (v :: done) :: st)
      else if c = ']' then some (.after (.array (v :: done).reverse), st)
      else none
    | .field done name :: st =>
      if c = ',' then some (.name, .fields ((name, v) :: done) :: st)
      else if c = '}' then some (.after (.object ((name, v) :: done).reverse), st)
      else none
    | _ => none

/-- The end of an array or an object with nothing in it. -/
def close : List Frame → Option State
  | .items [] :: st => some (.after (.array []), st)
  | .fields [] :: st => some (.after (.object []), st)
  | _ => none

/-- The colon behind the name of a field. -/
def openField (name : String) : List Frame → Option State
  | .fields done :: st => some (.value, .field done name :: st)
  | _ => none

/-- A character of a string. -/
def stepString (isName : Bool) (read : List Char) (st : List Frame) (c : Char) : Escape → Option State
  | .none =>
    if c = '"' then some (if isName then .colon (unquote read.reverse) else .after (.string (unquote read.reverse)), st)
    else if c = '\\' then some (.string isName (c :: read) .backslash, st)
    else if c < ' ' then none
    else some (.string isName (c :: read) .none, st)
  | .backslash =>
    if c = 'u' then some (.string isName (c :: read) (.hex 3), st)
    else if c ∈ ['"', '\\', '/', 'b', 'f', 'n', 'r', 't'] then some (.string isName (c :: read) .none, st)
    else none
  | .hex missing =>
    if (hexValue c).isSome then
      some (.string isName (c :: read) (if missing = 0 then .none else .hex (missing - 1)), st)
    else none

/-- Read a character. -/
def step : State → Char → Option State
  | (.value, st), c => if isSpace c then some (.value, st) else start st c
  | (.valueOrEnd, st), c => if isSpace c then some (.valueOrEnd, st) else if c = ']' then close st else start st c
  | (.name, st), c => if isSpace c then some (.name, st) else if c = '"' then some (.string true [] .none, st) else none
  | (.nameOrEnd, st), c =>
    if isSpace c then some (.nameOrEnd, st)
    else if c = '}' then close st
    else if c = '"' then some (.string true [] .none, st)
    else none
  | (.colon name, st), c => if isSpace c then some (.colon name, st) else if c = ':' then openField name st else none
  | (.string isName read escape, st), c => stepString isName read st c escape
  | (.number read digits, st), c =>
    match digits.next c with
    | some digits => some (.number (c :: read) digits, st)
    | none => if digits.mayEnd then next (.number read.reverse) st c else none
  | (.word rest v, st), c =>
    match rest with
    | [] => none
    | r :: rest => if c = r then some (if rest = [] then .after v else .word rest v, st) else none
  | (.after v, st), c => next v st c

/-- Read a text. -/
def run (s : State) (cs : List Char) : Option State := cs.foldlM step s

/-- The value that was read, if nothing is missing. -/
def finish : State → Option Json
  | (.after v, []) => some v
  | (.number read digits, []) => if digits.mayEnd then some (.number read.reverse) else none
  | _ => none

/-- The value that a text stands for, if it is JSON. -/
def parse (text : String) : Option Json := (run (.value, []) text.toList).bind finish

section

variable {s s' : State} {m m' : Mode} {st st' below : List Frame} {c : Char} {cs ds : List Char} {v : Json}

/-! ### Runs -/

@[simp] theorem run_nil : run s [] = some s := rfl

theorem run_cons : run s (c :: cs) = (step s c).bind fun s' => run s' cs := rfl

theorem run_append : run s (cs ++ ds) = (run s cs).bind fun s' => run s' ds := List.foldlM_append

theorem run_append_of_eq (h : run s cs = some s') : run s (cs ++ ds) = run s' ds := by
  rw [run_append, h]
  rfl

/-! ### What is open does not matter -/

theorem start_frame (h : start st c = some (m', st')) : start (st ++ below) c = some (m', st' ++ below) := by
  unfold start at h ⊢
  split_ifs at h ⊢ <;> cases h <;> rfl

theorem close_frame (h : close st = some (m', st')) : close (st ++ below) = some (m', st' ++ below) := by
  unfold close at h
  split at h
  · cases h
    rfl
  · cases h
    rfl
  · cases h

theorem openField_frame {name : String} (h : openField name st = some (m', st')) :
    openField name (st ++ below) = some (m', st' ++ below) := by
  unfold openField at h
  split at h
  · cases h
    rfl
  · cases h

theorem next_frame (h : next v st c = some (m', st')) : next v (st ++ below) c = some (m', st' ++ below) := by
  unfold next at h ⊢
  by_cases hspace : isSpace c = true
  · rw [if_pos hspace] at h ⊢
    cases h
    rfl
  · rw [if_neg hspace] at h ⊢
    cases st with
    | nil => cases h
    | cons frame st =>
      cases frame with
      | items done =>
        rw [List.cons_append]
        split_ifs at h ⊢ <;> cases h <;> rfl
      | fields done => cases h
      | field done name =>
        rw [List.cons_append]
        split_ifs at h ⊢ <;> cases h <;> rfl

theorem stepString_frame {isName : Bool} {read : List Char} {escape : Escape}
    (h : stepString isName read st c escape = some (m', st')) :
    stepString isName read (st ++ below) c escape = some (m', st' ++ below) := by
  cases escape with
  | none =>
    unfold stepString at h ⊢
    split_ifs at h ⊢ <;> cases h <;> rfl
  | backslash =>
    unfold stepString at h ⊢
    split_ifs at h ⊢ <;> cases h <;> rfl
  | hex missing =>
    unfold stepString at h ⊢
    split_ifs at h ⊢ <;> cases h <;> rfl

/-- A character is read in the same way if more is open. -/
theorem step_frame (h : step (m, st) c = some (m', st')) : step (m, st ++ below) c = some (m', st' ++ below) := by
  cases m with
  | value =>
    rw [step] at h ⊢
    split_ifs at h ⊢
    · cases h
      rfl
    · exact start_frame h
  | valueOrEnd =>
    rw [step] at h ⊢
    split_ifs at h ⊢
    · cases h
      rfl
    · exact close_frame h
    · exact start_frame h
  | name =>
    rw [step] at h ⊢
    split_ifs at h ⊢ <;> cases h <;> rfl
  | nameOrEnd =>
    rw [step] at h ⊢
    split_ifs at h ⊢
    · cases h
      rfl
    · exact close_frame h
    · cases h
      rfl
  | colon name =>
    rw [step] at h ⊢
    split_ifs at h ⊢
    · cases h
      rfl
    · exact openField_frame h
  | string isName read escape =>
    rw [step] at h ⊢
    exact stepString_frame h
  | number read digits =>
    rw [step] at h ⊢
    split at h
    · cases h
      rfl
    · split_ifs at h ⊢
      exact next_frame h
  | word rest v =>
    cases rest with
    | nil => cases h
    | cons r rest =>
      rw [step] at h ⊢
      split_ifs at h ⊢ <;> cases h <;> rfl
  | after v =>
    rw [step] at h ⊢
    exact next_frame h

/-- **A text is read in the same way if more is open.** -/
theorem run_frame (h : run (m, st) cs = some (m', st')) : run (m, st ++ below) cs = some (m', st' ++ below) := by
  induction cs generalizing m st with
  | nil =>
    cases h
    rfl
  | cons c cs ih =>
    rw [run_cons] at h ⊢
    obtain ⟨⟨m₁, st₁⟩, hstep, hrun⟩ := Option.bind_eq_some_iff.1 h
    rw [step_frame hstep]
    exact ih hrun

/-- The text of an object may stand wherever a value is expected. -/
theorem run_of_parse_object {text : String} {fields : List (String × Json)} (h : parse text = some (.object fields)) :
    run (.value, st) text.toList = some (.after (.object fields), st) := by
  obtain ⟨⟨m, st'⟩, hrun, hfinish⟩ := Option.bind_eq_some_iff.1 h
  have hstate : (m, st') = (.after (.object fields), []) := by
    unfold finish at hfinish
    split at hfinish
    · rename_i hs
      cases hfinish
      exact hs
    · split_ifs at hfinish
      cases hfinish
    · cases hfinish
  rw [hstate] at hrun
  exact run_frame hrun

/-- A value is read in the same way where an array might end. -/
theorem run_valueOrEnd (h : run (.value, st) cs = some (.after v, st')) : run (.valueOrEnd, st) cs = some (.after v, st') := by
  induction cs with
  | nil => cases h
  | cons c cs ih =>
    rw [run_cons, step] at h
    rw [run_cons, step]
    by_cases hspace : isSpace c = true
    · rw [if_pos hspace] at h ⊢
      exact ih h
    · rw [if_neg hspace] at h ⊢
      rw [if_neg]
      · exact h
      · rintro rfl
        cases h

/-! ### Strings that stand for themselves -/

/-- Plain characters are read as they are. -/
theorem run_string {isName : Bool} {read : List Char} (h : ∀ c ∈ cs, IsPlain c) :
    run (.string isName read .none, st) cs = some (.string isName (cs.reverse ++ read) .none, st) := by
  induction cs generalizing read with
  | nil => rfl
  | cons c cs ih =>
    obtain ⟨hquote, hbackslash, hspace⟩ := h c List.mem_cons_self
    have hstep : step (.string isName read .none, st) c = some (.string isName (c :: read) .none, st) := by
      rw [step, stepString, if_neg hquote, if_neg hbackslash, if_neg (not_lt.2 hspace)]
    rw [run_cons, hstep, Option.bind_some, ih fun d hd => h d (List.mem_cons_of_mem c hd), List.reverse_cons,
      List.append_assoc]
    rfl

theorem parts_of_plain (h : ∀ c ∈ cs, IsPlain c) : parts cs = cs.map .char := by
  induction cs with
  | nil => rfl
  | cons c cs ih =>
    obtain ⟨-, hbackslash, -⟩ := h c List.mem_cons_self
    rw [List.map_cons, ← ih fun d hd => h d (List.mem_cons_of_mem c hd), parts]
    · rintro a b x y ds rfl
      exact absurd rfl hbackslash
    · rintro d ds rfl
      exact absurd rfl hbackslash

theorem join_chars : join (cs.map .char) = cs := by
  induction cs with
  | nil => rfl
  | cons c cs ih => rw [List.map_cons, join, ih]

theorem unquote_of_plain (h : ∀ c ∈ cs, IsPlain c) : unquote cs = String.ofList cs := by
  rw [unquote, parts_of_plain h, join_chars]

/-- A string of plain characters, and the quote behind it. -/
theorem run_plain (h : ∀ c ∈ cs, IsPlain c) :
    run (.string false [] .none, st) (cs ++ ['"']) = some (.after (.string (String.ofList cs)), st) := by
  rw [run_append_of_eq (run_string h), List.append_nil, run_cons, step, stepString, if_pos rfl, List.reverse_reverse,
    unquote_of_plain h]
  rfl

end

end Json
