import CoherenceOperator.Lib.References

/-!
# The scan for variables, byte by byte

`Expand` and `GetShellName` as the runner has them: two indices into the bytes of a text, a search for the closing bracket, and a
search for the end of a word. Every access to the text may fail here (`Panic`), and none does: `getShellName` reads the piece that
the language of the shell has there (`getShellName_eq`), and the loop of `Expand` has copied all that came before `i` and found
nothing to replace since (`expandLoop_eq`). So `Expand` puts the pieces of the text together (`expand_eq`).
-/

namespace CoherenceOperator

namespace Bytes

open References

/-- A fault of the Go runtime: an index, or the bounds of a slice, outside of the text. -/
inductive Panic where
  | index (i length : ℕ)
  | slice (i j length : ℕ)
  deriving DecidableEq, Repr

/-- `s[i]`. -/
def byteAt (s : List UInt8) (i : ℕ) : Except Panic UInt8 :=
  match s[i]? with
  | some c => .ok c
  | none => .error (.index i s.length)

/-- `s[i:j]`. -/
def slice (s : List UInt8) (i j : ℕ) : Except Panic (List UInt8) :=
  if i ≤ j ∧ j ≤ s.length then .ok ((s.take j).drop i) else .error (.slice i j s.length)

/-- The byte of an ASCII character. -/
abbrev byte (c : Char) : UInt8 := c.toUInt8

/-- `isShellSpecialVar`. -/
def isShellSpecialVar (c : UInt8) : Bool :=
  c ∈ ['*', '#', '$', '@', '!', '?', '-', '0', '1', '2', '3', '4', '5', '6', '7', '8', '9'].map byte

/-- `isAlphaNum`. -/
def isAlphaNum (c : UInt8) : Bool :=
  c = byte '_' || byte '0' ≤ c && c ≤ byte '9' || byte 'a' ≤ c && c ≤ byte 'z' || byte 'A' ≤ c && c ≤ byte 'Z'

/-- The loop that scans to the closing bracket. -/
def scanBracket (closing : UInt8) (s : List UInt8) (i : ℕ) : Except Panic (List UInt8 × ℕ) :=
  if i < s.length then do
    if (← byteAt s i) = closing then
      -- bad syntax: both brackets are eaten
      if i = 1 then return ([], 2)
      return (← slice s 1 i, i + 1)
    scanBracket closing s (i + 1)
  else
    -- bad syntax: the opening bracket is eaten
    return ([], 1)
termination_by s.length - i

/-- The branch of `GetShellName` for a name in brackets. -/
def getBracketed (closing : UInt8) (s : List UInt8) : Except Panic (List UInt8 × ℕ) := do
  if 2 < s.length then
    if isShellSpecialVar (← byteAt s 1) then
      if (← byteAt s 2) = closing then return (← slice s 1 2, 3)
  scanBracket closing s 1

/-- The loop that scans alphanumerics. -/
def scanWord (s : List UInt8) (i : ℕ) : Except Panic ℕ :=
  if i < s.length then do
    if isAlphaNum (← byteAt s i) then scanWord s (i + 1) else return i
  else return i
termination_by s.length - i

/-- `GetShellName`. -/
def getShellName (s : List UInt8) : Except Panic (List UInt8 × ℕ) := do
  let c ← byteAt s 0
  if c = byte '{' then getBracketed (byte '}') s
  else if c = byte '(' then getBracketed (byte ')') s
  else if isShellSpecialVar c then return (← slice s 0 1, 1)
  else
    let i ← scanWord s 0
    return (← slice s 0 i, i)

/-- The loop of `Expand`: `buf` is `nil` until the first dollar. -/
def expandLoop (mapping : List UInt8 → List UInt8) (s : List UInt8) (i j : ℕ) (buf : Option (List UInt8)) :
    Except Panic (ℕ × Option (List UInt8)) :=
  if j < s.length then do
    if (← byteAt s j) = byte '$' ∧ j + 1 < s.length then
      let done := buf.getD [] ++ (← slice s i j)
      let (name, w) ← getShellName (← slice s (j + 1) s.length)
      let done ←
        -- invalid syntax: eat the characters
        if name = [] ∧ 0 < w then pure done
        -- no name follows: leave the dollar
        else if name = [] then pure (done ++ [← byteAt s j])
        else pure (done ++ mapping name)
      expandLoop mapping s (j + w + 1) (j + w + 1) (some done)
    else expandLoop mapping s i (j + 1) buf
  else return (i, buf)
termination_by s.length - j

/-- `Expand`. -/
def expand (mapping : List UInt8 → List UInt8) (s : List UInt8) : Except Panic (List UInt8) := do
  let (i, buf) ← expandLoop mapping s 0 0 none
  match buf with
  | none => return s
  | some done => return done ++ (← slice s i s.length)

/-- The language of the references of a shell. -/
def shell : Signs UInt8 where
  dollar := byte '$'
  closing c := if c = byte '{' then some (byte '}') else if c = byte '(' then some (byte ')') else none
  isSpecial := isShellSpecialVar
  isWord := isAlphaNum
  opening := by
    intro c hc
    split at hc
    · rename_i h
      subst h
      decide
    · split at hc
      · rename_i h
        subst h
        decide
      · exact absurd rfl hc

/-! ### Accesses -/

variable {mapping : List UInt8 → List UInt8} {s u rest : List UInt8} {c o closing : UInt8} {i j : ℕ} {t : Token UInt8}

@[simp] theorem ok_bind {β γ : Type} (x : β) (f : β → Except Panic γ) : (Except.ok x >>= f) = f x := rfl

theorem byteAt_of_drop (h : s.drop i = c :: rest) : byteAt s i = .ok c := by
  have hget : s[i]? = some c := by rw [← List.head?_drop, h, List.head?_cons]
  rw [byteAt, hget]

theorem slice_eq (hij : i ≤ j) (hj : j ≤ s.length) : slice s i j = .ok ((s.take j).drop i) := if_pos ⟨hij, hj⟩

theorem lt_of_drop (h : s.drop i = c :: rest) : i < s.length := by
  by_contra hi
  rw [List.drop_of_length_le (by omega)] at h
  cases h

theorem drop_succ (h : s.drop i = c :: rest) : s.drop (i + 1) = rest := by rw [← List.drop_drop, h, List.drop_one, List.tail_cons]

/-! ### Names -/

/-- A word ends where its alphanumerics end. -/
theorem scanWord_eq (h : s.drop i = u ++ rest) (hu : ∀ x ∈ u, isAlphaNum x = true)
    (hend : ∀ x ∈ rest.head?, isAlphaNum x = false) : scanWord s i = .ok (i + u.length) := by
  induction u generalizing i with
  | nil =>
    rw [List.nil_append] at h
    rw [scanWord]
    cases rest with
    | nil =>
      rw [if_neg (by simpa using h)]
      rfl
    | cons c rest =>
      rw [if_pos (lt_of_drop h), byteAt_of_drop h, ok_bind, if_neg (by simp [hend c rfl])]
      rfl
  | cons c u ih =>
    rw [List.cons_append] at h
    rw [scanWord, if_pos (lt_of_drop h), byteAt_of_drop h, ok_bind, if_pos (hu c List.mem_cons_self),
      ih (drop_succ h) (fun x hx => hu x (List.mem_cons_of_mem _ hx)), List.length_cons]
    congr 1
    omega

/-- The search stops at the first closing bracket. -/
theorem scanBracket_of_drop (h : s.drop i = u ++ closing :: rest) (hu : closing ∉ u) (hi : 1 ≤ i) :
    scanBracket closing s i =
      .ok (if i + u.length = 1 then ([], 2) else ((s.take (i + u.length)).drop 1, i + u.length + 1)) := by
  induction u generalizing i with
  | nil =>
    rw [List.nil_append] at h
    rw [scanBracket, if_pos (lt_of_drop h), byteAt_of_drop h, ok_bind, if_pos rfl]
    simp only [List.length_nil, Nat.add_zero]
    by_cases hone : i = 1
    · rw [if_pos hone, if_pos hone]
      rfl
    · rw [if_neg hone, if_neg hone, slice_eq hi (lt_of_drop h).le]
      rfl
  | cons c u ih =>
    rw [List.cons_append] at h
    rw [List.mem_cons, not_or] at hu
    rw [scanBracket, if_pos (lt_of_drop h), byteAt_of_drop h, ok_bind, if_neg (Ne.symm hu.1)]
    have hnext := ih (drop_succ h) hu.2 (by omega)
    rw [show i + 1 + u.length = i + (c :: u).length by rw [List.length_cons]; omega] at hnext
    exact hnext

theorem scanBracket_of_notMem (h : s.drop i = u) (hu : closing ∉ u) : scanBracket closing s i = .ok ([], 1) := by
  induction u generalizing i with
  | nil =>
    rw [scanBracket, if_neg (by simpa using h)]
    rfl
  | cons c u ih =>
    rw [List.mem_cons, not_or] at hu
    rw [scanBracket, if_pos (lt_of_drop h), byteAt_of_drop h, ok_bind, if_neg (Ne.symm hu.1)]
    exact ih (drop_succ h) hu.2

/-- A special variable in brackets is found by the search as well. -/
theorem getBracketed_eq (hclosing : isShellSpecialVar closing = false) (o : UInt8) (s : List UInt8) :
    getBracketed closing (o :: s) = scanBracket closing (o :: s) 1 := by
  rw [getBracketed]
  cases s with
  | nil => rfl
  | cons x s =>
    cases s with
    | nil => rfl
    | cons y s =>
      have hx : byteAt (o :: x :: y :: s) 1 = .ok x := rfl
      have hy : byteAt (o :: x :: y :: s) 2 = .ok y := rfl
      rw [if_pos (by simp), hx, ok_bind]
      cases hspecial : isShellSpecialVar x with
      | false => rfl
      | true =>
        rw [if_pos rfl, hy, ok_bind]
        by_cases hyc : y = closing
        · have hxc : closing ∉ [x] := by
            rw [List.mem_singleton]
            rintro rfl
            rw [hspecial] at hclosing
            cases hclosing
          subst hyc
          rw [if_pos rfl, scanBracket_of_drop (u := [x]) rfl hxc le_rfl, slice_eq (by omega) (by simp)]
          rfl
        · rw [if_neg hyc]

theorem byteAt_zero (c : UInt8) (s : List UInt8) : byteAt (c :: s) 0 = .ok c := rfl

/-- After an opening bracket comes a search for the closing one. -/
theorem getShellName_of_opening (h : shell.closing o = some closing) :
    getShellName (o :: s) = scanBracket closing (o :: s) 1 := by
  have hopen : (if o = byte '{' then some (byte '}') else if o = byte '(' then some (byte ')') else none) = some closing := h
  rw [getShellName, byteAt_zero, ok_bind]
  by_cases hbrace : o = byte '{'
  · rw [if_pos hbrace, Option.some.injEq] at hopen
    rw [if_pos hbrace, ← hopen, getBracketed_eq (by decide)]
  · rw [if_neg hbrace] at hopen ⊢
    by_cases hparen : o = byte '('
    · rw [if_pos hparen, Option.some.injEq] at hopen
      rw [if_pos hparen, ← hopen, getBracketed_eq (by decide)]
    · rw [if_neg hparen] at hopen
      cases hopen

theorem getShellName_of_not_opening (h : shell.closing c = none) :
    getShellName (c :: s) =
      if shell.isSpecial c then .ok ([c], 1)
      else scanWord (c :: s) 0 >>= fun i => slice (c :: s) 0 i >>= fun name => .ok (name, i) := by
  have hopen : (if c = byte '{' then some (byte '}') else if c = byte '(' then some (byte ')') else none) = none := h
  have hbrace : c ≠ byte '{' := fun hc => by rw [if_pos hc] at hopen; cases hopen
  have hparen : c ≠ byte '(' := fun hc => by rw [if_neg hbrace, if_pos hc] at hopen; cases hopen
  rw [getShellName, byteAt_zero, ok_bind, if_neg hbrace, if_neg hparen]
  rfl

/-- **`GetShellName` reads the piece that comes next.** -/
theorem getShellName_eq (h : shell.Piece s t rest) (hs : s ≠ []) : getShellName s = .ok (t.name, (shell.after s).2) := by
  have htake := h.after_eq.2.1
  cases h with
  | last => exact absurd rfl hs
  | @lone c s hopen hspecial hword =>
    have hdrop : (c :: s).drop 0 = [] ++ (c :: s) := rfl
    have hscan : scanWord (c :: s) 0 = .ok 0 := scanWord_eq hdrop (by simp) (by intro x hx; cases hx; exact hword)
    rw [getShellName_of_not_opening hopen, if_neg (by simp [hspecial]), hscan, ok_bind]
    rw [show (shell.after (c :: s)).2 = 0 by simp only [List.length_cons] at htake; omega]
    rfl
  | @bracketed o d name s hopen hname hd =>
    have hpos : 0 < name.length := List.length_pos_iff.2 hname
    have hdrop : (o :: (name ++ d :: rest)).drop 1 = name ++ d :: rest := rfl
    rw [getShellName_of_opening hopen, scanBracket_of_drop hdrop hd le_rfl, if_neg (by omega)]
    rw [show (shell.after (o :: (name ++ d :: rest))).2 = 1 + name.length + 1 by
      simp only [List.length_cons, List.length_append] at htake; omega]
    rw [Nat.add_comm 1, List.take_succ_cons, List.drop_one, List.tail_cons, List.take_left]
    rfl
  | @empty o d s hopen =>
    have hdrop : (o :: d :: rest).drop 1 = [] ++ d :: rest := rfl
    rw [getShellName_of_opening hopen, scanBracket_of_drop hdrop (by simp) le_rfl, if_pos (by simp)]
    rw [show (shell.after (o :: d :: rest)).2 = 2 by simp only [List.length_cons] at htake; omega]
    rfl
  | @unclosed o d s hopen hd =>
    rw [getShellName_of_opening hopen, scanBracket_of_notMem (u := rest) rfl hd]
    rw [show (shell.after (o :: rest)).2 = 1 by simp only [List.length_cons] at htake; omega]
    rfl
  | @special c s hc =>
    rw [getShellName_of_not_opening (Signs.closing_of_special hc), if_pos hc]
    rw [show (shell.after (c :: rest)).2 = 1 by simp only [List.length_cons] at htake; omega]
    rfl
  | @word c name s hspecial hname hend =>
    have hscan : scanWord (c :: (name ++ rest)) 0 = .ok (0 + (c :: name).length) := scanWord_eq (u := c :: name) rfl hname hend
    rw [Nat.zero_add] at hscan
    rw [getShellName_of_not_opening (Signs.closing_of_word (hname c List.mem_cons_self)),
      if_neg (by simp [hspecial]), hscan, ok_bind,
      slice_eq (Nat.zero_le _) (by simp), ok_bind]
    rw [show (shell.after (c :: (name ++ rest))).2 = (c :: name).length by
      simp only [List.length_cons, List.length_append] at htake ⊢; omega]
    rw [List.drop_zero, ← List.cons_append, List.take_left]
    rfl

/-! ### The loop -/

/-- What `Expand` writes for a piece: what its name stands for, or the dollar if nothing was taken. -/
theorem written_eq (h : shell.Piece s t rest) (done : List UInt8) :
    (if t.name = [] ∧ 0 < (shell.after s).2 then done else if t.name = [] then done ++ [byte '$'] else done ++ mapping t.name) =
      done ++ render mapping [t] := by
  rw [render_piece h]
  by_cases hname : t.name = []
  · by_cases hw : 0 < (shell.after s).2
    · rw [if_pos ⟨hname, hw⟩, if_pos hname, if_pos hw, List.append_nil]
    · rw [if_neg (fun h => hw h.2), if_pos hname, if_pos hname, if_neg hw]
      rfl
  · rw [if_neg (fun h => hname h.1), if_neg hname, if_neg hname]

theorem take_succ_drop (h : s.drop j = c :: rest) (hij : i ≤ j) : (s.take (j + 1)).drop i = (s.take j).drop i ++ [c] := by
  have hget : s[j]? = some c := by rw [← List.head?_drop, h, List.head?_cons]
  rw [List.take_add_one, hget, List.drop_append_of_le_length]
  · rfl
  · rw [List.length_take]
    have hj := lt_of_drop h
    omega

/-- At a dollar that is not the last byte the piece is written, and both indices go on behind it. -/
theorem expandLoop_dollar (buf : Option (List UInt8)) (hdrop : s.drop j = byte '$' :: rest) (hrest : rest ≠ []) (hij : i ≤ j) :
    expandLoop mapping s i j buf =
      expandLoop mapping s (j + (shell.after rest).2 + 1) (j + (shell.after rest).2 + 1)
        (some (buf.getD [] ++ (s.take j).drop i ++ render mapping [(shell.after rest).1])) := by
  have hlt := lt_of_drop hdrop
  have hnext := drop_succ hdrop
  have hmore : j + 1 < s.length := by
    have hpos := List.length_pos_iff.2 hrest
    rw [← hnext, List.length_drop] at hpos
    omega
  have hpiece := shell.piece_after rest
  rw [expandLoop, if_pos hlt, byteAt_of_drop hdrop, ok_bind, if_pos ⟨rfl, hmore⟩, slice_eq hij hlt.le, ok_bind,
    slice_eq hmore.le le_rfl, ok_bind, List.take_length, hnext, getShellName_eq hpiece hrest, ok_bind, ← written_eq hpiece]
  dsimp only
  split_ifs <;> rfl

/-- Every other byte is passed over. -/
theorem expandLoop_plain (buf : Option (List UInt8)) (hdrop : s.drop j = c :: rest) (hc : c = byte '$' → rest = []) :
    expandLoop mapping s i j buf = expandLoop mapping s i (j + 1) buf := by
  have hlt := lt_of_drop hdrop
  rw [expandLoop, if_pos hlt, byteAt_of_drop hdrop, ok_bind, if_neg]
  rintro ⟨hdollar, hmore⟩
  have hnext := drop_succ hdrop
  rw [hc hdollar, List.drop_eq_nil_iff] at hnext
  omega

theorem tokens_plain (rest : List UInt8) (hc : c = byte '$' → rest = []) :
    shell.tokens (c :: rest) = .plain c :: shell.tokens rest := by
  by_cases hdollar : c = byte '$'
  · have hrest := hc hdollar
    subst hrest hdollar
    rfl
  · exact Signs.tokens_cons_of_ne hdollar

/-- The loop ends, and what it has written, with what it did not look at again, is what was written before, what lies between the
two indices, and what the pieces of the rest stand for. -/
theorem expandLoop_eq (mapping : List UInt8 → List UInt8) (s : List UInt8) (i j : ℕ) (buf : Option (List UInt8)) (hij : i ≤ j)
    (hj : j ≤ s.length) (hbuf : buf = none → i = 0) :
    ∃ i' buf', expandLoop mapping s i j buf = .ok (i', buf') ∧ i' ≤ s.length ∧ (buf' = none → i' = 0) ∧
      buf'.getD [] ++ s.drop i' = buf.getD [] ++ (s.take j).drop i ++ render mapping (shell.tokens (s.drop j)) := by
  induction hn : s.length - j using Nat.strong_induction_on generalizing i j buf with
  | _ n ih =>
    cases hdrop : s.drop j with
    | nil =>
      have hlength : s.length ≤ j := List.drop_eq_nil_iff.1 hdrop
      rw [expandLoop, if_neg (by omega)]
      refine ⟨i, buf, rfl, by omega, hbuf, ?_⟩
      rw [List.take_of_length_le hlength, Signs.tokens_nil, render, List.flatMap_nil, List.append_nil]
    | cons c rest =>
      have hlt := lt_of_drop hdrop
      have hnext := drop_succ hdrop
      by_cases hc : c = byte '$' → rest = []
      · obtain ⟨i', buf', hloop, hi', hbuf', htext⟩ := ih _ (by omega) i (j + 1) buf (by omega) hlt hbuf rfl
        rw [expandLoop_plain buf hdrop hc]
        refine ⟨i', buf', hloop, hi', hbuf', ?_⟩
        rw [htext, take_succ_drop hdrop hij, hnext, tokens_plain rest hc]
        simp [render]
      · obtain ⟨rfl, hrest⟩ := Classical.not_imp.1 hc
        have hw := shell.after_le rest
        have hlength : rest.length = s.length - (j + 1) := by rw [← hnext, List.length_drop]
        have hbehind : s.drop (j + (shell.after rest).2 + 1) = rest.drop (shell.after rest).2 := by
          rw [← hnext, List.drop_drop]
          congr 1
          omega
        rw [expandLoop_dollar buf hdrop hrest hij]
        set w := (shell.after rest).2
        obtain ⟨i', buf', hloop, hi', hbuf', htext⟩ := ih (s.length - (j + w + 1)) (by omega) (j + w + 1) (j + w + 1)
          (some (buf.getD [] ++ (s.take j).drop i ++ render mapping [(shell.after rest).1])) le_rfl (by omega) (by simp) rfl
        refine ⟨i', buf', hloop, hi', hbuf', ?_⟩
        have hnone : (s.take (j + w + 1)).drop (j + w + 1) = [] := List.drop_eq_nil_of_le (by rw [List.length_take]; omega)
        have htokens : shell.tokens (byte '$' :: rest) = (shell.after rest).1 :: shell.tokens (rest.drop w) :=
          Signs.tokens_dollar rest
        rw [htext, hbehind, hnone, List.append_nil, Option.getD_some, htokens, render_cons mapping _ (shell.tokens _),
          List.append_assoc _ _ (render mapping _)]

/-- **The scan puts the pieces of the text together.** No access fails. -/
theorem expand_eq (mapping : List UInt8 → List UInt8) (s : List UInt8) :
    expand mapping s = .ok (render mapping (shell.tokens s)) := by
  obtain ⟨i, buf, hloop, hi, hbuf, htext⟩ := expandLoop_eq mapping s 0 0 none le_rfl (Nat.zero_le _) (fun _ => rfl)
  rw [Option.getD_none, List.take_zero, List.drop_nil, List.nil_append, List.nil_append, List.drop_zero] at htext
  rw [expand, hloop, ← htext, ok_bind]
  cases buf with
  | none => rw [hbuf rfl]; rfl
  | some done =>
    rw [Option.getD_some]
    dsimp only
    rw [slice_eq hi le_rfl, List.take_length]
    rfl

/-- A text without a dollar stays. -/
theorem expand_of_notMem (hs : byte '$' ∉ s) : expand mapping s = .ok s := by
  rw [expand_eq, Signs.tokens_of_notMem hs, render_map_plain]

/-- A name takes no more than there is. -/
theorem getShellName_le (hs : s ≠ []) : ∃ name w, getShellName s = .ok (name, w) ∧ w ≤ s.length :=
  ⟨_, _, getShellName_eq (shell.piece_after s) hs, shell.after_le s⟩

/-- **The expansion of variables.** No access fails, neither in `Expand` nor in a call of `GetShellName`, which takes no more than there
is; and the result is what the pieces of the text stand for, in the only way to cut it up. -/
theorem expand_tokenises (mapping : List UInt8 → List UInt8) (s : List UInt8) :
    (∃ ts, shell.Tokenises s ts ∧ (∀ us, shell.Tokenises s us → us = ts) ∧ expand mapping s = .ok (render mapping ts)) ∧
      (∀ u, u ≠ [] → ∃ name w, getShellName u = .ok (name, w) ∧ w ≤ u.length) ∧
        (byte '$' ∉ s → expand mapping s = .ok s) :=
  ⟨⟨shell.tokens s, shell.tokenises_tokens s, fun _ hus => Signs.tokenises_iff.1 hus, expand_eq mapping s⟩,
    fun _ hu => getShellName_le hu, expand_of_notMem⟩

end Bytes

end CoherenceOperator
