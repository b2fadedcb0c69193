import CoherenceOperator.Runner.Expand
import CoherenceOperator.Runner.Scan

/-!
# Characters and bytes

The options of the runner are texts of characters here, and bytes in the runner. The language of references is the same for both:
`Expand` on characters puts the pieces of a text together (`expandFrom_eq`), UTF-8 writes a text so that its pieces can be read from the
bytes (`utf8`), and so the two give the same (`expand_utf8`).
-/

namespace CoherenceOperator

open References

/-- The language of the references of a shell, in characters. -/
def shellText : Signs Char where
  dollar := '$'
  closing c := if c = '{' then some '}' else if c = '(' then some ')' else none
  isSpecial := isShellSpecialVar
  isWord := isAlphaNum
  opening := by
    intro c hc
    split at hc
    · rename_i h
      subst h
      decide
    · split at hc
      · rename_i h
        subst h
        decide
      · exact absurd rfl hc

section

variable {mapping : String → String} {s rest : List Char} {closing : Char} {t : Token Char}

/-- The shortcut for a special variable in brackets finds what the search finds. -/
theorem getBracedName_eq (hclosing : isShellSpecialVar closing = false) (s : List Char) :
    getBracedName closing s =
      if closing ∈ s then (s.takeWhile (· ≠ closing), (s.takeWhile (· ≠ closing)).length + 2) else ([], 1) := by
  rw [getBracedName]
  split
  · rename_i h
    obtain ⟨hspecial, hend⟩ := h
    cases s with
    | nil => cases hend
    | cons x s =>
      cases s with
      | nil => cases hend
      | cons y s =>
        have hy : y = closing := Option.some.inj hend
        have hx : x ≠ closing := by
          rintro rfl
          rw [List.head?_cons, Option.any_some, hclosing] at hspecial
          cases hspecial
        subst hy
        rw [if_pos (by simp), List.takeWhile_cons, if_pos (by simpa using hx), List.takeWhile_cons, if_neg (by simp)]
        rfl
  · rfl

theorem getBracedName_after (hclosing : isShellSpecialVar closing = false) {o : Char} (hopen : shellText.closing o = some closing)
    (s : List Char) : getBracedName closing s = ((shellText.after (o :: s)).1.name, (shellText.after (o :: s)).2) := by
  rw [getBracedName_eq hclosing, Signs.after]
  simp only [hopen]
  by_cases hmem : closing ∈ s
  · rw [if_pos hmem, if_pos hmem]
    by_cases hhead : s.head? = some closing
    · rw [if_pos hhead]
      cases s with
      | nil => cases hhead
      | cons x s =>
        have hx : x = closing := Option.some.inj hhead
        simp [hx]
    · rw [if_neg hhead]
      rfl
  · rw [if_neg hmem, if_neg hmem]
    rfl

theorem getShellName_eq (hs : s ≠ []) : getShellName s = ((shellText.after s).1.name, (shellText.after s).2) := by
  cases s with
  | nil => exact absurd rfl hs
  | cons c s =>
    rw [getShellName]
    by_cases hbrace : c = '{'
    · subst hbrace
      exact getBracedName_after (by decide) rfl s
    · rw [if_neg hbrace]
      by_cases hparen : c = '('
      · subst hparen
        exact getBracedName_after (by decide) rfl s
      · have hopen : shellText.closing c = none := by simp [shellText, hbrace, hparen]
        rw [if_neg hparen, Signs.after]
        simp only [hopen]
        by_cases hspecial : isShellSpecialVar c = true
        · rw [if_pos hspecial, if_pos (show shellText.isSpecial c = true from hspecial)]
          rfl
        · rw [if_neg hspecial, if_neg (show ¬ shellText.isSpecial c = true from hspecial)]
          by_cases hword : isAlphaNum c = true
          · rw [if_pos (show shellText.isWord c = true from hword)]
            rfl
          · rw [if_neg (show ¬ shellText.isWord c = true from hword), List.takeWhile_cons, if_neg hword]
            rfl

/-- **`Expand` on characters puts the pieces of the text together.** -/
theorem expandFrom_eq (mapping : String → String) (w : ℕ) (s : List Char) :
    expandFrom mapping w s = render (fun name => (mapping (String.ofList name)).toList) (shellText.tokensFrom w s) := by
  induction s generalizing w with
  | nil => rw [expandFrom_nil, Signs.tokensFrom_nil]; rfl
  | cons c s ih =>
    cases w with
    | succ w => exact ih w
    | zero =>
      rw [expandFrom, Signs.tokensFrom]
      by_cases hc : c = '$' ∧ s ≠ []
      · obtain ⟨rfl, hs⟩ := hc
        rw [if_pos ⟨rfl, hs⟩, if_pos (show '$' = shellText.dollar from rfl), getShellName_eq hs, render_cons, ← ih, render_piece (shellText.piece_after s)]
        rfl
      · rw [if_neg hc]
        by_cases hdollar : c = '$'
        · have hs : s = [] := by
            by_contra hs
            exact hc ⟨hdollar, hs⟩
          subst hs hdollar
          rfl
        · rw [if_neg (show ¬ c = shellText.dollar from hdollar), render_cons, ← ih]
          rfl

end

/-! ### The characters of a text and its bytes -/

/-- On ASCII a character means what its byte means. -/
theorem agree_of_ascii {c : Char} (h : c.toNat < 128) :
    String.utf8EncodeChar c = [c.toUInt8] ∧ Bytes.isShellSpecialVar c.toUInt8 = isShellSpecialVar c ∧
      Bytes.isAlphaNum c.toUInt8 = isAlphaNum c ∧ Bytes.shell.closing c.toUInt8 = (shellText.closing c).map Char.toUInt8 := by
  have hall : ∀ n < 128, String.utf8EncodeChar (Char.ofNat n) = [(Char.ofNat n).toUInt8] ∧
      Bytes.isShellSpecialVar (Char.ofNat n).toUInt8 = isShellSpecialVar (Char.ofNat n) ∧
        Bytes.isAlphaNum (Char.ofNat n).toUInt8 = isAlphaNum (Char.ofNat n) ∧
          Bytes.shell.closing (Char.ofNat n).toUInt8 = (shellText.closing (Char.ofNat n)).map Char.toUInt8 := by
    decide +kernel
  have hc := hall c.toNat h
  rwa [Char.ofNat_toNat] at hc

theorem toNat_toUInt8 {c : Char} (h : c.toNat < 128) : c.toUInt8.toNat = c.toNat := by
  have hall : ∀ n < 128, (Char.ofNat n).toUInt8.toNat = (Char.ofNat n).toNat := by decide +kernel
  have hc := hall c.toNat h
  rwa [Char.ofNat_toNat] at hc

/-- The bytes of another character mean nothing. -/
theorem meaningless_of_le {x : UInt8} (h : 128 ≤ x.toNat) :
    Bytes.isShellSpecialVar x = false ∧ Bytes.isAlphaNum x = false ∧ Bytes.shell.closing x = none := by
  have hall : ∀ n < 256, 128 ≤ n → Bytes.isShellSpecialVar (UInt8.ofNat n) = false ∧ Bytes.isAlphaNum (UInt8.ofNat n) = false ∧
      Bytes.shell.closing (UInt8.ofNat n) = none := by
    decide +kernel
  have hx := hall x.toNat x.toNat_lt h
  rwa [UInt8.ofNat_toNat] at hx

theorem le_of_mem_utf8EncodeChar {c : Char} {x : UInt8} (h : 128 ≤ c.toNat) (hx : x ∈ String.utf8EncodeChar c) : 128 ≤ x.toNat := by
  have hv : ¬ c.val.toNat ≤ 127 := by
    have := h
    rw [Char.toNat] at this
    omega
  rw [String.utf8EncodeChar] at hx
  rw [if_neg hv] at hx
  split at hx
  · simp only [List.mem_cons, List.not_mem_nil, or_false] at hx
    rcases hx with rfl | rfl <;> simp only [UInt8.toNat_ofNat'] <;> omega
  · split at hx
    · simp only [List.mem_cons, List.not_mem_nil, or_false] at hx
      rcases hx with rfl | rfl | rfl <;> simp only [UInt8.toNat_ofNat'] <;> omega
    · simp only [List.mem_cons, List.not_mem_nil, or_false] at hx
      rcases hx with rfl | rfl | rfl | rfl <;> simp only [UInt8.toNat_ofNat'] <;> omega

/-- A character that means something is an ASCII character. -/
theorem ascii_of_isShellSpecialVar {c : Char} (h : isShellSpecialVar c = true) : c.toNat < 128 := by
  have hall : ['*', '#', '$', '@', '!', '?', '-', '0', '1', '2', '3', '4', '5', '6', '7', '8', '9'].all (·.toNat < 128) = true := by decide
  exact of_decide_eq_true (List.all_eq_true.1 hall c (of_decide_eq_true h))

theorem ascii_of_isAlphaNum {c : Char} (h : isAlphaNum c = true) : c.toNat < 128 := by
  rw [isAlphaNum, Bool.or_eq_true, decide_eq_true_iff] at h
  rcases h with rfl | h
  · decide
  · have hranges : c.isAlphanum = ((decide (c.val ≥ 'A'.val ∧ c.val ≤ 'Z'.val) || (c.val ≥ 'a'.val && c.val ≤ 'z'.val)) ||
        (c.val ≥ '0'.val && c.val ≤ '9'.val)) := rfl
    simp only [hranges, Bool.or_eq_true, Bool.and_eq_true, decide_eq_true_eq, UInt32.le_iff_toNat_le, ge_iff_le] at h
    have hc : c.toNat = c.val.toNat := rfl
    have hZ : 'Z'.val.toNat = 90 := rfl
    have hz : 'z'.val.toNat = 122 := rfl
    have h9 : '9'.val.toNat = 57 := rfl
    omega

theorem ascii_of_closing {o d : Char} (h : shellText.closing o = some d) : o.toNat < 128 ∧ d.toNat < 128 := by
  have hopen : (if o = '{' then some '}' else if o = '(' then some ')' else none) = some d := h
  split at hopen
  · rename_i ho
    rw [ho, ← Option.some.inj hopen]
    decide
  · split at hopen
    · rename_i ho
      rw [ho, ← Option.some.inj hopen]
      decide
    · cases hopen

/-- The byte of an ASCII character is in no other character. -/
theorem notMem_utf8EncodeChar {c d : Char} (hd : d.toNat < 128) (hne : c ≠ d) : d.toUInt8 ∉ String.utf8EncodeChar c := by
  have hdn := toNat_toUInt8 hd
  intro hmem
  by_cases hc : c.toNat < 128
  · rw [(agree_of_ascii hc).1, List.mem_singleton] at hmem
    have hcn := toNat_toUInt8 hc
    rw [← hmem, hdn] at hcn
    exact hne (Char.toNat_inj.1 hcn.symm)
  · have hle := le_of_mem_utf8EncodeChar (by omega) hmem
    omega

/-- The first byte of a character is the character, or means nothing. -/
theorem head_utf8EncodeChar {c : Char} {x : UInt8} (hx : x ∈ (String.utf8EncodeChar c).head?) :
    (c.toNat < 128 ∧ x = c.toUInt8) ∨ 128 ≤ x.toNat := by
  by_cases hc : c.toNat < 128
  · rw [(agree_of_ascii hc).1] at hx
    exact .inl ⟨hc, (Option.some.inj hx).symm⟩
  · exact .inr (le_of_mem_utf8EncodeChar (by omega) (List.mem_of_mem_head? hx))

/-- UTF-8 writes the language of references in characters in the one in bytes. -/
def utf8 : Encoding shellText Bytes.shell where
  encode := String.utf8EncodeChar
  ne_nil _ := String.utf8EncodeChar_ne_nil
  dollar := rfl
  notMem_dollar c hc := notMem_utf8EncodeChar (by decide) hc
  opening o d h := by
    obtain ⟨ho, hd⟩ := ascii_of_closing h
    obtain ⟨hencode, -, -, hclosing⟩ := agree_of_ascii ho
    rw [h, Option.map_some] at hclosing
    exact ⟨_, _, hencode, (agree_of_ascii hd).1, hclosing, fun c hc => notMem_utf8EncodeChar hd hc⟩
  special c h := by
    obtain ⟨hencode, hspecial, -⟩ := agree_of_ascii (ascii_of_isShellSpecialVar h)
    exact ⟨_, hencode, hspecial.trans h⟩
  word c h := by
    obtain ⟨hencode, -, hword, -⟩ := agree_of_ascii (ascii_of_isAlphaNum h)
    exact ⟨_, hencode, hword.trans h⟩
  closing_head c h x hx := by
    rcases head_utf8EncodeChar hx with ⟨hc, rfl⟩ | hx
    · rw [(agree_of_ascii hc).2.2.2, h, Option.map_none]
    · exact (meaningless_of_le hx).2.2
  special_head c h x hx := by
    rcases head_utf8EncodeChar hx with ⟨hc, rfl⟩ | hx
    · exact (agree_of_ascii hc).2.1.trans h
    · exact (meaningless_of_le hx).1
  word_head c h x hx := by
    rcases head_utf8EncodeChar hx with ⟨hc, rfl⟩ | hx
    · exact (agree_of_ascii hc).2.2.1.trans h
    · exact (meaningless_of_le hx).2.1

/-- **`Expand` on bytes writes what `Expand` on characters gives**, if the values of the variables are written so. -/
theorem expand_utf8 {mapping : String → String} {values : List UInt8 → List UInt8}
    (h : ∀ name, values (utf8.text name) = utf8.text (mapping (String.ofList name)).toList) (s : String) :
    Bytes.expand values (utf8.text s.toList) = .ok (utf8.text (expand mapping s).toList) := by
  rw [Bytes.expand_eq, utf8.tokens_text, utf8.render_pieces h, expand, String.toList_ofList, expandFrom_eq, Signs.tokens]

end CoherenceOperator
