import Mathlib.Data.List.Basic
import Mathlib.Data.List.TakeWhile
import Mathlib.Tactic.Common

/-!
# References in a text

A text over any alphabet, with references to variables. After the sign that begins a reference comes a name in brackets, a name of
one sign, or the longest name that is made of word signs. `Signs.Tokenises` says how a text is cut up, one rule for each kind of
piece. The rules leave no choice: `Signs.tokens` cuts a text up from left to right, and it is the only way to do so
(`tokenises_iff`). What the text stands for is put together from its pieces (`render`), so that a value is never cut up again.
-/

namespace References

/-- The signs of a language with references: the one that begins a reference, the sign that closes a bracket, the names of one sign,
and the signs of the other names. A sign that opens a bracket is not a name, and in none. -/
structure Signs (α : Type*) where
  dollar : α
  closing : α → Option α
  isSpecial : α → Bool
  isWord : α → Bool
  opening : ∀ c, closing c ≠ none → isSpecial c = false ∧ isWord c = false

/-- A piece of a text: a sign that stands for itself, a reference to a variable, or bad syntax. -/
inductive Token (α : Type*) where
  | plain (c : α)
  | reference (name : List α)
  | dropped

variable {α : Type*}

/-- The name of a reference; nothing else has one. -/
def Token.name : Token α → List α
  | .reference name => name
  | _ => []

@[simp] theorem Token.name_plain (c : α) : (Token.plain c).name = [] := rfl

@[simp] theorem Token.name_reference (name : List α) : (Token.reference name).name = name := rfl

@[simp] theorem Token.name_dropped : (Token.dropped : Token α).name = [] := rfl

/-- The text that the pieces stand for, given the values of the variables. -/
def render (mapping : List α → List α) (ts : List (Token α)) : List α :=
  ts.flatMap fun
    | .plain c => [c]
    | .reference name => mapping name
    | .dropped => []

namespace Signs

section

variable (S : Signs α)

/-- `Piece s t rest`: after the sign of a reference comes `s`, of which the piece `t` leaves `rest`. -/
inductive Piece : List α → Token α → List α → Prop where
  /-- A last sign begins nothing. -/
  | last : Piece [] (.plain S.dollar) []
  /-- No name follows. -/
  | lone {c s} (hopen : S.closing c = none) (hspecial : S.isSpecial c = false) (hword : S.isWord c = false) :
      Piece (c :: s) (.plain S.dollar) (c :: s)
  /-- A name in brackets ends at the first closing one. -/
  | bracketed {o d name s} (hopen : S.closing o = some d) (hname : name ≠ []) (hd : d ∉ name) :
      Piece (o :: (name ++ d :: s)) (.reference name) s
  /-- Brackets around nothing are dropped. -/
  | empty {o d s} (hopen : S.closing o = some d) : Piece (o :: d :: s) .dropped s
  /-- A bracket that is not closed is dropped. -/
  | unclosed {o d s} (hopen : S.closing o = some d) (hd : d ∉ s) : Piece (o :: s) .dropped s
  | special {c s} (hc : S.isSpecial c = true) : Piece (c :: s) (.reference [c]) s
  /-- The longest name. -/
  | word {c name s} (hspecial : S.isSpecial c = false) (hname : ∀ x ∈ c :: name, S.isWord x = true)
      (hend : ∀ x ∈ s.head?, S.isWord x = false) : Piece (c :: (name ++ s)) (.reference (c :: name)) s

/-- The ways to cut a text up. -/
inductive Tokenises : List α → List (Token α) → Prop where
  | done : Tokenises [] []
  | plain {c s ts} (hc : c ≠ S.dollar) (h : Tokenises s ts) : Tokenises (c :: s) (.plain c :: ts)
  | dollar {s t rest ts} (hpiece : S.Piece s t rest) (h : Tokenises rest ts) : Tokenises (S.dollar :: s) (t :: ts)

variable [DecidableEq α]

/-- The piece that begins with the sign of a reference, and how much of what follows it takes. -/
def after : List α → Token α × ℕ
  | [] => (.plain S.dollar, 0)
  | c :: s =>
    match S.closing c with
    | some d =>
      if d ∈ s then
        if s.head? = some d then (.dropped, 2) else (.reference (s.takeWhile (· ≠ d)), (s.takeWhile (· ≠ d)).length + 2)
      else (.dropped, 1)
    | none =>
      if S.isSpecial c then (.reference [c], 1)
      else if S.isWord c then (.reference ((c :: s).takeWhile S.isWord), ((c :: s).takeWhile S.isWord).length)
      else (.plain S.dollar, 0)

/-- The pieces of a text, after as many signs as are still to be skipped. -/
def tokensFrom : ℕ → List α → List (Token α)
  | _, [] => []
  | skip + 1, _ :: s => tokensFrom skip s
  | 0, c :: s => if c = S.dollar then (S.after s).1 :: tokensFrom (S.after s).2 s else .plain c :: tokensFrom 0 s

/-- The pieces of a text. -/
def tokens (s : List α) : List (Token α) := S.tokensFrom 0 s

end

variable {S : Signs α} {c o d : α} {s name : List α} {ts : List (Token α)}

theorem closing_of_special (hc : S.isSpecial c = true) : S.closing c = none := by
  by_contra hopen
  rw [(S.opening c hopen).1] at hc
  cases hc

theorem closing_of_word (hc : S.isWord c = true) : S.closing c = none := by
  by_contra hopen
  rw [(S.opening c hopen).2] at hc
  cases hc

/-- Signs that stand for themselves are plain pieces. -/
theorem Tokenises.append_plain {u : List α} (hu : S.dollar ∉ u) (h : S.Tokenises s ts) :
    S.Tokenises (u ++ s) (u.map .plain ++ ts) := by
  induction u with
  | nil => exact h
  | cons c u ih =>
    rw [List.mem_cons, not_or] at hu
    exact .plain (Ne.symm hu.1) (ih hu.2)

variable [DecidableEq α]

@[simp] theorem tokensFrom_nil (w : ℕ) : S.tokensFrom w [] = [] := by
  cases w with
  | zero => rfl
  | succ w => rfl

theorem tokensFrom_eq (w : ℕ) (s : List α) : S.tokensFrom w s = S.tokens (s.drop w) := by
  induction w generalizing s with
  | zero => rfl
  | succ w ih =>
    cases s with
    | nil => rw [List.drop_nil, tokensFrom_nil, tokens, tokensFrom_nil]
    | cons c s => exact ih s

@[simp] theorem tokens_nil : S.tokens [] = [] := rfl

theorem tokens_cons_of_ne (hc : c ≠ S.dollar) : S.tokens (c :: s) = .plain c :: S.tokens s := by
  rw [tokens, tokensFrom, if_neg hc, ← tokens]

theorem tokens_dollar (s : List α) : S.tokens (S.dollar :: s) = (S.after s).1 :: S.tokens (s.drop (S.after s).2) := by
  rw [tokens, tokensFrom, if_pos rfl, tokensFrom_eq]

/-- A text without the sign of a reference is made of plain pieces. -/
theorem tokens_of_notMem (hs : S.dollar ∉ s) : S.tokens s = s.map .plain := by
  induction s with
  | nil => rfl
  | cons c s ih =>
    rw [List.mem_cons, not_or] at hs
    rw [tokens_cons_of_ne (Ne.symm hs.1), ih hs.2, List.map_cons]

/-! ### The piece that begins with the sign of a reference -/

theorem after_bracketed (hopen : S.closing o = some d) (hname : name ≠ []) (hd : d ∉ name) :
    S.after (o :: (name ++ d :: s)) = (.reference name, name.length + 2) := by
  have htake : (name ++ d :: s).takeWhile (· ≠ d) = name := by
    rw [List.takeWhile_append_of_pos (by simpa using fun x hx => ne_of_mem_of_not_mem hx hd), List.takeWhile_cons]
    simp
  have hhead : (name ++ d :: s).head? ≠ some d := by
    cases name with
    | nil => exact absurd rfl hname
    | cons x name => simpa using fun hx => hd (by simp [hx])
  simp only [after, hopen]
  rw [if_pos (by simp), if_neg hhead, htake]

theorem after_word (hspecial : S.isSpecial c = false) (hname : ∀ x ∈ c :: name, S.isWord x = true)
    (hend : ∀ x ∈ s.head?, S.isWord x = false) :
    S.after (c :: (name ++ s)) = (.reference (c :: name), (c :: name).length) := by
  have hc := hname c List.mem_cons_self
  have hrest : s.takeWhile S.isWord = [] := by
    cases s with
    | nil => rfl
    | cons x s => simp [hend x rfl]
  have htake : (c :: (name ++ s)).takeWhile S.isWord = c :: name := by
    rw [← List.cons_append, List.takeWhile_append_of_pos hname, hrest, List.append_nil]
  simp only [after, closing_of_word hc, hspecial, hc, htake]
  simp

/-- The piece is the one that is read. -/
theorem Piece.after_eq {t : Token α} {rest : List α} (h : S.Piece s t rest) :
    (S.after s).1 = t ∧ s.length = (S.after s).2 + rest.length ∧ s.drop (S.after s).2 = rest := by
  cases h with
  | last => exact ⟨rfl, rfl, rfl⟩
  | lone hopen hspecial hword => simp [after, hopen, hspecial, hword]
  | bracketed hopen hname hd =>
    rw [after_bracketed hopen hname hd]
    refine ⟨rfl, ?_, ?_⟩
    · simp only [List.length_cons, List.length_append]
      omega
    · simp [List.drop_append]
  | empty hopen =>
    simp [after, hopen]
    omega
  | unclosed hopen hd => simp [after, hopen, hd, Nat.add_comm]
  | special hc => simp [after, closing_of_special hc, hc, Nat.add_comm]
  | word hspecial hname hend =>
    rw [after_word hspecial hname hend]
    refine ⟨rfl, ?_, ?_⟩
    · simp only [List.length_cons, List.length_append]
      omega
    · simp

/-- There is one for every text. -/
theorem exists_piece (S : Signs α) (s : List α) : ∃ t rest, S.Piece s t rest := by
  cases s with
  | nil => exact ⟨_, _, .last⟩
  | cons c s =>
    cases hopen : S.closing c with
    | some d =>
      by_cases hd : d ∈ s
      · obtain ⟨name, rest, rfl, hname⟩ := List.eq_append_cons_of_mem hd
        by_cases hempty : name = []
        · subst hempty
          exact ⟨_, _, .empty hopen⟩
        · exact ⟨_, _, .bracketed hopen hempty hname⟩
      · exact ⟨_, _, .unclosed hopen hd⟩
    | none =>
      cases hspecial : S.isSpecial c with
      | true => exact ⟨_, _, .special hspecial⟩
      | false =>
        cases hword : S.isWord c with
        | false => exact ⟨_, _, .lone hopen hspecial hword⟩
        | true =>
          refine ⟨.reference (c :: s.takeWhile S.isWord), s.dropWhile S.isWord, ?_⟩
          have hend : ∀ x ∈ (s.dropWhile S.isWord).head?, S.isWord x = false := by
            intro x hx
            have hnot := List.head?_dropWhile_not S.isWord s
            rw [Option.mem_def.1 hx] at hnot
            simpa using hnot
          have hname : ∀ x ∈ c :: s.takeWhile S.isWord, S.isWord x = true := by
            intro x hx
            rcases List.mem_cons.1 hx with rfl | hx
            · exact hword
            · exact List.mem_takeWhile_imp hx
          have hpiece := Piece.word hspecial hname hend
          rwa [List.takeWhile_append_dropWhile] at hpiece

theorem piece_after (S : Signs α) (s : List α) : S.Piece s (S.after s).1 (s.drop (S.after s).2) := by
  obtain ⟨t, rest, h⟩ := S.exists_piece s
  obtain ⟨rfl, -, rfl⟩ := h.after_eq
  exact h

/-- A piece takes no more than there is. -/
theorem after_le (S : Signs α) (s : List α) : (S.after s).2 ≤ s.length := by
  have hlength := (S.piece_after s).after_eq.2.1
  omega

/-! ### The only way to cut a text up -/

theorem Tokenises.tokens_eq (h : S.Tokenises s ts) : S.tokens s = ts := by
  induction h with
  | done => rfl
  | plain hc _ ih => rw [tokens_cons_of_ne hc, ih]
  | dollar hpiece _ ih =>
    obtain ⟨ht, -, hrest⟩ := hpiece.after_eq
    rw [tokens_dollar, ht, hrest, ih]

theorem tokenises_tokens (S : Signs α) (s : List α) : S.Tokenises s (S.tokens s) := by
  induction hn : s.length using Nat.strong_induction_on generalizing s with
  | _ n ih =>
    cases s with
    | nil => exact .done
    | cons c s =>
      rw [List.length_cons] at hn
      by_cases hc : c = S.dollar
      · subst hc
        rw [tokens_dollar]
        -- what is left after the piece is shorter than the text
        refine .dollar (S.piece_after s) (ih _ ?_ _ rfl)
        rw [List.length_drop]
        omega
      · rw [tokens_cons_of_ne hc]
        exact .plain hc (ih _ (by omega) _ rfl)

/-- **There is one way to cut a text up**, from left to right. -/
theorem tokenises_iff : S.Tokenises s ts ↔ ts = S.tokens s := by
  constructor
  · exact fun h => h.tokens_eq.symm
  · rintro rfl
    exact S.tokenises_tokens s

end Signs

/-! ### What the pieces stand for -/

variable {mapping : List α → List α} {s : List α} {ts : List (Token α)}

theorem render_cons (mapping : List α → List α) (t : Token α) (ts : List (Token α)) :
    render mapping (t :: ts) = render mapping [t] ++ render mapping ts := by
  simp [render]

/-- What a text stands for depends on the variables to which it refers only. -/
theorem render_congr {mapping' : List α → List α} (h : ∀ name, .reference name ∈ ts → mapping name = mapping' name) :
    render mapping ts = render mapping' ts := by
  apply List.flatMap_congr
  intro t ht
  cases t with
  | plain c => rfl
  | reference name => exact h name ht
  | dropped => rfl

/-- Plain pieces stand for themselves. -/
theorem render_map_plain (mapping : List α → List α) (s : List α) : render mapping (s.map .plain) = s := by
  simp [render, List.flatMap_map]

/-- What a piece stands for, from its name and what it takes. -/
theorem render_piece [DecidableEq α] {S : Signs α} {t : Token α} {rest : List α} (h : S.Piece s t rest)
    (mapping : List α → List α) :
    render mapping [t] = if t.name = [] then if 0 < (S.after s).2 then [] else [S.dollar] else mapping t.name := by
  have htake := h.after_eq.2.1
  cases h with
  | last => rfl
  | lone hopen hspecial hword =>
    rw [Token.name_plain, if_pos rfl, if_neg (by simp only [List.length_cons] at htake; omega)]
    rfl
  | bracketed hopen hname hd => simp [render, hname]
  | empty hopen =>
    rw [Token.name_dropped, if_pos rfl, if_pos (by simp only [List.length_cons] at htake; omega)]
    rfl
  | unclosed hopen hd =>
    rw [Token.name_dropped, if_pos rfl, if_pos (by simp only [List.length_cons] at htake; omega)]
    rfl
  | special hc => simp [render]
  | word hspecial hname hend => simp [render]

/-! ### Another alphabet -/

variable {β : Type*}

/-- The signs of `T` write the signs of `S`, some of them with more than one sign: a sign that means something is written with one sign
that means the same, and the others begin with no such sign, and have no bracket that closes and no beginning of a reference in them. -/
structure Encoding (S : Signs α) (T : Signs β) where
  encode : α → List β
  ne_nil : ∀ c, encode c ≠ []
  dollar : encode S.dollar = [T.dollar]
  notMem_dollar : ∀ c, c ≠ S.dollar → T.dollar ∉ encode c
  opening : ∀ o d, S.closing o = some d →
    ∃ o' d', encode o = [o'] ∧ encode d = [d'] ∧ T.closing o' = some d' ∧ ∀ c, c ≠ d → d' ∉ encode c
  special : ∀ c, S.isSpecial c = true → ∃ c', encode c = [c'] ∧ T.isSpecial c' = true
  word : ∀ c, S.isWord c = true → ∃ c', encode c = [c'] ∧ T.isWord c' = true
  closing_head : ∀ c, S.closing c = none → ∀ x ∈ (encode c).head?, T.closing x = none
  special_head : ∀ c, S.isSpecial c = false → ∀ x ∈ (encode c).head?, T.isSpecial x = false
  word_head : ∀ c, S.isWord c = false → ∀ x ∈ (encode c).head?, T.isWord x = false

namespace Encoding

variable {S : Signs α} {T : Signs β} (E : Encoding S T)

/-- A text in the other alphabet. -/
def text (s : List α) : List β := s.flatMap E.encode

/-- The pieces that write a piece. -/
def pieces : Token α → List (Token β)
  | .plain c => (E.encode c).map .plain
  | .reference name => [.reference (E.text name)]
  | .dropped => [.dropped]

theorem text_cons (c : α) (s : List α) : E.text (c :: s) = E.encode c ++ E.text s := List.flatMap_cons

theorem text_append (s t : List α) : E.text (s ++ t) = E.text s ++ E.text t := List.flatMap_append

theorem text_eq_nil {s : List α} : E.text s = [] ↔ s = [] := by
  cases s with
  | nil => simp [text]
  | cons c s => simp [text_cons, E.ne_nil]

/-- What holds of the first sign of every sign holds of the first sign of a text. -/
theorem head_text {s : List α} {p : β → Prop} (h : ∀ c ∈ s.head?, ∀ x ∈ (E.encode c).head?, p x) : ∀ x ∈ (E.text s).head?, p x := by
  cases s with
  | nil => simp [text]
  | cons c s =>
    have hc := h c rfl
    rw [text_cons]
    cases hencode : E.encode c with
    | nil => exact absurd hencode (E.ne_nil c)
    | cons y ys =>
      rw [hencode] at hc
      exact hc

theorem notMem_text {s : List α} {d : α} {d' : β} (h : ∀ c, c ≠ d → d' ∉ E.encode c) (hd : d ∉ s) : d' ∉ E.text s := by
  rw [text, List.mem_flatMap]
  rintro ⟨c, hc, hmem⟩
  exact h c (ne_of_mem_of_not_mem hc hd) hmem

/-- A word is written with as many signs, all of them word signs. -/
theorem isWord_text {s : List α} (h : ∀ c ∈ s, S.isWord c = true) : ∀ x ∈ E.text s, T.isWord x = true := by
  intro x hx
  obtain ⟨c, hc, hmem⟩ := List.mem_flatMap.1 hx
  obtain ⟨c', hencode, hword⟩ := E.word c (h c hc)
  rw [hencode, List.mem_singleton] at hmem
  rwa [hmem]

/-- The piece after the sign of a reference is written with one piece. -/
theorem piece_text {s rest : List α} {t : Token α} (h : S.Piece s t rest) :
    ∃ t', E.pieces t = [t'] ∧ T.Piece (E.text s) t' (E.text rest) := by
  have hdollar : E.pieces (.plain S.dollar) = [.plain T.dollar] := by rw [pieces, E.dollar, List.map_singleton]
  cases h with
  | last => exact ⟨_, hdollar, .last⟩
  | @lone c s hopen hspecial hword =>
    refine ⟨_, hdollar, ?_⟩
    have hclosing := E.head_text (s := c :: s) (p := fun x => T.closing x = none) (by simpa using E.closing_head c hopen)
    have hspecial := E.head_text (s := c :: s) (p := fun x => T.isSpecial x = false) (by simpa using E.special_head c hspecial)
    have hword := E.head_text (s := c :: s) (p := fun x => T.isWord x = false) (by simpa using E.word_head c hword)
    cases htext : E.text (c :: s) with
    | nil => cases E.text_eq_nil.1 htext
    | cons x xs =>
      rw [htext] at hclosing hspecial hword
      exact .lone (hclosing x rfl) (hspecial x rfl) (hword x rfl)
  | @bracketed o d name s hopen hname hd =>
    obtain ⟨o', d', ho, hd', hclosing, hother⟩ := E.opening o d hopen
    refine ⟨_, rfl, ?_⟩
    rw [text_cons, text_append, text_cons, ho, hd']
    exact .bracketed hclosing (fun h => hname (E.text_eq_nil.1 h)) (E.notMem_text hother hd)
  | @empty o d s hopen =>
    obtain ⟨o', d', ho, hd', hclosing, -⟩ := E.opening o d hopen
    refine ⟨_, rfl, ?_⟩
    rw [text_cons, text_cons, ho, hd']
    exact .empty hclosing
  | @unclosed o d s hopen hd =>
    obtain ⟨o', d', ho, -, hclosing, hother⟩ := E.opening o d hopen
    refine ⟨_, rfl, ?_⟩
    rw [text_cons, ho]
    exact .unclosed hclosing (E.notMem_text hother hd)
  | @special c s hc =>
    obtain ⟨c', hencode, hc'⟩ := E.special c hc
    refine ⟨.reference [c'], ?_, ?_⟩
    · rw [pieces, text_cons, hencode]
      rfl
    · rw [text_cons, hencode]
      exact .special hc'
  | @word c name s hspecial hname hend =>
    obtain ⟨c', hencode, hc'⟩ := E.word c (hname c List.mem_cons_self)
    have hspecial' : T.isSpecial c' = false := E.special_head c hspecial c' (by rw [hencode]; rfl)
    refine ⟨.reference (c' :: E.text name), ?_, ?_⟩
    · rw [pieces, text_cons, hencode]
      rfl
    · rw [text_cons, text_append, hencode]
      refine .word hspecial' ?_ (E.head_text fun c hc => E.word_head c (hend c hc))
      have hall := E.isWord_text hname
      rwa [text_cons, hencode] at hall

/-- A text in the other alphabet is cut up as the text is. -/
theorem tokenises_text {s : List α} {ts : List (Token α)} (h : S.Tokenises s ts) : T.Tokenises (E.text s) (ts.flatMap E.pieces) := by
  induction h with
  | done => exact .done
  | @plain c s ts hc _ ih =>
    rw [text_cons, List.flatMap_cons]
    exact ih.append_plain (E.notMem_dollar c hc)
  | @dollar s t rest ts hpiece _ ih =>
    obtain ⟨t', hpieces, hpiece'⟩ := E.piece_text hpiece
    rw [text_cons, E.dollar, List.flatMap_cons, hpieces]
    exact .dollar hpiece' ih

/-- **The pieces of a text in the other alphabet write its pieces.** -/
theorem tokens_text [DecidableEq α] [DecidableEq β] (s : List α) : T.tokens (E.text s) = (S.tokens s).flatMap E.pieces :=
  (Signs.tokenises_iff.1 (E.tokenises_text (S.tokenises_tokens s))).symm

/-- What they stand for is the same, if the values of the variables are. -/
theorem render_pieces {f : List α → List α} {g : List β → List β} (h : ∀ name, g (E.text name) = E.text (f name))
    (ts : List (Token α)) : render g (ts.flatMap E.pieces) = E.text (render f ts) := by
  induction ts with
  | nil => rfl
  | cons t ts ih =>
    rw [List.flatMap_cons, render, List.flatMap_append, ← render, ← render, ih, render_cons f t ts, text_append]
    congr 1
    cases t with
    | plain c => simp [pieces, render, List.flatMap_map, text]
    | reference name => simp [pieces, render, h]
    | dropped => simp [pieces, render, text]

end Encoding

end References
