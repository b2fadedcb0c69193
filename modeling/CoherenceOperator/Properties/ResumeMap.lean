import CoherenceOperator.Members.ResumeMap
import CoherenceOperator.Properties.BuildOrder

/-!
# The services to resume come through

The text that the operator writes is read by the members. A name that ends in a backslash comes before the quotation mark that
ends it, and the reader takes the two for a quotation mark that belongs to the name: from there on what is quoted and what is
not has changed places.
-/

namespace CoherenceOperator

open Effect

namespace ResumeMap

/-! ### What is read -/

section

variable {p : Reader} {c : Char} {cs rest : List Char} {key : List Char} {b : Bool}

theorem parse_nil : p.parse [] = p := by rw [Reader.parse]

/-- A character that is no backslash. -/
theorem parse_step (h : c ≠ backslash) : p.parse (c :: cs) = (p.step c).parse cs := by
  cases cs with
  | nil => rw [parse_nil, Reader.parse]
  | cons d cs => rw [Reader.parse, if_neg fun hc => h hc.1]

/-- A backslash before something else than a quotation mark. -/
theorem parse_backslash (h : rest.head? ≠ some quote) :
    p.parse (backslash :: rest) = (p.step backslash).parse rest := by
  cases rest with
  | nil => rw [parse_nil, Reader.parse]
  | cons d rest => rw [Reader.parse, if_neg fun hc => h (by rw [hc.2]; rfl)]

/-- A backslash before a quotation mark. -/
theorem parse_escaped : p.parse (backslash :: quote :: rest) = (p.append quote).parse rest := by
  rw [Reader.parse, if_pos ⟨rfl, rfl⟩]

/-- A text without backslashes. -/
theorem parse_plain (h : ∀ c ∈ cs, c ≠ backslash) : p.parse (cs ++ rest) = (cs.foldl Reader.step p).parse rest := by
  induction cs generalizing p with
  | nil => rfl
  | cons c cs ih =>
    rw [List.cons_append, parse_step (h c List.mem_cons_self), List.foldl_cons]
    exact ih fun d hd => h d (List.mem_cons_of_mem _ hd)

/-- A character of a name, which was escaped. -/
def decoded (p : Reader) (c : Char) : Reader := if c = quote then p.append quote else p.step c

/-- **A name that was escaped** is read character by character, if no quotation mark follows a backslash at its end. -/
theorem parse_escapeQuotes (h : key.getLast? = some backslash → rest.head? ≠ some quote) :
    p.parse (escapeQuotes key ++ rest) = (key.foldl decoded p).parse rest := by
  induction key generalizing p with
  | nil => rfl
  | cons c key ih =>
    have hcons : escapeQuotes (c :: key) = (if c = quote then [backslash, c] else [c]) ++ escapeQuotes key := rfl
    have htail : key.getLast? = some backslash → rest.head? ≠ some quote := by
      intro hkey
      refine h ?_
      rw [List.getLast?_cons, hkey]
      rfl
    rw [hcons, List.foldl_cons, decoded, List.append_assoc]
    by_cases hc : c = quote
    · rw [if_pos hc, if_pos hc, hc]
      show p.parse (backslash :: quote :: (escapeQuotes key ++ rest)) = _
      rw [parse_escaped, ih htail]
    · rw [if_neg hc, if_neg hc, List.singleton_append]
      by_cases hb : c = backslash
      · rw [hb, parse_backslash, ih htail]
        cases key with
        | nil => exact h (by rw [hb]; rfl)
        | cons d key =>
          -- the next quotation mark of the name has a backslash before it
          show ((if d = quote then [backslash, d] else [d]) ++ escapeQuotes key ++ rest).head? ≠ some quote
          by_cases hd : d = quote
          · rw [if_pos hd]
            simp [backslash, quote]
          · rw [if_neg hd]
            simp [hd]
      · rw [parse_step hb, ih htail]

/-- What is read after the name. -/
def close (p : Reader) (b : Bool) : Reader := (entryEnd b).foldl Reader.step p

theorem backslash_notMem_entryEnd : ∀ c ∈ entryEnd b, c ≠ backslash := by
  have hall : (entryEnd b).all (· ≠ backslash) = true := by
    cases b <;> decide
  simpa using hall

/-- **An entry** whose name does not end in a backslash. -/
theorem parse_entry {k : String} (h : k.toList.getLast? ≠ some backslash) :
    p.parse (serviceEntry k b ++ rest) = (close ((k.toList.foldl decoded (p.step quote)).step quote) b).parse rest := by
  have hquote : quote ≠ backslash := by decide
  rw [serviceEntry_eq, List.cons_append]
  show p.parse (quote :: (escapeQuotes k.toList ++ quote :: entryEnd b ++ rest)) = _
  rw [parse_step hquote, List.append_assoc, parse_escapeQuotes fun hlast => absurd hlast h, List.cons_append,
    parse_step hquote, parse_plain backslash_notMem_entryEnd, close]

/-- **An entry** whose name ends in a backslash. -/
theorem parse_entry_backslash {k : String} (h : k.toList = key ++ [backslash]) :
    p.parse (serviceEntry k b ++ rest) = (close ((key.foldl decoded (p.step quote)).append quote) b).parse rest := by
  have hquote : quote ≠ backslash := by decide
  have hescape : escapeQuotes k.toList = escapeQuotes key ++ [backslash] := by
    rw [h, escapeQuotes, List.flatMap_append]
    rfl
  rw [serviceEntry_eq, List.cons_append, hescape]
  show p.parse (quote :: (escapeQuotes key ++ [backslash] ++ quote :: entryEnd b ++ rest)) = _
  rw [parse_step hquote, List.append_assoc, List.append_assoc, parse_escapeQuotes]
  · show (key.foldl decoded (p.step quote)).parse (backslash :: quote :: (entryEnd b ++ rest)) = _
    rw [parse_escaped, parse_plain backslash_notMem_entryEnd, close]
  · intro _
    simp [backslash, quote]

/-! ### Names that come through -/

variable {m : Finmap fun _ : String => Bool}

theorem append_inName (h : p.inName = true) : p.append c = { p with serviceName := p.serviceName ++ [c] } := by
  rw [Reader.append, if_pos h]

/-- In quotes all characters are taken as they are. -/
theorem decoded_inQuotes (hquotes : p.inQuotes = true) (hname : p.inName = true) :
    decoded p c = { p with serviceName := p.serviceName ++ [c] } := by
  rw [decoded]
  by_cases hc : c = quote
  · rw [if_pos hc, hc, append_inName hname]
  · rw [if_neg hc, Reader.step, if_neg hc, if_neg (by simp [hquotes]), if_neg (by simp [hquotes]), append_inName hname]

theorem foldl_decoded_inQuotes (hquotes : p.inQuotes = true) (hname : p.inName = true) :
    cs.foldl decoded p = { p with serviceName := p.serviceName ++ cs } := by
  induction cs generalizing p with
  | nil => simp
  | cons c cs ih =>
    have htail := @ih { p with serviceName := p.serviceName ++ [c] } hquotes hname
    rw [List.foldl_cons, decoded_inQuotes hquotes hname, htail, List.append_assoc, List.singleton_append]

/-- In quotes what comes after a name is taken for a part of it. -/
theorem close_inQuotes (hquotes : p.inQuotes = true) (hname : p.inName = true) :
    close p b = { p with serviceName := p.serviceName ++ entryEnd b } := by
  have hfold : ∀ cs : List Char, quote ∉ cs → cs.foldl Reader.step p = cs.foldl decoded p := by
    intro cs hcs
    refine List.foldl_ext _ _ _ fun q d hd => ?_
    have hne : d ≠ quote := by
      rintro rfl
      exact hcs hd
    rw [decoded, if_neg hne]
  rw [close, hfold _ (quote_notMem_entryEnd b), foldl_decoded_inQuotes hquotes hname]

/-- Outside of quotes it is the value, and the end of the entry. -/
theorem close_of_not_inQuotes (h : p.inQuotes = false) :
    close p b = { map := { p with inName := false, enabled := p.enabled ++ (toString b).toList }.put } := by
  have htrue : entryEnd true = ['=', 't', 'r', 'u', 'e', ','] := by decide
  have hfalse : entryEnd false = ['=', 'f', 'a', 'l', 's', 'e', ','] := by decide
  cases b with
  | true =>
    have hvalue : (toString true).toList = ['t', 'r', 'u', 'e'] := by decide
    simp [close, htrue, hvalue, Reader.step, h, quote, Reader.append]
  | false =>
    have hvalue : (toString false).toList = ['f', 'a', 'l', 's', 'e'] := by decide
    simp [close, hfalse, hvalue, Reader.step, h, quote, Reader.append]

/-- **A name that comes through**: between entries the reader is as it was at the beginning, but for the map. -/
theorem parse_entry_good {k : String} (hlast : k.toList.getLast? ≠ some backslash) (hblank : isTrimmedAway k.toList = false) :
    ({ map := m } : Reader).parse (serviceEntry k b ++ rest) = ({ map := m.insert k b } : Reader).parse rest := by
  have hvalue : parseBoolean (toString b).toList = b := by cases b <;> decide
  rw [parse_entry hlast]
  congr 1
  have hopen : ({ map := m } : Reader).step quote = { map := m, inQuotes := true } := rfl
  rw [hopen, foldl_decoded_inQuotes rfl rfl]
  have hclose : ({ map := m, inQuotes := true, serviceName := [] ++ k.toList } : Reader).step quote =
      { map := m, serviceName := k.toList } := rfl
  rw [hclose, close_of_not_inQuotes rfl]
  simp [Reader.put, hblank, hvalue]

/-- A name comes through if it is not blank and does not end in a backslash. -/
def ComesThrough (k : String) : Prop := isTrimmedAway k.toList = false ∧ k.toList.getLast? ≠ some backslash

instance (k : String) : Decidable (ComesThrough k) := inferInstanceAs (Decidable (_ ∧ _))

/-- The text of entries. -/
def textOf (es : List (String × Bool)) : List Char := es.flatMap fun e => serviceEntry e.1 e.2

variable {es : List (String × Bool)}

/-- **Names that come through.** -/
theorem parse_textOf (h : ∀ e ∈ es, ComesThrough e.1) :
    ({ map := m } : Reader).parse (textOf es ++ rest) =
      ({ map := es.foldl (fun m e => m.insert e.1 e.2) m } : Reader).parse rest := by
  induction es generalizing m with
  | nil => rfl
  | cons e es ih =>
    have he := h e List.mem_cons_self
    have hcons : textOf (e :: es) = serviceEntry e.1 e.2 ++ textOf es := rfl
    rw [hcons, List.append_assoc, parse_entry_good he.2 he.1, ih fun e' he' => h e' (List.mem_cons_of_mem _ he'),
      List.foldl_cons]

/-! ### Names that do not come through -/

variable {k : String}

theorem notMem_put (hk : k ∉ p.map) (h : isTrimmedAway p.serviceName = false → String.ofList p.serviceName ≠ k) : k ∉ p.put := by
  rw [Reader.put]
  split
  · exact hk
  · rename_i hblank
    rw [Finmap.mem_insert, not_or]
    exact ⟨(h (Bool.eq_false_iff.2 hblank)).symm, hk⟩

theorem map_append : (p.append c).map = p.map := by
  rw [Reader.append]
  split <;> rfl

/-- What a character does to the map. -/
theorem map_step : (p.step c).map = p.map ∨ (p.step c).map = p.put := by
  rw [Reader.step]
  split
  · exact .inl rfl
  split
  · exact .inl rfl
  split
  · exact .inr rfl
  · exact .inl map_append

/-- **A blank name** is read nowhere. -/
theorem notMem_parse_of_blank (hblank : isTrimmedAway k.toList = true) (hk : k ∉ p.map) : k ∉ (p.parse cs).finish := by
  have hput : ∀ {q : Reader}, k ∉ q.map → k ∉ q.put := by
    intro q hq
    refine notMem_put hq fun hname h => ?_
    rw [← h, String.toList_ofList, hname] at hblank
    cases hblank
  have hparse : k ∉ (p.parse cs).map := by
    fun_induction Reader.parse p cs with
    | case1 p => exact hk
    | case2 p c =>
      rcases map_step (p := p) (c := c) with h | h
      · rwa [h]
      · rw [h]
        exact hput hk
    | case3 p c d cs hescaped ih => exact ih (by rwa [map_append])
    | case4 p c d cs hplain ih =>
      refine ih ?_
      rcases map_step (p := p) (c := c) with h | h
      · rwa [h]
      · rw [h]
        exact hput hk
  rw [Reader.finish]
  split
  · exact hparse
  · exact hput hparse

/-- The reader is outside of quotes, where it has read `j` characters, and its name is shorter than that or longer than that of
`k`; and `k` is not in the map. -/
structure Away (k : String) (j : ℕ) (p : Reader) : Prop where
  inQuotes : p.inQuotes = false
  notMem : k ∉ p.map
  length : p.serviceName.length < j ∨ k.toList.length < p.serviceName.length

variable {j : ℕ}

theorem Away.ofList_ne (h : Away k j p) (hj : j ≤ k.toList.length) : String.ofList p.serviceName ≠ k := by
  rintro rfl
  rw [String.toList_ofList] at hj
  have hlength := h.length
  rw [String.toList_ofList] at hlength
  omega

theorem Away.append (h : Away k j p) : Away k (j + 1) (p.append c) := by
  obtain ⟨hquotes, hk, hlength⟩ := h
  rw [Reader.append]
  split
  · refine ⟨hquotes, hk, ?_⟩
    simp only [List.length_append, List.length_singleton]
    omega
  · exact ⟨hquotes, hk, by simp only; omega⟩

/-- One more character, as long as they are not as many as those of `k`. -/
theorem Away.decoded (h : Away k j p) (hj : j ≤ k.toList.length) : Away k (j + 1) (decoded p c) := by
  have happend : Away k (j + 1) (p.append c) := h.append
  have hput : k ∉ p.put := notMem_put h.notMem fun _ => h.ofList_ne hj
  obtain ⟨hquotes, hk, hlength⟩ := h
  rw [ResumeMap.decoded]
  split
  · rename_i hc
    rw [← hc]
    exact happend
  rename_i hc
  rw [Reader.step, if_neg hc]
  split
  · exact ⟨hquotes, hk, by simp only; omega⟩
  split
  · refine ⟨rfl, hput, .inl ?_⟩
    simp
  · exact happend

theorem Away.foldl_decoded (h : Away k j p) (hj : j + cs.length ≤ k.toList.length) :
    Away k (j + cs.length) (cs.foldl ResumeMap.decoded p) := by
  induction cs generalizing p j with
  | nil => exact h
  | cons c cs ih =>
    rw [List.length_cons] at hj ⊢
    have htail := ih (h.decoded (c := c) (by omega)) (by omega)
    rw [List.foldl_cons]
    rwa [show j + (cs.length + 1) = j + 1 + cs.length by omega]

/-- The end of an entry. -/
theorem Away.close (h : Away k j p) (hj : j ≤ k.toList.length) : ∃ m, k ∉ m ∧ close p b = { map := m } := by
  rw [close_of_not_inQuotes h.inQuotes]
  refine ⟨_, ?_, rfl⟩
  exact notMem_put h.notMem fun _ => h.ofList_ne hj

/-- A name that ends in a backslash is taken for a text in quotes that goes on, with a quotation mark for the backslash. -/
theorem read_backslash {f : List Char} : close ((f.foldl decoded (({ map := m } : Reader).step quote)).append quote) b =
    { map := m, inQuotes := true, serviceName := f ++ [quote] ++ entryEnd b } := by
  have hopen : ({ map := m } : Reader).step quote = { map := m, inQuotes := true } := rfl
  rw [hopen, foldl_decoded_inQuotes rfl rfl, append_inName rfl, close_inQuotes rfl rfl]
  rfl

theorem length_lt_of_backslash {f : List Char} (h : k.length ≤ f.length + 1) :
    k.toList.length < (f ++ [quote] ++ entryEnd b).length := by
  obtain ⟨l, hl⟩ := exists_entryEnd_eq b
  have hk : k.length = k.toList.length := String.length_toList.symm
  simp only [hl, List.length_append, List.length_singleton]
  omega

/-- **Two names that end in a backslash**, the first not shorter than `k` and the second not longer: the first is taken for a text in
quotes that goes on to the second, which is read outside of quotes. -/
theorem exists_parse_pair {f g : String} {b' : Bool} (hf : f.toList.getLast? = some backslash)
    (hg : g.toList.getLast? = some backslash) (hfk : k.length ≤ f.length) (hgk : g.length ≤ k.length) (hk : k ∉ m) :
    ∃ m', k ∉ m' ∧ ({ map := m } : Reader).parse (serviceEntry f b ++ (serviceEntry g b' ++ rest)) =
      ({ map := m' } : Reader).parse rest := by
  obtain ⟨f', hf'⟩ := List.getLast?_eq_some_iff.1 hf
  obtain ⟨g', hg'⟩ := List.getLast?_eq_some_iff.1 hg
  have hflength : f.length = f'.length + 1 := by rw [← String.length_toList, hf', List.length_append, List.length_singleton]
  have hglength : g.length = g'.length + 1 := by rw [← String.length_toList, hg', List.length_append, List.length_singleton]
  have hklength : k.length = k.toList.length := String.length_toList.symm
  rw [parse_entry_backslash hf', parse_entry_backslash hg', read_backslash]
  -- the second name starts outside of quotes, behind all of the first
  have hname : k.toList.length < (f' ++ [quote] ++ entryEnd b).length := length_lt_of_backslash (by omega)
  generalize f' ++ [quote] ++ entryEnd b = name at hname ⊢
  have hstart : Away k 0 (({ map := m, inQuotes := true, serviceName := name } : Reader).step quote) := ⟨rfl, hk, .inr hname⟩
  have hread := ((hstart.foldl_decoded (by omega : 0 + g'.length ≤ k.toList.length)).append (c := quote))
  obtain ⟨m', hm', hclose⟩ := hread.close (b := b') (by omega)
  exact ⟨m', hm', by rw [hclose]⟩

/-- The first, third, ... of the names are not shorter than `k`, the others not longer. -/
def Alternates (k : String) : List String → Prop
  | [] => True
  | [f] => k.length ≤ f.length
  | f :: g :: names => k.length ≤ f.length ∧ g.length ≤ k.length ∧ Alternates k names

/-- **Names that end in a backslash**, in such an order: `k` is not read. -/
theorem notMem_parse_of_alternates (halternates : Alternates k (es.map Prod.fst))
    (hlast : ∀ e ∈ es, e.1.toList.getLast? = some backslash) (hk : k ∉ m) :
    k ∉ (({ map := m } : Reader).parse (textOf es)).finish := by
  induction es using List.twoStepInduction generalizing m with
  | nil => exact hk
  | singleton e =>
    obtain ⟨f', hf'⟩ := List.getLast?_eq_some_iff.1 (hlast e List.mem_cons_self)
    have hlength : e.1.length = f'.length + 1 := by
      rw [← String.length_toList, hf', List.length_append, List.length_singleton]
    have htext : textOf [e] = serviceEntry e.1 e.2 ++ [] := rfl
    rw [htext, parse_entry_backslash hf', parse_nil, read_backslash]
    -- what is left at the end is longer than `k`
    have hname : k.toList.length < (f' ++ [quote] ++ entryEnd e.2).length :=
      length_lt_of_backslash (hlength ▸ halternates)
    generalize f' ++ [quote] ++ entryEnd e.2 = name at hname ⊢
    rw [Reader.finish]
    split
    · exact hk
    · refine notMem_put hk fun _ => ?_
      rintro rfl
      rw [String.toList_ofList] at hname
      exact lt_irrefl _ hname
  | cons_cons e e' es ih =>
    obtain ⟨hfirst, hsecond, htail⟩ := halternates
    have htext : textOf (e :: e' :: es) = serviceEntry e.1 e.2 ++ (serviceEntry e'.1 e'.2 ++ textOf es) := rfl
    obtain ⟨m', hk', hparse⟩ : ∃ m', k ∉ m' ∧
        ({ map := m } : Reader).parse (serviceEntry e.1 e.2 ++ (serviceEntry e'.1 e'.2 ++ textOf es)) =
          ({ map := m' } : Reader).parse (textOf es) :=
      exists_parse_pair (hlast e List.mem_cons_self) (hlast e' (List.mem_cons_of_mem _ List.mem_cons_self)) hfirst hsecond hk
    rw [htext, hparse]
    exact ih htail (fun e he => hlast e (List.mem_cons_of_mem _ (List.mem_cons_of_mem _ he))) hk'

end

/-- **An order** from the longest name and the shortest to the middle one, which is not read then. -/
theorem exists_alternates {names : List String} (h : names.Pairwise fun a b => b.length ≤ a.length) (hne : names ≠ []) :
    ∃ ks k, ks.Perm names ∧ k ∈ names ∧ Alternates k ks := by
  induction names using List.bidirectionalRec with
  | nil => exact absurd rfl hne
  | singleton f => exact ⟨[f], f, .refl _, List.mem_cons_self, le_rfl⟩
  | cons_append f names g ih =>
    rw [List.pairwise_cons, List.pairwise_append] at h
    obtain ⟨hfirst, hnames, -, hlast⟩ := h
    by_cases hempty : names = []
    · subst hempty
      exact ⟨[f, g], f, .refl _, List.mem_cons_self, le_rfl, hfirst g (by simp), trivial⟩
    · obtain ⟨ks, k, hperm, hk, halternates⟩ := ih hnames hempty
      refine ⟨f :: g :: ks, k, ?_, by simp [hk], hfirst k (by simp [hk]), hlast k hk g (by simp), halternates⟩
      exact ((hperm.cons g).trans (List.perm_append_singleton g names).symm).cons f

/-! ### What comes of the text -/

/-- What is encoded is decoded. -/
theorem decodeBase64_encode (b : List Char) :
    decodeBase64 (Base64.encode (String.ofList b).toByteArray.data.toList) = some b := by
  have hbytes : (⟨⟨(String.ofList b).toByteArray.data.toList⟩⟩ : ByteArray) = (String.ofList b).toByteArray := rfl
  have hread : String.fromUTF8? (String.ofList b).toByteArray = some (String.ofList b) := by
    rw [String.fromUTF8?, dif_pos (String.ofList b).isValidUTF8]
    rfl
  rw [decodeBase64]
  simp only [Base64.decode_encode, if_true, hbytes, hread, Option.map_some, String.toList_ofList]

theorem digit_gt (n : ℕ) : ' ' < Base64.digit n := by
  have halphabet : Base64.alphabet.all (' ' < ·) = true := by decide +kernel
  rw [Base64.digit, List.getD_eq_getElem?_getD]
  cases h : Base64.alphabet[n]? with
  | none => decide
  | some c => simpa using List.all_eq_true.1 halphabet c (List.mem_of_getElem? h)

theorem encode_gt (bs : List UInt8) : ∀ c ∈ Base64.encode bs, ' ' < c := by
  have hpadding : ' ' < '=' := by decide
  induction bs using Base64.encode.induct with
  | case1 => simp [Base64.encode]
  | case2 a => simp [Base64.encode, digit_gt, hpadding]
  | case3 a b => simp [Base64.encode, digit_gt, hpadding]
  | case4 a b c bs ih => simpa [Base64.encode, digit_gt] using ih

/-- A text without blanks is not trimmed. -/
theorem trim_eq {s : List Char} (h : ∀ c ∈ s, ' ' < c) : trim s = s := by
  have hdrop : ∀ {l : List Char}, (∀ c ∈ l, ' ' < c) → l.dropWhile (· ≤ ' ') = l := by
    intro l hl
    cases l with
    | nil => rfl
    | cons c l => rw [List.dropWhile_cons_of_neg (by simpa using hl c List.mem_cons_self)]
  rw [trim, hdrop h, hdrop fun c hc => h c (List.mem_reverse.1 hc), List.reverse_reverse]

/-- **A text that was encoded** is what is read, unless it is empty: then the member is not told of it. -/
theorem getResumeMap_encodeBuffer {b : List Char} (hb : b ≠ []) :
    getResumeMap (resumeServicesProperty (encodeBuffer b)) = some (({} : Reader).parse b).finish := by
  have hne : encodeBuffer b ≠ "" := by
    intro h
    exact hb (encodeBuffer_injective (h.trans (by decide)))
  have htext : ("base64:" ++ encodeBuffer b).toList =
      "base64:".toList ++ Base64.encode (String.ofList b).toByteArray.data.toList := by
    rw [String.toList_append, encodeBuffer]
    congr 1
    exact String.toList_ofList
  have hplain : ∀ c ∈ "base64:".toList, ' ' < c := by
    have hall : "base64:".toList.all (' ' < ·) = true := by decide
    exact fun c hc => by simpa using List.all_eq_true.1 hall c hc
  have htrim : trim ("base64:" ++ encodeBuffer b).toList = ("base64:" ++ encodeBuffer b).toList := by
    refine trim_eq ?_
    rw [htext]
    intro c hc
    rcases List.mem_append.1 hc with hc | hc
    · exact hplain c hc
    · exact encode_gt _ c hc
  have hafter : afterBase64 ("base64:" ++ encodeBuffer b).toList =
      some (Base64.encode (String.ofList b).toByteArray.data.toList) := by
    rw [htext, afterBase64]
    simp
  have hsome : ("base64:" ++ encodeBuffer b).toList ≠ [] := by
    rw [htext]
    simp
  rw [resumeServicesProperty, if_pos hne, getResumeMap]
  simp only [bind, Option.bind, htrim, if_neg hsome, hafter, decodeBase64_encode]
  rfl

/-! ### The services -/

variable {services : Finmap fun _ : String => Bool} {order : MapOrder String}

/-- What the members read of the services, no map being one without entries, as they take it. -/
def received (services : Finmap fun _ : String => Bool) (order : MapOrder String) : Finmap fun _ : String => Bool :=
  (getResumeMap (resumeServicesProperty (encodeServices order services))).getD ∅

/-- The members read the text of the entries. -/
theorem received_eq : received services order = (({} : Reader).parse (textOf (order.entries services))).finish := by
  have htext : encodeServices order services = encodeBuffer (textOf (order.entries services)) := by
    rw [encodeServices, textOf, List.flatMap_eq_foldl]
  rw [received, htext]
  by_cases hempty : textOf (order.entries services) = []
  · rw [hempty]
    decide +kernel
  · rw [getResumeMap_encodeBuffer hempty, Option.getD_some]

/-- **Names that come through are received**, in every order. -/
theorem received_eq_services (h : ∀ k ∈ services, ComesThrough k) : received services order = services := by
  have hentries : ∀ e ∈ order.entries services, services.lookup e.1 = some e.2 := fun e he => MapOrder.mem_entries.1 he
  have hparse : ({ map := ∅ } : Reader).parse (textOf (order.entries services) ++ []) =
      ({ map := (order.entries services).foldl (fun m e => m.insert e.1 e.2) ∅ } : Reader).parse [] :=
    parse_textOf fun e he => h e.1 (Finmap.mem_of_lookup_eq_some (hentries e he))
  rw [List.append_nil, parse_nil] at hparse
  rw [received_eq]
  show (Reader.parse { map := ∅ } (textOf (order.entries services))).finish = services
  rw [hparse]
  refine Finmap.ext_lookup fun k => ?_
  show ((order.entries services).foldl (fun (m : Finmap fun _ : String => Bool) e => m.insert e.1 e.2) ∅).lookup k =
    services.lookup k
  rw [lookup_foldl_insert hentries, MapOrder.map_fst_entries]
  split
  · rfl
  · rename_i hk
    rw [order.mem_list, Finmap.mem_keys] at hk
    rw [Finmap.lookup_empty, Finmap.lookup_eq_none.2 hk]

/-- The names of the services that come through, and the others from the longest to the shortest. -/
theorem exists_names (services : Finmap fun _ : String => Bool) : ∃ goods bads : List String,
    (goods ++ bads).Nodup ∧ (∀ k, k ∈ goods ↔ k ∈ services ∧ k.toList.getLast? ≠ some backslash) ∧
      (∀ k, k ∈ bads ↔ k ∈ services ∧ k.toList.getLast? = some backslash) ∧
      bads.Pairwise fun a b => b.length ≤ a.length := by
  let order : MapOrder String := MapOrder.sorted
  let isBad : String → Bool := fun k => k.toList.getLast? = some backslash
  let names := order.list services.keys
  have hperm : ((names.filter isBad).mergeSort fun a b => decide (b.length ≤ a.length)).Perm (names.filter isBad) :=
    List.mergeSort_perm _ _
  have hnodup : names.Nodup := order.nodup _
  refine ⟨names.filter (!isBad ·), (names.filter isBad).mergeSort fun a b => decide (b.length ≤ a.length), ?_, ?_, ?_, ?_⟩
  · refine (hnodup.filter _).append (hperm.nodup_iff.2 (hnodup.filter _)) fun k hk hk' => ?_
    have hgood := (List.mem_filter.1 hk).2
    rw [(List.mem_filter.1 (hperm.mem_iff.1 hk')).2] at hgood
    cases hgood
  · intro k
    simp [names, isBad, order.mem_list, Finmap.mem_keys]
  · intro k
    rw [hperm.mem_iff]
    simp [names, isBad, order.mem_list, Finmap.mem_keys]
  · have hsorted : ((names.filter isBad).mergeSort fun a b => decide (b.length ≤ a.length)).Pairwise fun a b =>
        decide (b.length ≤ a.length) = true := by
      refine List.pairwise_mergeSort ?_ ?_ _
      · intro a b c hab hbc
        simp only [decide_eq_true_eq] at hab hbc ⊢
        omega
      · intro a b
        simp only [Bool.or_eq_true, decide_eq_true_eq]
        omega
    exact hsorted.imp fun h => of_decide_eq_true h

/-- The entries of a map, in the order of a list of all its names. -/
theorem exists_entries_eq {names : List String} (hnodup : names.Nodup) (hmem : ∀ k, k ∈ names ↔ k ∈ services) :
    ∃ order : MapOrder String, (order.entries services).map Prod.fst = names := by
  refine ⟨MapOrder.sorted.startingWith names hnodup, ?_⟩
  rw [MapOrder.map_fst_entries, MapOrder.startingWith]
  dsimp only
  have hall : names.filter (· ∈ services.keys) = names :=
    List.filter_eq_self.2 fun k hk => by simpa [Finmap.mem_keys] using (hmem k).1 hk
  have hrest : ((MapOrder.sorted : MapOrder String).list services.keys).filter (· ∉ names) = [] := by
    refine List.filter_eq_nil_iff.2 fun k hk => ?_
    rw [MapOrder.mem_list, Finmap.mem_keys, ← hmem] at hk
    simpa using hk
  rw [hall, hrest, List.append_nil]

/-- **A name that ends in a backslash**: there is an order in which not all services are received. -/
theorem exists_received_ne {k : String} (hk : k ∈ services) (hlast : k.toList.getLast? = some backslash)
    (hblank : ∀ k ∈ services, isTrimmedAway k.toList = false) : ∃ order, received services order ≠ services := by
  obtain ⟨goods, bads, hnodup, hgoods, hbads, hsorted⟩ := exists_names services
  have hne : bads ≠ [] := List.ne_nil_of_mem ((hbads k).2 ⟨hk, hlast⟩)
  obtain ⟨ks, middle, hperm, hmiddle, halternates⟩ := exists_alternates hsorted hne
  have hnodup' : (goods ++ ks).Nodup := (hperm.append_left goods).nodup_iff.2 hnodup
  have hmem : ∀ k, k ∈ goods ++ ks ↔ k ∈ services := by
    intro k
    rw [List.mem_append, hperm.mem_iff, hgoods, hbads]
    tauto
  obtain ⟨order, horder⟩ := exists_entries_eq hnodup' hmem
  refine ⟨order, fun hreceived => ?_⟩
  obtain ⟨es, es', hes, hfst, hfst'⟩ := List.map_eq_append_iff.1 horder
  have hmemFst : ∀ {l : List (String × Bool)} {e}, e ∈ l → e.1 ∈ l.map Prod.fst := fun he => List.mem_map_of_mem he
  -- the names that come through are read first
  have hthrough : ∀ e ∈ es, ComesThrough e.1 := by
    intro e he
    have hgood := (hgoods e.1).1 (hfst ▸ hmemFst he)
    exact ⟨hblank e.1 hgood.1, hgood.2⟩
  have hbackslash : ∀ e ∈ es', e.1.toList.getLast? = some backslash := fun e he =>
    ((hbads e.1).1 (hperm.mem_iff.1 (hfst' ▸ hmemFst he))).2
  have htext : textOf (order.entries services) = textOf es ++ textOf es' := by rw [hes, textOf, List.flatMap_append]; rfl
  have hfirst : middle ∉ es.foldl (fun (m : Finmap fun _ : String => Bool) e => m.insert e.1 e.2) ∅ := by
    have hnot : middle ∉ es.map Prod.fst := by
      rw [hfst]
      exact fun hgood => ((hgoods middle).1 hgood).2 ((hbads middle).1 hmiddle).2
    have hentries : ∀ e ∈ es, services.lookup e.1 = some e.2 := fun e he =>
      MapOrder.mem_entries.1 (hes ▸ List.mem_append_left _ he)
    rw [← Finmap.lookup_eq_none, lookup_foldl_insert hentries, if_neg hnot, Finmap.lookup_empty]
  -- and the others in such an order that one is not read
  have hlost := notMem_parse_of_alternates (hfst'.symm ▸ halternates) hbackslash hfirst
  rw [← parse_textOf (m := ∅) hthrough, ← htext] at hlost
  have hread : ({ map := ∅ } : Reader) = {} := rfl
  rw [hread, ← received_eq, hreceived] at hlost
  exact hlost ((hbads middle).1 hmiddle).1

/-- **A blank name** is received in no order. -/
theorem received_ne_of_blank {k : String} (hk : k ∈ services) (hblank : isTrimmedAway k.toList = true) :
    received services order ≠ services := by
  intro h
  have hlost : k ∉ (({} : Reader).parse (textOf (order.entries services))).finish :=
    notMem_parse_of_blank hblank (Finmap.notMem_empty : k ∉ (∅ : Finmap fun _ : String => Bool))
  rw [← received_eq, h] at hlost
  exact hlost hk

/-- **The services are received**, in whatever order they are written, exactly if each name is one that comes through. -/
theorem received_eq_services_iff (services : Finmap fun _ : String => Bool) :
    (∀ order, received services order = services) ↔ ∀ k ∈ services, ComesThrough k := by
  constructor
  · intro h k hk
    have hblank : ∀ k ∈ services, isTrimmedAway k.toList = false := fun k hk =>
      Bool.eq_false_iff.2 fun hblank => received_ne_of_blank hk hblank (h MapOrder.sorted)
    refine ⟨hblank k hk, fun hlast => ?_⟩
    obtain ⟨order, hne⟩ := exists_received_ne hk hlast hblank
    exact hne (h order)
  · exact fun h order => received_eq_services h

/-- A service whose name ends in a backslash. -/
def backslashService : Finmap fun _ : String => Bool := Finmap.singleton "proxy\\" true

/-- It is received under another name. -/
theorem received_backslashService :
    ¬ ∀ (services : Finmap fun _ : String => Bool), (∀ k ∈ services, isTrimmedAway k.toList = false) →
      ∀ order, received services order = services := by
  intro h
  have hblank : ∀ k ∈ backslashService, isTrimmedAway k.toList = false := by
    intro k hk
    rw [backslashService, Finmap.mem_singleton] at hk
    rw [hk]
    decide
  have hsame := congrArg (Finmap.lookup "proxy\\") (h backslashService hblank MapOrder.sorted)
  revert hsame
  decide +kernel

end ResumeMap

end CoherenceOperator
