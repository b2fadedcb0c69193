import Mathlib.Data.List.TakeWhile
import Mathlib.Tactic.Common

/-!
# URLs

A URL as its text is taken apart: the scheme, the user information and the host of its authority, the path, the query and
the fragment. The parts are kept as they are written, after it has been checked that they can be decoded.

* `parse` takes a text apart;
* `hostOf`: the host of what stands in the place of an authority. What comes behind the first `/` after it has no part in
  it (`host_parse_https`), and a plain host is the host (`hostOf_of_plain`).
-/

namespace Url

/-- A URL. -/
structure URL where
  scheme : List Char := []
  opaquePart : List Char := []
  user : Option (List Char) := none
  host : List Char := []
  path : List Char := []
  query : Option (List Char) := none
  fragment : Option (List Char) := none
  deriving DecidableEq, Repr

/-- What comes before the first `c`, and what comes behind it, if there is one. -/
def cut (c : Char) : List Char → List Char × Option (List Char)
  | [] => ([], none)
  | x :: xs => if x = c then ([], some xs) else ((x :: (cut c xs).1), (cut c xs).2)

/-- What comes before the last `c`, if there is one, and what comes behind it. -/
def cutLast (c : Char) (s : List Char) : Option (List Char) × List Char :=
  match cut c s.reverse with
  | (behind, some before) => (some before.reverse, behind.reverse)
  | (_, none) => (none, s)

def isLetter (c : Char) : Bool := c.isAlpha

def isHex (c : Char) : Bool := c.isDigit || ('a' ≤ c && c ≤ 'f') || ('A' ≤ c && c ≤ 'F')

/-- A control character. -/
def isControl (c : Char) : Bool := c.toNat < 32 || c.toNat == 127

/-- Can the text be decoded: is each `%` followed by two digits that `ok` allows? -/
def decodes (ok : Char → Char → Bool) : List Char → Bool
  | [] => true
  | '%' :: a :: b :: s => isHex a && isHex b && ok a b && decodes ok s
  | '%' :: _ => false
  | _ :: s => decodes ok s

/-- The characters of a host, besides letters and digits, that stand for themselves. -/
def hostMarks : List Char := Char.ofNat 34 :: Char.ofNat 39 :: "-_.~!$&()*+,;=:[]<>%".toList

/-- Is it made of what a host is made of? -/
def hostChars (s : List Char) : Bool := s.all fun c => c.toNat ≥ 128 || c.isAlphanum || c ∈ hostMarks

/-- In a host only bytes that are not ASCII are encoded. -/
def hostEscape (a b : Char) : Bool := a.isAlpha || a == '8' || a == '9' || (a == '2' && b == '5')

/-- An empty port, or digits behind a colon. -/
def validOptionalPort : List Char → Bool
  | [] => true
  | c :: s => c == ':' && s.all Char.isDigit

/-- The host, with its port, as far as it is an address. -/
def validHost (s : List Char) : Bool :=
  match s with
  | '[' :: _ =>
    match cutLast ']' s with
    | (some inside, port) => validOptionalPort port && hostChars inside && decodes (fun _ _ => true) inside
    | (none, _) => false
  | _ =>
    (match cutLast ':' s with
      | (some _, port) => port.all Char.isDigit
      | (none, _) => true) && hostChars s && decodes hostEscape s

/-- The characters of user information, besides letters and digits. -/
def userMarks : List Char := Char.ofNat 39 :: "-._:~!$&()*+,;=%@".toList

def validUser (s : List Char) : Bool := s.all (fun c => c.isAlphanum || c ∈ userMarks) && decodes (fun _ _ => true) s

/-- The scheme, if there is one, and what comes behind it. -/
def getScheme (s : List Char) : Except String (List Char × List Char) :=
  let isPart := fun c : Char => c.isAlphanum || c == '+' || c == '-' || c == '.'
  match s.dropWhile isPart with
  | ':' :: rest =>
    match s.takeWhile isPart with
    | [] => .error "missing protocol scheme"
    | c :: cs => if isLetter c then .ok ((c :: cs).map Char.toLower, rest) else .ok ([], s)
  | _ => .ok ([], s)

/-- The authority in front of the first `/`. -/
def parseAuthority (u : URL) (s : List Char) : Except String URL :=
  let (user, host) := cutLast '@' s
  if !validHost host then .error "invalid host"
  else if user.any fun user => !validUser user then .error "net/url: invalid userinfo"
  else .ok { u with user, host }

/-- What comes behind the scheme, without the query. -/
def parseRest (u : URL) (rest : List Char) : Except String URL :=
  let relative := u.scheme = []
  match rest with
  | '/' :: '/' :: s =>
    if relative && s.head? == some '/' then .ok { u with path := rest }
    else
      match cut '/' s with
      | (authority, path) => do
        let u ← parseAuthority u authority
        return { u with path := (path.map ('/' :: ·)).getD [] }
  | '/' :: _ => .ok { u with path := rest }
  | _ =>
    if !relative then .ok { u with opaquePart := rest }
    else if ':' ∈ (cut '/' rest).1 then .error "first path segment in URL cannot contain colon"
    else .ok { u with path := rest }

/-- `url.Parse`. -/
def parse (text : List Char) : Except String URL := do
  let (text, fragment) := cut '#' text
  if text.any isControl then throw "net/url: invalid control character in URL"
  let (scheme, rest) ← getScheme text
  let (rest, query) := cut '?' rest
  let u ← parseRest { scheme, query, fragment } rest
  if decodes (fun _ _ => true) u.path && decodes (fun _ _ => true) (fragment.getD []) then return u
  else throw "invalid URL escape"

/-- `net.JoinHostPort`. -/
def joinHostPort (host port : List Char) : List Char :=
  if ':' ∈ host then '[' :: host ++ ']' :: ':' :: port else host ++ ':' :: port

/-! ### The host that a text is for -/

/-- The authority of a text that stands in the place of one: where it ends is said by the first delimiter. -/
def authorityOf (s : List Char) : List Char := s.takeWhile fun c => c ≠ '/' ∧ c ≠ '?' ∧ c ≠ '#'

/-- The host of a text that stands in the place of an authority. -/
def hostOf (s : List Char) : List Char := (cutLast '@' (authorityOf s)).2

theorem cut_fst (c : Char) (s : List Char) : (cut c s).1 = s.takeWhile (· ≠ c) := by
  induction s with
  | nil => rfl
  | cons x xs ih =>
    rw [cut, List.takeWhile_cons]
    by_cases h : x = c
    · simp [h]
    · simp [h, ih]

theorem cut_of_notMem {c : Char} {s : List Char} (h : c ∉ s) : cut c s = (s, none) := by
  induction s with
  | nil => rfl
  | cons x xs ih =>
    have hx : x ≠ c := fun hx => h (hx ▸ List.mem_cons_self)
    rw [cut, if_neg hx, ih fun hc => h (List.mem_cons_of_mem _ hc)]

/-- What comes behind the authority does not belong to it. -/
theorem authorityOf_append_slash (s path : List Char) : authorityOf (s ++ '/' :: path) = authorityOf s := by
  rw [authorityOf, authorityOf, List.takeWhile_append]
  split
  · rename_i hall
    simp only [List.takeWhile_cons]
    have hs : s.takeWhile (fun c => decide (c ≠ '/' ∧ c ≠ '?' ∧ c ≠ '#')) = s :=
      (List.takeWhile_prefix _).eq_of_length hall
    rw [hs]
    simp
  · rfl

/-- The host of plain characters is all of it. -/
theorem hostOf_of_plain {s : List Char} (h : ∀ c ∈ s, c ≠ '/' ∧ c ≠ '?' ∧ c ≠ '#' ∧ c ≠ '@') : hostOf s = s := by
  have hauthority : authorityOf s = s :=
    List.takeWhile_eq_self_iff.2 fun c hc => by simpa using ⟨(h c hc).1, (h c hc).2.1, (h c hc).2.2.1⟩
  have huser : '@' ∉ s.reverse := fun hc => (h '@' (List.mem_reverse.1 hc)).2.2.2 rfl
  rw [hostOf, hauthority, cutLast, cut_of_notMem huser]

theorem host_parseAuthority {u v : URL} {s : List Char} (h : parseAuthority u s = .ok v) :
    v.host = (cutLast '@' s).2 ∧ v.scheme = u.scheme := by
  unfold parseAuthority at h
  split at h
  split at h
  · cases h
  split at h
  · cases h
  cases h
  rename_i hs _ _
  rw [hs]
  exact ⟨rfl, rfl⟩

theorem host_parseRest {u v : URL} {s : List Char} (hu : u.scheme ≠ []) (h : parseRest u ('/' :: '/' :: s) = .ok v) :
    v.host = (cutLast '@' (cut '/' s).1).2 ∧ v.scheme = u.scheme := by
  simp only [parseRest, hu, decide_false, Bool.false_and, Bool.false_eq_true, if_false, bind, Except.bind] at h
  cases ha : parseAuthority u (cut '/' s).1 with
  | error e =>
    rw [ha] at h
    cases h
  | ok w =>
    obtain ⟨hhost, hscheme⟩ := host_parseAuthority ha
    rw [ha] at h
    cases h
    exact ⟨hhost, hscheme⟩

/-- **The host** of a text with the scheme `HTTPS` is that of what stands in the place of the authority. -/
theorem host_parse_https {s path : List Char} {u : URL} (h : parse ("HTTPS://".toList ++ s ++ '/' :: path) = .ok u) :
    u.scheme = "https".toList ∧ u.host = hostOf s := by
  have hfragment : cut '#' ("HTTPS://".toList ++ s ++ '/' :: path) =
      ("HTTPS://".toList ++ (cut '#' (s ++ '/' :: path)).1, (cut '#' (s ++ '/' :: path)).2) := by
    simp [cut]
  have hscheme : ∀ rest, getScheme ("HTTPS://".toList ++ rest) = .ok ("https".toList, '/' :: '/' :: rest) := by
    intro rest
    simp [getScheme, isLetter]
  have hquery : ∀ rest, cut '?' ('/' :: '/' :: rest) = ('/' :: '/' :: (cut '?' rest).1, (cut '?' rest).2) := by
    intro rest
    simp [cut]
  have hauthority : (cut '/' (cut '?' (cut '#' (s ++ '/' :: path)).1).1).1 = authorityOf s := by
    rw [cut_fst, cut_fst, cut_fst, List.takeWhile_takeWhile, List.takeWhile_takeWhile, ← authorityOf_append_slash s path, authorityOf]
    congr 1
    funext c
    simp [and_assoc]
  rw [parse, hfragment] at h
  simp only [hscheme] at h
  split at h
  · cases h
  simp only [bind, Except.bind, hquery] at h
  generalize hrest : parseRest _ _ = rest at h
  cases rest with
  | error e => cases h
  | ok v =>
    have hne : "https".toList ≠ [] := by decide
    obtain ⟨hhost, hscheme⟩ := host_parseRest hne hrest
    rw [hauthority] at hhost
    have hv : v = u := by
      simp only at h
      split at h
      · cases h
        rfl
      · cases h
    rw [← hv]
    exact ⟨hscheme, hhost⟩

end Url
