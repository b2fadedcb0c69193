import CoherenceOperator.Api.Ranges

/-!
# The services that a member resumes

The services to resume come to a member as a text: the operator has put it into the environment of the container, the runner
makes a system property of it, and `getResumeMap` reads it, one character after the other.
-/

namespace CoherenceOperator

open Effect

namespace ResumeMap

/-- The quotation mark. -/
def quote : Char := Char.ofNat 34

def backslash : Char := Char.ofNat 92

/-- `s.trim().isEmpty()`: are there none but spaces and control characters? -/
def isTrimmedAway (s : List Char) : Bool := s.all fun c => c ≤ ' '

/-- `Boolean.parseBoolean`. -/
def parseBoolean (s : List Char) : Bool := s.map Char.toLower = "true".toList

/-- The variables of the loop of `getResumeMap`; is the builder that of the name? -/
structure Reader where
  serviceName : List Char := []
  enabled : List Char := []
  inName : Bool := true
  inQuotes : Bool := false
  map : Finmap fun _ : String => Bool := ∅

namespace Reader

/-- `builder.append(ch)`. -/
def append (p : Reader) (ch : Char) : Reader :=
  if p.inName then { p with serviceName := p.serviceName ++ [ch] } else { p with enabled := p.enabled ++ [ch] }

/-- `map.put`, unless the name is blank. -/
def put (p : Reader) : Finmap fun _ : String => Bool :=
  if isTrimmedAway p.serviceName then p.map else p.map.insert (String.ofList p.serviceName) (parseBoolean p.enabled)

/-- One character, if it is no backslash before a quotation mark. -/
def step (p : Reader) (ch : Char) : Reader :=
  if ch = quote then { p with inQuotes := !p.inQuotes }
  else if ch = '=' ∧ p.inQuotes = false then { p with inName := false }
  else if ch = ',' ∧ p.inQuotes = false then { map := p.put }
  else p.append ch

/-- The loop: of a backslash before a quotation mark the mark is taken as it is. -/
def parse (p : Reader) : List Char → Reader
  | [] => p
  | [ch] => p.step ch
  | ch :: next :: chs =>
    if ch = backslash ∧ next = quote then parse (p.append quote) chs else parse (p.step ch) (next :: chs)

/-- What is read at the end. -/
def finish (p : Reader) : Finmap fun _ : String => Bool := if p.serviceName = [] then p.map else p.put

end Reader

/-- `new String(Base64.getDecoder().decode(s))`, for a text that was encoded. -/
def decodeBase64 (s : List Char) : Option (List Char) :=
  let bytes := Base64.decode s
  if Base64.encode bytes = s then (String.fromUTF8? ⟨⟨bytes⟩⟩).map String.toList else none

/-- `String.trim`. -/
def trim (s : List Char) : List Char := ((s.dropWhile (· ≤ ' ')).reverse.dropWhile (· ≤ ' ')).reverse

/-- What is behind `base64:`, if the text starts with it. -/
def afterBase64 (s : List Char) : Option (List Char) :=
  if "base64:".toList.isPrefixOf s then some (s.drop 7) else none

/-- `getResumeMap`: there is none for an empty text, or for one that cannot be decoded. -/
def getResumeMap (services : Option String) : Option (Finmap fun _ : String => Bool) := do
  let services := trim (← services).toList
  if services = [] then none
  else
    let text ← match afterBase64 services with
      | some encoded => decodeBase64 encoded
      | none => some services
    return (({} : Reader).parse text).finish

end ResumeMap

/-- The runner's part: the system property for the value of the environment variable. -/
def resumeServicesProperty (svc : String) : Option String := if svc ≠ "" then some ("base64:" ++ svc) else none

end CoherenceOperator
