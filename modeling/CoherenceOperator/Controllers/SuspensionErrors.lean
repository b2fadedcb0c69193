import CoherenceOperator.Controllers.ProbeActions

/-!
# The text of a failed suspension

`SuspensionError` with the errors that it wraps, which are trees: an error may have causes, and each of them has a text of its own.
What is published is the text of the `SuspensionError`, which looks in the tree for an error that it has words for
(`errors.As`).
-/

namespace CoherenceOperator

/-- What the types of other packages say of an error: is it one of the errors that a transport fails with, and what its method
`Timeout` returns, if it has one. -/
structure ErrorTraits where
  isDeadlineExceeded : Bool := false
  timeout : Option Bool := none
  isUnknownAuthority : Bool := false
  isHostname : Bool := false
  isConnectionRefused : Bool := false
  isOpError : Bool := false
  deriving DecidableEq, Repr

/-- An error with its causes: `RequestError`, `SuspensionCauseError`, `SuspensionError`, or an error of another package. -/
inductive ErrorTree where
  | request (kind : String) (statusCode : ℤ) (cause : Option ErrorTree)
  | suspensionCause (kind podName podPhase : String) (actualPods expectedPods : ℤ) (cause : Option ErrorTree)
  | suspension (cause : Option ErrorTree)
  | foreign (text : String) (traits : ErrorTraits) (causes : List ErrorTree)

namespace ErrorTree

mutual

/-- The error and the errors that it wraps, in the order of `errors.Is` and `errors.As`. -/
def nodes : ErrorTree → List ErrorTree
  | request kind statusCode none => [request kind statusCode none]
  | request kind statusCode (some cause) => request kind statusCode (some cause) :: cause.nodes
  | suspensionCause kind podName podPhase actualPods expectedPods none =>
    [suspensionCause kind podName podPhase actualPods expectedPods none]
  | suspensionCause kind podName podPhase actualPods expectedPods (some cause) =>
    suspensionCause kind podName podPhase actualPods expectedPods (some cause) :: cause.nodes
  | suspension none => [suspension none]
  | suspension (some cause) => suspension (some cause) :: cause.nodes
  | foreign text traits causes => foreign text traits causes :: nodesOf causes

/-- The errors of several causes. -/
def nodesOf : List ErrorTree → List ErrorTree
  | [] => []
  | e :: es => e.nodes ++ nodesOf es

end

/-- What the type of the error says. -/
def traits : ErrorTree → ErrorTraits
  | foreign _ traits _ => traits
  | _ => {}

/-- `errors.Is`, for what the type of an error says. -/
def is (f : ErrorTraits → Bool) (e : ErrorTree) : Bool := e.nodes.any fun x => f x.traits

/-- `errors.As`. -/
def as {α : Type} (f : ErrorTree → Option α) (e : ErrorTree) : Option α := e.nodes.findSome? f

/-- `transportDiagnostic`, for a cause that is there. -/
def transportDiagnostic (e : ErrorTree) : String :=
  if e.is (·.isDeadlineExceeded) then "transport timeout"
  else if e.as (·.traits.timeout) = some true then "transport timeout"
  else if e.is (·.isUnknownAuthority) then "TLS certificate signed by an unknown or untrusted CA"
  else if e.is (·.isHostname) then "TLS certificate hostname mismatch"
  else if e.is (·.isConnectionRefused) then "connection refused"
  else if e.is (·.isOpError) then "transport failure"
  else "transport or TLS failure"

/-- The kinds of a `RequestError` that are told as they are. -/
def controlledKinds : List String :=
  ["Secret client unavailable", "Secret unavailable", "Secret key missing or empty",
   "port configuration", "endpoint configuration", "request configuration",
   "invalid CA bundle", "invalid Basic username", "rejected response", "uncertain response",
   "unknown active Pod connection", "invalid active Pod connection",
   "managed security requires the generated suspend action", "missing active Pod connection",
   "unsupported action"]

/-- `RequestError.diagnostic`. -/
def diagnostic (kind : String) (cause : Option ErrorTree) : String :=
  if kind = "transport timeout" then "transport timeout"
  else if kind = "transport" ∨ kind = "transport or TLS" then
    (cause.map transportDiagnostic).getD "transport or TLS failure"
  else if kind = "configuration" then "configuration validation failure"
  else if kind ∈ controlledKinds then kind
  else "request failure"

/-- `RequestError.Error`. -/
def requestText (kind : String) (statusCode : ℤ) (cause : Option ErrorTree) : String :=
  if statusCode ≠ 0 then s!"HTTP probe rejected: status {statusCode}"
  else "HTTP probe failed: " ++ diagnostic kind cause

/-- The phases of a Pod that are told as they are. -/
def podPhases : List String := ["Pending", "Running", "Succeeded", "Failed", "Unknown", "Terminating"]

/-- `safePodPhase`. -/
def safePodPhase (phase : String) : String := if phase ∈ podPhases then phase else "unknown state"

/-- `SuspensionCauseError.Error`. -/
def suspensionCauseText (kind podName podPhase : String) (actualPods expectedPods : ℤ) : String :=
  if kind = "PodNotReady" then s!"probe precondition failed: Pod {podName} is not ready ({safePodPhase podPhase})"
  else if kind = "PodCountMismatch" then s!"probe precondition failed: found {actualPods} Pods, expected {expectedPods}"
  else if kind = "ProbeUnavailable" then "probe precondition failed: no running Pod could execute the probe"
  else if kind = "WorkloadLookupFailed" then "workload state lookup failed"
  else "suspension failure"

/-- The text of a `RequestError`. -/
def asRequest : ErrorTree → Option String
  | request kind statusCode cause => some (requestText kind statusCode cause)
  | _ => none

/-- The text of a `SuspensionCauseError`. -/
def asSuspensionCause : ErrorTree → Option String
  | suspensionCause kind podName podPhase actualPods expectedPods _ =>
    some (suspensionCauseText kind podName podPhase actualPods expectedPods)
  | _ => none

/-- `SuspensionError.Error`. -/
def suspensionText : Option ErrorTree → String
  | none => "required service suspension failed"
  | some cause =>
    match cause.as asRequest with
    | some text => "required service suspension failed: " ++ text
    | none =>
      match cause.as asSuspensionCause with
      | some text => "required service suspension failed: " ++ text
      | none => "required service suspension failed: suspension failure"

/-- The text of an error. -/
def error : ErrorTree → String
  | request kind statusCode cause => requestText kind statusCode cause
  | suspensionCause kind podName podPhase actualPods expectedPods _ =>
    suspensionCauseText kind podName podPhase actualPods expectedPods
  | suspension cause => suspensionText cause
  | foreign text _ _ => text

end ErrorTree

/-- Is it an error of another package? -/
def ErrorTree.isForeign : ErrorTree → Bool
  | foreign _ _ _ => true
  | _ => false

/-- The error is the one of the model, with causes; errors of other packages wrap none of this one. -/
inductive ProbeError.IsError : ProbeError → ErrorTree → Prop
  | request {kind statusCode cause} : IsError (.request kind statusCode) (.request kind (statusCode.getD 0) cause)
  | podNotReady {pod phase} : IsError (.podNotReady pod phase) (.suspensionCause "PodNotReady" pod phase 0 0 none)
  | podCountMismatch {actual expected} :
      IsError (.podCountMismatch actual expected) (.suspensionCause "PodCountMismatch" "" "" actual expected none)
  | probeUnavailable : IsError .probeUnavailable (.suspensionCause "ProbeUnavailable" "" "" 0 0 none)
  | workloadLookupFailed {cause : ErrorTree} : cause.nodes.all (·.isForeign) = true →
      IsError .workloadLookupFailed (.suspensionCause "WorkloadLookupFailed" "" "" 0 0 (some cause))
  | other {text traits causes} : (ErrorTree.nodesOf causes).all (·.isForeign) = true →
      IsError (.other text) (.foreign text traits causes)

end CoherenceOperator
