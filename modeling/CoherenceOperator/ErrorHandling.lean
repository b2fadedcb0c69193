import CoherenceOperator.Api.Status
import CoherenceOperator.Cluster
import CoherenceOperator.Lib.Integers

/-!
# Error handling

What becomes of an error that a reconciler hands to `HandleErrAndRequeue`: it gets a category, is recorded in the
annotations and the status of the resource, and ends in a request that is queued again, or
not. The handler asks the resource for its name, so a resource has to be there.
-/

namespace CoherenceOperator

open Effect Prog Int64Bits

/-- `ErrorCategory`. -/
inductive ErrorCategory where
  | transient | recoverable | permanent | unknown
  deriving DecidableEq, Repr

/-- The text of a fault. -/
def Fault.text : Fault → String
  | .conflict => "the object has been modified; please apply your changes to the latest version and try again"
  | .serverTimeout => "The operation cannot be completed at this time, please try again"
  | .timeout => "Timeout: request did not complete within requested timeout"
  | .tooManyRequests => "the server has received too many requests and has asked us to try again later"
  | .serviceUnavailable => "the server is currently unable to handle the request"
  | .internalError => "Internal error occurred"
  | .expired => "the provided resource version is too old"
  | .other text => text

/-- What an `OperationError` puts before its cause. -/
def operationText (operation resource ns : String) (context : List (String × String)) : String :=
  let msg := s!"operation '{operation}' failed"
  let msg :=
    if resource ≠ "" then
      if ns ≠ "" then msg ++ s!" for resource '{resource}' in namespace '{ns}'"
      else msg ++ s!" for resource '{resource}'"
    else msg
  if context = [] then msg
  else
    let contextStr := ", ".intercalate (context.map fun (k, v) => s!"{k}={v}")
    msg ++ s!" (context: {contextStr})"

/-- `Error()`. -/
def GoError.text : GoError → String
  | .fault _ f => f.text
  | .notFound c => s!"{c.kind.name} \"{c.key.name}\" not found"
  | .alreadyExists c => s!"{c.kind.name} \"{c.key.name}\" already exists"
  | .suspension => "required service suspension failed"
  | .message text | .panic text => text
  | .wrap text cause => text ++ ": " ++ cause.text
  | .operation name resource ns context cause => operationText name resource ns context ++ ": " ++ cause.text

/-- `contains`: is one of the texts in `s`? -/
def contains (s : String) (substrings : List String) : Bool :=
  substrings.any fun t => decide (t.toList <:+: s.toList)

/-- What an error is at its root, `errors.As`. -/
def GoError.cause : GoError → GoError
  | .wrap _ e | .operation _ _ _ _ e => e.cause
  | e => e

/-- The category by the text of the error. -/
def categorizeText (s : String) : ErrorCategory :=
  if contains s ["connection refused", "network is unreachable", "connection reset", "EOF", "broken pipe",
      "etcdserver: leader changed", "etcdserver: request timed out",
      "net/http: TLS handshake timeout", "i/o timeout", "deadline exceeded",
      "the object has been modified", "optimistic concurrency error"] then .transient
  else if contains s ["invalid", "not supported", "forbidden", "unauthorized", "denied"] then .permanent
  else if contains s ["admission webhook", "validation failed"] && contains s ["denied"] then .permanent
  else if contains s ["field is immutable"] then .permanent
  else if contains s ["failed to suspend services"] then .recoverable
  else if contains s ["pod disruption budget"] && contains s ["not available"] then .recoverable
  else if contains s ["cannot patch"] && contains s ["StatefulSet"] then .recoverable
  else if contains s ["cannot create pods"] && contains s ["quota exceeded"] then .recoverable
  else if contains s ["cannot schedule", "unschedulable"] then .recoverable
  else .unknown

/-- `categorizeError`. -/
def categorizeError (e : GoError) : ErrorCategory :=
  match e.cause with
  | .suspension => .recoverable
  | .notFound _ => .transient
  | .fault _ (.other _) => categorizeText e.text
  | .fault _ _ => .transient
  | _ => categorizeText e.text

section Handler

variable (op : Operator) (env : Env)

/-- `Get` the latest version of the resource; not to find it is an error. -/
def getLatest (d : CoherenceResource) : Op CoherenceResource := do
  match ← getResource env d.kind d.key with
  | some latest => return latest
  | none => throw (.notFound ⟨.get, d.kind, d.key⟩)

/-- The resource with other annotations. -/
def updateAnnotations (d : CoherenceResource) (annotations : Labels) : Op Unit :=
  writeMetadata env .update d.kind d.key annotations d.metadata.finalizers

def AnnotationErrorCount : String := "coherence.oracle.com/error-count"

/-- The error count in the annotations, if there is one: an integer of 64 bits. -/
def errorCount (annotations : Labels) : Option ℤ :=
  (annotations.lookup AnnotationErrorCount).bind Int64Bits.atoi

/-- The count with one more error: an integer that wraps around, or the first. -/
def nextCount : Option ℤ → ℤ
  | some n => Int64Bits.wrap (n + 1)
  | none => 1

/-- `updateErrorTracking`. -/
def updateErrorTracking (d : CoherenceResource) (msg : String) : Op Unit := do
  let latest ← getLatest env d
  let annotations := latest.metadata.annotations.set "coherence.oracle.com/last-error" msg
  updateAnnotations env latest (annotations.set AnnotationErrorCount (toString (nextCount (errorCount annotations))))

/-- The condition for an error of this category. -/
def ErrorCategory.condition : ErrorCategory → Condition
  | .transient =>
    { type := .failed, status := .true, reason := "TransientError", message := "Encountered a transient error, will retry" }
  | .recoverable =>
    { type := .failed, status := .true, reason := "RecoverableError"
      message := "Encountered a recoverable error, attempting recovery" }
  | .permanent =>
    { type := .failed, status := .true, reason := "PermanentError"
      message := "Encountered a permanent error, manual intervention required" }
  | .unknown =>
    { type := .failed, status := .true, reason := "UnknownError", message := "Encountered an error of unknown category" }

/-- `updateStatus`. -/
def updateErrorStatus (d : CoherenceResource) (category : ErrorCategory) : Op Unit := do
  let latest ← getLatest env d
  writeStatus env .updateStatus latest.kind latest.key
    (CoherenceResourceStatus.setCondition op env.now latest category.condition).1

/-- `time.Duration(min(5*pow(2, count-1), 300)) * time.Second`, in seconds: the number of seconds and the
duration in nanoseconds are integers of 64 bits. -/
def backoff (count : ℤ) : ℤ :=
  let seconds := min (wrap (5 * pow 2 (wrap (count - 1)))) 300
  wrap (seconds * 1000000000) / 1000000000

/-- `handleTransientError`. -/
def handleTransientError (d : CoherenceResource) : Result :=
  { requeueAfter := (backoff ((errorCount d.metadata.annotations).getD 1)).toNat }

/-- Leave `notes` in the annotations of the latest version and queue the request again. -/
def recordIssue (d : CoherenceResource) (notes : List (String × String)) (delay : ℕ) : Op Result := do
  let latest ← getLatest env d
  updateAnnotations env latest (notes.foldl (fun m (k, v) => m.set k v) latest.metadata.annotations)
  return { requeueAfter := delay }

/-- `recoverFromPDBIssue`. -/
def recoverFromPDBIssue (d : CoherenceResource) : Op Result :=
  recordIssue env d [("coherence.oracle.com/pdb-issue-detected", "true"),
    ("coherence.oracle.com/pdb-issue-time", op.formatTime env.now)] 30

/-- `recoverFromStatefulSetPatchIssue`. -/
def recoverFromStatefulSetPatchIssue (d : CoherenceResource) : Op Result :=
  recordIssue env d [("coherence.oracle.com/force-reconcile", op.formatTime env.now)] 10

/-- `recoverFromQuotaIssue`. -/
def recoverFromQuotaIssue (d : CoherenceResource) : Op Result :=
  recordIssue env d [("coherence.oracle.com/quota-issue-detected", "true"),
    ("coherence.oracle.com/quota-issue-time", op.formatTime env.now)] 120

/-- `recoverFromSchedulingIssue`. -/
def recoverFromSchedulingIssue (d : CoherenceResource) : Op Result :=
  recordIssue env d [("coherence.oracle.com/scheduling-issue-detected", "true"),
    ("coherence.oracle.com/scheduling-issue-time", op.formatTime env.now)] 120

/-- `recoverFromServiceSuspensionFailure`: only a resource that is being deleted may be let go. -/
def recoverFromServiceSuspensionFailure (d : CoherenceResource) : Op Result := do
  let latest ← getLatest env d
  if latest.metadata.deletionTimestamp.isSome then do
    updateAnnotations env latest
      (latest.metadata.annotations.set "coherence.oracle.com/finalizer-bypass" "true")
    return { requeueAfter := 10 }
  else return { requeueAfter := 10 }

/-- The recovery for this error, or a note that there is none. -/
def recoverFrom (e : GoError) (d latest : CoherenceResource) (annotations : Labels) : Op Result :=
  let s := e.text
  if e.cause = .suspension ∨ contains s ["failed to suspend services"] then
    recoverFromServiceSuspensionFailure env d
  else if contains s ["pod disruption budget"] && contains s ["not available"] then
    recoverFromPDBIssue op env d
  else if contains s ["cannot patch"] && contains s ["StatefulSet"] then
    recoverFromStatefulSetPatchIssue op env d
  else if contains s ["cannot create pods"] && contains s ["quota exceeded"] then recoverFromQuotaIssue op env d
  else if contains s ["cannot schedule", "unschedulable"] then recoverFromSchedulingIssue op env d
  else do
    Op.ignoreError (updateAnnotations env latest
      ((annotations.set "coherence.oracle.com/last-unhandled-error" s).set
        "coherence.oracle.com/diagnostic-info"
        s!"No specific recovery mechanism available. Error: {s}, Time: {op.formatTime env.now}"))
    return { requeueAfter := 30 }

/-- Was there an attempt to recover in the last five minutes? -/
def recoveredRecently (annotations : Labels) : Bool :=
  match (annotations.lookup "coherence.oracle.com/last-recovery-attempt").bind op.parseTime with
  | some t => env.now < t + 300
  | none => false

/-- `attemptRecovery`. -/
def attemptRecovery (e : GoError) (d : CoherenceResource) : Op Result := do
  let latest ← getLatest env d
  if recoveredRecently op env latest.metadata.annotations then return { requeueAfter := 60 }
  else do
    let annotations := latest.metadata.annotations.set "coherence.oracle.com/last-recovery-attempt"
      (op.formatTime env.now)
    updateAnnotations env latest annotations
    recoverFrom op env e d latest annotations

/-- `HandleErrAndRequeue`, and the `HandleError` it calls: the result has no error, unless a recovery fails. -/
def handleErrAndRequeue (e : GoError) (deployment : Deployment) : Op Result := do
  let d ← outcome deployment.deref
  Op.ignoreError (updateErrorTracking env d e.text)
  Op.ignoreError (updateErrorStatus op env d (categorizeError e))
  match categorizeError e with
  | .transient => return handleTransientError d
  | .recoverable => attemptRecovery op env e d
  | .permanent => return {}
  | .unknown => return { requeueAfter := 5 }

end Handler

end CoherenceOperator
