import CoherenceOperator.Api.Kubernetes

/-!
# Errors

The requests the operator sends to the API server, the ways in which one of them can fail, and the
errors that the operator makes of that. An error keeps what it was wrapped in, since both
`IsNotFound` and the category of an error look through the wrapping.
-/

namespace CoherenceOperator

/-- What a request asks for. -/
inductive Verb where
  | get | create | update | patch | delete | patchStatus | updateStatus | listPods
  deriving DecidableEq, Repr

/-- A request to the API server. -/
structure ApiCall where
  verb : Verb
  kind : ResourceType
  key : NamespacedName
  deriving DecidableEq, Repr

/-- The reasons for which the API server, or the way to it, fails a request that is in order. -/
inductive Fault where
  | conflict | serverTimeout | timeout | tooManyRequests | serviceUnavailable | internalError | expired
  | other (text : String)
  deriving DecidableEq, Repr

/-- An `error`, or a panic on its way up to the controller that recovers it. -/
inductive GoError where
  | fault (call : ApiCall) (f : Fault)
  | notFound (call : ApiCall)
  | alreadyExists (call : ApiCall)
  | suspension
  | message (text : String)
  | panic (text : String)
  /-- `errors.Wrap`. -/
  | wrap (text : String) (cause : GoError)
  /-- An `OperationError`, with its context in the order in which it is gone through. -/
  | operation (operation resource ns : String) (context : List (String × String)) (cause : GoError)
  deriving DecidableEq, Repr

/-- `apierrors.IsNotFound`. -/
def GoError.isNotFound : GoError → Bool
  | .notFound _ => true
  | .wrap _ cause | .operation _ _ _ _ cause => cause.isNotFound
  | _ => false

/-- Is it a panic, which no error branch of the code sees? -/
def GoError.isPanic : GoError → Bool
  | .panic _ => true
  | _ => false

/-- `runtime error: invalid memory address or nil pointer dereference`. -/
def nilDereference : GoError := .panic "runtime error: invalid memory address or nil pointer dereference"

/-- `runtime error: index out of range [0] with length 0`. -/
def indexOutOfRange : GoError := .panic "runtime error: index out of range [0] with length 0"

end CoherenceOperator
