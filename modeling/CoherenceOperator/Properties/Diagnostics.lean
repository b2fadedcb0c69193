import CoherenceOperator.Controllers.SuspensionErrors

/-!
# What the text of a failed suspension reveals

The text of a `SuspensionError` is a function of what the errors in it are (`ErrorTree.carried`): their kinds, the status of a
response, in which way a transport failed, the Pod and its phase, and numbers of Pods. The texts of other errors are not part of
it.
-/

namespace CoherenceOperator

namespace ErrorTree

/-- In which way a transport failed. -/
inductive TransportClass where
  | timeout | unknownAuthority | hostname | refused | failure | other
  deriving DecidableEq, Repr

/-- The class of a cause. -/
def classOf (e : ErrorTree) : TransportClass :=
  if e.is (·.isDeadlineExceeded) ∨ e.as (·.traits.timeout) = some true then .timeout
  else if e.is (·.isUnknownAuthority) then .unknownAuthority
  else if e.is (·.isHostname) then .hostname
  else if e.is (·.isConnectionRefused) then .refused
  else if e.is (·.isOpError) then .failure
  else .other

/-- The class of a cause, if there is one. -/
def transportClass (cause : Option ErrorTree) : TransportClass := (cause.map classOf).getD .other

/-- The words for a class. -/
def TransportClass.text : TransportClass → String
  | timeout => "transport timeout"
  | unknownAuthority => "TLS certificate signed by an unknown or untrusted CA"
  | hostname => "TLS certificate hostname mismatch"
  | refused => "connection refused"
  | failure => "transport failure"
  | other => "transport or TLS failure"

/-- The phase of a Pod, if it is one of those that are known. -/
def podPhaseClass (phase : String) : Option String := if phase ∈ podPhases then some phase else none

/-- What an error carries that is told. -/
inductive Carried where
  | request (kind : String) (statusCode : ℤ) (transport : TransportClass)
  | suspensionCause (kind podName : String) (podPhase : Option String) (actualPods expectedPods : ℤ)
  deriving DecidableEq, Repr

/-- What an error carries by itself. -/
def carries : ErrorTree → Option Carried
  | request kind statusCode cause => some (.request kind statusCode (transportClass cause))
  | suspensionCause kind podName podPhase actualPods expectedPods _ =>
    some (.suspensionCause kind podName (podPhaseClass podPhase) actualPods expectedPods)
  | _ => none

/-- What the errors of a tree carry. -/
def carried (e : ErrorTree) : List Carried := e.nodes.filterMap carries

/-! ### The words for what is carried -/

/-- `diagnostic`, for a class. -/
def diagnosticFor (kind : String) (transport : TransportClass) : String :=
  if kind = "transport timeout" then "transport timeout"
  else if kind = "transport" ∨ kind = "transport or TLS" then transport.text
  else if kind = "configuration" then "configuration validation failure"
  else if kind ∈ controlledKinds then kind
  else "request failure"

/-- The text for a `RequestError`. -/
def requestTextFor (kind : String) (statusCode : ℤ) (transport : TransportClass) : String :=
  if statusCode ≠ 0 then s!"HTTP probe rejected: status {statusCode}"
  else "HTTP probe failed: " ++ diagnosticFor kind transport

/-- The text for a `SuspensionCauseError`. -/
def suspensionCauseTextFor (kind podName : String) (podPhase : Option String) (actualPods expectedPods : ℤ) : String :=
  suspensionCauseText kind podName (podPhase.getD "unknown state") actualPods expectedPods

/-- The text for what is carried, if it is by a `RequestError`. -/
def Carried.textOfRequest : Carried → Option String
  | request kind statusCode transport => some (requestTextFor kind statusCode transport)
  | suspensionCause _ _ _ _ _ => none

/-- The text for what is carried, if it is by a `SuspensionCauseError`. -/
def Carried.textOfSuspensionCause : Carried → Option String
  | request _ _ _ => none
  | suspensionCause kind podName podPhase actualPods expectedPods =>
    some (suspensionCauseTextFor kind podName podPhase actualPods expectedPods)

/-- The text that is published for what is carried. -/
def published (cs : List Carried) : String :=
  match cs.findSome? Carried.textOfRequest with
  | some text => "required service suspension failed: " ++ text
  | none =>
    match cs.findSome? Carried.textOfSuspensionCause with
    | some text => "required service suspension failed: " ++ text
    | none => "required service suspension failed: suspension failure"

variable {kind podName phase : String} {statusCode actual expected : ℤ} {e t t' : ErrorTree} {cause : Option ErrorTree}

theorem transportDiagnostic_eq : transportDiagnostic e = (classOf e).text := by
  rw [transportDiagnostic, classOf]
  by_cases hdeadline : e.is (·.isDeadlineExceeded) = true
  · rw [if_pos hdeadline, if_pos (.inl hdeadline)]
    rfl
  rw [if_neg hdeadline]
  by_cases htimeout : e.as (·.traits.timeout) = some true
  · rw [if_pos htimeout, if_pos (.inr htimeout)]
    rfl
  rw [if_neg htimeout, if_neg (not_or.2 ⟨hdeadline, htimeout⟩)]
  -- the other tests are made in the same order
  repeat
    split
    · rfl
  rfl

theorem diagnostic_eq : diagnostic kind cause = diagnosticFor kind (transportClass cause) := by
  rw [diagnostic, diagnosticFor, transportClass]
  cases cause with
  | none => rfl
  | some e => simp only [Option.map_some, Option.getD_some, transportDiagnostic_eq]

theorem requestText_eq : requestText kind statusCode cause = requestTextFor kind statusCode (transportClass cause) := by
  rw [requestText, requestTextFor, diagnostic_eq]

theorem suspensionCauseText_eq : suspensionCauseText kind podName phase actual expected =
    suspensionCauseTextFor kind podName (podPhaseClass phase) actual expected := by
  have hphase : safePodPhase ((podPhaseClass phase).getD "unknown state") = safePodPhase phase := by
    rw [podPhaseClass, safePodPhase, safePodPhase]
    by_cases h : phase ∈ podPhases
    · simp [h]
    · simp [h]
  rw [suspensionCauseTextFor, suspensionCauseText, suspensionCauseText, hphase]

/-! ### Two trees -/

/-- Looking for something in what is left of a list. -/
theorem findSome?_filterMap {α β γ : Type} (f : α → Option β) (g : β → Option γ) (l : List α) :
    (l.filterMap f).findSome? g = l.findSome? fun x => (f x).bind g := by
  induction l with
  | nil => rfl
  | cons x l ih =>
    rw [List.findSome?_cons]
    cases hx : f x with
    | none => rw [List.filterMap_cons_none hx, ih, Option.bind_none]
    | some y => rw [List.filterMap_cons_some hx, List.findSome?_cons, ih, Option.bind_some]

theorem asRequest_eq (e : ErrorTree) : e.asRequest = e.carries.bind Carried.textOfRequest := by
  cases e with
  | request kind statusCode cause => rw [asRequest, requestText_eq]; rfl
  | suspensionCause kind podName podPhase actualPods expectedPods cause => rfl
  | suspension cause => rfl
  | foreign text traits causes => rfl

theorem asSuspensionCause_eq (e : ErrorTree) : e.asSuspensionCause = e.carries.bind Carried.textOfSuspensionCause := by
  cases e with
  | request kind statusCode cause => rfl
  | suspensionCause kind podName podPhase actualPods expectedPods cause => rw [asSuspensionCause, suspensionCauseText_eq]; rfl
  | suspension cause => rfl
  | foreign text traits causes => rfl

/-- **What is published** is the text for what is carried. -/
theorem suspensionText_eq (e : ErrorTree) : suspensionText (some e) = published e.carried := by
  have hrequest : e.as asRequest = e.carried.findSome? Carried.textOfRequest := by
    rw [as, carried, findSome?_filterMap, funext asRequest_eq]
  have hcause : e.as asSuspensionCause = e.carried.findSome? Carried.textOfSuspensionCause := by
    rw [as, carried, findSome?_filterMap, funext asSuspensionCause_eq]
  rw [suspensionText, hrequest, hcause]
  rfl

/-- Errors of other packages carry nothing. -/
theorem filterMap_carries_eq_nil {es : List ErrorTree} (h : es.all (·.isForeign) = true) : es.filterMap carries = [] := by
  rw [List.filterMap_eq_nil_iff]
  intro e he
  have hforeign := List.all_eq_true.1 h e he
  cases e with
  | foreign text traits causes => rfl
  | request kind statusCode cause => cases hforeign
  | suspensionCause kind podName podPhase actualPods expectedPods cause => cases hforeign
  | suspension cause => cases hforeign

/-- In which way the transport failed, if the error is of a request. -/
def transport : ErrorTree → TransportClass
  | request _ _ cause => transportClass cause
  | _ => .other

/-- The text of a `RequestError` in a `SuspensionError` is that of the outermost one. -/
theorem suspensionText_request (kind : String) (statusCode : ℤ) (cause : Option ErrorTree) :
    suspensionText (some (request kind statusCode cause)) =
      "required service suspension failed: " ++ requestTextFor kind statusCode (transportClass cause) := by
  have hhead : ∃ rest, (request kind statusCode cause).carried = .request kind statusCode (transportClass cause) :: rest := by
    cases cause with
    | none => exact ⟨[], rfl⟩
    | some e => exact ⟨e.carried, rfl⟩
  obtain ⟨rest, hrest⟩ := hhead
  rw [suspensionText_eq, hrest]
  rfl

/-- **What the model says of an error is enough** for its text, with the class of the transport's failure. -/
theorem suspensionText_of_isError {err : ProbeError} (h : err.IsError t) (h' : err.IsError t') (hclass : t.transport = t'.transport) :
    suspensionText (some t) = suspensionText (some t') := by
  cases h with
  | request =>
    cases h'
    rw [suspensionText_request, suspensionText_request]
    exact congrArg _ (congrArg _ hclass)
  | podNotReady =>
    cases h'
    rfl
  | podCountMismatch =>
    cases h'
    rfl
  | probeUnavailable =>
    cases h'
    rfl
  | workloadLookupFailed hforeign =>
    obtain ⟨⟩ | ⟨⟩ | ⟨⟩ | ⟨⟩ | ⟨hforeign'⟩ := h'
    rename_i cause cause'
    have hcarried : ∀ {c : ErrorTree}, c.nodes.all (·.isForeign) = true →
        (suspensionCause "WorkloadLookupFailed" "" "" 0 0 (some c)).carried =
          [.suspensionCause "WorkloadLookupFailed" "" (podPhaseClass "") 0 0] := by
      intro c hc
      show _ :: c.nodes.filterMap carries = _
      rw [filterMap_carries_eq_nil hc]
    rw [suspensionText_eq, suspensionText_eq, hcarried hforeign, hcarried hforeign']
  | other hforeign =>
    obtain ⟨⟩ | ⟨⟩ | ⟨⟩ | ⟨⟩ | ⟨⟩ | ⟨hforeign'⟩ := h'
    have hcarried : ∀ {text : String} {traits : ErrorTraits} {causes : List ErrorTree},
        (nodesOf causes).all (·.isForeign) = true → (foreign text traits causes).carried = [] := fun hc =>
      filterMap_carries_eq_nil hc
    rw [suspensionText_eq, suspensionText_eq, hcarried hforeign, hcarried hforeign']

/-- **Suspension diagnostics reveal nothing.** The text of a `SuspensionError` is the same for any two errors that carry the same,
and that of a `RequestError` for any two causes of the same class: both are functions of the classification. -/
theorem diagnostics_reveal_nothing :
    (∀ e e' : ErrorTree, e.carried = e'.carried → (suspension (some e)).error = (suspension (some e')).error) ∧
      (∀ kind statusCode cause cause', transportClass cause = transportClass cause' →
        (request kind statusCode cause).error = (request kind statusCode cause').error) ∧
      (∃ publish : List Carried → String, ∀ e, (suspension (some e)).error = publish e.carried) ∧
      ∃ publish : String → ℤ → TransportClass → String, ∀ kind statusCode cause,
        (request kind statusCode cause).error = publish kind statusCode (transportClass cause) := by
  refine ⟨?_, ?_, ⟨published, suspensionText_eq⟩, ⟨requestTextFor, fun _ _ _ => requestText_eq⟩⟩
  · intro e e' h
    show suspensionText (some e) = suspensionText (some e')
    rw [suspensionText_eq, suspensionText_eq, h]
  · intro kind statusCode cause cause' h
    show requestText kind statusCode cause = requestText kind statusCode cause'
    rw [requestText_eq, requestText_eq, h]

/-- A Secret that could not be read, and why. -/
def unreadable (why : String) : ErrorTree := request "Secret unavailable" 0 (some (foreign why {} []))

theorem diagnostics_reveal_nothing_unreadable :
    (unreadable "password=hunter2").carried = (unreadable "not found").carried ∧
      (suspension (some (unreadable "password=hunter2"))).error = (suspension (some (unreadable "not found"))).error ∧
      (request "transport" 0 (some (unreadable "10.0.0.7"))).error = (request "transport" 0 none).error :=
  ⟨rfl, diagnostics_reveal_nothing.1 _ _ rfl, diagnostics_reveal_nothing.2.1 _ _ _ _ rfl⟩

end ErrorTree

end CoherenceOperator
