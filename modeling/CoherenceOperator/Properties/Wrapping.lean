import CoherenceOperator.ErrorHandling
import CoherenceOperator.Lib.TextRules

/-!
# What wrapping does to the category of an error

An error of the API server and a failed suspension keep their category however they are wrapped. The category of any other error is
looked for in its text, and wrapping puts names, context and messages before that text. So the category stays exactly if
nothing of what is put before completes a rule of a category that is looked for earlier (`categorizeError_wrapped_iff`); a namespace
such as `denied` is enough to make an error permanent.
-/

namespace CoherenceOperator

open TextRules

/-! ### Wrapping -/

/-- `WrapError`, and `WrapErrorf` with the message that its format makes. -/
def wrapError (e : GoError) (message : String) : GoError := .wrap message e

/-- `NewOperationError`. -/
def newOperationError (operation : String) (e : GoError) : GoError := .operation operation "" "" [] e

/-- `NewResourceError`. -/
def newResourceError (operation resource ns : String) (e : GoError) : GoError := .operation operation resource ns [] e

/-- `m[key] = value`. -/
def setEntry (key value : String) : List (String × String) → List (String × String)
  | [] => [(key, value)]
  | (k, v) :: m => if k = key then (key, value) :: m else (k, v) :: setEntry key value m

/-- `WithContext`, a method of an `OperationError`. -/
def GoError.withContext (key value : String) : GoError → GoError
  | .operation name resource ns context cause => .operation name resource ns (setEntry key value context) cause
  | e => e

/-- What one wrapping puts before the text of an error. -/
inductive Layer where
  | message (text : String)
  | operation (operation resource ns : String) (context : List (String × String))

/-- The text that is put before. -/
def Layer.text : Layer → String
  | message text => text ++ ": "
  | operation name resource ns context => operationText name resource ns context ++ ": "

/-- All that is put before, the last layer first. -/
def added (layers : List Layer) : List Char := layers.flatMap fun l => l.text.toList

/-- **An error that is made of `e`** by the wrapping functions, with what they put before it. The context is a map, which the
text goes through in any order. -/
inductive Wrapped (e : GoError) : List Layer → GoError → Prop where
  | original : Wrapped e [] e
  | wrapError (message : String) {layers : List Layer} {e' : GoError} :
    Wrapped e layers e' → Wrapped e (.message message :: layers) (wrapError e' message)
  | newOperationError (operation : String) {layers : List Layer} {e' : GoError} :
    Wrapped e layers e' → Wrapped e (.operation operation "" "" [] :: layers) (newOperationError operation e')
  | newResourceError (operation resource ns : String) {layers : List Layer} {e' : GoError} :
    Wrapped e layers e' → Wrapped e (.operation operation resource ns [] :: layers) (newResourceError operation resource ns e')
  | withContext (key value : String) {layers : List Layer} {operation resource ns : String} {context : List (String × String)}
      {cause : GoError} :
    Wrapped e (.operation operation resource ns context :: layers) (.operation operation resource ns context cause) →
      Wrapped e (.operation operation resource ns (setEntry key value context) :: layers)
        (GoError.withContext key value (.operation operation resource ns context cause))
  | order {layers : List Layer} {operation resource ns : String} {context context' : List (String × String)} {cause : GoError} :
    Wrapped e (.operation operation resource ns context :: layers) (.operation operation resource ns context cause) →
      context'.Perm context →
      Wrapped e (.operation operation resource ns context' :: layers) (.operation operation resource ns context' cause)

/-! ### Rules -/

/-- The texts by which an error is categorized, in the order in which the categories are looked for. -/
def textRules : List (ErrorCategory × List Rule) :=
  [ (.transient,
      [[["connection refused", "network is unreachable", "connection reset", "EOF", "broken pipe",
        "etcdserver: leader changed", "etcdserver: request timed out",
        "net/http: TLS handshake timeout", "i/o timeout", "deadline exceeded",
        "the object has been modified", "optimistic concurrency error"]]]),
    (.permanent,
      [ [["invalid", "not supported", "forbidden", "unauthorized", "denied"]],
        [["admission webhook", "validation failed"], ["denied"]],
        [["field is immutable"]]]),
    (.recoverable,
      [ [["failed to suspend services"]],
        [["pod disruption budget"], ["not available"]],
        [["cannot patch"], ["StatefulSet"]],
        [["cannot create pods"], ["quota exceeded"]],
        [["cannot schedule", "unschedulable"]]])]

/-- An error whose category does not depend on its text: a failed suspension, and most errors of the API server. -/
def GoError.IsTyped (e : GoError) : Prop :=
  e.cause = .suspension ∨ (∃ c, e.cause = .notFound c) ∨ ∃ c f, e.cause = .fault c f ∧ ∀ t, f ≠ .other t

section

variable {e e' : GoError} {layers : List Layer}

/-- A rule of one group. -/
theorem matches_singleton {s : String} {g : List String} : Rule.Matches [g] s.toList ↔ contains s g = true := by
  simp [Rule.Matches, contains]

/-- A rule of two groups. -/
theorem matches_pair {s : String} {g h : List String} :
    Rule.Matches [g, h] s.toList ↔ (contains s g && contains s h) = true := by
  simp [Rule.Matches, contains]

/-- The category of a text is the one of the rules. -/
theorem categorizeText_eq (s : String) : categorizeText s = classify textRules .unknown s.toList := by
  unfold categorizeText
  simp only [textRules, classify, List.mem_cons, List.not_mem_nil, or_false, exists_eq_or_imp, exists_eq_left, matches_singleton,
    matches_pair, ite_or]

/-! ### The text and the root of a wrapped error -/

/-- Wrapping keeps the root, and puts its text before. -/
theorem Wrapped.text (h : Wrapped e layers e') : e'.text.toList = added layers ++ e.text.toList ∧ e'.cause = e.cause := by
  have hoperation : ∀ {name resource ns : String} {context : List (String × String)} {layers : List Layer} {cause : GoError},
      (GoError.operation name resource ns context cause).text.toList =
          added (.operation name resource ns context :: layers) ++ e.text.toList ↔
        cause.text.toList = added layers ++ e.text.toList := by
    intro name resource ns context layers cause
    rw [GoError.text, added, List.flatMap_cons, Layer.text, String.toList_append, List.append_assoc, List.append_right_inj]
    rfl
  induction h with
  | original => exact ⟨rfl, rfl⟩
  | wrapError message _ ih =>
    refine ⟨?_, ih.2⟩
    rw [CoherenceOperator.wrapError, GoError.text, String.toList_append, ih.1, ← List.append_assoc]
    rfl
  | newOperationError operation _ ih => exact ⟨hoperation.2 ih.1, ih.2⟩
  | newResourceError operation resource ns _ ih => exact ⟨hoperation.2 ih.1, ih.2⟩
  | withContext key value _ ih => exact ⟨hoperation.2 (hoperation.1 ih.1), ih.2⟩
  | order _ _ ih => exact ⟨hoperation.2 (hoperation.1 ih.1), ih.2⟩

/-! ### Categories -/

/-- The category of an error is the one of its text, unless it is typed. -/
theorem categorizeError_of_not_isTyped (h : ¬e.IsTyped) : categorizeError e = categorizeText e.text := by
  rw [GoError.IsTyped, not_or, not_or] at h
  obtain ⟨hsuspension, hnotFound, hfault⟩ := h
  unfold categorizeError
  split
  · rename_i hcause
    exact absurd hcause hsuspension
  · rename_i c hcause
    exact absurd ⟨c, hcause⟩ hnotFound
  · rfl
  · rename_i c f hother hcause
    refine absurd ⟨c, f, hcause, fun t ht => ?_⟩ hfault
    exact hother t ht
  · rfl

/-- The category of a typed error is the one of its root. -/
theorem categorizeError_congr (h : e.IsTyped) (hcause : e'.cause = e.cause) : categorizeError e' = categorizeError e := by
  unfold categorizeError
  rw [hcause]
  obtain h | ⟨c, h⟩ | ⟨c, f, h, hf⟩ := h
  · rw [h]
  · rw [h]
  · rw [h]
    cases f with
    | other t => exact absurd rfl (hf t)
    | _ => rfl

theorem isTyped_congr (hcause : e'.cause = e.cause) : e'.IsTyped ↔ e.IsTyped := by
  rw [GoError.IsTyped, GoError.IsTyped, hcause]

/-- **Wrapping** keeps the category of an error exactly if the error is typed, or what is put before its text completes no rule of
a category that is looked for before its own. -/
theorem categorizeError_wrapped_iff (h : Wrapped e layers e') : categorizeError e' = categorizeError e ↔
    e.IsTyped ∨ ∀ g ∈ textRules.takeWhile fun g => g.1 ≠ categorizeError e,
      ∀ r ∈ g.2, ¬r.CompletedBy (added layers) e.text.toList := by
  obtain ⟨htext, hcause⟩ := h.text
  by_cases htyped : e.IsTyped
  · exact iff_of_true (categorizeError_congr htyped hcause) (.inl htyped)
  · have htyped' : ¬e'.IsTyped := mt (isTyped_congr hcause).1 htyped
    rw [categorizeError_of_not_isTyped htyped', categorizeError_of_not_isTyped htyped, categorizeText_eq, categorizeText_eq, htext,
      classify_append_iff (by decide) (by decide)]
    exact ⟨.inr, fun h => h.resolve_left htyped⟩

end

/-! ### Names -/

/-- An error that nothing is known of, which is tried again. -/
def someError : GoError := .message "boom"

/-- In the namespace `denied` the error is permanent. -/
theorem not_categorizeError_denied :
    ¬∀ (e e' : GoError) (layers : List Layer), Wrapped e layers e' → categorizeError e' = categorizeError e := by
  intro h
  have hsame := h someError _ _ (.newResourceError "ensure" "operator_secret" "denied" .original)
  revert hsame
  decide +kernel

/-- In another one it is not. -/
theorem categorizeError_team :
    categorizeError (newResourceError "ensure" "operator_secret" "team" someError) = categorizeError someError := by
  refine (categorizeError_wrapped_iff (.newResourceError "ensure" "operator_secret" "team" .original)).2 (.inr ?_)
  simp only [← Rule.matches_append_iff]
  decide +kernel

end CoherenceOperator
