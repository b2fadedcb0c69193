import CoherenceOperator.Api.Kubernetes
import Mathlib.Data.List.Infix

/-!
# The site and the rack of a member

A member asks the REST server of the operator for its site and for its rack. Both come from labels of the node: the site is the first
site label that has a value, and the rack the first rack label that has one, after the site and a hyphen if there is a site. A hyphen may
be in the values too, so the same rack may be that of nodes with different sites: `site_eq_iff` says when it is not.
-/

namespace CoherenceOperator

/-- What the REST server answers from: may it look up nodes, the labels that give a site and a rack, and what the API server has for
the name of a node: its labels, or an error. -/
structure NodeLookup where
  isNodeLookupEnabled : Bool := true
  siteLabels : List String
  rackLabels : List String
  get : String → Except String Labels

/-- A request for the label of a node: the path, and the parameter `nodeLabel` of the query. -/
structure LabelRequest where
  path : String
  nodeLabel : String := ""

/-- The name of the node in a path: what comes after the last slash, one at the end apart. -/
def requestedNode (path : String) : String :=
  let s := path.toList
  let stripped := if s.getLast? = some '/' then s.dropLast else s
  String.ofList (s.drop (stripped.length - (stripped.reverse.takeWhile (· ≠ '/')).length))

/-- The first of the labels that has a value, and the value. -/
def firstLabel (node : Labels) : List String → Option (String × String)
  | [] => none
  | label :: labels =>
    match node.lookup label with
    | some value => if value ≠ "" then some (label, value) else firstLabel node labels
    | none => firstLabel node labels

namespace NodeLookup

variable (n : NodeLookup)

/-- `GetLabelForNode`: the value, the label that was used, and the error. -/
def getLabelForNode (name : String) (labels prefixLabels : List String) : String × String × Option String :=
  if n.isNodeLookupEnabled then
    match n.get name with
    | .ok node =>
      let before := firstLabel node prefixLabels
      let prefixValue := match before with
        | some (_, value) => value ++ "-"
        | none => ""
      match firstLabel node labels with
      | some (label, value) => (prefixValue ++ value, label, none)
      | none => ("", (before.map (·.1)).getD "<None>", none)
    | .error err => ("", "", some err)
  else ("", "<None>", none)

/-- What the server writes for a request. -/
def labelResponse (labels prefixLabels : List String) (r : LabelRequest) : String :=
  if n.isNodeLookupEnabled then
    let (labels, prefixLabels) := if r.nodeLabel ≠ "" then ([r.nodeLabel], []) else (labels, prefixLabels)
    let (value, _, err) := n.getLabelForNode (requestedNode r.path) labels prefixLabels
    if err.isSome then "" else value
  else ""

/-- `getSiteLabelForNode`. -/
def getSiteLabelForNode (r : LabelRequest) : String := n.labelResponse n.siteLabels [] r

/-- `getRackLabelForNode`. -/
def getRackLabelForNode (r : LabelRequest) : String := n.labelResponse n.rackLabels n.siteLabels r

end NodeLookup

/-- The two requests of a member: they are about one node, and name no label. -/
structure MemberRequests where
  site : LabelRequest
  rack : LabelRequest
  sameNode : requestedNode site.path = requestedNode rack.path
  noLabel : site.nodeLabel = "" ∧ rack.nodeLabel = ""

namespace MemberRequests

variable (n : NodeLookup) (r r' : MemberRequests)

/-- The name of its node. -/
def node : String := requestedNode r.rack.path

/-- The site that it is given. -/
def siteValue : String := n.getSiteLabelForNode r.site

/-- The rack that it is given. -/
def rackValue : String := n.getRackLabelForNode r.rack

/-- If members have the same rack, they have the same site. -/
def RacksRefineSites : Prop := r.rackValue n = r'.rackValue n → r.rackValue n ≠ "" → r.siteValue n = r'.siteValue n

/-- The first site of a node, empty if there is none. -/
def nodeSite (node : Labels) : String := ((firstLabel node n.siteLabels).map (·.2)).getD ""

/-- What comes before the label of the rack. -/
def rackPrefix (site : String) : String := if site = "" then "" else site ++ "-"

variable {n r r'} {node : Labels} {labels : List String} {s t : String}

theorem firstLabel_ne {x : String × String} (h : firstLabel node labels = some x) : x.2 ≠ "" := by
  induction labels with
  | nil => cases h
  | cons label labels ih =>
    rw [firstLabel] at h
    split at h
    · split at h
      · cases h
        assumption
      · exact ih h
    · exact ih h

theorem siteValue_eq (henabled : n.isNodeLookupEnabled = true) (hget : n.get r.node = .ok node) :
    r.siteValue n = nodeSite n node := by
  have hlabel : ¬ r.site.nodeLabel ≠ "" := not_not.2 r.noLabel.1
  rw [siteValue, NodeLookup.getSiteLabelForNode, NodeLookup.labelResponse, if_pos henabled, if_neg hlabel, r.sameNode]
  dsimp only
  rw [NodeLookup.getLabelForNode, if_pos henabled, show n.get (requestedNode r.rack.path) = .ok node from hget, nodeSite]
  cases hfirst : firstLabel node n.siteLabels with
  | none => simp [hfirst]
  | some x => simp [hfirst, firstLabel]

theorem rackValue_eq (henabled : n.isNodeLookupEnabled = true) (hget : n.get r.node = .ok node) :
    r.rackValue n = ((firstLabel node n.rackLabels).map fun x => rackPrefix (nodeSite n node) ++ x.2).getD "" := by
  have hlabel : ¬ r.rack.nodeLabel ≠ "" := not_not.2 r.noLabel.2
  rw [rackValue, NodeLookup.getRackLabelForNode, NodeLookup.labelResponse, if_pos henabled, if_neg hlabel]
  dsimp only
  rw [NodeLookup.getLabelForNode, if_pos henabled, show n.get (requestedNode r.rack.path) = .ok node from hget, nodeSite]
  cases hrack : firstLabel node n.rackLabels with
  | none => simp [hrack]
  | some x =>
    cases hsite : firstLabel node n.siteLabels with
    | none => simp [hrack, hsite, rackPrefix]
    | some y =>
      have hne := firstLabel_ne hsite
      simp [hrack, hsite, rackPrefix, hne]

/-- A rack that is not empty is the label of a node after its site. -/
theorem exists_of_rackValue (h : r.rackValue n ≠ "") :
    ∃ value, value ≠ "" ∧ r.rackValue n = rackPrefix (r.siteValue n) ++ value := by
  have henabled : n.isNodeLookupEnabled = true := by
    by_contra hnot
    exact h (by simp [rackValue, NodeLookup.getRackLabelForNode, NodeLookup.labelResponse, hnot])
  cases hget : n.get r.node with
  | error err =>
    refine absurd ?_ h
    have hget : n.get (requestedNode r.rack.path) = .error err := hget
    simp [rackValue, NodeLookup.getRackLabelForNode, NodeLookup.labelResponse, NodeLookup.getLabelForNode, henabled, hget]
  | ok node =>
    have heq := rackValue_eq henabled hget
    rw [siteValue_eq henabled hget]
    cases hfirst : firstLabel node n.rackLabels with
    | none =>
      rw [hfirst] at heq
      exact absurd heq h
    | some x =>
      rw [hfirst] at heq
      exact ⟨x.2, firstLabel_ne hfirst, heq⟩

theorem toList_rackPrefix (hs : s ≠ "") : (rackPrefix s).toList = s.toList ++ ['-'] := by
  rw [rackPrefix, if_neg hs, String.toList_append]
  rfl

/-- Sites that are not empty, one before the other with a hyphen, are the same or one of them goes on after the hyphen. -/
theorem eq_of_begins (hs : s ≠ "") (ht : t ≠ "") (h : (rackPrefix s).toList <+: (rackPrefix t).toList)
    (hno : ¬ (s ++ "-").toList <+: t.toList) : s = t := by
  rw [toList_rackPrefix hs, toList_rackPrefix ht, List.prefix_concat_iff] at h
  rcases h with h | h
  · exact String.toList_inj.1 (List.append_cancel_right h)
  · exact absurd (by rwa [String.toList_append]) hno

/-- **Members with the same rack have the same site** exactly when both have a site or neither has, and no site is the other one
followed by a hyphen and more. -/
theorem site_eq_iff (n : NodeLookup) (r r' : MemberRequests) (hrack : r.rackValue n = r'.rackValue n) (hne : r.rackValue n ≠ "") :
    r.siteValue n = r'.siteValue n ↔
      (r.siteValue n = "" ↔ r'.siteValue n = "") ∧ ¬ (r.siteValue n ++ "-").toList <+: (r'.siteValue n).toList ∧
        ¬ (r'.siteValue n ++ "-").toList <+: (r.siteValue n).toList := by
  constructor
  · intro h
    have hlonger : ∀ s : String, ¬ (s ++ "-").toList <+: s.toList := by
      intro s hs
      have hlength := hs.length_le
      simp only [String.toList_append, List.length_append] at hlength
      have hhyphen : "-".toList.length = 1 := rfl
      omega
    rw [h]
    exact ⟨Iff.rfl, hlonger _, hlonger _⟩
  · rintro ⟨hempty, hno, hno'⟩
    obtain ⟨value, -, hvalue⟩ := exists_of_rackValue hne
    obtain ⟨value', -, hvalue'⟩ := exists_of_rackValue (hrack ▸ hne)
    by_cases hs : r.siteValue n = ""
    · rw [hs, hempty.1 hs]
    · have hs' : r'.siteValue n ≠ "" := fun h => hs (hempty.2 h)
      have happend : (rackPrefix (r.siteValue n)).toList ++ value.toList = (rackPrefix (r'.siteValue n)).toList ++ value'.toList := by
        rw [← String.toList_append, ← String.toList_append, ← hvalue, ← hvalue', hrack]
      -- one of the two prefixes begins with the other
      rcases List.append_eq_append_iff.1 happend with ⟨rest, h, -⟩ | ⟨rest, h, -⟩
      · exact eq_of_begins hs hs' ⟨rest, h.symm⟩ hno
      · exact (eq_of_begins hs' hs ⟨rest, h.symm⟩ hno').symm

/-- The requests of a member on a node. -/
def ofNode (name : String) (h : requestedNode ("/site/" ++ name) = requestedNode ("/rack/" ++ name)) : MemberRequests where
  site := { path := "/site/" ++ name }
  rack := { path := "/rack/" ++ name }
  sameNode := h
  noLabel := ⟨rfl, rfl⟩

/-- Two nodes: one in the zone `a` with the sub zone `b-c`, and one with the zone and the sub zone given. -/
def zones (zone subZone : String) : NodeLookup where
  siteLabels := ["zone"]
  rackLabels := ["subzone"]
  get name :=
    if name = "one" then .ok ((Labels.set ∅ "zone" "a").set "subzone" "b-c")
    else .ok ((Labels.set ∅ "zone" zone).set "subzone" subZone)

theorem site_eq_of_zones : (ofNode "one" (by decide)).siteValue (zones "a" "b-c") = (ofNode "two" (by decide)).siteValue (zones "a" "b-c") :=
  (site_eq_iff (zones "a" "b-c") (ofNode "one" (by decide)) (ofNode "two" (by decide)) (by decide +kernel) (by decide +kernel)).2
    (by decide +kernel)

theorem not_forall_racksRefineSites : ¬ ∀ (n : NodeLookup) (r r' : MemberRequests), RacksRefineSites n r r' := by
  intro h
  have hsite := h (zones "a-b" "c") (ofNode "one" (by decide)) (ofNode "two" (by decide)) (by decide +kernel) (by decide +kernel)
  exact absurd hsite (by decide +kernel)

end MemberRequests

end CoherenceOperator
