import CoherenceOperator.Controllers.StatefulSet

/-!
# What a patch of a StatefulSet ignores

The stored previous version, the desired one and the live StatefulSet may differ in what a patch is not to touch
(`StatefulSet.Alike`). After `maybePatchStatefulSet` has made them the same the three are equal, unless it is the
affinity in which they differ: `BlankContainerFields` is given a copy of the template, so the affinity that it
blanks is not the one that is compared. The creation time is put into the desired object only, and the
arguments are taken from the first container, whichever this is.
-/

namespace CoherenceOperator

/-- The annotation of `kubectl`. -/
def lastAppliedConfigAnnotation : String := "kubectl.kubernetes.io/last-applied-configuration"

/-! ### Alike -/

/-- The same variables, in whatever order if their names are distinct. -/
def EnvAlike (env env' : List EnvVar) : Prop := env = env' ∨ (env.Perm env' ∧ (env.map (·.name)).Nodup)

/-- Containers that differ in what a patch ignores: for an init-container the command of the operator's, for a container the
command and the arguments of the Coherence container, and its image if the spec has none. -/
structure Container.Alike (spec : CoherenceResourceSpec) (c c' : Container) : Prop where
  name : c.name = c'.name
  image : c.image = c'.image ∨ (c.name = "coherence" ∧ spec.image = none)
  command : c.command = c'.command ∨ c.name = "coherence"
  args : c.args = c'.args ∨ c.name = "coherence"
  env : EnvAlike c.env c'.env
  fields : c.toContainerFields = c'.toContainerFields

structure Container.InitAlike (c c' : Container) : Prop where
  name : c.name = c'.name
  image : c.image = c'.image
  command : c.command = c'.command ∨ c.name = "coherence-k8s-utils"
  args : c.args = c'.args
  env : EnvAlike c.env c'.env
  fields : c.toContainerFields = c'.toContainerFields

/-- Templates that differ in what a patch ignores: the affinity counts only if it is in the spec. -/
structure PodTemplateSpec.Alike (spec : CoherenceResourceSpec) (t t' : PodTemplateSpec) : Prop where
  labels : t.labels = t'.labels
  annotations : t.annotations = t'.annotations
  affinity : t.affinity = t'.affinity ∨ spec.affinity = none
  initContainers : List.Forall₂ Container.InitAlike t.initContainers t'.initContainers
  containers : List.Forall₂ (Container.Alike spec) t.containers t'.containers
  fields : t.toPodFields = t'.toPodFields

/-- StatefulSets that differ in what a patch ignores. A patch that may scale does not ignore the replicas. -/
structure StatefulSet.Alike (spec : CoherenceResourceSpec) (allowScale : Bool) (s s' : StatefulSet) : Prop where
  metadata :
    { s.metadata with
      finalizers := [], creationTimestamp := none, annotations := s.metadata.annotations.erase lastAppliedConfigAnnotation } =
    { s'.metadata with
      finalizers := [], creationTimestamp := none, annotations := s'.metadata.annotations.erase lastAppliedConfigAnnotation }
  rest :
    { s.spec with replicas := none, volumeClaimTemplates := [], template := {} } =
    { s'.spec with replicas := none, volumeClaimTemplates := [], template := {} }
  replicas : allowScale = true → s.spec.replicas = s'.spec.replicas
  template : s.spec.template.Alike spec s'.spec.template

/-! ### The environment -/

theorem sortEnv_pairwise (c : Container) : (PodTemplateSpec.sortEnv c).env.Pairwise fun a b => a.name ≤ b.name := by
  let le (a b : EnvVar) : Bool := decide (a.name ≤ b.name)
  have h : (c.env.mergeSort le).Pairwise fun a b => le a b = true := List.pairwise_mergeSort
    (fun a b c hab hbc => by
      simp only [le, decide_eq_true_eq] at *
      exact String.le_trans hab hbc)
    (fun a b => by
      simp only [le, Bool.or_eq_true, decide_eq_true_eq]
      exact String.le_total _ _) c.env
  simpa [le, PodTemplateSpec.sortEnv] using h

/-- Environments that are alike are sorted to the same one. -/
theorem sortEnv_env_eq {c c' : Container} (h : EnvAlike c.env c'.env) :
    (PodTemplateSpec.sortEnv c).env = (PodTemplateSpec.sortEnv c').env := by
  rcases h with heq | ⟨hperm, hnodup⟩
  · simp [PodTemplateSpec.sortEnv, heq]
  · have hp : (PodTemplateSpec.sortEnv c).env.Perm c.env := List.mergeSort_perm _ _
    have hp' : (PodTemplateSpec.sortEnv c').env.Perm c'.env := List.mergeSort_perm _ _
    refine List.Perm.eq_of_pairwise ?_ (sortEnv_pairwise c) (sortEnv_pairwise c') (hp.trans (hperm.trans hp'.symm))
    intro a b ha hb hab hba
    have hname : a.name = b.name := String.le_antisymm hab hba
    have ha' : a ∈ c.env := hp.mem_iff.1 ha
    have hb' : b ∈ c.env := hperm.mem_iff.2 (hp'.mem_iff.1 hb)
    exact List.inj_on_of_nodup_map hnodup ha' hb' hname

/-! ### Containers -/

section

variable {spec : CoherenceResourceSpec} {c c' : Container} {cs cs' : List Container} {image : Option String}

/-- A container as it is handed to the merge, but for its image. -/
def Container.normal (c : Container) : Container :=
  PodTemplateSpec.sortEnv (if c.name = "coherence" then { c with command := [] } else c)

/-- The image that is put into the Coherence container. -/
def Container.withImage (image : Option String) (c : Container) : Container :=
  match image with
  | some i => if c.name = "coherence" then { c with image := i } else c
  | none => c

/-- The containers of a template as they are handed to the merge: the first one loses its command and its arguments. -/
def normalContainers : List Container → List Container
  | [] => []
  | c :: cs => ({ c with command := [], args := [] } : Container).normal :: cs.map Container.normal

theorem containers_withImage (t : PodTemplateSpec) :
    (t.withImage image).containers = t.containers.map (Container.withImage image) := by
  cases image with
  | none =>
    show t.containers = t.containers.map id
    rw [List.map_id]
  | some i => rfl

/-- The image that is put into the Coherence container, unless the spec has one. -/
def fixed (spec : CoherenceResourceSpec) (i : String) : Option String :=
  match spec.image with
  | some _ => none
  | none => some i

/-- Two containers that are alike are handed to the merge as the same one exactly if the arguments and the image of the
Coherence container are the same. -/
theorem normal_withImage_eq_iff {i : String} (h : c.Alike spec c') :
    c.normal.withImage (fixed spec i) = c'.normal ↔ (c.name = "coherence" → c.args = c'.args) ∧
      (spec.image = none → c'.name = "coherence" → c'.image = i) := by
  have henv := sortEnv_env_eq h.env
  simp only [PodTemplateSpec.sortEnv] at henv
  by_cases hc : c.name = "coherence"
  · have hc' : c'.name = "coherence" := h.name.symm.trans hc
    cases hi : spec.image with
    | none =>
      simp [Container.normal, Container.withImage, fixed, hi, hc, hc', PodTemplateSpec.sortEnv, Container.mk.injEq, henv,
        h.fields]
      exact ⟨fun hh => ⟨hh.2, hh.1.symm⟩, fun hh => ⟨hh.2.symm, hh.1⟩⟩
    | some j =>
      have himage : c.image = c'.image := h.image.resolve_right fun hh => by rw [hi] at hh; cases hh.2
      simp [Container.normal, Container.withImage, fixed, hi, hc, hc', PodTemplateSpec.sortEnv, Container.mk.injEq, henv,
        h.fields, himage]
  · have hc' : ¬ c'.name = "coherence" := fun hh => hc (h.name.trans hh)
    have himage : c.image = c'.image := h.image.resolve_right fun hh => hc hh.1
    have hcommand : c.command = c'.command := h.command.resolve_right hc
    have hargs : c.args = c'.args := h.args.resolve_right hc
    cases hi : spec.image <;>
      simp [Container.normal, Container.withImage, fixed, hi, hc', PodTemplateSpec.sortEnv, henv, h.fields, himage,
        hcommand, hargs, h.name]

/-- The arguments of the Coherence container are those that are desired, unless it is the first container. -/
def SameArgs (cs cs' : List Container) : Prop :=
  List.Forall₂ (fun c c' => c.name = "coherence" → c.args = c'.args) cs.tail cs'.tail

/-- The containers of the Coherence image, if the spec has none, have the image `i`. -/
def HasImage (spec : CoherenceResourceSpec) (i : String) (cs : List Container) : Prop :=
  ∀ c ∈ cs, spec.image = none → c.name = "coherence" → c.image = i

/-- The containers after the first. -/
theorem map_normal_eq_iff {i : String} (h : List.Forall₂ (Container.Alike spec) cs cs') :
    (cs.map Container.normal).map (Container.withImage (fixed spec i)) = cs'.map Container.normal ↔
      List.Forall₂ (fun c c' => c.name = "coherence" → c.args = c'.args) cs cs' ∧ HasImage spec i cs' := by
  induction h with
  | nil => simp [HasImage]
  | cons hc _ ih =>
    simp only [List.map_cons, List.cons.injEq, ih, normal_withImage_eq_iff hc, List.forall₂_cons, HasImage,
      List.forall_mem_cons]
    constructor
    · exact fun ⟨⟨ha, hi⟩, has, his⟩ => ⟨⟨ha, has⟩, hi, his⟩
    · exact fun ⟨⟨ha, has⟩, hi, his⟩ => ⟨⟨ha, hi⟩, has, his⟩

theorem normalContainers_eq_iff {i : String} (h : List.Forall₂ (Container.Alike spec) cs cs') :
    (normalContainers cs).map (Container.withImage (fixed spec i)) = normalContainers cs' ↔
      SameArgs cs cs' ∧ HasImage spec i cs' := by
  cases h with
  | nil => simp [normalContainers, SameArgs, HasImage]
  | @cons c c' cs cs' hc hcs =>
    have hfirst : ({ c with command := [], args := [] } : Container).Alike spec { c' with command := [], args := [] } :=
      { hc with command := Or.inl rfl, args := Or.inl rfl }
    simp only [normalContainers, List.map_cons, List.cons.injEq, normal_withImage_eq_iff hfirst, map_normal_eq_iff hcs,
      SameArgs, List.tail_cons, HasImage, List.forall_mem_cons]
    simp only [implies_true, true_and]
    exact ⟨fun ⟨hi, has, his⟩ => ⟨has, hi, his⟩, fun ⟨has, hi, his⟩ => ⟨hi, has, his⟩⟩

/-- The init-containers, which are alike, are handed over as the same ones. -/
def normalInit (c : Container) : Container :=
  PodTemplateSpec.sortEnv (if c.name = "coherence-k8s-utils" then { c with command := [] } else c)

theorem map_normalInit_eq (h : List.Forall₂ Container.InitAlike cs cs') : cs.map normalInit = cs'.map normalInit := by
  induction h with
  | nil => rfl
  | @cons c c' cs cs' hc _ ih =>
    rw [List.map_cons, List.map_cons, ih]
    congr 1
    have henv := sortEnv_env_eq hc.env
    simp only [PodTemplateSpec.sortEnv] at henv
    by_cases hname : c.name = "coherence-k8s-utils"
    · have hname' : c'.name = "coherence-k8s-utils" := hc.name.symm.trans hname
      simp [normalInit, hname, hname', PodTemplateSpec.sortEnv, henv, hc.fields, hc.image, hc.args]
    · have hname' : ¬ c'.name = "coherence-k8s-utils" := fun hh => hname (hc.name.trans hh)
      have hcommand : c.command = c'.command := hc.command.resolve_right hname
      simp [normalInit, hname', PodTemplateSpec.sortEnv, henv, hc.fields, hc.image, hc.args, hcommand, hc.name]

end

/-! ### The three objects -/

section

variable {spec : CoherenceResourceSpec} {allowScale : Bool} {s d : StatefulSet}

/-- The template as it is handed to the merge, but for the image. -/
theorem template_blank (s : StatefulSet) : s.blank.spec.template =
    { s.spec.template with
      initContainers := s.spec.template.initContainers.map normalInit
      containers := normalContainers s.spec.template.containers } := by
  simp only [StatefulSet.blank, PodTemplateSpec.blankContainerFields, PodTemplateSpec.mapContainers,
    PodTemplateSpec.mapInitContainers, PodTemplateSpec.sortEnvForAllContainers, List.map_map]
  cases s.spec.template.containers with
  | nil => rfl
  | cons c cs => rfl

/-- The template that is handed over. -/
theorem template_withImageOf (s d : StatefulSet) : (s.withImageOf spec d).spec.template =
    { s.spec.template with
      containers := s.spec.template.containers.map
        (Container.withImage (fixed spec d.spec.template.getCoherenceImage)) } := by
  show s.spec.template.withImage (d.spec.template.fixedImage spec) = _
  unfold PodTemplateSpec.fixedImage fixed
  cases spec.image with
  | none => rfl
  | some i =>
    show s.spec.template = { s.spec.template with containers := s.spec.template.containers.map id }
    rw [List.map_id]

/-- **The templates** are handed over as the same one exactly if the affinity is the same, the arguments that are not
blanked are, and the image is. -/
theorem template_eq_iff (h : s.spec.template.Alike spec d.spec.template) :
    (s.blank.withImageOf spec d).spec.template = d.blank.spec.template ↔
      s.spec.template.affinity = d.spec.template.affinity ∧
        SameArgs s.spec.template.containers d.spec.template.containers ∧
        HasImage spec d.spec.template.getCoherenceImage d.spec.template.containers := by
  rw [template_withImageOf, template_blank, template_blank, ← normalContainers_eq_iff h.containers]
  simp [PodTemplateSpec.mk.injEq, h.labels, h.annotations, h.fields, map_normalInit_eq h.initContainers]

/-- What the patch of the triple is made of. -/
def HandedEqual (spec : CoherenceResourceSpec) (allowScale : Bool) (original desired current : StatefulSet) : Prop :=
  patchOriginal spec current allowScale (some original) desired = patchDesired current allowScale desired ∧
    patchCurrent spec current desired = patchDesired current allowScale desired

/-- StatefulSets that are the same but for their templates. -/
theorem eq_iff_template {s s' : StatefulSet} (hmeta : s.metadata = s'.metadata)
    (hspec : { s.spec with template := {} } = { s'.spec with template := {} }) (hstatus : s.status = s'.status) :
    s = s' ↔ s.spec.template = s'.spec.template := by
  obtain ⟨m, sp, st⟩ := s
  obtain ⟨m', sp', st'⟩ := s'
  obtain ⟨⟩ := sp
  obtain ⟨⟩ := sp'
  simp only [StatefulSetSpec.mk.injEq, StatefulSet.mk.injEq] at *
  simp [hmeta, hspec, hstatus]

/-- The spec of an object that is handed over, its template apart. -/
theorem rest_blank (current : StatefulSet) (h : s.Alike spec allowScale d) :
    { (s.following current allowScale).blank.spec with template := {} } =
      { (d.following current allowScale).blank.spec with template := {} } := by
  have hrest := h.rest
  simp only [StatefulSetSpec.mk.injEq] at hrest
  simp only [StatefulSet.blank, StatefulSet.following, StatefulSetSpec.mk.injEq]
  refine ⟨?_, hrest.2.1, hrest.2.2.1, hrest.2.2.2.1, hrest.2.2.2.2.1, hrest.2.2.2.2.2.1, hrest.2.2.2.2.2.2.1, trivial,
    trivial, hrest.2.2.2.2.2.2.2.2.2⟩
  split
  · exact h.replicas ‹_›
  · rfl

/-- The metadata of an object that is handed over. -/
theorem metadata_blank (current : StatefulSet) (h : s.Alike spec allowScale d) :
    { (s.following current allowScale).blank.metadata with creationTimestamp := current.metadata.creationTimestamp } =
      (patchDesired current allowScale d).metadata := by
  have hmeta := h.metadata
  simp only [ObjectMeta.mk.injEq] at hmeta
  simp only [patchDesired, StatefulSet.blank, StatefulSet.following, ObjectMeta.mk.injEq]
  exact ⟨hmeta.1, hmeta.2.1, hmeta.2.2.1, hmeta.2.2.2.1, hmeta.2.2.2.2.1, trivial, trivial, hmeta.2.2.2.2.2.2.2⟩

theorem patchCurrent_eq_iff {current : StatefulSet} (h : current.Alike spec allowScale d) :
    patchCurrent spec current d = patchDesired current allowScale d ↔
      current.spec.template.affinity = d.spec.template.affinity ∧
        SameArgs current.spec.template.containers d.spec.template.containers ∧
        HasImage spec d.spec.template.getCoherenceImage d.spec.template.containers := by
  have hself : current.following current allowScale = current := by
    unfold StatefulSet.following
    split <;> rfl
  have hmeta := metadata_blank current h
  have hspec := rest_blank current h
  rw [hself] at hmeta hspec
  rw [← template_eq_iff h.template]
  exact eq_iff_template hmeta hspec rfl

theorem patchOriginal_eq_iff {current : StatefulSet} (h : s.Alike spec allowScale d) :
    patchOriginal spec current allowScale (some s) d = patchDesired current allowScale d ↔
      s.metadata.creationTimestamp = current.metadata.creationTimestamp ∧
      s.spec.template.affinity = d.spec.template.affinity ∧
        SameArgs s.spec.template.containers d.spec.template.containers ∧
        HasImage spec d.spec.template.getCoherenceImage d.spec.template.containers := by
  have hmeta := metadata_blank current h
  have hspec := rest_blank current h
  rw [← template_eq_iff h.template]
  constructor
  · intro heq
    have htime : s.metadata.creationTimestamp = current.metadata.creationTimestamp :=
      congrArg (·.metadata.creationTimestamp) heq
    exact ⟨htime, congrArg (·.spec.template) heq⟩
  · rintro ⟨htime, htemplate⟩
    have hmeta' : (patchOriginal spec current allowScale (some s) d).metadata = (patchDesired current allowScale d).metadata := by
      rw [← hmeta, ← htime]
      rfl
    exact (eq_iff_template hmeta' hspec rfl).2 htemplate

/-- **What is handed to the merge**: of three StatefulSets that differ in what a patch ignores the same one is made, exactly
if they have the same affinity, the previous one has the creation time of the live one, and the Coherence container is the one
whose arguments and image are made the same. -/
theorem handedEqual_iff {original desired current : StatefulSet} (horiginal : original.Alike spec allowScale desired)
    (hcurrent : current.Alike spec allowScale desired) :
    HandedEqual spec allowScale original desired current ↔
      (original.spec.template.affinity = desired.spec.template.affinity ∧
        current.spec.template.affinity = desired.spec.template.affinity) ∧
      original.metadata.creationTimestamp = current.metadata.creationTimestamp ∧
      (SameArgs original.spec.template.containers desired.spec.template.containers ∧
        SameArgs current.spec.template.containers desired.spec.template.containers) ∧
      HasImage spec desired.spec.template.getCoherenceImage desired.spec.template.containers := by
  rw [HandedEqual, patchOriginal_eq_iff horiginal, patchCurrent_eq_iff hcurrent]
  constructor
  · exact fun ⟨⟨htime, haff, hargs, himage⟩, haff', hargs', _⟩ => ⟨⟨haff, haff'⟩, htime, ⟨hargs, hargs'⟩, himage⟩
  · exact fun ⟨⟨haff, haff'⟩, htime, ⟨hargs, hargs'⟩, himage⟩ => ⟨⟨htime, haff, hargs, himage⟩, haff', hargs', himage⟩

/-- A StatefulSet with one Coherence container. -/
def exampleStatefulSet (affinity : Option String) (image : String) (env : List EnvVar) : StatefulSet where
  metadata := { ns := "default", name := "storage" }
  spec := { template := { affinity, containers := [{ name := "coherence", image, env }] } }

theorem alike_exampleStatefulSet {affinity affinity' : Option String} {image image' : String} {env env' : List EnvVar}
    (h : EnvAlike env env') :
    (exampleStatefulSet affinity image env).Alike {} allowScale (exampleStatefulSet affinity' image' env') where
  metadata := rfl
  rest := rfl
  replicas := fun _ => rfl
  template :=
    { labels := rfl
      annotations := rfl
      affinity := Or.inr rfl
      initContainers := .nil
      containers := .cons ⟨rfl, Or.inr ⟨rfl, rfl⟩, Or.inl rfl, Or.inl rfl, h, rfl⟩ .nil
      fields := rfl }

/-- Another image and another order of the variables make no difference. -/
theorem handedEqual_reordered :
    HandedEqual {} false (exampleStatefulSet none "old" [⟨"B", "2", none⟩, ⟨"A", "1", none⟩])
      (exampleStatefulSet none "new" [⟨"A", "1", none⟩, ⟨"B", "2", none⟩])
      (exampleStatefulSet none "old" [⟨"B", "2", none⟩, ⟨"A", "1", none⟩]) :=
  (handedEqual_iff (alike_exampleStatefulSet (Or.inr (by decide))) (alike_exampleStatefulSet (Or.inr (by decide)))).2
    ⟨⟨rfl, rfl⟩, rfl, ⟨.nil, .nil⟩, by
      intro c hc _ _
      rw [List.mem_singleton.1 hc]
      rfl⟩

/-- The affinity that an earlier operator put into the pods is not blanked. -/
theorem not_forall_handedEqual :
    ¬ ∀ (spec : CoherenceResourceSpec) (allowScale : Bool) (original desired current : StatefulSet),
      original.Alike spec allowScale desired → current.Alike spec allowScale desired →
        HandedEqual spec allowScale original desired current := by
  intro h
  have heq := h {} false (exampleStatefulSet (some "spread") "coherence" []) (exampleStatefulSet none "coherence" [])
    (exampleStatefulSet (some "spread") "coherence" []) (alike_exampleStatefulSet (Or.inl rfl))
    (alike_exampleStatefulSet (Or.inl rfl))
  have haffinity := congrArg (·.spec.template.affinity) heq.2
  cases haffinity

end

end CoherenceOperator
