import CoherenceOperator.Footprint.Environment

/-!
# The containers of the operator in a template

The Coherence container comes first in the template of the pods, and the two init-containers of the operator come first among the
init-containers. What is said of these three is followed through the parts of `CreatePodTemplateSpec` (`HeadedBy`), each of which
changes the Coherence container, or all containers, or adds others after them.
-/

namespace CoherenceOperator

variable {d : CoherenceResource} {t t' : PodTemplateSpec} {P P' I I' J J' : Container → Prop}

/-- `P` holds of the Coherence container, which comes first, and `I` and `J` of the two init-containers of the operator. -/
structure PodTemplateSpec.HeadedBy (P I J : Container → Prop) (t : PodTemplateSpec) : Prop where
  coherence : ∃ c cs, t.containers = c :: cs ∧ c.name = "coherence" ∧ P c
  inits : ∃ i j is, t.initContainers = i :: j :: is ∧ I i ∧ J j

/-- What `CoherenceSpec.UpdatePodTemplateSpec` does to the Coherence container. -/
def CoherenceResource.withCoherence (d : CoherenceResource) (c : Container) : Container :=
  let s := d.spec.coherence.getD {}
  { c with
    env := c.env ++ d.coherenceEnv
    volumeMounts := c.volumeMounts ++
      PortSpecWithSSL.volumeMounts s.management "management-ssl-config" "/coherence-operator/coherence/certs/management" ++
      PortSpecWithSSL.volumeMounts s.metrics "metrics-ssl-config" "/coherence-operator/coherence/certs/metrics" ++
      ((s.persistence.map (·.volumeMounts)).getD []) }

namespace PodTemplateSpec.HeadedBy

/-- The Coherence container is found, and replaced. -/
theorem replace (h : t.HeadedBy P I J) {f : Container → Container} (hname : ∀ c, (f c).name = c.name) (hf : ∀ c, P c → P' (f c))
    (hcontainers : t'.containers = replaceContainer (f (t.ensureContainer "coherence")) t.containers)
    (hinits : t'.initContainers = t.initContainers) : t'.HeadedBy P' I J := by
  obtain ⟨c, cs, hcs, hc, hP⟩ := h.coherence
  have hensure : t.ensureContainer "coherence" = c := by simp [PodTemplateSpec.ensureContainer, hcs, hc]
  refine ⟨⟨f c, cs, ?_, (hname c).trans hc, hf c hP⟩, ?_⟩
  · rw [hcontainers, hensure, hcs, replaceContainer, if_pos (hname c).symm]
  · rw [hinits]
    exact h.inits

/-- The containers are changed each on its own, and not their names. -/
theorem map (h : t.HeadedBy P I J) {f g : Container → Container} (hname : ∀ c, (f c).name = c.name)
    (hP : ∀ c, c.name = "coherence" → P c → P' (f c)) (hI : ∀ c, I c → I' (g c)) (hJ : ∀ c, J c → J' (g c))
    (hcontainers : t'.containers = t.containers.map f) (hinits : t'.initContainers = t.initContainers.map g) :
    t'.HeadedBy P' I' J' := by
  obtain ⟨c, cs, hcs, hc, hPc⟩ := h.coherence
  obtain ⟨i, j, is, his, hi, hj⟩ := h.inits
  refine ⟨⟨f c, cs.map f, by rw [hcontainers, hcs, List.map_cons], (hname c).trans hc, hP c hc hPc⟩, ?_⟩
  exact ⟨g i, g j, is.map g, by rw [hinits, his, List.map_cons, List.map_cons], hI i hi, hJ j hj⟩

theorem foldl {α : Type} {f : PodTemplateSpec → α → PodTemplateSpec} (hf : ∀ t a, t.HeadedBy P I J → (f t a).HeadedBy P I J)
    (as : List α) (h : t.HeadedBy P I J) : (as.foldl f t).HeadedBy P I J := by
  induction as generalizing t with
  | nil => exact h
  | cons a as ih => exact ih (hf t a h)

/-- Other containers come after them. -/
theorem processSideCars (h : t.HeadedBy P I J) : (d.processSideCars t).HeadedBy P I J := by
  obtain ⟨c, cs, hcs, hc⟩ := h.coherence
  obtain ⟨i, j, is, his, hij⟩ := h.inits
  refine ⟨⟨c, cs ++ d.spec.sideCars.map d.processAdditionalContainer, ?_, hc⟩,
    i, j, is ++ d.spec.initContainers.map d.processAdditionalContainer, ?_, hij⟩
  · simp [CoherenceResource.processSideCars, hcs]
  · simp [CoherenceResource.processSideCars, his]

/-- The name of the Coherence container stays. -/
theorem name_updateCoherenceContainer (jvm : Option JVMSpec) (c : Container) :
    (JVMSpec.updateCoherenceContainer jvm c).name = c.name := by
  obtain ⟨command, args, ports, h⟩ := exists_updateCoherenceContainer_eq jvm c
  rw [h]

theorem updatePodTemplate (jvm : Option JVMSpec) (h : t.HeadedBy P I J)
    (hP : ∀ c, P c → P' (JVMSpec.updateCoherenceContainer jvm c)) : (JVMSpec.updatePodTemplate jvm t).HeadedBy P' I J :=
  h.replace (name_updateCoherenceContainer jvm) hP rfl rfl

theorem updatePodTemplateSpec (h : t.HeadedBy P I J) (hP : ∀ c, P c → P' (d.withCoherence c)) :
    (d.updatePodTemplateSpec t).HeadedBy P' I J :=
  h.replace (f := d.withCoherence) (fun _ => rfl) hP rfl rfl

/-- The environment of the init-containers is set. -/
theorem shareEnv (h : t.HeadedBy P I J) (hI : ∀ i env, I i → I' { i with env }) (hJ : ∀ j env, J j → J' { j with env })
    (jdkOptions : Option EnvVar) : (t.shareEnv jdkOptions).HeadedBy P I' J' := by
  obtain ⟨c, cs, hcs, hc⟩ := h.coherence
  obtain ⟨i, j, is, his, hi, hj⟩ := h.inits
  have hshared : ∃ e e', t.shareEnv jdkOptions =
      { t with initContainers := { i with env := e } :: { j with env := e' } :: is } := by
    unfold PodTemplateSpec.shareEnv
    simp only [his, hcs]
    exact ⟨_, _, rfl⟩
  obtain ⟨e, e', hshared⟩ := hshared
  rw [hshared]
  exact ⟨⟨c, cs, hcs, hc⟩, _, _, is, rfl, hI i e hi, hJ j e' hj⟩

end PodTemplateSpec.HeadedBy

theorem volumes_shareEnv (jdkOptions : Option EnvVar) (t : PodTemplateSpec) : (t.shareEnv jdkOptions).volumes = t.volumes := by
  unfold PodTemplateSpec.shareEnv
  split
  · rfl
  · rfl

/-! ### The template -/

/-- The name of the Coherence container, with what the application does to it. -/
theorem name_launchedContainer (op : Operator) (d : CoherenceResource) (services : Option String) :
    (d.launchedContainer op services).name = "coherence" := by
  rw [CoherenceResource.launchedContainer]
  unfold ApplicationSpec.updateCoherenceContainer
  split
  · rfl
  · simp only [apply_ite Container.name, ite_self]
    rfl

/-- The template that the additional containers and the volumes of the spec are added to. -/
def CoherenceResource.baseTemplate (op : Operator) (d : CoherenceResource) (labels annotations : Labels)
    (services : Option String) : PodTemplateSpec :=
  let c := d.launchedContainer op services
  let addMounts (i : Container) : Container := { i with volumeMounts := i.volumeMounts ++ d.spec.volumeMounts }
  d.updatePodTemplateSpec (JVMSpec.updatePodTemplate d.spec.jvm
    { labels
      annotations
      affinity := some (d.spec.affinity.getD d.createDefaultPodAffinity)
      fields := d.podFields
      volumes := [{ name := "coh-utils", source := .emptyDir }]
      initContainers := [addMounts (d.createOperatorInitContainer op), addMounts (d.createOperatorConfigInitContainer op)]
      containers := [{ c with
        ports := c.ports ++ d.spec.ports.map fun p => p.createPort d
        volumeMounts := c.volumeMounts ++ d.spec.volumeMounts }] })

/-- **The parts of `CreatePodTemplateSpec`.** -/
theorem createPodTemplateSpec_eq (op : Operator) (d : CoherenceResource) (labels annotations : Labels) (services : Option String) :
    d.createPodTemplateSpec op labels annotations services =
      let t := d.processSideCars (d.baseTemplate op labels annotations services)
      (d.spec.secretVolumes.foldl VolumeSpec.addSecretVolumes (d.spec.configMapVolumes.foldl VolumeSpec.addConfigMapVolumes
        { t with volumes := t.volumes ++ d.spec.volumes })).shareEnv
          (findEnv EnvVarJdkOptions (d.createCoherenceContainer op services).env) := rfl

/-- What holds of the three containers before the additional ones and the volumes of the spec are added. -/
theorem headedBy_baseTemplate {P' P'' : Container → Prop} (op : Operator) (d : CoherenceResource) (labels annotations : Labels)
    (services : Option String)
    (hP : ∀ ports, P { d.launchedContainer op services with
      ports, volumeMounts := (d.launchedContainer op services).volumeMounts ++ d.spec.volumeMounts })
    (hI : I { d.createOperatorInitContainer op with
      volumeMounts := (d.createOperatorInitContainer op).volumeMounts ++ d.spec.volumeMounts })
    (hJ : J { d.createOperatorConfigInitContainer op with
      volumeMounts := (d.createOperatorConfigInitContainer op).volumeMounts ++ d.spec.volumeMounts })
    (hjvm : ∀ c, P c → P' (JVMSpec.updateCoherenceContainer d.spec.jvm c)) (hcoherence : ∀ c, P' c → P'' (d.withCoherence c)) :
    (d.baseTemplate op labels annotations services).HeadedBy P'' I J := by
  refine PodTemplateSpec.HeadedBy.updatePodTemplateSpec (P := P') ?_ hcoherence
  refine PodTemplateSpec.HeadedBy.updatePodTemplate (P := P) _ ?_ hjvm
  exact ⟨⟨_, _, rfl, name_launchedContainer op d services, hP _⟩, _, _, _, rfl, hI, hJ⟩

/-! ### The volumes -/

/-- The volume that is made of one of the spec. -/
def VolumeSpec.toVolume (source : VolumeSpec → VolumeSource) (v : VolumeSpec) : Volume := { name := v.volName, source := source v }

/-- The source of a volume with a config map. -/
def VolumeSpec.configMap (v : VolumeSpec) : VolumeSource := .configMap v.name v.items v.defaultMode v.optional

/-- The source of a volume with a Secret. -/
def VolumeSpec.secret (v : VolumeSpec) : VolumeSource := .secret v.name v.items v.defaultMode v.optional

theorem volumes_foldl_addVolumes (source : VolumeSpec → VolumeSource) (vs : List VolumeSpec) (t : PodTemplateSpec) :
    (vs.foldl (fun t v => v.addVolumes (source v) t) t).volumes = t.volumes ++ vs.map (VolumeSpec.toVolume source) := by
  induction vs generalizing t with
  | nil => rw [List.foldl_nil, List.map_nil, List.append_nil]
  | cons v vs ih =>
    rw [List.foldl_cons, ih, List.map_cons]
    exact List.append_assoc _ [VolumeSpec.toVolume source v] _

/-- The volumes of the operator. -/
def CoherenceResource.operatorVolumes (d : CoherenceResource) : List Volume :=
  [{ name := "coh-utils", source := .emptyDir }, { name := "jvm", source := (d.spec.jvm.bind (·.diagnosticsVolume)).getD .emptyDir }] ++
    PortSpecWithSSL.volumes (d.spec.coherence.getD {}).management "management-ssl-config" ++
    PortSpecWithSSL.volumes (d.spec.coherence.getD {}).metrics "metrics-ssl-config" ++
    (((d.spec.coherence.getD {}).persistence.map (·.createPersistenceVolumes)).getD [])

/-- **The volumes** of the operator come first. -/
theorem volumes_createPodTemplateSpec (op : Operator) (d : CoherenceResource) (labels annotations : Labels)
    (services : Option String) : (d.createPodTemplateSpec op labels annotations services).volumes =
      d.operatorVolumes ++ d.spec.volumes ++ d.spec.configMapVolumes.map (VolumeSpec.toVolume VolumeSpec.configMap) ++
        d.spec.secretVolumes.map (VolumeSpec.toVolume VolumeSpec.secret) := by
  rw [createPodTemplateSpec_eq, volumes_shareEnv]
  exact (volumes_foldl_addVolumes VolumeSpec.secret _ _).trans
    (congrArg (· ++ _) (volumes_foldl_addVolumes VolumeSpec.configMap _ _))

/-! ### All containers -/

/-- `P` holds of all containers. -/
def PodTemplateSpec.All (P : Container → Prop) (t : PodTemplateSpec) : Prop := ∀ c ∈ t.containers ++ t.initContainers, P c

namespace PodTemplateSpec.All

theorem of_lists (hcontainers : ∀ c ∈ t.containers, P c) (hinits : ∀ c ∈ t.initContainers, P c) : t.All P := by
  intro c hc
  rcases List.mem_append.1 hc with hc | hc
  · exact hcontainers c hc
  · exact hinits c hc

theorem containers (h : t.All P) : ∀ c ∈ t.containers, P c := fun c hc => h c (List.mem_append_left _ hc)

theorem inits (h : t.All P) : ∀ c ∈ t.initContainers, P c := fun c hc => h c (List.mem_append_right _ hc)

theorem mem_replaceContainer {c x : Container} {cs : List Container} (hx : x ∈ replaceContainer c cs) : x = c ∨ x ∈ cs := by
  induction cs with
  | nil => exact .inl (List.mem_singleton.1 hx)
  | cons y ys ih =>
    rw [replaceContainer] at hx
    split at hx
    · rcases List.mem_cons.1 hx with rfl | hx
      · exact .inl rfl
      · exact .inr (List.mem_cons_of_mem _ hx)
    · rcases List.mem_cons.1 hx with rfl | hx
      · exact .inr List.mem_cons_self
      · exact (ih hx).imp_right (List.mem_cons_of_mem _)

/-- The container is found, and replaced. -/
theorem replace (name : String) (h : t.All P) {f : Container → Container} (hnew : P { name }) (hf : ∀ c, P c → P (f c))
    (hcontainers : t'.containers = replaceContainer (f (t.ensureContainer name)) t.containers)
    (hinits : t'.initContainers = t.initContainers) : t'.All P := by
  have hfound : P (t.ensureContainer name) := by
    rw [PodTemplateSpec.ensureContainer]
    cases hc : t.containers.find? fun c => c.name = name with
    | none => exact hnew
    | some c => exact h.containers c (List.mem_of_find?_eq_some hc)
  refine of_lists (fun c hc => ?_) (hinits ▸ h.inits)
  rw [hcontainers] at hc
  rcases mem_replaceContainer hc with rfl | hc
  · exact hf _ hfound
  · exact h.containers c hc

theorem processSideCars (h : t.All P) (hadd : ∀ c ∈ d.spec.sideCars ++ d.spec.initContainers, P (d.processAdditionalContainer c)) :
    (d.processSideCars t).All P := by
  refine of_lists (fun c hc => ?_) fun c hc => ?_
  · rcases List.mem_append.1 hc with hc | hc
    · exact h.containers c hc
    · obtain ⟨x, hx, rfl⟩ := List.mem_map.1 hc
      exact hadd x (List.mem_append_left _ hx)
  · rcases List.mem_append.1 hc with hc | hc
    · exact h.inits c hc
    · obtain ⟨x, hx, rfl⟩ := List.mem_map.1 hc
      exact hadd x (List.mem_append_right _ hx)

theorem foldl_addVolumes (source : VolumeSpec → VolumeSource) {vs : List VolumeSpec}
    (hmount : ∀ v ∈ vs, ∀ c, P c → P { c with volumeMounts := c.volumeMounts ++ [v.volumeMount] }) (h : t.All P) :
    (vs.foldl (fun t v => v.addVolumes (source v) t) t).All P := by
  induction vs generalizing t with
  | nil => exact h
  | cons v vs ih =>
    refine ih (fun w hw => hmount w (List.mem_cons_of_mem _ hw)) (of_lists (fun c hc => ?_) fun c hc => ?_)
    · obtain ⟨x, hx, rfl⟩ := List.mem_map.1 hc
      exact hmount v List.mem_cons_self x (h.containers x hx)
    · obtain ⟨x, hx, rfl⟩ := List.mem_map.1 hc
      exact hmount v List.mem_cons_self x (h.inits x hx)

theorem shareEnv (h : t.All P) (henv : ∀ c env, P c → P { c with env }) (jdkOptions : Option EnvVar) :
    (t.shareEnv jdkOptions).All P := by
  unfold PodTemplateSpec.shareEnv
  split
  · rename_i init config others c _ his _
    refine of_lists h.containers fun x hx => ?_
    have hinits := h.inits
    rw [his] at hinits
    rcases List.mem_cons.1 hx with rfl | hx
    · exact henv _ _ (hinits _ List.mem_cons_self)
    rcases List.mem_cons.1 hx with rfl | hx
    · exact henv _ _ (hinits _ (List.mem_cons_of_mem _ List.mem_cons_self))
    · exact hinits x (List.mem_cons_of_mem _ (List.mem_cons_of_mem _ hx))
  · exact h

end PodTemplateSpec.All

end CoherenceOperator
