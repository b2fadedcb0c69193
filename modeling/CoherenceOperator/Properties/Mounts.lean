import CoherenceOperator.Footprint.Building
import CoherenceOperator.Footprint.Template

/-!
# Mounts and their volumes

Each mount of the containers of the operator is of one volume of the template or of one claim of the StatefulSet. The mounts are
added by the builders of the template, which a Job has in common with a StatefulSet; the claims only by the StatefulSet.
-/

namespace CoherenceOperator

variable {op : Operator} {d : CoherenceResource} {services : Option String} {labels annotations : Labels} {t t' : PodTemplateSpec}
  {P I J : Container → Prop} {c : Container}

/-! ### What is expected -/

/-- The mounts of the container are each of one volume or of one claim. -/
def Container.IsMounted (volumes : List Volume) (claims : List PersistentVolumeClaim) (c : Container) : Prop :=
  ∀ m ∈ c.volumeMounts, (volumes.map (·.name)).count m.name + (claims.map (·.name)).count m.name = 1

/-- So are those of the Coherence container and of the two init-containers of the operator. -/
def PodTemplateSpec.IsMounted (t : PodTemplateSpec) (claims : List PersistentVolumeClaim) : Prop :=
  ∃ c i j, t.containers.head? = some c ∧ t.initContainers.take 2 = [i, j] ∧ c.name = "coherence" ∧
    i.name = "coherence-k8s-utils" ∧ j.name = "coherence-k8s-config" ∧ ∀ x ∈ [c, i, j], x.IsMounted t.volumes claims

/-- The container has the name, and mounts the volumes with these names. -/
structure Container.Mounts (name : String) (names : List String) (c : Container) : Prop where
  name : c.name = name
  mounts : c.volumeMounts.map (·.name) = names

/-- The names of what the Coherence container and the init-containers of the operator mount. -/
def PodTemplateSpec.Mounts (cs is js : List String) (t : PodTemplateSpec) : Prop :=
  t.HeadedBy (Container.Mounts "coherence" cs) (Container.Mounts "coherence-k8s-utils" is) (Container.Mounts "coherence-k8s-config" js)

/-- The spec has no volumes and no mounts. -/
structure CoherenceResourceSpec.NoVolumes (spec : CoherenceResourceSpec) : Prop where
  volumes : spec.volumes = []
  volumeMounts : spec.volumeMounts = []
  configMapVolumes : spec.configMapVolumes = []
  secretVolumes : spec.secretVolumes = []

/-- A resource whose workload is generated: with its services as they are encoded, if they are to be resumed. -/
inductive Workload where
  | statefulSet (c : Coherence) (services : Option String)
  | job (c : CoherenceJob)

namespace Workload

/-- What the resource is to the builders. -/
def resource : Workload → CoherenceResource
  | statefulSet c _ => c.toResource
  | job c => c.toResource

/-- The spec of the user has no volumes, mounts or claims. -/
def NoVolumes : Workload → Prop
  | statefulSet c _ => c.spec.NoVolumes ∧ c.spec.volumeClaimTemplates = []
  | job c => c.spec.NoVolumes

/-- The operator that generates a Job with its template. -/
def withJobTemplate (op : Operator) : Operator :=
  { op with jobPodTemplate := fun c =>
      c.toResource.createPodTemplateSpec op (c.toResource.podLabels op) (c.toResource.podAnnotations op) none }

/-- The template that is generated. -/
def template (op : Operator) : Workload → PodTemplateSpec
  | statefulSet c services => (c.createStatefulSet (Ranged.withServices op c services)).spec.template
  | job c => (c.createJob (withJobTemplate op)).spec.template

/-- The claims that are generated. -/
def claims (op : Operator) : Workload → List PersistentVolumeClaim
  | statefulSet c services => (c.createStatefulSet (Ranged.withServices op c services)).spec.volumeClaimTemplates
  | job _ => []

end Workload

/-- A claim, and no volume. -/
def PersistentStorageSpec.IsClaim (s : PersistentStorageSpec) : Prop := s.volume = none ∧ s.persistentVolumeClaim.isSome = true

/-- Data or snapshots of a Job are to be stored in a claim. -/
def Workload.ClaimsForJob : Workload → Prop
  | statefulSet _ _ => False
  | job c => ∃ p, c.spec.coherence.bind (·.persistence) = some p ∧ (p.storage.IsClaim ∨ ∃ s, p.snapshots = some s ∧ s.IsClaim)

/-! ### Names -/

/-- The names that are there. -/
def present (names : List (Bool × String)) : List String := (names.filter (·.1)).map (·.2)

/-- The names of the volumes of a template: with certificates for the management and for the metrics, persistence and snapshots
in a volume, and the credentials and certificates of the health server. -/
def volumeNames (management metrics persistence snapshots credentials certificates : Bool) : List String :=
  present [(true, "coh-utils"), (true, "jvm"), (management, "management-ssl-config"), (metrics, "metrics-ssl-config"),
    (persistence, "persistence-volume"), (snapshots, "snapshot-volume"), (credentials, "health-mutator-username"),
    (credentials, "health-mutator-password"), (certificates, "health-mutator-tls")]

/-- Names that are mounted are each there once, given the claims. -/
theorem count_volumeNames : ∀ m x pv pc sv sc u h : Bool, (volumeNames m x (pv || pc) (sv || sc) u h).all (fun n =>
    (volumeNames m x pv sv u h).count n +
      (present [(!pv && pc, "persistence-volume"), (!sv && sc, "snapshot-volume")]).count n = 1) = true := by
  decide +kernel

/-- Without claims that is so unless there are some to be mounted. -/
theorem count_volumeNames_job : ∀ m x pv pc sv sc : Bool, (volumeNames m x (pv || pc) (sv || sc) false false).all (fun n =>
    (volumeNames m x pv sv false false).count n = 1) = !(!pv && pc || !sv && sc) := by
  decide +kernel

theorem present_append (l l' : List (Bool × String)) : present (l ++ l') = present l ++ present l' := by
  simp [present]

/-! ### The parts of a template -/

section

variable {port : Option PortSpecWithSSL} {name path : String}

theorem names_portMounts : (PortSpecWithSSL.volumeMounts port name path).map (·.name) =
    present [((PortSpecWithSSL.certificates port).isSome, name)] := by
  rw [PortSpecWithSSL.volumeMounts]
  cases PortSpecWithSSL.certificates port with
  | none => rfl
  | some secret => rfl

theorem names_portVolumes : (PortSpecWithSSL.volumes port name).map (·.name) =
    present [((PortSpecWithSSL.certificates port).isSome, name)] := by
  rw [PortSpecWithSSL.volumes]
  cases PortSpecWithSSL.certificates port with
  | none => rfl
  | some secret => rfl

end

/-- Is there a volume for the data, and for the snapshots? -/
def inVolume (p : Option PersistenceSpec) : Bool × Bool :=
  (p.any fun p => p.storage.volume.isSome, p.any fun p => p.snapshots.any fun s => s.volume.isSome)

/-- Is there a claim for the data, and for the snapshots? -/
def inClaim (p : Option PersistenceSpec) : Bool × Bool :=
  (p.any fun p => p.storage.persistentVolumeClaim.isSome,
    p.any fun p => p.snapshots.any fun s => s.persistentVolumeClaim.isSome)

theorem names_persistenceMounts (p : Option PersistenceSpec) : ((p.map (·.volumeMounts)).getD []).map (·.name) =
    present [((inVolume p).1 || (inClaim p).1, "persistence-volume"), ((inVolume p).2 || (inClaim p).2, "snapshot-volume")] := by
  cases p with
  | none => rfl
  | some p =>
    have hstorage : ∀ b : Bool, (if b then [({ name := "persistence-volume", mountPath := "/coherence-operator/persistence" } :
        VolumeMount)] else []).map (·.name) = present [(b, "persistence-volume")] := by
      intro b
      cases b with
      | false => rfl
      | true => rfl
    have hsnapshots : ∀ b : Bool, (if b then [({ name := "snapshot-volume", mountPath := "/coherence-operator/snapshot" } :
        VolumeMount)] else []).map (·.name) = present [(b, "snapshot-volume")] := by
      intro b
      cases b with
      | false => rfl
      | true => rfl
    have hany : (p.snapshots.any fun s => s.volume.isSome || s.persistentVolumeClaim.isSome) =
        ((p.snapshots.any fun s => s.volume.isSome) || p.snapshots.any fun s => s.persistentVolumeClaim.isSome) := by
      cases p.snapshots with
      | none => rfl
      | some s => rfl
    rw [Option.map_some, Option.getD_some, PersistenceSpec.volumeMounts, List.map_append, hstorage, hany, hsnapshots,
      ← present_append]
    rfl

theorem names_persistenceVolumes (p : Option PersistenceSpec) :
    ((p.map (·.createPersistenceVolumes)).getD []).map (·.name) =
      present [((inVolume p).1, "persistence-volume"), ((inVolume p).2, "snapshot-volume")] := by
  cases p with
  | none => rfl
  | some p =>
    have hvolume : ∀ (o : Option Labels) (name : String), (o.toList.map fun v => ({ name, source := .other v } : Volume)).map (·.name) =
        present [(o.isSome, name)] := by
      intro o name
      cases o with
      | none => rfl
      | some v => rfl
    have hany : (p.snapshots.bind (·.volume)).isSome = p.snapshots.any fun s => s.volume.isSome := by
      cases p.snapshots with
      | none => rfl
      | some s => rfl
    rw [Option.map_some, Option.getD_some, PersistenceSpec.createPersistenceVolumes, List.map_append, hvolume, hvolume, hany,
      ← present_append]
    rfl

theorem names_claims (op : Operator) (d : CoherenceResource) (p : PersistenceSpec) :
    (p.createPersistentVolumeClaims op d).map (·.name) =
      present [(!(inVolume (some p)).1 && (inClaim (some p)).1, "persistence-volume"),
        (!(inVolume (some p)).2 && (inClaim (some p)).2, "snapshot-volume")] := by
  have hclaim : ∀ (s : PersistentStorageSpec) (name : String),
      (s.createPersistentVolumeClaim op d name).toList.map (·.name) =
        present [(!s.volume.isSome && s.persistentVolumeClaim.isSome, name)] := by
    intro s name
    rw [PersistentStorageSpec.createPersistentVolumeClaim]
    cases s.volume with
    | some v => rfl
    | none =>
      cases s.persistentVolumeClaim with
      | none => rfl
      | some spec => rfl
  have hsnapshots : (p.snapshots.bind fun s => s.createPersistentVolumeClaim op d "snapshot-volume").toList.map (·.name) =
      present [(!(inVolume (some p)).2 && (inClaim (some p)).2, "snapshot-volume")] := by
    rw [inVolume, inClaim]
    simp only [Option.any_some]
    cases p.snapshots with
    | none => rfl
    | some s => exact hclaim s _
  rw [PersistenceSpec.createPersistentVolumeClaims, List.map_append, hclaim, hsnapshots, ← present_append]
  rfl

theorem names_credentials (connection : HealthMutatorConnection) : connection.credentials.map (fun e => e.1.name) =
    present [(connection.basicAuth.isSome, "health-mutator-username"), (connection.basicAuth.isSome, "health-mutator-password"),
      ((connection.serverTLS.bind (·.secrets)).isSome, "health-mutator-tls")] := by
  rw [HealthMutatorConnection.credentials]
  cases connection.basicAuth with
  | none =>
    cases connection.serverTLS.bind (·.secrets) with
    | none => rfl
    | some secret => rfl
  | some auth =>
    cases connection.serverTLS.bind (·.secrets) with
    | none => rfl
    | some secret => rfl

/-! ### The template -/

namespace CoherenceResource

/-- What is set up for persistence. -/
def persistence (d : CoherenceResource) : Option PersistenceSpec := d.spec.coherence.bind (·.persistence)

/-- Are there certificates for the management, and for the metrics? -/
def hasCertificates (d : CoherenceResource) : Bool × Bool :=
  ((PortSpecWithSSL.certificates (d.spec.coherence.getD {}).management).isSome,
    (PortSpecWithSSL.certificates (d.spec.coherence.getD {}).metrics).isSome)

/-- Is there a volume or a claim for the data, and for the snapshots? -/
def isStored (d : CoherenceResource) : Bool × Bool :=
  ((inVolume d.persistence).1 || (inClaim d.persistence).1, (inVolume d.persistence).2 || (inClaim d.persistence).2)

/-- The names of the mounts of the init-containers. -/
def initNames (d : CoherenceResource) : List String :=
  present [(true, "coh-utils"), (true, "jvm"), (d.isStored.1, "persistence-volume"), (d.isStored.2, "snapshot-volume")]

/-- The names of the mounts of the Coherence container. -/
def cohNames (d : CoherenceResource) : List String :=
  volumeNames d.hasCertificates.1 d.hasCertificates.2 d.isStored.1 d.isStored.2 false false

end CoherenceResource

theorem persistence_getD (d : CoherenceResource) : (d.spec.coherence.getD {}).persistence = d.persistence := by
  rw [CoherenceResource.persistence]
  cases d.spec.coherence with
  | none => rfl
  | some s => rfl

theorem volumeMounts_launchedContainer (op : Operator) (d : CoherenceResource) (services : Option String) :
    (d.launchedContainer op services).volumeMounts = createCommonVolumeMounts := by
  rw [CoherenceResource.launchedContainer]
  unfold ApplicationSpec.updateCoherenceContainer
  split
  · rfl
  · simp only [apply_ite Container.toContainerFields, ite_self]
    rfl

theorem volumeMounts_updateCoherenceContainer (jvm : Option JVMSpec) (c : Container) :
    (JVMSpec.updateCoherenceContainer jvm c).volumeMounts = c.volumeMounts := by
  obtain ⟨command, args, ports, h⟩ := exists_updateCoherenceContainer_eq jvm c
  rw [h]

/-- The mounts of an init-container of the operator. -/
theorem mounts_createInitContainer (name image : String) (command : List String) :
    (d.createInitContainer name image command).Mounts name d.initNames := by
  refine ⟨rfl, ?_⟩
  show (createCommonVolumeMounts ++ ((d.persistence.map (·.volumeMounts)).getD [])).map (·.name) = _
  rw [List.map_append, names_persistenceMounts, CoherenceResource.initNames]
  exact (present_append [(true, "coh-utils"), (true, "jvm")] _).symm

/-- The mounts that are added to the Coherence container. -/
theorem names_withCoherence (d : CoherenceResource) (c : Container) :
    (d.withCoherence c).volumeMounts.map (·.name) = c.volumeMounts.map (·.name) ++
      present [(d.hasCertificates.1, "management-ssl-config"), (d.hasCertificates.2, "metrics-ssl-config"),
        (d.isStored.1, "persistence-volume"), (d.isStored.2, "snapshot-volume")] := by
  rw [CoherenceResource.withCoherence]
  simp only [List.map_append, names_portMounts, persistence_getD, names_persistenceMounts, List.append_assoc, ← present_append]
  rfl

/-- The mounts of the Coherence container. -/
theorem mounts_withCoherence {name : String} (h : c.Mounts name (createCommonVolumeMounts.map (·.name))) :
    (d.withCoherence c).Mounts name d.cohNames := by
  have hcommon : createCommonVolumeMounts.map (·.name) = present [(true, "coh-utils"), (true, "jvm")] := rfl
  refine ⟨h.name, ?_⟩
  rw [names_withCoherence, h.mounts, hcommon, ← present_append]
  rfl

/-- The names of the volumes of the operator. -/
theorem names_operatorVolumes (d : CoherenceResource) : d.operatorVolumes.map (·.name) =
    volumeNames d.hasCertificates.1 d.hasCertificates.2 (inVolume d.persistence).1 (inVolume d.persistence).2 false false := by
  have hcommon : ∀ source, [({ name := "coh-utils", source := .emptyDir } : Volume), { name := "jvm", source }].map (·.name) =
      present [(true, "coh-utils"), (true, "jvm")] := fun _ => rfl
  rw [CoherenceResource.operatorVolumes]
  simp only [List.map_append, hcommon, names_portVolumes, persistence_getD, names_persistenceVolumes, ← present_append]
  rfl

/-- The volumes of the template, when the spec has none. -/
theorem names_volumes (op : Operator) (labels annotations : Labels) (services : Option String) (h : d.spec.NoVolumes) :
    (d.createPodTemplateSpec op labels annotations services).volumes.map (·.name) =
      volumeNames d.hasCertificates.1 d.hasCertificates.2 (inVolume d.persistence).1 (inVolume d.persistence).2 false false := by
  rw [volumes_createPodTemplateSpec, h.secretVolumes, h.configMapVolumes, h.volumes, ← names_operatorVolumes]
  simp only [List.map_nil, List.append_nil]

/-- The mounts of the containers of the operator, when the spec has none. -/
theorem mounts_createPodTemplateSpec (op : Operator) (labels annotations : Labels) (services : Option String)
    (h : d.spec.NoVolumes) :
    (d.createPodTemplateSpec op labels annotations services).Mounts d.cohNames d.initNames d.initNames := by
  have hbase : (d.baseTemplate op labels annotations services).Mounts d.cohNames d.initNames d.initNames := by
    refine headedBy_baseTemplate (P := Container.Mounts "coherence" (createCommonVolumeMounts.map (·.name))) op d labels
      annotations services (fun ports => ?_) ?_ ?_ (fun c hc => ?_) (fun c => mounts_withCoherence)
    · rw [h.volumeMounts, List.append_nil, volumeMounts_launchedContainer]
      exact ⟨name_launchedContainer .., rfl⟩
    · rw [h.volumeMounts, List.append_nil]
      exact mounts_createInitContainer ..
    · rw [h.volumeMounts, List.append_nil]
      have hconfig := mounts_createInitContainer (d := d) "coherence-k8s-config" (d.coherenceImage op)
        [VolumeMountPathUtils ++ "/runner", "config"]
      exact ⟨hconfig.name, hconfig.mounts⟩
    · exact ⟨(PodTemplateSpec.HeadedBy.name_updateCoherenceContainer _ c).trans hc.name,
        (congrArg _ (volumeMounts_updateCoherenceContainer _ c)).trans hc.mounts⟩
  have hadded : ∀ volumes, { d.processSideCars (d.baseTemplate op labels annotations services) with volumes }.Mounts
      d.cohNames d.initNames d.initNames :=
    fun _ => ⟨hbase.processSideCars.coherence, hbase.processSideCars.inits⟩
  rw [createPodTemplateSpec_eq, h.secretVolumes, h.configMapVolumes]
  exact (hadded _).shareEnv (fun _ _ h => ⟨h.name, h.mounts⟩) (fun _ _ h => ⟨h.name, h.mounts⟩) _

/-! ### The credentials of the health server -/

/-- Are there credentials, and certificates, for the health server? -/
def CoherenceStatefulSetResourceSpec.isSecured (spec : CoherenceStatefulSetResourceSpec) : Bool × Bool :=
  ((spec.healthMutatorConnection.filter (·.secure)).any fun connection => connection.basicAuth.isSome,
    (spec.healthMutatorConnection.filter (·.secure)).any fun connection => (connection.serverTLS.bind (·.secrets)).isSome)

/-- The names of the volumes of the credentials. -/
def CoherenceStatefulSetResourceSpec.securedNames (spec : CoherenceStatefulSetResourceSpec) : List String :=
  present [(spec.isSecured.1, "health-mutator-username"), (spec.isSecured.1, "health-mutator-password"),
    (spec.isSecured.2, "health-mutator-tls")]

/-- The Coherence container and the last of the two init-containers get the mounts of the credentials, and the template gets their
volumes. -/
theorem mounts_configureHealthMutators (op : Operator) (spec : CoherenceStatefulSetResourceSpec) {cs is js : List String}
    (h : t.Mounts cs is js) :
    (spec.configureHealthMutators op t).Mounts (cs ++ spec.securedNames) is (js ++ spec.securedNames) ∧
      (spec.configureHealthMutators op t).volumes.map (·.name) = t.volumes.map (·.name) ++ spec.securedNames := by
  have hnames : ∀ connection, spec.healthMutatorConnection.filter (·.secure) = some connection →
      connection.credentials.map (fun e => e.1.name) = spec.securedNames := by
    intro connection hconnection
    rw [names_credentials, CoherenceStatefulSetResourceSpec.securedNames, CoherenceStatefulSetResourceSpec.isSecured, hconnection]
    rfl
  unfold CoherenceStatefulSetResourceSpec.configureHealthMutators
  cases hconnection : spec.healthMutatorConnection.filter (·.secure) with
  | none =>
    have hnone : spec.securedNames = [] := by
      rw [CoherenceStatefulSetResourceSpec.securedNames, CoherenceStatefulSetResourceSpec.isSecured, hconnection]
      rfl
    rw [hnone, List.append_nil, List.append_nil, List.append_nil]
    exact ⟨h, rfl⟩
  | some connection =>
    have hmounts : ∀ data (c : Container), (spec.secureContainer data connection c).volumeMounts.map (·.name) =
        c.volumeMounts.map (·.name) ++ spec.securedNames := by
      intro data c
      rw [← hnames connection hconnection]
      show (c.volumeMounts ++ _).map _ = _
      rw [List.map_append, List.map_map]
      rfl
    have hname : ∀ name data (c : Container),
        (if c.name = name then spec.secureContainer data connection c else c).name = c.name := by
      intro name data c
      split
      · rfl
      · rfl
    obtain ⟨c, cs', hcs, hc, -⟩ := h.coherence
    refine ⟨h.map (hname "coherence" _) (fun c hc hcs => ?_) (fun i hi => ?_) (fun j hj => ?_) rfl rfl, ?_⟩
    · rw [if_pos hc]
      exact ⟨hc, by rw [hmounts, hcs.mounts]⟩
    · dsimp only
      rw [if_neg (by rw [hi.name]; decide)]
      exact hi
    · dsimp only
      rw [if_pos hj.name]
      exact ⟨hj.name, by rw [hmounts, hj.mounts]⟩
    · have hmounted : (t.containers.any fun c => c.name = "coherence") = true := by simp [hcs, hc]
      dsimp only
      rw [hmounted, Bool.true_or, if_pos rfl, List.map_append, List.map_map, ← hnames connection hconnection]
      rfl

/-! ### Each mount has its volume -/

/-- What is mounted by name. -/
theorem isMounted_iff {claims : List PersistentVolumeClaim} {cs is js : List String} (h : t.Mounts cs is js) :
    t.IsMounted claims ↔
      ∀ n ∈ cs ++ is ++ js, (t.volumes.map (·.name)).count n + (claims.map (·.name)).count n = 1 := by
  obtain ⟨c, cs', hcs, hc, hcoherence⟩ := h.coherence
  obtain ⟨i, j, is', his, hi, hj⟩ := h.inits
  constructor
  · rintro ⟨c₁, i₁, j₁, hc₁, hij₁, -, -, -, hmounted⟩ n hn
    rw [hcs, List.head?_cons] at hc₁
    rw [his, List.take_succ_cons, List.take_succ_cons, List.take_zero] at hij₁
    obtain ⟨rfl, rfl⟩ : i = i₁ ∧ j = j₁ := by simpa using hij₁
    obtain rfl : c = c₁ := Option.some.inj hc₁
    rw [← hcoherence.mounts, ← hi.mounts, ← hj.mounts, ← List.map_append, ← List.map_append] at hn
    obtain ⟨m, hm, rfl⟩ := List.mem_map.1 hn
    rcases List.mem_append.1 hm with hm | hm
    · rcases List.mem_append.1 hm with hm | hm
      · exact hmounted c (by simp) m hm
      · exact hmounted i (by simp) m hm
    · exact hmounted j (by simp) m hm
  · intro hnames
    refine ⟨c, i, j, by rw [hcs]; rfl, by rw [his]; rfl, hc, hi.name, hj.name, fun x hx m hm => ?_⟩
    have hx : x.volumeMounts.map (·.name) = cs ∨ x.volumeMounts.map (·.name) = is ∨ x.volumeMounts.map (·.name) = js := by
      simp only [List.mem_cons, List.not_mem_nil, or_false] at hx
      rcases hx with rfl | rfl | rfl
      · exact .inl hcoherence.mounts
      · exact .inr (.inl hi.mounts)
      · exact .inr (.inr hj.mounts)
    have hm : m.name ∈ x.volumeMounts.map (·.name) := List.mem_map_of_mem hm
    apply hnames
    rcases hx with hx | hx | hx
    · exact List.mem_append_left _ (List.mem_append_left _ (hx ▸ hm))
    · exact List.mem_append_left _ (List.mem_append_right _ (hx ▸ hm))
    · exact List.mem_append_right _ (hx ▸ hm)

/-- The credentials come after the other volumes. -/
theorem volumeNames_append : ∀ m x p s u h : Bool, volumeNames m x p s u h = volumeNames m x p s false false ++
    present [(u, "health-mutator-username"), (u, "health-mutator-password"), (h, "health-mutator-tls")] := by
  decide +kernel

/-- What the init-containers mount the Coherence container mounts, too. -/
theorem mem_volumeNames : ∀ m x p s u h : Bool,
    (present [(true, "coh-utils"), (true, "jvm"), (p, "persistence-volume"), (s, "snapshot-volume")] ++
      present [(u, "health-mutator-username"), (u, "health-mutator-password"), (h, "health-mutator-tls")]).all
        (fun n => n ∈ volumeNames m x p s u h) = true := by
  decide +kernel

/-- The claims by their names, also without persistence. -/
theorem names_volumeClaimTemplates (op : Operator) (c : Coherence) (services : Option String)
    (h : c.spec.volumeClaimTemplates = []) : ((Workload.statefulSet c services).claims op).map (·.name) =
      present [(!(inVolume c.toResource.persistence).1 && (inClaim c.toResource.persistence).1, "persistence-volume"),
        (!(inVolume c.toResource.persistence).2 && (inClaim c.toResource.persistence).2, "snapshot-volume")] := by
  rw [Workload.claims, Coherence.createStatefulSet, CoherenceResource.persistence]
  dsimp only
  rw [h, List.append_nil]
  cases hp : c.toResource.spec.coherence.bind (·.persistence) with
  | none =>
    rw [show c.spec.coherence.bind (·.persistence) = none from hp]
    rfl
  | some p =>
    rw [show c.spec.coherence.bind (·.persistence) = some p from hp]
    exact names_claims ..

/-- The claims that are to be made for a Job. -/
theorem claimsForJob_iff (c : CoherenceJob) : (Workload.job c).ClaimsForJob ↔
    (!(inVolume c.toResource.persistence).1 && (inClaim c.toResource.persistence).1 ||
      !(inVolume c.toResource.persistence).2 && (inClaim c.toResource.persistence).2) = true := by
  have hclaim : ∀ s : PersistentStorageSpec,
      s.IsClaim ↔ (!s.volume.isSome && s.persistentVolumeClaim.isSome) = true := by
    intro s
    simp [PersistentStorageSpec.IsClaim]
  show (∃ p, c.toResource.persistence = some p ∧ (p.storage.IsClaim ∨ ∃ s, p.snapshots = some s ∧ s.IsClaim)) ↔ _
  cases c.toResource.persistence with
  | none => simp [inVolume, inClaim]
  | some p =>
    simp only [inVolume, inClaim, Option.any_some, Option.some.injEq, exists_eq_left', Bool.or_eq_true, hclaim]
    cases p.snapshots with
    | none => simp
    | some s => simp

/-- What is in the template of a StatefulSet is there for each mount. -/
theorem isMounted_statefulSet (op : Operator) {c : Coherence} (services : Option String)
    (h : (Workload.statefulSet c services).NoVolumes) :
    ((Workload.statefulSet c services).template op).IsMounted ((Workload.statefulSet c services).claims op) := by
  obtain ⟨h, hclaims⟩ := h
  have hd : c.toResource.spec.NoVolumes := h
  obtain ⟨hmounts, hvolumes⟩ := mounts_configureHealthMutators op c.spec (mounts_createPodTemplateSpec op
    (c.toResource.podLabels op) (c.toResource.podAnnotations op) services hd)
  refine (isMounted_iff hmounts).2 fun n hn => ?_
  rw [names_volumeClaimTemplates op c services hclaims]
  show (List.map (·.name) (c.spec.configureHealthMutators op (c.toResource.createPodTemplateSpec op
    (c.toResource.podLabels op) (c.toResource.podAnnotations op) services)).volumes).count n + _ = 1
  rw [hvolumes, names_volumes op _ _ services hd, CoherenceStatefulSetResourceSpec.securedNames, ← volumeNames_append]
  have hcoherence : c.toResource.cohNames ++ c.spec.securedNames =
      volumeNames c.toResource.hasCertificates.1 c.toResource.hasCertificates.2 c.toResource.isStored.1 c.toResource.isStored.2
        c.spec.isSecured.1 c.spec.isSecured.2 := (volumeNames_append ..).symm
  have hmem : n ∈ volumeNames c.toResource.hasCertificates.1 c.toResource.hasCertificates.2 c.toResource.isStored.1
      c.toResource.isStored.2 c.spec.isSecured.1 c.spec.isSecured.2 := by
    have hinits := List.all_eq_true.1 (mem_volumeNames c.toResource.hasCertificates.1 c.toResource.hasCertificates.2
      c.toResource.isStored.1 c.toResource.isStored.2 c.spec.isSecured.1 c.spec.isSecured.2)
    rw [hcoherence] at hn
    rcases List.mem_append.1 hn with hn | hn
    · rcases List.mem_append.1 hn with hn | hn
      · exact hn
      · exact of_decide_eq_true (hinits n (List.mem_append_left _ hn))
    · exact of_decide_eq_true (hinits n hn)
  exact of_decide_eq_true (List.all_eq_true.1 (count_volumeNames ..) n hmem)

/-- That of a Job is, but for the claims. -/
theorem isMounted_job (op : Operator) {c : CoherenceJob} (h : (Workload.job c).NoVolumes) :
    ((Workload.job c).template op).IsMounted [] ↔ ¬ (Workload.job c).ClaimsForJob := by
  have hd : c.toResource.spec.NoVolumes := h
  have hmounts := mounts_createPodTemplateSpec op (c.toResource.podLabels op) (c.toResource.podAnnotations op) none hd
  have hmounts : ((Workload.job c).template op).Mounts _ _ _ := ⟨hmounts.coherence, hmounts.inits⟩
  have hvolumes : ((Workload.job c).template op).volumes.map (·.name) = _ :=
    names_volumes op (c.toResource.podLabels op) (c.toResource.podAnnotations op) none hd
  rw [isMounted_iff hmounts, hvolumes, claimsForJob_iff, Bool.not_eq_true, ← Bool.not_eq_true', ← count_volumeNames_job
    c.toResource.hasCertificates.1 c.toResource.hasCertificates.2, List.all_eq_true]
  have hinits := List.all_eq_true.1 (mem_volumeNames c.toResource.hasCertificates.1 c.toResource.hasCertificates.2
    c.toResource.isStored.1 c.toResource.isStored.2 false false)
  simp only [decide_eq_true_eq]
  constructor
  · exact fun h n hn => h n (List.mem_append_left _ (List.mem_append_left _ hn))
  · intro h n hn
    apply h
    rcases List.mem_append.1 hn with hn | hn
    · rcases List.mem_append.1 hn with hn | hn
      · exact hn
      · exact of_decide_eq_true (hinits n (List.mem_append_left _ hn))
    · exact of_decide_eq_true (hinits n (List.mem_append_left _ hn))

/-- A Job whose data are to be stored in a claim. -/
def claimingJob : CoherenceJob where
  metadata := { ns := "default", name := "job" }
  spec := { coherence := some { persistence := some { storage := { persistentVolumeClaim := some ∅ } } } }

theorem noVolumes_claimingJob : (Workload.job claimingJob).NoVolumes := ⟨rfl, rfl, rfl, rfl⟩

end CoherenceOperator
