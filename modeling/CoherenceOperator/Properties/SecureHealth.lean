import CoherenceOperator.Properties.Credentials
import CoherenceOperator.Properties.Mounts

/-!
# Secure health

A record of the connection is written to the template by `ConfigureHealthMutators`, and read off a Pod by `executeProbeForPods`,
which may be a Pod of another generation. What is written decodes to the connection of the spec, with its credentials mounted; and
no Pod that has the variable is contacted unless its annotation is a valid connection, which then is what a suspension uses.
-/

namespace CoherenceOperator

open Effect Prog

variable {op : Operator} {d : CoherenceResource} {spec : CoherenceStatefulSetResourceSpec} {connection : HealthMutatorConnection}
  {labels annotations : Labels} {services : Option String} {t : PodTemplateSpec} {x : Container} {names : List String}

/-! ### What is expected of the template -/

/-- The containers that `ConfigureHealthMutators` is about. -/
def PodTemplateSpec.targets (t : PodTemplateSpec) : List Container :=
  t.containers.filter (·.name = "coherence") ++ t.initContainers.filter (·.name = "coherence-k8s-config")

/-- The names of volumes that are the operator's. -/
def reservedVolumes : List String := ["health-mutator-username", "health-mutator-password", "health-mutator-tls"]

/-- The mount of a volume with credentials. -/
def credentialMount (e : Volume × String) : VolumeMount := { name := e.1.name, mountPath := e.2, readOnly := true }

/-- The mounts with the name of a volume. -/
def mountsOf (name : String) (c : Container) : List VolumeMount := c.volumeMounts.filter (·.name = name)

/-- The connection is recorded in the template, and its credentials are in volumes that are mounted once, given the template that was
there before. -/
structure PodTemplateSpec.Records (op : Operator) (connection : HealthMutatorConnection) (t before : PodTemplateSpec) : Prop where
  targets : ∀ name ∈ ["coherence", "coherence-k8s-config"], ∃ x ∈ t.targets, x.name = name
  annotation : ∃ data, t.annotations.lookup HealthMutatorAnnotation = some data ∧ op.parseConnection data = some connection
  env : ∀ x ∈ t.targets, ∃ v, effectiveEnv HealthMutatorEnv x.env = some v ∧ v.valueFrom = none ∧
    op.parseConnection v.value = some connection
  volumes : ∀ e ∈ connection.credentials, t.volumes.filter (·.name = e.1.name) = [e.1]
  mounts : ∀ x ∈ t.targets, ∃ y ∈ before.targets, y.name = x.name ∧ ∀ e ∈ connection.credentials,
    mountsOf e.1.name x = mountsOf e.1.name y ++ [credentialMount e]

/-- The volumes of the spec have other names. -/
structure CoherenceResourceSpec.AvoidsVolumes (names : List String) (spec : CoherenceResourceSpec) : Prop where
  volumes : ∀ v ∈ spec.volumes, v.name ∉ names
  configMapVolumes : ∀ v ∈ spec.configMapVolumes, v.volName ∉ names
  secretVolumes : ∀ v ∈ spec.secretVolumes, v.volName ∉ names

/-- The mounts of the spec are of other volumes, also those in its own containers. -/
structure CoherenceResourceSpec.AvoidsMounts (names : List String) (spec : CoherenceResourceSpec) : Prop where
  volumeMounts : ∀ m ∈ spec.volumeMounts, m.name ∉ names
  containers : ∀ c ∈ spec.sideCars ++ spec.initContainers, ∀ m ∈ c.volumeMounts, m.name ∉ names

/-! ### The volumes and mounts of the operator -/

/-- The names of the operator's own volumes are not reserved. -/
theorem notMem_reservedVolumes : ∀ m x p s : Bool,
    (volumeNames m x p s false false).all (fun n => n ∉ reservedVolumes) = true := by
  decide +kernel

/-- The mounts are of other volumes. -/
def Container.Avoids (names : List String) (c : Container) : Prop := ∀ m ∈ c.volumeMounts, m.name ∉ names

theorem avoids_iff : x.Avoids names ↔ ∀ n ∈ x.volumeMounts.map (·.name), n ∉ names := by
  rw [Container.Avoids, List.forall_mem_map]

theorem Container.Avoids.append {mounts : List VolumeMount} (h : x.Avoids names) (hm : ∀ m ∈ mounts, m.name ∉ names) :
    ({ x with volumeMounts := x.volumeMounts ++ mounts } : Container).Avoids names := by
  intro m hmem
  rcases List.mem_append.1 hmem with hmem | hmem
  · exact h m hmem
  · exact hm m hmem

/-- An additional container gets the common mounts and those of the spec. -/
theorem avoids_processAdditionalContainer (hcommon : ∀ m ∈ createCommonVolumeMounts, m.name ∉ names)
    (hmounts : ∀ m ∈ d.spec.volumeMounts, m.name ∉ names) (h : x.Avoids names) :
    (d.processAdditionalContainer x).Avoids names := by
  have hfold : ∀ (ms mounts : List VolumeMount), (∀ m ∈ ms, m.name ∉ names) → (∀ m ∈ mounts, m.name ∉ names) →
      ∀ m ∈ ms.foldl (fun mounts m => if mounts.any fun x => x.name = m.name then mounts else mounts ++ [m]) mounts,
        m.name ∉ names := by
    intro ms
    induction ms with
    | nil => exact fun mounts _ h => h
    | cons first ms ih =>
      intro mounts hms h
      refine ih _ (fun m hm => hms m (List.mem_cons_of_mem _ hm)) ?_
      dsimp only
      split
      · exact h
      · intro m hm
        rcases List.mem_append.1 hm with hm | hm
        · exact h m hm
        · exact List.mem_singleton.1 hm ▸ hms first List.mem_cons_self
  intro m hm
  rcases List.mem_append.1 hm with hm | hm
  · exact hfold _ _ hcommon h m hm
  · exact hmounts m hm

theorem notMem_of_operator {m x p s : Bool} {n : String} (h : n ∈ volumeNames m x p s false false) : n ∉ reservedVolumes :=
  of_decide_eq_true (List.all_eq_true.1 (notMem_reservedVolumes m x p s) n h)

theorem avoids_common : ∀ m ∈ createCommonVolumeMounts, m.name ∉ reservedVolumes := by decide

/-- **No container mounts a reserved volume**, unless the spec says so. -/
theorem all_avoids_createPodTemplateSpec (op : Operator) (labels annotations : Labels) (services : Option String)
    (hvolumes : d.spec.AvoidsVolumes reservedVolumes) (hmounts : d.spec.AvoidsMounts reservedVolumes) :
    (d.createPodTemplateSpec op labels annotations services).All (Container.Avoids reservedVolumes) := by
  have hinit : ∀ name image command, ({ d.createInitContainer name image command with
      volumeMounts := (d.createInitContainer name image command).volumeMounts ++ d.spec.volumeMounts } : Container).Avoids
        reservedVolumes := by
    intro name image command
    refine Container.Avoids.append (fun m hm => ?_) hmounts.volumeMounts
    have hm : m.name ∈ d.initNames := by
      rw [← (mounts_createInitContainer name image command).mounts]
      exact List.mem_map_of_mem hm
    exact notMem_of_operator (m := false) (x := false) hm
  have hbase : (d.baseTemplate op labels annotations services).All (Container.Avoids reservedVolumes) := by
    refine PodTemplateSpec.All.replace (f := d.withCoherence) "coherence" ?_ (fun m hm => absurd hm List.not_mem_nil) ?_ rfl rfl
    · refine PodTemplateSpec.All.replace (f := JVMSpec.updateCoherenceContainer d.spec.jvm) "coherence" ?_
        (fun m hm => absurd hm List.not_mem_nil) (fun c hc m hm => ?_) rfl rfl
      · refine PodTemplateSpec.All.of_lists (List.forall_mem_singleton.2 ?_) fun c hc => ?_
        · refine Container.Avoids.append (fun m hm => ?_) hmounts.volumeMounts
          rw [volumeMounts_launchedContainer] at hm
          exact avoids_common m hm
        · rcases List.mem_cons.1 hc with rfl | hc
          · exact hinit "coherence-k8s-utils" op.operatorImage ["/files/runner", "init"]
          · rw [List.mem_singleton.1 hc]
            exact hinit "coherence-k8s-config" (d.coherenceImage op) [VolumeMountPathUtils ++ "/runner", "config"]
      · rw [volumeMounts_updateCoherenceContainer] at hm
        exact hc m hm
    · intro c hc
      rw [avoids_iff, names_withCoherence]
      intro n hn
      rcases List.mem_append.1 hn with hn | hn
      · exact avoids_iff.1 hc n hn
      · refine notMem_of_operator (List.mem_append_right (present [(true, "coh-utils"), (true, "jvm")]) hn)
  rw [createPodTemplateSpec_eq]
  refine PodTemplateSpec.All.shareEnv ?_ (fun c env h => h) _
  refine PodTemplateSpec.All.foldl_addVolumes VolumeSpec.secret (fun v hv c hc => hc.append ?_) ?_
  · exact List.forall_mem_singleton.2 (hvolumes.secretVolumes v hv)
  refine PodTemplateSpec.All.foldl_addVolumes VolumeSpec.configMap (fun v hv c hc => hc.append ?_) ?_
  · exact List.forall_mem_singleton.2 (hvolumes.configMapVolumes v hv)
  exact hbase.processSideCars fun c hc =>
    avoids_processAdditionalContainer avoids_common hmounts.volumeMounts (hmounts.containers c hc)

/-- No volume has a reserved name. -/
theorem volumes_avoid (op : Operator) (labels annotations : Labels) (services : Option String)
    (h : d.spec.AvoidsVolumes reservedVolumes) :
    ∀ v ∈ (d.createPodTemplateSpec op labels annotations services).volumes, v.name ∉ reservedVolumes := by
  intro v hv
  rw [volumes_createPodTemplateSpec] at hv
  rcases List.mem_append.1 hv with hv | hv
  · rcases List.mem_append.1 hv with hv | hv
    · rcases List.mem_append.1 hv with hv | hv
      · have hname : v.name ∈ d.operatorVolumes.map (·.name) := List.mem_map_of_mem hv
        rw [names_operatorVolumes] at hname
        exact notMem_of_operator hname
      · exact h.volumes v hv
    · obtain ⟨w, hw, rfl⟩ := List.mem_map.1 hv
      exact h.configMapVolumes w hw
  · obtain ⟨w, hw, rfl⟩ := List.mem_map.1 hv
    exact h.secretVolumes w hw

/-! ### What is recorded -/

/-- An element is the only one of its key in a list without a repeated key. -/
theorem filter_key_eq {α β : Type} [DecidableEq β] {l : List α} (key : α → β) {a : α} (h : (l.map key).Nodup) (ha : a ∈ l) :
    l.filter (fun b => key b = key a) = [a] := by
  induction l with
  | nil => cases ha
  | cons b l ih =>
    rw [List.map_cons, List.nodup_cons] at h
    rcases List.mem_cons.1 ha with rfl | ha
    · rw [List.filter_cons_of_pos (by simp), List.filter_eq_nil_iff.2]
      intro c hc
      simpa using fun hkey => h.1 (List.mem_map.2 ⟨c, hc, hkey⟩)
    · have hne : key b ≠ key a := fun hkey => h.1 (hkey ▸ List.mem_map_of_mem ha)
      rw [List.filter_cons_of_neg (by simpa using hne), ih h.2 ha]

/-- The volumes of the credentials have names of their own. -/
theorem nodup_credentials (connection : HealthMutatorConnection) : (connection.credentials.map (fun e => e.1.name)).Nodup := by
  have hnodup : ∀ u h : Bool, (present [(u, "health-mutator-username"), (u, "health-mutator-password"),
    (h, "health-mutator-tls")]).Nodup := by decide +kernel
  rw [names_credentials]
  exact hnodup _ _

/-- They are the reserved ones. -/
theorem mem_reservedVolumes {e : Volume × String} (h : e ∈ connection.credentials) : e.1.name ∈ reservedVolumes := by
  have hreserved : ∀ u h : Bool, (present [(u, "health-mutator-username"), (u, "health-mutator-password"),
    (h, "health-mutator-tls")]).all (fun n => n ∈ reservedVolumes) = true := by decide +kernel
  have hmem : e.1.name ∈ connection.credentials.map fun e => e.1.name := List.mem_map_of_mem h
  rw [names_credentials] at hmem
  exact of_decide_eq_true (List.all_eq_true.1 (hreserved _ _) _ hmem)

/-- The containers that are secured. -/
theorem mem_targets_configureHealthMutators (hconnection : spec.healthMutatorConnection = some connection)
    (hsecure : connection.secure = true) (hx : x ∈ (spec.configureHealthMutators op t).targets) :
    ∃ y ∈ t.targets, y.name = x.name ∧ x = spec.secureContainer (op.formatConnection connection) connection y := by
  have hfilter : spec.healthMutatorConnection.filter (·.secure) = some connection := by
    rw [hconnection]
    simp [Option.filter, hsecure]
  -- containers of one list, of which those with the name are secured
  have hone : ∀ {name : String} {cs : List Container}, x ∈ (cs.map fun c =>
      if c.name = name then spec.secureContainer (op.formatConnection connection) connection c else c).filter (·.name = name) →
      ∃ y ∈ cs.filter (·.name = name), y.name = x.name ∧
        x = spec.secureContainer (op.formatConnection connection) connection y := by
    intro name cs hx
    obtain ⟨hx, hname⟩ := List.mem_filter.1 hx
    obtain ⟨y, hy, rfl⟩ := List.mem_map.1 hx
    by_cases hyname : y.name = name
    · rw [if_pos hyname]
      exact ⟨y, List.mem_filter.2 ⟨hy, by simpa using hyname⟩, rfl, rfl⟩
    · rw [if_neg hyname] at hname
      exact absurd (of_decide_eq_true hname) hyname
  unfold CoherenceStatefulSetResourceSpec.configureHealthMutators at hx
  rw [hfilter] at hx
  rcases List.mem_append.1 hx with hx | hx
  · obtain ⟨y, hy, h⟩ := hone hx
    exact ⟨y, List.mem_append_left _ hy, h⟩
  · obtain ⟨y, hy, h⟩ := hone hx
    exact ⟨y, List.mem_append_right _ hy, h⟩

/-- The three containers of the operator are there. -/
theorem named_createPodTemplateSpec (op : Operator) (d : CoherenceResource) (labels annotations : Labels) (services : Option String) :
    (d.createPodTemplateSpec op labels annotations services).HeadedBy (fun _ => True) (·.name = "coherence-k8s-utils")
      (·.name = "coherence-k8s-config") := by
  have hbase : (d.baseTemplate op labels annotations services).HeadedBy (fun _ => True) (·.name = "coherence-k8s-utils")
      (·.name = "coherence-k8s-config") :=
    headedBy_baseTemplate (P := fun _ => True) op d labels annotations services (fun _ => trivial) rfl rfl
      (fun _ _ => trivial) fun _ (_ : True) => trivial
  have hmount : ∀ (t : PodTemplateSpec) (source : VolumeSource) (v : VolumeSpec),
      t.HeadedBy (fun _ => True) (·.name = "coherence-k8s-utils") (·.name = "coherence-k8s-config") →
      (v.addVolumes source t).HeadedBy (fun _ => True) (·.name = "coherence-k8s-utils") (·.name = "coherence-k8s-config") :=
    fun t source v h => h.map (f := fun c => { c with volumeMounts := c.volumeMounts ++ [v.volumeMount] })
      (g := fun c => { c with volumeMounts := c.volumeMounts ++ [v.volumeMount] }) (fun _ => rfl) (fun _ _ _ => trivial)
      (fun _ hi => hi) (fun _ hj => hj) rfl rfl
  rw [createPodTemplateSpec_eq]
  refine PodTemplateSpec.HeadedBy.shareEnv (I := (·.name = "coherence-k8s-utils")) (J := (·.name = "coherence-k8s-config")) ?_
    (fun _ _ h => h) (fun _ _ h => h) _
  refine PodTemplateSpec.HeadedBy.foldl (fun t v => hmount t v.secret v) _ ?_
  refine PodTemplateSpec.HeadedBy.foldl (fun t v => hmount t v.configMap v) _ ?_
  exact ⟨hbase.processSideCars.coherence, hbase.processSideCars.inits⟩

/-- **What `ConfigureHealthMutators` writes**: the connection is recorded. -/
theorem records_configureHealthMutators {P I : Container → Prop} (hconnection : spec.healthMutatorConnection = some connection)
    (hsecure : connection.secure = true) (hjson : op.parseConnection (op.formatConnection connection) = some connection)
    (hnamed : t.HeadedBy P I (·.name = "coherence-k8s-config")) (hvolumes : ∀ v ∈ t.volumes, v.name ∉ reservedVolumes) :
    (spec.configureHealthMutators op t).Records op connection t := by
  obtain ⟨c, cs, hcs, hc, -⟩ := hnamed.coherence
  obtain ⟨i, j, is, his, -, hj⟩ := hnamed.inits
  have hfilter : spec.healthMutatorConnection.filter (·.secure) = some connection := by
    rw [hconnection]
    simp [Option.filter, hsecure]
  have hmounted : (t.containers.any fun c => c.name = "coherence") = true := by simp [hcs, hc]
  refine ⟨?_, ?_, ?_, ?_, ?_⟩
  · unfold CoherenceStatefulSetResourceSpec.configureHealthMutators
    rw [hfilter]
    intro name hname
    rcases List.mem_cons.1 hname with rfl | hname
    · refine ⟨spec.secureContainer (op.formatConnection connection) connection c, List.mem_append_left _ ?_, hc⟩
      refine List.mem_filter.2 ⟨List.mem_map.2 ⟨c, hcs ▸ List.mem_cons_self, if_pos hc⟩, decide_eq_true hc⟩
    · obtain rfl := List.mem_singleton.1 hname
      refine ⟨spec.secureContainer (op.formatConnection connection) connection j, List.mem_append_right _ ?_, hj⟩
      refine List.mem_filter.2 ⟨List.mem_map.2 ⟨j, his ▸ List.mem_cons_of_mem _ List.mem_cons_self, if_pos hj⟩, decide_eq_true hj⟩
  · unfold CoherenceStatefulSetResourceSpec.configureHealthMutators
    rw [hfilter]
    exact ⟨_, Finmap.lookup_insert _, hjson⟩
  · intro x hx
    obtain ⟨y, -, -, rfl⟩ := mem_targets_configureHealthMutators hconnection hsecure hx
    let v : EnvVar := { name := HealthMutatorEnv, value := op.formatConnection connection }
    have hv : namedEnv HealthMutatorEnv [v] = [v] := namedEnv_cons_pos rfl
    refine ⟨v, ?_, rfl, hjson⟩
    rw [effectiveEnv, CoherenceResourceSpec.secureContainer, namedEnv_append, hv, List.getLast?_concat]
  · intro e he
    unfold CoherenceStatefulSetResourceSpec.configureHealthMutators
    rw [hfilter]
    dsimp only
    have hnone : t.volumes.filter (·.name = e.1.name) = [] := by
      rw [List.filter_eq_nil_iff]
      intro v hv hname
      exact hvolumes v hv (of_decide_eq_true hname ▸ mem_reservedVolumes he)
    have hone : (connection.credentials.map Prod.fst).filter (·.name = e.1.name) = [e.1] := by
      refine filter_key_eq (fun v : Volume => v.name) ?_ (List.mem_map_of_mem he)
      rw [List.map_map]
      exact nodup_credentials connection
    rw [hmounted, Bool.true_or, if_pos rfl, List.filter_append, hnone, List.nil_append, hone]
  · intro x hx
    obtain ⟨y, hy, hname, rfl⟩ := mem_targets_configureHealthMutators hconnection hsecure hx
    refine ⟨y, hy, hname, fun e he => ?_⟩
    have hone : (connection.credentials.map credentialMount).filter (·.name = e.1.name) = [credentialMount e] := by
      refine filter_key_eq (fun m : VolumeMount => m.name) (a := credentialMount e) ?_ (List.mem_map_of_mem he)
      rw [List.map_map]
      exact nodup_credentials connection
    rw [mountsOf, mountsOf, ← hone]
    exact List.filter_append ..

/-! ### What is read -/

namespace ProbeActions

/-- The annotation of the Pod decodes to the connection. -/
def RecordedIn (op : Operator) (pod : Pod) (connection : HealthMutatorConnection) : Prop :=
  connectionText pod ≠ "" ∧ op.parseConnection (connectionText pod) = some connection

/-- A request over TLS, with exactly the credentials of the connection, and its certificates. -/
structure UsesConnection (env : ProbeEnv) (connection : HealthMutatorConnection) (pod : Pod) (req : HTTPRequest) : Prop where
  scheme : req.url.scheme = "https".toList
  credentials : ∃ auth username password, connection.basicAuth = some auth ∧
    secretValue env pod.ns auth.username = .ok username ∧ secretValue env pod.ns auth.password = .ok password ∧
      req.headers.filter (·.isAuthorization) = [basicAuthHeader username password]
  trust : ∃ tls pem, connection.tls = some tls ∧ secretValue env pod.ns tls.caSecret = .ok pem ∧ env.hasCerts pem = true ∧
    req.tls = { rootCAs := some pem, serverName := tls.serverName }

/-- A Pod that has the variable is contacted if its annotation is a valid connection; if that is secure, by a request that uses
it. -/
structure FailsClosed (env : ProbeEnv) (op : Operator) (options : ProbeExecutionOptions) (contact : Contact) : Prop where
  recorded : carriesConnection contact.pod = true →
    ∃ connection, RecordedIn op contact.pod connection ∧ connection.validate = .ok ()
  secure : options.suspension = true → ∀ connection, RecordedIn op contact.pod connection → connection.secure = true →
    ∃ a req, contact = .http contact.pod a req ∧ UsesConnection env connection contact.pod req

/-- A connection that is valid and secure has credentials, and certificates to be trusted. -/
theorem exists_of_validate (h : connection.validate = .ok ()) (hsecure : connection.secure = true) :
    ∃ auth tls, connection.basicAuth = some auth ∧ connection.tls = some tls := by
  rw [HealthMutatorConnection.validate, hsecure] at h
  simp only [Bool.not_true, Bool.false_eq_true, if_false] at h
  cases hauth : connection.basicAuth with
  | none =>
    rw [hauth] at h
    cases h
  | some auth =>
    cases htls : connection.tls with
    | none =>
      rw [hauth, htls] at h
      cases h
    | some tls => exact ⟨auth, tls, rfl, rfl⟩

variable {env : ProbeEnv} {svc : String} {options : ProbeExecutionOptions} {p : Probe} {a : HTTPAction} {req : HTTPRequest} {pod : Pod}

/-- The credentials are the only ones of a request that has some of its connection. -/
theorem usesConnection_of_buildRequest {auth : HTTPBasicAuth} {tls : HTTPClientTLS} (hhttp : p.http = some a)
    (hauth : connection.basicAuth = some auth) (htls : connection.tls = some tls) (ha : a.basicAuth = some auth)
    (ht : a.tls = some tls) (h : buildRequest env svc pod p a = .ok req) : UsesConnection env connection pod req := by
  have hconfined := confined_of_buildRequest hhttp h
  obtain ⟨port, url, config, headers, hvalid, -, -, hheaders, -, hreq, -⟩ := buildRequest_eq_ok h
  obtain ⟨username, password, husername, hpassword, -, rfl⟩ := authorization_eq_ok hheaders ha
  obtain ⟨pem, hpem, hcerts, hconfig⟩ := hconfined.reads.trust tls ht
  refine ⟨(hconfined.address (by rw [ha]; rfl)).1, ⟨auth, username, password, hauth, husername, hpassword, ?_⟩,
    ⟨tls, pem, htls, hpem, hcerts, hconfig⟩⟩
  have hnone : a.httpHeaders.any (·.isAuthorization) = false := by
    have hbasic := ((Probe.validateAction_eq_ok_iff hhttp).1 hvalid).basicAuth auth ha
    rw [HTTPAction.validateBasicAuth, ite_error_eq_ok, ite_error_eq_ok, ite_error_eq_ok, ite_error_eq_ok] at hbasic
    simpa using hbasic.2.2.2.1
  have hcustom : (a.httpHeaders.filter (!isHost ·)).filter (·.isAuthorization) = [] := by
    rw [List.filter_eq_nil_iff]
    intro header hheader
    rw [List.any_eq_false] at hnone
    exact hnone header (List.mem_filter.1 hheader).1
  rw [hreq, List.filter_append, hcustom, List.nil_append, List.filter_cons_of_pos, List.filter_nil]
  exact (by decide +kernel : ("Authorization".toLower == "authorization") = true)

/-- The contact of an HTTP action is its request. -/
theorem exists_of_ran_http {r : Except ProbeError Bool} {contacts : List Contact} {contact : Contact} (hhttp : p.http = some a)
    (h : Ran env svc pod p r contacts) (hmem : contact ∈ contacts) :
    ∃ req, contact = .http pod a req ∧ buildRequest env svc pod p a = .ok req := by
  cases h with
  | idle => cases hmem
  | http ha hreq =>
    rw [hhttp] at ha
    cases ha
    exact ⟨_, List.mem_singleton.1 hmem, hreq⟩
  | other hnone =>
    rw [hhttp] at hnone
    cases hnone

/-- **What `executeProbeForPods` reads** decides on each contact. -/
theorem failsClosed_of_mem (env : ProbeEnv) (svc : String) (op : Operator) (sts : StatefulSet) (p : Probe)
    (stsPods pods : List Pod) (options : ProbeExecutionOptions) {contact : Contact}
    (h : contact ∈ (exec (executeProbeForPods env svc op sts p stsPods pods options) []).2) :
    FailsClosed env op options contact := by
  obtain ⟨cs, hcs, hmade, -⟩ := comes_executeProbeForPods env svc op p options pods stsPods sts
  rw [hcs [], List.append_nil] at h
  obtain ⟨pod, -, -, active, r, made, hactive, hran, hmem⟩ := hmade contact h
  obtain ⟨rfl, rfl⟩ := hran.pod_eq hmem
  rcases activeProbe_eq_ok hactive with ⟨htext, hcarries, -⟩ | ⟨htext, c, hparse, hvalid, hsecured⟩
  · constructor
    · intro hcarried
      rw [hcarries] at hcarried
      cases hcarried
    · exact fun _ connection hrecorded => absurd htext hrecorded.1
  · refine ⟨fun _ => ⟨c, ⟨htext, hparse⟩, hvalid⟩, fun hsuspension connection hrecorded hsecure => ?_⟩
    obtain rfl : c = connection := Option.some.inj (hparse.symm.trans hrecorded.2)
    obtain ⟨auth, tls, hauth, htls⟩ := exists_of_validate hvalid hsecure
    rcases hsecured with ⟨hinsecure, -⟩ | ⟨-, hprobe⟩
    · rw [hsecure] at hinsecure
      cases hinsecure
    rw [CoherenceProbe.secureProbe, hsuspension, if_pos rfl] at hprobe
    obtain ⟨a, -, -, rfl⟩ := secureSuspend_eq_ok hprobe
    obtain ⟨req, hcontact, hreq⟩ := exists_of_ran_http rfl hran hmem
    exact ⟨_, req, hcontact, usesConnection_of_buildRequest rfl hauth htls hauth htls hreq⟩

end ProbeActions

/-! ### Written and read -/

/-- The credentials are mounted once. -/
def PodTemplateSpec.MountsOnce (connection : HealthMutatorConnection) (t : PodTemplateSpec) : Prop :=
  ∀ x ∈ t.targets, ∀ e ∈ connection.credentials, mountsOf e.1.name x = [credentialMount e]

/-- The template of a Coherence before `ConfigureHealthMutators`. -/
def Coherence.unsecuredTemplate (op : Operator) (c : Coherence) (services : Option String) : PodTemplateSpec :=
  c.toResource.createPodTemplateSpec op (c.toResource.podLabels op) (c.toResource.podAnnotations op) services

/-- **Secure health is consistent, and fails closed.** A secure connection, which JSON gives back, is recorded in the template of the
StatefulSet, with its credentials mounted once; and each contact that comes of executing a probe is one that the Pod allows. -/
theorem secureHealth_consistent (op : Operator) :
    (∀ (c : Coherence) (services : Option String) (connection : HealthMutatorConnection),
      c.spec.healthMutatorConnection = some connection → connection.secure = true →
      op.parseConnection (op.formatConnection connection) = some connection →
      c.toResource.spec.AvoidsVolumes reservedVolumes →
        (c.createStatefulSet (Ranged.withServices op c services)).spec.template.Records op connection
          (c.unsecuredTemplate op services) ∧
        (c.toResource.spec.AvoidsMounts reservedVolumes →
          (c.createStatefulSet (Ranged.withServices op c services)).spec.template.MountsOnce connection)) ∧
    ∀ (env : ProbeEnv) (svc : String) (sts : StatefulSet) (p : Probe) (stsPods pods : List Pod) (options : ProbeExecutionOptions),
      ∀ contact ∈ (exec (ProbeActions.executeProbeForPods env svc op sts p stsPods pods options) []).2,
        ProbeActions.FailsClosed env op options contact := by
  refine ⟨fun c services connection hconnection hsecure hjson hvolumes => ?_, fun env svc sts p stsPods pods options _ =>
    ProbeActions.failsClosed_of_mem env svc op sts p stsPods pods options⟩
  have hrecords := records_configureHealthMutators hconnection hsecure hjson
    (named_createPodTemplateSpec op c.toResource (c.toResource.podLabels op) (c.toResource.podAnnotations op) services)
    (volumes_avoid op _ _ _ hvolumes)
  refine ⟨hrecords, fun hmounts x hx e he => ?_⟩
  obtain ⟨y, hy, -, hmount⟩ := hrecords.mounts x hx
  have hall := all_avoids_createPodTemplateSpec op (c.toResource.podLabels op) (c.toResource.podAnnotations op) services hvolumes
    hmounts
  have havoids : y.Avoids reservedVolumes := by
    refine hall y ?_
    rcases List.mem_append.1 hy with hy | hy
    · exact List.mem_append_left _ (List.mem_filter.1 hy).1
    · exact List.mem_append_right _ (List.mem_filter.1 hy).1
  have hnone : mountsOf e.1.name y = [] := by
    refine List.filter_eq_nil_iff.2 fun m hm hname => ?_
    exact havoids m hm (of_decide_eq_true hname ▸ mem_reservedVolumes he)
  rw [hmount e he, hnone, List.nil_append]

/-- A secure connection. -/
def secureConnection : HealthMutatorConnection where
  secure := true
  basicAuth := some { username := { name := "auth", key := "user" }, password := { name := "auth", key := "password" } }
  tls := some { caSecret := { name := "ca", key := "ca.crt" }, serverName := "member" }
  serverTLS := some { enabled := some true, secrets := some "tls", keyStore := some "server.p12",
                      keyStorePasswordFile := some "store-password", keyPasswordFile := some "key-password" }

/-- Its JSON. -/
def secureConnectionText : String :=
  "\x7b\"secure\":true,\"basicAuth\":\x7b\"username\":\x7b\"name\":\"auth\",\"key\":\"user\"\x7d," ++
    "\"password\":\x7b\"name\":\"auth\",\"key\":\"password\"\x7d\x7d," ++
    "\"tls\":\x7b\"caSecret\":\x7b\"name\":\"ca\",\"key\":\"ca.crt\"\x7d,\"serverName\":\"member\"\x7d," ++
    "\"serverTLS\":\x7b\"enabled\":true,\"secrets\":\"tls\",\"keyStore\":\"server.p12\"," ++
    "\"keyStorePasswordFile\":\"store-password\",\"keyPasswordFile\":\"key-password\"\x7d\x7d"

/-- An operator that writes and reads this connection. -/
def jsonOperator : Operator :=
  { (default : Operator) with
    formatConnection := fun _ => secureConnectionText
    parseConnection := fun s => if s = secureConnectionText then some secureConnection else none }

theorem parseConnection_jsonOperator : jsonOperator.parseConnection (jsonOperator.formatConnection secureConnection) =
    some secureConnection := by
  simp [jsonOperator]

/-- A Coherence with the connection. -/
def securedCoherence : Coherence where
  metadata := { ns := "default", name := "storage" }
  spec := { healthMutatorConnection := some secureConnection }

/-- A Pod of it. -/
def securedMember : Pod where
  name := "storage-0"
  ns := "default"
  podIP := "10.0.0.7"
  readySince := some 0
  annotations := (∅ : Labels).set HealthMutatorAnnotation secureConnectionText
  containers := [{ name := "coherence", env := [{ name := HealthMutatorEnv, value := secureConnectionText }] }]

/-- Its StatefulSet. -/
def securedSet : StatefulSet where
  metadata := { ns := "default", name := "storage" }
  spec := {}

/-- The credentials are in Secrets. -/
def secretsEnv : ProbeEnv := { secrets := some fun _ => .ok fun key => some key }

/-- The suspend action. -/
def suspendAction : Probe := { http := some { path := "/suspend", port := .int 6676, method := "PUT" } }

/-- The connection is recorded, and the services of the member are suspended as it says. -/
theorem secureHealth_consistent_secured :
    (securedCoherence.createStatefulSet (Ranged.withServices jsonOperator securedCoherence none)).spec.template.Records jsonOperator
        secureConnection (securedCoherence.unsecuredTemplate jsonOperator none) ∧
      ∃ contact, (exec (ProbeActions.executeProbeForPods secretsEnv "storage-wka" jsonOperator securedSet
          suspendAction [securedMember] [securedMember] { suspension := true }) []).2 = [contact] ∧
        ProbeActions.FailsClosed secretsEnv jsonOperator { suspension := true } contact := by
  refine ⟨((secureHealth_consistent jsonOperator).1 securedCoherence none secureConnection rfl rfl
    parseConnection_jsonOperator ⟨?_, ?_, ?_⟩).1, ?_⟩
  · exact List.forall_mem_nil _
  · exact List.forall_mem_nil _
  · exact List.forall_mem_nil _
  have hone : (exec (ProbeActions.executeProbeForPods secretsEnv "storage-wka" jsonOperator securedSet suspendAction
      [securedMember] [securedMember] { suspension := true }) []).2.length = 1 := by decide +kernel
  obtain ⟨contact, hcontact⟩ := List.length_eq_one_iff.1 hone
  refine ⟨contact, hcontact, (secureHealth_consistent jsonOperator).2 secretsEnv "storage-wka" securedSet suspendAction
    [securedMember] [securedMember] { suspension := true } contact ?_⟩
  rw [hcontact]
  exact List.mem_singleton_self _

end CoherenceOperator
