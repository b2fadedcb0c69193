import CoherenceOperator.Properties.Selectors
import CoherenceOperator.Runner.Forwarding

/-!
# Members find each other

A member looks for its cluster at an address. The builder puts it into a variable, the runner makes a system property of it, and it is the
name of a Service, that of the resource itself or of another one that the resource names. The Service is generated by that resource, and
it selects pods by their cluster and not by their resource. So the members that a member finds are those of all resources in the
namespace of the Service that belong to its cluster and may be looked for (`finds_iff`).
-/

namespace CoherenceOperator

open Effect Prog ArgumentFile JavaCommand

/-! ### The property of a member -/

/-- The property with the address where a member looks for its cluster. -/
def wkaProperty : String := "coherence.wka"

/-- The address at which a member looks for its cluster, given the file of its arguments. -/
def receivedWKA (file : String) : Option String := (systemProperty wkaProperty.toList (arguments file.toList)).map String.ofList

/-- The details of a run, without that address. -/
def undirectedDetails (m : Machine) (env : String → String) : Except Failure RunDetails := do
  let d ← populatedDetails m env
  afterExemptions m ((d.addSystemPropertyArg "coherence.ttl" "0").systemRest m).configureAllowEndangered

/-- Do the other options leave the address alone? The class path and they may stand in the file as they are, and none of them sets the
property. -/
def Undirected (m : Machine) (env : String → String) : Prop :=
  ∀ d cp, undirectedDetails m env = .ok d → d.classPathText m = .ok cp → IsArgument cp.toList ∧
    ∀ a ∈ d.argumentLines m cp, (∀ c ∈ a.toList, isPlain c = true) ∧ DoesNotSet wkaProperty.toList a.toList

/-- The environment of the runner, given the variables of the container. -/
def wkaEnviron (op : Operator) (d : CoherenceResource) (services : Option String) (others : String → String) : String → String :=
  environ ["COHERENCE_WKA"] (d.createCoherenceContainer op services).env others

section

variable {m : Machine} {env : String → String} {d : RunDetails}

/-- **The option stands among the other options**: those before it stand alone. -/
theorem createDetails_wka (hne : env "COHERENCE_WKA" ≠ "") (hdollar : '$' ∉ (env "COHERENCE_WKA").toList) (h : createDetails m env = .ok d) :
    ∃ before g, undirectedDetails m env = .ok (RunDetails.prependArgs before g) ∧
      d = RunDetails.prependArgs (before ++ [RunDetails.systemProperty wkaProperty (env "COHERENCE_WKA")]) g ∧
        ∀ a ∈ g.vmOptions ++ g.memoryArgs ++ g.diagnosticArgs ++ before, isAlone a.toList = true := by
  obtain ⟨d₀, d₁, hpopulated, hoptions, hextra⟩ := createDetails_eq_ok.1 h
  obtain ⟨hview, hdashed⟩ := populatedDetails_ok hpopulated
  have hafter : afterExemptions m (d₀.configureSystem m).configureAllowEndangered = .ok d := bind_eq_ok.2 ⟨d₁, hoptions, hextra⟩
  have hothers : undirectedDetails m env =
      afterExemptions m ((d₀.addSystemPropertyArg "coherence.ttl" "0").systemRest m).configureAllowEndangered := by
    rw [undirectedDetails, hpopulated]
    rfl
  have hfirst : (d₀.addSystemPropertyArg "coherence.ttl" "0").Dashed := RunDetails.dashed_addSystemPropertyArg.2 hdashed
  have henv : (d₀.addSystemPropertyArg "coherence.ttl" "0").env = env :=
    env_of_memoryView (RunDetails.memoryView_addSystemPropertyArg.trans hview)
  rw [RunDetails.configureSystem_eq] at hafter
  generalize d₀.addSystemPropertyArg "coherence.ttl" "0" = s at hafter hothers hfirst henv
  subst henv
  -- the address comes after what is there, and everything else comes after the address
  have hoption : s.addSystemPropertyFromEnvVar "COHERENCE_WKA" "coherence.wka" =
      { s with args := s.args ++ [RunDetails.systemProperty wkaProperty (s.env "COHERENCE_WKA")] } := by
    have hexpand : s.expandEnv (RunDetails.systemProperty wkaProperty (s.env "COHERENCE_WKA")) =
        RunDetails.systemProperty wkaProperty (s.env "COHERENCE_WKA") := by
      refine expand_of_notMem _ fun hc => ?_
      rw [RunDetails.systemProperty, String.toList_append, List.mem_append] at hc
      obtain hc | hc := hc
      · exact absurd hc (by decide)
      · exact hdollar hc
    have hgetenv : s.getenv "COHERENCE_WKA" = s.env "COHERENCE_WKA" := rfl
    rw [RunDetails.addSystemPropertyFromEnvVar, hgetenv, if_pos hne, RunDetails.addSystemPropertyArg, if_pos (by decide)]
    exact congrArg (fun a => ({ s with args := s.args ++ [a] } : RunDetails)) hexpand
  have hself : ∀ l, RunDetails.prependArgs (s.args ++ l) { s with args := [] } = { s with args := s.args ++ l } := by
    intro l
    simp [RunDetails.prependArgs]
  have hprepend : ∀ (l : List String) (d : RunDetails), afterExemptions m ((RunDetails.prependArgs l d).systemRest m).configureAllowEndangered =
      (afterExemptions m (d.systemRest m).configureAllowEndangered).map (RunDetails.prependArgs l) := by
    intro l d
    rw [RunDetails.systemRest_prependArgs, RunDetails.configureAllowEndangered_prependArgs, afterExemptions_prependArgs]
  rw [hoption, ← hself, hprepend] at hafter
  obtain ⟨g, hg, rfl⟩ := map_eq_ok.1 hafter
  refine ⟨s.args, g, ?_, rfl, ?_⟩
  · have hplain := hprepend s.args { s with args := [] }
    rw [RunDetails.prependArgs_self, hg] at hplain
    rw [hothers, hplain]
    rfl
  · intro a ha
    obtain ha | ha := List.mem_append.1 ha
    · refine isAlone_afterExemptions ?_ hg a ha
      rw [RunDetails.dashed_configureAllowEndangered, RunDetails.dashed_systemRest]
      intro b hb
      simp only [RunDetails.getAllArgs, List.append_nil] at hb
      exact hfirst b (List.mem_append_left _ hb)
    · exact hfirst a (List.mem_append_right _ ha)

/-- **The address is received** as the runner finds it, if the other options leave it alone. -/
theorem receivedWKA_eq {files : String × String} (hne : env "COHERENCE_WKA" ≠ "")
    (hpassed : ∀ c ∈ (env "COHERENCE_WKA").toList, c ≠ '$' ∧ isPlain c = true) (hothers : Undirected m env)
    (h : createsFiles m env = .ok files) : receivedWKA files.1 = some (env "COHERENCE_WKA") := by
  obtain ⟨d, hdetails, -⟩ := bind_eq_ok.1 h
  obtain ⟨before, g, hundirected, rfl, halone⟩ := createDetails_wka hne (fun hc => (hpassed _ hc).1 rfl) hdetails
  have hplain : ∀ a ∈ [RunDetails.systemProperty wkaProperty (env "COHERENCE_WKA")], ∀ c ∈ a.toList, isPlain c = true := by
    intro a ha c hc
    rw [List.mem_singleton.1 ha, RunDetails.systemProperty, String.toList_append, List.mem_append] at hc
    obtain hc | hc := hc
    · have hbefore : ("-D" ++ wkaProperty ++ "=").toList.all isPlain = true := by decide
      exact List.all_eq_true.1 hbefore c hc
    · exact (hpassed c hc).2
  obtain ⟨cp, after, hcp, hleft, harguments⟩ := arguments_of_createsFiles hdetails h hplain fun cp hcp => hothers _ cp hundirected hcp
  rw [List.append_assoc, List.singleton_append] at harguments
  rw [receivedWKA, harguments, systemProperty_of_lines (by decide) hcp halone hleft, Option.map_some, String.ofList_toList]

end

/-! ### The address of a Service -/

/-- The name under which a Service is found. -/
def serviceAddress (key : NamespacedName) : String := key.name ++ ("." ++ (key.ns ++ ".svc"))

/-- Texts are the same before and after the last dot if they are the same. -/
theorem eq_of_lastDot {l l' n n' : List Char} (h : '.' ∉ n) (h' : '.' ∉ n') (he : l ++ '.' :: n = l' ++ '.' :: n') : l = l' ∧ n = n' := by
  have hshorter : ∀ {a m m' : List Char}, '.' ∉ m → '.' :: m = a ++ '.' :: m' → a = [] := by
    intro a m m' hm hsplit
    cases a with
    | nil => rfl
    | cons c a =>
      rw [List.cons_append, List.cons.injEq] at hsplit
      exact absurd (hsplit.2 ▸ List.mem_append_right a List.mem_cons_self) hm
  obtain ⟨a, rfl, hsplit⟩ | ⟨a, rfl, hsplit⟩ := List.append_eq_append_iff.1 he
  · have ha := hshorter h hsplit
    subst ha
    simpa using hsplit
  · have ha := hshorter h' hsplit
    subst ha
    simpa using hsplit.symm

/-- Services of different keys are found under different names. -/
theorem serviceAddress_inj {key key' : NamespacedName} (h : '.' ∉ key.ns.toList) (h' : '.' ∉ key'.ns.toList)
    (he : serviceAddress key = serviceAddress key') : key = key' := by
  obtain ⟨ns, name⟩ := key
  obtain ⟨ns', name'⟩ := key'
  have hlist := congrArg String.toList he
  simp only [serviceAddress, String.toList_append, ← List.append_assoc] at hlist
  have hdots : name.toList ++ '.' :: ns.toList = name'.toList ++ '.' :: ns'.toList := by
    simpa using List.append_cancel_right hlist
  obtain ⟨hname, hns⟩ := eq_of_lastDot h h' hdots
  have hsame : ns = ns' := String.toList_inj.1 hns
  rw [String.toList_inj.1 hname, hsame]

namespace CoherenceResource

variable {op : Operator} {d : CoherenceResource}

/-- The resource whose members a member looks for: its own, or the one that it names. -/
def wkaOwner (d : CoherenceResource) : NamespacedName :=
  match d.spec.coherence.bind (·.wka) with
  | none => d.key
  | some wka => if wka.deployment = "" then d.key else ⟨if wka.ns ≠ "" then wka.ns else d.ns, wka.deployment⟩

/-- Are there addresses that are looked for instead? -/
def HasAddresses (d : CoherenceResource) : Prop := ∃ wka ∈ d.spec.coherence.bind (·.wka), wka.addresses ≠ []

/-- Without other addresses it is the address of that resource's Service. -/
theorem getWKA_eq (h : ¬ d.HasAddresses) : d.getWKA = serviceAddress ⟨d.wkaOwner.ns, d.wkaOwner.name ++ "-wka"⟩ := by
  have htext : ∀ name ns : String, s!"{name}-wka.{ns}.svc" = serviceAddress ⟨ns, name ++ "-wka"⟩ := by
    intro name ns
    rw [← String.toList_inj]
    simp [serviceAddress]
    rfl
  rw [getWKA, wkaOwner]
  cases hwka : d.spec.coherence.bind (·.wka) with
  | none => exact htext _ _
  | some wka =>
    have hnone : wka.addresses = [] := by
      by_contra hne
      exact h ⟨wka, hwka, hne⟩
    dsimp only
    rw [if_neg (not_not.2 hnone)]
    by_cases hdeployment : wka.deployment = ""
    · rw [if_pos hdeployment, if_pos hdeployment]
      exact htext _ _
    · rw [if_neg hdeployment, if_neg hdeployment]
      exact htext _ _

/-- The runner finds the address. -/
theorem wkaEnviron_eq (services : Option String) (others : String → String) (hown : ∀ e ∈ d.spec.env, e.name ≠ "COHERENCE_WKA") :
    wkaEnviron op d services others "COHERENCE_WKA" = d.getWKA := by
  have henv : (d.createCoherenceContainer op services).env =
      d.createDefaultEnv services ++ d.spec.env ++ envOfFlag "COHERENCE_OPERATOR_FORCE_EXIT" (some d.forceExit) := rfl
  have hspec : lookedUp "COHERENCE_WKA" d.spec.env = none := lookedUp_eq_none (namedEnv_eq_nil hown)
  have hdefault : lookedUp "COHERENCE_WKA" (d.createDefaultEnv services) = some d.getWKA := by
    simp [CoherenceResource.createDefaultEnv, CoherenceResource.createMemberEnv, CoherenceResource.createCommonEnv, lookedUp_append,
      lookedUp_cons, lookedUp_ite, envOfBool, EnvVarOperatorResumeServices]
  rw [wkaEnviron, environ_own (List.mem_singleton_self _), henv, lookedUp_append, lookedUp_append, hspec, hdefault, lookedUp_envOfFlag,
    if_neg (fun h => absurd h.1 (by decide))]
  rfl

end CoherenceResource

/-! ### What the Service selects -/

section

variable {op : Operator} {a b c d : CoherenceResource}

/-- The label that the pods have under a key: that of the spec, or their own. -/
def CoherenceResource.labelled (d : CoherenceResource) (k own : String) : String := (d.spec.labels.lookup k).getD own

/-- May the pods of the resource be looked for in the cluster? -/
structure CoherenceResource.IsFoundIn (d : CoherenceResource) (cluster : String) : Prop where
  cluster : d.labelled "coherenceCluster" d.clusterName = cluster
  component : d.labelled "coherenceComponent" "coherencePod" = "coherencePod"
  member : d.labelled "coherenceWKAMember" (toString d.isWKAMember) = "true"

/-- A label of the pods that they have of their own. -/
theorem lookup_podLabels {k own : String} (hown : (d.ownPodLabels op).lookup k = some own) :
    (d.podLabels op).lookup k = some (d.labelled k own) := by
  rw [CoherenceResource.podLabels_eq, Labels.lookup_setAll, hown, CoherenceResource.labelled]
  cases d.spec.labels.lookup k with
  | none => rfl
  | some v => rfl

/-- **The pods behind the Service** are those that may be looked for in its cluster. -/
theorem wka_selects_iff : (∀ selector ∈ (c.createWKAService op).selector, selector.Matches (b.podLabels op)) ↔ b.IsFoundIn c.clusterName := by
  have hcluster : (b.podLabels op).lookup "coherenceCluster" = some (b.labelled "coherenceCluster" b.clusterName) := by
    apply lookup_podLabels
    rw [CoherenceResource.ownPodLabels, Labels.lookup_set, if_neg (by decide), Labels.lookup_setAll,
      CoherenceResource.lookup_createPodSelectorLabels, if_neg (by decide), CoherenceResource.lookup_createCommonLabels]
    rfl
  have hcomponent : (b.podLabels op).lookup "coherenceComponent" = some (b.labelled "coherenceComponent" "coherencePod") := by
    apply lookup_podLabels
    rw [CoherenceResource.ownPodLabels, Labels.lookup_set, if_neg (by decide), Labels.lookup_setAll,
      CoherenceResource.lookup_createPodSelectorLabels, if_pos rfl]
    rfl
  have hmember : (b.podLabels op).lookup "coherenceWKAMember" = some (b.labelled "coherenceWKAMember" (toString b.isWKAMember)) := by
    apply lookup_podLabels
    rw [CoherenceResource.ownPodLabels, Labels.lookup_set, if_pos rfl]
  constructor
  · intro h
    have hselects := h _ rfl
    refine ⟨?_, ?_, ?_⟩
    · exact Option.some.inj (hcluster.symm.trans (hselects _ _ (by simp [Labels.lookup_set])))
    · exact Option.some.inj (hcomponent.symm.trans (hselects _ _ (by simp [Labels.lookup_set])))
    · exact Option.some.inj (hmember.symm.trans (hselects _ _ (by simp [Labels.lookup_set])))
  · rintro ⟨hfound, hpod, hlooked⟩ selector ⟨⟩ k v hv
    simp only [Labels.lookup_set, Finmap.lookup_empty] at hv
    split at hv
    · rename_i hk
      rw [hk, hmember, hlooked, ← hv]
    split at hv
    · rename_i hk
      rw [hk, hcomponent, hpod, ← hv]
    split at hv
    · rename_i hk
      rw [hk, hcluster, hfound, ← hv]
    · cases hv

/-- **The Service is generated** where there are members and no other resource is named. -/
theorem wka_generated_iff : (d.createWKAService op).toResource ∈ d.createKubernetesResources op ↔
    0 < d.spec.getReplicas ∧ d.spec.requiresWKAService = true := by
  -- no other Service has the label of the members in its selector
  have hports : (d.createWKAService op).toResource ∉ d.createServicesForPort op := by
    intro h
    obtain ⟨p, -, hp⟩ := List.mem_flatMap.1 h
    have hservice : (d.createWKAService op).toResource ≠ (p.createService op d).toResource := by
      intro heq
      have hspec : some (d.createWKAService op) = some (p.createService op d) := congrArg Resource.spec heq
      have hlabel := congrArg (fun o : Object => o.selector.bind (·.lookup "coherenceWKAMember")) (Option.some.inj hspec)
      have hports : (p.createService op d).selector = some d.createPodSelectorLabels := rfl
      simp only [hports, Option.bind_some, CoherenceResource.lookup_wkaMember] at hlabel
      cases hlabel
    rw [NamedPortSpec.createResources] at hp
    split at hp
    · obtain hp | hp := List.mem_cons.1 hp
      · exact hservice hp
      · split at hp
        · have hkind : ResourceType.service = .serviceMonitor := congrArg Resource.kind (List.mem_singleton.1 hp)
          cases hkind
        · cases hp
    · cases hp
  rw [CoherenceResource.createKubernetesResources]
  by_cases hreplicas : d.spec.getReplicas ≤ 0
  · rw [if_pos hreplicas]
    simp [not_lt.2 hreplicas]
  · rw [if_neg hreplicas]
    by_cases hrequires : d.spec.requiresWKAService = true
    · rw [if_pos hrequires]
      simp [hrequires, not_le.1 hreplicas]
    · rw [if_neg hrequires]
      simp [hrequires, hports]

/-! ### Who is found -/

/-- The Service of `c` for well known addresses is generated and found at the address, and it selects the pods of `b`. -/
structure LeadsTo (op : Operator) (address : String) (c b : CoherenceResource) : Prop where
  generated : (c.createWKAService op).toResource ∈ c.createKubernetesResources op
  named : serviceAddress (c.createWKAService op).key = address
  together : b.ns = c.ns
  selects : ∀ selector ∈ (c.createWKAService op).selector, selector.Matches (b.podLabels op)

/-- **Members find each other.** A member of `a` looks at the Service of `c` and finds the pods of `b` behind it exactly if `c` is the resource
that `a` names, or `a` itself, it has members and names no other, and the pods of `b` are in its namespace and may be looked for in its
cluster. The other options and variables leave the address alone. -/
theorem finds_iff (m : Machine) (op : Operator) (a b c : CoherenceResource) (services : Option String) (others : String → String)
    (files : String × String) (haddresses : ¬ a.HasAddresses) (hown : ∀ e ∈ a.spec.env, e.name ≠ "COHERENCE_WKA")
    (hname : ∀ ch ∈ a.getWKA.toList, ch ≠ '$' ∧ isPlain ch = true) (ha : '.' ∉ a.wkaOwner.ns.toList) (hc : '.' ∉ c.ns.toList)
    (hothers : Undirected m (wkaEnviron op a services others)) (h : createsFiles m (wkaEnviron op a services others) = .ok files) :
    (∃ address, receivedWKA files.1 = some address ∧ LeadsTo op address c b) ↔
      c.key = a.wkaOwner ∧ 0 < c.spec.getReplicas ∧ c.spec.requiresWKAService = true ∧ b.ns = c.ns ∧ b.IsFoundIn c.clusterName := by
  have hwka : wkaEnviron op a services others "COHERENCE_WKA" = a.getWKA := CoherenceResource.wkaEnviron_eq services others hown
  have haddress := CoherenceResource.getWKA_eq haddresses
  have hne : a.getWKA ≠ "" := by
    rw [haddress, serviceAddress]
    intro hempty
    have hlist := congrArg String.toList hempty
    simp at hlist
  have hreceived : receivedWKA files.1 = some a.getWKA := by
    rw [← hwka]
    exact receivedWKA_eq (hwka.symm ▸ hne) (hwka.symm ▸ hname) hothers h
  have hnamed : serviceAddress (c.createWKAService op).key = a.getWKA ↔ c.key = a.wkaOwner := by
    have hservice : (c.createWKAService op).key = ⟨c.ns, c.name ++ "-wka"⟩ := rfl
    rw [haddress, hservice]
    constructor
    · intro he
      have hkey := serviceAddress_inj (by exact hc) (by exact ha) he
      rw [NamespacedName.mk.injEq, String.append_left_inj] at hkey
      rw [CoherenceResource.key, hkey.1, hkey.2]
    · intro he
      rw [← he]
      rfl
  constructor
  · rintro ⟨address, haddr, hleads⟩
    obtain rfl : address = a.getWKA := Option.some.inj (haddr.symm.trans hreceived)
    obtain ⟨hreplicas, hrequires⟩ := wka_generated_iff.1 hleads.generated
    exact ⟨hnamed.1 hleads.named, hreplicas, hrequires, hleads.together, wka_selects_iff.1 hleads.selects⟩
  · rintro ⟨howner, hreplicas, hrequires, htogether, hfound⟩
    exact ⟨_, hreceived, wka_generated_iff.2 ⟨hreplicas, hrequires⟩, hnamed.2 howner, htogether, wka_selects_iff.2 hfound⟩

end

/-- What the evaluation of the other options shows. -/
theorem undirected_of_eval {m : Machine} {env : String → String}
    (h : ((undirectedDetails m env).map fun d => (d.classPathText m).map fun cp => decide (IsArgument cp.toList) &&
      (d.argumentLines m cp).all fun a => a.toList.all isPlain && decide (DoesNotSet wkaProperty.toList a.toList)) = .ok (.ok true)) :
    Undirected m env := by
  intro d cp hd hcp
  rw [hd] at h
  replace h := Except.ok.inj h
  dsimp only at h
  rw [hcp] at h
  replace h := Except.ok.inj h
  rw [Bool.and_eq_true, decide_eq_true_iff, List.all_eq_true] at h
  refine ⟨h.1, fun a ha => ?_⟩
  have hline := h.2 a ha
  rw [Bool.and_eq_true, List.all_eq_true, decide_eq_true_iff] at hline
  exact hline

/-- A resource of a cluster. -/
def storageResource : CoherenceResource := Coherence.toResource { metadata := { name := "storage", ns := "prod" }, spec := { cluster := some "main" } }

/-- Another one of the same cluster, whose members look for those of the first. -/
def proxyResource : CoherenceResource :=
  Coherence.toResource
    { metadata := { name := "proxy", ns := "prod" }
      spec := { cluster := some "main", coherence := some { wka := some { deployment := "storage" } } } }

/-- They find them, and none of their own. -/
theorem finds_iff_storage : ∃ files : String × String,
    (∃ address, receivedWKA files.1 = some address ∧ LeadsTo default address storageResource storageResource) ∧
      ¬ ∃ address, receivedWKA files.1 = some address ∧ LeadsTo default address storageResource proxyResource := by
  have hrun : ((createsFiles bareMachine (wkaEnviron default proxyResource none fun _ => "")).map fun _ => ()) = .ok () := by
    decide +kernel
  obtain ⟨files, hfiles, -⟩ := map_eq_ok.1 hrun
  have hothers : Undirected bareMachine (wkaEnviron default proxyResource none fun _ => "") := by
    apply undirected_of_eval
    decide +kernel
  have haddresses : ¬ proxyResource.HasAddresses := by
    rintro ⟨wka, ⟨⟩, hne⟩
    exact hne rfl
  have hown : ∀ e ∈ proxyResource.spec.env, e.name ≠ "COHERENCE_WKA" := by
    rintro e ⟨⟩
  have hplain : (proxyResource.getWKA.toList.all fun ch => decide (ch ≠ '$') && isPlain ch) = true := by decide +kernel
  have hname : ∀ ch ∈ proxyResource.getWKA.toList, ch ≠ '$' ∧ isPlain ch = true := fun ch hch => by
    have hchar := List.all_eq_true.1 hplain ch hch
    rwa [Bool.and_eq_true, decide_eq_true_iff] at hchar
  have hfinds := fun b => finds_iff bareMachine default proxyResource b storageResource none (fun _ => "") files haddresses hown hname
    (by decide +kernel) (by decide +kernel) hothers hfiles
  refine ⟨files, (hfinds storageResource).2 ⟨rfl, by decide, rfl, rfl, ?_⟩, fun h => ?_⟩
  · exact ⟨by decide +kernel, by decide +kernel, by decide +kernel⟩
  · have hmember := ((hfinds proxyResource).1 h).2.2.2.2.member
    revert hmember
    decide +kernel

end CoherenceOperator
