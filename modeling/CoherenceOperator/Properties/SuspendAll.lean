import CoherenceOperator.Members.Suspend

/-!
# Suspending all services

Which services a member suspends that is asked to suspend all of them. Members have the same identity if they belong to one
deployment; but members of any deployments have it as well if none of them was given one, or if none of them has
registered its MBean.
-/

namespace CoherenceOperator

/-! ### Identities -/

namespace Member

variable {m m' : Member}

/-- Has the resource of the member the annotation for an identity? -/
def HasIdentity (m : Member) : Prop :=
  m.deployment.metadata.annotations.lookup "com.oracle.coherence.operator/feature.suspend" = some "true"

instance (m : Member) : Decidable m.HasIdentity := inferInstanceAs (Decidable (_ = _))

theorem name_of_mem_envOf {name : String} {v : Option String} {e : EnvVar} (h : e ∈ envOf name v) : e.name = name := by
  cases v with
  | none => cases h
  | some _ => rw [List.mem_singleton.1 h]

/-- The variable for the identity is there for a member that has one. -/
theorem getenv_identity :
    m.getenv "COHERENCE_OPERATOR_IDENTITY" = if m.HasIdentity then m.deployment.name ++ "@" ++ m.deployment.ns else "" := by
  have hother : (m.deployment.createCommonEnv.find? fun e => e.name = "COHERENCE_OPERATOR_IDENTITY") = none := by
    rw [List.find?_eq_none]
    intro e he
    simp only [CoherenceResource.createCommonEnv, envOfText, List.mem_append, List.mem_cons, List.not_mem_nil, or_false] at he
    rcases he with (rfl | rfl | rfl | rfl) | he
    · simp
    · simp
    · simp
    · simp
    · have hname : e.name = "COHERENCE_CLUSTER" := name_of_mem_envOf he
      simp [hname]
  rw [getenv, CoherenceResource.createMemberEnv, List.find?_append, List.find?_append, hother]
  by_cases h : m.HasIdentity
  · rw [if_pos h]
    rw [HasIdentity] at h
    simp [h]
  · rw [if_neg h]
    rw [HasIdentity] at h
    simp [h]

/-- The identity is the name and the namespace of the resource, for a member that has one. -/
theorem identity_eq : m.identity = if m.HasIdentity then m.deployment.name ++ "@" ++ m.deployment.ns else "n/a" := by
  rw [identity, identityProperty, getenv_identity]
  by_cases h : m.HasIdentity
  · have hne : m.deployment.name ++ "@" ++ m.deployment.ns ≠ "" := by
      intro hempty
      have hlength := congrArg String.length hempty
      simp at hlength
    simp only [if_pos h, if_pos hne, Option.getD_some]
  · simp [h]

/-- The name of a resource ends where its identity says so. -/
theorem eq_of_identity (h : m.deployment.name ++ "@" ++ m.deployment.ns = m'.deployment.name ++ "@" ++ m'.deployment.ns) :
    m.deployment.name = m'.deployment.name ∧ m.deployment.ns = m'.deployment.ns := by
  have hlist : m.deployment.name.toList ++ '@' :: m.deployment.ns.toList =
      m'.deployment.name.toList ++ '@' :: m'.deployment.ns.toList := by
    simpa using congrArg String.toList h
  have hsplit : ∀ {a b c d : List Char}, '@' ∉ a → '@' ∉ c → a ++ '@' :: b = c ++ '@' :: d → a = c ∧ b = d := by
    intro a b c d ha hc h
    induction a generalizing c with
    | nil =>
      cases c with
      | nil => exact ⟨rfl, (List.cons.inj h).2⟩
      | cons x c => exact absurd (List.cons.inj h).1 fun hx => hc (hx ▸ List.mem_cons_self)
    | cons y a ih =>
      cases c with
      | nil => exact absurd (List.cons.inj h).1 fun hy => ha (hy ▸ List.mem_cons_self)
      | cons x c =>
        obtain ⟨hyx, htail⟩ := List.cons.inj h
        obtain ⟨rfl, hb⟩ := ih (fun hy => ha (List.mem_cons_of_mem _ hy)) (fun hx => hc (List.mem_cons_of_mem _ hx)) htail
        exact ⟨by rw [hyx], hb⟩
  obtain ⟨hname, hns⟩ := hsplit m.isName m'.isName hlist
  exact ⟨String.toList_injective hname, String.toList_injective hns⟩

/-- **Two members have the same identity** if none of them was given one, or both were and their resources have the same name and
namespace. -/
theorem identity_eq_iff : m.identity = m'.identity ↔
    ¬ m.HasIdentity ∧ ¬ m'.HasIdentity ∨ m.HasIdentity ∧ m'.HasIdentity ∧
      m.deployment.name = m'.deployment.name ∧ m.deployment.ns = m'.deployment.ns := by
  have hna : ∀ m : Member, m.deployment.name ++ "@" ++ m.deployment.ns ≠ "n/a" := by
    intro m h
    have hat : '@' ∈ (m.deployment.name ++ "@" ++ m.deployment.ns).toList := by simp
    rw [h] at hat
    revert hat
    decide
  rw [identity_eq, identity_eq]
  by_cases h : m.HasIdentity
  · by_cases h' : m'.HasIdentity
    · rw [if_pos h, if_pos h']
      constructor
      · exact fun heq => .inr ⟨h, h', eq_of_identity heq⟩
      · rintro (⟨hnot, -⟩ | ⟨-, -, hname, hns⟩)
        · exact absurd h hnot
        · rw [hname, hns]
    · simp [h, h', hna m]
  · by_cases h' : m'.HasIdentity
    · simp [h, h', (hna m').symm]
    · simp [h, h']

end Member

/-! ### Which services are suspended -/

namespace Cluster

variable {cluster : Cluster} {svc : Service} {m m' : Member}

theorem lookup_foldl_of_notMem {members : List Member} {map : Finmap fun _ : ℤ => String} {id : ℤ}
    (h : id ∉ members.map (·.id)) :
    (members.foldl (fun map member => map.insert member.id member.identity) map).lookup id = map.lookup id := by
  induction members generalizing map with
  | nil => rfl
  | cons first members ih =>
    rw [List.map_cons, List.mem_cons, not_or] at h
    rw [List.foldl_cons, ih h.2, Finmap.lookup_insert_of_ne _ h.1]

theorem lookup_foldl_of_mem {members : List Member} {map : Finmap fun _ : ℤ => String}
    (hnodup : (members.map (·.id)).Nodup) (h : m ∈ members) :
    (members.foldl (fun map member => map.insert member.id member.identity) map).lookup m.id = some m.identity := by
  induction members generalizing map with
  | nil => cases h
  | cons first members ih =>
    rw [List.map_cons, List.nodup_cons] at hnodup
    rw [List.foldl_cons]
    rcases List.mem_cons.1 h with rfl | h
    · rw [lookup_foldl_of_notMem hnodup.1, Finmap.lookup_insert]
    · exact ih hnodup.2 h

/-- The identity of a member is known if its MBean is registered. -/
theorem lookup_identityMap (hm : m ∈ cluster.members) :
    cluster.identityMap.lookup m.id = if m.registered = true then some m.identity else none := by
  have hnodup : ((cluster.members.filter (·.registered)).map (·.id)).Nodup :=
    cluster.nodup.sublist (List.filter_sublist.map _)
  rw [identityMap]
  split
  · rename_i hregistered
    exact lookup_foldl_of_mem hnodup (List.mem_filter.2 ⟨hm, hregistered⟩)
  · rename_i hregistered
    rw [lookup_foldl_of_notMem, Finmap.lookup_empty]
    intro hmem
    obtain ⟨m', hm', hid⟩ := List.mem_map.1 hmem
    obtain ⟨hm', hregistered'⟩ := List.mem_filter.1 hm'
    have hsame : m' = m := List.inj_on_of_nodup_map cluster.nodup hm' hm hid
    rw [hsame] at hregistered'
    exact hregistered hregistered'

/-- How members that are stored on are taken for those of one deployment: none of them is registered, or all of them are, and none
has an identity, or all have one and their resources have the same name. -/
def Indistinct (members : List Member) : Prop :=
  (∀ m ∈ members, m.registered = false) ∨ (∀ m ∈ members, m.registered = true ∧ ¬ m.HasIdentity) ∨
    ∃ ns name, ∀ m ∈ members, m.registered = true ∧ m.HasIdentity ∧ m.deployment.ns = ns ∧ m.deployment.name = name

theorem length_dedup_eq_one_iff {α : Type} [DecidableEq α] {l : List α} :
    l.dedup.length = 1 ↔ ∃ a ∈ l, ∀ b ∈ l, b = a := by
  rw [List.length_eq_one_iff]
  constructor
  · rintro ⟨a, h⟩
    have hmem : ∀ b, b ∈ l ↔ b = a := by
      intro b
      rw [← List.mem_dedup, h, List.mem_singleton]
    exact ⟨a, (hmem a).2 rfl, fun b hb => (hmem b).1 hb⟩
  · rintro ⟨a, ha, h⟩
    refine ⟨a, ?_⟩
    have hsub : ∀ b ∈ l.dedup, b = a := fun b hb => h b (List.mem_dedup.1 hb)
    have hperm : l.dedup.Perm [a] := by
      refine (List.perm_ext_iff_of_nodup (List.nodup_dedup l) (List.nodup_singleton a)).2 fun b => ?_
      rw [List.mem_singleton]
      constructor
      · exact hsub b
      · rintro rfl
        exact List.mem_dedup.2 ha
    exact List.perm_singleton.1 hperm

/-- **What counts as one**: members that are indistinct, if there are any. -/
theorem isOneIdentity_iff (hmembers : ∀ m ∈ svc.ownershipEnabledMembers, m ∈ cluster.members) :
    cluster.isOneIdentity svc = true ↔ svc.ownershipEnabledMembers ≠ [] ∧ Indistinct svc.ownershipEnabledMembers := by
  have hlookup : ∀ m ∈ svc.ownershipEnabledMembers,
      cluster.identityMap.lookup m.id = if m.registered = true then some m.identity else none :=
    fun m hm => lookup_identityMap (hmembers m hm)
  rw [isOneIdentity, decide_eq_true_eq, length_dedup_eq_one_iff]
  constructor
  · rintro ⟨_, hmem, hall⟩
    obtain ⟨first, hfirst, rfl⟩ := List.mem_map.1 hmem
    refine ⟨List.ne_nil_of_mem hfirst, ?_⟩
    have hsame : ∀ m ∈ svc.ownershipEnabledMembers, m.registered = first.registered ∧
        (first.registered = true → m.identity = first.identity) := by
      intro m hm
      have heq := hall _ (List.mem_map_of_mem hm)
      rw [hlookup m hm, hlookup first hfirst] at heq
      cases hm' : m.registered <;> cases hf : first.registered <;> simp_all
    cases hregistered : first.registered with
    | false => exact .inl fun m hm => (hsame m hm).1.trans hregistered
    | true =>
      by_cases hidentity : first.HasIdentity
      · refine .inr (.inr ⟨first.deployment.ns, first.deployment.name, fun m hm => ?_⟩)
        obtain ⟨hreg, heq⟩ := hsame m hm
        rcases Member.identity_eq_iff.1 (heq hregistered) with ⟨-, hnot⟩ | ⟨hm, -, hname, hns⟩
        · exact absurd hidentity hnot
        · exact ⟨hreg.trans hregistered, hm, hns, hname⟩
      · refine .inr (.inl fun m hm => ?_)
        obtain ⟨hreg, heq⟩ := hsame m hm
        rcases Member.identity_eq_iff.1 (heq hregistered) with ⟨hm, -⟩ | ⟨-, hfirst, -⟩
        · exact ⟨hreg.trans hregistered, hm⟩
        · exact absurd hfirst hidentity
  · rintro ⟨hne, hindistinct⟩
    obtain ⟨first, hfirst⟩ := List.exists_mem_of_ne_nil _ hne
    refine ⟨_, List.mem_map_of_mem hfirst, fun identity hidentity => ?_⟩
    obtain ⟨m, hm, rfl⟩ := List.mem_map.1 hidentity
    rw [hlookup m hm, hlookup first hfirst]
    rcases hindistinct with h | h | ⟨ns, name, h⟩
    · simp [h m hm, h first hfirst]
    · rw [if_pos (h m hm).1, if_pos (h first hfirst).1,
        Member.identity_eq_iff.2 (.inl ⟨(h m hm).2, (h first hfirst).2⟩)]
    · obtain ⟨hreg, hid, hns, hname⟩ := h m hm
      obtain ⟨hreg', hid', hns', hname'⟩ := h first hfirst
      rw [if_pos hreg, if_pos hreg', Member.identity_eq_iff.2 (.inr ⟨hid, hid', by rw [hname, hname'], by rw [hns, hns']⟩)]

/-- A request to suspend all services suspends this one: it is stored on this member and others that are indistinct, with active
persistence. -/
structure IsSuspended (svc : Service) : Prop where
  storage : svc.isLocalStorageEnabled = true
  persistence : svc.isActivePersistenceEnabled = true
  owned : svc.ownershipEnabledMembers ≠ []
  indistinct : Indistinct svc.ownershipEnabledMembers

theorem suspends_iff (hsvc : svc ∈ cluster.services) : cluster.suspends svc = true ↔ IsSuspended svc := by
  have hone := isOneIdentity_iff (cluster.members_of_service svc hsvc)
  rw [suspends, Bool.and_eq_true, Bool.and_eq_true, hone]
  constructor
  · rintro ⟨⟨hstorage, hpersistence⟩, howned, hindistinct⟩
    exact ⟨hstorage, hpersistence, howned, hindistinct⟩
  · rintro ⟨hstorage, hpersistence, howned, hindistinct⟩
    exact ⟨⟨hstorage, hpersistence⟩, howned, hindistinct⟩

/-- The turn of a service comes, if those before it that are suspended can be. -/
def TurnOf (cluster : Cluster) (svc : Service) : Prop :=
  ∃ before after, cluster.services = before ++ svc :: after ∧
    ∀ other ∈ before, IsSuspended other → cluster.suspendError other.name = none

theorem mem_suspendAll_iff {svcs : List Service} : svc ∈ (cluster.suspendAll svcs).1 ↔
    cluster.suspends svc = true ∧ ∃ before after, svcs = before ++ svc :: after ∧
      ∀ other ∈ before, cluster.suspends other = true → cluster.suspendError other.name = none := by
  induction svcs with
  | nil => simp [suspendAll]
  | cons first svcs ih =>
    have hsplit : (∃ before after, first :: svcs = before ++ svc :: after ∧
          ∀ other ∈ before, cluster.suspends other = true → cluster.suspendError other.name = none) ↔
        first = svc ∨ (cluster.suspends first = true → cluster.suspendError first.name = none) ∧
          ∃ before after, svcs = before ++ svc :: after ∧
            ∀ other ∈ before, cluster.suspends other = true → cluster.suspendError other.name = none := by
      constructor
      · rintro ⟨before, after, h, hbefore⟩
        cases before with
        | nil => exact .inl (List.cons.inj h).1
        | cons x before =>
          obtain ⟨rfl, htail⟩ := List.cons.inj h
          exact .inr ⟨hbefore first List.mem_cons_self, before, after, htail,
            fun other hother => hbefore other (List.mem_cons_of_mem _ hother)⟩
      · rintro (rfl | ⟨hfirst, before, after, rfl, hbefore⟩)
        · exact ⟨[], svcs, rfl, fun other hother => absurd hother List.not_mem_nil⟩
        · refine ⟨first :: before, after, rfl, fun other hother => ?_⟩
          rcases List.mem_cons.1 hother with rfl | hother
          · exact hfirst
          · exact hbefore other hother
    rw [hsplit, suspendAll]
    by_cases hfirst : cluster.suspends first = true
    · rw [if_pos hfirst]
      cases herror : cluster.suspendError first.name with
      | none =>
        simp only [Option.isSome_none, Bool.false_eq_true, if_false, List.mem_cons, ih]
        constructor
        · rintro (rfl | ⟨hsvc, hrest⟩)
          · exact ⟨hfirst, .inl rfl⟩
          · exact ⟨hsvc, .inr ⟨fun _ => trivial, hrest⟩⟩
        · rintro ⟨hsvc, rfl | ⟨-, hrest⟩⟩
          · exact .inl rfl
          · exact .inr ⟨hsvc, hrest⟩
      | some e =>
        simp only [Option.isSome_some, if_true, List.mem_singleton]
        constructor
        · rintro rfl
          exact ⟨hfirst, .inl rfl⟩
        · rintro ⟨-, rfl | ⟨hnone, -⟩⟩
          · rfl
          · exact absurd (hnone hfirst) (by simp)
    · rw [if_neg hfirst, ih]
      constructor
      · rintro ⟨hsvc, hrest⟩
        exact ⟨hsvc, .inr ⟨fun h => absurd h hfirst, hrest⟩⟩
      · rintro ⟨hsvc, rfl | ⟨-, hrest⟩⟩
        · exact absurd hsvc hfirst
        · exact ⟨hsvc, hrest⟩

/-- A request that names no service suspends services of one deployment only. -/
def LeavesOthersAlone (cluster : Cluster) (path : String) : Prop :=
  serviceName path = [] → ∀ svc ∈ (cluster.suspend path).1,
    ∀ m ∈ svc.ownershipEnabledMembers, ∀ m' ∈ svc.ownershipEnabledMembers, m.deploymentKey = m'.deploymentKey

/-- A service is stored on members of two deployments that are indistinct. -/
def IsMixed (svc : Service) : Prop :=
  IsSuspended svc ∧ ∃ m ∈ svc.ownershipEnabledMembers, ∃ m' ∈ svc.ownershipEnabledMembers, m.deploymentKey ≠ m'.deploymentKey

/-- **Other deployments are left alone** exactly if the request names a service, the MBeans cannot be queried, or no service whose
turn comes is stored on indistinct members of two deployments. -/
theorem leavesOthersAlone_iff (cluster : Cluster) (path : String) :
    LeavesOthersAlone cluster path ↔
      serviceName path ≠ [] ∨ cluster.queryError.isSome = true ∨ ∀ svc, TurnOf cluster svc → ¬ IsMixed svc := by
  by_cases hname : serviceName path = []
  swap
  · exact ⟨fun _ => .inl hname, fun _ h => absurd h hname⟩
  cases hquery : cluster.queryError with
  | some e =>
    have hnone : (cluster.suspend path).1 = [] := by simp [suspend, hquery]
    constructor
    · exact fun _ => .inr (.inl rfl)
    · intro _ _ svc hsvc
      rw [hnone] at hsvc
      cases hsvc
  | none =>
    have hall : (cluster.suspend path).1 = (cluster.suspendAll cluster.services).1 := by simp [suspend, hquery, hname]
    have hmem : ∀ svc, svc ∈ (cluster.suspendAll cluster.services).1 ↔ IsSuspended svc ∧ TurnOf cluster svc := by
      intro svc
      rw [mem_suspendAll_iff]
      constructor
      · rintro ⟨hsvc, before, after, hsplit, hbefore⟩
        have hservice : svc ∈ cluster.services := by rw [hsplit]; simp
        refine ⟨(suspends_iff hservice).1 hsvc, before, after, hsplit, fun other hother hsuspended => ?_⟩
        exact hbefore other hother ((suspends_iff (by rw [hsplit]; simp [hother])).2 hsuspended)
      · rintro ⟨hsvc, before, after, hsplit, hbefore⟩
        have hservice : svc ∈ cluster.services := by rw [hsplit]; simp
        refine ⟨(suspends_iff hservice).2 hsvc, before, after, hsplit, fun other hother hsuspended => ?_⟩
        exact hbefore other hother ((suspends_iff (by rw [hsplit]; simp [hother])).1 hsuspended)
    simp only [LeavesOthersAlone, hname, hall, hmem, ne_eq, not_true_eq_false, Option.isSome_none, Bool.false_eq_true,
      false_or, forall_const]
    constructor
    · rintro h svc hturn ⟨hsuspended, m, hm, m', hm', hne⟩
      exact hne (h svc ⟨hsuspended, hturn⟩ m hm m' hm')
    · rintro h svc ⟨hsuspended, hturn⟩ m hm m' hm'
      by_contra hne
      exact h svc hturn ⟨hsuspended, m, hm, m', hm', hne⟩

/-- A member of a resource without annotations. -/
def plainMember (id : ℤ) (name : String) (isName : '@' ∉ name.toList) : Member where
  id
  deployment := ({ metadata := { ns := "default", name } } : Coherence).toResource
  isName

/-- A service that is stored on members of two resources, `storage` and `other`. -/
def sharedService : Service where
  name := "PartitionedCache"
  isLocalStorageEnabled := true
  isActivePersistenceEnabled := true
  ownershipEnabledMembers := [plainMember 1 "storage" (by decide), plainMember 2 "other" (by decide)]

def sharedCluster : Cluster where
  members := sharedService.ownershipEnabledMembers
  nodup := by decide
  services := [sharedService]
  members_of_service svc hsvc m hm := by rwa [List.mem_singleton.1 hsvc] at hm

/-- The service is suspended, as none of its members has an identity. -/
theorem not_forall_leavesOthersAlone : ¬ ∀ (cluster : Cluster) (path : String), LeavesOthersAlone cluster path := by
  intro h
  have hname : serviceName "/suspend" = [] := by decide +kernel
  have hsuspends : sharedCluster.suspends sharedService = true := by decide +kernel
  have hall : sharedCluster.suspend "/suspend" = sharedCluster.suspendAll [sharedService] := by
    simp [suspend, hname, sharedCluster]
  have hsuspended : sharedService ∈ (sharedCluster.suspend "/suspend").1 := by
    rw [hall, mem_suspendAll_iff]
    exact ⟨hsuspends, [], [], rfl, fun other hother => absurd hother List.not_mem_nil⟩
  have hsame := h sharedCluster "/suspend" hname sharedService hsuspended _ List.mem_cons_self _
    (List.mem_cons_of_mem _ List.mem_cons_self)
  revert hsame
  decide

end Cluster

end CoherenceOperator
