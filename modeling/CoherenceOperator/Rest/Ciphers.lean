import CoherenceOperator.Runner.Configure
import Mathlib.Data.List.Dedup

/-!
# The cipher suites of the servers of the operator

The suites are put together in one list of ids: the secure ones without those that are denied by default, then the ones of the flag that
allows suites, and for every name of the flag that denies suites one occurrence of its id is removed again. A suite that is there more
often than it is removed stays. `CipherPolicy` is what the flags promise; `cipherPolicy_iff` says when it is kept.
-/

namespace CoherenceOperator

/-- A suite of `crypto/tls`. -/
structure CipherSuite where
  id : UInt16
  name : String
  deriving DecidableEq

/-- `crypto/tls` and `strings`: the two lists of suites, and `ToUpper`. -/
structure CipherLibrary where
  cipherSuites : List CipherSuite
  insecureCipherSuites : List CipherSuite
  toUpper : String → String

/-- `RemoveFromUInt16Array`. -/
def removeFromUInt16Array (toRemove : UInt16) : List UInt16 → List UInt16
  | [] => []
  | ui :: arr => if ui = toRemove then arr else ui :: removeFromUInt16Array toRemove arr

/-- `RemoveAllFromUInt16Array`. -/
def removeAllFromUInt16Array (arr toRemove : List UInt16) : List UInt16 :=
  toRemove.foldl (fun arr i => removeFromUInt16Array i arr) arr

/-- `DefaultCipherDenyList`. -/
def defaultCipherDenyList : List UInt16 := [0xc013, 0xc014]

namespace CipherLibrary

variable (lib : CipherLibrary)

/-- `createCipherList`. -/
def createCipherList (l : List String) : List String := l.flatMap fun s => (splitText ',' s).map lib.toUpper

/-- `allByName`: the last suite of the name, first the secure ones and then the others. -/
def allByName (name : String) : Option CipherSuite :=
  (lib.cipherSuites ++ lib.insecureCipherSuites).reverse.find? fun cs => cs.name = name

/-- The loop over the allow list. -/
def addAllowed : List UInt16 → List String → Except String (List UInt16)
  | allowed, [] => .ok allowed
  | allowed, name :: names =>
    match lib.allByName name with
    | some cs => addAllowed (allowed ++ [cs.id]) names
    | none =>
      .error s!"invalid --cipher-allow-list command line flag, {name} is not a recognised cipher name (see https://pkg.go.dev/crypto/tls#pkg-constants)"

/-- The loop over the deny list. -/
def removeDenied : List UInt16 → List String → Except String (List UInt16)
  | allowed, [] => .ok allowed
  | allowed, name :: names =>
    match lib.allByName name with
    | some cs => removeDenied (removeFromUInt16Array cs.id allowed) names
    | none =>
      .error s!"invalid --cipher-deny-list command line flag, {name} is not a recognised cipher name (see https://pkg.go.dev/crypto/tls#pkg-constants)"

/-- `NewCipherSuiteConfig`, from the values of the two flags: the suites that are configured. -/
def newCipherSuiteConfig (denyFlag allowFlag : List String) : Except String (List UInt16) := do
  let allowed := removeAllFromUInt16Array (lib.cipherSuites.map (·.id)) defaultCipherDenyList
  let denyList := lib.createCipherList denyFlag
  let allowList := lib.createCipherList allowFlag
  let allDenied := denyList.any fun name => lib.toUpper name = "ALL"
  let allowed := if allDenied then [] else allowed
  if allDenied ∧ allowList.length = 0 then
    .error "the --cipher-deny-list command line flag has denied all cipher suites but no allowed suites have been specified using the cipher-allow-list flag "
  else
    let allowed ← lib.addAllowed allowed allowList
    if allDenied then return allowed
    lib.removeDenied allowed denyList

/-! ### What the flags promise -/

/-- Do the values of the flag deny all suites? -/
def deniesAll (denyFlag : List String) : Bool := (lib.createCipherList denyFlag).any fun name => lib.toUpper name = "ALL"

/-- The suites that are enabled where nothing is said about them. -/
def defaultSuites : List UInt16 := (lib.cipherSuites.map (·.id)).filter fun id => id ∉ defaultCipherDenyList

/-- A suite with this id is named in the values of the flag. -/
def Names (flag : List String) (id : UInt16) : Prop :=
  ∃ cs ∈ lib.cipherSuites ++ lib.insecureCipherSuites, cs.name ∈ lib.createCipherList flag ∧ cs.id = id

/-- The ids of the suites that are named, as often as they are. -/
def named (flag : List String) : List UInt16 := (lib.createCipherList flag).filterMap fun name => (lib.allByName name).map (·.id)

/-- The suites are listed with distinct ids and names. -/
structure Lawful : Prop where
  ids : ((lib.cipherSuites ++ lib.insecureCipherSuites).map (·.id)).Nodup
  names : ((lib.cipherSuites ++ lib.insecureCipherSuites).map (·.name)).Nodup

/-- A suite is enabled if it is by default, unless all are denied, or if it is allowed; and it is not if it is denied. -/
def CipherPolicy (denyFlag allowFlag : List String) (allowed : List UInt16) : Prop :=
  ∀ id, id ∈ allowed ↔
    ((lib.deniesAll denyFlag = false ∧ id ∈ lib.defaultSuites) ∨ lib.Names allowFlag id) ∧ ¬ lib.Names denyFlag id

/-- No suite is both allowed and denied, if all are denied; and otherwise a suite is denied at least as often as it is enabled. -/
def DeniesOften (denyFlag allowFlag : List String) : Prop :=
  if lib.deniesAll denyFlag then ∀ id, lib.Names allowFlag id → ¬ lib.Names denyFlag id
  else ∀ id, lib.Names denyFlag id → (lib.defaultSuites ++ lib.named allowFlag).count id ≤ (lib.named denyFlag).count id

variable {lib} {arr xs allowed r : List UInt16} {names denyFlag allowFlag : List String} {x id : UInt16} {name : String}
  {cs : CipherSuite}

theorem removeFromUInt16Array_eq (x : UInt16) (arr : List UInt16) : removeFromUInt16Array x arr = arr.erase x := by
  induction arr with
  | nil => rfl
  | cons ui arr ih =>
    rw [removeFromUInt16Array, List.erase_cons]
    by_cases h : ui = x
    · simp [h]
    · simp [h, ih]

theorem removeAllFromUInt16Array_eq (arr xs : List UInt16) : removeAllFromUInt16Array arr xs = arr.diff xs := by
  rw [removeAllFromUInt16Array, List.diff_eq_foldl]
  congr 1
  funext arr i
  exact removeFromUInt16Array_eq i arr

/-- Of every suite as many occurrences are removed as there are removals. -/
theorem count_diff (arr xs : List UInt16) (x : UInt16) : (arr.diff xs).count x = arr.count x - xs.count x := by
  induction xs generalizing arr with
  | nil => simp
  | cons y xs ih =>
    rw [List.diff_cons, ih, List.count_erase, List.count_cons]
    split <;> omega

theorem Lawful.allByName_eq_some (h : lib.Lawful) :
    lib.allByName name = some cs ↔ cs ∈ lib.cipherSuites ++ lib.insecureCipherSuites ∧ cs.name = name := by
  have hsound : ∀ {cs'}, lib.allByName name = some cs' →
      cs' ∈ lib.cipherSuites ++ lib.insecureCipherSuites ∧ cs'.name = name := by
    intro cs' hfind
    rw [allByName] at hfind
    have hname := List.find?_some hfind
    exact ⟨List.mem_reverse.1 (List.mem_of_find?_eq_some hfind), of_decide_eq_true hname⟩
  constructor
  · exact hsound
  · rintro ⟨hmem, rfl⟩
    cases hfind : lib.allByName cs.name with
    | none =>
      have hno := List.find?_eq_none.1 hfind cs (List.mem_reverse.2 hmem)
      exact absurd (decide_eq_true rfl) hno
    | some cs' =>
      -- there is one suite of each name
      obtain ⟨hmem', hname⟩ := hsound hfind
      rw [List.inj_on_of_nodup_map h.names hmem' hmem hname]

theorem Lawful.mem_named (h : lib.Lawful) {flag : List String} : id ∈ lib.named flag ↔ lib.Names flag id := by
  rw [named, List.mem_filterMap]
  constructor
  · rintro ⟨name, hname, hid⟩
    obtain ⟨cs, hcs, rfl⟩ := Option.map_eq_some_iff.1 hid
    obtain ⟨hmem, rfl⟩ := h.allByName_eq_some.1 hcs
    exact ⟨cs, hmem, hname, rfl⟩
  · rintro ⟨cs, hmem, hname, rfl⟩
    exact ⟨cs.name, hname, by rw [h.allByName_eq_some.2 ⟨hmem, rfl⟩, Option.map_some]⟩

theorem addAllowed_eq (h : lib.addAllowed allowed names = .ok r) :
    r = allowed ++ names.filterMap fun name => (lib.allByName name).map (·.id) := by
  induction names generalizing allowed with
  | nil =>
    rw [addAllowed] at h
    simpa using (Except.ok.inj h).symm
  | cons name names ih =>
    rw [addAllowed] at h
    split at h
    · rename_i cs hcs
      rw [ih h, List.filterMap_cons, hcs, Option.map_some, List.append_assoc, List.singleton_append]
    · cases h

theorem removeDenied_eq (h : lib.removeDenied allowed names = .ok r) :
    r = allowed.diff (names.filterMap fun name => (lib.allByName name).map (·.id)) := by
  induction names generalizing allowed with
  | nil =>
    rw [removeDenied] at h
    simpa using (Except.ok.inj h).symm
  | cons name names ih =>
    rw [removeDenied] at h
    split at h
    · rename_i cs hcs
      rw [ih h, List.filterMap_cons, hcs, Option.map_some, List.diff_cons, removeFromUInt16Array_eq]
    · cases h

theorem Lawful.removeAll_default (h : lib.Lawful) :
    removeAllFromUInt16Array (lib.cipherSuites.map (·.id)) defaultCipherDenyList = lib.defaultSuites := by
  have hsecure : (lib.cipherSuites.map (·.id)).Nodup := by
    have hall := h.ids
    rw [List.map_append] at hall
    exact hall.of_append_left
  rw [removeAllFromUInt16Array_eq, hsecure.sdiff_eq_filter, defaultSuites]

/-- What is configured, if the flags are accepted. -/
theorem Lawful.newCipherSuiteConfig_eq (h : lib.Lawful) (hr : lib.newCipherSuiteConfig denyFlag allowFlag = .ok r) :
    r = if lib.deniesAll denyFlag then lib.named allowFlag
      else (lib.defaultSuites ++ lib.named allowFlag).diff (lib.named denyFlag) := by
  rw [newCipherSuiteConfig, h.removeAll_default] at hr
  rw [show ((lib.createCipherList denyFlag).any fun name => decide (lib.toUpper name = "ALL")) = lib.deniesAll denyFlag from rfl] at hr
  split at hr
  · cases hr
  · cases hallow : lib.addAllowed (if lib.deniesAll denyFlag then [] else lib.defaultSuites) (lib.createCipherList allowFlag) with
    | error err =>
      rw [hallow] at hr
      cases hr
    | ok allowed =>
      have hallowed := addAllowed_eq hallow
      rw [hallow] at hr
      change (if lib.deniesAll denyFlag then pure allowed else lib.removeDenied allowed (lib.createCipherList denyFlag)) = _ at hr
      cases hall : lib.deniesAll denyFlag with
      | true =>
        rw [hall, if_pos rfl] at hr hallowed
        rw [if_pos rfl, ← Except.ok.inj hr, hallowed]
        rfl
      | false =>
        rw [hall, if_neg Bool.false_ne_true] at hr hallowed
        rw [if_neg Bool.false_ne_true, removeDenied_eq hr, hallowed]
        rfl

/-- **The deny list is kept** exactly if no suite is both allowed and denied where all are denied, and if elsewhere every suite that is
denied is denied at least as often as it is enabled. -/
theorem cipherPolicy_iff (h : lib.Lawful) (hr : lib.newCipherSuiteConfig denyFlag allowFlag = .ok r) :
    lib.CipherPolicy denyFlag allowFlag r ↔ lib.DeniesOften denyFlag allowFlag := by
  rw [h.newCipherSuiteConfig_eq hr, CipherPolicy, DeniesOften]
  cases hall : lib.deniesAll denyFlag with
  | true =>
    rw [if_pos rfl, if_pos rfl]
    simp only [h.mem_named, Bool.true_eq_false, false_and, false_or]
    constructor
    · exact fun hpolicy id hallow => ((hpolicy id).1 hallow).2
    · exact fun hno id => ⟨fun hallow => ⟨hallow, hno id hallow⟩, fun hallow => hallow.1⟩
  | false =>
    rw [if_neg Bool.false_ne_true, if_neg Bool.false_ne_true]
    have hmem : ∀ id, (id ∈ (lib.defaultSuites ++ lib.named allowFlag).diff (lib.named denyFlag) ↔
        (lib.named denyFlag).count id < (lib.defaultSuites ++ lib.named allowFlag).count id) := by
      intro id
      rw [← List.count_pos_iff, count_diff]
      omega
    have henabled : ∀ id, (0 < (lib.defaultSuites ++ lib.named allowFlag).count id ↔
        (false = false ∧ id ∈ lib.defaultSuites) ∨ lib.Names allowFlag id) := by
      intro id
      rw [List.count_pos_iff, List.mem_append, h.mem_named]
      simp only [true_and]
    have hdenied : ∀ id, (0 < (lib.named denyFlag).count id ↔ lib.Names denyFlag id) := by
      intro id
      rw [List.count_pos_iff, h.mem_named]
    constructor
    · intro hpolicy id hdeny
      by_contra hcount
      exact ((hpolicy id).1 ((hmem id).2 (by omega))).2 hdeny
    · intro hoften id
      rw [hmem, ← henabled, ← hdenied]
      constructor
      · intro hcount
        refine ⟨by omega, fun hdeny => ?_⟩
        have hle := hoften id ((hdenied id).1 hdeny)
        omega
      · rintro ⟨hpos, hno⟩
        omega

/-- Three suites, one of them insecure, and names in capitals. -/
def threeSuites : CipherLibrary where
  cipherSuites := [⟨0x1301, "TLS_AES_128_GCM_SHA256"⟩, ⟨0xc013, "TLS_ECDHE_RSA_WITH_AES_128_CBC_SHA"⟩]
  insecureCipherSuites := [⟨0x0005, "TLS_RSA_WITH_RC4_128_SHA"⟩]
  toUpper := String.toUpper

theorem lawful_threeSuites : threeSuites.Lawful := ⟨by decide, by decide⟩

/-- A suite that is denied twice is not enabled, though it is allowed. -/
theorem cipherPolicy_threeSuites :
    threeSuites.CipherPolicy ["tls_aes_128_gcm_sha256,TLS_AES_128_GCM_SHA256"] ["TLS_AES_128_GCM_SHA256"] [] :=
  (cipherPolicy_iff lawful_threeSuites (by decide +kernel)).2 (by
    have hall : threeSuites.deniesAll ["tls_aes_128_gcm_sha256,TLS_AES_128_GCM_SHA256"] = false := by decide +kernel
    have hdenied : threeSuites.named ["tls_aes_128_gcm_sha256,TLS_AES_128_GCM_SHA256"] = [0x1301, 0x1301] := by decide +kernel
    rw [DeniesOften, hall, if_neg Bool.false_ne_true]
    intro id hid
    rw [← lawful_threeSuites.mem_named, hdenied] at hid
    obtain rfl : id = 0x1301 := by simpa using hid
    decide +kernel)

theorem not_forall_cipherPolicy :
    ¬ ∀ (lib : CipherLibrary) (denyFlag allowFlag : List String) (r : List UInt16), lib.Lawful →
      lib.newCipherSuiteConfig denyFlag allowFlag = .ok r → lib.CipherPolicy denyFlag allowFlag r := by
  intro h
  have hpolicy := h threeSuites ["TLS_AES_128_GCM_SHA256"] ["TLS_AES_128_GCM_SHA256"] [0x1301] lawful_threeSuites (by decide +kernel)
  refine ((hpolicy 0x1301).1 (List.mem_singleton_self _)).2 ?_
  exact ⟨⟨0x1301, "TLS_AES_128_GCM_SHA256"⟩, by decide, by decide +kernel, rfl⟩

end CipherLibrary

end CoherenceOperator
