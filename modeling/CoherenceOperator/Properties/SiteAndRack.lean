import CoherenceOperator.Runner.Environ

/-!
# The rack of a member with a site

Coherence wants a rack wherever there is a site. `configureSiteAndRack` looks up both, and makes the site the rack where the text for
the rack is empty. It does not do so where the text is blank, or becomes blank when the references in it are replaced: `rackFollows_iff`
says exactly when a site that is not blank comes with a rack that is not.
-/

namespace CoherenceOperator

/-- The text is white space. -/
def IsBlank (s : String) : Prop := trimSpace s = ""

instance (s : String) : Decidable (IsBlank s) := inferInstanceAs (Decidable (_ = _))

theorem isBlank_iff {s : String} : IsBlank s ↔ ∀ c ∈ s.toList, isSpace c = true := by
  rw [IsBlank, trimSpace, ← String.toList_inj, String.toList_ofList, String.toList_empty, List.reverse_eq_nil_iff,
    List.dropWhile_eq_nil_iff]
  constructor
  · intro h c hc
    rw [← List.takeWhile_append_dropWhile (p := isSpace) (l := s.toList), List.mem_append] at hc
    rcases hc with hc | hc
    · exact List.mem_takeWhile_imp hc
    · exact h c (List.mem_reverse.2 hc)
  · intro h c hc
    exact h c ((List.dropWhile_sublist _).subset (List.mem_reverse.1 hc))

theorem isBlank_empty : IsBlank "" := by decide

namespace RunDetails

variable (m : Machine) (d : RunDetails)

/-- The text given for the site: the variable, with the references in it replaced, or what is found at the location. -/
def siteText : String :=
  if d.getenv "COHERENCE_SITE" = "" then locationText m (d.expandEnv (d.getenv "COHERENCE_OPERATOR_SITE_INFO_LOCATION"))
  else d.expandEnv (d.getenv "COHERENCE_SITE")

/-- The text given for the rack. -/
def rackText : String :=
  if d.getenv "COHERENCE_RACK" = "" then locationText m (d.expandEnv (d.getenv "COHERENCE_OPERATOR_RACK_INFO_LOCATION"))
  else d.expandEnv (d.getenv "COHERENCE_RACK")

/-- The options that are added have one that sets the property to the value. -/
def Adds (d d' : RunDetails) (property value : String) : Prop := ∃ added, d'.args = d.args ++ added ∧ systemProperty property value ∈ added

/-- If a site is set that is not blank, a rack is set that is not blank. -/
def RackFollows : Prop :=
  ∀ site, Adds d (d.configureSiteAndRack m) "coherence.site" site → ¬ IsBlank site →
    ∃ rack, Adds d (d.configureSiteAndRack m) "coherence.rack" rack ∧ ¬ IsBlank rack

/-- The text that the rack is set to. -/
def rackValue : String := if d.rackText m = "" then d.siteText m else d.rackText m

/-- Is a site set? -/
def setsSite : Bool :=
  if d.getenv "COHERENCE_SITE" = "" then d.siteText m ≠ ""
  else d.siteText m = d.getenv "COHERENCE_SITE" ∨ ¬ IsBlank (d.siteText m)

/-- Is a rack set? -/
def setsRack : Bool :=
  if d.getenv "COHERENCE_RACK" = "" then d.rackValue m ≠ ""
  else d.rackText m = d.getenv "COHERENCE_RACK" ∨ ¬ IsBlank (d.rackValue m)

variable {m d} {s t property value : String}

theorem systemProperty_inj : systemProperty property s = systemProperty property t ↔ s = t := by
  simp [systemProperty, ← String.toList_inj]

theorem systemProperty_site_ne_rack : systemProperty "coherence.site" s ≠ systemProperty "coherence.rack" t := by
  intro h
  rw [systemProperty, systemProperty, ← String.toList_inj] at h
  simp only [String.toList_append] at h
  have htake := congrArg (fun l : List Char => l.take 13) h
  simp at htake

/-- A blank text has no reference in it. -/
theorem expandEnv_of_isBlank (h : IsBlank s) : d.expandEnv s = s := by
  have hdollar : '$' ∉ s.toList := fun hmem => absurd (isBlank_iff.1 h '$' hmem) (by decide)
  exact expand_of_notMem d.getenv hdollar

theorem addSystemPropertyArg_eq (hproperty : property ≠ "") (hdollar : '$' ∉ property.toList) (value : String) :
    d.addSystemPropertyArg property value = { d with args := d.args ++ [systemProperty property (d.expandEnv value)] } := by
  have hbefore : '$' ∉ ("-D" ++ property ++ "=").toList := by
    simp [hdollar]
  rw [addSystemPropertyArg, if_pos hproperty, systemProperty, expandEnv, expand_append d.getenv hbefore, systemProperty, expandEnv]

theorem configureSite_eq : d.configureSite m =
    (if d.setsSite m then d.addSystemPropertyArg "coherence.site" (d.siteText m) else d, d.siteText m) := by
  rw [configureSite, setsSite]
  by_cases hsite : d.getenv "COHERENCE_SITE" = ""
  · simp [hsite, siteText]
  · simp [hsite, siteText, IsBlank]

theorem configureRack_eq : d.configureRack m (d.siteText m) =
    if d.setsRack m then d.addSystemPropertyArg "coherence.rack" (d.rackValue m) else d := by
  rw [configureRack, setsRack, rackValue]
  by_cases hrack : d.getenv "COHERENCE_RACK" = ""
  · by_cases htext : locationText m (d.expandEnv (d.getenv "COHERENCE_OPERATOR_RACK_INFO_LOCATION")) = ""
    · simp [hrack, rackText, htext]
    · simp [hrack, rackText, htext]
  · simp [hrack, rackText, IsBlank]

/-- What is added, with the references in it replaced again. -/
theorem args_configureSiteAndRack (hget : d.getSite = true) : (d.configureSiteAndRack m).args =
    d.args ++ ((if d.setsSite m then [systemProperty "coherence.site" (d.expandEnv (d.siteText m))] else []) ++
      if d.setsRack m then [systemProperty "coherence.rack" (d.expandEnv (d.rackValue m))] else []) := by
  -- nothing but the options is changed for the site
  have hrack : ∀ l, (configureRack m { d with args := l } (d.siteText m)).args =
      l ++ if d.setsRack m then [systemProperty "coherence.rack" (d.expandEnv (d.rackValue m))] else [] := by
    intro l
    have heq := configureRack_eq (d := { d with args := l }) (m := m)
    rw [addSystemPropertyArg_eq (by decide) (by decide)] at heq
    rw [show d.siteText m = siteText m { d with args := l } from rfl, heq]
    by_cases hsets : d.setsRack m = true
    · rw [if_pos (show setsRack m { d with args := l } = true from hsets), if_pos hsets]
      rfl
    · rw [if_neg (show ¬ setsRack m { d with args := l } = true from hsets), if_neg hsets, List.append_nil]
  rw [configureSiteAndRack, if_pos hget, configureSite_eq]
  by_cases hsets : d.setsSite m = true
  · rw [if_pos hsets, if_pos hsets, addSystemPropertyArg_eq (by decide) (by decide)]
    dsimp only
    rw [hrack, List.append_assoc]
  · rw [if_neg hsets, if_neg hsets, List.nil_append]
    exact hrack d.args

/-- A text that is not blank is set. -/
theorem setsSite_of_not_isBlank (h : ¬ IsBlank (d.siteText m)) : d.setsSite m = true := by
  have hne : d.siteText m ≠ "" := fun heq => h (heq ▸ isBlank_empty)
  rw [setsSite]
  simp [h, hne]

theorem setsRack_of_not_isBlank (h : ¬ IsBlank (d.rackValue m)) : d.setsRack m = true := by
  have hne : d.rackValue m ≠ "" := fun heq => h (heq ▸ isBlank_empty)
  rw [setsRack]
  simp [h, hne]

theorem not_isBlank_of_expandEnv (h : ¬ IsBlank (d.expandEnv s)) : ¬ IsBlank s :=
  fun hs => h (by rwa [expandEnv_of_isBlank hs])

theorem adds_site_iff (hget : d.getSite = true) : Adds d (d.configureSiteAndRack m) "coherence.site" value ↔
    d.setsSite m = true ∧ value = d.expandEnv (d.siteText m) := by
  rw [Adds, args_configureSiteAndRack hget]
  constructor
  · rintro ⟨added, hadded, hmem⟩
    rw [← List.append_cancel_left hadded, List.mem_append] at hmem
    rcases hmem with hmem | hmem
    · split at hmem
      · rename_i hsets
        exact ⟨hsets, systemProperty_inj.1 (List.mem_singleton.1 hmem)⟩
      · cases hmem
    · split at hmem
      · exact absurd (List.mem_singleton.1 hmem) systemProperty_site_ne_rack
      · cases hmem
  · rintro ⟨hsets, rfl⟩
    refine ⟨_, rfl, List.mem_append_left _ ?_⟩
    rw [if_pos hsets]
    exact List.mem_singleton_self _

theorem adds_rack_iff (hget : d.getSite = true) : Adds d (d.configureSiteAndRack m) "coherence.rack" value ↔
    d.setsRack m = true ∧ value = d.expandEnv (d.rackValue m) := by
  rw [Adds, args_configureSiteAndRack hget]
  constructor
  · rintro ⟨added, hadded, hmem⟩
    rw [← List.append_cancel_left hadded, List.mem_append] at hmem
    rcases hmem with hmem | hmem
    · split at hmem
      · exact absurd (List.mem_singleton.1 hmem).symm systemProperty_site_ne_rack
      · cases hmem
    · split at hmem
      · rename_i hsets
        exact ⟨hsets, systemProperty_inj.1 (List.mem_singleton.1 hmem)⟩
      · cases hmem
  · rintro ⟨hsets, rfl⟩
    refine ⟨_, rfl, List.mem_append_right _ ?_⟩
    rw [if_pos hsets]
    exact List.mem_singleton_self _

/-- Nothing is added where the site is not asked for. -/
theorem not_adds (hget : d.getSite = false) : ¬ Adds d (d.configureSiteAndRack m) property value := by
  rintro ⟨added, hadded, hmem⟩
  have hnone : added = [] := by simpa [configureSiteAndRack, hget] using hadded
  rw [hnone] at hmem
  cases hmem

/-- **A rack comes with the site** exactly where the text for the rack is empty, or is not blank when the references in it are
replaced; or else the site is not asked for, or is blank. -/
theorem rackFollows_iff (m : Machine) (d : RunDetails) : d.RackFollows m ↔
    (d.getSite = true → ¬ IsBlank (d.expandEnv (d.siteText m)) → d.rackText m = "" ∨ ¬ IsBlank (d.expandEnv (d.rackText m))) := by
  constructor
  · intro h hget hsite
    obtain ⟨rack, hadds, hrack⟩ :=
      h _ ((adds_site_iff hget).2 ⟨setsSite_of_not_isBlank (not_isBlank_of_expandEnv hsite), rfl⟩) hsite
    obtain ⟨-, rfl⟩ := (adds_rack_iff hget).1 hadds
    by_cases htext : d.rackText m = ""
    · exact .inl htext
    · rw [rackValue, if_neg htext] at hrack
      exact .inr hrack
  · intro h site hadds hsite
    cases hget : d.getSite with
    | false => exact absurd hadds (not_adds hget)
    | true =>
      obtain ⟨-, rfl⟩ := (adds_site_iff hget).1 hadds
      have hrack : ¬ IsBlank (d.expandEnv (d.rackValue m)) := by
        rw [rackValue]
        by_cases htext : d.rackText m = ""
        · rwa [if_pos htext]
        · rw [if_neg htext]
          exact (h hget hsite).resolve_left htext
      exact ⟨_, (adds_rack_iff hget).2 ⟨setsRack_of_not_isBlank (not_isBlank_of_expandEnv hrack), rfl⟩, hrack⟩

/-- The details of a member with a site, and with a rack of two blanks. -/
def blankRack : RunDetails :=
  newRunDetails fun name => if name = "COHERENCE_SITE" then "here" else if name = "COHERENCE_RACK" then "  " else ""

theorem not_forall_rackFollows : ¬ ∀ (m : Machine) (d : RunDetails), d.RackFollows m := by
  intro h
  have hget : blankRack.getSite = true := by decide +kernel
  have hsite : Adds blankRack (blankRack.configureSiteAndRack bareMachine) "coherence.site" "here" :=
    (adds_site_iff hget).2 (by decide +kernel)
  obtain ⟨rack, hadds, hrack⟩ := h bareMachine blankRack "here" hsite (by decide +kernel)
  obtain ⟨-, rfl⟩ := (adds_rack_iff hget).1 hadds
  exact hrack (by decide +kernel)

end RunDetails

end CoherenceOperator
