import SourceSurvey.Proofs.Glob.Set
import SourceSurvey.Proofs.Path
import SourceSurvey.Survey.Rules

/-!
The rules that settings give: a filter, a registry and a catalog, each made on its own. What makes
one of them fail is a pattern, rule or signature of the settings.
-/

namespace SourceSurvey

/-- Which paths are left out, when all names are texts. -/
theorem Filter.skips_def (filter : Filter) (path : String) : filter.skips path =
    match Path.fileName? path with
    | none => false
    | some base =>
      base.startsWith "." || filter.fileNames.any (·.isMatch base) ||
        (Path.components path).any (fun
          | .name n => filter.names.contains n
          | _ => false) ||
        filter.paths.any (·.isMatch path) := by
  rw [skips, PathText.bind_text?_string]
  cases Path.fileName? path with
  | none => rfl
  | some base =>
      simp only
      congr 3
      funext component
      cases component <;> rfl

section

variable [Glob.Engine]

theorem Filter.withExtras_eq_ok_iff {names paths : List String} {filter : Filter} :
    withExtras names paths = .ok filter ↔ ∃ globs, Glob.parseSet paths = .ok globs ∧
      ⟨defaultNames ++ names, defaultFileNames, globs⟩ = filter := by
  rw [withExtras, Except.bind_eq_ok_iff]
  apply exists_congr
  intro globs
  apply and_congr_right
  intro _
  exact ⟨Except.ok.inj, congrArg Except.ok⟩

theorem Filter.of_withExtras_eq_error {names paths : List String} {e : Glob.SetError}
    (h : withExtras names paths = .error e) : Glob.parseSet paths = .error e := by
  rw [withExtras, Except.bind_eq_error_iff] at h
  rcases h with hSet | ⟨_, _, hPure⟩
  · exact hSet
  · cases hPure

end

variable [Regex.Engine]

namespace Tag

theorem compile_eq_ok_iff {ignoreCase : Bool} {pattern : String} {r : Regex} :
    compile ignoreCase pattern = .ok r ↔ Regex.parse ignoreCase pattern = .ok r :=
  Except.mapError_eq_ok_iff

/-- What a registration does to a registry and what comes of it: without fault in the patterns their
rules are added, with one the registry stays as it is. -/
theorem register_cases (registry : Registry) (r : Registration) :
    (∃ rules, r.patterns.mapM (compile r.ignoreCase) = .ok rules ∧
      registry.register r = (registry ++ [⟨r.category, r.scope, rules⟩], .ok ())) ∨
    ∃ e, r.patterns.mapM (compile r.ignoreCase) = .error e ∧
      registry.register r = (registry, .error e) := by
  rw [Registry.register]
  cases r.patterns.mapM (compile r.ignoreCase) with
  | ok rules => exact .inl ⟨rules, rfl, rfl⟩
  | error e => exact .inr ⟨e, rfl, rfl⟩

/-- The rules of a category of the settings, none if there are no patterns. -/
def furtherSets (extra : ExtraRules) (category : Category) (rules : List Regex) : Registry :=
  if (extra.ofCategory category).isEmpty then [] else [⟨category, scopeOf category, rules⟩]

/-- A category is registered if its further rules are expressions. -/
theorem registerCategory_eq_ok_iff {extra : ExtraRules} {registry registered : Registry}
    {category : Category} :
    registerCategory extra registry category = .ok registered ↔
      ∃ rules, (extra.ofCategory category).mapM (compile false) = .ok rules ∧
        registered = registry ++ ⟨category, scopeOf category, builtinRules category⟩ ::
          furtherSets extra category rules := by
  rw [registerCategory]
  simp only [furtherSets]
  cases hPatterns : extra.ofCategory category with
  | nil => simp [pure, Except.pure, eq_comm]
  | cons pattern patterns =>
      simp only [List.isEmpty_cons, Bool.false_eq_true, if_false]
      rcases register_cases (registry ++ [⟨category, scopeOf category, builtinRules category⟩])
        ⟨category, scopeOf category, pattern :: patterns, false⟩ with
        ⟨rules, hRules, hRegister⟩ | ⟨e, hRules, hRegister⟩
      · dsimp only at hRules
        rw [hRegister, hRules]
        simp [eq_comm]
      · dsimp only at hRules
        rw [hRegister, hRules]
        simp

/-- The rules of the settings are the only ones that can fail. -/
theorem exists_registryWith_eq_ok_iff {extra : ExtraRules} :
    (∃ registry, registryWith extra = .ok registry) ↔
      ∀ category ∈ Category.all, ∀ pattern ∈ extra.ofCategory category,
        ∃ r, Regex.parse false pattern = .ok r := by
  apply Except.exists_foldlM_eq_ok_iff
  intro registry category
  simp only [registerCategory_eq_ok_iff, ← compile_eq_ok_iff, ← Except.exists_mapM_eq_ok_iff]
  constructor
  · intro h
    obtain ⟨_, rules, hRules, _⟩ := h
    exact ⟨rules, hRules⟩
  · intro h
    obtain ⟨rules, hRules⟩ := h
    exact ⟨_, rules, hRules, rfl⟩

end Tag

namespace Catalog

theorem compile_eq_ok_iff {signature : String} {r : Regex} :
    compile signature = .ok r ↔ Regex.parse true signature = .ok r :=
  Except.mapError_eq_ok_iff

/-- A catalog can be extended just if all signatures are expressions without letter case. -/
theorem exists_withExtras_eq_ok_iff {extra : List (String × List String)} :
    (∃ catalog, withExtras extra = .ok catalog) ↔
      ∀ entry ∈ extra, ∀ signature ∈ entry.2, ∃ r, Regex.parse true signature = .ok r := by
  apply Except.exists_foldlM_eq_ok_iff
  intro catalog entry
  simp only [← compile_eq_ok_iff, ← Except.exists_mapM_eq_ok_iff, Except.bind_eq_ok_iff]
  constructor
  · intro h
    obtain ⟨_, signatures, hSignatures, _⟩ := h
    exact ⟨signatures, hSignatures⟩
  · intro h
    obtain ⟨signatures, hSignatures⟩ := h
    exact ⟨_, signatures, hSignatures, rfl⟩

/-- A catalog fails with the fault of one of its signatures. -/
theorem exists_of_withExtras_eq_error {extra : List (String × List String)} {e : SignatureError}
    (h : withExtras extra = .error e) : ∃ entry ∈ extra, e.signature ∈ entry.2 ∧
      Regex.parse true e.signature = .error e.cause := by
  obtain ⟨entry, hEntry, catalog, hStep⟩ := Except.exists_of_foldlM_eq_error h
  rcases Except.bind_eq_error_iff.1 hStep with hCompile | ⟨_, _, hPure⟩
  · obtain ⟨signature, hMem, hFault⟩ := Except.exists_of_mapM_eq_error hCompile
    obtain ⟨cause, hCause, rfl⟩ := Except.mapError_eq_error_iff.1 hFault
    exact ⟨entry, hEntry, hMem, hCause⟩
  · cases hPure

end Catalog

namespace Rules

variable [Glob.Engine]

/-- Rules are made of settings part by part, and none of the parts looks at another. -/
theorem ofConfig_eq_ok_iff {c : Config} {rules : Rules} :
    ofConfig c = .ok rules ↔
      Filter.withExtras c.ignoreNames c.excludedPaths = .ok rules.filter ∧
      Tag.registryWith c.extraRules = .ok rules.registry ∧
      Catalog.withExtras c.extraFrameworks.entries = .ok rules.catalog ∧
      c.includeTextFiles = rules.includeTextFiles := by
  rw [ofConfig]
  simp only [Except.bind_eq_ok_iff, Except.mapError_eq_ok_iff]
  constructor
  · intro h
    obtain ⟨filter, hFilter, registry, hRegistry, catalog, hCatalog, hRules⟩ := h
    cases hRules
    exact ⟨hFilter, hRegistry, hCatalog, rfl⟩
  · intro h
    obtain ⟨hFilter, hRegistry, hCatalog, hInclude⟩ := h
    exact ⟨_, hFilter, _, hRegistry, _, hCatalog, by rw [hInclude]; rfl⟩

/-- Settings give rules if their patterns can be matched together, and all else in them can be read,
the signatures with letter case ignored. -/
theorem exists_ofConfig_eq_ok_iff {c : Config} :
    (∃ rules, ofConfig c = .ok rules) ↔
      (∃ globs, Glob.parseSet c.excludedPaths = .ok globs) ∧
      (∀ category ∈ Tag.Category.all, ∀ pattern ∈ c.extraRules.ofCategory category,
        ∃ r, Regex.parse false pattern = .ok r) ∧
      ∀ entry ∈ c.extraFrameworks.entries, ∀ signature ∈ entry.2,
        ∃ r, Regex.parse true signature = .ok r := by
  rw [← Tag.exists_registryWith_eq_ok_iff, ← Catalog.exists_withExtras_eq_ok_iff]
  simp only [ofConfig_eq_ok_iff, Filter.withExtras_eq_ok_iff]
  constructor
  · intro h
    obtain ⟨rules, ⟨globs, hGlobs, _⟩, hRegistry, hCatalog, _⟩ := h
    exact ⟨⟨globs, hGlobs⟩, ⟨_, hRegistry⟩, ⟨_, hCatalog⟩⟩
  · intro h
    obtain ⟨⟨globs, hGlobs⟩, ⟨registry, hRegistry⟩, ⟨catalog, hCatalog⟩⟩ := h
    exact ⟨⟨_, registry, catalog, c.includeTextFiles⟩, ⟨globs, hGlobs, rfl⟩, hRegistry, hCatalog, rfl⟩

/-- Rules fail as the filter, the registry or the catalog does. -/
theorem of_ofConfig_eq_error {c : Config} {fault : Fault} (h : ofConfig c = .error fault) :
    (∃ e, Filter.withExtras c.ignoreNames c.excludedPaths = .error e ∧ .excludedPaths e = fault) ∨
    (∃ e, Tag.registryWith c.extraRules = .error e ∧ .tagRule e = fault) ∨
    ∃ e, Catalog.withExtras c.extraFrameworks.entries = .error e ∧ .signature e = fault := by
  rw [ofConfig] at h
  simp only [Except.bind_eq_error_iff, Except.mapError_eq_error_iff] at h
  rcases h with hFilter | ⟨_, _, hRegistry | ⟨_, _, hCatalog | ⟨_, _, hPure⟩⟩⟩
  · exact Or.inl hFilter
  · exact Or.inr (Or.inl hRegistry)
  · exact Or.inr (Or.inr hCatalog)
  · cases hPure

end Rules

end SourceSurvey
