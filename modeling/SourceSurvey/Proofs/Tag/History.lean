import SourceSurvey.Proofs.Regex.Matches
import SourceSurvey.Proofs.Tag

/-!
The history of a registry. What a registry tags is settled by the registrations that have succeeded,
in their order; one that fails might as well not have been made.
-/

namespace SourceSurvey.Tag

/-- The rules that are registered, if all of them are expressions. -/
def Registration.ruleSet? [Regex.Engine] (r : Registration) : Option RuleSet :=
  (r.patterns.mapM (compile r.ignoreCase)).toOption.map fun rules => ⟨r.category, r.scope, rules⟩

section

variable [Regex.Engine]

namespace Registry

variable {registry : Registry} {r : Registration}

/-- What one registration leaves: its rules behind all others, or nothing new. -/
theorem register_fst (registry : Registry) (r : Registration) :
    (registry.register r).1 = registry ++ r.ruleSet?.toList := by
  rw [Registration.ruleSet?]
  rcases register_cases registry r with ⟨rules, hRules, hRegister⟩ | ⟨e, hRules, hRegister⟩
  · rw [hRegister, hRules]
    rfl
  · rw [hRegister, hRules]
    exact (List.append_nil registry).symm

/-- By induction over the history, from any registry on. -/
theorem foldl_register_eq (registry : Registry) (history : List Registration) :
    history.foldl (fun registry r => (registry.register r).1) registry =
      registry ++ history.filterMap Registration.ruleSet? := by
  induction history generalizing registry with
  | nil => exact (List.append_nil registry).symm
  | cons r rest ih =>
      rw [List.foldl_cons, ih, register_fst, List.append_assoc, List.filterMap_cons]
      cases r.ruleSet? <;> rfl

theorem ofHistory_eq (history : List Registration) :
    ofHistory history = history.filterMap Registration.ruleSet? :=
  foldl_register_eq [] history

/-- A registration that fails changes nothing, and has no rules to add. -/
theorem register_of_error {e : RuleError} (h : (registry.register r).2 = .error e) :
    (registry.register r).1 = registry ∧ r.ruleSet? = none := by
  rcases register_cases registry r with ⟨rules, _, hRegister⟩ | ⟨_, hRules, hRegister⟩
  · rw [hRegister] at h
    cases h
  · rw [hRegister, Registration.ruleSet?, hRules]
    exact ⟨rfl, rfl⟩

/-- A registration that fails might as well not be in the history. -/
theorem ofHistory_of_fails {before after : List Registration} {e : RuleError}
    (h : ((ofHistory before).register r).2 = .error e) :
    ofHistory (before ++ r :: after) = ofHistory (before ++ after) := by
  simp only [ofHistory_eq, List.filterMap_append, List.filterMap_cons, (register_of_error h).2]

end Registry

/-- What a rule tags: the first group of each match in which it takes part. -/
def tagsOf (category : Category) (text : List Char) (rule : Regex) : List Tag :=
  (rule.allMatches text).filterMap fun m =>
    (m.group? 1 text).map fun value => ⟨category, String.ofList value⟩

theorem Registry.tag_eq_tagsOf (registry : Registry) (content : String) (language : Language) :
    registry.tag content language =
      ((registry.filter (·.scope.appliesTo language)).flatMap fun set =>
        set.rules.flatMap (tagsOf set.category content.toList)).take maxTags := by
  rw [tag_eq, allTags]
  simp only [Regex.firstGroups, List.map_filterMap]
  rfl

/-! ### The registry of a configuration -/

/-- The further rules of a category, none unless all of them are expressions. -/
def ExtraRules.rules (extra : ExtraRules) (category : Category) : List Regex :=
  ((extra.ofCategory category).mapM (compile false)).toOption.getD []

theorem rules_eq_of_mapM {extra : ExtraRules} {category : Category} {rules : List Regex}
    (h : (extra.ofCategory category).mapM (compile false) = .ok rules) :
    extra.rules category = rules := by
  rw [ExtraRules.rules, h]
  rfl

/-- The sets of rules of a category, the built-in one first. -/
def setsOf (extra : ExtraRules) (category : Category) : Registry :=
  ⟨category, scopeOf category, builtinRules category⟩ ::
    furtherSets extra category (extra.rules category)

/-- By induction over the categories. -/
theorem eq_append_of_foldlM {extra : ExtraRules} {categories : List Category}
    {registry registered : Registry}
    (h : categories.foldlM (registerCategory extra) registry = .ok registered) :
    registered = registry ++ categories.flatMap (setsOf extra) := by
  induction categories generalizing registry with
  | nil =>
      cases h
      exact (List.append_nil _).symm
  | cons category rest ih =>
      rw [List.foldlM_cons, Except.bind_eq_ok_iff] at h
      obtain ⟨next, hRegister, hRest⟩ := h
      obtain ⟨rules, hRules, rfl⟩ := registerCategory_eq_ok_iff.1 hRegister
      rw [ih hRest, List.flatMap_cons, setsOf, rules_eq_of_mapM hRules, List.append_assoc]

theorem eq_of_registryWith {extra : ExtraRules} {registry : Registry}
    (h : registryWith extra = .ok registry) : registry = Category.all.flatMap (setsOf extra) :=
  @eq_append_of_foldlM _ extra Category.all [] registry h

/-- Without patterns there are no further rules. -/
theorem rules_of_isEmpty {extra : ExtraRules} {category : Category}
    (h : (extra.ofCategory category).isEmpty = true) : extra.rules category = [] := by
  rw [ExtraRules.rules, List.isEmpty_iff.1 h]
  rfl

/-- The tags of one category: those of the built-in rules before those of the further ones, and none
if the category is not for the language. -/
def categoryTags (extra : ExtraRules) (text : List Char) (language : Language) (category : Category) :
    List Tag :=
  if (scopeOf category).appliesTo language then
    (builtinRules category ++ extra.rules category).flatMap (tagsOf category text)
  else []

theorem tag_of_registryWith {extra : ExtraRules} {registry : Registry}
    (h : registryWith extra = .ok registry) (content : String) (language : Language) :
    registry.tag content language =
      (Category.all.flatMap (categoryTags extra content.toList language)).take Registry.maxTags := by
  have hSets : ∀ category, ((setsOf extra category).filter (·.scope.appliesTo language)).flatMap
      (fun set => set.rules.flatMap (tagsOf set.category content.toList)) =
        categoryTags extra content.toList language category := by
    intro category
    rw [setsOf, furtherSets, categoryTags]
    by_cases hApplies : (scopeOf category).appliesTo language = true
    · cases hNone : (extra.ofCategory category).isEmpty with
      | true => simp [hApplies, rules_of_isEmpty hNone]
      | false => simp [hApplies]
    · cases (extra.ofCategory category).isEmpty <;> simp [hApplies]
  rw [Registry.tag_eq_tagsOf, eq_of_registryWith h, List.filter_flatMap, List.flatMap_assoc]
  simp only [hSets]

/-- The endpoints of a file are tagged first. -/
theorem endpointTags_prefix {extra : ExtraRules} {registry : Registry}
    (h : registryWith extra = .ok registry) (content : String) (language : Language) :
    (categoryTags extra content.toList language .endpoint).take Registry.maxTags <+:
      registry.tag content language := by
  rw [tag_of_registryWith h, Category.all, List.flatMap_cons]
  exact (List.prefix_append _ _).take _

/-- Tagging over any history of a registry, with any engine: the matches of every rule are the
successive ones, the tags are the first ten of the registrations that have succeeded, one that fails
leaves the registry as it is and no trace in what is tagged later, and in the registry of a
configuration the tags of endpoints come before those of models and these before those of components,
which only scripts have. -/
theorem tag_history [Regex.LawfulEngine] :
    (∀ (rule : Regex) (text : List Char) (found : List Regex.Match),
      rule.Successive text none 0 found ↔ found = rule.allMatches text) ∧
    (∀ (history : List Registration) (content : String) (language : Language),
      (Registry.ofHistory history).tag content language =
        (((history.filterMap Registration.ruleSet?).filter (·.scope.appliesTo language)).flatMap
          fun set => set.rules.flatMap fun rule => (rule.allMatches content.toList).filterMap
            fun m => (m.group? 1 content.toList).map
              fun value => ⟨set.category, String.ofList value⟩).take 10) ∧
    (∀ (before after : List Registration) (r : Registration) (e : RuleError),
      ((Registry.ofHistory before).register r).2 = .error e →
      ((Registry.ofHistory before).register r).1 = Registry.ofHistory before ∧
      (Registry.ofHistory (before ++ r :: after)).ruleCount =
        (Registry.ofHistory (before ++ after)).ruleCount ∧
      ∀ content language, (Registry.ofHistory (before ++ r :: after)).tag content language =
        (Registry.ofHistory (before ++ after)).tag content language) ∧
    (∀ extra : ExtraRules, (∀ category, ∀ pattern ∈ extra.ofCategory category,
        ∃ rule, Regex.parse false pattern = .ok rule) →
      ∃ registry, registryWith extra = .ok registry ∧
        (∀ category, (extra.ofCategory category).mapM (compile false) = .ok (extra.rules category)) ∧
        ∀ content language, registry.tag content language =
          ((endpointRules ++ extra.rules .endpoint).flatMap (tagsOf .endpoint content.toList) ++
            (persistenceModelRules ++ extra.rules .persistenceModel).flatMap
              (tagsOf .persistenceModel content.toList) ++
            if language.isScript then (uiComponentRules ++ extra.rules .uiComponent).flatMap
              (tagsOf .uiComponent content.toList) else []).take 10) := by
  refine ⟨fun rule text found => Regex.successive_iff, fun history content language => ?_,
    fun before after r e hFails => ?_, fun extra hExtra => ?_⟩
  · rw [Registry.tag_eq_tagsOf, Registry.ofHistory_eq]
    rfl
  · rw [Registry.ofHistory_of_fails hFails]
    exact ⟨(Registry.register_of_error hFails).1, rfl, fun _ _ => rfl⟩
  · obtain ⟨registry, hRegistry⟩ := exists_registryWith_eq_ok_iff.2 fun category _ => hExtra category
    refine ⟨registry, hRegistry, fun category => ?_, fun content language => ?_⟩
    · have hCompile : ∀ pattern ∈ extra.ofCategory category, ∃ rule,
          compile false pattern = .ok rule := by
        intro pattern hPattern
        obtain ⟨rule, hRule⟩ := hExtra category pattern hPattern
        exact ⟨rule, compile_eq_ok_iff.2 hRule⟩
      obtain ⟨rules, hRules⟩ := Except.exists_mapM_eq_ok_iff.2 hCompile
      rw [hRules, rules_eq_of_mapM hRules]
    · have hAll : Category.all.flatMap (categoryTags extra content.toList language) =
          categoryTags extra content.toList language .endpoint ++
            (categoryTags extra content.toList language .persistenceModel ++
              (categoryTags extra content.toList language .uiComponent ++ [])) := rfl
      rw [tag_of_registryWith hRegistry, hAll, List.append_nil, ← List.append_assoc]
      rfl

end

/-- A rule that matches the empty text, too, and may go through its loop without reading. -/
def repeatedLetters : Registration := ⟨.endpoint, .allLanguages, ["((?:a*|b)*)"], false⟩

/-- The second pattern is no expression. -/
def brokenPattern : Registration := ⟨.endpoint, .allLanguages, ["b", "("], false⟩

def otherLetter : Registration := ⟨.uiComponent, .scripts, ["(b)"], false⟩

def letterRules : ExtraRules := { endpoint := ["(b)"] }

theorem tag_history_letters :
    (Registry.ofHistory ([repeatedLetters] ++ brokenPattern :: [otherLetter])).tag "cab" .javascript =
      [⟨.endpoint, ""⟩, ⟨.endpoint, "ab"⟩, ⟨.uiComponent, "b"⟩] ∧
    (Registry.ofHistory ([repeatedLetters] ++ brokenPattern :: [otherLetter])).ruleCount = 2 ∧
    ∃ registry, registryWith letterRules = .ok registry ∧
      registry.tag "bbbbbbbbbbb" .text = List.replicate 10 ⟨.endpoint, "b"⟩ := by
  obtain ⟨_, _, hFailed, hExtra⟩ := tag_history
  have hTags : (Registry.ofHistory ([repeatedLetters] ++ [otherLetter])).tag "cab" .javascript =
      [⟨.endpoint, ""⟩, ⟨.endpoint, "ab"⟩, ⟨.uiComponent, "b"⟩] := by
    decide +kernel
  have hCount : (Registry.ofHistory ([repeatedLetters] ++ [otherLetter])).ruleCount = 2 := by
    decide +kernel
  have hBroken : ((Registry.ofHistory [repeatedLetters]).register brokenPattern).2.toOption.isSome =
      false := by
    decide +kernel
  have hLetter : (Regex.parse false "(b)").toOption.isSome = true := by decide +kernel
  have hPatterns : ∀ category, ∀ pattern ∈ letterRules.ofCategory category,
      ∃ rule, Regex.parse false pattern = .ok rule := by
    intro category pattern hPattern
    cases category with
    | endpoint =>
        rw [List.mem_singleton.1 hPattern]
        cases hParse : Regex.parse false "(b)" with
        | ok rule => exact ⟨rule, rfl⟩
        | error => simp [hParse, Except.toOption] at hLetter
    | persistenceModel => cases hPattern
    | uiComponent => cases hPattern
  obtain ⟨registry, hRegistry, _, hRegistryTags⟩ := hExtra letterRules hPatterns
  cases hRegister : ((Registry.ofHistory [repeatedLetters]).register brokenPattern).2 with
  | ok => simp [hRegister, Except.toOption] at hBroken
  | error e =>
      obtain ⟨_, hSameCount, hSameTags⟩ :=
        hFailed [repeatedLetters] [otherLetter] brokenPattern e hRegister
      refine ⟨?_, ?_, registry, hRegistry, ?_⟩
      · rw [hSameTags, hTags]
      · rw [hSameCount, hCount]
      · rw [hRegistryTags]
        decide +kernel

end SourceSurvey.Tag
