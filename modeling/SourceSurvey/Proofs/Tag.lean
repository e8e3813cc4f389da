import SourceSurvey.Proofs.Regex.Capture
import SourceSurvey.Proofs.Survey.Rules
import SourceSurvey.Proofs.Text.Line

/-!
Which tags a file can have: rules for components of user interfaces look into scripts only, in the
built-in registry and with whatever rules are added to it. The built-in rules for models and
components capture names, those for routes whatever is between quotes.
-/

namespace SourceSurvey.Tag

/-- Every set of rules is for the files that its category is for. -/
def Registry.Scoped (registry : Registry) : Prop :=
  ∀ set ∈ registry, set.scope = scopeOf set.category

theorem Registry.Scoped.concat {registry : Registry} (h : registry.Scoped) (category : Category)
    (rules : List Regex) : Registry.Scoped (registry ++ [⟨category, scopeOf category, rules⟩]) := by
  intro set hMem
  rcases List.mem_append.1 hMem with hMem | hMem
  · exact h set hMem
  · rw [List.mem_singleton.1 hMem]

/-- In the registry of a configuration each set of rules is for the files of its category. -/
theorem scoped_of_registryWith [Regex.Engine] {extra : ExtraRules} {registry : Registry}
    (h : registryWith extra = .ok registry) : registry.Scoped := by
  refine Except.foldlM_invariant ?_ (by simp [Registry.Scoped]) h
  intro category _ registry registered hScoped hRegister
  obtain ⟨rules, _, rfl⟩ := registerCategory_eq_ok_iff.1 hRegister
  have hBuiltin := hScoped.concat category (builtinRules category)
  rw [furtherSets]
  split
  · exact hBuiltin
  · rw [List.append_cons]
    exact hBuiltin.concat category rules

/-! ### Enough tags -/

namespace Registry

variable [Regex.Engine]

/-- All tags of a text, in order of registration. -/
def allTags (registry : Registry) (content : String) (language : Language) : List Tag :=
  (registry.filter (·.scope.appliesTo language)).flatMap fun set =>
    set.rules.flatMap fun rule =>
      (rule.firstGroups content.toList).map fun value => ⟨set.category, String.ofList value⟩

/-- Some work on the tags of a file finds these further ones, and breaks off with the last tag that is
kept. -/
def Finds (work : List Tag → Except (List Tag) (List Tag)) (found : List Tag) : Prop :=
  ∀ tags, tags.length < maxTags → work tags =
    if (tags ++ found).length < maxTags then .ok (tags ++ found)
    else .error ((tags ++ found).take maxTags)

omit [Regex.Engine] in
theorem finds_nothing : Finds .ok [] := by
  intro tags hFew
  rw [List.append_nil, if_pos hFew]

omit [Regex.Engine] in
theorem finds_keep (t : Tag) : Finds (keep · t) [t] := by
  intro tags hFew
  have hLength : (tags ++ [t]).length = tags.length + 1 := by simp
  dsimp only [keep]
  split
  · rename_i hEnough
    rw [if_neg (by omega), List.take_of_length_le (by omega)]
  · rw [if_pos (by omega)]

omit [Regex.Engine] in
/-- What is found first leaves that much less room for what is found then. -/
theorem Finds.bind {work next : List Tag → Except (List Tag) (List Tag)} {found more : List Tag}
    (h : Finds work found) (hNext : Finds next more) :
    Finds (fun tags => work tags >>= next) (found ++ more) := by
  intro tags hFew
  dsimp only
  rw [h tags hFew]
  by_cases hRoom : (tags ++ found).length < maxTags
  · rw [if_pos hRoom, ← List.append_assoc]
    exact hNext _ hRoom
  · have hLength : (tags ++ found ++ more).length = (tags ++ found).length + more.length :=
      List.length_append
    have hTake : (tags ++ found ++ more).take maxTags = (tags ++ found).take maxTags :=
      List.take_append_of_le_length (by omega)
    rw [if_neg hRoom, ← List.append_assoc, if_neg (by omega), hTake]
    rfl

omit [Regex.Engine] in
theorem Finds.foldlM {α : Type} {work : List Tag → α → Except (List Tag) (List Tag)}
    {found : α → List Tag} (h : ∀ a, Finds (work · a) (found a)) (items : List α) :
    Finds (fun tags => items.foldlM work tags) (items.flatMap found) := by
  induction items with
  | nil => exact finds_nothing
  | cons a rest ih =>
      simp only [List.foldlM_cons, List.flatMap_cons]
      exact (h a).bind ih

/-- A rule finds what its first group captured. -/
theorem finds_tagRule (category : Category) (text : List Char) (rule : Regex) :
    Finds (tagRule category text · rule)
      ((rule.firstGroups text).map fun value => ⟨category, String.ofList value⟩) := by
  have hMatches : (rule.firstGroups text).map (fun value => (⟨category, String.ofList value⟩ : Tag)) =
      (rule.allMatches text).flatMap fun m =>
        ((m.group? 1 text).map fun value => (⟨category, String.ofList value⟩ : Tag)).toList := by
    rw [Regex.firstGroups, List.map_filterMap, List.filterMap_eq_flatMap_toList]
  rw [hMatches]
  refine .foldlM (fun m => ?_) _
  cases m.group? 1 text with
  | none => exact finds_nothing
  | some value => exact finds_keep _

/-- A set of rules finds what its rules do, if it is for the language. -/
theorem finds_tagSet (text : List Char) (language : Language) (set : RuleSet) :
    Finds (tagSet text language · set)
      (if set.scope.appliesTo language then set.rules.flatMap fun rule =>
        (rule.firstGroups text).map fun value => ⟨set.category, String.ofList value⟩ else []) := by
  by_cases hApplies : set.scope.appliesTo language = true
  · simp only [tagSet, if_pos hApplies]
    exact .foldlM (finds_tagRule set.category text) set.rules
  · simp only [tagSet, if_neg hApplies]
    exact finds_nothing

/-- To stop as soon as there are enough tags makes no difference to those that are kept. -/
theorem tag_eq (registry : Registry) (content : String) (language : Language) :
    registry.tag content language = (registry.allTags content language).take maxTags := by
  have hAll : registry.allTags content language = registry.flatMap fun set =>
      if set.scope.appliesTo language then set.rules.flatMap fun rule =>
        (rule.firstGroups content.toList).map fun value => ⟨set.category, String.ofList value⟩
      else [] := by
    rw [allTags]
    induction registry with
    | nil => rfl
    | cons set rest ih =>
        rw [List.filter_cons, List.flatMap_cons, ← ih]
        split <;> rfl
  have hTags := Finds.foldlM (finds_tagSet content.toList language) registry [] (by decide)
  rw [List.nil_append, ← hAll] at hTags
  dsimp only at hTags
  rw [tag, hTags]
  by_cases hFew : (registry.allTags content language).length < maxTags
  · rw [if_pos hFew, List.take_of_length_le (by omega)]
  · rw [if_neg hFew]

end Registry

section

variable [Regex.Engine]

/-- Each tag is of a rule that is for the language. -/
theorem Registry.exists_rule_of_mem_allTags {registry : Registry} {content : String}
    {language : Language} {t : Tag} (h : t ∈ registry.allTags content language) :
    ∃ set ∈ registry, set.scope.appliesTo language = true ∧ set.category = t.category ∧
      ∃ rule ∈ set.rules, t.value.toList ∈ rule.firstGroups content.toList := by
  simp only [allTags, List.mem_flatMap, List.mem_filter, List.mem_map] at h
  obtain ⟨set, ⟨hSet, hApplies⟩, rule, hRule, value, hValue, rfl⟩ := h
  exact ⟨set, hSet, hApplies, rfl, rule, hRule, by simpa using hValue⟩

/-- Components are tagged in scripts only. -/
theorem Registry.isScript_of_mem_tag {registry : Registry} (hScoped : registry.Scoped)
    {content : String} {language : Language} {t : Tag} (h : t ∈ registry.tag content language)
    (hCategory : t.category = .uiComponent) : language.isScript = true := by
  rw [tag_eq] at h
  obtain ⟨set, hSet, hApplies, hSame, _⟩ := exists_rule_of_mem_allTags (List.mem_of_mem_take h)
  rw [hScoped set hSet, hSame, hCategory] at hApplies
  exact hApplies

/-- No file has more than ten tags. -/
theorem Registry.length_tag_le (registry : Registry) (content : String) (language : Language) :
    (registry.tag content language).length ≤ 10 := by
  rw [tag_eq]
  exact List.length_take_le _ _

end

/-! ### What is captured -/

/-- Every rule is a built-in one or one of the further rules. -/
def Registry.MadeOf [Regex.Engine] (extra : ExtraRules) (registry : Registry) : Prop :=
  ∀ set ∈ registry, ∀ rule ∈ set.rules, rule ∈ builtinRules set.category ∨
    ∃ pattern ∈ extra.ofCategory set.category, Regex.parse false pattern = .ok rule

/-- A registry has the rules that are built in, and those of the settings. -/
theorem madeOf_of_registryWith [Regex.Engine] {extra : ExtraRules} {registry : Registry}
    (h : registryWith extra = .ok registry) : registry.MadeOf extra := by
  refine Except.foldlM_invariant ?_ (by simp [Registry.MadeOf]) h
  intro category _ registry registered hMade hRegister
  obtain ⟨rules, hRules, rfl⟩ := registerCategory_eq_ok_iff.1 hRegister
  refine List.forall_mem_append.2 ⟨hMade, List.forall_mem_cons.2 ⟨fun rule hRule => .inl hRule, ?_⟩⟩
  rw [furtherSets]
  split
  · exact List.forall_mem_nil _
  · refine List.forall_mem_singleton.2 fun rule hRule => .inr ?_
    obtain ⟨pattern, hPattern, hCompile⟩ := Except.exists_of_mem_of_mapM_eq_ok hRules hRule
    exact ⟨pattern, hPattern, Except.mapError_eq_ok_iff.1 hCompile⟩

/-- The built-in rules capture names, apart from those for routes. -/
theorem mayCapture_builtinRules {category : Category} (h : category ≠ .endpoint) {rule : Regex}
    (hRule : rule ∈ builtinRules category) : rule.mayCapture '\n' = false := by
  have hBreak : Text.caseVariants '\n' = ['\n'] := Text.caseVariants_of_not_isWord rfl
  have hModels : ∀ rule ∈ persistenceModelRules, rule.mayCapture '\n' = false := by
    simp only [persistenceModelRules, List.forall_mem_map, Regex.mayCapture_ignoringCase hBreak]
    decide +kernel
  have hComponents : ∀ rule ∈ uiComponentRules, rule.mayCapture '\n' = false := by
    decide +kernel
  cases category with
  | endpoint => exact absurd rfl h
  | persistenceModel => exact hModels rule hRule
  | uiComponent => exact hComponents rule hRule

/-- A tag that is neither a route nor captured by one of the further rules is on one line. -/
theorem Registry.oneLine_or_captured {extra : ExtraRules} {registry : Registry}
    (h : registryWith extra = .ok registry) {content : String} {language : Language} {t : Tag}
    (hTag : t ∈ registry.tag content language) (hCategory : t.category ≠ .endpoint) :
    Text.OneLine t.value ∨ ∃ pattern ∈ extra.ofCategory t.category, ∃ rule,
      Regex.parse false pattern = .ok rule ∧ t.value.toList ∈ rule.firstGroups content.toList := by
  rw [Registry.tag_eq] at hTag
  obtain ⟨set, hSet, _, hSame, rule, hRule, hValue⟩ :=
    exists_rule_of_mem_allTags (List.mem_of_mem_take hTag)
  rcases madeOf_of_registryWith h set hSet rule hRule with hBuiltin | ⟨pattern, hPattern, hParse⟩
  · left
    rw [hSame] at hBuiltin
    intro hBreak
    have hCapture := Regex.mayCapture_of_mem_firstGroups hValue hBreak
    rw [mayCapture_builtinRules hCategory hBuiltin] at hCapture
    cases hCapture
  · right
    exact ⟨pattern, hSame ▸ hPattern, rule, hParse, hValue⟩

end SourceSurvey.Tag
