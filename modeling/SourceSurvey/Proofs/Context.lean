import SourceSurvey.Context
import SourceSurvey.Proofs.Dictionary

/-!
All that a context names is in a record or in the summary that it has been made of, and of the
tags and dependencies it has the first.
-/

namespace SourceSurvey

theorem Record.mem_rankedAbove {records : List Record} {threshold : Nat} {r : Record} :
    r ∈ rankedAbove records threshold ↔ r ∈ records ∧ threshold < r.complexity := by
  simp [rankedAbove, List.mem_mergeSort]

namespace Context

/-- All tags of a category with their files, in the order of the records. -/
def taggedWith (records : List Record) (category : Tag.Category) : List SourcedTag :=
  records.flatMap fun r =>
    (r.tags.filter (·.category = category)).map fun t => ⟨t.value, r.path, r.language⟩

/-- What is tagged with a category is a tag of a record, with its path and its language. -/
theorem mem_taggedWith {records : List Record} {category : Tag.Category} {item : SourcedTag} :
    item ∈ taggedWith records category ↔ ∃ r ∈ records, ⟨category, item.value⟩ ∈ r.tags ∧
      item.sourcePath = r.path ∧ item.language = r.language := by
  simp only [taggedWith, List.mem_flatMap, List.mem_map, List.mem_filter, decide_eq_true_eq]
  constructor
  · intro h
    obtain ⟨r, hMem, t, ⟨hTag, hCategory⟩, rfl⟩ := h
    subst hCategory
    exact ⟨r, hMem, hTag, rfl, rfl⟩
  · intro h
    obtain ⟨r, hMem, hTag, hPath, hLanguage⟩ := h
    refine ⟨r, hMem, _, ⟨hTag, rfl⟩, ?_⟩
    rw [← hPath, ← hLanguage]

/-- Items are the first tags of a category: each is a tag of a record with the path and language of
that record, and none is missing before the last or if there is room for more. -/
structure FirstTags (records : List Record) (category : Tag.Category) (limit : Nat)
    (items : List SourcedTag) : Prop where
  bounded : items.length ≤ limit
  sourced : ∀ item ∈ items, ∃ r ∈ records, ⟨category, item.value⟩ ∈ r.tags ∧
    item.sourcePath = r.path ∧ item.language = r.language
  first : items <+: taggedWith records category
  complete : items.length < limit → items = taggedWith records category

/-- A context takes the first tags of a category, as many as there is room for. -/
theorem firstTags_sourcedTags (records : List Record) (category : Tag.Category) (limit : Nat) :
    FirstTags records category limit (sourcedTags records category limit) where
  bounded := List.length_take_le _ _
  sourced := fun _ hMem => mem_taggedWith.1 (List.mem_of_mem_take hMem)
  first := List.take_prefix _ _
  complete := by
    intro hRoom
    apply List.take_of_length_le
    rw [sourcedTags, List.length_take] at hRoom
    change min limit (taggedWith records category).length < limit at hRoom
    change (taggedWith records category).length ≤ limit
    omega

/-- A component is a record in short. -/
structure Component.Describes (c : Component) (r : Record) : Prop where
  path : c.path = r.path
  language : c.language = r.language
  complexity : c.complexity = r.complexity
  lines : c.lines = r.lineCount
  classes : c.classes <+: r.types
  functions : c.functions <+: r.callables
  keyPatterns : c.keyPatterns <+: r.tags

theorem Component.describes_ofRecord (r : Record) : (Component.ofRecord r).Describes r :=
  ⟨rfl, rfl, rfl, rfl, List.take_prefix _ _, List.take_prefix _ _, List.take_prefix _ _⟩

/-- When a limit leaves room for the tags of the first record, none of them is missing. -/
theorem mem_sourcedTags_cons {r : Record} {rest : List Record} {category : Tag.Category} {limit : Nat}
    {value : String} (hTag : ⟨category, value⟩ ∈ r.tags) (hFew : r.tags.length ≤ limit) :
    ⟨value, r.path, r.language⟩ ∈ sourcedTags (r :: rest) category limit := by
  rw [sourcedTags, List.flatMap_cons, List.take_append, List.take_of_length_le]
  · refine List.mem_append_left _ (List.mem_map.2 ⟨_, List.mem_filter.2 ⟨hTag, ?_⟩, rfl⟩)
    exact decide_eq_true rfl
  · rw [List.length_map]
    exact Nat.le_trans (List.length_filter_le _ _) hFew

/-- Among few records, those above the threshold are all critical. -/
theorem path_mem_criticalFiles {records : List Record} {r : Record} {s : Summary}
    {thresholds : Thresholds} (hFew : records.length ≤ maxCriticalFiles) (hMem : r ∈ records)
    (hAbove : thresholds.critical < r.complexity) (timestamp : Timestamp) :
    r.path ∈ (synthesize records s thresholds timestamp).criticalFiles := by
  have hRanked : (Record.rankedAbove records thresholds.critical).length ≤ records.length := by
    rw [Record.rankedAbove, List.length_mergeSort]
    exact List.length_filter_le _ _
  rw [synthesize, List.take_of_length_le (Nat.le_trans hRanked hFew)]
  exact List.mem_map_of_mem (Record.mem_rankedAbove.2 ⟨hMem, hAbove⟩)

/-- What a context says of the records and the summary of its survey. -/
structure Agrees (c : Context) (records : List Record) (s : Summary) : Prop where
  keyComponents_bounded : c.keyComponents.length ≤ 15
  keyComponents : ∀ k ∈ c.keyComponents, ∃ r ∈ records, k.Describes r
  criticalFiles_bounded : c.criticalFiles.length ≤ 10
  criticalFiles : ∀ path ∈ c.criticalFiles, ∃ r ∈ records, r.path = path
  endpoints : FirstTags records .endpoint 20 c.endpoints
  models : FirstTags records .persistenceModel 15 c.models
  uiComponents : FirstTags records .uiComponent 20 c.uiComponents
  languages : c.stack.languages = s.languages
  frameworks : c.stack.frameworks = s.frameworks
  dependencies : ∀ e, e ∈ c.stack.dependencies.entries ↔
    e ∈ s.dependencies.entries ∧ s.dependencies.keys.countP (· < e.1) < 20

/-- A context says nothing that the records and the summary do not. -/
theorem agrees_synthesize (records : List Record) (s : Summary) (thresholds : Thresholds)
    (timestamp : Timestamp) : (synthesize records s thresholds timestamp).Agrees records s where
  keyComponents_bounded := by
    simp only [synthesize, List.length_map]
    exact List.length_take_le _ _
  keyComponents := by
    intro k hK
    obtain ⟨r, hR, rfl⟩ := List.mem_map.1 hK
    have hRanked := List.mem_of_mem_take hR
    exact ⟨r, (Record.mem_rankedAbove.1 hRanked).1, Component.describes_ofRecord r⟩
  criticalFiles_bounded := by
    simp only [synthesize, List.length_map]
    exact List.length_take_le _ _
  criticalFiles := by
    intro path hPath
    obtain ⟨r, hR, rfl⟩ := List.mem_map.1 hPath
    have hRanked := List.mem_of_mem_take hR
    exact ⟨r, (Record.mem_rankedAbove.1 hRanked).1, rfl⟩
  endpoints := firstTags_sourcedTags _ _ _
  models := firstTags_sourcedTags _ _ _
  uiComponents := firstTags_sourcedTags _ _ _
  languages := rfl
  frameworks := rfl
  dependencies := fun _ => s.dependencies.mem_take_iff

end Context

end SourceSurvey
