import SourceSurvey.Proofs.Dictionary
import SourceSurvey.Proofs.Survey.Rules
import SourceSurvey.Regex.Standard

/-!
A catalog that has been extended. The frameworks it had stay where they are and are found wherever
they were found before; what else is found is due to the further signatures.
-/

namespace SourceSurvey

/-- More signatures can only add texts in which a framework is seen. -/
theorem Framework.occursIn_append (f : Framework) (signatures : List Regex) (content : String) :
    Framework.occursIn { f with signatures := f.signatures ++ signatures } content = true ↔
      f.occursIn content = true ∨ signatures.any (·.isMatch content.toList) = true := by
  rw [occursIn, List.any_append, Bool.or_eq_true, occursIn]

namespace Catalog

variable {catalog extended : Catalog} {content name : String} {signatures : List Regex}

abbrev names (catalog : Catalog) : List String := catalog.map (·.name)

/-- A framework is detected by name, so it does not matter which one of that name shows a sign. -/
theorem mem_detect :
    name ∈ catalog.detect content ↔ ∃ f ∈ catalog, f.name = name ∧ f.occursIn content = true := by
  simp only [detect, List.mem_map, List.mem_filter]
  exact exists_congr fun f => ⟨fun h => ⟨h.1.1, h.2, h.1.2⟩, fun h => ⟨⟨h.1, h.2.2⟩, h.2.1⟩⟩

theorem detect_sublist_names (catalog : Catalog) (content : String) :
    (catalog.detect content).Sublist catalog.names :=
  List.filter_sublist.map _

/-- Where no name comes twice, the names of what is found settle what is found. -/
theorem detect_eq_filter (hOnce : catalog.names.Nodup) (content : String) :
    catalog.detect content = catalog.names.filter (· ∈ catalog.detect content) := by
  rw [names, List.filter_map, detect]
  congr 1
  apply List.filter_congr
  intro f hF
  have hFound : f.occursIn content = true ↔ f.name ∈ catalog.detect content := by
    rw [mem_detect]
    constructor
    · exact fun h => ⟨f, hF, rfl, h⟩
    · rintro ⟨g, hG, hName, hOccurs⟩
      rwa [← List.inj_on_of_nodup_map hOnce hG hF hName]
  rw [Bool.eq_iff_iff, Function.comp_apply, decide_eq_true_eq]
  exact hFound

theorem nodup_names_builtin : (names builtin).Nodup := by decide

/-! ### One entry -/

/-- Signatures for a framework that is there add no name, and others add theirs at the end. -/
theorem names_extend (catalog : Catalog) (name : String) (signatures : List Regex) :
    (catalog.extend name signatures).names =
      if name ∈ catalog.names then catalog.names else catalog.names ++ [name] := by
  have hKnown : catalog.any (·.name = name) = true ↔ name ∈ catalog.names := by
    simp only [List.any_eq_true, decide_eq_true_eq, names, List.mem_map]
  simp only [extend, hKnown]
  split
  · simp only [names, List.map_map]
    apply List.map_congr_left
    intro f _
    simp only [Function.comp_apply]
    split <;> rfl
  · simp

/-- New signatures are detected under their name and leave all other names to the old ones. -/
theorem mem_detect_extend {found : String} :
    found ∈ (catalog.extend name signatures).detect content ↔ found ∈ catalog.detect content ∨
      found = name ∧ signatures.any (·.isMatch content.toList) = true := by
  simp only [mem_detect, extend]
  split
  · rename_i hKnown
    obtain ⟨known, hMem, hName⟩ := List.any_eq_true.1 hKnown
    simp only [decide_eq_true_eq] at hName
    constructor
    · rintro ⟨_, hF, rfl, hFound⟩
      obtain ⟨f, hOld, rfl⟩ := List.mem_map.1 hF
      by_cases hSame : f.name = name
      · rw [if_pos hSame] at hFound ⊢
        rcases (f.occursIn_append signatures content).1 hFound with hBefore | hNew
        · exact .inl ⟨f, hOld, rfl, hBefore⟩
        · exact .inr ⟨hSame, hNew⟩
      · rw [if_neg hSame] at hFound ⊢
        exact .inl ⟨f, hOld, rfl, hFound⟩
    · rintro (⟨f, hOld, rfl, hBefore⟩ | ⟨rfl, hNew⟩)
      · refine ⟨_, List.mem_map_of_mem hOld, ?_⟩
        split
        · exact ⟨rfl, (f.occursIn_append signatures content).2 (.inl hBefore)⟩
        · exact ⟨rfl, hBefore⟩
      · refine ⟨_, List.mem_map_of_mem hMem, ?_⟩
        rw [if_pos hName]
        exact ⟨hName, (known.occursIn_append signatures content).2 (.inr hNew)⟩
  · simp only [List.mem_append, List.mem_singleton]
    constructor
    · rintro ⟨f, hOld | rfl, rfl, hFound⟩
      · exact .inl ⟨f, hOld, rfl, hFound⟩
      · exact .inr ⟨rfl, hFound⟩
    · rintro (⟨f, hOld, rfl, hBefore⟩ | ⟨rfl, hNew⟩)
      · exact ⟨f, .inl hOld, rfl, hBefore⟩
      · exact ⟨_, .inr rfl, rfl, hNew⟩

/-! ### All entries -/

/-- Whether one of the signatures, read with letter case ignored, matches in the text. -/
def ShownIn (content : String) (signatures : List String) : Prop :=
  ∃ signature ∈ signatures, ∃ r, Regex.parse true signature = .ok r ∧ r.isMatch content.toList = true

theorem shownIn_iff {texts : List String} (h : texts.mapM compile = .ok signatures) :
    ShownIn content texts ↔ signatures.any (·.isMatch content.toList) = true := by
  simp only [ShownIn, List.any_eq_true, ← compile_eq_ok_iff]
  constructor
  · rintro ⟨text, hText, r, hCompile, hMatch⟩
    exact ⟨r, Except.mem_of_mapM_eq_ok h hText hCompile, hMatch⟩
  · rintro ⟨r, hR, hMatch⟩
    obtain ⟨text, hText, hCompile⟩ := Except.exists_of_mem_of_mapM_eq_ok h hR
    exact ⟨text, hText, r, hCompile, hMatch⟩

/-- What a catalog has become by further entries. -/
structure Extends (catalog extended : Catalog) (entries : List (String × List String)) : Prop where
  names_eq : extended.names = catalog.names ++ (entries.map (·.1)).filter (· ∉ catalog.names)
  mem_detect_iff : ∀ content name, name ∈ extended.detect content ↔
    name ∈ catalog.detect content ∨ ∃ entry ∈ entries, entry.1 = name ∧ ShownIn content entry.2

theorem Extends.refl (catalog : Catalog) : Extends catalog catalog [] where
  names_eq := by simp
  mem_detect_iff := by simp

/-- One entry more at the beginning, whose name no other entry has. -/
theorem Extends.cons {entry : String × List String} {entries : List (String × List String)}
    (hCompile : entry.2.mapM compile = .ok signatures) (hNew : entry.1 ∉ entries.map (·.1))
    (h : Extends (catalog.extend entry.1 signatures) extended entries) :
    Extends catalog extended (entry :: entries) where
  names_eq := by
    rw [h.names_eq, names_extend, List.map_cons, List.filter_cons]
    by_cases hKnown : entry.1 ∈ catalog.names
    · simp [hKnown]
    · have hOthers : (entries.map (·.1)).filter (· ∉ catalog.names ++ [entry.1]) =
          (entries.map (·.1)).filter (· ∉ catalog.names) := by
        apply List.filter_congr
        intro key hKey
        have hDifferent : key ≠ entry.1 := fun hSame => hNew (hSame ▸ hKey)
        simp [hDifferent]
      rw [if_neg hKnown, if_pos (decide_eq_true hKnown), hOthers, List.append_assoc,
        List.singleton_append]
  mem_detect_iff := by
    intro content name
    rw [h.mem_detect_iff, mem_detect_extend, List.exists_mem_cons_iff, shownIn_iff hCompile, or_assoc,
      eq_comm (a := name)]

/-- By induction over the settings: each entry adds its signatures, and no two add to one name. -/
theorem extends_of_foldlM {entries : List (String × List String)}
    (hOnce : (entries.map (·.1)).Nodup)
    (h : entries.foldlM (fun catalog (name, signatures) => do
      return catalog.extend name (← signatures.mapM compile)) catalog = .ok extended) :
    Extends catalog extended entries := by
  induction entries generalizing catalog with
  | nil =>
      cases h
      exact Extends.refl _
  | cons entry rest ih =>
      rw [List.map_cons, List.nodup_cons] at hOnce
      rw [List.foldlM_cons, Except.bind_eq_ok_iff] at h
      obtain ⟨next, hEntry, hRest⟩ := h
      obtain ⟨signatures, hCompile, hNext⟩ := Except.bind_eq_ok_iff.1 hEntry
      cases hNext
      exact .cons hCompile hOnce.1 (ih hOnce.2 hRest)

namespace Extends

variable {entries : List (String × List String)}

theorem nodup_names (h : Extends catalog extended entries) (hOld : catalog.names.Nodup)
    (hOnce : (entries.map (·.1)).Nodup) : extended.names.Nodup := by
  rw [h.names_eq, List.nodup_append']
  refine ⟨hOld, hOnce.filter _, fun name hKnown hAdded => ?_⟩
  exact of_decide_eq_true (List.mem_filter.1 hAdded).2 hKnown

/-- What was detected before is detected still, in the same order. -/
theorem detect_sublist (h : Extends catalog extended entries) (hOnce : extended.names.Nodup)
    (content : String) : (catalog.detect content).Sublist (extended.detect content) := by
  have hOld : catalog.names.Nodup :=
    (List.nodup_append'.1 (h.names_eq ▸ hOnce)).1
  rw [detect_eq_filter hOld, detect_eq_filter hOnce, h.names_eq, List.filter_append]
  refine List.Sublist.trans (List.monotone_filter_right _ ?_) (List.sublist_append_left _ _)
  intro name hFound
  rw [decide_eq_true_eq] at hFound ⊢
  exact (h.mem_detect_iff content name).2 (.inl hFound)

end Extends

/-- Signatures that can all be read give a catalog with the built-in frameworks in front and each
unknown name once behind, in order. It finds in a text, in the order of its names, what the built-in
one finds and the frameworks with a further signature that matches, so nothing is lost or moved, and
nothing is found that has no signature. -/
theorem withExtras_conservative (extra : Dictionary (List String))
    (h : ∀ entry ∈ extra.entries, ∀ signature ∈ entry.2, ∃ r, Regex.parse true signature = .ok r) :
    ∃ catalog, withExtras extra.entries = .ok catalog ∧
      catalog.names = names builtin ++ extra.keys.filter (· ∉ names builtin) ∧
      (extra.keys.filter (· ∉ names builtin)).Pairwise (· < ·) ∧
      catalog.names.Nodup ∧
      ∀ content,
        (catalog.detect content).Sublist catalog.names ∧
        (catalog.detect content).Nodup ∧
        (∀ name, name ∈ catalog.detect content ↔ name ∈ builtin.detect content ∨
          ∃ signatures, extra.get? name = some signatures ∧ ∃ signature ∈ signatures,
            ∃ r, Regex.parse true signature = .ok r ∧ r.isMatch content.toList = true) ∧
        (builtin.detect content).Sublist (catalog.detect content) ∧
        ∀ name, (∀ f ∈ catalog, f.name = name → f.signatures = []) →
          name ∉ catalog.detect content := by
  obtain ⟨catalog, hCatalog⟩ := exists_withExtras_eq_ok_iff.2 h
  have hExtends : Extends builtin catalog extra.entries :=
    extends_of_foldlM extra.sorted.nodup_keys hCatalog
  have hOnce : catalog.names.Nodup :=
    hExtends.nodup_names nodup_names_builtin extra.sorted.nodup_keys
  have hSorted : extra.keys.Pairwise (· < ·) := List.pairwise_map.2 extra.sorted
  refine ⟨catalog, hCatalog, hExtends.names_eq, hSorted.filter _, hOnce, fun content =>
    ⟨detect_sublist_names catalog content, hOnce.sublist (detect_sublist_names catalog content), ?_,
      hExtends.detect_sublist hOnce content, ?_⟩⟩
  · intro name
    have hEntry : (∃ entry ∈ extra.entries, entry.1 = name ∧ ShownIn content entry.2) ↔
        ∃ signatures, extra.get? name = some signatures ∧ ShownIn content signatures := by
      simp only [← Dictionary.mem_entries_iff, Prod.exists]
      constructor
      · rintro ⟨_, signatures, hMem, rfl, hShown⟩
        exact ⟨signatures, hMem, hShown⟩
      · rintro ⟨signatures, hMem, hShown⟩
        exact ⟨name, signatures, hMem, rfl, hShown⟩
    rw [hExtends.mem_detect_iff, hEntry]
    rfl
  · intro name hNone hFound
    obtain ⟨f, hF, hName, hOccurs⟩ := mem_detect.1 hFound
    rw [Framework.occursIn, hNone f hF hName] at hOccurs
    cases hOccurs

/-- Signatures of the empty text for a framework that is not built in and for one that is, and a
framework without signatures. -/
def emptyTextSignatures : Dictionary (List String) :=
  ⟨[("Hono", ["^$"]), ("Plain", []), ("Svelte", ["^$"])], by decide⟩

theorem withExtras_conservative_emptyText :
    (∀ entry ∈ emptyTextSignatures.entries, ∀ signature ∈ entry.2,
      ∃ r, Regex.parse true signature = .ok r) ∧
    ∃ catalog, withExtras emptyTextSignatures.entries = .ok catalog ∧
      catalog.names = names builtin ++ ["Hono", "Plain"] ∧
      catalog.detect "" = ["Svelte", "Hono"] := by
  have hParse : (Regex.parse true "^$").toOption.isSome = true := by decide +kernel
  have hRead : ∀ entry ∈ emptyTextSignatures.entries, ∀ signature ∈ entry.2,
      ∃ r, Regex.parse true signature = .ok r := by
    intro entry hEntry signature hSignature
    have hSame : signature = "^$" := by
      simp only [emptyTextSignatures, List.mem_cons, List.not_mem_nil, or_false] at hEntry
      rcases hEntry with rfl | rfl | rfl
      · exact List.mem_singleton.1 hSignature
      · cases hSignature
      · exact List.mem_singleton.1 hSignature
    cases hResult : Regex.parse true "^$" with
    | ok r => exact ⟨r, hSame ▸ hResult⟩
    | error => simp [hResult, Except.toOption] at hParse
  obtain ⟨catalog, hCatalog, hNames, _⟩ := withExtras_conservative emptyTextSignatures hRead
  have hFound : (withExtras emptyTextSignatures.entries).toOption.map (·.detect "") =
      some ["Svelte", "Hono"] := by
    decide +kernel
  rw [hCatalog] at hFound
  exact ⟨hRead, catalog, hCatalog, hNames.trans (by decide), Option.some.inj hFound⟩

end Catalog

end SourceSurvey
