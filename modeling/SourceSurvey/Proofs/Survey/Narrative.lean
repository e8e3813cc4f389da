import SourceSurvey.Proofs.Extraction.Name
import SourceSurvey.Proofs.Framework
import SourceSurvey.Proofs.Report.Heading
import SourceSurvey.Proofs.Summary
import SourceSurvey.Proofs.Survey.Outputs
import SourceSurvey.Proofs.Survey.Rules
import SourceSurvey.Proofs.Tag

/-!
The narrative of a survey has the headings of the reports. What is taken over from a project is not
escaped, so that a line break in it can put a line of its own into the narrative; names of models,
components, types and callables have no line breaks.
-/

namespace SourceSurvey

open Text (OneLine StartsMarked Opens OpensBelow)

namespace Survey

/-- The texts that a survey takes over with whatever line breaks are in them. -/
inductive TakesOver (config : Config) (survey : Survey) : String → Prop where
  | name : TakesOver config survey survey.summary.name
  | path {r : Record} (hR : r ∈ survey.records) : TakesOver config survey r.path
  | stem {r : Record} {stem : String} (hR : r ∈ survey.records)
      (hStem : Path.stem? r.path = some stem) : TakesOver config survey stem
  | dependency {key : String} (hKey : key ∈ survey.summary.dependencies.keys) :
      TakesOver config survey key
  /-- The path of a route. -/
  | endpoint {r : Record} {t : Tag} (hR : r ∈ survey.records) (hT : t ∈ r.tags)
      (hCategory : t.category = .endpoint) : TakesOver config survey t.value
  /-- What a rule of the settings captures. -/
  | captured {r : Record} {t : Tag} {pattern : String} {rule : Regex} {content : List Char}
      (hR : r ∈ survey.records) (hT : t ∈ r.tags)
      (hPattern : pattern ∈ config.extraRules.ofCategory t.category)
      (hRule : Regex.parse false pattern = .ok rule)
      (hValue : t.value.toList ∈ rule.firstGroups content) : TakesOver config survey t.value

variable {disk : Disk} {root : String} {config : Config} {timestamp : Timestamp} {survey : Survey}
  {line : String}

/-- If nothing that is taken over opens a line, nothing else does. -/
theorem plain_of_run (h : run disk root config timestamp = .ok survey)
    (hTaken : ∀ text, survey.TakesOver config text → ¬OpensBelow line text)
    (hFrameworks : ∀ name ∈ config.extraFrameworks.keys, ¬Opens line name) :
    Report.Plain line survey.records survey.summary := by
  obtain ⟨place, rules, hPlace, hRules, rfl⟩ := run_eq_ok_iff.1 h
  obtain ⟨_, hRegistry, hCatalog, _⟩ := Rules.ofConfig_eq_ok_iff.1 hRules
  have hBuiltin : ∀ name ∈ Catalog.builtin.map (·.name), Text.isLabel name.toList = true := by
    decide +kernel
  have hCandidates : ∀ path ∈ Probe.entryPointCandidates, '\n' ∉ path.toList := by
    decide +kernel
  have hFacts : ∀ r ∈ (ofPlace disk place rules config.thresholds timestamp).records,
      (∀ name ∈ r.types, OneLine name) ∧ ∀ name ∈ r.callables, OneLine name := by
    intro r hR
    obtain ⟨found, _, rfl⟩ := List.mem_map.1 hR
    have hNames := Extraction.namesOneLine_facts (relativePath found)
      (Language.ofPath (relativePath found)) (Text.ofBytes found.bytes)
    exact ⟨hNames.types, hNames.callables⟩
  exact {
    name := hTaken _ .name
    languages := by
      intro key hKey
      obtain ⟨n, hCount⟩ := (Dictionary.mem_keys_iff _).1 hKey
      obtain ⟨l, _, rfl, _⟩ := Summary.get?_histogram_eq_some_iff.1 hCount
      exact (Language.oneLine_name l).not_opensBelow
    frameworks := by
      intro name hName
      obtain ⟨found, _, hDetected⟩ := List.mem_flatMap.1 (NameSet.mem_keys_ofNames.1 hName)
      obtain ⟨f, hF, rfl⟩ := List.mem_map.1 hDetected
      rcases Catalog.name_of_mem_withExtras hCatalog f (List.mem_of_mem_filter hF) with
        hOwn | hExtra
      · rw [← String.ofList_toList (s := f.name)]
        exact Text.not_opens_of_isLabel (hBuiltin _ hOwn)
      · exact hFrameworks _ hExtra
    dependencies := fun key hKey => hTaken key (.dependency hKey)
    entryPoints := by
      intro path hPath
      exact OneLine.not_opensBelow (hCandidates path (List.mem_filter.1 hPath).1)
    paths := fun r hR => hTaken _ (.path hR)
    stems := fun r hR stem hStem => hTaken _ (.stem hR hStem)
    tags := by
      intro r hR t hT
      by_cases hCategory : t.category = .endpoint
      · exact hTaken _ (.endpoint hR hT hCategory)
      · obtain ⟨found, _, hSame⟩ := List.mem_map.1 hR
        have hTag : t ∈ rules.registry.tag (Text.ofBytes found.bytes)
            (Language.ofPath (relativePath found)) := by
          rw [← hSame] at hT
          exact hT
        rcases Tag.Registry.oneLine_or_captured hRegistry hTag hCategory with
          hOneLine | ⟨pattern, hPattern, rule, hRule, hValue⟩
        · exact hOneLine.not_opensBelow
        · exact hTaken _ (.captured hR hT hPattern hRule hValue)
    types := fun r hR name hName => ((hFacts r hR).1 name hName).not_opensBelow
    callables := fun r hR name hName => ((hFacts r hR).2 name hName).not_opensBelow }

/-- A line of the narrative that begins with a number sign is a heading, unless it begins with such
a line of a text that is taken over: the first line of that text only if it names a framework in
the settings, since all others follow a label. -/
theorem narrative_headings (h : run disk root config timestamp = .ok survey) :
    ∀ line ∈ Path.split '\n' (Report.narrative survey.context), StartsMarked line →
      line ∈ Report.headings ∨ line = Report.title survey.summary.name ∨
        (∃ text, survey.TakesOver config text ∧ OpensBelow line text) ∨
        ∃ name ∈ config.extraFrameworks.keys, Opens line name := by
  intro line hLine hMarked
  by_contra hNone
  simp only [not_or, not_exists, not_and] at hNone
  obtain ⟨hHeading, hTitle, hTaken, hFrameworks⟩ := hNone
  have hPlain := plain_of_run h hTaken hFrameworks
  obtain ⟨place, rules, _, _, rfl⟩ := run_eq_ok_iff.1 h
  rcases Report.headed_narrative (Report.plainContext_synthesize hPlain _ _) hLine hMarked with
    hIs | hIs
  · exact hHeading hIs
  · exact hTitle hIs

/-! ### A route with a line break -/

/-- The rules of settings that add none. -/
def plainRules : Rules where
  filter := plainFilter
  registry := Tag.Category.all.map fun category =>
    ⟨category, Tag.scopeOf category, Tag.builtinRules category⟩
  catalog := Catalog.builtin
  includeTextFiles := false

/-- A program whose only route has a line break before a number sign. -/
def brokenRoute : Disk.Entry :=
  .file ("@app.route(\"/a\n# Forged\")".toList.map fun c => c.toNat.toUInt8) .epoch

def diskOfBrokenRoute : Disk where
  entries := [("repo", .directory [("a.go", brokenRoute)])]
  wellFormed := by
    simp only [brokenRoute, Disk.Entry.WellFormed, Disk.AllWellFormed]
    decide +kernel

theorem run_brokenRoute : run diskOfBrokenRoute "/repo" {} .epoch =
    .ok (ofPlace diskOfBrokenRoute ["repo"] plainRules {} .epoch) :=
  run_of_rules (by decide +kernel) rfl

theorem mem_split_narrative_brokenRoute : "# Forged` (in a.go)" ∈ Path.split '\n'
    (Report.narrative (ofPlace diskOfBrokenRoute ["repo"] plainRules {} .epoch).context) := by
  have hFirst : (ofPlace diskOfBrokenRoute ["repo"] plainRules {} .epoch).context.endpoints.head? =
      some ⟨"/a\n# Forged", "a.go", .go⟩ := by
    -- the first tag does not wait for the others
    simp only [ofPlace_def, Context.synthesize, Rules.record, Tag.Registry.tag_eq]
    decide +kernel
  obtain ⟨rest, hEndpoints⟩ := List.head?_eq_some_iff.1 hFirst
  refine Report.mem_split_narrative_of_endpoint (t := ⟨"/a\n# Forged", "a.go", .go⟩) ?_ ?_
  · rw [hEndpoints]
    exact List.mem_cons_self
  · decide +kernel

/-- What follows the line break is a line of the narrative and no heading of it. -/
theorem brokenRoute_line : ∃ survey, run diskOfBrokenRoute "/repo" {} .epoch = .ok survey ∧
    ∃ line ∈ Path.split '\n' (Report.narrative survey.context), StartsMarked line ∧
      line ∉ Report.headings ∧ line ≠ "# Project Analysis: " ++ survey.summary.name :=
  ⟨_, run_brokenRoute, _, mem_split_narrative_brokenRoute, by rw [StartsMarked]; decide +kernel,
    by decide +kernel, by decide +kernel⟩

/-- The line begins with the second line of the route. -/
theorem brokenRoute_opens_line : ∃ survey, run diskOfBrokenRoute "/repo" {} .epoch = .ok survey ∧
    ∃ text, survey.TakesOver {} text ∧ OpensBelow "# Forged` (in a.go)" text := by
  have hMarked : StartsMarked "# Forged` (in a.go)" := by
    rw [StartsMarked]
    decide +kernel
  refine ⟨_, run_brokenRoute, ?_⟩
  rcases narrative_headings run_brokenRoute _ mem_split_narrative_brokenRoute hMarked with
    hHeading | hTitle | hText | ⟨name, hName, _⟩
  · exact absurd hHeading (by decide +kernel)
  · exact absurd hTitle (by decide +kernel)
  · exact hText
  · cases hName

end Survey

end SourceSurvey
