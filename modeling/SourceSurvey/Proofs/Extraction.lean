import SourceSurvey.Extraction
import SourceSurvey.Proofs.Path

/-!
How the facts about a file are found follows from its language: the table of languages and the table
of grammars, each with its own way of reading an extension, agree on every path.
-/

namespace SourceSurvey

namespace Language

/-- The languages that there is a grammar for. -/
def HasGrammar (l : Language) : Prop :=
  l = python ∨ l = javascript ∨ l = typescript ∨ l = react

instance (l : Language) : Decidable l.HasGrammar := inferInstanceAs (Decidable (_ ∨ _))

theorem extension?_no_dot {path ext : String} (h : Path.extension? path = some ext) :
    '.' ∉ ext.toList := by
  obtain ⟨fileName, _, hSplit⟩ := Option.bind_eq_some_iff.1 h
  exact (Path.eq_of_splitExtension (Prod.ext rfl hSplit)).2

/-- The extension of a path has no dots before it that might be left out. -/
theorem ofPath_eq_lookup (path : String) :
    ofPath path = (extensions.lookup (extensionOf path)).getD text := by
  cases hExt : Path.extension? path with
  | none =>
      simp only [ofPath_def, extensionOf_def, hExt, Option.map_none, Option.getD_none]
      decide
  | some ext =>
      have hDots : ext.toList.dropWhile (· = '.') = ext.toList := by
        cases hChars : ext.toList with
        | nil => rfl
        | cons c cs =>
            have hC : c ≠ '.' := by
              intro hDot
              apply extension?_no_dot hExt
              rw [hChars, hDot]
              exact List.mem_cons_self
            simp [hC]
      simp only [ofPath_def, extensionOf_def, hExt, Option.map_some, Option.getD_some, ofExtension, hDots,
        String.ofList_toList]

/-- A known language has a grammar exactly if there is one for the extension. -/
theorem forExtension?_isSome_iff {path : String} (hKnown : (ofPath path).isKnown = true) :
    (Analyzer.forExtension? (extensionOf path)).isSome = true ↔ (ofPath path).HasGrammar := by
  have hTable : ∀ entry ∈ extensions,
      (Analyzer.forExtension? entry.1).isSome = true ↔ entry.2.HasGrammar := by
    decide
  rw [ofPath_eq_lookup] at hKnown ⊢
  cases hLookup : extensions.lookup (extensionOf path) with
  | none =>
      rw [hLookup] at hKnown
      cases hKnown
  | some l =>
      obtain ⟨before, behind, hEntries, _⟩ := List.lookup_eq_some_iff.1 hLookup
      exact hTable (extensionOf path, l) (by rw [hEntries]; simp)

end Language

namespace Extraction

/-- All facts about a file, before the first of each kind are taken. -/
def allFacts (path : String) (language : Language) (content : String) : Facts :=
  if language.isKnown then
    match Analyzer.forExtension? (Language.extensionOf path) with
    | some analyzer => analyzer.facts content
    | none => Idiom.facts content
  else .unsupported

/-- Facts are found first and limited then. -/
theorem facts_eq_truncated (path : String) (language : Language) (content : String) :
    facts path language content = (allFacts path language content).truncated := by
  simp only [facts, allFacts]
  split
  · cases Analyzer.forExtension? (Language.extensionOf path) <;> rfl
  · rfl

end Extraction

/-- No facts of any kind. -/
structure Facts.Bare (f : Facts) : Prop where
  imports : f.imports = []
  types : f.types = []
  callables : f.callables = []
  exports : f.exports = []

/-- A text is parsed, or it has a fault and no facts. -/
theorem Analyzer.facts_cases (a : Analyzer) (content : String) :
    (a.facts content).status = .parsed ∨
      (a.facts content).status = .parseFailed ∧ (a.facts content).Bare := by
  simp only [facts]
  split
  · exact .inr ⟨rfl, rfl, rfl, rfl, rfl⟩
  · cases a <;> exact .inl rfl

namespace Extraction

/-- What the language of a path says of the facts: nothing is looked for in files of no known
language, those with a grammar are parsed, and the others are searched for idioms. -/
structure Found (language : Language) (f : Facts) : Prop where
  parsed_iff : f.status = .parsed ∨ f.status = .parseFailed ↔ language.HasGrammar
  unsupported_iff : f.status = .unsupported ↔ language = .text
  heuristic_iff : f.status = .heuristic ↔ ¬language.HasGrammar ∧ language ≠ .text
  bare : f.status = .parseFailed ∨ f.status = .unsupported → f.Bare

/-- How facts have been found is told by the language: from a tree where it has a grammar, by idioms
where it has none, and not at all in a text. -/
theorem found_allFacts (path content : String) :
    Found (Language.ofPath path) (allFacts path (Language.ofPath path) content) := by
  by_cases hKnown : (Language.ofPath path).isKnown = true
  · have hText : Language.ofPath path ≠ .text := by simpa [Language.isKnown] using hKnown
    have hGrammar := Language.forExtension?_isSome_iff hKnown
    rw [allFacts, if_pos hKnown]
    cases hAnalyzer : Analyzer.forExtension? (Language.extensionOf path) with
    | some analyzer =>
        have hHas := hGrammar.1 (by rw [hAnalyzer]; rfl)
        rcases analyzer.facts_cases content with hParsed | ⟨hFailed, hBare⟩
        · constructor <;> simp [hParsed, hHas, hText]
        · constructor <;> simp [hFailed, hHas, hText, hBare]
    | none =>
        have hHasNot : ¬(Language.ofPath path).HasGrammar := by
          rw [← hGrammar, hAnalyzer]
          decide
        have hHeuristic : (Idiom.facts content).status = .heuristic := rfl
        constructor <;> simp [hHeuristic, hHasNot, hText]
  · have hText : Language.ofPath path = .text := by simpa [Language.isKnown] using hKnown
    rw [allFacts, if_neg hKnown, hText]
    have hStatus : Facts.unsupported.status = .unsupported := rfl
    have hHasNot : ¬Language.text.HasGrammar := by decide
    constructor
    · simp [hStatus, hHasNot]
    · simp [hStatus]
    · simp [hStatus]
    · exact fun _ => ⟨rfl, rfl, rfl, rfl⟩

end Extraction

end SourceSurvey
