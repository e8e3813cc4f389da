import SourceSurvey.Extraction
import SourceSurvey.Proofs.Python.Name
import SourceSurvey.Proofs.Regex.Capture
import SourceSurvey.Proofs.Script.Name

/-!
The types and callables that are found in a file have names on one line, whichever way they are
found.
-/

namespace SourceSurvey

open Text (OneLine)

/-- All names of types and callables are on one line. -/
structure Facts.NamesOneLine (f : Facts) : Prop where
  types : ∀ name ∈ f.types, OneLine name
  callables : ∀ name ∈ f.callables, OneLine name

/-- The names that an idiom captures are words, so none has a line break. -/
theorem Idiom.namesOneLine_facts (content : String) : (Idiom.facts content).NamesOneLine := by
  have hWords : ∀ idiom ∈ types :: callables, idiom.mayCapture '\n' = false := by decide +kernel
  have hNames : ∀ {idiom name}, idiom ∈ types :: callables →
      name ∈ (idiom.firstGroups content.toList).map String.ofList → OneLine name := by
    intro idiom name hIdiom hName
    obtain ⟨value, hValue, rfl⟩ := List.mem_map.1 hName
    intro hBreak
    rw [String.toList_ofList] at hBreak
    have hCapture := Regex.mayCapture_of_mem_firstGroups hValue hBreak
    rw [hWords idiom hIdiom] at hCapture
    cases hCapture
  constructor
  · exact fun name hName => hNames List.mem_cons_self hName
  · intro name hName
    obtain ⟨value, hValue, rfl⟩ := List.mem_map.1 hName
    obtain ⟨idiom, hIdiom, hValue⟩ := List.mem_flatMap.1 hValue
    exact hNames (List.mem_cons_of_mem _ hIdiom) (List.mem_map_of_mem hValue)

theorem Analyzer.namesOneLine_facts (a : Analyzer) (content : String) :
    (a.facts content).NamesOneLine := by
  rw [facts]
  generalize hTree : a.parse content = t
  cases hFault : t.hasFault with
  | true => constructor <;> exact fun _ hName => nomatch hName
  | false =>
      cases a with
      | python =>
          rw [parse] at hTree
          have hFits := Python.fits_of_parse hTree hFault
          obtain ⟨hTypes, hCallables⟩ := Python.oneLine_facts hFits.legible.namesOneLine
          exact ⟨hTypes, hCallables⟩
      | script dialect =>
          rw [parse] at hTree
          have hFits := Script.fits_of_parse hTree hFault
          obtain ⟨hTypes, hCallables⟩ := Script.oneLine_facts dialect hFits.legible.namesOneLine
          exact ⟨hTypes, hCallables⟩

/-- Fewer names are on one line too. -/
theorem Facts.NamesOneLine.truncated {f : Facts} (h : f.NamesOneLine) :
    f.truncated.NamesOneLine where
  types := fun name hName => h.types name (List.mem_of_mem_take hName)
  callables := fun name hName => h.callables name (List.mem_of_mem_take hName)

/-- Whichever way the facts of a file have been found, all names among them are on one line. -/
theorem Extraction.namesOneLine_facts (path : String) (language : Language) (content : String) :
    (Extraction.facts path language content).NamesOneLine := by
  rw [facts]
  split
  · split
    · exact (Analyzer.namesOneLine_facts _ content).truncated
    · exact (Idiom.namesOneLine_facts content).truncated
  · constructor <;> exact fun _ hName => nomatch hName

end SourceSurvey
