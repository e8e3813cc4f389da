import SourceSurvey.Proofs.Complexity
import SourceSurvey.Survey.Rules

/-!
What a record has from the bytes of its file. Its lines are those of the bytes, whatever they are,
and valid bytes are judged as the text that has them.
-/

namespace SourceSurvey.Rules

/-- A record and the frameworks of its file are what the rules find in this text. -/
structure Judged (rules : Rules) (content : String) (r : Record) (frameworks : List String) :
    Prop where
  imports : r.imports = (Extraction.facts r.path r.language content).imports
  types : r.types = (Extraction.facts r.path r.language content).types
  callables : r.callables = (Extraction.facts r.path r.language content).callables
  exports : r.exports = (Extraction.facts r.path r.language content).exports
  status : r.status = (Extraction.facts r.path r.language content).status
  tags : r.tags = rules.registry.tag content r.language
  complexity : r.complexity = Complexity.score content
  lineCount : r.lineCount = Complexity.lineCount content
  frameworks : frameworks = rules.catalog.detect content

/-- A file is judged by its text, which is made of its bytes once. -/
theorem judged_ofBytes (rules : Rules) (path : String) (bytes : List UInt8)
    (modified : Timestamp) : rules.Judged (Text.ofBytes bytes) (rules.record path bytes modified)
      (rules.frameworks bytes) :=
  ⟨rfl, rfl, rfl, rfl, rfl, rfl, rfl, rfl, rfl⟩

/-- A file that is not empty has one line more than line feeds, be its bytes valid or not: the text
that is judged has these line feeds and no others, and between them what is read of the bytes there.
Of valid bytes it is the text that they encode. -/
theorem record_lines (rules : Rules) (path : String) (bytes : List UInt8) (modified : Timestamp) :
    (rules.record path bytes modified).lineCount =
        (if bytes = [] then 0 else bytes.count 0x0A + 1) ∧
      (rules.record path bytes modified).lineCount ≤ bytes.length + 1 ∧
      ∃ content, rules.Judged content (rules.record path bytes modified)
          (rules.frameworks bytes) ∧
        content.toList.count '\n' = bytes.count 0x0A ∧
        content.toList.splitOn '\n' =
          (bytes.splitOn 0x0A).map (fun line => (Text.ofBytes line).toList) ∧
        ∀ h : bytes.toByteArray.IsValidUTF8, content = String.fromUTF8 bytes.toByteArray h := by
  have hLines : (rules.record path bytes modified).lineCount =
      if bytes = [] then 0 else bytes.count 0x0A + 1 := Complexity.lineCount_ofBytes bytes
  refine ⟨hLines, ?_, Text.ofBytes bytes, judged_ofBytes rules path bytes modified,
    Text.count_ofBytes bytes, Text.splitOn_ofBytes bytes, Text.ofBytes_of_isValidUTF8⟩
  rw [hLines]
  split
  · exact Nat.zero_le _
  · exact Nat.succ_le_succ List.count_le_length

/-- Rules that skip no file and look for no tags and frameworks. -/
def bare : Rules := ⟨⟨[], [], []⟩, [], [], true⟩

/-- Characters of two and three bytes with a line feed between them. -/
def accented : List UInt8 := [0xC3, 0xA9, 0x0A, 0xE2, 0x82, 0xAC]

theorem record_lines_accented : (bare.record "notes.txt" accented .epoch).lineCount = 2 ∧
    bare.Judged "\u00e9\n\u20ac" (bare.record "notes.txt" accented .epoch)
      (bare.frameworks accented) := by
  have hValid : accented.toByteArray.IsValidUTF8 := ⟨['\u00e9', '\n', '\u20ac'], by decide⟩
  have hText : String.fromUTF8 accented.toByteArray hValid = "\u00e9\n\u20ac" := by
    have hBytes : accented.toByteArray = "\u00e9\n\u20ac".toByteArray := by decide
    exact String.toByteArray_inj.1 hBytes
  obtain ⟨hLines, _, content, hJudged, _, _, hContent⟩ :=
    record_lines bare "notes.txt" accented .epoch
  rw [hContent hValid, hText] at hJudged
  exact ⟨hLines, hJudged⟩

/-- A character that is cut off before the line feed, and a byte that continues none behind it. -/
example : (bare.record "notes.txt" [0xE2, 0x82, 0x0A, 0x80] .epoch).lineCount = 2 := by
  decide +kernel

end SourceSurvey.Rules
