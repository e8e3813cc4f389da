import SourceSurvey.Config.Json
import SourceSurvey.Context.Json
import SourceSurvey.Proofs.Json.Fields
import SourceSurvey.Proofs.Timestamp
import SourceSurvey.Record.Json
import SourceSurvey.Summary.Json

/-!
Whatever a survey stores can be taken up again.
-/

namespace SourceSurvey

open Json (Faithful FieldForm Origin RecordForm)

/-- A number that a byte holds. -/
abbrev IsByte (n : Nat) : Prop := n < Nat.pow 2 8

/-- A number that a word holds. -/
abbrev IsWord (n : Nat) : Prop := n < Nat.pow 2 64

theorem Json.Faithful.byte : Faithful Json.ofNat Json.Decoder.byte IsByte :=
  .natural (by decide) "u8"

theorem Json.Faithful.count : Faithful Json.ofNat Json.Decoder.count IsWord :=
  .natural (Nat.le_refl _) "usize"

theorem Json.Faithful.size : Faithful Json.ofNat Json.Decoder.size IsWord :=
  .natural (Nat.le_refl _) "u64"

/-- A moment is written as one text, so what is read is what this text can carry. -/
theorem Timestamp.faithful :
    Faithful Timestamp.toJson Timestamp.decoder Timestamp.IsProper where
  readable := fun _ => trivial
  read_write := by
    intro t hProper
    simp only [toJson, decoder, parse_text_of_isProper hProper]
    rfl
  fits := by
    intro j t hRead
    cases j with
    | str s =>
      cases hParse : parse s with
      | ok u =>
        simp only [decoder, hParse, Except.mapError, Except.ok.injEq] at hRead
        exact hRead ▸ isProper_of_parse hParse
      | error e => simp [decoder, hParse, Except.mapError] at hRead
    | _ => exact absurd hRead Json.not_mismatch_eq_ok

/-- A moment is written as the one that its text carries. -/
theorem Timestamp.toJson_carried (t : Timestamp) : t.carried.toJson = t.toJson :=
  congrArg Json.str t.text_carried

theorem Timestamp.toJson_ne_null (t : Timestamp) : t.toJson ≠ .null := by
  intro h
  cases h

theorem Language.faithful (origin : Origin) :
    Faithful Language.toJson (Language.decoder origin) fun _ => True :=
  .variant origin _ fun l => by cases l <;> decide

theorem Status.faithful (origin : Origin) :
    Faithful Status.toJson (Status.decoder origin) fun _ => True :=
  .variant origin _ fun s => by cases s <;> decide

theorem Tag.Category.faithful (origin : Origin) :
    Faithful (fun c : Tag.Category => .str c.name) (Tag.Category.decoder origin) fun _ => True :=
  .variant origin _ fun c => by cases c <;> decide

theorem Tag.faithful (origin : Origin) :
    Faithful Tag.toJson (Tag.decoder origin) fun _ => True :=
  have form := RecordForm.start (fun _ => True) Tag.mk
    |>.seq Tag.category (.field "category" (Tag.Category.faithful origin)) (fun _ => trivial)
    |>.seq Tag.value (.field "value" .string) (fun _ => trivial)
  form.faithful (fun _ => rfl) (by decide) (by simp) origin "PatternTag"

theorem Tag.list_faithful (origin : Origin) :
    Faithful Json.ofTags (Json.Decoder.list (Tag.decoder origin)) fun _ => True :=
  (Tag.faithful origin).list.congr fun _ => by simp

namespace Record

/-- The sizes in the record are as large as a file may have them. -/
structure Storable (r : Record) : Prop where
  size : IsWord r.size
  lineCount : IsWord r.lineCount
  complexity : IsByte r.complexity

/-- The time of the last change has a written form of its own. -/
def IsProper (r : Record) : Prop := ∀ t ∈ r.modified, t.IsProper

/-- What has been stored of a record. -/
def carried (r : Record) : Record := { r with modified := r.modified.map Timestamp.carried }

theorem toJson_carried (r : Record) : r.carried.toJson = r.toJson := by
  cases hModified : r.modified with
  | none => simp [toJson, carried, hModified]
  | some t => simp [toJson, carried, hModified, Timestamp.toJson_carried]

/-- What a text carries survives a second time. -/
theorem isProper_carried (r : Record) : r.carried.IsProper := by
  intro t ht
  obtain ⟨u, -, rfl⟩ := Option.map_eq_some_iff.1 ht
  exact u.isProper_carried

/-- A record is restored as it was just if its moment can be. -/
theorem carried_eq_self_iff {r : Record} : r.carried = r ↔ r.IsProper := by
  constructor
  · intro h
    rw [← h]
    exact isProper_carried r
  · intro h
    have hModified : r.modified.map Timestamp.carried = r.modified := by
      cases hSome : r.modified with
      | none => rfl
      | some t => exact congrArg some (Timestamp.carried_of_isProper (h t hSome))
    rw [carried, hModified]

theorem faithful (origin : Origin) :
    Faithful Record.toJson (Record.decoder origin) fun r => r.Storable ∧ r.IsProper :=
  have form := RecordForm.start (fun r : Record => r.Storable ∧ r.IsProper) Record.mk
    |>.seq Record.path (.field "path" .string) (fun _ => trivial)
    |>.seq Record.size (.field "size_bytes" .size) (fun h => h.1.size)
    |>.seq Record.lineCount (.field "line_count" .count) (fun h => h.1.lineCount)
    |>.seq Record.fileType (.field "file_type" .string) (fun _ => trivial)
    |>.seq Record.language (.field "declared_language" (Language.faithful origin))
      (fun _ => trivial)
    |>.seq Record.imports (.field "imports" .strings) (fun _ => trivial)
    |>.seq Record.types (.field "type_declarations" .strings) (fun _ => trivial)
    |>.seq Record.callables (.field "callable_declarations" .strings) (fun _ => trivial)
    |>.seq Record.exports (.field "exports" .strings) (fun _ => trivial)
    |>.seq Record.tags (.field "pattern_tags" (Tag.list_faithful origin)) (fun _ => trivial)
    |>.seq Record.complexity (.field "complexity_score" .byte) (fun h => h.1.complexity)
    |>.seq Record.status (.field "extraction" (Status.faithful origin)) (fun _ => trivial)
    |>.seq Record.modified
      (.optionalField "modified_at" Timestamp.faithful Timestamp.toJson_ne_null)
      (fun h => h.2)
  form.faithful (fun _ => rfl) (by decide)
    (by
      dsimp only
      intros
      refine ⟨?_, ?_⟩
      · constructor <;> assumption
      · assumption)
    origin "FileRecord"

end Record

namespace Summary

structure Storable (s : Summary) : Prop where
  fileCount : IsWord s.fileCount
  totalLines : IsWord s.totalLines
  languages : ∀ e ∈ s.languages.entries, IsWord e.2

theorem faithful (origin : Origin) :
    Faithful Summary.toJson (Summary.decoder origin) Storable :=
  have form := RecordForm.start Storable Summary.mk
    |>.seq Summary.name (.field "name" .string) (fun _ => trivial)
    |>.seq Summary.rootPath (.field "root_path" .string) (fun _ => trivial)
    |>.seq Summary.fileCount (.field "file_count" .count) Storable.fileCount
    |>.seq Summary.totalLines (.field "total_lines" .count) Storable.totalLines
    |>.seq Summary.languages (.field "language_histogram" Faithful.count.dictionary)
      Storable.languages
    |>.seq Summary.frameworks (.field "detected_frameworks" .names) (fun _ => trivial)
    |>.seq Summary.dependencies (.field "dependency_manifest" Faithful.string.dictionary)
      (fun _ _ _ => trivial)
    |>.seq Summary.entryPoints (.field "entry_points" .strings) (fun _ => trivial)
    |>.seq Summary.configPaths (.field "config_paths" .strings) (fun _ => trivial)
    |>.seq Summary.docPaths (.field "doc_paths" .strings) (fun _ => trivial)
  form.faithful (fun _ => rfl) (by decide)
    (by
      dsimp only
      intros
      constructor <;> assumption)
    origin "ProjectSummary"

end Summary

namespace Context

namespace TechnicalStack

structure Storable (s : TechnicalStack) : Prop where
  languages : ∀ e ∈ s.languages.entries, IsWord e.2

theorem faithful (origin : Origin) :
    Faithful TechnicalStack.toJson (TechnicalStack.decoder origin) Storable :=
  have form := RecordForm.start Storable TechnicalStack.mk
    |>.seq TechnicalStack.languages (.field "languages" Faithful.count.dictionary)
      Storable.languages
    |>.seq TechnicalStack.frameworks (.field "frameworks" .names) (fun _ => trivial)
    |>.seq TechnicalStack.dependencies (.field "dependencies" Faithful.string.dictionary)
      (fun _ _ _ => trivial)
  form.faithful (fun _ => rfl) (by decide)
    (by
      dsimp only
      intros
      constructor
      assumption)
    origin "TechnicalStack"

end TechnicalStack

namespace Component

structure Storable (c : Component) : Prop where
  complexity : IsByte c.complexity
  lines : IsWord c.lines

theorem faithful (origin : Origin) :
    Faithful Component.toJson (Component.decoder origin) Storable :=
  have form := RecordForm.start Storable Component.mk
    |>.seq Component.name (.field "name" .string) (fun _ => trivial)
    |>.seq Component.path (.field "path" .string) (fun _ => trivial)
    |>.seq Component.language (.field "language" (Language.faithful origin)) (fun _ => trivial)
    |>.seq Component.complexity (.field "complexity" .byte) Storable.complexity
    |>.seq Component.lines (.field "lines" .count) Storable.lines
    |>.seq Component.classes (.field "classes" .strings) (fun _ => trivial)
    |>.seq Component.functions (.field "functions" .strings) (fun _ => trivial)
    |>.seq Component.keyPatterns (.field "key_patterns" (Tag.list_faithful origin))
      (fun _ => trivial)
  form.faithful (fun _ => rfl) (by decide)
    (by
      dsimp only
      intros
      constructor <;> assumption)
    origin "ComponentDigest"

end Component

theorem SourcedTag.faithful (origin : Origin) :
    Faithful SourcedTag.toJson (SourcedTag.decoder origin) fun _ => True :=
  have form := RecordForm.start (fun _ => True) SourcedTag.mk
    |>.seq SourcedTag.value (.field "value" .string) (fun _ => trivial)
    |>.seq SourcedTag.sourcePath (.field "source_path" .string) (fun _ => trivial)
    |>.seq SourcedTag.language (.field "language" (Language.faithful origin)) (fun _ => trivial)
  form.faithful (fun _ => rfl) (by decide) (by simp) origin "SourcedTag"

theorem Progress.faithful (origin : Origin) :
    Faithful Progress.toJson (Progress.decoder origin) fun _ => True :=
  have form := RecordForm.start (fun _ => True) Progress.mk
    |>.seq Progress.structureAnalyzed (.field "structure_analyzed" .bool) (fun _ => trivial)
    |>.seq Progress.dependenciesExtracted (.field "dependencies_extracted" .bool)
      (fun _ => trivial)
    |>.seq Progress.patternsIdentified (.field "patterns_identified" .bool) (fun _ => trivial)
    |>.seq Progress.componentsMapped (.field "components_mapped" .bool) (fun _ => trivial)
  form.faithful (fun _ => rfl) (by decide) (by simp) origin "ProgressMarkers"

structure Storable (c : Context) : Prop where
  stack : c.stack.Storable
  keyComponents : ∀ k ∈ c.keyComponents, k.Storable

/-- What has been stored of a context. -/
def carried (c : Context) : Context := { c with timestamp := c.timestamp.carried }

theorem toJson_carried (c : Context) : c.carried.toJson = c.toJson := by
  simp [toJson, carried, Timestamp.toJson_carried]

theorem carried_eq_self_iff {c : Context} : c.carried = c ↔ c.timestamp.IsProper := by
  constructor
  · intro h
    rw [← h]
    exact c.timestamp.isProper_carried
  · intro h
    rw [carried, Timestamp.carried_of_isProper h]

theorem faithful (origin : Origin) :
    Faithful Context.toJson (Context.decoder origin)
      fun c => c.Storable ∧ c.timestamp.IsProper :=
  have tags := (SourcedTag.faithful origin).list
  have form := RecordForm.start (fun c : Context => c.Storable ∧ c.timestamp.IsProper) Context.mk
    |>.seq Context.overview (.field "project_overview" .string) (fun _ => trivial)
    |>.seq Context.stack (.field "technical_stack" (TechnicalStack.faithful origin))
      (fun h => h.1.stack)
    |>.seq Context.architecture (.field "architecture_patterns" .strings) (fun _ => trivial)
    |>.seq Context.keyComponents (.field "key_components" (Component.faithful origin).list)
      (fun h => h.1.keyComponents)
    |>.seq Context.endpoints (.field "endpoints" tags) (fun _ _ _ => trivial)
    |>.seq Context.models (.field "models" tags) (fun _ _ _ => trivial)
    |>.seq Context.uiComponents (.field "ui_components" tags) (fun _ _ _ => trivial)
    |>.seq Context.externalServices (.field "external_services" .strings) (fun _ => trivial)
    |>.seq Context.criticalFiles (.field "critical_files" .strings) (fun _ => trivial)
    |>.seq Context.entryPoints (.field "entry_points" .strings) (fun _ => trivial)
    |>.seq Context.timestamp (.field "analysis_timestamp" Timestamp.faithful) (fun h => h.2)
    |>.seq Context.progress (.field "progress_markers" (Progress.faithful origin))
      (fun _ => trivial)
  form.faithful (fun _ => rfl) (by decide)
    (by
      dsimp only
      intros
      refine ⟨?_, ?_⟩
      · constructor <;> assumption
      · assumption)
    origin "ResumableContext"

end Context

namespace Thresholds

structure Storable (t : Thresholds) : Prop where
  keyComponent : IsByte t.keyComponent
  critical : IsByte t.critical
  overview : IsByte t.overview

/-- The default thresholds are among those that can be stored. -/
theorem storable_default : Storable {} := by
  constructor <;> decide

theorem faithful (origin : Origin) :
    Faithful Thresholds.toJson (Thresholds.decoder origin) Storable :=
  have form := RecordForm.start Storable Thresholds.mk
    |>.seq Thresholds.keyComponent (.fieldOr "key_component" .byte storable_default.keyComponent)
      Storable.keyComponent
    |>.seq Thresholds.critical (.fieldOr "critical" .byte storable_default.critical)
      Storable.critical
    |>.seq Thresholds.overview (.fieldOr "overview" .byte storable_default.overview)
      Storable.overview
  form.faithful (fun _ => rfl) (by decide)
    (by
      dsimp only
      intros
      constructor <;> assumption)
    origin "Thresholds"

end Thresholds

theorem Tag.ExtraRules.faithful (origin : Origin) :
    Faithful Tag.ExtraRules.toJson (Tag.ExtraRules.decoder origin) fun _ => True :=
  have form := RecordForm.start (fun _ => True) Tag.ExtraRules.mk
    |>.seq Tag.ExtraRules.endpoint (.fieldOr "endpoint" .strings trivial) (fun _ => trivial)
    |>.seq Tag.ExtraRules.persistenceModel (.fieldOr "persistence_model" .strings trivial)
      (fun _ => trivial)
    |>.seq Tag.ExtraRules.uiComponent (.fieldOr "ui_component" .strings trivial)
      (fun _ => trivial)
  form.faithful (fun _ => rfl) (by decide) (by simp) origin "ExtraPatterns"

namespace Config

structure Storable (c : Config) : Prop where
  thresholds : c.thresholds.Storable

theorem faithful (origin : Origin) : Faithful Config.toJson (Config.decoder origin) Storable :=
  have form := RecordForm.start Storable Config.mk
    |>.seq Config.ignoreNames (.fieldOr "ignore_names" .strings trivial) (fun _ => trivial)
    |>.seq Config.excludedPaths (.fieldOr "excluded_paths" .strings trivial) (fun _ => trivial)
    |>.seq Config.includeTextFiles (.fieldOr "include_text_files" .bool trivial)
      (fun _ => trivial)
    |>.seq Config.thresholds
      (.fieldOr "thresholds" (Thresholds.faithful origin) Thresholds.storable_default)
      Storable.thresholds
    |>.seq Config.extraRules (.fieldOr "extra_patterns" (Tag.ExtraRules.faithful origin) trivial)
      (fun _ => trivial)
    |>.seq Config.extraFrameworks
      (.fieldOr "extra_frameworks" Faithful.strings.dictionary fun _ _ => trivial)
      (fun _ _ _ => trivial)
  form.faithful (fun _ => rfl) (by decide)
    (by
      dsimp only
      intros
      constructor
      assumption)
    origin "AnalyzerConfig"

end Config

section Restoring

variable {α : Type}

/-- What a text stands for, written again. -/
def Json.rewritten (decoder : Origin → Json.Decoder α) (print : α → String) (text : List Char) :
    Except Json.DecodeError String := do
  return print (← Json.decodeText decoder (Json.read text))

/-- Values are read back from both of their written forms, as `stored` gives them, and whatever text
a value has been read from, writing it gives a text that does not change when it is read and written
once more. -/
structure Restores (write : α → Json) (decoder : Origin → Json.Decoder α) (stored : α → α)
    (Storable : α → Prop) : Prop where
  compact : ∀ {a}, Storable a →
    Json.decodeText decoder (Json.read (write a).compact.toList) = .ok (stored a)
  pretty : ∀ {a}, Storable a →
    Json.decodeText decoder (Json.read (write a).pretty.toList) = .ok (stored a)
  compact_fixed : ∀ {text out}, Json.rewritten decoder (fun a => (write a).compact) text = .ok out →
    Json.rewritten decoder (fun a => (write a).compact) out.toList = .ok out
  pretty_fixed : ∀ {text out}, Json.rewritten decoder (fun a => (write a).pretty) text = .ok out →
    Json.rewritten decoder (fun a => (write a).pretty) out.toList = .ok out

/-- A text that has been read and printed is not changed by reading and printing it again. -/
theorem Json.rewritten_fixed {decoder : Origin → Json.Decoder α} {print : α → String}
    {Fits : α → Prop}
    (hPrint : ∀ {a}, Fits a → Json.decodeText decoder (Json.read (print a).toList) = .ok a)
    (hFits : ∀ {text a}, Json.decodeText decoder (Json.read text) = .ok a → Fits a)
    {text : List Char} {out : String} (h : Json.rewritten decoder print text = .ok out) :
    Json.rewritten decoder print out.toList = .ok out := by
  obtain ⟨a, hRead, hOut⟩ := Except.bind_eq_ok_iff.1 h
  cases hOut
  exact Except.bind_eq_ok_iff.2 ⟨a, hPrint (hFits hRead), rfl⟩

/-- A value that is written as another one that can be read back is restored as that one. -/
theorem Json.Faithful.restores {write : α → Json} {decoder : Origin → Json.Decoder α}
    {Fits Storable : α → Prop} {stored : α → α} (h : Faithful write (decoder .text) Fits)
    (hWrite : ∀ a, write (stored a) = write a) (hFits : ∀ {a}, Storable a → Fits (stored a)) :
    Restores write decoder stored Storable where
  compact := by
    intro a ha
    rw [← hWrite]
    exact Json.decodeText_compact h (hFits ha)
  pretty := by
    intro a ha
    rw [← hWrite]
    exact Json.decodeText_pretty h (hFits ha)
  compact_fixed := Json.rewritten_fixed (Json.decodeText_compact h) (Json.fits_of_decodeText h)
  pretty_fixed := Json.rewritten_fixed (Json.decodeText_pretty h) (Json.fits_of_decodeText h)

end Restoring

/-- Records are restored one by one, each with the moment that its text carries. -/
theorem Record.list_restores :
    Restores (fun records : List Record => .arr (records.map Record.toJson))
      (fun origin => .list (Record.decoder origin)) (List.map Record.carried)
      (fun records => ∀ r ∈ records, r.Storable) := by
  refine (Record.faithful .text).list.restores ?_ ?_
  · intro records
    simp [Record.toJson_carried]
  · intro records h r hr
    obtain ⟨s, hs, rfl⟩ := List.mem_map.1 hr
    have hStorable : s.carried.Storable := ⟨(h s hs).size, (h s hs).lineCount, (h s hs).complexity⟩
    exact ⟨hStorable, s.isProper_carried⟩

/-- A context is restored with the moment that its text carries. -/
theorem Context.restores :
    Restores Context.toJson Context.decoder Context.carried Context.Storable :=
  (Context.faithful .text).restores Context.toJson_carried fun h =>
    ⟨⟨h.stack, h.keyComponents⟩, Timestamp.isProper_carried _⟩

/-- A record with quotes, backslashes and control characters in its texts, last changed in a leap
second of a year before the first. -/
def trickyRecord : Record where
  path := "a \"b\"\\c\x00\n\x1f\u2028.ts"
  size := Nat.pow 2 64 - 1
  lineCount := 0
  fileType := ".ts"
  language := .typescript
  imports := ["\\u0041", ""]
  types := []
  callables := ["\t\x08\x0c\r"]
  exports := []
  tags := [⟨.uiComponent, "\x7f\u0080"⟩]
  complexity := 255
  status := .parseFailed
  modified := some ⟨-1, 12, 31, 23, 59, 59, 1000120000, by decide⟩

/-- A fraction of one second and a half, at a second that has no leap second after it. -/
def lateRecord : Record :=
  { trickyRecord with modified := some ⟨2024, 5, 1, 12, 0, 30, 1500000000, by decide⟩ }

/-- A record is read back with another time than it was written with, half a second into the
second after. -/
theorem lateRecord_not_restored :
    let records := [lateRecord]
    let decoder (origin : Origin) := Json.Decoder.list (Record.decoder origin)
    let written := Json.arr (records.map Record.toJson)
    Json.decodeText decoder (Json.read written.compact.toList) ≠ .ok records ∧
      Json.decodeText decoder (Json.read written.compact.toList) =
        .ok [{ lateRecord with
          modified := some ⟨2024, 5, 1, 12, 0, 31, 500000000, by decide⟩ }] := by
  have hStorable : ∀ r ∈ [lateRecord], r.Storable :=
    List.forall_mem_singleton.2 ⟨by decide, by decide, by decide⟩
  have hRead := Record.list_restores.compact hStorable
  refine ⟨fun hSame => ?_, hRead⟩
  have hEq : lateRecord.carried = lateRecord :=
    List.cons.inj (Except.ok.inj (hRead.symm.trans hSame)) |>.1
  exact absurd (Record.carried_eq_self_iff.1 hEq _ rfl) (by decide)

/-- All that a survey leaves behind or starts from can be restored: the list of its records, the
summary, the context and the settings. Nothing but a time is changed by it, and a time only if its
fraction reaches into another second that is no leap second. -/
theorem stored_values_restored :
    Restores (fun records : List Record => .arr (records.map Record.toJson))
        (fun origin => .list (Record.decoder origin)) (List.map Record.carried)
        (fun records => ∀ r ∈ records, r.Storable) ∧
      Restores Summary.toJson Summary.decoder id Summary.Storable ∧
      Restores Context.toJson Context.decoder Context.carried Context.Storable ∧
      Restores Config.toJson Config.decoder id Config.Storable ∧
      (∀ records : List Record, records.map Record.carried = records ↔
        ∀ r ∈ records, ∀ t ∈ r.modified, t.IsProper) ∧
      (∀ c : Context, c.carried = c ↔ c.timestamp.IsProper) := by
  refine ⟨Record.list_restores, (Summary.faithful .text).restores (fun _ => rfl) id,
    Context.restores, (Config.faithful .text).restores (fun _ => rfl) id, ?_,
    fun _ => Context.carried_eq_self_iff⟩
  intro records
  have hSame : records.map Record.carried = records.map id ↔ ∀ r ∈ records, r.carried = id r :=
    List.map_inj_left
  rw [List.map_id] at hSame
  exact hSame.trans (forall₂_congr fun _ _ => Record.carried_eq_self_iff)

theorem trickyRecord_restored :
    (∀ r ∈ [trickyRecord, { trickyRecord with modified := none }], r.Storable) ∧
      Json.decodeText (fun origin => .list (Record.decoder origin))
        (Json.read (Json.arr ([trickyRecord, { trickyRecord with modified := none }].map
          Record.toJson)).pretty.toList) =
        .ok [trickyRecord, { trickyRecord with modified := none }] := by
  have hStorable : ∀ r ∈ [trickyRecord, { trickyRecord with modified := none }], r.Storable := by
    simp only [List.forall_mem_cons, List.not_mem_nil, false_implies, implies_true, and_true]
    exact ⟨⟨by decide, by decide, by decide⟩, ⟨by decide, by decide, by decide⟩⟩
  exact ⟨hStorable, stored_values_restored.1.pretty hStorable⟩

end SourceSurvey
