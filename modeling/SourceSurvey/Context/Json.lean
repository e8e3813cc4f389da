import SourceSurvey.Context
import SourceSurvey.Record.Json

namespace SourceSurvey

open Json (Decoder Origin RecordDecoder)

namespace Context

namespace TechnicalStack

def toJson (s : TechnicalStack) : Json :=
  .obj [("languages", .ofDictionary .ofNat s.languages), ("frameworks", .ofNames s.frameworks),
    ("dependencies", .ofDictionary .str s.dependencies)]

def decoder (origin : Origin) : Decoder TechnicalStack :=
  RecordDecoder.decode
    (TechnicalStack.mk <$> .field "languages" (Decoder.dictionary Decoder.count)
      <*> .field "frameworks" Decoder.nameSet
      <*> .field "dependencies" (Decoder.dictionary Decoder.string)) origin "TechnicalStack"

end TechnicalStack

namespace Component

def toJson (c : Component) : Json :=
  .obj [("name", .str c.name), ("path", .str c.path), ("language", c.language.toJson),
    ("complexity", .ofNat c.complexity), ("lines", .ofNat c.lines),
    ("classes", .ofStrings c.classes), ("functions", .ofStrings c.functions),
    ("key_patterns", .ofTags c.keyPatterns)]

def decoder (origin : Origin) : Decoder Component :=
  let strings := Decoder.list Decoder.string
  RecordDecoder.decode
    (Component.mk <$> .field "name" Decoder.string <*> .field "path" Decoder.string
      <*> .field "language" (Language.decoder origin) <*> .field "complexity" Decoder.byte
      <*> .field "lines" Decoder.count <*> .field "classes" strings
      <*> .field "functions" strings
      <*> .field "key_patterns" (Decoder.list (Tag.decoder origin))) origin "ComponentDigest"

end Component

namespace SourcedTag

def toJson (t : SourcedTag) : Json :=
  .obj [("value", .str t.value), ("source_path", .str t.sourcePath),
    ("language", t.language.toJson)]

def decoder (origin : Origin) : Decoder SourcedTag :=
  RecordDecoder.decode
    (SourcedTag.mk <$> .field "value" Decoder.string <*> .field "source_path" Decoder.string
      <*> .field "language" (Language.decoder origin)) origin "SourcedTag"

end SourcedTag

namespace Progress

def toJson (p : Progress) : Json :=
  .obj [("structure_analyzed", .bool p.structureAnalyzed),
    ("dependencies_extracted", .bool p.dependenciesExtracted),
    ("patterns_identified", .bool p.patternsIdentified),
    ("components_mapped", .bool p.componentsMapped)]

def decoder (origin : Origin) : Decoder Progress :=
  RecordDecoder.decode
    (Progress.mk <$> .field "structure_analyzed" Decoder.bool
      <*> .field "dependencies_extracted" Decoder.bool
      <*> .field "patterns_identified" Decoder.bool
      <*> .field "components_mapped" Decoder.bool) origin "ProgressMarkers"

end Progress

def toJson (c : Context) : Json :=
  .obj [("project_overview", .str c.overview), ("technical_stack", c.stack.toJson),
    ("architecture_patterns", .ofStrings c.architecture),
    ("key_components", .arr (c.keyComponents.map Component.toJson)),
    ("endpoints", .arr (c.endpoints.map SourcedTag.toJson)),
    ("models", .arr (c.models.map SourcedTag.toJson)),
    ("ui_components", .arr (c.uiComponents.map SourcedTag.toJson)),
    ("external_services", .ofStrings c.externalServices),
    ("critical_files", .ofStrings c.criticalFiles), ("entry_points", .ofStrings c.entryPoints),
    ("analysis_timestamp", c.timestamp.toJson), ("progress_markers", c.progress.toJson)]

def decoder (origin : Origin) : Decoder Context :=
  let strings := Decoder.list Decoder.string
  let tags := Decoder.list (SourcedTag.decoder origin)
  RecordDecoder.decode
    (Context.mk <$> .field "project_overview" Decoder.string
      <*> .field "technical_stack" (TechnicalStack.decoder origin)
      <*> .field "architecture_patterns" strings
      <*> .field "key_components" (Decoder.list (Component.decoder origin))
      <*> .field "endpoints" tags <*> .field "models" tags <*> .field "ui_components" tags
      <*> .field "external_services" strings <*> .field "critical_files" strings
      <*> .field "entry_points" strings <*> .field "analysis_timestamp" Timestamp.decoder
      <*> .field "progress_markers" (Progress.decoder origin)) origin "ResumableContext"

end Context

end SourceSurvey
