import SourceSurvey.Config
import SourceSurvey.Json.Decode
import SourceSurvey.Json.Encode

/-!
Settings in JSON form. All of them may be left out.
-/

namespace SourceSurvey

open Json (Decoder Origin RecordDecoder)

namespace Thresholds

def toJson (t : Thresholds) : Json :=
  .obj [("key_component", .ofNat t.keyComponent), ("critical", .ofNat t.critical),
    ("overview", .ofNat t.overview)]

def decoder (origin : Origin) : Decoder Thresholds :=
  let default : Thresholds := {}
  RecordDecoder.decode
    (Thresholds.mk <$> .fieldOr "key_component" Decoder.byte default.keyComponent
      <*> .fieldOr "critical" Decoder.byte default.critical
      <*> .fieldOr "overview" Decoder.byte default.overview) origin "Thresholds"

end Thresholds

namespace Tag.ExtraRules

def toJson (r : ExtraRules) : Json :=
  .obj [("endpoint", .ofStrings r.endpoint), ("persistence_model", .ofStrings r.persistenceModel),
    ("ui_component", .ofStrings r.uiComponent)]

def decoder (origin : Origin) : Decoder ExtraRules :=
  let rules := Decoder.list Decoder.string
  RecordDecoder.decode
    (ExtraRules.mk <$> .fieldOr "endpoint" rules [] <*> .fieldOr "persistence_model" rules []
      <*> .fieldOr "ui_component" rules []) origin "ExtraPatterns"

end Tag.ExtraRules

namespace Config

def toJson (c : Config) : Json :=
  .obj [("ignore_names", .ofStrings c.ignoreNames), ("excluded_paths", .ofStrings c.excludedPaths),
    ("include_text_files", .bool c.includeTextFiles), ("thresholds", c.thresholds.toJson),
    ("extra_patterns", c.extraRules.toJson),
    ("extra_frameworks", .ofDictionary .ofStrings c.extraFrameworks)]

def decoder (origin : Origin) : Decoder Config :=
  let strings := Decoder.list Decoder.string
  RecordDecoder.decode
    (Config.mk <$> .fieldOr "ignore_names" strings [] <*> .fieldOr "excluded_paths" strings []
      <*> .fieldOr "include_text_files" Decoder.bool false
      <*> .fieldOr "thresholds" (Thresholds.decoder origin) {}
      <*> .fieldOr "extra_patterns" (Tag.ExtraRules.decoder origin) {}
      <*> .fieldOr "extra_frameworks" (Decoder.dictionary strings) ∅) origin "AnalyzerConfig"

end Config

end SourceSurvey
