import SourceSurvey.Json.Decode
import SourceSurvey.Json.Encode
import SourceSurvey.Summary

namespace SourceSurvey.Summary

open Json (Decoder Origin RecordDecoder)

def toJson (s : Summary) : Json :=
  .obj [("name", .str s.name), ("root_path", .str s.rootPath), ("file_count", .ofNat s.fileCount),
    ("total_lines", .ofNat s.totalLines), ("language_histogram", .ofDictionary .ofNat s.languages),
    ("detected_frameworks", .ofNames s.frameworks),
    ("dependency_manifest", .ofDictionary .str s.dependencies),
    ("entry_points", .ofStrings s.entryPoints), ("config_paths", .ofStrings s.configPaths),
    ("doc_paths", .ofStrings s.docPaths)]

def decoder (origin : Origin) : Decoder Summary :=
  let strings := Decoder.list Decoder.string
  RecordDecoder.decode
    (Summary.mk <$> .field "name" Decoder.string <*> .field "root_path" Decoder.string
      <*> .field "file_count" Decoder.count <*> .field "total_lines" Decoder.count
      <*> .field "language_histogram" (Decoder.dictionary Decoder.count)
      <*> .field "detected_frameworks" Decoder.nameSet
      <*> .field "dependency_manifest" (Decoder.dictionary Decoder.string)
      <*> .field "entry_points" strings <*> .field "config_paths" strings
      <*> .field "doc_paths" strings) origin "ProjectSummary"

end SourceSurvey.Summary
