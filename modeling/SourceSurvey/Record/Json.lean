import SourceSurvey.Json.Decode
import SourceSurvey.Json.Encode
import SourceSurvey.Record

/-!
Records and their parts in JSON form.
-/

namespace SourceSurvey

open Json (Decoder Origin RecordDecoder)

def Timestamp.toJson (t : Timestamp) : Json := .str t.text

def Timestamp.decoder : Decoder Timestamp
  | .str s => (Timestamp.parse s).mapError fun e => .refused e.message
  | j => Json.mismatch "an RFC 3339 formatted date and time string" j

def Language.toJson (l : Language) : Json := .str l.name

def Language.decoder (origin : Origin) : Decoder Language :=
  Decoder.variant origin (Language.all.map (·.name)) Language.ofName?

def Status.toJson (s : Status) : Json := .str s.name

def Status.decoder (origin : Origin) : Decoder Status :=
  Decoder.variant origin (Status.all.map (·.name)) Status.ofName?

def Tag.Category.decoder (origin : Origin) : Decoder Tag.Category :=
  Decoder.variant origin (Tag.Category.all.map (·.name)) Tag.Category.ofName?

namespace Tag

def toJson (t : Tag) : Json := .obj [("category", .str t.category.name), ("value", .str t.value)]

def decoder (origin : Origin) : Decoder Tag :=
  RecordDecoder.decode
    (Tag.mk <$> .field "category" (Category.decoder origin) <*> .field "value" Decoder.string)
    origin "PatternTag"

end Tag

def Json.ofTags (tags : List Tag) : Json := .arr (tags.map Tag.toJson)

namespace Record

def toJson (r : Record) : Json :=
  .obj [("path", .str r.path), ("size_bytes", .ofNat r.size), ("line_count", .ofNat r.lineCount),
    ("file_type", .str r.fileType), ("declared_language", r.language.toJson),
    ("imports", .ofStrings r.imports), ("type_declarations", .ofStrings r.types),
    ("callable_declarations", .ofStrings r.callables), ("exports", .ofStrings r.exports),
    ("pattern_tags", .ofTags r.tags), ("complexity_score", .ofNat r.complexity),
    ("extraction", r.status.toJson), ("modified_at", (r.modified.map Timestamp.toJson).getD .null)]

def decoder (origin : Origin) : Decoder Record :=
  let strings := Decoder.list Decoder.string
  RecordDecoder.decode
    (Record.mk <$> .field "path" Decoder.string <*> .field "size_bytes" Decoder.size
      <*> .field "line_count" Decoder.count <*> .field "file_type" Decoder.string
      <*> .field "declared_language" (Language.decoder origin)
      <*> .field "imports" strings <*> .field "type_declarations" strings
      <*> .field "callable_declarations" strings <*> .field "exports" strings
      <*> .field "pattern_tags" (Decoder.list (Tag.decoder origin))
      <*> .field "complexity_score" Decoder.byte <*> .field "extraction" (Status.decoder origin)
      <*> .optionalField "modified_at" Timestamp.decoder) origin "FileRecord"

end Record

end SourceSurvey
