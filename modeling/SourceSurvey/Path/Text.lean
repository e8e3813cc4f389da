import SourceSurvey.Text.Utf8

/-!
What names and paths are written in. A program writes its paths as texts, but a file system takes
any bytes for a name, so whatever is done with paths is done for both.
-/

namespace SourceSurvey

/-- What stands before, between and after the separators in a text. -/
def Path.split (separator : Char) (text : String) : List String :=
  (text.toList.splitOn separator).map String.ofList

/-- Texts of some kind that can be names and paths. -/
class PathText (τ : Type) where
  ofText : String → τ
  /-- The name or path as a text, if it is one. -/
  text? : τ → Option String
  /-- The name or path as a text, with replacements for all that is none. -/
  shown : τ → String
  bytes : τ → List UInt8
  append : τ → τ → τ
  startsWith : τ → String → Bool
  endsWith : τ → String → Bool
  /-- What stands before, between and after the separators, which are of one byte. -/
  split : Char → τ → List τ
  intercalate : String → List τ → τ

instance : PathText String where
  ofText := id
  text? := some
  shown := id
  bytes text := text.toList.flatMap String.utf8EncodeChar
  append := (· ++ ·)
  startsWith text start := text.startsWith start
  endsWith text last := text.endsWith last
  split := Path.split
  intercalate := String.intercalate

/-- A name or path as a file system has it. -/
structure RawText where
  bytes : List UInt8
deriving Repr, DecidableEq

namespace RawText

/-- Names are in the order of their bytes. -/
instance : LT RawText := ⟨fun a b => a.bytes < b.bytes⟩

instance : DecidableLT RawText := fun a b => inferInstanceAs (Decidable (a.bytes < b.bytes))

instance : PathText RawText where
  ofText text := ⟨Text.toBytes text⟩
  text? name := Text.ofBytes? name.bytes
  shown name := Text.ofBytes name.bytes
  bytes := bytes
  append a b := ⟨a.bytes ++ b.bytes⟩
  startsWith name start := (Text.toBytes start).isPrefixOf name.bytes
  endsWith name last := (Text.toBytes last).isSuffixOf name.bytes
  split separator name := (name.bytes.splitOn (UInt8.ofNat separator.toNat)).map mk
  intercalate separator names := ⟨(Text.toBytes separator).intercalate (names.map bytes)⟩

end RawText

end SourceSurvey
