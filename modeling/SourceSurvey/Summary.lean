import SourceSurvey.Manifest
import SourceSurvey.Probe
import SourceSurvey.Record
import SourceSurvey.Tally

namespace SourceSurvey

/-- What is known about a project as a whole. -/
structure Summary where
  name : String
  rootPath : String
  fileCount : Nat
  totalLines : Nat
  /-- How many records each language has. -/
  languages : Dictionary Nat
  frameworks : NameSet
  dependencies : Dictionary String
  entryPoints : List String
  configPaths : List String
  docPaths : List String
deriving DecidableEq

namespace Summary

def histogram (languages : List Language) : Dictionary Nat :=
  languages.foldl (fun d l => d.insert l.name ((d.get? l.name).getD 0 + 1)) ∅

/-- Sum up records and what the files around them show. `walked` are the paths of all files, in
order. -/
def aggregate {τ : Type} [DecidableEq τ] [LT τ] [PathText τ] (disk : Disk τ) (root : τ)
    (filter : Filter) (walked : List String) (records : List Record) (frameworks : List String) :
    Summary where
  name := PathText.shown ((Path.fileName? root).getD root)
  rootPath := PathText.shown root
  fileCount := records.length
  totalLines := total (records.map (·.lineCount))
  languages := histogram (records.map (·.language))
  frameworks := .ofNames frameworks
  dependencies := Manifest.collect disk root
  entryPoints := Probe.entryPoints disk root filter
  configPaths := Probe.configPaths walked
  docPaths := Probe.docPaths walked

end Summary

end SourceSurvey
