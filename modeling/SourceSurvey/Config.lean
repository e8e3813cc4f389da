import SourceSurvey.Dictionary
import SourceSurvey.Glob.Parser
import SourceSurvey.Regex.Parser
import SourceSurvey.Tag.Builtin
import SourceSurvey.Text.Quoted

/-!
The settings of a survey: what is left out, where the bounds of rankings lie, and rules and
signatures beyond the built-in ones.
-/

namespace SourceSurvey

/-- The scores that files must exceed to be ranked. -/
structure Thresholds where
  keyComponent : Nat := 25
  critical : Nat := 40
  overview : Nat := 30
deriving Repr, DecidableEq

structure Config where
  /-- Names that are left out besides the default ones. -/
  ignoreNames : List String := []
  /-- Patterns for paths that are left out. -/
  excludedPaths : List String := []
  /-- Whether files without a known language get a record. -/
  includeTextFiles : Bool := false
  thresholds : Thresholds := {}
  extraRules : Tag.ExtraRules := {}
  /-- Signatures by the name of their framework. -/
  extraFrameworks : Dictionary (List String) := ∅
deriving DecidableEq

namespace Config

/-- What may be wrong with settings. -/
inductive Fault where
  | rule (pattern : String) (cause : Regex.SyntaxError)
  | ruleWithoutGroup (pattern : String)
  | signature (text framework : String) (cause : Regex.SyntaxError)
  | excludedPath (pattern : String) (cause : Glob.SyntaxError)
  | threshold
deriving Repr, DecidableEq

def Fault.message : Fault → String
  | rule pattern cause => "invalid extra pattern " ++ Text.quoted pattern ++ ": " ++ cause.headline
  | ruleWithoutGroup pattern =>
    "extra pattern " ++ Text.quoted pattern ++ " needs a capture group"
  | signature text framework cause =>
    "invalid signature " ++ Text.quoted text ++ " for framework " ++ framework ++ ": " ++
      cause.headline
  | excludedPath pattern cause =>
    "invalid excluded_paths pattern " ++ Text.quoted pattern ++ ": " ++ cause.message
  | threshold => "thresholds must be within 0..=100"

/-- A rule must be an expression with a group, since it tags what the group captures. -/
def checkRule [Regex.Engine] (pattern : String) : Except Fault Unit := do
  let regex ← (Regex.parse false pattern).mapError (.rule pattern)
  if regex.groupCount = 0 then throw (.ruleWithoutGroup pattern)

def checkSignature [Regex.Engine] (framework signature : String) : Except Fault Unit := do
  let _ ← (Regex.parse false signature).mapError (.signature signature framework)

def checkExcludedPath (pattern : String) : Except Fault Unit := do
  let _ ← (Glob.parse pattern).mapError (.excludedPath pattern)

def maxThreshold : Nat := 100

def checkThresholds (t : Thresholds) : Except Fault Unit :=
  if t.keyComponent ≤ maxThreshold ∧ t.critical ≤ maxThreshold ∧ t.overview ≤ maxThreshold then
    .ok ()
  else .error .threshold

/-- The first fault: in the rules by category, the signatures by framework, the patterns for paths
or the thresholds. -/
def validate [Regex.Engine] (c : Config) : Except Fault Unit := do
  (Tag.Category.all.flatMap c.extraRules.ofCategory).forM checkRule
  c.extraFrameworks.entries.forM fun (framework, signatures) =>
    signatures.forM (checkSignature framework)
  c.excludedPaths.forM checkExcludedPath
  checkThresholds c.thresholds

end Config

end SourceSurvey
