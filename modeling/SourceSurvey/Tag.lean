import SourceSurvey.Language
import SourceSurvey.Regex.Parser
import SourceSurvey.Tally
import SourceSurvey.Text.Quoted

/-!
Tags mark constructs of the domain in a file. Rules are registered in order, and tagging gives the
captured values of their matches in the order of registration.
-/

namespace SourceSurvey

namespace Tag

inductive Category where
  /-- Routes of a web service. -/
  | endpoint
  /-- Models, entities and tables. -/
  | persistenceModel
  /-- Components of a user interface. -/
  | uiComponent
deriving Repr, DecidableEq

namespace Category

def all : List Category := [endpoint, persistenceModel, uiComponent]

def name : Category → String
  | endpoint => "endpoint"
  | persistenceModel => "persistence-model"
  | uiComponent => "ui-component"

def ofName? (name : String) : Option Category := all.find? (·.name = name)

end Category

/-- The files that a rule is for. -/
inductive Scope where
  | allLanguages
  | scripts
deriving Repr, DecidableEq

def Scope.appliesTo : Scope → Language → Bool
  | allLanguages, _ => true
  | scripts, language => language.isScript

end Tag

structure Tag where
  category : Tag.Category
  value : String
deriving Repr, DecidableEq

def Tag.display (t : Tag) : String := t.category.name ++ ": " ++ t.value

namespace Tag

/-- Rules of one category, registered together. -/
structure RuleSet where
  category : Category
  scope : Scope
  rules : List Regex

abbrev Registry := List RuleSet

/-- A rule that is no expression. -/
structure RuleError where
  pattern : String
  cause : Regex.SyntaxError
deriving Repr, DecidableEq

def RuleError.message (e : RuleError) : String :=
  "compiling tag rule " ++ Text.quoted e.pattern ++ ": " ++ e.cause.headline

def compile [Regex.Engine] (ignoreCase : Bool) (pattern : String) : Except RuleError Regex :=
  (Regex.parse ignoreCase pattern).mapError fun cause => ⟨pattern, cause⟩

/-- What is asked of a registry: rules of a category, for some files, with letter case or without. -/
structure Registration where
  category : Category
  scope : Scope
  patterns : List String
  ignoreCase : Bool

namespace Registry

/-- Register rules after all others. If one of them is no expression, none is registered. The result
is the registry afterwards, and whether that was the case. -/
def register [Regex.Engine] (registry : Registry) (r : Registration) :
    Registry × Except RuleError Unit :=
  match r.patterns.mapM (compile r.ignoreCase) with
  | .error e => (registry, .error e)
  | .ok rules => (registry ++ [⟨r.category, r.scope, rules⟩], .ok ())

/-- A new registry after some registrations, those that have failed among them. -/
def ofHistory [Regex.Engine] (history : List Registration) : Registry :=
  history.foldl (fun registry r => (registry.register r).1) []

def ruleCount (registry : Registry) : Nat := total (registry.map (·.rules.length))

def maxTags : Nat := 10

/-- Keep one more tag. What is thrown are the tags of a file that has enough of them. -/
def keep (tags : List Tag) (t : Tag) : Except (List Tag) (List Tag) :=
  let tags := tags ++ [t]
  if tags.length = maxTags then .error tags else .ok tags

/-- Keep what the first group captured in the matches of a rule, where it took part. -/
def tagRule [Regex.Engine] (category : Category) (text : List Char) (tags : List Tag) (rule : Regex) :
    Except (List Tag) (List Tag) :=
  (rule.allMatches text).foldlM (fun tags m =>
    match m.group? 1 text with
    | some value => keep tags ⟨category, String.ofList value⟩
    | none => .ok tags) tags

def tagSet [Regex.Engine] (text : List Char) (language : Language) (tags : List Tag) (set : RuleSet) :
    Except (List Tag) (List Tag) :=
  if set.scope.appliesTo language then set.rules.foldlM (tagRule set.category text) tags
  else .ok tags

/-- The first tags of a file, in order of registration. -/
def tag [Regex.Engine] (registry : Registry) (content : String) (language : Language) : List Tag :=
  match registry.foldlM (tagSet content.toList language) [] with
  | .ok tags => tags
  | .error tags => tags

end Registry

end Tag

end SourceSurvey
