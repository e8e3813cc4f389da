import SourceSurvey.Regex.Basic

/-!
Expressions put together from words, blanks and quoted texts, as the built-in rules need them.
-/

namespace SourceSurvey.Regex

/-- The text itself. -/
def text (s : String) : Regex := literal s.toList

def sequence (parts : List Regex) : Regex := parts.foldr seq empty

/-- One of the expressions, the earlier ones preferred. -/
def choice : List Regex → Regex
  | [] => empty
  | [r] => r
  | r :: rest => alt r (choice rest)

def oneOf (chars : String) : CharSet := .oneOf chars.toList

def noneOf (chars : String) : CharSet := .compl (oneOf chars)

def blank : CharSet := .blank

def word : CharSet := .word

/-- Anything but the end of the line. -/
def inLine : CharSet := noneOf "\n"

/-- As many characters of the set as possible. -/
def any (s : CharSet) : Regex := span s ⟨0, none, true⟩

/-- As many characters of the set as possible, at least one. -/
def many (s : CharSet) : Regex := span s ⟨1, none, true⟩

/-- As few characters of the set as possible. -/
def few (s : CharSet) : Regex := span s ⟨0, none, false⟩

def optional (r : Regex) : Regex := «repeat» r ⟨0, some 1, true⟩

def repeated (r : Regex) : Regex := «repeat» r ⟨0, none, true⟩

/-- The part of the match that a rule is about. -/
def captured (r : Regex) : Regex := group 1 r

/-- Optional blanks. -/
def gap : Regex := any blank

/-- At least one blank. -/
def blanks : Regex := many blank

/-- A name, captured. -/
def name : Regex := captured (many word)

/-- A quote of either kind. -/
def quote : Regex := set (oneOf "\"'")

/-- Captured text without quotes between two quotes of any kind. -/
def quotedText : Regex := sequence [quote, captured (many (noneOf "\"'")), quote]

/-- The same expression with letter case ignored everywhere. -/
def ignoringCase : Regex → Regex
  | empty => empty
  | set s => set (.ignoringCase s)
  | anchor a => anchor a
  | seq r s => seq r.ignoringCase s.ignoringCase
  | alt r s => alt r.ignoringCase s.ignoringCase
  | span s bounds => span (.ignoringCase s) bounds
  | «repeat» r bounds => «repeat» r.ignoringCase bounds
  | group number r => group number r.ignoringCase

end SourceSurvey.Regex
