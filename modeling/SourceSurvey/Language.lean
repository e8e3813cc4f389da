import SourceSurvey.Path

namespace SourceSurvey

/-- The languages that files are told apart by. -/
inductive Language where
  | python
  | javascript
  | typescript
  | react
  | vue
  | svelte
  | java
  | cpp
  | c
  | csharp
  | go
  | rust
  | php
  | ruby
  | swift
  | kotlin
  | html
  | css
  | scss
  | sql
  /-- Everything else. -/
  | text
deriving Repr, DecidableEq

namespace Language

def all : List Language :=
  [python, javascript, typescript, react, vue, svelte, java, cpp, c, csharp, go, rust, php, ruby,
    swift, kotlin, html, css, scss, sql, text]

def name : Language → String
  | python => "python"
  | javascript => "javascript"
  | typescript => "typescript"
  | react => "react"
  | vue => "vue"
  | svelte => "svelte"
  | java => "java"
  | cpp => "cpp"
  | c => "c"
  | csharp => "csharp"
  | go => "go"
  | rust => "rust"
  | php => "php"
  | ruby => "ruby"
  | swift => "swift"
  | kotlin => "kotlin"
  | html => "html"
  | css => "css"
  | scss => "scss"
  | sql => "sql"
  | text => "text"

def ofName? (name : String) : Option Language := all.find? (·.name = name)

/-- The languages written in script files, where components of user interfaces are looked for. -/
def isScript : Language → Bool
  | javascript | typescript | react => true
  | _ => false

def isKnown (l : Language) : Bool := l ≠ text

/-- The extensions of the known languages, in lower case and without dot. -/
def extensions : List (String × Language) :=
  [("py", python), ("js", javascript), ("mjs", javascript), ("cjs", javascript),
    ("ts", typescript), ("mts", typescript), ("cts", typescript), ("jsx", react), ("tsx", react),
    ("vue", vue), ("svelte", svelte), ("java", java), ("cpp", cpp), ("c", c), ("cs", csharp),
    ("go", go), ("rs", rust), ("php", php), ("rb", ruby), ("swift", swift), ("kt", kotlin),
    ("html", html), ("css", css), ("scss", scss), ("sql", sql)]

/-- Latin letters in lower case, all else as it is. -/
def lowered (ext : String) : String := String.ofList (ext.toList.map Char.toLower)

/-- The language of an extension, written with or without dots before it and in any case. -/
def ofExtension (ext : String) : Language :=
  (extensions.lookup (lowered (String.ofList (ext.toList.dropWhile (· = '.'))))).getD text

section

variable {τ : Type} [DecidableEq τ] [PathText τ]

/-- The language of a file, by the extension of its name if that is a text. -/
def ofPath (path : τ) : Language :=
  (((Path.extension? path).bind PathText.text?).map ofExtension).getD text

/-- The extension of a path in lower case, empty if it has none or one that is no text. -/
def extensionOf (path : τ) : String :=
  (((Path.extension? path).bind PathText.text?).map lowered).getD ""

end

end Language

end SourceSurvey
