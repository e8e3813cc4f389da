import SourceSurvey.Regex.Build
import SourceSurvey.Regex.Parser
import SourceSurvey.Text.Quoted

/-!
A catalog of frameworks, each with signatures: a file uses a framework if one of its signatures
occurs in the text, letter case ignored.
-/

namespace SourceSurvey

structure Framework where
  name : String
  signatures : List Regex

/-- Whether the text shows a signature of the framework. -/
def Framework.occursIn [Regex.Engine] (f : Framework) (content : String) : Bool :=
  f.signatures.any (·.isMatch content.toList)

abbrev Catalog := List Framework

namespace Catalog

open Regex

/-- A signature that is no expression. -/
structure SignatureError where
  signature : String
  cause : Regex.SyntaxError
deriving Repr, DecidableEq

def SignatureError.message (e : SignatureError) : String :=
  "compiling framework signature " ++ Text.quoted e.signature ++ ": " ++ e.cause.headline

def compile [Regex.Engine] (signature : String) : Except SignatureError Regex :=
  (Regex.parse true signature).mapError fun cause => ⟨signature, cause⟩

/-- Both texts on one line, in this order. -/
def onLine (first second : String) : Regex := sequence [text first, any inLine, text second]

def builtinSignatures : List (String × List Regex) :=
  [("React", [onLine "import" "react", sequence [text "from ", quote, text "react", quote],
      sequence [text "<", any inLine, text "jsx", any inLine, text ">"]]),
    ("Vue", [onLine "import" "vue", text "<template>", onLine "export default" "Vue"]),
    ("Angular", [text "@angular", text "@Component", text "@Injectable"]),
    ("Django", [text "from django", text "django.urls", text "models.Model"]),
    ("Flask", [text "from flask", text "Flask(__name__)", text "@app.route"]),
    ("Express", [text "express()", text "app.get(",
      sequence [text "require(", quote, text "express", quote]]),
    ("FastAPI", [text "from fastapi", text "FastAPI()", text "@app.get"]),
    ("Spring", [text "@RestController", text "@Service", text "@Entity"]),
    ("Next.js", [text "next/head", text "next/router", text "getStaticProps"]),
    ("Nuxt", [text "nuxt.config", text "<nuxt-", text "@nuxtjs"]),
    ("Svelte", [text "<script>", text "export let", text "svelte/store"])]

def builtin : Catalog :=
  builtinSignatures.map fun (name, signatures) => ⟨name, signatures.map ignoringCase⟩

/-- Add signatures to the framework of that name, or a new framework at the end. -/
def extend (catalog : Catalog) (name : String) (signatures : List Regex) : Catalog :=
  if catalog.any (·.name = name) then
    catalog.map fun f => if f.name = name then { f with signatures := f.signatures ++ signatures }
      else f
  else catalog ++ [⟨name, signatures⟩]

/-- The built-in catalog with further signatures by framework name. -/
def withExtras [Regex.Engine] (extra : List (String × List String)) :
    Except SignatureError Catalog :=
  extra.foldlM (fun catalog (name, signatures) => do
    return catalog.extend name (← signatures.mapM compile)) builtin

/-- The frameworks that the text shows signs of, in the order of the catalog. -/
def detect [Regex.Engine] (catalog : Catalog) (content : String) : List String :=
  (catalog.filter (·.occursIn content)).map (·.name)

end Catalog

end SourceSurvey
