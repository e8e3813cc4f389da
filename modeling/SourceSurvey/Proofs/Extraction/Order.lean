import SourceSurvey.Extraction
import SourceSurvey.Proofs.Python.Imported
import SourceSurvey.Proofs.Script.Declared

/-!
What the facts in a tree are, and in which order they stand: what queries capture, sorted by where it
begins, is what a single pass over the tree finds.
-/

namespace SourceSurvey

open Syntax Syntax.Tree

namespace Analyzer

/-- The tree fits the grammar. -/
def Fits (a : Analyzer) (t : Tree) : Prop :=
  match a with
  | python => Python.Fits t
  | script dialect => Script.Fits dialect t

variable {a : Analyzer} {t : Tree}

theorem fits_of_parse {content : String} (hTree : a.parse content = t) (hFault : t.hasFault = false) :
    a.Fits t := by
  cases a with
  | python => exact Python.fits_of_parse hTree hFault
  | script dialect => exact Script.fits_of_parse hTree hFault

end Analyzer

end SourceSurvey
