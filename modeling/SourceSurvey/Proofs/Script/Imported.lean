import SourceSurvey.Proofs.Script.Declared
import SourceSurvey.Proofs.Text.Blank
import Mathlib.Data.List.Perm.Basic

/-!
The imports of a script are read off string literals: the sources of import statements and what the
function "require" is called with. Of each literal its content is listed, but without the quotation
marks that this begins and ends with itself.
-/

namespace SourceSurvey.Script

open Syntax Syntax.Tree

/-! ### Literals -/

/-- What is between the first and the last character of a literal. -/
def contentOf (t : Tree) : List Char := t.text.toList.tail.dropLast

/-- There are quotation marks of no sort at the beginning or at the end. -/
def Unmarked (content : List Char) : Prop :=
  (∀ c ∈ content.head?, isQuote c = false) ∧ ∀ c ∈ content.getLast?, isQuote c = false

/-- The content of a literal is what stands between its quotes. -/
theorem contentOf_of_quoted {t : Tree} {cs : List Char} (h : Quoted t.text cs) : contentOf t = cs := by
  obtain ⟨quote, _, hText⟩ := h
  rw [contentOf, hText, List.cons_append, List.tail_cons, List.dropLast_concat]

/-- The value of a literal loses more than its quotes: also those of its content that stand at an
end. -/
theorem stringValue_of_quoted {t : Tree} {content : List Char} (h : Quoted t.text content) :
    stringValue t = String.ofList (Text.trimBoth isQuote content) := by
  obtain ⟨quote, hQuote, hText⟩ := h
  have hMark : ∀ c ∈ [quote], isQuote c = true :=
    List.forall_mem_singleton.2 (by rcases hQuote with rfl | rfl <;> rfl)
  rw [stringValue, hText, Text.trimBoth_append_right hMark, ← List.singleton_append,
    Text.trimBoth_append_left hMark]

/-! ### The query for modules -/

/-- The part is the source of an import statement. -/
def isSource (p : Place) : Bool :=
  p.parentKind? = some .importStatement && p.role = some .source

/-- The function that a call is for is the name "require". -/
def requires (call : Tree) : Bool :=
  (call.child? .function).any fun function =>
    function.kind = .identifier && function.text = "require"

/-- These are the arguments of a call of the function "require". -/
def areRequired (arguments : Place) : Bool :=
  arguments.kind = .arguments && arguments.role = some .arguments &&
    arguments.above.head?.any fun call => call.kind = .call && requires call

/-- The part is an argument of a call of the function "require". -/
def isArgument (p : Place) : Bool :=
  match p.above with
  | arguments :: above => areRequired ⟨arguments, above⟩
  | [] => false

/-- The part is a literal that names a module. -/
def namesModule (p : Place) : Bool := p.kind = .string && (isSource p || isArgument p)

/-! ### What the grammar builds -/

/-- The terminal reads no string as a name. -/
def readsNoString (terminal : Terminal) : Bool := terminal.nameKind? ≠ some .string

theorem uses_noString (dialect : Dialect) (phrase : Phrase) :
    (Form.ofPhrase dialect phrase).uses readsNoString (fun _ => true) (· ≠ .string) = true := by
  cases dialect <;> cases phrase <;> decide

/-- No rule puts a function in its role, except that a call takes the operand before it. -/
theorem inRole_function (dialect : Dialect) (phrase : Phrase) :
    (Form.ofPhrase dialect phrase).inRole .function = [] := by
  cases dialect <;> cases phrase <;> rfl

theorem ontoInRole_function (dialect : Dialect) (phrase : Phrase) :
    ∀ maker ∈ (Form.ofPhrase dialect phrase).makers .call, maker.ontoInRole .function = true := by
  cases dialect <;> cases phrase <;> decide

section

variable {dialect : Dialect} {t : Tree} (hFits : Fits dialect t)
include hFits

/-- A call is for one function. -/
theorem Fits.atMostOneInRole : t.ChildrenFit .call (AtMostOneInRole .function) :=
  Shape.Derives.childrenFit hFits (counted_shape dialect) (fun _ => Nat.zero_le 1)
    (fun phrase maker hMaker => Shape.fitting_ontoInRole (inRole_function dialect)
      (ontoInRole_function dialect phrase maker hMaker))
    (by decide) rfl rfl

/-- Strings are leaves and stand between quotation marks. -/
theorem Fits.quoted :
    t.Made (fun kind text => kind = .string → ∃ content, Quoted text content) (· ≠ .string) := by
  have hLeaf : ∀ {terminal kind text}, readsNoString terminal = true →
      Terminal.Leaf terminal kind text → kind = .string → ∃ content, Quoted text content := by
    intro terminal kind text hOther hLeaf hString
    cases hName : terminal.nameKind? with
    | none => exact hLeaf.quoted hName hString
    | some named => simp [readsNoString, hName, ← hLeaf.named hName, hString] at hOther
  have hMade : t.Made (fun kind text => kind = .string → ∃ content, Quoted text content)
      (fun kind => decide (kind ≠ .string) = true) :=
    Shape.Derives.made hFits hLeaf (fun phrase _ => uses_noString dialect phrase) (by decide)
      rfl rfl
  exact hMade.imp (fun _ _ h => h) fun _ h => of_decide_eq_true h

end

/-! ### What is captured -/

section

variable {s c : Site}

/-- The literals that are sources in a node. -/
def sourcesIn (s : Site) : List Site :=
  if s.kind = .importStatement then
    s.children.filter fun c => c.role = some .source && c.kind = .string
  else []

/-- The literals among arguments, if those are for the function "require". -/
def argumentsIn (arguments : Site) : List Site :=
  if areRequired arguments.toPlace then arguments.children.filter (·.kind = .string) else []

theorem isSource_child (hC : c ∈ s.children) :
    isSource c.toPlace = (s.kind = .importStatement && c.role = some .source) := by
  rw [isSource, Place.parentKind?, above_of_mem_children hC]
  by_cases hKind : s.tree.kind = .importStatement <;> simp [Place.kind, hKind]

theorem isArgument_child (hC : c ∈ s.children) : isArgument c.toPlace = areRequired s.toPlace := by
  rw [isArgument, above_of_mem_children hC]

theorem areRequired_child (hC : c ∈ s.children) : areRequired c.toPlace =
    ((c.role = some .arguments && c.kind = .arguments) && (s.kind = .call && requires s.tree)) := by
  rw [areRequired, above_of_mem_children hC, List.head?_cons, Option.any_some,
    Bool.and_comm (decide (c.role = _))]
  rfl

/-- Children that name a module are sources of the statement or arguments of the call. -/
theorem filter_namesModule_children (s : Site) :
    s.children.filter (namesModule ·.toPlace) = sourcesIn s ++ argumentsIn s := by
  have hNames : ∀ c ∈ s.children, namesModule c.toPlace = (c.kind = .string &&
      ((s.kind = .importStatement && c.role = some .source) || areRequired s.toPlace)) :=
    fun c hC => by rw [namesModule, isSource_child hC, isArgument_child hC]
  rw [List.filter_congr hNames, sourcesIn, argumentsIn]
  by_cases hStatement : s.kind = .importStatement
  · have hOther : areRequired s.toPlace = false := by simp [areRequired, hStatement]
    simp [hStatement, hOther, Bool.and_comm]
  · cases hRequired : areRequired s.toPlace <;> simp [hStatement]

/-- The name of a function is found once, where there is one function. -/
theorem flatMap_functions {xs : List Site} (hOne : AtMostOneInRole .function s.tree.children) :
    ((s.children.filter fun c => c.role = some .function && c.kind = .identifier &&
        c.text = "require").flatMap fun _ => xs) = if requires s.tree then xs else [] := by
  let isName (c : Site) : Bool := c.kind = .identifier && c.text = "require"
  have hTrees : (s.children.filter (·.role = some .function)).map (·.tree) =
      s.tree.children.filter (·.role = some .function) := by
    rw [← map_tree_children, List.filter_map]
    rfl
  have hNames : (s.children.filter fun c => c.role = some .function && c.kind = .identifier &&
      c.text = "require") = (s.children.filter (·.role = some .function)).filter isName := by
    rw [List.filter_filter]
    exact List.filter_congr fun c _ => by rw [Bool.and_assoc, Bool.and_comm]
  have hRequires : requires s.tree =
      (s.children.filter (·.role = some .function)).head?.any isName := by
    rw [requires, child?_eq_head?, ← hTrees, List.head?_map, Option.any_map]
    rfl
  rw [hNames, hRequires]
  rw [AtMostOneInRole, ← hTrees, List.length_map] at hOne
  generalize s.children.filter (·.role = some .function) = functions at hOne
  rcases eq_nil_or_exists_eq_singleton hOne with rfl | ⟨function, rfl⟩
  · rfl
  · cases hName : isName function <;> simp [hName]

/-- A call has one function, so its arguments are found once. -/
theorem sourcesIn_append_arguments
    (hOne : s.kind = .call → AtMostOneInRole .function s.tree.children) :
    sourcesIn s ++ s.children.flatMap argumentsIn = moduleLiterals s := by
  have hArguments : s.children.flatMap argumentsIn =
      if s.kind = .call && requires s.tree then
        (s.children.filter fun c => c.role = some .arguments && c.kind = .arguments).flatMap
          fun arguments => arguments.children.filter (·.kind = .string)
      else [] := by
    rw [flatMap_filter_eq]
    cases hRequired : s.kind = .call && requires s.tree with
    | true =>
        refine List.flatMap_congr fun c hC => ?_
        rw [argumentsIn, areRequired_child hC, hRequired, Bool.and_true]
    | false =>
        refine List.flatMap_eq_nil_iff.2 fun c hC => ?_
        rw [argumentsIn, areRequired_child hC, hRequired, Bool.and_false]
        rfl
  rw [hArguments, sourcesIn]
  by_cases hStatement : s.kind = .importStatement
  · simp [moduleLiterals, hStatement]
  · by_cases hCall : s.kind = .call
    · rw [moduleLiterals, hCall]
      simp only [flatMap_functions (hOne hCall)]
      simp
    · have hNothing : moduleLiterals s = [] := by
        rw [moduleLiterals]
        split
        · exact absurd ‹_› hStatement
        · exact absurd ‹_› hCall
        · rfl
      simp [hStatement, hCall, hNothing]

end

/-- The literals that name modules are those that the query captures. -/
theorem filter_namesModule_perm {dialect : Dialect} {t : Tree} (hFits : Fits dialect t) :
    ((t.sites 0 []).filter (namesModule ·.toPlace)).Perm
      ((t.sites 0 []).flatMap moduleLiterals) := by
  have hRoot : namesModule ⟨t, []⟩ = false := by
    simp [namesModule, isSource, isArgument, Place.parentKind?]
  have hNone : argumentsIn ⟨⟨t, []⟩, 0⟩ = [] := if_neg (by simp [areRequired])
  refine (filter_sites_perm hRoot).trans ?_
  simp only [filter_namesModule_children]
  refine (List.flatMap_append_perm _ _ _).symm.trans ?_
  refine ((flatMap_sites_perm hNone).append_left _).trans ?_
  refine (List.flatMap_append_perm _ _ _).trans (.of_eq (List.flatMap_congr fun s hS => ?_))
  exact sourcesIn_append_arguments fun hCall => (hFits.atMostOneInRole.of_mem_places
    (toPlace_mem_places hS)).fits_children hCall

/-! ### What is listed -/

/-- The literals that imports are read off. -/
structure ReadOff (t : Tree) (imports : List String) (literals : List Site) : Prop where
  /-- The literals are those that the query captures, each once. -/
  captured : literals.Perm ((t.sites 0 []).flatMap moduleLiterals)
  ascending : literals.Pairwise fun s later => s.start < later.start
  quoted : ∀ s ∈ literals, Quoted s.text (contentOf s.tree)
  /-- Of each content is listed what is between the quotation marks at its ends, if there is
  something. -/
  trimmed : imports = (literals.map fun s =>
    String.ofList (Text.trimBoth isQuote (contentOf s.tree))).filter (· ≠ "")
  /-- That is all of the content, where there are none. -/
  whole : (∀ s ∈ literals, Unmarked (contentOf s.tree)) →
    imports = (literals.map fun s => String.ofList (contentOf s.tree)).filter (· ≠ "")

section

variable {dialect : Dialect} {t : Tree} (hFits : Fits dialect t)
include hFits

/-- A literal that names a module is a leaf between quotation marks. -/
theorem exists_quoted {s : Site} (hS : s ∈ t.sites 0 []) (hNames : namesModule s.toPlace = true) :
    s.tree.children = [] ∧ ∃ content, Quoted s.text content := by
  have hString : s.kind = .string := by
    simp only [namesModule, Bool.and_eq_true, decide_eq_true_eq] at hNames
    exact hNames.1
  obtain ⟨hQuoted, hChildren⟩ := (hFits.quoted.of_mem_places
    (toPlace_mem_places hS)).leaf_of_kind (not_not_intro hString)
  exact ⟨hChildren, hQuoted hString⟩

/-- The literals that name modules, as a single pass over the tree meets them. -/
def literals (t : Tree) : List Site := (t.sites 0 []).filter (namesModule ·.toPlace)

/-- A literal that names a module is a leaf, and quoted. -/
theorem quoted_of_mem_literals {s : Site} (hS : s ∈ literals t) :
    s.tree.children = [] ∧ Quoted s.text (contentOf s.tree) := by
  obtain ⟨hMem, hNames⟩ := List.mem_filter.1 hS
  obtain ⟨hChildren, cs, hQuoted⟩ := exists_quoted hFits hMem hNames
  exact ⟨hChildren, (contentOf_of_quoted hQuoted).symm ▸ hQuoted⟩

/-- Literals begin at different places, one after the other. -/
theorem pairwise_start_literals :
    (literals t).Pairwise fun s later => s.start < later.start := by
  refine ((pairwise_precedes_sites 0 [] t).filter _).imp_of_mem fun hS _ hPrecedes => ?_
  obtain ⟨hChildren, hQuoted⟩ := quoted_of_mem_literals hFits hS
  refine hPrecedes.start_lt (gapLength_lt_of_text_ne hQuoted.ne_empty) ?_
  rw [Site.below, hChildren]
  exact List.not_mem_nil

/-- Sorted by where they begin, the literals that the query captures are those of a single pass. -/
theorem imports_eq : (facts dialect t).imports =
    ((literals t).map (stringValue ·.tree)).filter (· ≠ "") := by
  let entryOf (s : Site) : Nat × String := (s.start, stringValue s.tree)
  have hFound : (t.sites 0 []).flatMap importedAt =
      (((t.sites 0 []).flatMap moduleLiterals).map entryOf).filter (·.2 ≠ "") := by
    rw [List.map_flatMap, List.filter_flatMap]
    rfl
  have hPerm : ((t.sites 0 []).flatMap importedAt).Perm
      (((literals t).map entryOf).filter (·.2 ≠ "")) := by
    rw [hFound]
    exact (((filter_namesModule_perm hFits).symm.map entryOf).filter _)
  have hOrdered : ((literals t).map entryOf).Pairwise fun entry later => entry.1 < later.1 :=
    List.pairwise_map.2 (pairwise_start_literals hFits)
  rw [facts, inSourceOrder, mergeSort_eq_of_perm hPerm (hOrdered.filter _), List.filter_map,
    List.map_map, List.filter_map]
  rfl

/-- The imports of a script are read off the literals that name modules, in the order of where those
begin. -/
theorem exists_readOff : ∃ literals, ReadOff t (facts dialect t).imports literals := by
  have hTrimmed : (facts dialect t).imports = ((literals t).map fun s =>
      String.ofList (Text.trimBoth isQuote (contentOf s.tree))).filter (· ≠ "") := by
    rw [imports_eq hFits, List.map_congr_left fun s hS =>
      stringValue_of_quoted (quoted_of_mem_literals hFits hS).2]
  refine ⟨literals t, filter_namesModule_perm hFits, pairwise_start_literals hFits,
    fun s hS => (quoted_of_mem_literals hFits hS).2, hTrimmed, fun hUnmarked => ?_⟩
  rw [hTrimmed, List.map_congr_left fun s hS => by
    rw [Text.trimBoth_eq_self (hUnmarked s hS).1 (hUnmarked s hS).2]]

end

/-- Texts without faults have trees that fit the grammar, and in any tree that fits it the imports are
read off the literals that name modules. -/
theorem imports_of_literals (dialect : Dialect) :
    (∀ content, (parse dialect content).hasFault = false → Fits dialect (parse dialect content)) ∧
    ∀ {t : Tree}, Fits dialect t → ∃ literals, ReadOff t (facts dialect t).imports literals :=
  ⟨fun _ hFault => fits_of_parse rfl hFault, exists_readOff⟩

theorem imports_of_literals_quote :
    let t := parse .javascript "import \"'a'\"; require('b', 'c'); d('e')"
    t.hasFault = false ∧ ∃ literals, ReadOff t ["a", "b", "c"] literals := by
  intro t
  obtain ⟨hFault, hImports⟩ : t.hasFault = false ∧
      ((literals t).map (stringValue ·.tree)).filter (· ≠ "") = ["a", "b", "c"] := by
    decide +kernel
  obtain ⟨hParsed, hReadOff⟩ := imports_of_literals .javascript
  have hFits : Fits .javascript t := hParsed _ hFault
  exact ⟨hFault, hImports ▸ imports_eq hFits ▸ hReadOff hFits⟩

end SourceSurvey.Script
