/-!
Syntax trees of source texts. A tree keeps the whole text it was read from: every leaf holds its
own text and the gap before it, so the text of a node is what its leaves hold. Two views list the
parts of a tree: `located` with the text before each part, `places` with the nodes around it.
-/

namespace SourceSurvey.Syntax

/-- What a leaf or node of a tree is, as far as the facts about a file depend on it. -/
inductive Kind where
  /-- Text that fits no rule. -/
  | error
  /-- Something that a rule asks for and the text does not have. -/
  | missing
  /-- A leaf of no interest. -/
  | token
  /-- A node of no interest. -/
  | group
  | program
  | identifier
  | propertyName
  | privateName
  | typeName
  | string
  | wildcard
  | undefined
  | parenthesized
  | pattern
  | arrayLiteral
  | objectLiteral
  | member
  | subscript
  | nonNull
  | call
  | arguments
  | assignment
  | pair
  | arrowFunction
  | functionExpression
  | generatorExpression
  | classExpression
  | element
  | openTag
  | variableDeclaration
  | declarator
  | functionDeclaration
  | generatorDeclaration
  | signatureDeclaration
  | classDeclaration
  | abstractClassDeclaration
  | interfaceDeclaration
  | typeAlias
  | enumDeclaration
  | moduleDeclaration
  | ambientDeclaration
  | methodDefinition
  | importStatement
  | importFrom
  | importFuture
  | aliasedImport
  | dottedName
  | exportStatement
  | exportClause
  | exportSpecifier
  | classDefinition
  | functionDefinition
deriving Repr, DecidableEq

/-- What a leaf or node is for its parent. -/
inductive Role where
  | name
  | key
  | value
  | source
  | moduleName
  | declaration
  | function
  | arguments
  | left
  | right
deriving Repr, DecidableEq

inductive Tree where
  | leaf (kind : Kind) (role : Option Role) (gap text : String)
  | node (kind : Kind) (role : Option Role) (children : List Tree)

namespace Tree

def kind : Tree → Kind
  | leaf kind _ _ _ => kind
  | node kind _ _ => kind

def role : Tree → Option Role
  | leaf _ role _ _ => role
  | node _ role _ => role

def children : Tree → List Tree
  | leaf _ _ _ _ => []
  | node _ _ children => children

/-- The same tree in another role. -/
def withRole (role : Role) : Tree → Tree
  | leaf kind _ gap text => leaf kind (some role) gap text
  | node kind _ children => node kind (some role) children

def isFault (t : Tree) : Bool := t.kind = .error || t.kind = .missing

mutual

/-- The text that a tree was read from, with the gap before it. -/
def source : Tree → List Char
  | leaf _ _ gap text => gap.toList ++ text.toList
  | node _ _ children => sourceAll children

def sourceAll : List Tree → List Char
  | [] => []
  | t :: ts => t.source ++ sourceAll ts

end

mutual

/-- The gap before a tree: that of its first leaf with a text. -/
def gapLength : Tree → Nat
  | leaf _ _ gap _ => gap.length
  | node _ _ children => gapLengthAll children

def gapLengthAll : List Tree → Nat
  | [] => 0
  | t :: ts => if t.source.isEmpty then gapLengthAll ts else t.gapLength

end

/-- The text of a tree, without the gap before it. -/
def text (t : Tree) : String := String.ofList (t.source.drop t.gapLength)

/-- The first child in a role. -/
def child? (role : Role) (t : Tree) : Option Tree := t.children.find? (·.role = some role)

mutual

/-- Some part of the tree is a fault. -/
def hasFault : Tree → Bool
  | leaf kind _ _ _ => kind = .error || kind = .missing
  | node kind _ children => kind = .error || kind = .missing || anyFault children

def anyFault : List Tree → Bool
  | [] => false
  | t :: ts => t.hasFault || anyFault ts

end

/-- A part of a tree with the text before it, from the beginning of the whole tree's text. -/
structure Located where
  before : List Char
  tree : Tree

namespace Located

/-- The line on which the part begins, counted from one. -/
def line (p : Located) : Nat :=
  ((p.before ++ p.tree.source.take p.tree.gapLength).filter (· = '\n')).length + 1

end Located

mutual

/-- All parts of a tree in document order, each before its own parts. -/
def located (before : List Char) : Tree → List Located
  | leaf kind role gap text => [⟨before, leaf kind role gap text⟩]
  | node kind role children =>
    ⟨before, node kind role children⟩ :: locatedAll before children

def locatedAll (before : List Char) : List Tree → List Located
  | [] => []
  | t :: ts => located before t ++ locatedAll (before ++ t.source) ts

end

mutual

/-- The first part of a tree that is a fault. Parts without one are passed over. -/
def firstFault? (before : List Char) : Tree → Option Located
  | leaf kind role gap text =>
    if (leaf kind role gap text).isFault then some ⟨before, leaf kind role gap text⟩ else none
  | node kind role children =>
    if (node kind role children).isFault then some ⟨before, node kind role children⟩
    else if anyFault children then firstFaultOf? before children else none

def firstFaultOf? (before : List Char) : List Tree → Option Located
  | [] => none
  | t :: ts => (firstFault? before t).or (firstFaultOf? (before ++ t.source) ts)

end

/-- The line of the first fault, counted from one. -/
def faultLine? (t : Tree) : Option Nat := (t.firstFault? []).map (·.line)

/-- A part of a tree with the nodes around it, innermost first. -/
structure Place where
  tree : Tree
  above : List Tree

mutual

/-- All parts of a tree in document order, each before its own parts. -/
def places (above : List Tree) : Tree → List Place
  | leaf kind role gap text => [⟨leaf kind role gap text, above⟩]
  | node kind role children =>
    ⟨node kind role children, above⟩ :: placesAll (node kind role children :: above) children

def placesAll (above : List Tree) : List Tree → List Place
  | [] => []
  | t :: ts => places above t ++ placesAll above ts

end

namespace Place

def kind (p : Place) : Kind := p.tree.kind

def role (p : Place) : Option Role := p.tree.role

def text (p : Place) : String := p.tree.text

/-- The kind of the node around the part. -/
def parentKind? (p : Place) : Option Kind := p.above.head?.map Tree.kind

end Place

end Tree

end SourceSurvey.Syntax
