import SingleUse.Reference
import SingleUse.Screening
import SingleUse.Text.Case
import SingleUse.Traversal
import SingleUse.Tree.Pattern

/-!
# Analysis

The analysis of a source goes through the visits of its tree.  Each visit has *events*: names
are declared, places are marked as assigned or as not worth recording, identifiers occur.  The
role of an identifier depends on the events before it; the references are the occurrences that
have a role.  The declarations fill the registry, and in the end the references are attributed
to its bindings.
-/

namespace SingleUse

/-- What happens at a visit. -/
inductive Event where
  | declare (b : Binding)
  | assign (span : Span)
  | ignore (span : Span)
  | occur (visit : Visit)

/-! ### Declarations -/

/-- The declaration of a name by the node of a visit, in a given scope. -/
def Visit.binding (visit : Visit) (source : Bytes) (target : Cursor) (scope : Option ScopeKey)
    (origin : Origin) : Binding where
  name := target.text source
  scope
  origin
  declaration := some visit.node
  target := some target
  lexical := visit.here.scope
  function := visit.here.function
  loops := visit.here.loops
  malformed := visit.here.inError || target.missing

/-- The declarations of a declarator.  With `var` the names belong to the function around it.  A
single pattern is described by its key or its position; the names of other patterns can only
hide names outside. -/
def Visit.declaratorBindings (visit : Visit) (source : Bytes) (scopes : ScopeTree) :
    List Binding :=
  match visit.node.childByField .name with
  | none => []
  | some name =>
    let statement := visit.node.parent
    let container := statement.bind (·.parent)
    let hoisted := statement.any fun s => s.type = .variableDeclaration
    let scope := if hoisted then scopes.functionScope visit.here.scope else visit.here.scope
    let origin :=
      if container.any fun c => c.type = .forInStatement then Origin.loopVariable else .declarator
    let declare (target : Cursor) : Binding :=
      { visit.binding source target scope origin with
        initializer := visit.node.childByField .value
        exported := container.any fun c => c.type = .exportStatement }
    let shaped (shape : BindingShape) : List Binding :=
      match name.single with
      | some pattern =>
        [{ declare pattern.target with
            shape, patternKey := pattern.key, patternIndex := pattern.index }]
      | none =>
        name.targets.map fun target =>
          { declare target with shape, rejection := some .patternShape }
    match name.type with
    | .identifier => [declare name]
    | .arrayPattern => shaped .arrayElement
    | .objectPattern => shaped .objectProperty
    | _ => []

/-- The name of a node, if it is an identifier. -/
def Cursor.ownName (c : Cursor) : Option Cursor :=
  (c.childByField .name).filter fun name => name.type = .identifier

/-- The declarations of a function: its own name and its parameters.  The name of a function
declaration belongs to the scope around it, that of a function expression to its own. -/
def Visit.functionBindings (visit : Visit) (source : Bytes) : List Binding :=
  let scope := match visit.node.type with
    | .functionDeclaration | .generatorFunctionDeclaration => visit.outer.or visit.here.scope
    | _ => visit.here.scope
  let parameters := (visit.node.childByField .parameters).or (visit.node.childByField .parameter)
  (visit.node.ownName.toList.map fun name => visit.binding source name scope .function)
  ++ (parameters.toList.flatMap Cursor.targets).map fun target =>
    visit.binding source target visit.here.scope .parameter

/-- The origin of the name of a declaration that only introduces a name. -/
def namedOrigin : NodeType → Option Origin
  | .enumDeclaration | .internalModule | .moduleDeclaration => some .classLike
  | .functionSignature => some .function
  | _ => none

/-- The identifiers that an import statement binds, among the nodes still to be looked at; the
last of these comes first.  Every step replaces a node by the nodes below it, so the number of
nodes bounds the steps. -/
def importedNames : Nat → List Cursor → List Cursor
  | 0, _ => []
  | _, [] => []
  | n + 1, current :: pending =>
    if current.type = .importSpecifier then
      let name := (current.childByField .otherName).or (current.childByField .name)
      (name.filter fun name => name.type = .identifier).toList ++ importedNames n pending
    else
      let binds := match current.type with
        | .importClause | .namespaceImport | .importRequireClause => true
        | _ => false
      let (names, others) := current.namedChildren.partition fun child =>
        binds && child.type = .identifier
      names ++ importedNames n (others.reverse ++ pending)

/-- The identifiers that an import statement binds. -/
def Cursor.imports (c : Cursor) : List Cursor :=
  importedNames c.focus.size c.namedChildren.reverse

/-- Whether a loop declares its variable by `var`. -/
def Cursor.isVar (c : Cursor) : Bool := c.type = .var

/-- The declarations at a visit. -/
def Visit.bindings (visit : Visit) (source : Bytes) (scopes : ScopeTree) : List Binding :=
  let c := visit.node
  let scope := visit.here.scope
  match c.category with
  | .declarator => visit.declaratorBindings source scopes
  | .function => visit.functionBindings source
  | .classLike => c.ownName.toList.map fun name => visit.binding source name scope .classLike
  | .namedDeclaration =>
    match namedOrigin c.type with
    | some origin => c.ownName.toList.map fun name => visit.binding source name scope origin
    | none => []
  | .catchClause =>
    ((c.childByField .parameter).toList.flatMap Cursor.targets).map fun target =>
      visit.binding source target scope .catchClause
  | .loop =>
    if c.type ≠ .forInStatement then []
    else
      match c.childByField .left, c.childByField .kind with
      | some left, some kind =>
        left.targets.map fun target =>
          visit.binding source target
            (if kind.isVar then scopes.functionScope scope else scope) .loopVariable
      | _, _ => []
  | .importStatement => c.imports.map fun name => visit.binding source name scope .importStatement
  | _ => []

/-! ### Marks -/

/-- The places that a node assigns to. -/
def Cursor.assigned (c : Cursor) : List Span :=
  let target : Option Cursor := match c.category with
    | .assignment => c.childByField .left
    | .update => c.childByField .argument
    | .loop =>
      if c.type = .forInStatement && (c.childByField .kind).isNone then c.childByField .left
      else none
    | _ => none
  (target.toList.flatMap fun target => target.unwrap.targets).map (·.span)

/-- The places that are not worth recording: the parameters of a signature, which has no body to
read them, and the outer names of an export clause. -/
def Cursor.ignored (c : Cursor) : List Span :=
  match c.category with
  | .namedDeclaration =>
    ((c.childByField .parameters).toList.flatMap Cursor.targets).map (·.span)
  | .exportStatement =>
    if (c.childByField .source).isSome then []
    else
      (c.namedChildren.filter fun clause => clause.type = .exportClause).flatMap fun clause =>
        clause.namedChildren.filterMap fun specifier =>
          (specifier.childByField .otherName).map (·.span)
  | _ => []

/-- The events of a visit in order. -/
def Visit.events (visit : Visit) (source : Bytes) (scopes : ScopeTree) : List Event :=
  (visit.bindings source scopes).map .declare ++ visit.node.ignored.map .ignore
    ++ visit.node.assigned.map .assign
    ++ if visit.node.category = .identifier then [.occur visit] else []

/-! ### Occurrences -/

/-- The names declared and the places marked so far. -/
structure Marks where
  declared : List (Span × BindingKey) := []
  assigned : List Span := []
  ignored : List Span := []

/-- The binding declared last on some bytes. -/
def Marks.declaredAt? (marks : Marks) (span : Span) : Option BindingKey :=
  (marks.declared.find? fun entry => entry.1 = span).map (·.2)

/-- Whether an identifier is a tag name in lowercase, which names no variable. -/
def Cursor.isIntrinsicTag (c : Cursor) (source : Bytes) : Bool :=
  c.parent.any fun parent =>
    isElementTag parent.type && parent.isField .name c
      && ((c.text source).toList.head?.any Text.isLower)

/-- The role of an identifier; none when it is not worth recording. -/
def Marks.role? (marks : Marks) (source : Bytes) (visit : Visit) : Option Role :=
  let c := visit.node
  if marks.ignored.contains c.span || visit.here.typeMode = .type then none
  else if (marks.declaredAt? c.span).isSome then some .declarationTarget
  else
    match c.type with
    | .propertyIdentifier =>
      if c.parentIn [.memberExpression] then some .memberPropertyName
      else if c.parentIn [.pair] then some .objectPropertyKey
      else none
    | .shorthandPropertyIdentifier => some .objectPropertyShorthand
    | type =>
      if marks.assigned.contains c.span then some .assignmentTarget
      else if type = .shorthandPropertyIdentifierPattern then none
      else if c.isIntrinsicTag source then none
      else some .read

/-- The reference of an identifier; a declaration refers to the binding that it declares. -/
def Marks.reference? (marks : Marks) (source : Bytes) (visit : Visit) : Option Reference :=
  (marks.role? source visit).map fun role =>
    { node := visit.node
      name := visit.node.text source
      role
      scope := visit.here.scope
      function := visit.here.function
      loops := visit.here.loops
      inError := visit.here.inError
      inType := visit.here.typeMode = .query
      binding := if role = .declarationTarget then marks.declaredAt? visit.node.span else none }

/-- The marks after an event. -/
def Marks.after (marks : Marks) : Event → Marks
  | .declare b =>
    match b.target with
    | some target => { marks with declared := (target.span, b.key) :: marks.declared }
    | none => marks
  | .assign span => { marks with assigned := span :: marks.assigned }
  | .ignore span => { marks with ignored := span :: marks.ignored }
  | .occur _ => marks

/-- The references in the course of some events. -/
def collectReferences (source : Bytes) (marks : Marks) : List Event → List Reference
  | [] => []
  | event :: rest =>
    let here := match event with
      | .occur visit => (marks.reference? source visit).toList
      | _ => []
    here ++ collectReferences source (marks.after event) rest

/-! ### The whole -/

/-- The bindings declared in the course of some events. -/
def declarations (events : List Event) : List Binding :=
  events.filterMap fun | .declare b => some b | _ => none

/-- Screens bindings one after the other and fills a registry with them. -/
def Registry.declareAll (r : Registry) (options : RuleOptions) (source : Bytes) :
    List Binding → Except Error Registry
  | [] => .ok r
  | b :: rest => do
    let rejection ← b.screen options source
    (r.register { b with rejection }).declareAll options source rest

/-- What is found out about a source. -/
structure Analysis where
  source : Bytes
  scopes : ScopeTree
  registry : Registry
  references : List Reference
  /-- The bytes of the functions, in the order in which they open. -/
  functionSpans : List Span

namespace Analysis

/-- The uses of a binding. -/
def readsOf (a : Analysis) (key : BindingKey) : List Reference :=
  a.references.filter fun ref => ref.binding = some key && ref.role.counts

/-- Analyses the tree of a source. -/
def ofTree (source : Bytes) (tree : Tree) (typeContexts : List NodeType)
    (options : RuleOptions) : Except Error Analysis := do
  let visits := tree.traverse typeContexts
  let scopes := ScopeTree.ofVisits source visits
  let events := visits.flatMap fun visit => visit.events source scopes
  let registry ← ({} : Registry).declareAll options source (declarations events)
  let (state, references) :=
    Attribution.run scopes ⟨registry, []⟩ (collectReferences source {} events)
  return {
    source, scopes, references
    registry := state.registry
    functionSpans := (visits.filter fun v => v.opens = some .function).map (·.node.span) }

end Analysis

end SingleUse
