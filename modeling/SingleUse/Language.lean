import SingleUse.Error
import SingleUse.Glob
import SingleUse.SourcePath
import SingleUse.Tree.NodeType

/-!
# Languages

A language names the grammar that its sources are parsed with, the extensions of its files and
the nodes below which types stand.  `Languages` is a list of languages with a table that sends
extensions to them.
-/

namespace SingleUse

/-- What is known of a language. -/
structure Language where
  name : String
  grammar : String
  extensions : List String
  /-- Larger sources are refused; in bytes. -/
  maxFileSize : Nat := 300000
  /-- Files that are passed over when a directory is walked. -/
  excludePatterns : List String := []
  /-- The group of exclusions that the language belongs to. -/
  exclusionKey : String := "javascript"
  typeContexts : List NodeType := []

namespace Language

/-- Whether the language claims an extension, in lowercase or not. -/
def matchesExtension (language : Language) (extension : String) : Bool :=
  language.extensions.contains (Text.lower extension)

/-- Whether a path is passed over in a walk. -/
def excludes (language : Language) (path : String) : Bool :=
  Glob.matchesAny path language.excludePatterns

/-- The files of JavaScript projects that are passed over. -/
def javascriptExcludes : List String :=
  ["**/node_modules/*", "**/bower_components/*", "**/vendor/*", "**/*.min.js", "**/*.bundle.js"]

/-- The files of TypeScript projects that are passed over. -/
def typescriptExcludes : List String :=
  ["**/node_modules/*", "**/*.d.ts", "**/.next/*", "**/.turbo/*"]

/-- The nodes of TypeScript below which identifiers name types. -/
def typescriptTypeContexts : List NodeType :=
  [.annotationOfType, .annotationOpting, .annotationOmitting, .annotationAdding,
    .annotationAsserting, .annotationOfPredicate, .typeArguments, .typeParameters,
    .typeAliasDeclaration, .interfaceDeclaration, .implementsClause, .extendsTypeClause,
    .indexSignature, .genericType, .nestedTypeIdentifier]

/-- JavaScript, with elements. -/
def javascript : Language where
  name := "JavaScript"
  grammar := "javascript"
  extensions := [".js", ".jsx", ".mjs", ".cjs"]
  excludePatterns := javascriptExcludes

/-- TypeScript. -/
def typescript : Language where
  name := "TypeScript"
  grammar := "typescript"
  extensions := [".ts", ".mts", ".cts"]
  excludePatterns := typescriptExcludes
  exclusionKey := "typescript"
  typeContexts := typescriptTypeContexts

/-- TypeScript with elements. -/
def tsx : Language where
  name := "TSX"
  grammar := "tsx"
  extensions := [".tsx"]
  excludePatterns := typescriptExcludes
  exclusionKey := "typescript"
  typeContexts := typescriptTypeContexts

end Language

/-- Languages in the order of their registration, and the names of the languages that
extensions are sent to. -/
structure Languages where
  list : List Language := []
  routes : List (String × String) := []

namespace Languages

/-- The number of languages. -/
def size (ls : Languages) : Nat := ls.list.length

/-- The language with exactly this name. -/
def get? (ls : Languages) (name : String) : Option Language :=
  ls.list.find? fun language => language.name = name

/-- Whether there is a language with exactly this name. -/
def contains (ls : Languages) (name : String) : Bool := (ls.get? name).isSome

/-- The name that an extension in lowercase is sent to. -/
def route? (ls : Languages) (extension : String) : Option String :=
  (ls.routes.find? fun route => route.1 = extension).map (·.2)

/-- Puts a language in the place of the one with its name, or at the end. -/
def place (language : Language) : List Language → List Language
  | [] => [language]
  | old :: rest => if old.name = language.name then language :: rest else old :: place language rest

/-- Sends an extension to a language. -/
def reroute (extension name : String) (routes : List (String × String)) :
    List (String × String) :=
  routes.filter (fun route => route.1 ≠ extension) ++ [(extension, name)]

/-- Adds a language.  None of its extensions may be sent to another one. -/
def register (ls : Languages) (language : Language) : Except Error Languages :=
  let conflict := language.extensions.findSome? fun extension =>
    ((ls.route? (Text.lower extension)).filter fun owner => owner ≠ language.name).map fun owner =>
      Error.extensionTaken extension owner language.name
  match conflict with
  | some error => .error error
  | none => .ok {
      list := place language ls.list
      routes := language.extensions.foldl
        (fun routes extension => reroute (Text.lower extension) language.name routes) ls.routes }

/-- Removes a language and the routes of its extensions; whether it was there. -/
def unregister (ls : Languages) (name : String) : Languages × Bool :=
  match ls.get? name with
  | none => (ls, false)
  | some language =>
    ({ list := ls.list.filter fun other => other.name ≠ name
       routes := ls.routes.filter fun route =>
         !(route.2 = name && (language.extensions.map Text.lower).contains route.1) }, true)

/-- The language of a path, by its extension. -/
def ofPath? (ls : Languages) (path : SourcePath) : Option Language :=
  ((ls.route? (Text.lower path.suffix)).filter fun name => name ≠ "").bind ls.get?

/-- The language of a path, which must have one. -/
def require (ls : Languages) (path : SourcePath) : Except Error Language :=
  match ls.ofPath? path with
  | some language => .ok language
  | none => .error (.unsupportedLanguage path.text)

/-- The language with a name, or else the first whose name or grammar is the name in
lowercase. -/
def byName? (ls : Languages) (name : String) : Option Language :=
  (ls.get? name).or (ls.list.find? fun language =>
    Text.lower language.name = Text.lower name || language.grammar = Text.lower name)

/-- Whether a path has an extension that is sent to a language. -/
def isSupported (ls : Languages) (path : SourcePath) : Bool :=
  (ls.route? (Text.lower path.suffix)).isSome

/-- The extensions that are sent to languages. -/
def extensions (ls : Languages) : List String := ls.routes.map (·.1)

/-- The patterns of all files with a language, sorted. -/
def globPatterns (ls : Languages) : List String :=
  (ls.extensions.map fun extension => "**/*" ++ extension).mergeSort fun a b => a ≤ b

/-- JavaScript, TypeScript and TSX. -/
def default : Languages where
  list := [.javascript, .typescript, .tsx]
  routes := [Language.javascript, .typescript, .tsx].flatMap fun language =>
    language.extensions.map fun extension => (extension, language.name)

/-- The language of a source: the one that is named, or else that of its path, or else
JavaScript. -/
def choose (ls : Languages) (path : Option String) (language : Option String) :
    Except Error Language :=
  match language.filter (· ≠ ""), path with
  | some name, _ =>
    match ls.byName? name with
    | some language => .ok language
    | none => .error (.unsupportedLanguage name)
  | none, some path => ls.require (.ofText path)
  | none, none =>
    match ls.byName? "javascript" with
    | some language => .ok language
    | none => .error .noMember

end Languages

end SingleUse
