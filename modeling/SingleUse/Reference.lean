import SingleUse.Registry

/-!
# References

A reference is an occurrence together with the binding it refers to, once that is known.  A
name is resolved along the chain of scopes around it, and if none of them declares it, to the
first binding of that name anywhere.  Only occurrences that use a variable are counted, and
those on the same bytes only once.
-/

namespace SingleUse

/-- An occurrence and what it refers to. -/
structure Reference extends Occurrence where
  binding : Option BindingKey := none
  /-- Whether the binding was found by name only. -/
  fallback : Bool := false

/-- What a name in a scope refers to, and whether it was found by name only. -/
def Registry.resolve (r : Registry) (scopes : ScopeTree) (name : String)
    (scope : Option ScopeKey) : Option (BindingKey × Bool) :=
  match r.lookup name ((scopes.chain scope).map some) with
  | some b => some (b.key, false)
  | none => (r.lookupByName name).map fun b => (b.key, true)

/-- The state of attribution: the bindings with the reads so far, and the bytes that have been
counted. -/
structure Attribution where
  registry : Registry
  counted : List Span := []

namespace Attribution

/-- Counts an occurrence for the binding that it refers to.  Bytes that have been counted are
passed over. -/
def visit (scopes : ScopeTree) (state : Attribution) (ref : Reference) :
    Attribution × Reference :=
  if state.counted.contains ref.span then (state, ref)
  else
    let counted := ref.span :: state.counted
    match state.registry.resolve scopes ref.name ref.scope with
    | none => ({ state with counted }, ref)
    | some (key, fallback) =>
      (⟨state.registry.modify key (·.count ref.toOccurrence fallback)
          (·.key_count ref.toOccurrence fallback), counted⟩,
        { ref with binding := some key, fallback })

/-- Visits, in order, the references that use a variable. -/
def run (scopes : ScopeTree) (state : Attribution) : List Reference → Attribution × List Reference
  | [] => (state, [])
  | ref :: rest =>
    let (state, ref) := if ref.role.counts then state.visit scopes ref else (state, ref)
    let (state, rest) := state.run scopes rest
    (state, ref :: rest)

end Attribution

/-- Attribution of references that are known by their numbers, so that what is found out about one
holds wherever it comes up again. -/
structure Walk where
  state : Attribution := ⟨{}, []⟩
  references : List Reference := []

namespace Walk

/-- Counts the reference with a number. -/
def visit (scopes : ScopeTree) (walk : Walk) (i : Nat) : Walk :=
  match walk.references[i]? with
  | none => walk
  | some ref =>
    let (state, ref) := walk.state.visit scopes ref
    ⟨state, walk.references.set i ref⟩

/-- Counts the reference with a number if it uses a variable. -/
def step (scopes : ScopeTree) (walk : Walk) (i : Nat) : Walk :=
  if walk.references[i]?.any (·.role.counts) then walk.visit scopes i else walk

/-- Goes, in order, through the references with some numbers. -/
def run (scopes : ScopeTree) (walk : Walk) (order : List Nat) : Walk :=
  order.foldl (step scopes) walk

end Walk

end SingleUse
