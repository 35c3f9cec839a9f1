import SingleUse.Proofs.Forests
import SingleUse.Proofs.Resolving
import SingleUse.Proofs.Writing

/-!
# Introducing names

Which names a node introduces, told by what the node is and by the parts that it has: the names of a
declarator's pattern, the name and the parameters of a function, the name of a class, what a `catch`
clause, the header of a loop or an import binds.  Each name has a *home*, the scope in which it is
introduced.  All names that are introduced are registered there, and hide those outside, except the
name of a class that is no plain identifier.
-/

namespace SingleUse

namespace Cursor

/-! ### Names of patterns -/

/-- The parts of a pattern that are patterns themselves.  Default values and the keys of properties
are none. -/
inductive HasPart (c part : Cursor) : Prop
  | member (htype : c.type ∈ [.objectPattern, .arrayPattern, .formalParameters, .restPattern])
    (hpart : part ∈ c.significantChildren)
  | value (htype : c.type = .pairPattern) (hpart : c.childByField .value = some part)
  /-- What has a default value stands to its left. -/
  | left (htype : c.type ∈ [.assignmentPattern, .objectAssignmentPattern])
    (hpart : c.childByField .left = some part)
  | pattern (htype : c.type ∈ [.requiredParameter, .optionalParameter])
    (hpart : c.childByField .pattern = some part)

/-- The names of a pattern. -/
inductive Names : Cursor → Cursor → Prop
  /-- An identifier names itself, and so does the shorthand for a property. -/
  | self {t : Cursor} (htype : t.type ∈ [.identifier, .shorthandPropertyIdentifierPattern]) :
    Names t t
  | part {c part t : Cursor} (hpart : c.HasPart part) (h : Names part t) : Names c t

theorem isTarget_iff {type : NodeType} :
  isTarget type ↔ type ∈ [.identifier, .shorthandPropertyIdentifierPattern]
  := by
  unfold isTarget
  split <;> simp_all

theorem mem_patternParts_iff {c part : Cursor} :
  part ∈ c.patternParts ↔ c.HasPart part
  := by
  constructor
  · intro hpart
    unfold patternParts at hpart
    split at hpart
    case h_5 htype => exact .value htype (Option.mem_toList.mp hpart)
    case h_6 htype => exact .left (by simp [htype]) (Option.mem_toList.mp hpart)
    case h_7 htype => exact .left (by simp [htype]) (Option.mem_toList.mp hpart)
    case h_8 htype => exact .pattern (by simp [htype]) (Option.mem_toList.mp hpart)
    case h_9 htype => exact .pattern (by simp [htype]) (Option.mem_toList.mp hpart)
    case h_10 => simp at hpart
    all_goals
      rename_i htype
      exact .member (by simp [htype]) hpart
  · intro hpart
    cases hpart with
    | member htype hpart =>
      simp only [List.mem_cons, List.not_mem_nil, or_false] at htype
      rcases htype with htype | htype | htype | htype <;> simpa [patternParts, htype] using hpart
    | value htype hpart => simp [patternParts, htype, hpart]
    | left htype hpart =>
      simp only [List.mem_cons, List.not_mem_nil, or_false] at htype
      rcases htype with htype | htype <;> simp [patternParts, htype, hpart]
    | pattern htype hpart =>
      simp only [List.mem_cons, List.not_mem_nil, or_false] at htype
      rcases htype with htype | htype <;> simp [patternParts, htype, hpart]

/-- A name has no parts. -/
theorem HasPart.not_isTarget {c part : Cursor} (h : c.HasPart part) :
  ¬ isTarget c.type
  := by
  intro htarget
  have hnone : c.patternParts = [] := by
    unfold isTarget at htarget
    split at htarget <;> simp_all [patternParts]
  have hpart := mem_patternParts_iff.mpr h
  simp [hnone] at hpart

/-- The names of a pattern are those that are listed. -/
theorem mem_targets_iff {c t : Cursor} :
  t ∈ c.targets ↔ c.Names t
  := by
  constructor
  · intro ht
    induction c using induction_on_children with
    | step c ih =>
      rw [targets_eq] at ht
      split at ht
      · rename_i htarget
        obtain rfl := List.mem_singleton.mp ht
        exact .self (isTarget_iff.mp htarget)
      · obtain ⟨part, hpart, ht⟩ := List.mem_flatMap.mp ht
        apply Names.part (mem_patternParts_iff.mp hpart)
        exact ih part (mem_children_of_mem_patternParts hpart) ht
  · intro hnames
    induction hnames with
    | self htype =>
      rw [targets_eq, if_pos (isTarget_iff.mpr htype)]
      apply List.mem_singleton_self
    | part hpart h ih =>
      rw [targets_eq, if_neg hpart.not_isTarget]
      exact List.mem_flatMap.mpr ⟨_, mem_patternParts_iff.mpr hpart, ih⟩

/-- The name of a single pattern is its only one. -/
theorem targets_of_single {c : Cursor} {pattern : SinglePattern}
    (htype : c.type ∈ [.arrayPattern, .objectPattern]) (h : c.single = some pattern) :
  c.targets = [pattern.target]
  := by
  have hnot : ¬ isTarget c.type := by
    rw [isTarget_iff]
    simp only [List.mem_cons, List.not_mem_nil, or_false] at htype
    rcases htype with htype | htype <;> simp [htype]
  have hparts : c.patternParts = c.significantChildren := by
    simp only [List.mem_cons, List.not_mem_nil, or_false] at htype
    rcases htype with htype | htype <;> simp [patternParts, htype]
  have hself : ∀ t : Cursor, isTarget t.type → t.targets = [t] := by
    intro t ht
    rw [targets_eq, if_pos ht]
  rw [targets_eq, if_neg hnot, hparts]
  unfold single at h
  split at h
  · rename_i element helement
    rw [helement, List.flatMap_singleton]
    split at h
    · split at h
      · rename_i hidentifier
        cases h
        apply hself
        rw [hidentifier, isTarget]
      · cases h
    · split at h
      · rename_i hshorthand
        cases h
        apply hself
        rw [hshorthand, isTarget]
      · rename_i hpair
        split at h
        · rename_i value key hvalue hkey
          split at h
          · rename_i hidentifier
            cases h
            rw [targets_eq, hpair, if_neg (by simp [isTarget]), patternParts, hpair]
            simp only [hvalue, Option.toList_some, List.flatMap_singleton]
            apply hself
            rw [hidentifier, isTarget]
          · cases h
        · cases h
      · cases h
  · cases h

/-! ### Names of imports -/

/-- Whether the identifiers just below a node of an import are names that it binds. -/
def bindsIdentifiers (c : Cursor) : Prop :=
  c.type ∈ [.importClause, .namespaceImport, .importRequireClause]

instance (c : Cursor) : Decidable c.bindsIdentifiers :=
  inferInstanceAs (Decidable (_ ∈ _))

/-- The names that a part of an import brings into scope. -/
inductive Brings : Cursor → Cursor → Prop
  /-- A specifier brings the name after `as`, or else the one name that it has. -/
  | specifier {c t : Cursor} (htype : c.type = .importSpecifier)
    (hname : (c.childByField .otherName).or (c.childByField .name) = some t)
    (hidentifier : t.type = .identifier) : Brings c t
  | identifier {c t : Cursor} (hbinds : c.bindsIdentifiers) (hchild : t ∈ c.namedChildren)
    (hidentifier : t.type = .identifier) : Brings c t
  | inside {c child t : Cursor} (htype : c.type ≠ .importSpecifier)
    (hchild : child ∈ c.namedChildren)
    (hother : ¬ (c.bindsIdentifiers ∧ child.type = .identifier)) (h : Brings child t) : Brings c t

/-- A specifier brings no other name than its own. -/
theorem brings_iff_of_specifier {c t : Cursor} (htype : c.type = .importSpecifier) :
  c.Brings t ↔ (c.childByField .otherName).or (c.childByField .name) = some t
    ∧ t.type = .identifier
  := by
  constructor
  · intro h
    cases h with
    | specifier _ hname hidentifier => exact ⟨hname, hidentifier⟩
    | identifier hbinds => simp [bindsIdentifiers, htype] at hbinds
    | inside hne => exact absurd htype hne
  · rintro ⟨hname, hidentifier⟩
    exact .specifier htype hname hidentifier

/-- What is no specifier brings the identifiers that it binds, and what the other parts bring. -/
theorem brings_iff_of_ne {c t : Cursor} (htype : c.type ≠ .importSpecifier) :
  c.Brings t ↔ ∃ child ∈ c.namedChildren,
    if c.bindsIdentifiers ∧ child.type = .identifier then child = t else child.Brings t
  := by
  constructor
  · intro h
    cases h with
    | specifier heq => exact absurd heq htype
    | identifier hbinds hchild hidentifier =>
      use t, hchild
      rw [if_pos ⟨hbinds, hidentifier⟩]
    | @inside _ child _ _ hchild hother h =>
      use child, hchild
      rwa [if_neg hother]
  · rintro ⟨child, hchild, h⟩
    split at h
    · rename_i hname
      subst h
      exact .identifier hname.1 hchild hname.2
    · rename_i hother
      exact .inside htype hchild hother h

/-- The identifiers that a part of an import binds are names, and its other parts are still to be
looked at. -/
theorem importedNames_cons {current : Cursor} (htype : current.type ≠ .importSpecifier) (n : Nat)
    (pending : List Cursor) :
  importedNames (n + 1) (current :: pending)
    = (current.namedChildren.filter fun child =>
        current.bindsIdentifiers ∧ child.type = .identifier)
      ++ importedNames n ((current.namedChildren.filter fun child =>
        ¬ (current.bindsIdentifiers ∧ child.type = .identifier)).reverse ++ pending)
  := by
  rw [importedNames, if_neg htype]
  simp only [List.partition_eq_filter_filter, bindsIdentifiers]
  split <;> simp_all [Function.comp_def]

/-- With a step for each node still to be looked at, all names that are brought are found. -/
theorem mem_importedNames_iff {t : Cursor} {n : Nat} :
  ∀ {pending : List Cursor}, (pending.map (·.focus.size)).sum ≤ n →
    (t ∈ importedNames n pending ↔ ∃ current ∈ pending, current.Brings t)
  := by
  induction n with
  | zero =>
    intro pending hn
    cases pending with
    | nil => simp [importedNames]
    | cons current rest =>
      have hpos := current.sum_size_children
      simp only [List.map_cons, List.sum_cons] at hn
      omega
  | succ n ih =>
    intro pending hn
    cases pending with
    | nil => simp [importedNames]
    | cons current rest =>
      have hsize := current.sum_size_children
      simp only [List.map_cons, List.sum_cons] at hn
      rw [List.exists_mem_cons_iff]
      by_cases htype : current.type = .importSpecifier
      · rw [brings_iff_of_specifier htype, importedNames, if_pos htype, List.mem_append,
          ih (by omega)]
        simp [Option.filter_eq_some_iff]
      · have hothers : ((current.namedChildren.filter fun child =>
            ¬ (current.bindsIdentifiers ∧ child.type = .identifier)).map (·.focus.size)).sum
              ≤ (current.children.map (·.focus.size)).sum := by
          apply List.Sublist.sum_le_sum
          · exact (List.filter_sublist.trans List.filter_sublist).map _
          · intros
            apply Nat.zero_le
        rw [brings_iff_of_ne htype, importedNames_cons htype, List.mem_append, ih]
        · simp only [List.mem_append, List.mem_reverse, List.mem_filter, decide_eq_true_eq,
            or_and_right, exists_or, ← or_assoc]
          apply or_congr_left
          constructor
          · rintro (⟨hchild, hname⟩ | ⟨child, ⟨hchild, hother⟩, h⟩)
            · exact ⟨t, hchild, by rw [if_pos hname]⟩
            · exact ⟨child, hchild, by rwa [if_neg hother]⟩
          · rintro ⟨child, hchild, h⟩
            split at h
            · rename_i hname
              subst h
              exact .inl ⟨hchild, hname⟩
            · rename_i hother
              exact .inr ⟨child, ⟨hchild, hother⟩, h⟩
        · rw [List.map_append, List.sum_append, List.map_reverse, List.sum_reverse]
          omega

/-- The names of an import are those that its parts bring. -/
theorem mem_imports_iff {c t : Cursor} :
  t ∈ c.imports ↔ ∃ child ∈ c.namedChildren, child.Brings t
  := by
  have hsublist : c.namedChildren.Sublist c.children := List.filter_sublist
  have hle := (hsublist.map (·.focus.size)).sum_le_sum fun _ _ => Nat.zero_le _
  have hsize := c.sum_size_children
  rw [imports, mem_importedNames_iff]
  · simp
  · rw [List.map_reverse, List.sum_reverse]
    omega

end Cursor

/-! ### What a node introduces -/

/-- Where a name that a node introduces is at home. -/
inductive Home where
  /-- In the scope inside the node. -/
  | governing
  /-- In the scope around the node. -/
  | enclosing
  /-- In the nearest scope of a function or of the program. -/
  | hoisting

/-- A name is hoisted if it is declared by `var`. -/
def Home.ofVar (isVar : Bool) : Home := if isVar then hoisting else governing

namespace Cursor

/-- The names that a node introduces, and where they are at home. -/
inductive Introduces (c : Cursor) : Home → Cursor → Prop
  | declarator {name t : Cursor} (hcategory : c.category = .declarator)
    (hname : c.childByField .name = some name)
    (htype : name.type ∈ [.identifier, .arrayPattern, .objectPattern]) (h : name.Names t) :
    Introduces c (.ofVar (c.parent.any fun statement => statement.type = .variableDeclaration)) t
  /-- The name of a function declaration belongs to the scope around it, that of a function
  expression to its own. -/
  | functionName {t : Cursor} (hcategory : c.category = .function)
    (hname : c.childByField .name = some t) (hidentifier : t.type = .identifier) :
    Introduces c
      (if c.type ∈ [.functionDeclaration, .generatorFunctionDeclaration] then .enclosing
        else .governing) t
  | parameter {list t : Cursor} (hcategory : c.category = .function)
    (hlist : (c.childByField .parameters).or (c.childByField .parameter) = some list)
    (h : list.Names t) : Introduces c .governing t
  | className {t : Cursor} (hcategory : c.category = .classLike)
    (hname : c.childByField .name = some t) : Introduces c .governing t
  | named {t : Cursor} (hcategory : c.category = .namedDeclaration)
    (htype : c.type ∈ [.enumDeclaration, .internalModule, .moduleDeclaration, .functionSignature])
    (hname : c.childByField .name = some t) (hidentifier : t.type = .identifier) :
    Introduces c .governing t
  | caught {pattern t : Cursor} (hcategory : c.category = .catchClause)
    (hpattern : c.childByField .parameter = some pattern) (h : pattern.Names t) :
    Introduces c .governing t
  | element {left kind t : Cursor} (hcategory : c.category = .loop)
    (htype : c.type = .forInStatement) (hleft : c.childByField .left = some left)
    (hkind : c.childByField .kind = some kind) (h : left.Names t) :
    Introduces c (.ofVar kind.isVar) t
  | imported {child t : Cursor} (hcategory : c.category = .importStatement)
    (hchild : child ∈ c.namedChildren) (h : child.Brings t) : Introduces c .governing t

/-- Whether a name is that of a class and no plain identifier. -/
def Overlooks (c t : Cursor) : Prop := c.category = .classLike ∧ t.type ≠ .identifier

instance (c t : Cursor) : Decidable (c.Overlooks t) :=
  inferInstanceAs (Decidable (_ ∧ _))

end Cursor

namespace Visit

variable {visit : Visit} {source : Bytes} {scopes : ScopeTree} {t : Cursor} {b : Binding}

/-- The scope in which a visited node introduces a name. -/
def scopeOf (visit : Visit) (scopes : ScopeTree) : Home → Option ScopeKey
  | .governing => visit.here.scope
  | .enclosing => visit.outer.or visit.here.scope
  | .hoisting => scopes.functionScope visit.here.scope

theorem scopeOf_ofVar {isVar : Bool} :
  visit.scopeOf scopes (.ofVar isVar)
    = if isVar then scopes.functionScope visit.here.scope else visit.here.scope
  := by
  cases isVar <;> rfl

/-- Whether a binding is that of a name in the scope in which a visited node introduces it. -/
def Binds (visit : Visit) (source : Bytes) (scopes : ScopeTree) (home : Home) (t : Cursor)
    (b : Binding) : Prop :=
  b.target = some t ∧ b.key = ⟨t.text source, visit.scopeOf scopes home⟩

theorem scopeOf_functionName :
  visit.scopeOf scopes
      (if visit.node.type ∈ [.functionDeclaration, .generatorFunctionDeclaration] then .enclosing
        else .governing)
    = match visit.node.type with
      | .functionDeclaration | .generatorFunctionDeclaration => visit.outer.or visit.here.scope
      | _ => visit.here.scope
  := by
  split
  · rename_i htype
    simp only [List.mem_cons, List.not_mem_nil, or_false] at htype
    rcases htype with htype | htype <;> rw [htype] <;> rfl
  · split <;> simp_all [scopeOf]

theorem binds_binding {home : Home} {scope : Option ScopeKey} {origin : Origin}
    (hscope : visit.scopeOf scopes home = scope) :
  visit.Binds source scopes home t (visit.binding source t scope origin)
  := by
  rw [Binds, hscope]
  exact ⟨rfl, rfl⟩

/-- A declarator binds the names of its pattern. -/
theorem map_declaratorBindings (source : Bytes) (scopes : ScopeTree) {name : Cursor}
    (hname : visit.node.childByField .name = some name) :
  (visit.declaratorBindings source scopes).map (fun b => (b.target, b.key))
    = if name.type ∈ [.identifier, .arrayPattern, .objectPattern] then
        name.targets.map fun t => (some t, ⟨t.text source, visit.scopeOf scopes (.ofVar
          (visit.node.parent.any fun statement => statement.type = .variableDeclaration))⟩)
      else []
  := by
  simp only [declaratorBindings, hname, scopeOf_ofVar]
  split
  case h_1 htype =>
    rw [Cursor.targets_eq]
    simp [htype, Cursor.isTarget, binding, Binding.key]
  case h_4 => simp_all
  all_goals
    rename_i htype
    have hpattern : name.type ∈ [.identifier, .arrayPattern, .objectPattern] := by simp [htype]
    rw [if_pos hpattern]
    split
    · rename_i pattern hsingle
      rw [Cursor.targets_of_single (by simp [htype]) hsingle]
      rfl
    · rw [List.map_map]
      rfl

theorem ownName_eq_some_iff {c : Cursor} :
  c.ownName = some t ↔ c.childByField .name = some t ∧ t.type = .identifier
  := by
  simp [Cursor.ownName, Option.filter_eq_some_iff]

theorem not_overlooks_of_category {c : Cursor} (h : c.category ≠ .classLike) :
  ¬ c.Overlooks t
  := fun hoverlooks => h hoverlooks.1

/-- What is declared at a visit is introduced by its node. -/
theorem exists_introduces_of_mem_bindings (hb : b ∈ visit.bindings source scopes) :
  ∃ home t, visit.node.Introduces home t ∧ ¬ visit.node.Overlooks t
    ∧ visit.Binds source scopes home t b
  := by
  simp only [bindings] at hb
  split at hb
  case h_1 hcategory =>
    have hmem := List.mem_map_of_mem (f := fun b => (b.target, b.key)) hb
    cases hname : visit.node.childByField .name with
    | none => simp [declaratorBindings, hname] at hb
    | some name =>
      rw [map_declaratorBindings source scopes hname] at hmem
      split at hmem
      · rename_i htype
        obtain ⟨t, ht, heq⟩ := List.mem_map.mp hmem
        obtain ⟨htarget, hkey⟩ := Prod.mk.inj heq
        exact ⟨_, t, .declarator hcategory hname htype (Cursor.mem_targets_iff.mp ht),
          not_overlooks_of_category (by simp [hcategory]), htarget.symm, hkey.symm⟩
      · simp at hmem
  case h_2 hcategory =>
    have hplain : ∀ t, ¬ visit.node.Overlooks t :=
      fun t => not_overlooks_of_category (by simp [hcategory])
    rcases List.mem_append.mp hb with hb | hb
    · obtain ⟨t, ht, rfl⟩ := List.mem_map.mp hb
      obtain ⟨hname, hidentifier⟩ := ownName_eq_some_iff.mp (Option.mem_toList.mp ht)
      exact ⟨_, t, .functionName hcategory hname hidentifier, hplain t,
        binds_binding scopeOf_functionName⟩
    · obtain ⟨t, ht, rfl⟩ := List.mem_map.mp hb
      obtain ⟨list, hlist, ht⟩ := List.mem_flatMap.mp ht
      exact ⟨_, t, .parameter hcategory (Option.mem_toList.mp hlist) (Cursor.mem_targets_iff.mp ht),
        hplain t, binds_binding rfl⟩
  case h_3 hcategory =>
    obtain ⟨t, ht, rfl⟩ := List.mem_map.mp hb
    obtain ⟨hname, hidentifier⟩ := ownName_eq_some_iff.mp (Option.mem_toList.mp ht)
    exact ⟨_, t, .className hcategory hname, fun h => h.2 hidentifier, binds_binding rfl⟩
  case h_4 hcategory =>
    split at hb
    · rename_i origin horigin
      obtain ⟨t, ht, rfl⟩ := List.mem_map.mp hb
      obtain ⟨hname, hidentifier⟩ := ownName_eq_some_iff.mp (Option.mem_toList.mp ht)
      have htype : visit.node.type
          ∈ [.enumDeclaration, .internalModule, .moduleDeclaration, .functionSignature] := by
        unfold namedOrigin at horigin
        split at horigin <;> simp_all
      exact ⟨_, t, .named hcategory htype hname hidentifier,
        not_overlooks_of_category (by simp [hcategory]), binds_binding rfl⟩
    · simp at hb
  case h_5 hcategory =>
    obtain ⟨t, ht, rfl⟩ := List.mem_map.mp hb
    obtain ⟨pattern, hpattern, ht⟩ := List.mem_flatMap.mp ht
    exact ⟨_, t, .caught hcategory (Option.mem_toList.mp hpattern) (Cursor.mem_targets_iff.mp ht),
      not_overlooks_of_category (by simp [hcategory]), binds_binding rfl⟩
  case h_6 hcategory =>
    split at hb
    · simp at hb
    · rename_i htype
      split at hb
      · rename_i left kind hleft hkind
        obtain ⟨t, ht, rfl⟩ := List.mem_map.mp hb
        exact ⟨_, t, .element hcategory (not_not.mp htype) hleft hkind
          (Cursor.mem_targets_iff.mp ht), not_overlooks_of_category (by simp [hcategory]),
          binds_binding scopeOf_ofVar⟩
      · simp at hb
  case h_7 hcategory =>
    obtain ⟨t, ht, rfl⟩ := List.mem_map.mp hb
    obtain ⟨child, hchild, h⟩ := Cursor.mem_imports_iff.mp ht
    exact ⟨_, t, .imported hcategory hchild h, not_overlooks_of_category (by simp [hcategory]),
      binds_binding rfl⟩
  case h_8 => simp at hb

/-- What a node introduces is declared at its visit. -/
theorem exists_mem_bindings_of_introduces (visit : Visit) (source : Bytes) (scopes : ScopeTree)
    {home : Home} (h : visit.node.Introduces home t) (hplain : ¬ visit.node.Overlooks t) :
  ∃ b ∈ visit.bindings source scopes, visit.Binds source scopes home t b
  := by
  cases h with
  | declarator hcategory hname htype h =>
    have hmem := List.mem_map_of_mem (f := fun t => ((some t : Option Cursor),
      (⟨t.text source, visit.scopeOf scopes (.ofVar (visit.node.parent.any fun statement =>
        statement.type = .variableDeclaration))⟩ : BindingKey))) (Cursor.mem_targets_iff.mpr h)
    have hmap := map_declaratorBindings source scopes hname
    rw [if_pos htype] at hmap
    rw [← hmap] at hmem
    obtain ⟨b, hb, heq⟩ := List.mem_map.mp hmem
    obtain ⟨htarget, hkey⟩ := Prod.mk.inj heq
    exact ⟨b, by simpa [bindings, hcategory] using hb, htarget, hkey⟩
  | functionName hcategory hname hidentifier =>
    refine ⟨visit.binding source t _ .function, ?_, binds_binding scopeOf_functionName⟩
    simp only [bindings, hcategory, functionBindings]
    apply List.mem_append_left
    rw [ownName_eq_some_iff.mpr ⟨hname, hidentifier⟩]
    exact List.mem_singleton_self _
  | parameter hcategory hlist h =>
    refine ⟨visit.binding source t visit.here.scope .parameter, ?_, binds_binding rfl⟩
    simp only [bindings, hcategory, functionBindings]
    apply List.mem_append_right
    apply List.mem_map_of_mem
    exact List.mem_flatMap.mpr ⟨_, Option.mem_toList.mpr hlist, Cursor.mem_targets_iff.mpr h⟩
  | className hcategory hname =>
    have hidentifier : t.type = .identifier := by
      by_contra hother
      exact hplain ⟨hcategory, hother⟩
    refine ⟨visit.binding source t visit.here.scope .classLike, ?_, binds_binding rfl⟩
    simp [bindings, hcategory, ownName_eq_some_iff.mpr ⟨hname, hidentifier⟩]
  | named hcategory htype hname hidentifier =>
    obtain ⟨origin, horigin⟩ : ∃ origin, namedOrigin visit.node.type = some origin := by
      simp only [List.mem_cons, List.not_mem_nil, or_false] at htype
      rcases htype with htype | htype | htype | htype <;> simp [htype, namedOrigin]
    refine ⟨visit.binding source t visit.here.scope origin, ?_, binds_binding rfl⟩
    simp [bindings, hcategory, horigin, ownName_eq_some_iff.mpr ⟨hname, hidentifier⟩]
  | caught hcategory hpattern h =>
    refine ⟨visit.binding source t visit.here.scope .catchClause, ?_, binds_binding rfl⟩
    simp only [bindings, hcategory]
    apply List.mem_map_of_mem
    exact List.mem_flatMap.mpr ⟨_, Option.mem_toList.mpr hpattern, Cursor.mem_targets_iff.mpr h⟩
  | element hcategory htype hleft hkind h =>
    refine ⟨visit.binding source t _ .loopVariable, ?_, binds_binding scopeOf_ofVar⟩
    simp only [bindings, hcategory, htype, hleft, hkind]
    exact List.mem_map_of_mem (Cursor.mem_targets_iff.mpr h)
  | imported hcategory hchild h =>
    refine ⟨visit.binding source t visit.here.scope .importStatement, ?_, binds_binding rfl⟩
    simp only [bindings, hcategory]
    exact List.mem_map_of_mem (Cursor.mem_imports_iff.mpr ⟨_, hchild, h⟩)

end Visit

/-! ### Scopes of places -/

namespace Cursor

/-- The scope inside a place: that of its nearest ancestor that opens one. -/
def governing (c : Cursor) : Option ScopeKey := (c.ancestors.find? opensScope).map .ofNode

/-- The scope around a place: that inside the place above. -/
def enclosing (c : Cursor) : Option ScopeKey := c.parent.bind governing

end Cursor

/-- The scope of a name at home that is introduced at a place: the nearest one of a function or the
program if it is hoisted, provided there is one. -/
def Home.scope (scopes : ScopeTree) (c : Cursor) : Home → Option ScopeKey
  | governing => c.governing
  | enclosing => c.enclosing.or c.governing
  | hoisting => ((scopes.chain c.governing).find? scopes.hoistsAt).or c.governing

theorem Visit.scope_here_at (typeContexts : List NodeType) (c : Cursor) :
  (Visit.at typeContexts c).here.scope = c.governing
  := by
  rw [here_at, Surroundings.scope_inside, Cursor.governing]

theorem Visit.outer_at (typeContexts : List NodeType) (c : Cursor) :
  (Visit.at typeContexts c).outer = c.enclosing
  := by
  change (Surroundings.around typeContexts c).scope = _
  rw [Surroundings.around, Cursor.enclosing]
  cases c.parent with
  | none => rfl
  | some up => exact Surroundings.scope_inside

namespace ScopeTree

variable {source : Bytes} {tree : Tree} {typeContexts : List NodeType} {c : Cursor}

/-- The scopes from a visited place outward are open. -/
theorem chain_governing_subset (hc : c ∈ (Cursor.root tree).visited) :
  (ofVisits source (tree.traverse typeContexts)).chain c.governing
    ⊆ (ofVisits source (tree.traverse typeContexts)).keys
  := by
  cases hkey : c.governing with
  | none =>
    rw [chain_none]
    apply List.nil_subset
  | some key =>
    have hvisit : Visit.at typeContexts c ∈ tree.traverse typeContexts := by
      rw [Tree.traverse_eq]
      exact List.mem_map_of_mem hc
    obtain ⟨before, after, hvisits⟩ := List.append_of_mem hvisit
    have hopen : key ∈ (ofVisits source (before ++ [.at typeContexts c])).keys :=
      mem_keys_ofVisits hvisits ((Visit.scope_here_at typeContexts c).trans hkey)
    have hfirst := scopes_ofVisits_isPrefix source (before ++ [.at typeContexts c]) after
    rw [List.append_assoc, List.singleton_append, ← hvisits] at hfirst
    apply (forest_ofVisits source tree typeContexts).chain_subset_keys
    exact (hfirst.map (·.key)).subset hopen

/-- The scope in which a visited node introduces a name is told by its place. -/
theorem scopeOf_at (hc : c ∈ (Cursor.root tree).visited) (home : Home) :
  (Visit.at typeContexts c).scopeOf (ofVisits source (tree.traverse typeContexts)) home
    = home.scope (ofVisits source (tree.traverse typeContexts)) c
  := by
  cases home with
  | governing => exact Visit.scope_here_at typeContexts c
  | enclosing =>
    rw [Visit.scopeOf, Visit.outer_at, Visit.scope_here_at]
    rfl
  | hoisting =>
    rw [Visit.scopeOf, Visit.scope_here_at, functionScope, functionScope?,
      hoistingKey?_eq (chain_governing_subset hc)]
    rfl

/-- The key of a place that opens a scope alone is that of a function or the program if the place
is. -/
theorem hoistsAt_ofNode (hc : c ∈ (Cursor.root tree).visited) (hopens : c.opensScope)
    (halone : c.OpensAlone tree) :
  (ofVisits source (tree.traverse typeContexts)).hoistsAt (.ofNode c) = c.hoists
  := by
  rw [hoistsAt, get?_ofNode hc hopens halone]
  change (c.scopeKind.map _).any _ = c.scopeKind.any _
  rw [Option.any_map]

end ScopeTree

/-- If no two places open scopes with the same key, a hoisted name belongs to its nearest ancestor
that opens the scope of a function or of the program. -/
theorem Tree.DistinctScopes.scope_hoisting {tree : Tree} (h : tree.DistinctScopes) {c : Cursor}
    (hc : c ∈ (Cursor.root tree).visited) (source : Bytes) (typeContexts : List NodeType) :
  Home.hoisting.scope (.ofVisits source (tree.traverse typeContexts)) c
    = ((c.ancestors.find? Cursor.hoists).map .ofNode).or c.governing
  := by
  have hchain := h.chain_inside hc source typeContexts
  rw [Surroundings.scope_inside, ← Cursor.governing] at hchain
  have hkind : ∀ up ∈ c.ancestors,
      (up.opensScope && (ScopeTree.ofVisits source (tree.traverse typeContexts)).hoistsAt
        (.ofNode up)) = up.hoists := by
    intro up hup
    have hvisited := Cursor.mem_visited_of_mem_ancestors hc hup
    cases hopens : up.opensScope with
    | true =>
      rw [Bool.true_and]
      exact ScopeTree.hoistsAt_ofNode hvisited hopens (h.opensAlone hvisited hopens)
    | false =>
      have hnone : up.scopeKind = none := by simpa [Cursor.opensScope] using hopens
      rw [Bool.false_and, Cursor.hoists, hnone, Option.any_none]
  have hfind : (c.ancestors.find? fun up => up.opensScope
      && (ScopeTree.ofVisits source (tree.traverse typeContexts)).hoistsAt (.ofNode up))
        = c.ancestors.find? Cursor.hoists := by
    rw [← List.head?_filter, ← List.head?_filter, List.filter_congr hkind]
  rw [Home.scope, hchain, Cursor.scopeKeys, List.find?_map, List.find?_filter]
  simp only [Function.comp_apply, Bool.decide_and, Bool.decide_eq_true, hfind]

/-! ### Introduced names in the registry -/

namespace Tree

variable {tree : Tree} {source : Bytes} {typeContexts : List NodeType}

/-- What is declared in a tree is introduced by a visited node. -/
theorem exists_introduces_of_mem_declared {b : Binding}
    (hb : b ∈ tree.declared source typeContexts) :
  ∃ c ∈ (Cursor.root tree).visited, ∃ home t, c.Introduces home t ∧ ¬ c.Overlooks t
    ∧ b.target = some t
    ∧ b.key = ⟨t.text source, home.scope (.ofVisits source (tree.traverse typeContexts)) c⟩
  := by
  obtain ⟨visit, hvisit, hb⟩ := mem_declared.mp hb
  rw [traverse_eq] at hvisit
  obtain ⟨c, hc, rfl⟩ := List.mem_map.mp hvisit
  obtain ⟨home, t, hintroduces, hplain, htarget, hkey⟩ := Visit.exists_introduces_of_mem_bindings hb
  rw [ScopeTree.scopeOf_at hc] at hkey
  exact ⟨c, hc, home, t, hintroduces, hplain, htarget, hkey⟩

/-- What a visited node introduces is declared in the tree. -/
theorem exists_mem_declared_of_introduces {c : Cursor} (hc : c ∈ (Cursor.root tree).visited)
    {home : Home} {t : Cursor} (hintroduces : c.Introduces home t) (hplain : ¬ c.Overlooks t) :
  ∃ b ∈ tree.declared source typeContexts, b.target = some t
    ∧ b.key = ⟨t.text source, home.scope (.ofVisits source (tree.traverse typeContexts)) c⟩
  := by
  obtain ⟨b, hb, htarget, hkey⟩ := Visit.exists_mem_bindings_of_introduces (.at typeContexts c)
    source (.ofVisits source (tree.traverse typeContexts)) hintroduces hplain
  rw [ScopeTree.scopeOf_at hc] at hkey
  refine ⟨b, mem_declared.mpr ⟨.at typeContexts c, ?_, hb⟩, htarget, hkey⟩
  rw [traverse_eq]
  exact List.mem_map_of_mem hc

end Tree

/-- A registered name hides what lies outside its scope: from every scope inside, the name refers
to what is declared there or nearer. -/
theorem Registry.exists_resolve_of_mem_keys {r : Registry} {scopes : ScopeTree} {name : String}
    {k : ScopeKey} (hk : ⟨name, some k⟩ ∈ r.keys) {scope : Option ScopeKey}
    {before after : List ScopeKey} (hchain : scopes.chain scope = before ++ k :: after) :
  ∃ inner ∈ before ++ [k], r.resolve scopes name scope = some (⟨name, some inner⟩, false)
  := by
  have hfound : ((before ++ [k]).find? fun k => ⟨name, some k⟩ ∈ r.keys).isSome := by
    rw [List.find?_isSome]
    exact ⟨k, by simp, by simpa using hk⟩
  obtain ⟨inner, hinner⟩ := Option.isSome_iff_exists.mp hfound
  use inner, List.mem_of_find?_eq_some hinner
  apply resolve_of_find?
  rw [hchain, List.append_cons, List.find?_append, hinner, Option.some_or]

namespace Analysis

variable {source : Bytes} {tree : Tree} {typeContexts : List NodeType} {options : RuleOptions}
  {a : Analysis}

/-- The keys of the registry are those of the declarations. -/
theorem mem_keys_iff (h : ofTree source tree typeContexts options = .ok a) {key : BindingKey} :
  key ∈ a.registry.keys ↔ ∃ b ∈ tree.declared source typeContexts, b.key = key
  := by
  obtain ⟨-, -, r, hholds, hregistry, -⟩ := ofTree_inv h
  rw [hregistry, Attribution.keys_run fresh_of_mem_collected, hholds.complete, List.mem_map]

/-- What is registered are the names that visited nodes introduce, except for overlooked ones. -/
theorem mem_keys_iff_introduces (h : ofTree source tree typeContexts options = .ok a)
    {key : BindingKey} :
  key ∈ a.registry.keys
    ↔ ∃ c ∈ (Cursor.root tree).visited, ∃ home t, c.Introduces home t ∧ ¬ c.Overlooks t
      ∧ key = ⟨t.text source, home.scope a.scopes c⟩
  := by
  rw [mem_keys_iff h, (ofTree_inv h).2.1]
  constructor
  · rintro ⟨b, hb, rfl⟩
    obtain ⟨c, hc, home, t, hintroduces, hplain, -, hkey⟩ :=
      Tree.exists_introduces_of_mem_declared hb
    exact ⟨c, hc, home, t, hintroduces, hplain, hkey⟩
  · rintro ⟨c, hc, home, t, hintroduces, hplain, rfl⟩
    obtain ⟨b, hb, -, hkey⟩ := Tree.exists_mem_declared_of_introduces hc hintroduces hplain
    exact ⟨b, hb, hkey⟩

/-- What is registered are the names that visited nodes introduce, each in the scope where it is at
home, except for names of classes that are overlooked.  From every scope inside that one the name
refers to what is declared there or nearer. -/
theorem registered_iff_introduces (h : ofTree source tree typeContexts options = .ok a) :
  (∀ key, (a.registry.get? key).isSome
      ↔ ∃ c ∈ (Cursor.root tree).visited, ∃ home t, c.Introduces home t ∧ ¬ c.Overlooks t
        ∧ key = ⟨t.text source, home.scope a.scopes c⟩)
    ∧ (∀ c ∈ (Cursor.root tree).visited, ∀ home t, c.Introduces home t → ¬ c.Overlooks t →
      ∀ k, home.scope a.scopes c = some k →
        ∀ scope before after, a.scopes.chain scope = before ++ k :: after →
          ∃ inner ∈ before ++ [k], a.registry.resolve a.scopes (t.text source) scope
            = some (⟨t.text source, some inner⟩, false))
    ∧ (tree.DistinctScopes → ∀ c ∈ (Cursor.root tree).visited, Home.hoisting.scope a.scopes c
      = ((c.ancestors.find? Cursor.hoists).map .ofNode).or c.governing)
  := by
  refine ⟨?_, ?_, ?_⟩
  · intro key
    rw [Registry.get?_isSome, mem_keys_iff_introduces h]
  · intro c hc home t hintroduces hplain k hk scope before after hchain
    apply Registry.exists_resolve_of_mem_keys _ hchain
    exact (mem_keys_iff_introduces h).mpr ⟨c, hc, home, t, hintroduces, hplain, by rw [hk]⟩
  · intro hdistinct c hc
    rw [(ofTree_inv h).2.1, hdistinct.scope_hoisting hc]

/-- The source `function f() \x7b \x7b var y; \x7d class A \x7b \x7d \x7d`, where the class has the
name of a type. -/
def overlooked : Bytes × Tree where
  fst := Utf8.encode "function f() \x7b \x7b var y; \x7d class A \x7b \x7d \x7d"
  snd :=
    .named .program 0 39 none
      [.named .functionDeclaration 0 39 none
        [.named .identifier 9 10 (some .name) [],
        .named .formalParameters 10 12 (some .parameters) [],
        .named .statementBlock 13 39 (some .body)
          [.named .statementBlock 15 25 none
            [.named .variableDeclaration 17 23 none
              [.named .variableDeclarator 21 22 none [.named .identifier 21 22 (some .name) []]]],
          .named .classDeclaration 26 37 none
            [.named (.other "type_identifier") 32 33 (some .name) [],
            .named (.other "class_body") 34 37 (some .body) []]]]]

/-- The function belongs to the program and the variable to the function, but the class is not
registered. -/
theorem registered_iff_introduces_overlooked :
  ∃ a, ofTree overlooked.1 overlooked.2 [] {} = .ok a ∧ overlooked.2.DistinctScopes
    ∧ a.registry.keys = [⟨"f", some ⟨0, 39, .program⟩⟩, ⟨"y", some ⟨0, 39, .functionDeclaration⟩⟩]
    ∧ (∃ c ∈ (Cursor.root overlooked.2).visited, ∃ t, c.Introduces .governing t
      ∧ c.Overlooks t ∧ t.text overlooked.1 = "A")
    ∧ (∀ key, (a.registry.get? key).isSome
      ↔ ∃ c ∈ (Cursor.root overlooked.2).visited, ∃ home t, c.Introduces home t ∧ ¬ c.Overlooks t
        ∧ key = ⟨t.text overlooked.1, home.scope a.scopes c⟩)
    ∧ (∀ c ∈ (Cursor.root overlooked.2).visited, ∀ home t, c.Introduces home t → ¬ c.Overlooks t →
      ∀ k, home.scope a.scopes c = some k →
        ∀ scope before after, a.scopes.chain scope = before ++ k :: after →
          ∃ inner ∈ before ++ [k], a.registry.resolve a.scopes (t.text overlooked.1) scope
            = some (⟨t.text overlooked.1, some inner⟩, false))
    ∧ ∀ c ∈ (Cursor.root overlooked.2).visited, Home.hoisting.scope a.scopes c
      = ((c.ancestors.find? Cursor.hoists).map .ofNode).or c.governing
  := by
  have hdistinct : overlooked.2.DistinctScopes := by
    decide +kernel
  have hclass : ∃ c ∈ (Cursor.root overlooked.2).visited, c.category = .classLike
      ∧ ∃ t ∈ c.childByField .name, c.Overlooks t ∧ t.text overlooked.1 = "A" := by
    decide +kernel
  have hany : (ofTree overlooked.1 overlooked.2 [] {}).toOption.any fun a =>
      a.registry.keys
        = [⟨"f", some ⟨0, 39, .program⟩⟩, ⟨"y", some ⟨0, 39, .functionDeclaration⟩⟩] := by
    decide +kernel
  obtain ⟨c, hc, hcategory, t, hname, hoverlooks, htext⟩ := hclass
  obtain ⟨a, ha, hkeys⟩ := exists_ok_of_any hany
  obtain ⟨hregistered, hhides, hhoists⟩ := registered_iff_introduces ha
  exact ⟨a, ha, hdistinct, of_decide_eq_true hkeys,
    ⟨c, hc, t, .className hcategory hname, hoverlooks, htext⟩, hregistered, hhides,
    hhoists hdistinct⟩

end Analysis

end SingleUse
