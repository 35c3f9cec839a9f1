import SingleUse.Proofs.Visiting

/-!
# Marking

What is marked when a place is visited.  The marks at a visit are those of the events before it, and
the role of an identifier depends on them: what counts is which names have been declared, which bytes
have been assigned to, and which are not worth recording.  So the references of a tree can be told
place by place, and no two of them stand at the same place.
-/

namespace SingleUse

/-! ### Events -/

/-- The name that an event declares. -/
def Event.declared? : Event → Option (Span × BindingKey)
  | .declare b => b.target.map fun target => (target.span, b.key)
  | _ => none

/-- The bytes that an event marks as assigned to. -/
def Event.assigned? : Event → Option Span
  | .assign span => some span
  | _ => none

/-- The bytes that an event marks as not worth recording. -/
def Event.ignored? : Event → Option Span
  | .ignore span => some span
  | _ => none

/-- The place at which an identifier occurs in an event. -/
def Event.occurring? : Event → Option Cursor
  | .occur visit => some visit.node
  | _ => none

namespace Visit

variable {visit : Visit} {source : Bytes} {scopes : ScopeTree} {span : Span}

theorem assign_mem_events :
  .assign span ∈ visit.events source scopes ↔ span ∈ visit.node.assigned
  := by
  simp [events]

theorem ignore_mem_events :
  .ignore span ∈ visit.events source scopes ↔ span ∈ visit.node.ignored
  := by
  simp [events]

theorem declare_mem_events {b : Binding} :
  .declare b ∈ visit.events source scopes ↔ b ∈ visit.bindings source scopes
  := by
  simp [events]

/-- All that happens at an identifier is that it occurs. -/
theorem events_of_identifier (h : visit.node.category = .identifier) :
  visit.events source scopes = [.occur visit]
  := by
  simp [events, bindings, Cursor.ignored, Cursor.assigned, h]

/-- An identifier occurs at no other visit than its own. -/
theorem filterMap_occurring?_events :
  (visit.events source scopes).filterMap Event.occurring?
    = if visit.node.category = .identifier then [visit.node] else []
  := by
  have hdeclare : ∀ b, Event.occurring? (.declare b) = none := fun _ => rfl
  have hassign : ∀ span, Event.occurring? (.assign span) = none := fun _ => rfl
  have hignore : ∀ span, Event.occurring? (.ignore span) = none := fun _ => rfl
  simp only [events, List.filterMap_append, List.filterMap_map, Function.comp_def, hdeclare,
    hassign, hignore]
  split <;> simp [Event.occurring?]

end Visit

/-! ### Marks -/

namespace Marks

/-- The marks after several events. -/
def afterAll (marks : Marks) (events : List Event) : Marks := events.foldl after marks

/-- The events are marked one after the other, the last of them first. -/
theorem afterAll_eq (marks : Marks) (events : List Event) :
  marks.afterAll events
    = { declared := (events.filterMap Event.declared?).reverse ++ marks.declared
        assigned := (events.filterMap Event.assigned?).reverse ++ marks.assigned
        ignored := (events.filterMap Event.ignored?).reverse ++ marks.ignored }
  := by
  induction events generalizing marks with
  | nil => rfl
  | cons event rest ih =>
    rw [afterAll, List.foldl_cons, ← afterAll, ih]
    cases event with
    | declare b =>
      cases htarget : b.target <;>
        simp [after, htarget, Event.declared?, Event.assigned?, Event.ignored?, List.filterMap_cons]
    | assign span =>
      simp [after, Event.declared?, Event.assigned?, Event.ignored?, List.filterMap_cons]
    | ignore span =>
      simp [after, Event.declared?, Event.assigned?, Event.ignored?, List.filterMap_cons]
    | occur visit =>
      simp [after, Event.declared?, Event.assigned?, Event.ignored?, List.filterMap_cons]

/-- A name whose bytes are assigned to, and are marked as nothing else, is an assignment target. -/
theorem role?_of_assigned {marks : Marks} {source : Bytes} {visit : Visit}
    (htarget : Cursor.isTarget visit.node.type) (hvalue : visit.here.typeMode ≠ .type)
    (hassigned : visit.node.span ∈ marks.assigned) (hignored : visit.node.span ∉ marks.ignored)
    (hdeclared : ∀ entry ∈ marks.declared, entry.1 ≠ visit.node.span) :
  marks.role? source visit = some .assignmentTarget
  := by
  have hnone : marks.declaredAt? visit.node.span = none := by
    rw [declaredAt?, Option.map_eq_none_iff, List.find?_eq_none]
    simpa using hdeclared
  unfold Cursor.isTarget at htarget
  split at htarget
  case h_3 => cases htarget
  all_goals
    rename_i htype
    simp [role?, hnone, htype, hvalue, hassigned, hignored]

end Marks

/-- The references in the course of some events and of more events after them. -/
theorem collectReferences_append (source : Bytes) (before after : List Event) :
  ∀ marks : Marks, collectReferences source marks (before ++ after)
    = collectReferences source marks before
      ++ collectReferences source (marks.afterAll before) after
  := by
  induction before with
  | nil =>
    intro marks
    rfl
  | cons event rest ih =>
    intro marks
    simp only [List.cons_append, collectReferences, ih, List.append_assoc]
    rfl

/-- The places of the references are places at which identifiers occur. -/
theorem nodes_collectReferences_sublist (source : Bytes) (events : List Event) :
  ∀ marks : Marks, ((collectReferences source marks events).map (·.node)).Sublist
    (events.filterMap Event.occurring?)
  := by
  induction events with
  | nil =>
    intro marks
    exact List.nil_sublist _
  | cons event rest ih =>
    intro marks
    simp only [collectReferences, List.map_append]
    cases event with
    | occur visit =>
      have hevents : (Event.occur visit :: rest).filterMap Event.occurring?
          = [visit.node] ++ rest.filterMap Event.occurring? := rfl
      rw [hevents]
      apply List.Sublist.append _ (ih _)
      dsimp only
      cases href : marks.reference? source visit with
      | none => exact List.nil_sublist _
      | some ref =>
        have hnode : ref.node = visit.node :=
          congrArg Occurrence.node (Marks.reference?_inv href).1
        rw [Option.toList_some, List.map_singleton, hnode]
    | declare b => exact ih _
    | assign span => exact ih _
    | ignore span => exact ih _

/-! ### Marks at a visit -/

namespace Tree

variable {tree : Tree} {source : Bytes} {typeContexts : List NodeType}

/-- The events of the visits of some places. -/
def eventsAt (tree : Tree) (source : Bytes) (typeContexts : List NodeType)
    (places : List Cursor) : List Event :=
  places.flatMap fun c =>
    (Visit.at typeContexts c).events source (.ofVisits source (tree.traverse typeContexts))

theorem events_eq (tree : Tree) (source : Bytes) (typeContexts : List NodeType) :
  tree.events source typeContexts = tree.eventsAt source typeContexts (Cursor.root tree).visited
  := by
  rw [events, eventsAt, traverse_eq, List.flatMap_map]

/-- The marks after the visits of some places. -/
def marksAfter (tree : Tree) (source : Bytes) (typeContexts : List NodeType)
    (places : List Cursor) : Marks :=
  Marks.afterAll {} (tree.eventsAt source typeContexts places)

/-- Whether a name is declared on some bytes. -/
def Declares (tree : Tree) (source : Bytes) (typeContexts : List NodeType) (span : Span) : Prop :=
  ∃ b ∈ tree.declared source typeContexts, b.target.map (·.span) = some span

instance (tree : Tree) (source : Bytes) (typeContexts : List NodeType) (span : Span) :
    Decidable (tree.Declares source typeContexts span) :=
  inferInstanceAs (Decidable (∃ b ∈ tree.declared source typeContexts, _))

/-- Whether some bytes are not worth recording. -/
def Ignores (tree : Tree) (span : Span) : Prop :=
  ∃ c ∈ (Cursor.root tree).visited, span ∈ c.ignored

instance (tree : Tree) (span : Span) : Decidable (tree.Ignores span) :=
  inferInstanceAs (Decidable (∃ c ∈ (Cursor.root tree).visited, _))

/-- What is assigned to at one of some places is marked after their visits. -/
theorem mem_assigned_marksAfter {places : List Cursor} {c : Cursor} (hc : c ∈ places) {span : Span}
    (hspan : span ∈ c.assigned) :
  span ∈ (tree.marksAfter source typeContexts places).assigned
  := by
  have hevent : .assign span ∈ tree.eventsAt source typeContexts places := by
    apply List.mem_flatMap.mpr
    exact ⟨c, hc, Visit.assign_mem_events.mpr hspan⟩
  rw [marksAfter, Marks.afterAll_eq]
  apply List.mem_append_left
  rw [List.mem_reverse, List.mem_filterMap]
  use .assign span, hevent
  rfl

/-- What is marked as not worth recording after visits of a tree is so in the tree. -/
theorem ignores_of_mem {places : List Cursor} (hplaces : places ⊆ (Cursor.root tree).visited)
    {span : Span} (h : span ∈ (tree.marksAfter source typeContexts places).ignored) :
  tree.Ignores span
  := by
  simp only [marksAfter, Marks.afterAll_eq, List.append_nil, List.mem_reverse,
    List.mem_filterMap] at h
  obtain ⟨event, hevent, hspan⟩ := h
  obtain ⟨c, hc, hevent⟩ := List.mem_flatMap.mp hevent
  use c, hplaces hc
  cases event with
  | ignore other =>
    obtain rfl : other = span := Option.some.inj hspan
    exact Visit.ignore_mem_events.mp hevent
  | declare b => simp [Event.ignored?] at hspan
  | assign other => simp [Event.ignored?] at hspan
  | occur visit => simp [Event.ignored?] at hspan

/-- What is marked as declared after visits of a tree is declared in the tree. -/
theorem declares_of_mem {places : List Cursor} (hplaces : places ⊆ (Cursor.root tree).visited)
    {entry : Span × BindingKey}
    (h : entry ∈ (tree.marksAfter source typeContexts places).declared) :
  tree.Declares source typeContexts entry.1
  := by
  simp only [marksAfter, Marks.afterAll_eq, List.append_nil, List.mem_reverse,
    List.mem_filterMap] at h
  obtain ⟨event, hevent, hentry⟩ := h
  obtain ⟨c, hc, hevent⟩ := List.mem_flatMap.mp hevent
  cases event with
  | declare b =>
    obtain ⟨target, htarget, rfl⟩ := Option.map_eq_some_iff.mp hentry
    refine ⟨b, mem_declared.mpr ⟨.at typeContexts c, ?_, ?_⟩, by rw [htarget]; rfl⟩
    · rw [traverse_eq]
      exact List.mem_map_of_mem (hplaces hc)
    · exact Visit.declare_mem_events.mp hevent
  | assign span => simp [Event.declared?] at hentry
  | ignore span => simp [Event.declared?] at hentry
  | occur visit => simp [Event.declared?] at hentry

/-- The references of a tree are those made before an identifier is visited, then its own if it has
one, and then those made later. -/
theorem collected_eq_append (source : Bytes) (typeContexts : List NodeType)
    {before after : List Cursor} {t : Cursor}
    (hvisited : (Cursor.root tree).visited = before ++ t :: after)
    (hidentifier : t.category = .identifier) :
  ∃ earlier later, tree.collected source typeContexts = earlier
      ++ ((tree.marksAfter source typeContexts before).reference? source
          (.at typeContexts t)).toList ++ later
  := by
  have hevents : tree.events source typeContexts
      = tree.eventsAt source typeContexts before
        ++ [.occur (.at typeContexts t)] ++ tree.eventsAt source typeContexts after := by
    rw [events_eq, hvisited, eventsAt, List.flatMap_append, List.flatMap_cons,
      Visit.events_of_identifier hidentifier, List.append_assoc]
    rfl
  rw [collected, hevents, collectReferences_append, collectReferences_append]
  exact ⟨_, _, by simp [collectReferences, marksAfter]; rfl⟩

end Tree

/-! ### Places of references -/

namespace Analysis

variable {source : Bytes} {tree : Tree} {typeContexts : List NodeType} {options : RuleOptions}
  {a : Analysis}

/-- The references stand where those before attribution stood. -/
theorem nodes_references (h : ofTree source tree typeContexts options = .ok a) :
  a.references.map (·.node) = (tree.collected source typeContexts).map (·.node)
  := by
  obtain ⟨-, -, r, -, -, hreferences⟩ := ofTree_inv h
  have hoccurrences : a.references.map (·.toOccurrence)
      = (tree.collected source typeContexts).map (·.toOccurrence) := by
    rw [hreferences]
    apply Attribution.occurrences_run
  have hnodes := congrArg (List.map Occurrence.node) hoccurrences
  rwa [List.map_map, List.map_map] at hnodes

/-- No two references stand at the same place. -/
theorem nodup_nodes (h : ofTree source tree typeContexts options = .ok a) :
  (a.references.map (·.node)).Nodup
  := by
  rw [nodes_references h]
  apply (nodes_collectReferences_sublist source _ _).nodup
  rw [Tree.events_eq, Tree.eventsAt, List.filterMap_flatMap]
  have hidentifiers := Cursor.flatMap_filter (fun c : Cursor => c.category = .identifier)
    (fun c => [c]) (Cursor.root tree).visited
  simp only [decide_eq_true_eq, List.flatMap_singleton'] at hidentifiers
  simp only [Visit.filterMap_occurring?_events]
  exact hidentifiers ▸ (Cursor.nodup_visited_root tree).filter _

end Analysis

end SingleUse
