import SingleUse.Proofs.Attribution
import SingleUse.Proofs.Firsts

/-!
# Attribution in any order

References are counted one after the other, and a count changes a binding that other references
share.  What a name refers to depends on the keys of a registry only, though, and those stay.  So
the outcome can be told from the numbers that a walk has come by: the references with these numbers
are attributed as they would be on their own, and each binding has the tally of those that read it,
every one of them taken once.
-/

namespace SingleUse

/-! ### The order of reads -/

/-- A list with one element at most has no other order. -/
theorem eq_of_perm {α : Type} {l l' : List α} (hlength : l'.length ≤ 1) (h : l.Perm l') :
  l = l'
  := by
  match l', hlength with
  | [], _ => exact h.eq_nil
  | [a], _ => exact h.eq_singleton

/-- The order of its reads matters to a binding only for the last one. -/
theorem Binding.tally_of_perm {reads reads' : List Reference} (h : reads.Perm reads')
    (b : Binding) :
  b.tally reads' = { b.tally reads with lastRead := (b.tally reads').lastRead }
    ∧ ((b.tally reads).useCount ≤ b.useCount + 1
      → (b.tally reads').lastRead = (b.tally reads).lastRead)
  := by
  constructor
  · simp only [Binding.tally_eq, h.length_eq, h.countP_eq, h.any_eq]
  · intro hcount
    have hlength : reads'.length ≤ 1 := by
      simpa [Binding.tally_eq, h.length_eq] using hcount
    rw [eq_of_perm hlength h]

namespace Walk

variable {scopes : ScopeTree}

/-! ### Steps -/

theorem step_of_none {walk : Walk} {i : Nat} (h : walk.references[i]? = none) :
  walk.step scopes i = walk
  := by
  simp [step, h]

/-- A step of a walk is a step of attribution at the reference with a number. -/
theorem step_of_some {walk : Walk} {i : Nat} {ref : Reference}
    (h : walk.references[i]? = some ref) :
  walk.step scopes i
    = ⟨(walk.state.step scopes ref).1, walk.references.set i (walk.state.step scopes ref).2⟩
  := by
  obtain ⟨hi, rfl⟩ := List.getElem?_eq_some_iff.mp h
  by_cases hcounts : walk.references[i].role.counts
  · simp [step, visit, Attribution.step, h, hcounts]
  · simp [step, Attribution.step, h, hcounts]

theorem run_concat (walk : Walk) (order : List Nat) (i : Nat) :
  walk.run scopes (order ++ [i]) = (walk.run scopes order).step scopes i
  := by
  simp [run]

/-! ### Where a walk comes to -/

/-- The reads of the binding with a key among the references with some numbers. -/
def reads (scopes : ScopeTree) (walk : Walk) (key : BindingKey) (order : List Nat) :
    List Reference :=
  (firsts id order).filterMap fun i =>
    walk.references[i]?.bind fun ref => ref.readOf? walk.state.registry scopes key

theorem reads_concat (walk : Walk) (key : BindingKey) (order : List Nat) (i : Nat) :
  walk.reads scopes key (order ++ [i]) = if i ∈ order then walk.reads scopes key order
    else walk.reads scopes key order ++ (walk.references[i]?.bind fun ref =>
      ref.readOf? walk.state.registry scopes key).toList
  := by
  rw [reads, firsts_concat, List.map_id, id]
  split
  · rfl
  · rw [List.filterMap_append, reads]
    congr 1

/-- References with other numbers have other bytes, if no two have the same ones. -/
theorem span_ne_of_ne {refs : List Reference} (hspans : (refs.map (·.span)).Nodup) {i j : Nat}
    {ref other : Reference} (hother : refs[j]? = some other) (href : refs[i]? = some ref)
    (hne : j ≠ i) :
  other.span ≠ ref.span
  := by
  intro heq
  apply hne
  obtain ⟨hlt, -⟩ := List.getElem?_eq_some_iff.mp hother
  apply (List.getElem?_inj (by simpa using hlt) hspans).mp
  simp [hother, href, heq]

/-- Where a walk comes to through the references with some numbers. -/
structure Reaches (scopes : ScopeTree) (walk : Walk) (order : List Nat) (reached : Walk) :
    Prop where
  references : ∀ i, reached.references[i]? = walk.references[i]?.map fun ref =>
    if i ∈ order then ref.attributed walk.state.registry scopes else ref
  counted : ∀ i ref, walk.references[i]? = some ref → ref.role.counts →
    (ref.span ∈ reached.state.counted ↔ i ∈ order)
  bindings : reached.state.registry.bindings = walk.state.registry.bindings.map fun b =>
    b.tally (walk.reads scopes b.key order)

variable {walk reached : Walk} {order : List Nat}

namespace Reaches

/-- A walk leaves the keys of its registry as they are. -/
theorem keys (h : walk.Reaches scopes order reached) :
  reached.state.registry.keys = walk.state.registry.keys
  := by
  simp [Registry.keys, h.bindings, Function.comp_def]

/-- A walk that comes by a number again stays where it is. -/
theorem step_of_mem (h : walk.Reaches scopes order reached) {i : Nat} (hi : i ∈ order) :
  reached.step scopes i = reached
  := by
  have hreference := h.references i
  cases href : walk.references[i]? with
  | none =>
    apply step_of_none
    rw [hreference, href]
    rfl
  | some ref =>
    rw [href, Option.map_some, if_pos hi] at hreference
    have hstep : reached.state.step scopes (ref.attributed walk.state.registry scopes)
        = (reached.state, ref.attributed walk.state.registry scopes) := by
      apply Attribution.step_of_mem
      rw [Reference.toOccurrence_attributed]
      intro hcounts
      exact (h.counted i ref href hcounts).mpr hi
    obtain ⟨hlt, hget⟩ := List.getElem?_eq_some_iff.mp hreference
    rw [step_of_some hreference, hstep]
    simp [← hget]

/-- Only the numbers of references matter. -/
theorem congr (h : walk.Reaches scopes order reached) {order' : List Nat}
    (hmem : ∀ i ref, walk.references[i]? = some ref → (i ∈ order' ↔ i ∈ order))
    (hreads : ∀ key, walk.reads scopes key order' = walk.reads scopes key order) :
  walk.Reaches scopes order' reached
  where
  references i := by
    rw [h.references i]
    cases href : walk.references[i]? with
    | none => rfl
    | some ref => simp only [hmem i ref href]
  counted i ref href hcounts := by
    rw [hmem i ref href]
    apply h.counted i ref href hcounts
  bindings := by
    rw [h.bindings]
    simp only [hreads]

/-- A walk that comes by the number of a reference for the first time attributes the reference. -/
theorem step_of_notMem (h : walk.Reaches scopes order reached)
    (hspans : (walk.references.map (·.span)).Nodup) {i : Nat} (hi : i ∉ order) {ref : Reference}
    (href : walk.references[i]? = some ref) :
  walk.Reaches scopes (order ++ [i]) (reached.step scopes i)
  := by
  have hreference : reached.references[i]? = some ref := by
    rw [h.references, href, Option.map_some, if_neg hi]
  have hmem : ∀ j, j ≠ i → (j ∈ order ++ [i] ↔ j ∈ order) := by
    intro j hj
    simp [hj]
  obtain ⟨hattributed, hcounted, hbindings⟩ :=
    Attribution.step_of_notMem scopes reached.state fun hcounts =>
      mt (h.counted i ref href hcounts).mp hi
  rw [step_of_some hreference]
  constructor
  case references =>
    intro j
    rw [List.getElem?_set]
    split
    · rename_i hij
      subst hij
      obtain ⟨hlt, -⟩ := List.getElem?_eq_some_iff.mp hreference
      rw [if_pos hlt, href, hattributed, Reference.attributed_congr h.keys]
      simp
    · rename_i hij
      simpa only [hmem j (Ne.symm hij)] using h.references j
  case counted =>
    intro j other hother hcounts
    rw [hcounted]
    by_cases hj : j = i
    · subst hj
      obtain rfl : ref = other := by simpa [href] using hother
      simp [hcounts]
    · rw [hmem j hj, ← h.counted j other hother hcounts]
      have hspan := span_ne_of_ne hspans hother href hj
      split <;> simp [hspan]
  case bindings =>
    rw [hbindings, h.bindings, List.map_map]
    apply List.map_congr_left
    intro b _
    rw [Function.comp_apply, Binding.key_tally, ← Binding.tally_append, reads_concat, if_neg hi,
      href, Option.bind_some, Reference.readOf?_congr h.keys]

/-- Going on to a number, a walk comes to where that number leads. -/
theorem step (h : walk.Reaches scopes order reached)
    (hspans : (walk.references.map (·.span)).Nodup) (i : Nat) :
  walk.Reaches scopes (order ++ [i]) (reached.step scopes i)
  := by
  by_cases hi : i ∈ order
  · rw [h.step_of_mem hi]
    apply h.congr
    · intro j _ _
      rw [List.mem_append, List.mem_singleton]
      constructor
      · rintro (hj | rfl)
        · exact hj
        · exact hi
      · exact .inl
    · intro key
      rw [reads_concat, if_pos hi]
  · cases href : walk.references[i]? with
    | none =>
      have hreference : reached.references[i]? = none := by
        rw [h.references, href, Option.map_none]
      rw [step_of_none hreference]
      apply h.congr
      · intro j other hother
        have hj : j ≠ i := by
          rintro rfl
          simp [href] at hother
        simp [hj]
      · intro key
        rw [reads_concat, if_neg hi, href]
        simp
    | some ref => exact h.step_of_notMem hspans hi href

/-- Going through numbers that it has come by, a walk stays where it is. -/
theorem run_of_subset (h : walk.Reaches scopes order reached) {again : List Nat}
    (hagain : again ⊆ order) :
  reached.run scopes again = reached
  := by
  induction again with
  | nil => rfl
  | cons i rest ih =>
    rw [run, List.foldl_cons, h.step_of_mem (hagain List.mem_cons_self)]
    apply ih
    exact List.subset_of_cons_subset hagain

end Reaches

/-- A walk goes where its numbers lead, if no bytes were counted before. -/
theorem reaches_run (scopes : ScopeTree) (hcounted : walk.state.counted = [])
    (hspans : (walk.references.map (·.span)).Nodup) (order : List Nat) :
  walk.Reaches scopes order (walk.run scopes order)
  := by
  induction order using List.reverseRecOn with
  | nil =>
    constructor
    case references => simp [run]
    case counted => simp [run, hcounted]
    case bindings => simp [run, reads, firsts]
  | append_singleton order i ih =>
    rw [run_concat]
    apply ih.step hspans

/-- A walk through all references is a run of attribution. -/
theorem run_range (walk : Walk) :
  walk.run scopes (List.range walk.references.length)
    = ⟨(walk.state.run scopes walk.references).1, (walk.state.run scopes walk.references).2⟩
  := by
  suffices h : ∀ (refs done : List Reference) (state : Attribution),
      (⟨state, done ++ refs⟩ : Walk).run scopes (List.range' done.length refs.length)
        = ⟨(state.run scopes refs).1, done ++ (state.run scopes refs).2⟩ by
    rw [List.range_eq_range']
    exact h walk.references [] walk.state
  intro refs
  induction refs with
  | nil =>
    intro done state
    rfl
  | cons ref rest ih =>
    intro done state
    have hget : (done ++ ref :: rest)[done.length]? = some ref := by simp
    have hhead : (⟨state, done ++ ref :: rest⟩ : Walk).step scopes done.length
        = ⟨(state.step scopes ref).1, done ++ [(state.step scopes ref).2] ++ rest⟩ := by
      rw [step_of_some hget]
      simp
    have hrest := ih (done ++ [(state.step scopes ref).2]) (state.step scopes ref).1
    rw [List.length_append, List.length_singleton] at hrest
    rw [run, List.length_cons, List.range'_succ, List.foldl_cons, hhead, Attribution.run_cons]
    simpa [run] using hrest

/-! ### Outcomes -/

/-- Two walks from the same place have the same outcome: the references refer to the same bindings,
and these have the same counters and marks.  Of several reads of a binding another one may be the
last. -/
structure SameOutcome (walk one other : Walk) : Prop where
  references : other.references = one.references
  keys : one.state.registry.keys = walk.state.registry.keys
  keys' : other.state.registry.keys = walk.state.registry.keys
  bindings : ∀ (i : Nat) (b c c' : Binding), walk.state.registry.bindings[i]? = some b →
    one.state.registry.bindings[i]? = some c → other.state.registry.bindings[i]? = some c' →
      c' = { c with lastRead := c'.lastRead }
        ∧ (c.useCount ≤ b.useCount + 1 → c'.lastRead = c.lastRead)

/-- Going through the same numbers in another order or more often leads to the same outcome, and
going through them again changes nothing.  Attribution goes through all numbers, each one once. -/
theorem run_reorder (scopes : ScopeTree) (hcounted : walk.state.counted = [])
    (hspans : (walk.references.map (·.span)).Nodup) {order order' : List Nat}
    (horder : ∀ i, i ∈ order ↔ i ∈ order') :
  walk.SameOutcome (walk.run scopes order) (walk.run scopes order')
    ∧ (walk.run scopes order).run scopes order = walk.run scopes order
    ∧ walk.run scopes (List.range walk.references.length)
      = ⟨(walk.state.run scopes walk.references).1, (walk.state.run scopes walk.references).2⟩
  := by
  have hone := reaches_run scopes hcounted hspans order
  have hother := reaches_run scopes hcounted hspans order'
  refine ⟨?_, hone.run_of_subset (List.Subset.refl order), run_range walk⟩
  constructor
  case references =>
    apply List.ext_getElem?
    intro i
    rw [hone.references, hother.references]
    simp only [horder]
  case keys => exact hone.keys
  case keys' => exact hother.keys
  case bindings =>
    intro i b c c' hb hc hc'
    rw [hone.bindings, List.getElem?_map, hb] at hc
    rw [hother.bindings, List.getElem?_map, hb] at hc'
    obtain rfl := Option.some.inj hc
    obtain rfl := Option.some.inj hc'
    apply Binding.tally_of_perm
    exact (firsts_perm horder).filterMap _

/-- A program that declares a name and a block that declares another one; in the program the first
name is read twice and written, and the second one is read. -/
def fourReads : Walk where
  state := ⟨[{ name := "a", scope := some ⟨0, 40, .program⟩ },
    { name := "b", scope := some ⟨10, 20, .statementBlock⟩ }].foldl Registry.register {}, []⟩
  references := [
    { node := .root (.named .identifier 22 23 none []), name := "a", role := .read,
      scope := some ⟨0, 40, .program⟩ },
    { node := .root (.named .identifier 25 26 none []), name := "a", role := .assignmentTarget,
      scope := some ⟨0, 40, .program⟩ },
    { node := .root (.named .identifier 29 30 none []), name := "b", role := .read,
      scope := some ⟨0, 40, .program⟩ },
    { node := .root (.named .identifier 33 34 none []), name := "a", role := .read,
      scope := some ⟨0, 40, .program⟩ }]

/-- Without the last read the others count in any order and once each: the first name is used twice,
and the second one is found by name only. -/
theorem run_reorder_fourReads :
  fourReads.state.counted = []
    ∧ (fourReads.references.map (·.span)).Nodup
    ∧ fourReads.SameOutcome (fourReads.run {} [0, 1, 2]) (fourReads.run {} [2, 1, 1, 0, 2])
    ∧ (fourReads.run {} [0, 1, 2]).run {} [0, 1, 2] = fourReads.run {} [0, 1, 2]
    ∧ (fourReads.run {} [2, 1, 1, 0, 2]).state.registry.bindings.map
        (fun b => (b.useCount, b.reassigned, b.fallbackReads))
      = [(2, true, 0), (1, false, 1)]
  := by
  have hspans : (fourReads.references.map (·.span)).Nodup := by decide
  have horder : ∀ i, i ∈ [0, 1, 2] ↔ i ∈ [2, 1, 1, 0, 2] := by
    intro i
    simp only [List.mem_cons, List.not_mem_nil, or_false]
    omega
  obtain ⟨hsame, hagain, -⟩ := run_reorder {} rfl hspans horder
  use rfl, hspans, hsame, hagain
  decide

end Walk

end SingleUse
