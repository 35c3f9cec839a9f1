import SingleUse.Proofs.Freshness

/-!
# Lists of declarators

The declarators of a statement are kept apart by *gaps*, each of which holds a comma.  The first
declarator is removed with the gap after it, and every other one with the gap before it.  So the
first two are not removed together, and among those that stay each but the first keeps the gap
before it: what is left is again a list of declarators with one gap between any two.
-/

namespace SingleUse

/-- Texts one after the other, with separators between them. -/
def Bytes.interleave : List Bytes → List Bytes → Bytes
  | text :: texts, separator :: separators => text ++ separator ++ interleave texts separators
  | texts, _ => texts.flatten

theorem Bytes.slice_append (source : Bytes) {i j k : Nat} (hij : i ≤ j) (hjk : j ≤ k) :
  source.slice i j ++ source.slice j k = source.slice i k
  := by
  have hdrop : source.drop j = (source.drop i).drop (j - i) := by
    rw [List.drop_drop, Nat.add_sub_cancel' hij]
  rw [slice, slice, slice, hdrop, ← List.take_add]
  congr 1
  omega

namespace Cursor

/-- What stands between declarators that follow each other. -/
def gaps (source : Bytes) : List Cursor → List Bytes
  | declarator :: next :: rest =>
    source.slice declarator.stop next.start :: gaps source (next :: rest)
  | _ => []

/-- Whether declarators follow each other in a source, none of them empty, with a gap between any
two. -/
structure Listed (source : Bytes) (declarators : List Cursor) : Prop where
  proper : ∀ d ∈ declarators, d.start < d.stop
  inside : ∀ d ∈ declarators, d.stop ≤ source.length
  apart : declarators.Pairwise fun a b => a.stop < b.start

instance (source : Bytes) (declarators : List Cursor) :
    Decidable (Listed source declarators) :=
  decidable_of_iff
    ((∀ d ∈ declarators, d.start < d.stop) ∧ (∀ d ∈ declarators, d.stop ≤ source.length)
      ∧ declarators.Pairwise fun a b => a.stop < b.start)
    ⟨fun ⟨hproper, hinside, hapart⟩ => ⟨hproper, hinside, hapart⟩,
      fun h => ⟨h.proper, h.inside, h.apart⟩⟩

variable {source : Bytes} {previous declarator : Cursor} {declarators rest : List Cursor}

theorem Listed.sublist (h : Listed source declarators) (hrest : rest.Sublist declarators) :
  Listed source rest
  := by
  constructor
  case proper => exact fun d hd => h.proper d (hrest.mem hd)
  case inside => exact fun d hd => h.inside d (hrest.mem hd)
  case apart => exact h.apart.sublist hrest

/-- The last declarator stops last. -/
theorem Listed.stop_le_getLast (h : Listed source declarators) (hne : declarators ≠ []) :
  ∀ d ∈ declarators, d.stop ≤ (declarators.getLast hne).stop
  := by
  have hproper := h.proper _ (List.getLast_mem hne)
  have hordered : (declarators.dropLast ++ [declarators.getLast hne]).Pairwise
      fun a b => a.stop ≤ b.start := by
    rw [List.dropLast_append_getLast hne]
    apply h.apart.imp
    intro a b hlt
    exact hlt.le
  intro d hd
  apply stop_le_of_ordered hordered hproper.le
  rwa [List.dropLast_append_getLast hne]

/-! ### The removals -/

/-- The removals of those declarators that are to go, where another one stands before them all. -/
def removalsAfter (gone : Cursor → Bool) (previous : Cursor) : List Cursor → List Edit
  | [] => []
  | declarator :: rest =>
    if gone declarator then
      ⟨Span.mk previous.stop declarator.stop, ""⟩ :: removalsAfter gone declarator rest
    else removalsAfter gone declarator rest

/-- The removals of those declarators that are to go. -/
def removals (gone : Cursor → Bool) : List Cursor → List Edit
  | first :: next :: rest =>
    (if gone first then [⟨Span.mk first.start next.start, ""⟩] else [])
      ++ removalsAfter gone first (next :: rest)
  | _ => []

/-- The removals after a declarator stay between it and the last one. -/
theorem bounds_of_mem_removalsAfter (gone : Cursor → Bool) (h : Listed source (previous :: rest)) :
  ∀ e ∈ removalsAfter gone previous rest, e.text = ""
    ∧ (previous.stop : Int) ≤ e.range.start ∧ e.range.start < e.range.stop
    ∧ e.range.stop ≤ ((previous :: rest).getLast (List.cons_ne_nil _ _)).stop
  := by
  induction rest generalizing previous with
  | nil => simp [removalsAfter]
  | cons d rest ih =>
    have hrest := h.sublist (List.sublist_cons_self _ _)
    have hnext := (List.pairwise_cons.mp h.apart).1 d List.mem_cons_self
    have hproper := hrest.proper d List.mem_cons_self
    have hlast := hrest.stop_le_getLast (List.cons_ne_nil _ _) d List.mem_cons_self
    have hafter : ∀ e ∈ removalsAfter gone d rest, e.text = ""
        ∧ (previous.stop : Int) ≤ e.range.start ∧ e.range.start < e.range.stop
        ∧ e.range.stop ≤ ((d :: rest).getLast (List.cons_ne_nil _ _)).stop := by
      intro e he
      obtain ⟨htext, hstart, hrange, hstop⟩ := ih hrest e he
      exact ⟨htext, by omega, hrange, hstop⟩
    rw [List.getLast_cons_cons, removalsAfter]
    split
    · intro e he
      rcases List.mem_cons.mp he with rfl | he
      · simp only [Span.range, true_and]
        omega
      · exact hafter e he
    · exact hafter

/-- Each declarator that has another one before it is removed from the end of that one on. -/
theorem map_removeDeclarator_after (gone : Cursor → Bool) {statement : Cursor}
    {left : List Cursor}
    (hlisted : Listed source (left ++ previous :: rest))
    (hsplit : statement.declarators = left ++ previous :: rest) :
  (rest.filter gone).map (·.removeDeclarator statement source)
    = (removalsAfter gone previous rest).map some
  := by
  induction rest generalizing previous left with
  | nil => rfl
  | cons d rest ih =>
    have hsplit' : left ++ previous :: d :: rest = (left ++ [previous]) ++ d :: rest := by simp
    have hordered := hlisted.apart
    rw [hsplit'] at hlisted hsplit hordered
    have hremove : d.removeDeclarator statement source
        = some ⟨Span.mk previous.stop d.stop, ""⟩ := by
      rw [removeDeclarator_eq source (hlisted.proper d (by simp)) hsplit]
      · simp
      · intro other hother
        have hlt := (List.pairwise_append.mp hordered).2.2 other hother d List.mem_cons_self
        exact hlt.le
    rw [removalsAfter]
    cases hgone : gone d with
    | true =>
      rw [List.filter_cons_of_pos hgone, List.map_cons, hremove, ih hlisted hsplit]
      rfl
    | false =>
      rw [List.filter_cons_of_neg (by simp [hgone]), ih hlisted hsplit]
      rfl

/-- The removals are what they are made to be for each declarator. -/
theorem map_removeDeclarator (gone : Cursor → Bool) {statement : Cursor}
    (hlisted : Listed source statement.declarators)
    (hseveral : 2 ≤ statement.declarators.length) :
  (statement.declarators.filter gone).map (·.removeDeclarator statement source)
    = (removals gone statement.declarators).map some
  := by
  generalize hsplit : statement.declarators = declarators at hlisted hseveral
  match declarators with
  | [] => simp at hseveral
  | [first] => simp at hseveral
  | first :: next :: rest =>
    have hsplit' : statement.declarators = [] ++ first :: next :: rest := hsplit
    have hremove : first.removeDeclarator statement source
        = some ⟨Span.mk first.start next.start, ""⟩ := by
      rw [removeDeclarator_eq source (hlisted.proper first List.mem_cons_self)
        hsplit' (by simp)]
      rfl
    have hafter := map_removeDeclarator_after gone hlisted hsplit'
    rw [removals, List.map_append, ← hafter, List.filter_cons]
    cases hgone : gone first with
    | true => simp [hremove]
    | false => simp

/-! ### What the removals leave -/

/-- Edits to both sides leave the bytes between them as they are. -/
theorem image_of_beside {edits : List Edit} {i j : Nat}
    (h : ∀ e ∈ edits, e.range.start < e.range.stop ∧ (e.range.stop ≤ i ∨ j ≤ e.range.start)) :
  Fix.image source edits i j = source.slice i j
  := by
  apply Fix.image_of_untouched
  intro e he k hik hkj
  obtain ⟨hproper, hbeside⟩ := h e he
  rcases hbeside with hleft | hright
  · have hstop : e.range.stop ≤ k := by omega
    exact ⟨by omega, Edit.covers_eq_false_of_le hstop⟩
  · have hstart : (k : Int) < e.range.start := by omega
    exact ⟨by omega, Edit.covers_eq_false_of_lt hstart⟩

/-- Whether edits, none of them empty, end by an offset. -/
def EndBy (edits : List Edit) (offset : Nat) : Prop :=
  ∀ e ∈ edits, e.range.start < e.range.stop ∧ e.range.stop ≤ offset

theorem EndBy.mono {edits : List Edit} {i j : Nat} (h : EndBy edits i) (hij : i ≤ j) :
  EndBy edits j
  := by
  intro e he
  obtain ⟨hproper, hstop⟩ := h e he
  exact ⟨hproper, by omega⟩

theorem EndBy.concat {edits : List Edit} {i j : Nat} (h : EndBy edits i) (hij : i < j)
    (text : String) :
  EndBy (edits ++ [⟨Span.mk i j, text⟩]) j
  := by
  intro e he
  rcases List.mem_append.mp he with he | he
  · exact h.mono hij.le e he
  · rw [List.mem_singleton.mp he]
    exact ⟨Int.ofNat_lt.mpr hij, Int.le_refl _⟩

/-- Of bytes that are removed nothing is left, if the other edits are to both sides. -/
theorem image_removed {front back : List Edit} {i j : Nat} (hij : i < j) (hfront : EndBy front i)
    (hback : ∀ e ∈ back, (j : Int) ≤ e.range.start) :
  Fix.image source (front ++ ⟨Span.mk i j, ""⟩ :: back) i j = []
  := by
  apply Fix.image_replaced rfl hij
  intro e he k hk hlt
  rcases List.mem_append.mp he with he | he
  · have hbefore := hfront e he
    omega
  · have hafter := hback e he
    omega

/-- After a declarator that stays, the removals leave those that are not to go, each after the gap
before it.  Edits that end before are of no account. -/
theorem exists_image_removalsAfter (gone : Cursor → Bool) (h : Listed source (previous :: rest))
    {front : List Edit} (hfront : EndBy front previous.stop) (text : Bytes) :
  ∃ separators, separators.Sublist (gaps source (previous :: rest))
    ∧ separators.length = (rest.filter (!gone ·)).length
    ∧ text ++ Fix.image source (front ++ removalsAfter gone previous rest) previous.stop
        ((previous :: rest).getLast (List.cons_ne_nil _ _)).stop
      = Bytes.interleave (text :: (rest.filter (!gone ·)).map (·.bytes source)) separators
  := by
  induction rest generalizing previous front text with
  | nil =>
    use [], List.nil_sublist _, rfl
    simp [Fix.image, Bytes.interleave]
  | cons d rest ih =>
    have hrest := h.sublist (List.sublist_cons_self _ _)
    have hnext := (List.pairwise_cons.mp h.apart).1 d List.mem_cons_self
    have hproper := hrest.proper d List.mem_cons_self
    have hlast := hrest.stop_le_getLast (List.cons_ne_nil _ _) d List.mem_cons_self
    have hafter := bounds_of_mem_removalsAfter gone hrest
    rw [List.getLast_cons_cons, Fix.image_append (by omega) hlast, removalsAfter]
    cases hgone : gone d with
    | true =>
      have hremoved : Fix.image source
          (front ++ ⟨Span.mk previous.stop d.stop, ""⟩ :: removalsAfter gone d rest)
          previous.stop d.stop = [] :=
        image_removed (hnext.trans hproper) hfront fun e he => (hafter e he).2.1
      obtain ⟨separators, hsublist, hlength, himage⟩ :=
        ih hrest (hfront.concat (hnext.trans hproper) "") text
      use separators, hsublist.cons _
      rw [List.filter_cons_of_neg (by simp [hgone]), if_pos rfl, hremoved, List.nil_append]
      rw [List.append_assoc] at himage
      exact ⟨hlength, himage⟩
    | false =>
      have hkept : Fix.image source (front ++ removalsAfter gone d rest) previous.stop d.stop
          = source.slice previous.stop d.start ++ d.bytes source := by
        rw [image_of_beside, bytes, Bytes.slice_append source hnext.le hproper.le]
        intro e he
        rcases List.mem_append.mp he with he | he
        · obtain ⟨hrange, hstop⟩ := hfront e he
          exact ⟨hrange, .inl hstop⟩
        · obtain ⟨-, hstart, hrange, -⟩ := hafter e he
          exact ⟨hrange, .inr hstart⟩
      obtain ⟨separators, hsublist, hlength, himage⟩ :=
        ih hrest (hfront.mono (hnext.trans hproper).le) (d.bytes source)
      use source.slice previous.stop d.start :: separators, hsublist.cons_cons _
      rw [List.filter_cons_of_pos (by simp [hgone]), if_neg (by simp), hkept]
      use congrArg (· + 1) hlength
      rw [List.map_cons, Bytes.interleave, ← himage]
      simp only [List.append_assoc]

/-- Where another declarator stands before them all, the removals keep apart. -/
theorem apart_removalsAfter (gone : Cursor → Bool) (h : Listed source (previous :: rest)) :
  Fix.Apart (removalsAfter gone previous rest)
  := by
  induction rest generalizing previous with
  | nil => exact List.Pairwise.nil
  | cons d rest ih =>
    have hrest := h.sublist (List.sublist_cons_self _ _)
    rw [removalsAfter]
    split
    · apply List.pairwise_cons.mpr
      constructor
      · intro e he
        apply Fix.overlaps_eq_false_of_le (bounds_of_mem_removalsAfter gone hrest e he).2.1
      · exact ih hrest
    · exact ih hrest

/-- The removals keep apart unless the first two declarators are both to go, which would both take the
gap between them. -/
theorem apart_removals_iff {gone : Cursor → Bool} {first next : Cursor}
    (h : Listed source (first :: next :: rest)) :
  Fix.Apart (removals gone (first :: next :: rest)) ↔ ¬ (gone first ∧ gone next)
  := by
  have hrest := h.sublist (List.sublist_cons_self _ _)
  have hfirst := h.proper first List.mem_cons_self
  have hgap := (List.pairwise_cons.mp h.apart).1 next List.mem_cons_self
  have hnext := hrest.proper next List.mem_cons_self
  cases hgone : gone first with
  | false =>
    have hapart := apart_removalsAfter gone h
    simpa [removals, hgone] using hapart
  | true =>
    rw [removals, if_pos hgone, List.singleton_append, Fix.Apart, List.pairwise_cons, removalsAfter]
    constructor
    · rintro ⟨hbeside, -⟩ ⟨-, hgone'⟩
      rw [if_pos hgone'] at hbeside
      have hoverlap := hbeside _ List.mem_cons_self
      simp [ByteRange.overlaps, Span.range] at hoverlap
      omega
    · intro hnot
      have hkept : ¬ gone next := fun hgone' => hnot ⟨rfl, hgone'⟩
      rw [if_neg hkept]
      constructor
      · intro e he
        have hafter := (bounds_of_mem_removalsAfter gone hrest e he).2.1
        apply Fix.overlaps_eq_false_of_le
        exact Int.le_trans (Int.ofNat_le.mpr hnext.le) hafter
      · exact apart_removalsAfter gone hrest

/-- From the start of a declarator that stays, the removals leave it and those after it that are
not to go, with one gap between any two. -/
theorem exists_image_from (gone : Cursor → Bool) (h : Listed source (declarator :: rest))
    {front : List Edit} (hfront : EndBy front declarator.start) :
  ∃ separators, separators.Sublist (gaps source (declarator :: rest))
    ∧ separators.length = (rest.filter (!gone ·)).length
    ∧ Fix.image source (front ++ removalsAfter gone declarator rest) declarator.start
        ((declarator :: rest).getLast (List.cons_ne_nil _ _)).stop
      = Bytes.interleave ((declarator :: rest.filter (!gone ·)).map (·.bytes source)) separators
  := by
  have hproper := h.proper declarator List.mem_cons_self
  have hlast := h.stop_le_getLast (List.cons_ne_nil _ _) declarator List.mem_cons_self
  have hself : Fix.image source (front ++ removalsAfter gone declarator rest) declarator.start
      declarator.stop = declarator.bytes source := by
    rw [image_of_beside, bytes]
    intro e he
    rcases List.mem_append.mp he with he | he
    · obtain ⟨hrange, hstop⟩ := hfront e he
      exact ⟨hrange, .inl hstop⟩
    · obtain ⟨-, hstart, hrange, -⟩ := bounds_of_mem_removalsAfter gone h e he
      exact ⟨hrange, .inr hstart⟩
  obtain ⟨separators, hsublist, hlength, himage⟩ :=
    exists_image_removalsAfter gone h (hfront.mono hproper.le) (declarator.bytes source)
  use separators, hsublist, hlength
  rw [List.map_cons, ← himage, Fix.image_append hproper.le hlast, hself]

/-- What the removals leave of the declarators, from the start of the first one to the end of the
last one. -/
theorem exists_image_removals {gone : Cursor → Bool} (h : Listed source declarators)
    (hseveral : 2 ≤ declarators.length) (hapart : Fix.Apart (removals gone declarators)) :
  ∃ first last separators, declarators.head? = some first ∧ declarators.getLast? = some last
    ∧ separators.Sublist (gaps source declarators)
    ∧ separators.length + 1 = (declarators.filter (!gone ·)).length
    ∧ Fix.image source (removals gone declarators) first.start last.stop
      = Bytes.interleave ((declarators.filter (!gone ·)).map (·.bytes source)) separators
  := by
  match declarators with
  | [] => simp at hseveral
  | [first] => simp at hseveral
  | first :: next :: rest =>
    have hrest := h.sublist (List.sublist_cons_self _ _)
    have hfirst := h.proper first List.mem_cons_self
    have hgap := (List.pairwise_cons.mp h.apart).1 next List.mem_cons_self
    have hnext := hrest.proper next List.mem_cons_self
    have hlast := hrest.stop_le_getLast (List.cons_ne_nil _ _) next List.mem_cons_self
    have hnone : ∀ offset, EndBy [] offset := fun offset => List.forall_mem_nil _
    use first, (first :: next :: rest).getLast (List.cons_ne_nil _ _)
    cases hgone : gone first with
    | true =>
      have hkept : ¬ gone next := fun hgone' => (apart_removals_iff h).mp hapart ⟨hgone, hgone'⟩
      obtain ⟨separators, hsublist, hlength, himage⟩ :=
        exists_image_from gone hrest ((hnone first.start).concat (hfirst.trans hgap) "")
      use separators, rfl, List.getLast?_eq_some_getLast _, hsublist.cons _
      rw [List.filter_cons_of_neg (by simp [hgone]), List.filter_cons_of_pos (by simp [hkept]),
        removals, if_pos hgone, removalsAfter, if_neg (by simp [hkept]), List.getLast_cons_cons]
      use congrArg (· + 1) hlength
      have hremoved : Fix.image source
          ([] ++ ⟨Span.mk first.start next.start, ""⟩ :: removalsAfter gone next rest)
          first.start next.start = [] := by
        apply image_removed (hfirst.trans hgap) (hnone _)
        intro e he
        have hafter := bounds_of_mem_removalsAfter gone hrest e he
        omega
      rw [← himage, Fix.image_append (hfirst.trans hgap).le (hnext.le.trans hlast)]
      simp only [List.nil_append, List.singleton_append] at hremoved ⊢
      rw [hremoved, List.nil_append]
    | false =>
      obtain ⟨separators, hsublist, hlength, himage⟩ := exists_image_from gone h (hnone _)
      use separators, rfl, List.getLast?_eq_some_getLast _, hsublist
      rw [List.filter_cons_of_pos (by simp [hgone]), removals, if_neg (by simp [hgone])]
      exact ⟨congrArg (· + 1) hlength, himage⟩

/-- The removals lie between the start of the first declarator and the end of the last one. -/
theorem bounds_of_mem_removals (gone : Cursor → Bool) (h : Listed source declarators)
    {first last : Cursor} (hfirst : declarators.head? = some first)
    (hlast : declarators.getLast? = some last) :
  ∀ e ∈ removals gone declarators, e.text = "" ∧ (first.start : Int) ≤ e.range.start
    ∧ e.range.start < e.range.stop ∧ e.range.stop ≤ last.stop
  := by
  match declarators with
  | [] => simp [removals]
  | [_] => simp [removals]
  | d :: next :: rest =>
    obtain rfl : d = first := Option.some.inj hfirst
    rw [List.getLast?_eq_some_getLast (List.cons_ne_nil _ _)] at hlast
    obtain rfl := Option.some.inj hlast
    have hproper := h.proper d List.mem_cons_self
    have hgap := (List.pairwise_cons.mp h.apart).1 next List.mem_cons_self
    have hnext := h.proper next (by simp)
    have hstop := h.stop_le_getLast (List.cons_ne_nil _ _) next (by simp)
    intro e he
    rcases List.mem_append.mp he with he | he
    · obtain rfl : e = ⟨Span.mk d.start next.start, ""⟩ := by
        split at he
        · exact List.mem_singleton.mp he
        · simp at he
      simp only [Span.range, true_and]
      omega
    · obtain ⟨htext, hstart, hrange, hstop⟩ := bounds_of_mem_removalsAfter gone h e he
      exact ⟨htext, by omega, hrange, hstop⟩

/-- Edits that only touch the bytes between two offsets leave those before and after. -/
theorem image_of_bounds {edits : List Edit} {i j : Nat} (hij : i ≤ j) (hj : j ≤ source.length)
    (h : ∀ e ∈ edits, (i : Int) ≤ e.range.start ∧ e.range.start < e.range.stop
      ∧ e.range.stop ≤ j) :
  Fix.image source edits 0 source.length
    = source.take i ++ Fix.image source edits i j ++ source.drop j
  := by
  have hbefore : Fix.image source edits 0 i = source.take i := by
    rw [image_of_beside, Bytes.slice, List.drop_zero, Nat.sub_zero]
    intro e he
    have hbounds := h e he
    exact ⟨hbounds.2.1, .inr hbounds.1⟩
  have hafter : Fix.image source edits j source.length = source.drop j := by
    rw [image_of_beside, Bytes.slice, List.take_of_length_le (by simp)]
    intro e he
    have hbounds := h e he
    exact ⟨hbounds.2.1, .inl hbounds.2.2⟩
  rw [Fix.image_append (Nat.zero_le j) hj, Fix.image_append (Nat.zero_le i) hij, hbefore, hafter]

/-! ### Carrying out the removals -/

/-- Removing declarators leaves a list of declarators.  If the removals of some of several
declarators keep apart, then not all of them are to go.  Applying the removals, in whatever fixes
they are, leaves those that stay as they are and in their order, with one of the gaps between any
two, and what stands before the first declarator and after the last one. -/
theorem source_applyAll_removals {statement : Cursor}
    (hlisted : Listed source statement.declarators)
    (hseveral : 2 ≤ statement.declarators.length) (gone : Cursor → Bool) :
  ∃ removals : List Edit,
    (statement.declarators.filter gone).map (·.removeDeclarator statement source)
        = removals.map some
      ∧ (Fix.Apart removals → ∃ first last separators,
        statement.declarators.head? = some first ∧ statement.declarators.getLast? = some last
        ∧ statement.declarators.filter (!gone ·) ≠ []
        ∧ separators.Sublist (gaps source statement.declarators)
        ∧ separators.length + 1 = (statement.declarators.filter (!gone ·)).length
        ∧ ∀ fixes : List Fix, (fixes.flatMap (·.edits)).Perm removals →
          (Fix.applyAll source fixes).applied = fixes
          ∧ (Fix.applyAll source fixes).deferred = []
          ∧ (Fix.applyAll source fixes).source = source.take first.start
            ++ Bytes.interleave ((statement.declarators.filter (!gone ·)).map (·.bytes source))
              separators
            ++ source.drop last.stop)
  := by
  use removals gone statement.declarators, map_removeDeclarator gone hlisted hseveral
  intro hapart
  obtain ⟨first, last, separators, hfirst, hlast, hsublist, hlength, himage⟩ :=
    exists_image_removals hlisted hseveral hapart
  have hremain : statement.declarators.filter (!gone ·) ≠ [] := by
    apply List.ne_nil_of_length_pos
    omega
  use first, last, separators, hfirst, hlast, hremain, hsublist, hlength
  intro fixes hperm
  have hapart' : Fix.Apart (fixes.flatMap (·.edits)) := hapart.perm hperm
  obtain ⟨happlied, hdeferred⟩ : (Fix.applyAll source fixes).applied = fixes
      ∧ (Fix.applyAll source fixes).deferred = [] :=
    Fix.applied_of_apart hapart'
  use happlied, hdeferred
  have hbounds := bounds_of_mem_removals gone hlisted hfirst hlast
  have hinside := hlisted.inside last (List.mem_of_getLast? hlast)
  have hfits : ∀ e ∈ removals gone statement.declarators, e.Fits source := by
    intro e he
    obtain ⟨-, hstart, hproper, hstop⟩ := hbounds e he
    exact ⟨by omega, hproper, by omega⟩
  have hlist : first.start ≤ last.stop := by
    have hproper := hlisted.proper first (List.mem_of_head? hfirst)
    have hstop := hlisted.stop_le_getLast (List.ne_nil_of_mem (List.mem_of_head? hfirst)) first
      (List.mem_of_head? hfirst)
    rw [List.getLast?_eq_some_getLast (List.ne_nil_of_mem (List.mem_of_head? hfirst))] at hlast
    rw [Option.some.inj hlast] at hstop
    omega
  rw [Fix.source_applyAll, Fix.carriedOut, happlied, Fix.image_of_perm hfits hapart hperm,
    image_of_bounds hlist hinside fun e he => (hbounds e he).2, himage]
  · intro fix hfix e he
    apply hfits e (hperm.mem_iff.mp (List.mem_flatMap.mpr ⟨fix, hfix, he⟩))
  · apply (List.pairwise_flatMap.mp hapart').1

/-- The source `let a = 1, b = 2, c = 3, d = 4;`. -/
def fourDeclarators : Bytes × Tree where
  fst := Utf8.encode "let a = 1, b = 2, c = 3, d = 4;"
  snd :=
    .named .program 0 31 none
      [.named .lexicalDeclaration 0 31 none
        [.named .variableDeclarator 4 9 none
          [.named .identifier 4 5 (some .name) [], .named .number 8 9 (some .value) []],
        .named .variableDeclarator 11 16 none
          [.named .identifier 11 12 (some .name) [], .named .number 15 16 (some .value) []],
        .named .variableDeclarator 18 23 none
          [.named .identifier 18 19 (some .name) [], .named .number 22 23 (some .value) []],
        .named .variableDeclarator 25 30 none
          [.named .identifier 25 26 (some .name) [], .named .number 29 30 (some .value) []]]]

/-- Which declarators of `let a = 1, b = 2, c = 3, d = 4;` are to go: those of `a` and of `c`. -/
def firstAndThird (declarator : Cursor) : Bool :=
  declarator.start = 4 || declarator.start = 18

/-- Removing the first and the third declarator leaves `let b = 2, d = 4;`. -/
theorem source_applyAll_removals_fourDeclarators :
  ∃ statement ∈ (Cursor.root fourDeclarators.2).preorder,
    Listed fourDeclarators.1 statement.declarators
    ∧ 2 ≤ statement.declarators.length
    ∧ (Fix.applyAll fourDeclarators.1
        [⟨"c", [⟨⟨16, 23⟩, ""⟩]⟩, ⟨"a", [⟨⟨4, 11⟩, ""⟩]⟩]).source
      = Utf8.encode "let b = 2, d = 4;"
  := by
  have hany : ∃ statement ∈ (Cursor.root fourDeclarators.2).preorder,
      Listed fourDeclarators.1 statement.declarators ∧ 2 ≤ statement.declarators.length
        ∧ (statement.declarators.filter firstAndThird).map
            (·.removeDeclarator statement fourDeclarators.1)
          = [⟨⟨4, 11⟩, ""⟩, ⟨⟨16, 23⟩, ""⟩].map some
        ∧ statement.declarators.head?.map (·.start) = some 4
        ∧ statement.declarators.getLast?.map (·.stop) = some 30
        ∧ (statement.declarators.filter (!firstAndThird ·)).map (·.bytes fourDeclarators.1)
          = [Utf8.encode "b = 2", Utf8.encode "d = 4"]
        ∧ ∀ gap ∈ gaps fourDeclarators.1 statement.declarators, gap = Utf8.encode ", " := by
    decide +kernel
  obtain ⟨statement, hin, hlisted, hseveral, hmade, hhead, hend, hremain, hgaps⟩ := hany
  use statement, hin, hlisted, hseveral
  obtain ⟨removals, hremovals, hleft⟩ := source_applyAll_removals hlisted hseveral firstAndThird
  obtain rfl : removals = [⟨⟨4, 11⟩, ""⟩, ⟨⟨16, 23⟩, ""⟩] :=
    List.map_injective_iff.mpr (fun _ _ => Option.some.inj) (hremovals.symm.trans hmade)
  obtain ⟨first, last, separators, hfirst, hlast, -, hsublist, hlength, happly⟩ :=
    hleft (by decide)
  rw [hfirst, Option.map_some] at hhead
  rw [hlast, Option.map_some] at hend
  have hcount := congrArg List.length hremain
  rw [List.length_map, ← hlength] at hcount
  obtain ⟨separator, rfl⟩ := List.length_eq_one_iff.mp (Nat.succ.inj hcount)
  obtain rfl := hgaps separator (hsublist.mem List.mem_cons_self)
  rw [(happly _ (by decide)).2.2, hremain, Option.some.inj hhead, Option.some.inj hend]
  decide +kernel

end Cursor

end SingleUse
