import SingleUse.Settings.Layer
import Mathlib.Data.List.Nodup
import Mathlib.Tactic.Common

/-!
# Entries

A map keeps its entries in order.  Here it is told what is found under a key, and which entries
there are for some keys, after an entry was put into a map and after a map was laid over another
one: an entry that is there keeps its place, and others come after it.
-/

namespace SingleUse

namespace Value

/-! ### Finding -/

@[simp]
theorem find?_nil (key : String) :
  find? key [] = none
  := rfl

theorem find?_cons (key first : String) (value : Value) (rest : List (String × Value)) :
  find? key ((first, value) :: rest) = if first = key then some value else find? key rest
  := by
  rw [find?, List.find?_cons]
  split <;> simp_all [find?]

theorem find?_eq_none_iff {key : String} {entries : List (String × Value)} :
  find? key entries = none ↔ key ∉ entries.map (·.1)
  := by
  simp only [find?, Option.map_eq_none_iff, List.find?_eq_none, List.mem_map, decide_eq_true_eq]
  constructor
  · rintro h ⟨entry, hentry, hkey⟩
    exact h entry hentry hkey
  · intro h entry hentry hkey
    exact h ⟨entry, hentry, hkey⟩

/-- Where only some of the keys are looked for, entries with other keys can be left out. -/
theorem find?_filter {p : String → Bool} {key : String} (h : p key)
    (entries : List (String × Value)) :
  find? key (entries.filter fun entry => p entry.1) = find? key entries
  := by
  rw [find?, find?, List.find?_filter]
  congr 2
  funext entry
  by_cases hkey : entry.1 = key
  · simp [hkey, h]
  · simp [hkey]

/-! ### Putting -/

/-- An entry that is put into a map is found there, and the others are found as before. -/
theorem find?_put (key first : String) (value : Value) (entries : List (String × Value)) :
  find? key (put first value entries) = if first = key then some value else find? key entries
  := by
  induction entries with
  | nil => simp [put, find?_cons]
  | cons entry rest ih =>
    obtain ⟨name, old⟩ := entry
    rw [put]
    by_cases hname : name = first
    · rw [if_pos hname, find?_cons, find?_cons, hname]
      split <;> rfl
    · rw [if_neg hname, find?_cons, find?_cons, ih]
      by_cases hkey : name = key
      · rw [if_pos hkey, if_pos hkey, if_neg fun heq => hname (hkey.trans heq.symm)]
      · rw [if_neg hkey, if_neg hkey]

/-- An entry with a new key comes last. -/
theorem put_of_notMem {key : String} {value : Value} {entries : List (String × Value)}
    (h : key ∉ entries.map (·.1)) :
  put key value entries = entries ++ [(key, value)]
  := by
  induction entries with
  | nil => rfl
  | cons entry rest ih =>
    rw [List.map_cons, List.mem_cons, not_or] at h
    rw [put, if_neg (Ne.symm h.1), ih h.2]
    rfl

theorem mem_put {key : String} {value : Value} {entries : List (String × Value)}
    {entry : String × Value} (h : entry ∈ put key value entries) :
  entry = (key, value) ∨ entry ∈ entries
  := by
  induction entries with
  | nil => exact .inl (List.mem_singleton.mp h)
  | cons head rest ih =>
    rw [put] at h
    split at h
    · rcases List.mem_cons.mp h with rfl | h
      · exact .inl rfl
      · exact .inr (List.mem_cons_of_mem _ h)
    · rcases List.mem_cons.mp h with rfl | h
      · exact .inr List.mem_cons_self
      · exact (ih h).imp_right (List.mem_cons_of_mem _)

theorem mem_of_find? {key : String} {value : Value} {entries : List (String × Value)}
    (h : find? key entries = some value) :
  (key, value) ∈ entries
  := by
  obtain ⟨⟨name, found⟩, hfind, rfl⟩ := Option.map_eq_some_iff.mp h
  obtain rfl : name = key := by simpa using List.find?_some hfind
  exact List.mem_of_find?_eq_some hfind

/-- In a map the entries are what is found under their keys. -/
theorem find?_eq_some_iff {entries : List (String × Value)} (h : (entries.map (·.1)).Nodup)
    {key : String} {value : Value} :
  find? key entries = some value ↔ (key, value) ∈ entries
  := by
  constructor
  · exact mem_of_find?
  · intro hmem
    cases hfind : find? key entries with
    | none => exact absurd (List.mem_map_of_mem hmem) (find?_eq_none_iff.mp hfind)
    | some found =>
      have hsame := List.inj_on_of_nodup_map h (mem_of_find? hfind) hmem rfl
      rw [(Prod.mk.inj hsame).2]

/-- A map with an entry put into it is a map. -/
theorem nodup_put {entries : List (String × Value)} (h : (entries.map (·.1)).Nodup) (key : String)
    (value : Value) :
  ((put key value entries).map (·.1)).Nodup
  := by
  induction entries with
  | nil => exact List.nodup_singleton key
  | cons entry rest ih =>
    rw [List.map_cons, List.nodup_cons] at h
    rw [put]
    split
    · rename_i hkey
      rw [List.map_cons, List.nodup_cons, ← hkey]
      exact h
    · rename_i hkey
      rw [List.map_cons, List.nodup_cons]
      refine ⟨?_, ih h.2⟩
      intro hmem
      obtain ⟨other, hother, hsame⟩ := List.mem_map.mp hmem
      rcases mem_put hother with rfl | hother
      · exact hkey hsame.symm
      · exact h.1 (hsame ▸ List.mem_map_of_mem hother)

/-- Of the entries with some keys, only one with such a key changes the entries. -/
theorem filter_put (p : String → Bool) (key : String) (value : Value)
    (entries : List (String × Value)) :
  (put key value entries).filter (fun entry => p entry.1)
    = if p key then put key value (entries.filter fun entry => p entry.1)
      else entries.filter fun entry => p entry.1
  := by
  induction entries with
  | nil => simp [put, List.filter_cons]
  | cons entry rest ih =>
    rw [put]
    by_cases hkey : entry.1 = key
    · by_cases hp : p key <;> simp [hkey, hp, put]
    · by_cases hp : p entry.1 <;> by_cases hp' : p key <;> simp_all [put]

end Value

/-! ### Laying over -/

namespace Layer

/-- A value laid over nothing is itself. -/
@[simp]
theorem valueOver_none (new : Value) :
  valueOver none new = new
  := by
  rw [valueOver]
  simp

/-- A value laid over another one is itself, unless both are maps; then it is a map. -/
theorem valueOver_cases (old new : Value) :
  valueOver (some old) new = new ∨ ∃ entries, valueOver (some old) new = .map entries
  := by
  unfold valueOver
  split
  · exact .inr ⟨_, rfl⟩
  · exact .inl rfl

/-- A value that is laid over another one is put in its place, unless both are maps. -/
theorem valueOver_eq_self {old : Option Value} {new : Value}
    (h : ∀ base upper, old = some (.map base) → new ≠ .map upper) :
  valueOver old new = new
  := by
  unfold valueOver
  split
  · exact absurd rfl (h _ _ rfl)
  · rfl

/-- Of the entries with some keys, only those of both maps matter. -/
theorem filter_laidOver (p : String → Bool) (entries : List (String × Value)) :
  ∀ base, (laidOver base entries).filter (fun entry => p entry.1)
    = laidOver (base.filter fun entry => p entry.1) (entries.filter fun entry => p entry.1)
  := by
  induction entries with
  | nil =>
    intro base
    simp [laidOver]
  | cons entry rest ih =>
    intro base
    obtain ⟨key, new⟩ := entry
    rw [laidOver, ih, Value.filter_put]
    by_cases hp : p key
    · rw [if_pos hp, List.filter_cons, if_pos hp, laidOver, Value.find?_filter hp]
    · rw [if_neg hp, List.filter_cons, if_neg hp]

/-- What holds of the entries of two maps holds of those of one laid over the other, if it is kept
when one value is laid over another. -/
theorem of_mem_laidOver (holds : String → Value → Prop)
    (hover : ∀ key old new, holds key old → holds key new → holds key (valueOver (some old) new))
    {entries : List (String × Value)} :
  (∀ entry ∈ entries, holds entry.1 entry.2) →
    ∀ {base : List (String × Value)}, (∀ entry ∈ base, holds entry.1 entry.2) →
      ∀ entry ∈ laidOver base entries, holds entry.1 entry.2
  := by
  induction entries with
  | nil =>
    intro _ base hbase
    simpa [laidOver] using hbase
  | cons head rest ih =>
    intro hentries base hbase
    obtain ⟨key, new⟩ := head
    have hnew : holds key new := hentries _ List.mem_cons_self
    rw [laidOver]
    apply ih fun entry hentry => hentries entry (List.mem_cons_of_mem _ hentry)
    intro entry hentry
    rcases Value.mem_put hentry with rfl | hentry
    · cases hfind : Value.find? key base with
      | none => simpa using hnew
      | some old => exact hover key old new (hbase _ (Value.mem_of_find? hfind)) hnew
    · exact hbase entry hentry

/-- A map laid over another one is a map. -/
theorem nodup_laidOver (entries : List (String × Value)) :
  ∀ {base : List (String × Value)}, (base.map (·.1)).Nodup →
    ((laidOver base entries).map (·.1)).Nodup
  := by
  induction entries with
  | nil =>
    intro base hbase
    simpa [laidOver] using hbase
  | cons entry rest ih =>
    intro base hbase
    rw [laidOver]
    exact ih (Value.nodup_put hbase _ _)

/-- A map laid over one that has none of its keys comes after it. -/
theorem laidOver_of_disjoint {entries : List (String × Value)}
    (hnodup : (entries.map (·.1)).Nodup) :
  ∀ {base : List (String × Value)}, (∀ key ∈ entries.map (·.1), key ∉ base.map (·.1)) →
    laidOver base entries = base ++ entries
  := by
  induction entries with
  | nil =>
    intro base _
    simp [laidOver]
  | cons entry rest ih =>
    intro base hdisjoint
    obtain ⟨key, new⟩ := entry
    rw [List.map_cons, List.nodup_cons] at hnodup
    have hkey : key ∉ base.map (·.1) := hdisjoint key List.mem_cons_self
    rw [laidOver, Value.find?_eq_none_iff.mpr hkey, valueOver_none, Value.put_of_notMem hkey,
      ih hnodup.2]
    · simp
    · intro other hother
      have hne : other ≠ key := by
        rintro rfl
        exact hnodup.1 hother
      simpa [hne] using hdisjoint other (List.mem_cons_of_mem _ hother)

/-- A map laid over the empty one is itself. -/
theorem laidOver_nil {entries : List (String × Value)} (hnodup : (entries.map (·.1)).Nodup) :
  laidOver [] entries = entries
  := laidOver_of_disjoint hnodup (by simp)

/-- Under a key of a map that is laid over another one stands what the map has there, laid over
what the other one has; under all other keys stands what the other one has. -/
theorem find?_laidOver {entries : List (String × Value)} (hnodup : (entries.map (·.1)).Nodup)
    (base : List (String × Value)) (key : String) :
  Value.find? key (laidOver base entries)
    = ((Value.find? key entries).map (valueOver (Value.find? key base))).or
      (Value.find? key base)
  := by
  induction entries generalizing base with
  | nil => simp [laidOver]
  | cons entry rest ih =>
    obtain ⟨first, new⟩ := entry
    rw [List.map_cons, List.nodup_cons] at hnodup
    rw [laidOver, ih hnodup.2, Value.find?_put, Value.find?_cons]
    by_cases hkey : first = key
    · subst hkey
      rw [Value.find?_eq_none_iff.mpr hnodup.1, if_pos rfl, if_pos rfl]
      rfl
    · rw [if_neg hkey, if_neg hkey]

end Layer

end SingleUse
