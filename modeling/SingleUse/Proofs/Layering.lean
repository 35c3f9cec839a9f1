import SingleUse.Proofs.Entries
import SingleUse.Proofs.Changing
import SingleUse.Settings.Store

/-!
# Layering

The settings in force come from the environment, the file of the project and the file of the user,
and where none of them names a setting it has its default value.  The files are laid over each
other key by key, so an option that they name by different keys keeps an entry for each of them,
and the last one decides.  The environment replaces the entry under the main key of an option in
its place; if the file of the user names the ignored names by that key, and the file of the
project by the other one, then it is the file of the project that decides.
-/

namespace SingleUse

/-! ### Sections -/

namespace Layer

/-- The entries of a section that is a map; any other one has none. -/
def partOf (part : String) (entries : List (String × Value)) : List (String × Value) :=
  match Value.find? part entries with
  | some (.map inner) => inner
  | _ => []

/-- Whether a section is a map, or is not there. -/
def IsPart (part : String) (entries : List (String × Value)) : Prop :=
  ∀ value, Value.find? part entries = some value → ∃ inner, value = .map inner

variable {part : String} {base entries inner : List (String × Value)}

theorem partOf_of_find? (h : Value.find? part entries = some (.map inner)) :
  partOf part entries = inner
  := by
  rw [partOf, h]

theorem isPart_of_find? (h : Value.find? part entries = some (.map inner)) :
  IsPart part entries
  := fun _ hvalue => ⟨inner, Option.some.inj (hvalue.symm.trans h)⟩

theorem IsPart.cases (h : IsPart part entries) :
  (Value.find? part entries = none ∧ partOf part entries = [])
    ∨ Value.find? part entries = some (.map (partOf part entries))
  := by
  cases hfind : Value.find? part entries with
  | none => exact .inl ⟨rfl, by rw [partOf, hfind]⟩
  | some value =>
    obtain ⟨inner, rfl⟩ := h value hfind
    exact .inr (by rw [partOf_of_find? hfind])

/-- Whether a section is a map, or null, or is not there. -/
def IsSection (part : String) (entries : List (String × Value)) : Prop :=
  ∀ value, Value.find? part entries = some value → value = .null ∨ ∃ inner, value = .map inner

theorem IsPart.isSection (h : IsPart part entries) :
  IsSection part entries
  := fun value hvalue => .inr (h value hvalue)

/-- A section that is null has no entries. -/
theorem partOf_of_null (h : Value.find? part entries = some .null) :
  partOf part entries = []
  := by
  rw [partOf, h]

theorem IsSection.cases (h : IsSection part entries) :
  IsPart part entries ∨ Value.find? part entries = some .null
  := by
  by_cases hnull : Value.find? part entries = some .null
  · exact .inr hnull
  · left
    intro value hvalue
    rcases h value hvalue with rfl | hinner
    · exact absurd hvalue hnull
    · exact hinner

/-- A section depends on what is found under its name only. -/
theorem isSection_congr (h : Value.find? part base = Value.find? part entries)
    (hpart : IsSection part entries) :
  IsSection part base ∧ partOf part base = partOf part entries
  := by
  constructor
  · intro value hvalue
    exact hpart value (h ▸ hvalue)
  · rw [partOf, h, partOf]

/-- A section that is a map is laid over the section of whatever is below it, which counts as empty
if it is no map. -/
theorem partOf_laidOver (hkeys : (entries.map (·.1)).Nodup)
    (hfind : Value.find? part entries = some (.map inner)) (hinner : (inner.map (·.1)).Nodup) :
  IsPart part (laidOver base entries)
    ∧ partOf part (laidOver base entries) = laidOver (partOf part base) inner
  := by
  have hover : valueOver (Value.find? part base) (.map inner)
      = .map (laidOver (partOf part base) inner) := by
    unfold partOf
    split
    · rename_i heq
      rw [heq, valueOver]
    · rename_i hnoMap
      rw [laidOver_nil hinner]
      apply valueOver_eq_self
      intro below _ heq
      exact (hnoMap _ heq).elim
  have hlaid : Value.find? part (laidOver base entries)
      = some (.map (laidOver (partOf part base) inner)) := by
    rw [find?_laidOver hkeys, hfind, Option.map_some, Option.some_or, hover]
  exact ⟨isPart_of_find? hlaid, partOf_of_find? hlaid⟩

/-- A section of a map laid over another one is null if the map has it so, or leaves it as it is. -/
theorem find?_laidOver_eq_null_iff (hkeys : (entries.map (·.1)).Nodup) :
  Value.find? part (laidOver base entries) = some .null ↔
    (Value.find? part entries).or (Value.find? part base) = some .null
  := by
  rw [find?_laidOver hkeys]
  cases Value.find? part entries with
  | none => rfl
  | some new =>
    rw [Option.map_some, Option.some_or, Option.some_or, Option.some_inj, Option.some_inj]
    cases hold : Value.find? part base with
    | none => rw [valueOver_none]
    | some old =>
      unfold valueOver
      split
      · simp
      · rfl

/-- A section of a map laid over another one is the section of the one laid over that of the
other. -/
theorem isSection_laidOver (hkeys : (entries.map (·.1)).Nodup) (hbase : IsSection part base)
    (h : IsPart part entries) (hinner : ((partOf part entries).map (·.1)).Nodup) :
  IsSection part (laidOver base entries)
    ∧ partOf part (laidOver base entries) = laidOver (partOf part base) (partOf part entries)
  := by
  rcases h.cases with ⟨hnone, hpart⟩ | hsome
  · have hfind := find?_laidOver hkeys base part
    rw [hnone, Option.map_none, Option.none_or] at hfind
    rw [hpart, laidOver]
    exact isSection_congr hfind hbase
  · obtain ⟨hlaid, heq⟩ := @partOf_laidOver part base _ _ hkeys hsome hinner
    exact ⟨hlaid.isSection, heq⟩

end Layer

namespace Store

open Layer

variable {terminal : Terminal} {name part key : String} {read : String → Value}
  {entries : List (String × Value)}

/-- An entry of a section is set in that section, and the others stay as they are. -/
theorem exists_assignEntry (h : IsPart part entries) (key : String) (value : Value) :
  ∃ entries', assignEntry part key value entries = .ok entries'
    ∧ Value.find? part entries' = some (.map (Value.put key value (partOf part entries)))
    ∧ ∀ other, other ≠ part → Value.find? other entries' = Value.find? other entries
  := by
  rw [assignEntry]
  rcases h.cases with ⟨hnone, hpart⟩ | hsome
  · rw [hnone, hpart]
    refine ⟨_, rfl, ?_⟩
    simp +contextual [Value.find?_put, Value.put, eq_comm]
  · rw [hsome]
    refine ⟨_, rfl, ?_⟩
    simp +contextual [Value.find?_put, eq_comm]

/-- The entries of a section with what a variable of the environment stands for. -/
def withVariable (terminal : Terminal) (name key : String) (read : String → Value)
    (entries : List (String × Value)) : List (String × Value) :=
  if terminal.variableOf name = "" then entries
  else Value.put key (read (terminal.variableOf name)) entries

/-- What a variable of the environment stands for is set in one section, if that is not null. -/
theorem exists_assignVariable (terminal : Terminal) (name : String) (h : IsSection part entries)
    (hopen : terminal.variableOf name ≠ "" → Value.find? part entries ≠ some .null)
    (key : String) (read : String → Value) :
  ∃ entries', assignVariable terminal name part key read entries = .ok entries'
    ∧ IsSection part entries'
    ∧ partOf part entries' = withVariable terminal name key read (partOf part entries)
    ∧ (Value.find? part entries' = some .null → Value.find? part entries = some .null)
    ∧ ∀ other, other ≠ part → Value.find? other entries' = Value.find? other entries
  := by
  simp only [assignVariable, withVariable]
  split
  · exact ⟨entries, rfl, h, rfl, id, fun _ _ => rfl⟩
  · rename_i hset
    have hpart := h.cases.resolve_right (hopen hset)
    obtain ⟨entries', hassign, hfind, hothers⟩ := exists_assignEntry hpart key
      (read (terminal.variableOf name))
    refine ⟨entries', hassign, (isPart_of_find? hfind).isSection, partOf_of_find? hfind, ?_,
      hothers⟩
    rw [hfind]
    intro hnull
    cases hnull

/-- What the variable for the ignored names stands for. -/
def readIgnored (raw : String) : Value := .list ((Reading.names raw).map .text)

theorem withEnvironment_eq (terminal : Terminal) (entries : List (String × Value)) :
  withEnvironment terminal entries = (do
    assignVariable terminal "ONETIME_SYMBOLS" "display" "symbols" .text
      (← assignVariable terminal "ONETIME_FORMAT" "display" "format" .text
        (← assignVariable terminal "ONETIME_IGNORED_VARIABLES" "rule" "ignoredVariables"
          readIgnored entries)))
  := rfl

/-- The variables of the environment, and the sections that they are set in. -/
def environmentParts : List (String × String) :=
  [("ONETIME_IGNORED_VARIABLES", "rule"), ("ONETIME_FORMAT", "display"),
    ("ONETIME_SYMBOLS", "display")]

theorem part_mem_of_environmentParts (h : (name, part) ∈ environmentParts) :
  part ∈ ["rule", "display", "files"]
  := by
  have hall : ∀ named ∈ environmentParts, named.2 ∈ ["rule", "display", "files"] := by decide
  exact hall _ h

/-- With the environment, the entries of all three sections are told by those before, unless a
section is null that a variable is to be set in. -/
theorem exists_withEnvironment (terminal : Terminal)
    (hsections : ∀ part ∈ ["rule", "display", "files"], IsSection part entries)
    (hopen : ∀ name part, (name, part) ∈ environmentParts → terminal.variableOf name ≠ "" →
      Value.find? part entries ≠ some .null) :
  ∃ entries', withEnvironment terminal entries = .ok entries'
    ∧ (∀ part ∈ ["rule", "display", "files"], IsSection part entries')
    ∧ partOf "rule" entries'
      = withVariable terminal "ONETIME_IGNORED_VARIABLES" "ignoredVariables" readIgnored
          (partOf "rule" entries)
    ∧ partOf "display" entries'
      = withVariable terminal "ONETIME_SYMBOLS" "symbols" .text
          (withVariable terminal "ONETIME_FORMAT" "format" .text (partOf "display" entries))
    ∧ partOf "files" entries' = partOf "files" entries
  := by
  obtain ⟨first, hfirst, hfirstRule, hfirstPart, -, hfirstOthers⟩ :=
    exists_assignVariable terminal "ONETIME_IGNORED_VARIABLES" (hsections "rule" (by decide))
      (hopen "ONETIME_IGNORED_VARIABLES" "rule" (by decide)) "ignoredVariables" readIgnored
  have hsame := hfirstOthers "display" (by decide)
  have hfirstDisplay := isSection_congr hsame (hsections "display" (by decide))
  obtain ⟨second, hsecond, hsecondDisplay, hsecondPart, hsecondNull, hsecondOthers⟩ :=
    exists_assignVariable terminal "ONETIME_FORMAT" hfirstDisplay.1
      (hsame ▸ hopen "ONETIME_FORMAT" "display" (by decide)) "format" .text
  obtain ⟨third, hthird, hthirdDisplay, hthirdPart, -, hthirdOthers⟩ :=
    exists_assignVariable terminal "ONETIME_SYMBOLS" hsecondDisplay
      (fun hset hnull => hopen "ONETIME_SYMBOLS" "display" (by decide) hset
        (hsame ▸ hsecondNull hnull)) "symbols" .text
  have hothers : ∀ other, other ≠ "display" →
      Value.find? other third = Value.find? other first := fun other hother =>
    (hthirdOthers other hother).trans (hsecondOthers other hother)
  have hrule := isSection_congr (hothers "rule" (by decide)) hfirstRule
  have hfiles := isSection_congr
    ((hothers "files" (by decide)).trans (hfirstOthers "files" (by decide)))
    (hsections "files" (by decide))
  refine ⟨third, ?_, ?_, hrule.2.trans hfirstPart, ?_, hfiles.2⟩
  · rw [withEnvironment_eq, hfirst]
    simp only [bind, Except.bind, hsecond, hthird]
  · simpa using ⟨hrule.1, hthirdDisplay, hfiles.1⟩
  · rw [hthirdPart, hsecondPart, hfirstDisplay.2]

end Store

/-! ### Options from entries -/

namespace RuleOption

/-- Whether a name is one of those by which an option is known. -/
def isNamed (option : RuleOption) (name : String) : Bool := ofName? name = some option

/-- What an option becomes when it is given a value: the ignored names become a set. -/
def taken (option : RuleOption) (value : Value) : Except Error Value :=
  if option = .ignoredVariables then (RuleOptions.members value).map .list else .ok value

end RuleOption

namespace RuleOptions

open Layer

/-- What holds texts, one after the other, can be made a set. -/
theorem exists_members {value : Value} (texts : List String)
    (h : value.contents? = some (texts.map .text)) :
  ∃ names, members value = .ok names
  := by
  have hatoms : (texts.map Value.text).all (·.isAtom) := by
    simp [Value.isAtom]
  rw [members, h]
  exact ⟨_, if_pos hatoms⟩

/-- Maps can be made sets, of their keys. -/
theorem exists_members_map (entries : List (String × Value)) :
  ∃ names, members (.map entries) = .ok names
  := by
  apply exists_members (entries.map (·.1))
  cases entries with
  | nil => rfl
  | cons entry rest => simp [Value.contents?, Value.truthy]

theorem exists_members_list (texts : List String) :
  ∃ names, members (.list (texts.map .text)) = .ok names
  := by
  apply exists_members texts
  cases texts with
  | nil => rfl
  | cons s rest => rfl

/-- An option that is given a value takes it. -/
theorem taken_of_set {options options' : RuleOptions} {option : RuleOption} {value : Value}
    (h : options.set option value = .ok options') :
  option.taken value = .ok (options'.get option)
  := by
  cases option with
  | ignoredVariables =>
    rw [set] at h
    rw [RuleOption.taken, if_pos rfl]
    cases hmembers : members value with
    | error e => simp [hmembers, Except.map] at h
    | ok names =>
      rw [hmembers] at h
      obtain rfl := Except.ok.inj h
      rfl
  | _ =>
    obtain rfl := Except.ok.inj h
    rfl

/-- Options can be taken over from entries if the values for the ignored names are sets. -/
theorem exists_update {entries : List (String × Value)}
    (h : ∀ entry ∈ entries, RuleOption.isNamed .ignoredVariables entry.1 →
      ∃ names, members entry.2 = .ok names) :
  ∀ options : RuleOptions, ∃ options', options.update entries = .ok options'
  := by
  induction entries with
  | nil => exact fun options => ⟨options, rfl⟩
  | cons entry rest ih =>
    intro options
    obtain ⟨name, value⟩ := entry
    have ih := ih fun entry hentry => h entry (List.mem_cons_of_mem _ hentry)
    rw [update]
    cases hname : RuleOption.ofName? name with
    | none => exact ih options
    | some option =>
      obtain ⟨options', hset⟩ : ∃ options', options.set option value = .ok options' := by
        cases option with
        | ignoredVariables =>
          have hnamed : RuleOption.isNamed .ignoredVariables name := decide_eq_true hname
          obtain ⟨names, hnames⟩ := h _ List.mem_cons_self hnamed
          exact ⟨_, by rw [set, hnames]; rfl⟩
        | _ => exact ⟨_, rfl⟩
      obtain ⟨options'', hrest⟩ := ih options'
      use options''
      simp only [hset, bind, Except.bind, hrest]

/-- An option takes the value of the last entry that names it; if there is none it stays as it
is. -/
theorem get_update {entries : List (String × Value)} (option : RuleOption) :
  ∀ {options options' : RuleOptions}, options.update entries = .ok options' →
    match (entries.filter fun entry => option.isNamed entry.1).getLast?.map (·.2) with
    | some given => option.taken given = .ok (options'.get option)
    | none => options'.get option = options.get option
  := by
  induction entries with
  | nil =>
    intro options options' h
    rw [Except.ok.inj h]
    rfl
  | cons entry rest ih =>
    intro options options' h
    obtain ⟨name, value⟩ := entry
    rw [update] at h
    cases hname : RuleOption.ofName? name with
    | none =>
      simp only [hname] at h
      rw [List.filter_cons_of_neg (by simp [RuleOption.isNamed, hname])]
      exact ih h
    | some named =>
      simp only [hname] at h
      obtain ⟨first, hset, h⟩ := exists_ok_of_bind h
      have ih := ih h
      by_cases hnamed : named = option
      · subst hnamed
        rw [List.filter_cons_of_pos (by simp [RuleOption.isNamed, hname]), List.getLast?_cons]
        cases hlast : (rest.filter fun entry => named.isNamed entry.1).getLast? with
        | none =>
          rw [hlast] at ih
          simp only [Option.getD_none, Option.map_some]
          rw [ih]
          exact taken_of_set hset
        | some last =>
          rw [hlast] at ih
          exact ih
      · rw [List.filter_cons_of_neg (by simpa [RuleOption.isNamed, hname] using hnamed)]
        rwa [get_set_of_ne hset (Ne.symm hnamed)] at ih

end RuleOptions

/-! ### At most one entry in each layer -/

namespace Layer

/-- The entry by which a layer names an option. -/
def naming? (option : RuleOption) (entries : List (String × Value)) : Option (String × Value) :=
  (partOf "rule" entries).find? fun entry => option.isNamed entry.1

/-- Where at most one item passes a test, those that pass it are the first one. -/
theorem filter_eq_toList_find? {α : Type} {p : α → Bool} {l : List α}
    (h : (l.filter p).length ≤ 1) :
  l.filter p = (l.find? p).toList
  := by
  rw [← List.head?_filter]
  match hfilter : l.filter p, h with
  | [], _ => rfl
  | [x], _ => rfl

/-- Of two entries laid over each other the upper one comes last. -/
theorem getLast?_laidOver (lower upper : Option (String × Value)) :
  (laidOver lower.toList upper.toList).getLast?
    = (upper.map fun entry =>
        (entry.1, valueOver (Value.find? entry.1 lower.toList) entry.2)).or lower
  := by
  cases upper with
  | none => cases lower <;> simp [laidOver]
  | some new =>
    cases lower with
    | none => simp [laidOver, Value.put]
    | some old =>
      simp only [Option.toList_some, laidOver, Value.put]
      split <;> simp

/-- An entry that is put there comes last, unless it takes the place of the lower one and the upper
one has another key. -/
theorem getLast?_put_laidOver (lower upper : Option (String × Value)) (key : String)
    (value : Value) :
  (Value.put key value (laidOver lower.toList upper.toList)).getLast?
    = if lower.any (·.1 = key) && upper.any (·.1 ≠ key) then
        (laidOver lower.toList upper.toList).getLast?
      else some (key, value)
  := by
  rcases lower with _ | ⟨first, old⟩ <;> rcases upper with _ | ⟨second, new⟩
  · simp [laidOver, Value.put]
  · by_cases hsecond : second = key <;> simp [laidOver, Value.put, hsecond]
  · by_cases hfirst : first = key <;> simp [laidOver, Value.put, hfirst]
  · by_cases hsame : first = second
    · subst hsame
      by_cases hfirst : first = key <;> simp [laidOver, Value.put, hfirst]
    · by_cases hfirst : first = key
      · subst hfirst
        simp [laidOver, Value.put, Value.find?_cons, hsame, Ne.symm hsame]
      · by_cases hsecond : second = key <;>
          simp [laidOver, Value.put, hsame, hfirst, hsecond]

/-- The entries of a layer are those of maps: no key occurs twice, the sections are maps as far as
they are there, and each option is named at most once. -/
structure Tidy (entries : List (String × Value)) : Prop where
  keys : (entries.map (·.1)).Nodup
  parts : ∀ part ∈ ["rule", "display", "files"],
    IsPart part entries ∧ ((partOf part entries).map (·.1)).Nodup
  once : ∀ option : RuleOption,
    ((partOf "rule" entries).filter fun entry => option.isNamed entry.1).length ≤ 1

/-- What a layer has for the ignored names can be made a set, and what it has for the patterns of
files to pass over can be gone through. -/
structure Listable (entries : List (String × Value)) : Prop where
  ignored : ∀ entry ∈ partOf "rule" entries, RuleOption.isNamed .ignoredVariables entry.1 →
    ∃ names, RuleOptions.members entry.2 = .ok names
  exclude : ∀ value, Value.find? "exclude" (partOf "files" entries) = some value →
    ∃ items, value.contents? = some items

theorem Tidy.isPart_laidOver {lower upper : List (String × Value)} (hlower : Tidy lower)
    (hupper : Tidy upper) (part : String) (hpart : part ∈ ["rule", "display", "files"]) :
  IsPart part (laidOver lower upper)
    ∧ partOf part (laidOver lower upper) = laidOver (partOf part lower) (partOf part upper)
  := by
  obtain ⟨hsection, heq⟩ := isSection_laidOver hupper.keys (hlower.parts part hpart).1.isSection
    (hupper.parts part hpart).1 (hupper.parts part hpart).2
  refine ⟨hsection.cases.resolve_right ?_, heq⟩
  rw [find?_laidOver_eq_null_iff hupper.keys, Option.or_eq_some_iff]
  rintro (hnull | ⟨-, hnull⟩)
  · obtain ⟨inner, hinner⟩ := (hupper.parts part hpart).1 _ hnull
    cases hinner
  · obtain ⟨inner, hinner⟩ := (hlower.parts part hpart).1 _ hnull
    cases hinner

end Layer

/-! ### Sources -/

/-! ### Files that fail -/

namespace Layer

/-- Why a file fails when it is read. -/
def failure? : Layer → Option Error
  | failing e => some e
  | _ => none

theorem entriesOf_of_failure {layer : Option Layer} {e : Error}
    (h : layer.bind failure? = some e) :
  Layers.entriesOf layer = .error e
  := by
  obtain ⟨layer, rfl, hfails⟩ := Option.bind_eq_some_iff.mp h
  cases layer with
  | failing e' => rw [← Option.some.inj hfails]; rfl
  | malformed => cases hfails
  | value value => cases hfails

theorem entriesOf_of_readable {layer : Option Layer} (h : layer.bind failure? = none) :
  Layers.entriesOf layer = .ok ((Layers.entriesOf layer).toOption.getD [])
  := by
  rcases layer with _ | _ | e | value
  · rfl
  · rfl
  · cases h
  · cases value <;> rfl

end Layer

/-! ### Sources of settings -/

/-- The values that are given to a setting: by the environment, by the file of the project and by
that of the user. -/
structure Sources where
  environment : Option Value
  project : Option Value
  user : Option Value

namespace Sources

/-- The value that decides: that of the environment, unless it is hidden, before that of the project
before that of the user. -/
def first? (sources : Sources) (hidden : Bool) : Option Value :=
  (if hidden then none else sources.environment).or (sources.project.or sources.user)

end Sources

namespace Store

open Layer

/-- The entries of the file of the user; one that fails has none. -/
def userEntries (store : Store) : List (String × Value) :=
  (Layers.entriesOf store.layers.user).toOption.getD []

/-- The entries of the file of the project; one that fails has none. -/
def projectEntries (store : Store) : List (String × Value) :=
  (Layers.entriesOf store.layers.project).toOption.getD []

/-- Why the files fail when they are read, the one of the user first. -/
def failure? (store : Store) : Option Error :=
  (store.layers.user.bind Layer.failure?).or (store.layers.project.bind Layer.failure?)

/-- The value that a variable of the environment gives, if it is set and not empty. -/
def environment? (store : Store) (name : String) (read : String → Value) : Option Value :=
  if store.terminal.variableOf name = "" then none
  else some (read (store.terminal.variableOf name))

/-- The values that are given to an option.  The value of the project is laid over that of the
user under the same key, which makes a difference only if both are maps. -/
def optionSources (store : Store) (option : RuleOption) : Sources where
  environment :=
    if option = .ignoredVariables then store.environment? "ONETIME_IGNORED_VARIABLES" readIgnored
    else none
  project := (naming? option store.projectEntries).map fun entry =>
    valueOver (Value.find? entry.1 (partOf "rule" store.userEntries)) entry.2
  user := (naming? option store.userEntries).map (·.2)

/-- The values that are given to a setting of the display. -/
def displaySources (store : Store) (name key : String) : Sources where
  environment := store.environment? name .text
  project := (Value.find? key (partOf "display" store.projectEntries)).map
    (valueOver (Value.find? key (partOf "display" store.userEntries)))
  user := Value.find? key (partOf "display" store.userEntries)

/-- Whether the file of the project hides what the environment says of an option: the user names it
by its main key and the project by another one. -/
def Hides (store : Store) (option : RuleOption) : Bool :=
  (naming? option store.userEntries).any (·.1 = option.key)
    && (naming? option store.projectEntries).any (·.1 ≠ option.key)

/-- The entries of the project laid over those of the user. -/
def fileEntries (store : Store) : List (String × Value) :=
  laidOver store.userEntries store.projectEntries

/-- The entries for the options, those of the environment and of both files together. -/
def ruleEntries (store : Store) : List (String × Value) :=
  withVariable store.terminal "ONETIME_IGNORED_VARIABLES" "ignoredVariables" readIgnored
    (laidOver (partOf "rule" store.userEntries) (partOf "rule" store.projectEntries))

/-- The entries for the display, those of the environment and of both files together. -/
def displayEntries (store : Store) : List (String × Value) :=
  withVariable store.terminal "ONETIME_SYMBOLS" "symbols" .text
    (withVariable store.terminal "ONETIME_FORMAT" "format" .text
      (laidOver (partOf "display" store.userEntries) (partOf "display" store.projectEntries)))

/-- The entries for the files, those of both files together. -/
def filesEntries (store : Store) : List (String × Value) :=
  laidOver (partOf "files" store.userEntries) (partOf "files" store.projectEntries)

/-- Where the settings in force come from. -/
structure Layered (store : Store) (settings : Settings) : Prop where
  /-- An option takes the value of its first source, where the environment counts only if it is not
  hidden, and has its default value if there is none. -/
  rule : ∀ option,
    match (store.optionSources option).first? (store.Hides option) with
    | some given => option.taken given = .ok (settings.rule.get option)
    | none => settings.rule.get option = ({} : RuleOptions).get option
  format : settings.format
    = ((store.displaySources "ONETIME_FORMAT" "format").first? false).getD (.text "list")
  symbols : settings.symbols
    = ((store.displaySources "ONETIME_SYMBOLS" "symbols").first? false).getD (.text "auto")

variable {store : Store}

/-- The key of an option names it, and the key of the ignored names names no other option. -/
theorem isNamed_ignoredVariables (option : RuleOption) :
  option.isNamed "ignoredVariables" = decide (option = .ignoredVariables)
  := by
  cases option <;> decide

/-- The entries of all layers that name an option end with the one of the source that decides. -/
theorem getLast?_optionSources (huser : Tidy store.userEntries)
    (hproject : Tidy store.projectEntries) (option : RuleOption) :
  (store.ruleEntries.filter fun entry => option.isNamed entry.1).getLast?.map (·.2)
    = (store.optionSources option).first? (store.Hides option)
  := by
  have hlower : (partOf "rule" store.userEntries).filter (fun entry => option.isNamed entry.1)
      = (naming? option store.userEntries).toList := filter_eq_toList_find? (huser.once option)
  have hupper : (partOf "rule" store.projectEntries).filter (fun entry => option.isNamed entry.1)
      = (naming? option store.projectEntries).toList :=
    filter_eq_toList_find? (hproject.once option)
  have hover : (naming? option store.projectEntries).map (fun entry =>
      (entry.1, valueOver (Value.find? entry.1 (naming? option store.userEntries).toList) entry.2))
      = (naming? option store.projectEntries).map fun entry =>
        (entry.1, valueOver (Value.find? entry.1 (partOf "rule" store.userEntries)) entry.2) := by
    apply Option.map_congr
    intro entry hentry
    have hnamed : option.isNamed entry.1 := by
      simpa using List.find?_some hentry
    rw [← hlower, Value.find?_filter hnamed]
  have hlast : (laidOver (naming? option store.userEntries).toList
      (naming? option store.projectEntries).toList).getLast?.map (·.2)
      = (store.optionSources option).project.or (store.optionSources option).user := by
    rw [getLast?_laidOver, hover, optionSources, Option.map_or, Option.map_map]
    rfl
  rw [Sources.first?, ← hlast]
  by_cases hraw : store.terminal.variableOf "ONETIME_IGNORED_VARIABLES" = ""
  · have henvironment : (store.optionSources option).environment = none := by
      simp [optionSources, environment?, hraw]
    rw [ruleEntries, withVariable, if_pos hraw, filter_laidOver, hlower, hupper, henvironment,
      ite_self, Option.none_or]
  rw [ruleEntries, withVariable, if_neg hraw, Value.filter_put, isNamed_ignoredVariables,
    filter_laidOver, hlower, hupper]
  by_cases hignored : option = .ignoredVariables
  · subst hignored
    have henvironment : (store.optionSources .ignoredVariables).environment
        = some (readIgnored (store.terminal.variableOf "ONETIME_IGNORED_VARIABLES")) := by
      simp [optionSources, environment?, hraw]
    have hhides : ((naming? .ignoredVariables store.userEntries).any (·.1 = "ignoredVariables")
        && (naming? .ignoredVariables store.projectEntries).any (·.1 ≠ "ignoredVariables"))
        = store.Hides .ignoredVariables := rfl
    rw [if_pos (decide_eq_true rfl), getLast?_put_laidOver, henvironment, hhides]
    cases store.Hides .ignoredVariables
    · rfl
    · rfl
  · have henvironment : (store.optionSources option).environment = none := by
      rw [optionSources, if_neg hignored]
    rw [if_neg (by simpa using hignored), henvironment, ite_self, Option.none_or]

/-- Under the key of a variable stands what the variable stands for, if it is set. -/
theorem find?_withVariable (name key : String) (read : String → Value)
    (entries : List (String × Value)) :
  Value.find? key (withVariable store.terminal name key read entries)
    = (store.environment? name read).or (Value.find? key entries)
  := by
  rw [withVariable, environment?]
  split
  · rfl
  · rw [Value.find?_put, if_pos rfl]
    rfl

/-- A variable does not touch what stands under other keys. -/
theorem find?_withVariable_of_ne {key other : String} (hne : key ≠ other) (name : String)
    (read : String → Value) (entries : List (String × Value)) :
  Value.find? other (withVariable store.terminal name key read entries)
    = Value.find? other entries
  := by
  rw [withVariable]
  split
  · rfl
  · rw [Value.find?_put, if_neg hne]

theorem find?_format (hproject : Tidy store.projectEntries) :
  Value.find? "format" store.displayEntries
    = (store.displaySources "ONETIME_FORMAT" "format").first? false
  := by
  rw [displayEntries, find?_withVariable_of_ne (by decide), find?_withVariable,
    find?_laidOver (hproject.parts "display" (by decide)).2]
  rfl

theorem find?_symbols (hproject : Tidy store.projectEntries) :
  Value.find? "symbols" store.displayEntries
    = (store.displaySources "ONETIME_SYMBOLS" "symbols").first? false
  := by
  rw [displayEntries, find?_withVariable, find?_withVariable_of_ne (by decide),
    find?_laidOver (hproject.parts "display" (by decide)).2]
  rfl

end Store

/-! ### Loading -/

namespace Settings

open Layer

/-- What stands for a section is null, and then it has no entries, or it is the map of them. -/
theorem sectionOf_cases {part : String} {entries : List (String × Value)}
    (h : IsSection part entries) :
  (sectionOf part entries = .null ∧ partOf part entries = [])
    ∨ sectionOf part entries = .map (partOf part entries)
  := by
  rcases h.cases with hmap | hnull
  · rcases hmap.cases with ⟨hnone, hpart⟩ | hsome
    · exact .inl ⟨by rw [sectionOf, hnone, Option.getD_none], hpart⟩
    · exact .inr (by rw [sectionOf, hsome, Option.getD_some])
  · exact .inl ⟨by rw [sectionOf, hnull, Option.getD_some], partOf_of_null hnull⟩

/-- The settings of entries whose sections are maps, or null. -/
theorem ofEntries_eq {entries : List (String × Value)}
    (hsections : ∀ part ∈ ["rule", "display", "files"], IsSection part entries) :
  Settings.ofEntries entries = (do
    let rule ← ({} : RuleOptions).update (partOf "rule" entries)
    match ((Value.find? "exclude" (partOf "files" entries)).getD .null).contents? with
    | none => throw .wrongKind
    | some exclude =>
      return {
        rule
        symbols := (Value.find? "symbols" (partOf "display" entries)).getD (.text "auto")
        format := (Value.find? "format" (partOf "display" entries)).getD (.text "list")
        exclude
        includeTests := (Value.find? "include_tests" (partOf "files" entries)).getD (.bool true)
        maxFileSize := (Value.find? "max_file_size" (partOf "files" entries)).getD .null })
  := by
  have hofValue : RuleOptions.ofValue (sectionOf "rule" entries)
      = ({} : RuleOptions).update (partOf "rule" entries) := by
    rcases sectionOf_cases (hsections "rule" (by decide)) with ⟨hnull, hpart⟩ | hmap
    · rw [hnull, hpart]
      rfl
    · rw [hmap]
      cases partOf "rule" entries with
      | nil => rfl
      | cons entry rest => rfl
  have hentriesOf : ∀ part, IsSection part entries →
      entriesOf (sectionOf part entries) = .ok (partOf part entries) := by
    intro part h
    rcases sectionOf_cases h with ⟨hnull, hpart⟩ | hmap
    · rw [hnull, hpart]
      rfl
    · rw [hmap]
      cases partOf part entries with
      | nil => rfl
      | cons entry rest => rfl
  rw [Settings.ofEntries, hofValue, hentriesOf _ (hsections "display" (by decide)),
    hentriesOf _ (hsections "files" (by decide))]
  rfl

end Settings

namespace Store

open Layer

variable {store : Store}

/-- The entries of the files are those of the project laid over those of the user, if no file
fails. -/
theorem layers_entries (hkeys : (store.userEntries.map (·.1)).Nodup)
    (hreadable : store.failure? = none) :
  store.layers.entries = .ok store.fileEntries
  := by
  obtain ⟨huser, hproject⟩ := Option.or_eq_none_iff.mp hreadable
  rw [Layers.entries, entriesOf_of_readable huser, entriesOf_of_readable hproject]
  change Except.ok (laidOver (laidOver [] store.userEntries) store.projectEntries) = _
  rw [laidOver_nil hkeys, fileEntries]

/-- There are no entries if a file fails. -/
theorem layers_entries_of_failure {e : Error} (h : store.failure? = some e) :
  store.layers.entries = .error e
  := by
  rcases Option.or_eq_some_iff.mp h with huser | ⟨huser, hproject⟩
  · rw [Layers.entries, entriesOf_of_failure huser]
    rfl
  · rw [Layers.entries, entriesOf_of_readable huser, entriesOf_of_failure hproject]
    rfl

/-- No settings are loaded from files of which one fails. -/
theorem load_of_failure {e : Error} (hfresh : store.changed = none)
    (h : store.failure? = some e) :
  store.load = .error e
  := by
  rw [load, hfresh, layers_entries_of_failure h]
  rfl

/-- No file fails from which settings are loaded. -/
theorem failure?_eq_none_of_load {settings : Settings} (hfresh : store.changed = none)
    (hload : store.load = .ok settings) :
  store.failure? = none
  := by
  cases h : store.failure? with
  | none => rfl
  | some e => cases (load_of_failure hfresh h).symm.trans hload

/-- The settings of a store with nothing changed are those of its entries with the environment, if
no file fails and there is no section that is null and a variable is to be set in. -/
theorem exists_load_eq_ofEntries (hfresh : store.changed = none)
    (hreadable : store.failure? = none) (hkeys : (store.userEntries.map (·.1)).Nodup)
    (hsections : ∀ part ∈ ["rule", "display", "files"], IsSection part store.fileEntries)
    (hopen : ∀ name part, (name, part) ∈ environmentParts → store.terminal.variableOf name ≠ "" →
      Value.find? part store.fileEntries ≠ some .null) :
  ∃ entries, store.load = Settings.ofEntries entries
    ∧ (∀ part ∈ ["rule", "display", "files"], IsSection part entries)
    ∧ partOf "rule" entries
      = withVariable store.terminal "ONETIME_IGNORED_VARIABLES" "ignoredVariables" readIgnored
          (partOf "rule" store.fileEntries)
    ∧ partOf "display" entries
      = withVariable store.terminal "ONETIME_SYMBOLS" "symbols" .text
          (withVariable store.terminal "ONETIME_FORMAT" "format" .text
            (partOf "display" store.fileEntries))
    ∧ partOf "files" entries = partOf "files" store.fileEntries
  := by
  obtain ⟨entries, hwith, hparts⟩ := exists_withEnvironment store.terminal hsections hopen
  refine ⟨entries, ?_, hparts⟩
  rw [load, hfresh, layers_entries hkeys hreadable]
  simp only [bind, Except.bind, hwith]

/-- The settings of a store with nothing changed, told by the entries of each section. -/
theorem load_eq (hfresh : store.changed = none) (hreadable : store.failure? = none)
    (huser : Tidy store.userEntries) (hproject : Tidy store.projectEntries) :
  store.load = (do
    let rule ← ({} : RuleOptions).update store.ruleEntries
    match ((Value.find? "exclude" store.filesEntries).getD .null).contents? with
    | none => throw .wrongKind
    | some exclude =>
      return {
        rule
        symbols := (Value.find? "symbols" store.displayEntries).getD (.text "auto")
        format := (Value.find? "format" store.displayEntries).getD (.text "list")
        exclude
        includeTests := (Value.find? "include_tests" store.filesEntries).getD (.bool true)
        maxFileSize := (Value.find? "max_file_size" store.filesEntries).getD .null })
  := by
  have hparts : ∀ part ∈ ["rule", "display", "files"], IsPart part store.fileEntries
      ∧ partOf part store.fileEntries
        = laidOver (partOf part store.userEntries) (partOf part store.projectEntries) :=
    huser.isPart_laidOver hproject
  have hopen : ∀ name part, (name, part) ∈ environmentParts →
      store.terminal.variableOf name ≠ "" → Value.find? part store.fileEntries ≠ some .null := by
    intro name part hpart _ hnull
    obtain ⟨inner, hinner⟩ := (hparts part (part_mem_of_environmentParts hpart)).1 _ hnull
    cases hinner
  obtain ⟨entries, hload, hsections, hrule, hdisplay, hfiles⟩ :=
    exists_load_eq_ofEntries hfresh hreadable huser.keys
      (fun part hpart => (hparts part hpart).1.isSection)
      hopen
  rw [hload, Settings.ofEntries_eq hsections, hrule, hdisplay, hfiles,
    (hparts "rule" (by decide)).2, (hparts "display" (by decide)).2,
    (hparts "files" (by decide)).2]
  rfl

/-- The options can be taken over from the entries of all layers together. -/
theorem exists_update_ruleEntries (hlower : Listable store.userEntries)
    (hupper : Listable store.projectEntries) :
  ∃ rule, ({} : RuleOptions).update store.ruleEntries = .ok rule
  := by
  apply RuleOptions.exists_update
  have hfiles : ∀ entry ∈ laidOver (partOf "rule" store.userEntries)
      (partOf "rule" store.projectEntries), RuleOption.isNamed .ignoredVariables entry.1 →
        ∃ names, RuleOptions.members entry.2 = .ok names := by
    refine of_mem_laidOver (fun key value => RuleOption.isNamed .ignoredVariables key →
      ∃ names, RuleOptions.members value = .ok names) ?_ hupper.ignored hlower.ignored
    intro key old new _ hnew hnamed
    rcases valueOver_cases old new with heq | ⟨entries, heq⟩
    · rw [heq]
      exact hnew hnamed
    · rw [heq]
      exact RuleOptions.exists_members_map entries
  intro entry hentry hnamed
  rw [ruleEntries, withVariable] at hentry
  split at hentry
  · exact hfiles entry hentry hnamed
  · rcases Value.mem_put hentry with rfl | hentry
    · exact RuleOptions.exists_members_list _
    · exact hfiles entry hentry hnamed

/-- The patterns of files to pass over can be gone through in the entries of both files together. -/
theorem exists_contents_filesEntries (hproject : Tidy store.projectEntries)
    (hlower : Listable store.userEntries) (hupper : Listable store.projectEntries) :
  ∃ exclude, ((Value.find? "exclude" store.filesEntries).getD .null).contents? = some exclude
  := by
  rw [filesEntries, find?_laidOver (hproject.parts "files" (by decide)).2]
  cases hnew : Value.find? "exclude" (partOf "files" store.projectEntries) with
  | none =>
    cases hold : Value.find? "exclude" (partOf "files" store.userEntries) with
    | none => exact ⟨[], rfl⟩
    | some old => exact hlower.exclude old hold
  | some new =>
    cases hold : Value.find? "exclude" (partOf "files" store.userEntries) with
    | none => simpa using hupper.exclude new hnew
    | some old =>
      rcases valueOver_cases old new with heq | ⟨entries, heq⟩
      · simpa [heq] using hupper.exclude new hnew
      · simp only [Option.map_some, Option.some_or, Option.getD_some, heq, Value.contents?]
        split
        · exact ⟨_, rfl⟩
        · exact ⟨_, rfl⟩

/-- A store with nothing changed has settings in force that come from its sources.  There are such
settings if no file fails and what should be a set or a list in the files can be made one. -/
theorem load_layered (hfresh : store.changed = none) (huser : Tidy store.userEntries)
    (hproject : Tidy store.projectEntries) :
  (store.failure? = none → Listable store.userEntries → Listable store.projectEntries →
      ∃ settings, store.load = .ok settings)
    ∧ ∀ settings, store.load = .ok settings → store.Layered settings
  := by
  constructor
  · intro hreadable hlower hupper
    have hload := load_eq hfresh hreadable huser hproject
    obtain ⟨rule, hupdate⟩ := exists_update_ruleEntries hlower hupper
    obtain ⟨exclude, hexclude⟩ := exists_contents_filesEntries hproject hlower hupper
    rw [hload, hupdate]
    simp only [bind, Except.bind, hexclude]
    exact ⟨_, rfl⟩
  · intro settings h
    rw [load_eq hfresh (failure?_eq_none_of_load hfresh h) huser hproject] at h
    obtain ⟨rule, hupdate, h⟩ := exists_ok_of_bind h
    split at h
    · cases h
    · obtain rfl := Except.ok.inj h
      constructor
      · intro option
        have hget := RuleOptions.get_update option hupdate
        rwa [getLast?_optionSources huser hproject] at hget
      · rw [← find?_format hproject]
      · rw [← find?_symbols hproject]

/-- A store in which the user and the project name the same options by different keys, and the
environment names one of them. -/
def threeLayers : Store where
  layers := {
    user := some (.value (.map [("rule", .map [("ignoredVariables", .list [.text "self"]),
      ("maxInitializerLength", .int 10)])]))
    project := some (.value (.map [("rule", .map [("ignored_variables", .list [.text "that"]),
      ("max_initializer_length", .int 20)])])) }
  terminal := { environment := [("ONETIME_IGNORED_VARIABLES", "mine"), ("ONETIME_FORMAT", "json")] }

/-- Both files of the store are tidy, and what they have for the ignored names is a list. -/
theorem tidy_threeLayers :
  (Tidy threeLayers.userEntries ∧ Tidy threeLayers.projectEntries)
    ∧ Listable threeLayers.userEntries ∧ Listable threeLayers.projectEntries
  := by
  have htidy : ∀ inner : List (String × Value),
      (inner.map (·.1)).Nodup →
      (∀ option : RuleOption, (inner.filter fun entry => option.isNamed entry.1).length ≤ 1) →
      Tidy [("rule", .map inner)] := by
    intro inner hkeys honce
    refine ⟨by simp, ?_, by simpa [partOf, Value.find?_cons] using honce⟩
    simpa [IsPart, partOf, Value.find?_cons] using hkeys
  have hlistable : ∀ name key name' : String, ∀ n : Int,
      RuleOption.isNamed .ignoredVariables name' = false →
      Listable [("rule", .map [(key, .list [.text name]), (name', .int n)])] := by
    intro name key name' n hname'
    constructor
    · simp [partOf, Value.find?_cons, hname']
      exact fun _ => RuleOptions.exists_members_list [name]
    · simp [partOf, Value.find?_cons]
  refine ⟨⟨htidy _ (by decide) ?_, htidy _ (by decide) ?_⟩, hlistable _ _ _ _ (by decide),
    hlistable _ _ _ _ (by decide)⟩
  · exact fun option => by cases option <;> decide
  · exact fun option => by cases option <;> decide

/-- The names that the environment ignores are hidden by the project, but its format is in force. -/
theorem load_layered_threeLayers :
  threeLayers.changed = none
    ∧ (Tidy threeLayers.userEntries ∧ Tidy threeLayers.projectEntries)
    ∧ threeLayers.failure? = none
    ∧ (Listable threeLayers.userEntries ∧ Listable threeLayers.projectEntries)
    ∧ threeLayers.Hides .ignoredVariables
    ∧ ∃ settings, threeLayers.load = .ok settings
      ∧ settings.rule.ignoredVariables = [.text "that"]
      ∧ settings.rule.maxInitializerLength = .int 20
      ∧ settings.format = .text "json"
      ∧ threeLayers.Layered settings
  := by
  obtain ⟨⟨huser, hproject⟩, hlower, hupper⟩ := tidy_threeLayers
  obtain ⟨hexists, hlayered⟩ := @load_layered threeLayers rfl huser hproject
  obtain ⟨settings, hload⟩ := hexists rfl hlower hupper
  use rfl, ⟨huser, hproject⟩, rfl, ⟨hlower, hupper⟩, by decide, settings, hload
  have hsettings : ({
      rule := { ignoredVariables := [.text "that"], maxInitializerLength := .int 20 }
      format := .text "json" } : Settings) = settings := Except.ok.inj hload
  subst hsettings
  use rfl, rfl, rfl
  exact hlayered _ hload

end Store

end SingleUse
