import SingleUse.Proofs.Locating
import SingleUse.Proofs.Numerals
import SingleUse.Proofs.Overriding
import Mathlib.Data.Set.List

/-!
# Ignoring names

The names that are not to be reported can be given by the environment, by a change of the setting,
or by an override, each time as a text with commas between them.  The environment always takes the
names between the commas.  The other two *read* the text first, and it is only taken for a list if
it is nothing else: a single name that looks like a switch or a number is read as one and then
written out again, and what comes out need not be the name.
-/

namespace SingleUse

/-- Items that are texts can be made a set. -/
theorem RuleOptions.exists_members_of_texts {items : List Value}
    (h : ∀ item ∈ items, ∃ s, item = .text s) :
  ∃ names, members (.list items) = .ok names
  := by
  obtain ⟨texts, rfl⟩ : items ∈ Set.range (List.map Value.text) := by
    rw [Set.range_list_map]
    exact fun item hitem => (h item hitem).imp fun s hs => hs.symm
  exact exists_members_list texts

/-! ### Marks that stay -/

namespace Text

/-- Trimming takes away blanks only. -/
theorem mem_trim {text : String} {c : Char} (hc : c ∈ text.toList) (hblank : isBlank c = false) :
  c ∈ (trim text).toList
  := by
  have hdrop : ∀ chars : List Char, c ∈ chars → c ∈ chars.dropWhile isBlank := by
    intro chars hmem
    rw [← List.takeWhile_append_dropWhile (p := isBlank) (l := chars)] at hmem
    rcases List.mem_append.mp hmem with htaken | hdropped
    · have hisBlank := List.mem_takeWhile_imp htaken
      rw [hblank] at hisBlank
      cases hisBlank
    · exact hdropped
  simpa [trim, trimEnd, trimStart] using hdrop _ (by simpa using hdrop _ hc)

/-- A comma stays where a text is lowered. -/
theorem comma_mem_lower {text : String} (h : ',' ∈ text.toList) :
  ',' ∈ (lower text).toList
  := by
  obtain ⟨first, second, htext⟩ := List.append_of_mem h
  obtain ⟨start, hstart⟩ := exists_lowerAfter_append [] first (',' :: second)
  have hcomma : lowerChar ',' = [','] := by decide +kernel
  rw [lower, String.toList_ofList, htext, hstart, lowerAfter, if_neg (by simp), hcomma]
  simp

/-- A text is cut at the first mark. -/
theorem cutAt?_append {mark : Char} {separator before : String}
    (hseparator : separator.toList = [mark]) (hbefore : mark ∉ before.toList) (after : String) :
  cutAt? mark (before ++ separator ++ after) = some (before, after)
  := by
  rw [cutAt?]
  simp only [String.toList_append, hseparator, List.append_assoc, List.singleton_append,
    takeWhile_append_mark hbefore, List.drop_left, String.ofList_toList]

end Text

/-! ### Names between commas -/

namespace Reading

/-- Whether a text can be one of several names with commas between them. -/
structure IsName (name : String) : Prop where
  nonempty : name ≠ ""
  comma : ',' ∉ name.toList
  /-- There are no blanks around it. -/
  trimmed : Text.trim name = name

/-- Whether items are just some names, in any order and with repetitions or without. -/
def AreJust (items : List Value) (names : List String) : Prop :=
  ∀ item, item ∈ items ↔ ∃ name ∈ names, item = .text name

/-- Whether a text gives just some names to the ignored ones. -/
def Gives (raw : String) (names : List String) : Prop :=
  ∃ items, RuleOption.ignoredVariables.given raw = .ok (.list items) ∧ AreJust items names

/-- Whether a single name is not changed by being read and written out again: it is the text of the
true value, or nothing that a switch or a number is read from, or the plain digits of a positive
number that does not have too many. -/
inductive StandsAlone (name : String) : Prop where
  | switch (h : name = "True")
  | text (hwords : Text.lower name ∉ trueWords ++ falseWords)
      (hdigits : ¬ Text.isDigits (Text.lower name))
  | number (n : Nat) (hpositive : 0 < n) (h : name = toString n)
      (hlength : name.length ≤ Text.maxDigits)

/-- Whether names are read as a list of names: there are several, or there is one that stands
alone. -/
def AreRead (names : List String) : Prop :=
  2 ≤ names.length ∨ ∃ name, names = [name] ∧ StandsAlone name

variable {names : List String} {name : String}

/-- What is just some names is texts. -/
theorem AreJust.eq_text {items : List Value} (h : AreJust items names) {item : Value}
    (hitem : item ∈ items) :
  ∃ s, item = .text s
  := by
  obtain ⟨s, -, rfl⟩ := (h item).mp hitem
  exact ⟨s, rfl⟩

theorem areJust_map_text (names : List String) : AreJust (names.map .text) names := by
  intro item
  simp [eq_comm]

/-- The names between the commas of a text are those that it was joined of. -/
theorem names_intercalate (hne : names ≠ []) (hnames : ∀ name ∈ names, IsName name) :
  Reading.names (",".intercalate names) = names
  := by
  rw [Reading.names, Text.split_intercalate rfl (fun name hname => (hnames name hname).comma) hne]
  have htrim : names.map Text.trim = names := by
    conv_rhs => rw [← List.map_id names]
    apply List.map_congr_left
    intro name hname
    exact (hnames name hname).trimmed
  rw [htrim, List.filter_eq_self]
  intro name hname
  simpa using (hnames name hname).nonempty

/-! ### What a text is read as -/

section value

variable {raw : String}

/-- A word that a switch is read from is not one of digits. -/
theorem not_isDigits_of_mem_words : ∀ word ∈ trueWords ++ falseWords, ¬ Text.isDigits word := by
  decide +kernel

theorem value_of_mem_trueWords (h : Text.lower (Text.trim raw) ∈ trueWords) :
  Reading.value raw = .ok (.bool true)
  := by
  rw [Reading.value]
  simp only [List.contains_iff_mem.mpr h, if_true]

theorem value_of_mem_falseWords (h : Text.lower (Text.trim raw) ∈ falseWords) :
  Reading.value raw = .ok (.bool false)
  := by
  have hother : ∀ word ∈ falseWords, word ∉ trueWords := by decide
  rw [Reading.value]
  simp [hother _ h, h]

theorem value_of_isDigits (h : Text.isDigits (Text.lower (Text.trim raw))) :
  Reading.value raw = match Text.readInt (Text.lower (Text.trim raw)) with
    | .ok n => .ok (.int n)
    | .error fault => .error (.number fault)
  := by
  have hwords : Text.lower (Text.trim raw) ∉ trueWords ++ falseWords := fun hmem =>
    not_isDigits_of_mem_words _ hmem h
  rw [List.mem_append, not_or] at hwords
  rw [Reading.value]
  cases Text.readInt (Text.lower (Text.trim raw)) <;>
    simp only [List.contains_eq_mem, hwords.1, hwords.2, decide_false, Bool.false_eq_true, if_false,
      h, if_true]

/-- A text that neither a switch nor a number is read from is a list of names if it has a comma, and
otherwise a text. -/
theorem value_of_plain (hwords : Text.lower (Text.trim raw) ∉ trueWords ++ falseWords)
    (hdigits : ¬ Text.isDigits (Text.lower (Text.trim raw))) :
  Reading.value raw = if ',' ∈ raw.toList then .ok (.list ((Reading.names raw).map .text))
    else .ok (.text (Text.trim raw))
  := by
  rw [List.mem_append, not_or] at hwords
  rw [Reading.value]
  simp only [List.contains_eq_mem, hwords.1, hwords.2, decide_false, Bool.false_eq_true, if_false,
    hdigits, decide_eq_true_eq]

/-- A text with a comma is read as the list of the names between its commas: no switch and no number
is written with one. -/
theorem value_of_comma (h : ',' ∈ raw.toList) :
  Reading.value raw = .ok (.list ((Reading.names raw).map .text))
  := by
  have hword : ',' ∈ (Text.lower (Text.trim raw)).toList :=
    Text.comma_mem_lower (Text.mem_trim h (by decide +kernel))
  have hwords : Text.lower (Text.trim raw) ∉ trueWords ++ falseWords := by
    have hplain : ∀ word ∈ trueWords ++ falseWords, ',' ∉ word.toList := by decide
    exact fun hmem => hplain _ hmem hword
  have hdigits : ¬ Text.isDigits (Text.lower (Text.trim raw)) := by
    intro hdigits
    have hcomma : Text.isDigit ',' = false := by decide +kernel
    rw [List.all_eq_true.mp (Bool.and_eq_true_iff.mp hdigits).2 ',' hword] at hcomma
    cases hcomma
  rw [value_of_plain hwords hdigits, if_pos h]

end value

/-! ### What a text gives -/

/-- What a text gives to the ignored names is the list of names that it is read as. -/
theorem given_ignoredVariables (raw : String) :
  RuleOption.ignoredVariables.given raw = (Reading.value raw).map asNames
  := by
  rw [RuleOption.given]
  cases Reading.value raw <;> rfl

/-- A value that counts as true and is no list is a single name. -/
theorem asNames_of_truthy {value : Value} (hlist : ∀ items, value ≠ .list items)
    (h : value.truthy) :
  asNames value = .list [.text value.display]
  := by
  cases value with
  | list items => exact absurd rfl (hlist items)
  | _ =>
    rw [asNames, if_pos h]
    simp

/-- Several names are given as they are. -/
theorem gives_of_several (hnames : ∀ name ∈ names, IsName name) (hseveral : 2 ≤ names.length) :
  Gives (",".intercalate names) names
  := by
  have hne : names ≠ [] := by
    rintro rfl
    simp at hseveral
  have hcomma : ',' ∈ (",".intercalate names).toList := by
    obtain ⟨first, second, rest, rfl⟩ : ∃ first second rest, names = first :: second :: rest := by
      match names, hseveral with
      | first :: second :: rest, _ => exact ⟨first, second, rest, rfl⟩
    rw [String.toList_intercalate, List.map_cons, List.map_cons, List.intercalate_cons_cons]
    simp
  use names.map .text
  rw [given_ignoredVariables, value_of_comma hcomma, names_intercalate hne hnames]
  exact ⟨rfl, areJust_map_text names⟩

/-- What a text gives is told by the items that it is read as. -/
theorem gives_iff_of_given {raw : String} {items : List Value}
    (h : RuleOption.ignoredVariables.given raw = .ok (.list items)) :
  Gives raw names ↔ AreJust items names
  := by
  constructor
  · rintro ⟨others, hothers, hjust⟩
    obtain rfl := Value.list.inj (Except.ok.inj (hothers.symm.trans h))
    exact hjust
  · exact fun hjust => ⟨items, h, hjust⟩

theorem areJust_singleton_iff {text : String} :
  AreJust [.text text] [name] ↔ text = name
  := by
  constructor
  · intro h
    obtain ⟨other, hother, heq⟩ := (h (.text text)).mp List.mem_cons_self
    rw [Value.text.inj heq, List.mem_singleton.mp hother]
  · rintro rfl
    exact areJust_map_text [text]

theorem not_areJust_nil : ¬ AreJust [] [name] := by
  intro h
  exact List.not_mem_nil ((h (.text name)).mpr ⟨name, List.mem_cons_self, rfl⟩)

/-- A single name that a switch is read from is given as it is only if it is the text of the true
value. -/
theorem gives_iff_of_mem_words (h : IsName name)
    (hword : Text.lower name ∈ trueWords ++ falseWords) :
  Gives name [name] ↔ name = "True"
  := by
  have hgiven := given_ignoredVariables name
  rw [← h.trimmed] at hword
  rcases List.mem_append.mp hword with htrue | hfalse
  · rw [value_of_mem_trueWords htrue] at hgiven
    rw [gives_iff_of_given hgiven]
    exact areJust_singleton_iff.trans eq_comm
  · rw [value_of_mem_falseWords hfalse] at hgiven
    rw [gives_iff_of_given hgiven]
    constructor
    · exact fun hnil => absurd hnil not_areJust_nil
    · rintro rfl
      have htext : Text.lower (Text.trim "True") ∉ falseWords := by decide +kernel
      exact absurd hfalse htext

/-- A single name that a number is read from is given as it is exactly if it is the text of a
positive number. -/
theorem gives_iff_of_isDigits (h : IsName name) (hdigits : Text.isDigits (Text.lower name)) :
  Gives name [name] ↔ ∃ n : Nat, 0 < n ∧ name = toString n ∧ name.length ≤ Text.maxDigits
  := by
  have hgiven := given_ignoredVariables name
  have hword := hdigits
  rw [← h.trimmed] at hword
  rw [value_of_isDigits hword, h.trimmed] at hgiven
  constructor
  · rintro ⟨items, hitems, hjust⟩
    rw [hgiven] at hitems
    split at hitems
    · rename_i m hm
      obtain ⟨n, rfl⟩ := Int.eq_ofNat_of_zero_le (Text.nonneg_of_readInt hdigits hm)
      obtain rfl := Value.list.inj (Except.ok.inj hitems)
      by_cases hzero : n = 0
      · subst hzero
        exact absurd hjust not_areJust_nil
      · have htruthy : (Value.int (n : Int)).truthy := by simpa [Value.truthy] using hzero
        rw [if_pos htruthy] at hjust
        obtain rfl : toString n = name := areJust_singleton_iff.mp hjust
        use n, by omega, rfl
        rw [Text.lower_toString, Text.readInt_toString] at hm
        by_contra hlong
        rw [if_neg hlong] at hm
        cases hm
    · cases hitems
  · rintro ⟨n, hpositive, rfl, hlength⟩
    rw [Text.lower_toString, Text.readInt_toString, if_pos hlength] at hgiven
    have htruthy : (Value.int (n : Int)).truthy := by
      simpa [Value.truthy] using hpositive.ne'
    rw [gives_iff_of_given (hgiven.trans (congrArg _ (asNames_of_truthy (by simp) htruthy)))]
    exact areJust_singleton_iff.mpr rfl

/-- A single name that a switch is read from stands alone only if it is the text of the true
value. -/
theorem standsAlone_iff_of_mem_words (hword : Text.lower name ∈ trueWords ++ falseWords) :
  StandsAlone name ↔ name = "True"
  := by
  constructor
  · rintro (htrue | ⟨hother, -⟩ | ⟨n, -, rfl, -⟩)
    · exact htrue
    · exact absurd hword hother
    · rw [Text.lower_toString] at hword
      exact absurd (Text.isDigits_toString n) (not_isDigits_of_mem_words _ hword)
  · exact .switch

/-- A single name is given as it is exactly if it stands alone. -/
theorem gives_iff_standsAlone (h : IsName name) :
  Gives name [name] ↔ StandsAlone name
  := by
  by_cases hwords : Text.lower name ∈ trueWords ++ falseWords
  · rw [gives_iff_of_mem_words h hwords, standsAlone_iff_of_mem_words hwords]
  by_cases hdigits : Text.isDigits (Text.lower name)
  · rw [gives_iff_of_isDigits h hdigits]
    constructor
    · rintro ⟨n, hpositive, heq, hlength⟩
      exact .number n hpositive heq hlength
    · rintro (rfl | ⟨-, hother⟩ | ⟨n, hpositive, heq, hlength⟩)
      · have htext : ¬ Text.isDigits (Text.lower "True") := by decide +kernel
        exact absurd hdigits htext
      · exact absurd hdigits hother
      · exact ⟨n, hpositive, heq, hlength⟩
  · have hgiven := given_ignoredVariables name
    have hread := hwords
    have hword := hdigits
    rw [← h.trimmed] at hread hword
    rw [value_of_plain hread hword, if_neg h.comma, h.trimmed] at hgiven
    have htruthy : (Value.text name).truthy := by simpa [Value.truthy] using h.nonempty
    rw [gives_iff_of_given (hgiven.trans (congrArg _ (asNames_of_truthy (by simp) htruthy)))]
    constructor
    · exact fun _ => .text hwords hdigits
    · exact fun _ => areJust_singleton_iff.mpr rfl

/-- Names are given as they are exactly if they are read as a list of names. -/
theorem gives_iff (hne : names ≠ []) (hnames : ∀ name ∈ names, IsName name) :
  Gives (",".intercalate names) names ↔ AreRead names
  := by
  match names, hne with
  | [name], _ =>
    rw [show ",".intercalate [name] = name from rfl,
      gives_iff_standsAlone (hnames name List.mem_cons_self)]
    constructor
    · exact fun h => .inr ⟨name, rfl, h⟩
    · rintro (hseveral | ⟨other, heq, h⟩)
      · simp at hseveral
      · rwa [List.singleton_inj.mp heq]
  | first :: second :: rest, _ =>
    have hseveral : 2 ≤ (first :: second :: rest).length := by simp
    constructor
    · exact fun _ => .inl hseveral
    · exact fun _ => gives_of_several hnames hseveral

/-- The names that a text gives make the set of these names. -/
theorem exists_members_iff_gives {raw : String} :
  (∃ value items, RuleOption.ignoredVariables.given raw = .ok value
    ∧ RuleOptions.members value = .ok items ∧ AreJust items names) ↔ Gives raw names
  := by
  constructor
  · rintro ⟨value, items, hvalue, hmembers, hjust⟩
    rw [given_ignoredVariables] at hvalue
    cases hread : Reading.value raw with
    | error e => simp [hread, Except.map] at hvalue
    | ok read =>
      rw [hread] at hvalue
      obtain ⟨given, hgiven⟩ := exists_asNames read
      obtain rfl : .list given = value := hgiven.symm.trans (Except.ok.inj hvalue)
      refine ⟨given, by rw [given_ignoredVariables, hread, ← hgiven]; rfl, fun item => ?_⟩
      rw [← hjust item, RuleOptions.mem_members_iff hmembers (eq_text_of_mem_asNames hread hgiven)]
  · rintro ⟨items, hgiven, hjust⟩
    have htexts : ∀ item ∈ items, ∃ s, item = .text s := fun item => hjust.eq_text
    obtain ⟨members, hmembers⟩ := RuleOptions.exists_members_of_texts htexts
    refine ⟨_, members, hgiven, hmembers, fun item => ?_⟩
    rw [RuleOptions.mem_members_iff hmembers htexts, hjust item]

end Reading

open Reading (AreJust AreRead Gives IsName)

/-! ### By the environment -/

namespace Store

open Layer

variable {store : Store} {names : List String}

/-- There are settings in force if no file fails and what should be a set or a list in the files can
be made one, and the options are taken from the entries of all layers. -/
theorem exists_load_update (hfresh : store.changed = none) (hreadable : store.failure? = none)
    (huser : Tidy store.userEntries) (hproject : Tidy store.projectEntries)
    (hlower : Listable store.userEntries) (hupper : Listable store.projectEntries) :
  ∃ settings, store.load = .ok settings
    ∧ ({} : RuleOptions).update store.ruleEntries = .ok settings.rule
  := by
  obtain ⟨rule, hupdate⟩ := exists_update_ruleEntries hlower hupper
  obtain ⟨exclude, hexclude⟩ := exists_contents_filesEntries hproject hlower hupper
  rw [load_eq hfresh hreadable huser hproject, hupdate]
  simp only [bind, Except.bind, hexclude]
  exact ⟨_, rfl, rfl⟩

/-- What the project says of the names where it hides what the environment says. -/
def ProjectIgnores (store : Store) (names : List String) : Prop :=
  ∃ value items, (store.optionSources .ignoredVariables).project = some value
    ∧ RuleOptions.members value = .ok items ∧ AreJust items names

/-- Names that the environment gives are the ones that are ignored, unless the project hides them
and says something else. -/
theorem exists_load_ignoring (hne : names ≠ []) (hnames : ∀ name ∈ names, IsName name)
    (hvariable : store.terminal.variableOf "ONETIME_IGNORED_VARIABLES" = ",".intercalate names)
    (hfresh : store.changed = none) (hreadable : store.failure? = none)
    (huser : Tidy store.userEntries) (hproject : Tidy store.projectEntries)
    (hlower : Listable store.userEntries) (hupper : Listable store.projectEntries) :
  ∃ settings, store.load = .ok settings
    ∧ (AreJust settings.rule.ignoredVariables names ↔
      (store.Hides .ignoredVariables → store.ProjectIgnores names))
  := by
  obtain ⟨settings, hload, hupdate⟩ :=
    exists_load_update hfresh hreadable huser hproject hlower hupper
  refine ⟨settings, hload, ?_⟩
  have hget := RuleOptions.get_update .ignoredVariables hupdate
  rw [getLast?_optionSources huser hproject, Sources.first?] at hget
  cases hhides : store.Hides .ignoredVariables with
  | false =>
    have hread := Reading.names_intercalate hne hnames
    have hset : ",".intercalate names ≠ "" := by
      intro hempty
      rw [hempty] at hread
      exact hne hread.symm
    have henvironment : (store.optionSources .ignoredVariables).environment
        = some (.list (names.map .text)) := by
      rw [optionSources, if_pos rfl, environment?, hvariable, if_neg hset, readIgnored, hread]
    rw [hhides, henvironment] at hget
    have hmembers := RuleOptions.taken_ignoredVariables_iff.mp hget
    have hjust : AreJust settings.rule.ignoredVariables names := by
      intro item
      rw [RuleOptions.mem_members_iff hmembers (by simp)]
      apply Reading.areJust_map_text
    simp [hjust]
  | true =>
    obtain ⟨value, hvalue⟩ :
        ∃ value, (store.optionSources .ignoredVariables).project = some value := by
      cases hnaming : naming? .ignoredVariables store.projectEntries with
      | none => simp [Hides, hnaming] at hhides
      | some entry => exact ⟨_, congrArg (Option.map _) hnaming⟩
    rw [hhides, hvalue] at hget
    have hmembers := RuleOptions.taken_ignoredVariables_iff.mp hget
    constructor
    · exact fun hjust _ => ⟨value, _, hvalue, hmembers, hjust⟩
    · intro hignores
      obtain ⟨value', items, hvalue', hmembers', hjust⟩ := hignores rfl
      obtain rfl := Option.some.inj (hvalue'.symm.trans hvalue)
      obtain rfl := Except.ok.inj (hmembers'.symm.trans hmembers)
      exact hjust

/-! ### By a change of the setting -/

/-- A change that gives a setting a value leaves settings with that value in force.  It is refused
for what is wrong with them then, or they are written as far as the system lets that be done. -/
theorem set_of_assign {key raw : String} {setting : Setting} {settings later : Settings}
    {entries : List (String × Value)} (hload : store.load = .ok settings)
    (hkey : Setting.ofKey key = .ok setting) (hassign : settings.assign setting raw = .ok later)
    (hentries : later.entries = .ok entries) (kind : LayerKind) :
  store.set key raw kind = match later.problemNear? setting, store.fault? kind with
    | some message, _ => ({ store with changed := some later }, .ok (some message))
    | none, none =>
      ({ store with
          changed := some later, layers := store.layers.set kind (.value (.map entries)) }, .ok none)
    | none, some fault =>
      ({ store with changed := some later, layers := fault.leaves kind store.layers },
        .error fault.error)
  := by
  have hchange : store.change key raw
      = ({ store with changed := some later }, .ok (later.problemNear? setting)) := by
    simp [change, hload, hkey, hassign]
  rw [set, hchange]
  cases later.problemNear? setting with
  | some message => rfl
  | none =>
    have hsave := @save_eq { store with changed := some later } later entries rfl hentries kind
    simp only [hsave]
    cases store.fault? kind with
    | none => rfl
    | some fault => rfl

/-- A change that gives a setting a value has what is wrong with the settings then for an answer, if
it is refused for that or nothing keeps them from being written. -/
theorem answer_of_assign {key raw : String} {setting : Setting} {settings later : Settings}
    {entries : List (String × Value)} (hload : store.load = .ok settings)
    (hkey : Setting.ofKey key = .ok setting) (hassign : settings.assign setting raw = .ok later)
    (hentries : later.entries = .ok entries) {kind : LayerKind}
    (h : later.problemNear? setting = none → store.fault? kind = none) :
  (store.set key raw kind).2 = .ok (later.problemNear? setting)
    ∧ (store.set key raw kind).1.load = .ok later
  := by
  rw [set_of_assign hload hkey hassign hentries kind]
  cases hproblem : later.problemNear? setting with
  | some message => exact ⟨rfl, rfl⟩
  | none =>
    rw [h hproblem]
    exact ⟨rfl, rfl⟩

/-- The ignored names become the set that a text gives. -/
theorem assign_ignoredVariables_iff {settings later : Settings} {raw : String} :
  settings.assign (.rule .ignoredVariables) raw = .ok later ↔
    ∃ value items, RuleOption.ignoredVariables.given raw = .ok value
      ∧ RuleOptions.members value = .ok items
      ∧ later = { settings with rule := { settings.rule with ignoredVariables := items } }
  := by
  rw [Settings.assign, RuleOption.given]
  cases Reading.value raw with
  | error e => simp [bind, Except.bind]
  | ok value =>
    cases hmembers : RuleOptions.members (Reading.asNames value) with
    | error e =>
      simp [bind, Except.bind, pure, Except.pure, RuleOptions.set, hmembers, Except.map]
    | ok items =>
      simp [bind, Except.bind, pure, Except.pure, RuleOptions.set, hmembers, Except.map, eq_comm]

/-- A change of the setting ignores just some names exactly if the text gives these.  Its answer is
what is wrong with the options then. -/
theorem set_ignoredVariables_iff {settings : Settings} (hload : store.load = .ok settings)
    (raw : String) {kind : LayerKind} (hwrites : store.fault? kind = none) :
  (∃ later, (store.set "rule.ignoredVariables" raw kind).2 = .ok later.rule.problem?
    ∧ (store.set "rule.ignoredVariables" raw kind).1.load = .ok later
    ∧ AreJust later.rule.ignoredVariables names) ↔ Gives raw names
  := by
  have hkey : Setting.ofKey "rule.ignoredVariables" = .ok (.rule .ignoredVariables) := by
    decide +kernel
  have hset : ∀ {later}, settings.assign (.rule .ignoredVariables) raw = .ok later →
      (store.set "rule.ignoredVariables" raw kind).2 = .ok later.rule.problem?
        ∧ (store.set "rule.ignoredVariables" raw kind).1.load = .ok later := by
    intro later hassign
    obtain ⟨sorted, hsorted⟩ := Value.exists_sorted? (Settings.eq_text_of_assign hassign)
    have hentries := Settings.entries_eq_ok.mpr ⟨sorted, hsorted, rfl⟩
    exact answer_of_assign hload hkey hassign hentries fun _ => hwrites
  rw [← Reading.exists_members_iff_gives]
  constructor
  · rintro ⟨later, hanswer, hafter, hjust⟩
    cases hassign : settings.assign (.rule .ignoredVariables) raw with
    | error e => simp [set, change, hload, hkey, hassign] at hanswer
    | ok assigned =>
      obtain rfl := Except.ok.inj ((hset hassign).2.symm.trans hafter)
      obtain ⟨value, items, hgiven, hmembers, rfl⟩ := assign_ignoredVariables_iff.mp hassign
      exact ⟨value, items, hgiven, hmembers, hjust⟩
  · rintro ⟨value, items, hgiven, hmembers, hjust⟩
    obtain ⟨later, hlater⟩ : ∃ later : Settings, later
        = { settings with rule := { settings.rule with ignoredVariables := items } } := ⟨_, rfl⟩
    have hassign := assign_ignoredVariables_iff.mpr ⟨value, items, hgiven, hmembers, hlater⟩
    refine ⟨later, (hset hassign).1, (hset hassign).2, ?_⟩
    rw [hlater]
    exact hjust

end Store

/-! ### By an override -/

namespace RuleOptions

/-- Options that differ from sound ones in the ignored names only are sound if these are texts. -/
theorem problem?_eq_none {before options : RuleOptions} (hbefore : before.problem? = none)
    (hothers : ∀ option, option ≠ .ignoredVariables → options.get option = before.get option)
    (htexts : ∀ name ∈ options.ignoredVariables, ∃ s, name = .text s) :
  options.problem? = none
  := by
  obtain ⟨hswitches, hlimits, harrays, -⟩ := problem?_eq_none_iff.mp hbefore
  apply problem?_eq_none_iff.mpr
  refine ⟨?_, ?_, ?_, htexts⟩
  · intro option hoption
    rw [hothers option (ne_of_mem_of_not_mem hoption (by decide))]
    exact hswitches option hoption
  · intro option hoption
    rw [hothers option (ne_of_mem_of_not_mem hoption (by decide))]
    exact hlimits option hoption
  · have hsame : options.ignoreArrayVariables = before.ignoreArrayVariables :=
      hothers .ignoreArrayVariables (by decide)
    rwa [hsame]

end RuleOptions

namespace Lint

variable {names : List String}

/-- Key and text of an override by a main key. -/
theorem parts?_key (option : RuleOption) (raw : String) :
  parts? (option.key ++ "=" ++ raw) = some (option.key, raw)
  := by
  have hmark : '=' ∉ option.key.toList := by
    cases option <;> decide
  have htrim : Text.trim option.key = option.key := by
    cases option <;> decide +kernel
  rw [parts?, Text.cutAt?_append rfl hmark, Option.map_some]
  simp only [htrim]

/-- A table whose values for the ignored names are sets gives options. -/
theorem exists_ofValue_table {values : RuleOption → Value} {items : List Value}
    (h : RuleOptions.members (values .ignoredVariables) = .ok items) :
  ∃ options, RuleOptions.ofValue (.map (RuleOption.table values none)) = .ok options
  := by
  apply RuleOptions.exists_update_iff.mpr
  intro entry hentry hnamed
  have hfilter : entry ∈ (RuleOption.all.map fun option => (option.key, values option)).filter
      fun entry => RuleOption.ignoredVariables.isNamed entry.1 := by
    rw [RuleOption.table, Option.map_none, Option.toList_none, List.append_nil] at hentry
    exact List.mem_filter.mpr ⟨hentry, hnamed⟩
  rw [RuleOption.filter_map_key, List.mem_singleton] at hfilter
  rw [hfilter]
  exact ⟨items, h⟩

/-- An override of the ignored names by texts has an effect, and these are the names then. -/
theorem exists_withOverrides {before : RuleOptions} (hbefore : before.problem? = none)
    {item raw : String} (hparts : parts? item = some (RuleOption.ignoredVariables.key, raw))
    {value : Value} (hgiven : RuleOption.ignoredVariables.given raw = .ok value)
    {items : List Value} (hmembers : RuleOptions.members value = .ok items)
    (htexts : ∀ name ∈ items, ∃ s, name = .text s) :
  ∃ options, withOverrides before [item] = .ok (.ok options) ∧ options.ignoredVariables = items
  := by
  obtain ⟨sorted, hsorted⟩ := Value.exists_sorted? (RuleOptions.eq_text_of_problem? hbefore)
  have hentries : before.entries = .ok (RuleOption.table (before.shown sorted) none) :=
    RuleOptions.entries_eq_ok.mpr ⟨sorted, hsorted, List.append_nil _⟩
  obtain ⟨values, hvalues⟩ : ∃ values, values
      = Function.update (before.shown sorted) .ignoredVariables value := ⟨_, rfl⟩
  have hoverride : override (RuleOption.table (before.shown sorted) none) item
      = .ok (.ok (RuleOption.table values none)) := by
    apply override_eq_ok_iff.mpr
    refine ⟨_, raw, .ignoredVariables, value, hparts, by decide, hgiven, ?_⟩
    rw [RuleOption.put_key_table, hvalues]
  have hmembers' : RuleOptions.members (values .ignoredVariables) = .ok items := by
    rwa [hvalues, Function.update_self]
  obtain ⟨options, hofValue⟩ := exists_ofValue_table hmembers'
  have htaken := taken_of_ofValue_table hofValue
  simp only [Option.getD_none, ite_self] at htaken
  obtain rfl : options.ignoredVariables = items := by
    have hset := RuleOptions.taken_ignoredVariables_iff.mp (htaken .ignoredVariables)
    exact Except.ok.inj (hset.symm.trans hmembers')
  have hproblem : options.problem? = none := by
    apply RuleOptions.problem?_eq_none hbefore _ htexts
    intro option hne
    have hother := htaken option
    rw [RuleOption.taken, if_neg hne, hvalues, Function.update_of_ne hne,
      before.shown_of_ne sorted hne] at hother
    exact (Except.ok.inj hother).symm
  use options
  simp [withOverrides, hentries, overrideAll, hoverride, hofValue, hproblem, bind, Except.bind,
    pure, Except.pure]

/-- An override of the ignored names ignores just some names exactly if its text gives these. -/
theorem withOverrides_ignoredVariables_iff {before : RuleOptions} (hbefore : before.problem? = none)
    (raw : String) :
  (∃ options,
    withOverrides before [RuleOption.ignoredVariables.key ++ "=" ++ raw] = .ok (.ok options)
      ∧ AreJust options.ignoredVariables names) ↔ Gives raw names
  := by
  have hparts := parts?_key .ignoredVariables raw
  generalize RuleOption.ignoredVariables.key ++ "=" ++ raw = item at hparts
  rw [← Reading.exists_members_iff_gives]
  constructor
  · rintro ⟨options, hoptions, hjust⟩
    have hoption : RuleOption.ofKey? RuleOption.ignoredVariables.key = some .ignoredVariables := by
      decide
    have hdeciding : deciding .ignoredVariables [item] = some raw := by
      rw [deciding, if_neg (by decide), lastOf, lastGiven_cons hparts, hoption]
      rfl
    have htakes := takes_of_withOverrides hbefore hoptions .ignoredVariables
    rw [hdeciding] at htakes
    obtain ⟨value, hgiven, htaken⟩ := htakes
    exact ⟨value, _, hgiven, RuleOptions.taken_ignoredVariables_iff.mp htaken, hjust⟩
  · rintro ⟨value, items, hgiven, hmembers, hjust⟩
    obtain ⟨options, hoptions, rfl⟩ := exists_withOverrides hbefore hparts hgiven hmembers
      fun name hname => hjust.eq_text hname
    exact ⟨options, hoptions, hjust⟩

/-- A run with one override, of the ignored names, ignores just some names exactly if its text gives
these. -/
theorem configure_ignoredVariables_iff {lint : Lint} (hrule : lint.settings.rule.problem? = none)
    (s : Outside) {a : LintArguments} {raw : String}
    (hrules : a.rules = [RuleOption.ignoredVariables.key ++ "=" ++ raw]) :
  (∃ later, lint.configure s a = (later, .ok none)
    ∧ AreJust later.rule.options.ignoredVariables names) ↔ Gives raw names
  := by
  rw [← withOverrides_ignoredVariables_iff hrule raw, ← hrules]
  constructor
  · rintro ⟨later, h, hjust⟩
    rw [configure] at h
    split at h
    · cases h
    · cases h
    · rename_i options hoverrides
      obtain ⟨rfl, -⟩ := Prod.mk.inj h
      exact ⟨options, hoverrides, hjust⟩
  · rintro ⟨options, hoverrides, hjust⟩
    rw [configure, hoverrides]
    exact ⟨_, rfl, hjust⟩

end Lint

/-! ### All ways together -/

namespace Reading

open Layer

/-- Names that are joined by commas are the ignored ones if the environment gives them, unless the
project hides them and says something else.  A change of the setting and an override ignore just
these names exactly if they are read as a list of names. -/
theorem ignored_joined {names : List String} (hne : names ≠ [])
    (hnames : ∀ name ∈ names, IsName name) :
  (∀ store : Store, store.changed = none → store.failure? = none →
      Tidy store.userEntries → Tidy store.projectEntries →
      Listable store.userEntries → Listable store.projectEntries →
      store.terminal.variableOf "ONETIME_IGNORED_VARIABLES" = ",".intercalate names →
      ∃ settings, store.load = .ok settings
        ∧ (AreJust settings.rule.ignoredVariables names ↔
          (store.Hides .ignoredVariables → store.ProjectIgnores names)))
    ∧ (∀ (store : Store) (settings : Settings) (kind : LayerKind), store.load = .ok settings →
      store.fault? kind = none →
      ((∃ later,
        (store.set "rule.ignoredVariables" (",".intercalate names) kind).2
            = .ok later.rule.problem?
          ∧ (store.set "rule.ignoredVariables" (",".intercalate names) kind).1.load = .ok later
          ∧ AreJust later.rule.ignoredVariables names) ↔ AreRead names))
    ∧ ∀ (lint : Lint) (s : Outside) (a : LintArguments), lint.settings.rule.problem? = none →
      a.rules = [RuleOption.ignoredVariables.key ++ "=" ++ ",".intercalate names] →
      ((∃ later, lint.configure s a = (later, .ok none)
        ∧ AreJust later.rule.options.ignoredVariables names) ↔ AreRead names)
  := by
  have hread := gives_iff hne hnames
  refine ⟨?_, ?_, ?_⟩
  · intro store hfresh hreadable huser hproject hlower hupper hvariable
    exact Store.exists_load_ignoring hne hnames hvariable hfresh hreadable huser hproject hlower
      hupper
  · intro store settings kind hload hwrites
    rw [Store.set_ignoredVariables_iff hload _ hwrites, hread]
  · intro lint s a hrule hrules
    rw [Lint.configure_ignoredVariables_iff hrule s hrules, hread]

/-- A store without files, where the environment gives a name that looks like a switch. -/
def switchedOn : Store where
  terminal := { environment := [("ONETIME_IGNORED_VARIABLES", "on")] }

/-- The environment ignores the name, the other two do not. -/
theorem ignored_joined_switchedOn :
  (∀ name ∈ ["on"], IsName name)
    ∧ (∃ settings, switchedOn.load = .ok settings ∧ AreJust settings.rule.ignoredVariables ["on"])
    ∧ (¬ ∃ later, (({} : Store).set "rule.ignoredVariables" "on" .project).2
          = .ok later.rule.problem?
        ∧ (({} : Store).set "rule.ignoredVariables" "on" .project).1.load = .ok later
        ∧ AreJust later.rule.ignoredVariables ["on"])
    ∧ ¬ ∃ later, (Lint.ofSettings Lint.unparsed {}).configure Lint.unparsed
          { rules := ["ignoredVariables=on"] } = (later, .ok none)
        ∧ AreJust later.rule.options.ignoredVariables ["on"]
  := by
  have hnames : ∀ name ∈ ["on"], IsName name := by
    intro name hname
    obtain rfl := List.mem_singleton.mp hname
    exact ⟨by decide, by decide, by decide +kernel⟩
  have hread : ¬ AreRead ["on"] := by
    rintro (hseveral | ⟨name, hname, halone⟩)
    · simp at hseveral
    · obtain rfl := List.singleton_inj.mp hname
      have htrue := (standsAlone_iff_of_mem_words (by decide +kernel)).mp halone
      simp at htrue
  have htidy : Tidy [] := by
    refine ⟨List.nodup_nil, ?_, fun option => Nat.zero_le _⟩
    intro part _
    simp [IsPart, partOf]
  have hlistable : Listable [] := ⟨by simp [partOf], by simp [partOf]⟩
  obtain ⟨henvironment, hset, hoverride⟩ := ignored_joined (by decide) hnames
  refine ⟨hnames, ?_, ?_, ?_⟩
  · obtain ⟨settings, hload, hiff⟩ :=
      henvironment switchedOn rfl rfl htidy htidy hlistable hlistable (by decide +kernel)
    exact ⟨settings, hload, hiff.mpr fun hhides => by cases hhides⟩
  · exact fun hlater => hread ((hset {} {} .project rfl rfl).mp hlater)
  · have hrule : (Lint.ofSettings Lint.unparsed {}).settings.rule.problem? = none := by
      decide +kernel
    exact fun hlater => hread ((hoverride _ _ _ hrule (by decide +kernel)).mp hlater)

end Reading

end SingleUse
