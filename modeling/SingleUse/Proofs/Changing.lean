import SingleUse.Proofs.Entries
import SingleUse.Proofs.Registration
import SingleUse.Settings.Store

/-!
# Changing settings

A change gives one setting a value and is refused if something is wrong with the section of that
setting then.  The files are not touched by a refused change, but the settings in force keep the
refused value.  So a refused change leaves no trace only if its key names no setting, or the
setting had the refused value before.
-/

namespace SingleUse

/-! ### Options and settings, told by their values -/

namespace RuleOptions

/-- Options are told by their values. -/
theorem ext_get {options options' : RuleOptions}
    (h : ∀ option, options.get option = options'.get option) :
  options = options'
  := by
  obtain ⟨⟩ := options
  obtain ⟨⟩ := options'
  congr
  · exact Value.list.inj (h .ignoredVariables)
  · exact h .ignoreFunctionVariables
  · exact h .ignoreArrayVariables
  · exact h .ignoreObjectVariables
  · exact h .ignoreObjectDestructuring
  · exact h .ignoreExportedVariables
  · exact h .allowInsideCallback
  · exact h .maxInitializerLength
  · exact h .maxObjectProperties
  · exact h .maxPropertyLength

/-- Giving an option a value leaves the other options as they are. -/
theorem get_set_of_ne {options options' : RuleOptions} {option other : RuleOption} {value : Value}
    (h : options.set option value = .ok options') (hne : other ≠ option) :
  options'.get other = options.get other
  := by
  cases option with
  | ignoredVariables =>
    rw [set] at h
    cases hmembers : members value with
    | error e => simp [hmembers, Except.map] at h
    | ok names =>
      rw [hmembers] at h
      obtain rfl := Except.ok.inj h
      cases other <;> first | rfl | exact absurd rfl hne
  | _ =>
    obtain rfl := Except.ok.inj h
    cases other <;> first | rfl | exact absurd rfl hne

end RuleOptions

namespace Settings

/-- The value of a setting. -/
def get (settings : Settings) : Setting → Value
  | .rule option => settings.rule.get option
  | .symbols => settings.symbols
  | .format => settings.format
  | .exclude => .list settings.exclude
  | .includeTests => settings.includeTests
  | .maxFileSize => settings.maxFileSize

/-- Settings are told by their values. -/
theorem ext_get {settings settings' : Settings}
    (h : ∀ setting, settings.get setting = settings'.get setting) :
  settings = settings'
  := by
  obtain ⟨⟩ := settings
  obtain ⟨⟩ := settings'
  congr
  · apply RuleOptions.ext_get
    exact fun option => h (.rule option)
  · exact h .symbols
  · exact h .format
  · exact Value.list.inj (h .exclude)
  · exact h .includeTests
  · exact h .maxFileSize

/-- Assigning to a setting leaves the other settings as they are. -/
theorem get_assign_of_ne {settings settings' : Settings} {setting other : Setting} {raw : String}
    (h : settings.assign setting raw = .ok settings') (hne : other ≠ setting) :
  settings'.get other = settings.get other
  := by
  cases setting with
  | rule option =>
    obtain ⟨value, -, h⟩ := exists_ok_of_bind h
    obtain ⟨options, hset, h⟩ := exists_ok_of_bind h
    obtain rfl := Except.ok.inj h
    cases other with
    | rule other => exact RuleOptions.get_set_of_ne hset fun heq => hne (congrArg Setting.rule heq)
    | _ => rfl
  | exclude | maxFileSize =>
    obtain ⟨value, -, h⟩ := exists_ok_of_bind h
    obtain rfl := Except.ok.inj h
    cases other <;> first | rfl | exact absurd rfl hne
  | symbols | format | includeTests =>
    obtain rfl := Except.ok.inj h
    cases other <;> first | rfl | exact absurd rfl hne

end Settings

/-! ### Showing a setting -/

namespace RuleOptions

/-- The value of an option as it is shown: of the ignored names, a sorted list of them. -/
def shown (options : RuleOptions) (names : List Value) : RuleOption → Value
  | .ignoredVariables => .list names
  | option => options.get option

/-- Options have entries if the ignored names can be sorted: one for each option, as it is
shown. -/
theorem entries_eq_ok {options : RuleOptions} {entries : List (String × Value)} :
  options.entries = .ok entries ↔
    ∃ names, Value.sorted? options.ignoredVariables = some names
      ∧ entries = RuleOption.all.map fun option => (option.key, options.shown names option)
  := by
  cases hsorted : Value.sorted? options.ignoredVariables with
  | none => simp [RuleOptions.entries, RuleOption.all, hsorted, bind, Except.bind]
  | some names =>
    simp [RuleOptions.entries, RuleOption.all, hsorted, bind, Except.bind, pure, Except.pure, shown,
      eq_comm]

end RuleOptions

/-- The value of a setting as it is shown. -/
def Settings.shown (settings : Settings) (names : List Value) : Setting → Value
  | .rule option => settings.rule.shown names option
  | setting => settings.get setting

/-- An entry for each option is found by the key of the option. -/
theorem Value.find?_map_key (value : RuleOption → Value) (name : String) :
  Value.find? name (RuleOption.all.map fun option => (option.key, value option))
    = (RuleOption.all.find? fun option => option.key = name).map value
  := by
  rw [Value.find?, List.find?_map, Option.map_map]
  rfl

/-- The key of an option is that of no other option. -/
theorem RuleOption.find?_key (option : RuleOption) :
  (RuleOption.all.find? fun other => other.key = option.key) = some option
  := by
  cases option <;> decide

/-- The setting that is shown for a name in a section. -/
def Setting.shownFor? : String → String → Option Setting
  | "rule", name =>
    ((RuleOption.all.find? fun option => option.key = name).or
      (RuleOption.all.find? fun option => option.attributeName = name)).map .rule
  | "display", "symbols" => some .symbols
  | "display", "format" => some .format
  | "files", "exclude" => some .exclude
  | "files", "include_tests" => some .includeTests
  | "files", "max_file_size" => some .maxFileSize
  | _, _ => none

/-- The setting that is shown for a key is the one that the key names. -/
theorem Setting.ofKey_of_shownFor? {key part name : String} {setting : Setting}
    (hparts : partsOf? key = some (part, name)) (h : shownFor? part name = some setting) :
  ofKey key = .ok setting
  := by
  revert h
  fun_cases shownFor? part name with
  | case1 name =>
    intro h
    obtain ⟨option, hoption, rfl⟩ := Option.map_eq_some_iff.mp h
    have hname : RuleOption.ofName? name = some option := by
      rw [RuleOption.ofName?, RuleOption.ofKey?]
      rcases Option.or_eq_some_iff.mp hoption with hkey | ⟨hnone, hattribute⟩
      · rw [hkey]
        rfl
      · have hlegacy : name ≠ RuleOption.legacyKey := by
          have hattribute := List.find?_some hattribute
          rintro rfl
          cases option <;> simp [RuleOption.attributeName, RuleOption.legacyKey] at hattribute
        rw [hnone, hattribute, if_neg hlegacy]
        rfl
    simp [ofKey, hparts, hname]
  | _ => simp_all [ofKey]

namespace Store

/-- What is shown for a key is the text of the setting that is shown for it. -/
theorem get_eq {store : Store} {settings : Settings} (hload : store.load = .ok settings)
    {names : List Value} (hnames : Value.sorted? settings.rule.ignoredVariables = some names)
    (key : String) :
  store.get key = .ok ((Setting.partsOf? key).bind fun (part, name) =>
    (Setting.shownFor? part name).bind fun setting => textOf (settings.shown names setting))
  := by
  have hrule := RuleOptions.entries_eq_ok.mpr ⟨names, hnames, rfl⟩
  simp only [get, hload, Settings.entries, hrule, bind, Except.bind, pure, Except.pure]
  cases Setting.partsOf? key with
  | none => rfl
  | some parts =>
    obtain ⟨part, name⟩ := parts
    simp only [Option.bind_some]
    fun_cases Setting.shownFor? part name with
    | case1 name =>
      simp only [Value.find?_cons, if_true, Value.find?_map_key, Settings.shown]
      cases RuleOption.all.find? fun option => option.key = name with
      | some option => rfl
      | none =>
        cases RuleOption.all.find? fun option => option.attributeName = name with
        | some option => simp [RuleOption.find?_key]
        | none => rfl
    | case7 =>
      simp only [Value.find?_cons, Value.find?_nil]
      split_ifs <;> simp_all [Value.find?_cons, eq_comm]
    | _ => simp [Value.find?_cons, Settings.shown, Settings.get]

end Store

/-! ### Ignored names after a change -/

/-- The members of a set are among what it is made of. -/
theorem Value.mem_of_mem_distinct {items : List Value} {item : Value} (h : item ∈ distinct items) :
  item ∈ items
  := by
  have hfold : ∀ (rest seen : List Value), item ∈ rest.foldl
      (fun seen item => if seen.any (·.sameMember item) then seen else seen ++ [item]) seen →
      item ∈ seen ∨ item ∈ rest := by
    intro rest
    induction rest with
    | nil => exact fun seen h => .inl h
    | cons head rest ih =>
      intro seen h
      rw [List.foldl_cons] at h
      rcases ih _ h with hseen | hrest
      · split at hseen
        · exact .inl hseen
        · rcases List.mem_append.mp hseen with hseen | hhead
          · exact .inl hseen
          · exact .inr (List.mem_cons.mpr (.inl (List.mem_singleton.mp hhead)))
      · exact .inr (List.mem_cons_of_mem _ hrest)
  exact (hfold items [] h).resolve_left List.not_mem_nil

/-- Texts can be sorted. -/
theorem Value.exists_sorted? {items : List Value} (h : ∀ item ∈ items, ∃ s, item = .text s) :
  ∃ sorted, sorted? items = some sorted
  := by
  rw [sorted?]
  split
  · exact ⟨_, rfl⟩
  · refine ⟨_, if_pos (List.filterMap_length_eq_length.mpr ?_)⟩
    intro item hitem
    obtain ⟨s, rfl⟩ := h item hitem
    rfl

/-- What a text is read as is no list, or a list of texts. -/
theorem Reading.value_inv {raw : String} {items : List Value}
    (h : Reading.value raw = .ok (.list items)) :
  items = (names raw).map .text
  := by
  rw [Reading.value] at h
  split_ifs at h with htrue hfalse hdigits hcomma
  · cases h
  · cases h
  · split at h <;> cases h
  · cases h
    rfl
  · cases h

/-- Names are always a list. -/
theorem Reading.exists_asNames (value : Value) : ∃ items, asNames value = .list items := by
  cases value <;> exact ⟨_, rfl⟩

/-- The names that a text is read as are texts. -/
theorem Reading.eq_text_of_mem_asNames {raw : String} {value : Value} {items : List Value}
    (h : Reading.value raw = .ok value) (hitems : asNames value = .list items) :
  ∀ item ∈ items, ∃ s, item = .text s
  := by
  intro item hitem
  cases value with
  | list read =>
    obtain rfl : read = items := Value.list.inj hitems
    rw [value_inv h] at hitem
    obtain ⟨s, -, rfl⟩ := List.mem_map.mp hitem
    exact ⟨s, rfl⟩
  | _ =>
    obtain rfl := Value.list.inj hitems
    split at hitem
    · exact ⟨_, List.mem_singleton.mp hitem⟩
    · cases hitem

/-- The members of a list are among its items. -/
theorem RuleOptions.mem_of_mem_members {items names : List Value}
    (h : members (.list items) = .ok names) {name : Value} (hname : name ∈ names) :
  name ∈ items
  := by
  rw [members, Value.contents?] at h
  split at h
  · rename_i contents hcontents
    have hsub : contents ⊆ items := by
      split at hcontents
      · obtain rfl := Option.some.inj hcontents
        exact List.nil_subset _
      · obtain rfl := Option.some.inj hcontents
        exact List.Subset.refl _
    split at h
    · obtain rfl := Except.ok.inj h
      exact hsub (Value.mem_of_mem_distinct hname)
    · cases h
  · cases h

/-- The ignored names after a change of them are texts. -/
theorem Settings.eq_text_of_assign {settings settings' : Settings} {raw : String}
    (h : settings.assign (.rule .ignoredVariables) raw = .ok settings') :
  ∀ item ∈ settings'.rule.ignoredVariables, ∃ s, item = .text s
  := by
  obtain ⟨value, hvalue, h⟩ := exists_ok_of_bind h
  obtain ⟨options, hset, h⟩ := exists_ok_of_bind h
  obtain rfl := Except.ok.inj h
  obtain ⟨items, hitems⟩ := Reading.exists_asNames value
  simp only [if_true, RuleOptions.set, hitems] at hset
  cases hmembers : RuleOptions.members (.list items) with
  | error e => simp [hmembers, Except.map] at hset
  | ok names =>
    rw [hmembers] at hset
    obtain rfl := Except.ok.inj hset
    intro item hitem
    apply Reading.eq_text_of_mem_asNames hvalue hitems
    exact RuleOptions.mem_of_mem_members hmembers hitem

/-! ### Refused changes -/

namespace Store

variable {store : Store} {key raw : String} {kind : LayerKind} {message : String}

/-- A change that has an answer leaves settings in force.  Its key names no setting and they are
what they were, or the key names a setting and it was given the value. -/
theorem change_inv {answer : Option String} (h : (store.change key raw).2 = .ok answer) :
  ∃ settings settings', store.load = .ok settings
    ∧ (store.change key raw).1 = { store with changed := some settings' }
    ∧ ((∃ fault, Setting.ofKey key = .error fault ∧ settings' = settings
          ∧ answer = some fault.message)
      ∨ ∃ setting, Setting.ofKey key = .ok setting ∧ settings.assign setting raw = .ok settings'
          ∧ answer = settings'.problemNear? setting)
  := by
  unfold change at h ⊢
  cases hload : store.load with
  | error e => simp [hload] at h
  | ok settings =>
    cases hkey : Setting.ofKey key with
    | error fault =>
      simp only [hload, hkey] at h ⊢
      use settings, settings, rfl, rfl
      exact .inl ⟨fault, rfl, rfl, (Except.ok.inj h).symm⟩
    | ok setting =>
      cases hassign : settings.assign setting raw with
      | error e => simp [hload, hkey, hassign] at h
      | ok settings' =>
        simp only [hload, hkey, hassign] at h ⊢
        use settings, settings', rfl, rfl
        exact .inr ⟨setting, rfl, hassign, (Except.ok.inj h).symm⟩

/-- A change that is refused is not saved. -/
theorem set_of_message (h : (store.set key raw kind).2 = .ok (some message)) :
  store.set key raw kind = store.change key raw
  := by
  unfold set at h ⊢
  split
  · rename_i changed hchange
    simp only [hchange] at h
    cases hsaved : (changed.save kind).2 with
    | error e => simp [hsaved, Except.map] at h
    | ok u => simp [hsaved, Except.map] at h
  · rfl

/-- What is shown for a key depends on the settings in force only. -/
theorem get_congr {store' : Store} (h : store.load = store'.load) (key : String) :
  store.get key = store'.get key
  := by
  rw [get, get, h]

/-- Whether two stores have the same files, the same settings in force and the same answers for
all keys. -/
structure Agrees (store store' : Store) : Prop where
  layers : store.layers = store'.layers
  load : store.load = store'.load
  get : ∀ key, store.get key = store'.get key

/-- A key has an answer if it is not two names with a dot between them, or if the ignored names can
be sorted. -/
theorem sorted?_of_get_eq_ok {settings : Settings} (hload : store.load = .ok settings)
    {answer : Option String} (h : store.get key = .ok answer) :
  (Setting.partsOf? key = none ∧ answer = none)
    ∨ ∃ names, Value.sorted? settings.rule.ignoredVariables = some names
  := by
  obtain ⟨loaded, hloaded, h⟩ := exists_ok_of_bind h
  obtain rfl : settings = loaded := Except.ok.inj (hload.symm.trans hloaded)
  cases hparts : Setting.partsOf? key with
  | none =>
    rw [hparts] at h
    exact .inl ⟨rfl, (Except.ok.inj h).symm⟩
  | some parts =>
    rw [hparts] at h
    obtain ⟨entries, hentries, -⟩ := exists_ok_of_bind h
    obtain ⟨rule, hrule, -⟩ := exists_ok_of_bind hentries
    obtain ⟨names, hnames, -⟩ := RuleOptions.entries_eq_ok.mp hrule
    exact .inr ⟨names, hnames⟩

/-- A key that does not name the setting that was changed has the answer that it had. -/
theorem get_of_assign {later : Store} {settings settings' : Settings} {setting : Setting}
    (hload : store.load = .ok settings) (hload' : later.load = .ok settings')
    (hassign : settings.assign setting raw = .ok settings')
    (hkey : Setting.ofKey key ≠ .ok setting) {answer : Option String}
    (h : store.get key = .ok answer) :
  later.get key = .ok answer
  := by
  rcases sorted?_of_get_eq_ok hload h with ⟨hparts, rfl⟩ | ⟨names, hnames⟩
  · rw [get, hload', hparts]
    rfl
  · obtain ⟨names', hnames', hsame⟩ : ∃ names', Value.sorted? settings'.rule.ignoredVariables
        = some names' ∧ (setting ≠ .rule .ignoredVariables → names' = names) := by
      by_cases hignored : setting = .rule .ignoredVariables
      · subst hignored
        obtain ⟨names', hnames'⟩ := Value.exists_sorted? (Settings.eq_text_of_assign hassign)
        exact ⟨names', hnames', fun hne => absurd rfl hne⟩
      · have hkept := Settings.get_assign_of_ne hassign (Ne.symm hignored)
        rw [← Value.list.inj hkept] at hnames
        exact ⟨names, hnames, fun _ => rfl⟩
    rw [← h, get_eq hload hnames, get_eq hload' hnames']
    congr 1
    apply Option.bind_congr
    rintro ⟨part, name⟩ hparts
    apply Option.bind_congr
    intro other hshown
    have hother : other ≠ setting := by
      rintro rfl
      exact hkey (Setting.ofKey_of_shownFor? hparts hshown)
    have hkept := Settings.get_assign_of_ne hassign hother
    cases other with
    | rule option =>
      cases option with
      | ignoredVariables =>
        rw [Settings.shown, Settings.shown, RuleOptions.shown, RuleOptions.shown,
          hsame (Ne.symm hother)]
      | _ => exact congrArg textOf hkept
    | _ => exact congrArg textOf hkept

/-- What a refused change of a key leaves of a store with the given settings in force: a store
with the given new ones. -/
structure Refused (store later : Store) (key raw : String) (settings settings' : Settings) :
    Prop where
  /-- The files stay as they are, and so does the environment. -/
  layers : later.layers = store.layers
  terminal : later.terminal = store.terminal
  before : store.load = .ok settings
  after : later.load = .ok settings'
  /-- The setting that the key names has the refused value. -/
  assigned : ∀ setting, Setting.ofKey key = .ok setting →
    settings.assign setting raw = .ok settings'
  /-- All other settings have the values that they had. -/
  others : ∀ setting, Setting.ofKey key ≠ .ok setting →
    settings'.get setting = settings.get setting
  /-- Where a key that does not name that setting had an answer, it has the same one. -/
  answers : ∀ other,
    (∀ setting, Setting.ofKey key = .ok setting → Setting.ofKey other ≠ .ok setting) →
    ∀ answer, store.get other = .ok answer → later.get other = .ok answer

/-- A change that is refused leaves the files as they are and changes at most the value of the
setting that its key names.  It leaves no trace exactly if there is no such setting, or if the
setting had the refused value before. -/
theorem set_refused (h : (store.set key raw kind).2 = .ok (some message)) :
  ∃ settings settings', Refused store (store.set key raw kind).1 key raw settings settings'
    ∧ (Agrees (store.set key raw kind).1 store ↔
      ∀ setting, Setting.ofKey key = .ok setting → settings'.get setting = settings.get setting)
  := by
  have hset := set_of_message h
  rw [hset] at h
  rw [hset]
  obtain ⟨settings, settings', hload, hafter, hcases⟩ := change_inv h
  have hload' : (store.change key raw).1.load = .ok settings' := by
    rw [hafter]
    rfl
  have hlayers : (store.change key raw).1.layers = store.layers := by
    rw [hafter]
  have hothers : ∀ setting, Setting.ofKey key ≠ .ok setting →
      settings'.get setting = settings.get setting := by
    intro other hother
    rcases hcases with ⟨fault, hkey, rfl, -⟩ | ⟨setting, hkey, hassign, -⟩
    · rfl
    · apply Settings.get_assign_of_ne hassign
      rintro rfl
      exact hother hkey
  use settings, settings'
  constructor
  · refine ⟨hlayers, by rw [hafter], hload, hload', ?_, hothers, ?_⟩
    · intro setting hkey
      rcases hcases with ⟨fault, hkey', -⟩ | ⟨named, hkey', hassign, -⟩
      · rw [hkey'] at hkey
        cases hkey
      · obtain rfl := Except.ok.inj (hkey'.symm.trans hkey)
        exact hassign
    · intro other hother answer hanswer
      rcases hcases with ⟨fault, -, rfl, -⟩ | ⟨setting, hkey, hassign, -⟩
      · rw [← hanswer]
        apply get_congr (hload'.trans hload.symm)
      · exact get_of_assign hload hload' hassign (hother setting hkey) hanswer
  · constructor
    · intro hagrees setting _
      have heq : settings' = settings :=
        Except.ok.inj (hload'.symm.trans (hagrees.load.trans hload))
      rw [heq]
    · intro hnamed
      obtain rfl : settings' = settings := by
        apply Settings.ext_get
        intro setting
        by_cases hkey : Setting.ofKey key = .ok setting
        · exact hnamed setting hkey
        · exact hothers setting hkey
      have hsame := hload'.trans hload.symm
      exact ⟨hlayers, hsame, get_congr hsame⟩

/-- In a new store the format cannot be changed to one that is not known, but that one is shown
afterwards, and the next change saves it. -/
theorem set_refused_format :
  (({} : Store).set "display.format" "xml" .project).2
      = .ok (some "Unknown format 'xml'. Valid: list, json, summary")
    ∧ ({} : Store).get "display.format" = .ok (some "list")
    ∧ (({} : Store).set "display.format" "xml" .project).1.get "display.format" = .ok (some "xml")
    ∧ ((({} : Store).set "display.format" "xml" .project).1.set
        "files.include_tests" "no" .project).1.reload.get "display.format" = .ok (some "xml")
    ∧ ∃ settings settings', Refused {} (({} : Store).set "display.format" "xml" .project).1
        "display.format" "xml" settings settings'
      ∧ (Agrees (({} : Store).set "display.format" "xml" .project).1 {} ↔
        ∀ setting, Setting.ofKey "display.format" = .ok setting →
          settings'.get setting = settings.get setting)
  := by
  have hrefused : (({} : Store).set "display.format" "xml" .project).2
      = .ok (some "Unknown format 'xml'. Valid: list, json, summary") := by
    decide +kernel
  use hrefused, by decide +kernel, by decide +kernel, by decide +kernel
  apply set_refused hrefused

end Store

end SingleUse
