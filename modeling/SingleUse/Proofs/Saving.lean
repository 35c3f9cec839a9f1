import SingleUse.Proofs.Layering

/-!
# Saving settings

A change that is not refused writes all settings into a file.  The file gives every option by its
main key and every other setting by its name, and the ignored names as a sorted list.  When it is
loaded again the file of the project is laid over that of the user, and so its values are in force
whatever names the user gives the options; only a mapping is not put in the place of another
mapping but laid over it.
-/

namespace SingleUse

/-! ### Sets of values -/

theorem Decimal.same_comm (a b : Decimal) :
  a.same b = b.same a
  := decide_eq_decide.mpr eq_comm

namespace Value

/-- Whether values are the members of a set: none is a list or a map, and none stands there
twice. -/
structure IsSet (items : List Value) : Prop where
  atoms : ∀ item ∈ items, item.isAtom
  apart : items.Pairwise fun a b => ¬ a.sameMember b

theorem sameMember_comm (a b : Value) :
  a.sameMember b = b.sameMember a
  := by
  unfold sameMember
  cases a <;> cases b <;> simp [number?, Decimal.same_comm, eq_comm]

/-- The members of a set in another order are the members of a set. -/
theorem IsSet.perm {items items' : List Value} (h : IsSet items) (hperm : items.Perm items') :
  IsSet items'
  := by
  constructor
  · intro item hitem
    exact h.atoms item (hperm.mem_iff.mpr hitem)
  · apply h.apart.perm hperm
    intro a b hne
    rwa [sameMember_comm]

/-- No member stands twice among the distinct members of a list. -/
theorem pairwise_distinct (items : List Value) :
  (distinct items).Pairwise fun a b => ¬ a.sameMember b
  := by
  have hfold : ∀ rest seen : List Value, (seen.Pairwise fun a b => ¬ a.sameMember b) →
      (rest.foldl (fun seen item =>
        if seen.any (·.sameMember item) then seen else seen ++ [item]) seen).Pairwise
          fun a b => ¬ a.sameMember b := by
    intro rest
    induction rest with
    | nil => exact fun seen h => h
    | cons item rest ih =>
      intro seen h
      rw [List.foldl_cons]
      apply ih
      split
      · exact h
      · rename_i hnew
        rw [List.pairwise_append]
        refine ⟨h, List.pairwise_singleton _ _, ?_⟩
        intro a ha b hb
        rw [List.mem_singleton.mp hb]
        intro hsame
        exact hnew (List.any_eq_true.mpr ⟨a, ha, hsame⟩)
  exact hfold items [] .nil

/-- The distinct members of a set are all of them, in their order. -/
theorem distinct_of_pairwise {items : List Value}
    (h : items.Pairwise fun a b => ¬ a.sameMember b) :
  distinct items = items
  := by
  have hfold : ∀ rest seen : List Value, ((seen ++ rest).Pairwise fun a b => ¬ a.sameMember b) →
      rest.foldl (fun seen item =>
        if seen.any (·.sameMember item) then seen else seen ++ [item]) seen = seen ++ rest := by
    intro rest
    induction rest with
    | nil => exact fun seen _ => (List.append_nil seen).symm
    | cons item rest ih =>
      intro seen h
      have hnew : ¬ seen.any (·.sameMember item) := by
        rw [List.any_eq_true]
        rintro ⟨a, ha, hsame⟩
        exact (List.pairwise_append.mp h).2.2 a ha item List.mem_cons_self hsame
      rw [List.foldl_cons, if_neg hnew, ih _ (by simpa using h)]
      simp
  exact hfold items [] h

/-- Sorting only changes the order. -/
theorem perm_of_sorted? {items sorted : List Value} (h : sorted? items = some sorted) :
  sorted.Perm items
  := by
  -- Taking apart all items and putting them together again gives them back.
  have hback : ∀ {β : Type} (f : Value → Option β) (g : β → Value),
      (∀ item b, f item = some b → g b = item) → (items.filterMap f).length = items.length →
        (items.filterMap f).map g = items := by
    intro β f g hinv hlength
    rw [List.filterMap_length_eq_length] at hlength
    rw [List.map_filterMap]
    calc items.filterMap (fun item => (f item).map g)
      _ = items.filterMap some := by
          apply List.filterMap_congr
          intro item hitem
          obtain ⟨b, hb⟩ := Option.isSome_iff_exists.mp (hlength item hitem)
          rw [hb, Option.map_some, hinv item b hb]
      _ = items := List.filterMap_some
  rw [sorted?] at h
  split at h
  · rw [Option.some.inj h]
  · dsimp only at h
    split_ifs at h with htexts hnumbers
    · obtain rfl := Option.some.inj h
      apply ((List.mergeSort_perm _ _).map _).trans
      rw [hback _ text _ htexts]
      intro item s hs
      cases item <;> simp_all
    · obtain rfl := Option.some.inj h
      apply ((List.mergeSort_perm _ _).map _).trans
      rw [hback _ (·.2) _ hnumbers]
      rintro item b hb
      obtain ⟨d, -, rfl⟩ := Option.map_eq_some_iff.mp hb
      rfl

end Value

namespace RuleOptions

open Value (IsSet)

/-- What a value gives for a set is a set. -/
theorem isSet_of_members {value : Value} {names : List Value} (h : members value = .ok names) :
  IsSet names
  := by
  rw [members] at h
  split at h
  · split at h
    · rename_i hatoms
      obtain rfl := Except.ok.inj h
      constructor
      · intro item hitem
        exact List.all_eq_true.mp hatoms item (Value.mem_of_mem_distinct hitem)
      · apply Value.pairwise_distinct
    · cases h
  · cases h

/-- A set that is given as a list is taken as it is. -/
theorem members_of_isSet {names : List Value} (h : IsSet names) :
  members (.list names) = .ok names
  := by
  have hcontents : (Value.list names).contents? = some names := by
    cases names <;> rfl
  rw [members, hcontents]
  simp only
  rw [if_pos (List.all_eq_true.mpr h.atoms), Value.distinct_of_pairwise h.apart]

/-- The ignored names are a set after an option was given a value. -/
theorem isSet_of_set {options options' : RuleOptions} {option : RuleOption} {value : Value}
    (h : options.set option value = .ok options') (hnames : IsSet options.ignoredVariables) :
  IsSet options'.ignoredVariables
  := by
  cases option with
  | ignoredVariables =>
    rw [set] at h
    cases hmembers : members value with
    | error e => simp [hmembers, Except.map] at h
    | ok names =>
      rw [hmembers] at h
      obtain rfl := Except.ok.inj h
      exact isSet_of_members hmembers
  | _ =>
    obtain rfl := Except.ok.inj h
    exact hnames

/-- The ignored names are a set after options were taken over from entries. -/
theorem isSet_of_update {entries : List (String × Value)} :
  ∀ {options options' : RuleOptions}, options.update entries = .ok options' →
    IsSet options.ignoredVariables → IsSet options'.ignoredVariables
  := by
  induction entries with
  | nil =>
    intro options options' h hnames
    obtain rfl := Except.ok.inj h
    exact hnames
  | cons entry rest ih =>
    intro options options' h hnames
    obtain ⟨name, value⟩ := entry
    rw [update] at h
    split at h
    · exact ih h hnames
    · obtain ⟨first, hset, h⟩ := exists_ok_of_bind h
      exact ih h (isSet_of_set hset hnames)

/-- The ignored names are a set in the options that a value gives. -/
theorem isSet_of_ofValue {value : Value} {options : RuleOptions} (h : ofValue value = .ok options) :
  IsSet options.ignoredVariables
  := by
  have hnone : IsSet ({} : RuleOptions).ignoredVariables := ⟨by simp, .nil⟩
  unfold ofValue at h
  by_cases htruthy : !value.truthy
  · rw [if_pos htruthy] at h
    obtain rfl := Except.ok.inj h
    exact hnone
  · rw [if_neg htruthy] at h
    cases value with
    | map entries => exact isSet_of_update h hnone
    | _ => cases h

end RuleOptions

/-! ### Settings and the entries that they are saved as -/

namespace Setting

/-- The section that a setting belongs to. -/
def part : Setting → String
  | rule _ => "rule"
  | symbols | format => "display"
  | exclude | includeTests | maxFileSize => "files"

/-- The name by which a setting is saved in its section. -/
def name : Setting → String
  | rule option => option.key
  | symbols => "symbols"
  | format => "format"
  | exclude => "exclude"
  | includeTests => "include_tests"
  | maxFileSize => "max_file_size"

end Setting

namespace Settings

open Layer

/-- Whether two settings are the same: the ignored names in any order, and each of the others as it
is. -/
structure SameAs (settings settings' : Settings) : Prop where
  ignored : settings.rule.ignoredVariables.Perm settings'.rule.ignoredVariables
  others : ∀ setting, setting ≠ .rule .ignoredVariables → settings.get setting = settings'.get setting

/-- Settings have entries if the ignored names can be sorted: a section for the options as they are
shown, one for the display and one for the files. -/
theorem entries_eq_ok {settings : Settings} {entries : List (String × Value)} :
  settings.entries = .ok entries ↔
    ∃ names, Value.sorted? settings.rule.ignoredVariables = some names
      ∧ entries = [
        ("rule", .map (RuleOption.all.map fun option =>
          (option.key, settings.rule.shown names option))),
        ("display", .map [("symbols", settings.symbols), ("format", settings.format)]),
        ("files", .map [("exclude", .list settings.exclude),
          ("include_tests", settings.includeTests), ("max_file_size", settings.maxFileSize)])]
  := by
  constructor
  · intro h
    obtain ⟨options, hoptions, h⟩ := exists_ok_of_bind h
    obtain ⟨names, hnames, rfl⟩ := RuleOptions.entries_eq_ok.mp hoptions
    exact ⟨names, hnames, (Except.ok.inj h).symm⟩
  · rintro ⟨names, hnames, rfl⟩
    have hoptions := RuleOptions.entries_eq_ok.mpr ⟨names, hnames, rfl⟩
    simp only [entries, hoptions, bind, Except.bind, pure, Except.pure]

/-- The ignored names are a set after a setting was given a value. -/
theorem isSet_of_assign {settings settings' : Settings} {setting : Setting} {raw : String}
    (h : settings.assign setting raw = .ok settings')
    (hnames : Value.IsSet settings.rule.ignoredVariables) :
  Value.IsSet settings'.rule.ignoredVariables
  := by
  cases setting with
  | rule option =>
    obtain ⟨value, -, h⟩ := exists_ok_of_bind h
    obtain ⟨options, hset, h⟩ := exists_ok_of_bind h
    obtain rfl := Except.ok.inj h
    exact RuleOptions.isSet_of_set hset hnames
  | exclude | maxFileSize =>
    obtain ⟨value, -, h⟩ := exists_ok_of_bind h
    obtain rfl := Except.ok.inj h
    exact hnames
  | symbols | format | includeTests =>
    obtain rfl := Except.ok.inj h
    exact hnames

/-- The ignored names are a set in the settings that entries give. -/
theorem isSet_of_ofEntries {settings : Settings} {entries : List (String × Value)}
    (h : ofEntries entries = .ok settings) :
  Value.IsSet settings.rule.ignoredVariables
  := by
  obtain ⟨rule, hrule, h⟩ := exists_ok_of_bind h
  obtain ⟨display, -, h⟩ := exists_ok_of_bind h
  obtain ⟨files, -, h⟩ := exists_ok_of_bind h
  split at h
  · cases h
  · obtain rfl := Except.ok.inj h
    exact RuleOptions.isSet_of_ofValue hrule

end Settings

namespace SaveFault

/-- What the system says. -/
def error : SaveFault → Error
  | unopened e | brokenOff e _ => e

/-- The layers after the writing of one of them failed. -/
def leaves (kind : LayerKind) (layers : Layers) : SaveFault → Layers
  | unopened _ => layers
  | brokenOff _ left => layers.set kind left

end SaveFault

namespace Store

open Layer

variable {store : Store} {key raw : String} {kind : LayerKind}

/-- The ignored names are a set in the settings in force, if they are one in those after the last
change. -/
theorem isSet_of_load {settings : Settings}
    (hchanged : ∀ settings, store.changed = some settings →
      Value.IsSet settings.rule.ignoredVariables) (h : store.load = .ok settings) :
  Value.IsSet settings.rule.ignoredVariables
  := by
  rw [load] at h
  split at h
  · rename_i changed hsome
    obtain rfl := Except.ok.inj h
    exact hchanged _ hsome
  · obtain ⟨entries, -, h⟩ := exists_ok_of_bind h
    obtain ⟨entries, -, h⟩ := exists_ok_of_bind h
    exact Settings.isSet_of_ofEntries h

/-- Settings that have entries are written into a layer if the system lets that be done.  What the
system says otherwise is the answer, and the layer is what it leaves. -/
theorem save_eq {settings : Settings} {entries : List (String × Value)}
    (hload : store.load = .ok settings) (hentries : settings.entries = .ok entries)
    (kind : LayerKind) :
  store.save kind = match store.fault? kind with
    | none => ({ store with layers := store.layers.set kind (.value (.map entries)) }, .ok ())
    | some fault => ({ store with layers := fault.leaves kind store.layers }, .error fault.error)
  := by
  cases hfault : store.fault? kind with
  | none => simp only [save, written, hload, hfault, hentries]
  | some fault =>
    cases fault with
    | unopened e => simp only [save, written, hload, hfault, SaveFault.leaves, SaveFault.error]
    | brokenOff e left =>
      simp only [save, written, hload, hfault, hentries, SaveFault.leaves, SaveFault.error]

/-- Settings are written only if they have entries and the system lets that be done. -/
theorem save_inv {settings : Settings} (hload : store.load = .ok settings)
    (h : (store.save kind).2 = .ok ()) :
  store.fault? kind = none ∧ ∃ entries, settings.entries = .ok entries
  := by
  cases hentries : settings.entries with
  | error e =>
    obtain ⟨layer, e', hwritten⟩ : ∃ layer e', store.written kind = (layer, .error e') := by
      simp only [written, hload, hentries]
      rcases store.fault? kind with _ | _ | _
      · exact ⟨_, _, rfl⟩
      · exact ⟨_, _, rfl⟩
      · exact ⟨_, _, rfl⟩
    rw [save, hwritten] at h
    cases layer with
    | none => cases h
    | some layer => cases h
  | ok entries =>
    rw [save_eq hload hentries] at h
    cases hfault : store.fault? kind with
    | none => exact ⟨rfl, entries, rfl⟩
    | some fault => rw [hfault] at h; cases h

/-- A change that is not refused gives a setting a value and writes the entries of all settings
into a layer. -/
theorem set_inv (h : (store.set key raw kind).2 = .ok none) :
  ∃ before settings setting entries, store.load = .ok before
    ∧ Setting.ofKey key = .ok setting ∧ before.assign setting raw = .ok settings
    ∧ settings.entries = .ok entries
    ∧ (store.set key raw kind).1 = {
      store with
      layers := store.layers.set kind (.value (.map entries))
      changed := some settings }
  := by
  unfold set at h ⊢
  split at h
  · rename_i changed hchange
    have hanswer : (store.change key raw).2 = .ok none := by rw [hchange]
    obtain ⟨before, settings, hload, hafter, hcases⟩ := change_inv hanswer
    rw [hchange] at hafter
    obtain rfl : changed = { store with changed := some settings } := hafter
    obtain ⟨fault, -, -, hnone⟩ | ⟨setting, hkey, hassign, -⟩ := hcases
    · cases hnone
    · have hafterLoad : ({ store with changed := some settings } : Store).load = .ok settings := rfl
      have hsaved : (({ store with changed := some settings } : Store).save kind).2 = .ok () := by
        cases hsaved : (({ store with changed := some settings } : Store).save kind).2 with
        | error e => simp [hsaved, Except.map] at h
        | ok u => rfl
      obtain ⟨hfault, entries, hentries⟩ := save_inv hafterLoad hsaved
      use before, settings, setting, entries, hload, hkey, hassign, hentries
      rw [save_eq hafterLoad hentries, hfault]
  · rename_i hrefused
    exact (hrefused _ (Prod.ext rfl h)).elim

end Store

/-! ### Loading what was saved -/

namespace Layer

/-- What is no map is put in the place of what was there. -/
theorem valueOver_list (old : Option Value) (items : List Value) :
  valueOver old (.list items) = .list items
  := by
  rw [valueOver]
  simp

end Layer

namespace RuleOption

/-- The key of an option names that option and no other. -/
theorem isNamed_key (option other : RuleOption) :
  other.isNamed option.key = decide (option = other)
  := by
  have hname : ofName? option.key = some option := by
    cases option <;> rfl
  simp [isNamed, hname]

/-- Of entries for all options, only one names a given option. -/
theorem filter_map_key (value : RuleOption → Value) (option : RuleOption) :
  (all.map fun other => (other.key, value other)).filter (fun entry => option.isNamed entry.1)
    = [(option.key, value option)]
  := by
  have hall : all.filter (fun other => decide (other = option)) = [option] := by
    cases option <;> rfl
  rw [List.filter_map]
  simp only [Function.comp_def, isNamed_key, hall, List.map_cons, List.map_nil]

/-- No two options have the same key. -/
theorem nodup_map_key (value : RuleOption → Value) :
  ((all.map fun other => (other.key, value other)).map (·.1)).Nodup
  := by
  have hkeys : (all.map fun other => (other.key, value other)).map (·.1) = all.map key := by
    rw [List.map_map]
    rfl
  rw [hkeys]
  decide

end RuleOption

namespace RuleOptions

/-- Options can be taken over from entries exactly if the values for the ignored names are sets. -/
theorem exists_update_iff {entries : List (String × Value)} {options : RuleOptions} :
  (∃ options', options.update entries = .ok options') ↔
    ∀ entry ∈ entries, RuleOption.isNamed .ignoredVariables entry.1 →
      ∃ names, members entry.2 = .ok names
  := by
  constructor
  · rintro ⟨options', h⟩
    induction entries generalizing options with
    | nil => exact fun _ hentry => absurd hentry List.not_mem_nil
    | cons first rest ih =>
      obtain ⟨name, value⟩ := first
      rw [update] at h
      intro entry hentry hnamed
      rcases List.mem_cons.mp hentry with rfl | hentry
      · have hname : RuleOption.ofName? name = some .ignoredVariables := of_decide_eq_true hnamed
        rw [hname] at h
        obtain ⟨options'', hset, -⟩ := exists_ok_of_bind h
        rw [set] at hset
        cases hmembers : members value with
        | error e => simp [hmembers, Except.map] at hset
        | ok names => exact ⟨names, rfl⟩
      · split at h
        · exact ih h entry hentry hnamed
        · obtain ⟨options'', -, h⟩ := exists_ok_of_bind h
          exact ih h entry hentry hnamed
  · intro h
    exact exists_update h options

/-- Options other than the ignored names are shown as they are. -/
theorem shown_of_ne (options : RuleOptions) (names : List Value) {option : RuleOption}
    (hne : option ≠ .ignoredVariables) :
  options.shown names option = options.get option
  := by
  cases option with
  | ignoredVariables => exact absurd rfl hne
  | _ => rfl

end RuleOptions

/-- Whether the environment says nothing about settings. -/
def Terminal.IsBare (terminal : Terminal) : Prop :=
  ∀ name ∈ ["ONETIME_IGNORED_VARIABLES", "ONETIME_FORMAT", "ONETIME_SYMBOLS"],
    terminal.variableOf name = ""

namespace Store

open Layer

variable {store : Store} {terminal : Terminal} {settings : Settings} {names : List Value}

/-- What the file of the user gives a setting under the name by which it is saved. -/
def userValue? (store : Store) (setting : Setting) : Option Value :=
  Value.find? setting.name (partOf setting.part store.userEntries)

/-- The store as it is found by a new run: the files are there, and nothing is changed. -/
def restarted (store : Store) (terminal : Terminal) : Store where
  layers := store.layers
  terminal := terminal

/-- The store with all settings written into the file of the project. -/
def saved (store : Store) (entries : List (String × Value)) : Store :=
  { store with layers := store.layers.set .project (.value (.map entries)) }

theorem withEnvironment_bare (hbare : terminal.IsBare) (entries : List (String × Value)) :
  withEnvironment terminal entries = .ok entries
  := by
  have hvariable : ∀ name ∈ ["ONETIME_IGNORED_VARIABLES", "ONETIME_FORMAT", "ONETIME_SYMBOLS"],
      ∀ part key read entries, assignVariable terminal name part key read entries = .ok entries := by
    intro name hname part key read entries
    rw [assignVariable, hbare name hname]
    rfl
  rw [withEnvironment, hvariable _ (by simp)]
  simp only [bind, Except.bind]
  rw [hvariable _ (by simp)]
  exact hvariable _ (by simp) _ _ _ _

/-- The entries for the options, where the saved ones are laid over those of the user. -/
def savedOptions (store : Store) (settings : Settings) (names : List Value) :
    List (String × Value) :=
  laidOver (partOf "rule" store.userEntries)
    (RuleOption.all.map fun option => (option.key, settings.rule.shown names option))

/-- Saved settings with some options, where each of the others is laid over what the user has. -/
def overUser (store : Store) (settings : Settings) (rule : RuleOptions) : Settings where
  rule := rule
  symbols := valueOver (store.userValue? .symbols) settings.symbols
  format := valueOver (store.userValue? .format) settings.format
  exclude := settings.exclude
  includeTests := valueOver (store.userValue? .includeTests) settings.includeTests
  maxFileSize := valueOver (store.userValue? .maxFileSize) settings.maxFileSize

theorem get_overUser {rule : RuleOptions} {setting : Setting}
    (hne : setting ≠ .rule .ignoredVariables)
    (hrule : ∀ option, option ≠ .ignoredVariables →
      rule.get option = valueOver (store.userValue? (.rule option)) (settings.rule.get option)) :
  (store.overUser settings rule).get setting
    = valueOver (store.userValue? setting) (settings.get setting)
  := by
  cases setting with
  | rule option => exact hrule option fun heq => hne (congrArg _ heq)
  | exclude => exact (valueOver_list _ _).symm
  | _ => rfl

/-- What is loaded after settings were saved: the options from the saved entries and those of the
user, and each of the other settings as it was saved, laid over what the user gives. -/
theorem load_saved (hreadable : store.layers.user.bind Layer.failure? = none)
    (hkeys : (store.userEntries.map (·.1)).Nodup) (hbare : terminal.IsBare)
    {entries : List (String × Value)} (hentries : settings.entries = .ok entries)
    (hnames : Value.sorted? settings.rule.ignoredVariables = some names) :
  ((store.saved entries).restarted terminal).load = (do
    let rule ← ({} : RuleOptions).update (store.savedOptions settings names)
    return store.overUser settings rule)
  := by
  obtain ⟨names', hnames', rfl⟩ := Settings.entries_eq_ok.mp hentries
  obtain rfl : names = names' := Option.some.inj (hnames.symm.trans hnames')
  have hload : ∀ entries, ((store.saved entries).restarted terminal).load
      = Settings.ofEntries (laidOver store.userEntries entries) := by
    intro entries
    have hfiles : ((store.saved entries).restarted terminal).failure? = none :=
      Option.or_eq_none_iff.mpr ⟨hreadable, rfl⟩
    have hlayers : ((store.saved entries).restarted terminal).layers.entries
        = .ok (laidOver store.userEntries entries) := layers_entries hkeys hfiles
    rw [load, show ((store.saved entries).restarted terminal).changed = none from rfl, hlayers]
    simp only [bind, Except.bind,
      show ((store.saved entries).restarted terminal).terminal = terminal from rfl,
      withEnvironment_bare hbare]
  have hnodup : (([
      ("rule", .map (RuleOption.all.map fun option => (option.key, settings.rule.shown names option))),
      ("display", .map [("symbols", settings.symbols), ("format", settings.format)]),
      ("files", .map [("exclude", .list settings.exclude), ("include_tests", settings.includeTests),
        ("max_file_size", settings.maxFileSize)])] : List (String × Value)).map (·.1)).Nodup := by
    simp
  obtain ⟨hrule, hrulePart⟩ := @partOf_laidOver "rule" store.userEntries _ _ hnodup rfl
    (RuleOption.nodup_map_key _)
  obtain ⟨hdisplay, hdisplayPart⟩ := @partOf_laidOver "display" store.userEntries _ _ hnodup rfl
    (by simp)
  obtain ⟨hfiles, hfilesPart⟩ := @partOf_laidOver "files" store.userEntries _ _ hnodup rfl (by simp)
  have hexclude : (Value.list settings.exclude).contents? = some settings.exclude := by
    cases settings.exclude <;> rfl
  rw [hload, Settings.ofEntries_eq, hrulePart, hdisplayPart, hfilesPart]
  · simp [find?_laidOver, Value.find?_cons, valueOver_list, hexclude, userValue?, Setting.part,
      Setting.name, savedOptions, overUser]
  · simpa using ⟨hrule.isSection, hdisplay.isSection, hfiles.isSection⟩

/-- Of the entries for the options, those that name a given one are the entry of the user and the
saved one laid over it. -/
theorem filter_savedOptions {option : RuleOption}
    (honce : ((partOf "rule" store.userEntries).filter fun entry =>
      option.isNamed entry.1).length ≤ 1) :
  (store.savedOptions settings names).filter (fun entry => option.isNamed entry.1)
    = laidOver (naming? option store.userEntries).toList
        (some (option.key, settings.rule.shown names option)).toList
  := by
  have huser : (partOf "rule" store.userEntries).filter (fun entry => option.isNamed entry.1)
      = (naming? option store.userEntries).toList := filter_eq_toList_find? honce
  rw [savedOptions, filter_laidOver, huser, RuleOption.filter_map_key]
  rfl

/-- The last entry that names an option gives it the saved value, laid over what the user has under
its main key. -/
theorem getLast?_savedOptions {option : RuleOption}
    (honce : ((partOf "rule" store.userEntries).filter fun entry =>
      option.isNamed entry.1).length ≤ 1) :
  ((store.savedOptions settings names).filter fun entry =>
      option.isNamed entry.1).getLast?.map (·.2)
    = some (valueOver (store.userValue? (.rule option)) (settings.rule.shown names option))
  := by
  have hnamed : option.isNamed option.key := by
    simp [RuleOption.isNamed_key]
  have huser : (partOf "rule" store.userEntries).filter (fun entry => option.isNamed entry.1)
      = (naming? option store.userEntries).toList := filter_eq_toList_find? honce
  have hvalue : Value.find? option.key (naming? option store.userEntries).toList
      = store.userValue? (.rule option) := by
    rw [← huser, Value.find?_filter hnamed]
    rfl
  rw [filter_savedOptions honce, getLast?_laidOver, Option.map_some, hvalue]
  rfl

/-- Whether what the user gives for the ignored names under another key than the main one, if
anything, can be made a set. -/
def HasSpareNames (store : Store) : Prop :=
  ∀ entry, naming? .ignoredVariables store.userEntries = some entry →
    entry.1 ≠ RuleOption.ignoredVariables.key → ∃ names, RuleOptions.members entry.2 = .ok names

/-- The options can be taken over from the saved entries and those of the user exactly if the
ignored names of the user are no hindrance. -/
theorem exists_update_savedOptions
    (honce : ((partOf "rule" store.userEntries).filter fun entry =>
      RuleOption.isNamed .ignoredVariables entry.1).length ≤ 1)
    (hnames : Value.IsSet names) :
  (∃ rule, ({} : RuleOptions).update (store.savedOptions settings names) = .ok rule) ↔
    store.HasSpareNames
  := by
  have hmembers := RuleOptions.members_of_isSet hnames
  have hfilter : (∀ entry ∈ store.savedOptions settings names,
      RuleOption.isNamed .ignoredVariables entry.1 →
        ∃ names, RuleOptions.members entry.2 = .ok names)
      ↔ ∀ entry ∈ laidOver (naming? .ignoredVariables store.userEntries).toList
          [(RuleOption.ignoredVariables.key, .list names)],
        ∃ names, RuleOptions.members entry.2 = .ok names := by
    have hentries := @filter_savedOptions store settings names _ honce
    rw [Option.toList_some] at hentries
    rw [show Value.list names = settings.rule.shown names .ignoredVariables from rfl, ← hentries]
    simp only [List.mem_filter, and_imp]
  rw [RuleOptions.exists_update_iff, hfilter, HasSpareNames]
  rcases naming? .ignoredVariables store.userEntries with _ | ⟨key, value⟩
  · simp [laidOver, Value.put, Value.find?_nil, valueOver_list, hmembers]
  · by_cases hkey : key = RuleOption.ignoredVariables.key <;>
      simp [laidOver, Value.put, valueOver_list, hmembers, hkey]

/-- Settings that were saved are loaded again by the next run.  This works exactly if the file of
the user does not fail and gives the ignored names by their main key or as something that can be made
a set.  Then the ignored names are the same, and each of the other settings has its value laid over
what the user has under its name; so it has just its value, unless both are maps. -/
theorem load_of_set {key raw : String}
    (hchanged : ∀ settings, store.changed = some settings →
      Value.IsSet settings.rule.ignoredVariables)
    (hkeys : (store.userEntries.map (·.1)).Nodup)
    (honce : ∀ option : RuleOption, ((partOf "rule" store.userEntries).filter fun entry =>
      option.isNamed entry.1).length ≤ 1)
    (hset : (store.set key raw .project).2 = .ok none) (hbare : terminal.IsBare) :
  ∃ settings, (store.set key raw .project).1.load = .ok settings
    ∧ ((∃ loaded, ((store.set key raw .project).1.restarted terminal).load = .ok loaded) ↔
        store.layers.user.bind Layer.failure? = none ∧ store.HasSpareNames)
    ∧ ∀ loaded, ((store.set key raw .project).1.restarted terminal).load = .ok loaded →
      loaded.rule.ignoredVariables.Perm settings.rule.ignoredVariables
        ∧ (∀ setting, setting ≠ .rule .ignoredVariables →
          loaded.get setting = valueOver (store.userValue? setting) (settings.get setting))
        ∧ ((∀ setting base upper, store.userValue? setting = some (.map base) →
            settings.get setting ≠ .map upper) → loaded.SameAs settings)
  := by
  obtain ⟨before, settings, setting, entries, hload, -, hassign, hentries, hafter⟩ := set_inv hset
  obtain ⟨names, hsorted, -⟩ := Settings.entries_eq_ok.mp hentries
  have hsettings := Settings.isSet_of_assign hassign (isSet_of_load hchanged hload)
  have hperm := Value.perm_of_sorted? hsorted
  have hnames : Value.IsSet names := hsettings.perm hperm.symm
  have hrestarted : store.layers.user.bind Layer.failure? = none →
      ((store.set key raw .project).1.restarted terminal).load = (do
        let rule ← ({} : RuleOptions).update (store.savedOptions settings names)
        return store.overUser settings rule) := by
    intro hreadable
    rw [hafter]
    exact load_saved hreadable hkeys hbare hentries hsorted
  have hreadable : ∀ loaded, ((store.set key raw .project).1.restarted terminal).load = .ok loaded →
      store.layers.user.bind Layer.failure? = none := by
    intro loaded h
    have hfiles := failure?_eq_none_of_load rfl h
    rw [hafter] at hfiles
    exact (Option.or_eq_none_iff.mp hfiles).1
  use settings
  refine ⟨by rw [hafter]; rfl, ?_, ?_⟩
  · rw [← @exists_update_savedOptions store settings _ (honce _) hnames]
    constructor
    · rintro ⟨loaded, h⟩
      refine ⟨hreadable loaded h, ?_⟩
      rw [hrestarted (hreadable loaded h)] at h
      obtain ⟨rule, hupdate, -⟩ := exists_ok_of_bind h
      exact ⟨rule, hupdate⟩
    · rintro ⟨hreadable, rule, hupdate⟩
      rw [hrestarted hreadable, hupdate]
      exact ⟨_, rfl⟩
  · intro loaded h
    rw [hrestarted (hreadable loaded h)] at h
    obtain ⟨rule, hupdate, h⟩ := exists_ok_of_bind h
    obtain rfl := Except.ok.inj h
    have htaken : ∀ option : RuleOption, option.taken (valueOver (store.userValue? (.rule option))
        (settings.rule.shown names option)) = .ok (rule.get option) := by
      intro option
      have hget := RuleOptions.get_update option hupdate
      rwa [getLast?_savedOptions (honce option)] at hget
    have hignored : rule.ignoredVariables.Perm settings.rule.ignoredVariables := by
      have hset := htaken .ignoredVariables
      rw [RuleOption.taken, if_pos rfl, RuleOptions.shown, valueOver_list,
        RuleOptions.members_of_isSet hnames] at hset
      obtain rfl : names = rule.ignoredVariables := Value.list.inj (Except.ok.inj hset)
      exact hperm
    have hrule : ∀ option, option ≠ .ignoredVariables → rule.get option
        = valueOver (store.userValue? (.rule option)) (settings.rule.get option) := by
      intro option hne
      have hgiven := htaken option
      rw [RuleOption.taken, if_neg hne, settings.rule.shown_of_ne names hne] at hgiven
      exact (Except.ok.inj hgiven).symm
    refine ⟨hignored, fun setting hne => get_overUser hne hrule, fun hplain => ⟨hignored, ?_⟩⟩
    intro setting hne
    rw [get_overUser hne hrule]
    exact valueOver_eq_self (hplain setting)

/-- A store where the user names options by other keys than the main ones, and has a section that is
no map. -/
def otherKeys : Store where
  layers := {
    user := some (.value (.map [
      ("rule", .map [("max_initializer_length", .int 10),
        ("ignored_variables", .list [.text "self"])]),
      ("display", .null)]))
    project := some (.value (.map [("rule", .map [("allowInsideFunctions", .bool false)])])) }

/-- What the user has by other keys is not in force after the next run is started. -/
theorem load_of_set_otherKeys :
  ((otherKeys.userEntries.map (·.1)).Nodup
    ∧ (∀ option : RuleOption, ((partOf "rule" otherKeys.userEntries).filter fun entry =>
      option.isNamed entry.1).length ≤ 1)
    ∧ (otherKeys.set "rule.maxInitializerLength" "120" .project).2 = .ok none
    ∧ Terminal.IsBare {})
    ∧ ∃ settings loaded,
      (otherKeys.set "rule.maxInitializerLength" "120" .project).1.load = .ok settings
        ∧ ((otherKeys.set "rule.maxInitializerLength" "120" .project).1.restarted {}).load
          = .ok loaded
        ∧ loaded.rule.maxInitializerLength = .int 120
        ∧ loaded.SameAs settings
  := by
  have hkeys : (otherKeys.userEntries.map (·.1)).Nodup := by decide
  have honce : ∀ option : RuleOption, ((partOf "rule" otherKeys.userEntries).filter fun entry =>
      option.isNamed entry.1).length ≤ 1 := fun option => by cases option <;> decide
  have hset : (otherKeys.set "rule.maxInitializerLength" "120" .project).2 = .ok none := rfl
  have hbare : Terminal.IsBare {} := by
    intro name hname
    rfl
  use ⟨hkeys, honce, hset, hbare⟩
  obtain ⟨settings, hload, hloads, hloaded⟩ :=
    @load_of_set otherKeys {} _ _ nofun hkeys honce hset hbare
  obtain ⟨loaded, hrestarted⟩ := hloads.mpr ⟨rfl, by
    rintro ⟨key, value⟩ hentry -
    obtain ⟨-, rfl⟩ := Prod.mk.inj (Option.some.inj hentry)
    exact RuleOptions.exists_members_list ["self"]⟩
  obtain ⟨-, hothers, hsame⟩ := hloaded loaded hrestarted
  have hsettings : ({
      rule := {
        ignoredVariables := [.text "self"]
        allowInsideCallback := .bool false
        maxInitializerLength := .int 120 } } : Settings) = settings := Except.ok.inj hload
  use settings, loaded, hload, hrestarted
  constructor
  · have hlimit := hothers (.rule .maxInitializerLength) (by decide)
    rwa [← hsettings] at hlimit
  · apply hsame
    intro setting base upper huser
    cases setting with
    | rule option => cases option <;> cases huser
    | _ => cases huser

/-- A store where the user and the project give an option maps, by different keys. -/
def mapsInBoth : Store where
  layers := {
    user := some (.value (.map [("rule", .map [("maxPropertyLength", .map [("a", .int 1)])])]))
    project := some (.value (.map [("rule", .map [("max_property_length", .map [("b", .int 2)])])])) }

/-- A store where the user has a number for the ignored names, by another key than the main one. -/
def unlistedNames : Store where
  layers := {
    user := some (.value (.map [("rule", .map [("ignored_variables", .int 5)])]))
    project := some (.value (.map [("rule", .map [("ignored_variables", .list [.text "a"])])])) }

/-- A map that was saved is not loaded as it is if the user has a map under the same key, and a
number for the ignored names that the project hid is not hidden by what is saved. -/
theorem load_set_ne :
  ((∀ store ∈ [mapsInBoth, unlistedNames], (store.userEntries.map (·.1)).Nodup
      ∧ ∀ option : RuleOption, ((partOf "rule" store.userEntries).filter fun entry =>
        option.isNamed entry.1).length ≤ 1)
    ∧ Terminal.IsBare {})
    ∧ ((mapsInBoth.set "display.format" "json" .project).2 = .ok none
      ∧ ∃ settings loaded, (mapsInBoth.set "display.format" "json" .project).1.load = .ok settings
        ∧ ((mapsInBoth.set "display.format" "json" .project).1.restarted {}).load = .ok loaded
        ∧ ¬ loaded.SameAs settings)
    ∧ (unlistedNames.set "display.format" "json" .project).2 = .ok none
      ∧ ∃ settings, (unlistedNames.set "display.format" "json" .project).1.load = .ok settings
        ∧ ((unlistedNames.set "display.format" "json" .project).1.restarted {}).load
          = .error .wrongKind
  := by
  let settings (entries : List (String × Value)) : Settings :=
    { rule := { maxPropertyLength := .map entries }, format := .text "json" }
  refine ⟨⟨?_, ?_⟩, ⟨rfl, settings [("b", .int 2)], settings [("a", .int 1), ("b", .int 2)], rfl, rfl,
    ?_⟩, rfl, _, rfl, rfl⟩
  · intro store hstore
    rcases List.mem_pair.mp hstore with rfl | rfl
    · exact ⟨by decide, fun option => by cases option <;> decide⟩
    · exact ⟨by decide, fun option => by cases option <;> decide⟩
  · intro name hname
    rfl
  · intro hsame
    have hlimit := hsame.others (.rule .maxPropertyLength) (by decide)
    simp [settings, Settings.get, RuleOptions.get] at hlimit

end Store

end SingleUse
