import SingleUse.Command.Lint
import SingleUse.Proofs.Completion
import SingleUse.Proofs.Saving
import Mathlib.Data.List.Induction

/-!
# Overriding

The arguments of a run override options, each override by a key and a text.  They are written one
after the other into the *table* of the options, which has an entry for each option under its main
key.  An override by the main key takes the place of the entry that is there, and so the last of
several decides.  An override by the older key of an option comes after all other entries, and of
the entries for one option the last one decides: an override by the main key has no effect after
one by the older key.
-/

namespace SingleUse

/-! ### Sets of texts -/

/-- The members of a set are all that it is made of, if these are texts. -/
theorem Value.mem_distinct_iff {items : List Value} (h : ∀ item ∈ items, ∃ s, item = .text s)
    {item : Value} :
  item ∈ distinct items ↔ item ∈ items
  := by
  use mem_of_mem_distinct
  induction items using List.reverseRecOn with
  | nil => simp
  | append_singleton items last ih =>
    have hfront : ∀ item ∈ items, ∃ s, item = .text s := fun item hitem =>
      h item (List.mem_append_left _ hitem)
    have hstep : distinct (items ++ [last])
        = if (distinct items).any (·.sameMember last) then distinct items
          else distinct items ++ [last] := by
      rw [distinct, List.foldl_append]
      rfl
    rw [hstep]
    intro hitem
    rcases List.mem_append.mp hitem with hitem | hitem
    · have hkept := ih hfront hitem
      split
      · exact hkept
      · apply List.mem_append_left _ hkept
    · obtain rfl := List.mem_singleton.mp hitem
      split
      · rename_i hthere
        obtain ⟨other, hother, hsame⟩ := List.any_eq_true.mp hthere
        obtain ⟨s, rfl⟩ := h _ (List.mem_append_right _ List.mem_cons_self)
        obtain ⟨t, rfl⟩ := hfront other (mem_of_mem_distinct hother)
        obtain rfl : t = s := by simpa [sameMember, number?] using hsame
        exact hother
      · apply List.mem_append_right _ List.mem_cons_self

namespace RuleOptions

/-- The set that a list of texts gives has just these for its members. -/
theorem mem_members_iff {items names : List Value} (h : members (.list items) = .ok names)
    (htexts : ∀ item ∈ items, ∃ s, item = .text s) {name : Value} :
  name ∈ names ↔ name ∈ items
  := by
  have hcontents : (Value.list items).contents? = some items := by
    cases items <;> rfl
  rw [members, hcontents] at h
  simp only at h
  split at h
  · obtain rfl := Except.ok.inj h
    apply Value.mem_distinct_iff htexts
  · cases h

/-- The ignored names take the set that a value gives. -/
theorem taken_ignoredVariables_iff {value : Value} {names : List Value} :
  RuleOption.ignoredVariables.taken value = .ok (.list names) ↔ members value = .ok names
  := by
  rw [RuleOption.taken, if_pos rfl]
  cases members value <;> simp [Except.map]

/-- The ignored names of sound options are texts. -/
theorem eq_text_of_problem? {options : RuleOptions} (h : options.problem? = none) :
  ∀ name ∈ options.ignoredVariables, ∃ s, name = .text s
  := (problem?_eq_none_iff.mp h).2.2.2

/-- Whether options have the value of others for an option: of the ignored names the same are
members. -/
def SameFor (options others : RuleOptions) : RuleOption → Prop
  | .ignoredVariables => ∀ name, name ∈ options.ignoredVariables ↔ name ∈ others.ignoredVariables
  | option => options.get option = others.get option

theorem SameFor.refl (options : RuleOptions) (option : RuleOption) :
  options.SameFor options option
  := by
  cases option with
  | ignoredVariables => exact fun _ => Iff.rfl
  | _ => rfl

end RuleOptions

/-! ### Tables of options -/

namespace RuleOption

/-- A key is the main one of an option or the older one. -/
theorem ofKey?_eq_some_iff {name : String} {option : RuleOption} :
  ofKey? name = some option ↔ name = option.key ∨ name = legacyKey ∧ option = .allowInsideCallback
  := by
  constructor
  · intro h
    rcases Option.or_eq_some_iff.mp h with hmain | ⟨-, hlegacy⟩
    · have hkey := List.find?_some hmain
      exact .inl (of_decide_eq_true hkey).symm
    · split at hlegacy
      · exact .inr ⟨‹_›, (Option.some.inj hlegacy).symm⟩
      · cases hlegacy
  · rintro (rfl | ⟨rfl, rfl⟩)
    · rw [ofKey?, find?_key]
      rfl
    · decide

theorem key_inj {option other : RuleOption} :
  option.key = other.key ↔ option = other
  := by
  constructor
  · intro h
    have hfound := find?_key option
    rw [h, find?_key other] at hfound
    exact (Option.some.inj hfound).symm
  · rintro rfl
    rfl

theorem key_ne_legacyKey (option : RuleOption) :
  option.key ≠ legacyKey
  := by
  cases option <;> decide

/-- The entries of the options under their main keys, and of one under the older key if that one has
a value there. -/
def table (values : RuleOption → Value) (older : Option Value) : List (String × Value) :=
  (all.map fun option => (option.key, values option))
    ++ (older.map fun value => (legacyKey, value)).toList

variable (values : RuleOption → Value) (older : Option Value)

/-- An entry under a main key takes the place of the one that is there. -/
theorem put_key_table (option : RuleOption) (value : Value) :
  Value.put option.key value (table values older)
    = table (Function.update values option value) older
  := by
  cases option <;> simp [table, all, key, Value.put, Function.update]

/-- An entry under the older key comes after all others. -/
theorem put_legacyKey_table (value : Value) :
  Value.put legacyKey value (table values older) = table values (some value)
  := by
  cases older <;> simp [table, all, key, legacyKey, Value.put]

/-- Of the entries for an option the last one decides, which is that under the older key if there is
one. -/
theorem getLast?_table (option : RuleOption) :
  ((table values older).filter fun entry => option.isNamed entry.1).getLast?.map (·.2)
    = some (if option = .allowInsideCallback then older.getD (values option) else values option)
  := by
  rw [table, List.filter_append, filter_map_key]
  have hlegacy : option.isNamed legacyKey = decide (option = .allowInsideCallback) := by
    cases option <;> decide
  cases older with
  | none => simp
  | some value =>
    rw [Option.map_some, Option.toList_some, List.filter_cons, hlegacy]
    by_cases hoption : option = .allowInsideCallback <;> simp [hoption]

/-- The value that a text gives to an option: what the text is read as, for the ignored names as a
list of names. -/
def given (option : RuleOption) (raw : String) : Except Error Value := do
  let value ← Reading.value raw
  return if option = .ignoredVariables then Reading.asNames value else value

end RuleOption

/-! ### Several overrides -/

namespace Lint

/-- Key and text of an override. -/
def parts? (item : String) : Option (String × String) :=
  (Text.cutAt? '=' item).map fun (key, raw) => (Text.trim key, raw)

/-- The text of the last of several overrides whose key passes a test. -/
def lastGiven (p : String → Bool) (items : List String) : Option String :=
  ((items.filterMap parts?).filter fun parts => p parts.1).getLast?.map (·.2)

/-- The text of the last override of an option, by whatever key. -/
def lastOf (option : RuleOption) (items : List String) : Option String :=
  lastGiven (fun key => RuleOption.ofKey? key = some option) items

/-- The text of the last override by the older key of an option. -/
def lastOlder (items : List String) : Option String :=
  lastGiven (· = RuleOption.legacyKey) items

/-- The text of the override of an option that decides: the last one, but of those by the older key
if there are any. -/
def deciding (option : RuleOption) (items : List String) : Option String :=
  if option = .allowInsideCallback then (lastOlder items).or (lastOf option items)
  else lastOf option items

theorem lastGiven_cons {p : String → Bool} {item key raw : String}
    (h : parts? item = some (key, raw)) (rest : List String) :
  lastGiven p (item :: rest) = (lastGiven p rest).or (if p key then some raw else none)
  := by
  rw [lastGiven, List.filterMap_cons_some h, List.filter_cons, lastGiven]
  split
  · rw [List.getLast?_cons]
    cases ((rest.filterMap parts?).filter fun parts => p parts.1).getLast? <;> rfl
  · simp

/-- An override that has an effect puts a value that its text gives to the option of its key. -/
theorem override_eq_ok_iff {entries entries' : List (String × Value)} {item : String} :
  override entries item = .ok (.ok entries') ↔
    ∃ key raw option value, parts? item = some (key, raw) ∧ RuleOption.ofKey? key = some option
      ∧ option.given raw = .ok value ∧ entries' = Value.put key value entries
  := by
  have hignored : ∀ {key option}, RuleOption.ofKey? key = some option →
      (key = RuleOption.ignoredVariables.key ↔ option = .ignoredVariables) := by
    intro key option hoption
    rcases RuleOption.ofKey?_eq_some_iff.mp hoption with rfl | ⟨rfl, rfl⟩
    · cases option <;> decide
    · decide
  unfold override parts?
  cases Text.cutAt? '=' item with
  | none => simp
  | some cut =>
    obtain ⟨before, raw⟩ := cut
    cases hoption : RuleOption.ofKey? (Text.trim before) with
    | none => simp [hoption]
    | some option =>
      cases hvalue : Reading.value raw with
      | error e => simp [hoption, RuleOption.given, hvalue, bind, Except.bind]
      | ok value =>
        simp [hoption, RuleOption.given, hvalue, bind, Except.bind, pure, Except.pure,
          hignored hoption, eq_comm]

/-- Several overrides of a table make another table.  Each option has the value that the last
override by its main key gives it there, and the older key the value that the last override by that
key gives; without such an override the value is the one from before. -/
theorem overrideAll_table {items : List String} :
  ∀ {values : RuleOption → Value} {older : Option Value} {entries : List (String × Value)},
    overrideAll (RuleOption.table values older) items = .ok (.ok entries) →
    ∃ values' older', entries = RuleOption.table values' older'
      ∧ (∀ option : RuleOption, match lastGiven (· = option.key) items with
        | some raw => option.given raw = .ok (values' option)
        | none => values' option = values option)
      ∧ match lastOlder items with
        | some raw => ∃ value, RuleOption.allowInsideCallback.given raw = .ok value
          ∧ older' = some value
        | none => older' = older
  := by
  induction items with
  | nil =>
    intro values older entries h
    obtain rfl := Except.ok.inj (Except.ok.inj h)
    exact ⟨values, older, rfl, fun _ => rfl, rfl⟩
  | cons item rest ih =>
    intro values older entries h
    obtain ⟨answer, hitem, h⟩ := exists_ok_of_bind h
    cases answer with
    | error message => cases h
    | ok first =>
      obtain ⟨key, raw, option, value, hparts, hoption, hgiven, rfl⟩ := override_eq_ok_iff.mp hitem
      simp only [lastOlder, lastGiven_cons hparts]
      rcases RuleOption.ofKey?_eq_some_iff.mp hoption with rfl | ⟨rfl, rfl⟩
      · rw [RuleOption.put_key_table] at h
        obtain ⟨values', older', rfl, hvalues, holder⟩ := ih h
        use values', older', rfl
        constructor
        · intro other
          have hother := hvalues other
          cases hlast : lastGiven (· = other.key) rest with
          | some later =>
            rw [hlast] at hother
            exact hother
          | none =>
            rw [hlast] at hother
            by_cases hsame : option = other
            · subst hsame
              simpa [hother] using hgiven
            · simp [RuleOption.key_inj, hsame, hother, Function.update_of_ne (Ne.symm hsame)]
        · unfold lastOlder at holder
          simpa [RuleOption.key_ne_legacyKey] using holder
      · rw [RuleOption.put_legacyKey_table] at h
        obtain ⟨values', older', rfl, hvalues, holder⟩ := ih h
        use values', older', rfl
        constructor
        · intro other
          simpa [(RuleOption.key_ne_legacyKey other).symm] using hvalues other
        · unfold lastOlder at holder
          cases hlast : lastGiven (· = RuleOption.legacyKey) rest with
          | some later =>
            rw [hlast] at holder
            exact holder
          | none =>
            rw [hlast] at holder
            exact ⟨value, hgiven, holder⟩

/-- The options that a table gives have the value of the last entry for each. -/
theorem taken_of_ofValue_table {values : RuleOption → Value} {older : Option Value}
    {options : RuleOptions}
    (h : RuleOptions.ofValue (.map (RuleOption.table values older)) = .ok options)
    (option : RuleOption) :
  option.taken (if option = .allowInsideCallback then older.getD (values option)
    else values option) = .ok (options.get option)
  := by
  have hupdate : ({} : RuleOptions).update (RuleOption.table values older) = .ok options := h
  have hget := RuleOptions.get_update option hupdate
  rwa [RuleOption.getLast?_table] at hget

/-- Whether an option takes what a text gives it, or has the value from before if there is no such
text. -/
def Takes (options before : RuleOptions) (option : RuleOption) : Option String → Prop
  | some raw =>
    ∃ value, option.given raw = .ok value ∧ option.taken value = .ok (options.get option)
  | none => options.SameFor before option

/-- The last override of an option is the last one by its main key, unless there are some by the
older key. -/
theorem lastOf_eq {option : RuleOption} {items : List String}
    (h : option = .allowInsideCallback → lastOlder items = none) :
  lastOf option items = lastGiven (· = option.key) items
  := by
  rw [lastOf, lastGiven, lastGiven]
  congr 2
  apply List.filter_congr
  intro parts hparts
  apply decide_eq_decide.mpr
  rw [RuleOption.ofKey?_eq_some_iff]
  constructor
  · rintro (hkey | ⟨hlegacy, hoption⟩)
    · exact hkey
    · have hnone := h hoption
      rw [lastOlder, lastGiven, Option.map_eq_none_iff, List.getLast?_eq_none_iff] at hnone
      have hother := List.filter_eq_nil_iff.mp hnone parts hparts
      simp [hlegacy] at hother
  · exact .inl

/-- An option whose entry in the table is the one from before keeps its value. -/
theorem sameFor_of_taken {before options : RuleOptions} {names : List Value}
    (hbefore : before.problem? = none)
    (hnames : Value.sorted? before.ignoredVariables = some names) {option : RuleOption}
    (h : option.taken (before.shown names option) = .ok (options.get option)) :
  options.SameFor before option
  := by
  have hsame : option ≠ .ignoredVariables → options.get option = before.get option := by
    intro hne
    rw [RuleOption.taken, if_neg hne, before.shown_of_ne names hne] at h
    exact (Except.ok.inj h).symm
  cases option with
  | ignoredVariables =>
    have hmembers := RuleOptions.taken_ignoredVariables_iff.mp h
    have hperm := Value.perm_of_sorted? hnames
    intro name
    rw [RuleOptions.mem_members_iff hmembers, hperm.mem_iff]
    intro item hitem
    apply RuleOptions.eq_text_of_problem? hbefore item (hperm.mem_iff.mp hitem)
  | _ => exact hsame (by decide)

/-- The override that decides is the last one by the main key, unless there are some by the older
key. -/
theorem deciding_eq {option : RuleOption} {items : List String}
    (h : option = .allowInsideCallback → lastOlder items = none) :
  deciding option items = lastGiven (· = option.key) items
  := by
  rw [← lastOf_eq h, deciding]
  split
  · rw [h ‹_›, Option.none_or]
  · rfl

/-- Overrides that have an effect make a table of one with the options from before, and the options
that this table gives; without overrides the options are those from before. -/
theorem withOverrides_inv {before options : RuleOptions} {items : List String}
    (h : withOverrides before items = .ok (.ok options)) :
  (items = [] ∧ options = before)
    ∨ ∃ names entries, Value.sorted? before.ignoredVariables = some names
      ∧ overrideAll (RuleOption.table (before.shown names) none) items = .ok (.ok entries)
      ∧ RuleOptions.ofValue (.map entries) = .ok options
  := by
  rw [withOverrides] at h
  split at h
  · exact .inl ⟨List.isEmpty_iff.mp ‹_›, (Except.ok.inj (Except.ok.inj h)).symm⟩
  · obtain ⟨entries, hentries, h⟩ := exists_ok_of_bind h
    obtain ⟨names, hnames, rfl⟩ := RuleOptions.entries_eq_ok.mp hentries
    obtain ⟨overridden, hoverridden, h⟩ := exists_ok_of_bind h
    have htable : (RuleOption.all.map fun option => (option.key, before.shown names option))
        = RuleOption.table (before.shown names) none := (List.append_nil _).symm
    rw [htable] at hoverridden
    cases overridden with
    | error message => cases h
    | ok table =>
      obtain ⟨given, hofValue, h⟩ := exists_ok_of_bind h
      obtain rfl : given = options := by
        have h := Except.ok.inj h
        split at h
        · cases h
        · exact Except.ok.inj h
      exact .inr ⟨names, table, hnames, hoverridden, hofValue⟩

/-- Options from a table that overrides have made take what the override that decides says. -/
theorem takes_of_overrideAll {before options : RuleOptions} (hbefore : before.problem? = none)
    {names : List Value} (hnames : Value.sorted? before.ignoredVariables = some names)
    {items : List String} {entries : List (String × Value)}
    (hoverridden : overrideAll (RuleOption.table (before.shown names) none) items
      = .ok (.ok entries))
    (hofValue : RuleOptions.ofValue (.map entries) = .ok options) (option : RuleOption) :
  Takes options before option (deciding option items)
  := by
  obtain ⟨values, older, rfl, hvalues, holder⟩ := overrideAll_table hoverridden
  have htaken := taken_of_ofValue_table hofValue option
  have hvalue := hvalues option
  by_cases hmain : option = .allowInsideCallback → lastOlder items = none
  · have hlast : (if option = .allowInsideCallback then older.getD (values option)
        else values option) = values option := by
      split
      · rw [hmain ‹_›] at holder
        rw [holder]
        rfl
      · rfl
    rw [hlast] at htaken
    rw [deciding_eq hmain]
    cases hcase : lastGiven (· = option.key) items with
    | some raw =>
      rw [hcase] at hvalue
      exact ⟨values option, hvalue, htaken⟩
    | none =>
      rw [hcase] at hvalue
      rw [hvalue] at htaken
      apply sameFor_of_taken hbefore hnames htaken
  · obtain ⟨rfl, hsome⟩ := Classical.not_imp.mp hmain
    obtain ⟨raw, hraw⟩ := Option.ne_none_iff_exists'.mp hsome
    rw [hraw] at holder
    obtain ⟨value, hgiven, rfl⟩ := holder
    rw [deciding, if_pos rfl, hraw]
    exact ⟨value, hgiven, htaken⟩

/-- Overrides that have an effect give each option what the override that decides says, and leave
the options without one as they are. -/
theorem takes_of_withOverrides {before options : RuleOptions} (hbefore : before.problem? = none)
    {items : List String} (h : withOverrides before items = .ok (.ok options))
    (option : RuleOption) :
  Takes options before option (deciding option items)
  := by
  rcases withOverrides_inv h with ⟨rfl, rfl⟩ | ⟨names, entries, hnames, hoverridden, hofValue⟩
  · have hnone : deciding option [] = none := by
      rw [deciding]
      split <;> rfl
    rw [hnone]
    apply RuleOptions.SameFor.refl
  · apply takes_of_overrideAll hbefore hnames hoverridden hofValue

/-! ### Which override decides -/

/-- Where there is an override by the older key there is a last override of the option. -/
theorem exists_lastOf_of_lastOlder {items : List String} {older : String}
    (h : lastOlder items = some older) :
  ∃ last, lastOf .allowInsideCallback items = some last
  := by
  obtain ⟨parts, hparts, -⟩ := Option.map_eq_some_iff.mp h
  obtain ⟨hmem, hkey⟩ := List.mem_filter.mp (List.mem_of_getLast? hparts)
  have hdenotes : parts ∈ (items.filterMap parts?).filter fun parts =>
      RuleOption.ofKey? parts.1 = some .allowInsideCallback := by
    apply List.mem_filter.mpr
    use hmem
    rw [decide_eq_true_iff, RuleOption.ofKey?_eq_some_iff]
    exact .inr ⟨of_decide_eq_true hkey, rfl⟩
  rw [lastOf, lastGiven, List.getLast?_eq_some_getLast (List.ne_nil_of_mem hdenotes)]
  exact ⟨_, rfl⟩

/-- The last override of each option decides exactly if the last one by an older key says the same
as the last one of that option. -/
theorem takes_lastOf_iff {before options : RuleOptions} {items : List String}
    (h : ∀ option, Takes options before option (deciding option items)) :
  (∀ option, Takes options before option (lastOf option items)) ↔
    ∀ older last, lastOlder items = some older → lastOf .allowInsideCallback items = some last →
      Reading.value older = Reading.value last
  := by
  have hgiven : ∀ raw, RuleOption.allowInsideCallback.given raw = Reading.value raw := by
    intro raw
    rw [RuleOption.given]
    cases Reading.value raw <;> rfl
  have hdeciding := h .allowInsideCallback
  rw [deciding, if_pos rfl] at hdeciding
  constructor
  · intro hlast older last holder hsome
    have hlast := hlast .allowInsideCallback
    rw [holder] at hdeciding
    rw [hsome] at hlast
    obtain ⟨value, hvalue, htaken⟩ := hdeciding
    obtain ⟨value', hvalue', htaken'⟩ := hlast
    -- A switch takes the value that it is given as it is.
    obtain rfl : value = value' := Except.ok.inj (htaken.trans htaken'.symm)
    rw [hgiven] at hvalue hvalue'
    rw [hvalue, hvalue']
  · intro hsame option
    by_cases hoption : option = .allowInsideCallback
    · subst hoption
      cases holder : lastOlder items with
      | none => rwa [holder, Option.none_or] at hdeciding
      | some older =>
        obtain ⟨last, hlast⟩ := exists_lastOf_of_lastOlder holder
        rw [holder] at hdeciding
        obtain ⟨value, hvalue, htaken⟩ := hdeciding
        rw [hlast]
        use value
        rw [hgiven, ← hsame older last holder hlast, ← hgiven]
        exact ⟨hvalue, htaken⟩
    · have hother := h option
      rwa [deciding, if_neg hoption] at hother

/-- Arguments that are taken give the rule the options of the settings, and each option the value of
the override that decides; an option without one has its value from before.  The last override
decides for all options exactly if the last one by the older key says the same as the last one of
that option by whatever key.  Where the answer is anything else, nothing is changed. -/
theorem configure_takes {lint : Lint} (hrule : lint.settings.rule.problem? = none) (s : Outside)
    (a : LintArguments) :
  (∀ later, lint.configure s a = (later, .ok none) →
    later.rule.options = later.settings.rule
      ∧ (∀ option, Takes later.settings.rule lint.settings.rule option (deciding option a.rules))
      ∧ ((∀ option, Takes later.settings.rule lint.settings.rule option (lastOf option a.rules)) ↔
        ∀ older last, lastOlder a.rules = some older →
          lastOf .allowInsideCallback a.rules = some last →
          Reading.value older = Reading.value last))
    ∧ ∀ later answer, lint.configure s a = (later, answer) → answer ≠ .ok none → later = lint
  := by
  constructor
  · intro later h
    rw [configure] at h
    split at h
    · cases h
    · cases h
    · rename_i options hoverrides
      obtain ⟨rfl, -⟩ := Prod.mk.inj h
      have htakes := takes_of_withOverrides hrule hoverrides
      exact ⟨rfl, htakes, takes_lastOf_iff htakes⟩
  · intro later answer h hanswer
    rw [configure] at h
    split at h
    · exact (Prod.mk.inj h).1.symm
    · exact (Prod.mk.inj h).1.symm
    · exact absurd (Prod.mk.inj h).2.symm hanswer

/-- A run in which nothing can be parsed. -/
def unparsed : Outside where
  host := { tree? := fun _ _ => none }

/-- Overrides of two options, each given twice; one of them once by its older key. -/
def givenTwice : LintArguments where
  rules := ["allowInsideFunctions=true", "maxInitializerLength=10", "allowInsideCallback=false",
    "maxInitializerLength=20"]

/-- The last override of the number decides, but the first one of the switch. -/
theorem configure_takes_givenTwice :
  (ofSettings unparsed {}).settings.rule.problem? = none
    ∧ ∃ later, (ofSettings unparsed {}).configure unparsed givenTwice = (later, .ok none)
      ∧ later.settings.rule.maxInitializerLength = .int 20
      ∧ later.settings.rule.allowInsideCallback = .bool true
      ∧ lastOf .allowInsideCallback givenTwice.rules = some "false"
      ∧ later.rule.options = later.settings.rule
      ∧ ¬ ∀ option, Takes later.settings.rule {} option (lastOf option givenTwice.rules)
  := by
  have hrule : (ofSettings unparsed {}).settings.rule.problem? = none := by decide +kernel
  have hanswer : ((ofSettings unparsed {}).configure unparsed givenTwice).2 = .ok none := by
    decide +kernel
  have hparts : givenTwice.rules.filterMap parts? = [("allowInsideFunctions", "true"),
      ("maxInitializerLength", "10"), ("allowInsideCallback", "false"),
      ("maxInitializerLength", "20")] := by
    decide +kernel
  have hlast : lastOf .allowInsideCallback givenTwice.rules = some "false" := by
    rw [lastOf, lastGiven, hparts]
    decide
  have holder : lastOlder givenTwice.rules = some "true" := by
    rw [lastOlder, lastGiven, hparts]
    decide
  have hnumber : deciding .maxInitializerLength givenTwice.rules = some "20" := by
    rw [deciding, if_neg (by decide), lastOf, lastGiven, hparts]
    decide
  have hswitch : deciding .allowInsideCallback givenTwice.rules = some "true" := by
    rw [deciding, if_pos rfl, holder]
    rfl
  have htwenty : RuleOption.maxInitializerLength.given "20" = .ok (.int 20) := by rfl
  have htrue : Reading.value "true" = .ok (.bool true) := by rfl
  have hfalse : Reading.value "false" = .ok (.bool false) := by rfl
  generalize hlater : (ofSettings unparsed {}).configure unparsed givenTwice = configured
    at hanswer ⊢
  obtain ⟨later, answer⟩ := configured
  obtain rfl : answer = .ok none := hanswer
  obtain ⟨hsame, htakes, hiff⟩ := (configure_takes hrule unparsed givenTwice).1 later hlater
  refine ⟨hrule, later, rfl, ?_, ?_, hlast, hsame, ?_⟩
  · obtain ⟨value, hvalue, htaken⟩ := hnumber ▸ htakes .maxInitializerLength
    cases htwenty.symm.trans hvalue
    exact (Except.ok.inj htaken).symm
  · obtain ⟨value, hvalue, htaken⟩ := hswitch ▸ htakes .allowInsideCallback
    cases htrue.symm.trans hvalue
    exact (Except.ok.inj htaken).symm
  · intro hall
    have heq := hiff.mp hall "true" "false" holder hlast
    rw [htrue, hfalse] at heq
    cases heq

end Lint

end SingleUse
