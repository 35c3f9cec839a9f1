import SingleUse.Proofs.Saving

/-!
# Loading settings

A section that is null counts as an empty one: its settings have their default values.  But when the
project has a section that is null, what the user has there is gone, and no variable of the
environment can be set in a section that is null.  Apart from that, settings are loaded from all
files whose sections are null or hold plain values, if what should be a list is no switch that is on
and no number, and no file fails when it is read.
-/

namespace SingleUse

/-! ### Plain values -/

namespace Value

/-- Whether a value is null, true or false, a whole number, a text or a list of texts. -/
inductive IsPlain : Value → Prop where
  | null : IsPlain .null
  | bool (b : Bool) : IsPlain (.bool b)
  | int (n : Int) : IsPlain (.int n)
  | text (s : String) : IsPlain (.text s)
  | texts (texts : List String) : IsPlain (.list (texts.map .text))

/-- Whether a value counts as true and holds nothing: it is true, or a number other than zero. -/
inductive IsLone : Value → Prop where
  | on : IsLone (.bool true)
  | number (n : Int) (h : n ≠ 0) : IsLone (.int n)

variable {value : Value}

theorem isLone_iff :
  value.IsLone ↔ value = .bool true ∨ ∃ n, n ≠ 0 ∧ value = .int n
  := by
  constructor
  · intro h
    cases h with
    | on => exact .inl rfl
    | number n h => exact .inr ⟨n, h, rfl⟩
  · rintro (rfl | ⟨n, h, rfl⟩)
    · exact .on
    · exact .number n h

/-- A plain value holds texts one after the other unless it counts as true and holds nothing. -/
theorem IsPlain.contents?_cases (h : value.IsPlain) :
  value.IsLone ∧ value.contents? = none
    ∨ ¬ value.IsLone ∧ ∃ texts : List String, value.contents? = some (texts.map .text)
  := by
  cases h with
  | null => exact .inr ⟨by simp [isLone_iff], [], rfl⟩
  | bool b =>
    cases b
    · exact .inr ⟨by simp [isLone_iff], [], rfl⟩
    · exact .inl ⟨.on, rfl⟩
  | int n =>
    by_cases hzero : n = 0
    · exact .inr ⟨by simp [isLone_iff, hzero], [], by simp [contents?, truthy, hzero]⟩
    · exact .inl ⟨.number n hzero, by simp [contents?, truthy, hzero]⟩
  | text s =>
    refine .inr ⟨by simp [isLone_iff], ?_⟩
    by_cases hempty : s = ""
    · exact ⟨[], by simp [contents?, truthy, hempty]⟩
    · exact ⟨s.toList.map fun c => c.toString, by simp [contents?, truthy, hempty]⟩
  | texts texts =>
    refine .inr ⟨by simp [isLone_iff], texts, ?_⟩
    cases texts <;> rfl

/-- A plain value can be made a set unless it counts as true and holds nothing. -/
theorem IsPlain.exists_members_iff (h : value.IsPlain) :
  (∃ names, RuleOptions.members value = .ok names) ↔ ¬ value.IsLone
  := by
  rcases h.contents?_cases with ⟨hlone, hcontents⟩ | ⟨hlone, texts, hcontents⟩
  · simp [RuleOptions.members, hcontents, hlone]
  · exact iff_of_true (RuleOptions.exists_members texts hcontents) hlone

/-- A plain value is put in the place of the one that it is laid over. -/
theorem IsPlain.valueOver_eq (h : value.IsPlain) (old : Option Value) :
  Layer.valueOver old value = value
  := by
  apply Layer.valueOver_eq_self
  rintro base upper - rfl
  cases h

end Value

namespace RuleOptions

/-- If options cannot be taken over from entries, a value for the ignored names is of the wrong
kind. -/
theorem eq_wrongKind_of_update {entries : List (String × Value)} {e : Error} :
  ∀ {options : RuleOptions}, options.update entries = .error e → e = .wrongKind
  := by
  have hmembers : ∀ value, members value = .error e → e = .wrongKind := by
    intro value h
    rw [members] at h
    split at h
    · split at h
      · cases h
      · exact (Except.error.inj h).symm
    · exact (Except.error.inj h).symm
  induction entries with
  | nil =>
    intro options h
    cases h
  | cons entry rest ih =>
    intro options h
    rw [update] at h
    split at h
    · exact ih h
    · rename_i option hname
      cases hset : options.set option entry.2 with
      | ok later =>
        rw [hset] at h
        exact ih h
      | error e' =>
        rw [hset] at h
        obtain rfl : e' = e := Except.error.inj h
        cases option with
        | ignoredVariables =>
          cases hvalue : members entry.2 with
          | ok names => simp [set, hvalue, Except.map] at hset
          | error e'' =>
            rw [set, hvalue] at hset
            obtain rfl := Except.error.inj hset
            exact hmembers _ hvalue
        | _ => cases hset

end RuleOptions

namespace Settings

open Layer

variable {entries : List (String × Value)}
  (hsections : ∀ part ∈ ["rule", "display", "files"], IsSection part entries)

include hsections

/-- Entries give settings if the options can be taken over from them and the patterns of files to
pass over can be gone through. -/
theorem exists_ofEntries_iff :
  (∃ settings, ofEntries entries = .ok settings) ↔
    (∃ rule, ({} : RuleOptions).update (partOf "rule" entries) = .ok rule)
      ∧ ∃ exclude, ((Value.find? "exclude" (partOf "files" entries)).getD .null).contents?
        = some exclude
  := by
  rw [ofEntries_eq hsections]
  constructor
  · rintro ⟨settings, h⟩
    obtain ⟨rule, hupdate, h⟩ := exists_ok_of_bind h
    split at h
    · cases h
    · rename_i exclude hcontents
      exact ⟨⟨rule, hupdate⟩, exclude, hcontents⟩
  · rintro ⟨⟨rule, hupdate⟩, exclude, hcontents⟩
    simp only [hupdate, hcontents, bind, Except.bind]
    exact ⟨_, rfl⟩

/-- If entries give no settings, something is of the wrong kind. -/
theorem eq_wrongKind_of_ofEntries {e : Error} (h : ofEntries entries = .error e) :
  e = .wrongKind
  := by
  rw [ofEntries_eq hsections] at h
  cases hupdate : ({} : RuleOptions).update (partOf "rule" entries) with
  | error e' =>
    rw [hupdate] at h
    obtain rfl := Except.error.inj h
    exact RuleOptions.eq_wrongKind_of_update hupdate
  | ok rule =>
    simp only [hupdate, bind, Except.bind] at h
    split at h
    · exact (Except.error.inj h).symm
    · cases h

/-- Settings of sections without entries have their default values. -/
theorem get_of_ofEntries {settings : Settings} (h : ofEntries entries = .ok settings)
    {setting : Setting} (hempty : partOf setting.part entries = []) :
  settings.get setting = ({} : Settings).get setting
  := by
  rw [ofEntries_eq hsections] at h
  obtain ⟨rule, hupdate, h⟩ := exists_ok_of_bind h
  split at h
  · cases h
  · rename_i exclude hexclude
    obtain rfl := Except.ok.inj h
    cases setting with
    | rule option =>
      rw [show partOf "rule" entries = [] from hempty] at hupdate
      obtain rfl := Except.ok.inj hupdate
      rfl
    | exclude =>
      rw [show partOf "files" entries = [] from hempty] at hexclude
      obtain rfl := Option.some.inj hexclude
      rfl
    | symbols | format => simp [get, show partOf "display" entries = [] from hempty]
    | includeTests | maxFileSize => simp [get, show partOf "files" entries = [] from hempty]

end Settings

/-! ### Files with empty sections -/

namespace Layer

/-- Whether entries are those of a map whose sections, as far as they are there, are null or maps of
plain values. -/
structure Plain (entries : List (String × Value)) : Prop where
  keys : (entries.map (·.1)).Nodup
  sections : ∀ part ∈ ["rule", "display", "files"], IsSection part entries
  parts : ∀ part ∈ ["rule", "display", "files"], ((partOf part entries).map (·.1)).Nodup
  values : ∀ part ∈ ["rule", "display", "files"], ∀ key value,
    Value.find? key (partOf part entries) = some value → value.IsPlain

/-- What may be expected of a file of settings: it is not there, or it cannot be understood, or
reading it fails, or it holds something that is no map, or a map of plain sections. -/
inductive Expected : Option Layer → Prop where
  | absent : Expected none
  | malformed : Expected (some .malformed)
  | failing (e : Error) : Expected (some (.failing e))
  | noMap (value : Value) (h : ∀ entries, value ≠ .map entries) : Expected (some (.value value))
  | map (entries : List (String × Value)) (h : Plain entries) :
    Expected (some (.value (.map entries)))

theorem plain_nil : Plain [] := by
  refine ⟨List.nodup_nil, ?_, ?_, ?_⟩ <;> simp [IsSection, partOf]

theorem Expected.plain {layer : Option Layer} (h : Expected layer) :
  Plain ((Layers.entriesOf layer).toOption.getD [])
  := by
  cases h with
  | absent => exact plain_nil
  | malformed => exact plain_nil
  | failing e => exact plain_nil
  | noMap value h =>
    have hempty : Layers.entriesOf (some (.value value)) = .ok [] := by
      cases value with
      | map entries => exact absurd rfl (h entries)
      | _ => rfl
    rw [hempty]
    exact plain_nil
  | map entries h => exact h

end Layer

namespace Store

open Layer

variable {store : Store}

/-- Whether a section is null in both files together: the project has it so, or leaves it as the
user has it. -/
def IsEmptied (store : Store) (part : String) : Prop :=
  (Value.find? part store.projectEntries).or (Value.find? part store.userEntries) = some .null

/-- What both files together give under a key of a section: nothing if the project empties it. -/
def given? (store : Store) (part key : String) : Option Value :=
  match Value.find? part store.projectEntries with
  | some .null => none
  | _ => (Value.find? key (partOf part store.projectEntries)).or
      (Value.find? key (partOf part store.userEntries))

theorem isEmptied_iff (hproject : Plain store.projectEntries) {part : String} :
  store.IsEmptied part ↔ Value.find? part store.fileEntries = some .null
  := (find?_laidOver_eq_null_iff hproject.keys).symm

/-- The sections of both files together are null, or maps of what is given. -/
theorem section_fileEntries (huser : Plain store.userEntries)
    (hproject : Plain store.projectEntries) (part : String)
    (hpart : part ∈ ["rule", "display", "files"]) :
  IsSection part store.fileEntries
    ∧ ((partOf part store.fileEntries).map (·.1)).Nodup
    ∧ ∀ key, Value.find? key (partOf part store.fileEntries) = store.given? part key
  := by
  rcases (hproject.sections part hpart).cases with hmap | hnull
  · obtain ⟨hsection, heq⟩ := isSection_laidOver hproject.keys (huser.sections part hpart) hmap
      (hproject.parts part hpart)
    rw [fileEntries, heq]
    refine ⟨hsection, nodup_laidOver _ (huser.parts part hpart), fun key => ?_⟩
    rw [find?_laidOver (hproject.parts part hpart), given?]
    split
    · rename_i hnull
      obtain ⟨inner, hinner⟩ := hmap _ hnull
      cases hinner
    · congr 1
      cases hfind : Value.find? key (partOf part store.projectEntries) with
      | none => rfl
      | some value =>
        rw [Option.map_some, (hproject.values part hpart key value hfind).valueOver_eq]
  · have hempty : Value.find? part store.fileEntries = some .null := by
      rw [← isEmptied_iff hproject, IsEmptied, hnull]
      rfl
    rw [partOf_of_null hempty]
    refine ⟨fun value hvalue => ?_, List.nodup_nil, fun key => ?_⟩
    · exact .inl (Option.some.inj (hvalue.symm.trans hempty))
    · rw [given?, hnull]
      rfl

/-- What is given is plain. -/
theorem isPlain_of_given? (huser : Plain store.userEntries)
    (hproject : Plain store.projectEntries) {part key : String} {value : Value}
    (hpart : part ∈ ["rule", "display", "files"]) (h : store.given? part key = some value) :
  value.IsPlain
  := by
  rw [given?] at h
  split at h
  · cases h
  · rcases Option.or_eq_some_iff.mp h with hupper | ⟨-, hlower⟩
    · exact hproject.values part hpart key value hupper
    · exact huser.values part hpart key value hlower

/-! ### Stumbling -/

/-- Whether a file fails when it is read. -/
def StumblesOnFile (store : Store) : Prop := store.failure?.isSome

/-- Whether a variable of the environment is to be set in a section that is null. -/
def StumblesOnVariable (store : Store) : Prop :=
  ∃ name part, (name, part) ∈ environmentParts ∧ store.terminal.variableOf name ≠ ""
    ∧ store.IsEmptied part

/-- Whether the ignored names are given as true or as a number other than zero, by a key under which
the environment does not put others. -/
def StumblesOnNames (store : Store) : Prop :=
  ∃ key value, RuleOption.isNamed .ignoredVariables key ∧ store.given? "rule" key = some value
    ∧ value.IsLone
    ∧ (key = "ignoredVariables" → store.terminal.variableOf "ONETIME_IGNORED_VARIABLES" = "")

/-- Whether the patterns of files to pass over are given as true or as a number other than zero. -/
def StumblesOnPatterns (store : Store) : Prop :=
  ∃ value, store.given? "files" "exclude" = some value ∧ value.IsLone

section environment

variable {terminal : Terminal} {name part key : String} {read : String → Value}
  {entries : List (String × Value)}

theorem assignVariable_of_null (hset : terminal.variableOf name ≠ "")
    (hnull : Value.find? part entries = some .null) :
  assignVariable terminal name part key read entries = .error .wrongKind
  := by
  simp only [assignVariable, if_neg hset, assignEntry, hnull]

/-- The environment cannot be laid over entries where a variable is to be set in a section that is
null. -/
theorem withEnvironment_of_null (hrule : IsSection "rule" entries)
    (hpart : (name, part) ∈ environmentParts) (hset : terminal.variableOf name ≠ "")
    (hnull : Value.find? part entries = some .null) :
  withEnvironment terminal entries = .error .wrongKind
  := by
  rw [withEnvironment_eq]
  by_cases hfirst : terminal.variableOf "ONETIME_IGNORED_VARIABLES" ≠ ""
      ∧ Value.find? "rule" entries = some .null
  · rw [assignVariable_of_null hfirst.1 hfirst.2]
    rfl
  · -- The options can be given their variable, so it is the display that is null.
    obtain ⟨first, hassign, -, -, -, hothers⟩ := exists_assignVariable terminal
      "ONETIME_IGNORED_VARIABLES" hrule (fun hset hnull => hfirst ⟨hset, hnull⟩)
      "ignoredVariables" readIgnored
    rw [hassign]
    simp only [bind, Except.bind]
    simp only [environmentParts, List.mem_cons, Prod.mk.injEq, List.not_mem_nil, or_false] at hpart
    obtain ⟨rfl, rfl⟩ | ⟨rfl, rfl⟩ | ⟨rfl, rfl⟩ := hpart
    · exact absurd ⟨hset, hnull⟩ hfirst
    · rw [← hothers "display" (by decide)] at hnull
      rw [assignVariable_of_null hset hnull]
    · rw [← hothers "display" (by decide)] at hnull
      by_cases hformat : terminal.variableOf "ONETIME_FORMAT" = ""
      · have hsecond : assignVariable terminal "ONETIME_FORMAT" "display" "format" .text first
            = .ok first := if_pos hformat
        rw [hsecond]
        exact assignVariable_of_null hset hnull
      · rw [assignVariable_of_null hformat hnull]

end environment

/-! ### What is loaded -/

/-- The entries for the options, those of the environment and of both files together. -/
def optionEntries (store : Store) : List (String × Value) :=
  withVariable store.terminal "ONETIME_IGNORED_VARIABLES" "ignoredVariables" readIgnored
    (partOf "rule" store.fileEntries)

/-- Under a key for the options stands what the environment puts there, or what is given. -/
theorem find?_optionEntries (huser : Plain store.userEntries)
    (hproject : Plain store.projectEntries) (key : String) :
  Value.find? key store.optionEntries
    = if key = "ignoredVariables"
        ∧ store.terminal.variableOf "ONETIME_IGNORED_VARIABLES" ≠ "" then
      some (readIgnored (store.terminal.variableOf "ONETIME_IGNORED_VARIABLES"))
    else store.given? "rule" key
  := by
  obtain ⟨-, -, hfind⟩ := section_fileEntries huser hproject "rule" (by decide)
  rw [optionEntries]
  by_cases hkey : key = "ignoredVariables"
  · subst hkey
    rw [find?_withVariable, environment?, hfind]
    by_cases hset : store.terminal.variableOf "ONETIME_IGNORED_VARIABLES" = "" <;> simp [hset]
  · rw [find?_withVariable_of_ne (Ne.symm hkey), hfind, if_neg fun h => hkey h.1]

theorem nodup_optionEntries (huser : Plain store.userEntries)
    (hproject : Plain store.projectEntries) :
  (store.optionEntries.map (·.1)).Nodup
  := by
  obtain ⟨-, hkeys, -⟩ := section_fileEntries huser hproject "rule" (by decide)
  rw [optionEntries, withVariable]
  split
  · exact hkeys
  · exact Value.nodup_put hkeys _ _

/-- The options can be taken over from what is given and the environment unless the names that it
gives are no list. -/
theorem exists_update_optionEntries_iff (huser : Plain store.userEntries)
    (hproject : Plain store.projectEntries) :
  (∃ rule, ({} : RuleOptions).update store.optionEntries = .ok rule) ↔ ¬ store.StumblesOnNames
  := by
  have hkeys := nodup_optionEntries huser hproject
  rw [RuleOptions.exists_update_iff]
  constructor
  · rintro h ⟨key, value, hnamed, hgiven, hlone, hshown⟩
    have hplain := isPlain_of_given? huser hproject (by decide) hgiven
    have hfind := find?_optionEntries huser hproject key
    rw [if_neg fun hhidden => hhidden.2 (hshown hhidden.1), hgiven,
      Value.find?_eq_some_iff hkeys] at hfind
    exact (hplain.exists_members_iff.mp (h _ hfind hnamed)) hlone
  · rintro h ⟨key, value⟩ hentry hnamed
    have hfind := (Value.find?_eq_some_iff hkeys).mpr hentry
    rw [find?_optionEntries huser hproject] at hfind
    split at hfind
    · rw [← Option.some.inj hfind]
      exact RuleOptions.exists_members_list _
    · rename_i hshown
      apply (isPlain_of_given? huser hproject (by decide) hfind).exists_members_iff.mpr
      intro hlone
      refine h ⟨key, value, hnamed, hfind, hlone, fun hkey => ?_⟩
      by_contra hset
      exact hshown ⟨hkey, hset⟩

/-- The patterns of files to pass over can be gone through unless what is given for them is no
list. -/
theorem exists_contents_exclude_iff (huser : Plain store.userEntries)
    (hproject : Plain store.projectEntries) :
  (∃ exclude, ((store.given? "files" "exclude").getD .null).contents? = some exclude) ↔
    ¬ store.StumblesOnPatterns
  := by
  cases hgiven : store.given? "files" "exclude" with
  | none =>
    refine iff_of_true ⟨[], rfl⟩ ?_
    rintro ⟨value, hsome, -⟩
    cases hgiven.symm.trans hsome
  | some value =>
    have hlone : store.StumblesOnPatterns ↔ value.IsLone := by
      constructor
      · rintro ⟨other, hother, hlone⟩
        rwa [Option.some.inj (hgiven.symm.trans hother)]
      · exact fun hlone => ⟨value, hgiven, hlone⟩
    rw [hlone, Option.getD_some]
    have hplain := isPlain_of_given? huser hproject (by decide) hgiven
    rcases hplain.contents?_cases with ⟨hlone, hcontents⟩ | ⟨hlone, texts, hcontents⟩
    · simp [hcontents, hlone]
    · exact iff_of_true ⟨_, hcontents⟩ hlone

/-- No settings are loaded if a variable is to be set in a section that is null. -/
theorem load_of_stumblesOnVariable (hfresh : store.changed = none)
    (hreadable : store.failure? = none) (huser : Plain store.userEntries)
    (hproject : Plain store.projectEntries) (h : store.StumblesOnVariable) :
  store.load = .error .wrongKind
  := by
  obtain ⟨name, part, hpart, hset, hnull⟩ := h
  obtain ⟨hrule, -⟩ := section_fileEntries huser hproject "rule" (by decide)
  rw [load, hfresh, layers_entries huser.keys hreadable]
  simp only [bind, Except.bind,
    withEnvironment_of_null hrule hpart hset ((isEmptied_iff hproject).mp hnull)]

/-- If no file fails and no variable is to be set in a section that is null, the settings are those
of some entries: the options and the files are told by what is given, and sections that are null
have none. -/
theorem exists_load_eq_of_plain (hfresh : store.changed = none)
    (hreadable : store.failure? = none) (huser : Plain store.userEntries)
    (hproject : Plain store.projectEntries) (h : ¬ store.StumblesOnVariable) :
  ∃ entries, store.load = Settings.ofEntries entries
    ∧ (∀ part ∈ ["rule", "display", "files"], IsSection part entries)
    ∧ partOf "rule" entries = store.optionEntries
    ∧ partOf "files" entries = partOf "files" store.fileEntries
    ∧ ∀ setting : Setting, store.IsEmptied setting.part → partOf setting.part entries = []
  := by
  have hunset : ∀ name part, (name, part) ∈ environmentParts →
      store.IsEmptied part → store.terminal.variableOf name = "" := by
    intro name part hpart hnull
    by_contra hset
    exact h ⟨name, part, hpart, hset, hnull⟩
  obtain ⟨entries, hload, hsections, hoptions, hshown, hpatterns⟩ :=
    exists_load_eq_ofEntries hfresh hreadable huser.keys
      (fun part hpart => (section_fileEntries huser hproject part hpart).1)
      fun name part hpart hset hnull =>
        hset (hunset name part hpart ((isEmptied_iff hproject).mpr hnull))
  refine ⟨entries, hload, hsections, hoptions, hpatterns, fun setting hempty => ?_⟩
  have hnone := partOf_of_null ((isEmptied_iff hproject).mp hempty)
  cases setting with
  | rule option =>
    have hnames := hunset "ONETIME_IGNORED_VARIABLES" "rule" (by decide) hempty
    rw [Setting.part, hoptions, withVariable, if_pos hnames]
    exact hnone
  | symbols | format =>
    have hsymbols := hunset "ONETIME_SYMBOLS" "display" (by decide) hempty
    have hformat := hunset "ONETIME_FORMAT" "display" (by decide) hempty
    rw [Setting.part, hshown, withVariable, if_pos hsymbols, withVariable, if_pos hformat]
    exact hnone
  | exclude | includeTests | maxFileSize => exact hpatterns.trans hnone

/-- Where no file fails, settings are loaded unless a variable is to be set in a null section or
what should be a list is no list. -/
theorem load_of_readable (hfresh : store.changed = none) (hreadable : store.failure? = none)
    (huser : Plain store.userEntries) (hproject : Plain store.projectEntries) :
  (store.StumblesOnVariable ∨ store.StumblesOnNames ∨ store.StumblesOnPatterns →
      store.load = .error .wrongKind)
    ∧ (¬ (store.StumblesOnVariable ∨ store.StumblesOnNames ∨ store.StumblesOnPatterns) →
      ∃ settings, store.load = .ok settings
        ∧ ∀ setting : Setting, store.IsEmptied setting.part →
          settings.get setting = ({} : Settings).get setting)
  := by
  by_cases hvariable : store.StumblesOnVariable
  · have herror := load_of_stumblesOnVariable hfresh hreadable huser hproject hvariable
    exact ⟨fun _ => herror, fun hnot => absurd (.inl hvariable) hnot⟩
  obtain ⟨entries, hload, hsections, hoptions, hfiles, hempty⟩ :=
    exists_load_eq_of_plain hfresh hreadable huser hproject hvariable
  have hexists := Settings.exists_ofEntries_iff hsections
  rw [hoptions, exists_update_optionEntries_iff huser hproject, hfiles,
    (section_fileEntries huser hproject "files" (by decide)).2.2,
    exists_contents_exclude_iff huser hproject] at hexists
  rw [hload]
  constructor
  · intro hstumbles
    cases hentries : Settings.ofEntries entries with
    | error e => rw [Settings.eq_wrongKind_of_ofEntries hsections hentries]
    | ok settings =>
      obtain ⟨hnames, hpatterns⟩ := hexists.mp ⟨settings, hentries⟩
      rcases hstumbles with h | h | h
      · exact absurd h hvariable
      · exact absurd h hnames
      · exact absurd h hpatterns
  · intro hnot
    obtain ⟨settings, hsettings⟩ :=
      hexists.mpr ⟨fun h => hnot (.inr (.inl h)), fun h => hnot (.inr (.inr h))⟩
    refine ⟨settings, hsettings, fun setting hnull => ?_⟩
    exact Settings.get_of_ofEntries hsections hsettings (hempty setting hnull)

/-- Whether something keeps settings from being loaded. -/
def Stumbles (store : Store) : Prop :=
  store.StumblesOnFile ∨ store.StumblesOnVariable ∨ store.StumblesOnNames
    ∨ store.StumblesOnPatterns

/-- Settings are loaded from all files that may be expected, and those of null sections have their
default values, unless a file fails, or a variable is to be set in a null section, or what should be
a list is no list.  A file that fails does so for a reason of its own. -/
theorem load_of_expected (hfresh : store.changed = none) (huser : Expected store.layers.user)
    (hproject : Expected store.layers.project) :
  (store.Stumbles → store.load = .error (store.failure?.getD .wrongKind))
    ∧ (¬ store.Stumbles → ∃ settings, store.load = .ok settings
      ∧ ∀ setting : Setting, store.IsEmptied setting.part →
        settings.get setting = ({} : Settings).get setting)
  := by
  have huser : Plain store.userEntries := huser.plain
  have hproject : Plain store.projectEntries := hproject.plain
  rw [Stumbles, StumblesOnFile]
  cases hfailure : store.failure? with
  | some e => exact ⟨fun _ => load_of_failure hfresh hfailure, fun hnot => absurd (.inl rfl) hnot⟩
  | none =>
    obtain ⟨hfails, hloads⟩ := load_of_readable hfresh hfailure huser hproject
    exact ⟨fun h => hfails (h.resolve_left Bool.false_ne_true), fun hnot => hloads fun h =>
      hnot (.inr h)⟩

/-- A store where the user has no options, and a variable of the environment is to be set among
them. -/
def noOptions : Store where
  layers := { user := some (.value (.map [("rule", .null)])) }
  terminal := { environment := [("ONETIME_IGNORED_VARIABLES", "mine")] }

/-- The settings of the store are not loaded, but without the variable they are. -/
theorem load_of_expected_noOptions :
  Expected noOptions.layers.user ∧ Expected noOptions.layers.project
    ∧ noOptions.Stumbles ∧ noOptions.load = .error .wrongKind
    ∧ ({ noOptions with terminal := {} } : Store).load = .ok {}
  := by
  have huser : Expected noOptions.layers.user := by
    refine .map _ ⟨by decide, ?_, ?_, ?_⟩ <;> simp [IsSection, partOf, Value.find?_cons]
  have hstumbles : noOptions.Stumbles := by
    refine .inr (.inl ⟨"ONETIME_IGNORED_VARIABLES", "rule", by decide, by decide, ?_⟩)
    rfl
  use huser, .absent, hstumbles, (load_of_expected rfl huser .absent).1 hstumbles
  rfl

end Store

end SingleUse
