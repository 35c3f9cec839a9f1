import SingleUse.Proofs.Ignoring

/-!
# Answers to changes

A change of a setting has an answer, which is nothing or says what is wrong, and it can only fail
before it comes to that if its text is misread.  A text of digits is taken for a number, but no
number is written with the digits that are not decimal, nor with too many.  Where the settings that
are changed are sound, all else that a text can be read as can be given to any setting, and the
settings can be saved afterwards, as far as the system lets that be done.
-/

namespace SingleUse

namespace Reading

variable {raw : String}

/-- Whether a text is taken for a number and is none: it is one of digits, and there is one among
them that is not decimal, or there are too many. -/
structure Misread (raw : String) : Prop where
  digits : Text.isDigits (Text.lower (Text.trim raw))
  unreadable : (∃ c ∈ (Text.lower (Text.trim raw)).toList, Text.digitValue? c = none)
    ∨ Text.maxDigits < (Text.lower (Text.trim raw)).length

/-- A text of digits is misread if no number is read from it. -/
theorem misread_iff_of_isDigits (h : Text.isDigits (Text.lower (Text.trim raw))) :
  Misread raw ↔ ¬ ∃ n, Text.readInt (Text.lower (Text.trim raw)) = .ok n
  := by
  have hunreadable : Misread raw ↔
      (∃ c ∈ (Text.lower (Text.trim raw)).toList, Text.digitValue? c = none)
        ∨ Text.maxDigits < (Text.lower (Text.trim raw)).length :=
    ⟨fun hmisread => hmisread.unreadable, fun hunreadable => ⟨h, hunreadable⟩⟩
  rw [hunreadable, Text.exists_readInt_iff h, Classical.not_and_iff_not_or_not]
  simp only [not_forall, Option.not_isSome_iff_eq_none, not_le, exists_prop]

/-- A misread text is not read as anything. -/
theorem value_of_misread (h : Misread raw) :
  ∃ fault, Reading.value raw = .error (.number fault)
  := by
  have hnone := (misread_iff_of_isDigits h.digits).mp h
  rw [value_of_isDigits h.digits]
  cases hread : Text.readInt (Text.lower (Text.trim raw)) with
  | ok n => exact absurd ⟨n, hread⟩ hnone
  | error fault => exact ⟨fault, rfl⟩

/-- A text is read as a value unless it is misread. -/
theorem exists_value_iff :
  (∃ value, Reading.value raw = .ok value) ↔ ¬ Misread raw
  := by
  constructor
  · rintro ⟨value, hvalue⟩ hmisread
    obtain ⟨fault, hfault⟩ := value_of_misread hmisread
    cases hvalue.symm.trans hfault
  · intro hread
    by_cases hdigits : Text.isDigits (Text.lower (Text.trim raw))
    · rw [misread_iff_of_isDigits hdigits, not_not] at hread
      obtain ⟨n, hn⟩ := hread
      rw [value_of_isDigits hdigits, hn]
      exact ⟨_, rfl⟩
    · by_cases hwords : Text.lower (Text.trim raw) ∈ trueWords ++ falseWords
      · rcases List.mem_append.mp hwords with htrue | hfalse
        · exact ⟨_, value_of_mem_trueWords htrue⟩
        · exact ⟨_, value_of_mem_falseWords hfalse⟩
      · rw [value_of_plain hwords hdigits]
        split
        · exact ⟨_, rfl⟩
        · exact ⟨_, rfl⟩

end Reading

open Reading (Misread)

/-! ### Giving a setting a value -/

namespace Setting

/-- Whether a setting is given what a text is read as; the others are given what the text says by
itself. -/
def isRead : Setting → Bool
  | .rule _ | .exclude | .maxFileSize => true
  | .symbols | .format | .includeTests => false

end Setting

namespace Settings

variable {settings later : Settings} {setting : Setting} {raw : String}

/-- A setting that is given what a text is read as cannot be given a misread one. -/
theorem assign_of_misread (hsetting : setting.isRead) (h : Misread raw) (settings : Settings) :
  ∃ fault, settings.assign setting raw = .error (.number fault)
  := by
  obtain ⟨fault, hfault⟩ := Reading.value_of_misread h
  use fault
  cases setting with
  | rule option => simp [assign, hfault, bind, Except.bind]
  | exclude | maxFileSize => simp [assign, hfault, bind, Except.bind]
  | symbols | format | includeTests => cases hsetting

/-- The options can be given whatever a text is read as: only the names have to be a set, and those
that are read are. -/
theorem exists_set_option {value : Value} (hvalue : Reading.value raw = .ok value)
    (options : RuleOptions) (option : RuleOption) :
  ∃ options', options.set option
    (if option = .ignoredVariables then Reading.asNames value else value) = .ok options'
  := by
  cases option with
  | ignoredVariables =>
    obtain ⟨items, hitems⟩ := Reading.exists_asNames value
    obtain ⟨names, hnames⟩ :=
      RuleOptions.exists_members_of_texts (Reading.eq_text_of_mem_asNames hvalue hitems)
    simp [RuleOptions.set, hitems, hnames, Except.map]
  | _ => exact ⟨_, rfl⟩

/-- A setting can be given a text that is not misread, or that is not read at all. -/
theorem exists_assign (h : setting.isRead → ¬ Misread raw) (settings : Settings) :
  ∃ later, settings.assign setting raw = .ok later
  := by
  cases setting with
  | symbols | format | includeTests => exact ⟨_, rfl⟩
  | rule option =>
    obtain ⟨value, hvalue⟩ := Reading.exists_value_iff.mpr (h rfl)
    obtain ⟨options, hoptions⟩ := exists_set_option hvalue settings.rule option
    simp [assign, hvalue, hoptions, bind, Except.bind, pure, Except.pure]
  | exclude | maxFileSize =>
    obtain ⟨value, hvalue⟩ := Reading.exists_value_iff.mpr (h rfl)
    simp [assign, hvalue, bind, Except.bind, pure, Except.pure]

/-- Settings that were sound before one of them was given a value can be saved. -/
theorem exists_entries_of_assign (hsound : settings.problem? = none)
    (h : settings.assign setting raw = .ok later) :
  ∃ entries, later.entries = .ok entries
  := by
  have htexts : ∀ name ∈ later.rule.ignoredVariables, ∃ s, name = .text s := by
    by_cases hignored : setting = .rule .ignoredVariables
    · subst hignored
      exact eq_text_of_assign h
    · have hkept := get_assign_of_ne h (Ne.symm hignored)
      have hrule := (Option.or_eq_none_iff.mp (Option.or_eq_none_iff.mp hsound).1).1
      rw [Value.list.inj hkept]
      exact RuleOptions.eq_text_of_problem? hrule
  obtain ⟨names, hnames⟩ := Value.exists_sorted? htexts
  exact ⟨_, entries_eq_ok.mpr ⟨names, hnames, rfl⟩⟩

end Settings

namespace Store

variable {store : Store}

/-- A change of sound settings has an answer unless the text is misread or the settings cannot be
written: what is wrong with the key, or what is wrong with the settings near the one that was given
its value.  If the text is misread nothing was given to any setting and nothing is written.  If the
settings are to be written and the system refuses it, the answer is what the system says, and what
is in the file is what that leaves. -/
theorem set_answers_unless_misread {settings : Settings} (hload : store.load = .ok settings)
    (hsound : settings.problem? = none) (key raw : String) (kind : LayerKind) :
  ((∃ value, Reading.value raw = .ok value) ↔ ¬ Misread raw)
    ∧ (∀ fault, Setting.ofKey key = .error fault →
      (store.set key raw kind).2 = .ok (some fault.message))
    ∧ ∀ setting, Setting.ofKey key = .ok setting →
      (setting.isRead → Misread raw → ∃ fault, store.set key raw kind
        = ({ store with changed := some settings }, .error (.number fault)))
      ∧ ((setting.isRead → ¬ Misread raw) → ∃ later, settings.assign setting raw = .ok later
        ∧ ((later.problemNear? setting = none → store.fault? kind = none) →
          (store.set key raw kind).2 = .ok (later.problemNear? setting))
        ∧ ∀ fault, later.problemNear? setting = none → store.fault? kind = some fault →
          store.set key raw kind
            = ({ store with changed := some later, layers := fault.leaves kind store.layers },
              .error fault.error))
  := by
  refine ⟨Reading.exists_value_iff, ?_, ?_⟩
  · intro fault hkey
    simp [set, change, hload, hkey]
  · intro setting hkey
    constructor
    · intro hsetting hmisread
      obtain ⟨fault, hfault⟩ := Settings.assign_of_misread hsetting hmisread settings
      use fault
      simp [set, change, hload, hkey, hfault]
    · intro hread
      obtain ⟨later, hassign⟩ := Settings.exists_assign hread settings
      obtain ⟨entries, hentries⟩ := Settings.exists_entries_of_assign hsound hassign
      refine ⟨later, hassign, fun hwrites => ?_, fun fault hnone hfault => ?_⟩
      · exact (answer_of_assign hload hkey hassign hentries hwrites).1
      · rw [set_of_assign hload hkey hassign hentries kind, hnone, hfault]

/-- A superscript two is a digit, and a limit that is to become one is a text that is misread. -/
theorem set_answers_unless_misread_superscript :
  Misread "²" ∧ ({} : Store).load = .ok {} ∧ ({} : Settings).problem? = none
    ∧ ∃ fault, (({} : Store).set "rule.maxInitializerLength" "²" .project).2
      = .error (.number fault)
  := by
  have hmisread : Misread "²" :=
    ⟨by decide +kernel, .inl ⟨'²', by decide +kernel, by decide +kernel⟩⟩
  have hload : ({} : Store).load = .ok {} := rfl
  have hsound : ({} : Settings).problem? = none := by decide +kernel
  obtain ⟨-, -, hset⟩ :=
    set_answers_unless_misread hload hsound "rule.maxInitializerLength" "²" .project
  have hkey : Setting.ofKey "rule.maxInitializerLength" = .ok (.rule .maxInitializerLength) := by
    decide +kernel
  obtain ⟨fault, hfault⟩ := (hset _ hkey).1 rfl hmisread
  exact ⟨hmisread, hload, hsound, fault, by rw [hfault]⟩

end Store

end SingleUse
