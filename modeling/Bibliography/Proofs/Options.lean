import Bibliography.Options
import Bibliography.Proofs.Text.Case

/-!
Which settings are accepted, and what they come to. Of the settings of an option only the
last one counts, under whatever spelling it is given, so settings of different options can
change places. What an option has come to can be given for it again and comes to itself.
-/

namespace Bibliography

open Text

namespace OptionName

def spellings (option : OptionName) : List Text := option.name :: option.aliases

theorem mem_all (option : OptionName) : option ∈ all := by
  cases option <;> decide

theorem of_spelling_iff {text : Text} {option : OptionName} :
    ofSpelling? text = some option ↔ text ∈ option.spellings := by
  constructor
  · intro found
    have named := List.find?_some found
    simp only [Bool.or_eq_true, beq_iff_eq, List.contains_eq_mem, decide_eq_true_eq] at named
    exact List.mem_cons.2 (named.imp Eq.symm id)
  · have checked : ∀ option ∈ all, ∀ text ∈ option.spellings, ofSpelling? text = some option := by
      decide +kernel
    exact checked option (mem_all option) text

def isFlag : OptionName → Bool
  | omitted => false
  | space => false
  | tex => false
  | sort => false
  | _ => true

end OptionName

namespace Setting

/-- The field names that a setting gives. A table gives the names of its rows. -/
inductive Names : Setting → List Text → Prop
  | absent : Names absent []
  | text (name : Text) : Names (text name) [name]
  | list (names : List Text) : Names (list (names.map text)) names
  | table (rows : List (Text × Setting)) : Names (table rows) (rows.map Prod.fst)

theorem text_iff {item : Setting} {name : Text} : item.text? = some name ↔ item = text name := by
  cases item <;> simp [text?]

theorem texts_iff {items : List Setting} {names : List Text} :
    items.mapM text? = some names ↔ items = names.map text := by
  constructor
  · intro read
    induction items generalizing names with
    | nil =>
        obtain rfl : [] = names := by simpa using read
        rfl
    | cons item others induction =>
        rw [List.mapM_cons] at read
        obtain ⟨name, first, rest⟩ := Option.bind_eq_some_iff.1 read
        obtain ⟨later, behind, parts⟩ := Option.bind_eq_some_iff.1 rest
        obtain rfl : name :: later = names := by simpa using parts
        rw [text_iff.1 first, induction behind]
        rfl
  · rintro rfl
    induction names with
    | nil => rfl
    | cons name others induction =>
        rw [List.map_cons, List.mapM_cons, induction]
        rfl

theorem field_names_iff {setting : Setting} {fields : List Text} :
    setting.fieldNames? = some fields ↔
      ∃ names, setting.Names names ∧ names.map lower = fields := by
  constructor
  · intro found
    cases setting with
    | absent => exact ⟨[], .absent, by simpa [fieldNames?] using found⟩
    | text name => exact ⟨[name], .text name, by simpa [fieldNames?] using found⟩
    | list items =>
        obtain ⟨names, read, lowered⟩ := Option.map_eq_some_iff.1 found
        rw [texts_iff.1 read]
        exact ⟨names, .list names, lowered⟩
    | table rows =>
        refine ⟨rows.map Prod.fst, .table rows, ?_⟩
        rw [List.map_map]
        exact Option.some.inj found
    | flag => simp [fieldNames?] at found
    | integer => simp [fieldNames?] at found
    | decimal => simp [fieldNames?] at found
  · rintro ⟨names, given, rfl⟩
    cases given with
    | absent => rfl
    | text name => rfl
    | list => simp [fieldNames?, texts_iff.2 rfl]
    | table rows => simp [fieldNames?]

end Setting

namespace Options

/-- What an option comes to under a setting, as settings write it. A setting under which it
comes to nothing is refused; a flag takes any setting. -/
inductive Means : OptionName → Setting → Setting → Prop
  | omitted {setting : Setting} {names : List Text} (given : setting.Names names) :
      Means .omitted setting (.list ((names.map lower).map .text))
  | sorted {setting : Setting} {names : List Text} (given : setting.Names names)
      (nonempty : names ≠ []) :
      Means .sort setting (.list ((names.map lower).map .text))
  | unsorted {setting : Setting} (given : setting.Names []) : Means .sort setting (.flag false)
  | byKey : Means .sort (.flag true) (.list [.text "id".toList])
  | notSorted : Means .sort (.flag false) (.flag false)
  | width (width : Nat) : Means .space (.integer width) (.integer width)
  | noContents : Means .tex .absent (.text [])
  | contents (content : Text) : Means .tex (.text content) (.text content)
  | flag {option : OptionName} (plain : option.isFlag = true) (setting : Setting) :
      Means option setting (.flag setting.isOn)

/-- What an option comes to under its last setting, or without any. -/
def Comes (option : OptionName) : Option Setting → Setting → Prop
  | none, value => value = setting {} option
  | some given, value => Means option given value

theorem means_again {option : OptionName} {given value : Setting}
    (means : Means option given value) :
    Means option value value := by
  have again : ∀ names : List Text, (names.map lower).map lower = names.map lower := by
    intro names
    simp [lower_lower]
  cases means with
  | @omitted _ names given =>
      have same := Means.omitted (.list (names.map lower))
      rwa [again] at same
  | @sorted _ names given nonempty =>
      have same := Means.sorted (.list (names.map lower)) (by simpa using nonempty)
      rwa [again] at same
  | unsorted => exact .notSorted
  | byKey => exact .sorted (.list ["id".toList]) (by simp)
  | notSorted => exact .notSorted
  | width width => exact .width width
  | noContents => exact .contents []
  | contents content => exact .contents content
  | flag plain => exact .flag plain (.flag given.isOn)

theorem means_default (option : OptionName) :
    Means option (setting {} option) (setting {} option) := by
  cases option with
  | omitted => exact .omitted (.list [])
  | sort => exact .notSorted
  | space => exact .width 2
  | tex => exact .contents []
  | _ => exact .flag rfl (.flag _)

theorem means_of_comes {option : OptionName} {given : Option Setting} {value : Setting}
    (comes : Comes option given value) : Means option value value := by
  cases given with
  | none =>
      rw [show value = setting {} option from comes]
      exact means_default option
  | some given => exact means_again comes

/-- The reader of an option reads what the option comes to. -/
structure Reads {Result : Type} (option : OptionName) (reader : Setting → Option Result)
    (write : Result → Setting) (default : Result) : Prop where
  means : ∀ given value,
    Means option given value ↔ ∃ result, reader given = some result ∧ write result = value
  injective : ∀ left right, write left = write right → left = right
  start : write default = setting {} option

namespace Reads

variable {Result : Type} {option : OptionName} {reader : Setting → Option Result}
  {write : Result → Setting} {default : Result} {settings : List (OptionName × Setting)}
  {refuse : Setting → OptionsError}

theorem read_ok_iff (reads : Reads option reader write default) (result : Result) :
    read settings option reader refuse default = .ok result ↔
      Comes option (last? settings option) (write result) := by
  unfold read
  cases last? settings option with
  | none =>
      have start : Comes option none (write result) ↔ write result = write default := by
        rw [reads.start]
        rfl
      rw [start]
      constructor
      · intro same
        rw [Except.ok.inj same]
      · intro same
        rw [reads.injective _ _ same]
  | some given =>
      have means : Comes option (some given) (write result) ↔ reader given = some result := by
        refine (reads.means given _).trans ⟨?_, fun found => ⟨result, found, rfl⟩⟩
        rintro ⟨other, found, same⟩
        rw [found, reads.injective _ _ same]
      rw [means]
      cases found : reader given <;> simp [found]

theorem read_exists (reads : Reads option reader write default)
    (accepted : ∀ given, last? settings option = some given → ∃ value, Means option given value) :
    ∃ result, read settings option reader refuse default = .ok result := by
  cases last : last? settings option with
  | none => exact ⟨default, reads.read_ok_iff default |>.2 (by rw [last]; exact reads.start)⟩
  | some given =>
      obtain ⟨value, means⟩ := accepted given last
      obtain ⟨result, _, rfl⟩ := (reads.means given value).1 means
      exact ⟨result, (reads.read_ok_iff result).2 (by rw [last]; exact means)⟩

end Reads

theorem omitted_reads :
    Reads .omitted Setting.fieldNames? (fun names => .list (names.map .text)) [] where
  means := by
    intro given value
    constructor
    · intro means
      cases means with
      | @omitted _ names given =>
          exact ⟨names.map lower, Setting.field_names_iff.2 ⟨names, given, rfl⟩, rfl⟩
      | flag plain => cases plain
    · rintro ⟨_, read, rfl⟩
      obtain ⟨names, given, rfl⟩ := Setting.field_names_iff.1 read
      exact .omitted given
  injective := fun left right same =>
    (List.map_inj_right fun _ _ => Setting.text.inj).1 (Setting.list.inj same)
  start := rfl

theorem sort_reads :
    Reads .sort Setting.sortFields?
      (fun names => if names.isEmpty then .flag false else .list (names.map .text)) [] where
  means := by
    have named : ∀ {given : Setting} {names : List Text}, given.Names names →
        given.sortFields? = some (names.map lower) := by
      intro given names gives
      rw [← Setting.field_names_iff.2 ⟨names, gives, rfl⟩]
      cases gives <;> rfl
    intro given value
    constructor
    · intro means
      cases means with
      | @sorted _ names gives nonempty =>
          refine ⟨names.map lower, named gives, ?_⟩
          exact if_neg (by simpa using nonempty)
      | unsorted gives => exact ⟨[], named gives, rfl⟩
      | byKey => exact ⟨["id".toList], rfl, rfl⟩
      | notSorted => exact ⟨[], rfl, rfl⟩
      | flag plain => cases plain
    · rintro ⟨fields, read, rfl⟩
      by_cases on : given = .flag true
      · subst on
        rw [← Option.some.inj read]
        exact .byKey
      by_cases off : given = .flag false
      · subst off
        rw [← Option.some.inj read]
        exact .notSorted
      have fieldNames : given.fieldNames? = some fields := by
        rw [← read]
        cases given with
        | flag state => cases state <;> simp at on off
        | _ => rfl
      obtain ⟨names, gives, rfl⟩ := Setting.field_names_iff.1 fieldNames
      cases names with
      | nil => exact .unsorted gives
      | cons name others => exact .sorted gives (by simp)
  injective := by
    intro left right same
    cases left with
    | nil => cases right with
      | nil => rfl
      | cons => cases same
    | cons => cases right with
      | nil => cases same
      | cons => exact (List.map_inj_right fun _ _ => Setting.text.inj).1 (Setting.list.inj same)
  start := rfl

theorem space_reads : Reads .space Setting.width? (fun width => .integer width) 2 where
  means := by
    intro given value
    constructor
    · intro means
      cases means with
      | width width => exact ⟨width, rfl, rfl⟩
      | flag plain => cases plain
    · rintro ⟨width, read, rfl⟩
      cases given with
      | integer number =>
          cases number with
          | ofNat number =>
              rw [← Option.some.inj read]
              exact .width number
          | negSucc => cases read
      | _ => cases read
  injective := fun _ _ same => Int.ofNat.inj (Setting.integer.inj same)
  start := rfl

theorem tex_reads : Reads .tex Setting.contents? .text [] where
  means := by
    intro given value
    constructor
    · intro means
      cases means with
      | noContents => exact ⟨[], rfl, rfl⟩
      | contents content => exact ⟨content, rfl, rfl⟩
      | flag plain => cases plain
    · rintro ⟨content, read, rfl⟩
      cases given with
      | absent =>
          rw [← Option.some.inj read]
          exact .noContents
      | text found =>
          rw [← Option.some.inj read]
          exact .contents found
      | _ => cases read
  injective := fun _ _ => Setting.text.inj
  start := rfl

theorem flag_iff {settings : List (OptionName × Setting)} {option : OptionName}
    (plain : option.isFlag = true) (on default : Bool) (start : setting {} option = .flag default) :
    flag settings option default = on ↔ Comes option (last? settings option) (.flag on) := by
  unfold flag
  cases last? settings option with
  | none =>
      show default = on ↔ Setting.flag on = setting {} option
      rw [start, Setting.flag.injEq, eq_comm]
  | some given =>
      show given.isOn = on ↔ Means option given (.flag on)
      constructor
      · rintro rfl
        exact .flag plain given
      · intro means
        cases means with
        | flag => rfl
        | _ => cases plain

theorem bind_ok_iff {Error First Second : Type} {before : Except Error First}
    {after : First → Except Error Second} {result : Second} :
    before >>= after = .ok result ↔ ∃ first, before = .ok first ∧ after first = .ok result := by
  cases before <;> simp [bind, Except.bind]

theorem of_resolved_iff {settings : List (OptionName × Setting)} {options : Options} :
    ofResolved settings = .ok options ↔
      ∀ option, Comes option (last? settings option) (options.setting option) := by
  simp only [ofResolved, bind_ok_iff, omitted_reads.read_ok_iff, sort_reads.read_ok_iff,
    space_reads.read_ok_iff, tex_reads.read_ok_iff]
  constructor
  · rintro ⟨names, omitted, fields, sort, width, space, content, tex, same⟩ option
    rw [← Except.ok.inj same]
    cases option with
    | omitted => exact omitted
    | sort => exact sort
    | space => exact space
    | tex => exact tex
    | _ => exact (flag_iff rfl _ _ rfl).1 rfl
  · intro comes
    refine ⟨_, comes .omitted, _, comes .sort, _, comes .space, _, comes .tex, ?_⟩
    have flags : ∀ option on default, option.isFlag = true → setting {} option = .flag default →
        options.setting option = .flag on → flag settings option default = on := by
      intro option on default plain start same
      apply (flag_iff plain on default start).2
      rw [← same]
      exact comes option
    rw [flags .curly _ _ rfl rfl rfl, flags .numeric _ _ rfl rfl rfl, flags .tab _ _ rfl rfl rfl,
      flags .metadata _ _ rfl rfl rfl, flags .merge _ _ rfl rfl rfl,
      flags .stripBraces _ _ rfl rfl rfl, flags .dropCaps _ _ rfl rfl rfl,
      flags .escape _ _ rfl rfl rfl, flags .sortFields _ _ rfl rfl rfl]
    rfl

theorem of_resolved_exists {settings : List (OptionName × Setting)} :
    (∃ options, ofResolved settings = .ok options) ↔
      ∀ option given, last? settings option = some given → ∃ value, Means option given value := by
  constructor
  · rintro ⟨options, read⟩ option given last
    have comes := of_resolved_iff.1 read option
    rw [last] at comes
    exact ⟨_, comes⟩
  · intro accepted
    obtain ⟨names, omitted⟩ := omitted_reads.read_exists (accepted .omitted)
    obtain ⟨fields, sort⟩ := sort_reads.read_exists (accepted .sort)
    obtain ⟨width, space⟩ := space_reads.read_exists (accepted .space)
    obtain ⟨content, tex⟩ := tex_reads.read_exists (accepted .tex)
    simp only [ofResolved, bind_ok_iff]
    exact ⟨_, names, omitted, fields, sort, width, space, content, tex, rfl⟩

theorem of_resolved_congr {left right : List (OptionName × Setting)}
    (same : ∀ option, last? left option = last? right option) :
    ofResolved left = ofResolved right := by
  simp only [ofResolved, read, flag, same]

/-- The settings that resolve to an option, or those that resolve to none. -/
def under (resolution : Option OptionName) (settings : List (Text × Setting)) :
    List (Text × Setting) :=
  settings.filter fun given => OptionName.ofSpelling? given.1 == resolution

def lastGiven? (settings : List (Text × Setting)) (option : OptionName) : Option Setting :=
  (under (some option) settings).getLast?.map Prod.snd

def firstUnknown? (settings : List (Text × Setting)) : Option Text :=
  (under none settings).head?.map Prod.fst

theorem mem_under {resolution : Option OptionName} {settings : List (Text × Setting)}
    {given : Text × Setting} : given ∈ under resolution settings ↔
      given ∈ settings ∧ OptionName.ofSpelling? given.1 = resolution := by
  rw [under, List.mem_filter, beq_iff_eq]

theorem under_cons (resolution : Option OptionName) (given : Text × Setting)
    (rest : List (Text × Setting)) : under resolution (given :: rest) =
      if OptionName.ofSpelling? given.1 = resolution then given :: under resolution rest
      else under resolution rest := by
  simp [under, List.filter_cons]

theorem all_known_iff {settings : List (Text × Setting)} :
    firstUnknown? settings = none ↔
      ∀ given ∈ settings, ∃ option : OptionName, given.1 ∈ option.spellings := by
  simp only [firstUnknown?, Option.map_eq_none_iff, List.head?_eq_none_iff,
    List.eq_nil_iff_forall_not_mem, mem_under, not_and, ← OptionName.of_spelling_iff]
  exact forall₂_congr fun _ _ => Option.ne_none_iff_exists'

theorem last_eq (settings : List (OptionName × Setting)) (option : OptionName) :
    last? settings option =
      ((settings.filter fun given => given.1 == option).getLast?).map Prod.snd := by
  rw [last?, ← List.head?_filter, List.filter_reverse, List.head?_reverse]

theorem resolve_cases (settings : List (Text × Setting)) :
    (∃ name, firstUnknown? settings = some name ∧ resolve settings = .error (.unknown name)) ∨
      firstUnknown? settings = none ∧ ∃ resolved, resolve settings = .ok resolved ∧
        ∀ option, (resolved.filter fun given => given.1 == option) =
          (under (some option) settings).map fun given => (option, given.2) := by
  induction settings with
  | nil => exact .inr ⟨rfl, [], rfl, fun _ => rfl⟩
  | cons given rest induction =>
      cases found : OptionName.ofSpelling? given.1 with
      | none =>
          refine .inl ⟨given.1, ?_, ?_⟩
          · simp [firstUnknown?, under_cons, found]
          · simp [resolve, found]
      | some option =>
          have passed : firstUnknown? (given :: rest) = firstUnknown? rest := by
            simp [firstUnknown?, under_cons, found]
          rw [passed, resolve, found]
          rcases induction with ⟨name, first, stopped⟩ | ⟨known, resolved, read, same⟩
          · exact .inl ⟨name, first, by simp [stopped, Except.map]⟩
          · refine .inr ⟨known, (option, given.2) :: resolved, by simp [read, Except.map], ?_⟩
            intro other
            rw [under_cons, found, List.filter_cons, same]
            by_cases equal : option = other
            · simp [equal]
            · simp [equal]

/-- The options are those of the last settings, unless a name is unknown. -/
theorem of_settings_cases (settings : List (Text × Setting)) :
    (∃ name, firstUnknown? settings = some name ∧ ofSettings settings = .error (.unknown name)) ∨
      firstUnknown? settings = none ∧ ∃ resolved, ofSettings settings = ofResolved resolved ∧
        ∀ option, last? resolved option = lastGiven? settings option := by
  rcases resolve_cases settings with ⟨name, first, stopped⟩ | ⟨known, resolved, read, same⟩
  · exact .inl ⟨name, first, by rw [ofSettings, stopped]⟩
  · refine .inr ⟨known, resolved, by rw [ofSettings, read], ?_⟩
    intro option
    rw [last_eq, same, lastGiven?, List.getLast?_map, Option.map_map]
    rfl

theorem of_settings_congr {left right : List (Text × Setting)}
    (unknown : firstUnknown? left = firstUnknown? right)
    (last : ∀ option, lastGiven? left option = lastGiven? right option) :
    ofSettings left = ofSettings right := by
  rcases of_settings_cases left with ⟨name, first, stopped⟩ | ⟨known, resolved, read, same⟩
  · rcases of_settings_cases right with ⟨other, second, ended⟩ | ⟨none, _⟩
    · rw [first, second] at unknown
      rw [stopped, ended, Option.some.inj unknown]
    · rw [first, none] at unknown
      cases unknown
  · rcases of_settings_cases right with ⟨other, second, _⟩ | ⟨_, others, readOthers, sameOthers⟩
    · rw [known, second] at unknown
      cases unknown
    · rw [read, readOthers]
      apply of_resolved_congr
      intro option
      rw [same, last, sameOthers]

theorem of_settings_iff {settings : List (Text × Setting)} {options : Options} :
    ofSettings settings = .ok options ↔ firstUnknown? settings = none ∧
      ∀ option, Comes option (lastGiven? settings option) (options.setting option) := by
  rcases of_settings_cases settings with ⟨name, first, stopped⟩ | ⟨known, resolved, read, same⟩
  · simp [first, stopped]
  · rw [read, of_resolved_iff, and_iff_right known]
    simp only [same]

theorem of_settings_exists {settings : List (Text × Setting)} :
    (∃ options, ofSettings settings = .ok options) ↔ firstUnknown? settings = none ∧
      ∀ option given, lastGiven? settings option = some given →
        ∃ value, Means option given value := by
  rcases of_settings_cases settings with ⟨name, first, stopped⟩ | ⟨known, resolved, read, same⟩
  · simp [first, stopped]
  · rw [read, of_resolved_exists, and_iff_right known]
    simp only [same]

/-- Settings that give every option, under any of its spellings, the value that it has. -/
structure Restates (options : Options) (settings : List (Text × Setting)) : Prop where
  values : ∀ given ∈ settings, ∃ option : OptionName,
    given.1 ∈ option.spellings ∧ given.2 = options.setting option
  complete : ∀ option : OptionName, ∃ given ∈ settings, given.1 ∈ option.spellings

theorem last_restated {options : Options} {settings : List (Text × Setting)}
    (restates : Restates options settings) (option : OptionName) :
    lastGiven? settings option = some (options.setting option) := by
  obtain ⟨given, member, spelled⟩ := restates.complete option
  have inside : given ∈ under (some option) settings :=
    mem_under.2 ⟨member, OptionName.of_spelling_iff.2 spelled⟩
  cases last : (under (some option) settings).getLast? with
  | none =>
      rw [List.getLast?_eq_none_iff.1 last] at inside
      cases inside
  | some final =>
      obtain ⟨listed, resolved⟩ := mem_under.1 (List.mem_of_getLast? last)
      obtain ⟨other, otherSpelled, value⟩ := restates.values final listed
      have same : other = option := by
        rw [OptionName.of_spelling_iff.2 otherSpelled] at resolved
        exact Option.some.inj resolved
      rw [lastGiven?, last, Option.map_some, value, same]

/-- Options are made exactly of known names with acceptable last settings, and every option
comes to what its last setting means. Nothing else about the settings counts, so those that
resolve differently can change places, and options that are given again stay as they are. -/
theorem of_settings_normal (settings : List (Text × Setting)) :
    ((∃ options, ofSettings settings = .ok options) ↔
      (∀ given ∈ settings, ∃ option : OptionName, given.1 ∈ option.spellings) ∧
        ∀ option given, lastGiven? settings option = some given →
          ∃ value, Means option given value) ∧
    (∀ options, ofSettings settings = .ok options →
      (∀ option, Comes option (lastGiven? settings option) (options.setting option)) ∧
        ∀ again, Restates options again → ofSettings again = .ok options) ∧
    (∀ others, firstUnknown? others = firstUnknown? settings →
      (∀ option, lastGiven? others option = lastGiven? settings option) →
      ofSettings others = ofSettings settings) ∧
    ∀ others, (∀ resolution, under resolution others = under resolution settings) →
      ofSettings others = ofSettings settings := by
  refine ⟨?_, ?_, fun others => of_settings_congr, ?_⟩
  · rw [of_settings_exists, all_known_iff]
  · intro options read
    have comes := (of_settings_iff.1 read).2
    refine ⟨comes, ?_⟩
    intro again restates
    apply of_settings_iff.2
    refine ⟨?_, ?_⟩
    · apply all_known_iff.2
      intro given member
      obtain ⟨option, spelled, _⟩ := restates.values given member
      exact ⟨option, spelled⟩
    · intro option
      rw [last_restated restates option]
      exact means_of_comes (comes option)
  · intro others same
    apply of_settings_congr
    · rw [firstUnknown?, firstUnknown?, same]
    · intro option
      rw [lastGiven?, lastGiven?, same]

/-- A table of field names, two spellings of one option, and a number for a flag. -/
def mixedSettings : List (Text × Setting) :=
  [("escape".toList, .flag false), ("sort".toList, .text "Year".toList),
    ("omit".toList, .table [("Abstract".toList, .absent)]), ("space".toList, .integer 4),
    ("escapeSpecialCharacters".toList, .integer 1), ("curly".toList, .decimal 0 1)]

def movedSettings : List (Text × Setting) :=
  [("curly".toList, .decimal 0 1), ("omit".toList, .table [("Abstract".toList, .absent)]),
    ("escape".toList, .flag false), ("space".toList, .integer 4),
    ("escapeSpecialCharacters".toList, .integer 1), ("sort".toList, .text "Year".toList)]

def mixedOptions : Options :=
  { omitted := ["abstract".toList], sort := ["year".toList], space := 4 }

def restated (options : Options) : List (Text × Setting) :=
  OptionName.all.map fun option => (option.aliases.headD option.name, options.setting option)

theorem mixed_settings_normal :
    ofSettings mixedSettings = .ok mixedOptions ∧ ofSettings movedSettings = .ok mixedOptions ∧
      ofSettings (restated mixedOptions) = .ok mixedOptions := by
  have normal := of_settings_normal mixedSettings
  have read : ofSettings mixedSettings = .ok mixedOptions := rfl
  have moved : ∀ resolution, under resolution movedSettings = under resolution mixedSettings := by
    intro resolution
    cases resolution with
    | none => rfl
    | some option => cases option <;> rfl
  have spelled : ∀ option : OptionName, option.aliases.headD option.name ∈ option.spellings := by
    intro option
    cases option <;> simp [OptionName.spellings, OptionName.aliases]
  have restates : Restates mixedOptions (restated mixedOptions) := by
    refine ⟨?_, ?_⟩
    · intro given member
      obtain ⟨option, _, rfl⟩ := List.mem_map.1 member
      exact ⟨option, spelled option, rfl⟩
    · intro option
      exact ⟨_, List.mem_map.2 ⟨option, OptionName.mem_all option, rfl⟩, spelled option⟩
  exact ⟨read, (normal.2.2.2 _ moved).trans read, (normal.2.1 _ read).2 _ restates⟩

end Options

end Bibliography
