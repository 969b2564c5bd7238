import RegisterBridge.Proofs.Device.Resolution
import RegisterBridge.Proofs.Device.Sources
import RegisterBridge.Proofs.Device.Unreadable

namespace RegisterBridge

/-- A text is what is left of another without the blanks at its ends. -/
def Trims (whole text : List Char) : Prop :=
  ∃ left right, whole = left ++ (text ++ right) ∧
    (∀ c ∈ left, isBlank c = true) ∧ (∀ c ∈ right, isBlank c = true) ∧
    (∀ c ∈ text.head?, isBlank c = false) ∧ ∀ c ∈ text.getLast?, isBlank c = false

theorem trims_trim (whole : List Char) : Trims whole (trim whole) := by
  obtain ⟨left, rest, rfl, leftBlank, starts⟩ := exists_row isBlank whole
  obtain ⟨right, text, reversed, rightBlank, ends⟩ := exists_row isBlank rest.reverse
  have front : trimStart (left ++ rest) = rest := dropWhile_append_stop leftBlank starts
  have back : trimStart rest.reverse = text := by
    rw [reversed]
    exact dropWhile_append_stop rightBlank ends
  have spelled : rest = text.reverse ++ right.reverse := by
    rw [← List.reverse_append, ← reversed, List.reverse_reverse]
  rw [trim, front, back]
  refine ⟨left, right.reverse, by rw [spelled], leftBlank,
    fun c member => rightBlank c (List.mem_reverse.mp member), fun c head => ?_, fun c last => ?_⟩
  · refine starts c ?_
    rw [spelled, List.head?_append, Option.mem_def.mp head]
    rfl
  · rw [List.getLast?_reverse] at last
    exact ends c last

theorem trim_of_trims {whole text : List Char} (trims : Trims whole text) (nonempty : text ≠ []) :
    trim whole = text := by
  obtain ⟨left, right, rfl, leftBlank, rightBlank, starts, ends⟩ := trims
  have front : trimStart (left ++ (text ++ right)) = text ++ right := by
    refine dropWhile_append_stop leftBlank fun c head => starts c ?_
    rwa [List.head?_append_of_ne_nil _ nonempty] at head
  have back : trimStart (text ++ right).reverse = text.reverse := by
    rw [List.reverse_append]
    refine dropWhile_append_stop (fun c member => rightBlank c (List.mem_reverse.mp member)) ?_
    rwa [List.head?_reverse]
  rw [trim, front, back, List.reverse_reverse]

theorem splitAtChar_eq_splitOn (separator : Char) (text : List Char) :
    splitAtChar separator text = text.splitOn separator := by
  induction text with
  | nil => rfl
  | cons c rest ih =>
    rw [splitAtChar, List.splitOn, List.splitOnP_cons_eq_if_modifyHead, ← List.splitOn, ← ih]
    refine if_congr beq_iff_eq.symm rfl ?_
    cases parts : splitAtChar separator rest with
    | nil => exact absurd (ih.symm.trans parts) (List.splitOnP_ne_nil _ _)
    | cons first others => rfl

theorem not_mem_of_mem_splitAtChar {separator : Char} {text part : List Char}
    (listed : part ∈ splitAtChar separator text) : separator ∉ part := by
  intro member
  have kept : separator ∈ (splitAtChar separator text).flatten :=
    List.mem_flatten.mpr ⟨part, listed, member⟩
  rw [flatten_splitAtChar] at kept
  exact absurd rfl (of_decide_eq_true (List.mem_filter.mp kept).2)

/-- A key lists a name: the name is a part of the key between separators, without the blanks around
it. -/
def Provides (key name : String) : Prop :=
  name ≠ "" ∧ ∃ parts : List (List Char), key.toList = ['|'].intercalate parts ∧
    (∀ part ∈ parts, '|' ∉ part) ∧ ∃ part ∈ parts, Trims part name.toList

theorem mem_commandNames {key name : String} : name ∈ commandNames key ↔ Provides key name := by
  have listed : name ∈ commandNames key ↔
      ∃ part ∈ splitAtChar '|' key.toList, trim part ≠ [] ∧ .ofList (trim part) = name := by
    simp only [commandNames, List.mem_filterMap, List.mem_map, exists_exists_and_eq_and,
      Option.ite_none_left_eq_some, List.isEmpty_iff, Option.some.injEq, Ne]
  rw [listed, splitAtChar_eq_splitOn]
  constructor
  · rintro ⟨part, member, nonempty, rfl⟩
    refine ⟨fun empty => nonempty ?_, _, (List.intercalate_splitOn '|').symm, ?_, part, member, ?_⟩
    · rw [← String.toList_ofList (l := trim part), empty]
      rfl
    · rw [← splitAtChar_eq_splitOn]
      exact fun _ => not_mem_of_mem_splitAtChar
    · rw [String.toList_ofList]
      exact trims_trim part
  · rintro ⟨nonempty, parts, spelled, free, part, member, trims⟩
    have nonempty : name.toList ≠ [] := fun empty => nonempty (String.toList_eq_nil_iff.mp empty)
    have trimmed := trim_of_trims trims nonempty
    refine ⟨part, ?_, by rwa [trimmed], by rw [trimmed, String.ofList_toList]⟩
    rw [spelled, List.splitOn_intercalate '|' free (List.ne_nil_of_mem member)]
    exact member

namespace OrderedMap

variable {κ α : Type} [DecidableEq κ]

/-- The last entry for a key counts. -/
theorem get?_ofList (entries : List (κ × α)) (key : κ) :
    (ofList entries).get? key = entries.reverse.lookup key := by
  induction entries using List.reverseRecOn with
  | nil => rfl
  | append_singleton entries entry ih =>
    rw [ofList, List.foldl_append]
    change ((ofList entries).insert entry.1 entry.2).get? key = _
    rw [get?_insert, ih, List.reverse_append, List.reverse_singleton, List.singleton_append,
      List.lookup_cons]
    by_cases own : key = entry.1
    · rw [if_pos own, beq_iff_eq.mpr own]
    · rw [if_neg own, beq_eq_false_iff_ne.mpr own]

end OrderedMap

/-- The names under which a command is looked for, in order: its own, that for its value, and that
for the common word of its value. -/
def triedNames (command : String) : Option String → List String
  | none => [command]
  | some text =>
    let word := String.ofList ((trim text.toList).map Char.toLower)
    [command, command ++ "(current=" ++ text ++ ")"] ++
      if word ∈ ["on", "enabled", "1", "true"] then [command ++ "(current=enable)"]
      else if word ∈ ["off", "disabled", "0", "false"] then [command ++ "(current=disable)"]
      else []

theorem commandKeys_eq_triedNames (command : String) (current : Option String) :
    commandKeys command current = triedNames command current := by
  cases current with
  | none => rfl
  | some text =>
    have enable : derivedCommand command "enable" = command ++ "(current=enable)" := by
      rw [derivedCommand, String.append_assoc, String.append_assoc]
      rfl
    have disable : derivedCommand command "disable" = command ++ "(current=disable)" := by
      rw [derivedCommand, String.append_assoc, String.append_assoc]
      rfl
    simp only [commandKeys, triedNames, toggleToken?]
    generalize String.ofList ((trim text.toList).map Char.toLower) = word
    by_cases on : word ∈ ["on", "enabled", "1", "true"]
    · have off : word ∉ ["off", "disabled", "0", "false"] := by
        simp only [List.mem_cons, List.not_mem_nil, or_false] at on
        rcases on with rfl | rfl | rfl | rfl <;> decide
      rw [if_neg off, if_pos on, if_pos on, ← enable]
      rfl
    · rw [if_neg on, if_neg on]
      by_cases off : word ∈ ["off", "disabled", "0", "false"]
      · rw [if_pos off, if_pos off, ← disable]
        rfl
      · rw [if_neg off, if_neg off]
        rfl

/-- A name stands for the command of the last key that lists it. -/
def LastProvides (entries : List (String × CommandSpec)) (name : String) (command : CommandSpec) :
    Prop :=
  ∃ before key after, entries = before ++ (key, command) :: after ∧ Provides key name ∧
    ∀ later ∈ after, ¬ Provides later.1 name

/-- Of some names, the first that any key lists. -/
def FirstProvided (entries : List (String × CommandSpec)) (names : List String) (name : String) :
    Prop :=
  ∃ earlier rest, names = earlier ++ name :: rest ∧
    (∀ other ∈ earlier, ∀ entry ∈ entries, ¬ Provides entry.1 other) ∧
    ∃ entry ∈ entries, Provides entry.1 name

theorem exists_lastProvides {entries : List (String × CommandSpec)} {name : String}
    (provided : ∃ entry ∈ entries, Provides entry.1 name) :
    ∃ command, LastProvides entries name command := by
  induction entries with
  | nil =>
    obtain ⟨entry, listed, -⟩ := provided
    cases listed
  | cons first rest ih =>
    by_cases later : ∃ entry ∈ rest, Provides entry.1 name
    · obtain ⟨command, before, key, after, rfl, provides, last⟩ := ih later
      exact ⟨command, first :: before, key, after, rfl, provides, last⟩
    · obtain ⟨entry, listed, provides⟩ := provided
      rcases List.mem_cons.mp listed with rfl | listed
      · exact ⟨entry.2, [], entry.1, rest, rfl, provides,
          fun other listed provides => later ⟨other, listed, provides⟩⟩
      · exact absurd ⟨entry, listed, provides⟩ later

theorem lookup_map_const {names : List String} {name : String} (listed : name ∈ names)
    (command : CommandSpec) : (names.map fun name => (name, command)).lookup name = some command := by
  induction names with
  | nil => cases listed
  | cons first rest ih =>
    rw [List.map_cons, List.lookup_cons]
    by_cases own : name = first
    · rw [beq_iff_eq.mpr own]
    · rw [beq_eq_false_iff_ne.mpr own]
      exact ih ((List.mem_cons.mp listed).resolve_left own)

namespace UnitSpec

variable {spec : UnitSpec} {name : String}

theorem get?_commandSources_eq_none_iff :
    (OrderedMap.ofList spec.commandSources).get? name = none ↔
      ∀ entry ∈ spec.commands.entries, ¬ Provides entry.1 name := by
  rw [OrderedMap.get?_ofList, List.lookup_eq_none_iff]
  constructor
  · rintro absent ⟨key, command⟩ listed provides
    have source : (name, command) ∈ spec.commandSources :=
      mem_commandSources.mpr ⟨key, listed, mem_commandNames.mpr provides⟩
    exact absurd rfl (bne_iff_ne.mp (absent _ (List.mem_reverse.mpr source)))
  · rintro absent ⟨other, command⟩ source
    obtain ⟨key, listed, named⟩ := mem_commandSources.mp (List.mem_reverse.mp source)
    refine bne_iff_ne.mpr ?_
    rintro rfl
    exact absent _ listed (mem_commandNames.mp named)

theorem get?_commandSources_of_lastProvides {command : CommandSpec}
    (last : LastProvides spec.commands.entries name command) :
    (OrderedMap.ofList spec.commandSources).get? name = some command := by
  obtain ⟨before, key, after, entries, provides, later⟩ := last
  have sources : spec.commandSources = spec.commands.entries.flatMap fun entry =>
      (commandNames entry.1).map fun name => (name, entry.2) := rfl
  have foreign : (after.flatMap fun entry =>
      (commandNames entry.1).map fun name => (name, entry.2)).reverse.lookup name = none := by
    refine List.lookup_eq_none_iff.mpr fun source member => bne_iff_ne.mpr ?_
    rintro rfl
    obtain ⟨entry, listed, member⟩ := List.mem_flatMap.mp (List.mem_reverse.mp member)
    obtain ⟨other, named, rfl⟩ := List.mem_map.mp member
    exact later entry listed (mem_commandNames.mp named)
  have own : ((commandNames key).map fun name => (name, command)).reverse.lookup name =
      some command := by
    rw [← List.map_reverse]
    exact lookup_map_const (List.mem_reverse.mpr (mem_commandNames.mpr provides)) command
  rw [OrderedMap.get?_ofList, sources, entries, List.flatMap_append, List.flatMap_cons,
    List.reverse_append, List.reverse_append, List.lookup_append, List.lookup_append, foreign, own]
  rfl

end UnitSpec

namespace DeviceUnit

theorem Forms.unique {command : CommandSpec} {formulas formulas' : List Formula}
    (forms : Forms command formulas) (forms' : Forms command formulas') : formulas = formulas' :=
  List.right_unique_forall₂' (fun _ _ _ read read' => Except.ok.inj (read.symm.trans read')) forms
    forms'

variable {firstId : Nat} {spec : UnitSpec} {u : DeviceUnit}

theorem exists_forms (compiled : compile firstId spec = .ok u) {name : String}
    {command : CommandSpec} (last : LastProvides spec.commands.entries name command) :
    ∃ formulas, u.commands.get? name = some formulas ∧ Forms command formulas := by
  obtain ⟨commands, made, related⟩ := exists_commands_of_compile compiled
  rw [made]
  exact OrderedMap.Refines.ofList related name command
    (UnitSpec.get?_commandSources_of_lastProvides last)

theorem get?_commands_eq_none_iff (compiled : compile firstId spec = .ok u) {name : String} :
    u.commands.get? name = none ↔ ∀ entry ∈ spec.commands.entries, ¬ Provides entry.1 name := by
  constructor
  · intro absent entry listed provides
    obtain ⟨command, last⟩ := exists_lastProvides ⟨entry, listed, provides⟩
    obtain ⟨formulas, found, -⟩ := exists_forms compiled last
    cases absent.symm.trans found
  · intro absent
    obtain ⟨commands, made, related⟩ := exists_commands_of_compile compiled
    have sources := UnitSpec.get?_commandSources_eq_none_iff.mpr absent
    have back : List.Forall₂ (fun command source => command.1 = source.1 ∧
        Forms source.2 command.2) commands spec.commandSources :=
      .flip (related.imp fun _ _ ⟨names, forms⟩ => ⟨names.symm, forms⟩)
    cases found : u.commands.get? name with
    | none => rfl
    | some formulas =>
      rw [made] at found
      obtain ⟨command, listed, -⟩ := OrderedMap.Refines.ofList
        (R := fun formulas command => Forms command formulas) back name formulas found
      cases sources.symm.trans listed

/-- What the keys of a unit make of a command. -/
structure LooksUp (spec : UnitSpec) (u : DeviceUnit) (command : String) (current : Option String) :
    Prop where
  /-- If some key lists one of the names, the first such name counts, and for it the last key. -/
  known : (∃ name ∈ triedNames command current, ∃ entry ∈ spec.commands.entries,
      Provides entry.1 name) →
    ∃ name last formulas, FirstProvided spec.commands.entries (triedNames command current) name ∧
      LastProvides spec.commands.entries name last ∧ Forms last formulas ∧
      ∀ pending, u.resolve command current pending =
        .ok (assignAll (u.commandEnvironment current) formulas pending)
  unknown : ∀ pending,
    u.resolve command current pending = .error (.unknownCommand u.device command) ↔
      ∀ name ∈ triedNames command current, ∀ entry ∈ spec.commands.entries,
        ¬ Provides entry.1 name
  /-- Another name that the same key lists stands for the same, unless a later key has one of both. -/
  shared : ∀ other before key last after,
    spec.commands.entries = before ++ (key, last) :: after →
    Provides key command → Provides key other →
    (∀ later ∈ after, ¬ Provides later.1 command ∧ ¬ Provides later.1 other) →
    ∀ pending, u.resolve other current pending = u.resolve command current pending

theorem resolve_of_get?_commands {command : String} {formulas : List Formula}
    (found : u.commands.get? command = some formulas) (current : Option String)
    (pending : Pending) :
    u.resolve command current pending =
      .ok (assignAll (u.commandEnvironment current) formulas pending) := by
  have own : u.findCommand? command current = some formulas := by
    rw [findCommand?, found]
    rfl
  rw [resolve, own]

/-- A command runs the expressions of the last key that lists the first of its names which any key
lists. -/
theorem command_lookup (compiled : compile firstId spec = .ok u) (command : String)
    (current : Option String) : LooksUp spec u command current := by
  have lookup := u.findCommand?_eq command current
  rw [commandKeys_eq_triedNames] at lookup
  constructor
  · rintro ⟨name, tried, entry, listed, provides⟩
    cases found : (triedNames command current).findSome? u.commands.get? with
    | none =>
      have absent := List.findSome?_eq_none_iff.mp found name tried
      exact absurd provides ((get?_commands_eq_none_iff compiled).mp absent entry listed)
    | some formulas =>
      obtain ⟨earlier, first, rest, names, hit, misses⟩ := List.findSome?_eq_some_iff.mp found
      have provided : ∃ entry ∈ spec.commands.entries, Provides entry.1 first := by
        by_contra unprovided
        have absent : u.commands.get? first = none := (get?_commands_eq_none_iff compiled).mpr
          fun entry listed provides => unprovided ⟨entry, listed, provides⟩
        cases absent.symm.trans hit
      obtain ⟨last, isLast⟩ := exists_lastProvides provided
      obtain ⟨own, hitLast, forms⟩ := exists_forms compiled isLast
      cases hit.symm.trans hitLast
      refine ⟨first, last, formulas, ⟨earlier, rest, names, ?_, provided⟩, isLast, forms, ?_⟩
      · exact fun other before => (get?_commands_eq_none_iff compiled).mp (misses other before)
      · intro pending
        rw [resolve, lookup, found]
  · intro pending
    have absent : (∀ name ∈ triedNames command current, ∀ entry ∈ spec.commands.entries,
        ¬ Provides entry.1 name) ↔ (triedNames command current).findSome? u.commands.get? = none := by
      rw [List.findSome?_eq_none_iff]
      exact forall₂_congr fun name _ => (get?_commands_eq_none_iff compiled).symm
    rw [absent, resolve, lookup]
    cases (triedNames command current).findSome? u.commands.get? with
    | none => exact iff_of_true rfl rfl
    | some formulas => exact iff_of_false (fun same => by cases same) (fun same => by cases same)
  · intro other before key last after entries provides providesOther later pending
    have ownLast : LastProvides spec.commands.entries command last :=
      ⟨before, key, after, entries, provides, fun entry listed => (later entry listed).1⟩
    have otherLast : LastProvides spec.commands.entries other last :=
      ⟨before, key, after, entries, providesOther, fun entry listed => (later entry listed).2⟩
    obtain ⟨formulas, found, forms⟩ := exists_forms compiled ownLast
    obtain ⟨formulas', found', forms'⟩ := exists_forms compiled otherLast
    obtain rfl := forms.unique forms'
    rw [resolve_of_get?_commands found, resolve_of_get?_commands found']

end DeviceUnit

/-- A heater whose second key lists a name again and whose mode has a key for one value only. -/
def heaterSpec : UnitSpec :=
  (((UnitSpec.new "heater").withCommand " on | start " (.single "W0 = 1")).withCommand
    "|start||" (.single "W0 = 2")).withCommand "mode(current=enable)|boost" (.single "W1 = 1")

def heaterUnit : DeviceUnit :=
  let sets (i : Nat) (value : Binary64) (source : String) : List Formula :=
    [⟨source, .binary .assign (.identifier (wordName i)) (.literal (.number value))⟩]
  { device := "heater", statuses := []
    commands := .ofList [("on", sets 0 1 "W0 = 1"), ("start", sets 0 2 "W0 = 2"),
      ("mode(current=enable)", sets 1 1 "W1 = 1"), ("boost", sets 1 1 "W1 = 1")]
    units := none, scaling := none, multiplier := none, overflow := none }

theorem heaterSpec_compiles : DeviceUnit.compile 0 heaterSpec = .ok heaterUnit :=
  eq_ok_of_toOption (by decide +kernel)

/-- A mode that is turned on is found under the common word of its value. -/
theorem heater_commands_found :
    heaterUnit.LooksUp heaterSpec "mode" (some " ON ") ∧
    (heaterUnit.resolve "mode" (some " ON ") .empty).map (·.2.entries) = .ok [(1, 1)] ∧
    (heaterUnit.resolve "start" none .empty).map (·.2.entries) = .ok [(0, 2)] :=
  ⟨DeviceUnit.command_lookup heaterSpec_compiles "mode" (some " ON "),
    eq_ok_of_toOption (by decide +kernel), eq_ok_of_toOption (by decide +kernel)⟩

end RegisterBridge
