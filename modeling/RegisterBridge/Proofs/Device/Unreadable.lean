import Mathlib.Data.List.TakeWhile
import RegisterBridge.Proofs.Device.Compilation

namespace RegisterBridge

section Failure

variable {ε α β σ : Type}

/-- The error of a computation that fails. -/
def failure? : Except ε α → Option ε
  | .ok _ => none
  | .error e => some e

theorem failure?_eq_some {x : Except ε α} {e : ε} : failure? x = some e ↔ x = .error e := by
  cases x with
  | error failure => rw [failure?, Option.some_inj, Except.error.injEq]
  | ok a => exact iff_of_false nofun nofun

theorem failure?_eq_none {x : Except ε α} : failure? x = none ↔ ∃ a, x = .ok a := by
  cases x with
  | error failure => exact iff_of_false nofun nofun
  | ok a => exact iff_of_true rfl ⟨a, rfl⟩

theorem failure?_bind {x : Except ε α} {f : α → Except ε β} {later : Option ε}
    (next : ∀ a, failure? (f a) = later) : failure? (x >>= f) = (failure? x).or later := by
  cases x with
  | error failure => rfl
  | ok a => exact next a

theorem failure?_map (x : Except ε α) (g : α → β) :
    failure? (x >>= fun a => pure (g a)) = failure? x := by
  cases x <;> rfl

theorem failure?_mapM (f : α → Except ε β) (as : List α) :
    failure? (as.mapM f) = as.findSome? (failure? <| f ·) := by
  induction as with
  | nil => rfl
  | cons a as ih =>
    have tail : ∀ b, failure? (as.mapM f >>= fun bs => pure (b :: bs)) =
        as.findSome? (failure? <| f ·) := by
      intro b
      rw [failure?_map, ih]
    rw [List.mapM_cons, failure?_bind tail, List.findSome?_cons]
    cases failure? (f a) <;> rfl

theorem failure?_foldlM {f : σ → α → Except ε σ} {fails : α → Option ε}
    (step : ∀ s a, failure? (f s a) = fails a) (as : List α) (s : σ) :
    failure? (as.foldlM f s) = as.findSome? fails := by
  induction as generalizing s with
  | nil => rfl
  | cons a as ih =>
    rw [List.foldlM_cons, failure?_bind ih, step, List.findSome?_cons]
    cases fails a <;> rfl

theorem findSome?_flatMap (f : β → Option σ) (g : α → List β) (as : List α) :
    (as.flatMap g).findSome? f = as.findSome? fun a => (g a).findSome? f := by
  induction as with
  | nil => rfl
  | cons a as ih =>
    rw [List.flatMap_cons, List.findSome?_append, ih, List.findSome?_cons]
    cases (g a).findSome? f <;> rfl

theorem findSome?_zipIdx (f : α → Option σ) (as : List α) (start : Nat) :
    (as.zipIdx start).findSome? (fun place => f place.1) = as.findSome? f := by
  have same := congrArg (List.findSome? f) (List.zipIdx_map_fst start as)
  rwa [List.findSome?_map] at same

end Failure

theorem flatten_splitAtChar (separator : Char) (text : List Char) :
    (splitAtChar separator text).flatten = text.filter (· ≠ separator) := by
  induction text with
  | nil => rfl
  | cons c rest ih =>
    unfold splitAtChar
    by_cases splits : c = separator
    · rw [if_pos splits, List.filter_cons_of_neg (by simpa using splits), ← ih]
      rfl
    · rw [if_neg splits, List.filter_cons_of_pos (by simpa using splits), ← ih]
      cases splitAtChar separator rest <;> rfl

theorem trim_eq_nil {text : List Char} : trim text = [] ↔ ∀ c ∈ text, isBlank c = true := by
  unfold trim trimStart
  rw [List.reverse_eq_nil_iff, List.dropWhile_eq_nil_iff]
  constructor
  · intro rest c member
    rw [← List.takeWhile_append_dropWhile (p := isBlank) (l := text)] at member
    rcases List.mem_append.mp member with front | back
    · exact List.mem_takeWhile_imp front
    · exact rest c (List.mem_reverse.mpr back)
  · intro blank c member
    exact blank c ((List.dropWhile_suffix isBlank).subset (List.mem_reverse.mp member))

/-- A command key with a part between separators that is not blank. -/
def HasAlias (key : String) : Prop :=
  ∃ c ∈ key.toList, c ≠ '|' ∧ isBlank c = false

theorem commandNames_eq_nil {key : String} :
    commandNames key = [] ↔ ∀ c ∈ key.toList, c ≠ '|' → isBlank c = true := by
  have blankParts : commandNames key = [] ↔
      ∀ part ∈ splitAtChar '|' key.toList, ∀ c ∈ part, isBlank c = true := by
    simp only [commandNames, List.filterMap_eq_nil_iff, List.forall_mem_map, ite_eq_left_iff,
      reduceCtorEq, imp_false, Decidable.not_not, List.isEmpty_iff, trim_eq_nil]
  rw [blankParts]
  constructor
  · intro blank c member other
    have kept : c ∈ (splitAtChar '|' key.toList).flatten := by
      rw [flatten_splitAtChar]
      exact List.mem_filter.mpr ⟨member, decide_eq_true other⟩
    obtain ⟨part, listed, inside⟩ := List.mem_flatten.mp kept
    exact blank part listed c inside
  · intro blank part listed c inside
    have kept : c ∈ (splitAtChar '|' key.toList).flatten :=
      List.mem_flatten.mpr ⟨part, listed, inside⟩
    rw [flatten_splitAtChar] at kept
    obtain ⟨member, other⟩ := List.mem_filter.mp kept
    exact blank c member (of_decide_eq_true other)

theorem commandNames_ne_nil {key : String} : commandNames key ≠ [] ↔ HasAlias key := by
  simp only [ne_eq, commandNames_eq_nil, HasAlias, not_forall, exists_prop, Bool.not_eq_true]

example : commandNames " |on| enable" = ["on", "enable"] := by decide +kernel

/-- The text of an expression, with what an error says it is for. -/
structure Source where
  device : String
  name : String
  text : String

namespace Source

/-- The error that a text leads to which cannot be read. -/
def fault? (source : Source) : Option BridgeError :=
  (failure? (parse source.text)).map (.invalidExpression source.device source.name)

theorem fault?_eq_none {source : Source} :
    source.fault? = none ↔ ∃ tree, parse source.text = .ok tree := by
  rw [fault?, Option.map_eq_none_iff, failure?_eq_none]

theorem fault?_eq_some {source : Source} {e : BridgeError} :
    source.fault? = some e ↔ ∃ error, parse source.text = .error error ∧
      e = .invalidExpression source.device source.name error := by
  rw [fault?, Option.map_eq_some_iff]
  simp only [failure?_eq_some, eq_comm (b := e)]

end Source

/-- The expressions of a unit, those of its statuses first. -/
def UnitSpec.sources (u : UnitSpec) : List Source :=
  (u.statusSources.map fun (name, text) => ⟨u.device, name, text⟩) ++
    u.commandSources.flatMap fun (name, command) =>
      command.sources.map fun text => ⟨u.device, name, text⟩

def Model.sources (m : Model) : List Source :=
  m.units.flatMap (·.sources)

namespace DeviceUnit

theorem failure?_compileFormula (device name text : String) :
    failure? (compileFormula device name text) = (Source.mk device name text).fault? := by
  unfold compileFormula Formula.parse Source.fault?
  cases parse text <;> rfl

theorem failure?_compileStatus (device : String) (firstId : Nat)
    (source : (String × String) × Nat) :
    failure? (compileStatus device firstId source) =
      (Source.mk device source.1.1 source.1.2).fault? :=
  (failure?_map _ _).trans (failure?_compileFormula ..)

theorem failure?_compileCommand (device : String) (source : String × CommandSpec) :
    failure? (compileCommand device source) =
      source.2.sources.findSome? fun text => (Source.mk device source.1 text).fault? := by
  refine (failure?_map _ _).trans ?_
  rw [failure?_mapM]
  simp only [failure?_compileFormula]

theorem failure?_compile (firstId : Nat) (spec : UnitSpec) :
    failure? (compile firstId spec) = spec.sources.findSome? Source.fault? := by
  have statuses : failure? (spec.statusSources.zipIdx.mapM (compileStatus spec.device firstId)) =
      spec.statusSources.findSome? fun source =>
        (Source.mk spec.device source.1 source.2).fault? := by
    rw [failure?_mapM]
    simp only [failure?_compileStatus]
    exact findSome?_zipIdx (fun source : String × String =>
      (Source.mk spec.device source.1 source.2).fault?) _ 0
  have commands : failure? (spec.commandSources.mapM (compileCommand spec.device)) =
      spec.commandSources.findSome? fun source => source.2.sources.findSome? fun text =>
        (Source.mk spec.device source.1 text).fault? := by
    rw [failure?_mapM]
    simp only [failure?_compileCommand]
  rw [UnitSpec.sources, List.findSome?_append, List.findSome?_map, findSome?_flatMap]
  simp only [List.findSome?_map]
  refine (failure?_bind ?_).trans (congrArg (Option.or · _) statuses)
  exact fun statuses => (failure?_map _ _).trans commands

end DeviceUnit

theorem Catalog.failure?_compile (model : Model) :
    failure? (compile model) = model.sources.findSome? Source.fault? := by
  have step : ∀ (c : Catalog) (spec : UnitSpec),
      failure? (c.add spec) = spec.sources.findSome? Source.fault? := by
    intro c spec
    exact (failure?_map (DeviceUnit.compile c.statusCount spec) _).trans
      (DeviceUnit.failure?_compile c.statusCount spec)
  rw [compile, failure?_foldlM step, Model.sources, findSome?_flatMap]

/-- Every expression of a unit can be read, but for those of commands without a name. -/
structure UnitSpec.Readable (u : UnitSpec) : Prop where
  statuses : ∀ name text, (name, text) ∈ u.statusSources → ∃ tree, parse text = .ok tree
  commands : ∀ key command, (key, command) ∈ u.commands.entries → HasAlias key →
    ∀ text ∈ command.sources, ∃ tree, parse text = .ok tree

theorem UnitSpec.mem_commandSources {u : UnitSpec} {name : String} {command : CommandSpec} :
    (name, command) ∈ u.commandSources ↔
      ∃ key, (key, command) ∈ u.commands.entries ∧ name ∈ commandNames key := by
  simp only [commandSources, List.mem_flatMap, List.mem_map, Prod.mk.injEq]
  constructor
  · rintro ⟨⟨key, _⟩, entry, _, named, rfl, rfl⟩
    exact ⟨key, entry, named⟩
  · rintro ⟨key, entry, named⟩
    exact ⟨(key, command), entry, name, named, rfl, rfl⟩

theorem UnitSpec.readable_iff {u : UnitSpec} :
    u.Readable ↔ ∀ source ∈ u.sources, ∃ tree, parse source.text = .ok tree := by
  constructor
  · rintro ⟨statuses, commands⟩ source member
    rcases List.mem_append.mp member with own | later
    · obtain ⟨⟨name, text⟩, listed, rfl⟩ := List.mem_map.mp own
      exact statuses name text listed
    · obtain ⟨⟨name, command⟩, listed, member⟩ := List.mem_flatMap.mp later
      obtain ⟨text, own, rfl⟩ := List.mem_map.mp member
      obtain ⟨key, entry, named⟩ := mem_commandSources.mp listed
      have hasAlias := commandNames_ne_nil.mp (List.ne_nil_of_mem named)
      exact commands key command entry hasAlias text own
  · intro readable
    constructor
    · intro name text listed
      exact readable ⟨u.device, name, text⟩
        (List.mem_append_left _ (List.mem_map.mpr ⟨(name, text), listed, rfl⟩))
    · intro key command entry hasAlias text own
      obtain ⟨name, named⟩ := List.exists_mem_of_ne_nil _ (commandNames_ne_nil.mpr hasAlias)
      have listed := mem_commandSources.mpr ⟨key, entry, named⟩
      exact readable ⟨u.device, name, text⟩ (List.mem_append_right _
        (List.mem_flatMap.mpr ⟨(name, command), listed, List.mem_map.mpr ⟨text, own, rfl⟩⟩))

/-- The first expression of some that cannot be read is for a device and a name, and the error says
so. -/
def FirstFault (sources : List Source) (e : BridgeError) : Prop :=
  ∃ before source after error, sources = before ++ source :: after ∧
    (∀ earlier ∈ before, ∃ tree, parse earlier.text = .ok tree) ∧
    parse source.text = .error error ∧ e = .invalidExpression source.device source.name error

namespace Catalog

theorem compile_eq_error_iff {model : Model} {e : BridgeError} :
    compile model = .error e ↔ FirstFault model.sources e := by
  rw [← failure?_eq_some, failure?_compile, List.findSome?_eq_some_iff]
  simp only [Source.fault?_eq_none]
  constructor
  · rintro ⟨before, source, after, split, fault, earlier⟩
    obtain ⟨error, failed, rfl⟩ := Source.fault?_eq_some.mp fault
    exact ⟨before, source, after, error, split, earlier, failed, rfl⟩
  · rintro ⟨before, source, after, error, split, earlier, failed, rfl⟩
    exact ⟨before, source, after, split, Source.fault?_eq_some.mpr ⟨error, failed, rfl⟩, earlier⟩

theorem exists_compile_iff {model : Model} :
    (∃ c, compile model = .ok c) ↔ ∀ u ∈ model.units, u.Readable := by
  rw [← failure?_eq_none, failure?_compile, List.findSome?_eq_none_iff]
  simp only [Source.fault?_eq_none, UnitSpec.readable_iff, Model.sources, List.forall_mem_flatMap]

end Catalog

end RegisterBridge
