import RegisterBridge.Proofs.Device.Compilation
import RegisterBridge.Proofs.Expr.PrintedForm
import RegisterBridge.Proofs.Word.Environment

namespace RegisterBridge

theorem parse_of_lexes {source : String} {tokens : List Token} {e : Expr}
    (lexes : Token.Lexes source.toList tokens) (derived : Derives .assignment tokens e) :
    parse source = .ok e := by
  obtain ⟨placed, scanned, row⟩ := lexes 0
  have tokenized : tokenize source = .ok placed := by rw [tokenize, scanned]
  rw [parse, tokenized]
  exact (row ▸ derived : Derives .assignment (placed.map (·.token)) e).parseTokens _

/-- The name of a word is an identifier wherever the text goes on with a blank or ends. -/
theorem lexes_wordName (i : Nat) {rest : List Char} {tokens : List Token} (ends : EndsToken rest)
    (lexes : Token.Lexes rest tokens) :
    Token.Lexes ((wordName i).toList ++ rest) (.identifier (wordName i) :: tokens) := by
  have isName : IsName (wordName i).toList := by
    rw [toList_wordName]
    refine ⟨⟨'W', rfl, by decide⟩, fun c member => ?_⟩
    rcases List.mem_cons.mp member with rfl | digit
    · decide
    · simp [isNamePart, isDigit_of_mem_toDigits digit]
  have noWord : ∀ word : String, word.toList.head? ≠ some 'W' → wordName i ≠ word := by
    rintro word differs rfl
    exact differs (by rw [toList_wordName]; rfl)
  exact Token.lexes_identifier isName (noWord "true" (by decide)) (noWord "false" (by decide)) ends
    lexes

theorem endsToken_nil : EndsToken [] := fun c head => by cases head

theorem parse_wordName (i : Nat) : parse (wordName i) = .ok (.identifier (wordName i)) := by
  have lexes := lexes_wordName i endsToken_nil Token.lexes_nil
  rw [List.append_nil] at lexes
  exact parse_of_lexes lexes (Derives.identifier (wordName i)).assignment_of_any

/-- The source of a command that sets a word to its value. -/
def assignmentSource (i : Nat) : String :=
  wordName i ++ " = current"

theorem parse_assignmentSource (i : Nat) : parse (assignmentSource i) =
    .ok (.binary .assign (.identifier (wordName i)) (.identifier "current")) := by
  have isName : IsName "current".toList := isName_of_all (by decide) (by decide)
  have blank : ∀ text, EndsToken (' ' :: text) := fun text c head => by
    cases head
    exact Or.inl rfl
  have value := Token.lexes_identifier isName (by decide) (by decide) endsToken_nil Token.lexes_nil
  have sign := Token.lexes_blank (Token.lexes_operator .assign value)
  have whole := lexes_wordName i (blank _) sign
  have source : (assignmentSource i).toList =
      (wordName i).toList ++ ' ' :: (BinaryOp.assign.symbol.toList ++ ' ' ::
        ("current".toList ++ [])) := by
    rw [assignmentSource, String.toList_append]
    rfl
  rw [← source] at whole
  exact parse_of_lexes whole (.assign
    ((Derives.identifier (wordName i)).conditional_of_strength (by decide))
    (Derives.identifier "current").assignment_of_any)

theorem forall₂_of_mapM {ε α β : Type} {f : α → Except ε β} {as : List α} {bs : List β}
    (run : as.mapM f = .ok bs) : List.Forall₂ (fun a b => f a = .ok b) as bs := by
  induction as generalizing bs with
  | nil =>
    rw [List.mapM_nil] at run
    cases run
    exact .nil
  | cons a as ih =>
    rw [List.mapM_cons] at run
    obtain ⟨b, head, run⟩ := bind_eq_ok.mp run
    obtain ⟨rest, tail, whole⟩ := bind_eq_ok.mp run
    cases whole
    exact .cons head (ih tail)

theorem exists_of_forall₂ {α β : Type} {R : α → β → Prop} {as : List α} {bs : List β}
    (related : List.Forall₂ R as bs) {a : α} (member : a ∈ as) : ∃ b ∈ bs, R a b := by
  induction related with
  | nil => exact absurd member List.not_mem_nil
  | cons head _ ih =>
    rcases List.mem_cons.mp member with rfl | later
    · exact ⟨_, List.mem_cons_self, head⟩
    · obtain ⟨b, listed, same⟩ := ih later
      exact ⟨b, List.mem_cons_of_mem _ listed, same⟩

namespace OrderedMap

variable {κ α β : Type} [DecidableEq κ] {R : α → β → Prop}

/-- Whatever a map has under a key, another has something related there. -/
def Refines (R : α → β → Prop) (m : OrderedMap κ α) (m' : OrderedMap κ β) : Prop :=
  ∀ key a, m.get? key = some a → ∃ b, m'.get? key = some b ∧ R a b

theorem Refines.insert {m : OrderedMap κ α} {m' : OrderedMap κ β} (refines : Refines R m m')
    {a : α} {b : β} (value : R a b) (key : κ) : Refines R (m.insert key a) (m'.insert key b) := by
  intro k found present
  rw [get?_insert] at present ⊢
  by_cases own : k = key
  · rw [if_pos own] at present ⊢
    cases present
    exact ⟨b, rfl, value⟩
  · rw [if_neg own] at present ⊢
    exact refines k found present

theorem Refines.ofList {as : List (κ × α)} {bs : List (κ × β)}
    (related : List.Forall₂ (fun a b => a.1 = b.1 ∧ R a.2 b.2) as bs) :
    Refines R (ofList as) (ofList bs) := by
  refine List.rel_foldl (P := Refines R) ?_ ?_ related
  · rintro m m' refines ⟨key, a⟩ ⟨_, b⟩ ⟨rfl, value⟩
    exact refines.insert value key
  · intro key a present
    cases present

end OrderedMap

namespace DeviceUnit

theorem parse_of_compileFormula {device name source : String} {formula : Formula}
    (read : compileFormula device name source = .ok formula) :
    Formula.parse source = .ok formula := by
  unfold compileFormula at read
  cases parsed : Formula.parse source with
  | error failure =>
    rw [parsed] at read
    cases read
  | ok tree =>
    rw [parsed] at read
    cases read
    rfl

theorem parse_tree {source : String} {formula : Formula}
    (parsed : Formula.parse source = .ok formula) : parse source = .ok formula.tree := by
  unfold Formula.parse at parsed
  cases read : parse source with
  | error failure =>
    rw [read] at parsed
    cases parsed
  | ok tree =>
    rw [read] at parsed
    cases parsed
    rfl

theorem compileFormula_eq_ok {device name source : String} {formula : Formula}
    (read : compileFormula device name source = .ok formula) :
    parse source = .ok formula.tree :=
  parse_tree (parse_of_compileFormula read)

theorem compile_settings {firstId : Nat} {spec : UnitSpec} {unit : DeviceUnit}
    (run : compile firstId spec = .ok unit) :
    unit.scaling = Scaling.ofSpec? spec ∧ unit.multiplier = spec.multiplier ∧
      unit.overflow = spec.overflow := by
  obtain ⟨statuses, -, run⟩ := bind_eq_ok.mp run
  obtain ⟨commands, -, run⟩ := bind_eq_ok.mp run
  cases run
  exact ⟨rfl, rfl, rfl⟩

theorem exists_status_of_compile {firstId : Nat} {spec : UnitSpec} {unit : DeviceUnit}
    (run : compile firstId spec = .ok unit) {name source : String}
    (listed : (name, source) ∈ spec.statusSources) :
    ∃ status ∈ unit.statuses, status.name = name ∧ parse source = .ok status.formula.tree := by
  obtain ⟨statuses, read, run⟩ := bind_eq_ok.mp run
  obtain ⟨commands, -, run⟩ := bind_eq_ok.mp run
  cases run
  obtain ⟨i, place⟩ := List.mem_iff_getElem?.mp listed
  have placed : ((name, source), i) ∈ spec.statusSources.zipIdx :=
    List.mem_zipIdx_iff_getElem?.mpr place
  obtain ⟨status, member, made⟩ := exists_of_forall₂ (forall₂_of_mapM read) placed
  obtain ⟨formula, parsed, made⟩ := bind_eq_ok.mp made
  cases made
  exact ⟨_, member, rfl, compileFormula_eq_ok parsed⟩

/-- The formulas of a command are what its sources are parsed to, one by one. -/
def Reads (command : CommandSpec) (formulas : List Formula) : Prop :=
  List.Forall₂ (fun source formula => parse source = .ok formula.tree) command.sources formulas

/-- The formulas of a command are what its sources are read as, one by one. -/
def Forms (command : CommandSpec) (formulas : List Formula) : Prop :=
  List.Forall₂ (fun source formula => Formula.parse source = .ok formula) command.sources formulas

theorem exists_commands_of_compile {firstId : Nat} {spec : UnitSpec} {unit : DeviceUnit}
    (run : compile firstId spec = .ok unit) :
    ∃ commands, unit.commands = .ofList commands ∧
      List.Forall₂ (fun source command => source.1 = command.1 ∧ Forms source.2 command.2)
        spec.commandSources commands := by
  obtain ⟨statuses, -, run⟩ := bind_eq_ok.mp run
  obtain ⟨commands, read, run⟩ := bind_eq_ok.mp run
  cases run
  refine ⟨commands, rfl, (forall₂_of_mapM read).imp ?_⟩
  rintro ⟨name, command⟩ ⟨name', formulas⟩ made
  obtain ⟨formulas, parsed, made⟩ := bind_eq_ok.mp made
  cases made
  exact ⟨rfl, (forall₂_of_mapM parsed).imp fun source formula => parse_of_compileFormula⟩

theorem reads_of_compile {firstId : Nat} {spec : UnitSpec} {unit : DeviceUnit}
    (run : compile firstId spec = .ok unit) {name : String} {command : CommandSpec}
    (listed : (OrderedMap.ofList spec.commandSources).get? name = some command) :
    ∃ formulas, unit.commands.get? name = some formulas ∧ Reads command formulas := by
  obtain ⟨commands, made, related⟩ := exists_commands_of_compile run
  obtain ⟨formulas, found, forms⟩ := OrderedMap.Refines.ofList related name command listed
  rw [made]
  exact ⟨formulas, found, forms.imp fun source formula => parse_tree⟩

end DeviceUnit

theorem Catalog.Built.exists_unit {specs : List UnitSpec} {c : Catalog} (built : Built specs c)
    {spec : UnitSpec} (listed : spec ∈ specs) :
    ∃ firstId, ∃ unit ∈ c.units, DeviceUnit.compile firstId spec = .ok unit := by
  induction built with
  | empty => exact absurd listed List.not_mem_nil
  | add previous added ih =>
    obtain ⟨new, compiled, units, -⟩ := add_units added
    rw [units]
    rcases List.mem_append.mp listed with old | last
    · obtain ⟨firstId, unit, member, run⟩ := ih old
      exact ⟨firstId, unit, List.mem_append_left _ member, run⟩
    · rw [List.mem_singleton.mp last]
      exact ⟨_, new, List.mem_append_right _ (List.mem_singleton_self new), compiled⟩

/-- The unit that comes of the sources `W<i> = current` and `W<i>`. -/
theorem Catalog.exists_of_sources {model : Model} {c : Catalog}
    (compiled : Catalog.compile model = .ok c) {spec : UnitSpec} (listed : spec ∈ model.units)
    {i : Nat} {command name : String} {single : CommandSpec}
    (sets : (OrderedMap.ofList spec.commandSources).get? command = some single)
    (source : single.sources = [assignmentSource i])
    (shows : (name, wordName i) ∈ spec.statusSources) :
    ∃ unit ∈ c.units, unit.device = spec.device ∧ unit.scaling = Scaling.ofSpec? spec ∧
      unit.multiplier = spec.multiplier ∧ unit.overflow = spec.overflow ∧
      (∃ formula, unit.commands.get? command = some [formula] ∧
        formula.tree = .binary .assign (.identifier (wordName i)) (.identifier "current")) ∧
      ∃ status ∈ unit.statuses, status.name = name ∧
        status.formula.tree = .identifier (wordName i) := by
  obtain ⟨firstId, unit, member, run⟩ := (Catalog.built_of_compile compiled).exists_unit listed
  obtain ⟨scaling, multiplier, overflow⟩ := DeviceUnit.compile_settings run
  obtain ⟨status, statusMember, named, shown⟩ := DeviceUnit.exists_status_of_compile run shows
  obtain ⟨formulas, found, read⟩ := DeviceUnit.reads_of_compile run sets
  rw [DeviceUnit.Reads, source] at read
  obtain ⟨formula, rest, assigned, ended, rfl⟩ := List.forall₂_cons_left_iff.mp read
  cases ended
  have tree := Except.ok.inj (assigned.symm.trans (parse_assignmentSource i))
  have shownTree := Except.ok.inj (shown.symm.trans (parse_wordName i))
  exact ⟨unit, member, DeviceUnit.compile_device run, scaling, multiplier, overflow,
    ⟨formula, found, tree⟩, status, statusMember, named, shownTree⟩

end RegisterBridge
