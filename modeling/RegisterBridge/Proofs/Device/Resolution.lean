import RegisterBridge.Bridge.Basic
import RegisterBridge.Proofs.Device.Commands

namespace RegisterBridge

namespace Pending

/-- Stages the words of mutations, one after another. -/
def stageAll (p : Pending) (mutations : List Mutation) : Pending :=
  mutations.foldl (fun p mutation => p.stage mutation.index mutation.staged) p

theorem get?_stageAll_of_ne {mutations : List Mutation} {i : Nat}
    (untouched : ∀ mutation ∈ mutations, mutation.index ≠ i) (p : Pending) :
    (p.stageAll mutations).get? i = p.get? i := by
  induction mutations generalizing p with
  | nil => rfl
  | cons mutation rest ih =>
    have later := ih (fun other member => untouched other (List.mem_cons_of_mem _ member))
      (p.stage mutation.index mutation.staged)
    refine later.trans ?_
    rw [get?_stage, if_neg (untouched mutation List.mem_cons_self).symm]

end Pending

namespace Resolution

/-- What one resolution reports and then what another does. -/
def append (r s : Resolution) : Resolution :=
  ⟨r.mutations ++ s.mutations, r.failures ++ s.failures⟩

instance : Append Resolution := ⟨append⟩

theorem append_assoc (r s t : Resolution) : r ++ s ++ t = r ++ (s ++ t) :=
  congrArg₂ Resolution.mk (List.append_assoc ..) (List.append_assoc ..)

theorem append_nothing (r : Resolution) : r ++ ⟨[], []⟩ = r :=
  congrArg₂ Resolution.mk (List.append_nil _) (List.append_nil _)

end Resolution

/-- A mutation names the word that is staged and where. -/
theorem Expr.pending_of_assign {env : Environment} {e : Expr} {p q : Pending} {mutation : Mutation}
    (assigned : e.assign env p = .ok (mutation, q)) :
    q = p.stage mutation.index mutation.staged := by
  unfold assign at assigned
  split at assigned
  · obtain ⟨index, -, rest⟩ := bind_eq_ok.mp assigned
    obtain ⟨value, -, made⟩ := bind_eq_ok.mp rest
    cases made
    rfl
  · obtain ⟨index, -, rest⟩ := bind_eq_ok.mp assigned
    obtain ⟨bit, -, rest⟩ := bind_eq_ok.mp rest
    obtain ⟨value, -, made⟩ := bind_eq_ok.mp rest
    cases made
    rfl
  · cases assigned

/-- What one expression of a command reports and leaves staged. -/
def attempt (env : Environment) (formula : Formula) (pending : Pending) : Resolution × Pending :=
  match formula.tree.assign env pending with
  | .ok (mutation, left) => (⟨[mutation], []⟩, left)
  | .error failure => (⟨[], [failure]⟩, pending)

theorem assignAll_cons (env : Environment) (formula : Formula) (rest : List Formula)
    (pending : Pending) : assignAll env (formula :: rest) pending =
      ((attempt env formula pending).1 ++ (assignAll env rest (attempt env formula pending).2).1,
        (assignAll env rest (attempt env formula pending).2).2) := by
  rw [assignAll, attempt]
  cases formula.tree.assign env pending <;> rfl

/-- The expressions of a command may be resolved in two parts, the second on what the first has
left. -/
theorem assignAll_append (env : Environment) (first second : List Formula) (pending : Pending) :
    assignAll env (first ++ second) pending =
      ((assignAll env first pending).1 ++ (assignAll env second (assignAll env first pending).2).1,
        (assignAll env second (assignAll env first pending).2).2) := by
  induction first generalizing pending with
  | nil => rfl
  | cons formula first ih =>
    rw [List.cons_append, assignAll_cons, ih, assignAll_cons, Resolution.append_assoc]

theorem assignAll_concat (env : Environment) (before : List Formula) (formula : Formula)
    (pending : Pending) : assignAll env (before ++ [formula]) pending =
      ((assignAll env before pending).1 ++ (attempt env formula (assignAll env before pending).2).1,
        (attempt env formula (assignAll env before pending).2).2) := by
  rw [assignAll_append, assignAll_cons]
  exact congrArg (Prod.mk · _) (congrArg _ (Resolution.append_nothing _))

theorem assignAll_length (env : Environment) (formulas : List Formula) (pending : Pending) :
    (assignAll env formulas pending).1.mutations.length +
      (assignAll env formulas pending).1.failures.length = formulas.length := by
  induction formulas generalizing pending with
  | nil => rfl
  | cons formula rest ih =>
    have later := ih (attempt env formula pending).2
    have one : (attempt env formula pending).1.mutations.length +
        (attempt env formula pending).1.failures.length = 1 := by
      unfold attempt
      cases formula.tree.assign env pending <;> rfl
    rw [assignAll_cons, List.length_cons, ← later]
    change (_ ++ _ : List Mutation).length + (_ ++ _ : List BridgeError).length = _
    rw [List.length_append, List.length_append]
    omega

/-- Exactly what is reported has been staged. -/
theorem assignAll_staged (env : Environment) (formulas : List Formula) (pending : Pending) :
    (assignAll env formulas pending).2 =
      pending.stageAll (assignAll env formulas pending).1.mutations := by
  induction formulas generalizing pending with
  | nil => rfl
  | cons formula rest ih =>
    have here : (attempt env formula pending).2 =
        pending.stageAll (attempt env formula pending).1.mutations := by
      unfold attempt
      cases assigned : formula.tree.assign env pending with
      | error failure => rfl
      | ok result => exact Expr.pending_of_assign assigned
    rw [assignAll_cons]
    change _ = pending.stageAll (_ ++ _)
    rw [ih, Pending.stageAll, Pending.stageAll, List.foldl_append, here]
    rfl

/-- The expressions of a command have been carried out one by one. -/
structure Carried (env : Environment) (formulas : List Formula) (pending : Pending)
    (resolution : Resolution) (left : Pending) : Prop where
  reported : resolution.mutations.length + resolution.failures.length = formulas.length
  staged : left = pending.stageAll resolution.mutations
  untouched : ∀ i, (∀ mutation ∈ resolution.mutations, mutation.index ≠ i) →
    left.get? i = pending.get? i
  /-- An expression that fails is reported, and nothing else happens. -/
  failed : ∀ before formula failure, before ++ [formula] <+: formulas →
    formula.tree.assign env (assignAll env before pending).2 = .error failure →
    assignAll env (before ++ [formula]) pending =
      ((assignAll env before pending).1 ++ ⟨[], [failure]⟩, (assignAll env before pending).2)
  succeeded : ∀ before formula mutation next, before ++ [formula] <+: formulas →
    formula.tree.assign env (assignAll env before pending).2 = .ok (mutation, next) →
    assignAll env (before ++ [formula]) pending =
      ((assignAll env before pending).1 ++ ⟨[mutation], []⟩,
        (assignAll env before pending).2.stage mutation.index mutation.staged)
  splits : ∀ first second, formulas = first ++ second →
    resolution = (assignAll env first pending).1 ++
      (assignAll env second (assignAll env first pending).2).1 ∧
    left = (assignAll env second (assignAll env first pending).2).2

theorem carried_assignAll (env : Environment) (formulas : List Formula) (pending : Pending) :
    Carried env formulas pending (assignAll env formulas pending).1
      (assignAll env formulas pending).2 := by
  constructor
  · exact assignAll_length env formulas pending
  · exact assignAll_staged env formulas pending
  · intro i untouched
    rw [assignAll_staged]
    exact Pending.get?_stageAll_of_ne untouched pending
  · intro before formula failure _ fails
    rw [assignAll_concat, attempt, fails]
  · intro before formula mutation next _ succeeds
    rw [assignAll_concat, attempt, succeeds, ← Expr.pending_of_assign succeeds]
  · rintro first second rfl
    rw [assignAll_append]
    exact ⟨rfl, rfl⟩

/-- The names under which a command is looked up, in order. -/
def commandKeys (command : String) (current : Option String) : List String :=
  command :: match current with
    | none => []
    | some text =>
      derivedCommand command text :: (toggleToken? text).toList.map (derivedCommand command)

namespace DeviceUnit

theorem findCommand?_eq (u : DeviceUnit) (command : String) (current : Option String) :
    u.findCommand? command current = (commandKeys command current).findSome? u.commands.get? := by
  have either : ∀ (key : String) (keys : List String), (key :: keys).findSome? u.commands.get? =
      (u.commands.get? key).or (keys.findSome? u.commands.get?) := by
    intro key keys
    rw [List.findSome?_cons]
    cases u.commands.get? key <;> rfl
  cases current with
  | none => simp [commandKeys, findCommand?]
  | some text =>
    cases token : toggleToken? text with
    | none => simp [commandKeys, findCommand?, token, either]
    | some word => simp [commandKeys, findCommand?, token, either]

/-- What a command has led to, whether or not it is found under one of its names. -/
structure Resolves (u : DeviceUnit) (command : String) (current : Option String)
    (pending : Pending) (result : Except BridgeError (Resolution × Pending)) : Prop where
  unknown : (∀ key ∈ commandKeys command current, u.commands.get? key = none) →
    result = .error (.unknownCommand u.device command)
  /-- A bridge that is asked for an unknown command stays as it is, with all that is staged. -/
  ignored : result = .error (.unknownCommand u.device command) →
    ∀ (b : Bridge) (m : Message), (∃ c tracker, b.processor.mode = .mapped c tracker ∧
        c.unitOf? u.device = some u) →
      m.request = .ok (.command u.device command current) → b.pending = pending →
      b.handleMessage m = (b, .ok ())
  known : ∀ formulas, (commandKeys command current).findSome? u.commands.get? = some formulas →
    ∃ resolution left, result = .ok (resolution, left) ∧
      Carried (u.commandEnvironment current) formulas pending resolution left

/-- A command is refused as a whole or carried out expression by expression. -/
theorem resolve_atomic (u : DeviceUnit) (command : String) (current : Option String)
    (pending : Pending) :
    u.Resolves command current pending (u.resolve command current pending) := by
  have lookup := u.findCommand?_eq command current
  constructor
  · intro absent
    rw [resolve, lookup, List.findSome?_eq_none_iff.mpr absent]
  · rintro refused b m ⟨c, tracker, mode, found⟩ asked rfl
    have executed : b.processor.execute u.device command current b.pending =
        .error (.unknownCommand u.device command) := by
      simp only [Processor.execute, mode, found, refused]
    have rejected : b.processor.onMessage m b.pending =
        .error (.unknownCommand u.device command) := by
      simp only [Processor.onMessage, mode, asked]
      change (b.processor.execute u.device command current b.pending >>= _) = _
      rw [executed]
      rfl
    rw [Bridge.handleMessage, rejected]
    rfl
  · intro formulas found
    refine ⟨_, _, ?_, carried_assignAll (u.commandEnvironment current) formulas pending⟩
    rw [resolve, lookup, found]

end DeviceUnit

end RegisterBridge
