import Mathlib.Data.List.Perm.Basic
import RegisterBridge.Proofs.Device.Commands
import RegisterBridge.Proofs.Word.Runs

namespace RegisterBridge

namespace Pending

/-- Whatever is staged in one is staged in the other, though perhaps with another word. -/
def Within (p q : Pending) : Prop :=
  ∀ i, (p.get? i).isSome → (q.get? i).isSome

theorem Within.refl (p : Pending) : p.Within p :=
  fun _ staged => staged

theorem Within.trans {p q r : Pending} (first : p.Within q) (second : q.Within r) : p.Within r :=
  fun i staged => second i (first i staged)

theorem within_stage (p : Pending) (index : Nat) (word : Word) : p.Within (p.stage index word) := by
  intro i staged
  rw [get?_stage]
  by_cases own : i = index
  · rw [if_pos own]
    rfl
  · rwa [if_neg own]

/-- What is staged at each address is all that there is. -/
theorem ext_get? {p q : Pending} (same : ∀ i, p.get? i = q.get? i) : p = q := by
  have subset : ∀ {p q : Pending}, (∀ i, p.get? i = q.get? i) → ∀ entry ∈ p.entries,
      entry ∈ q.entries := by
    rintro p q same ⟨i, word⟩ member
    exact mem_of_lookup_eq_some ((same i).symm.trans (lookup_eq_some_of_mem p.ascending member))
  have distinct : ∀ p : Pending, p.entries.Nodup := fun p =>
    p.ascending.imp fun below same => Nat.ne_of_lt below (congrArg Prod.fst same)
  have perm : p.entries.Perm q.entries :=
    (List.perm_ext_iff_of_nodup (distinct p) (distinct q)).mpr fun entry =>
      ⟨subset same entry, subset (fun i => (same i).symm) entry⟩
  refine ext_entries (perm.eq_of_pairwise ?_ p.ascending q.ascending)
  intro a b _ _ below above
  exact absurd above (Nat.lt_asymm below)

theorem isSome_get?_stage (p : Pending) (index : Nat) (word : Word) (i : Nat) :
    ((p.stage index word).get? i).isSome = true ↔ (p.get? i).isSome = true ∨ i = index := by
  rw [get?_stage]
  by_cases own : i = index
  · rw [if_pos own]
    exact iff_of_true rfl (Or.inr own)
  · rw [if_neg own]
    exact (or_iff_left own).symm

theorem wordAt_stage (p : Pending) (index : Nat) (word : Word) (i : Nat) :
    (p.stage index word).wordAt i = if i = index then word else p.wordAt i := by
  rw [wordAt, get?_stage]
  split <;> rfl

theorem stage_comm (p : Pending) {i j : Nat} (differ : i ≠ j) (word other : Word) :
    (p.stage i word).stage j other = (p.stage j other).stage i word := by
  refine ext_get? fun k => ?_
  simp only [get?_stage]
  by_cases same : k = j
  · rw [if_pos same, if_neg fun here => differ (here.symm.trans same), if_pos same]
  · rw [if_neg same, if_neg same]

theorem stage_stage (p : Pending) (i : Nat) (word other : Word) :
    (p.stage i word).stage i other = p.stage i other := by
  refine ext_get? fun k => ?_
  simp only [get?_stage]
  by_cases same : k = i
  · rw [if_pos same, if_pos same]
  · rw [if_neg same, if_neg same, if_neg same]

end Pending

theorem Expr.within_of_assign {env : Environment} {e : Expr} {p q : Pending} {mutation : Mutation}
    (assigned : e.assign env p = .ok (mutation, q)) : p.Within q := by
  unfold assign at assigned
  split at assigned
  · obtain ⟨index, -, rest⟩ := bind_eq_ok.mp assigned
    obtain ⟨value, -, made⟩ := bind_eq_ok.mp rest
    cases made
    exact p.within_stage _ _
  · obtain ⟨index, -, rest⟩ := bind_eq_ok.mp assigned
    obtain ⟨bit, -, rest⟩ := bind_eq_ok.mp rest
    obtain ⟨value, -, made⟩ := bind_eq_ok.mp rest
    cases made
    exact p.within_stage _ _
  · cases assigned

theorem within_assignAll (env : Environment) (formulas : List Formula) (p : Pending) :
    p.Within (assignAll env formulas p).2 := by
  induction formulas generalizing p with
  | nil => exact .refl p
  | cons formula rest ih =>
    unfold assignAll
    cases assigned : formula.tree.assign env p with
    | error failure => exact ih p
    | ok result => exact (Expr.within_of_assign assigned).trans (ih result.2)

theorem DeviceUnit.within_of_resolve {u : DeviceUnit} {command : String} {current : Option String}
    {p q : Pending} {resolution : Resolution}
    (resolved : u.resolve command current p = .ok (resolution, q)) : p.Within q := by
  unfold resolve at resolved
  cases found : u.findCommand? command current with
  | none =>
    rw [found] at resolved
    cases resolved
  | some formulas =>
    rw [found] at resolved
    have staged := within_assignAll (u.commandEnvironment current) formulas p
    rwa [Except.ok.inj resolved] at staged

theorem Raw.within_of_write {m : Message} {p q : Pending} (wrote : Raw.write m p = .ok q) :
    p.Within q := by
  unfold write at wrote
  split at wrote
  · cases wrote
  · split at wrote
    · cases wrote
    · cases wrote
      exact p.within_stage _ _
    · split at wrote
      · simp only at wrote
        split at wrote
        · cases wrote
          exact (p.within_stage _ _).trans (Pending.within_stage _ _ _)
        · cases wrote
          exact p.within_stage _ _
      · cases wrote

namespace Processor

theorem within_of_execute {p : Processor} {device command : String} {current : Option String}
    {pending left : Pending} {resolution : Resolution}
    (done : p.execute device command current pending = .ok (resolution, left)) :
    pending.Within left := by
  unfold execute at done
  split at done
  · split at done
    · exact DeviceUnit.within_of_resolve done
    · cases done
  · cases done

/-- A message stages words and takes none back. -/
theorem within_of_onMessage {p next : Processor} {m : Message} {pending left : Pending}
    (done : p.onMessage m pending = .ok (next, left)) : pending.Within left := by
  unfold onMessage at done
  split at done
  · obtain ⟨request, -, rest⟩ := bind_eq_ok.mp done
    cases request with
    | status device =>
      cases rest
      exact .refl pending
    | command device command current =>
      obtain ⟨result, executed, made⟩ := bind_eq_ok.mp rest
      cases made
      exact within_of_execute executed
  · split at done
    · cases done
      exact .refl pending
    · cases wrote : Raw.write m pending with
      | error failure =>
        rw [wrote] at done
        cases done
      | ok staged =>
        rw [wrote] at done
        cases done
        exact Raw.within_of_write wrote

end Processor

end RegisterBridge
