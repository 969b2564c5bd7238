import RegisterBridge.Proofs.Device.Staging
import RegisterBridge.Proofs.Value.Bits

namespace RegisterBridge

/-- The mask of a bit of the lower half. -/
theorem toBitVec_mask : ∀ b < 32, ((1 : Word) <<< Int64.ofNat b).toBitVec = 1#64 <<< b := by
  decide

theorem getLsbD_setBit (word : Word) {b k : Nat} (set : Bool) (lower : b < 32) (inside : k < 64) :
    (setBit word b set).toBitVec.getLsbD k = if k = b then set else word.toBitVec.getLsbD k := by
  have mask := getLsbD_one_shiftLeft (b := b) inside
  cases set with
  | true =>
    change (word ||| (1 : Word) <<< Int64.ofNat b).toBitVec.getLsbD k = _
    rw [Int64.toBitVec_or, toBitVec_mask b lower, BitVec.getLsbD_or, mask]
    by_cases same : k = b
    · rw [decide_eq_true same, Bool.or_true, if_pos same]
    · rw [decide_eq_false same, Bool.or_false, if_neg same]
  | false =>
    change (word &&& ~~~((1 : Word) <<< Int64.ofNat b)).toBitVec.getLsbD k = _
    rw [Int64.toBitVec_and, Int64.toBitVec_not, toBitVec_mask b lower, BitVec.getLsbD_and,
      BitVec.getLsbD_not, mask, decide_eq_true inside, Bool.true_and]
    by_cases same : k = b
    · rw [decide_eq_true same, Bool.not_true, Bool.and_false, if_pos same]
    · rw [decide_eq_false same, Bool.not_false, Bool.and_true, if_neg same]

theorem eq_of_getLsbD {v w : Word}
    (same : ∀ k < 64, v.toBitVec.getLsbD k = w.toBitVec.getLsbD k) : v = w :=
  Int64.toBitVec_inj.mp (BitVec.eq_of_getLsbD_eq same)

theorem setBit_comm (word : Word) {b c : Nat} (set put : Bool) (differ : b ≠ c) (lower : b < 32)
    (lower' : c < 32) : setBit (setBit word b set) c put = setBit (setBit word c put) b set := by
  refine eq_of_getLsbD fun k inside => ?_
  rw [getLsbD_setBit _ put lower' inside, getLsbD_setBit _ set lower inside,
    getLsbD_setBit _ set lower inside, getLsbD_setBit _ put lower' inside]
  by_cases same : k = c
  · rw [if_pos same, if_neg fun other => differ (other.symm.trans same), if_pos same]
  · rw [if_neg same, if_neg same]

namespace Expr

/-- A bit of a word, which a command sets and a status tests. -/
def wordBit (n : Nat) (bit : Expr) : Expr :=
  .binary .bitTest (.identifier (wordName n)) bit

def bitAssignment (n : Nat) (bit right : Expr) : Expr :=
  .binary .assign (wordBit n bit) right

theorem assign_bitAssignment {env : Environment} {n : Nat} (below : n < addressBound)
    {bit right : Expr} {place value : Value} (placed : evaluate env bit = .ok place)
    (valued : evaluate env right = .ok value) (pending : Pending) :
    (bitAssignment n bit right).assign env pending =
      .ok (.bit n place.bitIndex value.isTruthy
          (setBit (pending.wordAt n) place.bitIndex value.isTruthy),
        pending.stage n (setBit (pending.wordAt n) place.bitIndex value.isTruthy)) := by
  have target : (Expr.identifier (wordName n)).target = .ok n := by
    simp only [Expr.target, Expr.identifier?, Option.bind_some, wordIndex?_wordName below]
  rw [bitAssignment, wordBit, assign, target, placed, valued]
  rfl

end Expr

/-- A test sees the bit of the word, as long as the word has no more bits than a value keeps. -/
theorem evaluate_wordBit {s : Snapshot} {n : Nat} {word : Word}
    (set : s.words[n]? = some (some word)) (small : word.toInt.natAbs ≤ 2 ^ 53) {bit : Expr}
    {place : Value} (placed : evaluate s.environment bit = .ok place) :
    evaluate s.environment (.wordBit n bit) =
      .ok (.ofBit place.bitIndex (word.toBitVec.getLsbD place.bitIndex)) := by
  have read : evaluate s.environment (.identifier (wordName n)) = .ok (.ofWord word) :=
    evaluate_wordName set
  rw [Expr.wordBit, evaluate, read, placed]
  change Except.ok (Value.ofSigned ((Value.ofWord word).toBits &&& 1#32 <<< place.bitIndex)) = _
  rw [Value.ofSigned_and_mask, Value.getLsbD_toBits_ofWord small place.bitIndex_lt]

/-- Two assignments, each with its own names, leave the same words staged in either order. -/
def Expr.Interchange (env env' : Environment) (e e' : Expr) (pending : Pending) : Prop :=
  ∃ both, (e.assign env pending >>= fun done => e'.assign env' done.2).map (·.2) = .ok both ∧
    (e'.assign env' pending >>= fun done => e.assign env done.2).map (·.2) = .ok both

/-- What has become of a word by setting or clearing one bit of it. -/
structure WritesBit (pending : Pending) (n : Nat) (place value : Value) (word : Word) : Prop where
  bits : ∀ k < 64, word.toBitVec.getLsbD k =
    if k = place.bitIndex then value.isTruthy else (pending.wordAt n).toBitVec.getLsbD k
  /-- A status that tests the bit shows what was written. -/
  shown : word.toInt.natAbs ≤ 2 ^ 53 → ∀ (s : Snapshot) (bit : Expr),
    s.words[n]? = some (some word) → evaluate s.environment bit = .ok place →
    ∃ tested, evaluate s.environment (.wordBit n bit) = .ok tested ∧
      tested.isTruthy = value.isTruthy
  /-- A status that tests another bit does not tell the words apart. -/
  others : (pending.wordAt n).toInt.natAbs ≤ 2 ^ 53 → word.toInt.natAbs ≤ 2 ^ 53 →
    ∀ (before after : Snapshot) (bit : Expr) (other : Value),
      before.words[n]? = some (some (pending.wordAt n)) → after.words[n]? = some (some word) →
      evaluate before.environment bit = .ok other → evaluate after.environment bit = .ok other →
      other.bitIndex ≠ place.bitIndex →
      ∃ tested, evaluate before.environment (.wordBit n bit) = .ok tested ∧
        evaluate after.environment (.wordBit n bit) = .ok tested

theorem writesBit_setBit (pending : Pending) (n : Nat) (place value : Value) :
    WritesBit pending n place value
      (setBit (pending.wordAt n) place.bitIndex value.isTruthy) := by
  have bits : ∀ k < 64, (setBit (pending.wordAt n) place.bitIndex value.isTruthy).toBitVec.getLsbD k =
      if k = place.bitIndex then value.isTruthy else (pending.wordAt n).toBitVec.getLsbD k :=
    fun k inside => getLsbD_setBit _ _ place.bitIndex_lt inside
  refine ⟨bits, fun small s bit set placed => ?_, ?_⟩
  · refine ⟨_, evaluate_wordBit set small placed, ?_⟩
    rw [Value.isTruthy_ofBit _ place.bitIndex_lt, bits _ (by have := place.bitIndex_lt; omega),
      if_pos rfl]
  · intro smallBefore smallAfter before after bit other setBefore setAfter placed placed' differ
    refine ⟨_, evaluate_wordBit setBefore smallBefore placed, ?_⟩
    rw [evaluate_wordBit setAfter smallAfter placed', bits _ (by have := other.bitIndex_lt; omega),
      if_neg differ]

/-- Bits may be written in any order, in one word or in several. -/
theorem Pending.stage_setBit_comm (p : Pending) {n m b c : Nat} (set put : Bool)
    (differ : (n, b) ≠ (m, c)) (lower : b < 32) (lower' : c < 32) :
    (p.stage n (setBit (p.wordAt n) b set)).stage m
        (setBit ((p.stage n (setBit (p.wordAt n) b set)).wordAt m) c put) =
      (p.stage m (setBit (p.wordAt m) c put)).stage n
        (setBit ((p.stage m (setBit (p.wordAt m) c put)).wordAt n) b set) := by
  rw [wordAt_stage, wordAt_stage]
  by_cases same : n = m
  · subst same
    have apart : b ≠ c := fun equal => differ (by rw [equal])
    rw [if_pos rfl, if_pos rfl, stage_stage, stage_stage, setBit_comm _ set put apart lower lower']
  · rw [if_neg (Ne.symm same), if_neg same, stage_comm p same]

/-- A command that writes one bit of a word changes that bit alone, and a status that tests it
agrees, as far as the word has no more bits than a value keeps. Writes of different bits do not
interfere. -/
theorem bit_write_agrees {env : Environment} {n : Nat} (below : n < addressBound) {bit right : Expr}
    {place value : Value} (placed : evaluate env bit = .ok place)
    (valued : evaluate env right = .ok value) (pending : Pending) :
    (∃ word, (Expr.bitAssignment n bit right).assign env pending =
        .ok (.bit n place.bitIndex value.isTruthy word, pending.stage n word) ∧
      WritesBit pending n place value word) ∧
    ∀ (env' : Environment) (m : Nat) (bit' right' : Expr) (place' value' : Value),
      m < addressBound → evaluate env' bit' = .ok place' → evaluate env' right' = .ok value' →
      (n, place.bitIndex) ≠ (m, place'.bitIndex) →
      Expr.Interchange env env' (.bitAssignment n bit right) (.bitAssignment m bit' right')
        pending := by
  constructor
  · exact ⟨_, Expr.assign_bitAssignment below placed valued pending,
      writesBit_setBit pending n place value⟩
  · intro env' m bit' right' place' value' below' placed' valued' differ
    have order := pending.stage_setBit_comm value.isTruthy value'.isTruthy differ place.bitIndex_lt
      place'.bitIndex_lt
    have first := Expr.assign_bitAssignment below placed valued
    have second := Expr.assign_bitAssignment below' placed' valued'
    refine ⟨(pending.stage n (setBit (pending.wordAt n) place.bitIndex value.isTruthy)).stage m
      (setBit ((pending.stage n (setBit (pending.wordAt n) place.bitIndex
        value.isTruthy)).wordAt m) place'.bitIndex value'.isTruthy), ?_, ?_⟩
    · rw [first]
      exact congrArg (Except.map (·.2)) (second _)
    · rw [second, order]
      exact congrArg (Except.map (·.2)) (first _)

/-- The top bit of the lower half, which a negative text names, is set in a negative word, before
or after a lower one is cleared. -/
theorem top_bit_write_agrees :
    2 < addressBound ∧ (Value.text " -1 ").bitIndex = 31 ∧ (Value.number 35).bitIndex = 3 ∧
    evaluate (fun _ => none) (.literal (.text " -1 ")) = .ok (.text " -1 ") ∧
    evaluate (fun _ => none) (.literal (.number 1)) = .ok (.number 1) ∧
    evaluate (fun _ => none) (.literal (.number 35)) = .ok (.number 35) ∧
    (Pending.empty.stage 2 (-4294967284)).wordAt 2 = -4294967284 ∧
    (∃ word, (Expr.bitAssignment 2 (.literal (.text " -1 ")) (.literal (.number 1))).assign
        (fun _ => none) (Pending.empty.stage 2 (-4294967284)) =
          .ok (.bit 2 (Value.text " -1 ").bitIndex (Value.number 1).isTruthy word,
            (Pending.empty.stage 2 (-4294967284)).stage 2 word) ∧
      WritesBit (Pending.empty.stage 2 (-4294967284)) 2 (.text " -1 ") (.number 1) word) ∧
    Expr.Interchange (fun _ => none) (fun _ => none)
      (.bitAssignment 2 (.literal (.text " -1 ")) (.literal (.number 1)))
      (.bitAssignment 2 (.literal (.number 35)) (.literal (.text "")))
      (Pending.empty.stage 2 (-4294967284)) := by
  have apart : (2, (Value.text " -1 ").bitIndex) ≠ (2, (Value.number 35).bitIndex) := by
    decide +kernel
  have placed : evaluate (fun _ => none) (.literal (.text " -1 ")) = .ok (.text " -1 ") := rfl
  have valued : evaluate (fun _ => none) (.literal (.number 1)) = .ok (.number 1) := rfl
  obtain ⟨written, interchange⟩ := bit_write_agrees (n := 2) (by decide) placed valued
    (Pending.empty.stage 2 (-4294967284))
  exact ⟨by decide, by decide +kernel, by decide +kernel, placed, valued, rfl, by decide, written,
    interchange _ 2 _ _ _ _ (by decide) rfl rfl apart⟩

end RegisterBridge
