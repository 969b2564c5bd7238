import RegisterBridge.Proofs.Device.BitWrites
import RegisterBridge.Proofs.Device.RawWords

namespace RegisterBridge

/-- The name of a bit whose neighbouring word tells that it is meant. -/
def bitName (word bit : Nat) : String :=
  "WBIT" ++ toString word ++ "#" ++ toString bit

theorem toList_bitName (word bit : Nat) :
    (bitName word bit).toList =
      'W' :: 'B' :: 'I' :: 'T' :: (Nat.toDigits 10 word ++ '#' :: Nat.toDigits 10 bit) := by
  simp only [bitName, String.toList_append, Nat.toString_eq_repr, Nat.toList_repr]
  simp

/-- A bit has a name as long as it is in the lower half and there is a word after its own. -/
theorem RawTarget.ofDevice?_bitName (word bit : Nat) :
    ofDevice? (bitName word bit) =
      if word + 1 < addressBound ∧ bit < 32 then some (.bit word bit) else none := by
  have digits : ∀ c ∈ Nat.toDigits 10 word, decide (c ≠ '#') = true := by
    intro c member
    refine decide_eq_true ?_
    rintro rfl
    cases isDigit_of_mem_toDigits member
  have own : (Nat.toDigits 10 word ++ '#' :: Nat.toDigits 10 bit).takeWhile (· ≠ '#') =
      Nat.toDigits 10 word := takeWhile_append_stop digits (by simp)
  have after : (Nat.toDigits 10 word ++ '#' :: Nat.toDigits 10 bit).dropWhile (· ≠ '#') =
      '#' :: Nat.toDigits 10 bit := dropWhile_append_stop digits (by simp)
  simp only [ofDevice?, toList_bitName, own, after, readDigits?_toDigits]
  have below : word < addressBound - 1 ↔ word + 1 < addressBound := by omega
  by_cases within : word + 1 < addressBound
  · rw [if_pos (below.mpr within)]
    by_cases lower : bit < 32
    · rw [if_pos lower, if_pos ⟨within, lower⟩]
      rfl
    · rw [if_neg lower, if_neg (not_and_of_not_right _ lower)]
      rfl
  · rw [if_neg (mt below.mp within), if_neg (not_and_of_not_left _ within)]
    rfl

/-- What a message asks of a bit: to set it in the word after its own, and in its own word if it is
to be on. -/
structure BitWrite where
  word : Nat
  bit : Nat
  on : Bool
deriving DecidableEq

/-- The words in which a write sets its bit. -/
def BitWrite.Reaches (w : BitWrite) (k : Nat) : Prop :=
  k = w.word + 1 ∨ w.on = true ∧ k = w.word

instance (w : BitWrite) (k : Nat) : Decidable (w.Reaches k) :=
  inferInstanceAs (Decidable (_ ∨ _))

/-- The write of a message to a bit. -/
def Message.bitWrite? (m : Message) : Option BitWrite :=
  if m.isStatusRequest then none
  else
    match m.body.device.bind RawTarget.ofDevice? with
    | some (.bit word bit) => some ⟨word, bit, m.valueText.any isOn⟩
    | _ => none

/-- The bits that some writes set in a word. -/
def maskAt (k : Nat) : List BitWrite → Word
  | [] => 0
  | w :: rest => if w.Reaches k then 1 <<< Int64.ofNat w.bit ||| maskAt k rest else maskAt k rest

theorem maskAt_cons (k : Nat) (w : BitWrite) (rest : List BitWrite) :
    maskAt k (w :: rest) =
      if w.Reaches k then 1 <<< Int64.ofNat w.bit ||| maskAt k rest else maskAt k rest := rfl

theorem maskAt_singleton (k : Nat) (w : BitWrite) :
    maskAt k [w] = if w.Reaches k then 1 <<< Int64.ofNat w.bit else 0 := by
  rw [maskAt_cons]
  split
  · exact Int64.or_zero
  · rfl

theorem maskAt_append (k : Nat) (writes later : List BitWrite) :
    maskAt k (writes ++ later) = maskAt k writes ||| maskAt k later := by
  induction writes with
  | nil => exact (Int64.zero_or).symm
  | cons w rest ih =>
    rw [List.cons_append, maskAt_cons, maskAt_cons, ih]
    split
    · rw [Int64.or_assoc]
    · rfl

theorem getLsbD_maskAt {k j : Nat} (inside : j < 64) {writes : List BitWrite}
    (lower : ∀ w ∈ writes, w.bit < 32) :
    (maskAt k writes).toBitVec.getLsbD j = true ↔ ∃ w ∈ writes, w.Reaches k ∧ j = w.bit := by
  induction writes with
  | nil => simp [maskAt]
  | cons w rest ih =>
    obtain ⟨first, others⟩ := List.forall_mem_cons.mp lower
    have tail := ih others
    rw [List.exists_mem_cons_iff, ← tail, maskAt_cons]
    by_cases reached : w.Reaches k
    · rw [if_pos reached, Int64.toBitVec_or, toBitVec_mask w.bit first, BitVec.getLsbD_or,
        getLsbD_one_shiftLeft inside, Bool.or_eq_true, decide_eq_true_eq]
      exact or_congr_left (and_iff_right reached).symm
    · rw [if_neg reached]
      exact (or_iff_right fun here => reached here.1).symm

/-- What some writes of bits have made of the staged words: they have put their words on the stage
and their bits into them. -/
structure Accumulated (writes : List BitWrite) (pending left : Pending) : Prop where
  staged : ∀ k, (left.get? k).isSome = true ↔
    (pending.get? k).isSome = true ∨ ∃ w ∈ writes, w.Reaches k
  words : ∀ k, left.wordAt k = pending.wordAt k ||| maskAt k writes

namespace Accumulated

theorem refl (pending : Pending) : Accumulated [] pending pending :=
  ⟨fun k => by simp, fun k => Int64.or_zero.symm⟩

theorem trans {writes later : List BitWrite} {pending middle left : Pending}
    (first : Accumulated writes pending middle) (second : Accumulated later middle left) :
    Accumulated (writes ++ later) pending left := by
  refine ⟨fun k => ?_, fun k => ?_⟩
  · simp only [second.staged, first.staged, List.mem_append, or_and_right, exists_or, or_assoc]
  · rw [second.words, first.words, maskAt_append, Int64.or_assoc]

/-- The buffer is determined by the set of the writes: neither their order nor their number counts. -/
theorem unique {writes others : List BitWrite} {pending left left' : Pending}
    (lower : ∀ w ∈ writes, w.bit < 32) (same : ∀ w, w ∈ writes ↔ w ∈ others)
    (first : Accumulated writes pending left) (second : Accumulated others pending left') :
    left = left' := by
  have lower' : ∀ w ∈ others, w.bit < 32 := fun w member => lower w ((same w).mpr member)
  have masks : ∀ k, maskAt k writes = maskAt k others := by
    refine fun k => eq_of_getLsbD fun j inside => Bool.eq_iff_iff.mpr ?_
    simp only [getLsbD_maskAt inside lower, getLsbD_maskAt inside lower', same]
  refine Pending.ext_get? fun k => ?_
  have words : left.wordAt k = left'.wordAt k := by
    rw [first.words, second.words, masks]
  have staged : (left.get? k).isSome = (left'.get? k).isSome := by
    rw [Bool.eq_iff_iff, first.staged, second.staged]
    simp only [same]
  unfold Pending.wordAt at words
  cases here : left.get? k <;> cases there : left'.get? k <;> simp_all

/-- A bit that is set stays so. -/
theorem keeps_bits {writes : List BitWrite} {pending left : Pending}
    (done : Accumulated writes pending left) {k j : Nat}
    (set : (pending.wordAt k).toBitVec.getLsbD j = true) :
    (left.wordAt k).toBitVec.getLsbD j = true := by
  rw [done.words, Int64.toBitVec_or, BitVec.getLsbD_or, set, Bool.true_or]

end Accumulated

theorem Message.bitWrite?_eq_some {m : Message} {w : BitWrite} (asked : m.bitWrite? = some w) :
    m.isStatusRequest = false ∧ ∃ device, m.body.device = some device ∧
      RawTarget.ofDevice? device = some (.bit w.word w.bit) ∧ w.on = m.valueText.any isOn := by
  unfold bitWrite? at asked
  cases asks : m.isStatusRequest with
  | true => simp [asks] at asked
  | false =>
    rw [asks, if_neg Bool.false_ne_true] at asked
    split at asked
    · next word bit target =>
      cases asked
      obtain ⟨device, named, read⟩ := Option.bind_eq_some_iff.mp target
      exact ⟨rfl, device, named, read, rfl⟩
    · cases asked

/-- One message sets its bit in the words that it reaches. The word after its own is another one, so
that the second write sees what was staged before the first. -/
theorem Raw.accumulated_of_bitWrite? {m : Message} {w : BitWrite} (asked : m.bitWrite? = some w)
    (pending : Pending) :
    ∃ left, Raw.write m pending = .ok left ∧ Accumulated [w] pending left := by
  obtain ⟨-, device, named, target, on⟩ := Message.bitWrite?_eq_some asked
  have mask : ∀ word : Word, setBit word w.bit true = word ||| 1 <<< Int64.ofNat w.bit :=
    fun _ => rfl
  simp only [Raw.write_of_bit named target, ← on, mask]
  cases isOn : w.on with
  | false =>
    have reaches : ∀ k, w.Reaches k ↔ k = w.word + 1 := by simp [BitWrite.Reaches, isOn]
    refine ⟨_, rfl, fun k => ?_, fun k => ?_⟩
    · simp only [Pending.isSome_get?_stage, List.mem_singleton, exists_eq_left, reaches]
    · simp only [Pending.wordAt_stage, maskAt_singleton, reaches]
      by_cases after : k = w.word + 1
      · rw [if_pos after, if_pos after, after]
      · rw [if_neg after, if_neg after, Int64.or_zero]
  | true =>
    have reaches : ∀ k, w.Reaches k ↔ k = w.word + 1 ∨ k = w.word := by
      simp [BitWrite.Reaches, isOn]
    have apart : w.word ≠ w.word + 1 := by omega
    refine ⟨_, rfl, fun k => ?_, fun k => ?_⟩
    · simp only [Pending.isSome_get?_stage, List.mem_singleton, exists_eq_left, reaches, or_assoc]
    · simp only [Pending.wordAt_stage, maskAt_singleton, reaches, if_neg apart]
      by_cases own : k = w.word
      · rw [if_pos own, if_pos (Or.inr own), own]
      · rw [if_neg own]
        by_cases after : k = w.word + 1
        · rw [if_pos after, if_pos (Or.inl after), after]
        · rw [if_neg after, if_neg (by tauto), Int64.or_zero]

namespace Processor

/-- Takes messages one after another, up to the first that is refused. -/
def onMessages (p : Processor) (messages : List Message) (pending : Pending) :
    Except BridgeError (Processor × Pending) :=
  messages.foldlM (fun state m => state.1.onMessage m state.2) (p, pending)

/-- By induction on the messages: what the first leaves is what the others start from. -/
theorem accumulated_of_onMessages {p : Processor} (isRaw : p.mode = .raw) {messages : List Message}
    (asked : ∀ m ∈ messages, m.bitWrite?.isSome = true) (pending : Pending) :
    ∃ left, p.onMessages messages pending = .ok (p, left) ∧
      Accumulated (messages.filterMap Message.bitWrite?) pending left := by
  induction messages generalizing pending with
  | nil => exact ⟨pending, rfl, .refl pending⟩
  | cons m rest ih =>
    obtain ⟨first, others⟩ := List.forall_mem_cons.mp asked
    obtain ⟨w, asks⟩ := Option.isSome_iff_exists.mp first
    obtain ⟨middle, wrote, one⟩ := Raw.accumulated_of_bitWrite? asks pending
    obtain ⟨left, done, more⟩ := ih others middle
    refine ⟨left, ?_, ?_⟩
    · have taken : p.onMessage m pending = .ok (p, middle) := by
        rw [onMessage_of_raw isRaw (Message.bitWrite?_eq_some asks).1, wrote]
        rfl
      rw [onMessages, List.foldlM_cons, taken]
      exact done
    · rw [List.filterMap_cons_some asks]
      exact one.trans more

/-- Messages to bits do not depend on their order, nor on how often each one comes: they stage
exactly the words that they reach, set their bits in them and clear none. -/
theorem bit_writes_accumulate {p : Processor} (isRaw : p.mode = .raw) {messages : List Message}
    (asked : ∀ m ∈ messages, m.bitWrite?.isSome = true) (pending : Pending) :
    (∃ left, p.onMessages messages pending = .ok (p, left) ∧
      Accumulated (messages.filterMap Message.bitWrite?) pending left ∧
      (∀ k j, (pending.wordAt k).toBitVec.getLsbD j = true →
        (left.wordAt k).toBitVec.getLsbD j = true) ∧
      ∀ others : List Message, (∀ m, m ∈ others ↔ m ∈ messages) →
        p.onMessages others pending = .ok (p, left)) ∧
    (∀ device word bit, RawTarget.ofDevice? device = some (.bit word bit) →
      bit < 32 ∧ word + 1 < addressBound) ∧
    ∀ word bit, RawTarget.ofDevice? (bitName word bit) =
      if word + 1 < addressBound ∧ bit < 32 then some (.bit word bit) else none := by
  refine ⟨?_, fun _ _ _ => RawTarget.bounds_of_ofDevice?, RawTarget.ofDevice?_bitName⟩
  obtain ⟨left, done, accumulated⟩ := accumulated_of_onMessages isRaw asked pending
  refine ⟨left, done, accumulated, fun _ _ => accumulated.keeps_bits, fun others same => ?_⟩
  obtain ⟨left', done', accumulated'⟩ := accumulated_of_onMessages isRaw
    (fun m member => asked m ((same m).mp member)) pending
  have lower : ∀ w ∈ messages.filterMap Message.bitWrite?, w.bit < 32 := by
    intro w member
    obtain ⟨m, -, asks⟩ := List.mem_filterMap.mp member
    obtain ⟨-, device, -, target, -⟩ := Message.bitWrite?_eq_some asks
    exact (RawTarget.bounds_of_ofDevice? target).1
  have writes : ∀ w, w ∈ messages.filterMap Message.bitWrite? ↔
      w ∈ others.filterMap Message.bitWrite? := by
    simp only [List.mem_filterMap, same, implies_true]
  rw [done', accumulated.unique lower writes accumulated']

/-- A message that sets a bit, or only tells that it is meant. -/
def bitMessage (word bit : Nat) (value : String) : Message :=
  ⟨"control.basic", some (bitName word bit), none, none, none, some (.string value)⟩

/-- The neighbour of one bit's word is the word of another bit. -/
theorem neighbours_accumulate :
    let messages := [bitMessage 0 2 "on", bitMessage 1 31 "1", bitMessage 0 1 "0"]
    ∃ left, raw.onMessages messages (Pending.empty.stage 1 8) = .ok (raw, left) ∧
      raw.onMessages (messages.reverse ++ messages) (Pending.empty.stage 1 8) = .ok (raw, left) ∧
      left.wordAt 0 = 4 ∧ left.wordAt 1 = 2147483662 ∧ left.wordAt 2 = 2147483648 ∧
      left.get? 3 = none := by
  intro messages
  obtain ⟨⟨left, done, accumulated, -, orders⟩, -⟩ := @bit_writes_accumulate raw rfl messages
    (by decide +kernel) (Pending.empty.stage 1 8)
  have untouched : (left.get? 3).isSome ≠ true :=
    mt (accumulated.staged 3).mp (by decide +kernel)
  exact ⟨left, done, orders _ (by simp), (accumulated.words 0).trans (by decide +kernel),
    (accumulated.words 1).trans (by decide +kernel),
    (accumulated.words 2).trans (by decide +kernel), Option.not_isSome_iff_eq_none.mp untouched⟩

end Processor

end RegisterBridge
