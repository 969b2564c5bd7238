import Mathlib.Data.Int.ModEq
import RegisterBridge.Proofs.Device.Duplicates
import RegisterBridge.Proofs.Value.Integers

namespace RegisterBridge

/-- Adds a period again and again for as long as the count is below the last one. -/
def catchUp (period last n : Int) : Int :=
  if 0 < period ∧ n < last then catchUp period last (n + period) else n
termination_by (last - n).toNat
decreasing_by omega

section CatchUp

variable {period last n : Int}

theorem catchUp_of_le (reached : last ≤ n) : catchUp period last n = n := by
  rw [catchUp, if_neg fun short => reached.not_gt short.2]

theorem exists_catchUp (period last n : Int) : ∃ k : Nat, catchUp period last n = n + k * period := by
  fun_induction catchUp period last n with
  | case1 n short ih =>
    obtain ⟨k, found⟩ := ih
    refine ⟨k + 1, ?_⟩
    rw [found]
    push_cast
    ring
  | case2 n _ => exact ⟨0, by rw [Nat.cast_zero, zero_mul, add_zero]⟩

theorem le_catchUp (positive : 0 < period) (last n : Int) : last ≤ catchUp period last n := by
  fun_induction catchUp period last n with
  | case1 n short ih => exact ih
  | case2 n done => exact not_lt.mp fun short => done ⟨positive, short⟩

theorem catchUp_le (positive : 0 < period) {k : Nat} (reached : last ≤ n + k * period) :
    catchUp period last n ≤ n + k * period := by
  fun_induction catchUp period last n generalizing k with
  | case1 n short ih =>
    cases k with
    | zero =>
      rw [Nat.cast_zero, zero_mul, add_zero] at reached
      exact absurd short.2 reached.not_gt
    | succ k =>
      have next : n + (k + 1 : Nat) * period = n + period + k * period := by
        push_cast
        ring
      rw [next] at reached ⊢
      exact ih reached
  | case2 n _ => exact le_add_of_nonneg_right (mul_nonneg (Int.natCast_nonneg k) positive.le)

/-- The least count that is some periods on and not below the last one. -/
theorem isLeast_catchUp (positive : 0 < period) (last n : Int) :
    IsLeast {v | last ≤ v ∧ ∃ k : Nat, v = n + k * period} (catchUp period last n) := by
  refine ⟨⟨le_catchUp positive last n, exists_catchUp period last n⟩, ?_⟩
  rintro v ⟨reached, k, rfl⟩
  exact catchUp_le positive reached

theorem catchUp_modEq (period last n : Int) : catchUp period last n ≡ n [ZMOD period] := by
  obtain ⟨k, found⟩ := exists_catchUp period last n
  rw [found]
  exact Int.modEq_iff_dvd.mpr ⟨-k, by ring⟩

/-- The periods that are missing, counted all at once. -/
theorem catchUp_of_lt (positive : 0 < period) (short : n < last) :
    catchUp period last n = n + ⌈((last - n : Int) : Rat) / period⌉ * period := by
  have real : (0 : Rat) < period := by exact_mod_cast positive
  have periods : 0 ≤ ⌈((last - n : Int) : Rat) / period⌉ :=
    Int.ceil_nonneg (div_nonneg (by exact_mod_cast (sub_pos.mpr short).le) real.le)
  refine (isLeast_catchUp positive last n).unique ⟨⟨?_, ?_⟩, ?_⟩
  · have enough := (div_le_iff₀ real).mp (Int.le_ceil (((last - n : Int) : Rat) / period))
    have whole : last - n ≤ ⌈((last - n : Int) : Rat) / period⌉ * period := by exact_mod_cast enough
    exact sub_le_iff_le_add'.mp whole
  · exact ⟨_, by rw [Int.toNat_of_nonneg periods]⟩
  · rintro v ⟨reached, k, rfl⟩
    have enough : (((last - n : Int) : Rat) / period) ≤ (k : Int) :=
      (div_le_iff₀ real).mpr (by exact_mod_cast sub_le_iff_le_add'.mpr reached)
    exact add_le_add_right (mul_le_mul_of_nonneg_right (Int.ceil_le.mpr enough) positive.le) n

theorem catchUp_lt (positive : 0 < period) (short : n < last) :
    catchUp period last n < last + period := by
  have below := Binary64.ceil_sub_one_mul_lt (i := last - n) positive
  rw [catchUp_of_lt positive short]
  linarith

end CatchUp

/-- The integer that a value is, if it is one. -/
def Value.toInt? : Value → Option Int
  | number n => n.toInt?
  | _ => none

theorem Value.toInt?_of_equals {v w : Value} (equal : v.equals w = true) : v.toInt? = w.toInt? := by
  cases v with
  | number x =>
    cases w with
    | number y => exact (Binary64.alike_of_equals equal).toInt?
    | bool b => cases eq_of_beq equal
    | text t => cases eq_of_beq equal
  | _ =>
    obtain rfl := eq_of_beq equal
    rfl

/-- A first count stands for itself, and later ones go on from the count before. -/
def countOn (period : Int) (last? : Option Int) (n : Int) : Int :=
  match last? with
  | none => n
  | some last => catchUp period last n

theorem countOn_modEq (period : Int) (last? : Option Int) (n : Int) :
    countOn period last? n ≡ n [ZMOD period] := by
  cases last? with
  | none => exact .rfl
  | some last => exact catchUp_modEq period last n

theorem le_countOn {period : Int} (positive : 0 < period) {last? : Option Int} {last : Int}
    (before : last ∈ last?) (n : Int) : last ≤ countOn period last? n := by
  cases before
  exact le_catchUp positive last n

namespace DeviceUnit

/-- The counts of a unit start over after a whole number of them, which may have up to 51 bits. -/
structure WrapsAt (unit : DeviceUnit) (period : Int) : Prop where
  declared : ∃ x, unit.overflow = some x ∧ x.toInt? = some period
  positive : 0 < period
  small : period ≤ 2 ^ 51

section Accumulate

variable {unit : DeviceUnit} {overflow x y : Binary64} {period n last : Int}

theorem accumulate_eq (declared : unit.overflow = some overflow)
    (whole : overflow.toInt? = some period) (positive : 0 < period) (count : x.toInt? = some n)
    (before : y.toInt? = some last) :
    unit.accumulate (.number x) (some (.number y)) =
      if last ≤ n then .number x
      else .number (x + ((y - x) / overflow).ceil * overflow) := by
  have wraps : (overflow.compare? 0).any Ordering.isLE = false := by
    have none : (0 : Binary64).toInt? = some 0 := Binary64.toInt?_ofInt_le (by decide)
    rw [Binary64.compare?_of_toInt? whole none]
    exact Bool.eq_false_iff.mpr fun atMost => (Std.isLE_compare.mp atMost).not_gt positive
  have above : (x.compare? y).any Ordering.isGE = decide (last ≤ n) := by
    rw [Binary64.compare?_of_toInt? count before]
    exact Bool.eq_iff_iff.mpr (Std.isGE_compare.trans decide_eq_true_iff.symm)
  unfold accumulate
  rw [declared]
  simp only [wraps, above, (Binary64.toInt?_eq_some.mp count).1, (Binary64.toInt?_eq_some.mp before).1,
    Bool.not_true, Bool.false_or, decide_eq_true_eq]

/-- The quotient is rounded, and still it gives the number of periods that are missing. -/
theorem exists_periods (whole : overflow.toInt? = some period) (positive : 0 < period)
    (periodSmall : period ≤ 2 ^ 51) (count : x.toInt? = some n) (before : y.toInt? = some last)
    (small : n.natAbs ≤ 2 ^ 51) (lastSmall : last.natAbs ≤ 2 ^ 51) (short : n < last) :
    ∃ k, ((y - x) / overflow).ceil.toInt? = some k ∧ 0 < k ∧
      catchUp period last n = n + k * period := by
  have missing := Binary64.toInt?_sub before count (by omega)
  have periods := Binary64.toInt?_ceil_div missing whole (by omega) positive (by omega) (by omega)
  refine ⟨_, periods, Int.ceil_pos.mpr (div_pos ?_ ?_), catchUp_of_lt positive short⟩
  · exact_mod_cast sub_pos.mpr short
  · exact_mod_cast positive

/-- Doubles count without an error up to the bound, and the sum that is remembered stays as it is
when the count comes again. -/
theorem WrapsAt.accumulate (wraps : unit.WrapsAt period) (count : x.toInt? = some n)
    (before : y.toInt? = some last) (small : n.natAbs ≤ 2 ^ 51) (lastSmall : last.natAbs ≤ 2 ^ 51) :
    ∃ z, unit.accumulate (.number x) (some (.number y)) = .number z ∧
      z.toInt? = some (catchUp period last n) ∧
      unit.accumulate (.number x) (some (.number z)) = .number z := by
  obtain ⟨⟨overflow, declared, whole⟩, positive, periodSmall⟩ := wraps
  rw [accumulate_eq declared whole positive count before]
  by_cases reached : last ≤ n
  · rw [if_pos reached, catchUp_of_le reached]
    refine ⟨x, rfl, count, ?_⟩
    rw [accumulate_eq declared whole positive count count, if_pos le_rfl]
  · rw [if_neg reached]
    have short := not_le.mp reached
    obtain ⟨k, periods, some, total⟩ :=
      exists_periods whole positive periodSmall count before small lastSmall short
    have room := catchUp_lt positive short
    have least := le_catchUp positive last n
    rw [total] at room least ⊢
    have few : k ≤ k * period := le_mul_of_one_le_right some.le positive
    have sum := Binary64.toInt?_add count (Binary64.toInt?_mul periods whole (by omega)) (by omega)
    refine ⟨_, rfl, sum, ?_⟩
    -- The second difference may have more bits than the first, but it is whole periods.
    have added := Binary64.toInt?_sub sum count (by omega)
    rw [add_sub_cancel_left] at added
    have again := Binary64.toInt?_ceil_of_toInt?
      (Binary64.toInt?_mul_div added whole positive.ne' (by omega)) (by omega)
    rw [accumulate_eq declared whole positive count sum, if_neg (by omega),
      Binary64.eq_of_toInt? again periods some.ne']

theorem WrapsAt.toInt?_accumulate (wraps : unit.WrapsAt period) (count : x.toInt? = some n)
    (small : n.natAbs ≤ 2 ^ 51) {previous : Option Value}
    (known : ∀ v ∈ previous, ∃ last, v.toInt? = some last ∧ last.natAbs ≤ 2 ^ 51) :
    (unit.accumulate (.number x) previous).toInt? =
      some (countOn period (previous.bind Value.toInt?) n) := by
  cases previous with
  | none =>
    obtain ⟨overflow, declared, -⟩ := wraps.declared
    unfold DeviceUnit.accumulate
    rw [declared]
    exact count
  | some v =>
    obtain ⟨last, before, lastSmall⟩ := known v rfl
    rw [Option.bind_some, before]
    cases v with
    | number y =>
      obtain ⟨z, sum, total, -⟩ := wraps.accumulate count before small lastSmall
      rw [sum]
      exact total
    | bool b => cases before
    | text t => cases before

end Accumulate

end DeviceUnit

/-- What a status has counted in a batch, and the total that is remembered after it. -/
structure Count where
  counted : Int
  total? : Option Int

/-- Counts with their totals, the latest first: each total goes on from the one before. -/
inductive Unwrapped (period : Int) : Option Int → List Count → Prop
  | nil : Unwrapped period none []
  | next {last? : Option Int} {log : List Count} (n : Int) : Unwrapped period last? log →
    Unwrapped period (some (countOn period last? n)) (⟨n, some (countOn period last? n)⟩ :: log)

section Unwrapped

variable {period : Int} {last? : Option Int} {log : List Count}

theorem Unwrapped.exists_total (unwrapped : Unwrapped period last? log) :
    ∀ count ∈ log, ∃ total, count.total? = some total ∧ total ≡ count.counted [ZMOD period] := by
  induction unwrapped with
  | nil => exact fun count member => absurd member List.not_mem_nil
  | @next last? log n _ ih =>
    intro count member
    rcases List.mem_cons.mp member with rfl | earlier
    · exact ⟨_, rfl, countOn_modEq period last? n⟩
    · exact ih count earlier

/-- No total of a log is above the one that the next count goes on from. -/
theorem Unwrapped.le_last (positive : 0 < period) (unwrapped : Unwrapped period last? log) :
    ∀ count ∈ log, ∀ total ∈ count.total?, ∃ last ∈ last?, total ≤ last := by
  induction unwrapped with
  | nil => exact fun count member => absurd member List.not_mem_nil
  | @next last? log n _ ih =>
    intro count member total found
    refine ⟨_, rfl, ?_⟩
    rcases List.mem_cons.mp member with rfl | earlier
    · cases found
      exact le_rfl
    · obtain ⟨last, before, bound⟩ := ih count earlier total found
      exact bound.trans (le_countOn positive before n)

theorem Unwrapped.pairwise (positive : 0 < period) (unwrapped : Unwrapped period last? log) :
    log.Pairwise fun later earlier => ∀ t ∈ earlier.total?, ∀ u ∈ later.total?, t ≤ u := by
  induction unwrapped with
  | nil => exact .nil
  | @next last? log n unwrapped ih =>
    refine List.pairwise_cons.mpr ⟨?_, ih⟩
    intro earlier member t found u latest
    cases latest
    obtain ⟨last, before, bound⟩ := unwrapped.le_last positive earlier member t found
    exact bound.trans (le_countOn positive before n)

end Unwrapped

namespace Tracker

/-- A batch reads a status and can evaluate it. -/
structure Gives (s : Snapshot) (status : Status) (value : Value) : Prop where
  reads : (s.readBy status).Nonempty
  evaluated : evaluate s.environment status.formula.tree = .ok value

/-- The integer that is remembered of a status. -/
def total? (tracker : Tracker) (status : Status) : Option Int :=
  (tracker.values.get? status.id).bind Value.toInt?

/-- The batches of a run in which a status, whenever it has a value, has an integer of up to 51 bits
and so has what is remembered of it. The log has the latest of these batches first. -/
inductive Counting (c : Catalog) (status : Status) :
    Tracker → TransactionCounter → List Count → Prop
  | start (counter : TransactionCounter) : Counting c status empty counter []
  | elsewhere {tracker counter log} : Counting c status tracker counter log →
    Counting c status tracker counter.next.2 log
  | idle {tracker : Tracker} {counter log} (s : Snapshot) : Counting c status tracker counter log →
    (∀ value, ¬ Gives s status value) →
    Counting c status (tracker.dispatch c s counter.next.1).1 counter.next.2 log
  | count {tracker : Tracker} {counter log} (s : Snapshot) {x : Binary64} {n : Int} :
    Counting c status tracker counter log → Gives s status (.number x) → x.toInt? = some n →
    n.natAbs ≤ 2 ^ 51 → (∀ last ∈ tracker.total? status, last.natAbs ≤ 2 ^ 51) →
    Counting c status (tracker.dispatch c s counter.next.1).1 counter.next.2
      (⟨n, (tracker.dispatch c s counter.next.1).1.total? status⟩ :: log)

section Step

variable {specs : List UnitSpec} {c : Catalog} {unit : DeviceUnit} {status : Status}
  {tracker : Tracker} {s : Snapshot} {value : Value}

theorem Gives.yields (gives : Gives s status value) (tracker : Tracker) (unit : DeviceUnit) :
    tracker.Yields s unit status (unit.accumulate value (tracker.values.get? status.id)) :=
  ⟨gives.reads, value, gives.evaluated, rfl⟩

/-- After a count the integer that is remembered is the one that has gone on from the one before,
also where an equal value was remembered already. -/
theorem Gives.remembered (built : Catalog.Built specs c) (member : (unit, status) ∈ c.statuses)
    {counter : TransactionCounter} (reached : tracker.Reached counter)
    (gives : Gives s status value) :
    ∃ new, (tracker.dispatch c s counter.next.1).1.values.get? status.id = some new ∧
      new.toInt? = (unit.accumulate value (tracker.values.get? status.id)).toInt? := by
  obtain ⟨new, found, same⟩ := (gives.yields tracker unit).remembered built member reached.stamped
  refine ⟨new, found, ?_⟩
  rcases same with rfl | equal
  · rfl
  · exact Value.toInt?_of_equals equal

theorem get?_dispatch_of_not_gives (built : Catalog.Built specs c)
    (member : (unit, status) ∈ c.statuses) {counter : TransactionCounter}
    (reached : tracker.Reached counter) (silent : ∀ value, ¬ Gives s status value) :
    (tracker.dispatch c s counter.next.1).1.values.get? status.id =
      tracker.values.get? status.id := by
  refine get?_dispatch_of_not_yields built member reached.stamped ?_
  rintro other ⟨reads, plain, evaluated, -⟩
  exact silent plain ⟨reads, evaluated⟩

/-- What is remembered of a status is the last of the totals of a log, or nothing yet. -/
structure Tallies (tracker : Tracker) (status : Status) (period : Int) (log : List Count) : Prop where
  unwrapped : Unwrapped period (tracker.total? status) log
  whole : ∀ v ∈ tracker.values.get? status.id, ∃ last, v.toInt? = some last

theorem Tallies.congr {tracker' : Tracker} {period : Int} {log : List Count}
    (same : tracker'.values.get? status.id = tracker.values.get? status.id)
    (tallies : tracker.Tallies status period log) : tracker'.Tallies status period log := by
  constructor
  · rw [total?, same]
    exact tallies.unwrapped
  · rw [same]
    exact tallies.whole

theorem Tallies.count (built : Catalog.Built specs c) (member : (unit, status) ∈ c.statuses)
    {period : Int} (wraps : unit.WrapsAt period) {counter : TransactionCounter}
    (reached : tracker.Reached counter) {log : List Count}
    (tallies : tracker.Tallies status period log) {x : Binary64} (gives : Gives s status (.number x))
    {n : Int} (counted : x.toInt? = some n) (small : n.natAbs ≤ 2 ^ 51)
    (bounded : ∀ last ∈ tracker.total? status, last.natAbs ≤ 2 ^ 51) :
    (tracker.dispatch c s counter.next.1).1.Tallies status period
      (⟨n, (tracker.dispatch c s counter.next.1).1.total? status⟩ :: log) := by
  obtain ⟨new, found, same⟩ := gives.remembered built member reached
  have total : new.toInt? = some (countOn period (tracker.total? status) n) := by
    rw [same, wraps.toInt?_accumulate counted small, total?]
    intro v before
    obtain ⟨last, some⟩ := tallies.whole v before
    exact ⟨last, some, bounded last (Option.bind_eq_some_iff.mpr ⟨v, before, some⟩)⟩
  constructor
  · rw [total?, found, Option.bind_some, total]
    exact .next n tallies.unwrapped
  · rw [found]
    rintro v ⟨⟩
    exact ⟨_, total⟩

theorem Counting.tallies (built : Catalog.Built specs c) (member : (unit, status) ∈ c.statuses)
    {period : Int} (wraps : unit.WrapsAt period) {counter : TransactionCounter} {log : List Count}
    (counting : Counting c status tracker counter log) :
    tracker.Reached counter ∧ tracker.Tallies status period log := by
  induction counting with
  | start counter =>
    have nothing : empty.values.get? status.id = none := OrderedMap.get?_empty _
    refine ⟨.start counter, ?_, ?_⟩
    · rw [total?, nothing]
      exact .nil
    · rw [nothing]
      exact fun v found => absurd found (Option.not_mem_none v)
  | elsewhere _ ih => exact ⟨ih.1.elsewhere, ih.2⟩
  | idle s _ silent ih =>
    exact ⟨ih.1.batch c s, ih.2.congr (get?_dispatch_of_not_gives built member ih.1 silent)⟩
  | count s _ gives counted small bounded ih =>
    exact ⟨ih.1.batch c s, ih.2.count built member wraps ih.1 gives counted small bounded⟩

end Step

end Tracker

/-- The values of a unit whose counts start over are brought up to the one before, as if a period were
added for as long as it takes. Within what doubles count exactly that loses nothing: along a run the
totals never decrease, and each of them differs from what was counted by whole periods. -/
theorem DeviceUnit.WrapsAt.unwraps {unit : DeviceUnit} {period : Int}
    (wraps : unit.WrapsAt period) :
    (∀ (x y : Binary64) (n last : Int), x.toInt? = some n → y.toInt? = some last →
      n.natAbs ≤ 2 ^ 51 → last.natAbs ≤ 2 ^ 51 →
      ∃ z, unit.accumulate (.number x) (some (.number y)) = .number z ∧
        z.toInt? = some (catchUp period last n) ∧
        IsLeast {v | last ≤ v ∧ ∃ k : Nat, v = n + k * period} (catchUp period last n) ∧
        unit.accumulate (.number x) (some (.number z)) = .number z) ∧
    (∀ (model : Model) (c : Catalog) (status : Status), Catalog.compile model = .ok c →
      unit ∈ c.units → status ∈ unit.statuses →
      ∀ (tracker : Tracker) (counter : TransactionCounter) (log : List Count),
        Tracker.Counting c status tracker counter log →
        Unwrapped period (tracker.total? status) log ∧
        (∀ count ∈ log, ∃ total, count.total? = some total ∧
          total ≡ count.counted [ZMOD period]) ∧
        log.Pairwise fun later earlier => ∀ t ∈ earlier.total?, ∀ u ∈ later.total?, t ≤ u) := by
  constructor
  · intro x y n last count before small lastSmall
    obtain ⟨z, sum, total, again⟩ := wraps.accumulate count before small lastSmall
    exact ⟨z, sum, total, isLeast_catchUp wraps.positive last n, again⟩
  · intro model c status compiled unitMember statusMember tracker counter log counting
    have built := Catalog.built_of_compile compiled
    have member := Catalog.mem_statuses.mpr ⟨unitMember, statusMember⟩
    obtain ⟨-, tallies⟩ := counting.tallies built member wraps
    exact ⟨tallies.unwrapped, tallies.unwrapped.exists_total,
      tallies.unwrapped.pairwise wraps.positive⟩

/-- A counter of four bits. -/
def counterUnit : DeviceUnit :=
  { device := "counter", statuses := [⟨"total", 0, ⟨"W0", .identifier "W0"⟩⟩]
    commands := .empty, units := none, scaling := none, multiplier := none, overflow := some 16 }

def counterCatalog : Catalog :=
  { units := [counterUnit], byDevice := .ofList [("counter", 0)]
    watched := .ofList [("W0", [⟨0, 0, 0⟩])], statusCount := 1 }

def counterModel : Model :=
  ⟨[((UnitSpec.new "counter").withStatus "total" "W0").withOverflow 16]⟩

/-- The counter starts over after 10, and what comes next is 2. -/
theorem counter_unwraps : counterUnit.WrapsAt 16 ∧
    (∃ z, counterUnit.accumulate (.number 2) (some (.number 10)) = .number z ∧
      z.toInt? = some (catchUp 16 10 2) ∧
      counterUnit.accumulate (.number 2) (some (.number z)) = .number z) ∧
    ∃ tracker counter, Tracker.Counting counterCatalog counterUnit.statuses[0] tracker counter
        [⟨2, some 18⟩, ⟨10, some 10⟩] ∧
      tracker.total? counterUnit.statuses[0] = some 18 ∧
      Unwrapped 16 (some 18) [⟨2, some 18⟩, ⟨10, some 10⟩] := by
  have wraps : counterUnit.WrapsAt 16 := by
    refine ⟨⟨16, rfl, ?_⟩, by decide, by decide⟩
    exact Binary64.toInt?_ofInt_le (i := 16) (by decide)
  obtain ⟨alone, along⟩ := wraps.unwraps
  obtain ⟨z, sum, total, -, again⟩ := alone 2 10 2 10 (Binary64.toInt?_ofInt_le (by decide))
    (Binary64.toInt?_ofInt_le (by decide)) (by decide) (by decide)
  have compiled : Catalog.compile counterModel = .ok counterCatalog :=
    eq_ok_of_toOption (by decide +kernel)
  have reads : ∀ {s : Snapshot}, 0 ∈ s.changed → (s.readBy counterUnit.statuses[0]).Nonempty :=
    fun changed => ⟨0, changed, by decide +kernel⟩
  have ten : (Tracker.dispatch .empty counterCatalog ⟨none, [some 10]⟩ 1).1.total?
      counterUnit.statuses[0] = some 10 := by decide +kernel
  have first : Tracker.Counting counterCatalog counterUnit.statuses[0]
      (Tracker.dispatch .empty counterCatalog ⟨none, [some 10]⟩ 1).1 ⟨1⟩ [⟨10, some 10⟩] := by
    rw [← ten]
    exact (Tracker.Counting.start ⟨0⟩).count _
      ⟨reads (by decide), eq_ok_of_toOption (by decide +kernel)⟩
      (Binary64.toInt?_ofInt_le (by decide)) (by decide) (by decide)
  have second := first.count ⟨some [some 10], [some 2]⟩
    ⟨reads (by decide), eq_ok_of_toOption (by decide +kernel)⟩
    (Binary64.toInt?_ofInt_le (i := 2) (by decide)) (by decide) (by rw [ten]; decide)
  have eighteen : ((Tracker.dispatch .empty counterCatalog ⟨none, [some 10]⟩ 1).1.dispatch
      counterCatalog ⟨some [some 10], [some 2]⟩ (TransactionCounter.next ⟨1⟩).1).1.total?
        counterUnit.statuses[0] = some 18 := by decide +kernel
  rw [eighteen] at second
  obtain ⟨unwrapped, -⟩ := along counterModel counterCatalog counterUnit.statuses[0] compiled
    List.mem_cons_self List.mem_cons_self _ _ _ second
  rw [eighteen] at unwrapped
  exact ⟨wraps, ⟨z, sum, total, again⟩, _, _, second, eighteen, unwrapped⟩

end RegisterBridge
