import RegisterBridge.Proofs.Device.Commands
import RegisterBridge.Proofs.Device.Published
import RegisterBridge.Proofs.Device.Sources
import RegisterBridge.Proofs.Value.Integers

namespace RegisterBridge

theorem abs_intCast_le {i : Int} {bound : Nat} (small : i.natAbs ≤ bound) : |(i : Rat)| ≤ bound := by
  rw [← Int.cast_abs, Int.abs_eq_natAbs]
  exact_mod_cast small

namespace Scaling

open Binary64

/-- The raw value of a percentage before it is rounded down. -/
def unrounded (s : Scaling) (percent : Binary64) : Binary64 :=
  percent / 100 * s.span + s.zeroPoint

/-- Whole points of 32 bits, some hundreds apart. -/
structure Whole (s : Scaling) (zero step : Int) : Prop where
  zeroPoint : s.zeroPoint.toInt? = some zero
  hundredPoint : s.hundredPoint.toInt? = some (zero + 100 * step)
  zeroSmall : zero.natAbs < 2 ^ 31
  hundredSmall : (zero + 100 * step).natAbs < 2 ^ 31
  distinct : step ≠ 0

theorem toInt?_hundred : (100 : Binary64).toInt? = some 100 :=
  toInt?_ofInt_le (by decide)

namespace Whole

variable {s : Scaling} {zero step p : Int} {x : Binary64}

theorem span (whole : s.Whole zero step) : s.span.toInt? = some (100 * step) := by
  have zeroSmall := whole.zeroSmall
  have hundredSmall := whole.hundredSmall
  have span := toInt?_sub whole.hundredPoint whole.zeroPoint (by omega)
  rwa [add_sub_cancel_left] at span

theorem span_le (whole : s.Whole zero step) : (100 * step).natAbs ≤ 2 ^ 32 := by
  have zeroSmall := whole.zeroSmall
  have hundredSmall := whole.hundredSmall
  omega

theorem offset_le (whole : s.Whole zero step) (small : p.natAbs ≤ 1000) :
    (p * step).natAbs ≤ 15 * 2 ^ 32 := by
  have bound := whole.span_le
  have steps : step.natAbs ≤ 2 ^ 32 / 100 := by omega
  rw [Int.natAbs_mul]
  exact (Nat.mul_le_mul small steps).trans (by decide)

theorem rounds_hundredth (percent : x.toInt? = some p) : (x / 100).Rounds (p / 100) := by
  obtain ⟨isFinite, value⟩ := toInt?_eq_some.mp percent
  obtain ⟨hundredFinite, hundred⟩ := toInt?_eq_some.mp toInt?_hundred
  have rounds := rounds_div isFinite hundredFinite (by rw [hundred]; norm_num)
  rwa [value, hundred] at rounds

/-- The hundredth part of a percentage is off by at most `2 ^ (-48)`. -/
theorem hundredth_near (percent : x.toInt? = some p) (small : p.natAbs ≤ 1000) :
    (x / 100).isFinite = true ∧ |(x / 100).toRat - p / 100| ≤ 2 ^ (-48 : Int) := by
  have bound := abs_intCast_le small
  push_cast at bound
  refine (rounds_hundredth percent).abs_sub_le (by decide) (by decide) ?_
  rw [abs_div]
  norm_num
  linarith

/-- It is exact for quarters. -/
theorem hundredth_exact (percent : x.toInt? = some p) (small : p.natAbs ≤ 1000)
    (quarters : 25 ∣ p) : (x / 100).toRat = p / 100 := by
  obtain ⟨n, rfl⟩ := quarters
  have units := representable_units (n := n) (e := -2) (by omega) (by decide) (by decide)
  have value : (n : Rat) * 2 ^ (-2 : Int) = (25 * n : Int) / 100 := by
    push_cast
    norm_num
    ring
  exact ((rounds_hundredth percent).exact (value ▸ units)).2

/-- Over the span, this becomes at most `2 ^ (-16)`. -/
theorem product (whole : s.Whole zero step) (percent : x.toInt? = some p)
    (small : p.natAbs ≤ 1000) :
    (x / 100 * s.span).Rounds ((x / 100).toRat * (100 * step)) ∧
      |(x / 100).toRat * (100 * step) - p * step| ≤ 2 ^ (-16 : Int) := by
  obtain ⟨isFinite, near⟩ := hundredth_near percent small
  obtain ⟨spanFinite, span⟩ := toInt?_eq_some.mp whole.span
  have rounds := rounds_mul isFinite spanFinite
  rw [span] at rounds
  push_cast at rounds
  refine ⟨rounds, ?_⟩
  have bound := abs_intCast_le whole.span_le
  push_cast at bound
  have factor : (x / 100).toRat * (100 * step) - p * step =
      ((x / 100).toRat - p / 100) * (100 * step) := by ring
  rw [factor, abs_mul]
  calc |(x / 100).toRat - p / 100| * |(100 * step : Rat)| ≤ 2 ^ (-48 : Int) * 2 ^ 32 :=
        mul_le_mul near bound (abs_nonneg _) (by positivity)
    _ = 2 ^ (-16 : Int) := by norm_num

theorem sum (whole : s.Whole zero step) (percent : x.toInt? = some p) (small : p.natAbs ≤ 1000) :
    (s.unrounded x).Rounds ((x / 100 * s.span).toRat + zero) ∧
      |(x / 100 * s.span).toRat - p * step| ≤ 2 ^ (-15 : Int) := by
  obtain ⟨rounds, near⟩ := whole.product percent small
  have offset : |(p * step : Rat)| ≤ 15 * 2 ^ 32 := by
    exact_mod_cast abs_intCast_le (whole.offset_le small)
  have inside : |(x / 100).toRat * (100 * step)| ≤ 2 ^ 52 * 2 ^ (-16 : Int) := by
    calc |(x / 100).toRat * (100 * step)| ≤ _ :=
          sub_le_iff_le_add.mp (abs_sub_abs_le_abs_sub _ (p * step : Rat))
      _ ≤ 2 ^ (-16 : Int) + 15 * 2 ^ 32 := add_le_add near offset
      _ ≤ 2 ^ 52 * 2 ^ (-16 : Int) := by norm_num
  obtain ⟨isFinite, moved⟩ := rounds.abs_sub_le (by decide) (by decide) inside
  obtain ⟨zeroFinite, value⟩ := toInt?_eq_some.mp whole.zeroPoint
  have total := rounds_add isFinite zeroFinite
  rw [value] at total
  refine ⟨total, ?_⟩
  calc |(x / 100 * s.span).toRat - p * step| ≤ _ := abs_sub_le _ ((x / 100).toRat * (100 * step)) _
    _ ≤ 2 ^ (-16 : Int) + 2 ^ (-16 : Int) := add_le_add moved near
    _ = 2 ^ (-15 : Int) := by norm_num

/-- The sum is within `2 ^ (-14)` of the raw value. -/
theorem unrounded_near (whole : s.Whole zero step) (percent : x.toInt? = some p)
    (small : p.natAbs ≤ 1000) :
    (s.unrounded x).isFinite = true ∧
      |(s.unrounded x).toRat - (zero + p * step : Int)| ≤ 2 ^ (-14 : Int) := by
  obtain ⟨rounds, near⟩ := whole.sum percent small
  have offset : |(p * step : Rat)| ≤ 15 * 2 ^ 32 := by
    exact_mod_cast abs_intCast_le (whole.offset_le small)
  have zeroSmall := abs_intCast_le whole.zeroSmall.le
  push_cast at zeroSmall ⊢
  have inside : |(x / 100 * s.span).toRat + zero| ≤ 2 ^ 52 * 2 ^ (-15 : Int) := by
    calc |(x / 100 * s.span).toRat + zero| ≤ |(x / 100 * s.span).toRat| + |(zero : Rat)| :=
          abs_add_le _ _
      _ ≤ 2 ^ (-15 : Int) + 15 * 2 ^ 32 + 2 ^ 31 := add_le_add
          ((sub_le_iff_le_add.mp (abs_sub_abs_le_abs_sub _ (p * step : Rat))).trans
            (add_le_add near offset)) zeroSmall
      _ ≤ 2 ^ 52 * 2 ^ (-15 : Int) := by norm_num
  obtain ⟨isFinite, moved⟩ := rounds.abs_sub_le (by decide) (by decide) inside
  refine ⟨isFinite, ?_⟩
  have shifted : (x / 100 * s.span).toRat + zero - (zero + p * step) =
      (x / 100 * s.span).toRat - p * step := by ring
  calc |(s.unrounded x).toRat - (zero + p * step)| ≤ _ :=
        abs_sub_le _ ((x / 100 * s.span).toRat + zero) _
    _ ≤ 2 ^ (-15 : Int) + 2 ^ (-15 : Int) := add_le_add moved (by rwa [shifted])
    _ = 2 ^ (-14 : Int) := by norm_num

/-- A hundredth part that is not rounded toward the zero point leads to the whole raw value. -/
theorem le_unrounded (whole : s.Whole zero step) (percent : x.toInt? = some p)
    (small : p.natAbs ≤ 1000)
    (outward : (p * step : Rat) ≤ (x / 100).toRat * (100 * step)) :
    ((zero + p * step : Int) : Rat) ≤ (s.unrounded x).toRat := by
  obtain ⟨product, near⟩ := whole.product percent small
  obtain ⟨sum, -⟩ := whole.sum percent small
  have offset := whole.offset_le small
  have zeroSmall := whole.zeroSmall
  have room : (2 : Rat) ^ (-16 : Int) ≤ 1 := by norm_num
  have above : (x / 100).toRat * (100 * step) ≤ ((p * step + 1 : Int) : Rat) := by
    push_cast
    linarith [(abs_le.mp near).2]
  obtain ⟨-, low, high⟩ := product.between (representable_int (n := p * step) (by omega))
    (representable_int (n := p * step + 1) (by omega)) (by exact_mod_cast outward) above
  push_cast at low high
  obtain ⟨-, least, -⟩ := sum.between (representable_int (n := zero + p * step) (by omega))
    (representable_int (n := zero + p * step + 1) (by omega)) (by push_cast; linarith)
    (by push_cast; linarith)
  exact least

theorem toRaw (whole : s.Whole zero step) (percent : x.toInt? = some p)
    (small : p.natAbs ≤ 1000) :
    (s.toRaw x).toInt? = some ⌊(s.unrounded x).toRat⌋ ∧
      zero + p * step - 1 ≤ ⌊(s.unrounded x).toRat⌋ ∧
      ⌊(s.unrounded x).toRat⌋ ≤ zero + p * step := by
  obtain ⟨isFinite, near⟩ := whole.unrounded_near percent small
  have offset := whole.offset_le small
  have zeroSmall := whole.zeroSmall
  have room : (2 : Rat) ^ (-14 : Int) < 1 := by norm_num
  obtain ⟨low, high⟩ := abs_le.mp near
  have least : zero + p * step - 1 ≤ ⌊(s.unrounded x).toRat⌋ := by
    refine Int.le_floor.mpr ?_
    push_cast at low ⊢
    linarith
  have greatest : ⌊(s.unrounded x).toRat⌋ < zero + p * step + 1 := by
    refine Int.floor_lt.mpr ?_
    push_cast at high ⊢
    linarith
  exact ⟨toInt?_floor isFinite rfl (by omega), least, Int.lt_add_one_iff.mp greatest⟩

/-- A whole raw value is turned into a percentage without loss but for the floor. -/
theorem toPercent (whole : s.Whole zero step) {raw : Binary64} {offset : Int}
    (read : raw.toInt? = some (zero + offset)) (near : offset.natAbs ≤ 2 ^ 37)
    (small : ⌊(offset : Rat) / step⌋.natAbs < 2 ^ 20) :
    (s.toPercent raw).toInt? = some ⌊(offset : Rat) / step⌋ := by
  have difference := toInt?_sub read whole.zeroPoint (by omega)
  rw [add_sub_cancel_left] at difference
  have hundreds := toInt?_mul difference toInt?_hundred (by omega)
  have distinct := whole.distinct
  have cancelled : ((offset * 100 : Int) : Rat) / ((100 * step : Int) : Rat) = offset / step := by
    push_cast
    rw [mul_comm (offset : Rat), mul_div_mul_left _ _ (by norm_num)]
  have quotient := toInt?_floor_div hundreds whole.span (by omega) whole.span_le
  rw [cancelled] at quotient
  exact quotient small

end Whole

theorem floor_mul_div {step : Int} (distinct : step ≠ 0) (p : Int) :
    ⌊((p * step : Int) : Rat) / step⌋ = p := by
  have real : (step : Rat) ≠ 0 := by exact_mod_cast distinct
  rw [Int.cast_mul, mul_div_cancel_right₀ _ real, Int.floor_intCast]

/-- One raw unit less is less than a percentage less, if the points are far enough apart. -/
theorem floor_pred_mul_div {step : Int} (distinct : step ≠ 0) (p : Int) :
    ⌊((p * step - 1 : Int) : Rat) / step⌋ = if step < -1 then p else p - step.sign := by
  have real : (step : Rat) ≠ 0 := by exact_mod_cast distinct
  have split : ((p * step - 1 : Int) : Rat) / step = p + -(1 / step) := by
    push_cast
    field_simp
    ring
  rw [split, Int.floor_intCast_add]
  by_cases far : step < -1
  · have bound : (step : Rat) < -1 := by exact_mod_cast far
    have none : ⌊-(1 / step : Rat)⌋ = 0 := by
      refine Int.floor_eq_zero_iff.mpr ⟨?_, ?_⟩
      · rw [Left.nonneg_neg_iff]
        exact div_nonpos_of_nonneg_of_nonpos zero_le_one (by linarith)
      · rw [← div_neg, div_lt_one (by linarith)]
        linarith
    rw [if_pos far, none, add_zero]
  · rw [if_neg far]
    rcases lt_or_gt_of_ne distinct with below | above
    · obtain rfl : step = -1 := by omega
      norm_num
    · have bound : (1 : Rat) ≤ step := by exact_mod_cast above
      have one : ⌊-(1 / step : Rat)⌋ = -1 := by
        have positive : (0 : Rat) < 1 / step := by positivity
        have atMost : 1 / (step : Rat) ≤ 1 := (div_le_one (by linarith)).mpr bound
        refine Int.floor_eq_iff.mpr ⟨?_, ?_⟩
        · push_cast
          linarith
        · push_cast
          linarith
      rw [one, Int.sign_eq_one_of_pos above]
      rfl

section RawValues

variable {s : Scaling} {zero step p : Int} {n : Binary64}

theorem Whole.toPercent_reached (whole : s.Whole zero step) (small : p.natAbs ≤ 1000)
    (read : n.toInt? = some (zero + p * step)) : (s.toPercent n).toInt? = some p := by
  have offset := whole.offset_le small
  have percent := whole.toPercent read (by omega)
  rw [floor_mul_div whole.distinct] at percent
  exact percent (by omega)

theorem Whole.toPercent_missed (whole : s.Whole zero step) (small : p.natAbs ≤ 1000)
    (read : n.toInt? = some (zero + (p * step - 1))) :
    (s.toPercent n).toInt? = some (if step < -1 then p else p - step.sign) := by
  have offset := whole.offset_le small
  have sign := Int.natAbs_sign_of_ne_zero whole.distinct
  have percent := whole.toPercent read (by omega)
  rw [floor_pred_mul_div whole.distinct] at percent
  exact percent (by split <;> omega)

end RawValues

/-- What a whole percentage becomes on the way to a raw value and back. -/
structure RoundTrip (s : Scaling) (zero step : Int) (x : Binary64) (p staged reported : Int) :
    Prop where
  toRaw : (s.toRaw x).toInt? = some staged
  toPercent : (s.toPercent (s.toRaw x)).toInt? = some reported
  /-- The same for the staged word, which has no sign if it is zero. -/
  shown : (s.toPercent (.ofInt staged)).toInt? = some reported
  /-- The floor is one too low where rounding has left the sum short of the raw value. -/
  staged_eq : staged =
    if ((zero + p * step : Int) : Rat) ≤ (s.unrounded x).toRat then zero + p * step
    else zero + p * step - 1
  /-- Points in descending order hide this, unless a percentage is a single raw unit. -/
  kept : staged = zero + p * step ∨ step < -1 → reported = p
  lost : staged ≠ zero + p * step → -1 ≤ step → reported = p - step.sign
  /-- The sum does not fall short if the hundredth part is not rounded toward the zero point. -/
  outward : (p * step : Rat) ≤ (x / 100).toRat * (100 * step) → staged = zero + p * step
  quarters : 25 ∣ p → staged = zero + p * step

theorem Whole.exists_roundTrip {s : Scaling} {zero step p : Int} {x : Binary64}
    (whole : s.Whole zero step) (percent : x.toInt? = some p) (small : p.natAbs ≤ 1000) :
    ∃ staged reported, s.RoundTrip zero step x p staged reported ∧ staged.natAbs ≤ 2 ^ 37 ∧
      reported.natAbs ≤ 1001 := by
  obtain ⟨raw, least, greatest⟩ := whole.toRaw percent small
  have offset := whole.offset_le small
  have zeroSmall := whole.zeroSmall
  have full : ((zero + p * step : Int) : Rat) ≤ (s.unrounded x).toRat ↔
      ⌊(s.unrounded x).toRat⌋ = zero + p * step := by
    rw [← Int.le_floor]
    omega
  have outward : (p * step : Rat) ≤ (x / 100).toRat * (100 * step) →
      ⌊(s.unrounded x).toRat⌋ = zero + p * step :=
    fun outward => full.mp (whole.le_unrounded percent small outward)
  have quarters : 25 ∣ p → ⌊(s.unrounded x).toRat⌋ = zero + p * step := by
    intro quarters
    refine outward (le_of_eq ?_)
    rw [Whole.hundredth_exact percent small quarters]
    ring
  generalize ⌊(s.unrounded x).toRat⌋ = staged at *
  have sign := Int.natAbs_sign_of_ne_zero whole.distinct
  have word : (ofInt staged).toInt? = some staged := toInt?_ofInt_le (by omega)
  rcases (by omega : staged = zero + p * step ∨ staged = zero + (p * step - 1)) with rfl | rfl
  · refine ⟨_, p, ⟨raw, whole.toPercent_reached small raw, whole.toPercent_reached small word, ?_,
      fun _ => rfl, fun lost => absurd rfl lost, outward, quarters⟩, by omega, by omega⟩
    rw [if_pos (full.mpr rfl)]
  · refine ⟨_, _, ⟨raw, whole.toPercent_missed small raw, whole.toPercent_missed small word, ?_, ?_, ?_,
      outward, quarters⟩, by omega, by split <;> omega⟩
    · rw [if_neg fun le => absurd (full.mp le) (by omega), add_sub_assoc]
    · rintro (same | far)
      · omega
      · rw [if_pos far]
    · intro _ near
      rw [if_neg (by omega)]

end Scaling

namespace DeviceUnit

/-- A command sets a word and a status shows it, both in percent. -/
structure LoopsPercent (unit : DeviceUnit) (scaling : Scaling) (command : String) (status : Status)
    (i : Nat) : Prop where
  scaled : unit.scaling = some scaling
  formula : ∃ formula, unit.commands.get? command = some [formula] ∧
    formula.tree = .binary .assign (.identifier (wordName i)) (.identifier "current")
  listed : status ∈ unit.statuses
  shows : status.formula.tree = .identifier (wordName i)

theorem exists_loopsPercent {model : Model} {c : Catalog} (compiled : Catalog.compile model = .ok c)
    {spec : UnitSpec} (listed : spec ∈ model.units) {scaling : Scaling}
    (scaled : Scaling.ofSpec? spec = some scaling) {i : Nat} {command name : String}
    {single : CommandSpec}
    (sets : (OrderedMap.ofList spec.commandSources).get? command = some single)
    (source : single.sources = [assignmentSource i])
    (shows : (name, wordName i) ∈ spec.statusSources) :
    ∃ unit ∈ c.units, unit.device = spec.device ∧
      ∃ status, status.name = name ∧ unit.LoopsPercent scaling command status i := by
  obtain ⟨unit, member, device, scaling, -, -, formula, status, statusMember, named, shown⟩ :=
    Catalog.exists_of_sources compiled listed sets source shows
  exact ⟨unit, member, device, status, named, scaling.trans scaled, formula, statusMember, shown⟩

theorem commandValue?_of_percent {unit : DeviceUnit} {scaling : Scaling}
    (scaled : unit.scaling = some scaling) {text : String} {x : Binary64}
    (read : Binary64.read? (.ofList (trim text.toList)) = some x) (isFinite : x.isFinite = true) :
    unit.commandValue? (some text) = some (.number (scaling.toRaw x)) := by
  simp only [commandValue?, scaled, Option.bind_some, bind, read, isFinite, if_true]

/-- What a status makes of its word: an integer, which is multiplied like any value of the unit and
published as it is if there is no multiplier. -/
structure Reports (unit : DeviceUnit) (status : Status) (value : Value) (reported : Int) : Prop where
  scaled : ∃ n : Binary64, n.toInt? = some reported ∧
    unit.scale value = .number (unit.multiplier.elim n (n * ·))
  published : unit.multiplier = none → ∀ previous, unit.overflow = none ∨ previous = none →
    Tracker.statusEvent unit status (unit.accumulate value previous) =
      ⟨unit.device, status.name, .number (.integer reported), unit.units⟩

theorem reports_of_scaling {unit : DeviceUnit} {scaling : Scaling}
    (scaled : unit.scaling = some scaling) (status : Status) {n : Binary64} {reported : Int}
    (percent : (scaling.toPercent n).toInt? = some reported) (small : reported.natAbs < 2 ^ 53) :
    unit.Reports status (.number n) reported := by
  constructor
  · refine ⟨_, percent, ?_⟩
    cases multiplied : unit.multiplier <;>
      simp only [scale, scaled, multiplied, Option.elim_none, Option.elim_some]
  · intro unmultiplied previous steady
    have same : unit.accumulate (.number n) previous = .number n := by
      rcases steady with steady | rfl
      · exact Tracker.accumulate_of_overflow_eq_none steady _ _
      · unfold accumulate
        cases unit.overflow <;> rfl
    have value : unit.scale (.number n) = .number (scaling.toPercent n) := by
      simp only [scale, scaled, unmultiplied]
    rw [same, Tracker.statusEvent, value, Value.toJson_of_toInt? percent small]

/-- A command for a whole percentage stages the raw value or one less. The status of that word shows
the percentage again or is one percent off. -/
theorem percent_reported {unit : DeviceUnit} {scaling : Scaling} {command : String}
    {status : Status} {i : Nat} (loops : unit.LoopsPercent scaling command status i)
    (below : i < addressBound) {zero step p : Int} (whole : scaling.Whole zero step)
    (small : p.natAbs ≤ 1000) {text : String} {x : Binary64}
    (read : Binary64.read? (.ofList (trim text.toList)) = some x) (percent : x.toInt? = some p)
    (pending : Pending) :
    ∃ staged reported, scaling.RoundTrip zero step x p staged reported ∧
      (Int64.ofInt staged).toInt = staged ∧
      unit.resolve command (some text) pending =
        .ok (⟨[.word i (Int64.ofInt staged)], []⟩, pending.stage i (Int64.ofInt staged)) ∧
      ∀ snapshot : Snapshot, snapshot.words[i]? = some (some (Int64.ofInt staged)) →
        ∃ value, evaluate snapshot.environment status.formula.tree = .ok value ∧
          unit.Reports status value reported := by
  obtain ⟨isFinite, -⟩ := Binary64.toInt?_eq_some.mp percent
  obtain ⟨staged, reported, trip, stagedSmall, reportedSmall⟩ :=
    whole.exists_roundTrip percent small
  have given := commandValue?_of_percent loops.scaled read isFinite
  have word : (Value.number (scaling.toRaw x)).toWord = Int64.ofInt staged :=
    Value.toWord_of_toInt? trip.toRaw (by omega)
  refine ⟨staged, reported, trip, Value.toInt_ofInt (by omega), ?_, fun snapshot set => ?_⟩
  · rw [resolve_of_commandValue? loops.formula below given, word]
  · refine ⟨.ofWord (Int64.ofInt staged), ?_, ?_⟩
    · rw [loops.shows]
      exact evaluate_wordName set
    · rw [Value.ofWord_ofInt (by omega)]
      exact reports_of_scaling loops.scaled status trip.shown (by omega)

end DeviceUnit

def percentUnit (device : String) (id i : Nat) (zero hundred : Int) : DeviceUnit :=
  { device := device, statuses := [⟨"level", id, ⟨wordName i, .identifier (wordName i)⟩⟩]
    commands := .ofList [("set", [⟨assignmentSource i,
      .binary .assign (.identifier (wordName i)) (.identifier "current")⟩])]
    units := some "%", scaling := some ⟨.ofInt zero, .ofInt hundred⟩, multiplier := none
    overflow := none }

def percentSpec (device : String) (i : Nat) (zero hundred : Int) : UnitSpec :=
  (((UnitSpec.new device).withPercent (.ofInt zero) (.ofInt hundred)).withStatus "level"
    (wordName i)).withCommand "set" (.single (assignmentSource i))

/-- A lamp whose word is its percentage, and a blind whose word falls as it opens. -/
def blindModel : Model :=
  ⟨[percentSpec "lamp" 0 0 100, percentSpec "blind" 1 (-300) (-1000)]⟩

def blindCatalog : Catalog :=
  { units := [percentUnit "lamp" 0 0 0 100, percentUnit "blind" 1 1 (-300) (-1000)]
    byDevice := .ofList [("lamp", 0), ("blind", 1)]
    watched := .ofList [("W0", [⟨0, 0, 0⟩]), ("W1", [⟨1, 0, 1⟩])], statusCount := 2 }

theorem blindModel_compiles : Catalog.compile blindModel = .ok blindCatalog :=
  eq_ok_of_toOption (by decide +kernel)

/-- The blind is told a percentage whose raw value 2920 is missed, and shows it. -/
theorem blind_percent_reported :
    let unit := percentUnit "blind" 1 1 (-300) (-1000)
    unit.LoopsPercent ⟨.ofInt (-300), .ofInt (-1000)⟩ "set" unit.statuses[0] 1 ∧
      Scaling.Whole ⟨.ofInt (-300), .ofInt (-1000)⟩ (-300) (-7) ∧
      Binary64.read? (.ofList (trim " -4.6e2 ".toList)) = some (.ofInt (-460)) ∧
      (Binary64.ofInt (-460)).toInt? = some (-460) ∧
      unit.resolve "set" (some " -4.6e2 ") .empty =
        .ok (⟨[.word 1 2919], []⟩, Pending.empty.stage 1 2919) ∧
      ∀ snapshot : Snapshot, snapshot.words[1]? = some (some 2919) →
        ∃ value, evaluate snapshot.environment unit.statuses[0].formula.tree = .ok value ∧
          unit.Reports unit.statuses[0] value (-460) := by
  intro unit
  have loops : unit.LoopsPercent ⟨.ofInt (-300), .ofInt (-1000)⟩ "set" unit.statuses[0] 1 := by
    have listed : percentSpec "blind" 1 (-300) (-1000) ∈ blindModel.units :=
      List.mem_cons_of_mem _ (List.mem_singleton_self _)
    have scaled : Scaling.ofSpec? (percentSpec "blind" 1 (-300) (-1000)) =
        some ⟨.ofInt (-300), .ofInt (-1000)⟩ := by decide +kernel
    have sets : (OrderedMap.ofList (percentSpec "blind" 1 (-300) (-1000)).commandSources).get? "set" =
        some (.single (assignmentSource 1)) := by decide +kernel
    have shows : ("level", wordName 1) ∈ (percentSpec "blind" 1 (-300) (-1000)).statusSources := by
      decide +kernel
    obtain ⟨other, member, device, status, -, loops⟩ := DeviceUnit.exists_loopsPercent
      blindModel_compiles listed scaled sets (by decide +kernel) shows
    obtain rfl : other = unit := by
      rcases List.mem_cons.mp member with rfl | last
      · exact absurd device (by decide)
      · exact List.mem_singleton.mp last
    obtain rfl : status = unit.statuses[0] := List.mem_singleton.mp loops.listed
    exact loops
  have whole : Scaling.Whole ⟨.ofInt (-300), .ofInt (-1000)⟩ (-300) (-7) :=
    ⟨by decide +kernel, by decide +kernel, by decide, by decide, by decide⟩
  have read : Binary64.read? (.ofList (trim " -4.6e2 ".toList)) = some (.ofInt (-460)) := by
    decide +kernel
  have percent : (Binary64.ofInt (-460)).toInt? = some (-460) := by decide +kernel
  obtain ⟨staged, reported, trip, -, resolved, shown⟩ := DeviceUnit.percent_reported loops
    (by decide) whole (by decide) read percent .empty
  have raw : (Scaling.toRaw ⟨.ofInt (-300), .ofInt (-1000)⟩ (.ofInt (-460))).toInt? = some 2919 := by
    decide +kernel
  obtain rfl : staged = 2919 := Option.some.inj (trip.toRaw.symm.trans raw)
  obtain rfl : reported = -460 := trip.kept (.inr (by decide))
  exact ⟨loops, whole, read, percent, resolved, shown⟩

/-- The lamp is told 29 percent, is set to 28, and shows that. -/
theorem lamp_percent_lost :
    let unit := percentUnit "lamp" 0 0 0 100
    unit.LoopsPercent ⟨0, 100⟩ "set" unit.statuses[0] 0 ∧ Scaling.Whole ⟨0, 100⟩ 0 1 ∧
      (29 : Binary64).toInt? = some 29 ∧
      (Scaling.toPercent ⟨0, 100⟩ (Scaling.toRaw ⟨0, 100⟩ 29)).toInt? = some 28 ∧
      unit.resolve "set" (some "29") .empty = .ok (⟨[.word 0 28], []⟩, Pending.empty.stage 0 28) ∧
      evaluate (Snapshot.mk none [some 28]).environment unit.statuses[0].formula.tree =
        .ok (.ofWord 28) ∧
      Tracker.statusEvent unit unit.statuses[0] (.ofWord 28) =
        ⟨"lamp", "level", .number (.integer 28), some "%"⟩ := by
  refine ⟨⟨rfl, ⟨_, rfl, rfl⟩, List.mem_cons_self, rfl⟩,
    ⟨by decide +kernel, by decide +kernel, by decide, by decide, by decide⟩, by decide +kernel,
    by decide +kernel, ?_, evaluate_wordName rfl, by decide +kernel⟩
  exact eq_ok_of_toOption (by decide +kernel)

end RegisterBridge
