import Mathlib.Tactic.NormNum
import AirQuality.Web.Model

/-!
# The air quality index (`checkCAQI` in `model.js`)

`checkCAQI` finds the class of a value by a chain of comparisons, with four limits for PM2.5 and
four others for PM10. The chain repeats every limit, once from below and once from above, so that a
slip in one of them would leave a gap. There is none: the class is the number of limits that the
value is above (`classOf_eq`), and only what JavaScript cannot compare with a number has no class
(`checkCAQI_classifies`).
-/

namespace AirQuality.Web

/-- `v <= x`; comparisons with `NaN` are false. -/
def JsValue.atMost (v : JsValue) (x : ℚ) : Bool :=
  match v.toNumber with
  | some y => decide (y ≤ (x : WithTop ℚ))
  | none => false

/-- `x < v`. -/
def JsValue.greaterThan (v : JsValue) (x : ℚ) : Bool :=
  match v.toNumber with
  | some y => decide (((x : WithTop ℚ) : JsNumber) < y)
  | none => false

/-- What `checkCAQI` returns: the string `"error"`, or an object. -/
inductive CaqiResp where
  | error
  | caqi (risk color : String)
  deriving DecidableEq

def checkCAQI (pType : ℚ) (pVal : JsValue) : CaqiResp :=
  if (pType = 2.5 ∧ pVal.atMost 15) ∨ (pType = 10 ∧ pVal.atMost 25) then
    .caqi "very low" "#79bc6a"
  else if (pType = 2.5 ∧ pVal.greaterThan 15 ∧ pVal.atMost 30) ∨
      (pType = 10 ∧ pVal.greaterThan 25 ∧ pVal.atMost 50) then
    .caqi "low" "#bbcf4c"
  else if (pType = 2.5 ∧ pVal.greaterThan 30 ∧ pVal.atMost 55) ∨
      (pType = 10 ∧ pVal.greaterThan 50 ∧ pVal.atMost 90) then
    .caqi "medium" "#eec20b"
  else if (pType = 2.5 ∧ pVal.greaterThan 55 ∧ pVal.atMost 110) ∨
      (pType = 10 ∧ pVal.greaterThan 90 ∧ pVal.atMost 180) then
    .caqi "high" "#f29305"
  else if (pType = 2.5 ∧ pVal.greaterThan 110) ∨ (pType = 10 ∧ pVal.greaterThan 180) then
    .caqi "very high" "#e8416f"
  else .error

/-! ### Classes -/

/-- The limits of a particle size, if it has any. -/
def limitsOf (pType : ℚ) : Option (List ℚ) :=
  if pType = 2.5 then some [15, 30, 55, 110]
  else if pType = 10 then some [25, 50, 90, 180]
  else none

/-- The classes, from the lowest to the highest. -/
def classes : List CaqiResp :=
  [.caqi "very low" "#79bc6a", .caqi "low" "#bbcf4c", .caqi "medium" "#eec20b",
    .caqi "high" "#f29305", .caqi "very high" "#e8416f"]

/-- How many limits the value is above. -/
def levelOf (limits : List ℚ) (x : JsNumber) : ℕ :=
  limits.countP fun limit => decide (((limit : WithTop ℚ) : JsNumber) < x)

theorem levelOf_mono (limits : List ℚ) {x y : JsNumber} (h : x ≤ y) :
    levelOf limits x ≤ levelOf limits y :=
  List.countP_mono_left fun _ _ h_above =>
    decide_eq_true ((of_decide_eq_true h_above).trans_le h)

/-- The chain of comparisons for one particle size. -/
def classOf {α : Type} [LinearOrder α] (a b c d x : α) : CaqiResp :=
  if x ≤ a then .caqi "very low" "#79bc6a"
  else if a < x ∧ x ≤ b then .caqi "low" "#bbcf4c"
  else if b < x ∧ x ≤ c then .caqi "medium" "#eec20b"
  else if c < x ∧ x ≤ d then .caqi "high" "#f29305"
  else if d < x then .caqi "very high" "#e8416f"
  else .error

/-- **The chain has no gap.** -/
theorem classOf_eq {α : Type} [LinearOrder α] {a b c d : α} (h_ab : a < b) (h_bc : b < c)
    (h_cd : c < d) (x : α) :
    classes[[a, b, c, d].countP fun limit => decide (limit < x)]? = some (classOf a b c d x) := by
  unfold classOf
  -- from one limit to the next: what is above it is above those before it
  rcases le_or_gt x a with h_a | h_a
  · have h_b := h_a.trans_lt h_ab
    have h_c := h_b.trans h_bc
    have h_d := h_c.trans h_cd
    simp [classes, h_a, h_a.not_gt, h_b.not_gt, h_c.not_gt, h_d.not_gt]
  rcases le_or_gt x b with h_b | h_b
  · have h_c := h_b.trans_lt h_bc
    have h_d := h_c.trans h_cd
    simp [classes, h_a, h_a.not_ge, h_b, h_b.not_gt, h_c.not_gt, h_d.not_gt]
  rcases le_or_gt x c with h_c | h_c
  · have h_d := h_c.trans_lt h_cd
    simp [classes, h_a, h_a.not_ge, h_b, h_b.not_ge, h_c, h_c.not_gt, h_d.not_gt]
  rcases le_or_gt x d with h_d | h_d
  · simp [classes, h_a, h_a.not_ge, h_b, h_b.not_ge, h_c, h_c.not_ge, h_d, h_d.not_gt]
  · simp [classes, h_a, h_a.not_ge, h_b, h_b.not_ge, h_c, h_c.not_ge, h_d, h_d.not_ge]

/-- A limit, as it is compared. -/
theorem limit_lt {x y : ℚ} (h : x < y) : ((x : WithTop ℚ) : JsNumber) < (y : WithTop ℚ) :=
  WithBot.coe_lt_coe.mpr (WithTop.coe_lt_coe.mpr h)

section

variable {pVal : JsValue} {x : JsNumber}

theorem checkCAQI_pm2_5 (h : pVal.toNumber = some x) :
    checkCAQI 2.5 pVal = classOf (((15 : ℚ) : WithTop ℚ) : JsNumber) ((30 : ℚ) : WithTop ℚ)
      ((55 : ℚ) : WithTop ℚ) ((110 : ℚ) : WithTop ℚ) x := by
  have h_ten : (2.5 : ℚ) ≠ 10 := by norm_num
  simp only [checkCAQI, classOf, JsValue.atMost, JsValue.greaterThan, h, true_and, h_ten, false_and,
    or_false, decide_eq_true_eq]

theorem checkCAQI_pm10 (h : pVal.toNumber = some x) :
    checkCAQI 10 pVal = classOf (((25 : ℚ) : WithTop ℚ) : JsNumber) ((50 : ℚ) : WithTop ℚ)
      ((90 : ℚ) : WithTop ℚ) ((180 : ℚ) : WithTop ℚ) x := by
  have h_other : (10 : ℚ) ≠ 2.5 := by norm_num
  simp only [checkCAQI, classOf, JsValue.atMost, JsValue.greaterThan, h, true_and, h_other,
    false_and, false_or, decide_eq_true_eq]

/-- What does not compare has no class. -/
theorem checkCAQI_nan (h : pVal.toNumber = none) (pType : ℚ) : checkCAQI pType pVal = .error := by
  simp [checkCAQI, JsValue.atMost, JsValue.greaterThan, h]

/-- Nor has another particle size. -/
theorem checkCAQI_other {pType : ℚ} (h : limitsOf pType = none) (pVal : JsValue) :
    checkCAQI pType pVal = .error := by
  unfold limitsOf at h
  split at h
  · cases h
  · next h_pm2_5 =>
    split at h
    · cases h
    · next h_pm10 => simp [checkCAQI, h_pm2_5, h_pm10]

end

/-- **`checkCAQI` is a classification.** The class is the number of limits of the particle size that
the value is above, once it is converted to a number. There is none, and the answer is `"error"`,
if and only if the particle size is neither 2.5 nor 10 or the value converts to `NaN`, as
`undefined` and most strings do. And a larger value is in no lower class. -/
theorem checkCAQI_classifies (pType : ℚ) :
    (∀ pVal, checkCAQI pType pVal = .error ↔ limitsOf pType = none ∨ pVal.toNumber = none) ∧
      ∀ limits, limitsOf pType = some limits →
        (∀ pVal x, pVal.toNumber = some x →
          classes[levelOf limits x]? = some (checkCAQI pType pVal)) ∧
        ∀ x y, x ≤ y → levelOf limits x ≤ levelOf limits y := by
  have h_class : ∀ limits, limitsOf pType = some limits → ∀ pVal x, pVal.toNumber = some x →
      classes[levelOf limits x]? = some (checkCAQI pType pVal) := by
    intro limits h_limits pVal x h_x
    unfold limitsOf at h_limits
    split at h_limits
    · next h_pm2_5 =>
      obtain rfl := Option.some.inj h_limits
      rw [h_pm2_5, checkCAQI_pm2_5 h_x]
      exact classOf_eq (limit_lt (by norm_num)) (limit_lt (by norm_num))
        (limit_lt (by norm_num)) x
    · split at h_limits
      · next h_pm10 =>
        obtain rfl := Option.some.inj h_limits
        rw [h_pm10, checkCAQI_pm10 h_x]
        exact classOf_eq (limit_lt (by norm_num)) (limit_lt (by norm_num))
          (limit_lt (by norm_num)) x
      · cases h_limits
  refine ⟨fun pVal => ⟨fun h_error => ?_, ?_⟩, fun limits h_limits =>
    ⟨h_class limits h_limits, fun x y h => levelOf_mono limits h⟩⟩
  · cases h_limits : limitsOf pType with
    | none => exact Or.inl rfl
    | some limits =>
      refine Or.inr ?_
      cases h_x : pVal.toNumber with
      | none => rfl
      | some x =>
        -- `"error"` is no class
        have h_mem := List.mem_of_getElem? (h_class limits h_limits pVal x h_x)
        rw [h_error] at h_mem
        exact absurd h_mem (by decide)
  · rintro (h_none | h_nan)
    · exact checkCAQI_other h_none pVal
    · exact checkCAQI_nan h_nan pType

/-- A string that stands for a number has the class of that number. -/
example : checkCAQI 2.5 (.string "abc" none) = .error ∧
    checkCAQI 2.5 (.string "31" (some ((31 : ℚ) : WithTop ℚ))) = .caqi "medium" "#eec20b" := by
  decide +kernel

end AirQuality.Web
