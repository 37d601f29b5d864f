import Mathlib.Algebra.Ring.Nat
import Mathlib.Data.List.Range
import AirQuality.Framework.Machine

/-!
# The report scheduler (`next_report_gen`)

`next_report_gen` names the report generator to use next: the boot report in the first call, then
the reports of RPL and of MQTT-SN in turn. All it keeps is `reportno`, an `unsigned int` that
counts the calls. On the node that has 16 bits, so that the call after `2 ^ 16` others looks like
the first one: the boot report is sent again, in place of a report of MQTT-SN (`results_getElem?`).
Up to there the schedule is as it should be (`scheduled_iff`).
-/

namespace AirQuality

open Machine

/-- The report generators, with `MODULE_GNRC_RPL`. -/
inductive ReportName where
  | bootReport
  | rplReport
  | mqttsnReport
  deriving DecidableEq

/-- `report_state_t`. -/
def sRplReport : UInt16 := 0
def sMqttsnReport : UInt16 := 1
def sMaxReport : UInt16 := 2

/-- **`next_report_gen`**: the counter afterwards and the generator, or `NULL`. -/
def nextReportGen (reportno : UInt16) : UInt16 × Option ReportName :=
  let old := reportno
  let reportno := reportno + 1
  -- the comparison is with the value before
  if old = 0 then (reportno, some .bootReport)
  else if reportno % sMaxReport = sRplReport then (reportno, some .rplReport)
  else if reportno % sMaxReport = sMqttsnReport then (reportno, some .mqttsnReport)
  else (reportno, none)

/-- What the first `n` calls return. -/
def results (n : ℕ) : List (Option ReportName) :=
  trace (fun reportno _ => (nextReportGen reportno).1)
    (fun reportno _ => [(nextReportGen reportno).2]) 0 (List.replicate n ())

/-- **The schedule**: the boot report first and never again, a generator in every call, and the
two others in turn. -/
structure Scheduled (rs : List (Option ReportName)) : Prop where
  first : ∀ r, rs[0]? = some r → r = some .bootReport
  later : ∀ k r, 0 < k → rs[k]? = some r → r ≠ some .bootReport
  notNull : none ∉ rs
  alternates : ∀ k a b, 0 < k → rs[k]? = some a → rs[k + 1]? = some b →
    (a = some .rplReport ∧ b = some .mqttsnReport) ∨
      (a = some .mqttsnReport ∧ b = some .rplReport)

/-! ### Calls -/

/-- What the call after `k` others returns. -/
def reportAt (k : ℕ) : ReportName :=
  if k % 2 ^ 16 = 0 then .bootReport else if k % 2 = 1 then .rplReport else .mqttsnReport

theorem nextReportGen_ofNat (k : ℕ) :
    nextReportGen (UInt16.ofNat k) = (UInt16.ofNat (k + 1), some (reportAt k)) := by
  have h_next : UInt16.ofNat k + 1 = UInt16.ofNat (k + 1) := (UInt16.ofNat_add k 1).symm
  have h_first : UInt16.ofNat k = 0 ↔ k % 2 ^ 16 = 0 := by
    rw [← UInt16.toNat_inj, UInt16.toNat_ofNat']
    rfl
  -- the number of the call is taken modulo 2, and `2 ^ 16` is even
  have h_parity : (UInt16.ofNat (k + 1) % sMaxReport).toNat = (k + 1) % 2 := by
    calc (UInt16.ofNat (k + 1) % sMaxReport).toNat
        = (k + 1) % 2 ^ 16 % 2 := by
          rw [UInt16.toNat_mod, UInt16.toNat_ofNat']
          rfl
      _ = (k + 1) % 2 := Nat.mod_mod_of_dvd _ (by decide)
  have h_rpl : UInt16.ofNat (k + 1) % sMaxReport = sRplReport ↔ k % 2 = 1 := by
    rw [← UInt16.toNat_inj, h_parity]
    show (k + 1) % 2 = 0 ↔ k % 2 = 1
    omega
  have h_mqttsn : UInt16.ofNat (k + 1) % sMaxReport = sMqttsnReport ↔ ¬ k % 2 = 1 := by
    rw [← UInt16.toNat_inj, h_parity]
    show (k + 1) % 2 = 1 ↔ ¬ k % 2 = 1
    omega
  unfold nextReportGen reportAt
  simp only [h_next, h_first, h_rpl, h_mqttsn]
  split; · rfl
  split; · rfl
  rfl

/-! ### Runs -/

/-- The counter counts the calls, modulo `2 ^ 16`. -/
theorem reportno_after (n : ℕ) :
    run (fun reportno (_ : Unit) => (nextReportGen reportno).1) 0 (List.replicate n ())
      = UInt16.ofNat n := by
  induction n with
  | zero => rfl
  | succ n ih =>
    rw [List.replicate_succ', run_concat, ih]
    exact congrArg Prod.fst (nextReportGen_ofNat n)

/-- One more call. -/
theorem results_succ (n : ℕ) : results (n + 1) = results n ++ [some (reportAt n)] := by
  unfold results
  rw [List.replicate_succ', trace_concat, reportno_after, nextReportGen_ofNat]

theorem results_eq (n : ℕ) : results n = (List.range n).map fun k => some (reportAt k) := by
  induction n with
  | zero => rfl
  | succ n ih =>
    rw [results_succ, ih, List.range_succ, List.map_append]
    rfl

/-- **The schedule that the code has**: the counter starts over after `2 ^ 16` calls. -/
theorem results_getElem? {n k : ℕ} {r : Option ReportName} :
    (results n)[k]? = some r ↔ k < n ∧ r = some (reportAt k) := by
  rw [results_eq, List.getElem?_map]
  by_cases h : k < n
  · rw [List.getElem?_range h]
    simp [h, eq_comm]
  · rw [List.getElem?_eq_none (by simpa using h)]
    simp [h]

theorem reportAt_of_lt {k : ℕ} (h_pos : 0 < k) (h_lt : k < 2 ^ 16) :
    reportAt k = if k % 2 = 1 then .rplReport else .mqttsnReport := by
  rw [reportAt, Nat.mod_eq_of_lt h_lt, if_neg (Nat.ne_of_gt h_pos)]

/-- **When the schedule is kept.** In a run of `n` calls, the boot report comes first and never
again, no call returns `NULL`, and the two other reports alternate, if and only if there are at
most `2 ^ 16` calls. -/
theorem scheduled_iff (n : ℕ) : Scheduled (results n) ↔ n ≤ 2 ^ 16 := by
  constructor
  · intro h
    by_contra h_more
    -- the call after `2 ^ 16` others
    have h_again : (results n)[2 ^ 16]? = some (some .bootReport) :=
      results_getElem?.mpr ⟨by omega, rfl⟩
    exact h.later (2 ^ 16) _ (by decide) h_again rfl
  · intro h_n
    constructor
    case first =>
      intro r h_r
      exact (results_getElem?.mp h_r).2
    case later =>
      intro k r h_pos h_r
      obtain ⟨h_k, rfl⟩ := results_getElem?.mp h_r
      rw [reportAt_of_lt h_pos (by omega)]
      split <;> decide
    case notNull =>
      rw [results_eq]
      simp
    case alternates =>
      intro k a b h_pos h_a h_b
      obtain ⟨h_k, rfl⟩ := results_getElem?.mp h_a
      obtain ⟨h_next, rfl⟩ := results_getElem?.mp h_b
      rw [reportAt_of_lt h_pos (by omega), reportAt_of_lt (by omega) (by omega)]
      by_cases h_odd : k % 2 = 1
      · exact .inl ⟨by rw [if_pos h_odd], by rw [if_neg (by omega)]⟩
      · exact .inr ⟨by rw [if_neg h_odd], by rw [if_pos (by omega)]⟩

/-- The boot report again, in the call after `2 ^ 16` others. -/
theorem bootReport_again :
    (results 65537)[65536]? = some (some .bootReport) ∧ ¬ Scheduled (results 65537) := by
  have h_again : (results 65537)[65536]? = some (some .bootReport) :=
    results_getElem?.mpr ⟨by decide, rfl⟩
  exact ⟨h_again, fun h => h.later 65536 _ (by decide) h_again rfl⟩

end AirQuality
