import AirQuality.Publisher.Pms5003

/-!
# The thread of the dust sensor driver (`pms5003.c`)

The thread waits for an interval, reads the sensor, and starts over. It takes the interval once,
from the sample period configured, in seconds; `wait_ms` takes milliseconds and `xtimer_usleep`
microseconds. The period is multiplied by 100, in an `unsigned` of 16 bits, and not by 1000, so
the thread sleeps for a tenth of the period, and for less if the product wraps
(`pmsSleep_toNat`). The only period kept is that of no wait at all (`sleepsBetween_iff`).
-/

namespace AirQuality

open Machine

/-- `struct pms_config`, in seconds. -/
structure PmsConfig where
  samplePeriod : UInt16
  warmupInterval : UInt16

/-- `PMS_SAMPLE_PERIOD` and `PMS_WARMUP_INTERVAL`, the defaults. -/
def pmsSamplePeriod : UInt16 := 10
def pmsWarmupInterval : UInt16 := 5

/-- `pms5003_config_sample_period` and `pms5003_config_warmup_interval`. -/
def pms5003ConfigSamplePeriod (samplePeriod : UInt16) (cfg : PmsConfig) : PmsConfig :=
  { cfg with samplePeriod := samplePeriod }
def pms5003ConfigWarmupInterval (warmupInterval : UInt16) (cfg : PmsConfig) : PmsConfig :=
  { cfg with warmupInterval := warmupInterval }

/-- The configuration that `pms5003_init` starts the thread with. -/
def pms5003Init (cfg : PmsConfig) : PmsConfig :=
  pms5003ConfigWarmupInterval pmsWarmupInterval (pms5003ConfigSamplePeriod pmsSamplePeriod cfg)

/-- What the thread does: sleep for a number of microseconds, and read the sensor. -/
inductive PmsEvent where
  | usleep (us : UInt32)
  | read (o : I2cOutcome)

/-- **`wait_ms`**, with the argument that reaches `xtimer_usleep`. -/
def waitMs (timeout : UInt32) : PmsEvent := .usleep (timeout * 1000)

/-- `uint32_t interval = pms_config.sample_period * 100`. The product is an `unsigned`. -/
def pmsInterval (cfg : PmsConfig) : UInt32 := (cfg.samplePeriod * 100).toUInt32

/-- One iteration of the loop of `pms5003_thread`. -/
def pmsIter (interval : UInt32) (d : Pms) (o : I2cOutcome) : Pms × List PmsEvent :=
  ((readPms5002 d o).1, [waitMs interval, .read o])

/-- **`pms5003_thread`** for as many iterations as the bus has outcomes: the driver's variables. -/
def pms5003Thread (cfg : PmsConfig) (os : List I2cOutcome) : Pms :=
  run (fun d o => (pmsIter (pmsInterval cfg) d o).1) Pms.boot os

/-- What it does on the way. -/
def pmsTrace (cfg : PmsConfig) (os : List I2cOutcome) : List PmsEvent :=
  trace (fun d o => (pmsIter (pmsInterval cfg) d o).1)
    (fun d o => (pmsIter (pmsInterval cfg) d o).2) Pms.boot os

/-- The microseconds slept in each iteration: the product wraps in 16 bits, the rest is exact. -/
theorem pmsSleep_toNat (cfg : PmsConfig) :
    (pmsInterval cfg * 1000).toNat = 100 * cfg.samplePeriod.toNat % 2 ^ 16 * 1000 := by
  have h_interval : (pmsInterval cfg).toNat = 100 * cfg.samplePeriod.toNat % 2 ^ 16 := by
    calc (pmsInterval cfg).toNat
        = (cfg.samplePeriod * 100).toNat := UInt16.toNat_toUInt32 _
      _ = cfg.samplePeriod.toNat * 100 % 2 ^ 16 := UInt16.toNat_mul _ _
      _ = 100 * cfg.samplePeriod.toNat % 2 ^ 16 := by rw [Nat.mul_comm]
  have h_lt := Nat.mod_lt (100 * cfg.samplePeriod.toNat) (show 0 < 2 ^ 16 by decide)
  rw [UInt32.toNat_mul, h_interval]
  exact Nat.mod_eq_of_lt (by simp only [UInt32.reduceToNat]; omega)

/-- **Between two reads the thread sleeps once**, for `us` microseconds. -/
def SleepsBetween (us : ℕ) (evs : List PmsEvent) : Prop :=
  ∀ pre o mid o' post, evs = pre ++ .read o :: (mid ++ .read o' :: post) →
    (∀ o'', .read o'' ∉ mid) → ∃ tmo, mid = [.usleep tmo] ∧ tmo.toNat = us

/-- The trace: a sleep and a read for each iteration. -/
theorem pmsTrace_eq (cfg : PmsConfig) (os : List I2cOutcome) :
    pmsTrace cfg os = os.flatMap fun o => [.usleep (pmsInterval cfg * 1000), .read o] := by
  suffices h : ∀ d, trace (fun d o => (pmsIter (pmsInterval cfg) d o).1)
      (fun d o => (pmsIter (pmsInterval cfg) d o).2) d os
      = os.flatMap fun o => [.usleep (pmsInterval cfg * 1000), .read o] from h Pms.boot
  induction os with
  | nil => exact fun _ => rfl
  | cons o os ih =>
    intro d
    rw [List.flatMap_cons, ← ih (readPms5002 d o).1]
    rfl

/-- In such a trace there is exactly one sleep between two reads. -/
theorem sleep_between {tmo : UInt32} {os : List I2cOutcome} {pre mid post : List PmsEvent}
    {o o' : I2cOutcome}
    (h : (os.flatMap fun o => [PmsEvent.usleep tmo, .read o])
      = pre ++ .read o :: (mid ++ .read o' :: post))
    (h_mid : ∀ o'', .read o'' ∉ mid) : mid = [.usleep tmo] := by
  induction os generalizing pre with
  | nil => simp at h
  | cons a os ih =>
    rw [List.flatMap_cons, List.cons_append, List.cons_append, List.nil_append] at h
    match pre with
    | [] => simp at h
    | [e] =>
      -- the first read is that of this iteration, the second that of the next one
      rw [List.cons_append, List.nil_append, List.cons.injEq, List.cons.injEq] at h
      obtain ⟨-, -, h_rest⟩ := h
      match os, mid with
      | [], mid => simp at h_rest
      | b :: os, [] => simp at h_rest
      | b :: os, [e₁] => simp at h_rest; simp [h_rest.1]
      | b :: os, e₁ :: e₂ :: mid =>
        have h_read : PmsEvent.read b = e₂ := by
          simp only [List.flatMap_cons, List.cons_append, List.cons.injEq] at h_rest
          exact h_rest.2.1
        exact absurd (by simp [h_read]) (h_mid b)
    | e :: e' :: pre =>
      rw [List.cons_append, List.cons_append, List.cons.injEq, List.cons.injEq] at h
      exact ih h.2.2

/-- A run with two reads shows how long the thread sleeps. -/
theorem sleepsBetween_pmsTrace (us : ℕ) (cfg : PmsConfig) (os : List I2cOutcome) :
    SleepsBetween us (pmsTrace cfg os) ↔
      os.length ≤ 1 ∨ (pmsInterval cfg * 1000).toNat = us := by
  rw [pmsTrace_eq]
  constructor
  · intro h
    match os with
    | [] => exact .inl (Nat.zero_le 1)
    | [o] => exact .inl (Nat.le_refl 1)
    | o :: o' :: os =>
      obtain ⟨tmo, h_eq, h_us⟩ := h [.usleep (pmsInterval cfg * 1000)] o
        [.usleep (pmsInterval cfg * 1000)] o'
        (os.flatMap fun o => [.usleep (pmsInterval cfg * 1000), .read o]) rfl (by simp)
      rw [List.singleton_inj, PmsEvent.usleep.injEq] at h_eq
      exact .inr (h_eq ▸ h_us)
  · rintro h pre o mid o' post h_split h_mid
    have h_sleep := sleep_between h_split h_mid
    refine ⟨_, h_sleep, h.resolve_left fun h_len => ?_⟩
    -- two reads come from two iterations
    have h_count := congrArg List.length h_split
    rw [h_sleep] at h_count
    simp only [List.length_flatMap, List.length_append, List.length_cons, List.length_nil,
      List.map_const', List.sum_replicate_nat] at h_count
    omega

/-- **When the sample period is kept.** In a run of the thread with period `p` seconds, every wait
between two reads is of `p * 10 ^ 6` microseconds if and only if `p` is zero, or there are no two
reads. -/
theorem sleepsBetween_iff (cfg : PmsConfig) (os : List I2cOutcome) :
    SleepsBetween (cfg.samplePeriod.toNat * 10 ^ 6) (pmsTrace cfg os) ↔
      os.length ≤ 1 ∨ cfg.samplePeriod = 0 := by
  have h_zero : (pmsInterval cfg * 1000).toNat = cfg.samplePeriod.toNat * 10 ^ 6 ↔
      cfg.samplePeriod = 0 := by
    have h_le := Nat.mod_le (100 * cfg.samplePeriod.toNat) (2 ^ 16)
    rw [pmsSleep_toNat, ← UInt16.toNat_inj, UInt16.toNat_zero]
    constructor
    -- whether the product wraps or not, it is too small
    · intro h
      omega
    · intro h
      simp [h]
  rw [sleepsBetween_pmsTrace, h_zero]

/-- The default: ten seconds are meant, one second is slept. -/
theorem default_period_not_kept :
    let cfg := pms5003Init ⟨0, 0⟩
    cfg.samplePeriod.toNat * 10 ^ 6 < 2 ^ 32 ∧
      pmsTrace cfg [⟨0, 0, cleanAirFrame⟩, ⟨0, 0, cleanAirFrame⟩]
        = [.usleep 1000000, .read ⟨0, 0, cleanAirFrame⟩, .usleep 1000000,
          .read ⟨0, 0, cleanAirFrame⟩] ∧
      ¬ SleepsBetween (cfg.samplePeriod.toNat * 10 ^ 6)
        (pmsTrace cfg [⟨0, 0, cleanAirFrame⟩, ⟨0, 0, cleanAirFrame⟩]) := by
  intro cfg
  have h_tmo : pmsInterval cfg * 1000 = 1000000 := by decide
  refine ⟨by decide, ?_, fun h => ?_⟩
  · rw [pmsTrace_eq, h_tmo]
    rfl
  rcases (sleepsBetween_pmsTrace _ cfg _).mp h with h_len | h_us
  · exact absurd h_len (by decide)
  · exact absurd h_us (by decide)

end AirQuality
