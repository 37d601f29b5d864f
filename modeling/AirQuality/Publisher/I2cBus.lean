import AirQuality.Publisher.PmsThread

/-!
# The bus of the dust sensor (`pms5003.c`)

The driver shares the I2C bus of the node, so it acquires the bus before it uses it and releases it
behind. `busStep` is the protocol: what is used is held, what is held is not acquired again, and
there is no pause with the bus held. Every run keeps to it (`pms_bus`), with failed reads and
failed acquisitions; one thing can go wrong, in `i2c_probe`, which repeats a read for as long as the
bus answers `-EAGAIN`. If it always does, the bus is held for good, and `pms5003_init` and with it
`main` never get any further.
-/

namespace AirQuality

open Machine

/-! ### The protocol -/

/-- What the driver does with the bus, and its pauses. -/
inductive BusEvent where
  | acquire (res : Int)
  | access
  | release
  | usleep (us : UInt32)
  deriving DecidableEq

/-- Whether the bus is held after an event, or nothing if the event breaks the protocol. -/
def busStep : Bool → BusEvent → Option Bool
  | false, .acquire res => some (decide (res = 0))
  | true, .access => some true
  | true, .release => some false
  | false, .usleep _ => some false
  | _, _ => none

/-- Whether the bus is held after the events, or nothing if they break the protocol. -/
def heldAfter (evs : List BusEvent) : Option Bool := evs.foldlM busStep false

def BusEvent.acquired : BusEvent → Bool
  | .acquire res => decide (res = 0)
  | _ => false

def BusEvent.released : BusEvent → Bool
  | .release => true
  | _ => false

theorem heldAfter_append {evs evs' : List BusEvent} (h : heldAfter evs = some false) :
    heldAfter (evs ++ evs') = heldAfter evs' := by
  unfold heldAfter at h ⊢
  rw [List.foldlM_append, h]
  rfl

/-- An event that keeps to the protocol acquires what was not held, or releases what was. -/
theorem busStep_balanced {held next : Bool} {e : BusEvent} (h : busStep held e = some next) :
    e.acquired.toNat + held.toNat = e.released.toNat + next.toNat := by
  cases held with
  | false =>
    cases e with
    | acquire res =>
      obtain rfl : decide (res = 0) = next := Option.some.inj h
      exact Nat.add_comm ..
    | usleep us =>
      obtain rfl : false = next := Option.some.inj h
      rfl
    | access | release => cases h
  | true =>
    cases e with
    | access =>
      obtain rfl : true = next := Option.some.inj h
      rfl
    | release =>
      obtain rfl : false = next := Option.some.inj h
      rfl
    | acquire | usleep => cases h

/-- **What is acquired is released**, or still held. -/
theorem heldAfter_balanced {evs : List BusEvent} {held : Bool} (h : heldAfter evs = some held) :
    evs.countP BusEvent.acquired = evs.countP BusEvent.released + held.toNat := by
  -- from any start, so that the induction can go past an event
  suffices h_from : ∀ start, evs.foldlM busStep start = some held →
      evs.countP BusEvent.acquired + start.toNat = evs.countP BusEvent.released + held.toNat from
    h_from false h
  clear h
  induction evs with
  | nil =>
    intro start h
    obtain rfl : start = held := Option.some.inj h
    rfl
  | cons e evs ih =>
    intro start h
    rw [List.foldlM_cons] at h
    obtain ⟨next, h_step, h_rest⟩ := Option.bind_eq_some_iff.mp h
    have h_one := busStep_balanced h_step
    have h_ih := ih next h_rest
    have h_count (b : Bool) : (if b = true then 1 else 0) = b.toNat := by cases b <;> rfl
    rw [List.countP_cons, List.countP_cons, h_count, h_count]
    omega

/-! ### The driver -/

/-- The reads of `i2c_probe`, given what they return: what the loop does, and the value that ends
it, if one does. `eagain` is `-EAGAIN`. -/
def probeLoop (eagain : Int) : List Int → List BusEvent × Option Int
  | [] => ([], none)
  | retval :: results =>
    if retval = eagain then
      let rest := probeLoop eagain results
      (.access :: rest.1, rest.2)
    else ([.access], some retval)

/-- **`i2c_probe`**, which returns nothing while its loop goes on. What it found is only printed. -/
def i2cProbe (eagain acquire : Int) (results : List Int) : List BusEvent × Option Int :=
  if acquire ≠ 0 then ([.acquire acquire], some (-1))
  else
    match probeLoop eagain results with
    | (evs, none) => (.acquire acquire :: evs, none)
    | (evs, some _retval) => (.acquire acquire :: evs ++ [.release], some 0)

/-- **`read_pms5002`** with what it does to the bus. -/
def readPms5002Run (d : Pms) (o : I2cOutcome) : List BusEvent × Pms × Int :=
  let res := o.acquire
  let evs := [.acquire res]
  if res ≠ 0 then (evs, d, res)
  else
    let res := o.readRegs
    let d := if res = 0 then { d with buf := o.bytes } else d
    let evs := evs ++ [.access, .release]
    let d := (pmsframe d.buf d).1
    (evs, d, res)

/-- The log does not change the call. -/
theorem readPms5002Run_snd (d : Pms) (o : I2cOutcome) :
    (readPms5002Run d o).2 = readPms5002 d o := by
  unfold readPms5002Run readPms5002
  by_cases h : o.acquire ≠ 0
  · rw [if_pos h, if_pos h]
  · rw [if_neg h, if_neg h]

/-- What an iteration of `pms5003_thread` does. -/
def iterEvents (interval : UInt32) (d : Pms) (o : I2cOutcome) : List BusEvent :=
  .usleep (interval * 1000) :: (readPms5002Run d o).1

/-- **`main`**, as far as the bus is concerned: `pms5003_init` probes the bus, then configures the
driver and starts its thread, which goes through as many iterations as there are outcomes. The
publisher is started behind it, if at all. -/
def mainEvents (eagain acquire : Int) (results : List Int) (cfg : PmsConfig)
    (os : List I2cOutcome) : List BusEvent × Bool :=
  match i2cProbe eagain acquire results with
  | (evs, none) => (evs, false)
  | (evs, some _) =>
    (evs ++ trace (fun d o => (readPms5002Run d o).2.1)
      (iterEvents (pmsInterval (pms5003Init cfg))) Pms.boot os, true)

/-! ### Runs -/

/-- The bus is free behind a call, and before it. -/
theorem heldAfter_iterEvents (interval : UInt32) (d : Pms) (o : I2cOutcome) :
    heldAfter (iterEvents interval d o) = some false := by
  unfold iterEvents readPms5002Run
  by_cases h : o.acquire = 0
  · rw [if_neg (not_not.mpr h), h]
    rfl
  · rw [if_pos h]
    show some (decide (o.acquire = 0)) = _
    rw [decide_eq_false h]

theorem heldAfter_thread (interval : UInt32) (d : Pms) (os : List I2cOutcome) :
    heldAfter (trace (fun d o => (readPms5002Run d o).2.1) (iterEvents interval) d os)
      = some false := by
  induction os generalizing d with
  | nil => rfl
  | cons o os ih => exact (heldAfter_append (heldAfter_iterEvents interval d o)).trans (ih _)

/-- The loop ends with the first answer that is not `-EAGAIN`, with the bus held. -/
theorem probeLoop_held (eagain : Int) (results : List Int) :
    (probeLoop eagain results).1.foldlM busStep true = some true ∧
      (probeLoop eagain results).2.isNone = decide (∀ r ∈ results, r = eagain) := by
  induction results with
  | nil => exact ⟨rfl, rfl⟩
  | cons r results ih =>
    unfold probeLoop
    by_cases h : r = eagain
    · rw [if_pos h]
      refine ⟨ih.1, ih.2.trans (decide_eq_decide.mpr ?_)⟩
      rw [List.forall_mem_cons, and_iff_right h]
    · rw [if_neg h]
      refine ⟨rfl, (decide_eq_false fun h_all => ?_).symm⟩
      exact h (h_all r List.mem_cons_self)

/-- The probe releases the bus if its loop ends. -/
theorem heldAfter_probe (eagain acquire : Int) (results : List Int) :
    heldAfter (i2cProbe eagain acquire results).1
        = some (i2cProbe eagain acquire results).2.isNone ∧
      (i2cProbe eagain acquire results).2.isNone
        = decide (acquire = 0 ∧ ∀ r ∈ results, r = eagain) := by
  have h_loop := probeLoop_held eagain results
  unfold i2cProbe
  by_cases h : acquire = 0
  · subst h
    rw [if_neg (not_not.mpr rfl)]
    have h_stuck : decide ((0 : Int) = 0 ∧ ∀ r ∈ results, r = eagain)
        = decide (∀ r ∈ results, r = eagain) := by simp
    rw [h_stuck, ← h_loop.2]
    replace h_loop := h_loop.1
    generalize probeLoop eagain results = loop at h_loop ⊢
    rcases loop with ⟨evs, _ | r⟩
    · -- the release is behind the loop
      exact ⟨h_loop, rfl⟩
    · refine ⟨?_, rfl⟩
      have h_release : (evs ++ [BusEvent.release]).foldlM busStep true = some false := by
        rw [List.foldlM_append, h_loop]
        rfl
      exact h_release
  · rw [if_pos h]
    have h_stuck : decide (acquire = 0 ∧ ∀ r ∈ results, r = eagain) = false :=
      decide_eq_false fun h_both => h h_both.1
    refine ⟨?_, h_stuck.symm⟩
    show some (decide (acquire = 0)) = _
    rw [decide_eq_false h]
    rfl

/-- A call that gets at the bus counts a frame, valid or not, also when the read has failed. -/
theorem readPms5002Run_counts (d : Pms) (o : I2cOutcome) :
    (readPms5002Run d o).2.1.validFrames + (readPms5002Run d o).2.1.invalidFrames
      = d.validFrames + d.invalidFrames
        + UInt32.ofNat ((readPms5002Run d o).1.countP BusEvent.released) := by
  rw [readPms5002Run_snd]
  by_cases h_acq : o.acquire = 0
  · have h_events : (readPms5002Run d o).1 = [.acquire o.acquire, .access, .release] := by
      unfold readPms5002Run
      rw [if_neg (not_not.mpr h_acq)]
      rfl
    have h_frame (d : Pms) (buf : Frame) :
        (pmsframe buf d).1.validFrames + (pmsframe buf d).1.invalidFrames
          = d.validFrames + d.invalidFrames + 1 := by
      cases h : checkPmsframe buf with
      | false =>
        rw [pmsframe_invalid h]
        exact (UInt32.add_assoc ..).symm
      | true =>
        rw [pmsframe_valid h]
        show d.validFrames + 1 + d.invalidFrames = _
        rw [UInt32.add_assoc, UInt32.add_comm 1, ← UInt32.add_assoc]
    rw [h_events]
    by_cases h_read : o.readRegs = 0
    · have h_delivered : o.delivered = some o.bytes := if_pos ⟨h_acq, h_read⟩
      rw [readPms5002_delivers h_delivered]
      exact h_frame { d with buf := o.bytes } o.bytes
    · -- the frame in the buffer is counted once more
      rw [readPms5002_read_fails h_acq h_read]
      exact h_frame d d.buf
  · have h_events : (readPms5002Run d o).1 = [.acquire o.acquire] := by
      unfold readPms5002Run
      rw [if_pos h_acq]
    rw [h_events, readPms5002_acquire_fails h_acq]
    exact (UInt32.add_zero _).symm

theorem thread_counts (interval : UInt32) (os : List I2cOutcome) :
    (readAll Pms.boot os).validFrames + (readAll Pms.boot os).invalidFrames
      = UInt32.ofNat ((trace (fun d o => (readPms5002Run d o).2.1) (iterEvents interval) Pms.boot
          os).countP BusEvent.released) := by
  have h_run : readAll Pms.boot os = run (fun d o => (readPms5002Run d o).2.1) Pms.boot os := by
    unfold readAll
    congr 1
    funext d o
    rw [readPms5002Run_snd]
  rw [h_run]
  clear h_run
  induction os using List.reverseRecOn with
  | nil => rfl
  | append_singleton os o ih =>
    -- the pause releases nothing
    have h_iter (d : Pms) : (iterEvents interval d o).countP BusEvent.released
        = (readPms5002Run d o).1.countP BusEvent.released :=
      List.countP_cons_of_neg Bool.false_ne_true
    rw [run_concat, trace_concat, List.countP_append, UInt32.ofNat_add, ← ih, h_iter]
    exact readPms5002Run_counts _ o

/-- The probe releases the bus once, if it has got at it and its loop ends. -/
theorem probe_released (eagain acquire : Int) (results : List Int) :
    (i2cProbe eagain acquire results).1.countP BusEvent.released
      = if acquire = 0 ∧ (i2cProbe eagain acquire results).2.isSome then 1 else 0 := by
  have h_loop : (probeLoop eagain results).1.countP BusEvent.released = 0 := by
    induction results with
    | nil => rfl
    | cons r results ih =>
      unfold probeLoop
      split
      · exact ih
      · rfl
  unfold i2cProbe
  by_cases h : acquire = 0
  · rw [if_neg (not_not.mpr h)]
    generalize probeLoop eagain results = loop at h_loop
    rcases loop with ⟨evs, _ | r⟩
    · exact h_loop.trans (if_neg (by simp)).symm
    · have h_events : (evs ++ [BusEvent.release]).countP BusEvent.released = 1 := by
        rw [List.countP_append, show evs.countP BusEvent.released = 0 from h_loop]
        rfl
      exact h_events.trans (if_pos ⟨h, rfl⟩).symm
  · rw [if_pos h]
    exact (if_neg fun h_both => h h_both.1).symm

/-- **The bus.** Whatever the bus answers and for however long the node runs, the driver keeps to
the protocol. The bus is released as often as it was acquired, unless it was acquired for the probe
and every read of the probe has been answered with `-EAGAIN`: then it is held, and the publisher has
not been started. Every release but that of the probe stands for one frame that the driver has
counted as valid or invalid. -/
theorem pms_bus (eagain acquire : Int) (results : List Int) (cfg : PmsConfig)
    (os : List I2cOutcome) :
    let run := mainEvents eagain acquire results cfg os
    let stuck := decide (acquire = 0 ∧ ∀ r ∈ results, r = eagain)
    let d := pms5003Thread (pms5003Init cfg) os
    heldAfter run.1 = some stuck ∧ run.2 = !stuck ∧
      run.1.countP BusEvent.acquired = run.1.countP BusEvent.released + stuck.toNat ∧
      (stuck = false → UInt32.ofNat (run.1.countP BusEvent.released)
        = (if acquire = 0 then 1 else 0) + (d.validFrames + d.invalidFrames)) := by
  intro run stuck d
  obtain ⟨h_probe, h_ends⟩ := heldAfter_probe eagain acquire results
  have h_released := probe_released eagain acquire results
  have h_thread : d.validFrames + d.invalidFrames = _ :=
    thread_counts (pmsInterval (pms5003Init cfg)) os
  have h_stuck : stuck = (i2cProbe eagain acquire results).2.isNone := h_ends.symm
  have h_run : heldAfter run.1 = some stuck ∧ run.2 = (!stuck) ∧
      (stuck = false → UInt32.ofNat (run.1.countP BusEvent.released)
        = (if acquire = 0 then 1 else 0) + (d.validFrames + d.invalidFrames)) := by
    rw [h_stuck, h_thread]
    show heldAfter (mainEvents eagain acquire results cfg os).1 = _ ∧
      (mainEvents eagain acquire results cfg os).2 = _ ∧
      (_ → UInt32.ofNat ((mainEvents eagain acquire results cfg os).1.countP _) = _)
    unfold mainEvents
    clear h_stuck h_ends
    generalize i2cProbe eagain acquire results = probe at h_probe h_released ⊢
    rcases probe with ⟨evs, _ | r⟩
    · -- `pms5003_init` does not return
      exact ⟨h_probe, rfl, fun h => absurd h.symm Bool.false_ne_true⟩
    · refine ⟨(heldAfter_append h_probe).trans (heldAfter_thread _ _ _), rfl, fun _ => ?_⟩
      simp only [Option.isSome_some, and_true] at h_released
      rw [List.countP_append, UInt32.ofNat_add, h_released]
      by_cases h : acquire = 0 <;> simp [h]
  exact ⟨h_run.1, h_run.2.1, heldAfter_balanced h_run.1, h_run.2.2⟩

end AirQuality
