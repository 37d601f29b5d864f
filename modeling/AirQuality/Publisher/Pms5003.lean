import Mathlib.Algebra.Ring.Int.Defs
import Mathlib.Algebra.Ring.Nat
import AirQuality.Framework.Machine

/-!
# The dust sensor driver (`pms5003.c`)

The driver reads a 32-byte frame over I2C into a global buffer, checks its preamble, length field
and checksum, counts it as valid or invalid, and copies the words of a valid frame to the static
variables that the getters return. A sensor without dust bins sends frames of length 20; only a
frame of length 28 updates the bins.

`checkPmsframeWith` takes the conversion to `int` as a parameter: the node's `int` has 16 bits, so
`buf[2] << 8` may be negative there. `checkPmsframe` is the node's.

The buffer holds the last frame that was delivered, however many reads have failed since
(`buf_readAll`), and a read that fails behind the acquisition of the bus processes it once more. So
the driver counts the acceptable frames that were delivered if and only if no such read finds one in
the buffer (`readAll_counts_delivered_iff`).
-/

namespace AirQuality

open Machine

/-! ### Frames -/

/-- `uint8_t buf[PMSBUFFER]`. -/
abbrev Frame := Vector UInt8 32

/-- `PRE1` and `PRE2`, the two preamble bytes. -/
def pre1 : UInt8 := 0x42
def pre2 : UInt8 := 0x4d

/-- `PMSMINBODYLEN` and `PMSMAXBODYLEN`, the valid values of the length field. -/
def pmsMinBodyLen : Int := 20
def pmsMaxBodyLen : Int := 28

/-- A buffer of zeros, as static storage is at boot. -/
def zeroFrame : Frame := Vector.replicate 32 0

/-- `buf[i]`, promoted to `int`. -/
def byteAt (buf : Frame) (i : Nat) : Int := ((buf[i]?).getD 0).toNat

/-- A value of an `int` of 16 bits. -/
def int16 (x : Int) : Int := x.bmod (2 ^ 16)

/-- `(buf[i] << 8) + buf[i + 1]` in `int` arithmetic. -/
def wordInt (wrap : Int → Int) (buf : Frame) (i : Nat) : Int :=
  wrap (wrap (byteAt buf i * 2 ^ 8) + byteAt buf (i + 1))

/-- `for (i = 0; i < n; i++) sum += buf[i]`, starting from `sum = 0`. -/
def sumBytes (wrap : Int → Int) (buf : Frame) : Nat → Int
  | 0 => 0
  | n + 1 => wrap (sumBytes wrap buf n + byteAt buf n)

/-- **`check_pmsframe`**, where `wrap` converts to `int`. -/
def checkPmsframeWith (wrap : Int → Int) (buf : Frame) : Bool :=
  if buf[0] ≠ pre1 ∨ buf[1] ≠ pre2 then false
  else
    let len := wordInt wrap buf 2
    if len < pmsMinBodyLen ∨ pmsMaxBodyLen < len then false
    else
      -- the preamble and the length field are summed too
      let sum := sumBytes wrap buf (len + 2).toNat
      let pmssum := wordInt wrap buf (len + 2).toNat
      pmssum == sum

/-- `check_pmsframe` on the node. -/
def checkPmsframe : Frame → Bool := checkPmsframeWith int16

/-- The length field, as `pmsframe` computes it. -/
def frameLen (buf : Frame) : Int := wordInt int16 buf 2

/-- `(buf[i] << 8) | buf[i + 1]`, assigned to a `uint16_t`. -/
def word (buf : Frame) (i : Nat) : UInt16 :=
  ((buf[i]?).getD 0).toUInt16 <<< 8 ||| ((buf[i + 1]?).getD 0).toUInt16

/-! ### The driver's variables -/

/-- The mass concentrations: standard particles, and under atmospheric environment. -/
structure Concentrations where
  pm1 : UInt16
  pm2_5 : UInt16
  pm10 : UInt16
  pm1Atm : UInt16
  pm2_5Atm : UInt16
  pm10Atm : UInt16
  deriving DecidableEq

/-- The dust bins: numbers of particles beyond a size. -/
@[ext] structure DustBins where
  db0_3 : UInt16
  db0_5 : UInt16
  db1 : UInt16
  db2_5 : UInt16
  db5 : UInt16
  db10 : UInt16
  deriving DecidableEq

/-- The last readings. -/
structure Readings where
  pm : Concentrations
  db : DustBins
  deriving DecidableEq

/-- The static variables of the driver. -/
structure Pms where
  buf : Frame
  invalidFrames : UInt32
  validFrames : UInt32
  readings : Readings
  deriving DecidableEq

/-- No bin filled. -/
def DustBins.zero : DustBins := ⟨0, 0, 0, 0, 0, 0⟩

/-- Nothing read yet. -/
def Readings.zero : Readings := ⟨⟨0, 0, 0, 0, 0, 0⟩, DustBins.zero⟩

/-- Static storage at boot. -/
def Pms.boot : Pms := ⟨zeroFrame, 0, 0, Readings.zero⟩

/-- The getters. -/
def pms5003Pm1 (d : Pms) : UInt16 := d.readings.pm.pm1
def pms5003Pm2_5 (d : Pms) : UInt16 := d.readings.pm.pm2_5
def pms5003Pm10 (d : Pms) : UInt16 := d.readings.pm.pm10
def pms5003Pm1Atm (d : Pms) : UInt16 := d.readings.pm.pm1Atm
def pms5003Pm2_5Atm (d : Pms) : UInt16 := d.readings.pm.pm2_5Atm
def pms5003Pm10Atm (d : Pms) : UInt16 := d.readings.pm.pm10Atm
def pms5003Db0_3 (d : Pms) : UInt16 := d.readings.db.db0_3
def pms5003Db0_5 (d : Pms) : UInt16 := d.readings.db.db0_5
def pms5003Db1 (d : Pms) : UInt16 := d.readings.db.db1
def pms5003Db2_5 (d : Pms) : UInt16 := d.readings.db.db2_5
def pms5003Db5 (d : Pms) : UInt16 := d.readings.db.db5
def pms5003Db10 (d : Pms) : UInt16 := d.readings.db.db10

/-- The words at offsets 4 to 15 of a frame. -/
def frameConcentrations (buf : Frame) : Concentrations where
  pm1 := word buf 4
  pm2_5 := word buf 6
  pm10 := word buf 8
  pm1Atm := word buf 10
  pm2_5Atm := word buf 12
  pm10Atm := word buf 14

/-- The words at offsets 16 to 27 of a frame. -/
def frameBins (buf : Frame) : DustBins where
  db0_3 := word buf 16
  db0_5 := word buf 18
  db1 := word buf 20
  db2_5 := word buf 22
  db5 := word buf 24
  db10 := word buf 26

/-! ### A frame received -/

/-- **`pmsframe`**: validate a frame and update the readings; whether the frame was valid. -/
def pmsframe (buf : Frame) (d : Pms) : Pms × Bool :=
  if checkPmsframe buf = false then
    ({ d with invalidFrames := d.invalidFrames + 1 }, false)
  else
    -- a PMS3003 has no bins
    let db := if frameLen buf = 28 then frameBins buf else d.readings.db
    ({ d with validFrames := d.validFrames + 1, readings := ⟨frameConcentrations buf, db⟩ }, true)

theorem pmsframe_invalid {buf : Frame} (h : checkPmsframe buf = false) (d : Pms) :
    pmsframe buf d = ({ d with invalidFrames := d.invalidFrames + 1 }, false) := if_pos h

theorem pmsframe_valid {buf : Frame} (h : checkPmsframe buf = true) (d : Pms) :
    pmsframe buf d = ({ d with
      validFrames := d.validFrames + 1
      readings := ⟨frameConcentrations buf,
        if frameLen buf = 28 then frameBins buf else d.readings.db⟩ }, true) :=
  if_neg (by simp [h])

/-- The bins a frame reports: those of an accepted frame of length 28. -/
def reportedBins (buf : Frame) : Option DustBins :=
  if checkPmsframe buf = true ∧ frameLen buf = 28 then some (frameBins buf) else none

theorem reportedBins_eq_some {buf : Frame} {db : DustBins} : reportedBins buf = some db ↔
    checkPmsframe buf = true ∧ frameLen buf = 28 ∧ frameBins buf = db := by
  unfold reportedBins
  split
  · next h => simp [h]
  · next h => simp only [reduceCtorEq, false_iff]; exact fun h' => h ⟨h'.1, h'.2.1⟩

/-- After a frame the bins are those it reports, else as before. -/
theorem pmsframe_db (buf : Frame) (d : Pms) :
    (pmsframe buf d).1.readings.db = (reportedBins buf).getD d.readings.db := by
  cases h : checkPmsframe buf with
  | false =>
    rw [pmsframe_invalid h]
    simp [reportedBins, h]
  | true =>
    rw [pmsframe_valid h]
    by_cases h_len : frameLen buf = 28 <;> simp [reportedBins, h, h_len]

@[simp] theorem pmsframe_buf (buf : Frame) (d : Pms) : (pmsframe buf d).1.buf = d.buf := by
  cases h : checkPmsframe buf with
  | false => rw [pmsframe_invalid h]
  | true => rw [pmsframe_valid h]

/-! ### Reading over I2C -/

/-- What the bus does in one call: the results of `i2c_acquire` and `i2c_read_regs`, and the bytes
delivered if both are 0. -/
structure I2cOutcome where
  acquire : Int
  readRegs : Int
  bytes : Frame

/-- The frame a call delivers into the buffer. A failing `i2c_read_regs` leaves it unchanged. -/
def I2cOutcome.delivered (o : I2cOutcome) : Option Frame :=
  if o.acquire = 0 ∧ o.readRegs = 0 then some o.bytes else none

/-- **`read_pms5002`**: the driver afterwards and the value returned. -/
def readPms5002 (d : Pms) (o : I2cOutcome) : Pms × Int :=
  let res := o.acquire
  if res ≠ 0 then (d, res)
  else
    let res := o.readRegs
    let d := if res = 0 then { d with buf := o.bytes } else d
    -- also when the register read failed
    let d := (pmsframe d.buf d).1
    (d, res)

/-- Calls of `read_pms5002` one after the other. -/
def readAll (d : Pms) (os : List I2cOutcome) : Pms := run (fun d o => (readPms5002 d o).1) d os

/-- The call could not get at the bus. -/
theorem readPms5002_acquire_fails {o : I2cOutcome} (h : o.acquire ≠ 0) (d : Pms) :
    readPms5002 d o = (d, o.acquire) := if_pos h

/-- The call delivered a frame. -/
theorem readPms5002_delivers {o : I2cOutcome} {buf : Frame} (h : o.delivered = some buf)
    (d : Pms) : readPms5002 d o = ((pmsframe buf { d with buf := buf }).1, 0) := by
  obtain ⟨⟨h_acq, h_read⟩, rfl⟩ : (o.acquire = 0 ∧ o.readRegs = 0) ∧ o.bytes = buf := by
    simpa [I2cOutcome.delivered] using h
  simp [readPms5002, h_acq, h_read]

/-- The register read failed: what the buffer still holds is taken for a frame. -/
theorem readPms5002_read_fails {o : I2cOutcome} (h_acq : o.acquire = 0) (h_read : o.readRegs ≠ 0)
    (d : Pms) : readPms5002 d o = ((pmsframe d.buf d).1, o.readRegs) := by
  simp [readPms5002, h_acq, h_read]

/-- After a call the buffer holds the frame it delivered, else what it held before. -/
theorem readPms5002_buf (d : Pms) (o : I2cOutcome) :
    (readPms5002 d o).1.buf = o.delivered.getD d.buf := by
  unfold readPms5002 I2cOutcome.delivered
  by_cases h_acq : o.acquire = 0 <;> by_cases h_read : o.readRegs = 0 <;> simp [h_acq, h_read]

/-- **The buffer holds the frame last delivered**, zeros if none was. -/
theorem buf_readAll (os : List I2cOutcome) :
    (readAll Pms.boot os).buf = lastOf I2cOutcome.delivered zeroFrame os := by
  unfold readAll
  refine run_history (P := fun os (d : Pms) =>
    d.buf = lastOf I2cOutcome.delivered zeroFrame os) rfl ?_ os
  -- by induction along the history: only a delivery writes the buffer
  intro is i d h
  rw [lastOf_concat, readPms5002_buf, h]

/-! ### What the valid-frame counter counts -/

/-- The call read an acceptable frame from the sensor. -/
def I2cOutcome.acceptable (o : I2cOutcome) : Bool := o.delivered.any checkPmsframe

/-- The call neither counts a valid frame nor assigns the readings, whatever they are. -/
def LeavesReadings (d : Pms) (o : I2cOutcome) : Prop :=
  (readPms5002 d o).1.validFrames = d.validFrames ∧
    ∀ r, (readPms5002 { d with readings := r } o).1.readings = r

/-- A failing call leaves the readings alone if it has no valid frame in its buffer. -/
theorem leavesReadings_of_stale {d : Pms} {o : I2cOutcome} (h_fail : o.delivered = none)
    (h : o.acquire = 0 → o.readRegs ≠ 0 → checkPmsframe d.buf = false) : LeavesReadings d o := by
  by_cases h_acq : o.acquire = 0
  · have h_read : o.readRegs ≠ 0 := by
      intro h_read
      simp [I2cOutcome.delivered, h_acq, h_read] at h_fail
    -- the register read failed: the buffer is stale, and not acceptable
    have h_invalid := h h_acq h_read
    refine ⟨?_, fun r => ?_⟩
    · rw [readPms5002_read_fails h_acq h_read, pmsframe_invalid h_invalid]
    · rw [readPms5002_read_fails h_acq h_read, pmsframe_invalid h_invalid]
  -- the bus was not acquired: the call returns at once
  · exact ⟨by rw [readPms5002_acquire_fails h_acq],
      fun r => by rw [readPms5002_acquire_fails h_acq]⟩

/-- A failing register read with a valid frame in the buffer counts that frame again. -/
theorem validFrames_of_stale {d : Pms} {o : I2cOutcome} (h_acq : o.acquire = 0)
    (h_read : o.readRegs ≠ 0) (h : checkPmsframe d.buf = true) :
    (readPms5002 d o).1.validFrames = d.validFrames + 1 := by
  rw [readPms5002_read_fails h_acq h_read, pmsframe_valid h]

/-- A call that delivers a frame counts it if it is acceptable. -/
theorem validFrames_of_delivered {o : I2cOutcome} {buf : Frame} (h : o.delivered = some buf)
    (d : Pms) : (readPms5002 d o).1.validFrames
      = d.validFrames + if o.acceptable then 1 else 0 := by
  have h_acc : o.acceptable = checkPmsframe buf := by simp [I2cOutcome.acceptable, h]
  rw [readPms5002_delivers h, h_acc]
  cases h_check : checkPmsframe buf with
  | false => rw [pmsframe_invalid h_check]; simp
  | true => rw [pmsframe_valid h_check]; simp

/-- The failing register reads of a run find no acceptable frame in the buffer: the frame last
delivered before them, or the zeros there were at boot, is none. -/
def NoStaleFrame (os : List I2cOutcome) : Prop :=
  Along (fun pre o => o.acquire = 0 → o.readRegs ≠ 0 →
    checkPmsframe (lastOf I2cOutcome.delivered zeroFrame pre) = false) os

theorem NoStaleFrame.leavesReadings {os : List I2cOutcome} (h : NoStaleFrame os) :
    Along (fun pre o => o.delivered = none → LeavesReadings (readAll Pms.boot pre) o) os := by
  intro pre o post h_split h_fail
  refine leavesReadings_of_stale h_fail fun h_acq h_read => ?_
  rw [buf_readAll]
  exact h pre o post h_split h_acq h_read

theorem NoStaleFrame.validFrames {os : List I2cOutcome} (h : NoStaleFrame os) :
    (readAll Pms.boot os).validFrames = UInt32.ofNat (os.countP I2cOutcome.acceptable) := by
  induction os using List.reverseRecOn with
  | nil => rfl
  | append_singleton os o ih =>
    -- the condition on the longer run holds of the shorter one
    have h_ih := ih (along_concat.mp h).1
    have h_step : (readAll Pms.boot (os ++ [o])).validFrames
        = (readAll Pms.boot os).validFrames + if o.acceptable then 1 else 0 := by
      rw [readAll, run_concat]
      change (readPms5002 (readAll Pms.boot os) o).1.validFrames = _
      cases h_del : o.delivered with
      -- a delivered frame is counted if it is acceptable
      | some buf => exact validFrames_of_delivered h_del _
      | none =>
        -- a failing call delivers nothing acceptable, and leaves the counter alone
        have h_acc : o.acceptable = false := by simp [I2cOutcome.acceptable, h_del]
        rw [(h.leavesReadings os o [] rfl h_del).1, h_acc]
        simp
    calc (readAll Pms.boot (os ++ [o])).validFrames
        = (readAll Pms.boot os).validFrames + if o.acceptable then 1 else 0 := h_step
      _ = UInt32.ofNat (os.countP I2cOutcome.acceptable) + if o.acceptable then 1 else 0 := by
        rw [h_ih]
      _ = UInt32.ofNat ((os ++ [o]).countP I2cOutcome.acceptable) := by
        rw [List.countP_append, List.countP_singleton, UInt32.ofNat_add]
        congr 1
        split <;> rfl

/-- **When `valid_frames` counts the acceptable frames delivered.** In a run of calls the counter
equals, after every call, the number of calls that read an acceptable frame, and the calls that
failed leave the counter and the readings alone, if and only if no register read fails while an
acceptable frame is in the buffer. -/
theorem readAll_counts_delivered_iff (os : List I2cOutcome) :
    ((∀ pre post, os = pre ++ post → (readAll Pms.boot pre).validFrames
          = UInt32.ofNat (pre.countP I2cOutcome.acceptable)) ∧
      Along (fun pre o => o.delivered = none → LeavesReadings (readAll Pms.boot pre) o) os)
      ↔ NoStaleFrame os := by
  constructor
  · rintro ⟨-, h_leave⟩ pre o post h_split h_acq h_read
    rw [← buf_readAll]
    by_contra h_valid
    -- the stale frame would be counted, but the call leaves the counter alone
    have h_fail : o.delivered = none := by simp [I2cOutcome.delivered, h_read]
    have h_same := (h_leave pre o post h_split h_fail).1
    rw [validFrames_of_stale h_acq h_read (by simpa using h_valid)] at h_same
    exact absurd h_same (by simp)
  · intro h
    -- the condition holds of every beginning of the run
    refine ⟨fun pre post h_split => ?_, h.leavesReadings⟩
    subst h_split
    exact NoStaleFrame.validFrames h.of_append

/-- A frame in clean air: PM2.5 is 12 and PM10 is 13 micrograms, and the counts in the bins
decrease with the size of the particles. -/
def cleanAirFrame : Frame :=
  #v[0x42, 0x4d, 0, 28, 0, 8, 0, 12, 0, 13, 0, 8, 0, 12, 0, 13, 6, 0, 1, 200, 0, 90, 0, 9, 0, 2,
    0, 1, 0, 0, 2, 34]

theorem cleanAirFrame_valid : checkPmsframe cleanAirFrame = true := by decide +kernel

theorem cleanAirFrame_len : frameLen cleanAirFrame = 28 := by decide +kernel

/-- One good read, then one that fails: the old frame is counted as a second valid one. -/
theorem readAll_counts_stale_frame :
    ¬ ((readAll Pms.boot [⟨0, 0, cleanAirFrame⟩, ⟨0, -5, zeroFrame⟩]).validFrames
      = UInt32.ofNat
        ([⟨0, 0, cleanAirFrame⟩, ⟨0, -5, zeroFrame⟩].countP I2cOutcome.acceptable)) := by
  decide +kernel

end AirQuality
