import Mathlib.Algebra.BigOperators.Group.List.Basic
import AirQuality.Publisher.Pms5003

/-!
# The frames received, and what the driver shows of them

`pmsframe` runs once for every buffer that was filled. What its variables hold after any sequence
of buffers is said here in terms of the buffers alone: the counters count the accepted and the
rejected ones, the concentrations are the words of the last accepted one, and the bins those of the
last accepted one that has bins (`pmsframes_history`).

`sensorFrame` is the other side of the format, the frame that the sensor builds from thirteen
words. The driver accepts it and shows its words (`shown_sensorFrame`). The checksum and the
length field are computed in an `int`, and the width of that does not matter
(`checkPmsframeWith_iff`).
-/

namespace AirQuality

open Machine

/-! ### Words -/

/-- The 16-bit word at offset `i`, high byte first. -/
def beWord (buf : Frame) (i : Nat) : Nat :=
  256 * ((buf[i]?).getD 0).toNat + ((buf[i + 1]?).getD 0).toNat

theorem beWord_lt (buf : Frame) (i : Nat) : beWord buf i < 2 ^ 16 := by
  have h_hi := ((buf[i]?).getD 0).toNat_lt
  have h_lo := ((buf[i + 1]?).getD 0).toNat_lt
  unfold beWord
  omega

/-- `(hi << 8) | lo`, in 16 bits. -/
def ofBytes (hi lo : UInt8) : UInt16 := hi.toUInt16 <<< 8 ||| lo.toUInt16

/-- Shifting and or-ing two bytes makes their word. -/
theorem toNat_ofBytes (hi lo : UInt8) : (ofBytes hi lo).toNat = 256 * hi.toNat + lo.toNat := by
  have h_hi := hi.toNat_lt
  have h_shift : (hi.toUInt16 <<< 8).toNat = hi.toNat <<< 8 := by
    rw [UInt16.toNat_shiftLeft]
    simp only [UInt8.toNat_toUInt16, UInt16.reduceToNat, Nat.reduceMod]
    exact Nat.mod_eq_of_lt (by rw [Nat.shiftLeft_eq]; omega)
  unfold ofBytes
  rw [UInt16.toNat_or, h_shift, UInt8.toNat_toUInt16,
    ← Nat.shiftLeft_add_eq_or_of_lt lo.toNat_lt, Nat.shiftLeft_eq, Nat.mul_comm]

theorem word_toNat (buf : Frame) (i : Nat) : (word buf i).toNat = beWord buf i :=
  toNat_ofBytes _ _

theorem byteAt_lt (buf : Frame) (i : Nat) : byteAt buf i < 256 := by
  have h := ((buf[i]?).getD 0).toNat_lt
  unfold byteAt
  omega

theorem byteAt_nonneg (buf : Frame) (i : Nat) : 0 ≤ byteAt buf i := Int.natCast_nonneg _

theorem wordInt_id (buf : Frame) (i : Nat) : wordInt id buf i = beWord buf i := by
  unfold wordInt beWord byteAt
  simp only [id_eq]
  omega

/-- What the checks ask of `wrap` as a conversion to `int`: it keeps what 16 bits can hold, an
addition may be converted once at its end, and what 16 bits cannot hold becomes negative, if it is
changed at all. -/
structure IsInt (wrap : Int → Int) : Prop where
  keeps : ∀ {x : Int}, -2 ^ 15 ≤ x → x < 2 ^ 15 → wrap x = x
  carry : ∀ x y, wrap (wrap x + y) = wrap (x + y)
  nonneg : ∀ {x : Int}, 0 ≤ x → x < 2 ^ 16 → 0 ≤ wrap x → wrap x = x

/-- Unbounded integers. -/
theorem isInt_id : IsInt id := ⟨fun _ _ => rfl, fun _ _ => rfl, fun _ _ _ => rfl⟩

/-- The `int` of the node. -/
theorem isInt_int16 : IsInt int16 where
  keeps h_lo h_hi := Int.bmod_eq_of_le (by omega) (by omega)
  carry _ _ := Int.bmod_add_bmod ..
  nonneg h_lo h_hi h := by
    unfold int16 at h ⊢
    rw [Int.bmod_def] at h ⊢
    split <;> split at h <;> omega

/-- A word computed in an `int`: the carry out of the shift does not matter. -/
theorem wordInt_wrap {wrap : Int → Int} (h_int : IsInt wrap) (buf : Frame) (i : Nat) :
    wordInt wrap buf i = wrap (beWord buf i) := by
  rw [← wordInt_id]
  exact h_int.carry ..

theorem wordInt_of_lt {wrap : Int → Int} (h_int : IsInt wrap) {buf : Frame} {i : Nat}
    (h : beWord buf i < 2 ^ 15) : wordInt wrap buf i = beWord buf i := by
  rw [wordInt_wrap h_int, h_int.keeps (by omega) (by omega)]

/-- A word whose high bit is set is negative, or unchanged. -/
theorem wordInt_of_nonneg {wrap : Int → Int} (h_int : IsInt wrap) {buf : Frame} {i : Nat}
    (h : 0 ≤ wordInt wrap buf i) : wordInt wrap buf i = beWord buf i := by
  have h_lt := beWord_lt buf i
  rw [wordInt_wrap h_int] at h ⊢
  exact h_int.nonneg (by omega) (by omega) h

/-- Comparing a word with what an `int` of 16 bits can hold: a negative word matches nothing. -/
theorem wordInt_eq_iff {wrap : Int → Int} (h_int : IsInt wrap) (buf : Frame) (i : Nat) {x : Int}
    (h_lo : 0 ≤ x) (h_hi : x < 2 ^ 15) : wordInt wrap buf i = x ↔ (beWord buf i : Int) = x := by
  constructor
  · intro h
    rw [← h, wordInt_of_nonneg h_int (by omega)]
  · intro h
    rw [← h, wordInt_of_lt h_int (by omega)]

/-- The bounds on the length mean the same for the length that the driver computes. -/
theorem wordInt_length_iff {wrap : Int → Int} (h_int : IsInt wrap) (buf : Frame) :
    wordInt wrap buf 2 < 20 ∨ 28 < wordInt wrap buf 2 ↔
      beWord buf 2 < 20 ∨ 28 < beWord buf 2 := by
  by_cases h : 0 ≤ wordInt wrap buf 2
  · rw [wordInt_of_nonneg h_int h]
    omega
  · -- a negative length comes from a word that 16 bits cannot hold
    have h_large : ¬ beWord buf 2 < 2 ^ 15 := by
      intro h_lt
      rw [wordInt_of_lt h_int h_lt] at h
      omega
    omega

/-- The length field is 28 as an `int` exactly if it is as a word. -/
theorem frameLen_eq_iff (buf : Frame) : frameLen buf = 28 ↔ beWord buf 2 = 28 := by
  have h : frameLen buf = 28 ↔ (beWord buf 2 : Int) = 28 :=
    wordInt_eq_iff isInt_int16 buf 2 (by decide) (by decide)
  rw [h]
  omega

/-! ### Checksums -/

theorem sumBytes_id_nonneg (buf : Frame) (n : Nat) : 0 ≤ sumBytes id buf n := by
  induction n with
  | zero => exact Int.le_refl 0
  | succ n ih => exact Int.add_nonneg ih (byteAt_nonneg buf n)

theorem sumBytes_id_le (buf : Frame) (n : Nat) : sumBytes id buf n ≤ 255 * n := by
  induction n with
  | zero => exact Int.le_refl 0
  | succ n ih =>
    have h_byte := byteAt_lt buf n
    show sumBytes id buf n + byteAt buf n ≤ _
    push_cast
    omega

/-- The running sum stays inside an `int` of 16 bits. -/
theorem sumBytes_wrap {wrap : Int → Int} (h_int : IsInt wrap) (buf : Frame) {n : Nat}
    (hn : n ≤ 128) : sumBytes wrap buf n = sumBytes id buf n := by
  induction n with
  | zero => rfl
  | succ n ih =>
    have h_ih := ih (by omega)
    have h_nonneg := sumBytes_id_nonneg buf (n + 1)
    have h_le := sumBytes_id_le buf (n + 1)
    unfold sumBytes at h_nonneg h_le ⊢
    rw [h_ih]
    exact h_int.keeps (by simp only [id_eq] at h_nonneg; omega)
      (by simp only [id_eq] at h_le; omega)

/-- The running sum of a buffer is the sum of a prefix of its bytes. -/
theorem sumBytes_eq_sum (buf : Frame) {n : Nat} (hn : n ≤ 32) :
    sumBytes id buf n = ((buf.toList.take n).map UInt8.toNat).sum := by
  induction n with
  | zero => rfl
  | succ n ih =>
    have h_len : n < buf.toList.length := by rw [Vector.length_toList]; omega
    show sumBytes id buf n + byteAt buf n = _
    rw [ih (by omega), List.take_succ_eq_append_getElem h_len, List.map_append, List.sum_append]
    simp [byteAt, Vector.getElem?_eq_getElem (show n < 32 by omega)]

/-- **A frame as the sensor sends it**: the preamble, a length that the driver knows, and behind as
many bytes the sum of all bytes before, in two bytes. -/
structure ValidFrame (buf : Frame) : Prop where
  pre1 : buf.get 0 = pre1
  pre2 : buf.get 1 = pre2
  min : 20 ≤ beWord buf 2
  max : beWord buf 2 ≤ 28
  sum : sumBytes id buf (beWord buf 2 + 2) = beWord buf (beWord buf 2 + 2)

/-- **The driver accepts the valid frames**, whatever the width of its `int`. -/
theorem checkPmsframeWith_iff {wrap : Int → Int} (h_int : IsInt wrap) (buf : Frame) :
    checkPmsframeWith wrap buf = true ↔ ValidFrame buf := by
  have h_unfold : checkPmsframeWith wrap buf = if buf.get 0 ≠ pre1 ∨ buf.get 1 ≠ pre2 then false
      else if wordInt wrap buf 2 < pmsMinBodyLen ∨ pmsMaxBodyLen < wordInt wrap buf 2 then false
      else decide (wordInt wrap buf (wordInt wrap buf 2 + 2).toNat
        = sumBytes wrap buf (wordInt wrap buf 2 + 2).toNat) := rfl
  simp only [h_unfold, pmsMinBodyLen, pmsMaxBodyLen, wordInt_length_iff h_int]
  by_cases h_pre : buf.get 0 ≠ pre1 ∨ buf.get 1 ≠ pre2
  · rw [if_pos h_pre]
    exact iff_of_false (by decide) fun h => h_pre.elim (· h.pre1) (· h.pre2)
  rw [if_neg h_pre]
  rw [not_or, not_not, not_not] at h_pre
  by_cases h_len : beWord buf 2 < 20 ∨ 28 < beWord buf 2
  · rw [if_pos h_len]
    exact iff_of_false (by decide) fun h => h_len.elim (Nat.not_lt.mpr h.min) (Nat.not_lt.mpr h.max)
  rw [if_neg h_len]
  obtain ⟨h_min, h_max⟩ := not_or.mp h_len
  have h_index : (wordInt wrap buf 2 + 2).toNat = beWord buf 2 + 2 := by
    rw [wordInt_of_lt h_int (by omega)]
    omega
  rw [h_index, decide_eq_true_iff, sumBytes_wrap h_int buf (by omega)]
  -- the sum is not negative, so it matches the word or nothing
  have h_nonneg := sumBytes_id_nonneg buf (beWord buf 2 + 2)
  have h_le := sumBytes_id_le buf (beWord buf 2 + 2)
  rw [wordInt_eq_iff h_int buf _ h_nonneg (by omega)]
  constructor
  · exact fun h_eq => ⟨h_pre.1, h_pre.2, by omega, by omega, h_eq.symm⟩
  · exact fun h => h.sum.symm

theorem checkPmsframe_iff (buf : Frame) : checkPmsframe buf = true ↔ ValidFrame buf :=
  checkPmsframeWith_iff isInt_int16 buf

/-! ### The frame of a sensor -/

/-- The high byte of a word. -/
def hiByte (w : UInt16) : UInt8 := (w >>> 8).toUInt8

/-- The two bytes of a word, high byte first. -/
def wordBytes (w : UInt16) : List UInt8 := [hiByte w, w.toUInt8]

/-- The preamble, the length field of 28, and thirteen words. -/
def frameBody (ws : Vector UInt16 13) : List UInt8 :=
  [pre1, pre2, 0, 28] ++ ws.toList.flatMap wordBytes

/-- The sum of the bytes of a body. -/
def frameChecksum (ws : Vector UInt16 13) : Nat := ((frameBody ws).map UInt8.toNat).sum

@[simp] theorem length_frameBody (ws : Vector UInt16 13) : (frameBody ws).length = 30 := by
  simp [frameBody, wordBytes, List.length_flatMap]

/-- **The frame of a sensor with dust bins**: a body and its checksum. -/
def sensorFrame (ws : Vector UInt16 13) : Frame where
  toArray := (frameBody ws ++ wordBytes (UInt16.ofNat (frameChecksum ws))).toArray
  size_toArray := by simp [wordBytes]

/-- The bytes of the word are the halves of its value. -/
theorem wordBytes_value (w : UInt16) : 256 * (hiByte w).toNat + w.toUInt8.toNat = w.toNat := by
  have h := w.toNat_lt
  simp only [hiByte, UInt16.toNat_toUInt8, UInt16.toNat_shiftRight, UInt16.reduceToNat,
    Nat.reduceMod, Nat.shiftRight_eq_div_pow]
  omega

/-- Words laid end to end start at the even offsets. -/
theorem getElem?_flatMap_wordBytes (ws : List UInt16) (k : Nat) :
    (ws.flatMap wordBytes)[2 * k]? = (ws[k]?).map hiByte ∧
      (ws.flatMap wordBytes)[2 * k + 1]? = (ws[k]?).map UInt16.toUInt8 := by
  induction ws generalizing k with
  | nil => simp
  | cons w ws ih =>
    cases k with
    | zero => simp [wordBytes]
    | succ k => simpa [wordBytes, Nat.mul_succ] using ih k

section

variable (ws : Vector UInt16 13)

@[simp] theorem toList_sensorFrame : (sensorFrame ws).toList
    = frameBody ws ++ wordBytes (UInt16.ofNat (frameChecksum ws)) := rfl

theorem sensorFrame_getElem? (i : Nat) : (sensorFrame ws)[i]?
    = (frameBody ws ++ wordBytes (UInt16.ofNat (frameChecksum ws)))[i]? := by
  rw [← toList_sensorFrame, Vector.getElem?_toList]

/-- The words lie behind the length field, in order. -/
theorem beWord_sensorFrame (k : Nat) (hk : k < 13) :
    beWord (sensorFrame ws) (4 + 2 * k) = ws[k].toNat := by
  obtain ⟨h_hi, h_lo⟩ := getElem?_flatMap_wordBytes ws.toList k
  have h_word : ws.toList[k]? = some ws[k] := by simp [hk]
  have h_byte : ∀ j < 26, (sensorFrame ws)[4 + j]? = (ws.toList.flatMap wordBytes)[j]? := by
    intro j hj
    calc (sensorFrame ws)[4 + j]?
        = (frameBody ws)[4 + j]? := by
          rw [sensorFrame_getElem?, List.getElem?_append_left (by rw [length_frameBody]; omega)]
      _ = (ws.toList.flatMap wordBytes)[4 + j - 4]? := List.getElem?_append_right (by simp)
      _ = (ws.toList.flatMap wordBytes)[j]? := by rw [Nat.add_sub_cancel_left]
  unfold beWord
  rw [Nat.add_assoc, h_byte (2 * k) (by omega), h_byte (2 * k + 1) (by omega), h_hi, h_lo, h_word]
  exact wordBytes_value ws[k]

/-- The driver sums the body. -/
theorem sumBytes_sensorFrame : sumBytes id (sensorFrame ws) 30 = frameChecksum ws := by
  rw [sumBytes_eq_sum _ (by omega), toList_sensorFrame, List.take_append_of_le_length (by simp),
    List.take_of_length_le (by simp)]
  rfl

/-- Thirty bytes cannot exceed an `int`. -/
theorem frameChecksum_lt : frameChecksum ws < 2 ^ 15 := by
  have h_le := sumBytes_id_le (sensorFrame ws) 30
  rw [sumBytes_sensorFrame] at h_le
  omega

theorem beWord_sensorFrame_checksum : beWord (sensorFrame ws) 30 = frameChecksum ws := by
  have h_lt := frameChecksum_lt ws
  unfold beWord
  rw [sensorFrame_getElem?, sensorFrame_getElem?, List.getElem?_append_right (by simp),
    List.getElem?_append_right (by simp)]
  simp only [length_frameBody]
  show 256 * (hiByte (UInt16.ofNat (frameChecksum ws))).toNat
    + (UInt16.ofNat (frameChecksum ws)).toUInt8.toNat = _
  rw [wordBytes_value]
  exact UInt16.toNat_ofNat_of_lt' (by change _ < 2 ^ 16; omega)

theorem frameLen_sensorFrame : frameLen (sensorFrame ws) = 28 :=
  (frameLen_eq_iff _).mpr rfl

/-- **The driver accepts every frame of the sensor.** -/
theorem checkPmsframe_sensorFrame : checkPmsframe (sensorFrame ws) = true := by
  have h_sum : sumBytes id (sensorFrame ws) 30 = beWord (sensorFrame ws) 30 := by
    rw [sumBytes_sensorFrame, beWord_sensorFrame_checksum]
  have h_len : beWord (sensorFrame ws) 2 = 28 := rfl
  exact (checkPmsframe_iff _).mpr ⟨rfl, rfl, by omega, by omega, h_sum⟩

end

/-! ### Histories -/

/-- Calls of `pmsframe` on one buffer after the other. -/
def pmsframes (d : Pms) (bufs : List Frame) : Pms := run (fun d buf => (pmsframe buf d).1) d bufs

/-- The last accepted buffer. -/
def lastAccepted (bufs : List Frame) : Option Frame := (bufs.filter checkPmsframe).getLast?

/-- An accepted buffer whose length field is 28. -/
def hasBins (buf : Frame) : Bool := checkPmsframe buf && beWord buf 2 == 28

/-- The last accepted buffer whose length field is 28. -/
def lastWithBins (bufs : List Frame) : Option Frame := (bufs.filter hasBins).getLast?

/-- What the getters of the concentrations return. -/
def shownConcentrations (d : Pms) : List Nat :=
  [pms5003Pm1 d, pms5003Pm2_5 d, pms5003Pm10 d, pms5003Pm1Atm d, pms5003Pm2_5Atm d,
    pms5003Pm10Atm d].map UInt16.toNat

/-- What the getters of the bins return. -/
def shownBins (d : Pms) : List Nat :=
  [pms5003Db0_3 d, pms5003Db0_5 d, pms5003Db1 d, pms5003Db2_5 d, pms5003Db5 d,
    pms5003Db10 d].map UInt16.toNat

/-- Six words of a buffer from offset `i` on, or zeros. -/
def sixWords (buf : Option Frame) (i : Nat) : List Nat :=
  (List.range 6).map fun k => buf.elim 0 fun b => beWord b (i + 2 * k)

theorem pmsframes_concat (d : Pms) (bufs : List Frame) (buf : Frame) :
    pmsframes d (bufs ++ [buf]) = (pmsframe buf (pmsframes d bufs)).1 := run_concat bufs buf

/-- A predicate looked up last: the new buffer if it satisfies it, else as before. -/
theorem getLast?_filter_concat (p : Frame → Bool) (bufs : List Frame) (buf : Frame) :
    ((bufs ++ [buf]).filter p).getLast?
      = if p buf = true then some buf else (bufs.filter p).getLast? := by
  rw [List.filter_append, List.filter_singleton]
  cases p buf <;> simp

/-- **The readings are those of the last buffers**: accepted for the concentrations, accepted with
length 28 for the bins. -/
theorem readings_pmsframes (bufs : List Frame) : (pmsframes Pms.boot bufs).readings =
    ⟨(lastAccepted bufs).elim Readings.zero.pm frameConcentrations,
      (lastWithBins bufs).elim DustBins.zero frameBins⟩ := by
  induction bufs using List.reverseRecOn with
  | nil => rfl
  | append_singleton bufs buf ih =>
    rw [pmsframes_concat]
    unfold lastAccepted lastWithBins at ih ⊢
    rw [getLast?_filter_concat, getLast?_filter_concat]
    cases h : checkPmsframe buf with
    | false =>
      rw [pmsframe_invalid h]
      simpa [hasBins, h] using ih
    | true =>
      rw [pmsframe_valid h]
      -- the bins follow only if the length field says so
      by_cases h_len : frameLen buf = 28
      · have h_bins : hasBins buf = true := by simp [hasBins, h, (frameLen_eq_iff buf).mp h_len]
        simp [h_bins, h_len]
      · have h_bins : hasBins buf = false := by
          simpa [hasBins, h] using mt (frameLen_eq_iff buf).mpr h_len
        simp [h_bins, h_len, ih]

/-- The counters, and what they count. -/
theorem counters_pmsframes (bufs : List Frame) :
    (pmsframes Pms.boot bufs).validFrames = UInt32.ofNat (bufs.countP checkPmsframe) ∧
      (pmsframes Pms.boot bufs).invalidFrames
        = UInt32.ofNat (bufs.countP fun buf => !checkPmsframe buf) := by
  induction bufs using List.reverseRecOn with
  | nil => exact ⟨rfl, rfl⟩
  | append_singleton bufs buf ih =>
    obtain ⟨h_valid, h_invalid⟩ := ih
    rw [pmsframes_concat, List.countP_append, List.countP_append, UInt32.ofNat_add,
      UInt32.ofNat_add, ← h_valid, ← h_invalid]
    cases h : checkPmsframe buf with
    | false => rw [pmsframe_invalid h]; simp [h]
    | true => rw [pmsframe_valid h]; simp [h]

theorem shownConcentrations_of_frame {d : Pms} {buf : Option Frame}
    (h : d.readings.pm = buf.elim Readings.zero.pm frameConcentrations) :
    shownConcentrations d = sixWords buf 4 := by
  unfold shownConcentrations pms5003Pm1 pms5003Pm2_5 pms5003Pm10 pms5003Pm1Atm pms5003Pm2_5Atm
    pms5003Pm10Atm
  rw [h]
  cases buf with
  | none => rfl
  | some b => simp [sixWords, frameConcentrations, word_toNat, List.range_succ]

theorem shownBins_of_frame {d : Pms} {buf : Option Frame}
    (h : d.readings.db = buf.elim DustBins.zero frameBins) : shownBins d = sixWords buf 16 := by
  unfold shownBins pms5003Db0_3 pms5003Db0_5 pms5003Db1 pms5003Db2_5 pms5003Db5 pms5003Db10
  rw [h]
  cases buf with
  | none => rfl
  | some b => simp [sixWords, frameBins, word_toNat, List.range_succ]

/-- The words of a frame of the sensor, read back. -/
theorem sixWords_sensorFrame (ws : Vector UInt16 13) :
    sixWords (some (sensorFrame ws)) 4 ++ sixWords (some (sensorFrame ws)) 16
      = (ws.toList.take 12).map UInt16.toNat := by
  refine List.ext_getElem (by simp [sixWords]) fun k h_k h_k' => ?_
  have h_lt : k < 12 := by simpa [sixWords] using h_k
  simp only [List.getElem_map, List.getElem_take, Vector.getElem_toList]
  rw [← beWord_sensorFrame ws k (by omega)]
  by_cases h : k < 6
  · rw [List.getElem_append_left (by simpa [sixWords] using h)]
    simp [sixWords]
  · rw [List.getElem_append_right (by simp [sixWords]; omega)]
    simp only [sixWords, List.length_map, List.length_range, List.getElem_map, List.getElem_range,
      Option.elim_some]
    congr 1
    omega

/-- After a frame of the sensor, in whatever state, the getters return its first twelve words. -/
theorem shown_sensorFrame (d : Pms) (ws : Vector UInt16 13) :
    shownConcentrations (pmsframe (sensorFrame ws) d).1
      ++ shownBins (pmsframe (sensorFrame ws) d).1 = (ws.toList.take 12).map UInt16.toNat := by
  have h_readings : (pmsframe (sensorFrame ws) d).1.readings
      = ⟨frameConcentrations (sensorFrame ws), frameBins (sensorFrame ws)⟩ := by
    rw [pmsframe_valid (checkPmsframe_sensorFrame ws), if_pos (frameLen_sensorFrame ws)]
  have h_pm : shownConcentrations (pmsframe (sensorFrame ws) d).1
      = sixWords (some (sensorFrame ws)) 4 :=
    shownConcentrations_of_frame (by rw [h_readings, Option.elim_some])
  have h_db : shownBins (pmsframe (sensorFrame ws) d).1 = sixWords (some (sensorFrame ws)) 16 :=
    shownBins_of_frame (by rw [h_readings, Option.elim_some])
  rw [h_pm, h_db, sixWords_sensorFrame]

/-- **What the driver holds after any sequence of buffers.**

* The counters count, modulo `2 ^ 32`, the accepted and the rejected buffers, and add up to their
  number.
* The concentrations are the words at offsets 4, 6, …, 14 of the last accepted buffer, and the bins
  those at offsets 16, 18, …, 26 of the last accepted buffer whose length field is 28; zeros as
  long as there was none.
* A rejected buffer changes the counter of invalid frames only.
* A frame of the sensor is accepted, and the getters then return its first twelve words. -/
theorem pmsframes_history (bufs : List Frame) :
    let d := pmsframes Pms.boot bufs
    d.validFrames = UInt32.ofNat (bufs.countP checkPmsframe) ∧
      d.invalidFrames = UInt32.ofNat (bufs.countP fun buf => !checkPmsframe buf) ∧
      d.validFrames + d.invalidFrames = UInt32.ofNat bufs.length ∧
      shownConcentrations d = sixWords (lastAccepted bufs) 4 ∧
      shownBins d = sixWords (lastWithBins bufs) 16 ∧
      (∀ buf, checkPmsframe buf = false →
        (pmsframe buf d).1 = { d with invalidFrames := d.invalidFrames + 1 }) ∧
      ∀ ws : Vector UInt16 13, checkPmsframe (sensorFrame ws) = true ∧
        let d' := (pmsframe (sensorFrame ws) d).1
        shownConcentrations d' ++ shownBins d' = (ws.toList.take 12).map UInt16.toNat := by
  intro d
  obtain ⟨h_valid, h_invalid⟩ := counters_pmsframes bufs
  have h_readings := readings_pmsframes bufs
  refine ⟨h_valid, h_invalid, ?_, ?_, ?_, ?_, ?_⟩
  · -- every buffer is accepted or rejected
    have h_split := List.length_eq_countP_add_countP checkPmsframe (l := bufs)
    rw [h_valid, h_invalid, ← UInt32.ofNat_add, h_split]
    simp
  · exact shownConcentrations_of_frame (by rw [h_readings])
  · exact shownBins_of_frame (by rw [h_readings])
  · intro buf h
    rw [pmsframe_invalid h]
  · exact fun ws => ⟨checkPmsframe_sensorFrame ws, shown_sensorFrame d ws⟩

end AirQuality
