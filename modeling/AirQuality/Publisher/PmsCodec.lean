import AirQuality.Publisher.PmsFrames

/-!
# The frame format

A frame wraps some bytes of data: the preamble, the number of bytes behind the length field, the
data, and the sum of all that (`frameOf`). `check_pmsframe` is a parser of this format. It accepts
a buffer exactly if the buffer starts with a frame around 18 to 26 bytes, and which bytes these are
is then determined; `pmsframe` takes the first twelve as the concentrations and the next twelve as
the bins, if all 26 are there (`pmsFormat`).
-/

namespace AirQuality

/-! ### Words and their bytes -/

/-- The bytes of a word of a buffer are those of the buffer. -/
theorem wordBytes_word (buf : Frame) {n : Nat} (hn : n + 2 ≤ 32) :
    wordBytes (word buf n) = (buf.toList.drop n).take 2 := by
  have h_len : buf.toList.length = 32 := buf.length_toList
  have h_hi : buf[n]? = some buf.toList[n] := by simp [show n < 32 by omega]
  have h_lo : buf[n + 1]? = some buf.toList[n + 1] := by simp [show n + 1 < 32 by omega]
  have h_value := wordBytes_value (word buf n)
  rw [word_toNat, beWord, h_hi, h_lo, Option.getD_some, Option.getD_some] at h_value
  have h_byte := (word buf n).toUInt8.toNat_lt
  have h_byte' := buf.toList[n + 1].toNat_lt
  rw [List.drop_eq_getElem_cons (by omega), List.drop_eq_getElem_cons (by omega)]
  show [_, _] = [buf.toList[n], buf.toList[n + 1]]
  congr 1
  · apply UInt8.toNat_inj.mp
    omega
  · congr 1
    apply UInt8.toNat_inj.mp
    omega

/-- So are those of several words in a row. -/
theorem wordBytes_words (buf : Frame) {n k : Nat} (hn : n + 2 * k ≤ 32) :
    ((List.range k).map fun j => word buf (n + 2 * j)).flatMap wordBytes
      = (buf.toList.drop n).take (2 * k) := by
  induction k with
  | zero => rfl
  | succ k ih =>
    rw [List.range_succ, List.map_append, List.flatMap_append, ih (by omega), List.map_singleton,
      List.flatMap_singleton, wordBytes_word buf (by omega), Nat.mul_succ, List.take_add,
      List.drop_drop]

/-- A word found among the bytes of a buffer. -/
theorem beWord_of_toList {buf : Frame} {before after : List UInt8} {w : UInt16}
    (h : buf.toList = before ++ wordBytes w ++ after) : beWord buf before.length = w.toNat := by
  have h_byte (i : Nat) : buf[i]? = (before ++ wordBytes w ++ after)[i]? := by
    rw [← h, Vector.getElem?_toList]
  rw [← wordBytes_value w, beWord, h_byte, h_byte]
  simp [wordBytes]

/-! ### Frames -/

/-- What comes in front of the checksum. -/
def bodyOf (data : List UInt8) : List UInt8 :=
  [pre1, pre2] ++ wordBytes (UInt16.ofNat (data.length + 2)) ++ data

/-- The sum of the bytes in front of the checksum. -/
def sumOf (data : List UInt8) : Nat := ((bodyOf data).map UInt8.toNat).sum

/-- **The frame around `data`.** -/
def frameOf (data : List UInt8) : List UInt8 :=
  bodyOf data ++ wordBytes (UInt16.ofNat (sumOf data))

/-- The buffer starts with the frame around `data`, behind which `rest` is left. -/
structure Framed (buf : Frame) (data rest : List UInt8) : Prop where
  min : 18 ≤ data.length
  max : data.length ≤ 26
  toList : buf.toList = frameOf data ++ rest

@[simp] theorem length_bodyOf (data : List UInt8) : (bodyOf data).length = data.length + 4 := by
  simp only [bodyOf, wordBytes, List.length_append, List.length_cons, List.length_nil]
  omega

section

variable {buf : Frame} {data rest : List UInt8}

theorem Framed.beWord_length (h : Framed buf data rest) : beWord buf 2 = data.length + 2 := by
  have h_max := h.max
  have h_split : buf.toList = [pre1, pre2] ++ wordBytes (UInt16.ofNat (data.length + 2))
      ++ (data ++ wordBytes (UInt16.ofNat (sumOf data)) ++ rest) := by
    rw [h.toList]
    simp only [frameOf, bodyOf, List.append_assoc]
  have h_word : beWord buf 2 = _ := beWord_of_toList h_split
  rw [h_word]
  exact UInt16.toNat_ofNat_of_lt' (by change _ < 2 ^ 16; omega)

/-- The driver sums what is in front of the checksum. -/
theorem Framed.sumBytes_eq (h : Framed buf data rest) :
    sumBytes id buf (data.length + 4) = sumOf data := by
  have h_max := h.max
  have h_take : buf.toList.take (data.length + 4) = bodyOf data := by
    rw [h.toList, frameOf, List.append_assoc, ← length_bodyOf, List.take_left]
  rw [sumBytes_eq_sum buf (by omega), h_take]
  rfl

theorem Framed.valid (h : Framed buf data rest) : ValidFrame buf := by
  have h_len := h.beWord_length
  have h_min := h.min
  have h_max := h.max
  have h_get (i : Fin 32) : buf.get i = buf.toList[i] := (Vector.getElem_toList ..).symm
  have h_bytes : buf.toList = pre1 :: pre2 :: _ := h.toList
  have h_sum := h.sumBytes_eq
  have h_le := sumBytes_id_le buf (data.length + 4)
  constructor
  case pre1 => simp [h_get, h_bytes]
  case pre2 => simp [h_get, h_bytes]
  case min => omega
  case max => omega
  case sum =>
    -- the sum of at most 30 bytes fits the word that it is written in
    have h_word : beWord buf (bodyOf data).length = _ := beWord_of_toList h.toList
    rw [length_bodyOf] at h_word
    rw [h_len, h_sum, h_word, UInt16.toNat_ofNat_of_lt' (by change _ < 2 ^ 16; omega)]

/-- **There is one way to read a buffer.** -/
theorem Framed.unique {data' rest' : List UInt8} (h : Framed buf data rest)
    (h' : Framed buf data' rest') : data' = data ∧ rest' = rest := by
  -- the length field says where the data ends
  have h_len : data'.length = data.length := by
    have h_eq := h.beWord_length.symm.trans h'.beWord_length
    omega
  have h_split : frameOf data' ++ rest' = frameOf data ++ rest := h'.toList.symm.trans h.toList
  have h_frame : (frameOf data').length = (frameOf data).length := by
    simp [frameOf, wordBytes, h_len]
  obtain ⟨h_eq, h_rest⟩ := List.append_inj h_split h_frame
  have h_body := (List.append_inj h_eq (by simp [h_len])).1
  exact ⟨(List.append_inj h_body (by simp [wordBytes])).2, h_rest⟩

/-- **Every valid frame is a frame around some data.** -/
theorem exists_framed (h : ValidFrame buf) : ∃ data rest, Framed buf data rest := by
  have h_min := h.min
  have h_max := h.max
  have h_sum := h.sum
  generalize h_len : beWord buf 2 = len at h_min h_max h_sum
  have h_size : buf.toList.length = 32 := buf.length_toList
  -- the length field counts the checksum as well
  let data := (buf.toList.drop 4).take (len - 2)
  have h_data : data.length = len - 2 := by
    simp only [data, List.length_take, List.length_drop, h_size]
    omega
  have h_word2 : word buf 2 = UInt16.ofNat (data.length + 2) := by
    apply UInt16.toNat_inj.mp
    rw [word_toNat, h_len, UInt16.toNat_ofNat_of_lt' (by change _ < 2 ^ 16; omega)]
    omega
  have h_body : buf.toList.take (len + 2) = bodyOf data := by
    have h_pre : buf.toList.take 2 = [pre1, pre2] := by
      rw [← h.pre1, ← h.pre2, List.take_succ_eq_append_getElem (by omega),
        List.take_succ_eq_append_getElem (by omega)]
      rfl
    calc buf.toList.take (len + 2)
        = buf.toList.take (2 + (2 + (len - 2))) := by congr 1; omega
      _ = buf.toList.take 2 ++ ((buf.toList.drop 2).take 2 ++ data) := by
        rw [List.take_add, List.take_add, List.drop_drop]
      _ = bodyOf data := by
        rw [h_pre, ← wordBytes_word buf (by omega), h_word2, ← List.append_assoc]
        rfl
  -- the checksum is the word behind what is summed
  have h_word : word buf (len + 2) = UInt16.ofNat (sumOf data) := by
    apply UInt16.toNat_inj.mp
    have h_lt := beWord_lt buf (len + 2)
    rw [sumBytes_eq_sum buf (by omega), h_body] at h_sum
    have h_eq : sumOf data = beWord buf (len + 2) := by exact_mod_cast h_sum
    rw [word_toNat, h_eq, UInt16.toNat_ofNat_of_lt' (by change _ < 2 ^ 16; omega)]
  refine ⟨data, buf.toList.drop (len + 4), by omega, by omega, ?_⟩
  calc buf.toList
      = buf.toList.take (len + 2) ++ ((buf.toList.drop (len + 2)).take 2
          ++ buf.toList.drop (len + 4)) := by
        have h_drop : (buf.toList.drop (len + 2)).drop 2 = buf.toList.drop (len + 4) :=
          List.drop_drop
        rw [← h_drop, List.take_append_drop, List.take_append_drop]
    _ = frameOf data ++ buf.toList.drop (len + 4) := by
      rw [h_body, ← wordBytes_word buf (by omega), h_word, ← List.append_assoc]
      rfl

/-! ### What the driver takes out -/

/-- The concentrations, in the order of the frame. -/
def Concentrations.words (pm : Concentrations) : List UInt16 :=
  [pm.pm1, pm.pm2_5, pm.pm10, pm.pm1Atm, pm.pm2_5Atm, pm.pm10Atm]

/-- The bins, in the order of the frame. -/
def DustBins.words (db : DustBins) : List UInt16 :=
  [db.db0_3, db.db0_5, db.db1, db.db2_5, db.db5, db.db10]

theorem frameConcentrations_words (buf : Frame) :
    (frameConcentrations buf).words.flatMap wordBytes = (buf.toList.drop 4).take 12 :=
  wordBytes_words buf (k := 6) (by omega)

theorem frameBins_words (buf : Frame) :
    (frameBins buf).words.flatMap wordBytes = (buf.toList.drop 16).take 12 :=
  wordBytes_words buf (k := 6) (by omega)

/-- A piece of the data is that piece of the buffer. -/
theorem Framed.take_drop (h : Framed buf data rest) {i n : Nat} (h_le : i + n ≤ data.length) :
    (buf.toList.drop (i + 4)).take n = (data.drop i).take n := by
  have h_split : buf.toList = [pre1, pre2] ++ wordBytes (UInt16.ofNat (data.length + 2))
      ++ (data ++ (wordBytes (UInt16.ofNat (sumOf data)) ++ rest)) := by
    rw [h.toList]
    simp only [frameOf, bodyOf, List.append_assoc]
  calc (buf.toList.drop (i + 4)).take n
      = ((data ++ (wordBytes (UInt16.ofNat (sumOf data)) ++ rest)).drop i).take n := by
        rw [Nat.add_comm, ← List.drop_drop, h_split]
        rfl
    _ = (data.drop i).take n := by
        rw [List.drop_append_of_le_length (by omega),
          List.take_append_of_le_length (by rw [List.length_drop]; omega)]

end

/-- **The format.** The driver accepts a buffer if and only if there is exactly one way to see it as
a frame around 18 to 26 bytes of data with something behind. The first twelve bytes of the data are
then the bytes of the concentrations; and the next twelve are those of the bins if there are 26,
while otherwise the bins are left as they were. -/
theorem pmsFormat (buf : Frame) :
    (checkPmsframe buf = true ↔ ∃! p : List UInt8 × List UInt8, Framed buf p.1 p.2) ∧
      ∀ data rest, Framed buf data rest → ∀ d : Pms,
        let readings := (pmsframe buf d).1.readings
        readings.pm.words.flatMap wordBytes = data.take 12 ∧
          (data.length = 26 → readings.db.words.flatMap wordBytes = (data.drop 12).take 12) ∧
          (data.length ≠ 26 → readings.db = d.readings.db) := by
  constructor
  · rw [checkPmsframe_iff]
    constructor
    · intro h_valid
      obtain ⟨data, rest, h⟩ := exists_framed h_valid
      refine ⟨(data, rest), h, fun p hp => ?_⟩
      obtain ⟨h_data, h_rest⟩ := h.unique hp
      exact Prod.ext h_data h_rest
    · rintro ⟨p, hp, -⟩
      exact hp.valid
  · intro data rest h d
    have h_min := h.min
    have h_acc : checkPmsframe buf = true := (checkPmsframe_iff buf).mpr h.valid
    have h_pm : (pmsframe buf d).1.readings.pm = frameConcentrations buf := by
      rw [pmsframe_valid h_acc]
    have h_db : (pmsframe buf d).1.readings.db
        = if frameLen buf = 28 then frameBins buf else d.readings.db := by
      rw [pmsframe_valid h_acc]
    -- the driver tells by the length field whether there are bins
    have h_len : frameLen buf = 28 ↔ data.length = 26 := by
      rw [frameLen_eq_iff, h.beWord_length]
      omega
    simp only [h_pm, h_db]
    refine ⟨?_, fun h_26 => ?_, fun h_26 => ?_⟩
    · exact (frameConcentrations_words buf).trans (h.take_drop (i := 0) (by omega))
    · rw [if_pos (h_len.mpr h_26)]
      exact (frameBins_words buf).trans (h.take_drop (i := 12) (by omega))
    · rw [if_neg (mt h_len.mp h_26)]

end AirQuality
