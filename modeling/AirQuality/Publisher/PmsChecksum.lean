import AirQuality.Publisher.PmsFrames

/-!
# What the frame check detects, and what it evaluates

An accepted frame stays accepted only as long as no single byte of it changes: the preamble and
the high byte of the length are fixed, the sum moves with every byte it covers, and the two bytes
behind the sum determine it (`ValidFrame.agree`). Only the low byte of the length is different,
since it moves the checksum itself. What lies behind the frame does not matter
(`validFrame_congr`).

`checkPmsframeRun` is `check_pmsframe` with a log of what it evaluates: the index of every byte it
reads, and every sum before it is stored to `sum`. The log and the verdict are the same in 16 bits
and in unbounded integers (`checkPmsframeRun_eq`).
-/

namespace AirQuality

/-! ### Buffers that agree -/

theorem byteAt_eq_get (buf : Frame) (i : Fin 32) : byteAt buf i = (buf.get i).toNat := by
  unfold byteAt
  rw [Vector.getElem?_eq_getElem i.isLt]
  rfl

theorem byteAt_eq_iff {buf buf' : Frame} {i : Fin 32} :
    byteAt buf' i = byteAt buf i ↔ buf'.get i = buf.get i := by
  rw [byteAt_eq_get, byteAt_eq_get, Int.natCast_inj, UInt8.toNat_inj]

theorem beWord_eq_byteAt (buf : Frame) (i : Nat) :
    (beWord buf i : Int) = 256 * byteAt buf i + byteAt buf (i + 1) := by
  unfold beWord byteAt
  push_cast
  rfl

/-- Buffers that agree on two bytes agree on the word. -/
theorem beWord_congr {buf buf' : Frame} {i : Nat} (h_hi : byteAt buf' i = byteAt buf i)
    (h_lo : byteAt buf' (i + 1) = byteAt buf (i + 1)) : beWord buf' i = beWord buf i := by
  apply Int.natCast_inj.mp
  calc (beWord buf' i : Int)
      = 256 * byteAt buf' i + byteAt buf' (i + 1) := beWord_eq_byteAt buf' i
    _ = 256 * byteAt buf i + byteAt buf (i + 1) := by rw [h_hi, h_lo]
    _ = beWord buf i := (beWord_eq_byteAt buf i).symm

theorem sumBytes_congr {buf buf' : Frame} {n : Nat}
    (h : ∀ k < n, byteAt buf' k = byteAt buf k) : sumBytes id buf' n = sumBytes id buf n := by
  induction n with
  | zero => rfl
  | succ n ih =>
    show sumBytes id buf' n + byteAt buf' n = sumBytes id buf n + byteAt buf n
    rw [ih fun k hk => h k (by omega), h n (by omega)]

/-- **The sum moves with each of its bytes.** -/
theorem sumBytes_differ {buf buf' : Frame} {n j : Nat} (h_j : j < n)
    (h : ∀ k < n, k ≠ j → byteAt buf' k = byteAt buf k) :
    sumBytes id buf' n - sumBytes id buf n = byteAt buf' j - byteAt buf j := by
  induction n with
  | zero => omega
  | succ n ih =>
    show sumBytes id buf' n + byteAt buf' n - (sumBytes id buf n + byteAt buf n) = _
    by_cases h_last : j = n
    · subst h_last
      rw [sumBytes_congr fun k hk => h k (by omega) (by omega)]
      omega
    · have h_ih := ih (by omega) fun k hk => h k (by omega)
      have h_byte := h n (by omega) (Ne.symm h_last)
      omega

/-! ### Accepted frames -/

/-- The high byte of the length is zero, so the low one is the length. -/
theorem ValidFrame.length_bytes {buf : Frame} (h : ValidFrame buf) :
    byteAt buf 2 = 0 ∧ byteAt buf 3 = beWord buf 2 := by
  have h_word := beWord_eq_byteAt buf 2
  have h_max := h.max
  have h_hi := byteAt_nonneg buf 2
  have h_lo := byteAt_nonneg buf 3
  rw [show 2 + 1 = 3 from rfl] at h_word
  omega

/-- Two frames with the same length byte begin with the same four bytes. -/
theorem ValidFrame.agree_header {buf buf' : Frame} (h : ValidFrame buf) (h' : ValidFrame buf')
    (h_low : byteAt buf' 3 = byteAt buf 3) {k : Nat} (hk : k < 4) :
    byteAt buf' k = byteAt buf k := by
  match k, hk with
  | 0, _ => exact byteAt_eq_iff (i := 0).mpr (h'.pre1.trans h.pre1.symm)
  | 1, _ => exact byteAt_eq_iff (i := 1).mpr (h'.pre2.trans h.pre2.symm)
  | 2, _ => rw [h.length_bytes.1, h'.length_bytes.1]
  | 3, _ => exact h_low

/-- **Two frames with the same length byte do not differ in a single byte.** -/
theorem ValidFrame.agree {buf buf' : Frame} (h : ValidFrame buf) (h' : ValidFrame buf')
    (h_low : byteAt buf' 3 = byteAt buf 3) {j : Nat}
    (h_off : ∀ k < beWord buf 2 + 4, k ≠ j → byteAt buf' k = byteAt buf k) {k : Nat}
    (hk : k < beWord buf 2 + 4) : byteAt buf' k = byteAt buf k := by
  by_cases h_kj : k = j
  swap
  · exact h_off k hk h_kj
  subst h_kj
  by_cases h_header : k < 4
  · exact h.agree_header h' h_low h_header
  -- the length is the same, so both sums cover the same bytes
  have h_len : beWord buf' 2 = beWord buf 2 :=
    beWord_congr (h.agree_header h' h_low (by omega)) h_low
  have h_sum := h.sum
  have h_sum' := h'.sum
  rw [h_len] at h_sum'
  have h_cks := beWord_eq_byteAt buf (beWord buf 2 + 2)
  have h_cks' := beWord_eq_byteAt buf' (beWord buf 2 + 2)
  by_cases h_data : k < beWord buf 2 + 2
  · -- a byte of the sum: the bytes behind it are the same
    have h_move := sumBytes_differ h_data fun i hi => h_off i (by omega)
    have h_hi := h_off (beWord buf 2 + 2) (by omega) (by omega)
    have h_lo := h_off (beWord buf 2 + 2 + 1) (by omega) (by omega)
    omega
  · -- a byte behind the sum: the sum is the same
    have h_same : sumBytes id buf' (beWord buf 2 + 2) = sumBytes id buf (beWord buf 2 + 2) :=
      sumBytes_congr fun i hi => h_off i (by omega) (by omega)
    by_cases h_hi : k = beWord buf 2 + 2
    · subst h_hi
      have h_lo := h_off (beWord buf 2 + 2 + 1) (by omega) (by omega)
      omega
    · have h_k : k = beWord buf 2 + 2 + 1 := by omega
      subst h_k
      have h_hi := h_off (beWord buf 2 + 2) (by omega) (by omega)
      omega

/-- What lies behind the frame does not matter. -/
theorem validFrame_congr {buf buf' : Frame}
    (h : ∀ k < beWord buf 2 + 4, byteAt buf' k = byteAt buf k) (h_valid : ValidFrame buf) :
    ValidFrame buf' := by
  have h_len : beWord buf' 2 = beWord buf 2 := beWord_congr (h 2 (by omega)) (h 3 (by omega))
  have h_sum : sumBytes id buf' (beWord buf' 2 + 2) = beWord buf' (beWord buf' 2 + 2) := by
    rw [h_len]
    calc sumBytes id buf' (beWord buf 2 + 2)
        = sumBytes id buf (beWord buf 2 + 2) := sumBytes_congr fun k hk => h k (by omega)
      _ = beWord buf (beWord buf 2 + 2) := h_valid.sum
      _ = beWord buf' (beWord buf 2 + 2) := by
        rw [beWord_congr (h _ (by omega)) (h _ (by omega))]
  refine ⟨?_, ?_, h_len ▸ h_valid.min, h_len ▸ h_valid.max, h_sum⟩
  · exact (byteAt_eq_iff (i := 0).mp (h 0 (by omega))).trans h_valid.pre1
  · exact (byteAt_eq_iff (i := 1).mp (h 1 (by omega))).trans h_valid.pre2

/-! ### Changing a byte -/

/-- A buffer with another byte at index `i`. -/
def corrupt (buf : Frame) (i : Fin 32) (b : UInt8) : Frame := buf.set i b i.isLt

theorem corrupt_same (buf : Frame) (i : Fin 32) (b : UInt8) : (corrupt buf i b).get i = b :=
  Vector.getElem_set_self i.isLt

theorem corrupt_other {buf : Frame} {i k : Fin 32} (h : k ≠ i) (b : UInt8) :
    (corrupt buf i b).get k = buf.get k :=
  Vector.getElem_set_ne i.isLt k.isLt fun h_eq => h (Fin.ext h_eq.symm)

/-- **What `check_pmsframe` detects.** Let `L` be the length field of a buffer.

* If the buffer is accepted, then `L` is the length the driver computes, changing one of its first
  `L + 4` bytes except byte 3 makes it rejected, and an accepted buffer with the same byte 3
  agrees with it on the first `L + 4` bytes if it does so on all but one of them.
* Accepted or not, buffers that agree on the first `L + 4` bytes have the same verdict. -/
theorem checkPmsframe_detects (buf : Frame) :
    (checkPmsframe buf = true →
      frameLen buf = beWord buf 2 ∧
      (∀ (i : Fin 32) (b : UInt8), i < beWord buf 2 + 4 → i ≠ 3 → b ≠ buf.get i →
        checkPmsframe (corrupt buf i b) = false) ∧
      ∀ buf', checkPmsframe buf' = true → buf'.get 3 = buf.get 3 →
        ∀ j : Fin 32, (∀ k : Fin 32, k < beWord buf 2 + 4 → k ≠ j → buf'.get k = buf.get k) →
          ∀ k : Fin 32, k < beWord buf 2 + 4 → buf'.get k = buf.get k) ∧
      ∀ buf', (∀ k : Fin 32, k < beWord buf 2 + 4 → buf'.get k = buf.get k) →
        checkPmsframe buf' = checkPmsframe buf := by
  constructor
  · intro h_acc
    have h := (checkPmsframe_iff buf).mp h_acc
    have h_max := h.max
    -- two accepted buffers
    have h_agree : ∀ buf', checkPmsframe buf' = true → buf'.get 3 = buf.get 3 →
        ∀ j : Fin 32, (∀ k : Fin 32, k < beWord buf 2 + 4 → k ≠ j → buf'.get k = buf.get k) →
          ∀ k : Fin 32, k < beWord buf 2 + 4 → buf'.get k = buf.get k := by
      intro buf' h_acc' h_low j h_off k hk
      have h_off' : ∀ k < beWord buf 2 + 4, k ≠ (j : Nat) → byteAt buf' k = byteAt buf k := by
        intro k hk h_ne
        exact byteAt_eq_iff (i := ⟨k, by omega⟩).mpr
          (h_off ⟨k, by omega⟩ hk fun h_eq => h_ne (congrArg Fin.val h_eq))
      exact byteAt_eq_iff.mp
        (h.agree ((checkPmsframe_iff buf').mp h_acc') (byteAt_eq_iff (i := 3).mpr h_low) h_off' hk)
    refine ⟨?_, ?_, h_agree⟩
    · exact wordInt_of_lt isInt_int16 (by omega)
    · intro i b hi h_ne h_b
      by_contra h_acc'
      rw [Bool.not_eq_false] at h_acc'
      -- if it were accepted, byte `i` would be the old one
      have h_same := h_agree (corrupt buf i b) h_acc' (corrupt_other (Ne.symm h_ne) b) i
        (fun k _ h_k => corrupt_other h_k b) i hi
      rw [corrupt_same] at h_same
      exact h_b h_same
  · intro buf' h
    have h_bytes : ∀ k < beWord buf 2 + 4, byteAt buf' k = byteAt buf k := by
      intro k hk
      by_cases h_k : k < 32
      · exact byteAt_eq_iff (i := ⟨k, h_k⟩).mpr (h ⟨k, h_k⟩ hk)
      · unfold byteAt
        rw [Vector.getElem?_eq_none (by omega), Vector.getElem?_eq_none (by omega)]
    have h_len : beWord buf' 2 = beWord buf 2 :=
      beWord_congr (h_bytes 2 (by omega)) (h_bytes 3 (by omega))
    rw [Bool.eq_iff_iff, checkPmsframe_iff, checkPmsframe_iff]
    constructor
    · refine validFrame_congr fun k hk => (h_bytes k ?_).symm
      rwa [h_len] at hk
    · exact validFrame_congr h_bytes

/-- The low byte of the length is different: this buffer is a frame with 28 in it and with 20. -/
example :
    let buf : Frame := #v[0x42, 0x4d, 0, 28, 0, 0, 0, 0, 0, 0, 0, 0, 0, 0, 0, 0, 0, 0, 0, 0, 0, 0,
      0, 163, 0, 0, 0, 0, 0, 0, 1, 78]
    checkPmsframe buf = true ∧ checkPmsframe (corrupt buf 3 20) = true := by decide +kernel

/-! ### What the check evaluates -/

/-- The indices of the bytes read, and the sums computed for `sum += buf[i]`. -/
structure CheckLog where
  reads : List Int
  sums : List Int
  deriving DecidableEq

/-- `buf[i]`. -/
def readByte (buf : Frame) (i : Int) (log : CheckLog) : CheckLog × Int :=
  ({ log with reads := log.reads ++ [i] }, byteAt buf i.toNat)

/-- The loop of `check_pmsframe`, with the number of iterations left. -/
def sumLoop (wrap : Int → Int) (buf : Frame) : Nat → Int → Int → CheckLog → CheckLog × Int
  | 0, _, sum, log => (log, sum)
  | n + 1, i, sum, log =>
    let (log, b) := readByte buf i log
    let log := { log with sums := log.sums ++ [sum + b] }
    sumLoop wrap buf n (wrap (i + 1)) (wrap (sum + b)) log

/-- **`check_pmsframe` with its log.** -/
def checkPmsframeRun (wrap : Int → Int) (buf : Frame) : CheckLog × Bool :=
  let (log, b) := readByte buf 0 ⟨[], []⟩
  if b ≠ pre1.toNat then (log, false)
  else
    -- `||` reads the second byte only if the first one is right
    let (log, b) := readByte buf 1 log
    if b ≠ pre2.toNat then (log, false)
    else
      let (log, hi) := readByte buf 2 log
      let (log, lo) := readByte buf 3 log
      let len := wrap (wrap (hi * 2 ^ 8) + lo)
      if len < pmsMinBodyLen ∨ pmsMaxBodyLen < len then (log, false)
      else
        let (log, sum) := sumLoop wrap buf (wrap (len + 2)).toNat 0 0 log
        let (log, hi) := readByte buf (wrap (len + 2)) log
        let (log, lo) := readByte buf (wrap (len + 3)) log
        let pmssum := wrap (wrap (hi * 2 ^ 8) + lo)
        (log, pmssum == sum)

/-- Every read is inside the buffer, and no sum overflows an `int` of 16 bits. -/
structure CheckLog.Safe (log : CheckLog) : Prop where
  reads : ∀ i ∈ log.reads, 0 ≤ i ∧ i < 32
  sums : ∀ x ∈ log.sums, -2 ^ 15 ≤ x ∧ x < 2 ^ 15

/-- What the check evaluates on a buffer, said with unbounded numbers. -/
def expectedRun (buf : Frame) : CheckLog × Bool :=
  if buf.get 0 ≠ pre1 then (⟨[0], []⟩, false)
  else if buf.get 1 ≠ pre2 then (⟨[0, 1], []⟩, false)
  else if beWord buf 2 < 20 ∨ 28 < beWord buf 2 then (⟨[0, 1, 2, 3], []⟩, false)
  else
    (⟨([0, 1, 2, 3] ++ List.range' 0 (beWord buf 2 + 2)
        ++ [beWord buf 2 + 2, beWord buf 2 + 3]).map Int.ofNat,
      (List.range' 1 (beWord buf 2 + 2)).map (sumBytes id buf)⟩,
      decide ((beWord buf (beWord buf 2 + 2) : Int) = sumBytes id buf (beWord buf 2 + 2)))

theorem byteAt_ne_iff (buf : Frame) (i : Fin 32) (b : UInt8) :
    byteAt buf i ≠ b.toNat ↔ buf.get i ≠ b := by
  rw [byteAt_eq_get, Ne, Int.natCast_inj, UInt8.toNat_inj]

section

variable {wrap : Int → Int} (h_int : IsInt wrap) (buf : Frame)

include h_int

/-- The loop from its `i`-th iteration on: no sum is changed by the conversion to `int`. -/
theorem sumLoop_eq (n i : Nat) (h : i + n ≤ 128) (log : CheckLog) :
    sumLoop wrap buf n i (sumBytes id buf i) log
      = (⟨log.reads ++ (List.range' i n).map Int.ofNat,
          log.sums ++ (List.range' (i + 1) n).map (sumBytes id buf)⟩,
        sumBytes id buf (i + n)) := by
  induction n generalizing i log with
  | zero =>
    rw [List.range'_zero, List.range'_zero]
    simp only [List.map_nil, List.append_nil, Nat.add_zero]
    rfl
  | succ n ih =>
    have h_nonneg := sumBytes_id_nonneg buf (i + 1)
    have h_le := sumBytes_id_le buf (i + 1)
    -- the sum after this iteration, and the index of the next
    have h_sum : sumBytes id buf i + byteAt buf i = sumBytes id buf (i + 1) := rfl
    have h_keep : wrap (sumBytes id buf (i + 1)) = sumBytes id buf (i + 1) :=
      h_int.keeps (by omega) (by omega)
    have h_index : wrap ((i : Int) + 1) = ((i + 1 : Nat) : Int) := by
      rw [h_int.keeps (by omega) (by omega)]
      push_cast
      rfl
    calc sumLoop wrap buf (n + 1) i (sumBytes id buf i) log
        = sumLoop wrap buf n (wrap (i + 1)) (wrap (sumBytes id buf i + byteAt buf i))
            ⟨log.reads ++ [Int.ofNat i], log.sums ++ [sumBytes id buf i + byteAt buf i]⟩ := rfl
      _ = sumLoop wrap buf n (i + 1 : Nat) (sumBytes id buf (i + 1))
            ⟨log.reads ++ [Int.ofNat i], log.sums ++ [sumBytes id buf (i + 1)]⟩ := by
        rw [h_sum, h_keep, h_index]
      _ = (⟨log.reads ++ [Int.ofNat i] ++ (List.range' (i + 1) n).map Int.ofNat,
            log.sums ++ [sumBytes id buf (i + 1)]
              ++ (List.range' (i + 1 + 1) n).map (sumBytes id buf)⟩,
          sumBytes id buf (i + 1 + n)) := ih (i + 1) (by omega) _
      _ = _ := by
        rw [Nat.add_assoc i 1 n, Nat.add_comm 1 n]
        simp only [List.range'_succ, List.map_cons, List.append_assoc, List.singleton_append]

/-- **The run of the check, whatever the width of the `int`.** -/
theorem checkPmsframeRun_eq : checkPmsframeRun wrap buf = expectedRun buf := by
  have h_unfold : checkPmsframeRun wrap buf = if byteAt buf 0 ≠ pre1.toNat then (⟨[0], []⟩, false)
      else if byteAt buf 1 ≠ pre2.toNat then (⟨[0, 1], []⟩, false)
      else if wordInt wrap buf 2 < pmsMinBodyLen ∨ pmsMaxBodyLen < wordInt wrap buf 2 then
        (⟨[0, 1, 2, 3], []⟩, false)
      else
        let r := sumLoop wrap buf (wrap (wordInt wrap buf 2 + 2)).toNat 0 0 ⟨[0, 1, 2, 3], []⟩
        let hi := readByte buf (wrap (wordInt wrap buf 2 + 2)) r.1
        let lo := readByte buf (wrap (wordInt wrap buf 2 + 3)) hi.1
        (lo.1, decide (wrap (wrap (hi.2 * 2 ^ 8) + lo.2) = r.2)) := rfl
  have h_pre1 : byteAt buf 0 ≠ pre1.toNat ↔ buf.get 0 ≠ pre1 := byteAt_ne_iff buf 0 pre1
  have h_pre2 : byteAt buf 1 ≠ pre2.toNat ↔ buf.get 1 ≠ pre2 := byteAt_ne_iff buf 1 pre2
  rw [h_unfold, pmsMinBodyLen, pmsMaxBodyLen]
  unfold expectedRun
  simp only [h_pre1, h_pre2, wordInt_length_iff h_int]
  split; · rfl
  split; · rfl
  split; · rfl
  -- an admitted length: the conversions change nothing
  next h_len =>
    obtain ⟨h_min, h_max⟩ := not_or.mp h_len
    have h_word : wordInt wrap buf 2 = beWord buf 2 := wordInt_of_lt h_int (by omega)
    have h_bound : wrap ((beWord buf 2 : Int) + 2) = (beWord buf 2 + 2 : Nat) :=
      h_int.keeps (by omega) (by omega)
    have h_last : wrap ((beWord buf 2 : Int) + 3) = (beWord buf 2 + 3 : Nat) :=
      h_int.keeps (by omega) (by omega)
    have h_loop : sumLoop wrap buf (beWord buf 2 + 2) 0 0 ⟨[0, 1, 2, 3], []⟩
        = (⟨([0, 1, 2, 3] ++ List.range' 0 (beWord buf 2 + 2)).map Int.ofNat,
            (List.range' 1 (beWord buf 2 + 2)).map (sumBytes id buf)⟩,
          sumBytes id buf (beWord buf 2 + 2)) := by
      have h := sumLoop_eq h_int buf (beWord buf 2 + 2) 0 (by omega) ⟨[0, 1, 2, 3], []⟩
      rw [Nat.zero_add (beWord buf 2 + 2)] at h
      exact h
    rw [h_word, h_bound, h_last, Int.toNat_natCast, h_loop]
    -- what is left is to compare the sum with the word behind it
    have h_nonneg := sumBytes_id_nonneg buf (beWord buf 2 + 2)
    have h_le := sumBytes_id_le buf (beWord buf 2 + 2)
    have h_eq := wordInt_eq_iff h_int buf (beWord buf 2 + 2) h_nonneg (by omega)
    refine Prod.ext ?_ (decide_eq_decide.mpr h_eq)
    simp [readByte]

/-- The log does not change the verdict. -/
theorem checkPmsframeRun_verdict :
    (checkPmsframeRun wrap buf).2 = checkPmsframeWith wrap buf := by
  rw [checkPmsframeRun_eq h_int, Bool.eq_iff_iff, checkPmsframeWith_iff h_int]
  unfold expectedRun
  constructor
  · intro h
    split at h; · cases h
    split at h; · cases h
    split at h; · cases h
    next h_pre1 h_pre2 h_len =>
      obtain ⟨h_min, h_max⟩ := not_or.mp h_len
      exact ⟨not_not.mp h_pre1, not_not.mp h_pre2, by omega, by omega, (of_decide_eq_true h).symm⟩
  · intro h
    rw [if_neg (not_not.mpr h.pre1), if_neg (not_not.mpr h.pre2),
      if_neg (not_or.mpr ⟨Nat.not_lt.mpr h.min, Nat.not_lt.mpr h.max⟩)]
    exact decide_eq_true h.sum.symm

end

/-- Thirty sums of at most thirty bytes, and indices up to that of the last byte of the frame. -/
theorem expectedRun_safe (buf : Frame) : (expectedRun buf).1.Safe := by
  unfold expectedRun
  split; · exact ⟨by simp, by simp⟩
  split; · exact ⟨by simp, by simp⟩
  split; · exact ⟨by simp, by simp⟩
  next h_len =>
    obtain ⟨h_min, h_max⟩ := not_or.mp h_len
    constructor
    · intro i hi
      obtain ⟨k, hk, rfl⟩ := List.mem_map.mp hi
      have h_lt : k < 32 := by
        simp at hk
        omega
      exact ⟨Int.natCast_nonneg k, Int.ofNat_lt.mpr h_lt⟩
    · intro x hx
      obtain ⟨k, hk, rfl⟩ := List.mem_map.mp hx
      have h_nonneg := sumBytes_id_nonneg buf k
      have h_le := sumBytes_id_le buf k
      have h_k := List.mem_range'_1.mp hk
      exact ⟨by omega, by omega⟩

/-- **The width of `int` does not matter.** On every buffer the check gives the same verdict with
the `int` of the node as with unbounded integers, and evaluates the same: it reads inside the
buffer only, and no addition to the running sum overflows. -/
theorem checkPmsframe_int16 (buf : Frame) :
    checkPmsframe buf = checkPmsframeWith id buf ∧
      checkPmsframeRun int16 buf = checkPmsframeRun id buf ∧
      (checkPmsframeRun int16 buf).2 = checkPmsframe buf ∧
      (checkPmsframeRun int16 buf).1.Safe := by
  have h_run := checkPmsframeRun_eq isInt_int16 buf
  refine ⟨?_, ?_, checkPmsframeRun_verdict isInt_int16 buf, ?_⟩
  · rw [Bool.eq_iff_iff, checkPmsframeWith_iff isInt_id, checkPmsframe_iff]
  · rw [h_run, checkPmsframeRun_eq isInt_id]
  · rw [h_run]
    exact expectedRun_safe buf

/-- A length field of 65535 is -1 on the node: four bytes are read and the frame is rejected. -/
example : checkPmsframeRun int16 ((zeroFrame.set 0 pre1).set 1 pre2 |>.set 2 255 |>.set 3 255)
    = (⟨[0, 1, 2, 3], []⟩, false) := by decide +kernel

end AirQuality
