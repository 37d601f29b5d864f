import Mathlib.Data.List.TakeWhile
import AirQuality.Framework.Printf

/-!
# Strings in character buffers

The string that a buffer holds (`stringAt`), the string that is left of a text when it is stored in
a buffer that may be too short (`stored`), and two ways of appending.

The first is `snprintf(buf + n, size - n, ...)` with the accumulated lengths in `n`. As long as `n`
does not exceed `size`, the buffer holds the beginning of the concatenation, however long that is
(`snprintf_append`): a piece that was cut off leaves no room for the next ones. The second is
`strlcat`, whose `size` is that of the whole buffer: it appends what fits, or nothing if the buffer
is full already (`strlcat_of_lt`, `strlcat_of_le`).
-/

namespace CMem

open Printf

/-! ### The string in a buffer -/

/-- A C string: characters other than NUL. -/
abbrev CString := {cs : List Char // nul ∉ cs}

/-- The characters in front of the first NUL of the `size` characters at `p`. -/
def stringAt (m : Mem) (p size : Nat) : List Char := (read m p size).takeWhile (· ≠ nul)

/-- What a buffer of `size` characters holds of a text: its beginning, and a NUL. -/
def stored (size : Nat) (text : List Char) : List Char := text.take (size - 1) ++ [nul]

theorem length_stored (size : Nat) (text : List Char) :
    (stored size text).length = min (size - 1) text.length + 1 := by
  simp [stored]

theorem stored_of_lt {size : Nat} {text : List Char} (h : text.length < size) :
    stored size text = text ++ [nul] := by
  rw [stored, List.take_of_length_le (by omega)]

/-- A text without NUL characters is the string in front of the NUL behind it. -/
theorem stringAt_write (m : Mem) (p size : Nat) {text : List Char} (h : nul ∉ text)
    (h_size : text.length < size) : stringAt (write m p (text ++ [nul])) p size = text := by
  obtain ⟨k, rfl⟩ : ∃ k, size = text.length + (1 + k) := ⟨size - text.length - 1, by omega⟩
  have h_nul : write m p (text ++ [nul]) (p + text.length) = nul := write_behind m p text nul
  have h_text : ∀ c ∈ text, decide (c ≠ nul) = true := by
    intro c hc
    exact decide_eq_true fun h_eq => h (h_eq ▸ hc)
  unfold stringAt
  rw [read_append, read_write, List.takeWhile_append_of_pos h_text, read_append]
  show text ++ ((write m p (text ++ [nul]) (p + text.length)) :: _).takeWhile _ = text
  rw [h_nul, List.takeWhile_cons_of_neg (by simp), List.append_nil]

/-- The string at an offset into a text. -/
theorem stringAt_write_tail (m : Mem) (p size : Nat) (head : List Char) {tail : List Char}
    (h : nul ∉ tail) (h_size : tail.length < size) :
    stringAt (write m p (head ++ (tail ++ [nul]))) (p + head.length) size = tail := by
  rw [← write_extend m p head [] (tail ++ [nul]) (Nat.zero_le _)]
  exact stringAt_write _ _ _ h h_size

/-- A string that begins with NUL is empty. -/
theorem stringAt_of_nul {m : Mem} {p : Nat} (h : m p = nul) (size : Nat) :
    stringAt m p size = [] := by
  unfold stringAt read
  cases size with
  | zero => rfl
  | succ size =>
    rw [List.range_succ_eq_map, List.map_cons, Nat.add_zero, h]
    exact List.takeWhile_cons_of_neg (by simp)

theorem nul_not_mem_stringAt (m : Mem) (p size : Nat) : nul ∉ stringAt m p size := by
  intro h
  have h_ne := List.mem_takeWhile_imp h
  exact absurd h_ne (by simp)

/-- A buffer that is too short for the text is full of it. -/
theorem stringAt_write_full (m : Mem) (p size : Nat) {text : List Char} (h : nul ∉ text)
    (h_size : size ≤ text.length) :
    stringAt (write m p (text ++ [nul])) p size = text.take size := by
  have h_read : read (write m p (text ++ [nul])) p size = text.take size := by
    have h_len : (text.take size).length = size := by simp; omega
    have h_read := read_write m p (text.take size) (text.drop size ++ [nul])
    rwa [h_len, ← List.append_assoc, List.take_append_drop] at h_read
  unfold stringAt
  rw [h_read, List.takeWhile_eq_self_iff]
  intro c hc
  exact decide_eq_true fun h_eq => h (h_eq ▸ List.mem_of_mem_take hc)

/-! ### Appending with `snprintf` -/

theorem snprintf_stored (m : Mem) (p : Nat) {size : Nat} (fmt : String) (args : List Arg)
    (h_size : 0 < size) : (snprintf m p size fmt args).1
      = write m p (stored size (format fmt.toList args)) :=
  if_neg (Nat.ne_of_gt h_size)

/-- The string that `snprintf` leaves: what fits of the text, and a NUL behind it. -/
theorem stringAt_snprintf (m : Mem) (p : Nat) {size : Nat} (fmt : String) (args : List Arg)
    (h_size : 0 < size) (h : nul ∉ format fmt.toList args) :
    stringAt (snprintf m p size fmt args).1 p size
        = (format fmt.toList args).take (size - 1) ∧
      ∃ i < size, (snprintf m p size fmt args).1 (p + i) = nul := by
  rw [snprintf_stored m p fmt args h_size, stored]
  constructor
  · apply stringAt_write
    · exact fun h_mem => h (List.mem_of_mem_take h_mem)
    · rw [List.length_take]
      omega
  · refine ⟨((format fmt.toList args).take (size - 1)).length, ?_, write_behind m p _ nul⟩
    rw [List.length_take]
    omega

/-- **Appending at the accumulated length.** The buffer holds the beginning of the text so far; if
that text is no longer than the buffer, `snprintf` into what is left of it makes it the beginning
of the concatenation. -/
theorem snprintf_append (m : Mem) (p : Nat) {size : Nat} (text : List Char) (fmt : String)
    (args : List Arg) (h_size : 0 < size) (h : text.length ≤ size) :
    (snprintf (write m p (stored size text)) (p + text.length) (size - text.length) fmt args).1
      = write m p (stored size (text ++ format fmt.toList args)) := by
  unfold snprintf
  by_cases h_full : size - text.length = 0
  · -- nothing is left, not even for a NUL
    simp only [if_pos h_full]
    unfold stored
    rw [List.take_append_of_le_length (by omega)]
  · have h_room : size - text.length - 1 = size - 1 - text.length := by omega
    have h_more : stored size (text ++ format fmt.toList args)
        = text ++ ((format fmt.toList args).take (size - text.length - 1) ++ [nul]) := by
      rw [stored, List.take_append, List.take_of_length_le (by omega : text.length ≤ size - 1),
        List.append_assoc, h_room]
    simp only [if_neg h_full]
    -- the NUL of the old text is overwritten
    rw [h_more, stored_of_lt (by omega : text.length < size)]
    exact write_extend m p text [nul] _ (by simp)

/-! ### `strlcat` -/

/-- **`strlcat(m + dst, src, size)`**: append to the string at `dst`, in a buffer of `size`
characters in all. The value returned is the length of the string it tried to make; nothing is
appended to a buffer without a NUL. -/
def strlcat (m : Mem) (dst : Nat) (src : List Char) (size : Nat) : Mem × Nat :=
  let n := (stringAt m dst size).length
  (if n = size then m else write m (dst + n) (src.take (size - n - 1) ++ [nul]), n + src.length)

/-- Behind a string that the size covers, `strlcat` stores what fits. -/
theorem strlcat_of_lt (m : Mem) (dst : Nat) {size : Nat} {text : List Char} (src : List Char)
    (h : nul ∉ text) (h_size : text.length < size) :
    strlcat (write m dst (text ++ [nul])) dst src size
      = (write m dst (text ++ (src.take (size - text.length - 1) ++ [nul])),
        text.length + src.length) := by
  unfold strlcat
  rw [stringAt_write m dst size h h_size]
  simp only [if_neg (Nat.ne_of_lt h_size)]
  rw [write_extend _ _ _ _ _ (by simp)]

/-- A size that ends inside the string is taken for a buffer without a NUL. -/
theorem strlcat_of_le (m : Mem) (dst : Nat) {size : Nat} {text : List Char} (src : List Char)
    (h : nul ∉ text) (h_size : size ≤ text.length) :
    strlcat (write m dst (text ++ [nul])) dst src size
      = (write m dst (text ++ [nul]), size + src.length) := by
  have h_len : (text.take size).length = size := by simp; omega
  unfold strlcat
  rw [stringAt_write_full m dst size h h_size, h_len]
  simp only [if_pos]

end CMem
