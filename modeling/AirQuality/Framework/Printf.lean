import Mathlib.Algebra.Ring.Nat
import Mathlib.Data.List.Basic
import AirQuality.Framework.Memory

/-!
# `snprintf` on a machine with a 16-bit `int`

The conversions `%d`, `%u`, `%-u`, `%lu`, `%02x` and `%s`, the arguments they read, and `snprintf`
itself: it stores at most `size - 1` characters of the formatted text and a NUL, and returns the
length of the whole text whether or not it fitted.

Arguments arrive as the default promotions leave them. A `uint8_t` or `uint16_t` is one 16-bit
word, which `%d` reads as a two's complement number and `%u` as an unsigned one; a `uint32_t` is a
double word. A conversion for `int` that is handed a double word reads its low half, which lies
first in memory on a little-endian machine.
-/

namespace Printf

open CMem

/-! ### Numerals -/

/-- The shortest decimal numeral of a natural number. -/
def decimal (n : Nat) : List Char := Nat.toDigits 10 n

/-- The shortest decimal numeral of an integer. -/
def decimalInt : Int → List Char
  | .ofNat n => decimal n
  | .negSucc n => '-' :: decimal (n + 1)

/-- Lower-case hexadecimal, zero-padded to two digits. -/
def hex2 (n : Nat) : List Char :=
  List.replicate (2 - (Nat.toDigits 16 n).length) '0' ++ Nat.toDigits 16 n

theorem decimal_ne_nil (n : Nat) : decimal n ≠ [] := Nat.toDigits_ne_nil

/-- A number below `10 ^ k` has at most `k` digits. -/
theorem length_decimal_le {n k : Nat} (hk : 0 < k) (h : n < 10 ^ k) : (decimal n).length ≤ k :=
  (Nat.length_toDigits_le_iff (by decide) hk).mpr h

/-- An integer of magnitude below `10 ^ k` has at most `k` digits and a sign. -/
theorem length_decimalInt_le {i : Int} {k : Nat} (hk : 0 < k) (h : i.natAbs < 10 ^ k) :
    (decimalInt i).length ≤ k + 1 := by
  cases i with
  | ofNat n => exact Nat.le_succ_of_le (length_decimal_le hk h)
  | negSucc n => exact Nat.succ_le_succ (length_decimal_le hk h)

/-! ### Formatting -/

/-- An argument of a variadic call. -/
inductive Arg where
  | word (x : UInt16)
  | long (x : UInt32)
  | str (s : List Char)
  deriving DecidableEq

/-- The word a conversion for `int` reads from an argument. -/
def Arg.toWord : Arg → UInt16
  | .word x => x
  | .long x => x.toUInt16
  | .str _ => 0

/-- **The formatted text.** A conversion without its argument is undefined in C; here it stands for
itself. -/
def format : List Char → List Arg → List Char
  | '%' :: 'd' :: f, a :: as => decimalInt a.toWord.toInt16.toInt ++ format f as
  | '%' :: 'u' :: f, a :: as => decimal a.toWord.toNat ++ format f as
  | '%' :: '-' :: 'u' :: f, a :: as => decimal a.toWord.toNat ++ format f as
  | '%' :: 'l' :: 'u' :: f, .long x :: as => decimal x.toNat ++ format f as
  | '%' :: '0' :: '2' :: 'x' :: f, a :: as => hex2 a.toWord.toNat ++ format f as
  | '%' :: 's' :: f, .str s :: as => s ++ format f as
  | c :: f, as => c :: format f as
  | [], _ => []

/-- Without arguments the format is the text. -/
theorem format_nil (f : List Char) : format f [] = f := by
  induction f with
  | nil => rfl
  | cons c f ih =>
    conv_lhs => unfold format
    split <;> simp_all

/-- **`snprintf(m + p, size, fmt, ...)`**: the memory afterwards and the value returned. -/
def snprintf (m : Mem) (p size : Nat) (fmt : String) (args : List Arg) : Mem × Nat :=
  let text := format fmt.toList args
  (if size = 0 then m else write m p (text.take (size - 1) ++ [nul]), text.length)

theorem snprintf_fits (m : Mem) (p : Nat) {size : Nat} {fmt : String} {args : List Arg}
    (h : (format fmt.toList args).length < size) :
    snprintf m p size fmt args = (write m p (format fmt.toList args ++ [nul]),
      (format fmt.toList args).length) := by
  have h_take : (format fmt.toList args).take (size - 1) = format fmt.toList args :=
    List.take_of_length_le (by omega)
  refine Prod.ext ?_ rfl
  change (if size = 0 then m else _) = _
  rw [if_neg (by omega), h_take]

@[simp] theorem snprintf_snd (m : Mem) (p size : Nat) (fmt : String) (args : List Arg) :
    (snprintf m p size fmt args).2 = (format fmt.toList args).length := rfl

/-- Fitting or not, only the `size` cells of the destination are written. -/
theorem sameOutside_snprintf (m : Mem) (p size : Nat) (fmt : String) (args : List Arg) :
    SameOutside m (snprintf m p size fmt args).1 p size := by
  unfold snprintf
  by_cases h : size = 0
  · simp only [if_pos h]
    exact SameOutside.refl m p size
  · simp only [if_neg h]
    refine sameOutside_write m p ?_
    simp only [List.length_append, List.length_take, List.length_singleton]
    omega

end Printf
