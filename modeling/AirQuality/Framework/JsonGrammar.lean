import Mathlib.Data.List.Basic
import Mathlib.Tactic.Simps.Basic

/-!
# The JSON grammar

JSON values and the texts that denote them, after the grammar of the standard: a text is a value
between whitespace, an array is a comma-separated sequence of values in brackets, an object a
comma-separated sequence of `key : value` members in braces.

The grammar is concatenative. `Denotes t v` says that the characters `t`, all of them, denote the
value `v`; an array is built from a list of `Padded` values, each carrying its own text, value and
surrounding whitespace, so that the comma-separated body is literally a `joinComma` of the parts
and induction over a derivation hands back the parts of an array in one go.

Numbers without fraction and exponent denote integers. The others are kept as their lexeme: what
floating-point number a reader makes of it is not the grammar's business.
-/

namespace Json

/-- A JSON value. Object members stay in text order, duplicates included. -/
inductive Value where
  | null
  | bool (b : Bool)
  | int (n : Int)
  | float (lexeme : List Char)
  | str (s : List Char)
  | arr (vs : List Value)
  | obj (kvs : List (List Char × Value))

/-! ### Whitespace and digits -/

/-- The four whitespace characters of the grammar. -/
def isWs (c : Char) : Bool :=
  c = ' ' || c = '\t' || c = '\n' || c = '\r'

/-- A run of whitespace, possibly empty. -/
def Ws (w : List Char) : Prop := ∀ c ∈ w, isWs c = true

/-- A nonempty run of decimal digits. -/
structure Digits (ds : List Char) : Prop where
  ne_nil : ds ≠ []
  all : ∀ c ∈ ds, c.isDigit = true

theorem Ws.nil : Ws [] := fun _ h => absurd h (by simp)

theorem Ws.cons {c : Char} {w : List Char} (hc : isWs c = true) (hw : Ws w) : Ws (c :: w) :=
  fun _ h => (List.mem_cons.mp h).elim (fun he => he ▸ hc) (fun ht => hw _ ht)

/-! ### Numbers -/

/-- The integer part of a number: a run of digits with no leading zero. -/
structure IntPart (ds : List Char) : Prop extends Digits ds where
  noLeadingZero : ds.head? = some '0' → ds = ['0']

/-- The optional fraction. -/
inductive Frac : List Char → Prop
  | absent : Frac []
  | present {ds : List Char} (h : Digits ds) : Frac ('.' :: ds)

/-- The optional sign of an exponent. -/
inductive ExpSign : List Char → Prop
  | absent : ExpSign []
  | plus : ExpSign ['+']
  | minus : ExpSign ['-']

/-- The optional exponent. -/
inductive Exponent : List Char → Prop
  | absent : Exponent []
  | present {e : Char} {sg ds : List Char} (he : e = 'e' ∨ e = 'E') (hs : ExpSign sg)
      (h : Digits ds) : Exponent (e :: (sg ++ ds))

/-- The sign of a number as it is written. -/
def signText (neg : Bool) : List Char := if neg then ['-'] else []

/-- The integer an integer literal denotes. -/
def signedVal (neg : Bool) (ds : List Char) : Int :=
  if neg then -(Nat.ofDigitChars 10 ds 0 : Int) else (Nat.ofDigitChars 10 ds 0 : Int)

/-- The value of a number literal with the given parts. -/
def numberVal (neg : Bool) (ds fs es : List Char) : Value :=
  if fs = [] ∧ es = [] then .int (signedVal neg ds)
  else .float (signText neg ++ ds ++ fs ++ es)

/-! ### Strings -/

/-- A character that stands for itself inside a string. -/
def isPlain (c : Char) : Bool := c ≠ '"' && c ≠ '\\' && 0x20 ≤ c.toNat

/-- A text of characters that stand for themselves. -/
def Plain (s : List Char) : Prop := ∀ c ∈ s, isPlain c = true

instance : DecidablePred Plain := fun s =>
  decidable_of_iff (s.all isPlain = true) List.all_eq_true

/-- The two-character escapes. -/
def escape (c : Char) : Option Char :=
  match c with
  | '"' => some '"'
  | '\\' => some '\\'
  | '/' => some '/'
  | 'b' => some '\x08'
  | 'f' => some '\x0c'
  | 'n' => some '\n'
  | 'r' => some '\r'
  | 't' => some '\t'
  | _ => none

/-- The value of a hexadecimal digit. -/
def hexVal (c : Char) : Option Nat :=
  if '0' ≤ c ∧ c ≤ '9' then some (c.toNat - '0'.toNat)
  else if 'a' ≤ c ∧ c ≤ 'f' then some (c.toNat - 'a'.toNat + 10)
  else if 'A' ≤ c ∧ c ≤ 'F' then some (c.toNat - 'A'.toNat + 10)
  else none

/-- The code unit of four hexadecimal digits. -/
def hex4 (a b c d : Char) : Option Nat := do
  let w ← hexVal a
  let x ← hexVal b
  let y ← hexVal c
  let z ← hexVal d
  return ((w * 16 + x) * 16 + y) * 16 + z

/-- A high surrogate, the first half of a pair. -/
def isHighSurrogate (u : Nat) : Bool := 0xD800 ≤ u && u ≤ 0xDBFF

/-- A low surrogate, the second half of a pair. -/
def isLowSurrogate (u : Nat) : Bool := 0xDC00 ≤ u && u ≤ 0xDFFF

/-- The code point a surrogate pair denotes. -/
def pairVal (hi lo : Nat) : Nat := 0x10000 + (hi - 0xD800) * 0x400 + (lo - 0xDC00)

/-- The character of a code point; `none` for half of a surrogate pair. -/
def unicodeChar (u : Nat) : Option Char :=
  if h : u.isValidChar then some (Char.ofNatAux u h) else none

/-- One item of a string body and the character it denotes. -/
inductive StrItem : List Char → Char → Prop
  | plain {c : Char} (h : isPlain c = true) : StrItem [c] c
  | escaped {e c : Char} (h : escape e = some c) : StrItem ['\\', e] c
  | unicode {a b c d x : Char} {u : Nat} (hu : hex4 a b c d = some u)
      (hn : isHighSurrogate u = false) (hx : unicodeChar u = some x) :
      StrItem ['\\', 'u', a, b, c, d] x
  | pair {a b c d a' b' c' d' x : Char} {hi lo : Nat} (hu : hex4 a b c d = some hi)
      (hl : hex4 a' b' c' d' = some lo) (hhi : isHighSurrogate hi = true)
      (hlo : isLowSurrogate lo = true) (hx : unicodeChar (pairVal hi lo) = some x) :
      StrItem ['\\', 'u', a, b, c, d, '\\', 'u', a', b', c', d'] x

/-- The body of a string, between the quotes. -/
inductive StrBody : List Char → List Char → Prop
  | nil : StrBody [] []
  | cons {t body s : List Char} {c : Char} (h : StrItem t c) (hb : StrBody body s) :
      StrBody (t ++ body) (c :: s)

/-! ### Values -/

/-- A comma-separated sequence of texts. -/
def joinComma : List (List Char) → List Char
  | [] => []
  | [t] => t
  | t :: u :: ts => t ++ ',' :: joinComma (u :: ts)

/-- Texts with a comma in front of each. -/
def commaTexts (ts : List (List Char)) : List Char := ts.flatMap fun t => ',' :: t

theorem joinComma_cons_eq (t : List Char) (ts : List (List Char)) :
    joinComma (t :: ts) = t ++ commaTexts ts := by
  induction ts generalizing t with
  | nil => simp [joinComma, commaTexts]
  | cons u us ih =>
    rw [joinComma, ih]
    rfl

/-- A value of type `α` with its text, between whitespace. -/
structure Padded (α : Type) where
  /-- Whitespace before the value. -/
  pre : List Char
  /-- The characters of the value. -/
  text : List Char
  /-- Whitespace after the value. -/
  post : List Char
  /-- The value denoted. -/
  value : α
  pre_ws : Ws pre
  post_ws : Ws post

/-- The characters of a padded value, whitespace included. -/
def Padded.chars {α : Type} (e : Padded α) : List Char := e.pre ++ (e.text ++ e.post)

/-- One element of an array. -/
abbrev Element := Padded Value

/-- A value without whitespace around it. -/
@[simps] def Padded.bare {α : Type} (text : List Char) (value : α) : Padded α :=
  ⟨[], text, [], value, Ws.nil, Ws.nil⟩

/-- One member of an object: a quoted key and a colon in front of an element. -/
structure Member where
  /-- Whitespace before the key. -/
  pre : List Char
  /-- The key as it is written between the quotes. -/
  body : List Char
  /-- The key. -/
  key : List Char
  /-- Whitespace between the key and the colon. -/
  mid : List Char
  /-- The value behind the colon. -/
  elem : Element
  pre_ws : Ws pre
  mid_ws : Ws mid
  key_body : StrBody body key

/-- The characters of a member between its outer whitespace. -/
def Member.text (m : Member) : List Char :=
  '"' :: (m.body ++ '"' :: (m.mid ++ ':' :: (m.elem.pre ++ m.elem.text)))

/-- A member as a padded pair of key and value. -/
@[simps] def Member.padded (m : Member) : Padded (List Char × Value) :=
  ⟨m.pre, m.text, m.elem.post, (m.key, m.elem.value), m.pre_ws, m.elem.post_ws⟩

/-- **The grammar of values**: the characters `t` denote the value `v`. -/
inductive Denotes : List Char → Value → Prop
  | null : Denotes ['n', 'u', 'l', 'l'] .null
  | true : Denotes ['t', 'r', 'u', 'e'] (.bool Bool.true)
  | false : Denotes ['f', 'a', 'l', 's', 'e'] (.bool Bool.false)
  | number {ds fs es : List Char} (neg : Bool) (hi : IntPart ds) (hf : Frac fs)
      (he : Exponent es) :
      Denotes (signText neg ++ ds ++ fs ++ es) (numberVal neg ds fs es)
  | str {body s : List Char} (h : StrBody body s) : Denotes ('"' :: (body ++ ['"'])) (.str s)
  | arrEmpty {w : List Char} (hw : Ws w) : Denotes ('[' :: (w ++ [']'])) (.arr [])
  | arr {es : List Element} (hne : es ≠ []) (h : ∀ e ∈ es, Denotes e.text e.value) :
      Denotes ('[' :: (joinComma (es.map Padded.chars) ++ [']'])) (.arr (es.map Padded.value))
  | objEmpty {w : List Char} (hw : Ws w) : Denotes ('\x7b' :: (w ++ ['\x7d'])) (.obj [])
  | obj {ms : List Member} (hne : ms ≠ []) (h : ∀ m ∈ ms, Denotes m.elem.text m.elem.value) :
      Denotes ('\x7b' :: (joinComma (ms.map fun m => m.padded.chars) ++ ['\x7d']))
        (.obj (ms.map fun m => m.padded.value))

/-- **A JSON text**: a value between whitespace. -/
def Text (t : List Char) (v : Value) : Prop :=
  ∃ w₁ u w₂, Ws w₁ ∧ Ws w₂ ∧ Denotes u v ∧ t = w₁ ++ u ++ w₂

/-- A text is well formed when it denotes some value. -/
def WellFormed (t : List Char) : Prop := ∃ v, Text t v

theorem Denotes.text {t : List Char} {v : Value} (h : Denotes t v) : Text t v :=
  ⟨[], t, [], Ws.nil, Ws.nil, h, by simp⟩

end Json
