import AirQuality.Framework.JsonGrammar

/-!
# `json.loads`

An executable reader for JSON texts. A reader takes a value off the front of a text and hands back
what it left (`Reader`). Arrays and objects share one loop, `items`, over the reader of their
elements. Nesting is bounded by a fuel that `loads` takes from the length of the text; that this is
always enough is part of `loads_iff` (`JsonSound.lean`).
-/

namespace Json

/-- A reader takes a value off the front of a text. -/
abbrev Reader (α : Type) := List Char → Option (α × List Char)

/-! ### The reader -/

/-- Drop the whitespace in front. -/
def skipWs (cs : List Char) : List Char := cs.dropWhile isWs

/-- Split off the leading digits. -/
def spanDigits (cs : List Char) : List Char × List Char :=
  (cs.takeWhile Char.isDigit, cs.dropWhile Char.isDigit)

/-- The optional minus sign. -/
def readSign : List Char → Bool × List Char
  | '-' :: r => (true, r)
  | cs => (false, cs)

/-- The integer part: a lone zero, or digits that do not start with one. -/
def readInt : Reader (List Char)
  | [] => none
  | c :: r =>
    if c = '0' then some (['0'], r)
    else if c.isDigit then some (spanDigits (c :: r))
    else none

/-- The optional fraction. -/
def readFrac : List Char → List Char × List Char
  | '.' :: r =>
    match spanDigits r with
    | ([], _) => ([], '.' :: r)
    | (ds, r') => ('.' :: ds, r')
  | cs => ([], cs)

/-- The optional sign of an exponent. -/
def readExpSign : List Char → List Char × List Char
  | '+' :: r => (['+'], r)
  | '-' :: r => (['-'], r)
  | cs => ([], cs)

/-- The optional exponent. -/
def readExp : List Char → List Char × List Char
  | [] => ([], [])
  | c :: r =>
    if c = 'e' ∨ c = 'E' then
      match spanDigits (readExpSign r).2 with
      | ([], _) => ([], c :: r)
      | (ds, r') => (c :: ((readExpSign r).1 ++ ds), r')
    else ([], c :: r)

/-- A number. -/
def readNumber : Reader Value := fun cs => do
  let (ds, r) ← readInt (readSign cs).2
  let (fs, r) := readFrac r
  let (es, r) := readExp r
  return (numberVal (readSign cs).1 ds fs es, r)

/-- The four digits of a `\uXXXX` escape. -/
def readHex4 : Reader Nat
  | a :: b :: c :: d :: r => (hex4 a b c d).map (·, r)
  | _ => none

/-- The low half of a surrogate pair, with its own escape. -/
def readLow : Reader Nat
  | '\\' :: 'u' :: r => (readHex4 r).filter fun p => isLowSurrogate p.1
  | _ => none

/-- The low half of a pair, combined with the high half by `f`. -/
def readPair (f : Nat → Option Char) : Reader Char := fun cs => do
  let (lo, r) ← readLow cs
  return (← f lo, r)

/-- The character of a `\u` escape, behind the `\u`. -/
def readUnicode : Reader Char := fun cs => do
  let (u, r) ← readHex4 cs
  if isHighSurrogate u then readPair (fun lo => unicodeChar (pairVal u lo)) r
  else return (← unicodeChar u, r)

/-- One item of a string body. -/
def readItem : Reader Char
  | [] => none
  | '\\' :: 'u' :: r => readUnicode r
  | '\\' :: e :: r => (escape e).map (·, r)
  | c :: r => if isPlain c then some (c, r) else none

/-- A string body up to its closing quote. -/
def readBody : Nat → Reader (List Char)
  | 0, _ => none
  | _ + 1, [] => none
  | n + 1, c :: r =>
    if c = '"' then some ([], r)
    else do
      let (x, r) ← readItem (c :: r)
      let (s, r) ← readBody n r
      return (x :: s, r)

/-- A string, quotes included. -/
def readString : Reader (List Char)
  | '"' :: r => readBody (r.length + 1) r
  | _ => none

/-- A comma-separated sequence of items, up to and including `close`. -/
def items {α : Type} (p : Reader α) (close : Char) : Nat → Reader (List α)
  | 0, _ => none
  | n + 1, cs => do
    let (a, r) ← p (skipWs cs)
    match skipWs r with
    | [] => none
    | c :: r =>
      if c = close then some ([a], r)
      else if c = ',' then do
        let (as, r) ← items p close n r
        return (a :: as, r)
      else none

/-- A possibly empty sequence of items, behind its opening bracket. -/
def bracketed {α : Type} (p : Reader α) (close : Char) : Reader (List α) := fun cs =>
  match skipWs cs with
  | [] => none
  | c :: r => if c = close then some ([], r) else items p close (cs.length + 1) cs

/-- A member of an object: a key, a colon, a value. -/
def readMember (p : Reader Value) : Reader (List Char × Value) := fun cs => do
  let (k, r) ← readString cs
  match skipWs r with
  | ':' :: r => do
    let (v, r) ← p (skipWs r)
    return ((k, v), r)
  | _ => none

/-- A literal name. -/
def readLit (name : List Char) (v : Value) : Reader Value := fun cs =>
  if name <+: cs then some (v, cs.drop name.length) else none

/-- A value, nested at most `fuel` deep. -/
def readValue : Nat → Reader Value
  | 0, _ => none
  | _ + 1, [] => none
  | n + 1, c :: r =>
    if c = '"' then (readString (c :: r)).map fun p => (.str p.1, p.2)
    else if c = '[' then (bracketed (readValue n) ']' r).map fun p => (.arr p.1, p.2)
    else if c = '\x7b' then
      (bracketed (readMember (readValue n)) '\x7d' r).map fun p => (.obj p.1, p.2)
    else if c = 'n' then readLit "null".toList .null (c :: r)
    else if c = 't' then readLit "true".toList (.bool true) (c :: r)
    else if c = 'f' then readLit "false".toList (.bool false) (c :: r)
    else readNumber (c :: r)

/-- **`json.loads`**: the value of a whole text, `none` where Python raises `JSONDecodeError`. -/
def loads (cs : List Char) : Option Value := do
  let (v, r) ← readValue (cs.length + 1) (skipWs cs)
  if skipWs r = [] then return v else none

end Json
