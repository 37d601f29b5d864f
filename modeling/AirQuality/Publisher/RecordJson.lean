import AirQuality.Framework.JsonReject
import AirQuality.Framework.JsonRender
import AirQuality.Publisher.Record

/-!
# Records as JSON

The reports are sequences of records, and most records have one shape: a comma, and an object with
a name and an array of elements (`IsSection`). Here are the members that such objects are made of,
and what a record is whose elements are written in groups, with commas inside a group and nothing
between two groups: a section as long as at most one group has elements (`isSection_groups`), and
no JSON at all otherwise (`refused_namedText`).
-/

namespace AirQuality

open Printf Json

/-! ### Members -/

/-- A number as `%d` shows it. -/
def wordValue (x : UInt16) : Value := .int x.toInt16.toInt

/-- A member with a number, behind the blanks `pre`. -/
def wordEntry (pre key : List Char) (x : UInt16) (h_pre : Ws pre) (h_key : Plain key) : Entry :=
  ⟨pre, key, wordText x, wordValue x, [], h_pre, h_key, Ws.nil, denotes_decimalInt _⟩

/-- A member with a string, behind the blanks `pre`. -/
def strEntry (pre key s : List Char) (h_pre : Ws pre) (h_key : Plain key) (h_s : Plain s) :
    Entry :=
  ⟨pre, key, '"' :: (s ++ ['"']), .str s, [], h_pre, h_key, Ws.nil, denotes_plain h_s⟩

@[simp] theorem wordEntry_chars {pre key : List Char} {x : UInt16} (h_pre : Ws pre)
    (h_key : Plain key) : (wordEntry pre key x h_pre h_key).chars
      = pre ++ '"' :: (key ++ '"' :: ':' :: wordText x) := by
  simp [Entry.chars, wordEntry]

@[simp] theorem strEntry_chars {pre key s : List Char} (h_pre : Ws pre) (h_key : Plain key)
    (h_s : Plain s) : (strEntry pre key s h_pre h_key h_s).chars
      = pre ++ '"' :: (key ++ '"' :: ':' :: '"' :: (s ++ ['"'])) := by
  simp [Entry.chars, strEntry]

theorem ws_blank : Ws [' '] := Ws.cons rfl Ws.nil

theorem byteText_plain (x : UInt8) : Plain (byteText x) := by
  have h_all : ∀ n < 256, Plain (hex2 n) := by decide +kernel
  exact h_all x.toUInt16.toNat (by have := x.toNat_lt; simpa using this)

theorem isPlain_of_isDigit {c : Char} (h : c.isDigit = true) : isPlain c = true := by
  have h_quote := ne_of_isDigit h (by decide : '"'.isDigit = false)
  have h_slash := ne_of_isDigit h (by decide : '\\'.isDigit = false)
  have h_ge : 48 ≤ c.toNat := by
    have h_le : 48 ≤ c.val := by simp_all [Char.isDigit]
    exact UInt32.le_iff_toNat_le.mp h_le
  have h_lower : 0x20 ≤ c.toNat := by omega
  simp [isPlain, h_quote, h_slash, h_lower]

/-- A numeral needs no escape. -/
theorem wordText_plain (x : UInt16) : Plain (wordText x) := by
  intro c hc
  unfold wordText decimalInt at hc
  split at hc
  · exact isPlain_of_isDigit (Nat.isDigit_of_mem_toDigits (by decide) (by decide) hc)
  · rcases List.mem_cons.mp hc with rfl | hc
    · rfl
    · exact isPlain_of_isDigit (Nat.isDigit_of_mem_toDigits (by decide) (by decide) hc)

/-! ### Named strings -/

/-- An object with a name and the string `s` under `"vs"`, as the records of both the gateway and
the boot report have it. -/
def stringText (name s : List Char) : List Char :=
  "\x7b\"n\": \"".toList ++ (name ++ ("\",\"vs\":\"".toList ++ (s ++ "\"\x7d".toList)))

/-- What it denotes. -/
def stringValue (name s : List Char) : Value :=
  .obj [("n".toList, .str name), ("vs".toList, .str s)]

theorem stringText_denotes {name s : List Char} (h_name : Plain name) (h_s : Plain s) :
    Denotes (stringText name s) (stringValue name s) := by
  -- the source has a blank behind the first colon
  let n : Member := ⟨[], ['n'], ['n'], [], ⟨[' '], '"' :: (name ++ ['"']), [], .str name, ws_blank,
    Ws.nil⟩, Ws.nil, Ws.nil, strBody_plain (by decide)⟩
  let vs : Member := ⟨[], ['v', 's'], ['v', 's'], [], ⟨[], '"' :: (s ++ ['"']), [], .str s, Ws.nil,
    Ws.nil⟩, Ws.nil, Ws.nil, strBody_plain (by decide)⟩
  have h_obj := Denotes.obj (List.cons_ne_nil n [vs])
    (List.forall_mem_cons.mpr ⟨denotes_plain h_name, List.forall_mem_cons.mpr
      ⟨denotes_plain h_s, fun _ h => absurd h List.not_mem_nil⟩⟩)
  have h_text : stringText name s
      = '\x7b' :: (joinComma ([n, vs].map fun m => m.padded.chars) ++ ['\x7d']) := by
    conv_rhs => simp only [joinComma, n, vs, List.map_cons, List.map_nil, Padded.chars,
      Member.padded, Member.text, List.nil_append, List.append_nil, List.append_assoc,
      List.cons_append]
    rfl
  rw [h_text]
  exact h_obj

/-! ### Sections -/

/-- The text is a comma and an object with the name `name` and the array `vs` under `"vj"`. -/
def IsSection (record name : List Char) (vs : List Value) : Prop :=
  ∃ t, record = ',' :: t ∧
    Denotes t (.obj [("n".toList, .str name), ("vj".toList, .arr vs)])

/-- What a section denotes. -/
def sectionValue (name : List Char) (vs : List Value) : Value :=
  .obj [("n".toList, .str name), ("vj".toList, .arr vs)]

theorem IsSection.elements {record name : List Char} {vs : List Value}
    (h : IsSection record name vs) : Elements record [sectionValue name vs] := by
  obtain ⟨t, rfl, h_t⟩ := h
  exact Elements.single h_t

/-- The text of a record with the name `name` and the elements `body`. -/
def namedText (name body : List Char) : List Char :=
  ',' :: '\x7b' :: '"' :: 'n' :: '"' :: ':' :: '"' :: (name ++
    '"' :: ',' :: '"' :: 'v' :: 'j' :: '"' :: ':' :: '[' :: (body ++ [']', '\x7d']))

/-- A record whose body is the inside of an array is a section. -/
theorem isSection_of_arr {name body : List Char} {vs : List Value}
    (h : Denotes ('[' :: (body ++ [']'])) (.arr vs)) (h_name : Plain name) :
    IsSection (namedText name body) name vs := by
  let es : List Entry := [strEntry [] ['n'] name Ws.nil (by decide) h_name,
    ⟨[], ['v', 'j'], '[' :: (body ++ [']']), .arr vs, [], Ws.nil, by decide, Ws.nil, h⟩]
  refine ⟨'\x7b' :: (joinComma (es.map Entry.chars) ++ ['\x7d']), ?_, denotes_obj (by simp [es])⟩
  simp [es, namedText, Entry.chars, strEntry, joinComma]

section

variable {ι : Type} (text : ι → List Char) (value : ι → Value) {name : List Char}
  {gs : List (List ι)}

/-- A record in groups is a section as long as at most one group has elements. -/
theorem isSection_groups (h_denotes : ∀ i, Denotes (text i) (value i))
    (h_name : Plain name) (h : nonemptyGroups gs ≤ 1) :
    IsSection (namedText name (groupsText text gs)) name (gs.flatten.map value) :=
  isSection_of_arr (denotes_groups h_denotes h) h_name

/-- A record in groups of objects cannot be read once two groups have elements. -/
theorem refused_namedText (h_denotes : ∀ i, Denotes (text i) (value i))
    (h_object : ∀ i, ∃ u, text i = '\x7b' :: u) (h_name : Plain name)
    (h : 1 < nonemptyGroups gs) : ∃ t u, Refused ('\x7b' :: t) ∧
      namedText name (groupsText text gs) = ',' :: '\x7b' :: (t ++ u) := by
  obtain ⟨u, v, h_refused, h_groups⟩ := refused_groups h_denotes h_object h
  let e : Entry := strEntry [] ['n'] name Ws.nil (by decide) h_name
  have h_obj := refused_obj [e.member] (by simp)
    (fun m hm => by rw [List.mem_singleton.mp hm]; exact e.denotes)
    (strBody_plain (s := ['v', 'j']) (by decide)) h_refused (NoWs.cons (by decide)) (by simp)
  -- the record starts with the refused text
  refine ⟨_, v ++ [']', '\x7d'], h_obj, ?_⟩
  rw [h_groups]
  simp [namedText, joinComma, Entry.member_chars, e, Entry.chars, strEntry]

end

end AirQuality
