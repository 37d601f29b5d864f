import AirQuality.Publisher.Topic

/-!
# What the node id identifies

The EUI-64 of the board, in hexadecimal, is part of the topic of the node and of the id under which
it connects to the gateway.

In the topic it has a fixed width, so nodes with different identifiers publish to different topics,
and the identifier can be read off the topic (`initTopic_identifies`). The client id is a prefix
and the last four digits. `client_id` reads them from a local buffer that `get_nodeid` leaves alone
when the EUI-64 cannot be read, and the id is then made of what was on the stack
(`idDetermined_iff`). When it can, the id says no more than the last two bytes, so nodes with
different topics may come under one client id (`clientId_collides_iff`).
-/

namespace AirQuality

open CMem Printf

/-! ### Hexadecimal -/

/-- The hexadecimal digits, in lower case. -/
def hexDigits : List Char := "0123456789abcdef".toList

def hexDigit (n : ℕ) : Char := (hexDigits[n]?).getD '0'

/-- Two digits for each byte. -/
def hexText (e : Eui64) : List Char :=
  e.toList.flatMap fun b => [hexDigit (b.toNat / 16), hexDigit (b.toNat % 16)]

/-- The bytes of a text in hexadecimal. -/
def unhex : List Char → List UInt8
  | hi :: lo :: cs => UInt8.ofNat (16 * hexDigits.idxOf hi + hexDigits.idxOf lo) :: unhex cs
  | _ => []

theorem byteText_eq (b : UInt8) :
    byteText b = [hexDigit (b.toNat / 16), hexDigit (b.toNat % 16)] := by
  have h_all : ∀ n < 256, hex2 n = [hexDigit (n / 16), hexDigit (n % 16)] := by decide +kernel
  show hex2 b.toUInt16.toNat = _
  rw [UInt8.toNat_toUInt16]
  exact h_all b.toNat b.toNat_lt

theorem nodeText_eq (e : Eui64) : nodeText (some e) = hexText e := by
  show e.toList.flatMap byteText = _
  rw [funext byteText_eq]
  rfl

theorem length_hexText (e : Eui64) : (hexText e).length = 16 := by
  rw [← nodeText_eq, length_nodeText]

theorem hexDigit_mem {n : ℕ} (h : n < 16) : hexDigit n ∈ hexDigits := by
  have h_all : ∀ n < 16, hexDigit n ∈ hexDigits := by decide
  exact h_all n h

theorem hexText_digits (e : Eui64) : ∀ c ∈ hexText e, c ∈ hexDigits := by
  intro c hc
  obtain ⟨b, -, h_mem⟩ := List.mem_flatMap.mp hc
  have h_lt := b.toNat_lt
  rcases List.mem_pair.mp h_mem with rfl | rfl
  · exact hexDigit_mem (by omega)
  · exact hexDigit_mem (by omega)

/-- **Reading the digits back.** -/
theorem unhex_flatMap (bs : List UInt8) :
    unhex (bs.flatMap fun b => [hexDigit (b.toNat / 16), hexDigit (b.toNat % 16)]) = bs := by
  have h_digit : ∀ n < 16, hexDigits.idxOf (hexDigit n) = n := by decide
  induction bs with
  | nil => rfl
  | cons b bs ih =>
    have h_lt := b.toNat_lt
    rw [List.flatMap_cons]
    show UInt8.ofNat (16 * hexDigits.idxOf (hexDigit (b.toNat / 16))
      + hexDigits.idxOf (hexDigit (b.toNat % 16))) :: unhex (bs.flatMap _) = b :: bs
    rw [h_digit _ (by omega), h_digit _ (by omega), Nat.div_add_mod, UInt8.ofNat_toNat, ih]

/-! ### Topics -/

/-- The identifier in a topic: its last sixteen characters before the eight of `"/sensors"`. -/
def topicEui (topic : List Char) : Option Eui64 :=
  let bs := unhex ((topic.take (topic.length - 8)).drop (topic.length - 8 - 16))
  if h : bs.length = 8 then some ⟨bs.toArray, h⟩ else none

theorem topicEui_topicText (base : CString) (e : Eui64) :
    topicEui (topicText base (some e)) = some e := by
  have h_topic : topicText base (some e) = base.val ++ ['/'] ++ hexText e ++ "/sensors".toList := by
    rw [topicText, stemText, nodeText_eq, List.append_cons]
  have h_suffix : "/sensors".toList.length = 8 := rfl
  have h_hex := length_hexText e
  -- counted from the end: first the suffix, then the digits
  have h_digits : ((topicText base (some e)).take ((topicText base (some e)).length - 8)).drop
      ((topicText base (some e)).length - 8 - 16) = hexText e := by
    calc ((topicText base (some e)).take ((topicText base (some e)).length - 8)).drop
          ((topicText base (some e)).length - 8 - 16)
        = (base.val ++ ['/'] ++ hexText e).drop ((base.val ++ ['/'] ++ hexText e).length - 16) := by
          rw [h_topic, List.length_append, h_suffix, Nat.add_sub_cancel, List.take_left' rfl]
      _ = hexText e := by
          rw [List.length_append, h_hex, Nat.add_sub_cancel, List.drop_left' rfl]
  have h_bytes : unhex (hexText e) = e.toList := unhex_flatMap e.toList
  unfold topicEui
  simp only [h_digits, h_bytes, Vector.length_toList, dite_true]
  rfl

/-- `_init_topic` leaves the whole topic if the base has room for the rest of it. -/
theorem stringAt_initTopic {base : CString} (h_base : base.val.length ≤ 38) (e : Eui64)
    (topicstr : ℕ) (m : Mem) : stringAt (initTopic base (some e) topicstr m).mem topicstr
      mqpubTopicLength = topicText base (some e) := by
  have h_stem : (stemText base (some e)).length = base.val.length + 1 + 16 := by
    rw [length_stemText, length_nodeText]
  have h_size : mqpubTopicLength = 64 := rfl
  have h_topic : (topicText base (some e)).length < mqpubTopicLength := by
    rw [length_topicText]
    omega
  rw [(initTopic_stored base (some e) topicstr m (by omega)).1, stored_of_lt h_topic]
  exact stringAt_write m topicstr _ (nul_not_mem_topicText base (some e)) h_topic

/-- **The topic identifies the node.** For a base of at most 38 characters, `_init_topic` leaves in
`topicstr` the base, a slash, sixteen hexadecimal digits and `"/sensors"`, whatever was there
before. The EUI-64 can be read off it, so nodes with the same topic have the same EUI-64. -/
theorem initTopic_identifies (base : CString) (h_base : base.val.length ≤ 38) :
    (∀ e topicstr m,
      stringAt (initTopic base (some e) topicstr m).mem topicstr mqpubTopicLength
          = base.val ++ "/".toList ++ hexText e ++ "/sensors".toList ∧
        (hexText e).length = 16 ∧ (∀ c ∈ hexText e, c ∈ "0123456789abcdef".toList) ∧
        topicEui (stringAt (initTopic base (some e) topicstr m).mem topicstr mqpubTopicLength)
          = some e) ∧
      ∀ e₁ e₂ topicstr₁ topicstr₂ m₁ m₂,
        stringAt (initTopic base (some e₁) topicstr₁ m₁).mem topicstr₁ mqpubTopicLength
          = stringAt (initTopic base (some e₂) topicstr₂ m₂).mem topicstr₂ mqpubTopicLength →
        e₁ = e₂ := by
  constructor
  · intro e topicstr m
    rw [stringAt_initTopic h_base]
    refine ⟨?_, length_hexText e, hexText_digits e, topicEui_topicText base e⟩
    rw [topicText, stemText, nodeText_eq, List.append_cons]
    rfl
  · intro e₁ e₂ topicstr₁ topicstr₂ m₁ m₂ h_same
    rw [stringAt_initTopic h_base, stringAt_initTopic h_base] at h_same
    -- both identifiers are read off the same topic
    have h_eui := topicEui_topicText base e₁
    rw [h_same, topicEui_topicText] at h_eui
    exact (Option.some.inj h_eui).symm

/-- The topic of a node with the base of the source. -/
theorem initTopic_identifies_avr :
    let base : CString := ⟨"KTH/avr-rss2".toList, by decide⟩
    let e : Eui64 := #v[0xfc, 0xc2, 0x3d, 0, 0, 0x01, 0x7f, 0x97]
    base.val.length ≤ 38 ∧
      stringAt (initTopic base (some e) 0 fun _ => nul).mem 0 mqpubTopicLength
        = "KTH/avr-rss2/fcc23d0000017f97/sensors".toList := by
  intro base e
  have h_base : base.val.length ≤ 38 := by decide
  refine ⟨h_base, ?_⟩
  rw [((initTopic_identifies base h_base).1 e 0 _).1]
  decide +kernel

/-! ### Client ids -/

/-- `sizeof(eui64_t)*2+1`, the size of `nid`, and the size of `cli_id`. -/
def nidSize : ℕ := 17
def cliIdSize : ℕ := 24

/-- **`client_id`**: the memory and the value returned, or nothing if the assertion fails.

`nid` is the address of the local buffer, `ramEnd` the end of the memory, where a string without a
NUL ends. Assertions are compiled in unless `NDEBUG` is defined. -/
def clientId (assertOn : Bool) (ramEnd : ℕ) (eui : Option Eui64) (nid id idlen : ℕ)
    (pfx : Option CString) (m : Mem) : Option (Mem × ℕ) :=
  -- the value of `get_nodeid` is not looked at
  let m := (getNodeid eui nid nidSize ⟨m, []⟩).1.mem
  if assertOn = true ∧ ¬ 12 < (stringAt m nid (ramEnd - nid)).length then none
  else
    let tail := stringAt m (nid + 12) (ramEnd - (nid + 12))
    some (snprintf m id idlen "%s%s" [.str (pfx.elim [] (·.val)), .str tail])

/-- `client_id` produces the NUL-terminated string `text`. -/
def ProducesId (assertOn : Bool) (ramEnd : ℕ) (eui : Option Eui64) (nid id idlen : ℕ)
    (pfx : Option CString) (m : Mem) (text : List Char) : Prop :=
  ∃ r, clientId assertOn ramEnd eui nid id idlen pfx m = some r ∧
    (∃ i < idlen, r.1 (id + i) = nul) ∧ stringAt r.1 id idlen = text

/-- **The id does not depend on what the local buffer held**: for any two contents of it, the same
id is produced. -/
def IdDetermined (assertOn : Bool) (ramEnd : ℕ) (eui : Option Eui64) (nid id idlen : ℕ)
    (pfx : Option CString) : Prop :=
  ∀ m m', SameOutside m m' nid nidSize → ∃ text,
    ProducesId assertOn ramEnd eui nid id idlen pfx m text ∧
      ProducesId assertOn ramEnd eui nid id idlen pfx m' text

section

variable {assertOn : Bool} {ramEnd : ℕ} {eui : Option Eui64} {nid id idlen : ℕ}
  {pfx : Option CString} {m : Mem}

/-- The prefix, and what `client_id` finds behind the first twelve characters of `nid`. -/
def clientIdText (pfx : Option CString) (ramEnd nid : ℕ) (m : Mem) : List Char :=
  pfx.elim [] (·.val) ++ stringAt m (nid + 12) (ramEnd - (nid + 12))

theorem nul_not_mem_clientIdText : nul ∉ clientIdText pfx ramEnd nid m := by
  rw [clientIdText, List.mem_append, not_or]
  refine ⟨?_, nul_not_mem_stringAt _ _ _⟩
  cases pfx with
  | none => simp
  | some p => exact p.property

theorem format_id (a b : List Char) : format "%s%s".toList [.str a, .str b] = a ++ b := by
  show a ++ (b ++ []) = a ++ b
  rw [List.append_nil]

/-- The memory in which `client_id` looks at `nid`. -/
def afterNodeid (eui : Option Eui64) (nid : ℕ) (m : Mem) : Mem :=
  (getNodeid eui nid nidSize ⟨m, []⟩).1.mem

/-- The id produced, if the assertion holds. -/
theorem producesId_iff (h_idlen : 0 < idlen) (text : List Char) :
    ProducesId assertOn ramEnd eui nid id idlen pfx m text ↔
      (assertOn = true → 12 < (stringAt (afterNodeid eui nid m) nid (ramEnd - nid)).length) ∧
        (clientIdText pfx ramEnd nid (afterNodeid eui nid m)).take (idlen - 1) = text := by
  have h_call : clientId assertOn ramEnd eui nid id idlen pfx m
      = if assertOn = true ∧ ¬ 12 < (stringAt (afterNodeid eui nid m) nid (ramEnd - nid)).length
        then none
        else some (snprintf (afterNodeid eui nid m) id idlen "%s%s" [.str (pfx.elim [] (·.val)),
          .str (stringAt (afterNodeid eui nid m) (nid + 12) (ramEnd - (nid + 12)))]) := rfl
  unfold ProducesId
  rw [h_call]
  by_cases h_assert : assertOn = true →
      12 < (stringAt (afterNodeid eui nid m) nid (ramEnd - nid)).length
  · -- the assertion holds, or is not compiled in
    rw [if_neg fun h => h.2 (h_assert h.1)]
    have h_text : clientIdText pfx ramEnd nid (afterNodeid eui nid m) = format "%s%s".toList
        [.str (pfx.elim [] (·.val)),
          .str (stringAt (afterNodeid eui nid m) (nid + 12) (ramEnd - (nid + 12)))] :=
      (format_id _ _).symm
    have h_nul : nul ∉ clientIdText pfx ramEnd nid (afterNodeid eui nid m) :=
      nul_not_mem_clientIdText
    rw [h_text] at h_nul ⊢
    obtain ⟨h_string, h_end⟩ := stringAt_snprintf (afterNodeid eui nid m) id "%s%s" _ h_idlen h_nul
    constructor
    · rintro ⟨r, h_some, -, rfl⟩
      obtain rfl := Option.some.inj h_some
      exact ⟨h_assert, h_string.symm⟩
    · rintro ⟨-, rfl⟩
      exact ⟨_, rfl, h_end, h_string⟩
  · -- the assertion fails, and there is no id
    rw [if_pos (Classical.not_imp.mp h_assert)]
    exact iff_of_false (by simp) fun h => h_assert h.1

/-- With an EUI-64, the buffer holds its digits. -/
theorem afterNodeid_some (e : Eui64) (nid : ℕ) (m : Mem) :
    afterNodeid (some e) nid m = write m nid (hexText e ++ [nul]) := by
  obtain ⟨b, bs, h_bytes⟩ : ∃ b bs, e.toList = b :: bs :=
    List.exists_cons_of_length_pos (by rw [Vector.length_toList]; decide)
  have h_len : bs.length = 7 := by
    have h : e.toList.length = 8 := Vector.length_toList
    rw [h_bytes, List.length_cons] at h
    omega
  have h_two := length_byteText b
  have h_size : 0 < nidSize := by decide
  -- the first `snprintf` finds an uninitialised buffer, and leaves it NUL-terminated
  have h_first : (snprintfAt nid nidSize 0 "%02x" [.word b.toUInt16] ⟨m, []⟩).1.mem
      = write m nid (stored nidSize (byteText b)) := by
    rw [← format_byte b]
    exact snprintf_stored m nid "%02x" [.word b.toUInt16] h_size
  have h_room : (byteText b).length + 2 * bs.length ≤ nidSize := by
    rw [h_two, h_len]
    decide
  have h_loop := nodeidLoop_stored (k := 0) (n := 2) h_size bs h_two.symm h_room
    h_first (by simp [snprintfAt])
  have h_text : hexText e = byteText b ++ bs.flatMap byteText := by
    rw [← nodeText_eq]
    show e.toList.flatMap byteText = _
    rw [h_bytes, List.flatMap_cons]
  have h_fits : (hexText e).length < nidSize := by
    rw [length_hexText]
    decide
  have h_n : 0 + (snprintfAt nid nidSize 0 "%02x" [.word b.toUInt16] ⟨m, []⟩).2 = 2 := by
    rw [Nat.zero_add, ← h_two, ← format_byte b]
    rfl
  calc afterNodeid (some e) nid m
      = (nodeidLoop nid nidSize (b :: bs) 0 ⟨m, []⟩).1.mem := by
        rw [← h_bytes]
        rfl
    _ = (nodeidLoop nid nidSize bs 2
          (snprintfAt nid nidSize 0 "%02x" [.word b.toUInt16] ⟨m, []⟩).1).1.mem := by
        rw [← h_n]
        rfl
    _ = write m nid (stored nidSize (byteText b ++ bs.flatMap byteText)) := h_loop.1
    _ = write m nid (hexText e ++ [nul]) := by rw [← h_text, stored_of_lt h_fits]

/-- Without one, it is left alone. -/
theorem afterNodeid_none (nid : ℕ) (m : Mem) : afterNodeid none nid m = m := rfl

/-- With an EUI-64, the assertion holds and the last four digits are found. -/
theorem clientIdText_of_eui (e : Eui64) (pfx : Option CString) (m : Mem)
    (h_nid : nid + nidSize ≤ ramEnd) :
    12 < (stringAt (afterNodeid (some e) nid m) nid (ramEnd - nid)).length ∧
      clientIdText pfx ramEnd nid (afterNodeid (some e) nid m)
        = pfx.elim [] (·.val) ++ (hexText e).drop 12 := by
  have h_size : nidSize = 17 := rfl
  have h_len := length_hexText e
  have h_nul : nul ∉ hexText e := by
    rw [← nodeText_eq]
    exact fun h => nul_not_mem_stemText ⟨[], List.not_mem_nil⟩ (some e) (by simp [stemText, h])
  rw [afterNodeid_some]
  constructor
  · rw [stringAt_write m nid _ h_nul (by omega), h_len]
    decide
  · -- the digits from the twelfth on
    have h_split : hexText e ++ [nul] = (hexText e).take 12 ++ ((hexText e).drop 12 ++ [nul]) := by
      rw [← List.append_assoc, List.take_append_drop]
    have h_take : ((hexText e).take 12).length = 12 := by
      rw [List.length_take, h_len]
      rfl
    have h_tail := stringAt_write_tail m nid (ramEnd - (nid + 12)) ((hexText e).take 12)
      (fun h => h_nul (List.mem_of_mem_drop h) : nul ∉ (hexText e).drop 12)
      (by rw [List.length_drop]; omega)
    rw [h_take] at h_tail
    rw [clientIdText, h_split, h_tail]

/-- What the stack may hold at `nid`: sixteen times the same character, and a NUL. -/
def staleNid (nid : ℕ) (c : Char) : Mem :=
  write (fun _ => nul) nid (List.replicate 12 c ++ (List.replicate 4 c ++ [nul]))

/-- What is taken for digits. -/
theorem clientIdText_staleNid {c : Char} (h_c : c ≠ nul) (h_nid : nid + nidSize ≤ ramEnd) :
    clientIdText pfx ramEnd nid (staleNid nid c) = pfx.elim [] (·.val) ++ List.replicate 4 c := by
  have h_size : nidSize = 17 := rfl
  have h_nul : nul ∉ List.replicate 4 c := fun h => h_c (List.eq_of_mem_replicate h).symm
  have h_tail := stringAt_write_tail (fun _ => nul) nid (ramEnd - (nid + 12))
    (List.replicate 12 c) h_nul (by rw [List.length_replicate]; omega)
  rw [List.length_replicate] at h_tail
  rw [clientIdText, staleNid, h_tail]

theorem sameOutside_staleNid (nid : ℕ) (c d : Char) :
    SameOutside (staleNid nid c) (staleNid nid d) nid nidSize := by
  intro a ha
  have h_write : ∀ c, staleNid nid c a = nul := by
    intro c
    exact sameOutside_write _ nid (by simp [nidSize]) a ha
  rw [h_write, h_write]

/-- **When the client id is determined.** For an id buffer that is not empty, and `nid` in the
memory, the id is the same whatever the buffer held if and only if the EUI-64 is read, or
assertions are compiled out and the prefix alone fills the id. -/
theorem idDetermined_iff (h_idlen : 0 < idlen) (h_nid : nid + nidSize ≤ ramEnd) :
    IdDetermined assertOn ramEnd eui nid id idlen pfx ↔
      eui.isSome = true ∨
        (assertOn = false ∧ idlen ≤ (pfx.elim [] (·.val) : List Char).length + 1) := by
  unfold IdDetermined
  simp only [producesId_iff h_idlen]
  cases eui with
  | some e =>
    refine iff_of_true (fun m m' _ => ?_) (.inl rfl)
    obtain ⟨h_len, h_id⟩ := clientIdText_of_eui e pfx m h_nid
    obtain ⟨h_len', h_id'⟩ := clientIdText_of_eui e pfx m' h_nid
    exact ⟨_, ⟨fun _ => h_len, rfl⟩, fun _ => h_len', by rw [h_id', h_id]⟩
  | none =>
    simp only [afterNodeid_none, Option.isSome_none, Bool.false_eq_true, false_or]
    constructor
    · intro h
      constructor
      · -- an empty string fails the assertion
        by_contra h_on
        obtain ⟨-, ⟨h_assert, -⟩, -⟩ := h (fun _ => nul) (fun _ => nul) (SameOutside.refl _ _ _)
        rw [stringAt_of_nul (m := fun _ => nul) rfl] at h_assert
        exact absurd (h_assert (Bool.not_eq_false assertOn ▸ h_on)) (by decide)
      · -- two contents differ in the character behind the prefix
        by_contra h_room
        obtain ⟨text, ⟨-, h_a⟩, -, h_b⟩ :=
          h (staleNid nid 'a') (staleNid nid 'b') (sameOutside_staleNid nid 'a' 'b')
        rw [clientIdText_staleNid (by decide) h_nid] at h_a h_b
        have h_char := congrArg (·[(pfx.elim [] (·.val) : List Char).length]?) (h_a.trans h_b.symm)
        simp only [List.getElem?_take_of_lt
          (show (pfx.elim [] (·.val) : List Char).length < idlen - 1 by omega),
          List.getElem?_append_right (Nat.le_refl _), Nat.sub_self] at h_char
        exact absurd h_char (by decide)
    · rintro ⟨rfl, h_room⟩ m m' -
      have h_cut : ∀ m, (clientIdText pfx ramEnd nid m).take (idlen - 1)
          = (pfx.elim [] (·.val) : List Char).take (idlen - 1) := by
        intro m
        rw [clientIdText, List.take_append_of_le_length (by omega)]
      exact ⟨_, ⟨by simp, h_cut m⟩, by simp, h_cut m'⟩

end

theorem idDetermined_eui :
    let e : Eui64 := #v[0xfc, 0xc2, 0x3d, 0, 0, 0x01, 0x7f, 0x97]
    IdDetermined true 64 (some e) 0 32 cliIdSize none ↔
      (some e).isSome = true ∨
        (true = false ∧ cliIdSize ≤ ((none : Option CString).elim [] (·.val)).length + 1) :=
  idDetermined_iff (by decide) (by decide)

/-- **Stack contents for an id.** The EUI-64 is not read; both contents of `nid` pass the assertion
and make different ids. -/
theorem staleNid_makes_id :
    SameOutside (staleNid 0 'a') (staleNid 0 'b') 0 nidSize ∧
      ProducesId true 64 none 0 32 cliIdSize none (staleNid 0 'a') "aaaa".toList ∧
      ProducesId true 64 none 0 32 cliIdSize none (staleNid 0 'b') "bbbb".toList ∧
      ¬ IdDetermined true 64 none 0 32 cliIdSize none := by
  have h_a : ProducesId true 64 none 0 32 cliIdSize none (staleNid 0 'a') "aaaa".toList :=
    (producesId_iff (by decide) _).mpr ⟨fun _ => by decide +kernel, by decide +kernel⟩
  have h_b : ProducesId true 64 none 0 32 cliIdSize none (staleNid 0 'b') "bbbb".toList :=
    (producesId_iff (by decide) _).mpr ⟨fun _ => by decide +kernel, by decide +kernel⟩
  have h_same := sameOutside_staleNid 0 'a' 'b'
  refine ⟨h_same, h_a, h_b, fun h => ?_⟩
  obtain ⟨text, h_text, h_text'⟩ := h _ _ h_same
  -- one text would have to be both
  obtain ⟨-, rfl⟩ := (producesId_iff (by decide) _).mp h_text
  obtain ⟨-, h_eq⟩ := (producesId_iff (by decide) _).mp h_text'
  exact absurd h_eq (by decide +kernel)

/-! ### Nodes with the same id -/

/-- The last four digits are those of the last two bytes. -/
theorem drop_hexText (e : Eui64) : (hexText e).drop 12
    = (e.toList.drop 6).flatMap fun b => [hexDigit (b.toNat / 16), hexDigit (b.toNat % 16)] := by
  have h_len : ((e.toList.take 6).flatMap fun b =>
      [hexDigit (b.toNat / 16), hexDigit (b.toNat % 16)]).length = 12 := by
    simp [List.length_flatMap]
  unfold hexText
  conv_lhs => rw [← List.take_append_drop 6 e.toList, List.flatMap_append]
  exact List.drop_left' h_len

/-- They tell these bytes. -/
theorem drop_hexText_inj {e e' : Eui64} :
    (hexText e).drop 12 = (hexText e').drop 12 ↔ e[6] = e'[6] ∧ e[7] = e'[7] := by
  have h_last (e : Eui64) : e.toList.drop 6 = [e[6], e[7]] := by
    have h_len : e.toList.length = 8 := e.length_toList
    rw [List.drop_eq_getElem_cons (by omega), List.drop_eq_getElem_cons (by omega),
      List.drop_of_length_le (by omega)]
    rfl
  have h_digits : (hexText e).drop 12 = (hexText e').drop 12 ↔
      e.toList.drop 6 = e'.toList.drop 6 := by
    rw [drop_hexText, drop_hexText]
    constructor
    · intro h
      rw [← unhex_flatMap (e.toList.drop 6), h, unhex_flatMap]
    · intro h
      rw [h]
  rw [h_digits, h_last, h_last]
  simp

/-- **When two nodes have the same client id.** If the id buffer has room for the prefix and four
digits, then whatever was on their stacks, two nodes connect under the same id if and only if the
last two bytes of their EUI-64 are the same. -/
theorem clientId_collides_iff {assertOn : Bool} {ramEnd nid id idlen : ℕ} {pfx : Option CString}
    (h_nid : nid + nidSize ≤ ramEnd)
    (h_room : (pfx.elim [] (·.val) : List Char).length + 4 < idlen) (e e' : Eui64) (m m' : Mem) :
    (∃ text, ProducesId assertOn ramEnd (some e) nid id idlen pfx m text ∧
      ProducesId assertOn ramEnd (some e') nid id idlen pfx m' text) ↔
      e[6] = e'[6] ∧ e[7] = e'[7] := by
  have h_text (e : Eui64) (m : Mem) (text : List Char) :
      ProducesId assertOn ramEnd (some e) nid id idlen pfx m text ↔
        pfx.elim [] (·.val) ++ (hexText e).drop 12 = text := by
    obtain ⟨h_len, h_id⟩ := clientIdText_of_eui e pfx m h_nid
    have h_digits : ((hexText e).drop 12).length = 4 := by
      rw [List.length_drop, length_hexText]
    rw [producesId_iff (by omega), and_iff_right fun _ => h_len, h_id,
      List.take_of_length_le (by rw [List.length_append, h_digits]; omega)]
  simp only [h_text]
  rw [← drop_hexText_inj]
  constructor
  · rintro ⟨text, h, h'⟩
    exact List.append_cancel_left (h.trans h'.symm)
  · intro h
    exact ⟨_, rfl, by rw [h]⟩

/-- Two nodes with different topics and the id `7f97`. -/
theorem clientId_collides_avr :
    let e : Eui64 := #v[0xfc, 0xc2, 0x3d, 0, 0, 0x01, 0x7f, 0x97]
    let e' : Eui64 := #v[0xfc, 0xc2, 0x3d, 0, 0, 0x02, 0x7f, 0x97]
    hexText e ≠ hexText e' ∧ ∃ text,
      ProducesId true 64 (some e) 0 32 cliIdSize none (fun _ => nul) text ∧
        ProducesId true 64 (some e') 0 32 cliIdSize none (fun _ => nul) text := by
  intro e e'
  refine ⟨by decide +kernel, ?_⟩
  exact (clientId_collides_iff (by decide) (by decide) e e' _ _).mpr ⟨rfl, rfl⟩

end AirQuality
