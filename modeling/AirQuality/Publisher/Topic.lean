import Mathlib.Data.List.TakeDrop
import AirQuality.Framework.CString
import AirQuality.Publisher.Record

/-!
# The topic of a node

A node publishes under `MQTT_TOPIC_BASE/<node id>/sensors`, where the node id is the EUI-64 of the
board in hexadecimal. Two functions build that topic. `_init_topic` appends with `snprintf`,
passing what the accumulated lengths leave of its buffer; `mqpub_init_topic` appends the last part
with `strlcat`, and passes it what is left where the size of the whole buffer is due.

`snprintf` returns the length of the text whether it fitted or not, so the accumulated length can
exceed the buffer, and then `size - n` wraps around. It does not as long as the base and the node id
have room for themselves, and then a topic that is too long is just truncated
(`initTopic_safe_iff`). The other function builds the topic only in a buffer of more than twice its
length up to the suffix (`mqpubInitTopic_builds_iff`).

The functions carry a log of the operands of `size - n` along with the memory.
-/

namespace AirQuality

open CMem Printf

/-! ### The functions -/

/-- `eui64_t`. -/
abbrev Eui64 := Vector UInt8 8

/-- `MQPUB_TOPIC_LENGTH`, the size of `topicstr`. -/
def mqpubTopicLength : Nat := 64

/-- The memory, and the operands of the expressions `size - n` evaluated so far. -/
structure TopicState where
  mem : Mem
  sizes : List (Nat × Nat)

/-- `snprintf(buf + n, size - n, fmt, ...)`. -/
def snprintfAt (buf size n : Nat) (fmt : String) (args : List Arg) (s : TopicState) :
    TopicState × Nat :=
  let r := snprintf s.mem (buf + n) (sizeSub size n) fmt args
  (⟨r.1, s.sizes ++ [(size, n)]⟩, r.2)

/-- The loop of `get_nodeid` over the remaining bytes. -/
def nodeidLoop (buf size : Nat) : List UInt8 → Nat → TopicState → TopicState × Nat
  | [], n, s => (s, n)
  | b :: bs, n, s =>
    let r := snprintfAt buf size n "%02x" [.word b.toUInt16] s
    nodeidLoop buf size bs (n + r.2) r.1

/-- **`get_nodeid`**, where `eui` is what `at24mac_get_eui64` reads, if it succeeds. -/
def getNodeid (eui : Option Eui64) (buf size : Nat) (s : TopicState) : TopicState × Nat :=
  match eui with
  | none => (s, 0)
  | some e64 => nodeidLoop buf size e64.toList 0 s

/-- The two statements that both functions start with: `n = snprintf(buf, size, "%s/", base)` and
`n += get_nodeid(buf + n, size - n)`. -/
def initStem (base : CString) (eui : Option Eui64) (buf size : Nat) (m : Mem) :
    TopicState × Nat :=
  let r := snprintf m buf size "%s/" [.str base.val]
  let n := r.2
  let g := getNodeid eui (buf + n) (sizeSub size n) ⟨r.1, [(size, n)]⟩
  (g.1, n + g.2)

/-- **`_init_topic`**, where `base` is `MQTT_TOPIC_BASE`. -/
def initTopic (base : CString) (eui : Option Eui64) (topicstr : Nat) (m : Mem) : TopicState :=
  let r := initStem base eui topicstr mqpubTopicLength m
  (snprintfAt topicstr mqpubTopicLength r.2 "/sensors" [] r.1).1

/-- **`mqpub_init_topic`**: the state afterwards and the value returned; `suffix` may be `NULL`. -/
def mqpubInitTopic (base : CString) (eui : Option Eui64) (topic topiclen : Nat)
    (suffix : Option CString) (m : Mem) : TopicState × Nat :=
  let r := initStem base eui topic topiclen m
  let n := r.2
  match suffix with
  | none => r
  | some suffix =>
    let c := strlcat r.1.mem topic suffix.val (sizeSub topiclen n)
    (⟨c.1, r.1.sizes ++ [(topiclen, n)]⟩, c.2)

/-! ### The texts -/

/-- The node id in hexadecimal; nothing if it cannot be read. -/
def nodeText (eui : Option Eui64) : List Char := eui.elim [] fun e => e.toList.flatMap byteText

/-- The topic without its suffix. -/
def stemText (base : CString) (eui : Option Eui64) : List Char := base.val ++ '/' :: nodeText eui

/-- The whole topic. -/
def topicText (base : CString) (eui : Option Eui64) : List Char :=
  stemText base eui ++ "/sensors".toList

theorem length_byteText (x : UInt8) : (byteText x).length = 2 := by
  have h_all : ∀ n < 256, (hex2 n).length = 2 := by decide +kernel
  exact h_all x.toUInt16.toNat (by have := x.toNat_lt; simpa using this)

theorem nul_not_mem_byteText (x : UInt8) : nul ∉ byteText x := by
  have h_all : ∀ n < 256, nul ∉ hex2 n := by decide +kernel
  exact h_all x.toUInt16.toNat (by have := x.toNat_lt; simpa using this)

theorem length_flatMap_byteText (bs : List UInt8) :
    (bs.flatMap byteText).length = 2 * bs.length := by
  rw [List.length_flatMap]
  simp only [length_byteText, List.map_const', List.sum_replicate_nat]
  omega

@[simp] theorem length_nodeText (e : Eui64) : (nodeText (some e)).length = 16 := by
  show (e.toList.flatMap byteText).length = 16
  rw [length_flatMap_byteText, Vector.length_toList]

theorem length_stemText (base : CString) (eui : Option Eui64) :
    (stemText base eui).length = base.val.length + 1 + (nodeText eui).length := by
  simp only [stemText, List.length_append, List.length_cons]
  omega

theorem nul_not_mem_stemText (base : CString) (eui : Option Eui64) :
    nul ∉ stemText base eui := by
  have h_node : nul ∉ nodeText eui := by
    cases eui with
    | none => simp [nodeText]
    | some e =>
      simp only [nodeText, Option.elim_some, List.mem_flatMap, not_exists, not_and]
      exact fun b _ => nul_not_mem_byteText b
  simp only [stemText, List.mem_append, List.mem_cons, not_or]
  exact ⟨base.property, by decide, h_node⟩

/-! ### Accumulated lengths -/

theorem format_base (base : CString) : format "%s/".toList [.str base.val] = base.val ++ ['/'] :=
  rfl

theorem format_byte (b : UInt8) : format "%02x".toList [.word b.toUInt16] = byteText b :=
  List.append_nil _

/-- `snprintfAt` at the end of the text so far. -/
theorem snprintfAt_stored {m : Mem} {p size n : Nat} {text : List Char} {s : TopicState}
    (fmt : String) (args : List Arg) (h_size : 0 < size) (h_n : n = text.length)
    (h_le : n ≤ size) (h_mem : s.mem = write m p (stored size text)) :
    (snprintfAt p size n fmt args s).1.mem
      = write m p (stored size (text ++ format fmt.toList args)) := by
  subst h_n
  show (snprintf s.mem (p + text.length) (sizeSub size text.length) fmt args).1 = _
  rw [h_mem, sizeSub_of_le h_le]
  exact snprintf_append m p text fmt args h_size h_le

/-- Two digits for each byte, whether they fit or not. -/
theorem nodeidLoop_snd (buf size : Nat) (bs : List UInt8) (n : Nat) (s : TopicState) :
    (nodeidLoop buf size bs n s).2 = n + 2 * bs.length := by
  induction bs generalizing n s with
  | nil => rfl
  | cons b bs ih =>
    have h_two : (snprintfAt buf size n "%02x" [.word b.toUInt16] s).2 = 2 := by
      show (format "%02x".toList [.word b.toUInt16]).length = 2
      rw [format_byte, length_byteText]
    show (nodeidLoop buf size bs _ _).2 = _
    rw [ih, h_two, List.length_cons]
    omega

theorem getNodeid_snd (eui : Option Eui64) (buf size : Nat) (s : TopicState) :
    (getNodeid eui buf size s).2 = (nodeText eui).length := by
  cases eui with
  | none => rfl
  | some e =>
    show (nodeidLoop buf size e.toList 0 s).2 = _
    rw [nodeidLoop_snd, Vector.length_toList, length_nodeText]

theorem initStem_snd (base : CString) (eui : Option Eui64) (buf size : Nat) (m : Mem) :
    (initStem base eui buf size m).2 = (stemText base eui).length := by
  show (format "%s/".toList [.str base.val]).length + (getNodeid eui _ _ _).2 = _
  rw [getNodeid_snd, format_base, length_stemText, List.length_append]
  rfl

/-- The loop of `get_nodeid` in a buffer that holds `text` behind its first `k` characters, with
room for all the digits: no expression wraps, and the digits are appended. -/
theorem nodeidLoop_stored {m : Mem} {p size k : Nat} (h_size : 0 < size) (bs : List UInt8)
    {text : List Char} {n : Nat} {s : TopicState} (h_k : k + n = text.length)
    (h_room : text.length + 2 * bs.length ≤ size) (h_mem : s.mem = write m p (stored size text))
    (h_sizes : ∀ q ∈ s.sizes, q.2 ≤ q.1) :
    (nodeidLoop (p + k) (size - k) bs n s).1.mem
        = write m p (stored size (text ++ bs.flatMap byteText)) ∧
      ∀ q ∈ (nodeidLoop (p + k) (size - k) bs n s).1.sizes, q.2 ≤ q.1 := by
  induction bs generalizing text n s with
  | nil => exact ⟨by rw [List.flatMap_nil, List.append_nil]; exact h_mem, h_sizes⟩
  | cons b bs ih =>
    rw [List.length_cons] at h_room
    let r := snprintfAt (p + k) (size - k) n "%02x" [.word b.toUInt16] s
    have h_digits : r.2 = 2 := by
      show (format "%02x".toList [.word b.toUInt16]).length = 2
      rw [format_byte, length_byteText]
    -- what is left of this buffer is what is left of the whole one
    have h_write : r.1.mem = write m p (stored size (text ++ byteText b)) := by
      have h_left : sizeSub (size - k) n = size - text.length := by
        rw [sizeSub_of_le (by omega)]
        omega
      show (snprintf s.mem (p + k + n) (sizeSub (size - k) n) "%02x" _).1 = _
      rw [h_mem, h_left, Nat.add_assoc, h_k, snprintf_append m p text _ _ h_size (by omega),
        format_byte]
    have h_logged : ∀ q ∈ r.1.sizes, q.2 ≤ q.1 := by
      intro q hq
      rcases List.mem_append.mp hq with hq | hq
      · exact h_sizes q hq
      · rw [List.mem_singleton.mp hq]
        show n ≤ size - k
        omega
    have h_text : (text ++ byteText b).length = text.length + 2 := by
      rw [List.length_append, length_byteText]
    have h_rest := ih (n := n + r.2) (by rw [h_digits, h_text]; omega) (by rw [h_text]; omega)
      h_write h_logged
    rw [List.flatMap_cons, ← List.append_assoc]
    exact h_rest

theorem initStem_some (base : CString) (e : Eui64) (buf size : Nat) (m : Mem) :
    (initStem base (some e) buf size m).1 = (nodeidLoop (buf + (base.val ++ ['/']).length)
      (sizeSub size (base.val ++ ['/']).length) e.toList 0
      ⟨(snprintf m buf size "%s/" [.str base.val]).1,
        [(size, (base.val ++ ['/']).length)]⟩).1 := rfl

/-- **The stem of a topic**, in a buffer with room for it up to the last character. -/
theorem initStem_stored (base : CString) (eui : Option Eui64) (buf : Nat) {size : Nat} (m : Mem)
    (h_room : (stemText base eui).length ≤ size) :
    (initStem base eui buf size m).1.mem = write m buf (stored size (stemText base eui)) ∧
      ∀ q ∈ (initStem base eui buf size m).1.sizes, q.2 ≤ q.1 := by
  rw [length_stemText] at h_room
  have h_size : 0 < size := by omega
  -- the first `snprintf` appends to an empty text
  have h_base : (snprintf m buf size "%s/" [.str base.val]).1
      = write m buf (stored size (base.val ++ ['/'])) :=
    snprintf_stored m buf "%s/" [.str base.val] h_size
  have h_len : (base.val ++ ['/']).length = base.val.length + 1 := by simp
  have h_logged : ∀ q ∈ [(size, (base.val ++ ['/']).length)], q.2 ≤ q.1 := by
    intro q hq
    rw [List.mem_singleton.mp hq, h_len]
    show base.val.length + 1 ≤ size
    omega
  cases eui with
  | none => exact ⟨h_base, h_logged⟩
  | some e =>
    rw [length_nodeText] at h_room
    have h_loop := nodeidLoop_stored (k := (base.val ++ ['/']).length) h_size e.toList
      (s := ⟨_, _⟩) (Nat.add_zero _) (by rw [Vector.length_toList]; omega) h_base h_logged
    have h_sub : sizeSub size (base.val ++ ['/']).length = size - (base.val ++ ['/']).length :=
      sizeSub_of_le (by omega)
    have h_stem : stemText base (some e) = base.val ++ ['/'] ++ e.toList.flatMap byteText := by
      simp [stemText, nodeText]
    rw [h_stem, initStem_some, h_sub]
    exact h_loop

/-! ### `_init_topic` -/

/-- `_init_topic` keeps to `topicstr`: no expression `size - n` wraps around, nothing is written
outside the buffer, and it ends up NUL-terminated, holding the topic or what fits of it. -/
structure TopicSafe (base : CString) (eui : Option Eui64) (topicstr : Nat) (m : Mem) : Prop where
  noWrap : ∀ q ∈ (initTopic base eui topicstr m).sizes, q.2 ≤ q.1
  inside : SameOutside m (initTopic base eui topicstr m).mem topicstr mqpubTopicLength
  terminated : ∃ i < mqpubTopicLength, (initTopic base eui topicstr m).mem (topicstr + i) = nul
  truncated : stringAt (initTopic base eui topicstr m).mem topicstr mqpubTopicLength
    = (topicText base eui).take (mqpubTopicLength - 1)

theorem nul_not_mem_topicText (base : CString) (eui : Option Eui64) :
    nul ∉ topicText base eui := by
  rw [topicText, List.mem_append, not_or]
  exact ⟨nul_not_mem_stemText base eui, by decide⟩

theorem length_topicText (base : CString) (eui : Option Eui64) :
    (topicText base eui).length = (stemText base eui).length + 8 := by
  rw [topicText, List.length_append]
  rfl

/-- With room for the stem, the buffer holds the beginning of the topic. -/
theorem initTopic_stored (base : CString) (eui : Option Eui64) (topicstr : Nat) (m : Mem)
    (h_room : (stemText base eui).length ≤ mqpubTopicLength) :
    (initTopic base eui topicstr m).mem
        = write m topicstr (stored mqpubTopicLength (topicText base eui)) ∧
      ∀ q ∈ (initTopic base eui topicstr m).sizes, q.2 ≤ q.1 := by
  obtain ⟨h_mem, h_sizes⟩ := initStem_stored base eui topicstr m h_room
  have h_n := initStem_snd base eui topicstr mqpubTopicLength m
  refine ⟨?_, fun q hq => ?_⟩
  · have h_append := snprintfAt_stored "/sensors" [] (by decide) h_n (h_n ▸ h_room) h_mem
    rw [format_nil] at h_append
    exact h_append
  · rcases List.mem_append.mp hq with hq | hq
    · exact h_sizes q hq
    · rw [List.mem_singleton.mp hq]
      exact h_n ▸ h_room

/-- **When `_init_topic` keeps to its buffer.** It does if and only if `MQTT_TOPIC_BASE`, the slash
and the sixteen digits of the node id fit; without a node id, if and only if the base and the slash
do. -/
theorem initTopic_safe_iff (base : CString) (eui : Option Eui64) (topicstr : Nat) (m : Mem) :
    TopicSafe base eui topicstr m ↔ base.val.length + (if eui.isSome then 17 else 1) ≤ 64 := by
  have h_stem : (stemText base eui).length
      = base.val.length + (if eui.isSome then 17 else 1) := by
    rw [length_stemText]
    cases eui with
    | none => rfl
    | some e =>
      rw [length_nodeText]
      rfl
  rw [← h_stem]
  constructor
  · intro h
    -- the last expression is `sizeof(topicstr) - n` behind the stem
    have h_last := h.noWrap (mqpubTopicLength, (initStem base eui topicstr mqpubTopicLength m).2)
      (List.mem_append_right _ (List.mem_singleton_self _))
    rwa [initStem_snd] at h_last
  · intro h_room
    obtain ⟨h_mem, h_sizes⟩ := initTopic_stored base eui topicstr m h_room
    have h_len : ((topicText base eui).take (mqpubTopicLength - 1)).length < mqpubTopicLength := by
      rw [List.length_take]
      exact Nat.lt_of_le_of_lt (Nat.min_le_left _ _) (by decide)
    refine ⟨h_sizes, ?_, ⟨_, h_len, ?_⟩, ?_⟩
    · rw [h_mem]
      refine sameOutside_write m topicstr ?_
      rw [length_stored]
      exact Nat.succ_le_of_lt (Nat.lt_of_le_of_lt (Nat.min_le_left _ _) (by decide))
    · rw [h_mem]
      exact write_behind m topicstr _ nul
    · rw [h_mem]
      exact stringAt_write m topicstr _
        (fun h => nul_not_mem_topicText base eui (List.mem_of_mem_take h)) h_len

/-- A base of 48 characters leaves no room for all the digits of the node id, and the suffix is
written behind the buffer. -/
theorem longBase_writes_outside :
    let base : CString := ⟨List.replicate 48 'a', by decide⟩
    let s := initTopic base (some (Vector.replicate 8 0)) 0 fun _ => nul
    (64, 65) ∈ s.sizes ∧ read s.mem 65 8 = "/sensors".toList ∧
      ¬ TopicSafe base (some (Vector.replicate 8 0)) 0 fun _ => nul := by
  intro base s
  have h_wraps : (64, 65) ∈ s.sizes := by decide +kernel
  refine ⟨h_wraps, by decide +kernel, fun h => ?_⟩
  exact absurd (h.noWrap (64, 65) h_wraps) (by decide)

/-! ### `mqpub_init_topic` -/

/-- The suffix of `_init_topic`. -/
def sensorsSuffix : CString := ⟨"/sensors".toList, by decide⟩

/-- `mqpub_init_topic` leaves base, node id and suffix in `topic` and returns their length; with the
buffer size and the suffix of `_init_topic`, it builds the same topic. -/
structure BuildsTopic (base : CString) (e : Eui64) (suffix : CString) (topic topiclen : Nat)
    (m : Mem) : Prop where
  text : stringAt (mqpubInitTopic base (some e) topic topiclen (some suffix) m).1.mem topic topiclen
    = stemText base (some e) ++ suffix.val
  length : (mqpubInitTopic base (some e) topic topiclen (some suffix) m).2
    = (stemText base (some e) ++ suffix.val).length
  same : topiclen = mqpubTopicLength → suffix = sensorsSuffix → ∀ topicstr m',
    stringAt (mqpubInitTopic base (some e) topic topiclen (some suffix) m).1.mem topic topiclen
      = stringAt (initTopic base (some e) topicstr m').mem topicstr mqpubTopicLength

section

variable (base : CString) (e : Eui64) (suffix : CString) (topic : Nat) {topiclen : Nat} (m : Mem)

/-- With room for the stem, what `strlcat` is called on is the stem. -/
theorem mqpubInitTopic_eq (h_room : (stemText base (some e)).length < topiclen) :
    (mqpubInitTopic base (some e) topic topiclen (some suffix) m).1.mem
        = (strlcat (write m topic (stemText base (some e) ++ [nul])) topic suffix.val
          (topiclen - (stemText base (some e)).length)).1 ∧
      (mqpubInitTopic base (some e) topic topiclen (some suffix) m).2
        = (strlcat (write m topic (stemText base (some e) ++ [nul])) topic suffix.val
          (topiclen - (stemText base (some e)).length)).2 := by
  obtain ⟨h_mem, -⟩ := initStem_stored base (some e) topic m (Nat.le_of_lt h_room)
  have h_n := initStem_snd base (some e) topic topiclen m
  rw [stored_of_lt h_room] at h_mem
  -- the stem fits, so what is left of the buffer does not wrap around
  have h_eq : mqpubInitTopic base (some e) topic topiclen (some suffix) m
      = (⟨(strlcat (initStem base (some e) topic topiclen m).1.mem topic suffix.val
            (sizeSub topiclen (initStem base (some e) topic topiclen m).2)).1,
          (initStem base (some e) topic topiclen m).1.sizes
            ++ [(topiclen, (initStem base (some e) topic topiclen m).2)]⟩,
        (strlcat (initStem base (some e) topic topiclen m).1.mem topic suffix.val
          (sizeSub topiclen (initStem base (some e) topic topiclen m).2)).2) := rfl
  rw [h_eq, h_mem, h_n, sizeSub_of_le (Nat.le_of_lt h_room)]
  exact ⟨rfl, rfl⟩

/-- What is left of the buffer exceeds the stem: the suffix is cut off after what is left of
that. -/
theorem mqpubInitTopic_of_lt (h : 2 * (stemText base (some e)).length < topiclen) :
    stringAt (mqpubInitTopic base (some e) topic topiclen (some suffix) m).1.mem topic topiclen
        = stemText base (some e)
          ++ suffix.val.take (topiclen - 2 * (stemText base (some e)).length - 1) ∧
      (mqpubInitTopic base (some e) topic topiclen (some suffix) m).2
        = (stemText base (some e) ++ suffix.val).length := by
  have h_nul := nul_not_mem_stemText base (some e)
  obtain ⟨h_mem, h_snd⟩ := mqpubInitTopic_eq base e suffix topic m
    (by omega : (stemText base (some e)).length < topiclen)
  -- `strlcat` is given the room behind the stem, and counts the stem off a second time
  rw [strlcat_of_lt m topic suffix.val h_nul (by omega)] at h_mem h_snd
  have h_take : topiclen - (stemText base (some e)).length - (stemText base (some e)).length - 1
      = topiclen - 2 * (stemText base (some e)).length - 1 := by omega
  rw [h_mem, h_snd, h_take, ← List.append_assoc, List.length_append]
  refine ⟨stringAt_write m topic topiclen ?_ ?_, rfl⟩
  · rw [List.mem_append, not_or]
    exact ⟨h_nul, fun h_in => suffix.property (List.mem_of_mem_take h_in)⟩
  · rw [List.length_append, List.length_take]
    omega

/-- What is left of the buffer does not exceed the stem: nothing is appended. -/
theorem mqpubInitTopic_of_le (h_room : (stemText base (some e)).length < topiclen)
    (h : topiclen ≤ 2 * (stemText base (some e)).length) :
    stringAt (mqpubInitTopic base (some e) topic topiclen (some suffix) m).1.mem topic topiclen
        = stemText base (some e) ∧
      (mqpubInitTopic base (some e) topic topiclen (some suffix) m).2
        = topiclen - (stemText base (some e)).length + suffix.val.length := by
  have h_nul := nul_not_mem_stemText base (some e)
  obtain ⟨h_mem, h_snd⟩ := mqpubInitTopic_eq base e suffix topic m h_room
  rw [strlcat_of_le m topic suffix.val h_nul (by omega)] at h_mem h_snd
  rw [h_mem, h_snd]
  exact ⟨stringAt_write m topic topiclen h_nul h_room, rfl⟩

/-- Text and length alone. -/
theorem mqpubInitTopic_exact_iff
    (h_len : (stemText base (some e)).length + suffix.val.length < topiclen) :
    (stringAt (mqpubInitTopic base (some e) topic topiclen (some suffix) m).1.mem topic topiclen
        = stemText base (some e) ++ suffix.val ∧
      (mqpubInitTopic base (some e) topic topiclen (some suffix) m).2
        = (stemText base (some e) ++ suffix.val).length) ↔
      2 * (stemText base (some e)).length + suffix.val.length < topiclen ∨
        (suffix.val = [] ∧ topiclen = 2 * (stemText base (some e)).length) := by
  rcases Nat.lt_or_ge (2 * (stemText base (some e)).length) topiclen with h | h
  · obtain ⟨h_text, h_snd⟩ := mqpubInitTopic_of_lt base e suffix topic m h
    rw [h_text, h_snd, List.append_cancel_left_eq, List.take_eq_self_iff]
    have h_ne : topiclen ≠ 2 * (stemText base (some e)).length := by omega
    simp only [h_ne, and_true, and_false, or_false]
    omega
  · obtain ⟨h_text, h_snd⟩ := mqpubInitTopic_of_le base e suffix topic m (by omega) h
    rw [h_text, h_snd, List.length_append]
    constructor
    · rintro ⟨h_eq, h_length⟩
      -- the stem alone is the topic only if there is no suffix
      have h_nil : suffix.val = [] := List.self_eq_append_right.mp h_eq
      rw [h_nil] at h_length
      exact Or.inr ⟨h_nil, by simp only [List.length_nil] at h_length; omega⟩
    · rintro (h_room | ⟨h_nil, h_eq⟩)
      · omega
      · rw [h_nil]
        exact ⟨(List.append_nil _).symm, by simp only [List.length_nil]; omega⟩

end

/-- **When `mqpub_init_topic` builds the topic.** Let the buffer have room for it. The suffix is
appended whole if and only if there is room for base, slash and node id twice; with an empty
suffix, the length returned is right also if there is exactly that much. -/
theorem mqpubInitTopic_builds_iff (base : CString) (e : Eui64) (suffix : CString)
    (topic topiclen : Nat) (m : Mem)
    (h_len : base.val.length + 1 + 16 + suffix.val.length < topiclen) :
    BuildsTopic base e suffix topic topiclen m ↔
      2 * (base.val.length + 17) + suffix.val.length < topiclen ∨
        (suffix.val = [] ∧ topiclen = 2 * (base.val.length + 17)) := by
  have h_stem : (stemText base (some e)).length = base.val.length + 17 := by
    rw [length_stemText, length_nodeText]
  have h_exact := mqpubInitTopic_exact_iff base e suffix topic m
    (by rw [h_stem]; omega : (stemText base (some e)).length + suffix.val.length < topiclen)
  rw [h_stem] at h_exact
  rw [← h_exact]
  constructor
  · exact fun h => ⟨h.text, h.length⟩
  · rintro ⟨h_text, h_length⟩
    refine ⟨h_text, h_length, ?_⟩
    rintro rfl rfl topicstr m'
    -- the topic fits into `topicstr` too
    have h_fits : base.val.length + 1 + 16 + 8 < mqpubTopicLength := h_len
    obtain ⟨h_mem, -⟩ := initTopic_stored base (some e) topicstr m' (by rw [h_stem]; omega)
    have h_topic : (topicText base (some e)).length < mqpubTopicLength := by
      rw [length_topicText, h_stem]
      omega
    rw [h_text, h_mem, stored_of_lt h_topic,
      stringAt_write m' topicstr _ (nul_not_mem_topicText base (some e)) h_topic]
    rfl

/-- A base of ten characters, in a buffer of the size of `topicstr`. -/
theorem mqpubInitTopic_builds_short :
    let base : CString := ⟨"KTH/board1".toList, by decide⟩
    BuildsTopic base (Vector.replicate 8 0) sensorsSuffix 0 64 (fun _ => nul) ↔
      2 * (base.val.length + 17) + sensorsSuffix.val.length < 64 ∨
        (sensorsSuffix.val = [] ∧ 64 = 2 * (base.val.length + 17)) :=
  mqpubInitTopic_builds_iff _ _ sensorsSuffix 0 64 _ (by decide)

/-- The base of the source is longer: three characters of the suffix are lost. -/
theorem defaultBase_truncated :
    let base : CString := ⟨"KTH/avr-rss2".toList, by decide⟩
    let r := mqpubInitTopic base (some (Vector.replicate 8 0)) 0 64 (some sensorsSuffix)
      fun _ => nul
    stringAt r.1.mem 0 64 = "KTH/avr-rss2/0000000000000000/sens".toList ∧ r.2 = 37 ∧
      ¬ BuildsTopic base (Vector.replicate 8 0) sensorsSuffix 0 64 fun _ => nul := by
  intro base r
  have h_text : stringAt r.1.mem 0 64 = "KTH/avr-rss2/0000000000000000/sens".toList := by
    decide +kernel
  refine ⟨h_text, by decide +kernel, fun h => ?_⟩
  have h_topic := h.text
  change stringAt r.1.mem 0 64 = _ at h_topic
  rw [h_text] at h_topic
  exact absurd (congrArg List.length h_topic) (by decide +kernel)

end AirQuality
