import AirQuality.Framework.Printf

/-!
# Records (`report.h`)

A record is a piece of text that must be kept together in a report. It is written between
`RECORD_START(STR, LEN)` and `RECORD_END(NREAD)` by a sequence of `PUTFMT`s; the first one that
does not fit jumps to `_full`, where the record is blanked and the enclosing function returns.

The block between the two macros is a `Record`: it knows its destination (`_str` and `_len`), and
threads the memory and `_nread`, the number of characters written so far. `record` runs a block
and closes it: `some n` when control leaves it at `_notfull` with `n` characters written, `none`
when it left at `_full`.

A block is used through what it writes. `Writes body a t` says that the block yields `a` and
writes the text `t`, all or nothing, and `Appends body a t` says so for a block that continues a
text, at its terminating NUL. `RunsTo.bind` composes them: the text of a sequence is the
concatenation of the texts, and the sequence fits if and only if the concatenation does.
-/

namespace AirQuality

open CMem Printf

/-! ### The block -/

/-- The destination of a block: `_str` and `_len`. -/
structure Block where
  str : Nat
  len : Nat

/-- A statement of a block is left at the next one, or at `_full`. -/
inductive Step (α : Type) where
  | next (a : α) (mem : Mem) (nread : Nat)
  | full (mem : Mem)

/-- The statements of a block. They read the destination and update the memory and `_nread`. -/
def Record (α : Type) : Type := Block → Mem → Nat → Step α

/-- Go on with `f` unless the block was left at `_full`. -/
def Step.andThen {α β : Type} (s : Step α) (f : α → Mem → Nat → Step β) : Step β :=
  match s with
  | .next a m k => f a m k
  | .full m => .full m

instance : Monad Record where
  pure a := fun _ m k => .next a m k
  bind x f := fun b m k => (x b m k).andThen fun a m k => f a b m k

/-- Subtraction of `size_t` values, which are 16 bits wide: it wraps around below zero. -/
def sizeSub (a b : Nat) : Nat := if b ≤ a then a - b else 2 ^ 16 + a - b

/-- `PUTFMT(...)`: append formatted text, or leave the block if it does not fit. -/
def putfmt (fmt : String) (args : List Arg) : Record Unit := fun b m k =>
  let r := snprintf m (b.str + k) (sizeSub b.len k) fmt args
  if r.2 < sizeSub b.len k then .next () r.1 (k + r.2) else .full r.1

/-- `RECORD_STR()`: the current write position. -/
def recordStr : Record Nat := fun b m k => .next (b.str + k) m k

/-- `RECORD_LEN()`: the room that is left. -/
def recordLen : Record Nat := fun b m k => .next (sizeSub b.len k) m k

/-- `RECORD_ADD(N)`: take over `n` characters that another function wrote. -/
def recordAdd (n : Nat) : Record Unit := fun b m k =>
  if n < sizeSub b.len k then .next () m (k + n) else .full m

/-- A call of another function inside the block. -/
def callOut {α : Type} (f : Mem → Mem × α) : Record α := fun _ m k => .next (f m).2 (f m).1 k

/-- `n = f(RECORD_STR(), RECORD_LEN()); RECORD_ADD(n);`: let another function append. -/
def recordCall (f : Nat → Nat → Mem → Mem × Nat) : Record Unit := do
  let p ← recordStr
  let l ← recordLen
  let n ← callOut (f p l)
  recordAdd n

/-- `RECORD_START(str, len); body; RECORD_END(..)`. At `_full` the record is blanked; the early
return of the enclosing function is the caller's. -/
def record (str len : Nat) (body : Record Unit) (m : Mem) : Mem × Option Nat :=
  match body ⟨str, len⟩ m 0 with
  | .next _ m k => (m, some k)
  | .full m => (write m str [nul], none)

/-- A function that is one record: `nread = 0; RECORD_START(str, len); body; RECORD_END(nread);
return nread`. -/
def recordFunction (str len : Nat) (body : Record Unit) (m : Mem) : Mem × Nat :=
  match record str len body m with
  | (m, some n) => (m, n)
  | (m, none) => (m, 0)

theorem recordFunction_next {str len : Nat} {body : Record Unit} {m m' : Mem} {k : Nat}
    (h : body ⟨str, len⟩ m 0 = .next () m' k) : recordFunction str len body m = (m', k) := by
  unfold recordFunction record
  rw [h]

theorem recordFunction_full {str len : Nat} {body : Record Unit} {m m' : Mem}
    (h : body ⟨str, len⟩ m 0 = .full m') :
    recordFunction str len body m = (write m' str [nul], 0) := by
  unfold recordFunction record
  rw [h]

theorem sizeSub_of_le {a b : Nat} (h : b ≤ a) : sizeSub a b = a - b := if_pos h

@[simp] theorem Record.pure_apply {α : Type} (a : α) (b : Block) (m : Mem) (k : Nat) :
    (pure a : Record α) b m k = .next a m k := rfl

@[simp] theorem Record.bind_apply {α β : Type} (x : Record α) (f : α → Record β) (b : Block)
    (m : Mem) (k : Nat) : (x >>= f) b m k = (x b m k).andThen fun a m k => f a b m k := rfl

@[simp] theorem Step.andThen_next {α β : Type} (a : α) (m : Mem) (k : Nat)
    (f : α → Mem → Nat → Step β) : (Step.next a m k).andThen f = f a m k := rfl

@[simp] theorem Step.andThen_full {α β : Type} (m : Mem) (f : α → Mem → Nat → Step β) :
    (Step.full m : Step α).andThen f = .full m := rfl

/-- `PUTFMT` inside the destination, where no size wraps around. -/
theorem putfmt_apply {b : Block} {k : Nat} (hk : k < b.len) (fmt : String) (args : List Arg)
    (m : Mem) : putfmt fmt args b m k
      = if (format fmt.toList args).length < b.len - k then
          .next () (snprintf m (b.str + k) (b.len - k) fmt args).1
            (k + (format fmt.toList args).length)
        else .full (snprintf m (b.str + k) (b.len - k) fmt args).1 := by
  have h_room : sizeSub b.len k = b.len - k := sizeSub_of_le (by omega)
  unfold putfmt
  simp only [h_room, snprintf_snd]

/-- Likewise a call and the `RECORD_ADD` of its result. -/
theorem recordCall_apply {b : Block} {k : Nat} (hk : k < b.len)
    (f : Nat → Nat → Mem → Mem × Nat) (m : Mem) : recordCall f b m k
      = if (f (b.str + k) (b.len - k) m).2 < b.len - k then
          .next () (f (b.str + k) (b.len - k) m).1 (k + (f (b.str + k) (b.len - k) m).2)
        else .full (f (b.str + k) (b.len - k) m).1 := by
  have h_room : sizeSub b.len k = b.len - k := sizeSub_of_le (by omega)
  unfold recordCall
  simp only [Record.bind_apply, recordStr, recordLen, callOut, recordAdd, Step.andThen_next, h_room]

/-! ### The text a block writes -/

/-- A `uint8_t` or `uint16_t` as `%d` shows it. -/
def wordText (x : UInt16) : List Char := decimalInt x.toInt16.toInt

theorem length_wordText_le (x : UInt16) : (wordText x).length ≤ 6 := by
  apply length_decimalInt_le (by decide)
  have h_lo := x.toInt16.le_toInt
  have h_hi := x.toInt16.toInt_lt
  omega

/-- A byte as `%02x` shows it. -/
def byteText (x : UInt8) : List Char := hex2 x.toUInt16.toNat

/-- From this state the block yields `a` and writes `t` behind the first `k` characters, with a
NUL at its end; or, if `t` does not fit, it is left at `_full` with nothing touched outside its
destination. -/
def RunsTo {α : Type} (body : Record α) (a : α) (t : List Char) (b : Block) (m : Mem)
    (k : Nat) : Prop :=
  if k + t.length < b.len then
    body b m k = .next a (write m (b.str + k) (t ++ [nul])) (k + t.length)
  else ∃ m', body b m k = .full m' ∧ SameOutside m m' b.str b.len

/-- The block writes `t`, whatever stood at the write position before. -/
def Writes {α : Type} (body : Record α) (a : α) (t : List Char) : Prop :=
  ∀ b m k, k < b.len → RunsTo body a t b m k

/-- The block writes `t` when it starts at the NUL that ends the text so far. -/
def Appends {α : Type} (body : Record α) (a : α) (t : List Char) : Prop :=
  ∀ b m k, k < b.len → m (b.str + k) = nul → RunsTo body a t b m k

theorem Writes.appends {α : Type} {body : Record α} {a : α} {t : List Char}
    (h : Writes body a t) : Appends body a t := fun b m k hk _ => h b m k hk

/-- **Sequencing.** The second block starts at the NUL the first one left, so the two together
write the concatenation; if the first did not fit, neither does the concatenation. -/
theorem RunsTo.bind {α β : Type} {x : Record α} {f : α → Record β} {a : α} {c : β}
    {t u : List Char} {b : Block} {m : Mem} {k : Nat} (hx : RunsTo x a t b m k)
    (hf : k + t.length < b.len → write m (b.str + k) (t ++ [nul]) (b.str + (k + t.length)) = nul →
      RunsTo (f a) c u b (write m (b.str + k) (t ++ [nul])) (k + t.length)) :
    RunsTo (x >>= f) c (t ++ u) b m k := by
  unfold RunsTo at hx ⊢
  rw [Record.bind_apply, List.length_append]
  by_cases ht : k + t.length < b.len
  · -- the first block fitted: its memory is the text so far and a NUL
    rw [if_pos ht] at hx
    rw [hx, Step.andThen_next]
    have h_nul : write m (b.str + k) (t ++ [nul]) (b.str + (k + t.length)) = nul := by
      rw [← Nat.add_assoc]
      exact write_behind m (b.str + k) t nul
    have h_run := hf ht h_nul
    unfold RunsTo at h_run
    rw [← Nat.add_assoc] at h_run ⊢
    -- the second block continues at that NUL
    by_cases hu : k + t.length + u.length < b.len
    · rw [if_pos hu] at h_run ⊢
      rw [h_run, write_extend _ _ _ _ _ (by simp), List.append_assoc]
    · rw [if_neg hu] at h_run ⊢
      obtain ⟨m', h_full, h_out⟩ := h_run
      refine ⟨m', h_full, SameOutside.trans ?_ h_out⟩
      have h_len : (t ++ [nul]).length ≤ b.len - k := by simp; omega
      exact (sameOutside_write m (b.str + k) h_len).mono (by omega) (by omega)
  -- the first block was left at `_full`, and so is the sequence
  · rw [if_neg ht] at hx
    rw [if_neg (by omega)]
    obtain ⟨m', h_full, h_out⟩ := hx
    exact ⟨m', by rw [h_full, Step.andThen_full], h_out⟩

theorem Writes.bind {α β : Type} {x : Record α} {f : α → Record β} {a : α} {c : β}
    {t u : List Char} (hx : Writes x a t) (hf : Appends (f a) c u) :
    Writes (x >>= f) c (t ++ u) := fun b m k hk => (hx b m k hk).bind (hf b _ _)

theorem Appends.bind {α β : Type} {x : Record α} {f : α → Record β} {a : α} {c : β}
    {t u : List Char} (hx : Appends x a t) (hf : Appends (f a) c u) :
    Appends (x >>= f) c (t ++ u) := fun b m k hk hm => (hx b m k hk hm).bind (hf b _ _)

/-- Two statements whose first yields nothing that the second uses. -/
theorem Appends.seq {α β : Type} {x : Record α} {y : Record β} {a : α} {c : β} {t u : List Char}
    (hx : Appends x a t) (hy : Appends y c u) : Appends (do let _ ← x; y) c (t ++ u) :=
  Appends.bind hx hy

/-- A block that writes nothing rewrites the NUL it starts at. -/
theorem appends_pure {α : Type} (a : α) : Appends (pure a : Record α) a [] := by
  intro b m k hk hm
  unfold RunsTo
  rw [List.length_nil, if_pos (by omega), List.nil_append, write_same hm]
  rfl

theorem writes_putfmt (fmt : String) (args : List Arg) :
    Writes (putfmt fmt args) () (format fmt.toList args) := by
  intro b m k hk
  unfold RunsTo
  rw [putfmt_apply hk]
  by_cases h : (format fmt.toList args).length < b.len - k
  · rw [if_pos h, if_pos (by omega), snprintf_fits m (b.str + k) h]
  -- too long: `snprintf` has written a part of the text, inside the block
  · rw [if_neg h, if_neg (by omega)]
    exact ⟨_, rfl, (sameOutside_snprintf m (b.str + k) (b.len - k) fmt args).mono
      (by omega) (by omega)⟩

/-- Another function that writes `t` into the room it is given. -/
theorem runsTo_recordCall {f : Nat → Nat → Mem → Mem × Nat} {t : List Char} {b : Block} {m : Mem}
    {k : Nat} (ht : k + t.length < b.len)
    (h : f (b.str + k) (b.len - k) m = (write m (b.str + k) (t ++ [nul]), t.length)) :
    RunsTo (recordCall f) () t b m k := by
  have h_add : t.length < b.len - k := by omega
  unfold RunsTo
  rw [if_pos ht, recordCall_apply (by omega), h, if_pos h_add]

/-- The usual shape of a record: a first `PUTFMT`, then the rest. -/
theorem Writes.putfmt_bind {fmt : String} {args : List Arg} {rest : Record Unit} {t u : List Char}
    (ht : format fmt.toList args = t) (h : Appends rest () u) :
    Writes (do putfmt fmt args; rest) () (t ++ u) :=
  ht ▸ (writes_putfmt fmt args).bind h

theorem Appends.putfmt_bind {β : Type} {fmt : String} {args : List Arg} {rest : Record β} {c : β}
    {t u : List Char} (ht : format fmt.toList args = t) (h : Appends rest c u) :
    Appends (do putfmt fmt args; rest) c (t ++ u) :=
  ht ▸ (writes_putfmt fmt args).appends.bind h

/-! ### Closing a block -/

/-- **A record is all or nothing**: it is written whole with a NUL behind it, or it is blanked;
outside its destination nothing changes. -/
theorem RunsTo.record_fits {body : Record Unit} {t : List Char} {str len : Nat} {m : Mem}
    (h : RunsTo body () t ⟨str, len⟩ m 0) (ht : t.length < len) :
    record str len body m = (write m str (t ++ [nul]), some t.length) := by
  unfold RunsTo at h
  simp only [Nat.zero_add, Nat.add_zero, if_pos ht] at h
  unfold record
  rw [h]

theorem RunsTo.record_full {body : Record Unit} {t : List Char} {str len : Nat} {m : Mem}
    (h : RunsTo body () t ⟨str, len⟩ m 0) (h_len : 0 < len) (ht : len ≤ t.length) :
    ∃ m', record str len body m = (m', none) ∧ m' str = nul ∧ SameOutside m m' str len := by
  unfold RunsTo at h
  simp only [Nat.zero_add, if_neg (Nat.not_lt.mpr ht)] at h
  obtain ⟨m', h_full, h_out⟩ := h
  refine ⟨write m' str [nul], ?_, ?_, h_out.trans (sameOutside_write m' str (by simp; omega))⟩
  · unfold record
    rw [h_full]
  · exact write_behind m' str [] nul

theorem RunsTo.recordFunction_fits {body : Record Unit} {t : List Char} {str len : Nat} {m : Mem}
    (h : RunsTo body () t ⟨str, len⟩ m 0) (ht : t.length < len) :
    recordFunction str len body m = (write m str (t ++ [nul]), t.length) := by
  unfold recordFunction
  rw [h.record_fits ht]

theorem Writes.recordFunction_fits {body : Record Unit} {t : List Char} (h : Writes body () t)
    (str : Nat) {len : Nat} (m : Mem) (ht : t.length < len) :
    recordFunction str len body m = (write m str (t ++ [nul]), t.length) := by
  have h_len : 0 < len := by omega
  exact (h ⟨str, len⟩ m 0 h_len).recordFunction_fits ht

/-! ### Filling a buffer -/

/-- A buffer of `l` characters at `s` was filled from position `k` on with the text `t`: the
position is now `n`, inside the buffer, a NUL stands there, and nothing changed outside the part
of the buffer behind `k`. -/
structure Filled (m : Mem) (s l k : Nat) (t : List Char) (m' : Mem) (n : Nat) : Prop where
  /-- The position counts the characters of the text. -/
  nread : n = k + t.length
  /-- There is room for the NUL. -/
  lt : n < l
  /-- The text is there. -/
  text : read m' (s + k) t.length = t
  /-- A NUL ends it. -/
  term : m' (s + n) = nul
  /-- Everything else is untouched. -/
  frame : SameOutside m m' (s + k) (l - k)

/-- Nothing written, the buffer blanked at the current position. -/
theorem Filled.blank {m m' : Mem} {s l k : Nat} (hk : k < l) (h_nul : m' (s + k) = nul)
    (h_out : SameOutside m m' (s + k) (l - k)) : Filled m s l k [] m' k :=
  ⟨rfl, hk, rfl, h_nul, h_out⟩

/-- A record of text `t` in front of what follows. -/
theorem Filled.append {m m' : Mem} {s l k n : Nat} {t u : List Char}
    (h : Filled (write m (s + k) (t ++ [nul])) s l (k + t.length) u m' n) :
    Filled m s l k (t ++ u) m' n := by
  have h_frame := h.frame
  rw [← Nat.add_assoc] at h_frame
  have h_n := h.nread
  have h_lt := h.lt
  refine ⟨?_, h.lt, ?_, h.term, ?_⟩
  · rw [List.length_append, h.nread, Nat.add_assoc]
  · have h_text := h.text
    rw [← Nat.add_assoc] at h_text
    rw [List.length_append, read_append, h_text]
    -- the later text starts behind `t`, so `t` itself is still there
    have h_read : read m' (s + k) t.length = read (write m (s + k) (t ++ [nul])) (s + k) t.length :=
      read_congr fun a _ ha => h_frame a (Or.inl (by omega))
    rw [h_read, read_write]
  · have h_len : (t ++ [nul]).length ≤ l - k := by
      simp only [List.length_append, List.length_singleton]
      omega
    exact (sameOutside_write m (s + k) h_len).trans
      (h_frame.mono (by omega) (by omega))

/-- The part of the buffer behind position `k`, seen as a buffer of its own. -/
theorem Filled.shift {m m' : Mem} {s l k n : Nat} {t : List Char}
    (h : Filled m (s + k) (l - k) 0 t m' n) : Filled m s l k t m' (k + n) := by
  have h_n := h.nread
  have h_lt := h.lt
  have h_term := h.term
  rw [Nat.add_assoc] at h_term
  exact ⟨by omega, by omega, h.text, h_term, h.frame⟩

/-- A later blank at the current position leaves the text alone. -/
theorem Filled.reblank {m m' m'' : Mem} {s l k n : Nat} {t : List Char}
    (h : Filled m s l k t m' n) (h_nul : m'' (s + n) = nul)
    (h_out : SameOutside m' m'' (s + n) (l - n)) : Filled m s l k t m'' n := by
  have h_n := h.nread
  have h_lt := h.lt
  refine ⟨h.nread, h.lt, ?_, h_nul, h.frame.trans (h_out.mono (by omega) (by omega))⟩
  -- the text lies before the position
  have h_read : read m'' (s + k) t.length = read m' (s + k) t.length :=
    read_congr fun a _ ha => h_out a (Or.inl (by omega))
  rw [h_read, h.text]

/-- The text a function left in its buffer. -/
theorem Filled.read_eq {m m' : Mem} {s l n : Nat} {t : List Char} (h : Filled m s l 0 t m' n) :
    read m' s n = t := by
  have h_text := h.text
  rwa [Nat.add_zero, ← Nat.zero_add t.length, ← h.nread] at h_text

end AirQuality
