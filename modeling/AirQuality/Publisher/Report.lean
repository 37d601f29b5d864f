import AirQuality.Framework.JsonRender
import AirQuality.Publisher.Pms5003
import AirQuality.Publisher.Record

/-!
# The sensor report (`report.c`)

`makereport` builds the payload that the publisher thread sends: a JSON array whose one element,
the `preamble`, carries the uptime in seconds and the six dust bins. Both functions are records,
one inside the other: `preamble` writes into what `makereport` has left of the buffer, less one
character that is held back for the closing bracket.

The text is described twice, as the formatter produces it (`preambleText`) and as a JSON object
(`preambleEntries`); `preambleText_eq` says the two agree, which makes the report the text of a
one-element array (`reportText_denotes`).
-/

namespace AirQuality

open CMem Printf Json

/-! ### The functions -/

/-- **`preamble`**: the memory afterwards and the number of characters written, 0 if they did not
fit. Its data are the microseconds of `xtimer_now_usec` and the values of the six getters. -/
def preamble (usec : UInt32) (db : DustBins) (buf len : Nat) (m : Mem) : Mem × Nat :=
  recordFunction buf len (putfmt
    "\x7b\"Sec\":%lu,\"DB0_3\":%-u,\"DB0_5\":%-u,\"DB1\":%-u,\"DB2_5\":%-u,\"DB5\":%-u,\"DB10\":%-u \x7d"
    [.long (usec / 1000000), .word db.db0_3, .word db.db0_5, .word db.db1, .word db.db2_5,
      .word db.db5, .word db.db10]) m

/-- **`makereport`**: the memory afterwards and the length of the report, 0 if it did not fit. -/
def makereport (usec : UInt32) (db : DustBins) (buffer len : Nat) (m : Mem) : Mem × Nat :=
  recordFunction buffer len (do
    putfmt "[" []
    recordCall fun p l => preamble usec db p (sizeSub l 1)  -- one held back for the last bracket
    putfmt "]" []) m

/-- The six arguments of the preamble, read at one moment. -/
def getBins (d : Pms) : DustBins where
  db0_3 := pms5003Db0_3 d
  db0_5 := pms5003Db0_5 d
  db1 := pms5003Db1 d
  db2_5 := pms5003Db2_5 d
  db5 := pms5003Db5 d
  db10 := pms5003Db10 d

/-! ### The text -/

/-- The text of the preamble. -/
def preambleText (usec : UInt32) (db : DustBins) : List Char :=
  "\x7b\"Sec\":".toList ++ (decimal (usec / 1000000).toNat ++
    (",\"DB0_3\":".toList ++ (decimal db.db0_3.toNat ++
    (",\"DB0_5\":".toList ++ (decimal db.db0_5.toNat ++
    (",\"DB1\":".toList ++ (decimal db.db1.toNat ++
    (",\"DB2_5\":".toList ++ (decimal db.db2_5.toNat ++
    (",\"DB5\":".toList ++ (decimal db.db5.toNat ++
    (",\"DB10\":".toList ++ (decimal db.db10.toNat ++ " \x7d".toList)))))))))))))

/-- The text of the whole report. -/
def reportText (usec : UInt32) (db : DustBins) : List Char :=
  ['['] ++ (preambleText usec db ++ [']'])

theorem writes_preamble (usec : UInt32) (db : DustBins) : Writes (putfmt
    "\x7b\"Sec\":%lu,\"DB0_3\":%-u,\"DB0_5\":%-u,\"DB1\":%-u,\"DB2_5\":%-u,\"DB5\":%-u,\"DB10\":%-u \x7d"
    [.long (usec / 1000000), .word db.db0_3, .word db.db0_5, .word db.db1, .word db.db2_5,
      .word db.db5, .word db.db10]) () (preambleText usec db) :=
  writes_putfmt _ _

theorem preamble_fits (usec : UInt32) (db : DustBins) (buf : Nat) {len : Nat} (m : Mem)
    (h : (preambleText usec db).length < len) : preamble usec db buf len m
      = (write m buf (preambleText usec db ++ [nul]), (preambleText usec db).length) :=
  (writes_preamble usec db).recordFunction_fits buf m h

/-- With room for the whole report, exactly the report is written, with a NUL behind it. -/
theorem makereport_fits (usec : UInt32) (db : DustBins) (buffer : Nat) {len : Nat} (m : Mem)
    (h : (reportText usec db).length < len) : makereport usec db buffer len m
      = (write m buffer (reportText usec db ++ [nul]), (reportText usec db).length) := by
  have h_len : (reportText usec db).length = (preambleText usec db).length + 2 := by
    simp [reportText]
  have h_run : RunsTo (do
      putfmt "[" []
      recordCall fun p l => preamble usec db p (sizeSub l 1)
      putfmt "]" []) () (reportText usec db) ⟨buffer, len⟩ m 0 := by
    refine RunsTo.bind (writes_putfmt "[" [] _ m 0 (by change 0 < len; omega)) fun _ _ => ?_
    refine RunsTo.bind (runsTo_recordCall ?_ ?_) fun h_room _ => ?_
    · show 0 + 1 + (preambleText usec db).length < len
      omega
    · -- the preamble has one character less than is left, and still fits
      show preamble usec db _ (sizeSub (len - 1) 1) _ = _
      rw [sizeSub_of_le (by omega)]
      exact preamble_fits usec db _ _ (by omega)
    · exact writes_putfmt "]" [] _ _ _ h_room
  exact h_run.recordFunction_fits h

/-! ### Buffers that are too short -/

/-- A preamble that does not fit leaves a NUL at its start, and returns 0; with no room at all the
NUL lies behind its buffer. -/
theorem preamble_full (usec : UInt32) (db : DustBins) (buf : Nat) {len : Nat} (m : Mem)
    (h : len ≤ (preambleText usec db).length) : ∃ m', preamble usec db buf len m = (m', 0) ∧
      m' buf = nul ∧ SameOutside m m' buf (max len 1) := by
  rcases Nat.eq_zero_or_pos len with rfl | h_len
  · -- `snprintf` stores nothing, the record is blanked all the same
    exact ⟨write m buf [nul], rfl, write_behind m buf [] nul, sameOutside_write m buf (by simp)⟩
  · have h_run := writes_preamble usec db ⟨buf, len⟩ m 0 h_len
    obtain ⟨m', h_full, h_nul, h_out⟩ := h_run.record_full h_len h
    refine ⟨m', ?_, h_nul, h_out.mono (by omega) (by omega)⟩
    unfold preamble recordFunction
    rw [h_full]

/-- The preamble does not fit, but its length of 0 is added all the same: the block goes on behind
the bracket that opens the array. -/
theorem makereport_without_preamble (usec : UInt32) (db : DustBins) (buffer : Nat) {len : Nat}
    (m : Mem) (h_len : 2 ≤ len) (h : len ≤ (reportText usec db).length) :
    ∃ m', m' buffer = '[' ∧
      (∀ m'' k, putfmt "]" [] ⟨buffer, len⟩ m' 1 = .next () m'' k →
        makereport usec db buffer len m = (m'', k)) ∧
      ∀ m'', putfmt "]" [] ⟨buffer, len⟩ m' 1 = .full m'' →
        makereport usec db buffer len m = (write m'' buffer [nul], 0) := by
  let m₁ := write m buffer (['['] ++ [nul])
  have h_text : (reportText usec db).length = (preambleText usec db).length + 2 := by
    simp [reportText]
  have h_open : putfmt "[" [] ⟨buffer, len⟩ m 0 = .next () m₁ 1 := by
    have h_run := writes_putfmt "[" [] ⟨buffer, len⟩ m 0 (by change 0 < len; omega)
    unfold RunsTo at h_run
    rwa [if_pos (by change 0 + 1 < len; omega)] at h_run
  -- one character less than is left
  obtain ⟨m', h_pre, h_nul, h_out⟩ := preamble_full usec db (buffer + 1) m₁
    (by omega : len - 1 - 1 ≤ (preambleText usec db).length)
  have h_call : recordCall (fun p l => preamble usec db p (sizeSub l 1)) ⟨buffer, len⟩ m₁ 1
      = .next () m' 1 := by
    have h_less : sizeSub (len - 1) 1 = len - 1 - 1 := sizeSub_of_le (by omega)
    rw [recordCall_apply (by change 1 < len; omega)]
    simp only [h_less, h_pre]
    rw [if_pos (by omega)]
  refine ⟨m', ?_, fun m'' k h_next => recordFunction_next ?_, fun m'' h_full =>
    recordFunction_full ?_⟩
  · rw [h_out buffer (Or.inl (by omega))]
    exact write_inside m buffer _ (i := 0) (by simp)
  · simp only [Record.bind_apply, h_open, h_call, h_next, Step.andThen_next]
  · simp only [Record.bind_apply, h_open, h_call, h_full, Step.andThen_next]

/-- With less than three characters the report is empty. -/
theorem makereport_short (usec : UInt32) (db : DustBins) (buffer : Nat) {len : Nat} (m : Mem)
    (h_pos : 0 < len) (h_len : len ≤ 2) :
    (makereport usec db buffer len m).2 = 0 ∧ (makereport usec db buffer len m).1 buffer = nul := by
  obtain rfl | rfl : len = 1 ∨ len = 2 := by omega
  · -- no room for the first bracket
    obtain ⟨m', h_full, -⟩ : ∃ m', putfmt "[" [] ⟨buffer, 1⟩ m 0 = .full m' ∧ _ :=
      writes_putfmt "[" [] ⟨buffer, 1⟩ m 0 Nat.one_pos
    unfold makereport
    rw [recordFunction_full (by rw [Record.bind_apply, h_full, Step.andThen_full])]
    exact ⟨rfl, write_behind m' buffer [] nul⟩
  · -- no room for the last bracket
    obtain ⟨m', -, -, h_rest⟩ := makereport_without_preamble usec db buffer m (Nat.le_refl 2)
      (by simp [reportText])
    obtain ⟨m'', h_full, -⟩ : ∃ m'', putfmt "]" [] ⟨buffer, 2⟩ m' 1 = .full m'' ∧ _ :=
      writes_putfmt "]" [] ⟨buffer, 2⟩ m' 1 Nat.one_lt_two
    rw [h_rest m'' h_full]
    exact ⟨rfl, write_behind m'' buffer [] nul⟩

/-- **In between, an array without its record.** From three characters on, up to the length of the
report, the two brackets are written. -/
theorem makereport_between (usec : UInt32) (db : DustBins) (buffer : Nat) {len : Nat} (m : Mem)
    (h_len : 3 ≤ len) (h : len ≤ (reportText usec db).length) :
    (makereport usec db buffer len m).2 = 2 ∧
      read (makereport usec db buffer len m).1 buffer 2 = ['[', ']'] := by
  obtain ⟨m', h_open, h_rest, -⟩ := makereport_without_preamble usec db buffer m (by omega) h
  -- the last bracket fits behind the first
  have h_next : putfmt "]" [] ⟨buffer, len⟩ m' 1
      = .next () (write m' (buffer + 1) ([']'] ++ [nul])) 2 := by
    have h_run := writes_putfmt "]" [] ⟨buffer, len⟩ m' 1 (by change 1 < len; omega)
    unfold RunsTo at h_run
    rwa [if_pos (by change 1 + 1 < len; omega)] at h_run
  have h_first : read (write m' (buffer + 1) ([']'] ++ [nul])) buffer 1 = ['['] := by
    show [write m' (buffer + 1) _ buffer] = ['[']
    rw [write_of_lt _ _ (by omega), h_open]
  have h_second : read (write m' (buffer + 1) ([']'] ++ [nul])) (buffer + 1) 1 = [']'] :=
    read_write m' (buffer + 1) [']'] [nul]
  rw [h_rest _ _ h_next]
  refine ⟨rfl, ?_⟩
  show read (write m' (buffer + 1) ([']'] ++ [nul])) buffer (1 + 1) = ['[', ']']
  rw [read_append, h_first, h_second]
  rfl

/-! ### Its length -/

theorem length_decimal_uint16 (x : UInt16) : (decimal x.toNat).length ≤ 5 :=
  length_decimal_le (by decide) (by have := x.toNat_lt; omega)

theorem length_decimal_sec (usec : UInt32) : (decimal (usec / 1000000).toNat).length ≤ 4 := by
  refine length_decimal_le (by decide) ?_
  have h := usec.toNat_lt
  rw [UInt32.toNat_div]
  show usec.toNat / 1000000 < 10 ^ 4
  omega

/-- **The longest report has 94 characters.** -/
theorem length_reportText_le (usec : UInt32) (db : DustBins) :
    (reportText usec db).length ≤ 94 := by
  have h_sec := length_decimal_sec usec
  have h₁ := length_decimal_uint16 db.db0_3
  have h₂ := length_decimal_uint16 db.db0_5
  have h₃ := length_decimal_uint16 db.db1
  have h₄ := length_decimal_uint16 db.db2_5
  have h₅ := length_decimal_uint16 db.db5
  have h₆ := length_decimal_uint16 db.db10
  unfold reportText preambleText
  -- the quotient of literals would send the simplifier into arithmetic
  generalize decimal (usec / 1000000).toNat = sec at h_sec ⊢
  simp only [List.length_append, List.length_singleton]
  simp
  omega

/-! ### Its meaning -/

/-- A member of the preamble: a key, a number, and the blanks behind it. -/
def preambleEntry (key : List Char) (n : Nat) (post : List Char)
    (h_key : Plain key) (h_post : Ws post) : Entry :=
  ⟨[], key, decimal n, .int n, post, Ws.nil, h_key, h_post, denotes_decimal n⟩

/-- The members of the preamble. There is a blank behind the last one. -/
def preambleEntries (usec : UInt32) (db : DustBins) : List Entry := [
  preambleEntry "Sec".toList (usec / 1000000).toNat [] (by decide) Ws.nil,
  preambleEntry "DB0_3".toList db.db0_3.toNat [] (by decide) Ws.nil,
  preambleEntry "DB0_5".toList db.db0_5.toNat [] (by decide) Ws.nil,
  preambleEntry "DB1".toList db.db1.toNat [] (by decide) Ws.nil,
  preambleEntry "DB2_5".toList db.db2_5.toNat [] (by decide) Ws.nil,
  preambleEntry "DB5".toList db.db5.toNat [] (by decide) Ws.nil,
  preambleEntry "DB10".toList db.db10.toNat [' '] (by decide) (Ws.cons rfl Ws.nil)]

/-- The value of the preamble. -/
def preambleValue (usec : UInt32) (db : DustBins) : Value :=
  .obj ((preambleEntries usec db).map fun e => (e.key, e.value))

theorem preambleText_eq (usec : UInt32) (db : DustBins) : preambleText usec db
    = '\x7b' :: (joinComma ((preambleEntries usec db).map Entry.chars) ++ ['\x7d']) := by
  simp only [preambleEntries, preambleEntry, List.map_cons, List.map_nil, Entry.chars, joinComma,
    List.nil_append, List.append_nil, List.append_assoc, List.cons_append]
  rfl

theorem preambleText_denotes (usec : UInt32) (db : DustBins) :
    Denotes (preambleText usec db) (preambleValue usec db) := by
  rw [preambleText_eq]
  exact denotes_obj (by simp [preambleEntries])

/-- **The report is a JSON array of one object**: the preamble. -/
theorem reportText_denotes (usec : UInt32) (db : DustBins) :
    Text (reportText usec db) (.arr [preambleValue usec db]) := by
  have h := denotes_arr [()] (fun _ => preambleText usec db) (fun _ => preambleValue usec db)
    fun _ _ => preambleText_denotes usec db
  exact h.text

end AirQuality
