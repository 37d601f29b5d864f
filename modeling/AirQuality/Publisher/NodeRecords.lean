import AirQuality.Publisher.MqttsnReport
import AirQuality.Publisher.RecordSteps
import AirQuality.Publisher.Report
import AirQuality.Publisher.Rpl

/-!
# The records of the node

A function that writes a record, and a case of a report generator that does, commit the draft of
its steps or abort (`recordFunction_steps`, `caseRecord_steps`). The records of the node are
sequences of steps, loops and separators included: `IsSteps` says so of a block, and is closed
under sequencing.

Where a block is known to write a certain text (`Writes`), this is the text of its draft
(`Writes.drafted`). Not so for `makereport`, whose text depends on the room that the preamble
finds. It is a sequence of steps all the same, and stays inside its buffer (`makereport_inside`).
-/

namespace AirQuality

open CMem Printf Machine

/-! ### Functions and cases -/

section

variable {State : Type} {str len s l nread : Nat} {m : Mem}

/-- A function that is a record starts with `nread = 0`, and returns `nread` at both ends. -/
theorem recordFunction_eq (str len : Nat) (body : Record Unit) (m : Mem) :
    recordFunction str len body m = match recordEnd str len 0 body m with
      | (m, .goesOn n) => (m, n)
      | (m, .returns n) => (m, n) := by
  unfold recordFunction recordEnd
  cases record str len body m with
  | mk m' n =>
    cases n with
    | none => rfl
    | some n =>
      show (m', n) = (m', 0 + n)
      rw [Nat.zero_add]

/-- A case of a report generator goes on behind the record, or returns from the generator. -/
theorem caseRecord_eq (s l : Nat) (st : State) (body : Record Unit)
    (next : Nat → Mem → State × Ret) (nread : Nat) (m : Mem) :
    caseRecord s l st body next nread m
      = match recordEnd (s + nread) (sizeSub l nread) nread body m with
        | (m, .goesOn n) => next n m
        | (m, .returns n) => (st, ⟨m, n, false⟩) := by
  unfold caseRecord recordEnd
  cases record (s + nread) (sizeSub l nread) body m with
  | mk m' n => cases n <;> rfl

/-- **A function commits its record or aborts it.** -/
theorem recordFunction_steps (h_len : 1 ≤ len) (steps : List RecordStep) (m : Mem) :
    ((drafted str len m steps).Fits len → recordFunction str len (recordSteps steps) m
        = ((drafted str len m steps).mem, (drafted str len m steps).text.length)) ∧
      (¬ (drafted str len m steps).Fits len →
        ∃ m', recordFunction str len (recordSteps steps) m = (m', 0) ∧ m' str = nul ∧
          SameOutside m m' str len) := by
  constructor
  · intro h
    rw [recordFunction_eq, recordEnd_of_fits 0 h_len h, Nat.zero_add]
  · intro h
    obtain ⟨m', pre, st, post, h_nul, h_frame, h_split, -, -, h_end⟩ :=
      recordEnd_of_not_fits 0 h_len h
    refine ⟨m', ?_, h_nul, h_frame⟩
    rw [recordFunction_eq, h_split, h_end post]

/-- **So does a case of a report generator.** It goes on behind the record, or the generator
returns, in the same static state and with the `nread` that it had. -/
theorem caseRecord_steps (h_nread : nread < l) (st : State) (steps : List RecordStep)
    (next : Nat → Mem → State × Ret) (m : Mem) :
    ((drafted (s + nread) (l - nread) m steps).Fits (l - nread) →
        caseRecord s l st (recordSteps steps) next nread m
          = next (nread + (drafted (s + nread) (l - nread) m steps).text.length)
              (drafted (s + nread) (l - nread) m steps).mem) ∧
      (¬ (drafted (s + nread) (l - nread) m steps).Fits (l - nread) →
        ∃ m', caseRecord s l st (recordSteps steps) next nread m = (st, ⟨m', nread, false⟩) ∧
          m' (s + nread) = nul ∧ SameOutside m m' (s + nread) (l - nread)) := by
  have h_room : sizeSub l nread = l - nread := sizeSub_of_le (by omega)
  have h_len : 1 ≤ l - nread := by omega
  constructor
  · intro h
    rw [caseRecord_eq, h_room, recordEnd_of_fits nread h_len h]
  · intro h
    obtain ⟨m', pre, step, post, h_nul, h_frame, h_split, -, -, h_end⟩ :=
      recordEnd_of_not_fits nread h_len h
    refine ⟨m', ?_, h_nul, h_frame⟩
    rw [caseRecord_eq, h_room, h_split, h_end post]

/-- **The two descriptions of a block agree.** The draft of a block that writes the text `t` fits
if and only if `t` does, and then it is `t`. -/
theorem Writes.drafted {steps : List RecordStep} {t : List Char}
    (h : Writes (recordSteps steps) () t) (str : Nat) (h_len : 1 ≤ len) (m : Mem) :
    ((drafted str len m steps).Fits len ↔ t.length < len) ∧
      (t.length < len → AirQuality.drafted str len m steps = ⟨write m str (t ++ [nul]), t⟩) := by
  have h_run := h ⟨str, len⟩ m 0 h_len
  by_cases ht : t.length < len
  · have h_record : recordEnd str len 0 (recordSteps steps) m
        = (write m str (t ++ [nul]), .goesOn (0 + t.length)) := by
      unfold recordEnd
      rw [h_run.record_fits ht]
    by_cases h_fits : (AirQuality.drafted str len m steps).Fits len
    · have h_text := (drafted_sound h_len h_fits).text h_fits
      rw [recordEnd_of_fits 0 h_len h_fits, Prod.mk.injEq, RecordExit.goesOn.injEq] at h_record
      obtain ⟨h_mem, h_length⟩ := h_record
      rw [Nat.add_left_cancel h_length, h_mem, read_write] at h_text
      exact ⟨iff_of_true h_fits ht, fun _ => by rw [← h_mem, h_text]⟩
    · -- a draft that does not fit would have been aborted
      obtain ⟨m', pre, st, post, -, -, h_split, -, -, h_end⟩ := recordEnd_of_not_fits 0 h_len h_fits
      rw [h_split, h_end post] at h_record
      exact absurd (Prod.mk.inj h_record).2 RecordExit.noConfusion
  · refine ⟨iff_of_false (fun h_fits => ?_) ht, fun h_lt => absurd h_lt ht⟩
    obtain ⟨m', h_full, -⟩ := h_run.record_full h_len (Nat.not_lt.mp ht)
    have h_record : recordEnd str len 0 (recordSteps steps) m = (m', .returns 0) := by
      unfold recordEnd
      rw [h_full]
    rw [recordEnd_of_fits 0 h_len h_fits] at h_record
    exact absurd (Prod.mk.inj h_record).2 RecordExit.noConfusion

end

/-! ### Blocks that are sequences of steps -/

/-- The laws of the block: a statement that leaves it at `_full` leaves what follows alone. -/
instance : LawfulMonad Record := LawfulMonad.mk' Record
  (by
    intro α x
    funext b m k
    show (x b m k).andThen (fun a m k => .next a m k) = x b m k
    cases x b m k <;> rfl)
  (by
    intro α β a f
    rfl)
  (by
    intro α β γ x f g
    funext b m k
    show ((x b m k).andThen _).andThen _ = (x b m k).andThen _
    cases x b m k <;> rfl)

/-- The block is a sequence of steps, and yields `a` at its end. -/
def IsSteps {α : Type} (body : Record α) (a : α) : Prop :=
  ∃ steps, body = (do recordSteps steps; pure a)

theorem recordSteps_append (pre post : List RecordStep) :
    recordSteps (pre ++ post) = (do recordSteps pre; recordSteps post) := by
  induction pre with
  | nil => rfl
  | cons st pre ih =>
    show (do st.body; recordSteps (pre ++ post))
      = (do (do st.body; recordSteps pre); recordSteps post)
    rw [ih, bind_assoc]

theorem isSteps_pure {α : Type} (a : α) : IsSteps (pure a) a := ⟨[], rfl⟩

theorem isSteps_body (st : RecordStep) : IsSteps st.body () := by
  refine ⟨[st], ?_⟩
  show st.body = (do (do st.body; pure ()); pure ())
  simp only [bind_pure_unit]

theorem isSteps_putfmt (fmt : String) (args : List Arg) : IsSteps (putfmt fmt args) () :=
  isSteps_body (.put fmt args)

theorem IsSteps.bind {α β : Type} {x : Record α} {f : α → Record β} {a : α} {c : β}
    (hx : IsSteps x a) (hf : IsSteps (f a) c) : IsSteps (x >>= f) c := by
  obtain ⟨pre, rfl⟩ := hx
  obtain ⟨post, h_post⟩ := hf
  refine ⟨pre ++ post, ?_⟩
  calc (do let a ← (do recordSteps pre; pure a); f a)
      = (do recordSteps pre; f a) := by simp only [bind_assoc, pure_bind]
    _ = (do recordSteps pre; recordSteps post; pure c) := by rw [h_post]
    _ = (do recordSteps (pre ++ post); pure c) := by rw [recordSteps_append, bind_assoc]

/-- Two statements whose first yields nothing that the second uses. -/
theorem IsSteps.seq {α β : Type} {x : Record α} {y : Record β} {a : α} {c : β}
    (hx : IsSteps x a) (hy : IsSteps y c) : IsSteps (do let _ ← x; y) c := hx.bind hy

/-- A block that yields nothing is its steps. -/
theorem IsSteps.eq_recordSteps {body : Record Unit} (h : IsSteps body ()) :
    ∃ steps, body = recordSteps steps := by
  obtain ⟨steps, h_steps⟩ := h
  exact ⟨steps, by rw [h_steps, bind_pure_unit]⟩

/-! ### The records of the reports -/

theorem isSteps_okFail (head : String) (ok fail : UInt16) :
    IsSteps (okFailRecord head ok fail) () := by
  apply (isSteps_putfmt _ _).seq
  apply (isSteps_putfmt _ _).seq
  apply (isSteps_putfmt _ _).seq
  exact isSteps_putfmt _ _

theorem isSteps_counters (head : String) (c : RplCounters) :
    IsSteps (countersRecord head c) () := by
  apply (isSteps_putfmt _ _).seq
  apply (isSteps_putfmt _ _).seq
  apply (isSteps_putfmt _ _).seq
  apply (isSteps_putfmt _ _).seq
  apply (isSteps_putfmt _ _).seq
  exact isSteps_putfmt _ _

theorem isSteps_separator (first : Bool) : IsSteps (separator first) false := by
  cases first with
  | true => exact isSteps_pure false
  | false => exact (isSteps_putfmt "," []).seq (isSteps_pure false)

theorem isSteps_forActive {body : RplInstance → Record Unit} (h : ∀ i, IsSteps (body i) ())
    (slots : List RplInstance) : IsSteps (forActive body slots) () := by
  induction slots with
  | nil => exact isSteps_pure ()
  | cons slot slots ih =>
    unfold forActive
    cases slot.active with
    -- a slot that is not in use is passed over
    | false => exact (isSteps_pure ()).seq ih
    | true => exact ((isSteps_separator true).seq (h slot)).seq ih

/-- A record over the table. -/
theorem isSteps_section (head : String) {body : RplInstance → Record Unit}
    (h : ∀ i, IsSteps (body i) ()) (table : RplTable) :
    IsSteps (sectionRecord head (forActive body table.slots)) () := by
  apply (isSteps_putfmt head []).seq
  exact (isSteps_forActive h table.slots).seq (isSteps_putfmt "]\x7d" [])

theorem isSteps_parentsLoop (ipv6AddrToStr : Ipv6Addr → List Char) (d : RplDodag) (first : Bool)
    (ps : List RplParent) : IsSteps (parentsLoop ipv6AddrToStr d first ps) () := by
  -- the flag stays general, it is cleared behind the first parent
  induction ps generalizing first with
  | nil => exact isSteps_pure ()
  | cons p ps ih =>
    have h_element : IsSteps (parentElement ipv6AddrToStr d p) () :=
      (isSteps_putfmt _ _).seq (isSteps_putfmt _ _)
    exact (isSteps_separator first).bind (h_element.seq (ih false))

/-- The block is a sequence of steps whose draft fits a record if and only if the text `t` does, and
is `t` there. -/
def Drafts (body : Record Unit) (t : List Char) : Prop :=
  ∃ steps, body = recordSteps steps ∧ ∀ str len m, 1 ≤ len →
    ((drafted str len m steps).Fits len ↔ t.length < len) ∧
      (t.length < len → drafted str len m steps = ⟨write m str (t ++ [nul]), t⟩)

theorem IsSteps.drafts {body : Record Unit} {t : List Char} (h : IsSteps body ())
    (h_text : Writes body () t) : Drafts body t := by
  obtain ⟨steps, rfl⟩ := h.eq_recordSteps
  exact ⟨steps, rfl, fun str len m h_len => h_text.drafted str h_len m⟩

/-- A record that is a single `PUTFMT`. -/
theorem drafts_putfmt (fmt : String) (args : List Arg) :
    Drafts (putfmt fmt args) (format fmt.toList args) :=
  (isSteps_putfmt fmt args).drafts (writes_putfmt fmt args)

/-- The records of the MQTT-SN statistics. -/
theorem drafts_okFail (head : String) (ok fail : UInt16) :
    Drafts (okFailRecord head ok fail) (okFailText head ok fail) :=
  (isSteps_okFail head ok fail).drafts (writes_okFail head ok fail)

/-- The records of the RPL statistics. -/
theorem drafts_counters (head : String) (c : RplCounters) :
    Drafts (countersRecord head c) (countersText head c) :=
  (isSteps_counters head c).drafts (writes_counters head c)

/-- The records of the RPL table. -/
theorem drafts_instances (table : RplTable) :
    Drafts (sectionRecord ",\x7b\"n\":\"rpl;inst\",\"vj\":["
      (forActive instanceElement table.slots)) (instancesText table) := by
  have h : ∀ i, IsSteps (instanceElement i) () := fun _ => isSteps_putfmt _ _
  exact (isSteps_section _ h table).drafts (writes_instances table)

theorem drafts_dags (table : RplTable) :
    Drafts (sectionRecord ",\x7b\"n\":\"rpl;dag\",\"vj\":["
      (forActive dagElement table.slots)) (dagsText table) := by
  have h : ∀ i, IsSteps (dagElement i) () := fun _ => isSteps_putfmt _ _
  exact (isSteps_section _ h table).drafts (writes_dags table)

theorem drafts_parents (ipv6AddrToStr : Ipv6Addr → List Char) (table : RplTable) :
    Drafts (sectionRecord ",\x7b\"n\":\"rpl;parents\",\"vj\":["
      (forActive (parentElements ipv6AddrToStr) table.slots)) (parentsText ipv6AddrToStr table) := by
  have h : ∀ i, IsSteps (parentElements ipv6AddrToStr i) () := fun i =>
    isSteps_parentsLoop ipv6AddrToStr i.dodag true i.dodag.parents
  exact (isSteps_section _ h table).drafts (writes_parents ipv6AddrToStr table)

/-! ### The sensor report -/

/-- The preamble as `makereport` calls it, with one character held back. -/
def preambleWriter (usec : UInt32) (db : DustBins) : Writer where
  call p room := preamble usec db p (sizeSub room 1)
  frame := by
    intro p room m h_room
    rw [sizeSub_of_le h_room]
    by_cases h : (preambleText usec db).length < room - 1
    · rw [preamble_fits usec db p m h]
      exact sameOutside_write m p (by simp; omega)
    · -- blanked at its start, which is inside the room even when all of it is held back
      obtain ⟨m', h_full, -, h_out⟩ := preamble_full usec db p m (Nat.not_lt.mp h)
      rw [h_full]
      exact h_out.mono (Nat.le_refl p) (by omega)

/-- The steps of `makereport`. -/
def makereportSteps (usec : UInt32) (db : DustBins) : List RecordStep :=
  [.put "[" [], .add (preambleWriter usec db), .put "]" []]

theorem makereport_eq (usec : UInt32) (db : DustBins) (buffer len : Nat) (m : Mem) :
    makereport usec db buffer len m
      = recordFunction buffer len (recordSteps (makereportSteps usec db)) m := by
  unfold makereport makereportSteps recordSteps recordSteps recordSteps recordSteps
  simp only [bind_pure_unit]
  rfl

/-- **`makereport` stays inside its buffer**, whether the preamble finds room or not. -/
theorem makereport_inside (usec : UInt32) (db : DustBins) (buffer : Nat) {len : Nat}
    (h_len : 1 ≤ len) (m : Mem) :
    (makereport usec db buffer len m).2 < len ∧
      SameOutside m (makereport usec db buffer len m).1 buffer len := by
  obtain ⟨h_commit, h_abort⟩ :=
    @recordFunction_steps buffer len h_len (makereportSteps usec db) m
  rw [makereport_eq]
  by_cases h : (drafted buffer len m (makereportSteps usec db)).Fits len
  · rw [h_commit h]
    exact ⟨h, (drafted_sound h_len h).frame⟩
  · obtain ⟨m', h_full, -, h_frame⟩ := h_abort h
    rw [h_full]
    exact ⟨h_len, h_frame⟩

end AirQuality
