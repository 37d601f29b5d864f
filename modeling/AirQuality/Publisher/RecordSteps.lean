import AirQuality.Framework.Machine
import AirQuality.Publisher.Record

/-!
# A record is a transaction (`report.h`)

The statements between `RECORD_START` and `RECORD_END` come down to a sequence of steps: a
`PUTFMT`, or a call of another function followed by `RECORD_ADD` of what it returned. What the
steps put, one after the other and whether there is room for it or not, is a `Draft`.

The block does what the draft says as long as the text fits (`recordSteps_eq`), and is left at the
first step that does not. So a record is committed with the whole text of its steps, or aborted as
if nothing had been written (`record_transaction`).
-/

namespace AirQuality

open CMem Printf Machine

/-! ### Steps -/

/-- A function outside the record. It is given a write position and the room that is left there,
writes nothing outside that room if there is any, and returns the number of characters to add. -/
structure Writer where
  call : Nat → Nat → Mem → Mem × Nat
  frame : ∀ p room m, 0 < room → SameOutside m (call p room m).1 p room

/-- A step of a record: `PUTFMT(fmt, args)`, or `n = f(RECORD_STR(), RECORD_LEN());
RECORD_ADD(n);`. -/
inductive RecordStep where
  | put (fmt : String) (args : List Arg)
  | add (f : Writer)

/-- The statements of a step. -/
def RecordStep.body : RecordStep → Record Unit
  | .put fmt args => putfmt fmt args
  | .add f => recordCall f.call

/-- The statements of a sequence of steps. -/
def recordSteps : List RecordStep → Record Unit
  | [] => pure ()
  | st :: sts => do
    st.body
    recordSteps sts

/-- How control leaves a record: at `_notfull`, with `nread` afterwards, or at `_full`, by a return
of the enclosing function. -/
inductive RecordExit where
  | goesOn (nread : Nat)
  | returns (value : Nat)
  deriving DecidableEq

/-- `RECORD_START(str, len); body; RECORD_END(nread);` -/
def recordEnd (str len nread : Nat) (body : Record Unit) (m : Mem) : Mem × RecordExit :=
  match record str len body m with
  | (m, some n) => (m, .goesOn (nread + n))
  | (m, none) => (m, .returns nread)

/-! ### Drafts -/

/-- A record in the making: the memory, and the text so far. -/
structure Draft where
  mem : Mem
  text : List Char

/-- What a step puts behind the text so far, whether there is room for it or not. -/
def Draft.put (str len : Nat) (d : Draft) : RecordStep → Draft
  | .put fmt args =>
    ⟨(snprintf d.mem (str + d.text.length) (len - d.text.length) fmt args).1,
      d.text ++ format fmt.toList args⟩
  | .add f =>
    let r := f.call (str + d.text.length) (len - d.text.length) d.mem
    ⟨r.1, d.text ++ read r.1 (str + d.text.length) r.2⟩

/-- The draft that a sequence of steps makes. -/
def drafted (str len : Nat) (m : Mem) (steps : List RecordStep) : Draft :=
  run (Draft.put str len) ⟨m, []⟩ steps

/-- The text and its NUL fit into `len` characters. -/
def Draft.Fits (len : Nat) (d : Draft) : Prop := d.text.length < len

instance (len : Nat) : DecidablePred (Draft.Fits len) := fun d =>
  inferInstanceAs (Decidable (d.text.length < len))

section

variable {str len : Nat} {d : Draft}

/-- A text never gets shorter. -/
theorem Draft.fits_of_put (d : Draft) (st : RecordStep) (h : (d.put str len st).Fits len) :
    d.Fits len := by
  unfold Draft.Fits at h ⊢
  cases st with
  | put fmt args =>
    have h_len : (d.put str len (.put fmt args)).text.length
        = d.text.length + (format fmt.toList args).length := List.length_append
    omega
  | add f =>
    have h_len : (d.put str len (.add f)).text.length = d.text.length + _ := List.length_append
    omega

/-- **One step of the block**, from a draft that fits: it does what the draft does, and is left at
`_full` if that does not fit any more. -/
theorem RecordStep.body_eq (h : d.Fits len) (st : RecordStep) :
    st.body ⟨str, len⟩ d.mem d.text.length
      = if (d.put str len st).Fits len then
          .next () (d.put str len st).mem (d.put str len st).text.length
        else .full (d.put str len st).mem := by
  unfold Draft.Fits at h
  cases st with
  | put fmt args =>
    have h_len : (d.put str len (.put fmt args)).text.length
        = d.text.length + (format fmt.toList args).length := List.length_append
    -- the source compares with the room that is left, the draft with the whole record
    have h_fits : (d.put str len (.put fmt args)).Fits len ↔
        (format fmt.toList args).length < len - d.text.length := by
      unfold Draft.Fits
      omega
    simp only [h_fits, h_len]
    exact putfmt_apply h fmt args d.mem
  | add f =>
    have h_len : (d.put str len (.add f)).text.length = d.text.length
        + (f.call (str + d.text.length) (len - d.text.length) d.mem).2 := by
      show (d.text ++ read _ _ _).length = _
      rw [List.length_append, length_read]
    have h_fits : (d.put str len (.add f)).Fits len ↔
        (f.call (str + d.text.length) (len - d.text.length) d.mem).2 < len - d.text.length := by
      unfold Draft.Fits
      omega
    simp only [h_fits, h_len]
    exact recordCall_apply h f.call d.mem

/-! ### Sequences of steps -/

/-- How a block is left, by the last draft and whether the steps went to their end. -/
def Draft.leave (r : Draft × Bool) : Step Unit :=
  if r.2 = true then .next () r.1.mem r.1.text.length else .full r.1.mem

/-- **The block makes the draft as long as it fits.** -/
theorem recordSteps_eq (h : d.Fits len) (steps : List RecordStep) :
    recordSteps steps ⟨str, len⟩ d.mem d.text.length
      = Draft.leave (runWhile (Draft.Fits len) (Draft.put str len) d steps) := by
  induction steps generalizing d with
  | nil => rfl
  | cons st sts ih =>
    show (st.body ⟨str, len⟩ d.mem d.text.length).andThen (fun _ m k => recordSteps sts _ m k) = _
    rw [RecordStep.body_eq h]
    by_cases h_next : (d.put str len st).Fits len
    · rw [if_pos h_next, Step.andThen_next, runWhile_cons_of_pos h_next]
      exact ih h_next
    · rw [if_neg h_next, Step.andThen_full, runWhile_cons_of_neg h_next]
      rfl

/-- A step writes behind the text so far, and inside the buffer. -/
theorem Draft.put_frame (h : d.Fits len) (st : RecordStep) :
    SameOutside d.mem (d.put str len st).mem (str + d.text.length) (len - d.text.length) := by
  unfold Draft.Fits at h
  cases st with
  | put fmt args => exact sameOutside_snprintf d.mem _ _ fmt args
  | add f => exact f.frame _ _ d.mem (by omega)

/-- The piece that a step adds stands behind the text so far, if it fits. -/
theorem Draft.put_piece (str len : Nat) (d : Draft) (st : RecordStep) :
    ∃ t, (d.put str len st).text = d.text ++ t ∧ ((d.put str len st).Fits len →
      read (d.put str len st).mem (str + d.text.length) t.length = t) := by
  cases st with
  | put fmt args =>
    refine ⟨format fmt.toList args, rfl, fun h => ?_⟩
    have h_room : (format fmt.toList args).length < len - d.text.length := by
      have h_lt : (d.text ++ format fmt.toList args).length < len := h
      rw [List.length_append] at h_lt
      omega
    show read (snprintf d.mem _ _ fmt args).1 _ _ = _
    rw [snprintf_fits d.mem _ h_room]
    exact read_write d.mem _ _ [nul]
  | add f =>
    refine ⟨_, rfl, fun _ => ?_⟩
    rw [length_read]
    rfl

/-- Nothing was written outside the buffer, and the text is in it if it fits. -/
structure Draft.Sound (str len : Nat) (m : Mem) (d : Draft) : Prop where
  frame : SameOutside m d.mem str len
  text : d.Fits len → read d.mem str d.text.length = d.text

theorem Draft.Sound.put {m : Mem} (h_fits : d.Fits len) (h : d.Sound str len m)
    (st : RecordStep) : (d.put str len st).Sound str len m := by
  have h_lt : d.text.length < len := h_fits
  have h_frame : SameOutside d.mem (d.put str len st).mem (str + d.text.length)
      (len - d.text.length) := Draft.put_frame h_fits st
  constructor
  case frame => exact h.frame.trans (h_frame.mono (by omega) (by omega))
  case text =>
    intro h_next
    obtain ⟨t, h_text, h_piece⟩ := Draft.put_piece str len d st
    -- the step leaves the text so far alone
    have h_before : read (d.put str len st).mem str d.text.length = d.text := by
      rw [read_congr fun a _ ha => h_frame a (Or.inl ha)]
      exact h.text h_fits
    rw [h_text, List.length_append, read_append, h_before, h_piece h_next]

end

/-! ### Transactions -/

section

variable {str len : Nat} (nread : Nat) {m : Mem} {steps : List RecordStep}

/-- A record starts with an empty text. -/
theorem fits_nil (h_len : 1 ≤ len) (m : Mem) : (⟨m, []⟩ : Draft).Fits len := h_len

theorem drafted_concat (str len : Nat) (m : Mem) (steps : List RecordStep) (st : RecordStep) :
    drafted str len m (steps ++ [st]) = (drafted str len m steps).put str len st :=
  run_concat steps st

/-- A draft that fits is sound. -/
theorem drafted_sound (h_len : 1 ≤ len) (h : (drafted str len m steps).Fits len) :
    (drafted str len m steps).Sound str len m := by
  have h_sound := runWhile_invariant (Q := Draft.Sound str len m)
    (fun _ st h_fits h_sound => h_sound.put h_fits st) (fits_nil h_len m)
    ⟨SameOutside.refl m str len, fun _ => rfl⟩ steps
  rw [runWhile_of_pos Draft.fits_of_put h] at h_sound
  exact h_sound

/-- With room for its text, a record is what its steps made. -/
theorem recordEnd_of_fits (h_len : 1 ≤ len) (h : (drafted str len m steps).Fits len) :
    recordEnd str len nread (recordSteps steps) m = ((drafted str len m steps).mem,
      .goesOn (nread + (drafted str len m steps).text.length)) := by
  have h_run := @recordSteps_eq str len ⟨m, []⟩ (fits_nil h_len m) steps
  rw [runWhile_of_pos Draft.fits_of_put h] at h_run
  have h_body : recordSteps steps ⟨str, len⟩ m 0
      = .next () (drafted str len m steps).mem (drafted str len m steps).text.length := h_run
  unfold recordEnd record
  rw [h_body]

/-- Without it, the record is blanked at the first step that does not fit, whatever steps follow,
and only the record was written. -/
theorem recordEnd_of_not_fits (h_len : 1 ≤ len) (h : ¬ (drafted str len m steps).Fits len) :
    ∃ m' pre st post, m' str = nul ∧ SameOutside m m' str len ∧ steps = pre ++ st :: post ∧
      (drafted str len m pre).Fits len ∧ ¬ (drafted str len m (pre ++ [st])).Fits len ∧
      ∀ post', recordEnd str len nread (recordSteps (pre ++ st :: post')) m
        = (m', .returns nread) := by
  obtain ⟨pre, st, post, h_split, h_pre, h_st, h_while⟩ := runWhile_of_neg (fits_nil h_len m) h
  refine ⟨write (drafted str len m (pre ++ [st])).mem str [nul], pre, st, post, ?_, ?_, h_split,
    h_pre, h_st, fun post' => ?_⟩
  · exact write_behind _ str [] nul
  · -- the steps before it fit, and it starts behind them
    have h_frame : SameOutside m (drafted str len m (pre ++ [st])).mem str len := by
      rw [drafted_concat]
      exact ((drafted_sound h_len h_pre).put h_pre st).frame
    exact h_frame.trans (sameOutside_write _ str h_len)
  · have h_run := @recordSteps_eq str len ⟨m, []⟩ (fits_nil h_len m) (pre ++ st :: post')
    rw [h_while post'] at h_run
    have h_body : recordSteps (pre ++ st :: post') ⟨str, len⟩ m 0
        = .full (drafted str len m (pre ++ [st])).mem := h_run
    unfold recordEnd record
    rw [h_body]

/-- Behind a `PUTFMT` stands a NUL. -/
theorem drafted_nul (h : (drafted str len m steps).Fits len) {fmt : String} {args : List Arg}
    (h_last : steps.getLast? = some (.put fmt args)) :
    (drafted str len m steps).mem (str + (drafted str len m steps).text.length) = nul := by
  obtain ⟨pre, rfl⟩ := List.getLast?_eq_some_iff.mp h_last
  rw [drafted_concat] at h ⊢
  generalize drafted str len m pre = d at h ⊢
  have h_length : (d.put str len (.put fmt args)).text.length
      = d.text.length + (format fmt.toList args).length := List.length_append
  have h_room : (format fmt.toList args).length < len - d.text.length := by
    unfold Draft.Fits at h
    omega
  show (snprintf d.mem (str + d.text.length) (len - d.text.length) fmt args).1 _ = nul
  rw [snprintf_fits d.mem _ h_room, h_length, ← Nat.add_assoc]
  exact write_behind d.mem _ _ nul

end

/-- **A record is a transaction.** Let `text` be what the steps of a record of at least one
character put, one after the other.

* If `text` is shorter than the record, control goes on with `nread` advanced by its length. The
  record holds it, with a NUL behind it if the last step is a `PUTFMT`.
* If it is not, there is a first step that does not fit. The enclosing function returns there,
  whatever steps follow, with the value that `nread` had, and the first character is NUL.
* In no case is anything written outside the record. -/
theorem record_transaction (str len nread : Nat) (h_len : 1 ≤ len) (steps : List RecordStep)
    (m : Mem) :
    let text := (drafted str len m steps).text
    let r := recordEnd str len nread (recordSteps steps) m
    (text.length < len →
      r.2 = .goesOn (nread + text.length) ∧ read r.1 str text.length = text ∧
        ∀ fmt args, steps.getLast? = some (.put fmt args) → r.1 (str + text.length) = nul) ∧
      (len ≤ text.length →
        r.2 = .returns nread ∧ r.1 str = nul ∧
          ∃ pre st post, steps = pre ++ st :: post ∧ (drafted str len m pre).text.length < len ∧
            len ≤ (drafted str len m (pre ++ [st])).text.length ∧
            ∀ post', recordEnd str len nread (recordSteps (pre ++ st :: post')) m = r) ∧
      SameOutside m r.1 str len := by
  intro text r
  by_cases h : (drafted str len m steps).Fits len
  · -- committed: the draft is what the record holds
    have h_sound := drafted_sound h_len h
    have h_r : r = ((drafted str len m steps).mem, .goesOn (nread + text.length)) :=
      recordEnd_of_fits nread h_len h
    rw [h_r]
    refine ⟨fun _ => ⟨rfl, h_sound.text h, fun fmt args h_last => drafted_nul h h_last⟩, ?_,
      h_sound.frame⟩
    intro h_full
    exact absurd h (Nat.not_lt.mpr h_full)
  · -- aborted at the first step that does not fit
    obtain ⟨m', pre, st, post, h_nul, h_frame, h_split, h_pre, h_st, h_end⟩ :=
      recordEnd_of_not_fits nread h_len h
    have h_r : r = (m', .returns nread) := by
      show recordEnd str len nread (recordSteps steps) m = _
      rw [h_split]
      exact h_end post
    rw [h_r]
    refine ⟨fun h_fits => absurd h_fits h, fun _ => ?_, h_frame⟩
    exact ⟨rfl, h_nul, pre, st, post, h_split, h_pre, Nat.not_lt.mp h_st, h_end⟩

/-- A function that prints a number. -/
def numberWriter (x : UInt16) : Writer where
  call p room m := snprintf m p room "%u" [.word x]
  frame p room m _ := sameOutside_snprintf m p room "%u" [.word x]

/-- A number in brackets, printed by another function. -/
def bracketedNumber : List RecordStep := [.put "[" [], .add (numberWriter 42), .put "]" []]

/-- Five characters are enough for it and the NUL. -/
theorem record_transaction_brackets :
    let r := recordEnd 0 5 7 (recordSteps bracketedNumber) fun _ => nul
    r.2 = .goesOn 11 ∧ read r.1 0 4 = "[42]".toList ∧ r.1 4 = nul := by
  have h_text : (drafted 0 5 (fun _ => nul) bracketedNumber).text = "[42]".toList := by
    decide +kernel
  obtain ⟨h_fits, -, -⟩ := record_transaction 0 5 7 (by decide) bracketedNumber fun _ => nul
  rw [h_text] at h_fits
  obtain ⟨h_exit, h_read, h_nul⟩ := h_fits (by decide)
  exact ⟨h_exit, h_read, h_nul "]" [] rfl⟩

/-- Four are not. -/
example : (recordEnd 0 4 7 (recordSteps bracketedNumber) fun _ => nul).2 = .returns 7 := by
  decide +kernel

end AirQuality
