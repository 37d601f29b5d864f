import Mathlib.Data.List.Forall2
import AirQuality.Framework.Resumable
import AirQuality.Publisher.Record

/-!
# Report generators (`report_gen_t`)

A report generator `int gen(uint8_t *buf, size_t len, uint8_t *finished)` writes records into a
buffer until one does not fit, and keeps in static variables where to go on. Here a generator is a
function of that static state, of the data it reports (`Env`) and of the memory.

`Implements` is the contract both generators of the node are shown to meet: a call behaves like
one turn of the abstract report (`Resumable.fit`) on the records that its static state stands for.
The laws about cycles of calls (`Implements.cycle`, `Implements.split`, `Implements.progress`) are
drawn from the contract here, once. A generator that drives another one in a loop treats the loop
as a single call (`Implements.untilDone`).

The cases of a `switch` that falls through are composed from the last one to the first:
`ServesFrom.lastRecord` is the end of the chain, `ServesFrom.caseRecord` and
`ServesFrom.caseFunction` put a case in front of it.
-/

namespace AirQuality

open CMem Resumable

/-! ### Generators and their calls -/

/-- What a generator leaves: the memory, the value returned and `*finished`. -/
structure Ret where
  mem : Mem
  nread : Nat
  finished : Bool

/-- A report generator over static state `State`, reporting data from `Env`; its arguments are
the static state, the data, the memory, `buf` and `len`. -/
abbrev ReportGen (State Env : Type) := State → Env → Mem → Nat → Nat → State × Ret

/-- One call: the data at that moment, and a nonempty buffer in whatever memory. -/
structure Call (Env : Type) where
  env : Env
  mem : Mem
  buf : Nat
  len : Nat
  len_pos : 0 < len

/-- The call as a turn of the abstract report. -/
def Call.turn {Env : Type} (c : Call Env) : Turn Env := ⟨c.env, c.len⟩

variable {State Env Rec : Type}

/-- A sequence of calls: the static state afterwards, and each call with what it left. -/
def calls (gen : ReportGen State Env) : State → List (Call Env) → State × List (Call Env × Ret)
  | st, [] => (st, [])
  | st, c :: cs =>
    let r := gen st c.env c.mem c.buf c.len
    ((calls gen r.1 cs).1, (c, r.2) :: (calls gen r.1 cs).2)

/-- The text a call left in its buffer. -/
def output (x : Call Env × Ret) : List Char := read x.2.mem x.1.buf x.2.nread

/-- The call returned a length inside its buffer and left a string of that length there. -/
def Terminated (x : Call Env × Ret) : Prop :=
  x.2.nread < x.1.len ∧ x.2.mem (x.1.buf + x.2.nread) = nul

/-- A complete cycle of calls: the last one reports `*finished = 1`, the others `0`. -/
def IsCycle (xs : List (Call Env × Ret)) : Prop :=
  ∃ ys y, xs = ys ++ [y] ∧ (∀ x ∈ ys, x.2.finished = false) ∧ y.2.finished = true

/-- A cycle may start here: nothing was called yet, or the last call finished one. -/
def AtStart (xs : List (Call Env × Ret)) : Prop :=
  ∀ x ∈ xs.getLast?, x.2.finished = true

/-- The call `x` did what the turn `s` says: its output is the records of `s`, whole and one after
the other, rendered in the data of that very call, and it reports what `s` reports. -/
structure Emits (render : Env → Rec → List Char) (x : Call Env × Ret) (s : Sent Rec) : Prop where
  output_eq : output x = s.records.flatMap (render x.1.env)
  finished_eq : x.2.finished = s.finished

theorem calls_append (gen : ReportGen State Env) (st : State) (cs ds : List (Call Env)) :
    calls gen st (cs ++ ds) = ((calls gen (calls gen st cs).1 ds).1,
      (calls gen st cs).2 ++ (calls gen (calls gen st cs).1 ds).2) := by
  induction cs generalizing st with
  | nil => rfl
  | cons c cs ih => simp [calls, ih]

theorem calls_take (gen : ReportGen State Env) (st : State) (cs : List (Call Env)) (n : Nat) :
    (calls gen st cs).2.take n = (calls gen st (cs.take n)).2 := by
  induction cs generalizing st n with
  | nil => simp [calls]
  | cons c cs ih =>
    cases n with
    | zero => rfl
    | succ n =>
      change _ :: (calls gen _ cs).2.take n = _ :: (calls gen _ (cs.take n)).2
      rw [ih]

theorem calls_fst (gen : ReportGen State Env) (st : State) (cs : List (Call Env)) :
    (calls gen st cs).2.map Prod.fst = cs := by
  induction cs generalizing st with
  | nil => rfl
  | cons c cs ih =>
    change c :: (calls gen _ cs).2.map Prod.fst = c :: cs
    rw [ih]

/-! ### The contract -/

/-- Starting behind the first `k` characters of the buffer of length `l` at `s`, with the records
`rs` pending, the generator left `out`: it wrote the records of one turn of the abstract report,
and its static state stands for the rest, or is back at the start. -/
structure Serves (render : Rec → List Char) (pending : State → List Rec) (init : State)
    (s l : Nat) (rs : List Rec) (k : Nat) (m : Mem) (out : State × Ret) : Prop where
  /-- The records of the turn, rendered one after the other. -/
  filled : Filled m s l k ((fit (fun r => (render r).length) rs (l - k)).1.flatMap render)
    out.2.mem out.2.nread
  /-- Finished when nothing is left. -/
  finished_iff : out.2.finished = true ↔ (fit (fun r => (render r).length) rs (l - k)).2 = []
  /-- Nothing left: back at the start. -/
  restart : (fit (fun r => (render r).length) rs (l - k)).2 = [] → out.1 = init
  /-- Something left: the static state stands for it. -/
  left : (fit (fun r => (render r).length) rs (l - k)).2 ≠ [] →
    pending out.1 = (fit (fun r => (render r).length) rs (l - k)).2

/-- `gen` sends the report `report`, whose last record is `last`, rendered by `render`; in the
static state `st` the records `pending st` of the current cycle are still to come. -/
structure Implements (gen : ReportGen State Env) (report : List Rec) (last : Rec)
    (render : Env → Rec → List Char) (pending : State → List Rec) (init : State) : Prop where
  pending_init : pending init = report
  endsIn : ∀ st, EndsIn last (pending st)
  /-- One call is one turn. -/
  call : ∀ st env m buf len, 0 < len →
    Serves (render env) pending init buf len (pending st) 0 m (gen st env m buf len)

/-- The case of a `switch` with a record in it: write the record at the current position, return
if it did not fit, else go on behind it. -/
def caseRecord (s l : Nat) (st : State) (body : Record Unit) (next : Nat → Mem → State × Ret)
    (nread : Nat) (m : Mem) : State × Ret :=
  match record (s + nread) (sizeSub l nread) body m with
  | (m, none) => (st, ⟨m, nread, false⟩)
  | (m, some n) => next (nread + n) m

/-- The case of a `switch` that calls a function for its record: a function that returns 0 did not
find the room. -/
def caseFunction (s l : Nat) (st : State) (f : Nat → Nat → Mem → Mem × Nat)
    (next : Nat → Mem → State × Ret) (nread : Nat) (m : Mem) : State × Ret :=
  let r := f (s + nread) (sizeSub l nread) m
  if r.2 = 0 then (st, ⟨r.1, nread, false⟩) else next (nread + r.2) r.1

/-- `do { n = gen(s + nread, l - nread, &done); if (n == 0) return nread; nread += n; }
while (!done);`, at most `fuel` turns of it. -/
def untilDone (gen : ReportGen State Env) (env : Env) (s l : Nat) :
    Nat → State → Nat → Mem → Option (State × Ret)
  | 0, _, _, _ => none
  | fuel + 1, st, nread, m =>
    let r := gen st env m (s + nread) (sizeSub l nread)
    if r.2.nread = 0 then some (r.1, ⟨r.2.mem, nread, false⟩)
    else if r.2.finished then some (r.1, ⟨r.2.mem, nread + r.2.nread, true⟩)
    else untilDone gen env s l fuel r.1 (nread + r.2.nread) r.2.mem

section Serves

variable {render : Rec → List Char} {pending : State → List Rec} {init : State} {s l k : Nat}
  {m : Mem}

/-- The end of the `switch`: everything was sent. -/
theorem Serves.done (hk : k < l) (h_nul : m (s + k) = nul) :
    Serves render pending init s l [] k m (init, ⟨m, k, true⟩) where
  filled := Filled.blank hk h_nul (SameOutside.refl _ _ _)
  finished_iff := by simp
  restart := fun _ => rfl
  left := fun h => absurd rfl h

/-- **One case of the `switch`.** The record of the case is the first pending one. If it fits, the
rest of the function serves the others behind it; if not, the static state still stands for all
of them. -/
theorem Serves.caseRecord {st : State} {r : Rec} {rs : List Rec} {body : Record Unit}
    {next : Nat → Mem → State × Ret} (hk : k < l) (h_body : Writes body () (render r))
    (h_pending : pending st = r :: rs)
    (h_next : ∀ k' m', k' < l → m' (s + k') = nul →
      Serves render pending init s l rs k' m' (next k' m')) :
    Serves render pending init s l (r :: rs) k m (caseRecord s l st body next k m) := by
  have h_room : sizeSub l k = l - k := sizeSub_of_le (by omega)
  by_cases h : (render r).length < l - k
  · -- the record fits: its text and a NUL, and the next case starts at that NUL
    have h_rec := (h_body ⟨s + k, l - k⟩ m 0 (by change 0 < l - k; omega)).record_fits h
    have h_out : AirQuality.caseRecord s l st body next k m
        = next (k + (render r).length) (write m (s + k) (render r ++ [nul])) := by
      unfold AirQuality.caseRecord
      rw [h_room, h_rec]
    have h_nul : write m (s + k) (render r ++ [nul]) (s + (k + (render r).length)) = nul := by
      rw [← Nat.add_assoc]
      exact write_behind m (s + k) (render r) nul
    -- what follows serves the rest from there on
    have h_rest := h_next (k + (render r).length) _ (by omega) h_nul
    rw [h_out]
    have h_fit := fit_cons_of_lt (fun r => (render r).length) rs h
    rw [Nat.sub_sub] at h_fit
    refine ⟨?_, ?_, ?_, ?_⟩ <;> rw [h_fit]
    · exact h_rest.filled.append
    · exact h_rest.finished_iff
    · exact h_rest.restart
    · exact h_rest.left
  · -- it does not fit: blanked, and everything is still pending
    have h_run := h_body ⟨s + k, l - k⟩ m 0 (by change 0 < l - k; omega)
    obtain ⟨m', h_rec, h_nul, h_frame⟩ := h_run.record_full (by omega) (Nat.not_lt.mp h)
    have h_out : AirQuality.caseRecord s l st body next k m = (st, ⟨m', k, false⟩) := by
      unfold AirQuality.caseRecord
      rw [h_room, h_rec]
    have h_fit := fit_cons_of_le (fun r => (render r).length) rs (Nat.not_lt.mp h)
    rw [h_out]
    refine ⟨?_, ?_, ?_, ?_⟩ <;> rw [h_fit]
    · exact Filled.blank hk h_nul h_frame
    · simp
    · exact fun h_nil => absurd h_nil (by simp)
    · exact fun _ => h_pending

/-- A case that calls a function for its record. -/
theorem Serves.caseFunction {st : State} {r : Rec} {rs : List Rec} {body : Record Unit}
    {next : Nat → Mem → State × Ret} (hk : k < l) (h_body : Writes body () (render r))
    (h_ne : render r ≠ []) (h_pending : pending st = r :: rs)
    (h_next : ∀ k' m', k' < l → m' (s + k') = nul →
      Serves render pending init s l rs k' m' (next k' m')) :
    Serves render pending init s l (r :: rs) k m
      (caseFunction s l st (fun str len => recordFunction str len body) next k m) := by
  have h_case := Serves.caseRecord hk h_body h_pending h_next (m := m)
  have h_eq : AirQuality.caseFunction s l st (fun str len => recordFunction str len body) next k m
      = AirQuality.caseRecord s l st body next k m := by
    have h_room : sizeSub l k = l - k := sizeSub_of_le (by omega)
    have h_run := h_body ⟨s + k, l - k⟩ m 0 (by change 0 < l - k; omega)
    by_cases h : (render r).length < l - k
    · -- a record that was written is not empty
      have h_length : (render r).length ≠ 0 := by simpa using h_ne
      simp only [AirQuality.caseFunction, AirQuality.caseRecord, recordFunction, h_room,
        h_run.record_fits h, if_neg h_length]
    · obtain ⟨m', h_rec, -⟩ := h_run.record_full (by omega) (Nat.not_lt.mp h)
      simp only [AirQuality.caseFunction, AirQuality.caseRecord, recordFunction, h_room, h_rec,
        if_true]
  rw [h_eq]
  exact h_case

/-- The code `body` serves the records `rs` from any position in the buffer on. -/
def ServesFrom (render : Rec → List Char) (pending : State → List Rec) (init : State) (s l : Nat)
    (rs : List Rec) (body : Nat → Mem → State × Ret) : Prop :=
  ∀ k m, k < l → Serves render pending init s l rs k m (body k m)

/-- The last case of a `switch`: behind it everything was sent. -/
theorem ServesFrom.lastRecord {st : State} {r : Rec} {body : Record Unit}
    (h_body : Writes body () (render r)) (h_pending : pending st = [r]) :
    ServesFrom render pending init s l [r]
      (caseRecord s l st body fun nread m => (init, ⟨m, nread, true⟩)) := by
  intro k m hk
  refine Serves.caseRecord hk h_body h_pending fun k' m' hk' h_nul => ?_
  exact Serves.done hk' h_nul

/-- A case in front of others that fall through to each other. -/
theorem ServesFrom.caseRecord {st : State} {r : Rec} {rs : List Rec} {body : Record Unit}
    {next : Nat → Mem → State × Ret} (h_next : ServesFrom render pending init s l rs next)
    (h_body : Writes body () (render r)) (h_pending : pending st = r :: rs) :
    ServesFrom render pending init s l (r :: rs) (caseRecord s l st body next) := by
  intro k m hk
  refine Serves.caseRecord hk h_body h_pending fun k' m' hk' _ => ?_
  exact h_next k' m' hk'

/-- The same, for a case that calls a function. -/
theorem ServesFrom.caseFunction {st : State} {r : Rec} {rs : List Rec} {body : Record Unit}
    {next : Nat → Mem → State × Ret} (h_next : ServesFrom render pending init s l rs next)
    (h_body : Writes body () (render r)) (h_ne : render r ≠ []) (h_pending : pending st = r :: rs) :
    ServesFrom render pending init s l (r :: rs)
      (caseFunction s l st (fun str len => recordFunction str len body) next) := by
  intro k m hk
  refine Serves.caseFunction hk h_body h_ne h_pending fun k' m' hk' _ => ?_
  exact h_next k' m' hk'

/-- The rest of the buffer, seen as a buffer of its own. -/
theorem Serves.shift {rs : List Rec} {out : State × Ret}
    (h : Serves render pending init (s + k) (l - k) rs 0 m out) :
    Serves render pending init s l rs k m
      (out.1, ⟨out.2.mem, k + out.2.nread, out.2.finished⟩) :=
  ⟨h.filled.shift, h.finished_iff, h.restart, h.left⟩

end Serves

/-! ### A generator inside a generator -/

section UntilDone

variable {gen : ReportGen State Env} {report : List Rec} {last : Rec}
  {render : Env → Rec → List Char} {pending : State → List Rec} {init : State}

/-- A call that returns 0 sent nothing, and is not finished. -/
theorem Implements.nread_zero (h : Implements gen report last render pending init)
    (h_ne : ∀ env r, render env r ≠ []) (st : State) (env : Env) (m : Mem) (buf : Nat) {len : Nat}
    (h_len : 0 < len) (h_zero : (gen st env m buf len).2.nread = 0) :
    (gen st env m buf len).2.finished = false := by
  have h_serves := h.call st env m buf len h_len
  have h_app := fit_append (fun r => (render env r).length) (pending st) (len - 0)
  have h_text := h_serves.filled.nread
  rw [h_zero, Nat.zero_add, eq_comm, List.length_eq_zero_iff, List.flatMap_eq_nil_iff] at h_text
  rw [Bool.eq_false_iff]
  intro h_fin
  -- finished with an empty text: every pending record would have to be empty
  rw [h_serves.finished_iff.mp h_fin, List.append_nil] at h_app
  -- all pending records were sent, and there are some
  rw [h_app] at h_text
  obtain ⟨r, hr⟩ := List.exists_mem_of_ne_nil _ (h.endsIn st).ne_nil
  exact h_ne env r (h_text r hr)

/-- A call without room for the next pending record sends nothing: it returns 0, blanks its buffer,
touches nothing else, and everything stays pending. -/
theorem Implements.call_full (h : Implements gen report last render pending init) (env : Env)
    (m : Mem) {st : State} {r : Rec} {rs : List Rec} (h_pending : pending st = r :: rs)
    (buf len : Nat) (h_len : 0 < len) (h_room : len ≤ (render env r).length) :
    (gen st env m buf len).2.nread = 0 ∧ (gen st env m buf len).2.mem buf = nul ∧
      SameOutside m (gen st env m buf len).2.mem buf len ∧
      pending (gen st env m buf len).1 = r :: rs := by
  have h_serves := h.call st env m buf len h_len
  have h_fit := fit_cons_of_le (fun r => (render env r).length) rs h_room
  rw [h_pending] at h_serves
  have h_filled := h_serves.filled
  have h_left := h_serves.left
  rw [Nat.sub_zero, h_fit] at h_filled h_left
  have h_zero : (gen st env m buf len).2.nread = 0 := h_filled.nread
  refine ⟨h_zero, ?_, h_filled.frame, h_left (by simp)⟩
  have h_term := h_filled.term
  rwa [h_zero, Nat.add_zero] at h_term

/-- More turns than enough do not matter. -/
theorem untilDone_succ {env : Env} {s l fuel : Nat} {st : State} {k : Nat} {m : Mem}
    {out : State × Ret} (h : untilDone gen env s l fuel st k m = some out) :
    untilDone gen env s l (fuel + 1) st k m = some out := by
  induction fuel generalizing st k m with
  | zero => cases h
  | succ fuel ih =>
    unfold AirQuality.untilDone at h ⊢
    simp only at h ⊢
    split
    -- each of the three ways out of a turn is the same with more fuel
    · next h_zero => rwa [if_pos h_zero] at h
    · next h_zero =>
      rw [if_neg h_zero] at h
      split
      · next h_fin => rwa [if_pos h_fin] at h
      · next h_fin =>
        rw [if_neg h_fin] at h
        exact ih h

/-- A turn of the loop without room for the next pending record ends it. -/
theorem Implements.untilDone_full (h : Implements gen report last render pending init) (env : Env)
    (m : Mem) {st : State} {r : Rec} {rs : List Rec} (h_pending : pending st = r :: rs)
    {s l k : Nat} (hk : k < l) (h_room : l - k ≤ (render env r).length) (fuel : Nat) :
    ∃ st' m', untilDone gen env s l (fuel + 1) st k m = some (st', ⟨m', k, false⟩) ∧
      m' (s + k) = nul ∧ SameOutside m m' (s + k) (l - k) ∧ pending st' = r :: rs := by
  obtain ⟨h_zero, h_nul, h_out, h_left⟩ :=
    h.call_full env m h_pending (s + k) (l - k) (by omega) h_room
  refine ⟨_, _, ?_, h_nul, h_out, h_left⟩
  unfold AirQuality.untilDone
  rw [sizeSub_of_le (by omega)]
  exact if_pos h_zero

/-- Two turns of the loop around a generator serve its pending records like a single call: a
generator that is not done left no room for its next record, so a second call returns 0. -/
theorem Implements.untilDone_two (h : Implements gen report last render pending init)
    (h_ne : ∀ env r, render env r ≠ []) (env : Env) {s l k : Nat} (hk : k < l) (st : State)
    (m : Mem) : ∃ out, untilDone gen env s l 2 st k m = some out ∧
      Serves (render env) pending init s l (pending st) k m out := by
  have h_room : sizeSub l k = l - k := sizeSub_of_le (by omega)
  have h_call := (h.call st env m (s + k) (l - k) (by omega)).shift
  have h_zero := h.nread_zero h_ne st env m (s + k) (show 0 < l - k by omega)
  unfold AirQuality.untilDone
  rw [h_room]
  -- the first turn
  generalize gen st env m (s + k) (l - k) = out at h_call h_zero ⊢
  obtain ⟨st₁, m₁, n₁, fin₁⟩ := out
  simp only at h_call h_zero ⊢
  by_cases h_n : n₁ = 0
  · obtain rfl : fin₁ = false := h_zero h_n
    subst h_n
    exact ⟨_, if_pos rfl, h_call⟩
  · rw [if_neg h_n]
    cases fin₁ with
    | true => exact ⟨_, if_pos rfl, h_call⟩
    | false =>
      -- something is left, and there is no room for the first of it
      have h_rest : (fit (fun r => (render env r).length) (pending st) (l - k)).2 ≠ [] :=
        fun h_nil => absurd (h_call.finished_iff.mpr h_nil) (by simp)
      obtain ⟨r, rs, h_cons⟩ := List.exists_cons_of_ne_nil h_rest
      have h_stop := fit_stop (fun r => (render env r).length) (pending st) (l - k) h_cons
      have h_nread : k + n₁ = k + _ := h_call.filled.nread
      have h_lt : k + n₁ < l := h_call.filled.lt
      rw [List.length_flatMap] at h_nread
      -- the second turn
      obtain ⟨st₂, m₂, h_second, h_nul, h_out, h_pending⟩ := h.untilDone_full env m₁
        ((h_call.left h_rest).trans h_cons) (s := s) h_lt (by omega) 0
      exact ⟨_, h_second, h_call.filled.reblank h_nul h_out, by simp [h_rest],
        fun h_nil => absurd h_nil h_rest, fun _ => h_pending.trans h_cons.symm⟩

/-- **Driving a generator to its end.** The loop that calls a generator until it is done ends
within two turns, and serves the pending records like a single call. -/
theorem Implements.untilDone (h : Implements gen report last render pending init)
    (h_ne : ∀ env r, render env r ≠ []) (env : Env) {s l k : Nat} (hk : k < l) (st : State)
    (m : Mem) : ∃ out, (∀ fuel, untilDone gen env s l (fuel + 2) st k m = some out) ∧
      Serves (render env) pending init s l (pending st) k m out := by
  obtain ⟨out, h_two, h_serves⟩ := h.untilDone_two h_ne env hk st m
  -- two turns are enough, so more are too
  refine ⟨out, fun fuel => ?_, h_serves⟩
  induction fuel with
  | zero => exact h_two
  | succ fuel ih => exact untilDone_succ ih

end UntilDone

/-! ### Laws of a generator -/

section Laws

variable {gen : ReportGen State Env} {report : List Rec} {last : Rec}
  {render : Env → Rec → List Char} {pending : State → List Rec} {init : State}

theorem Implements.serves (h : Implements gen report last render pending init) (st : State)
    (c : Call Env) : Serves (render c.env) pending init c.buf c.len (pending st) 0 c.mem
      (gen st c.env c.mem c.buf c.len) := h.call st c.env c.mem c.buf c.len c.len_pos

/-- Every call returns less than its buffer's length, with a NUL behind its text. -/
theorem Implements.terminated (h : Implements gen report last render pending init) (st : State)
    (cs : List (Call Env)) : ∀ x ∈ (calls gen st cs).2, Terminated x := by
  induction cs generalizing st with
  | nil => intro x hx; cases hx
  | cons c cs ih =>
    intro x hx
    rcases List.mem_cons.mp hx with rfl | hx
    · exact ⟨(h.serves st c).filled.lt, (h.serves st c).filled.term⟩
    · exact ih _ x hx

/-- A call that reports `finished` leaves the static state at its start. -/
theorem Implements.restart (h : Implements gen report last render pending init) (st : State)
    (c : Call Env) (h_fin : (gen st c.env c.mem c.buf c.len).2.finished = true) :
    (gen st c.env c.mem c.buf c.len).1 = init :=
  (h.serves st c).restart ((h.serves st c).finished_iff.mp h_fin)

/-- Where a cycle may start, the static state is at its start. -/
theorem Implements.atStart (h : Implements gen report last render pending init)
    (cs : List (Call Env)) (h_start : AtStart (calls gen init cs).2) :
    (calls gen init cs).1 = init := by
  rcases List.eq_nil_or_concat cs with rfl | ⟨ds, d, rfl⟩
  · rfl
  · rw [List.concat_eq_append] at h_start ⊢
    rw [calls_append] at h_start ⊢
    -- the last call finished a cycle, and such a call restarts
    refine h.restart _ d (h_start (d, _) ?_)
    simp [calls]

/-- **One call refines one turn.** -/
theorem Implements.emits (h : Implements gen report last render pending init) (st : State)
    (c : Call Env) : Emits render (c, (gen st c.env c.mem c.buf c.len).2)
      (c.turn.sent render (pending st)) where
  output_eq := (h.serves st c).filled.read_eq
  finished_eq := Bool.eq_iff_iff.mpr ((h.serves st c).finished_iff.trans List.isEmpty_iff.symm)

/-- The static state after a call stands for what is pending after the turn. -/
theorem Implements.pending_call (h : Implements gen report last render pending init) (st : State)
    (c : Call Env) : pending (gen st c.env c.mem c.buf c.len).1
      = c.turn.pending render report (pending st) := by
  unfold Turn.pending next
  split
  · next h_nil => rw [(h.serves st c).restart h_nil, h.pending_init]
  · next h_ne => exact (h.serves st c).left h_ne

/-- **Refinement.** Any sequence of calls does what the abstract report does in the corresponding
turns, call by call. -/
theorem Implements.refines (h : Implements gen report last render pending init) (st : State)
    (cs : List (Call Env)) :
    List.Forall₂ (Emits render) (calls gen st cs).2
        (send render report (pending st) (cs.map Call.turn)) ∧
      pending (calls gen st cs).1 = pendingAfter render report (pending st) (cs.map Call.turn) := by
  induction cs generalizing st with
  | nil => exact ⟨List.Forall₂.nil, rfl⟩
  | cons c cs ih =>
    -- the rest of the calls starts where this one left the static state
    obtain ⟨h_emits, h_pending⟩ := ih (gen st c.env c.mem c.buf c.len).1
    rw [h.pending_call st c] at h_emits h_pending
    exact ⟨List.Forall₂.cons (h.emits st c) h_emits, h_pending⟩

/-- As many calls report `finished` as turns do. -/
theorem Emits.timesFinished {xs : List (Call Env × Ret)} {ss : List (Sent Rec)}
    (h : List.Forall₂ (Emits render) xs ss) :
    timesFinished ss = xs.countP fun x => x.2.finished := by
  induction h with
  | nil => rfl
  | @cons x s xs ss h_x _ ih =>
    rw [List.countP_cons, ← ih, h_x.finished_eq]
    exact List.countP_cons

/-- A complete cycle reports `finished` once. -/
theorem IsCycle.countP_finished {xs : List (Call Env × Ret)} (h : IsCycle xs) :
    xs.countP (fun x => x.2.finished) = 1 := by
  obtain ⟨ys, y, rfl, h_open, h_fin⟩ := h
  have h_zero : ys.countP (fun x => x.2.finished) = 0 := by
    rw [List.countP_eq_zero]
    intro x hx
    simp [h_open x hx]
  rw [List.countP_append, h_zero, List.countP_singleton, if_pos h_fin]

/-- Where a complete cycle ends, the next one may start. -/
theorem IsCycle.atStart {xs : List (Call Env × Ret)} (h : IsCycle xs) : AtStart xs := by
  obtain ⟨ys, y, rfl, -, h_fin⟩ := h
  intro x hx
  rw [List.getLast?_append, List.getLast?_singleton] at hx
  obtain rfl : y = x := by simpa using hx
  exact h_fin

/-- **What a sequence of calls sends**, from the start of a cycle on. Each call emits a list of
records, whole and rendered in its own data, and reports `finished` exactly if the last record of
the report is among them. Together with what is pending afterwards, the records emitted make up one
report for each time it was finished, and the one that is under way. -/
theorem Implements.run (h : Implements gen report last render pending init)
    (before cs : List (Call Env)) (h_start : AtStart (calls gen init before).2) :
    ∃ sent : List (List Rec),
      List.Forall₂ (fun x rs => output x = rs.flatMap (render x.1.env) ∧
          (x.2.finished = true ↔ last ∈ rs)) (calls gen (calls gen init before).1 cs).2 sent ∧
      sent.flatten ++ pending (calls gen (calls gen init before).1 cs).1
        = report ++ (List.replicate ((calls gen (calls gen init before).1 cs).2.countP
            fun x => x.2.finished) report).flatten := by
  rw [h.atStart before h_start]
  obtain ⟨h_emits, h_pending⟩ := h.refines init cs
  have h_last := finished_iff_last_mem render (h.endsIn init) (h.endsIn init) (cs.map Call.turn)
  rw [h.pending_init] at h_emits h_pending h_last
  -- the turns conserve the records, and the calls do what the turns do
  have h_conserves := send_conserves render report report (cs.map Call.turn)
  refine ⟨(send render report report (cs.map Call.turn)).map Sent.records, ?_, ?_⟩
  -- call by call: the output of the turn, and finished exactly with the last record
  · rw [List.forall₂_map_right_iff]
    have h_both := ((List.forall₂_and_left _ _).mpr ⟨h_last, h_emits.flip⟩).flip
    refine List.Forall₂.imp (fun x s hxs => ?_) h_both
    exact ⟨hxs.2.output_eq, by rw [hxs.2.finished_eq]; exact hxs.1⟩
  · rw [h_pending, ← Emits.timesFinished h_emits, ← List.flatMap_def]
    exact h_conserves

/-- Of a complete cycle, these are the records of one report. -/
theorem Implements.flatten_of_cycle (h : Implements gen report last render pending init)
    {before cs : List (Call Env)} (h_start : AtStart (calls gen init before).2)
    {sent : List (List Rec)} (h_conserves : sent.flatten
        ++ pending (calls gen (calls gen init before).1 cs).1
      = report ++ (List.replicate ((calls gen (calls gen init before).1 cs).2.countP
          fun x => x.2.finished) report).flatten)
    (h_cycle : IsCycle (calls gen (calls gen init before).1 cs).2) : sent.flatten = report := by
  rw [h.atStart before h_start] at h_cycle h_conserves
  -- the report that is under way is a new one
  rw [h_cycle.countP_finished, h.atStart cs h_cycle.atStart, h.pending_init,
    List.replicate_one, List.flatten_singleton] at h_conserves
  exact List.append_cancel_right h_conserves

/-- The records of a complete cycle, and of one that is under way. -/
theorem Implements.cycle (h : Implements gen report last render pending init)
    (before cs : List (Call Env)) (h_start : AtStart (calls gen init before).2) :
    ∃ sent : List (List Rec),
      List.Forall₂ (fun x rs => output x = rs.flatMap (render x.1.env) ∧
          (x.2.finished = true ↔ last ∈ rs)) (calls gen (calls gen init before).1 cs).2 sent ∧
      (IsCycle (calls gen (calls gen init before).1 cs).2 → sent.flatten = report) ∧
      ((∀ x ∈ (calls gen (calls gen init before).1 cs).2, x.2.finished = false) →
        sent.flatten ++ pending (calls gen (calls gen init before).1 cs).1 = report) := by
  obtain ⟨sent, h_sent, h_conserves⟩ := h.run before cs h_start
  refine ⟨sent, h_sent, h.flatten_of_cycle h_start h_conserves, fun h_open => ?_⟩
  have h_zero : (calls gen (calls gen init before).1 cs).2.countP
      (fun x => x.2.finished) = 0 := by
    rw [List.countP_eq_zero]
    intro x hx
    simp [h_open x hx]
  -- nothing was finished, so the report is still under way
  rw [h_zero] at h_conserves
  simpa using h_conserves

/-- A single call with room for the whole report sends it. -/
theorem Implements.whole (h : Implements gen report last render pending init) (c : Call Env)
    (h_room : (report.flatMap (render c.env)).length < c.len) :
    output (c, (gen init c.env c.mem c.buf c.len).2) = report.flatMap (render c.env) ∧
      (gen init c.env c.mem c.buf c.len).2.finished = true := by
  have h_emits := h.emits init c
  rw [List.length_flatMap] at h_room
  have h_sent : c.turn.sent render (pending init) = ⟨report, true⟩ := by
    unfold Turn.sent
    rw [h.pending_init, show fit (size render c.turn.env) report c.turn.room = (report, []) from
      fit_all (size render c.env) report h_room]
    rfl
  rw [h_sent] at h_emits
  exact ⟨h_emits.output_eq, h_emits.finished_eq⟩

/-- Such a call is a complete cycle. -/
theorem Implements.isCycle_whole (h : Implements gen report last render pending init)
    (c : Call Env) (h_room : (report.flatMap (render c.env)).length < c.len) :
    IsCycle (calls gen init [c]).2 :=
  ⟨[], _, rfl, by simp, (h.whole c h_room).2⟩

/-- **Splitting does not matter.** While the data do not change, the outputs of a complete cycle
are together the text of the report, however it is split over buffers. -/
theorem Implements.split (h : Implements gen report last render pending init)
    (before cs : List (Call Env)) (h_start : AtStart (calls gen init before).2) {env : Env}
    (h_env : ∀ c ∈ cs, c.env = env)
    (h_cycle : IsCycle (calls gen (calls gen init before).1 cs).2) :
    (calls gen (calls gen init before).1 cs).2.flatMap output = report.flatMap (render env) := by
  obtain ⟨sent, h_sent, h_report, -⟩ := h.cycle before cs h_start
  rw [← h_report h_cycle]
  have h_fst : ∀ x ∈ (calls gen (calls gen init before).1 cs).2, x.1.env = env := by
    intro x hx
    refine h_env x.1 ?_
    rw [← calls_fst gen (calls gen init before).1 cs]
    exact List.mem_map_of_mem hx
  generalize (calls gen (calls gen init before).1 cs).2 = xs at h_sent h_fst
  -- call by call
  clear h_report h_cycle
  induction h_sent with
  | nil => rfl
  | @cons x rs xs sent h_x _ ih =>
    have h_rest := ih fun y hy => h_fst y (List.mem_cons_of_mem _ hy)
    calc (x :: xs).flatMap output
        = output x ++ xs.flatMap output := List.flatMap_cons
      _ = rs.flatMap (render env) ++ sent.flatten.flatMap (render env) := by
        rw [h_x.1, h_fst x (by simp), h_rest]
      _ = (rs :: sent).flatten.flatMap (render env) := by
        rw [List.flatten_cons, List.flatMap_append]

/-- **Progress.** If every buffer has room for every record, a cycle ends within as many calls as
the report has records. -/
theorem Implements.progress (h : Implements gen report last render pending init)
    (cs : List (Call Env)) (h_len : report.length ≤ cs.length)
    (h_room : ∀ c ∈ cs, ∀ r ∈ report, (render c.env r).length < c.len) :
    ∃ x ∈ (calls gen init cs).2.take report.length, x.2.finished = true := by
  rw [calls_take]
  obtain ⟨h_emits, -⟩ := h.refines init (cs.take report.length)
  rw [h.pending_init] at h_emits
  have h_turns : report.length ≤ ((cs.take report.length).map Call.turn).length := by
    rw [List.length_map, List.length_take]
    omega
  -- one of the turns finishes the report
  obtain ⟨s, hs, h_fin⟩ := exists_finished render report ((cs.take report.length).map Call.turn)
    h_turns (h.pending_init ▸ (h.endsIn init).ne_nil) (by
      intro t ht r hr
      obtain ⟨c, hc, rfl⟩ := List.mem_map.mp ht
      exact h_room c (List.mem_of_mem_take hc) r hr)
  -- the finished turn is that of some call
  obtain ⟨i, hi, rfl⟩ := List.getElem_of_mem hs
  have h_eq := h_emits.length_eq
  exact ⟨_, List.getElem_mem (h_eq ▸ hi), ((h_emits.get (h_eq ▸ hi) hi).finished_eq).trans h_fin⟩

/-- A call with room for the next pending record emits it. -/
theorem Implements.emits_next (h : Implements gen report last render pending init) (st : State)
    (c : Call Env) {r : Rec} {rs : List Rec} (h_pending : pending st = r :: rs)
    (h_room : (render c.env r).length < c.len) :
    ∃ us vs, us ++ vs = rs ∧
      output (c, (gen st c.env c.mem c.buf c.len).2) = (r :: us).flatMap (render c.env) := by
  have h_out := (h.emits st c).output_eq
  have h_app := fit_append (size render c.env) rs (c.len - (render c.env r).length)
  refine ⟨_, _, h_app, ?_⟩
  rw [h_out, h_pending]
  simp only [Turn.sent, Call.turn]
  rw [fit_cons_of_lt (size render c.env) rs h_room]
  rfl

/-- A call without room for the next pending record emits nothing, and everything stays
pending. -/
theorem Implements.blank (h : Implements gen report last render pending init) (st : State)
    (c : Call Env) {r : Rec} {rs : List Rec} (h_pending : pending st = r :: rs)
    (h_room : c.len ≤ (render c.env r).length) :
    (gen st c.env c.mem c.buf c.len).2.nread = 0 ∧
      (gen st c.env c.mem c.buf c.len).2.mem c.buf = nul ∧
      pending (gen st c.env c.mem c.buf c.len).1 = r :: rs := by
  obtain ⟨h_zero, h_nul, -, h_left⟩ :=
    h.call_full c.env c.mem h_pending c.buf c.len c.len_pos h_room
  exact ⟨h_zero, h_nul, h_left⟩

end Laws

end AirQuality
