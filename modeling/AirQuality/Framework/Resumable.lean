import Mathlib.Algebra.Ring.Nat
import Mathlib.Data.List.Nodup

/-!
# Reports that are sent in pieces

A report is a fixed sequence of records, each of which must be sent whole. It is sent through
buffers of arbitrary sizes: each turn takes as many of the pending records as fit, in order, and
what does not fit stays pending for the next turn. A record of `n` symbols needs room for more
than `n`, since a terminator follows it. When nothing is left the report is finished and starts
over.

`fit` is one turn, and `send` a sequence of turns in which the renderings depend on an environment
that changes from turn to turn. The laws are about the cut points. Whatever the room and whatever
the environment, the records sent and the records left are together the records that were pending
(`fit_append`), so over any sequence of turns nothing is lost, repeated or reordered
(`send_conserves`). A turn finishes the report exactly if it sends the last record
(`finished_iff_last_mem`); one that does not has no room for the next record (`fit_stop`), which
bounds the number of turns that a report takes (`exists_finished`).
-/

namespace Resumable

variable {Rec Env Sym : Type}

/-! ### One turn -/

/-- The longest initial run of records that fits in `room`, and the records behind it. -/
def fit (size : Rec → Nat) : List Rec → Nat → List Rec × List Rec
  | [], _ => ([], [])
  | r :: rs, room =>
    if size r < room then
      (r :: (fit size rs (room - size r)).1, (fit size rs (room - size r)).2)
    else ([], r :: rs)

@[simp] theorem fit_nil (size : Rec → Nat) (room : Nat) : fit size [] room = ([], []) := rfl

theorem fit_cons_of_lt (size : Rec → Nat) {r : Rec} (rs : List Rec) {room : Nat}
    (h : size r < room) : fit size (r :: rs) room =
      (r :: (fit size rs (room - size r)).1, (fit size rs (room - size r)).2) := if_pos h

theorem fit_cons_of_le (size : Rec → Nat) {r : Rec} (rs : List Rec) {room : Nat}
    (h : room ≤ size r) : fit size (r :: rs) room = ([], r :: rs) := if_neg (Nat.not_lt.mpr h)

/-- **Nothing lost, nothing repeated, nothing reordered.** -/
theorem fit_append (size : Rec → Nat) (rs : List Rec) (room : Nat) :
    (fit size rs room).1 ++ (fit size rs room).2 = rs := by
  induction rs generalizing room with
  | nil => rfl
  | cons r rs ih =>
    by_cases h : size r < room
    · rw [fit_cons_of_lt size rs h, List.cons_append, ih]
    · rw [fit_cons_of_le size rs (by omega), List.nil_append]

/-- Greediness: the first record that stays behind would not have fitted. -/
theorem fit_stop (size : Rec → Nat) (rs : List Rec) (room : Nat) {r : Rec} {rest : List Rec}
    (h : (fit size rs room).2 = r :: rest) :
    room ≤ ((fit size rs room).1.map size).sum + size r := by
  induction rs generalizing room with
  | nil => cases h
  | cons q rs ih =>
    by_cases hq : size q < room
    · rw [fit_cons_of_lt size rs hq] at h ⊢
      have h_rest := ih _ h
      simp only [List.map_cons, List.sum_cons] at h_rest ⊢
      omega
    · rw [fit_cons_of_le size rs (by omega)] at h ⊢
      obtain ⟨rfl, -⟩ := List.cons.inj h
      simp only [List.map_nil, List.sum_nil]
      omega

/-- With room for everything, everything is sent. -/
theorem fit_all (size : Rec → Nat) (rs : List Rec) {room : Nat} (h : (rs.map size).sum < room) :
    fit size rs room = (rs, []) := by
  induction rs generalizing room with
  | nil => rfl
  | cons r rs ih =>
    rw [List.map_cons, List.sum_cons] at h
    rw [fit_cons_of_lt size rs (by omega), ih (by omega)]

/-- Renaming the records. -/
theorem fit_map {Rec' : Type} (f : Rec → Rec') (size : Rec' → Nat) (rs : List Rec) (room : Nat) :
    fit size (rs.map f) room = ((fit (fun r => size (f r)) rs room).1.map f,
      (fit (fun r => size (f r)) rs room).2.map f) := by
  induction rs generalizing room with
  | nil => rfl
  | cons r rs ih =>
    rw [List.map_cons]
    by_cases h : size (f r) < room
    · rw [fit_cons_of_lt size _ h, fit_cons_of_lt (fun r => size (f r)) rs h, ih]
      rfl
    · rw [fit_cons_of_le size _ (Nat.not_lt.mp h),
        fit_cons_of_le (fun r => size (f r)) rs (Nat.not_lt.mp h)]
      rfl

/-- Where the rest is empty, the last pending record was sent, and only there. -/
theorem fit_last_mem_iff (size : Rec → Nat) {rs : List Rec} {last : Rec} (room : Nat)
    (h_nodup : (rs ++ [last]).Nodup) :
    last ∈ (fit size (rs ++ [last]) room).1 ↔ (fit size (rs ++ [last]) room).2 = [] := by
  have h_app := fit_append size (rs ++ [last]) room
  constructor
  · intro h_mem
    by_contra h_ne
    -- the rest would end in `last` as well, which occurs only once
    have h_last : (fit size (rs ++ [last]) room).2.getLast h_ne = last := by
      have h := List.getLast_append_of_right_ne_nil (fit size (rs ++ [last]) room).1 _ h_ne
      simp only [h_app, List.getLast_append_singleton] at h
      exact h.symm
    rw [← h_app] at h_nodup
    have h_rest := List.getLast_mem h_ne
    rw [h_last] at h_rest
    exact (List.nodup_append.mp h_nodup).2.2 _ h_mem _ h_rest rfl
  · intro h_nil
    rw [h_nil, List.append_nil] at h_app
    rw [h_app]
    simp

/-! ### Sequences of turns -/

/-- One turn: the environment its records are rendered in, and the room it has. -/
structure Turn (Env : Type) where
  env : Env
  room : Nat

/-- What one turn sent, and whether that finished the report. -/
structure Sent (Rec : Type) where
  records : List Rec
  finished : Bool

/-- The size of a record in an environment. -/
def size (render : Env → Rec → List Sym) (env : Env) (r : Rec) : Nat := (render env r).length

/-- What is pending after a turn that left `left`: a finished report starts over. -/
def next (report left : List Rec) : List Rec := if left = [] then report else left

/-- What one turn sends from `pending`. -/
def Turn.sent (render : Env → Rec → List Sym) (pending : List Rec) (t : Turn Env) : Sent Rec :=
  ⟨(fit (size render t.env) pending t.room).1, (fit (size render t.env) pending t.room).2.isEmpty⟩

/-- What is pending after one turn. -/
def Turn.pending (render : Env → Rec → List Sym) (report pending : List Rec) (t : Turn Env) :
    List Rec := next report (fit (size render t.env) pending t.room).2

/-- The turns `ts`, one after the other. -/
def send (render : Env → Rec → List Sym) (report : List Rec) :
    List Rec → List (Turn Env) → List (Sent Rec)
  | _, [] => []
  | pending, t :: ts =>
    t.sent render pending :: send render report (t.pending render report pending) ts

/-- What is pending after the turns `ts`. -/
def pendingAfter (render : Env → Rec → List Sym) (report : List Rec) :
    List Rec → List (Turn Env) → List Rec
  | pending, [] => pending
  | pending, t :: ts => pendingAfter render report (t.pending render report pending) ts

variable {render : Env → Rec → List Sym} {report : List Rec}

/-- The records of a sequence of turns, in the order in which they were sent. -/
def allRecords (ss : List (Sent Rec)) : List Rec := ss.flatMap Sent.records

/-- How often the report was finished. -/
def timesFinished (ss : List (Sent Rec)) : Nat := ss.countP Sent.finished

theorem timesFinished_cons_of_finished {s : Sent Rec} (h : s.finished = true)
    (ss : List (Sent Rec)) : timesFinished (s :: ss) = timesFinished ss + 1 :=
  List.countP_cons_of_pos h

theorem timesFinished_cons_of_not {s : Sent Rec} (h : ¬ s.finished = true)
    (ss : List (Sent Rec)) : timesFinished (s :: ss) = timesFinished ss :=
  List.countP_cons_of_neg h

/-- **Conservation.** Over any sequence of turns, the records sent and the records still pending
are those pending at the start, followed by one whole report for each time it was finished. -/
theorem send_conserves (render : Env → Rec → List Sym) (report pending : List Rec)
    (ts : List (Turn Env)) :
    allRecords (send render report pending ts) ++ pendingAfter render report pending ts
      = pending ++ (List.replicate (timesFinished (send render report pending ts)) report).flatten
    := by
  induction ts generalizing pending with
  | nil => exact (List.append_nil _).symm
  | cons t ts ih =>
    have h_app := fit_append (size render t.env) pending t.room
    have h_ih := ih (t.pending render report pending)
    -- this turn's own records and what it left are what was pending
    have h_turn : allRecords (send render report pending (t :: ts))
          ++ pendingAfter render report pending (t :: ts)
        = (fit (size render t.env) pending t.room).1 ++ (t.pending render report pending
          ++ (List.replicate (timesFinished (send render report (t.pending render report pending)
            ts)) report).flatten) := by
      rw [← h_ih, ← List.append_assoc]
      rfl
    rw [h_turn, send]
    by_cases h_nil : (fit (size render t.env) pending t.room).2 = []
    · -- finished: the next report is pending
      have h_fin : (t.sent render pending).finished = true := by
        simp only [Turn.sent, h_nil, List.isEmpty_nil]
      rw [h_nil, List.append_nil] at h_app
      rw [timesFinished_cons_of_finished h_fin, List.replicate_succ, List.flatten_cons, h_app]
      simp only [Turn.pending, next, h_nil, if_true]
    · have h_fin : ¬ (t.sent render pending).finished = true := by
        simpa only [Turn.sent, List.isEmpty_iff] using h_nil
      rw [timesFinished_cons_of_not h_fin]
      simp only [Turn.pending, next, if_neg h_nil]
      rw [← List.append_assoc, h_app]

/-- A report ends in `last`, which occurs in it only once; so does every nonempty rest of it. -/
def EndsIn (last : Rec) (rs : List Rec) : Prop := rs.Nodup ∧ ∃ qs, rs = qs ++ [last]

theorem EndsIn.ne_nil {last : Rec} {rs : List Rec} (h : EndsIn last rs) : rs ≠ [] := by
  obtain ⟨-, qs, rfl⟩ := h
  simp

theorem EndsIn.cons {last r : Rec} {rs : List Rec} (h : EndsIn last rs) (hr : r ∉ rs) :
    EndsIn last (r :: rs) := by
  obtain ⟨h_nodup, qs, rfl⟩ := h
  exact ⟨List.nodup_cons.mpr ⟨hr, h_nodup⟩, r :: qs, rfl⟩

theorem EndsIn.map {Rec' : Type} {f : Rec → Rec'} (hf : f.Injective) {last : Rec} {rs : List Rec}
    (h : EndsIn last rs) : EndsIn (f last) (rs.map f) := by
  obtain ⟨h_nodup, qs, rfl⟩ := h
  exact ⟨List.Nodup.map hf h_nodup, qs.map f, by simp⟩

theorem EndsIn.turn {last : Rec} {pending : List Rec} (h_report : EndsIn last report)
    (h : EndsIn last pending) (t : Turn Env) : EndsIn last (t.pending render report pending) := by
  unfold Turn.pending next
  -- what is pending is a whole report, or the end of the one under way
  by_cases h_nil : (fit (size render t.env) pending t.room).2 = []
  · rw [if_pos h_nil]
    exact h_report
  · rw [if_neg h_nil]
    obtain ⟨h_nodup, qs, rfl⟩ := h
    have h_app := fit_append (size render t.env) (qs ++ [last]) t.room
    rw [← h_app] at h_nodup
    refine ⟨(List.nodup_append.mp h_nodup).2.1, ?_⟩
    rcases List.eq_nil_or_concat (fit (size render t.env) (qs ++ [last]) t.room).2 with
      h | ⟨us, u, h⟩
    · exact absurd h h_nil
    · rw [List.concat_eq_append] at h
      rw [h, ← List.append_assoc] at h_app
      obtain ⟨-, h_last⟩ := List.append_inj' h_app rfl
      exact ⟨us, by rw [h, h_last]⟩

/-- **A turn finishes the report exactly if it sends the last record.** -/
theorem finished_iff_last_mem (render : Env → Rec → List Sym) {last : Rec}
    (h_report : EndsIn last report) {pending : List Rec} (h : EndsIn last pending)
    (ts : List (Turn Env)) :
    ∀ s ∈ send render report pending ts, s.finished = true ↔ last ∈ s.records := by
  induction ts generalizing pending with
  | nil => intro s hs; cases hs
  | cons t ts ih =>
    intro s hs
    rcases List.mem_cons.mp hs with rfl | hs
    · obtain ⟨h_nodup, qs, rfl⟩ := h
      exact List.isEmpty_iff.trans (fit_last_mem_iff (size render t.env) t.room h_nodup).symm
    · exact ih (h_report.turn h t) s hs

/-- **Progress.** If every turn has room for every record, a report with `n` records pending is
finished within `n` turns. -/
theorem exists_finished (render : Env → Rec → List Sym) (report : List Rec) {pending : List Rec}
    (ts : List (Turn Env)) (h_len : pending.length ≤ ts.length)
    (h_ne : pending ≠ []) (h_room : ∀ t ∈ ts, ∀ r ∈ pending, size render t.env r < t.room) :
    ∃ s ∈ send render report pending ts, s.finished = true := by
  induction ts generalizing pending with
  | nil =>
    rw [List.length_nil, Nat.le_zero, List.length_eq_zero_iff] at h_len
    exact absurd h_len h_ne
  | cons t ts ih =>
    by_cases h_nil : (fit (size render t.env) pending t.room).2 = []
    · refine ⟨t.sent render pending, by simp [send], ?_⟩
      simp only [Turn.sent, h_nil, List.isEmpty_nil]
    · -- the turn sent at least the first record, so fewer are left
      obtain ⟨r, rs, rfl⟩ := List.exists_cons_of_ne_nil h_ne
      have h_app := fit_append (size render t.env) (r :: rs) t.room
      have h_first := h_room t (by simp) r (by simp)
      have h_next : t.pending render report (r :: rs)
          = (fit (size render t.env) (r :: rs) t.room).2 := if_neg h_nil
      have h_short : (fit (size render t.env) (r :: rs) t.room).2.length ≤ ts.length := by
        have h := congrArg List.length h_app
        rw [fit_cons_of_lt _ rs h_first] at h ⊢
        simp only [List.length_append, List.length_cons] at h h_len ⊢
        omega
      obtain ⟨s, hs, h_fin⟩ := ih (h_next ▸ h_short) (h_next ▸ h_nil) (by
        intro u hu q hq
        rw [h_next] at hq
        exact h_room u (List.mem_cons_of_mem _ hu) q (h_app ▸ List.mem_append_right _ hq))
      exact ⟨s, List.mem_cons_of_mem _ hs, h_fin⟩

end Resumable
