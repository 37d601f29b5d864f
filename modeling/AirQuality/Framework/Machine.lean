import Mathlib.Data.List.Induction

/-!
# Machines driven by inputs

A deterministic machine takes one input per step. Its runs are folds (`run`); what it does on the
way is a `trace` of events. A run may be given up where it leaves a set of states (`runWhile`).

The state after a run often depends on the whole history, so the induction rule
(`run_history`) carries the inputs consumed so far along with the state. `Along Q is` says that
every input of `is` satisfies `Q` given the inputs before it; it is how a condition on the steps of
a run is stated without mentioning the machine. `Sometime Q is` says it of some input, and
`countAlong p is` counts the inputs that satisfy `p`, given the inputs before them;
`gatherAlong f is` collects what they add, and `sumAlong f is` adds up what they cost. `lastOf f`
looks up the last input of a history to which a partial function applies, which is what a variable
holds that is overwritten by some of the steps.
-/

namespace Machine

variable {σ ι ε α : Type}

/-! ### Runs -/

/-- The state after the inputs `is`. -/
def run (step : σ → ι → σ) (s : σ) (is : List ι) : σ := is.foldl step s

variable {step : σ → ι → σ} {s : σ}

@[simp] theorem run_nil : run step s [] = s := rfl

@[simp] theorem run_concat (is : List ι) (i : ι) :
    run step s (is ++ [i]) = step (run step s is) i := by
  simp [run]

theorem run_append (is js : List ι) : run step s (is ++ js) = run step (run step s is) js := by
  simp [run]

@[simp] theorem run_cons (i : ι) (is : List ι) :
    run step s (i :: is) = run step (step s i) is := rfl

/-- **Induction along a history.** What holds of the empty history and the initial state, and is
preserved by every step, holds after every run. -/
theorem run_history {P : List ι → σ → Prop} (h_init : P [] s)
    (h_step : ∀ is i t, P is t → P (is ++ [i]) (step t i)) (is : List ι) :
    P is (run step s is) := by
  induction is using List.reverseRecOn with
  | nil => exact h_init
  | append_singleton is i ih =>
    rw [run_concat]
    exact h_step is i _ ih

/-! ### Runs that are given up -/

/-- The run over `is` as long as it stays in `P`: the last state reached, and whether that is the
end of the run. A state outside `P` is reached, but not left. -/
def runWhile (P : σ → Prop) [DecidablePred P] (step : σ → ι → σ) : σ → List ι → σ × Bool
  | s, [] => (s, true)
  | s, i :: is => if P (step s i) then runWhile P step (step s i) is else (step s i, false)

/-- If no step leads back into `P`, a run that ends in `P` started there. -/
theorem of_run {P : σ → Prop} (h_back : ∀ s i, P (step s i) → P s) {is : List ι}
    (h : P (run step s is)) : P s := by
  induction is generalizing s with
  | nil => exact h
  | cons i is ih => exact h_back s i (ih h)

section

variable {P : σ → Prop} [DecidablePred P]

theorem runWhile_cons_of_pos {i : ι} (h : P (step s i)) (is : List ι) :
    runWhile P step s (i :: is) = runWhile P step (step s i) is := if_pos h

theorem runWhile_cons_of_neg {i : ι} (h : ¬ P (step s i)) (is : List ι) :
    runWhile P step s (i :: is) = (step s i, false) := if_neg h

/-- **Not given up.** If no step leads back into `P`, a run that ends in `P` goes to its end. -/
theorem runWhile_of_pos (h_back : ∀ s i, P (step s i) → P s) {is : List ι}
    (h : P (run step s is)) : runWhile P step s is = (run step s is, true) := by
  induction is generalizing s with
  | nil => rfl
  | cons i is ih =>
    rw [runWhile_cons_of_pos (of_run h_back h)]
    exact ih h

/-- **Given up.** A run that starts in `P` and ends outside is given up at the first input that
leads outside, whatever comes behind it. -/
theorem runWhile_of_neg {is : List ι} (h_start : P s) (h : ¬ P (run step s is)) :
    ∃ pre i post, is = pre ++ i :: post ∧ P (run step s pre) ∧ ¬ P (run step s (pre ++ [i])) ∧
      ∀ post', runWhile P step s (pre ++ i :: post') = (run step s (pre ++ [i]), false) := by
  induction is generalizing s with
  | nil => exact absurd h_start h
  | cons i is ih =>
    by_cases h_next : P (step s i)
    · obtain ⟨pre, j, post, rfl, h_pre, h_out, h_run⟩ := ih h_next h
      refine ⟨i :: pre, j, post, rfl, h_pre, h_out, fun post' => ?_⟩
      rw [List.cons_append, runWhile_cons_of_pos h_next]
      exact h_run post'
    · exact ⟨[], i, is, rfl, h_start, h_next, runWhile_cons_of_neg h_next⟩

/-- What is preserved by the steps from states in `P` holds of the last state reached. -/
theorem runWhile_invariant {Q : σ → Prop} (h_step : ∀ s i, P s → Q s → Q (step s i))
    (h_start : P s) (h_init : Q s) (is : List ι) : Q (runWhile P step s is).1 := by
  induction is generalizing s with
  | nil => exact h_init
  | cons i is ih =>
    have h_next := h_step s i h_start h_init
    by_cases h : P (step s i)
    · rw [runWhile_cons_of_pos h]
      exact ih h h_next
    · rw [runWhile_cons_of_neg h]
      exact h_next

end

/-! ### Traces -/

/-- The events of the run over `is`, where one step from `s` with input `i` does `emit s i`. -/
def trace (step : σ → ι → σ) (emit : σ → ι → List ε) : σ → List ι → List ε
  | _, [] => []
  | s, i :: is => emit s i ++ trace step emit (step s i) is

variable {emit : σ → ι → List ε}

@[simp] theorem trace_nil : trace step emit s [] = [] := rfl

theorem trace_append (is js : List ι) :
    trace step emit s (is ++ js) = trace step emit s is ++ trace step emit (run step s is) js := by
  induction is generalizing s with
  | nil => rfl
  | cons i is ih =>
    show emit s i ++ trace step emit (step s i) (is ++ js) = _
    rw [ih, ← List.append_assoc]
    rfl

theorem trace_concat (is : List ι) (i : ι) :
    trace step emit s (is ++ [i]) = trace step emit s is ++ emit (run step s is) i := by
  rw [trace_append]
  show _ ++ (emit _ i ++ []) = _
  rw [List.append_nil]

/-- **Induction along a trace.** The rule for properties of the events so far and the state. -/
theorem trace_invariant {P : List ε → σ → Prop} (h_init : P [] s)
    (h_step : ∀ tr t i, P tr t → P (tr ++ emit t i) (step t i)) (is : List ι) :
    P (trace step emit s is) (run step s is) := by
  induction is using List.reverseRecOn with
  | nil => exact h_init
  | append_singleton is i ih =>
    rw [run_concat, trace_concat]
    exact h_step _ _ i ih

/-! ### Projections -/

section

variable {τ κ : Type} {step' : τ → κ → τ}

/-- **Projection.** If every step of a machine shows in a part of its state as a run of another
machine, then so does every run. -/
theorem run_projection (part : σ → τ) {inputs : σ → ι → List κ}
    (h : ∀ s i, part (step s i) = run step' (part s) (inputs s i)) (is : List ι) :
    part (run step s is) = run step' (part s) (trace step inputs s is) := by
  induction is generalizing s with
  | nil => rfl
  | cons i is ih =>
    show _ = run step' (part s) (inputs s i ++ trace step inputs (step s i) is)
    rw [run_cons, ih, h, run_append]

/-- The inputs of the other machine may depend on those of the first alone. -/
theorem trace_of_inputs (inputs : ι → List κ) (is : List ι) :
    trace step (fun _ => inputs) s is = is.flatMap inputs := by
  induction is generalizing s with
  | nil => rfl
  | cons i is ih =>
    show inputs i ++ trace step (fun _ => inputs) (step s i) is = _
    rw [ih, List.flatMap_cons]

end

/-! ### Conditions along a history -/

/-- Every input satisfies `Q`, given the inputs before it. -/
def Along (Q : List ι → ι → Prop) (is : List ι) : Prop :=
  ∀ pre i post, is = pre ++ i :: post → Q pre i

theorem along_nil (Q : List ι → ι → Prop) : Along Q [] := by
  intro pre i post h
  simp at h

theorem along_concat {Q : List ι → ι → Prop} {is : List ι} {i : ι} :
    Along Q (is ++ [i]) ↔ Along Q is ∧ Q is i := by
  constructor
  · intro h
    refine ⟨fun pre j post h_split => h pre j (post ++ [i]) (by simp [h_split]), ?_⟩
    exact h is i [] rfl
  · rintro ⟨h, h_last⟩ pre j post h_split
    rcases List.eq_nil_or_concat post with rfl | ⟨qs, q, rfl⟩
    · obtain ⟨rfl, h_eq⟩ := List.append_inj' h_split rfl
      obtain rfl : i = j := by simpa using h_eq
      exact h_last
    · -- the last input is `i`, so the split is one of `is`
      rw [List.concat_eq_append, ← List.cons_append, ← List.append_assoc] at h_split
      obtain ⟨rfl, -⟩ := List.append_inj' h_split rfl
      exact h pre j qs rfl

/-- A history in two parts: the first part counts as past for the second. -/
theorem along_append {Q : List ι → ι → Prop} {is js : List ι} :
    Along Q (is ++ js) ↔ Along Q is ∧ Along (fun pre j => Q (is ++ pre) j) js := by
  induction js using List.reverseRecOn with
  | nil =>
    rw [List.append_nil]
    exact ⟨fun h => ⟨h, along_nil _⟩, fun h => h.1⟩
  | append_singleton js j ih =>
    rw [← List.append_assoc, along_concat, along_concat, ih, and_assoc]

theorem along_cons {Q : List ι → ι → Prop} {is : List ι} {i : ι} :
    Along Q (i :: is) ↔ Q [] i ∧ Along (fun pre j => Q (i :: pre) j) is := by
  rw [← List.singleton_append, along_append, ← List.nil_append [i], along_concat]
  exact and_congr_left fun _ => ⟨fun h => h.2, fun h => ⟨along_nil Q, h⟩⟩

theorem Along.of_append {Q : List ι → ι → Prop} {pre post : List ι} (h : Along Q (pre ++ post)) :
    Along Q pre := (along_append.mp h).1

/-- Some input satisfies `Q`, given the inputs before it. -/
def Sometime (Q : List ι → ι → Prop) (is : List ι) : Prop :=
  ∃ pre i post, is = pre ++ i :: post ∧ Q pre i

/-- The two are dual. -/
theorem sometime_iff {Q : List ι → ι → Prop} {is : List ι} :
    Sometime Q is ↔ ¬ Along (fun pre i => ¬ Q pre i) is := by
  constructor
  · rintro ⟨pre, i, post, h_split, h⟩ h_never
    exact h_never pre i post h_split h
  · intro h
    by_contra h_not
    exact h fun pre i post h_split hQ => h_not ⟨pre, i, post, h_split, hQ⟩

theorem sometime_nil (Q : List ι → ι → Prop) : ¬ Sometime Q [] :=
  fun h => sometime_iff.mp h (along_nil _)

theorem sometime_concat {Q : List ι → ι → Prop} {is : List ι} {i : ι} :
    Sometime Q (is ++ [i]) ↔ Sometime Q is ∨ Q is i := by
  rw [sometime_iff, sometime_iff, along_concat, not_and_or, not_not]

/-! ### Counting along a history -/

/-- How many of `is` satisfy `p`, given the inputs before them, where `pre` came first. -/
def countFrom (p : List ι → ι → Bool) : List ι → List ι → ℕ
  | _, [] => 0
  | pre, i :: is => (p pre i).toNat + countFrom p (pre ++ [i]) is

/-- How many inputs satisfy `p`, given the inputs before them. -/
def countAlong (p : List ι → ι → Bool) (is : List ι) : ℕ := countFrom p [] is

@[simp] theorem countAlong_nil (p : List ι → ι → Bool) : countAlong p [] = 0 := rfl

theorem countFrom_concat (p : List ι → ι → Bool) (pre is : List ι) (i : ι) :
    countFrom p pre (is ++ [i]) = countFrom p pre is + (p (pre ++ is) i).toNat := by
  induction is generalizing pre with
  | nil =>
    show (p pre i).toNat + 0 = 0 + (p (pre ++ []) i).toNat
    rw [List.append_nil, Nat.add_comm]
  | cons j is ih =>
    calc (p pre j).toNat + countFrom p (pre ++ [j]) (is ++ [i])
        = (p pre j).toNat + (countFrom p (pre ++ [j]) is + (p (pre ++ [j] ++ is) i).toNat) := by
          rw [ih]
      _ = countFrom p pre (j :: is) + (p (pre ++ j :: is) i).toNat := by
          rw [List.append_assoc, ← Nat.add_assoc]
          rfl

theorem countAlong_concat (p : List ι → ι → Bool) (is : List ι) (i : ι) :
    countAlong p (is ++ [i]) = countAlong p is + (p is i).toNat :=
  countFrom_concat p [] is i

/-- None satisfies `p` if and only if all along the history `p` fails. -/
theorem countAlong_eq_zero {p : List ι → ι → Bool} {is : List ι} :
    countAlong p is = 0 ↔ Along (fun pre i => p pre i = false) is := by
  induction is using List.reverseRecOn with
  | nil => exact ⟨fun _ => along_nil _, fun _ => rfl⟩
  | append_singleton is i ih =>
    rw [countAlong_concat, along_concat, ← ih, Nat.add_eq_zero_iff, Bool.toNat_eq_zero]

/-- The input makes `p` true. -/
def rises (p : List ι → Bool) (pre : List ι) (i : ι) : Bool := !p pre && p (pre ++ [i])

/-- The input makes `p` false. -/
def falls (p : List ι → Bool) (pre : List ι) (i : ι) : Bool := p pre && !p (pre ++ [i])

/-- What is false at first was made true once more than false if it is true now, and as often if
it is not. -/
theorem countAlong_rises {p : List ι → Bool} (h_first : p [] = false) (is : List ι) :
    countAlong (rises p) is = countAlong (falls p) is + (p is).toNat := by
  induction is using List.reverseRecOn with
  | nil => rw [h_first]; rfl
  | append_singleton is i ih =>
    rw [countAlong_concat, countAlong_concat, ih]
    unfold rises falls
    cases p is <;> cases p (is ++ [i]) <;> rfl

/-- What the inputs add, given the inputs before them. -/
def gatherAlong (f : List ι → ι → List ε) (is : List ι) : List ε :=
  trace (fun pre i => pre ++ [i]) f [] is

@[simp] theorem gatherAlong_nil (f : List ι → ι → List ε) : gatherAlong f [] = [] := rfl

theorem gatherAlong_concat (f : List ι → ι → List ε) (is : List ι) (i : ι) :
    gatherAlong f (is ++ [i]) = gatherAlong f is ++ f is i := by
  have h_past : run (fun pre i => pre ++ [i]) [] is = is := by
    induction is using List.reverseRecOn with
    | nil => rfl
    | append_singleton is j ih => rw [run_concat, ih]
  unfold gatherAlong
  rw [trace_concat, h_past]

/-- The sum of what the inputs cost, given the inputs before them. -/
def sumAlong (f : List ι → ι → ℕ) (is : List ι) : ℕ :=
  (gatherAlong (fun pre i => [f pre i]) is).foldl (· + ·) 0

@[simp] theorem sumAlong_nil (f : List ι → ι → ℕ) : sumAlong f [] = 0 := rfl

theorem sumAlong_concat (f : List ι → ι → ℕ) (is : List ι) (i : ι) :
    sumAlong f (is ++ [i]) = sumAlong f is + f is i := by
  unfold sumAlong
  rw [gatherAlong_concat, List.foldl_append]
  rfl

/-! ### The last relevant input -/

/-- The last value of `f` in the history, or `default` if there was none. -/
def lastOf (f : ι → Option α) (default : α) (is : List ι) : α :=
  is.foldl (fun a i => (f i).getD a) default

@[simp] theorem lastOf_nil (f : ι → Option α) (a : α) : lastOf f a [] = a := rfl

@[simp] theorem lastOf_concat (f : ι → Option α) (a : α) (is : List ι) (i : ι) :
    lastOf f a (is ++ [i]) = (f i).getD (lastOf f a is) := by
  simp [lastOf]

theorem lastOf_append (f : ι → Option α) (a : α) (is js : List ι) :
    lastOf f a (is ++ js) = lastOf f (lastOf f a is) js := by
  simp [lastOf]

/-- Inputs to which `f` does not apply leave the last value alone. -/
theorem lastOf_of_none {f : ι → Option α} {is : List ι} (h : ∀ i ∈ is, f i = none) (a : α) :
    lastOf f a is = a := by
  induction is with
  | nil => rfl
  | cons i is ih =>
    have h_rest := ih fun j hj => h j (List.mem_cons_of_mem _ hj)
    unfold lastOf at h_rest ⊢
    rw [List.foldl_cons, h i List.mem_cons_self, Option.getD_none, h_rest]

/-- The last value in a trace, if each step shows there as at most one value. -/
theorem lastOf_trace {f : ε → Option α} {g : ι → Option α}
    (h : ∀ s i a, lastOf f a (emit s i) = (g i).getD a) (a : α) (is : List ι) :
    lastOf f a (trace step emit s is) = lastOf g a is := by
  induction is using List.reverseRecOn with
  | nil => rfl
  | append_singleton is i ih => rw [trace_concat, lastOf_append, h, ih, lastOf_concat]

/-- The last value is the default or the value of some input. -/
theorem lastOf_cases (f : ι → Option α) (a : α) (is : List ι) :
    lastOf f a is = a ∨ ∃ i ∈ is, f i = some (lastOf f a is) := by
  induction is using List.reverseRecOn with
  | nil => exact Or.inl rfl
  | append_singleton is i ih =>
    rw [lastOf_concat]
    cases h : f i with
    | some b => exact Or.inr ⟨i, by simp, h⟩
    | none =>
      rw [Option.getD_none]
      rcases ih with h_def | ⟨j, hj, h_some⟩
      · exact Or.inl h_def
      · exact Or.inr ⟨j, List.mem_append_left _ hj, h_some⟩

end Machine
