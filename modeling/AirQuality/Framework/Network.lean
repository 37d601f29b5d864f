import Mathlib.Logic.Function.Basic
import AirQuality.Framework.Machine

/-!
# Parties that send to a receiver

A network has any number of parties, each a machine of its own that sends messages on the way, and
a receiver. Everything that was ever sent stays in flight: the network hands the receiver any of
it, in any order, any number of times or never. So it loses, duplicates and reorders messages as it
likes, and the steps of the parties come in any order; the one thing it does not do is make a
message up.

What a network reaches is taken apart here, once. Each party is where its own inputs take it
(`run_parties`); what is in flight was sent by some party in a run of its own (`mem_sent_iff`); and
the receiver is where the messages that it was handed take it (`run_receiver`), each of which had
been sent before (`sent_of_received`). A property of the receiver therefore needs an argument about
one party, and one about the receiver, and none about the interleaving (`receiver_invariant`).
-/

namespace Network

open Machine

variable {κ σ ι μ ρ α : Type}

/-! ### Networks -/

/-- The parties: the steps that each of them takes, and what it sends in a step. -/
structure Parties (κ σ ι μ : Type) where
  step : κ → σ → ι → σ
  send : κ → σ → ι → List μ

/-- What happens next: a party takes a step, the receiver is handed message number `n` of those in
flight, or the receiver takes a step of its own. -/
inductive Input (κ ι α : Type) where
  | act (k : κ) (i : ι)
  | deliver (n : ℕ)
  | own (a : α)

/-- The parties, the messages sent so far, and the receiver. -/
structure State (κ σ μ ρ : Type) where
  parties : κ → σ
  sent : List μ
  receiver : ρ

section

variable [DecidableEq κ] (P : Parties κ σ ι μ) (receive : ρ → μ ⊕ α → ρ)

/-- What the receiver is handed in a step. -/
def handed (s : State κ σ μ ρ) : Input κ ι α → List (μ ⊕ α)
  | .act _ _ => []
  | .deliver n => (s.sent[n]?).toList.map .inl
  | .own a => [.inr a]

/-- One step of the network. -/
def step (s : State κ σ μ ρ) : Input κ ι α → State κ σ μ ρ
  | .act k i => { s with
      parties := Function.update s.parties k (P.step k (s.parties k) i)
      sent := s.sent ++ P.send k (s.parties k) i }
  | .deliver n =>
    { s with receiver := run receive s.receiver (handed s (.deliver n : Input κ ι α)) }
  | .own a => { s with receiver := receive s.receiver (.inr a) }

/-- What the receiver is handed in the run over `is`, in order. -/
def received (s : State κ σ μ ρ) (is : List (Input κ ι α)) : List (μ ⊕ α) :=
  trace (step P receive) handed s is

/-- The inputs of the party `k`. -/
def inputsOf (k : κ) (is : List (Input κ ι α)) : List ι :=
  is.filterMap fun i => match i with
    | .act k' i => if k' = k then some i else none
    | .deliver _ => none
    | .own _ => none

/-- The messages that the party `k` sends when it is given the inputs `js`. -/
def sentBy (s : State κ σ μ ρ) (k : κ) (js : List ι) : List μ :=
  trace (P.step k) (P.send k) (s.parties k) js

end

section

variable [DecidableEq κ] {P : Parties κ σ ι μ} {receive : ρ → μ ⊕ α → ρ} {s : State κ σ μ ρ}

theorem inputsOf_append (k : κ) (is js : List (Input κ ι α)) :
    inputsOf k (is ++ js) = inputsOf k is ++ inputsOf k js := List.filterMap_append

theorem inputsOf_act_self (k : κ) (i : ι) :
    inputsOf k [(.act k i : Input κ ι α)] = [i] := by
  simp [inputsOf]

theorem inputsOf_act_of_ne {k k' : κ} (h : k' ≠ k) (i : ι) :
    inputsOf k [(.act k' i : Input κ ι α)] = [] := by
  simp [inputsOf, h]

/-! ### Where the parties are -/

/-- **Each party is where its own inputs take it**, whatever happens in between. -/
theorem run_parties (k : κ) (is : List (Input κ ι α)) :
    (run (step P receive) s is).parties k = run (P.step k) (s.parties k) (inputsOf k is) := by
  induction is using List.reverseRecOn with
  | nil => rfl
  | append_singleton is i ih =>
    rw [run_concat, inputsOf_append, run_append, ← ih]
    cases i with
    | act k' i =>
      by_cases h : k' = k
      · subst h
        rw [inputsOf_act_self]
        exact Function.update_self ..
      · -- a step of another party
        rw [inputsOf_act_of_ne h]
        exact Function.update_of_ne (Ne.symm h) ..
    | deliver n => rfl
    | own a => rfl

/-- **What is in flight** was there before, or was sent by a party in a run of its own. -/
theorem mem_sent_iff {m : μ} (is : List (Input κ ι α)) :
    m ∈ (run (step P receive) s is).sent ↔
      m ∈ s.sent ∨ ∃ k, m ∈ sentBy P s k (inputsOf k is) := by
  induction is using List.reverseRecOn with
  | nil => simp [inputsOf, sentBy]
  | append_singleton is i ih =>
    rw [run_concat]
    cases i with
    | act k i =>
      have h_party : ∀ k', m ∈ sentBy P s k' (inputsOf k' (is ++ [.act k i])) ↔
          m ∈ sentBy P s k' (inputsOf k' is) ∨
            (k' = k ∧ m ∈ P.send k ((run (step P receive) s is).parties k) i) := by
        intro k'
        rw [inputsOf_append]
        by_cases h : k = k'
        · subst h
          rw [inputsOf_act_self, run_parties]
          simp [sentBy, trace_concat]
        · rw [inputsOf_act_of_ne h, List.append_nil]
          simp [Ne.symm h]
      show m ∈ (run (step P receive) s is).sent ++ P.send k _ i ↔ _
      simp only [List.mem_append, ih, h_party, exists_or, exists_eq_left, or_assoc]
    | deliver n =>
      -- nothing is sent
      show m ∈ (run (step P receive) s is).sent ↔ _
      simp only [ih, inputsOf_append]
      simp [inputsOf]
    | own a =>
      show m ∈ (run (step P receive) s is).sent ↔ _
      simp only [ih, inputsOf_append]
      simp [inputsOf]

/-- **The messages of one party.** If `p` tells what `k` sends from what the others send, then the
messages in flight that satisfy `p` are those that `k` sends in a run of its own, in that order. -/
theorem sent_filter {p : μ → Bool} {k : κ} (h_self : ∀ js, ∀ m ∈ sentBy P s k js, p m = true)
    (h_other : ∀ k', k' ≠ k → ∀ js, ∀ m ∈ sentBy P s k' js, p m = false)
    (is : List (Input κ ι α)) :
    (run (step P receive) s is).sent.filter p
      = s.sent.filter p ++ sentBy P s k (inputsOf k is) := by
  induction is using List.reverseRecOn with
  | nil => exact (List.append_nil _).symm
  | append_singleton is i ih =>
    rw [run_concat, inputsOf_append]
    cases i with
    | act k' i =>
      -- what a step of the party `k'` adds to a run of its own
      have h_sent : sentBy P s k' (inputsOf k' is ++ [i]) = sentBy P s k' (inputsOf k' is)
          ++ P.send k' ((run (step P receive) s is).parties k') i := by
        rw [run_parties]
        exact trace_concat _ _
      show ((run (step P receive) s is).sent ++ P.send k' _ i).filter p = _
      rw [List.filter_append, ih]
      by_cases h : k' = k
      · subst h
        have h_all : (P.send k' ((run (step P receive) s is).parties k') i).filter p
            = P.send k' ((run (step P receive) s is).parties k') i := by
          refine List.filter_eq_self.mpr fun m hm => h_self (inputsOf k' is ++ [i]) m ?_
          rw [h_sent]
          exact List.mem_append_right _ hm
        rw [inputsOf_act_self, h_sent, h_all, List.append_assoc]
      · have h_none : (P.send k' ((run (step P receive) s is).parties k') i).filter p = [] := by
          refine List.filter_eq_nil_iff.mpr fun m hm => ?_
          rw [h_other k' h (inputsOf k' is ++ [i]) m (h_sent ▸ List.mem_append_right _ hm)]
          exact Bool.false_ne_true
        rw [inputsOf_act_of_ne h, h_none, List.append_nil, List.append_nil]
    | deliver n =>
      -- nothing is sent
      show (run (step P receive) s is).sent.filter p = _
      rw [ih]
      simp [inputsOf]
    | own a =>
      show (run (step P receive) s is).sent.filter p = _
      rw [ih]
      simp [inputsOf]

/-- Nothing is taken out of flight. -/
theorem sent_mono (is js : List (Input κ ι α)) {m : μ}
    (h : m ∈ (run (step P receive) s is).sent) : m ∈ (run (step P receive) s (is ++ js)).sent := by
  rw [run_append, mem_sent_iff]
  exact Or.inl h

/-! ### Where the receiver is -/

/-- **The receiver is where the messages that it was handed take it.** -/
theorem run_receiver (is : List (Input κ ι α)) :
    (run (step P receive) s is).receiver = run receive s.receiver (received P receive s is) := by
  induction is using List.reverseRecOn with
  | nil => rfl
  | append_singleton is i ih =>
    unfold received
    rw [run_concat, trace_concat, run_append]
    change _ = run receive (run receive s.receiver (received P receive s is)) _
    rw [← ih]
    cases i <;> rfl

/-- **No message is made up**: what the receiver was handed had been sent. -/
theorem sent_of_received (is : List (Input κ ι α)) {m : μ}
    (h : .inl m ∈ received P receive s is) : m ∈ (run (step P receive) s is).sent := by
  induction is using List.reverseRecOn with
  | nil => simp [received] at h
  | append_singleton is i ih =>
    unfold received at h
    rw [trace_concat, List.mem_append] at h
    rcases h with h | h
    · exact sent_mono is [i] (ih h)
    · -- handed over in the last step
      cases i with
      | act k i => simp [handed] at h
      | own a => simp [handed] at h
      | deliver n =>
        refine sent_mono is [.deliver n] (List.mem_of_getElem? (i := n) ?_)
        simpa [handed] using h

/-- Nor are steps of the receiver. -/
theorem own_of_received (is : List (Input κ ι α)) {a : α}
    (h : .inr a ∈ received P receive s is) : .own a ∈ is := by
  induction is using List.reverseRecOn with
  | nil => simp [received] at h
  | append_singleton is i ih =>
    unfold received at h
    rw [trace_concat, List.mem_append] at h
    rcases h with h | h
    · exact List.mem_append_left _ (ih h)
    · refine List.mem_append_right _ ?_
      cases i with
      | act k i => simp [handed] at h
      | deliver n => simp [handed] at h
      | own b => simpa [handed] using h

/-- **Reasoning about a network.** Suppose that whatever a party sends, given any inputs, satisfies
`G`, and that the receiver reaches `R` when all that it is handed satisfies `G`. Then the receiver
satisfies `R` after every run, whatever the interleaving and whatever the network delivers. -/
theorem receiver_invariant {G : μ → Prop} {R : ρ → Prop} (h_sent : s.sent = [])
    (is : List (Input κ ι α)) (h_send : ∀ k, ∀ m ∈ sentBy P s k (inputsOf k is), G m)
    (h_receive : ∀ ms, (∀ m, .inl m ∈ ms → G m) → R (run receive s.receiver ms)) :
    R (run (step P receive) s is).receiver := by
  rw [run_receiver]
  refine h_receive _ fun m hm => ?_
  rcases (mem_sent_iff is).mp (sent_of_received is hm) with h | ⟨k, h⟩
  · rw [h_sent] at h
    cases h
  · exact h_send k m h

end

end Network
