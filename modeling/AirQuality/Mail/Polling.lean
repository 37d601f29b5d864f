import AirQuality.Framework.Machine
import Mathlib.Algebra.Order.Ring.Rat
import Mathlib.Data.List.DropRight

/-!
# The e-mail loop (`sendmail.py`)

The script polls the database: it takes the last five records, and if all their `PM0_3` values
exceed 1000 it sends an e-mail, provided that `Sent_flag` is set. The e-mail clears the flag and
nothing sets it again. So the e-mail of the first episode of bad air is the only one of the whole
run (`length_mails_le`), and the loop warns once per episode if and only if there is no second
episode (`warns_once_per_episode_iff`).
-/

namespace AirQuality.Mail

open Machine

/-- The values that a poll sees, oldest first. -/
structure Poll where
  PM0_3 : List ℚ
  nonempty : PM0_3 ≠ []
  limited : PM0_3.length ≤ 5

/-- `min(PM0_3) > 1000`. -/
def Poll.exceeds (poll : Poll) : Bool := decide (1000 < poll.PM0_3.min poll.nonempty)

/-- What is sent; the addresses are the user's. -/
structure Email where
  subject : String
  contents : List String
  deriving DecidableEq

def warning : Email where
  subject := "Warn for Air Quality"
  contents := ["contents",
    "The air quality is not very well right now. Please wear mask when you get out"]

/-- One iteration of `while True`: `Sent_flag` afterwards, and the e-mails. -/
def iteration (sentFlag : Bool) (poll : Poll) : Bool × List Email :=
  if poll.exceeds && sentFlag then (false, [warning]) else (sentFlag, [])

/-- `Sent_flag` after the polls of a run. -/
def flagAfter (polls : List Poll) : Bool :=
  run (fun flag poll => (iteration flag poll).1) true polls

/-- The e-mails of the next poll. -/
def mailsAt (polls : List Poll) (poll : Poll) : List Email := (iteration (flagAfter polls) poll).2

/-- The e-mails of a run. -/
def mails (polls : List Poll) : List Email :=
  trace (fun flag poll => (iteration flag poll).1) (fun flag poll => (iteration flag poll).2) true
    polls

/-! ### What the flag remembers -/

/-- The air is bad: all values exceed 1000. -/
def Poll.Bad (poll : Poll) : Prop := ∀ v ∈ poll.PM0_3, 1000 < v

theorem Poll.exceeds_iff (poll : Poll) : poll.exceeds = true ↔ poll.Bad := by
  unfold Poll.exceeds Poll.Bad
  rw [decide_eq_true_iff]
  constructor
  · intro h v hv
    exact lt_of_lt_of_le h (List.min_le_of_mem hv)
  · intro h
    exact h _ (List.min_mem poll.nonempty)

theorem iteration_fst (flag : Bool) (poll : Poll) :
    (iteration flag poll).1 = (flag && !poll.exceeds) := by
  unfold iteration
  cases flag <;> cases poll.exceeds <;> rfl

/-- **The flag is a latch.** It is set until the first bad poll, and clear ever after. -/
theorem flagAfter_iff (polls : List Poll) :
    flagAfter polls = true ↔ ∀ poll ∈ polls, ¬ poll.Bad := by
  induction polls using List.reverseRecOn with
  | nil => exact iff_of_true rfl (by simp)
  | append_singleton polls poll ih =>
    have h_next : flagAfter (polls ++ [poll]) = (flagAfter polls && !poll.exceeds) := by
      unfold flagAfter
      rw [run_concat, iteration_fst]
    calc flagAfter (polls ++ [poll]) = true
        ↔ flagAfter polls = true ∧ ¬ poll.exceeds = true := by
          rw [h_next, Bool.and_eq_true, Bool.not_eq_true', Bool.eq_false_iff]
      _ ↔ (∀ p ∈ polls, ¬ p.Bad) ∧ ¬ poll.Bad := by rw [ih, Poll.exceeds_iff]
      _ ↔ ∀ p ∈ polls ++ [poll], ¬ p.Bad := by simp [or_imp, forall_and]

/-- **An e-mail is sent at the first bad poll only.** -/
theorem mailsAt_iff (polls : List Poll) (poll : Poll) :
    mailsAt polls poll = [warning] ↔ poll.Bad ∧ ∀ p ∈ polls, ¬ p.Bad := by
  rw [← Poll.exceeds_iff, ← flagAfter_iff]
  unfold mailsAt iteration
  split
  · next h => simpa using h
  · next h =>
    rw [Bool.and_eq_true] at h
    exact iff_of_false (List.cons_ne_nil _ _).symm h

/-- However long it runs, the loop sends one e-mail. -/
theorem length_mails_le (polls : List Poll) : (mails polls).length ≤ 1 := by
  -- once it was sent, the flag is clear
  have h_inv : (mails polls).length + (flagAfter polls).toNat = 1 := by
    refine trace_invariant
      (P := fun (tr : List Email) (flag : Bool) => tr.length + flag.toNat = 1) rfl ?_ polls
    intro tr flag poll h
    unfold iteration
    cases flag with
    | false => simpa using h
    | true => cases poll.exceeds <;> simpa using h
  omega

/-! ### One e-mail per episode -/

/-- An e-mail is sent exactly when an episode of bad air begins: the values are bad, and they are
the first or some value of the poll before was not. -/
def WarnsAt (polls : List Poll) (poll : Poll) : Prop :=
  mailsAt polls poll = [warning] ↔
    poll.Bad ∧ (polls = [] ∨ ∃ last, polls.getLast? = some last ∧ ∃ v ∈ last.PM0_3, ¬ 1000 < v)

theorem Poll.not_bad_iff (poll : Poll) : ¬ poll.Bad ↔ ∃ v ∈ poll.PM0_3, ¬ 1000 < v := by
  unfold Poll.Bad
  push Not
  exact Iff.rfl

/-- The poll continues the episode of an earlier one, if there is any. -/
def SameEpisode (polls : List Poll) (poll : Poll) : Prop :=
  poll.Bad → (∃ p ∈ polls, p.Bad) → ∃ last, polls.getLast? = some last ∧ last.Bad

theorem warnsAt_iff (polls : List Poll) (poll : Poll) :
    WarnsAt polls poll ↔ SameEpisode polls poll := by
  unfold WarnsAt SameEpisode
  simp only [mailsAt_iff, ← Poll.not_bad_iff]
  rcases List.eq_nil_or_concat polls with rfl | ⟨before, last, rfl⟩
  · simp
  · -- what counts of the polls before: whether one was bad, and whether the last one was
    have h_ended : (∃ p ∈ before ++ [last], p.Bad) ↔ (∃ p ∈ before, p.Bad) ∨ last.Bad := by simp
    have h_fresh : (∀ p ∈ before ++ [last], ¬ p.Bad) ↔ ¬ ((∃ p ∈ before, p.Bad) ∨ last.Bad) := by
      rw [← h_ended]
      push Not
      exact Iff.rfl
    have h_last : ∀ Q : Poll → Prop,
        (∃ p, (before ++ [last]).getLast? = some p ∧ Q p) ↔ Q last := by simp
    rw [List.concat_eq_append, h_ended, h_fresh, h_last, h_last,
      or_iff_right (List.append_ne_nil_of_right_ne_nil _ (List.cons_ne_nil _ _))]
    by_cases h_bad : poll.Bad <;> by_cases h_prev : last.Bad <;> simp [h_bad, h_prev]

/-- **One e-mail per episode.** Every poll of a run is answered as it should be if and only if all
bad polls of the run belong to one episode. -/
theorem warns_once_per_episode_iff (polls : List Poll) :
    Along WarnsAt polls ↔ Along SameEpisode polls := by
  unfold Along
  simp only [warnsAt_iff]

/-- Two episodes. The second one, at the third poll, is not warned of. -/
theorem secondEpisode_silent :
    ¬ Along WarnsAt [⟨[1001], by decide, by decide⟩, ⟨[0], by decide, by decide⟩,
      ⟨[1001], by decide, by decide⟩] := by
  intro h
  have h_third := h [⟨[1001], by decide, by decide⟩, ⟨[0], by decide, by decide⟩] _ [] rfl
  have h_mail := h_third.mpr ⟨(Poll.exceeds_iff _).mp (by decide),
    Or.inr ⟨_, rfl, 0, List.mem_singleton_self 0, by decide⟩⟩
  revert h_mail
  decide

end AirQuality.Mail
