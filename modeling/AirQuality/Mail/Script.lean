import AirQuality.Framework.Effect
import AirQuality.Mail.Polling
import AirQuality.Store.Handler

/-!
# Polling the database (`sendmail.py`)

An iteration of the script starts with the last five records of the database, whose `PM0_3` values
it collects. An exception on the way ends the script: `get()` may raise one, it returns `None` for a
database without records, a record may lack the value, and values that are no numbers cannot be
compared. What the script goes on to do with the values is `iteration`. The call of `yag.send` in it
may raise an exception too, which ends the script before the flag is cleared. (In the repository the
script has placeholders for the account and its password, and is taken to have them filled in.)

Whatever the databases that it finds, the script has called `yag.send` only if one of them had a
record above the threshold (`Script.poll_mails`), and never twice (`Script.Latched.poll`). If all
records have the value, a poll that returns ends the script if it finds no records or the call
raises an exception, and makes the call if none was made before and the records are `Alarming`
(`Script.poll_records`).
-/

namespace AirQuality.Mail

open Json Machine

/-- What becomes of the calls of a poll: whether `get()` raises an exception, and whether `yag.send`
does if it is called. -/
structure PollOutcome where
  getRaises : Bool
  sendRaises : Bool
  deriving DecidableEq

section

variable (number : Value → Option ℚ)

/-- `item['PM0_3']`. The number that a stored value is compared as, once it is back from the
database, is `number` of it; `none` stands for an exception, since the value is missing or is no
number. -/
def pm0_3Of (item : Post) : Option ℚ := (dictGet item.data "PM0_3").bind number

/-- The values of a poll, or nothing if an exception is raised: by `data.values()` if there is no
record, while the values are collected, or when they are compared. -/
def Poll.ofPosts (database : List Post) : Option Poll :=
  match (database.rtake 5).mapM (pm0_3Of number) with
  | none => none
  | some values =>
    if h : values ≠ [] ∧ values.length ≤ 5 then some ⟨values, h.1, h.2⟩ else none

/-- The script: whether it still runs, `Sent_flag`, and the e-mails that it has called `yag.send`
for. -/
structure Script where
  running : Bool
  sentFlag : Bool
  mails : List Email

/-- In front of the loop. -/
def Script.start : Script := ⟨true, true, []⟩

/-- One turn of `while True`. -/
def Script.poll (s : Script) (database : List Post) (o : PollOutcome) : Script :=
  if !s.running then s
  else if o.getRaises then { s with running := false }
  else
    match Poll.ofPosts number database with
    | none => { s with running := false }
    | some poll =>
      let r := iteration s.sentFlag poll
      if r.2 ≠ [] ∧ o.sendRaises then
        -- the flag is cleared behind the call
        { s with running := false, mails := s.mails ++ r.2 }
      else { s with sentFlag := r.1, mails := s.mails ++ r.2 }

variable {number}

/-- **What a turn does**: nothing, if the script has ended; or it ends; or it goes through the loop,
which is cut short where the call of `yag.send` raises an exception. -/
theorem Script.poll_cases (s : Script) (database : List Post) (o : PollOutcome) :
    (s.running = false ∧ s.poll number database o = s) ∨
    (s.running = true ∧ (o.getRaises = true ∨ Poll.ofPosts number database = none) ∧
      s.poll number database o = { s with running := false }) ∨
    ∃ poll, s.running = true ∧ o.getRaises = false ∧ Poll.ofPosts number database = some poll ∧
      (((iteration s.sentFlag poll).2 ≠ [] ∧ o.sendRaises = true ∧ s.poll number database o
          = { s with running := false, mails := s.mails ++ (iteration s.sentFlag poll).2 }) ∨
        (¬ ((iteration s.sentFlag poll).2 ≠ [] ∧ o.sendRaises = true) ∧ s.poll number database o
          = { s with
              sentFlag := (iteration s.sentFlag poll).1
              mails := s.mails ++ (iteration s.sentFlag poll).2 })) := by
  unfold Script.poll
  cases h_running : s.running with
  | false => exact Or.inl ⟨rfl, rfl⟩
  | true =>
    refine Or.inr ?_
    cases h_get : o.getRaises with
    | true => exact Or.inl ⟨rfl, Or.inl rfl, rfl⟩
    | false =>
      cases h_poll : Poll.ofPosts number database with
      | none => exact Or.inl ⟨rfl, Or.inr rfl, rfl⟩
      | some poll =>
        refine Or.inr ⟨poll, rfl, rfl, rfl, ?_⟩
        by_cases h_send : (iteration s.sentFlag poll).2 ≠ [] ∧ o.sendRaises = true
        · exact Or.inl ⟨h_send.1, h_send.2, if_pos h_send⟩
        · exact Or.inr ⟨h_send, if_neg h_send⟩

/-- The values of a poll are those of records. -/
theorem Poll.mem_ofPosts {database : List Post} {poll : Poll}
    (h : Poll.ofPosts number database = some poll) {x : ℚ} (hx : x ∈ poll.PM0_3) :
    ∃ item ∈ database, pm0_3Of number item = some x := by
  unfold Poll.ofPosts at h
  split at h
  · cases h
  · next values h_values =>
    split at h
    · obtain rfl := (Option.some.inj h).symm
      obtain ⟨item, h_item, h_value⟩ := Effect.mem_of_mapM h_values hx
      exact ⟨item, List.mem_of_mem_drop h_item, h_value⟩
    · cases h

/-- **A call is made in one case only**: all values exceed the threshold, and the flag is set. -/
theorem iteration_snd (flag : Bool) (poll : Poll) :
    (iteration flag poll).2 ≠ [] ↔ poll.Bad ∧ flag = true := by
  rw [← poll.exceeds_iff, ← Bool.and_eq_true]
  unfold iteration
  split
  · next h => exact iff_of_true (List.cons_ne_nil _ _) h
  · next h => exact iff_of_false (fun h_ne => h_ne rfl) h

/-- What the loop adds to the e-mails was a call. -/
theorem Script.mails_poll (s : Script) (database : List Post) (o : PollOutcome) :
    (s.poll number database o).mails = s.mails ∨
      ∃ poll, Poll.ofPosts number database = some poll ∧ poll.Bad := by
  rcases s.poll_cases database o with ⟨-, h_next⟩ | ⟨-, -, h_next⟩ | ⟨poll, -, -, h_poll, h_next⟩
  · exact Or.inl (by rw [h_next])
  · exact Or.inl (by rw [h_next])
  · by_cases h_call : (iteration s.sentFlag poll).2 = []
    · refine Or.inl ?_
      rcases h_next with ⟨h_ne, -⟩ | ⟨-, h_next⟩
      · exact absurd h_call h_ne
      · rw [h_next, h_call]
        exact List.append_nil _
    · exact Or.inr ⟨poll, h_poll, ((iteration_snd _ _).mp h_call).1⟩

/-- **No e-mail without a value above the threshold.** -/
theorem Script.poll_mails {s : Script} {database : List Post} {o : PollOutcome}
    (h : (s.poll number database o).mails ≠ []) :
    s.mails ≠ [] ∨ ∃ item ∈ database, ∃ x, pm0_3Of number item = some x ∧ 1000 < x := by
  rcases s.mails_poll database o with h_same | ⟨poll, h_poll, h_bad⟩
  · exact Or.inl (h_same ▸ h)
  · -- any of the values will do
    obtain ⟨x, hx⟩ := List.exists_mem_of_ne_nil _ poll.nonempty
    obtain ⟨item, h_item, h_value⟩ := Poll.mem_ofPosts h_poll hx
    exact Or.inr ⟨item, h_item, x, h_value, h_bad x hx⟩

/-- At most one call was made, and while the script runs the flag tells whether. -/
structure Script.Latched (s : Script) : Prop where
  once : s.mails.length ≤ 1
  flag : s.running = true → (s.sentFlag = true ↔ s.mails = [])

theorem Script.latched_start : Script.start.Latched where
  once := Nat.zero_le _
  flag := fun _ => iff_of_true rfl rfl

/-- **The flag counts the e-mails.** -/
theorem Script.Latched.poll {s : Script} (h : s.Latched) (database : List Post)
    (o : PollOutcome) : (s.poll number database o).Latched := by
  rcases s.poll_cases database o with ⟨-, h_next⟩ | ⟨-, -, h_next⟩ | ⟨poll, h_run, -, -, h_next⟩
  · rw [h_next]
    exact h
  · rw [h_next]
    exact ⟨h.once, fun h_run => Bool.noConfusion h_run⟩
  · have h_flag := h.flag h_run
    by_cases h_call : (iteration s.sentFlag poll).2 ≠ []
    · -- the flag was set, so this is the first call
      have h_set := (iteration_snd _ _).mp h_call
      have h_none : s.mails = [] := h_flag.mp h_set.2
      have h_iter : iteration s.sentFlag poll = (false, [warning]) := by
        unfold iteration
        rw [poll.exceeds_iff.mpr h_set.1, h_set.2]
        rfl
      rw [h_iter, h_none] at h_next
      rcases h_next with ⟨-, -, h_next⟩ | ⟨-, h_next⟩ <;> rw [h_next]
      · exact ⟨Nat.le_refl 1, fun h_run => Bool.noConfusion h_run⟩
      · exact ⟨Nat.le_refl 1, fun _ => iff_of_false Bool.false_ne_true (List.cons_ne_nil _ _)⟩
    · obtain ⟨-, h_next⟩ := h_next.resolve_left fun h_raise => h_call h_raise.1
      have h_iter : iteration s.sentFlag poll = (s.sentFlag, []) := by
        unfold iteration at h_call ⊢
        split at h_call
        · exact absurd (List.cons_ne_nil _ _) h_call
        · next h_not => rw [if_neg h_not]
      rw [h_next, h_iter]
      refine ⟨?_, fun h_run => ?_⟩
      · show (s.mails ++ []).length ≤ 1
        rw [List.append_nil]
        exact h.once
      · show s.sentFlag = true ↔ s.mails ++ [] = []
        rw [List.append_nil]
        exact h_flag

/-! ### When the e-mail is sent -/

variable (number) in
/-- There are records, and the last five are all above the threshold. -/
def Alarming (database : List Post) : Prop :=
  database ≠ [] ∧ ∀ item ∈ database.rtake 5, ∃ x, pm0_3Of number item = some x ∧ 1000 < x

/-- A poll of records that all have the value. -/
theorem Poll.exists_ofPosts {database : List Post} (h_ne : database ≠ [])
    (h : ∀ item ∈ database, ∃ x, pm0_3Of number item = some x) :
    ∃ poll, Poll.ofPosts number database = some poll ∧ (poll.Bad ↔ Alarming number database) := by
  have h_last : ∀ item ∈ database.rtake 5, ∃ x, pm0_3Of number item = some x :=
    fun item h_item => h item (List.mem_of_mem_drop h_item)
  obtain ⟨values, h_values, h_map⟩ := Effect.mapM_total h_last
  have h_length : values.length = min 5 database.length := by
    have h_eq := congrArg List.length h_map
    rw [List.length_map, List.length_map] at h_eq
    rw [← h_eq, List.rtake, List.length_drop]
    omega
  -- the values are as many as the records asked for
  have h_pos := List.length_pos_iff.mpr h_ne
  have h_poll : values ≠ [] ∧ values.length ≤ 5 := by
    rw [ne_eq, ← List.length_eq_zero_iff]
    omega
  refine ⟨⟨values, h_poll.1, h_poll.2⟩, ?_, ?_⟩
  · unfold Poll.ofPosts
    rw [h_values]
    exact dif_pos h_poll
  · constructor
    · intro h_bad
      refine ⟨h_ne, fun item h_item => ?_⟩
      have h_mem : pm0_3Of number item ∈ values.map some := h_map ▸ List.mem_map_of_mem h_item
      obtain ⟨x, hx, h_eq⟩ := List.mem_map.mp h_mem
      exact ⟨x, h_eq.symm, h_bad x hx⟩
    · rintro ⟨-, h_all⟩ x hx
      obtain ⟨item, h_item, h_value⟩ := Effect.mem_of_mapM h_values hx
      obtain ⟨y, h_y, h_lt⟩ := h_all item h_item
      obtain rfl : x = y := Option.some.inj (h_value.symm.trans h_y)
      exact h_lt

/-- A database without records ends the script. -/
theorem Poll.ofPosts_nil : Poll.ofPosts number [] = none := rfl

/-- **A poll of records that all have the value.** The script goes on if `get()` returned, there are
records, and no call raised an exception; and a call is made if none was made before and the records
are alarming. -/
theorem Script.poll_records {s : Script} (h_latched : s.Latched) (h_running : s.running = true)
    {database : List Post} (h : ∀ item ∈ database, ∃ x, pm0_3Of number item = some x)
    (o : PollOutcome) :
    ((s.poll number database o).running = true ↔ o.getRaises = false ∧ database ≠ [] ∧
      (o.sendRaises = true → Alarming number database → s.mails ≠ [])) ∧
    ((s.poll number database o).mails ≠ [] ↔
      s.mails ≠ [] ∨ (o.getRaises = false ∧ Alarming number database)) := by
  have h_flag := h_latched.flag h_running
  rcases s.poll_cases database o with ⟨h_off, -⟩ | ⟨-, h_ends, h_next⟩ |
      ⟨poll, -, h_get, h_poll, h_next⟩
  · rw [h_running] at h_off
    cases h_off
  · -- `get()` raised an exception, or there are no records
    have h_not : ¬ (o.getRaises = false ∧ database ≠ []) := by
      rintro ⟨h_get, h_ne⟩
      rcases h_ends with h_raises | h_none
      · rw [h_get] at h_raises
        cases h_raises
      · obtain ⟨poll, h_poll, -⟩ := Poll.exists_ofPosts h_ne h
        rw [h_none] at h_poll
        cases h_poll
    rw [h_next]
    refine ⟨iff_of_false Bool.false_ne_true fun h_on => h_not ⟨h_on.1, h_on.2.1⟩, ?_⟩
    exact (or_iff_left fun h_alarm => h_not ⟨h_alarm.1, h_alarm.2.1⟩).symm
  · have h_ne : database ≠ [] := by
      rintro rfl
      rw [Poll.ofPosts_nil] at h_poll
      cases h_poll
    obtain ⟨poll', h_poll', h_bad⟩ := Poll.exists_ofPosts h_ne h
    obtain rfl : poll = poll' := Option.some.inj (h_poll.symm.trans h_poll')
    -- a call is made if the records are alarming and none was made before
    have h_call : (iteration s.sentFlag poll).2 ≠ [] ↔ Alarming number database ∧ s.mails = [] := by
      rw [iteration_snd, h_bad, h_flag]
    have h_mails : s.mails ++ (iteration s.sentFlag poll).2 ≠ [] ↔
        s.mails ≠ [] ∨ (o.getRaises = false ∧ Alarming number database) := by
      rw [ne_eq, List.append_eq_nil_iff, not_and_or, ← ne_eq, ← ne_eq, h_call, and_iff_right h_get]
      by_cases h_none : s.mails = [] <;> simp [h_none]
    rw [and_iff_right h_get, and_iff_right h_ne]
    rcases h_next with ⟨h_made, h_raises, h_next⟩ | ⟨h_fine, h_next⟩ <;> rw [h_next]
    · refine ⟨iff_of_false Bool.false_ne_true fun h_on => ?_, h_mails⟩
      obtain ⟨h_alarm, h_none⟩ := h_call.mp h_made
      exact h_on h_raises h_alarm h_none
    · refine ⟨iff_of_true h_running fun h_raises h_alarm h_none => ?_, h_mails⟩
      exact h_fine ⟨h_call.mpr ⟨h_alarm, h_none⟩, h_raises⟩

/-- A script that has ended does nothing. -/
theorem Script.poll_ended {s : Script} (h : s.running = false) (database : List Post)
    (o : PollOutcome) : s.poll number database o = s := by
  unfold Script.poll
  rw [h]
  rfl

end

end AirQuality.Mail
