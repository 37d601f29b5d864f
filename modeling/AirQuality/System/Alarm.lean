import Mathlib.Data.Nat.Cast.Order.Ring
import AirQuality.System.Delivery
import AirQuality.Web.Display

/-!
# When there is a warning

`Deployment` says that there is no warning without bad air; this module says when there is one. Both
warnings depend on the records alone, and on when the database is looked at.

The mail script ends at the first poll that finds no records, so it has to be started behind the
first report; and it ends at the first poll whose `get()` raises an exception. Until then it calls
`yag.send` at the first poll whose last records, five at most, are all above the threshold, and ends
there too if that call raises one (`deployment_mails`). The light on the page `Case2` is that of the
record that was the newest at the last value event, whatever has arrived since
(`deployment_light`).
-/

namespace AirQuality

open Machine Network

section

variable (broker : Broker) (readers : Readers)

/-- The records in the database. -/
def records (is : List Happening) : List Post :=
  (deployment broker readers is).receiver.subscriber.database

variable {broker readers}

theorem deployment_concat (is : List Happening) (i : Happening) :
    deployment broker readers (is ++ [i])
      = Network.step nodes (Backend.step readers) (deployment broker readers is) i :=
  run_concat is i

theorem records_numeric (is : List Happening) :
    ∀ post ∈ records broker readers is, ∃ x, Mail.pm0_3Of readers.py post = some x := by
  intro post h_post
  obtain ⟨sec, db, rfl, -⟩ := (deployment_sound broker readers is).posts post h_post
  exact ⟨_, pm0_3Of_storedPost readers sec db⟩

/-! ### The e-mail -/

variable (broker readers)

/-- If the script polls, `get()` returns and finds records. -/
def PollsRecords (pre : List Happening) (i : Happening) : Prop :=
  ∀ o, i = .own (.poll o) → o.getRaises = false ∧ records broker readers pre ≠ []

/-- The script polls, `get()` returns, and the records that it finds are alarming. -/
def PollsAlarming (pre : List Happening) (i : Happening) : Prop :=
  ∃ o, i = .own (.poll o) ∧ o.getRaises = false ∧
    Mail.Alarming readers.py (records broker readers pre)

/-- The script calls `yag.send`: it finds alarming records, and found records whenever it polled
before. -/
def PollsMailing (pre : List Happening) (i : Happening) : Prop :=
  Along (PollsRecords broker readers) pre ∧ PollsAlarming broker readers pre i

/-- If the script polls and `yag.send` raises an exception if it is called, then it is not called:
the records are not alarming, or it was called before. -/
def SendReturns (pre : List Happening) (i : Happening) : Prop :=
  ∀ o, i = .own (.poll o) → o.sendRaises = true →
    Mail.Alarming readers.py (records broker readers pre) →
    Sometime (PollsMailing broker readers) pre

variable {broker readers}

theorem pollsRecords_poll (is : List Happening) (o : Mail.PollOutcome) :
    PollsRecords broker readers is (.own (.poll o)) ↔
      o.getRaises = false ∧ records broker readers is ≠ [] := by
  refine ⟨fun h => h o rfl, ?_⟩
  rintro h _ ⟨⟩
  exact h

theorem sendReturns_poll (is : List Happening) (o : Mail.PollOutcome) :
    SendReturns broker readers is (.own (.poll o)) ↔ (o.sendRaises = true →
      Mail.Alarming readers.py (records broker readers is) →
      Sometime (PollsMailing broker readers) is) := by
  refine ⟨fun h => h o rfl, ?_⟩
  rintro h _ ⟨⟩
  exact h

theorem pollsMailing_poll (is : List Happening) (o : Mail.PollOutcome) :
    PollsMailing broker readers is (.own (.poll o)) ↔
      Along (PollsRecords broker readers) is ∧ o.getRaises = false ∧
        Mail.Alarming readers.py (records broker readers is) := by
  refine and_congr_right fun _ => ⟨?_, fun h => ⟨o, rfl, h⟩⟩
  rintro ⟨_, ⟨⟩, h⟩
  exact h

/-- A poll looks at the records that are there. -/
theorem script_of_poll (is : List Happening) (o : Mail.PollOutcome) :
    (deployment broker readers (is ++ [.own (.poll o)])).receiver.script
      = (deployment broker readers is).receiver.script.poll readers.py
          (records broker readers is) o := by
  rw [deployment_concat]
  rfl

/-- Nothing but a poll changes the script. -/
theorem script_of_ne_poll (is : List Happening) {i : Happening} (h : ∀ o, i ≠ .own (.poll o)) :
    (deployment broker readers (is ++ [i])).receiver.script
      = (deployment broker readers is).receiver.script := by
  rw [deployment_concat]
  generalize deployment broker readers is = s
  cases i with
  | act eui j => rfl
  | deliver n =>
    show (run (Backend.step readers) s.receiver ((s.sent[n]?).toList.map Sum.inl)).script = _
    cases s.sent[n]? <;> rfl
  | own a =>
    cases a with
    | poll o => exact absurd rfl (h o)
    | reconnect | answer | visit | rerender | value => rfl

/-- A script that has ended although all polls found records has called `yag.send`. -/
theorem mailed_of_not_returns {is : List Happening} (h : Along (PollsRecords broker readers) is)
    (h_not : ¬ Along (SendReturns broker readers) is) :
    Sometime (PollsMailing broker readers) is := by
  by_contra h_never
  refine h_not ?_
  rintro pre i post rfl o rfl - h_alarm
  -- the poll whose call raised the exception was a poll with a call
  obtain ⟨h_get, -⟩ := h pre _ post rfl o rfl
  exact absurd ⟨pre, _, post, rfl, h.of_append, o, rfl, h_get, h_alarm⟩ h_never

end

/-- **When the e-mail is sent.** In every run, the script has not ended if and only if every poll so
far returned from `get()` with records, and `yag.send` did not raise an exception where it was
called. It was called if and only if some poll found the last records, at most five, all above
1000, and this one and all polls before it returned from `get()` with records. -/
theorem deployment_mails (broker : Broker) (readers : Readers) (is : List Happening) :
    let script := (deployment broker readers is).receiver.script
    (script.running = true ↔
        Along (PollsRecords broker readers) is ∧ Along (SendReturns broker readers) is) ∧
      (script.mails ≠ [] ↔ Sometime (PollsMailing broker readers) is) := by
  intro script
  induction is using List.reverseRecOn with
  | nil =>
    exact ⟨iff_of_true rfl ⟨along_nil _, along_nil _⟩,
      iff_of_false (fun h => h rfl) (sometime_nil _)⟩
  | append_singleton is i ih =>
    have h_sound := deployment_sound broker readers is
    obtain ⟨ih_running, ih_mails⟩ := ih
    rw [along_concat, along_concat, sometime_concat]
    by_cases h_poll : ∃ o, i = .own (.poll o)
    · obtain ⟨o, rfl⟩ := h_poll
      have h_script : script = (deployment broker readers is).receiver.script.poll readers.py
          (records broker readers is) o := script_of_poll is o
      -- what the conditions ask of this poll
      rw [h_script, pollsRecords_poll, sendReturns_poll, pollsMailing_poll, ← ih_mails]
      by_cases h_on : (deployment broker readers is).receiver.script.running = true
      · obtain ⟨h_running, h_mails⟩ := Mail.Script.poll_records h_sound.latched h_on
          (records_numeric is) o
        obtain ⟨h_records, h_sent⟩ := ih_running.mp h_on
        rw [h_running, h_mails, ih_mails]
        simp only [h_records, h_sent, true_and, and_assoc]
      · -- it had ended before, and if it still ought to send an e-mail then it has
        have h_off := Bool.eq_false_iff.mpr h_on
        rw [Mail.Script.poll_ended h_off, ih_mails]
        refine ⟨iff_of_false h_on fun h => h_on (ih_running.mpr ⟨h.1.1, h.2.1⟩), ?_⟩
        refine ⟨Or.inl, fun h => h.elim id fun h_now => ?_⟩
        exact mailed_of_not_returns h_now.1 fun h_sent => h_on (ih_running.mpr ⟨h_now.1, h_sent⟩)
    · -- no poll, so no condition asks for anything
      have h_ne : ∀ o, i ≠ .own (.poll o) := fun o h => h_poll ⟨o, h⟩
      have h_script : script = (deployment broker readers is).receiver.script :=
        script_of_ne_poll is h_ne
      have h_finds : PollsRecords broker readers is i := fun o h => absurd h (h_ne o)
      have h_returns : SendReturns broker readers is i := fun o h => absurd h (h_ne o)
      have h_mailing : ¬ PollsMailing broker readers is i := by
        rintro ⟨-, o, h, -⟩
        exact h_ne o h
      rw [h_script, and_iff_left h_finds, and_iff_left h_returns, or_iff_left h_mailing]
      exact ⟨ih_running, ih_mails⟩

section

variable {broker : Broker} {readers : Readers}

/-! ### The light -/

/-- The page that a user of the web pages goes to. -/
def Happening.target : Happening → Option Web.Route
  | .own (.visit route) => some route
  | _ => none

/-- The page that is shown. -/
def shownRoute (is : List Happening) : Web.Route := lastOf Happening.target .welcome is

/-- What a step is to the pages. -/
def pageActs (readers : Readers) (s : State Eui64 Node Publication (Backend broker)) :
    Happening → List Web.Act
  | .act _ _ => []
  | .deliver _ => []
  | .own .reconnect => []
  | .own (.answer _) => []
  | .own (.poll _) => []
  | .own (.visit route) => [.visit route]
  | .own .rerender => [.rerender]
  | .own .value => [.value (s.receiver.subscriber.database.map (entryOf readers))]

theorem step_app (s : State Eui64 Node Publication (Backend broker)) (i : Happening) :
    (Network.step nodes (Backend.step readers) s i).receiver.app
      = run Web.WebApp.step s.receiver.app (pageActs readers s i) := by
  cases i with
  | act eui j => rfl
  | deliver n =>
    show (run (Backend.step readers) s.receiver ((s.sent[n]?).toList.map Sum.inl)).app
      = s.receiver.app
    cases s.sent[n]? <;> rfl
  | own a => cases a <;> rfl

/-- **The pages are where their own acts take them.** -/
theorem deployment_visited (is : List Happening) :
    ∃ acts, (deployment broker readers is).receiver.app = Web.visited acts ∧
      Web.routeAfter acts = shownRoute is := by
  let app (s : State Eui64 Node Publication (Backend broker)) : Web.WebApp := s.receiver.app
  refine ⟨_, run_projection app (@step_app broker readers) is, ?_⟩
  refine lastOf_trace (fun s i route => ?_) Web.Route.welcome is
  cases i with
  | act eui j => rfl
  | deliver n => rfl
  | own a => cases a <;> rfl

/-- A step that neither tells the pages anything nor leaves `Case2`. -/
def keepsLight : Happening → Bool
  | .own .value => false
  | .own (.visit route) => decide (route = .case2)
  | _ => true

/-- While `Case2` is shown, such a step does nothing to the pages. -/
theorem app_of_keepsLight {is : List Happening} (h_page : shownRoute is = .case2) {j : Happening}
    (h : keepsLight j = true) : shownRoute (is ++ [j]) = .case2 ∧
      (deployment broker readers (is ++ [j])).receiver.app
        = (deployment broker readers is).receiver.app := by
  obtain ⟨acts, h_app, h_route⟩ := @deployment_visited broker readers is
  obtain ⟨this, h_watch, -⟩ := Web.watching_visited (h_route.trans h_page)
  rw [← h_app] at h_watch
  rw [shownRoute, lastOf_concat, deployment_concat, step_app]
  generalize deployment broker readers is = s at h_watch
  cases j with
  | act eui i => exact ⟨h_page, rfl⟩
  | deliver n => exact ⟨h_page, rfl⟩
  | own a =>
    cases a with
    | reconnect | answer | poll => exact ⟨h_page, rfl⟩
    | visit route =>
      obtain rfl : route = .case2 := of_decide_eq_true h
      refine ⟨rfl, ?_⟩
      -- the page is shown already
      refine if_pos ?_
      rw [h_watch.mounted, Option.map_some, h_watch.page]
      rfl
    | rerender =>
      refine ⟨h_page, ?_⟩
      show s.receiver.app.mounted.elim _ _ = _
      rw [h_watch.mounted]
      show Web.WebApp.render this _ = _
      rw [Web.WebApp.render, h_watch.page]
    | value => cases h

theorem app_of_allKeepLight {is js : List Happening} (h_page : shownRoute is = .case2)
    (h : ∀ j ∈ js, keepsLight j = true) : shownRoute (is ++ js) = .case2 ∧
      (deployment broker readers (is ++ js)).receiver.app
        = (deployment broker readers is).receiver.app := by
  induction js using List.reverseRecOn with
  | nil =>
    rw [List.append_nil]
    exact ⟨h_page, rfl⟩
  | append_singleton js j ih =>
    obtain ⟨h_still, h_same⟩ := ih fun j' hj' => h j' (List.mem_append_left _ hj')
    obtain ⟨h_page', h_app⟩ := app_of_keepsLight h_still
      (h j (List.mem_append_right _ (List.mem_singleton_self j)))
    rw [← List.append_assoc]
    exact ⟨h_page', h_app.trans h_same⟩

/-- Genuine records, report by report, and what the pages are told of them. -/
theorem reports_of_genuine (readers : Readers) {js : List NodeInput} {posts : List Post}
    (h : ∀ post ∈ posts, GenuineRecord js post) : ∃ reports : List (ℕ × DustBins),
      posts = reports.map (fun r => storedPost r.1 r.2) ∧
      posts.map (entryOf readers) = reports.map fun r => storedEntry r.1 r.2 := by
  induction posts with
  | nil => exact ⟨[], rfl, rfl⟩
  | cons post posts ih =>
    obtain ⟨reports, h_posts, h_entries⟩ := ih fun p hp => h p (List.mem_cons_of_mem _ hp)
    obtain ⟨sec, db, rfl, h_sec, -⟩ := h post List.mem_cons_self
    refine ⟨(sec, db) :: reports, congrArg _ h_posts, ?_⟩
    rw [List.map_cons, h_entries, entryOf_storedPost readers h_sec]
    rfl

theorem exists_reports (is : List Happening) : ∃ reports : List (ℕ × DustBins),
    records broker readers is = reports.map (fun r => storedPost r.1 r.2) ∧
    (records broker readers is).map (entryOf readers)
      = reports.map fun r => storedEntry r.1 r.2 :=
  reports_of_genuine readers (deployment_sound broker readers is).posts

/-- What the pages are told when there are records. -/
theorem exists_snapshot {is : List Happening} (h_some : records broker readers is ≠ []) :
    ∃ older sec db,
      (records broker readers is).map (entryOf readers) = older ++ [storedEntry sec db] ∧
      (records broker readers is).getLast? = some (storedPost sec db) := by
  obtain ⟨reports, h_records, h_snapshot⟩ := @exists_reports broker readers is
  rw [h_records, Ne, List.map_eq_nil_iff] at h_some
  obtain ⟨older, ⟨sec, db⟩, rfl⟩ := (List.eq_nil_or_concat' reports).resolve_left h_some
  rw [List.map_append, List.map_singleton] at h_records h_snapshot
  exact ⟨_, sec, db, h_snapshot, by rw [h_records, List.getLast?_concat]⟩

end

/-- **The light shows the newest record.** Once `Case2` is shown and the pages are told of a
database with records, there is a light, and it is red if and only if the newest of them has at
least 1000 particles beyond 0.3 micrometres. So it stays, whatever the nodes send and the network
delivers, until the pages are told again or another one is shown. -/
theorem deployment_light (broker : Broker) (readers : Readers) (is js : List Happening)
    (h_page : shownRoute is = .case2) (h_some : records broker readers is ≠ [])
    (h_keeps : ∀ j ∈ js, keepsLight j = true) :
    let app := (deployment broker readers (is ++ .own .value :: js)).receiver.app
    ∃ this sec db, app.mounted = some this ∧ this.page = .case2 ∧
      (records broker readers is).getLast? = some (storedPost sec db) ∧
      (app.screen.states this.id).lightBtn
        = some (if db.db0_3.toNat < 1000 then .green else .red) := by
  intro app
  obtain ⟨older, sec, db, h_snapshot, h_last⟩ := exists_snapshot h_some
  obtain ⟨acts, h_visited, h_route⟩ := @deployment_visited broker readers is
  obtain ⟨this, h_watch, h_k⟩ := Web.watching_visited (h_route.trans h_page)
  rw [← h_visited] at h_watch
  have h_told : (deployment broker readers (is ++ [.own .value])).receiver.app
      = (deployment broker readers is).receiver.app.value (older ++ [storedEntry sec db]) := by
    rw [deployment_concat, ← h_snapshot]
    rfl
  have h_shown : shownRoute (is ++ [.own .value]) = .case2 :=
    (lastOf_concat _ _ _ _).trans h_page
  have h_app : app
      = (deployment broker readers is).receiver.app.value (older ++ [storedEntry sec db]) := by
    -- behind the value event nothing reaches the page
    show (deployment broker readers (is ++ .own .value :: js)).receiver.app = _
    rw [List.append_cons, (app_of_allKeepLight h_shown h_keeps).2, h_told]
  have h_state := h_watch.shows h_k older (storedEntry_get sec db)
  rw [h_app]
  refine ⟨this, sec, db, h_watch.mounted, h_watch.page, h_last, ?_⟩
  rw [h_state]
  simp [Web.Case2State.updatedTo, Web.Case2State.lightBtn]

/-- A report is delivered, and the page is opened. -/
def opened : List Happening :=
  [iterates 0, iterates 1, iterates 2000000, .deliver 0, .own (.visit .case2)]

/-- Another report follows. -/
def reportFollows : List Happening := [iterates 4000000, .deliver 1, .own .rerender]

theorem deployment_light_green :
    let app := (deployment Broker.listing .ofIntegers
      (opened ++ .own .value :: reportFollows)).receiver.app
    ∃ this, app.mounted = some this ∧ (app.screen.states this.id).lightBtn = some .green := by
  have h_newest : (records Broker.listing .ofIntegers opened).getLast?.bind
      (Mail.pm0_3Of Readers.ofIntegers.py) = some 0 := by
    decide +kernel
  have h_some : records Broker.listing .ofIntegers opened ≠ [] := by
    intro h_nil
    rw [h_nil] at h_newest
    cases h_newest
  obtain ⟨this, sec, db, h_mounted, -, h_last, h_light⟩ :=
    deployment_light Broker.listing .ofIntegers opened reportFollows (by decide) h_some (by decide)
  refine ⟨this, h_mounted, h_light.trans ?_⟩
  rw [h_last, Option.bind_some, pm0_3Of_storedPost, Option.some_inj, Nat.cast_eq_zero] at h_newest
  rw [h_newest]
  rfl

end AirQuality
