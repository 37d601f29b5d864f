import AirQuality.Publisher.Mqpub

/-!
# Progress and pace of the publisher thread

Two bounds on the runs of `mqpub_thread`, whatever the resolver and the client do. From below: a
failure costs at most three iterations, and getting started two, so a thread that has made `n`
iterations, `f` of them with a call that could fail, has published at least `n - 2 - 3 f` reports
(`mqpub_progress`). From above: failures do not make the thread call the client more often, although
`goto again` skips a pause; it never makes more than three calls between two pauses, and it pays for
every report with the pause that it makes between reports, or with the two of a new session
(`mqpub_paced`).

Both are potential arguments. An iteration changes a state that is worth something, and the bound
is what the iterations of a run come to.
-/

namespace AirQuality

open Machine

/-! ### Progress -/

/-- No call of the iteration would fail. -/
def MqpubInput.Working (i : MqpubInput) : Prop :=
  0 ≤ i.resolution.res ∧ i.con = emcuteOk ∧ i.reg.res = emcuteOk ∧ i.pub = emcuteOk

instance : DecidablePred MqpubInput.Working := fun _ => inferInstanceAs (Decidable (_ ∧ _))

/-- The iterations that are missing until the thread publishes. -/
def MqttsnState.distance : MqttsnState → ℕ
  | .notConnected => 2
  | .connected => 1
  | .publishing => 0

/-- A report that went out. -/
def Event.isPublished : Event → Bool
  | .pub _ _ errno => errno = emcuteOk
  | _ => false

/-- **One iteration** publishes or comes closer to it, unless a call fails. -/
theorem MqpubStep.progress {cfg : MqpubConfig} {s s' : MqpubThread} {i : MqpubInput}
    {evs : List Event} (h_step : MqpubStep cfg s i s' evs) :
    1 + s'.state.distance ≤ evs.countP Event.isPublished + s.state.distance
      + 3 * (if i.Working then 0 else 1) := by
  cases h_step with
  -- a failure pays for the iteration, and for the way back to the start
  | resolveFails h h_res =>
    rw [if_neg fun h_working => absurd h_working.1 (by omega)]
    omega
  | conFails h h_con =>
    rw [if_neg fun h_working => absurd h_working.2.1 h_con]
    show 1 + s.state.distance ≤ _
    omega
  -- a success brings the thread one iteration closer
  | conOk h h_con =>
    rw [h]
    show 1 + 1 ≤ 0 + 2 + _
    omega
  | regFails h h_reg =>
    rw [if_neg fun h_working => absurd h_working.2.2.1 h_reg, h]
    show 1 + 2 ≤ 0 + 1 + 3
    omega
  | regOk h h_reg =>
    rw [h]
    show 1 + 0 ≤ 0 + 1 + _
    omega
  | pubFails h h_pub mem data =>
    rw [if_neg fun h_working => absurd h_working.2.2.2 h_pub, h]
    show 1 + 2 ≤ _ + 0 + 3
    omega
  | pubOk h h_pub mem data =>
    have h_count : [Event.pub s.topic data i.pub, .sleep cfg.publishInterval].countP
        Event.isPublished = 1 := by simp [Event.isPublished, h_pub]
    rw [h_count, h]
    exact Nat.le_add_right _ _

/-- **Progress.** After any history, `n` further iterations, `f` of them with a call that would
fail, publish at least `n - 2 - 3 f` reports. -/
theorem mqpub_progress (cfg : MqpubConfig) (is js : List MqpubInput) :
    (mqpubTrace cfg is).countP Event.isPublished + js.length
      ≤ (mqpubTrace cfg (is ++ js)).countP Event.isPublished + 2
        + 3 * js.countP fun i => ¬ i.Working := by
  -- the iterations that are missing count as well, before and after
  have h_run : (mqpubTrace cfg is).countP Event.isPublished + js.length
        + (mqpubThread cfg (is ++ js)).state.distance
      ≤ (mqpubTrace cfg (is ++ js)).countP Event.isPublished
        + (mqpubThread cfg is).state.distance + 3 * js.countP fun i => ¬ i.Working := by
    induction js using List.reverseRecOn with
    | nil => simp
    | append_singleton js j ih =>
      have h_step := (mqpubIter_step cfg (mqpubThread cfg (is ++ js)) j).progress
      have h_thread : mqpubThread cfg (is ++ (js ++ [j]))
          = (mqpubIter cfg (mqpubThread cfg (is ++ js)) j).1 := by
        rw [← List.append_assoc]
        exact run_concat _ _
      have h_trace : mqpubTrace cfg (is ++ (js ++ [j])) = mqpubTrace cfg (is ++ js)
          ++ (mqpubIter cfg (mqpubThread cfg (is ++ js)) j).2 := by
        rw [← List.append_assoc]
        exact trace_concat _ _
      have h_count : (js ++ [j]).countP (fun i => ¬ i.Working)
          = js.countP (fun i => ¬ i.Working) + if j.Working then 0 else 1 := by
        rw [List.countP_append, List.countP_singleton]
        by_cases h : j.Working <;> simp [h]
      rw [h_thread, h_trace, h_count, List.countP_append, List.length_append,
        List.length_singleton]
      omega
  have h_start : (mqpubThread cfg is).state.distance ≤ 2 := by
    cases (mqpubThread cfg is).state <;> decide
  omega

/-! ### Pace -/

/-- A call of the client. -/
def Event.isCall : Event → Bool
  | .sleep _ => false
  | _ => true

/-- A call of `emcute_pub`. -/
def Event.isPub : Event → Bool
  | .pub _ _ _ => true
  | _ => false

/-- The pause in seconds. -/
def Event.secs : Event → ℕ
  | .sleep secs => secs.toNat
  | _ => 0

/-- The pauses of a trace. -/
def sleeps (tr : List Event) : ℕ := tr.countP fun e => !e.isCall

/-- The seconds slept in a trace. -/
def slept (tr : List Event) : ℕ := (tr.map Event.secs).sum

/-- The seconds that a report costs at least: the pause behind it, or the two pauses of a new
session. -/
def MqpubConfig.pace (cfg : MqpubConfig) : ℕ :=
  min cfg.publishInterval.toNat (2 * mqpubStateInterval.toNat)

/-- What a state has paid for the next report. -/
def MqttsnState.paid (cfg : MqpubConfig) : MqttsnState → ℕ
  | .notConnected => 0
  | .connected => mqpubStateInterval.toNat
  | .publishing => cfg.pace

/-- The calls that a state may have made since the last pause. -/
def MqttsnState.unslept : MqttsnState → ℕ
  | .notConnected => 2
  | .connected => 0
  | .publishing => 0

/-- **The invariant.** -/
structure Paced (cfg : MqpubConfig) (tr : List Event) (s : MqpubThread) : Prop where
  sleepsecs : s.state ≠ .publishing → s.sleepsecs = mqpubStateInterval
  calls : tr.countP Event.isCall ≤ 3 * sleeps tr + s.state.unslept
  paid : tr.countP Event.isPub * cfg.pace + s.state.paid cfg ≤ slept tr

theorem sleeps_append (tr evs : List Event) : sleeps (tr ++ evs) = sleeps tr + sleeps evs :=
  List.countP_append

theorem slept_append (tr evs : List Event) : slept (tr ++ evs) = slept tr + slept evs := by
  unfold slept
  rw [List.map_append, List.sum_append]

/-- What one iteration adds to the three sums. -/
theorem Paced.append {cfg : MqpubConfig} {tr evs : List Event} {s s' : MqpubThread}
    (h : Paced cfg tr s)
    (h_sleepsecs : s'.state ≠ .publishing → s'.sleepsecs = mqpubStateInterval)
    (h_calls : evs.countP Event.isCall + s.state.unslept ≤ 3 * sleeps evs + s'.state.unslept)
    (h_paid : evs.countP Event.isPub * cfg.pace + s'.state.paid cfg
      ≤ slept evs + s.state.paid cfg) : Paced cfg (tr ++ evs) s' where
  sleepsecs := h_sleepsecs
  calls := by
    have h_before := h.calls
    rw [List.countP_append, sleeps_append]
    omega
  paid := by
    have h_before := h.paid
    rw [List.countP_append, slept_append, Nat.add_mul]
    omega

/-- **One iteration** keeps the invariant. -/
theorem Paced.step {cfg : MqpubConfig} {tr evs : List Event} {s s' : MqpubThread} {i : MqpubInput}
    (h : Paced cfg tr s) (h_step : MqpubStep cfg s i s' evs) : Paced cfg (tr ++ evs) s' := by
  have h_pace : cfg.pace ≤ 2 * mqpubStateInterval.toNat := Nat.min_le_right _ _
  cases h_step with
  | resolveFails h_state h_res =>
    refine h.append h.sleepsecs ?_ ?_
    · show 0 + s.state.unslept ≤ 3 * 1 + s.state.unslept
      omega
    · show 0 * cfg.pace + s.state.paid cfg ≤ s.sleepsecs.toNat + s.state.paid cfg
      omega
  | conFails h_state h_con =>
    refine h.append h.sleepsecs ?_ ?_
    · show 1 + s.state.unslept ≤ 3 * 1 + s.state.unslept
      omega
    · show 0 * cfg.pace + s.state.paid cfg ≤ 0 + (s.sleepsecs.toNat + 0) + s.state.paid cfg
      omega
  | conOk h_state h_con =>
    have h_sleep := h.sleepsecs (by rw [h_state]; decide)
    refine h.append (fun _ => h_sleep) ?_ ?_
    · -- with the two calls that may have come before the pause
      rw [h_state]
      show 1 + 2 ≤ 3 * 1 + 0
      omega
    · rw [h_state, h_sleep]
      show 0 * cfg.pace + mqpubStateInterval.toNat ≤ mqpubStateInterval.toNat + 0
      omega
  | regFails h_state h_reg =>
    refine h.append (fun _ => h.sleepsecs (by rw [h_state]; decide)) ?_ ?_
    · rw [h_state]
      show 2 + 0 ≤ 3 * 1 + 2
      omega
    · show 0 * cfg.pace + 0 ≤ _
      omega
  | regOk h_state h_reg =>
    have h_sleep := h.sleepsecs (by rw [h_state]; decide)
    refine h.append (fun h_ne => absurd rfl h_ne) ?_ ?_
    · rw [h_state]
      show 1 + 0 ≤ 3 * 1 + 0
      omega
    · -- the two pauses of the session
      rw [h_state, h_sleep]
      show 0 * cfg.pace + cfg.pace ≤ mqpubStateInterval.toNat + mqpubStateInterval.toNat
      omega
  | pubFails h_state h_pub mem data =>
    -- no pause: these are the calls that `notConnected` may have made
    refine h.append (fun _ => rfl) ?_ ?_
    · rw [h_state]
      show 2 + 0 ≤ 3 * 0 + 2
      omega
    · rw [h_state]
      show 1 * cfg.pace + 0 ≤ 0 + cfg.pace
      omega
  | pubOk h_state h_pub mem data =>
    refine h.append (fun h_ne => absurd h_state h_ne) ?_ ?_
    · show 1 + s.state.unslept ≤ 3 * 1 + s.state.unslept
      omega
    · have h_le : cfg.pace ≤ cfg.publishInterval.toNat := Nat.min_le_left _ _
      show 1 * cfg.pace + s.state.paid cfg ≤ 0 + (cfg.publishInterval.toNat + 0) + s.state.paid cfg
      omega

/-- **Pace.** At every loop head the thread has made at most three calls for each pause, and two
more, and for every report that it passed to the client, sent or not, it has slept the interval
between reports or, if that is shorter, the two pauses of a new session. -/
theorem mqpub_paced (cfg : MqpubConfig) (is : List MqpubInput) :
    let tr := mqpubTrace cfg is
    tr.countP Event.isCall ≤ 3 * sleeps tr + 2 ∧
      tr.countP Event.isPub * min cfg.publishInterval.toNat (2 * mqpubStateInterval.toNat)
        ≤ slept tr := by
  intro tr
  have h : Paced cfg tr (mqpubThread cfg is) :=
    mqpub_invariant ⟨fun _ => rfl, Nat.zero_le _, by simp [MqpubThread.boot, MqttsnState.paid]⟩
      (fun _ _ _ _ _ h h_step => h.step h_step) is
  have h_unslept : (mqpubThread cfg is).state.unslept ≤ 2 := by
    cases (mqpubThread cfg is).state <;> decide
  have h_calls := h.calls
  have h_paid := h.paid
  exact ⟨by omega, Nat.le_trans (Nat.le_add_right _ _) h_paid⟩

end AirQuality
