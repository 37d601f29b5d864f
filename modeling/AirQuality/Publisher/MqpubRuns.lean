import Mathlib.Data.List.DropRight
import AirQuality.Publisher.Mqpub

/-!
# Runs of the publisher thread

What holds at every loop head of `mqpub_thread`, whatever the resolver and the client do.

* The counters balance (`mqpub_counters`), also after they wrap around.
* The calls come in order (`mqpub_trace`): a publish only after a registration in the same
  session, one disconnect after each failure, a pause before each new attempt to connect.
* The thread's own state follows the client's session only as long as every disconnect succeeds
  (`notConnected_closed_iff`). `mqpub_reset` ignores a failing one, and the thread then believes
  to be disconnected while the session is open.

Each of them is an invariant of `MqpubStep`, and `mqpub_invariant` carries it over a run.
-/

namespace AirQuality

open Machine

/-! ### The counters -/

/-- The balance of the counters, modulo `2 ^ 16`. -/
structure Balanced (s : MqpubThread) : Prop where
  connect : s.stats.connectOk = s.stats.registerOk + s.stats.registerFail
    + if s.state = .connected then 1 else 0
  register : s.stats.registerOk = s.stats.publishFail + if s.state = .publishing then 1 else 0
  reset : s.stats.reset = s.stats.registerFail + s.stats.publishFail

theorem Balanced.step {cfg : MqpubConfig} {s s' : MqpubThread} {i : MqpubInput} {evs : List Event}
    (h : Balanced s) (h_step : MqpubStep cfg s i s' evs) : Balanced s' := by
  obtain ⟨h_con, h_reg, h_reset⟩ := h
  cases h_step with
  -- nothing is counted, or only `connect_fail`, which no law mentions
  | resolveFails h_state => exact ⟨h_con, h_reg, h_reset⟩
  | conFails h_state => exact ⟨h_con, h_reg, h_reset⟩
  | conOk h_state =>
    rw [h_state] at h_con h_reg
    -- the connection is counted, and the state takes up the difference
    refine ⟨?_, ?_, h_reset⟩
    · change s.stats.connectOk + 1 = s.stats.registerOk + s.stats.registerFail + 1
      grind
    · exact h_reg
  | regFails h_state =>
    rw [h_state] at h_con h_reg
    -- the indicator of `MQTTSN_CONNECTED` moves into `register_fail`
    refine ⟨?_, h_reg, ?_⟩
    · change s.stats.connectOk = s.stats.registerOk + (s.stats.registerFail + 1) + 0
      grind
    · change s.stats.reset + 1 = s.stats.registerFail + 1 + s.stats.publishFail
      grind
  | regOk h_state =>
    rw [h_state] at h_con h_reg
    -- it moves into `register_ok`, which the indicator of `MQTTSN_PUBLISHING` balances
    refine ⟨?_, ?_, h_reset⟩
    · change s.stats.connectOk = s.stats.registerOk + 1 + s.stats.registerFail + 0
      grind
    · change s.stats.registerOk + 1 = s.stats.publishFail + 1
      grind
  | pubFails h_state =>
    rw [h_state] at h_con h_reg
    -- the indicator of `MQTTSN_PUBLISHING` moves into `publish_fail`
    refine ⟨h_con, ?_, ?_⟩
    · change s.stats.registerOk = s.stats.publishFail + 1 + 0
      grind
    · change s.stats.reset + 1 = s.stats.registerFail + (s.stats.publishFail + 1)
      grind
  -- `publish_ok` is in no law either
  | pubOk h_state => exact ⟨h_con, h_reg, h_reset⟩

/-- The third law: connections are resets, and the session that is open. -/
theorem Balanced.connect_reset {s : MqpubThread} (h : Balanced s) :
    s.stats.connectOk = s.stats.reset + if s.state ≠ .notConnected then 1 else 0 := by
  obtain ⟨h_con, h_reg, h_reset⟩ := h
  cases h_state : s.state <;> simp only [h_state] at h_con h_reg ⊢ <;> grind

/-- **The counters balance at every loop head.** -/
theorem mqpub_counters (cfg : MqpubConfig) (is : List MqpubInput) :
    let s := mqpubThread cfg is
    s.stats.connectOk = s.stats.registerOk + s.stats.registerFail
        + (if s.state = .connected then 1 else 0) ∧
      s.stats.registerOk = s.stats.publishFail + (if s.state = .publishing then 1 else 0) ∧
      s.stats.reset = s.stats.registerFail + s.stats.publishFail ∧
      s.stats.connectOk = s.stats.reset + (if s.state ≠ .notConnected then 1 else 0) := by
  intro s
  have h : Balanced s := mqpub_invariant (P := fun _ s => Balanced s) ⟨rfl, rfl, rfl⟩
    (fun _ _ _ _ _ h h_step => h.step h_step) is
  exact ⟨h.connect, h.register, h.reset, h.connect_reset⟩

/-! ### The session -/

/-- The effect of a call on the session of the client: a successful connect opens it, a successful
disconnect closes it. -/
def sessionStep (isOpen : Bool) : Event → Bool
  | .con _ _ errno => if errno = emcuteOk then true else isOpen
  | .discon errno => if errno = emcuteOk then false else isOpen
  | _ => isOpen

/-- Whether the session is open after the calls `tr`. -/
def sessionOpen (tr : List Event) : Bool := run sessionStep false tr

theorem sessionOpen_append (tr evs : List Event) :
    sessionOpen (tr ++ evs) = run sessionStep (sessionOpen tr) evs := run_append tr evs

/-- The thread's state agrees with the client's session. -/
def InStep (tr : List Event) (s : MqpubThread) : Prop :=
  sessionOpen tr = true ↔ s.state ≠ .notConnected

/-- Without a failing disconnect, the two stay in step. -/
theorem InStep.step {cfg : MqpubConfig} {tr evs : List Event} {s s' : MqpubThread}
    {i : MqpubInput} (h : InStep tr s) (h_step : MqpubStep cfg s i s' evs)
    (h_discon : ∀ d, Event.discon d ∈ evs → d = emcuteOk) : InStep (tr ++ evs) s' := by
  unfold InStep at h ⊢
  rw [sessionOpen_append]
  cases h_step with
  -- the client is not called
  | resolveFails h_state => exact h
  -- a failing call leaves the session as it was
  | conFails h_state h_con => simpa [sessionStep, h_con] using h
  -- both open
  | conOk h_state h_con => simp [sessionStep, h_con]
  -- the disconnect closes the session, as the thread assumes
  | regFails h_state => simp [sessionStep, h_discon i.discon (by simp)]
  | regOk h_state => simpa [sessionStep, h_state] using h
  | pubFails h_state => simp [sessionStep, h_discon i.discon (by simp)]
  | pubOk h_state => exact h

/-- A failing disconnect leaves the thread disconnected and the session open. -/
theorem InStep.discon_fails {cfg : MqpubConfig} {tr evs : List Event} {s s' : MqpubThread}
    {i : MqpubInput} (h : InStep tr s) (h_step : MqpubStep cfg s i s' evs) {d : Int}
    (h_mem : Event.discon d ∈ evs) (h_fail : d ≠ emcuteOk) :
    s'.state = .notConnected ∧ sessionOpen (tr ++ evs) = true := by
  unfold InStep at h
  rw [sessionOpen_append]
  cases h_step with
  -- only two of the seven make a disconnect
  | resolveFails => simp at h_mem
  | conFails => simp at h_mem
  | conOk => simp at h_mem
  | regOk => simp at h_mem
  | pubOk => simp at h_mem
  | regFails h_state =>
    obtain rfl : d = i.discon := by simpa using h_mem
    -- the thread takes no notice of the result
    exact ⟨rfl, by simp [sessionStep, h_fail, h.mpr (by simp [h_state])]⟩
  | pubFails h_state =>
    obtain rfl : d = i.discon := by simpa using h_mem
    exact ⟨rfl, by simp [sessionStep, h_fail, h.mpr (by simp [h_state])]⟩

theorem mqpubTrace_concat (cfg : MqpubConfig) (is : List MqpubInput) (i : MqpubInput) :
    mqpubTrace cfg (is ++ [i]) = mqpubTrace cfg is ++ (mqpubIter cfg (mqpubThread cfg is) i).2 :=
  trace_concat is i

theorem mqpubThread_concat (cfg : MqpubConfig) (is : List MqpubInput) (i : MqpubInput) :
    mqpubThread cfg (is ++ [i]) = (mqpubIter cfg (mqpubThread cfg is) i).1 :=
  run_concat is i

/-- In a run without failing disconnects, the two are in step at the end. -/
theorem inStep_of_discon_ok (cfg : MqpubConfig) (is : List MqpubInput) :
    (∀ d, Event.discon d ∈ mqpubTrace cfg is → d = emcuteOk) →
      InStep (mqpubTrace cfg is) (mqpubThread cfg is) := by
  refine mqpub_invariant (P := fun tr s =>
    (∀ d, Event.discon d ∈ tr → d = emcuteOk) → InStep tr s) (fun _ => ?_) ?_ is
  · simp [InStep, sessionOpen, MqpubThread.boot]
  · intro tr s i s' evs ih h_step h_all
    -- the calls so far are among those of the run
    refine (ih fun d hd => h_all d (List.mem_append_left _ hd)).step h_step fun d hd => ?_
    exact h_all d (List.mem_append_right _ hd)

/-- **When a disconnected thread has no session.** In a run, the session is closed at every loop
head in state `MQTTSN_NOT_CONNECTED` if and only if every disconnect of the run succeeds. -/
theorem notConnected_closed_iff (cfg : MqpubConfig) (is : List MqpubInput) :
    (∀ pre post, is = pre ++ post → (mqpubThread cfg pre).state = .notConnected →
        sessionOpen (mqpubTrace cfg pre) = false) ↔
      ∀ d, Event.discon d ∈ mqpubTrace cfg is → d = emcuteOk := by
  constructor
  · intro h_closed
    induction is using List.reverseRecOn with
    | nil => intro d hd; exact absurd hd (by simp [mqpubTrace])
    | append_singleton is i ih =>
      have h_before := ih fun pre post h => h_closed pre (post ++ [i]) (by simp [h])
      have h_step := mqpubIter_step cfg (mqpubThread cfg is) i
      rw [← mqpubThread_concat] at h_step
      intro d hd
      rw [mqpubTrace_concat] at hd
      rcases List.mem_append.mp hd with hd | hd
      · exact h_before d hd
      · -- a failing disconnect in the last iteration would leave the session open
        by_contra h_fail
        obtain ⟨h_state, h_open⟩ :=
          (inStep_of_discon_ok cfg is h_before).discon_fails h_step hd h_fail
        have h_end := h_closed (is ++ [i]) [] (by simp) h_state
        rw [mqpubTrace_concat, h_open] at h_end
        exact absurd h_end (by decide)
  · rintro h_all pre post rfl h_state
    have h_in := inStep_of_discon_ok cfg pre fun d hd => h_all d (by
      unfold mqpubTrace
      rw [trace_append]
      exact List.mem_append_left _ hd)
    unfold InStep at h_in
    rw [h_state] at h_in
    simpa using h_in

/-- Connect succeeds, registration fails, and so does the disconnect after it. -/
def refusedDiscon : List MqpubInput := [
  ⟨⟨0, Vector.replicate 16 0⟩, 0, ⟨0, 0⟩, 0, 0, 0, DustBins.zero⟩,
  ⟨⟨0, Vector.replicate 16 0⟩, 0, ⟨-2, 0⟩, 0, -2, 0, DustBins.zero⟩]

/-- The client refuses to connect while a session is open. -/
def RefusesWhileOpen (tr : List Event) : Prop :=
  Along (fun pre e => ∀ addr port, e = .con addr port emcuteOk → sessionOpen pre = false) tr

/-- **A disconnected thread with an open session.** In the end the thread is about to connect
again, and the client will refuse. -/
theorem refusedDiscon_leaves_open :
    RefusesWhileOpen (mqpubTrace .node refusedDiscon) ∧
      ¬ ((mqpubThread .node refusedDiscon).state = .notConnected →
        sessionOpen (mqpubTrace .node refusedDiscon) = false) := by
  refine ⟨?_, fun h => absurd (h rfl) (by decide)⟩
  have h_trace : mqpubTrace .node refusedDiscon = [] ++ [.con (Vector.replicate 16 0) 10000 0]
      ++ [.sleep 2] ++ [.reg ⟨some MqpubConfig.node.topicstr, none⟩ (-2)] ++ [.discon (-2)]
      ++ [.sleep 2] := rfl
  unfold RefusesWhileOpen
  rw [h_trace]
  simp only [along_concat]
  -- the only connect is the first call
  simp [along_nil, sessionOpen]

/-- A thread that takes an open session for closed stays so for one more iteration. -/
theorem MqpubStep.stays_open {cfg : MqpubConfig} {tr evs : List Event} {s s' : MqpubThread}
    {i : MqpubInput} (h_step : MqpubStep cfg s i s' evs) (h_state : s.state = .notConnected)
    (h_open : sessionOpen tr = true) (h_refuses : RefusesWhileOpen (tr ++ evs)) :
    s'.state = .notConnected ∧ sessionOpen (tr ++ evs) = true := by
  rw [sessionOpen_append, h_open]
  cases h_step with
  | resolveFails => exact ⟨h_state, rfl⟩
  | conFails _ h_con => exact ⟨h_state, by simp [sessionStep, h_con]⟩
  | conOk _ h_con =>
    -- the client would have to accept a connect while the session is open
    have h_closed := h_refuses tr _ _ rfl i.resolution.addr cfg.gatewayPort (by rw [h_con])
    rw [h_open] at h_closed
    exact absurd h_closed (by decide)
  | regFails h => exact absurd (h_state.symm.trans h) (by decide)
  | regOk h => exact absurd (h_state.symm.trans h) (by decide)
  | pubFails h => exact absurd (h_state.symm.trans h) (by decide)
  | pubOk h => exact absurd (h_state.symm.trans h) (by decide)

/-- **It never connects again**: with a client that refuses to connect while a session is open, a
thread that is in `MQTTSN_NOT_CONNECTED` with an open session stays there for ever. -/
theorem notConnected_open_forever {cfg : MqpubConfig} {is js : List MqpubInput}
    (h_state : (mqpubThread cfg is).state = .notConnected)
    (h_open : sessionOpen (mqpubTrace cfg is) = true)
    (h_refuses : RefusesWhileOpen (mqpubTrace cfg (is ++ js))) :
    (mqpubThread cfg (is ++ js)).state = .notConnected ∧
      sessionOpen (mqpubTrace cfg (is ++ js)) = true := by
  induction js using List.reverseRecOn with
  | nil => rw [List.append_nil]; exact ⟨h_state, h_open⟩
  | append_singleton js j ih =>
    rw [← List.append_assoc, mqpubTrace_concat] at h_refuses
    obtain ⟨h_state', h_open'⟩ := ih h_refuses.of_append
    rw [← List.append_assoc, mqpubTrace_concat, mqpubThread_concat]
    exact (mqpubIter_step cfg _ j).stays_open h_state' h_open' h_refuses

/-! ### The order of the calls -/

/-- A call that tells the thread that the session is of no use. -/
def Event.isFailure : Event → Bool
  | .reg _ errno => errno != emcuteOk
  | .pub _ _ errno => errno != emcuteOk
  | _ => false

/-- An attempt to connect. -/
def Event.isCon : Event → Bool
  | .con _ _ _ => true
  | _ => false

/-- A disconnect. -/
def Event.isDiscon : Event → Bool
  | .discon _ => true
  | _ => false

/-- The calls since the last attempt to connect. -/
def sinceCon (tr : List Event) : List Event := tr.rtakeWhile fun e => !e.isCon

/-- The last call failed. -/
def endsFailed (tr : List Event) : Bool := tr.getLast?.any Event.isFailure

/-- `b` are the calls since a successful connect; there was a pause, and no disconnect. -/
structure InSession (tr b : List Event) : Prop where
  since : ∃ a addr port, tr = a ++ .con addr port emcuteOk :: b
  quiet : ∀ e ∈ b, e.isCon = false ∧ e.isDiscon = false
  paused : ∃ secs, Event.sleep secs ∈ b

/-- The topic was registered in the session that is open, and has the id assigned then. -/
def Registered (tr : List Event) (t : Topic) : Prop :=
  ∃ b, InSession tr b ∧ .reg t emcuteOk ∈ b ∧ t.id.isSome = true

/-- Calls after which a new attempt to connect may follow the one before them: a pause, and at the
end either a pause of `MQPUB_STATE_INTERVAL` or a failed publish and its disconnect. -/
def Gap (b : List Event) : Prop :=
  (∃ secs, Event.sleep secs ∈ b) ∧
    ((∃ m, b = m ++ [.sleep mqpubStateInterval]) ∨
      ∃ m t data errno d, errno ≠ emcuteOk ∧ b = m ++ [.pub t data errno, .discon d])

/-- The next attempt to connect may come. -/
def MayConnect (tr : List Event) : Prop := (∃ e ∈ tr, e.isCon = true) → Gap (sinceCon tr)

/-- A call is in order after the calls `pre`. -/
structure InOrder (pre : List Event) (e : Event) : Prop where
  /-- A disconnect answers a failure, and a failure is answered by a disconnect. -/
  discon : e.isDiscon = endsFailed pre
  /-- A publish uses a topic registered in the session. -/
  pub : ∀ t data errno, e = .pub t data errno → Registered pre t
  /-- Attempts to connect are spaced. -/
  con : e.isCon = true → MayConnect pre

/-- What the thread's state says about the calls so far. -/
def Expects (tr : List Event) (s : MqpubThread) : Prop :=
  match s.state with
  | .notConnected => s.sleepsecs = mqpubStateInterval ∧ MayConnect tr
  | .connected => s.sleepsecs = mqpubStateInterval ∧ ∃ b, InSession tr b
  | .publishing => Registered tr s.topic

/-- All calls are in order, and none is left without its disconnect. -/
structure Ordered (tr : List Event) : Prop where
  inOrder : Along InOrder tr
  answered : endsFailed tr = false

@[simp] theorem endsFailed_concat (tr : List Event) (e : Event) :
    endsFailed (tr ++ [e]) = e.isFailure := by simp [endsFailed]

theorem endsFailed_append (tr : List Event) {b : List Event} (h : b ≠ []) :
    endsFailed (tr ++ b) = endsFailed b := by
  simp [endsFailed, List.getLast?_append_of_ne_nil _ h]

theorem sinceCon_concat (tr : List Event) {e : Event} (h : e.isCon = false) :
    sinceCon (tr ++ [e]) = sinceCon tr ++ [e] :=
  List.rtakeWhile_concat_pos _ _ _ (by simp [h])

theorem sinceCon_of_con (tr : List Event) {e : Event} (h : e.isCon = true) :
    sinceCon (tr ++ [e]) = [] := List.rtakeWhile_concat_neg _ _ _ (by simp [h])

theorem sinceCon_split (a : List Event) {e : Event} {b : List Event} (h : e.isCon = true)
    (h_b : ∀ x ∈ b, x.isCon = false) : sinceCon (a ++ e :: b) = b := by
  induction b using List.reverseRecOn with
  | nil => exact sinceCon_of_con a h
  | append_singleton b x ih =>
    have h_split : a ++ e :: (b ++ [x]) = (a ++ e :: b) ++ [x] := by simp
    rw [h_split, sinceCon_concat _ (h_b x (by simp)), ih fun y hy => h_b y (by simp [hy])]

theorem InSession.concat {tr b : List Event} (h : InSession tr b) {e : Event}
    (h_con : e.isCon = false) (h_discon : e.isDiscon = false) :
    InSession (tr ++ [e]) (b ++ [e]) where
  since := by
    obtain ⟨a, addr, port, rfl⟩ := h.since
    exact ⟨a, addr, port, by simp⟩
  quiet := by
    intro x hx
    rcases List.mem_append.mp hx with hx | hx
    · exact h.quiet x hx
    · rw [List.mem_singleton.mp hx]
      exact ⟨h_con, h_discon⟩
  paused := by
    obtain ⟨secs, h_mem⟩ := h.paused
    exact ⟨secs, List.mem_append_left _ h_mem⟩

theorem InSession.sinceCon_eq {tr b : List Event} (h : InSession tr b) : sinceCon tr = b := by
  obtain ⟨a, addr, port, rfl⟩ := h.since
  exact sinceCon_split a rfl fun x hx => (h.quiet x hx).1

/-- After a pause of `MQPUB_STATE_INTERVAL` a new attempt may come. -/
theorem mayConnect_sleep (tr : List Event) : MayConnect (tr ++ [.sleep mqpubStateInterval]) := by
  intro _
  rw [sinceCon_concat tr rfl]
  exact ⟨⟨mqpubStateInterval, by simp⟩, Or.inl ⟨_, rfl⟩⟩

/-- After a failed publish and its disconnect, too. -/
theorem InSession.mayConnect {tr b : List Event} (h : InSession tr b) (t : Topic)
    (data : List Char) {errno : Int} (h_errno : errno ≠ emcuteOk) (d : Int) :
    MayConnect (tr ++ [.pub t data errno] ++ [.discon d]) := by
  intro _
  rw [sinceCon_concat _ rfl, sinceCon_concat _ rfl, h.sinceCon_eq]
  obtain ⟨secs, h_mem⟩ := h.paused
  exact ⟨⟨secs, by simp [h_mem]⟩, Or.inr ⟨b, t, data, errno, d, h_errno, by simp⟩⟩

/-- A call that is neither a connect nor a disconnect nor a publish, after one that did not
fail. -/
theorem inOrder_other {pre : List Event} {e : Event} (h_pre : endsFailed pre = false)
    (h_con : e.isCon = false) (h_discon : e.isDiscon = false)
    (h_pub : ∀ t data errno, e ≠ .pub t data errno) : InOrder pre e where
  discon := by rw [h_discon, h_pre]
  pub := fun t data errno h => absurd h (h_pub t data errno)
  con := fun h => absurd h (by simp [h_con])

theorem inOrder_con {pre : List Event} (h_pre : endsFailed pre = false) (h : MayConnect pre)
    (addr : Ipv6Addr) (port : UInt16) (errno : Int) : InOrder pre (.con addr port errno) where
  discon := h_pre.symm
  pub := fun _ _ _ h => Event.noConfusion h
  con := fun _ => h

theorem inOrder_pub {pre : List Event} (h_pre : endsFailed pre = false) {t : Topic}
    (h : Registered pre t) (data : List Char) (errno : Int) :
    InOrder pre (.pub t data errno) where
  discon := h_pre.symm
  pub := by
    rintro t' data' errno' h_eq
    obtain rfl : t = t' := (Event.pub.inj h_eq).1
    exact h
  con := fun h => absurd h (by simp [Event.isCon])

theorem inOrder_discon {pre : List Event} (h_pre : endsFailed pre = true) (d : Int) :
    InOrder pre (.discon d) where
  discon := h_pre.symm
  pub := fun _ _ _ h => Event.noConfusion h
  con := fun h => absurd h (by simp [Event.isCon])

theorem Ordered.concat {tr : List Event} (h : Ordered tr) {e : Event} (he : InOrder tr e)
    (h_ok : e.isFailure = false) : Ordered (tr ++ [e]) :=
  ⟨along_concat.mpr ⟨h.inOrder, he⟩, by rw [endsFailed_concat, h_ok]⟩

theorem Ordered.sleep {tr : List Event} (h : Ordered tr) (secs : UInt32) :
    Ordered (tr ++ [.sleep secs]) :=
  h.concat (inOrder_other h.answered rfl rfl (by simp)) rfl

/-- A failure and its disconnect. -/
theorem Ordered.failure {tr : List Event} (h : Ordered tr) {e : Event} (he : InOrder tr e)
    (h_fail : e.isFailure = true) (d : Int) : Ordered (tr ++ [e] ++ [.discon d]) := by
  have h_along : Along InOrder (tr ++ [e]) := along_concat.mpr ⟨h.inOrder, he⟩
  have h_discon : InOrder (tr ++ [e]) (.discon d) :=
    inOrder_discon (by rw [endsFailed_concat, h_fail]) d
  exact ⟨along_concat.mpr ⟨h_along, h_discon⟩, by rw [endsFailed_concat]; rfl⟩

/-- **One iteration keeps the calls in order**, and leaves the trace as the new state expects. -/
theorem Ordered.step {cfg : MqpubConfig} {tr evs : List Event} {s s' : MqpubThread}
    {i : MqpubInput} (h : Ordered tr) (h_exp : Expects tr s) (h_step : MqpubStep cfg s i s' evs) :
    Ordered (tr ++ evs) ∧ Expects (tr ++ evs) s' := by
  unfold Expects at h_exp ⊢
  cases h_step with
  | resolveFails h_state =>
    rw [h_state] at h_exp ⊢
    -- a pause of the right length, and no call
    rw [h_exp.1]
    exact ⟨h.sleep _, rfl, mayConnect_sleep tr⟩
  | conFails h_state h_con =>
    rw [h_state] at h_exp
    simp only [h_state]
    rw [h_exp.1, List.append_cons]
    -- the connect may come since the thread expects it; the pause lets the next one come
    have h_ordered := h.concat
      (inOrder_con h.answered h_exp.2 i.resolution.addr cfg.gatewayPort i.con) rfl
    exact ⟨h_ordered.sleep _, rfl, mayConnect_sleep _⟩
  | conOk h_state h_con =>
    rw [h_state] at h_exp
    rw [h_con]
    -- a new session starts here
    have h_ordered := h.concat
      (inOrder_con h.answered h_exp.2 i.resolution.addr cfg.gatewayPort emcuteOk) rfl
    refine ⟨?_, h_exp.1, [.sleep s.sleepsecs], ⟨tr, i.resolution.addr, cfg.gatewayPort, rfl⟩,
      ?_, ⟨s.sleepsecs, by simp⟩⟩
    · rw [List.append_cons]
      exact h_ordered.sleep _
    · -- nothing but the pause
      intro e he
      rw [List.mem_singleton.mp he]
      exact ⟨rfl, rfl⟩
  | regFails h_state h_reg =>
    rw [h_state] at h_exp
    rw [h_exp.1, List.append_cons, List.append_cons]
    -- a failure and its disconnect, then the pause
    have h_ordered := h.failure (e := .reg { s.topic with name := some cfg.topicstr } i.reg.res)
      (inOrder_other h.answered rfl rfl (by simp)) (by simpa [Event.isFailure] using h_reg)
      i.discon
    exact ⟨h_ordered.sleep _, rfl, mayConnect_sleep _⟩
  | regOk h_state h_reg =>
    rw [h_state] at h_exp
    obtain ⟨-, b, h_session⟩ := h_exp
    rw [h_reg, List.append_cons]
    -- the registration extends the session, and so does the pause
    have h_ordered := h.concat (e := .reg ⟨some cfg.topicstr, some i.reg.id⟩ emcuteOk)
      (inOrder_other h.answered rfl rfl (by simp)) rfl
    refine ⟨h_ordered.sleep _, _, (h_session.concat rfl rfl).concat rfl rfl, ?_, rfl⟩
    simp
  | pubFails h_state h_pub m data =>
    rw [h_state] at h_exp
    obtain ⟨b, h_session, -⟩ := id h_exp
    rw [List.append_cons]
    -- no pause here: the gap ends with the failed publish
    have h_ordered := h.failure (inOrder_pub h.answered h_exp data i.pub)
      (by simpa [Event.isFailure] using h_pub) i.discon
    exact ⟨h_ordered, rfl, h_session.mayConnect s.topic data h_pub i.discon⟩
  | pubOk h_state h_pub m data =>
    rw [h_state] at h_exp
    simp only [h_state]
    obtain ⟨b, h_session, h_reg, h_id⟩ := id h_exp
    rw [List.append_cons]
    -- the registration stays where it is in the session
    have h_ordered := h.concat (inOrder_pub h.answered h_exp data i.pub)
      (by simp [Event.isFailure, h_pub])
    refine ⟨h_ordered.sleep _, _, (h_session.concat rfl rfl).concat rfl rfl, ?_, h_id⟩
    exact List.mem_append_left _ (List.mem_append_left _ h_reg)

theorem ordered_mqpubTrace (cfg : MqpubConfig) (is : List MqpubInput) :
    Ordered (mqpubTrace cfg is) := by
  refine (mqpub_invariant (P := fun tr s => Ordered tr ∧ Expects tr s) ?_ ?_ is).1
  · exact ⟨⟨along_nil _, rfl⟩, rfl, fun h => absurd h (by simp)⟩
  · intro tr s i s' evs h h_step
    exact h.1.step h.2 h_step

/-- **The order of the calls**, in every run of the thread. Each publish uses a topic that was
registered since the last successful connect, with no disconnect since, and carries the id assigned
then. Each failed registration or publish is followed by a disconnect before any other call, and any
further disconnect comes right behind another failure, so that there is none until the next connect,
registration or publish. Between two attempts to connect the thread sleeps, the last time for
`MQPUB_STATE_INTERVAL` seconds and just before the second attempt, unless that comes directly from a
failed publish. -/
theorem mqpub_trace (cfg : MqpubConfig) (is : List MqpubInput) :
    (∀ pre t data errno post, mqpubTrace cfg is = pre ++ .pub t data errno :: post →
        ∃ a addr port b, pre = a ++ .con addr port emcuteOk :: b ∧
          (∀ e ∈ b, e.isCon = false ∧ e.isDiscon = false) ∧ .reg t emcuteOk ∈ b ∧
          t.id.isSome = true) ∧
      (∀ pre e post, mqpubTrace cfg is = pre ++ e :: post → e.isFailure = true →
        ∃ d rest, post = .discon d :: rest ∧
          ∀ mid d' rest', rest = mid ++ .discon d' :: rest' → endsFailed mid = true) ∧
      (∀ pre addr port errno mid addr' port' errno' post,
        mqpubTrace cfg is
            = pre ++ .con addr port errno :: (mid ++ .con addr' port' errno' :: post) →
        (∀ e ∈ mid, e.isCon = false) → Gap mid) := by
  obtain ⟨h_along, h_answered⟩ := ordered_mqpubTrace cfg is
  refine ⟨?_, ?_, ?_⟩
  · intro pre t data errno post h_split
    -- the publish is in order after the calls before it
    obtain ⟨b, h_session, h_reg, h_id⟩ := (h_along pre _ post h_split).pub t data errno rfl
    obtain ⟨a, addr, port, h_pre⟩ := h_session.since
    exact ⟨a, addr, port, b, h_pre, h_session.quiet, h_reg, h_id⟩
  · intro pre e post h_split h_fail
    cases post with
    | nil =>
      -- a trace does not end in a failure
      rw [h_split, endsFailed_concat, h_fail] at h_answered
      exact absurd h_answered (by decide)
    | cons x rest =>
      have h_x := (h_along (pre ++ [e]) x rest (by simp [h_split])).discon
      rw [endsFailed_concat, h_fail] at h_x
      obtain ⟨d, rfl⟩ : ∃ d, x = .discon d := by
        cases x <;> simp_all [Event.isDiscon]
      refine ⟨d, rest, rfl, ?_⟩
      rintro mid d' rest' rfl
      -- the call before a further disconnect is a failure, and so it is none of those above
      have h_second := (h_along (pre ++ [e, .discon d] ++ mid) (.discon d') rest'
        (by simp [h_split])).discon
      by_cases h_mid : mid = []
      · rw [h_mid, List.append_nil, endsFailed_append pre (List.cons_ne_nil _ _)] at h_second
        exact Bool.noConfusion h_second
      · rw [endsFailed_append _ h_mid] at h_second
        exact h_second.symm
  · intro pre addr port errno mid addr' port' errno' post h_split h_mid
    -- so is the second connect, and the calls since the first are those in between
    have h_con := (h_along (pre ++ .con addr port errno :: mid) (.con addr' port' errno') post
      (by simp [h_split])).con rfl ⟨.con addr port errno, by simp, rfl⟩
    rwa [sinceCon_split pre rfl h_mid] at h_con

end AirQuality
