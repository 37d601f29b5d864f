import AirQuality.Publisher.MqpubProgress
import AirQuality.System.Deployment

/-!
# Which reports arrive

`Deployment` says that nothing false arrives; this module says what does arrive. A report leaves the
node if its `emcute_pub` succeeds, and may leave it if that fails.

While the first connection to the broker lasts, and if the network delivers what left the one node
once and in order and the database works, it holds one record for each report that left, and the
counter of the node says how many of them were published successfully (`deployment_delivers`). There
are at least as many as the node has gone through iterations, but for two to get started and three
for every failed call (`deployment_live`). From the first reconnect on nothing is added any more,
whatever is published and delivered, and nothing shows that it is so: the process runs on if it ran
before (`deployment_frozen`).
-/

namespace AirQuality

open Machine Network

/-! ### After a reconnect -/

/-- **The freeze.** Once the subscriber has connected to the broker for the second time, nothing is
stored any more, whatever the nodes publish and the network delivers and however the database
answers; the process runs as before, and it runs unless a post has raised an exception before the
reconnect. -/
theorem deployment_frozen (broker : Broker) (readers : Readers) (is js : List Happening) :
    let before := (deployment broker readers is).receiver.subscriber
    let s := (deployment broker readers (is ++ .own .reconnect :: js)).receiver.subscriber
    s.database = before.database ∧ s.running = before.running ∧
      (s.running = true ↔ ∀ x ∈ deploymentHeard broker readers is, x.answer.raises = false) := by
  intro before s
  have h_run : s = run Subscriber.step before
      ((received nodes (Backend.step readers) (deployment broker readers is)
        (.own .reconnect :: js)).flatMap subscriberInputs) := by
    show (run (Network.step nodes (Backend.step readers)) _ (is ++ _)).receiver.subscriber = _
    rw [run_append, run_receiver, Backend.run_subscriber]
    rfl
  -- the reconnect is the first thing that the subscriber goes through
  obtain ⟨h_running, h_database⟩ := Subscriber.deaf_run before.deaf_reconnect
    ((received nodes (Backend.step readers) _ js).flatMap subscriberInputs)
  obtain ⟨h_running', h_database'⟩ := before.reconnect_database
  have h_same : s.running = before.running :=
    (congrArg Subscriber.running h_run).trans (h_running.trans h_running')
  refine ⟨(congrArg Subscriber.database h_run).trans (h_database.trans h_database'), h_same, ?_⟩
  rw [h_same]
  exact deployment_running_iff broker readers is

/-! ### The reports of a node -/

/-- A report that left a node: its uptime and its bins, and whether `emcute_pub` succeeded. -/
structure SentReport where
  usec : UInt32
  db : DustBins
  acknowledged : Bool
  deriving DecidableEq

/-- The message that carries it. -/
def SentReport.message (cfg : MqpubConfig) (r : SentReport) : Publication :=
  ⟨cfg.topicstr, reportText r.usec r.db⟩

/-- The record that stores it. -/
def SentReport.post (r : SentReport) : Post := storedPost (r.usec.toNat / 10 ^ 6) r.db

/-- The report that leaves a node in a step. -/
def nodeReport (s : Node) : NodeInput → List SentReport
  | .sensor _ => []
  | .load _ _ => []
  | .iterate i left =>
    if s.thread.state = .publishing ∧ departed i.pub left
    then [⟨i.usec, s.args, decide (i.pub = emcuteOk)⟩] else []

theorem nodeReport_iterate (s : Node) (i : MqpubInput) (left : Bool) :
    nodeReport s (.iterate i left) = if s.thread.state = .publishing ∧ departed i.pub left
      then [⟨i.usec, s.args, decide (i.pub = emcuteOk)⟩] else [] := rfl

section

variable (cfg : MqpubConfig)

/-- The reports that left a node, in order. -/
def nodeReports (js : List NodeInput) : List SentReport :=
  trace (nodeStep cfg) nodeReport Node.boot js

variable {cfg}

/-- What a node sends in a step is the report of that step. -/
theorem nodeSend_eq (h_size : 95 ≤ cfg.bufferSize) {s : Node} {js : List NodeInput}
    (h : s.Sound cfg js) (j : NodeInput) :
    nodeSend cfg s j = (nodeReport s j).map (·.message cfg) := by
  cases j with
  | sensor o => rfl
  | load b half => rfl
  | iterate i left =>
    show (mqpubIter cfg s.thread { i with db := s.args }).2.filterMap (publication left) = _
    rw [mqpubIter_publications _ _ h.topic, reportPayload_eq h_size, nodeReport_iterate]
    split <;> rfl

/-- **A node sends its reports.** -/
theorem nodeSends_eq (h_size : 95 ≤ cfg.bufferSize) (js : List NodeInput) :
    trace (nodeStep cfg) (nodeSend cfg) Node.boot js
      = (nodeReports cfg js).map (·.message cfg) := by
  unfold nodeReports
  induction js using List.reverseRecOn with
  | nil => rfl
  | append_singleton js j ih =>
    rw [trace_concat, trace_concat, List.map_append, ih, nodeSend_eq h_size (Node.sound_run cfg js)]

/-- What a step adds to the counter of the publisher. -/
theorem MqpubStep.counts_reports {t t' : MqpubThread} {i : MqpubInput} {evs : List Event}
    (h_step : MqpubStep cfg t i t' evs) : t'.stats.publishOk = t.stats.publishOk
      + if t.state = .publishing ∧ i.pub = emcuteOk then 1 else 0 := by
  cases h_step with
  | resolveFails h_state => simp [h_state]
  | conFails h_state => simp [h_state]
  | conOk h_state => simp [h_state]
  | regFails h_state => simp [h_state]
  | regOk h_state => simp [h_state]
  | pubFails h_state h_pub => simp [h_pub]
  | pubOk h_state h_pub => simp [h_state, h_pub]

/-- How many reports of a step were acknowledged. -/
theorem countP_nodeReport (s : Node) (i : MqpubInput) (left : Bool) :
    (nodeReport s (.iterate i left)).countP SentReport.acknowledged
      = if s.thread.state = .publishing ∧ i.pub = emcuteOk then 1 else 0 := by
  rw [nodeReport_iterate]
  unfold departed
  by_cases h_state : s.thread.state = .publishing
  · by_cases h_pub : i.pub = emcuteOk
    · simp [h_state, h_pub]
    · cases left <;> simp [h_state, h_pub]
  · simp [h_state]

/-- **The counter of a node says how many of its reports were acknowledged**, modulo `2 ^ 16`. -/
theorem countP_nodeReports (js : List NodeInput) :
    UInt16.ofNat ((nodeReports cfg js).countP SentReport.acknowledged)
      = (run (nodeStep cfg) Node.boot js).thread.stats.publishOk := by
  unfold nodeReports
  refine trace_invariant (P := fun reports (s : Node) =>
    UInt16.ofNat (reports.countP SentReport.acknowledged) = s.thread.stats.publishOk) rfl ?_ js
  intro reports s j h
  rw [List.countP_append]
  cases j with
  | sensor o => exact h
  | load b half => exact h
  | iterate i left =>
    have h_step := mqpubIter_step cfg s.thread { i with db := s.args }
    show _ = (mqpubIter cfg s.thread { i with db := s.args }).1.stats.publishOk
    rw [h_step.counts_reports, ← h, countP_nodeReport, UInt16.ofNat_add]
    -- there is an acknowledged report where the counter goes up
    show _ = _ + if s.thread.state = .publishing ∧ i.pub = emcuteOk then 1 else 0
    split <;> rfl

end

/-! ### Reliable delivery -/

/-- The messages under the subscribed topic. -/
def ofTopic (ms : List Publication) : List Publication :=
  ms.filter fun m => m.topic = subscribedTopic

/-- The messages that the network delivered. -/
def messagesOf (ms : List (Publication ⊕ BackendInput)) : List Publication :=
  ms.filterMap Sum.getLeft?

/-- In this run the connection to the broker is never lost, and the database always works. -/
structure Undisturbed (is : List Happening) : Prop where
  connected : .own .reconnect ∉ is
  works : ∀ a, .own (.answer a) ∈ is → a = .works

/-- The network has delivered the messages under the subscribed topic once each and in order. -/
def DeliversAll (broker : Broker) (readers : Readers) (is : List Happening) : Prop :=
  ofTopic (messagesOf (deploymentReceived broker readers is))
    = ofTopic (deployment broker readers is).sent

instance (broker : Broker) (readers : Readers) (is : List Happening) :
    Decidable (DeliversAll broker readers is) := inferInstanceAs (Decidable (_ = _))

/-- Without a reconnect, every message under the topic is heard, by a database that works. -/
theorem heard_eq {ms : List (Publication ⊕ BackendInput)} (h : .inr .reconnect ∉ ms)
    (h_works : ∀ a, .inr (.answer a) ∈ ms → a = .works) :
    heard .works (ms.flatMap subscriberInputs)
      = (ofTopic (messagesOf ms)).map fun m => ⟨m.payload, .works⟩ := by
  induction ms with
  | nil => rfl
  | cons m ms ih =>
    have h_rest := ih (fun h_mem => h (List.mem_cons_of_mem _ h_mem))
      fun a h_mem => h_works a (List.mem_cons_of_mem _ h_mem)
    cases m with
    | inl m =>
      show heard .works (.message m.topic m.payload :: ms.flatMap subscriberInputs) = _
      by_cases h_topic : m.topic = subscribedTopic
      · simp [heard, ofTopic, messagesOf, h_topic, h_rest]
      · simp [heard, ofTopic, messagesOf, h_topic, h_rest]
    | inr b =>
      cases b with
      | reconnect => exact absurd List.mem_cons_self h
      | answer a =>
        obtain rfl : a = .works := h_works a List.mem_cons_self
        exact h_rest
      | poll o => exact h_rest
      | visit route => exact h_rest
      | rerender => exact h_rest
      | value => exact h_rest

section

variable (broker : Broker) (readers : Readers) (is : List Happening)

/-- The messages under the topic are the reports of one node. -/
theorem ofTopic_sent : ofTopic (deployment broker readers is).sent
    = (nodeReports (nodeConfig subscribedEui) (inputsOf subscribedEui is)).map
        (·.message (nodeConfig subscribedEui)) := by
  have h_size (eui : Eui64) : 95 ≤ (nodeConfig eui).bufferSize := (by decide : 95 ≤ 512 - 16)
  have h_sent : ofTopic (deployment broker readers is).sent
      = sentBy nodes (Deployment.start broker) subscribedEui (inputsOf subscribedEui is) := by
    refine (sent_filter (fun js m hm => ?_) (fun eui h_ne js m hm => ?_) is).trans rfl
    · rw [decide_eq_true_eq, subscribedTopic_eq]
      exact (published_genuine (h_size subscribedEui) js m hm).topic
    · -- the topic of another node is another topic
      rw [decide_eq_false_iff_not, subscribedTopic_eq]
      intro h_topic
      exact h_ne (nodeConfig_injective
        ((published_genuine (h_size eui) js m hm).topic.symm.trans h_topic))
  rw [h_sent]
  exact nodeSends_eq (h_size subscribedEui) _

variable {broker readers is}

/-- The database while the first connection lasts and the network delivers. -/
theorem deployment_database (h_undisturbed : Undisturbed is)
    (h_delivers : DeliversAll broker readers is) :
    (deployment broker readers is).receiver.subscriber.database
      = (nodeReports (nodeConfig subscribedEui) (inputsOf subscribedEui is)).map
          SentReport.post := by
  have h_heard := @heard_eq (deploymentReceived broker readers is)
    (fun h => h_undisturbed.connected (own_of_received is h))
    (fun a h => h_undisturbed.works a (own_of_received is h))
  have h_delivers : ofTopic (messagesOf (deploymentReceived broker readers is)) = _ := h_delivers
  rw [h_delivers, ofTopic_sent, List.map_map] at h_heard
  rw [deployment_subscriber]
  exact (Subscriber.run_stores Subscriber.listening_start h_heard fun r _ =>
    isReport_iff.mp (airQualityData_reportText r.usec r.db)).2

end

/-- **Every report that left arrives.** As long as the first connection to the broker lasts and the
database works, and if the network has delivered the messages under the subscribed topic once each
and in order, the database holds one record for each report that left the node, in order, with the
uptime and the bins that the report was made of, and nothing else; and the node's own counter says
how many of them were acknowledged, modulo `2 ^ 16`. -/
theorem deployment_delivers (broker : Broker) (readers : Readers) (is : List Happening)
    (h_undisturbed : Undisturbed is) (h_delivers : DeliversAll broker readers is) :
    let database := (deployment broker readers is).receiver.subscriber.database
    let reports := nodeReports (nodeConfig subscribedEui) (inputsOf subscribedEui is)
    let stats := ((deployment broker readers is).parties subscribedEui).thread.stats
    database = reports.map SentReport.post ∧
      UInt16.ofNat (reports.countP SentReport.acknowledged) = stats.publishOk := by
  intro database reports stats
  refine ⟨deployment_database h_undisturbed h_delivers, ?_⟩
  have h_node : (deployment broker readers is).parties subscribedEui
      = run (nodeStep (nodeConfig subscribedEui)) Node.boot (inputsOf subscribedEui is) :=
    run_parties subscribedEui is
  have h_stats : stats = _ := congrArg (fun s : Node => s.thread.stats) h_node
  rw [h_stats]
  exact countP_nodeReports _

/-- An iteration whose calls succeed. -/
def workingInput (usec : UInt32) : MqpubInput where
  resolution := ⟨0, Vector.replicate 16 0⟩
  con := emcuteOk
  reg := ⟨emcuteOk, 1⟩
  pub := emcuteOk
  discon := emcuteOk
  usec := usec
  db := DustBins.zero

/-- The node with the subscribed topic goes through an iteration in which everything works. -/
def iterates (usec : UInt32) : Happening :=
  .act subscribedEui (.iterate (workingInput usec) false)

/-- The same, but for the gateway, which does not acknowledge the report in time; `left` says
whether the report left the node. -/
def iteratesInVain (usec : UInt32) (left : Bool) : Happening :=
  .act subscribedEui (.iterate { workingInput usec with pub := -1 } left)

/-- The node connects, registers and publishes; the next report is refused before it leaves the
node, which connects and registers once more; of the two reports that follow, the second one leaves
the node although it is not acknowledged. -/
def threeReports : List Happening :=
  [iterates 0, iterates 1, iterates 2000000, .deliver 0, iteratesInVain 4000000 false,
    iterates 4000001, iterates 4000002, iterates 6000000, .own (.poll ⟨false, false⟩), .deliver 1,
    iteratesInVain 8000000 true, .own (.answer .works), .deliver 2]

theorem threeReports_undisturbed : Undisturbed threeReports where
  connected := by simp [threeReports, iterates, iteratesInVain]
  works := by simp [threeReports, iterates, iteratesInVain]

theorem deployment_delivers_threeReports :
    let s := deployment Broker.listing .ofIntegers threeReports
    s.receiver.subscriber.database = [storedPost 2 DustBins.zero, storedPost 6 DustBins.zero,
      storedPost 8 DustBins.zero] ∧
    (s.parties subscribedEui).thread.stats.publishOk = 2 := by
  have h_reports : nodeReports (nodeConfig subscribedEui) (inputsOf subscribedEui threeReports)
      = [⟨2000000, DustBins.zero, true⟩, ⟨6000000, DustBins.zero, true⟩,
        ⟨8000000, DustBins.zero, false⟩] := by decide +kernel
  have h_delivers := deployment_delivers Broker.listing .ofIntegers threeReports
    threeReports_undisturbed (by decide +kernel)
  rw [h_reports] at h_delivers
  exact ⟨h_delivers.1, h_delivers.2.symm⟩

/-! ### How many reports -/

/-- The step is an iteration of the publisher thread. -/
def NodeInput.isIteration : NodeInput → Bool
  | .iterate _ _ => true
  | _ => false

/-- The step is an iteration with a call that would fail. -/
def NodeInput.fails : NodeInput → Bool
  | .iterate i _ => ¬ i.Working
  | _ => false

/-- What is published leaves the node. -/
theorem MqpubStep.published_le_reports {cfg : MqpubConfig} {s : Node} {t' : MqpubThread}
    {i : MqpubInput} {evs : List Event} (h_step : MqpubStep cfg s.thread i t' evs) (left : Bool) :
    evs.countP Event.isPublished ≤ (nodeReport s (.iterate i left)).length := by
  rw [nodeReport_iterate]
  cases h_step with
  | resolveFails h | conFails h | conOk h | regFails h | regOk h => exact Nat.zero_le _
  | pubFails h h_pub mem data =>
    -- what is not acknowledged does not count
    have h_none : [Event.pub s.thread.topic data i.pub, .discon i.discon].countP
        Event.isPublished = 0 := by simp [Event.isPublished, h_pub]
    exact (Nat.le_of_eq h_none).trans (Nat.zero_le _)
  | pubOk h h_pub mem data =>
    have h_one : [Event.pub s.thread.topic data i.pub, .sleep cfg.publishInterval].countP
        Event.isPublished = 1 := by simp [Event.isPublished, h_pub]
    rw [if_pos ⟨h, by simp [departed, h_pub]⟩]
    exact Nat.le_of_eq h_one

/-- **The reports of a node** are as many as its iterations, but for those that it needs to get to
the next report, and three for each failure. -/
theorem nodeReports_progress (cfg : MqpubConfig) (js : List NodeInput) :
    js.countP NodeInput.isIteration + (run (nodeStep cfg) Node.boot js).thread.state.distance
      ≤ (nodeReports cfg js).length + 2 + 3 * js.countP NodeInput.fails := by
  unfold nodeReports
  induction js using List.reverseRecOn with
  | nil => exact Nat.le_refl 2
  | append_singleton js j ih =>
    rw [run_concat, trace_concat, List.countP_append, List.countP_append, List.countP_singleton,
      List.countP_singleton, List.length_append]
    generalize run (nodeStep cfg) Node.boot js = s at ih ⊢
    cases j with
    | sensor o => exact ih
    | load b half => exact ih
    | iterate i left =>
      have h_step := mqpubIter_step cfg s.thread { i with db := s.args }
      have h_progress := h_step.progress
      have h_published : _ ≤ (nodeReport s (.iterate i left)).length :=
        h_step.published_le_reports left
      have h_fails : (if NodeInput.fails (.iterate i left) = true then 1 else 0)
          = if ({ i with db := s.args } : MqpubInput).Working then 0 else 1 := by
        show (if decide (¬ i.Working) = true then 1 else 0) = if i.Working then 0 else 1
        by_cases h : i.Working <;> simp [h]
      rw [h_fails]
      -- the distance to the next report is the potential
      show _ + 1 + (mqpubIter cfg s.thread { i with db := s.args }).1.state.distance ≤ _
      omega

/-- **Reports keep coming.** As long as the first connection to the broker lasts and the database
works, and if the network has delivered the messages under the subscribed topic once each and in
order, there are at least `n - 2 - 3 f` records after `n` iterations of the node, of which `f` had a
call that would fail. -/
theorem deployment_live (broker : Broker) (readers : Readers) (is : List Happening)
    (h_undisturbed : Undisturbed is) (h_delivers : DeliversAll broker readers is) :
    (inputsOf subscribedEui is).countP NodeInput.isIteration
      ≤ (deployment broker readers is).receiver.subscriber.database.length + 2
        + 3 * (inputsOf subscribedEui is).countP NodeInput.fails := by
  have h_progress := nodeReports_progress (nodeConfig subscribedEui) (inputsOf subscribedEui is)
  rw [deployment_database h_undisturbed h_delivers, List.length_map]
  omega

/-- One report is refused before it leaves the node, and one left although it was refused. -/
theorem deployment_live_threeReports :
    8 ≤ (deployment Broker.listing .ofIntegers threeReports).receiver.subscriber.database.length
      + 2 + 3 * 2 := by
  have h_iterations :
      (inputsOf subscribedEui threeReports).countP NodeInput.isIteration = 8 := by decide
  have h_fails : (inputsOf subscribedEui threeReports).countP NodeInput.fails = 2 := by decide
  have h_live := deployment_live Broker.listing .ofIntegers threeReports threeReports_undisturbed
    (by decide +kernel)
  rwa [h_iterations, h_fails] at h_live

end AirQuality
