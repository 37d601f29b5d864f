import AirQuality.Mail.Script
import AirQuality.Store.Subscriber
import AirQuality.System.Node
import AirQuality.Web.Shown

/-!
# The deployment

Any number of nodes publish through the gateway to a broker; the subscriber stores what it gets of
one of them; the mail script polls the database and the web pages listen to it. The nodes are the
parties of a network whose receiver is this back end, so messages are lost, duplicated and
reordered, the threads of the nodes interleave with each other and with everything behind the
broker, connections are lost at any time, and posts, polls and e-mails fail at any time.

The theorems are about all these runs. The back end keeps an invariant as long as it is handed
genuine messages (`Backend.sound_run`), and what nodes send is genuine (`published_genuine`); the
network adds nothing (`Network.receiver_invariant`). So every record comes from the sensor of the
one node, and nothing but a failed post ends the subscriber (`deployment_stored`); and nobody is
warned unless that sensor has reported bad air, or nearly so (`deployment_warnings`).
-/

namespace AirQuality

open Machine Network Json

/-! ### The back end -/

/-- How the values of a record come back from the database: as what the mail script compares, if it
can be compared, and as what a page reads and draws. Numbers are kept as doubles, so integers come
back as they are up to `2 ^ 53`; and nothing else is in a record of a report. -/
structure Readers where
  py : Value → Option ℚ
  js : Value → Web.JsValue
  js_drawable : ∀ v, (js v).drawable = true
  py_int : ∀ n : ℤ, n.natAbs ≤ 2 ^ 53 → py (.int n) = some (n : ℚ)
  js_int : ∀ n : ℤ, n.natAbs ≤ 2 ^ 53 → js (.int n) = .number n

/-- Readers to which everything but integers and booleans comes back as missing. -/
def Readers.ofIntegers : Readers where
  py
    | .int n => some n
    | .bool b => some (if b then 1 else 0)
    | _ => none
  js
    | .int n => .number n
    | .bool b => .bool b
    | _ => .undefined
  js_drawable v := by cases v <;> rfl
  py_int _ _ := rfl
  js_int _ _ := rfl

/-- The subscriber with the database, the mail script, and the web pages. -/
structure Backend (broker : Broker) where
  subscriber : Subscriber broker .standard
  script : Mail.Script
  app : Web.WebApp

/-- What happens there besides messages: the connection to the broker is lost and made again, the
database answers posts differently from now on, the script polls, the user moves about the pages,
and the database calls the callbacks of the pages. -/
inductive BackendInput where
  | reconnect
  | answer (a : PostAnswer)
  | poll (o : Mail.PollOutcome)
  | visit (route : Web.Route)
  | rerender
  | value

section

variable (broker : Broker)

def Backend.start : Backend broker where
  subscriber := Subscriber.start broker .standard
  script := Mail.Script.start
  app := .initial

variable {broker} (readers : Readers)

/-- A record as a page reads it. -/
def entryOf (post : Post) : Web.Entry where
  fields := post.data.map fun kv => (String.ofList kv.1, readers.js kv.2)
  drawable := by
    intro field h_field
    obtain ⟨kv, -, rfl⟩ := List.mem_map.mp h_field
    exact readers.js_drawable kv.2

/-- A message that reached the broker, or a step of the back end. -/
def Backend.step (s : Backend broker) : Publication ⊕ BackendInput → Backend broker
  | .inl m => { s with subscriber := s.subscriber.message m.topic m.payload }
  | .inr .reconnect => { s with subscriber := s.subscriber.reconnect }
  | .inr (.answer a) => { s with subscriber := s.subscriber.step (.answer a) }
  | .inr (.poll o) => { s with script := s.script.poll readers.py s.subscriber.database o }
  | .inr (.visit route) => { s with app := s.app.step (.visit route) }
  | .inr .rerender => { s with app := s.app.step .rerender }
  | .inr .value =>
    { s with app := s.app.step (.value (s.subscriber.database.map (entryOf readers))) }

end

/-! ### The deployment -/

/-- The nodes. -/
def nodes : Parties Eui64 Node NodeInput Publication where
  step eui := nodeStep (nodeConfig eui)
  send eui := nodeSend (nodeConfig eui)

/-- Everything at boot. -/
def Deployment.start (broker : Broker) : State Eui64 Node Publication (Backend broker) where
  parties _ := Node.boot
  sent := []
  receiver := Backend.start broker

/-- What happens in a deployment. -/
abbrev Happening := Input Eui64 NodeInput BackendInput

section

variable (broker : Broker) (readers : Readers)

/-- The deployment after the inputs `is`. -/
def deployment (is : List Happening) : State Eui64 Node Publication (Backend broker) :=
  run (Network.step nodes (Backend.step readers)) (Deployment.start broker) is

/-- What the back end was handed. -/
def deploymentReceived (is : List Happening) : List (Publication ⊕ BackendInput) :=
  received nodes (Backend.step readers) (Deployment.start broker) is

/-- What a step of the back end is to the subscriber. -/
def subscriberInputs : Publication ⊕ BackendInput → List SubscriberInput
  | .inl m => [.message m.topic m.payload]
  | .inr .reconnect => [.reconnect]
  | .inr (.answer a) => [.answer a]
  | .inr (.poll _) => []
  | .inr (.visit _) => []
  | .inr .rerender => []
  | .inr .value => []

/-- The messages that the subscriber has heard, with the answer of the database at that time. -/
def deploymentHeard (is : List Happening) : List Heard :=
  heard .works ((deploymentReceived broker readers is).flatMap subscriberInputs)

end

/-- The node that the script subscribes to. -/
def subscribedEui : Eui64 := #v[0xfc, 0xc2, 0x3d, 0, 0, 0x01, 0x7f, 0x97]

theorem subscribedTopic_eq : subscribedTopic = (nodeConfig subscribedEui).topicstr := by
  rw [nodeConfig_topicstr]
  decide +kernel

/-! ### Records -/

/-- The record of a report with bins whose bytes a sensor delivered. -/
def GenuineRecord (js : List NodeInput) (post : Post) : Prop :=
  ∃ sec db, post = storedPost sec db ∧ sec < 4295 ∧
    ∀ b half, ByteFromSensor js b half (half.of (db.bin b))

/-- What the handler makes of the payload of a genuine message. -/
theorem handler_genuine {cfg : MqpubConfig} {js : List NodeInput} {m : Publication}
    (h : m.Genuine cfg js) :
    ∃ post : Post, GenuineRecord js post ∧ IsReport .standard m.payload post := by
  obtain ⟨usec, db, h_text, h_bins⟩ := h.payload
  have h_sec := usec.toNat_lt
  refine ⟨storedPost (usec.toNat / 10 ^ 6) db, ⟨_, db, rfl, ?_, h_bins⟩, ?_⟩
  · show usec.toNat / 1000000 < 4295
    omega
  · rw [h_text]
    exact isReport_iff.mp (airQualityData_reportText usec db)

/-- What a page reads of it. -/
def storedEntry (sec : Nat) (db : DustBins) : Web.Entry where
  fields := [("Sec", .number sec), ("PM0_3", .number db.db0_3.toNat),
    ("PM0_5", .number db.db0_5.toNat), ("PM1", .number db.db1.toNat),
    ("PM2_5", .number db.db2_5.toNat), ("PM5", .number db.db5.toNat),
    ("PM10", .number db.db10.toNat)]
  drawable := by simp [Web.JsValue.drawable]

section

variable (readers : Readers)

/-- A value that a node reports is small enough to come back as it is. -/
theorem Readers.word (x : UInt16) : readers.py (.int x.toNat) = some (x.toNat : ℚ) ∧
    readers.js (.int x.toNat) = .number x.toNat := by
  have h_lt := x.toNat_lt
  have h_small : (x.toNat : ℤ).natAbs ≤ 2 ^ 53 := by
    rw [Int.natAbs_natCast]
    omega
  have h_cast : ((x.toNat : ℤ) : ℚ) = x.toNat := Int.cast_natCast _
  exact ⟨h_cast ▸ readers.py_int _ h_small, h_cast ▸ readers.js_int _ h_small⟩

theorem entryOf_storedPost {sec : Nat} (h_sec : sec < 4295) (db : DustBins) :
    entryOf readers (storedPost sec db) = storedEntry sec db := by
  have h_small : (sec : ℤ).natAbs ≤ 2 ^ 53 := by
    rw [Int.natAbs_natCast]
    omega
  have h_cast : ((sec : ℤ) : ℚ) = sec := Int.cast_natCast _
  have h_js : readers.js (.int sec) = .number sec := h_cast ▸ readers.js_int _ h_small
  simp [entryOf, storedPost, storedEntry, h_js, (readers.word _).2]

theorem storedEntry_get (sec : Nat) (db : DustBins) :
    (storedEntry sec db).get "PM0_3" = .number db.db0_3.toNat := rfl

theorem pm0_3Of_storedPost (sec : Nat) (db : DustBins) :
    Mail.pm0_3Of readers.py (storedPost sec db) = some (db.db0_3.toNat : ℚ) :=
  (readers.word db.db0_3).1

end

/-- The sensor has reported at least `n` particles beyond 0.3 micrometres. -/
def Reported (js : List NodeInput) (n : ℕ) : Prop :=
  ∃ buf ∈ deliveredFrames js, checkPmsframe buf = true ∧ frameLen buf = 28 ∧
    n ≤ (word buf 16).toNat

/-- The high byte of a value was reported, whatever came of the low one. -/
theorem reported_of_byte {js : List NodeInput} {x : UInt16}
    (h : ByteFromSensor js .db0_3 .high (Half.high.of x)) {n : ℕ} (h_n : 0 < n)
    (h_le : 256 * n ≤ x.toNat) : Reported js (256 * n) := by
  obtain ⟨y, h_from, h_byte⟩ := h
  have h_x := (Half.high_bounds x).2
  have h_y := (Half.high_bounds y).1
  rw [h_byte] at h_y
  rcases h_from with rfl | ⟨buf, h_buf, h_valid, h_len, rfl⟩
  · -- nothing was reported before the value was read
    have h_zero : (0 : UInt16).toNat = 0 := rfl
    omega
  · refine ⟨buf, h_buf, h_valid, h_len, ?_⟩
    change _ ≤ (word buf 16).toNat at h_y
    omega

/-! ### The invariant of the back end -/

/-- **The invariant**, given what happened to the node that is subscribed to. -/
structure Backend.Sound {broker : Broker} (readers : Readers) (js : List NodeInput)
    (s : Backend broker) : Prop where
  session : ∀ topic, broker.forwards s.subscriber.session topic = true → topic = subscribedTopic
  posts : ∀ post ∈ s.subscriber.database, GenuineRecord js post
  latched : s.script.Latched
  warned : s.script.mails ≠ [] →
    ∃ post ∈ s.subscriber.database, ∃ x, Mail.pm0_3Of readers.py post = some x ∧ 1000 < x
  shown : Web.Shown (fun entry => ∃ post ∈ s.subscriber.database, entryOf readers post = entry)
    s.app

section

variable {broker : Broker} {readers : Readers} {js : List NodeInput} {s : Backend broker}

theorem Backend.sound_start (readers : Readers) (js : List NodeInput) :
    (Backend.start broker).Sound readers js where
  session := by
    intro topic h
    have h_topic : decide (topic = subscribedTopic) = true :=
      (@forwards_start broker .standard topic).symm.trans h
    exact of_decide_eq_true h_topic
  posts := fun _ h => absurd h List.not_mem_nil
  latched := Mail.Script.latched_start
  warned := fun h => absurd rfl h
  shown := Web.shown_initial _

/-- **A message.** Of the subscribed topic its record is kept, if any, and others are not
forwarded. -/
theorem Backend.Sound.message (h : s.Sound readers js) {m : Publication}
    (h_genuine : m.topic = subscribedTopic → m.Genuine (nodeConfig subscribedEui) js) :
    (s.step readers (.inl m)).Sound readers js := by
  by_cases h_fwd : (s.subscriber.running && broker.forwards s.subscriber.session m.topic) = true
  · rw [Bool.and_eq_true] at h_fwd
    -- the session has one subscription, so this is a message of the node
    obtain ⟨post, h_post, h_report⟩ := handler_genuine (h_genuine (h.session m.topic h_fwd.2))
    have h_step : s.step readers (.inl m) = { s with subscriber := { s.subscriber with
        running := !s.subscriber.answer.raises
        database := s.subscriber.answer.addUpdateDbRecord post s.subscriber.database } } := by
      show Backend.mk (s.subscriber.message m.topic m.payload) _ _ = _
      unfold Subscriber.message
      rw [if_pos (by rw [h_fwd.1, h_fwd.2]; rfl), s.subscriber.onMessage_report h_report]
    have h_more : ∀ p ∈ s.subscriber.database,
        p ∈ s.subscriber.answer.addUpdateDbRecord post s.subscriber.database := by
      intro p hp
      unfold PostAnswer.addUpdateDbRecord
      split
      · exact List.mem_append_left _ hp
      · exact hp
    rw [h_step]
    constructor
    case session => exact h.session
    case posts =>
      intro p hp
      have hp : p ∈ s.subscriber.answer.addUpdateDbRecord post s.subscriber.database := hp
      unfold PostAnswer.addUpdateDbRecord at hp
      split at hp
      · rcases List.mem_append.mp hp with hp | hp
        · exact h.posts p hp
        · rw [List.mem_singleton.mp hp]
          exact h_post
      · exact h.posts p hp
    case latched => exact h.latched
    case warned =>
      intro h_mails
      obtain ⟨p, hp, h_x⟩ := h.warned h_mails
      exact ⟨p, h_more p hp, h_x⟩
    case shown =>
      refine h.shown.mono ?_
      rintro entry ⟨p, hp, h_entry⟩
      exact ⟨p, h_more p hp, h_entry⟩
  · have h_step : s.step readers (.inl m) = s := by
      show Backend.mk (s.subscriber.message m.topic m.payload) _ _ = _
      rw [Subscriber.message_of_not (Bool.eq_false_iff.mpr h_fwd)]
    rw [h_step]
    exact h

/-- **Everything else** that happens in the back end. -/
theorem Backend.Sound.own (h : s.Sound readers js) (a : BackendInput) :
    (s.step readers (.inr a)).Sound readers js := by
  cases a with
  | reconnect =>
    obtain ⟨h_running, h_database⟩ := s.subscriber.reconnect_database
    constructor
    case session =>
      -- a session is left as it was, or has no subscription
      intro topic h_fwd
      change broker.forwards s.subscriber.reconnect.session topic = true at h_fwd
      unfold Subscriber.reconnect at h_fwd
      split at h_fwd
      · exact absurd ((broker.forwards_connect _ topic).symm.trans h_fwd) Bool.false_ne_true
      · exact h.session topic h_fwd
    case posts => exact fun post h_mem => h.posts post (h_database ▸ h_mem)
    case latched => exact h.latched
    case warned => exact fun h_mails => h_database.symm ▸ h.warned h_mails
    case shown => exact h_database.symm ▸ h.shown
  | answer a => exact ⟨h.session, h.posts, h.latched, h.warned, h.shown⟩
  | poll o =>
    refine ⟨h.session, h.posts, h.latched.poll _ o, fun h_mails => ?_, h.shown⟩
    rcases Mail.Script.poll_mails h_mails with h_before | h_now
    · exact h.warned h_before
    · exact h_now
  | visit route => exact ⟨h.session, h.posts, h.latched, h.warned, h.shown.visit route⟩
  | rerender => exact ⟨h.session, h.posts, h.latched, h.warned, h.shown.rerender⟩
  | value =>
    refine ⟨h.session, h.posts, h.latched, h.warned, h.shown.value fun entry h_mem => ?_⟩
    exact List.mem_map.mp h_mem

/-- **The invariant holds as long as the messages are genuine.** -/
theorem Backend.sound_run {ms : List (Publication ⊕ BackendInput)}
    (h : ∀ m, .inl m ∈ ms → m.topic = subscribedTopic → m.Genuine (nodeConfig subscribedEui) js) :
    (run (Backend.step readers) (Backend.start broker) ms).Sound readers js := by
  induction ms using List.reverseRecOn with
  | nil => exact Backend.sound_start readers js
  | append_singleton ms m ih =>
    have h_ih := ih fun m' hm' => h m' (List.mem_append_left _ hm')
    rw [run_concat]
    cases m with
    | inl m => exact h_ih.message (h m (List.mem_append_right _ (List.mem_singleton_self _)))
    | inr a => exact h_ih.own a

/-- **The subscriber goes through a run of its own.** -/
theorem Backend.run_subscriber (s : Backend broker) (ms : List (Publication ⊕ BackendInput)) :
    (run (Backend.step readers) s ms).subscriber
      = run Subscriber.step s.subscriber (ms.flatMap subscriberInputs) := by
  have h_step (s : Backend broker) (m : Publication ⊕ BackendInput) :
      (s.step readers m).subscriber = run Subscriber.step s.subscriber (subscriberInputs m) := by
    cases m with
    | inl m => rfl
    | inr a => cases a <;> rfl
  rw [run_projection Backend.subscriber h_step, trace_of_inputs]

/-- What is heard was a message under the topic of the script. -/
theorem mem_heard {a : PostAnswer} {ms : List (Publication ⊕ BackendInput)} {x : Heard}
    (h : x ∈ heard a (ms.flatMap subscriberInputs)) :
    ∃ m : Publication, .inl m ∈ ms ∧ m.topic = subscribedTopic ∧ x.payload = m.payload := by
  induction ms generalizing a with
  | nil => cases h
  | cons m ms ih =>
    have h_later {a : PostAnswer} (h : x ∈ heard a (ms.flatMap subscriberInputs)) :
        ∃ m' : Publication, .inl m' ∈ m :: ms ∧ m'.topic = subscribedTopic ∧
          x.payload = m'.payload := by
      obtain ⟨m', h_mem, h_rest⟩ := ih h
      exact ⟨m', List.mem_cons_of_mem _ h_mem, h_rest⟩
    cases m with
    | inl m =>
      change x ∈ (if m.topic = subscribedTopic then _ else _ : List Heard) at h
      split at h
      · next h_topic =>
        rcases List.mem_cons.mp h with rfl | h
        · exact ⟨m, List.mem_cons_self, h_topic, rfl⟩
        · exact h_later h
      · exact h_later h
    | inr b =>
      cases b with
      | reconnect => cases h
      | answer a => exact h_later (a := a) h
      | poll o => exact h_later (a := a) h
      | visit route => exact h_later (a := a) h
      | rerender => exact h_later (a := a) h
      | value => exact h_later (a := a) h

end

/-! ### Every run -/

section

variable (broker : Broker) (readers : Readers) (is : List Happening)

/-- What any node sends under the subscribed topic is genuine for the node subscribed to. -/
theorem genuine_of_sent (eui : Eui64) {m : Publication}
    (hm : m ∈ sentBy nodes (Deployment.start broker) eui (inputsOf eui is))
    (h_topic : m.topic = subscribedTopic) :
    m.Genuine (nodeConfig subscribedEui) (inputsOf subscribedEui is) := by
  have h_size : 95 ≤ (nodeConfig eui).bufferSize := (by decide : 95 ≤ 512 - 16)
  have h_genuine := published_genuine h_size (inputsOf eui is) m hm
  -- the topic tells the nodes apart
  obtain rfl : eui = subscribedEui := by
    refine nodeConfig_injective ?_
    rw [← h_genuine.topic, h_topic, subscribedTopic_eq]
  exact h_genuine

/-- **The invariant holds in every deployment.** -/
theorem deployment_sound :
    (deployment broker readers is).receiver.Sound readers (inputsOf subscribedEui is) := by
  refine receiver_invariant (G := fun m => m.topic = subscribedTopic →
    m.Genuine (nodeConfig subscribedEui) (inputsOf subscribedEui is)) rfl is ?_ ?_
  · exact fun eui m hm => genuine_of_sent broker is eui hm
  · exact fun ms h_ms => Backend.sound_run h_ms

/-- Everything that the subscriber hears is a report. -/
theorem deployment_heard : ∀ x ∈ deploymentHeard broker readers is,
    ∃ record, IsReport .standard x.payload record := by
  intro x hx
  obtain ⟨m, h_mem, h_topic, h_payload⟩ := mem_heard hx
  have h_sent := (mem_sent_iff is).mp (sent_of_received is h_mem)
  obtain ⟨eui, hm⟩ := h_sent.resolve_left List.not_mem_nil
  obtain ⟨post, -, h_report⟩ := handler_genuine (genuine_of_sent broker is eui hm h_topic)
  exact ⟨post, h_payload ▸ h_report⟩

/-- The subscriber of a deployment. -/
theorem deployment_subscriber : (deployment broker readers is).receiver.subscriber
    = run Subscriber.step (Subscriber.start broker .standard)
        ((deploymentReceived broker readers is).flatMap subscriberInputs) := by
  unfold deployment
  rw [run_receiver]
  exact Backend.run_subscriber _ _

/-- **When the subscriber has ended**: if and only if a post has raised an exception. -/
theorem deployment_running_iff :
    (deployment broker readers is).receiver.subscriber.running = true ↔
      ∀ x ∈ deploymentHeard broker readers is, x.answer.raises = false := by
  obtain ⟨posts, rest, h_handled, -, h_running⟩ :=
    (@Subscriber.listening_start broker .standard).run_hears
      ((deploymentReceived broker readers is).flatMap subscriberInputs)
  rw [deployment_subscriber, h_running]
  exact h_handled.running_iff (deployment_heard broker readers is)

end

/-- **What is stored.** However many nodes there are, however their threads interleave, and whatever
is lost, repeated or reordered on the way: the subscriber has not ended with an exception if and
only if no post has raised one, and every record in the database is one of a report of the node
subscribed to, whose uptime is that of its clock and whose bins are made of bytes each of which is
zero or was that byte of the bin in an accepted frame with bins that this node's sensor had
delivered. -/
theorem deployment_stored (broker : Broker) (readers : Readers) (is : List Happening) :
    let s := (deployment broker readers is).receiver.subscriber
    (s.running = true ↔ ∀ x ∈ deploymentHeard broker readers is, x.answer.raises = false) ∧
      ∀ post ∈ s.database, ∃ sec db, post = storedPost sec db ∧ sec < 4295 ∧
        ∀ b half, ByteFromSensor (inputsOf subscribedEui is) b half (half.of (db.bin b)) :=
  ⟨deployment_running_iff broker readers is, (deployment_sound broker readers is).posts⟩

/-- **No false alarm.** In every run `yag.send` is called at most once; and if it was called, or a
light is red, then a value above 1000, or of at least 1000 for the light, was put together from
bytes that the sensor of the node subscribed to has delivered, and this sensor has delivered an
accepted frame with bins with at least 768 particles beyond 0.3 micrometres. -/
theorem deployment_warnings (broker : Broker) (readers : Readers) (is : List Happening) :
    let s := (deployment broker readers is).receiver
    let js := inputsOf subscribedEui is
    s.script.mails.length ≤ 1 ∧
      (s.script.mails ≠ [] → ∃ x : UInt16, 1000 < x.toNat ∧
        (∀ half, ByteFromSensor js .db0_3 half (half.of x)) ∧ Reported js 768) ∧
      ∀ id, (s.app.screen.states id).lightBtn = some .red → ∃ x : UInt16, 1000 ≤ x.toNat ∧
        (∀ half, ByteFromSensor js .db0_3 half (half.of x)) ∧ Reported js 768 := by
  intro s js
  have h : s.Sound readers js := deployment_sound broker readers is
  -- the high byte of such a value is 3 at least
  have h_reported {x : UInt16} (h_x : 1000 ≤ x.toNat)
      (h_bytes : ∀ half, ByteFromSensor js .db0_3 half (half.of x)) : Reported js 768 :=
    reported_of_byte (n := 3) (h_bytes .high) (by omega) (by omega)
  refine ⟨h.latched.once, fun h_mails => ?_, fun id h_red => ?_⟩
  · obtain ⟨post, h_post, x, h_x, h_lt⟩ := h.warned h_mails
    obtain ⟨sec, db, rfl, -, h_bytes⟩ := h.posts post h_post
    rw [pm0_3Of_storedPost, Option.some_inj] at h_x
    rw [← h_x] at h_lt
    have h_lt : 1000 < db.db0_3.toNat := by exact_mod_cast h_lt
    exact ⟨db.db0_3, h_lt, h_bytes .db0_3, h_reported h_lt.le (h_bytes .db0_3)⟩
  · -- what is shown is of an entry, the entry of a record, and the record of a report
    obtain ⟨h_status, h_less⟩ := (Web.Case2State.red_iff _).mp h_red
    obtain ⟨entry, ⟨post, h_post, h_entry⟩, h_value⟩ := h.shown.states id h_status
    obtain ⟨sec, db, rfl, h_sec, h_bytes⟩ := h.posts post h_post
    rw [h_value, ← h_entry, entryOf_storedPost readers h_sec, storedEntry_get,
      Web.JsValue.lessThan_number, decide_eq_false_iff_not, not_lt] at h_less
    have h_ge : 1000 ≤ db.db0_3.toNat := by exact_mod_cast h_less
    exact ⟨db.db0_3, h_ge, h_bytes .db0_3, h_reported h_ge (h_bytes .db0_3)⟩

/-- Frames with 767 and 768 will do, if the second one comes between the two loads. -/
example : Half.high.load (Half.low.load 0 767) 768 = 1023 := by decide

end AirQuality
