import AirQuality.Framework.Machine
import AirQuality.Store.Handler

/-!
# The subscriber (`mqtt.py`)

The script connects to the broker, subscribes to the topic of one node and loops: every message that
the broker forwards is handed to `on_message`, which passes its payload to the handler. An exception
in the callback ends the loop, and with it the process. There are two kinds: the payload is no
report, or the database has answered the post with an error. How the database answers is part of the
state here, and changes at any time (`PostAnswer`). (In the repository a placeholder stands for the
address of the database; it is taken to be filled in.)

The client id is empty, so every connection starts a clean session, in which the broker forwards
nothing until it is asked to. The script asks once, in front of the loop; `on_connect`, which the
client library calls whenever it has connected again, only prints. After the first reconnect the
subscriber therefore runs on and receives nothing (`Subscriber.deaf_run`). Until then it posts one
record for each message of its topic, in order, up to the first exception (`subscriber_stores`),
whatever Python is like and whoever sends what. If all payloads are reports and the database keeps
what is posted, there is none (`Subscriber.run_stores`).
-/

namespace AirQuality

open Machine

/-! ### The broker -/

/-- What the script asks of the broker. -/
inductive ClientPacket where
  | connect
  | subscribe (topic : List Char)

/-- A broker, as far as one client with clean sessions can tell: `forwards s topic` says whether a
message with the topic `topic` is forwarded in the session `s`. A topic without wildcards stands
for itself. -/
structure Broker where
  Session : Type
  noSession : Session
  connect : Session → Session
  subscribe : Session → List Char → Session
  forwards : Session → List Char → Bool
  /-- A clean session has no subscriptions. -/
  forwards_connect : ∀ s topic, forwards (connect s) topic = false
  forwards_subscribe : ∀ s topic topic',
    forwards (subscribe s topic) topic' = (forwards s topic' || decide (topic' = topic))

/-- A broker that keeps a list of subscriptions. -/
def Broker.listing : Broker where
  Session := List (List Char)
  noSession := []
  connect _ := []
  subscribe s topic := topic :: s
  forwards s topic := s.contains topic
  forwards_connect _ _ := rfl
  forwards_subscribe s topic topic' := by
    rw [Bool.eq_iff_iff]
    simp [or_comm]

section

variable (broker : Broker)

/-- The session after a packet. -/
def Broker.receive (s : broker.Session) : ClientPacket → broker.Session
  | .connect => broker.connect s
  | .subscribe topic => broker.subscribe s topic

/-! ### The script -/

/-- `topic`. -/
def subscribedTopic : List Char := "KTH/avr-rss2/fcc23d0000017f97/sensors".toList

/-- `on_connect`: it prints what came of the connection. -/
def onConnect : List ClientPacket := []

/-- `connect_mqtt`. -/
def connectMqtt : List ClientPacket := [.connect]

/-- `subscribe`, which also sets `on_message`. -/
def subscribe : List ClientPacket := [.subscribe subscribedTopic]

/-- How the database answers a post: whether it keeps the record, and whether `firebase.post` raises
an exception. It returns where a post is refused with status 403, and it raises where the
connection breaks after the record was kept. -/
structure PostAnswer where
  kept : Bool
  raises : Bool
  deriving DecidableEq

/-- The answer of a database that works. -/
def PostAnswer.works : PostAnswer := ⟨true, false⟩

/-- `add_update_db_record`: the posts in the database afterwards. -/
def PostAnswer.addUpdateDbRecord {R : Type} (answer : PostAnswer) (record : R) (database : List R) :
    List R := if answer.kept then database ++ [record] else database

section

variable (py : PyRuntime)

/-- `sensor_Data_Handler`, up to the post. -/
def sensorDataHandler (jsonData : List Char) : Except PyError (PostOf py.Obj) :=
  airQualityData py jsonData

/-- The process, its session at the broker, and the database with its answer to posts. -/
structure Subscriber where
  running : Bool
  session : broker.Session
  answer : PostAnswer
  database : List (PostOf py.Obj)

/-- `run`, up to `loop_forever`. -/
def Subscriber.start : Subscriber broker py where
  running := true
  session := run broker.receive broker.noSession (connectMqtt ++ subscribe)
  answer := .works
  database := []

end

variable {broker} {py : PyRuntime}

/-- `on_message`. -/
def Subscriber.onMessage (s : Subscriber broker py) (payload : List Char) : Subscriber broker py :=
  match sensorDataHandler py payload with
  | .ok record => { s with
      running := !s.answer.raises
      database := s.answer.addUpdateDbRecord record s.database }
  -- raised in the callback, and by `loop_forever` in turn
  | .error _ => { s with running := false }

/-- A message reaches the broker. -/
def Subscriber.message (s : Subscriber broker py) (topic payload : List Char) :
    Subscriber broker py :=
  if s.running && broker.forwards s.session topic then s.onMessage payload else s

/-- The connection was lost, and `loop_forever` has connected again. -/
def Subscriber.reconnect (s : Subscriber broker py) : Subscriber broker py :=
  if s.running then
    { s with session := run broker.receive s.session (connectMqtt ++ onConnect) }
  else s

/-- What happens to a subscriber: a message with a topic and a payload, a reconnect, or that the
database answers differently from now on. -/
inductive SubscriberInput where
  | message (topic payload : List Char)
  | reconnect
  | answer (a : PostAnswer)

def Subscriber.step (s : Subscriber broker py) : SubscriberInput → Subscriber broker py
  | .message topic payload => s.message topic payload
  | .reconnect => s.reconnect
  | .answer a => { s with answer := a }

/-! ### Sessions -/

/-- In the session that the script sets up, the broker forwards one topic. -/
theorem forwards_start (topic : List Char) :
    broker.forwards (Subscriber.start broker py).session topic
      = decide (topic = subscribedTopic) := by
  show broker.forwards (broker.subscribe (broker.connect _) subscribedTopic) topic = _
  rw [broker.forwards_subscribe, broker.forwards_connect, Bool.false_or]

/-- The process does not run, or its session has no subscriptions. -/
def Subscriber.Deaf (s : Subscriber broker py) : Prop :=
  s.running = true → ∀ topic, broker.forwards s.session topic = false

theorem Subscriber.deaf_of_ended {s : Subscriber broker py} (h : s.running = false) : s.Deaf :=
  fun h_run => absurd (h.symm.trans h_run) Bool.false_ne_true

theorem Subscriber.deaf_reconnect (s : Subscriber broker py) : s.reconnect.Deaf := by
  unfold Subscriber.reconnect
  split
  · exact fun _ topic => broker.forwards_connect _ topic
  · next h => exact fun h_run => absurd h_run h

/-- A message that is not forwarded changes nothing. -/
theorem Subscriber.message_of_not {s : Subscriber broker py} {topic : List Char}
    (h : (s.running && broker.forwards s.session topic) = false) (payload : List Char) :
    s.message topic payload = s := if_neg (by simp [h])

theorem Subscriber.Deaf.message {s : Subscriber broker py} (h : s.Deaf)
    (topic payload : List Char) : s.message topic payload = s := by
  refine Subscriber.message_of_not ?_ payload
  cases h_run : s.running with
  | false => rfl
  | true => exact h h_run topic

theorem Subscriber.reconnect_database (s : Subscriber broker py) :
    s.reconnect.running = s.running ∧ s.reconnect.database = s.database := by
  unfold Subscriber.reconnect
  split <;> exact ⟨rfl, rfl⟩

/-- **Nothing is stored after a reconnect**, whatever messages and reconnects follow; the process
runs as before. -/
theorem Subscriber.deaf_run {s : Subscriber broker py} (h : s.Deaf) (is : List SubscriberInput) :
    (run Subscriber.step s is).running = s.running ∧
      (run Subscriber.step s is).database = s.database := by
  induction is generalizing s with
  | nil => exact ⟨rfl, rfl⟩
  | cons i is ih =>
    rw [run_cons]
    cases i with
    | message topic payload =>
      have h_same : s.step (.message topic payload) = s := h.message topic payload
      rw [h_same]
      exact ih h
    | reconnect =>
      obtain ⟨h_running, h_database⟩ := s.reconnect_database
      rw [← h_running, ← h_database]
      exact ih s.deaf_reconnect
    | answer a =>
      have h_deaf : ({ s with answer := a } : Subscriber broker py).Deaf := h
      exact ih h_deaf

/-! ### What is heard -/

/-- A payload that reaches the callback, and how the database answers then. -/
structure Heard where
  payload : List Char
  answer : PostAnswer

/-- The payloads of the subscribed topic that arrive before the first reconnect. -/
def heard : PostAnswer → List SubscriberInput → List Heard
  | _, [] => []
  | a, .message topic payload :: is =>
    if topic = subscribedTopic then ⟨payload, a⟩ :: heard a is else heard a is
  | _, .reconnect :: _ => []
  | _, .answer a :: is => heard a is

/-- The process runs in the session that the script set up, with a subscription to its topic. -/
structure Subscriber.Listening (s : Subscriber broker py) : Prop where
  running : s.running = true
  forwards : ∀ topic, broker.forwards s.session topic = decide (topic = subscribedTopic)

theorem Subscriber.listening_start : (Subscriber.start broker py).Listening :=
  ⟨rfl, forwards_start⟩

theorem Subscriber.Listening.message_heard {s : Subscriber broker py} (h : s.Listening)
    (payload : List Char) : s.message subscribedTopic payload = s.onMessage payload :=
  if_pos (by simp [h.running, h.forwards])

theorem Subscriber.Listening.message_other {s : Subscriber broker py} (h : s.Listening)
    {topic : List Char} (h_topic : topic ≠ subscribedTopic) (payload : List Char) :
    s.message topic payload = s :=
  Subscriber.message_of_not (by simp [h.forwards, h_topic]) payload

/-! ### What is stored -/

/-- The payload is parsed to something whose element 0 has the seven keys, and `record` has the
values that are found there. -/
def IsReport (py : PyRuntime) (payload : List Char) (record : PostOf py.Obj) : Prop :=
  ∃ (jsonDict e : py.Obj) (v : ReportValues py.Obj), py.loads payload = .ok jsonDict ∧
    py.subscriptZero jsonDict = .ok e ∧ v.Of e ∧ record = v.post

/-- The handler posts what is a report, and raises an exception for everything else. -/
theorem isReport_iff {payload : List Char} {record : PostOf py.Obj} :
    sensorDataHandler py payload = .ok record ↔ IsReport py payload record :=
  airQualityData_ok_iff

theorem Subscriber.onMessage_report (s : Subscriber broker py) {payload : List Char}
    {record : PostOf py.Obj} (h : IsReport py payload record) :
    s.onMessage payload = { s with
      running := !s.answer.raises
      database := s.answer.addUpdateDbRecord record s.database } := by
  unfold Subscriber.onMessage
  rw [isReport_iff.mpr h]

theorem Subscriber.onMessage_other (s : Subscriber broker py) {payload : List Char}
    (h : ¬ ∃ record, IsReport py payload record) :
    s.onMessage payload = { s with running := false } := by
  unfold Subscriber.onMessage
  cases h_handler : sensorDataHandler py payload with
  | ok record => exact absurd ⟨record, isReport_iff.mp h_handler⟩ h
  | error e => rfl

/-- The records of the posts that the database kept. -/
def keptOf {R : Type} (posts : List (Heard × R)) : List R :=
  (posts.filter fun p => p.1.answer.kept).map Prod.snd

/-- A post adds its record if it is kept. -/
theorem keptOf_cons {R : Type} (first : Heard) (record : R) (posts : List (Heard × R))
    (database : List R) : first.answer.addUpdateDbRecord record database ++ keptOf posts
      = database ++ keptOf ((first, record) :: posts) := by
  unfold PostAnswer.addUpdateDbRecord keptOf
  cases h_kept : first.answer.kept <;> simp [h_kept]

/-- What came of the payloads heard: `posts` were made, of which the last may have raised an
exception, and the payloads `rest` were not posted. -/
structure Handled (py : PyRuntime) (all : List Heard) (posts : List (Heard × PostOf py.Obj))
    (rest : List Heard) : Prop where
  heard : all = posts.map Prod.fst ++ rest
  reports : ∀ p ∈ posts, IsReport py p.1.payload p.2
  returned : ∀ p ∈ posts.dropLast, p.1.answer.raises = false
  ended : ∀ h ∈ rest.head?, (∃ p ∈ posts.getLast?, p.1.answer.raises = true) ∨
    ¬ ∃ record, IsReport py h.payload record

/-- One more report in front, whose post returned. -/
theorem Handled.cons {all rest : List Heard} {posts : List (Heard × PostOf py.Obj)}
    (h : Handled py all posts rest) {first : Heard} {record : PostOf py.Obj}
    (h_report : IsReport py first.payload record) (h_returns : first.answer.raises = false) :
    Handled py (first :: all) ((first, record) :: posts) rest where
  heard := congrArg (first :: ·) h.heard
  reports := List.forall_mem_cons.mpr ⟨h_report, h.reports⟩
  returned := by
    intro p hp
    cases posts with
    | nil => cases hp
    | cons q posts =>
      rcases List.mem_cons.mp hp with rfl | hp
      · exact h_returns
      · exact h.returned p hp
  ended := by
    intro next h_next
    refine (h.ended next h_next).imp_left ?_
    rintro ⟨p, h_last, h_raises⟩
    -- the last post is still the last one
    obtain ⟨posts, rfl⟩ := List.getLast?_eq_some_iff.mp h_last
    exact ⟨p, List.getLast?_concat (l := (first, record) :: posts), h_raises⟩

/-- If everything heard is a report, then all of it is posted unless a post raises an exception. -/
theorem Handled.running_iff {all rest : List Heard} {posts : List (Heard × PostOf py.Obj)}
    (h : Handled py all posts rest)
    (h_reports : ∀ x ∈ all, ∃ record, IsReport py x.payload record) :
    (rest = [] ∧ ∀ p ∈ posts, p.1.answer.raises = false) ↔
      ∀ x ∈ all, x.answer.raises = false := by
  have h_posts : ∀ p ∈ posts, p.1 ∈ all := fun p hp =>
    h.heard ▸ List.mem_append_left _ (List.mem_map_of_mem hp)
  constructor
  · rintro ⟨rfl, h_returns⟩ x hx
    rw [h.heard, List.append_nil] at hx
    obtain ⟨p, hp, rfl⟩ := List.mem_map.mp hx
    exact h_returns p hp
  · intro h_returns
    refine ⟨?_, fun p hp => h_returns p.1 (h_posts p hp)⟩
    cases rest with
    | nil => rfl
    | cons next rest =>
      -- what ended the process was a post or a payload, and both were fine
      rcases h.ended next rfl with ⟨p, h_last, h_raises⟩ | h_not
      · rw [h_returns p.1 (h_posts p (List.mem_of_getLast? h_last))] at h_raises
        cases h_raises
      · exact absurd (h_reports next (h.heard ▸ List.mem_append_right _ List.mem_cons_self)) h_not

/-- If everything heard is posted, the records are what the handler makes of it. -/
theorem Handled.records {all : List Heard} {posts : List (Heard × PostOf py.Obj)}
    (h : Handled py all posts []) :
    posts.map (fun p => some p.2) = all.map fun x => (sensorDataHandler py x.payload).toOption := by
  rw [h.heard, List.append_nil, List.map_map]
  refine List.map_congr_left fun p hp => ?_
  show _ = (sensorDataHandler py p.1.payload).toOption
  rw [isReport_iff.mpr (h.reports p hp)]
  rfl

/-- A subscriber that listens posts what it hears until there is an exception. -/
theorem Subscriber.Listening.run_hears {s : Subscriber broker py} (h : s.Listening)
    (is : List SubscriberInput) : ∃ posts rest, Handled py (heard s.answer is) posts rest ∧
      (run Subscriber.step s is).database = s.database ++ keptOf posts ∧
      ((run Subscriber.step s is).running = true ↔
        rest = [] ∧ ∀ p ∈ posts, p.1.answer.raises = false) := by
  induction is generalizing s with
  | nil =>
    refine ⟨[], [], ⟨rfl, by simp, by simp, by simp⟩, (List.append_nil _).symm, ?_⟩
    exact iff_of_true h.running ⟨rfl, by simp⟩
  | cons i is ih =>
    rw [run_cons]
    cases i with
    | answer a =>
      have h_listening : ({ s with answer := a } : Subscriber broker py).Listening :=
        ⟨h.running, h.forwards⟩
      exact ih h_listening
    | reconnect =>
      -- the process runs on and hears nothing
      obtain ⟨h_running, h_database⟩ := s.reconnect_database
      obtain ⟨h_running', h_database'⟩ := Subscriber.deaf_run s.deaf_reconnect is
      refine ⟨[], [], ⟨rfl, by simp, by simp, by simp⟩, ?_, ?_⟩
      · exact (h_database'.trans h_database).trans (List.append_nil _).symm
      · exact iff_of_true (h_running'.trans (h_running.trans h.running)) ⟨rfl, by simp⟩
    | message topic payload =>
      by_cases h_topic : topic = subscribedTopic
      swap
      · -- under another topic
        have h_same : s.step (.message topic payload) = s := h.message_other h_topic payload
        rw [heard, if_neg h_topic, h_same]
        exact ih h
      subst h_topic
      have h_step : s.step (.message subscribedTopic payload) = s.onMessage payload :=
        h.message_heard payload
      rw [heard, if_pos rfl, h_step]
      by_cases h_report : ∃ record, IsReport py payload record
      · obtain ⟨record, h_report⟩ := h_report
        rw [s.onMessage_report h_report]
        cases h_raises : s.answer.raises with
        | false =>
          have h_listening : ({ s with
              running := !false
              database := s.answer.addUpdateDbRecord record s.database }
              : Subscriber broker py).Listening := ⟨rfl, h.forwards⟩
          obtain ⟨posts, rest, h_handled, h_database, h_running⟩ := ih h_listening
          refine ⟨(⟨payload, s.answer⟩, record) :: posts, rest, ?_, ?_, ?_⟩
          · exact h_handled.cons h_report h_raises
          · exact h_database.trans (keptOf_cons ⟨payload, s.answer⟩ record posts s.database)
          · rw [h_running]
            simp [h_raises]
        | true =>
          -- the record may have been kept, but the process ends
          have h_deaf : ({ s with
              running := !true
              database := s.answer.addUpdateDbRecord record s.database }
              : Subscriber broker py).Deaf := Subscriber.deaf_of_ended rfl
          obtain ⟨h_running, h_database⟩ := Subscriber.deaf_run h_deaf is
          refine ⟨[(⟨payload, s.answer⟩, record)], heard s.answer is,
            ⟨rfl, ?_, by simp, ?_⟩, ?_, ?_⟩
          · simpa using h_report
          · exact fun h _ => Or.inl ⟨_, rfl, h_raises⟩
          · rw [h_database, ← keptOf_cons]
            exact (List.append_nil _).symm
          · rw [h_running]
            simp [h_raises]
      · -- the process ends, and nothing happens any more
        have h_deaf : ({ s with running := false } : Subscriber broker py).Deaf :=
          Subscriber.deaf_of_ended rfl
        obtain ⟨h_running, h_database⟩ := Subscriber.deaf_run h_deaf is
        rw [s.onMessage_other h_report]
        refine ⟨[], ⟨payload, s.answer⟩ :: heard s.answer is, ⟨rfl, by simp, by simp, ?_⟩, ?_, ?_⟩
        · rintro _ ⟨⟩
          exact Or.inr h_report
        · exact h_database.trans (List.append_nil _).symm
        · rw [h_running]
          simp

/-- **What a subscriber stores if nothing goes wrong.** If what it hears are the texts of `reports`,
and the database works, then the process runs on, and the database gets their records, in order, and
nothing else. -/
theorem Subscriber.run_stores {α : Type} {s : Subscriber broker py} (h : s.Listening)
    {text : α → List Char} {record : α → PostOf py.Obj} {reports : List α}
    {is : List SubscriberInput}
    (h_heard : heard s.answer is = reports.map fun r => ⟨text r, .works⟩)
    (h_ok : ∀ r ∈ reports, IsReport py (text r) (record r)) :
    (run Subscriber.step s is).running = true ∧
      (run Subscriber.step s is).database = s.database ++ reports.map record := by
  obtain ⟨posts, rest, h_handled, h_database, h_running⟩ := h.run_hears is
  rw [h_heard] at h_handled
  -- everything heard is a report, and the database works whenever one is heard
  have h_fine : ∀ x ∈ reports.map (fun r => (⟨text r, .works⟩ : Heard)),
      (∃ record, IsReport py x.payload record) ∧ x.answer = .works := by
    intro x hx
    obtain ⟨r, hr, rfl⟩ := List.mem_map.mp hx
    exact ⟨⟨record r, h_ok r hr⟩, rfl⟩
  obtain ⟨rfl, h_returns⟩ := (h_handled.running_iff fun x hx => (h_fine x hx).1).mpr
    fun x hx => congrArg PostAnswer.raises (h_fine x hx).2
  refine ⟨h_running.mpr ⟨rfl, h_returns⟩, ?_⟩
  have h_kept : keptOf posts = posts.map Prod.snd := by
    refine congrArg _ (List.filter_eq_self.mpr fun p hp => ?_)
    have h_mem : p.1 ∈ reports.map fun r => (⟨text r, .works⟩ : Heard) :=
      h_handled.heard ▸ List.mem_append_left _ (List.mem_map_of_mem hp)
    exact congrArg PostAnswer.kept (h_fine p.1 h_mem).2
  have h_records : posts.map (fun p => some p.2) = reports.map fun r => some (record r) := by
    rw [h_handled.records, List.map_map]
    refine List.map_congr_left fun r hr => ?_
    show (sensorDataHandler py (text r)).toOption = _
    rw [isReport_iff.mpr (h_ok r hr)]
    rfl
  have h_same : posts.map Prod.snd = reports.map record := by
    refine List.map_injective_iff.mpr (fun _ _ => Option.some.inj) ?_
    rw [List.map_map, List.map_map]
    exact h_records
  rw [h_database, h_kept, h_same]

end

/-- **What the subscriber does with any traffic.** Whatever arrives under whatever topics, whatever
connections are lost, however the database answers and whatever Python is like: the subscriber posts
the records of the payloads that it hears, in order, up to the first payload that is no report and
the first post that raises an exception. The database holds those of these records that it kept, and
nothing else, and the process runs exactly as long as there was no exception. -/
theorem subscriber_stores (broker : Broker) (py : PyRuntime) (is : List SubscriberInput) :
    let s := run Subscriber.step (Subscriber.start broker py) is
    ∃ posts rest, Handled py (heard .works is) posts rest ∧
      s.database = keptOf posts ∧
      (s.running = true ↔ rest = [] ∧ ∀ p ∈ posts, p.1.answer.raises = false) := by
  intro s
  obtain ⟨posts, rest, h_handled, h_database, h_running⟩ :=
    (@Subscriber.listening_start broker py).run_hears is
  exact ⟨posts, rest, h_handled, h_database, h_running⟩

end AirQuality
