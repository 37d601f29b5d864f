import AirQuality.Framework.Network
import AirQuality.Publisher.Mqpub
import AirQuality.Publisher.NodeId
import AirQuality.Publisher.PmsFrames
import AirQuality.Publisher.TornReport
import AirQuality.Store.EndToEnd

/-!
# A node

On a node two threads share the driver's variables. The sensor thread reads frames; the publisher
thread evaluates the six getters, builds a report from what they returned and passes it to the
client. The processor has 8 bits, so a getter is two loads of a byte each, and nothing locks the
variables. The sensor thread has the higher priority: it is not interrupted while it processes a
frame, but frames are processed between two getters and between the two loads of one getter, and any
number of loads stands between two reports.

What a node publishes is described by what its sensor delivered so far: every message is a whole
report under the node's own topic, and each byte of each bin in it is zero or was that byte of the
bin in an accepted frame with bins (`published_genuine`). Behind that is an invariant of the node,
with a clause for each place that a reading passes through (`Node.Sound`).
-/

namespace AirQuality

open CMem Machine

/-! ### Bytes of a word -/

/-- The two bytes of a `uint16_t`. -/
inductive Half where
  | low
  | high
  deriving DecidableEq

/-- The byte of a word. -/
def Half.of : Half → UInt16 → UInt8
  | .low, x => x.toUInt8
  | .high, x => hiByte x

/-- One byte of `y` is loaded into the register pair that holds `x`. -/
def Half.load (half : Half) (x y : UInt16) : UInt16 :=
  match half with
  | .low => ofBytes (hiByte x) y.toUInt8
  | .high => ofBytes (hiByte y) x.toUInt8

theorem of_ofBytes (hi lo : UInt8) :
    Half.low.of (ofBytes hi lo) = lo ∧ Half.high.of (ofBytes hi lo) = hi := by
  have h_value := wordBytes_value (ofBytes hi lo)
  rw [toNat_ofBytes] at h_value
  have h_lo := lo.toNat_lt
  have h_byte := (ofBytes hi lo).toUInt8.toNat_lt
  constructor
  · apply UInt8.toNat_inj.mp
    show (ofBytes hi lo).toUInt8.toNat = _
    omega
  · apply UInt8.toNat_inj.mp
    show (hiByte (ofBytes hi lo)).toNat = _
    omega

/-- A load changes the byte that is loaded, and no other. -/
theorem Half.of_load (half other : Half) (x y : UInt16) :
    other.of (half.load x y) = other.of (if half = other then y else x) := by
  cases half <;> cases other
  · exact (of_ofBytes _ _).1
  · exact (of_ofBytes _ _).2
  · exact (of_ofBytes _ _).1
  · exact (of_ofBytes _ _).2

/-- A word is at least 256 times its high byte, and less than 256 more. -/
theorem Half.high_bounds (x : UInt16) :
    256 * (Half.high.of x).toNat ≤ x.toNat ∧ x.toNat < 256 * ((Half.high.of x).toNat + 1) := by
  have h_value := wordBytes_value x
  have h_lo := x.toUInt8.toNat_lt
  show 256 * (hiByte x).toNat ≤ _ ∧ _ < 256 * ((hiByte x).toNat + 1)
  omega

/-! ### The threads -/

/-- One step of a node: the sensor thread reads a frame, the publisher thread loads one byte of a
bin, or it goes through one iteration with the values that its getters returned last. An
`emcute_pub` that fails may have sent its message all the same; `left` says whether it has. -/
inductive NodeInput where
  | sensor (o : I2cOutcome)
  | load (b : Bin) (half : Half)
  | iterate (i : MqpubInput) (left : Bool)

/-- The driver, the arguments of `preamble` evaluated so far, and the publisher thread. -/
structure Node where
  pms : Pms
  args : DustBins
  thread : MqpubThread

/-- A node at boot. -/
def Node.boot : Node := ⟨Pms.boot, DustBins.zero, MqpubThread.boot⟩

/-- A message as the gateway hands it to the broker: under the name that its topic id was
registered for. -/
structure Publication where
  topic : List Char
  payload : List Char
  deriving DecidableEq

/-- Whether a message left the node. One whose `emcute_pub` succeeded did, since at QoS 1 that waits
for the gateway to acknowledge it. -/
def departed (errno : Int) (left : Bool) : Bool := decide (errno = emcuteOk) || left

/-- What an `emcute_pub` sends. -/
def publication (left : Bool) : Event → Option Publication
  | .pub topic data errno =>
    if departed errno left then topic.name.map fun name => ⟨name, data⟩ else none
  | _ => none

section

variable (cfg : MqpubConfig)

/-- The iteration that the publisher thread goes through. -/
def Node.iteration (s : Node) (i : MqpubInput) : MqpubThread × List Event :=
  mqpubIter cfg s.thread { i with db := s.args }

/-- One step of a node. -/
def nodeStep (s : Node) : NodeInput → Node
  | .sensor o => { s with pms := (readPms5002 s.pms o).1 }
  | .load b half => { s with args := s.args.set b (half.load (s.args.bin b) (b.get s.pms)) }
  | .iterate i _ => { s with thread := (s.iteration cfg i).1 }

/-- The messages that it sends in a step. -/
def nodeSend (s : Node) : NodeInput → List Publication
  | .sensor _ => []
  | .load _ _ => []
  | .iterate i left => (s.iteration cfg i).2.filterMap (publication left)

end

/-- `MQTT_TOPIC_BASE`. -/
def mqttTopicBase : CString := ⟨"KTH/avr-rss2".toList, by decide⟩

/-- The configuration of the node with the EUI-64 `eui`: `topicstr` is what `_init_topic` leaves in
static storage. -/
def nodeConfig (eui : Eui64) : MqpubConfig :=
  { MqpubConfig.node with
    topicstr := stringAt (initTopic mqttTopicBase (some eui) 0 fun _ => nul).mem 0
      mqpubTopicLength }

theorem nodeConfig_topicstr (eui : Eui64) :
    (nodeConfig eui).topicstr = topicText mqttTopicBase (some eui) :=
  stringAt_initTopic (by decide) eui 0 _

/-- Nodes with the same topic have the same EUI-64. -/
theorem nodeConfig_injective {eui eui' : Eui64}
    (h : (nodeConfig eui).topicstr = (nodeConfig eui').topicstr) : eui = eui' := by
  have h_eui := topicEui_topicText mqttTopicBase eui
  rw [nodeConfig_topicstr, nodeConfig_topicstr] at h
  rw [h, topicEui_topicText] at h_eui
  exact (Option.some.inj h_eui).symm

/-! ### Where a reading comes from -/

/-- The frames that the sensor delivered. -/
def deliveredFrames (js : List NodeInput) : List Frame :=
  js.filterMap fun j => match j with
    | .sensor o => o.delivered
    | .load _ _ => none
    | .iterate _ _ => none

/-- `x` is the value at boot, or the bin `b` of an accepted frame with bins that the sensor
delivered. -/
def FromSensor (js : List NodeInput) (b : Bin) (x : UInt16) : Prop :=
  x = 0 ∨ ∃ buf ∈ deliveredFrames js,
    checkPmsframe buf = true ∧ frameLen buf = 28 ∧ (frameBins buf).bin b = x

theorem deliveredFrames_append (js ks : List NodeInput) :
    deliveredFrames (js ++ ks) = deliveredFrames js ++ deliveredFrames ks := List.filterMap_append

theorem FromSensor.mono {js : List NodeInput} {b : Bin} {x : UInt16} (h : FromSensor js b x)
    (ks : List NodeInput) : FromSensor (js ++ ks) b x := by
  rcases h with h | ⟨buf, h_buf, h_frame⟩
  · exact Or.inl h
  · refine Or.inr ⟨buf, ?_, h_frame⟩
    rw [deliveredFrames_append]
    exact List.mem_append_left _ h_buf

/-- The byte `y` is that of such a value. -/
def ByteFromSensor (js : List NodeInput) (b : Bin) (half : Half) (y : UInt8) : Prop :=
  ∃ x, FromSensor js b x ∧ half.of x = y

theorem ByteFromSensor.mono {js : List NodeInput} {b : Bin} {half : Half} {y : UInt8}
    (h : ByteFromSensor js b half y) (ks : List NodeInput) :
    ByteFromSensor (js ++ ks) b half y := by
  obtain ⟨x, h_x, h_y⟩ := h
  exact ⟨x, h_x.mono ks, h_y⟩

theorem DustBins.bin_zero (b : Bin) : DustBins.zero.bin b = 0 := by cases b <;> rfl

/-- **The invariant of a node**, given its inputs so far. -/
structure Node.Sound (cfg : MqpubConfig) (js : List NodeInput) (s : Node) : Prop where
  /-- What the buffer holds was delivered, or is what it held at boot. -/
  buf : s.pms.buf = zeroFrame ∨ s.pms.buf ∈ deliveredFrames js
  bins : ∀ b, FromSensor js b (s.pms.readings.db.bin b)
  args : ∀ b half, ByteFromSensor js b half (half.of (s.args.bin b))
  /-- A thread that publishes has set the name of its topic. -/
  topic : s.thread.state = .publishing → s.thread.topic.name = some cfg.topicstr

theorem Node.sound_boot (cfg : MqpubConfig) : Node.Sound cfg [] Node.boot where
  buf := Or.inl rfl
  bins b := Or.inl (DustBins.bin_zero b)
  args b half := ⟨_, Or.inl (DustBins.bin_zero b), rfl⟩
  topic h := absurd h (by decide)

/-- The bins that a frame leaves, if the frame was delivered or is that of boot. -/
theorem fromSensor_pmsframe {js : List NodeInput} {buf : Frame} {d : Pms}
    (h_buf : buf = zeroFrame ∨ buf ∈ deliveredFrames js)
    (h : ∀ b, FromSensor js b (d.readings.db.bin b)) (b : Bin) :
    FromSensor js b ((pmsframe buf d).1.readings.db.bin b) := by
  rw [pmsframe_db]
  cases h_rep : reportedBins buf with
  | none => exact h b
  | some db =>
    obtain ⟨h_valid, h_len, rfl⟩ := reportedBins_eq_some.mp h_rep
    rcases h_buf with rfl | h_mem
    · -- the zeros at boot are no frame
      exact absurd h_valid (by decide +kernel)
    · exact Or.inr ⟨buf, h_mem, h_valid, h_len, rfl⟩

section

variable {cfg : MqpubConfig} {js : List NodeInput} {s : Node}

/-- **A read of the sensor** keeps the invariant, also where it fails and the frame in the buffer
is processed again. -/
theorem Node.Sound.sensor (h : s.Sound cfg js) (o : I2cOutcome) :
    (nodeStep cfg s (.sensor o)).Sound cfg (js ++ [.sensor o]) := by
  have h_buf : (readPms5002 s.pms o).1.buf = zeroFrame ∨
      (readPms5002 s.pms o).1.buf ∈ deliveredFrames (js ++ [.sensor o]) := by
    rw [readPms5002_buf, deliveredFrames_append]
    cases h_del : o.delivered with
    | some buf => exact Or.inr (List.mem_append_right _ (by simp [deliveredFrames, h_del]))
    | none => exact h.buf.imp_right (List.mem_append_left _)
  have h_bins := fun b => (h.bins b).mono [.sensor o]
  refine ⟨h_buf, ?_, fun b half => (h.args b half).mono _, h.topic⟩
  show ∀ b, FromSensor _ b ((readPms5002 s.pms o).1.readings.db.bin b)
  by_cases h_acq : o.acquire = 0
  · by_cases h_read : o.readRegs = 0
    · have h_del : o.delivered = some o.bytes := by simp [I2cOutcome.delivered, h_acq, h_read]
      rw [readPms5002_buf, h_del, Option.getD_some] at h_buf
      rw [readPms5002_delivers h_del]
      exact fromSensor_pmsframe (d := { s.pms with buf := o.bytes }) h_buf h_bins
    · -- the frame in the buffer once more
      rw [readPms5002_read_fails h_acq h_read] at h_buf ⊢
      rw [pmsframe_buf] at h_buf
      exact fromSensor_pmsframe h_buf h_bins
  · rw [readPms5002_acquire_fails h_acq]
    exact h_bins

/-- **A load** copies a byte of a bin. -/
theorem Node.Sound.load (h : s.Sound cfg js) (b : Bin) (half : Half) :
    (nodeStep cfg s (.load b half)).Sound cfg (js ++ [.load b half]) := by
  have h_frames : deliveredFrames (js ++ [.load b half]) = deliveredFrames js := by
    rw [deliveredFrames_append]
    exact List.append_nil _
  refine ⟨h_frames ▸ h.buf, fun c => (h.bins c).mono _, fun c other => ?_, h.topic⟩
  show ByteFromSensor _ c other (other.of ((s.args.set b _).bin c))
  by_cases h_bin : b = c
  · subst h_bin
    rw [DustBins.bin_set_self, Half.of_load, Bin.get_eq]
    by_cases h_half : half = other
    · -- the byte that was loaded is one of the driver's variable
      rw [if_pos h_half]
      exact ⟨_, (h.bins b).mono _, rfl⟩
    · rw [if_neg h_half]
      exact (h.args b other).mono _
  · rw [DustBins.bin_set_of_ne _ h_bin]
    exact (h.args c other).mono _

/-- Whatever an iteration does, a thread that publishes has set the name of its topic. -/
theorem MqpubStep.topic_name {t t' : MqpubThread} {i : MqpubInput} {evs : List Event}
    (h_step : MqpubStep cfg t i t' evs)
    (h : t.state = .publishing → t.topic.name = some cfg.topicstr) :
    t'.state = .publishing → t'.topic.name = some cfg.topicstr := by
  cases h_step
  case resolveFails => exact h
  case conFails => exact h
  case conOk => exact fun h_state => MqttsnState.noConfusion h_state
  case regFails => exact fun h_state => MqttsnState.noConfusion h_state
  case regOk => exact fun _ => rfl
  case pubFails => exact fun h_state => MqttsnState.noConfusion h_state
  case pubOk => exact h

/-- **An iteration** reads nothing of the sensor. -/
theorem Node.Sound.iterate (h : s.Sound cfg js) (i : MqpubInput) (left : Bool) :
    (nodeStep cfg s (.iterate i left)).Sound cfg (js ++ [.iterate i left]) := by
  have h_frames : deliveredFrames (js ++ [.iterate i left]) = deliveredFrames js := by
    rw [deliveredFrames_append]
    exact List.append_nil _
  refine ⟨h_frames ▸ h.buf, fun b => (h.bins b).mono _, fun b half => (h.args b half).mono _, ?_⟩
  exact (mqpubIter_step cfg s.thread { i with db := s.args }).topic_name h.topic

/-- **The invariant holds after every run of a node.** -/
theorem Node.sound_run (cfg : MqpubConfig) (js : List NodeInput) :
    (run (nodeStep cfg) Node.boot js).Sound cfg js := by
  refine run_history (P := Node.Sound cfg) (Node.sound_boot cfg) ?_ js
  intro js j s h
  cases j with
  | sensor o => exact h.sensor o
  | load b half => exact h.load b half
  | iterate i left => exact h.iterate i left

end

/-! ### What a node publishes -/

/-- A message is genuine for a node with the inputs `js`: a whole report, under the topic of the
node, of bins whose bytes its sensor delivered. -/
structure Publication.Genuine (cfg : MqpubConfig) (js : List NodeInput) (m : Publication) :
    Prop where
  topic : m.topic = cfg.topicstr
  payload : ∃ usec db, m.payload = reportText usec db ∧
    ∀ b half, ByteFromSensor js b half (half.of (db.bin b))

theorem Publication.Genuine.mono {cfg : MqpubConfig} {js : List NodeInput} {m : Publication}
    (h : m.Genuine cfg js) (ks : List NodeInput) : m.Genuine cfg (js ++ ks) := by
  obtain ⟨usec, db, h_text, h_bins⟩ := h.payload
  exact ⟨h.topic, usec, db, h_text, fun b half => (h_bins b half).mono ks⟩

/-- What `makereport` leaves in the buffer in an iteration of the publisher thread. -/
def reportPayload (cfg : MqpubConfig) (t : MqpubThread) (i : MqpubInput) : List Char :=
  let report := makereport i.usec i.db cfg.publishBuffer cfg.bufferSize t.mem
  read report.1 cfg.publishBuffer report.2

theorem publication_pub {topic : Topic} {name : List Char} (h : topic.name = some name)
    (data : List Char) (errno : Int) (left : Bool) :
    publication left (.pub topic data errno)
      = if departed errno left then some ⟨name, data⟩ else none := by
  show (if departed errno left then topic.name.map _ else none) = _
  rw [h]
  rfl

/-- In the other states nothing is published. -/
theorem MqpubStep.publications {cfg : MqpubConfig} {t t' : MqpubThread} {i : MqpubInput}
    {evs : List Event} (h_step : MqpubStep cfg t i t' evs) (h : t.state ≠ .publishing)
    (left : Bool) : evs.filterMap (publication left) = [] := by
  cases h_step
  case resolveFails => rfl
  case conFails => rfl
  case conOk => rfl
  case regFails => rfl
  case regOk => rfl
  case pubFails h_state _ _ _ => exact absurd h_state h
  case pubOk h_state _ _ _ => exact absurd h_state h

/-- **An iteration publishes in one state only**: one report, made in that iteration, if it leaves
the node. -/
theorem mqpubIter_publications {cfg : MqpubConfig} {t : MqpubThread} (i : MqpubInput)
    (left : Bool) (h : t.state = .publishing → t.topic.name = some cfg.topicstr) :
    (mqpubIter cfg t i).2.filterMap (publication left)
      = if t.state = .publishing ∧ departed i.pub left
        then [⟨cfg.topicstr, reportPayload cfg t i⟩] else [] := by
  by_cases h_state : t.state = .publishing
  · have h_pub := publication_pub (h h_state) (reportPayload cfg t i) i.pub left
    unfold mqpubIter
    simp only [h_state, true_and]
    -- the report is passed to the client first, whatever comes of it
    by_cases h_ok : i.pub = emcuteOk
    · have h_left : departed i.pub left = true := by simp [departed, h_ok]
      rw [if_pos h_left] at h_pub
      simp only [mqpubPub_ok _ _ t.stats h_ok, ne_eq, not_true_eq_false, if_false, if_pos h_left]
      exact (List.filterMap_cons_some h_pub).trans rfl
    · have h_ne : i.pub ≠ 0 := h_ok
      simp only [mqpubPub_fails _ _ t.stats h_ok, if_pos h_ne, mqpubReset_events]
      by_cases h_left : departed i.pub left = true
      · rw [if_pos h_left] at h_pub ⊢
        exact (List.filterMap_cons_some h_pub).trans rfl
      · rw [if_neg h_left] at h_pub ⊢
        exact (List.filterMap_cons_none h_pub).trans rfl
  · rw [if_neg fun h_and => h_state h_and.1]
    exact (mqpubIter_step cfg t i).publications h_state left

/-- In a buffer with room for the longest report, that is the whole report. -/
theorem reportPayload_eq {cfg : MqpubConfig} (h_size : 95 ≤ cfg.bufferSize) (t : MqpubThread)
    (i : MqpubInput) : reportPayload cfg t i = reportText i.usec i.db :=
  read_makereport i.usec i.db cfg.publishBuffer t.mem h_size

/-- What a node sends in a step. -/
theorem genuine_of_nodeSend {cfg : MqpubConfig} (h_size : 95 ≤ cfg.bufferSize)
    {js : List NodeInput} {s : Node} (h : s.Sound cfg js) {j : NodeInput} {m : Publication}
    (hm : m ∈ nodeSend cfg s j) : m.Genuine cfg js := by
  cases j with
  | sensor o => cases hm
  | load b half => cases hm
  | iterate i left =>
    change m ∈ (mqpubIter cfg s.thread { i with db := s.args }).2.filterMap (publication left) at hm
    rw [mqpubIter_publications _ _ h.topic, reportPayload_eq h_size] at hm
    split at hm
    · rw [List.mem_singleton] at hm
      subst hm
      exact ⟨rfl, i.usec, s.args, rfl, h.args⟩
    · cases hm

/-- **What a node publishes is genuine**, in every interleaving of its threads. -/
theorem published_genuine {cfg : MqpubConfig} (h_size : 95 ≤ cfg.bufferSize) (js : List NodeInput) :
    ∀ m ∈ trace (nodeStep cfg) (nodeSend cfg) Node.boot js, m.Genuine cfg js := by
  induction js using List.reverseRecOn with
  | nil => simp
  | append_singleton js j ih =>
    intro m hm
    rw [trace_concat, List.mem_append] at hm
    rcases hm with hm | hm
    · exact (ih m hm).mono [j]
    · exact (genuine_of_nodeSend h_size (Node.sound_run cfg js) hm).mono [j]

end AirQuality
