import AirQuality.Framework.JsonComplete
import AirQuality.Publisher.MqttsnReport
import AirQuality.Publisher.RecordJson
import AirQuality.Store.Handler

/-!
# Reading the counters of the publisher

The MQTT-SN report shows the seven counters of the publisher thread as JSON numbers. They are
`uint16_t`, but printed with `%d`; where `int` has 16 bits that is a signed conversion, and from
`2 ^ 15` on the numeral is that of a negative number (`wordValue_eq_iff`).

A reader of the report parses the records behind that of the gateway and collects what it finds
under `"v"` (`parseCounters`). In a complete cycle it finds the seven counters if and only if all
of them are below `2 ^ 15` (`mqttsnReport_counters_iff`).
-/

namespace AirQuality

open CMem Printf Json

/-! ### The reader -/

/-- What stands under `"v"`. -/
def counterOf (v : Value) : Option Value :=
  match v with
  | .obj kvs => dictGet kvs "v"
  | _ => none

/-- The counters of a record: one, or those of the elements of its array `"vj"`. -/
def countersOf (record : Value) : List Value :=
  match record with
  | .obj kvs =>
    match dictGet kvs "vj" with
    | some (.arr vs) => vs.filterMap counterOf
    | _ => (counterOf record).toList
  | _ => []

/-- Parse records that have a comma in front of each, and collect their counters in order. -/
def parseCounters (records : List Char) : Option (List Value) :=
  match loads ('[' :: (records.drop 1 ++ [']'])) with
  | some (.arr vs) => some (vs.flatMap countersOf)
  | _ => none

/-- The seven counters, in the order of the report. -/
def MqttsnStats.counters (stats : MqttsnStats) : List UInt16 :=
  [stats.connectOk, stats.connectFail, stats.registerOk, stats.registerFail, stats.publishOk,
    stats.publishFail, stats.reset]

/-! ### The records behind that of the gateway -/

/-- The members of a named counter. -/
def counterEntries (name : List Char) (x : UInt16) (h_name : Plain name) : List Entry := [
  strEntry [] "n".toList name Ws.nil (by decide) h_name,
  strEntry [] "u".toList "count".toList Ws.nil (by decide) (by decide),
  wordEntry [] "v".toList x Ws.nil (by decide)]

/-- The text of a named counter. -/
def counterText (name : List Char) (x : UInt16) : List Char :=
  "\x7b\"n\":\"".toList ++ (name ++ ("\",\"u\":\"count\",\"v\":".toList ++ (wordText x
    ++ "\x7d".toList)))

/-- What a named counter denotes. -/
def counterValue (name : List Char) (x : UInt16) : Value := .obj [
  ("n".toList, .str name), ("u".toList, .str "count".toList), ("v".toList, wordValue x)]

theorem counterText_denotes {name : List Char} (h_name : Plain name) (x : UInt16) :
    Denotes (counterText name x) (counterValue name x) := by
  have h_text : counterText name x
      = '\x7b' :: (joinComma ((counterEntries name x h_name).map Entry.chars) ++ ['\x7d']) := by
    unfold counterText
    conv_rhs => simp only [counterEntries, List.map_cons, List.map_nil, wordEntry_chars,
      strEntry_chars, joinComma, List.nil_append, List.append_assoc, List.cons_append]
    rfl
  rw [h_text]
  exact denotes_obj (by simp [counterEntries])

/-- The value of a record with two counters. -/
def okFailValue (name : List Char) (ok fail : UInt16) : Value := .obj [
  ("n".toList, .str name),
  ("vj".toList, .arr [counterValue "ok".toList ok, counterValue "fail".toList fail])]

/-- A record with two counters is a section with these as its elements. -/
theorem okFailText_isSection {head : String} {name : List Char} (ok fail : UInt16)
    (h_head : head.toList = ',' :: '\x7b' :: '"' :: 'n' :: '"' :: ':' :: '"' :: (name ++
      '"' :: ',' :: '"' :: 'v' :: 'j' :: '"' :: ':' :: ['['])) (h_name : Plain name) :
    IsSection (okFailText head ok fail) name
      [counterValue "ok".toList ok, counterValue "fail".toList fail] := by
  -- the comma that the first `PUTFMT` ends with separates the two elements
  have h_text : okFailText head ok fail = namedText name
      (counterText "ok".toList ok ++ ',' :: counterText "fail".toList fail) := by
    have h_ok : "\x7b\"n\":\"ok\",\"u\":\"count\",\"v\":".toList ++ (decimalInt ok.toInt16.toInt
        ++ "\x7d,".toList) = counterText "ok".toList ok ++ [','] := by
      unfold counterText
      rw [List.append_assoc, List.append_assoc, List.append_assoc, List.append_assoc]
      rfl
    have h_fail : "\x7b\"n\":\"fail\",\"u\":\"count\",\"v\":".toList ++
        (decimalInt fail.toInt16.toInt ++ "\x7d".toList) = counterText "fail".toList fail := rfl
    have h_close : "]\x7d".toList = [']', '\x7d'] := rfl
    unfold okFailText namedText
    rw [h_ok, h_fail, h_head, h_close]
    simp only [List.cons_append, List.append_assoc, List.nil_append]
  have h_arr := denotes_arr [("ok".toList, ok), ("fail".toList, fail)]
    (fun c => counterText c.1 c.2) (fun c => counterValue c.1 c.2) (by
      simp only [List.forall_mem_cons]
      exact ⟨counterText_denotes (by decide) ok, counterText_denotes (by decide) fail, by simp⟩)
  rw [h_text]
  exact isSection_of_arr h_arr h_name

/-- What the records behind that of the gateway denote. -/
def recordValue (stats : MqttsnStats) : MqttsnReportState → Value
  | .connect => okFailValue "mqtt_sn;stats;connect".toList stats.connectOk stats.connectFail
  | .register => okFailValue "mqtt_sn;stats;register".toList stats.registerOk stats.registerFail
  | .publish => okFailValue "mqtt_sn;stats;publish".toList stats.publishOk stats.publishFail
  | .reset => counterValue "mqtt_sn;stats;reset".toList stats.reset
  | .gateway => .null

/-- Each of them is a comma and a JSON text. -/
theorem mqttsnText_denotes (host : List Char) (port : UInt16) (stats : MqttsnStats)
    {r : MqttsnReportState} (h : r ≠ .gateway) :
    ∃ t, mqttsnText host port stats r = ',' :: t ∧ Denotes t (recordValue stats r) := by
  cases r
  case gateway => exact absurd rfl h
  case connect => exact okFailText_isSection _ _ rfl (by decide)
  case register => exact okFailText_isSection _ _ rfl (by decide)
  case publish => exact okFailText_isSection _ _ rfl (by decide)
  case reset =>
    exact ⟨counterText "mqtt_sn;stats;reset".toList stats.reset, rfl,
      counterText_denotes (by decide) _⟩

/-! ### Reading them -/

/-- Records that are a comma and a JSON text each parse as the array of their values. -/
theorem parseCounters_flatMap {ι : Type} (is : List ι) (text : ι → List Char) (value : ι → Value)
    (h : ∀ i ∈ is, ∃ t, text i = ',' :: t ∧ Denotes t (value i)) :
    parseCounters (is.flatMap text) = some ((is.map value).flatMap countersOf) := by
  have h_tail : ∀ i ∈ is, text i = ',' :: (text i).tail ∧ Denotes (text i).tail (value i) := by
    intro i hi
    obtain ⟨t, h_text, h_t⟩ := h i hi
    rw [h_text]
    exact ⟨rfl, h_t⟩
  -- without the first comma, the texts are those of the elements of an array
  have h_join : (is.flatMap text).drop 1 = joinComma (is.map fun i => (text i).tail) := by
    cases is with
    | nil => rfl
    | cons i is =>
      have h_rest : is.flatMap text = commaTexts (is.map fun i => (text i).tail) := by
        unfold commaTexts
        rw [List.flatMap_map]
        exact List.flatMap_congr fun j hj => (h_tail j (List.mem_cons_of_mem i hj)).1
      rw [List.flatMap_cons, List.map_cons, joinComma_cons_eq, h_rest,
        (h_tail i List.mem_cons_self).1]
      rfl
  have h_arr := denotes_arr is (fun i => (text i).tail) value fun i hi => (h_tail i hi).2
  unfold parseCounters
  rw [h_join, loads_of_text h_arr.text]

/-- The records behind that of the gateway. -/
def counterRecords : List MqttsnReportState := [.connect, .register, .publish, .reset]

/-- What the reader finds in them: the counters as `%d` shows them. -/
theorem parseCounters_records (host : List Char) (port : UInt16) (stats : MqttsnStats) :
    parseCounters (counterRecords.flatMap (mqttsnText host port stats))
      = some (stats.counters.map wordValue) := by
  rw [parseCounters_flatMap counterRecords _ (recordValue stats) fun r hr =>
    mqttsnText_denotes host port stats (by rintro rfl; exact absurd hr (by decide))]
  rfl

/-- A signed reading is the counter itself exactly below `2 ^ 15`. -/
theorem wordValue_eq_iff (x : UInt16) : wordValue x = .int x.toNat ↔ x.toNat < 2 ^ 15 := by
  have h_lt := x.toNat_lt
  have h_signed : x.toInt16.toInt = (x.toNat : Int).bmod (2 ^ 16) := BitVec.toInt_eq_toNat_bmod _
  unfold wordValue
  rw [Value.int.injEq, h_signed, Int.bmod_def]
  split <;> omega

/-- **When the report shows the counters.** In a complete cycle of `mqttsn_report` during which the
counters do not change, the reader of the records behind that of the gateway finds the seven
counters if and only if each of them is below `2 ^ 15`. -/
theorem mqttsnReport_counters_iff (host : List Char) (port : UInt16) (stats : MqttsnStats)
    (before cs : List (Call MqttsnStats))
    (h_start : AtStart (calls (mqttsnReport host port) .gateway before).2)
    (h_stats : ∀ c ∈ cs, c.env = stats)
    (h_cycle : IsCycle (calls (mqttsnReport host port)
      (calls (mqttsnReport host port) .gateway before).1 cs).2) :
    (∃ records, (calls (mqttsnReport host port)
          (calls (mqttsnReport host port) .gateway before).1 cs).2.flatMap output
        = mqttsnText host port stats .gateway ++ records ∧
      parseCounters records = some (stats.counters.map fun x => .int x.toNat)) ↔
      ∀ x ∈ stats.counters, x.toNat < 2 ^ 15 := by
  have h_text := (mqttsnReport_implements host port).split before cs h_start h_stats h_cycle
  have h_split : mqttsnRecords.flatMap (mqttsnText host port stats)
      = mqttsnText host port stats .gateway
        ++ counterRecords.flatMap (mqttsnText host port stats) := rfl
  have h_values : stats.counters.map wordValue = stats.counters.map (fun x => .int x.toNat) ↔
      ∀ x ∈ stats.counters, x.toNat < 2 ^ 15 := by
    rw [List.map_inj_left]
    exact forall₂_congr fun x _ => wordValue_eq_iff x
  rw [h_text, h_split, ← h_values]
  constructor
  · rintro ⟨records, h_records, h_parse⟩
    -- the records are those behind the gateway's
    rw [← List.append_cancel_left h_records, parseCounters_records] at h_parse
    exact Option.some.inj h_parse
  · intro h
    exact ⟨_, rfl, by rw [parseCounters_records, h]⟩

/-- A single call that sends the whole report is a cycle. -/
theorem isCycle_whole (host : List Char) (port : UInt16) (c : Call MqttsnStats)
    (h_room : (mqttsnRecords.flatMap (mqttsnText host port c.env)).length < c.len) :
    IsCycle (calls (mqttsnReport host port) .gateway [c]).2 := by
  have h_finished := ((mqttsnReport_implements host port).whole c h_room).2
  exact ⟨[], _, rfl, by simp, h_finished⟩

/-- A thread that has published 30000 reports in its third session. -/
def steadyStats : MqttsnStats := ⟨3, 3, 30000, 1, 0, 2, 2⟩

/-- Its counters are read as they are. -/
theorem mqttsnReport_counters_node :
    let gen := mqttsnReport "lab-pc.ssvl.kth.se".toList 10000
    let cs : List (Call MqttsnStats) := [⟨steadyStats, fun _ => nul, 0, 496, by decide⟩]
    (∃ records, (calls gen (calls gen .gateway []).1 cs).2.flatMap output
        = mqttsnText "lab-pc.ssvl.kth.se".toList 10000 steadyStats .gateway ++ records ∧
      parseCounters records = some (steadyStats.counters.map fun x => .int x.toNat)) ↔
      ∀ x ∈ steadyStats.counters, x.toNat < 2 ^ 15 :=
  mqttsnReport_counters_iff _ 10000 steadyStats [] _ (fun _ h => absurd h (by simp [calls]))
    (fun c hc => by rw [List.mem_singleton.mp hc])
    (isCycle_whole _ 10000 ⟨steadyStats, fun _ => nul, 0, 496, by decide⟩
      (Nat.lt_of_le_of_lt (length_mqttsnReport_le _ 10000 steadyStats) (by decide)))

/-- A thread that has published 40000 reports. -/
def busyStats : MqttsnStats := ⟨1, 1, 40000, 0, 0, 0, 0⟩

/-- Having published 40000 reports, the node reports -25536. -/
theorem busyStats_negative :
    let gen := mqttsnReport "lab-pc.ssvl.kth.se".toList 10000
    let cs : List (Call MqttsnStats) := [⟨busyStats, fun _ => nul, 0, 496, by decide⟩]
    let records := counterRecords.flatMap
      (mqttsnText "lab-pc.ssvl.kth.se".toList 10000 busyStats)
    IsCycle (calls gen .gateway cs).2 ∧
      (calls gen .gateway cs).2.flatMap output
        = mqttsnText "lab-pc.ssvl.kth.se".toList 10000 busyStats .gateway ++ records ∧
      parseCounters records
        = some [.int 1, .int 0, .int 1, .int 0, .int (-25536), .int 0, .int 0] ∧
      parseCounters records ≠ some (busyStats.counters.map fun x => .int x.toNat) := by
  intro gen cs records
  have h_room : (mqttsnRecords.flatMap (mqttsnText "lab-pc.ssvl.kth.se".toList 10000
      busyStats)).length < 496 :=
    Nat.lt_of_le_of_lt (length_mqttsnReport_le _ 10000 busyStats) (by decide)
  have h_cycle : IsCycle (calls gen .gateway cs).2 := isCycle_whole _ 10000 _ h_room
  have h_parse : parseCounters records = some (busyStats.counters.map wordValue) :=
    parseCounters_records _ 10000 busyStats
  refine ⟨h_cycle, ?_, ?_, ?_⟩
  · have h_start : AtStart (calls gen .gateway []).2 := fun _ h => absurd h (by simp [calls])
    exact (mqttsnReport_implements _ 10000).split [] cs h_start
      (fun c hc => by rw [List.mem_singleton.mp hc]) h_cycle
  · rw [h_parse]
    rfl
  · -- one counter is beyond the range of an `int`
    rw [h_parse]
    intro h
    have h_published := List.map_inj_left.mp (Option.some.inj h) 40000 (by decide)
    exact absurd ((wordValue_eq_iff 40000).mp h_published) (by decide)

end AirQuality
