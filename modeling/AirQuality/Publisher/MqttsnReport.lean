import AirQuality.Publisher.Mqpub
import AirQuality.Publisher.ReportGen

/-!
# The MQTT-SN report (`mqttsn_report`)

Five records: the gateway, and the counters for connecting, registering, publishing and resetting.
The function is one `switch` that falls through from record to record; a static variable names the
record to start with, so it also names the first record that is still to come, and the state
doubles as the enumeration of the records.

`mqttsnReport_implements` shows that the function meets the contract of a report generator, one
case at a time from the last to the first; the laws of its cycles follow from the contract.
-/

namespace AirQuality

open CMem Printf Resumable

/-! ### The function -/

/-- `mqttsn_report_state_t`: the record that comes next. -/
inductive MqttsnReportState where
  | gateway
  | connect
  | register
  | publish
  | reset
  deriving DecidableEq

section

variable (host : List Char) (port : UInt16)

/-- The record of `case s_gateway`. -/
def gatewayRecord : Record Unit :=
  putfmt ",\x7b\"n\": \"mqtt_sn;gateway\",\"vs\":\"[%s]:%d\"\x7d" [.str host, .word port]

/-- A record with a counter of successes and one of failures, behind the text `head`. -/
def okFailRecord (head : String) (ok fail : UInt16) : Record Unit := do
  putfmt head []
  putfmt "\x7b\"n\":\"ok\",\"u\":\"count\",\"v\":%d\x7d," [.word ok]
  putfmt "\x7b\"n\":\"fail\",\"u\":\"count\",\"v\":%d\x7d" [.word fail]
  putfmt "]\x7d" []

/-- The record of `case s_connect`. -/
def connectRecord (stats : MqttsnStats) : Record Unit :=
  okFailRecord ",\x7b\"n\":\"mqtt_sn;stats;connect\",\"vj\":[" stats.connectOk stats.connectFail

/-- The record of `case s_register`. -/
def registerRecord (stats : MqttsnStats) : Record Unit :=
  okFailRecord ",\x7b\"n\":\"mqtt_sn;stats;register\",\"vj\":[" stats.registerOk
    stats.registerFail

/-- The record of `case s_publish`. -/
def publishRecord (stats : MqttsnStats) : Record Unit :=
  okFailRecord ",\x7b\"n\":\"mqtt_sn;stats;publish\",\"vj\":[" stats.publishOk stats.publishFail

/-- The record of `case s_reset`. -/
def resetRecord (stats : MqttsnStats) : Record Unit :=
  putfmt ",\x7b\"n\":\"mqtt_sn;stats;reset\",\"u\":\"count\",\"v\":%d\x7d" [.word stats.reset]

variable (stats : MqttsnStats) (s l : Nat)

/-- `case s_reset`, the last one: `state = s_gateway` and `*finished = 1`. -/
def caseReset : Nat → Mem → MqttsnReportState × Ret :=
  caseRecord s l .reset (resetRecord stats) fun nread m => (.gateway, ⟨m, nread, true⟩)

/-- `case s_publish`, falling through. -/
def casePublish : Nat → Mem → MqttsnReportState × Ret :=
  caseRecord s l .publish (publishRecord stats) (caseReset stats s l)

/-- `case s_register`, falling through. -/
def caseRegister : Nat → Mem → MqttsnReportState × Ret :=
  caseRecord s l .register (registerRecord stats) (casePublish stats s l)

/-- `case s_connect`, falling through. -/
def caseConnect : Nat → Mem → MqttsnReportState × Ret :=
  caseRecord s l .connect (connectRecord stats) (caseRegister stats s l)

/-- `case s_gateway`, falling through. -/
def caseGateway : Nat → Mem → MqttsnReportState × Ret :=
  caseRecord s l .gateway (gatewayRecord host port) (caseConnect stats s l)

/-- **`mqttsn_report`.** `host` and `port` are `MQTTSN_GATEWAY_HOST` and `MQTTSN_GATEWAY_PORT`. -/
def mqttsnReport : ReportGen MqttsnReportState MqttsnStats := fun state stats m buf len =>
  match state with
  | .gateway => caseGateway host port stats buf len 0 m
  | .connect => caseConnect stats buf len 0 m
  | .register => caseRegister stats buf len 0 m
  | .publish => casePublish stats buf len 0 m
  | .reset => caseReset stats buf len 0 m

/-! ### The records -/

/-- The text of a record with two counters. -/
def okFailText (head : String) (ok fail : UInt16) : List Char :=
  head.toList ++ (("\x7b\"n\":\"ok\",\"u\":\"count\",\"v\":".toList ++ (decimalInt ok.toInt16.toInt
    ++ "\x7d,".toList)) ++ (("\x7b\"n\":\"fail\",\"u\":\"count\",\"v\":".toList ++
      (decimalInt fail.toInt16.toInt ++ "\x7d".toList)) ++ "]\x7d".toList))

/-- The text of a record, from the counters at that moment. -/
def mqttsnText : MqttsnReportState → List Char
  | .gateway => ",\x7b\"n\": \"mqtt_sn;gateway\",\"vs\":\"[".toList ++ (host ++ ("]:".toList ++
      (decimalInt port.toInt16.toInt ++ "\"\x7d".toList)))
  | .connect => okFailText ",\x7b\"n\":\"mqtt_sn;stats;connect\",\"vj\":[" stats.connectOk
      stats.connectFail
  | .register => okFailText ",\x7b\"n\":\"mqtt_sn;stats;register\",\"vj\":[" stats.registerOk
      stats.registerFail
  | .publish => okFailText ",\x7b\"n\":\"mqtt_sn;stats;publish\",\"vj\":[" stats.publishOk
      stats.publishFail
  | .reset => ",\x7b\"n\":\"mqtt_sn;stats;reset\",\"u\":\"count\",\"v\":".toList ++
      (decimalInt stats.reset.toInt16.toInt ++ "\x7d".toList)

/-- The records of a cycle. -/
def mqttsnRecords : List MqttsnReportState := [.gateway, .connect, .register, .publish, .reset]

/-- The records of the current cycle that are still to come. -/
def mqttsnPending : MqttsnReportState → List MqttsnReportState
  | .gateway => [.gateway, .connect, .register, .publish, .reset]
  | .connect => [.connect, .register, .publish, .reset]
  | .register => [.register, .publish, .reset]
  | .publish => [.publish, .reset]
  | .reset => [.reset]

theorem mqttsnPending_injective {st st' : MqttsnReportState}
    (h : mqttsnPending st = mqttsnPending st') : st = st' := by
  cases st <;> cases st' <;> first | rfl | exact absurd h (by decide)

/-- The state is the first record to come. -/
theorem mqttsnPending_head (st : MqttsnReportState) : ∃ rest, mqttsnPending st = st :: rest := by
  cases st <;> exact ⟨_, rfl⟩

end

/-! ### Its length -/

theorem length_okFailText_le (head : String) (ok fail : UInt16) :
    (okFailText head ok fail).length ≤ head.toList.length + 71 := by
  have h_ok : (decimalInt ok.toInt16.toInt).length ≤ 6 := length_wordText_le ok
  have h_fail : (decimalInt fail.toInt16.toInt).length ≤ 6 := length_wordText_le fail
  unfold okFailText
  simp only [List.length_append]
  simp
  omega

/-- The length of the longest record of each kind. -/
def mqttsnMaxLength (host : List Char) : MqttsnReportState → Nat
  | .gateway => host.length + 42
  | .connect => 107
  | .register => 108
  | .publish => 107
  | .reset => 51

theorem length_mqttsnText_le (host : List Char) (port : UInt16) (stats : MqttsnStats)
    (r : MqttsnReportState) : (mqttsnText host port stats r).length ≤ mqttsnMaxLength host r := by
  cases r with
  | gateway =>
    have h_port : (decimalInt port.toInt16.toInt).length ≤ 6 := length_wordText_le port
    unfold mqttsnText mqttsnMaxLength
    simp only [List.length_append]
    simp
    omega
  | connect => exact length_okFailText_le _ stats.connectOk stats.connectFail
  | register => exact length_okFailText_le _ stats.registerOk stats.registerFail
  | publish => exact length_okFailText_le _ stats.publishOk stats.publishFail
  | reset =>
    have h_reset : (decimalInt stats.reset.toInt16.toInt).length ≤ 6 :=
      length_wordText_le stats.reset
    unfold mqttsnText mqttsnMaxLength
    simp only [List.length_append]
    simp
    omega

/-- **The longest report** has 415 characters besides the name of the gateway. -/
theorem length_mqttsnReport_le (host : List Char) (port : UInt16) (stats : MqttsnStats) :
    (mqttsnRecords.flatMap (mqttsnText host port stats)).length ≤ host.length + 415 := by
  have h_gateway := length_mqttsnText_le host port stats .gateway
  have h_connect := length_mqttsnText_le host port stats .connect
  have h_register := length_mqttsnText_le host port stats .register
  have h_publish := length_mqttsnText_le host port stats .publish
  have h_reset := length_mqttsnText_le host port stats .reset
  simp only [mqttsnMaxLength] at h_gateway h_connect h_register h_publish h_reset
  simp only [mqttsnRecords, List.flatMap_cons, List.flatMap_nil, List.length_append,
    List.length_nil]
  omega

/-! ### The contract -/

section

variable {host : List Char} {port : UInt16} {stats : MqttsnStats}

theorem writes_okFail (head : String) (ok fail : UInt16) :
    Writes (okFailRecord head ok fail) () (okFailText head ok fail) := by
  apply Writes.putfmt_bind (format_nil _)
  apply Appends.putfmt_bind rfl
  apply Appends.putfmt_bind rfl
  exact (writes_putfmt _ _).appends

variable {s l : Nat}

theorem caseReset_serves : ServesFrom (mqttsnText host port stats) mqttsnPending .gateway s l
    (mqttsnPending .reset) (caseReset stats s l) :=
  ServesFrom.lastRecord (writes_putfmt _ _) rfl

theorem casePublish_serves : ServesFrom (mqttsnText host port stats) mqttsnPending .gateway s l
    (mqttsnPending .publish) (casePublish stats s l) :=
  caseReset_serves.caseRecord (writes_okFail _ _ _) rfl

theorem caseRegister_serves : ServesFrom (mqttsnText host port stats) mqttsnPending .gateway s l
    (mqttsnPending .register) (caseRegister stats s l) :=
  casePublish_serves.caseRecord (writes_okFail _ _ _) rfl

theorem caseConnect_serves : ServesFrom (mqttsnText host port stats) mqttsnPending .gateway s l
    (mqttsnPending .connect) (caseConnect stats s l) :=
  caseRegister_serves.caseRecord (writes_okFail _ _ _) rfl

theorem caseGateway_serves : ServesFrom (mqttsnText host port stats) mqttsnPending .gateway s l
    (mqttsnPending .gateway) (caseGateway host port stats s l) :=
  caseConnect_serves.caseRecord (writes_putfmt _ _) rfl

end

theorem mqttsnPending_endsIn (st : MqttsnReportState) : EndsIn .reset (mqttsnPending st) := by
  cases st
  case gateway => exact ⟨by decide, [.gateway, .connect, .register, .publish], rfl⟩
  case connect => exact ⟨by decide, [.connect, .register, .publish], rfl⟩
  case register => exact ⟨by decide, [.register, .publish], rfl⟩
  case publish => exact ⟨by decide, [.publish], rfl⟩
  case reset => exact ⟨by decide, [], rfl⟩

/-- **`mqttsn_report` is a report generator** for its five records. -/
theorem mqttsnReport_implements (host : List Char) (port : UInt16) :
    Implements (mqttsnReport host port) mqttsnRecords .reset (mqttsnText host port) mqttsnPending
      .gateway where
  pending_init := rfl
  endsIn := mqttsnPending_endsIn
  call := by
    intro st stats m buf len h_len
    cases st
    case gateway => exact caseGateway_serves 0 m h_len
    case connect => exact caseConnect_serves 0 m h_len
    case register => exact caseRegister_serves 0 m h_len
    case publish => exact casePublish_serves 0 m h_len
    case reset => exact caseReset_serves 0 m h_len

/-! ### Its cycles -/

/-- **The cycles of `mqttsn_report`.** Let `before` be any calls from the start on, ending where a
cycle may start, and `cs` any further calls.

* Every call returns less than its buffer's length and leaves a string of that length.
* Every call emits records whole, rendered from the counters at that very call, and sets
  `*finished` exactly if it emits the reset record.
* A complete cycle emits the five records in order, each exactly once, and is followed by the
  gateway again; in a cycle that is under way, the state names the record that comes next.
* A call that has no room for the record that comes next returns 0, leaves the empty string, and
  leaves the state as it was.
* If every buffer has room for every record, the cycle ends within five calls. -/
theorem mqttsnReport_cycles (host : List Char) (port : UInt16)
    (before cs : List (Call MqttsnStats))
    (h_start : AtStart (calls (mqttsnReport host port) .gateway before).2) :
    let start := (calls (mqttsnReport host port) .gateway before).1
    let done := calls (mqttsnReport host port) start cs
    (∀ x ∈ done.2, Terminated x) ∧
      (∃ sent : List (List MqttsnReportState),
        List.Forall₂ (fun x rs => output x = rs.flatMap (mqttsnText host port x.1.env) ∧
          (x.2.finished = true ↔ .reset ∈ rs)) done.2 sent ∧
        (IsCycle done.2 → done.1 = .gateway ∧
          sent.flatten = [.gateway, .connect, .register, .publish, .reset]) ∧
        ((∀ x ∈ done.2, x.2.finished = false) → ∃ rest, sent.flatten ++ done.1 :: rest
          = [.gateway, .connect, .register, .publish, .reset])) ∧
      (∀ c : Call MqttsnStats, c.len ≤ (mqttsnText host port c.env done.1).length →
        let r := mqttsnReport host port done.1 c.env c.mem c.buf c.len
        r.1 = done.1 ∧ r.2.nread = 0 ∧ r.2.mem c.buf = nul) ∧
      ((∀ c ∈ cs, ∀ r, (mqttsnText host port c.env r).length < c.len) → 5 ≤ cs.length →
        ∃ x ∈ done.2.take 5, x.2.finished = true) := by
  intro start done
  have h := mqttsnReport_implements host port
  have h_gateway : start = .gateway := h.atStart before h_start
  refine ⟨h.terminated start cs, ?_, ?_, ?_⟩
  · obtain ⟨sent, h_sent, h_cycle, h_open⟩ := h.cycle before cs h_start
    refine ⟨sent, h_sent, fun h_done => ⟨?_, h_cycle h_done⟩, fun h_none => ?_⟩
    · -- the last call of a complete cycle finishes it
      have h_end : done = calls (mqttsnReport host port) .gateway cs := by
        rw [← h_gateway]
      rw [h_end] at h_done ⊢
      exact h.atStart cs h_done.atStart
    · obtain ⟨rest, h_rest⟩ := mqttsnPending_head done.1
      exact ⟨rest, h_rest ▸ h_open h_none⟩
  · intro c h_room r
    obtain ⟨rest, h_rest⟩ := mqttsnPending_head done.1
    obtain ⟨h_nread, h_nul, h_pending⟩ := h.blank done.1 c h_rest h_room
    exact ⟨mqttsnPending_injective (h_pending.trans h_rest.symm), h_nread, h_nul⟩
  · intro h_room h_len
    change ∃ x ∈ (calls _ start cs).2.take 5, _
    rw [h_gateway]
    exact h.progress cs h_len fun c hc r _ => h_room c hc r

/-- Two calls of the node, the first with a buffer for the gateway only. -/
theorem mqttsnReport_cycles_node :
    let gen := mqttsnReport "2001:6b0:32:13::234".toList 10000
    let text := mqttsnText "2001:6b0:32:13::234".toList 10000
    let start := (calls gen .gateway []).1
    let done := calls gen start [⟨.zero, fun _ => nul, 0, 61, by decide⟩,
      ⟨.zero, fun _ => nul, 0, 496, by decide⟩]
    (∀ x ∈ done.2, Terminated x) ∧
      (∃ sent : List (List MqttsnReportState),
        List.Forall₂ (fun x rs => output x = rs.flatMap (text x.1.env) ∧
          (x.2.finished = true ↔ .reset ∈ rs)) done.2 sent ∧
        (IsCycle done.2 → done.1 = .gateway ∧
          sent.flatten = [.gateway, .connect, .register, .publish, .reset]) ∧
        ((∀ x ∈ done.2, x.2.finished = false) → ∃ rest, sent.flatten ++ done.1 :: rest
          = [.gateway, .connect, .register, .publish, .reset])) ∧
      (∀ c : Call MqttsnStats, c.len ≤ (text c.env done.1).length →
        let r := gen done.1 c.env c.mem c.buf c.len
        r.1 = done.1 ∧ r.2.nread = 0 ∧ r.2.mem c.buf = nul) ∧
      ((∀ c ∈ ([⟨.zero, fun _ => nul, 0, 61, by decide⟩,
          ⟨.zero, fun _ => nul, 0, 496, by decide⟩] : List (Call MqttsnStats)),
        ∀ r, (text c.env r).length < c.len) → 5 ≤ 2 →
        ∃ x ∈ done.2.take 5, x.2.finished = true) :=
  mqttsnReport_cycles _ 10000 [] _ (fun _ h => absurd h (by simp [calls]))

end AirQuality
