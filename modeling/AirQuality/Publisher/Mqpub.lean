import AirQuality.Framework.Machine
import AirQuality.Publisher.Report

/-!
# The publisher thread (`mqttsn_publisher.c`)

`mqpub_thread` connects to the gateway, registers its topic and publishes one report after the
other; when registering or publishing fails it disconnects and starts over. The `emcute` client and
the resolver are the environment: an input of the machine says how each call of one iteration of
the loop would turn out, and the calls that the iteration makes are its events, together with the
times it sleeps.

`mqpubIter` is one iteration, from loop head to loop head; `goto again` ends an iteration without
sleeping. `MqpubStep` lists the seven things an iteration can do, and everything else in this
module goes through it.
-/

namespace AirQuality

open CMem Machine

/-! ### Data -/

/-- `mqttsn_state_t`. -/
inductive MqttsnState where
  | notConnected
  | connected
  | publishing
  deriving DecidableEq

/-- `mqttsn_stats_t`. -/
structure MqttsnStats where
  connectOk : UInt16
  registerOk : UInt16
  publishOk : UInt16
  connectFail : UInt16
  registerFail : UInt16
  publishFail : UInt16
  reset : UInt16
  deriving DecidableEq

/-- Static storage at boot. -/
def MqttsnStats.zero : MqttsnStats := ⟨0, 0, 0, 0, 0, 0, 0⟩

/-- `mqpub_topic_t`; a field without a value is uninitialised. -/
structure Topic where
  name : Option (List Char)
  id : Option UInt16
  deriving DecidableEq

/-- `EMCUTE_OK`. -/
def emcuteOk : Int := 0

/-- `MQPUB_STATE_INTERVAL`, in seconds. -/
def mqpubStateInterval : UInt32 := 2

/-- `ipv6_addr_t`. -/
abbrev Ipv6Addr := Vector UInt8 16

/-- What resolving a host name gives: a result, negative on failure, and the address. -/
structure Resolution where
  res : Int
  addr : Ipv6Addr

/-- What an `emcute_reg` gives: its result, and the id it assigns to the topic if that is
`EMCUTE_OK`. -/
structure Registration where
  res : Int
  id : UInt16

/-- The calls that the thread makes, with their results. -/
inductive Event where
  | con (addr : Ipv6Addr) (port : UInt16) (errno : Int)
  | reg (topic : Topic) (errno : Int)
  | pub (topic : Topic) (data : List Char) (errno : Int)
  | discon (errno : Int)
  | sleep (secs : UInt32)
  deriving DecidableEq

/-- The compile-time configuration, `topicstr`, and where `publish_buffer` lies. -/
structure MqpubConfig where
  gatewayPort : UInt16
  publishInterval : UInt32
  topicstr : List Char
  publishBuffer : Nat
  bufferSize : Nat

/-- The configuration of the node: the defaults of the header, and the topic of the subscriber. -/
def MqpubConfig.node : MqpubConfig where
  gatewayPort := 10000
  publishInterval := 2
  topicstr := "KTH/avr-rss2/fcc23d0000017f97/sensors".toList
  publishBuffer := 0
  bufferSize := 512 - 16

/-- How the calls of one iteration would turn out, and what a report made in it would show. -/
structure MqpubInput where
  resolution : Resolution
  con : Int
  reg : Registration
  pub : Int
  discon : Int
  usec : UInt32
  db : DustBins

/-! ### The client functions -/

/-- What a client function does: the counters afterwards, the calls made, the value returned. -/
structure Outcome where
  stats : MqttsnStats
  events : List Event
  ret : Int

/-- **`mqpub_con`.** A host that cannot be resolved is not counted. -/
def mqpubCon (port : UInt16) (resolution : Resolution) (con : Int) (stats : MqttsnStats) :
    Outcome :=
  -- returns before any counter
  if resolution.res < 0 then ⟨stats, [], resolution.res⟩
  else if con ≠ emcuteOk then
    ⟨{ stats with connectFail := stats.connectFail + 1 }, [.con resolution.addr port con], 1⟩
  else ⟨{ stats with connectOk := stats.connectOk + 1 }, [.con resolution.addr port con], 0⟩

/-- **`mqpub_reg`**, with the topic afterwards. -/
def mqpubReg (topic : Topic) (topicstr : List Char) (reg : Registration) (stats : MqttsnStats) :
    Topic × Outcome :=
  -- the name is set even if the registration fails
  let topic := { topic with name := some topicstr }
  if reg.res ≠ emcuteOk then
    (topic, ⟨{ stats with registerFail := stats.registerFail + 1 }, [.reg topic reg.res], 1⟩)
  else
    let topic := { topic with id := some reg.id }
    (topic, ⟨{ stats with registerOk := stats.registerOk + 1 }, [.reg topic reg.res], 0⟩)

/-- **`mqpub_pub`.** -/
def mqpubPub (topic : Topic) (data : List Char) (pub : Int) (stats : MqttsnStats) : Outcome :=
  if pub ≠ emcuteOk then
    ⟨{ stats with publishFail := stats.publishFail + 1 }, [.pub topic data pub], pub⟩
  else ⟨{ stats with publishOk := stats.publishOk + 1 }, [.pub topic data pub], 0⟩

/-- **`mqpub_reset`**, which calls `mqpub_discon`. -/
def mqpubReset (discon : Int) (stats : MqttsnStats) : Outcome :=
  -- counted whether or not the disconnect succeeds
  let stats := { stats with reset := stats.reset + 1 }
  if discon ≠ emcuteOk then ⟨stats, [.discon discon], discon⟩
  else ⟨stats, [.discon discon], 0⟩

section

variable {port : UInt16} {resolution : Resolution} {con : Int} (stats : MqttsnStats)

theorem mqpubCon_unresolved (h_res : resolution.res < 0) :
    mqpubCon port resolution con stats = ⟨stats, [], resolution.res⟩ := if_pos h_res

theorem mqpubCon_fails (h_res : ¬ resolution.res < 0) (h_con : con ≠ emcuteOk) :
    mqpubCon port resolution con stats = ⟨{ stats with connectFail := stats.connectFail + 1 },
      [.con resolution.addr port con], 1⟩ := by
  unfold mqpubCon
  rw [if_neg h_res, if_pos h_con]

theorem mqpubCon_ok (h_res : ¬ resolution.res < 0) (h_con : con = emcuteOk) :
    mqpubCon port resolution con stats = ⟨{ stats with connectOk := stats.connectOk + 1 },
      [.con resolution.addr port con], 0⟩ := by
  unfold mqpubCon
  rw [if_neg h_res, if_neg (not_not.mpr h_con)]

end

section

variable (topic : Topic) (topicstr : List Char) {reg : Registration} (stats : MqttsnStats)

theorem mqpubReg_fails (h_reg : reg.res ≠ emcuteOk) :
    mqpubReg topic topicstr reg stats = ({ topic with name := some topicstr },
      ⟨{ stats with registerFail := stats.registerFail + 1 },
        [.reg { topic with name := some topicstr } reg.res], 1⟩) := if_pos h_reg

theorem mqpubReg_ok (h_reg : reg.res = emcuteOk) :
    mqpubReg topic topicstr reg stats = (⟨some topicstr, some reg.id⟩,
      ⟨{ stats with registerOk := stats.registerOk + 1 },
        [.reg ⟨some topicstr, some reg.id⟩ reg.res], 0⟩) := if_neg (not_not.mpr h_reg)

end

section

variable (topic : Topic) (data : List Char) {pub : Int} (stats : MqttsnStats)

theorem mqpubPub_fails (h_pub : pub ≠ emcuteOk) : mqpubPub topic data pub stats
    = ⟨{ stats with publishFail := stats.publishFail + 1 }, [.pub topic data pub], pub⟩ :=
  if_pos h_pub

theorem mqpubPub_ok (h_pub : pub = emcuteOk) : mqpubPub topic data pub stats
    = ⟨{ stats with publishOk := stats.publishOk + 1 }, [.pub topic data pub], 0⟩ :=
  if_neg (not_not.mpr h_pub)

end

theorem mqpubReset_stats (discon : Int) (stats : MqttsnStats) :
    (mqpubReset discon stats).stats = { stats with reset := stats.reset + 1 } := by
  unfold mqpubReset
  split <;> rfl

theorem mqpubReset_events (discon : Int) (stats : MqttsnStats) :
    (mqpubReset discon stats).events = [.discon discon] := by
  unfold mqpubReset
  split <;> rfl

/-! ### The thread -/

/-- The variables of the thread, the report buffer and the counters. -/
structure MqpubThread where
  state : MqttsnState
  sleepsecs : UInt32
  topic : Topic
  mem : Mem
  stats : MqttsnStats

/-- The thread at its first loop head: `topic` is uninitialised, static storage is zero. -/
def MqpubThread.boot : MqpubThread where
  state := .notConnected
  sleepsecs := mqpubStateInterval
  topic := ⟨none, none⟩
  mem := fun _ => nul
  stats := MqttsnStats.zero

/-- **One iteration of `mqpub_thread`.** -/
def mqpubIter (cfg : MqpubConfig) (s : MqpubThread) (i : MqpubInput) :
    MqpubThread × List Event :=
  match s.state with
  | .notConnected =>
    let con := mqpubCon cfg.gatewayPort i.resolution i.con s.stats
    let state := if con.ret = 0 then .connected else s.state
    ({ s with state := state, stats := con.stats }, con.events ++ [.sleep s.sleepsecs])
  | .connected =>
    let (topic, reg) := mqpubReg s.topic cfg.topicstr i.reg s.stats
    if reg.ret = 0 then
      ({ s with state := .publishing, topic := topic, stats := reg.stats },
        reg.events ++ [.sleep s.sleepsecs])
    else
      -- the value of `mqpub_reset()` is not looked at
      let reset := mqpubReset i.discon reg.stats
      ({ s with state := .notConnected, topic := topic, stats := reset.stats },
        reg.events ++ reset.events ++ [.sleep s.sleepsecs])
  | .publishing =>
    let report := makereport i.usec i.db cfg.publishBuffer cfg.bufferSize s.mem
    let pub := mqpubPub s.topic (read report.1 cfg.publishBuffer report.2) i.pub s.stats
    if pub.ret ≠ 0 then
      let reset := mqpubReset i.discon pub.stats
      -- goto again: no sleep
      ({ s with
          state := .notConnected
          sleepsecs := mqpubStateInterval
          mem := report.1
          stats := reset.stats },
        pub.events ++ reset.events)
    else
      ({ s with sleepsecs := cfg.publishInterval, mem := report.1, stats := pub.stats },
        pub.events ++ [.sleep cfg.publishInterval])

/-- The thread at the loop head it reaches after the iterations with inputs `is`. -/
def mqpubThread (cfg : MqpubConfig) (is : List MqpubInput) : MqpubThread :=
  run (fun s i => (mqpubIter cfg s i).1) MqpubThread.boot is

/-- The calls it made until then. -/
def mqpubTrace (cfg : MqpubConfig) (is : List MqpubInput) : List Event :=
  trace (fun s i => (mqpubIter cfg s i).1) (fun s i => (mqpubIter cfg s i).2) MqpubThread.boot is

/-- **What an iteration can do.** -/
inductive MqpubStep (cfg : MqpubConfig) (s : MqpubThread) (i : MqpubInput) :
    MqpubThread → List Event → Prop where
  | resolveFails (h : s.state = .notConnected) (h_res : i.resolution.res < 0) :
    MqpubStep cfg s i s [.sleep s.sleepsecs]
  | conFails (h : s.state = .notConnected) (h_con : i.con ≠ emcuteOk) :
    MqpubStep cfg s i
      { s with stats := { s.stats with connectFail := s.stats.connectFail + 1 } }
      [.con i.resolution.addr cfg.gatewayPort i.con, .sleep s.sleepsecs]
  | conOk (h : s.state = .notConnected) (h_con : i.con = emcuteOk) :
    MqpubStep cfg s i
      { s with
        state := .connected
        stats := { s.stats with connectOk := s.stats.connectOk + 1 } }
      [.con i.resolution.addr cfg.gatewayPort i.con, .sleep s.sleepsecs]
  | regFails (h : s.state = .connected) (h_reg : i.reg.res ≠ emcuteOk) :
    MqpubStep cfg s i
      { s with
        state := .notConnected
        topic := { s.topic with name := some cfg.topicstr }
        stats := { s.stats with
          registerFail := s.stats.registerFail + 1
          reset := s.stats.reset + 1 } }
      [.reg { s.topic with name := some cfg.topicstr } i.reg.res, .discon i.discon,
        .sleep s.sleepsecs]
  | regOk (h : s.state = .connected) (h_reg : i.reg.res = emcuteOk) :
    MqpubStep cfg s i
      { s with
        state := .publishing
        topic := ⟨some cfg.topicstr, some i.reg.id⟩
        stats := { s.stats with registerOk := s.stats.registerOk + 1 } }
      [.reg ⟨some cfg.topicstr, some i.reg.id⟩ i.reg.res, .sleep s.sleepsecs]
  | pubFails (h : s.state = .publishing) (h_pub : i.pub ≠ emcuteOk) (mem : Mem)
      (data : List Char) :
    MqpubStep cfg s i
      { s with
        state := .notConnected
        sleepsecs := mqpubStateInterval
        mem := mem
        stats := { s.stats with
          publishFail := s.stats.publishFail + 1
          reset := s.stats.reset + 1 } }
      [.pub s.topic data i.pub, .discon i.discon]
  | pubOk (h : s.state = .publishing) (h_pub : i.pub = emcuteOk) (mem : Mem)
      (data : List Char) :
    MqpubStep cfg s i
      { s with
        sleepsecs := cfg.publishInterval
        mem := mem
        stats := { s.stats with publishOk := s.stats.publishOk + 1 } }
      [.pub s.topic data i.pub, .sleep cfg.publishInterval]

theorem mqpubIter_step (cfg : MqpubConfig) (s : MqpubThread) (i : MqpubInput) :
    MqpubStep cfg s i (mqpubIter cfg s i).1 (mqpubIter cfg s i).2 := by
  unfold mqpubIter
  cases h : s.state with
  | notConnected =>
    -- three ways out of `mqpub_con`
    by_cases h_res : i.resolution.res < 0
    · have h_ne : i.resolution.res ≠ 0 := by omega
      simp only [mqpubCon_unresolved s.stats h_res, if_neg h_ne, List.nil_append]
      rw [← h]
      exact .resolveFails h h_res
    · by_cases h_con : i.con = emcuteOk
      · rw [mqpubCon_ok s.stats h_res h_con]
        exact .conOk h h_con
      · simp only [mqpubCon_fails s.stats h_res h_con, Int.one_ne_zero, if_false]
        rw [← h]
        exact .conFails h h_con
  | connected =>
    -- `mqpub_reg` succeeds, or the session is given up
    by_cases h_reg : i.reg.res = emcuteOk
    · rw [mqpubReg_ok s.topic cfg.topicstr s.stats h_reg]
      exact .regOk h h_reg
    · rw [mqpubReg_fails s.topic cfg.topicstr s.stats h_reg]
      simp only [Int.one_ne_zero, if_false, mqpubReset_stats, mqpubReset_events]
      exact .regFails h h_reg
  | publishing =>
    -- whatever the report says
    by_cases h_pub : i.pub = emcuteOk
    · simp only [mqpubPub_ok _ _ s.stats h_pub, ne_eq, not_true_eq_false, if_false]
      rw [← h]
      exact .pubOk h h_pub _ _
    · have h_ne : i.pub ≠ 0 := h_pub
      simp only [mqpubPub_fails _ _ s.stats h_pub, if_pos h_ne, mqpubReset_stats,
        mqpubReset_events]
      exact .pubFails h h_pub _ _

/-- **The induction rule of the thread**: what holds of the thread at boot with no calls made, and
is preserved by everything an iteration can do, holds at every loop head. -/
theorem mqpub_invariant {cfg : MqpubConfig} {P : List Event → MqpubThread → Prop}
    (h_boot : P [] MqpubThread.boot)
    (h_step : ∀ tr s i s' evs, P tr s → MqpubStep cfg s i s' evs → P (tr ++ evs) s')
    (is : List MqpubInput) : P (mqpubTrace cfg is) (mqpubThread cfg is) :=
  trace_invariant h_boot (fun tr s i h => h_step tr s i _ _ h (mqpubIter_step cfg s i)) is

end AirQuality
