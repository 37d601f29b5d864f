import AirQuality.Publisher.BootReport
import AirQuality.Publisher.RplJson
import AirQuality.Publisher.RplReport
import AirQuality.Store.Counters

/-!
# Reports in packets

A report generator is made to send its records through several buffers, each a packet of its own,
between the brackets of `makereport` and behind its preamble. No function does so yet: the call of
`reports` in `makereport` is commented out, and what is published is the preamble alone. The packets
here are those that the call would make.

A reader parses packet by packet. What it gets of a cycle are the records of the report, each of
them once, in order and in the data of the call that sent it, wherever the cycle was cut
(`Implements.packets`); all that is asked of the records is that each is a text of elements.

The records of the boot report and of the MQTT-SN report are, where the version and the host are
plain text. Those of the RPL report are, as long as at most one slot of the table is in use; from
two on, a packet of every cycle does not parse (`rplReport_packets_iff`).
-/

namespace AirQuality

open CMem Printf Json Resumable

/-! ### Packets -/

section

variable {State Env Rec : Type}

/-- The output of a call between the preamble and the closing bracket, where `makereport` has the
place for it. Its call of `reports` is commented out, so no packet is built like this yet. -/
def packet (usec : UInt32) (db : DustBins) (x : Call Env × Ret) : List Char :=
  '[' :: (preambleText usec db ++ (output x ++ [']']))

variable {gen : ReportGen State Env} {report : List Rec} {last : Rec}
  {render : Env → Rec → List Char} {pending : State → List Rec} {init : State}

/-- **Reading packets.** Every packet parses, and the values behind that of the preamble are those
of the records that were sent; in a complete cycle these are the records of the report, whatever
the preambles show. -/
theorem Implements.packets (h : Implements gen report last render pending init)
    (before cs : List (Call Env)) (h_start : AtStart (calls gen init before).2)
    (values : Env → Rec → List Value)
    (h_values : ∀ c ∈ cs, ∀ r ∈ report, Elements (render c.env r) (values c.env r)) :
    ∃ sent : List (List Rec),
      List.Forall₂ (fun x rs => ∀ usec db, loads (packet usec db x)
          = some (.arr (preambleValue usec db :: rs.flatMap (values x.1.env))))
        (calls gen (calls gen init before).1 cs).2 sent ∧
      (IsCycle (calls gen (calls gen init before).1 cs).2 → sent.flatten = report) := by
  obtain ⟨sent, h_sent, h_conserves⟩ := h.run before cs h_start
  refine ⟨sent, ?_, h.flatten_of_cycle h_start h_conserves⟩
  -- every record sent is one of the report
  have h_records : ∀ rs ∈ sent, ∀ r ∈ rs, r ∈ report := by
    intro rs hrs r hr
    have h_mem := List.mem_append_left
      (pending (calls gen (calls gen init before).1 cs).1) (List.mem_flatten_of_mem hrs hr)
    rw [h_conserves, List.mem_append, List.mem_flatten] at h_mem
    rcases h_mem with h_mem | ⟨l, hl, h_mem⟩
    · exact h_mem
    · rwa [(List.mem_replicate.mp hl).2] at h_mem
  have h_calls : ∀ x ∈ (calls gen (calls gen init before).1 cs).2, x.1 ∈ cs := by
    intro x hx
    rw [← calls_fst gen (calls gen init before).1 cs]
    exact List.mem_map_of_mem hx
  -- each call with what it sent
  have h_both := (List.forall₂_and_left _ _).mpr
    ⟨h_calls, ((List.forall₂_and_left _ _).mpr ⟨h_records, h_sent.flip⟩).flip⟩
  refine List.Forall₂.imp (fun x rs hx usec db => ?_) h_both
  obtain ⟨h_call, h_sub, h_out, -⟩ := hx
  have h_elements : Elements (output x) (rs.flatMap (values x.1.env)) := by
    rw [h_out]
    exact Elements.flatMap fun r hr => h_values x.1 h_call r (h_sub r hr)
  exact loads_of_text (denotes_arr_elements (preambleText_denotes usec db) h_elements).text

end

/-! ### The boot report -/

/-- **The packets of the boot report**, for a version that is plain text. In any sequence of calls
of `boot_report`, a call with room for both elements and a terminator sends them, so that the packet
that `makereport` has the place for is read as a preamble and these two, and is finished; any other
sends nothing, its packet is read as a preamble alone, and it is not finished. -/
theorem bootReport_packets {riotVersion : List Char} (h_version : Plain riotVersion)
    (cs : List (Call Unit)) :
    ∀ x ∈ (calls (bootReport riotVersion) () cs).2, ∀ usec db,
      if riotVersion.length + 83 < x.1.len then
        loads (packet usec db x) = some (.arr (preambleValue usec db :: bootValues riotVersion)) ∧
          x.2.finished = true
      else
        loads (packet usec db x) = some (.arr [preambleValue usec db]) ∧
          x.2.finished = false := by
  have h := bootReport_implements riotVersion
  induction cs with
  | nil => intro x hx; cases hx
  | cons c cs ih =>
    intro x hx usec db
    rcases List.mem_cons.mp hx with rfl | hx
    · have h_denotes := preambleText_denotes usec db
      by_cases h_room : riotVersion.length + 83 < c.len
      · rw [if_pos h_room]
        obtain ⟨h_out, h_fin⟩ := h.whole c (by
          rw [List.flatMap_singleton, length_bootText]
          exact h_room)
        have h_text : output (c, (bootReport riotVersion () c.env c.mem c.buf c.len).2)
            = bootText riotVersion := h_out.trans (List.append_nil _)
        refine ⟨?_, h_fin⟩
        unfold packet
        rw [h_text]
        exact loads_of_text (denotes_arr_elements h_denotes (bootText_elements h_version)).text
      · -- the record is given up, so nothing stands behind the preamble
        rw [if_neg h_room]
        obtain ⟨h_zero, -, -⟩ := h.blank () c rfl (by rw [length_bootText]; omega)
        have h_text : output (c, (bootReport riotVersion () c.env c.mem c.buf c.len).2) = [] := by
          show read _ _ (bootReport riotVersion () c.env c.mem c.buf c.len).2.nread = []
          rw [h_zero]
          rfl
        refine ⟨?_, h.nread_zero (fun _ _ => List.cons_ne_nil _ _) () c.env c.mem c.buf c.len_pos
          h_zero⟩
        unfold packet
        rw [h_text]
        exact loads_of_text (denotes_arr_elements h_denotes Elements.nil).text
    · exact ih x hx usec db

/-- The release that the node was built with, first in a buffer without room for the record, then
in one with room. -/
theorem bootReport_packets_node :
    let version := "2020.07-devel-3477-g0ece2a-main".toList
    let cs : List (Call Unit) := [⟨(), fun _ => nul, 0, 100, by decide⟩,
      ⟨(), fun _ => nul, 0, 496, by decide⟩]
    ∀ x ∈ (calls (bootReport version) () cs).2, ∀ usec db,
      if version.length + 83 < x.1.len then
        loads (packet usec db x) = some (.arr (preambleValue usec db :: bootValues version)) ∧
          x.2.finished = true
      else
        loads (packet usec db x) = some (.arr [preambleValue usec db]) ∧
          x.2.finished = false :=
  bootReport_packets (by decide) _

/-! ### The MQTT-SN report -/

/-- What the records of the MQTT-SN report denote. -/
def mqttsnValue (host : List Char) (port : UInt16) (stats : MqttsnStats) :
    MqttsnReportState → Value
  | .gateway => stringValue "mqtt_sn;gateway".toList
      ("[".toList ++ (host ++ ("]:".toList ++ wordText port)))
  | r => recordValue stats r

theorem mqttsnText_elements {host : List Char} (h_host : Plain host) (port : UInt16)
    (stats : MqttsnStats) (r : MqttsnReportState) :
    Elements (mqttsnText host port stats r) [mqttsnValue host port stats r] := by
  by_cases h : r = .gateway
  · subst h
    have h_text : mqttsnText host port stats .gateway = ',' :: stringText "mqtt_sn;gateway".toList
        ("[".toList ++ (host ++ ("]:".toList ++ wordText port))) := by
      unfold stringText
      rw [List.append_assoc, List.append_assoc, List.append_assoc]
      rfl
    have h_addr : Plain ("[".toList ++ (host ++ ("]:".toList ++ wordText port))) := by
      simp only [Plain, List.mem_append]
      rintro c (hc | hc | hc | hc)
      · exact (by decide : Plain "[".toList) c hc
      · exact h_host c hc
      · exact (by decide : Plain "]:".toList) c hc
      · exact wordText_plain port c hc
    rw [h_text]
    exact Elements.single (stringText_denotes (by decide) h_addr)
  · obtain ⟨t, h_text, h_t⟩ := mqttsnText_denotes host port stats h
    have h_value : mqttsnValue host port stats r = recordValue stats r := by
      cases r <;> first | rfl | exact absurd rfl h
    rw [h_text, h_value]
    exact Elements.single h_t

/-- **The packets of the MQTT-SN report**, for a host that is plain text. Let `before` be any calls
of `mqttsn_report` from the start on, ending where a cycle may start, and `cs` any further calls,
with buffers of any sizes. Every packet that `makereport` has the place for parses; behind the
preamble it has the records that were sent, with the counters of that very call; and over a complete
cycle these are the five records, each once and in order. -/
theorem mqttsnReport_packets {host : List Char} (h_host : Plain host) (port : UInt16)
    (before cs : List (Call MqttsnStats))
    (h_start : AtStart (calls (mqttsnReport host port) .gateway before).2) :
    let done := (calls (mqttsnReport host port)
      (calls (mqttsnReport host port) .gateway before).1 cs).2
    ∃ sent : List (List MqttsnReportState),
      List.Forall₂ (fun x rs => ∀ usec db, loads (packet usec db x)
        = some (.arr (preambleValue usec db :: rs.map (mqttsnValue host port x.1.env)))) done sent ∧
      (IsCycle done → sent.flatten = [.gateway, .connect, .register, .publish, .reset]) := by
  intro done
  obtain ⟨sent, h_sent, h_cycle⟩ := (mqttsnReport_implements host port).packets before cs h_start
    (fun stats r => [mqttsnValue host port stats r])
    fun c _ r _ => mqttsnText_elements h_host port c.env r
  refine ⟨sent, h_sent.imp fun x rs hx usec db => ?_, h_cycle⟩
  rw [hx usec db, ← List.map_eq_flatMap]

/-- Two calls of the node, the first with a buffer for the gateway only. -/
theorem mqttsnReport_packets_node :
    let gen := mqttsnReport "2001:6b0:32:13::234".toList 10000
    let cs : List (Call MqttsnStats) := [⟨.zero, fun _ => nul, 0, 70, by decide⟩,
      ⟨.zero, fun _ => nul, 0, 496, by decide⟩]
    let done := (calls gen (calls gen .gateway []).1 cs).2
    ∃ sent : List (List MqttsnReportState),
      List.Forall₂ (fun x rs => ∀ usec db, loads (packet usec db x)
        = some (.arr (preambleValue usec db
          :: rs.map (mqttsnValue "2001:6b0:32:13::234".toList 10000 x.1.env)))) done sent ∧
      (IsCycle done → sent.flatten = [.gateway, .connect, .register, .publish, .reset]) :=
  mqttsnReport_packets (by decide) 10000 [] _ (fun _ h => absurd h (by simp [calls]))

/-! ### The RPL report -/

/-- The name of a record of the statistics. -/
def StatsState.name : StatsState → List Char
  | .dio => "rpl;stats;dio".toList
  | .dis => "rpl;stats;dis".toList
  | .dao => "rpl;stats;dao".toList
  | .daoAck => "rpl;stats;dao_ack".toList

/-- The counters of such a record. -/
def RplNetstats.counters (netstats : RplNetstats) : StatsState → RplCounters
  | .dio => netstats.dio
  | .dis => netstats.dis
  | .dao => netstats.dao
  | .daoAck => netstats.daoAck

/-- Its elements: `%d` reads the low word of a counter. -/
def RplCounters.elements (c : RplCounters) : List Value :=
  [counterValue "u_rx".toList c.rxUcastCount.toUInt16,
    counterValue "u_tx".toList c.txUcastCount.toUInt16,
    counterValue "m_rx".toList c.rxMcastCount.toUInt16,
    counterValue "m_tx".toList c.txMcastCount.toUInt16]

theorem countersText_isSection {head : String} {name : List Char} (c : RplCounters)
    (h_head : head.toList = ',' :: '\x7b' :: '"' :: 'n' :: '"' :: ':' :: '"' :: (name ++
      '"' :: ',' :: '"' :: 'v' :: 'j' :: '"' :: ':' :: ['['])) (h_name : Plain name) :
    IsSection (countersText head c) name c.elements := by
  let named : List (List Char × UInt16) := [("u_rx".toList, c.rxUcastCount.toUInt16),
    ("u_tx".toList, c.txUcastCount.toUInt16), ("m_rx".toList, c.rxMcastCount.toUInt16),
    ("m_tx".toList, c.txMcastCount.toUInt16)]
  have h_text : countersText head c
      = namedText name (joinComma (named.map fun n => counterText n.1 n.2)) := by
    -- every `PUTFMT` but the first and the last writes a counter, with the comma in front of it
    change head.toList ++ (counterText "u_rx".toList _ ++ ((',' :: counterText "u_tx".toList _) ++
      ((',' :: counterText "m_rx".toList _) ++ ((',' :: counterText "m_tx".toList _) ++
        [']', '\x7d'])))) = _
    unfold namedText
    rw [h_head]
    simp only [named, List.map_cons, List.map_nil, joinComma, List.cons_append, List.append_assoc,
      List.nil_append]
  have h_arr := denotes_arr named (fun n => counterText n.1 n.2) (fun n => counterValue n.1 n.2) (by
    simp only [named, List.forall_mem_cons]
    exact ⟨counterText_denotes (by decide) _, counterText_denotes (by decide) _,
      counterText_denotes (by decide) _, counterText_denotes (by decide) _, by simp⟩)
  rw [h_text]
  exact isSection_of_arr h_arr h_name

theorem statsText_isSection (netstats : RplNetstats) (r : StatsState) :
    IsSection (statsText netstats r) r.name (netstats.counters r).elements := by
  cases r <;> exact countersText_isSection _ rfl (by decide)

section

variable {ipv6AddrToStr : Ipv6Addr → List Char}

/-- What the records of the RPL report should denote. -/
def rplValue (ipv6AddrToStr : Ipv6Addr → List Char) (env : RplEnv) : RplRecord → Value
  | .inst => sectionValue TableRecord.inst.name (TableRecord.inst.elements ipv6AddrToStr env.table)
  | .dag => sectionValue TableRecord.dag.name (TableRecord.dag.elements ipv6AddrToStr env.table)
  | .parents => sectionValue TableRecord.parents.name
      (TableRecord.parents.elements ipv6AddrToStr env.table)
  | .stats r => sectionValue r.name (env.netstats.counters r).elements

theorem rplText_elements (h_addr : AddrChars ipv6AddrToStr) {env : RplEnv}
    (h : env.table.activeSlots.length ≤ 1) (r : RplRecord) :
    Elements (rplText ipv6AddrToStr env r) [rplValue ipv6AddrToStr env r] := by
  cases r with
  | inst => exact (TableRecord.inst.isSection h_addr h).elements
  | dag => exact (TableRecord.dag.isSection h_addr h).elements
  | parents => exact (TableRecord.parents.isSection h_addr h).elements
  | stats r => exact (statsText_isSection env.netstats r).elements

/-- With two slots in use, a packet that starts with the record of the instances does not parse. -/
theorem packet_not_parsed {x : Call RplEnv × Ret} (h : 1 < x.1.env.table.activeSlots.length)
    {rs : List RplRecord} (h_out : output x = (.inst :: rs).flatMap (rplText ipv6AddrToStr x.1.env))
    (usec : UInt32) (db : DustBins) : loads (packet usec db x) = none := by
  -- the reader stops within the second element, that of the instances
  obtain ⟨t, u, h_refused, h_inst⟩ := refused_instancesText h
  have h_arr := refused_arr_item [Padded.bare (preambleText usec db) (preambleValue usec db)]
    (List.cons_ne_nil _ _)
    (List.forall_mem_cons.mpr ⟨preambleText_denotes usec db, fun _ h => absurd h List.not_mem_nil⟩)
    h_refused (NoWs.cons (by decide)) (List.cons_ne_nil _ _)
  refine h_arr.loads_eq_none (NoWs.cons (by decide)) (List.cons_ne_nil _ _)
    ⟨u ++ (rs.flatMap (rplText ipv6AddrToStr x.1.env) ++ [']']), ?_⟩
  have h_text : output x
      = (',' :: '\x7b' :: (t ++ u)) ++ rs.flatMap (rplText ipv6AddrToStr x.1.env) := by
    rw [h_out, List.flatMap_cons, ← h_inst]
    rfl
  unfold packet
  rw [h_text]
  simp [joinComma, Padded.chars]

end

/-- The first element of lists in a row is the first one of some of them. -/
theorem exists_of_flatten_cons {α β : Type} {R : α → List β → Prop} {xs : List α}
    {ss : List (List β)} (h : List.Forall₂ R xs ss) {b : β} {bs : List β}
    (h_flatten : ss.flatten = b :: bs) : ∃ x ∈ xs, ∃ rest, R x (b :: rest) := by
  induction h with
  | nil => cases h_flatten
  | @cons x s xs ss hx _ ih =>
    cases s with
    | nil =>
      obtain ⟨y, hy, h_rest⟩ := ih h_flatten
      exact ⟨y, List.mem_cons_of_mem x hy, h_rest⟩
    | cons c s =>
      obtain ⟨rfl, -⟩ := List.cons.inj h_flatten
      exact ⟨x, List.mem_cons_self, s, hx⟩

/-- **The packets of the RPL report.** Let `before` be any calls of `rpl_report` from the start on,
ending where a cycle may start, `cs` further calls that make up a complete cycle, with buffers of
any sizes and while the table and the statistics do not change, and let each packet that
`makereport` has the place for have any preamble. All packets parse if and only if at most one slot
of the table is in use. In that case they are read as the preambles and, behind them, the seven
records of the report, each once and in order, with one element for each instance, DODAG, parent or
counter. -/
theorem rplReport_packets_iff (ipv6AddrToStr : Ipv6Addr → List Char)
    (h_addr : AddrChars ipv6AddrToStr) (before cs : List (Call RplEnv))
    (h_start : AtStart (calls (rplReport ipv6AddrToStr) .init before).2) {env : RplEnv}
    (h_env : ∀ c ∈ cs, c.env = env)
    (h_cycle : IsCycle (calls (rplReport ipv6AddrToStr)
      (calls (rplReport ipv6AddrToStr) .init before).1 cs).2)
    (stamp : Call RplEnv × Ret → UInt32 × DustBins) :
    let done := (calls (rplReport ipv6AddrToStr)
      (calls (rplReport ipv6AddrToStr) .init before).1 cs).2
    ((∀ x ∈ done, (loads (packet (stamp x).1 (stamp x).2 x)).isSome = true) ↔
        env.table.activeSlots.length ≤ 1) ∧
      (env.table.activeSlots.length ≤ 1 → ∃ sent : List (List RplRecord),
        List.Forall₂ (fun x rs => loads (packet (stamp x).1 (stamp x).2 x)
          = some (.arr (preambleValue (stamp x).1 (stamp x).2
            :: rs.map (rplValue ipv6AddrToStr env)))) done sent ∧
        sent.flatten = rplRecords) := by
  intro done
  have h := rplReport_implements ipv6AddrToStr
  have h_done : ∀ x ∈ done, x.1.env = env := by
    intro x hx
    refine h_env x.1 ?_
    rw [← calls_fst (rplReport ipv6AddrToStr) (calls (rplReport ipv6AddrToStr) .init before).1 cs]
    exact List.mem_map_of_mem hx
  have h_read : env.table.activeSlots.length ≤ 1 → ∃ sent : List (List RplRecord),
      List.Forall₂ (fun x rs => loads (packet (stamp x).1 (stamp x).2 x)
        = some (.arr (preambleValue (stamp x).1 (stamp x).2
          :: rs.map (rplValue ipv6AddrToStr env)))) done sent ∧ sent.flatten = rplRecords := by
    intro h_slots
    obtain ⟨sent, h_sent, h_report⟩ := h.packets before cs h_start
      (fun env r => [rplValue ipv6AddrToStr env r])
      fun c hc r _ => rplText_elements h_addr (h_env c hc ▸ h_slots) r
    refine ⟨sent, ?_, h_report h_cycle⟩
    have h_both := (List.forall₂_and_left _ _).mpr ⟨h_done, h_sent⟩
    refine h_both.imp fun x rs hx => ?_
    rw [hx.2 (stamp x).1 (stamp x).2, hx.1, ← List.map_eq_flatMap]
  refine ⟨⟨fun h_parsed => ?_, fun h_slots x hx => ?_⟩, h_read⟩
  · by_contra h_slots
    -- the record of the instances comes first in the cycle, so it comes first in its packet
    obtain ⟨sent, h_sent, h_report, -⟩ := h.cycle before cs h_start
    obtain ⟨x, hx, rest, h_out, -⟩ := exists_of_flatten_cons h_sent (h_report h_cycle)
    have h_two : 1 < x.1.env.table.activeSlots.length := by
      rw [h_done x hx]
      omega
    have h_some := h_parsed x hx
    rw [packet_not_parsed h_two h_out] at h_some
    cases h_some
  · obtain ⟨sent, h_sent, -⟩ := h_read h_slots
    have h_both : List.Forall₂ (fun y _ => (loads (packet (stamp y).1 (stamp y).2 y)).isSome = true
        ∧ True) done sent := h_sent.imp fun y rs hy => ⟨by rw [hy]; rfl, trivial⟩
    exact ((List.forall₂_and_left _ _).mp h_both).1 x hx

/-- A node with two instances, whose report fits one buffer. -/
theorem rplReport_packets_iff_node :
    let parent : RplParent := ⟨linkLocal 1, 256⟩
    let env : RplEnv :=
      ⟨⟨[rplSlot 1 1 [parent], rplSlot 1 2 [parent]], by decide⟩, nodeNetstats⟩
    let done := (calls (rplReport linkLocalText) .init [⟨env, fun _ => nul, 0, 1500, by decide⟩]).2
    ¬ ∀ x ∈ done, (loads (packet 0 DustBins.zero x)).isSome = true := by
  intro parent env done h_parsed
  have h_cycle := (rplReport_implements linkLocalText).isCycle_whole
    ⟨env, fun _ => nul, 0, 1500, by decide⟩
    (by decide +kernel : (rplRecords.flatMap (rplText linkLocalText env)).length < 1500)
  have h_slots := (rplReport_packets_iff linkLocalText linkLocalText_addrChars []
    [⟨env, fun _ => nul, 0, 1500, by decide⟩] (fun _ h => absurd h (by simp [calls]))
    (fun c hc => by rw [List.mem_singleton.mp hc]) h_cycle (fun _ => (0, DustBins.zero))).1.mp
      h_parsed
  exact absurd h_slots (by decide)

end AirQuality
