import AirQuality.Framework.JsonGrammar
import AirQuality.Publisher.Mqpub
import AirQuality.Publisher.ReportGen

/-!
# The records of the RPL report (`gnrc_rpl.c`)

`instances`, `dags` and `parents` write one record each from the table of RPL instances, and
`stats` four records from the RPL statistics. The three loops over the table have the same shape: a
separator, then the elements of the slot, for each slot in use. Their flag `first` is declared in
the body of the loop, so it is 1 at every turn and the separator is never written; only the inner
loop of `parents` has a flag that lasts (`forActive`, `parentsLoop`).

Each function is a record whose text is known (`writes_instances` and its siblings), which is all
that the report generator needs.
-/

namespace AirQuality

open CMem Printf Json

/-! ### Data -/

/-- The node's role in a DODAG. -/
inductive NodeStatus where
  | normal
  | root
  | leaf
  deriving DecidableEq

/-- `gnrc_rpl_parent_t`. -/
structure RplParent where
  addr : Ipv6Addr
  rank : UInt16

/-- `gnrc_rpl_dodag_t`; `instanceId` is `instance->id`, and `parents` the linked list. -/
structure RplDodag where
  dodagId : Ipv6Addr
  instanceId : UInt8
  myRank : UInt16
  version : UInt8
  prf : UInt8
  grounded : UInt8
  nodeStatus : NodeStatus
  parents : List RplParent

/-- `gnrc_rpl_instance_t`; `ocp` is `of->ocp`. -/
structure RplInstance where
  state : UInt8
  id : UInt8
  mop : UInt8
  ocp : UInt16
  dodag : RplDodag

/-- The slot is in use. -/
def RplInstance.active (i : RplInstance) : Bool := i.state ≠ 0

/-- `gnrc_rpl_instances[GNRC_RPL_INSTANCES_NUMOF]`. The number of slots fits the `uint8_t` that
counts them. -/
structure RplTable where
  slots : List RplInstance
  numof_le : slots.length ≤ 255

/-- The slots in use, in table order. -/
def RplTable.activeSlots (table : RplTable) : List RplInstance :=
  table.slots.filter RplInstance.active

/-- The statistics of one kind of RPL message. -/
structure RplCounters where
  rxUcastCount : UInt32
  txUcastCount : UInt32
  rxMcastCount : UInt32
  txMcastCount : UInt32

/-- `gnrc_rpl_netstats`. -/
structure RplNetstats where
  dio : RplCounters
  dis : RplCounters
  dao : RplCounters
  daoAck : RplCounters

/-! ### The loops -/

/-- `if (first) first = 0; else PUTFMT(",");`, with the flag afterwards. -/
def separator (first : Bool) : Record Bool := do
  if first then pure false
  else
    putfmt "," []
    pure first

/-- `for (uint8_t i = 0; i < GNRC_RPL_INSTANCES_NUMOF; ++i)`, with a separator and `body` for each
slot in use. -/
def forActive (body : RplInstance → Record Unit) : List RplInstance → Record Unit
  | [] => pure ()
  | slot :: slots => do
    -- declared in the body of the loop
    let first := true
    if slot.active then
      let _ ← separator first
      body slot
    forActive body slots

/-- A record with a name and an array `"vj"`, opened by the text `head`. -/
def sectionRecord (head : String) (elements : Record Unit) : Record Unit := do
  putfmt head []
  elements
  putfmt "]\x7d" []

/-- The element of an instance. -/
def instanceElement (i : RplInstance) : Record Unit :=
  putfmt "\x7b\"id\":%d,\"mop\":%d,\"ocp\":%d\x7d"
    [.word i.id.toUInt16, .word i.mop.toUInt16, .word i.ocp]

/-- **`instances`.** -/
def instances (table : RplTable) (str len : Nat) (m : Mem) : Mem × Nat :=
  recordFunction str len
    (sectionRecord ",\x7b\"n\":\"rpl;inst\",\"vj\":[" (forActive instanceElement table.slots)) m

/-- `dodag->grounded ? "g" : ""`. -/
def RplDodag.groundedStr (d : RplDodag) : List Char := if d.grounded ≠ 0 then ['g'] else []

/-- `dodag->node_status == GNRC_RPL_LEAF_NODE ? "l" : "r"`. -/
def RplDodag.statusStr (d : RplDodag) : List Char := if d.nodeStatus = .leaf then ['l'] else ['r']

/-- The element of an instance's DODAG. -/
def dagElement (i : RplInstance) : Record Unit :=
  putfmt "\x7b\"root\":\":%02x%02x\", \"inst\":%d, \"rank\":%d, \"ver\":%d, \"pref\":%d, \"status\":\"%s%s\"\x7d"
    [.word i.dodag.dodagId[14].toUInt16, .word i.dodag.dodagId[15].toUInt16,
      .word i.dodag.instanceId.toUInt16, .word i.dodag.myRank, .word i.dodag.version.toUInt16,
      .word i.dodag.prf.toUInt16, .str i.dodag.groundedStr, .str i.dodag.statusStr]

/-- **`dags`.** -/
def dags (table : RplTable) (str len : Nat) (m : Mem) : Mem × Nat :=
  recordFunction str len
    (sectionRecord ",\x7b\"n\":\"rpl;dag\",\"vj\":[" (forActive dagElement table.slots)) m

section

variable (ipv6AddrToStr : Ipv6Addr → List Char)

/-- The element of a parent. -/
def parentElement (d : RplDodag) (parent : RplParent) : Record Unit := do
  putfmt "\x7b\"dag\":\"%02x%02x\"" [.word d.dodagId[14].toUInt16, .word d.dodagId[15].toUInt16]
  putfmt ",\"parent\":\"%s\",\"rank\":%d\x7d"
    [.str (ipv6AddrToStr parent.addr), .word parent.rank]

/-- `LL_FOREACH(dodag.parents, parent)`. The flag `first` lasts from parent to parent. -/
def parentsLoop (d : RplDodag) : Bool → List RplParent → Record Unit
  | _, [] => pure ()
  | first, parent :: parents => do
    let first ← separator first
    parentElement ipv6AddrToStr d parent
    parentsLoop d first parents

/-- The elements of an instance's parents. -/
def parentElements (i : RplInstance) : Record Unit :=
  parentsLoop ipv6AddrToStr i.dodag true i.dodag.parents

/-- **`parents`.** `ipv6AddrToStr` is `ipv6_addr_to_str`. -/
def parents (table : RplTable) (str len : Nat) (m : Mem) : Mem × Nat :=
  recordFunction str len (sectionRecord ",\x7b\"n\":\"rpl;parents\",\"vj\":["
    (forActive (parentElements ipv6AddrToStr) table.slots)) m

end

/-! ### The statistics -/

/-- `s_stats_t`: the record that comes next. -/
inductive StatsState where
  | dio
  | dis
  | dao
  | daoAck
  deriving DecidableEq

/-- A record with four counters, opened by the text `head`. -/
def countersRecord (head : String) (c : RplCounters) : Record Unit := do
  putfmt head []
  putfmt "\x7b\"n\":\"u_rx\",\"u\":\"count\",\"v\":%d\x7d" [.long c.rxUcastCount]
  putfmt ",\x7b\"n\":\"u_tx\",\"u\":\"count\",\"v\":%d\x7d" [.long c.txUcastCount]
  putfmt ",\x7b\"n\":\"m_rx\",\"u\":\"count\",\"v\":%d\x7d" [.long c.rxMcastCount]
  putfmt ",\x7b\"n\":\"m_tx\",\"u\":\"count\",\"v\":%d\x7d" [.long c.txMcastCount]
  putfmt "]\x7d" []

section

variable (netstats : RplNetstats) (s l : Nat)

/-- `case s_dao_ack`, the last one: `state = s_dio` and `*done = 1`. -/
def caseDaoAck : Nat → Mem → StatsState × Ret :=
  caseRecord s l .daoAck
    (countersRecord ",\x7b\"n\":\"rpl;stats;dao_ack\",\"vj\":[" netstats.daoAck)
    fun nread m => (.dio, ⟨m, nread, true⟩)

/-- `case s_dao`, falling through. -/
def caseDao : Nat → Mem → StatsState × Ret :=
  caseRecord s l .dao (countersRecord ",\x7b\"n\":\"rpl;stats;dao\",\"vj\":[" netstats.dao)
    (caseDaoAck netstats s l)

/-- `case s_dis`, falling through. -/
def caseDis : Nat → Mem → StatsState × Ret :=
  caseRecord s l .dis (countersRecord ",\x7b\"n\":\"rpl;stats;dis\",\"vj\":[" netstats.dis)
    (caseDao netstats s l)

/-- `case s_dio`, falling through. -/
def caseDio : Nat → Mem → StatsState × Ret :=
  caseRecord s l .dio (countersRecord ",\x7b\"n\":\"rpl;stats;dio\",\"vj\":[" netstats.dio)
    (caseDis netstats s l)

end

/-- **`stats`**, a report generator of its own; its `*done` is `finished`. -/
def stats : ReportGen StatsState RplNetstats := fun state netstats m str len =>
  match state with
  | .dio => caseDio netstats str len 0 m
  | .dis => caseDis netstats str len 0 m
  | .dao => caseDao netstats str len 0 m
  | .daoAck => caseDaoAck netstats str len 0 m

/-! ### The texts -/

/-- The text of an instance. -/
def instanceText (i : RplInstance) : List Char :=
  "\x7b\"id\":".toList ++ (wordText i.id.toUInt16 ++ (",\"mop\":".toList ++
    (wordText i.mop.toUInt16 ++ (",\"ocp\":".toList ++ (wordText i.ocp ++ "\x7d".toList)))))

/-- The last two bytes of the id of a DODAG, as `%02x%02x` shows them. -/
def RplDodag.idText (d : RplDodag) : List Char := byteText d.dodagId[14] ++ byteText d.dodagId[15]

/-- The text of a DODAG. -/
def dagText (i : RplInstance) : List Char :=
  "\x7b\"root\":\":".toList ++ (byteText i.dodag.dodagId[14] ++ (byteText i.dodag.dodagId[15] ++
    ("\", \"inst\":".toList ++ (wordText i.dodag.instanceId.toUInt16 ++
    (", \"rank\":".toList ++ (wordText i.dodag.myRank ++
    (", \"ver\":".toList ++ (wordText i.dodag.version.toUInt16 ++
    (", \"pref\":".toList ++ (wordText i.dodag.prf.toUInt16 ++
    (", \"status\":\"".toList ++ (i.dodag.groundedStr ++ (i.dodag.statusStr ++
    "\"\x7d".toList)))))))))))))

/-- The text of a parent. -/
def parentText (ipv6AddrToStr : Ipv6Addr → List Char) (d : RplDodag) (p : RplParent) :
    List Char :=
  ("\x7b\"dag\":\"".toList ++ (byteText d.dodagId[14] ++ (byteText d.dodagId[15] ++ ['"'])))
    ++ (",\"parent\":\"".toList ++ (ipv6AddrToStr p.addr ++ ("\",\"rank\":".toList ++
      (wordText p.rank ++ "\x7d".toList))))

/-- The text of the parents of an instance, with commas between them. -/
def parentsElementText (ipv6AddrToStr : Ipv6Addr → List Char) (i : RplInstance) : List Char :=
  joinComma (i.dodag.parents.map (parentText ipv6AddrToStr i.dodag))

/-- The text of a record over the table: the elements of the slots in use, with nothing between
them. -/
def sectionText (head : String) (element : RplInstance → List Char) (table : RplTable) :
    List Char :=
  head.toList ++ (table.activeSlots.flatMap element ++ "]\x7d".toList)

/-- The text of the record of `instances`. -/
def instancesText (table : RplTable) : List Char :=
  sectionText ",\x7b\"n\":\"rpl;inst\",\"vj\":[" instanceText table

/-- The text of the record of `dags`. -/
def dagsText (table : RplTable) : List Char :=
  sectionText ",\x7b\"n\":\"rpl;dag\",\"vj\":[" dagText table

/-- The text of the record of `parents`. -/
def parentsText (ipv6AddrToStr : Ipv6Addr → List Char) (table : RplTable) : List Char :=
  sectionText ",\x7b\"n\":\"rpl;parents\",\"vj\":[" (parentsElementText ipv6AddrToStr) table

/-- A `uint32_t` as `%d` shows it: its low word. -/
def longText (x : UInt32) : List Char := wordText x.toUInt16

/-- The text of a record with four counters. -/
def countersText (head : String) (c : RplCounters) : List Char :=
  head.toList ++ (("\x7b\"n\":\"u_rx\",\"u\":\"count\",\"v\":".toList ++ (longText c.rxUcastCount
    ++ "\x7d".toList)) ++ ((",\x7b\"n\":\"u_tx\",\"u\":\"count\",\"v\":".toList ++
    (longText c.txUcastCount ++ "\x7d".toList)) ++
    ((",\x7b\"n\":\"m_rx\",\"u\":\"count\",\"v\":".toList ++ (longText c.rxMcastCount
    ++ "\x7d".toList)) ++ ((",\x7b\"n\":\"m_tx\",\"u\":\"count\",\"v\":".toList ++
    (longText c.txMcastCount ++ "\x7d".toList)) ++ "]\x7d".toList))))

/-- The text of a record of the statistics. -/
def statsText (netstats : RplNetstats) : StatsState → List Char
  | .dio => countersText ",\x7b\"n\":\"rpl;stats;dio\",\"vj\":[" netstats.dio
  | .dis => countersText ",\x7b\"n\":\"rpl;stats;dis\",\"vj\":[" netstats.dis
  | .dao => countersText ",\x7b\"n\":\"rpl;stats;dao\",\"vj\":[" netstats.dao
  | .daoAck => countersText ",\x7b\"n\":\"rpl;stats;dao_ack\",\"vj\":[" netstats.daoAck

/-! ### What the records write -/

theorem appends_separator (first : Bool) :
    Appends (separator first) false (if first then [] else [',']) := by
  cases first with
  | true => exact appends_pure false
  | false => exact (writes_putfmt "," []).appends.seq (appends_pure false)

/-- The loop over the table writes the elements of the slots in use. -/
theorem appends_forActive {body : RplInstance → Record Unit} {text : RplInstance → List Char}
    (h : ∀ i, Appends (body i) () (text i)) (slots : List RplInstance) :
    Appends (forActive body slots) () ((slots.filter RplInstance.active).flatMap text) := by
  induction slots with
  | nil => exact appends_pure ()
  | cons slot slots ih =>
    unfold forActive
    cases h_active : slot.active with
    | false =>
      rw [List.filter_cons_of_neg (by simp [h_active])]
      exact (appends_pure ()).seq ih
    | true =>
      rw [List.filter_cons_of_pos h_active, List.flatMap_cons]
      -- the flag is set, so the separator is empty
      exact ((appends_separator true).seq (h slot)).seq ih

/-- A record over the table. -/
theorem writes_section (head : String) {body : RplInstance → Record Unit}
    {element : RplInstance → List Char} (h : ∀ i, Appends (body i) () (element i))
    (table : RplTable) : Writes (sectionRecord head (forActive body table.slots)) ()
      (sectionText head element table) := by
  apply Writes.putfmt_bind (format_nil _)
  exact (appends_forActive h table.slots).seq (writes_putfmt "]\x7d" []).appends

theorem writes_instances (table : RplTable) :
    Writes (sectionRecord ",\x7b\"n\":\"rpl;inst\",\"vj\":[" (forActive instanceElement
      table.slots)) () (instancesText table) :=
  writes_section _ (fun _ => (writes_putfmt _ _).appends) table

theorem writes_dags (table : RplTable) :
    Writes (sectionRecord ",\x7b\"n\":\"rpl;dag\",\"vj\":[" (forActive dagElement table.slots)) ()
      (dagsText table) :=
  writes_section _ (fun _ => (writes_putfmt _ _).appends) table

section

variable (ipv6AddrToStr : Ipv6Addr → List Char) (d : RplDodag)

theorem appends_parentElement (p : RplParent) :
    Appends (parentElement ipv6AddrToStr d p) () (parentText ipv6AddrToStr d p) :=
  Appends.putfmt_bind rfl (writes_putfmt _ _).appends

/-- The loop over the parents writes them with commas between them, and in front unless the flag
is set. -/
theorem appends_parentsLoop (first : Bool) (ps : List RplParent) :
    Appends (parentsLoop ipv6AddrToStr d first ps) ()
      (if first then joinComma (ps.map (parentText ipv6AddrToStr d))
        else commaTexts (ps.map (parentText ipv6AddrToStr d))) := by
  induction ps generalizing first with
  | nil => cases first <;> exact appends_pure ()
  | cons p ps ih =>
    -- behind the first parent the flag is cleared
    have h_rest := (appends_parentElement ipv6AddrToStr d p).seq (ih false)
    have h := (appends_separator first).bind (f := fun first => do
      parentElement ipv6AddrToStr d p
      parentsLoop ipv6AddrToStr d first ps) h_rest
    cases first with
    | true =>
      rw [List.map_cons, if_pos rfl, joinComma_cons_eq]
      exact h
    | false => exact h

end

theorem writes_parents (ipv6AddrToStr : Ipv6Addr → List Char) (table : RplTable) :
    Writes (sectionRecord ",\x7b\"n\":\"rpl;parents\",\"vj\":["
      (forActive (parentElements ipv6AddrToStr) table.slots)) ()
      (parentsText ipv6AddrToStr table) :=
  writes_section _ (fun i => appends_parentsLoop ipv6AddrToStr i.dodag true i.dodag.parents) table

theorem writes_counters (head : String) (c : RplCounters) :
    Writes (countersRecord head c) () (countersText head c) := by
  apply Writes.putfmt_bind (format_nil _)
  apply Appends.putfmt_bind rfl
  apply Appends.putfmt_bind rfl
  apply Appends.putfmt_bind rfl
  apply Appends.putfmt_bind rfl
  exact (writes_putfmt _ _).appends

/-! ### A node with an instance -/

/-- The link-local address `fe80::n`. -/
def linkLocal (n : UInt8) : Ipv6Addr := #v[0xfe, 0x80, 0, 0, 0, 0, 0, 0, 0, 0, 0, 0, 0, 0, 0, n]

/-- The text of `fe80::1` and of `fe80::2`. -/
def linkLocalText (addr : Ipv6Addr) : List Char :=
  if addr[15] = 1 then "fe80::1".toList else "fe80::2".toList

/-- A slot of the table with a DODAG of its own. -/
def rplSlot (state id : UInt8) (parents : List RplParent) : RplInstance :=
  ⟨state, id, 2, 1, ⟨Vector.replicate 16 0, id, 512, 240, 0, 1, .normal, parents⟩⟩

/-- One instance, whose DODAG has two parents, and a second slot that is not in use. -/
def nodeTable : RplTable :=
  ⟨[rplSlot 1 1 [⟨linkLocal 1, 256⟩, ⟨linkLocal 2, 512⟩], rplSlot 0 0 []], by decide⟩

/-- What such a node has counted. -/
def nodeNetstats : RplNetstats := ⟨⟨0, 2, 31, 12⟩, ⟨0, 0, 1, 3⟩, ⟨0, 9, 0, 0⟩, ⟨9, 0, 0, 0⟩⟩

end AirQuality
