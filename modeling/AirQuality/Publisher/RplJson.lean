import AirQuality.Framework.JsonSound
import AirQuality.Publisher.RecordJson
import AirQuality.Publisher.Report
import AirQuality.Publisher.Rpl

/-!
# The RPL records as JSON

What the records of `instances`, `dags` and `parents` denote. Each element is a well-formed object
of its own (`instanceText_denotes` and its siblings); in question is what stands between the
elements. The loops over the table separate the elements of one slot, never those of two slots, so
a record is a sequence in groups, one group per slot in use (`isSection_groups`,
`refused_namedText`).

Every slot in use has one element in the first two records, so the records are well formed for the
tables with at most one slot in use, and for no others (`tableRecords_json_iff`).
-/

namespace AirQuality

open CMem Printf Json

/-! ### The elements -/

theorem RplDodag.idText_plain (d : RplDodag) : Plain d.idText := by
  intro c hc
  exact (List.mem_append.mp hc).elim (byteText_plain _ c) (byteText_plain _ c)

/-- The two flags of a DODAG. -/
def RplDodag.flags (d : RplDodag) : List Char := d.groundedStr ++ d.statusStr

theorem RplDodag.flags_plain (d : RplDodag) : Plain d.flags := by
  unfold flags groundedStr statusStr
  split <;> split <;> decide

/-- The members of an instance. -/
def instanceEntries (i : RplInstance) : List Entry := [
  wordEntry [] "id".toList i.id.toUInt16 Ws.nil (by decide),
  wordEntry [] "mop".toList i.mop.toUInt16 Ws.nil (by decide),
  wordEntry [] "ocp".toList i.ocp Ws.nil (by decide)]

/-- The members of a DODAG. -/
def dagEntries (i : RplInstance) : List Entry := [
  strEntry [] "root".toList (':' :: i.dodag.idText) Ws.nil (by decide)
    (List.forall_mem_cons.mpr ⟨by decide, i.dodag.idText_plain⟩),
  wordEntry [' '] "inst".toList i.dodag.instanceId.toUInt16 ws_blank (by decide),
  wordEntry [' '] "rank".toList i.dodag.myRank ws_blank (by decide),
  wordEntry [' '] "ver".toList i.dodag.version.toUInt16 ws_blank (by decide),
  wordEntry [' '] "pref".toList i.dodag.prf.toUInt16 ws_blank (by decide),
  strEntry [' '] "status".toList i.dodag.flags ws_blank (by decide) i.dodag.flags_plain]

/-- The members of a parent. -/
def parentEntries (addrText : List Char) (h_addr : Plain addrText)
    (d : RplDodag) (p : RplParent) : List Entry := [
  strEntry [] "dag".toList d.idText Ws.nil (by decide) d.idText_plain,
  strEntry [] "parent".toList addrText Ws.nil (by decide) h_addr,
  wordEntry [] "rank".toList p.rank Ws.nil (by decide)]

/-- What the element of an instance denotes. -/
def instanceValue (i : RplInstance) : Value := .obj [
  ("id".toList, wordValue i.id.toUInt16), ("mop".toList, wordValue i.mop.toUInt16),
  ("ocp".toList, wordValue i.ocp)]

/-- What the element of a DODAG denotes. -/
def dagValue (i : RplInstance) : Value := .obj [
  ("root".toList, .str (':' :: i.dodag.idText)),
  ("inst".toList, wordValue i.dodag.instanceId.toUInt16), ("rank".toList, wordValue i.dodag.myRank),
  ("ver".toList, wordValue i.dodag.version.toUInt16),
  ("pref".toList, wordValue i.dodag.prf.toUInt16), ("status".toList, .str i.dodag.flags)]

/-- What the element of a parent denotes. -/
def parentValue (ipv6AddrToStr : Ipv6Addr → List Char) (d : RplDodag) (p : RplParent) : Value :=
  .obj [
    ("dag".toList, .str d.idText), ("parent".toList, .str (ipv6AddrToStr p.addr)),
    ("rank".toList, wordValue p.rank)]

theorem instanceText_denotes (i : RplInstance) :
    Denotes (instanceText i) (instanceValue i) := by
  have h_text : instanceText i
      = '\x7b' :: (joinComma ((instanceEntries i).map Entry.chars) ++ ['\x7d']) := by
    simp only [instanceEntries, List.map_cons, List.map_nil, wordEntry_chars, joinComma,
      List.nil_append, List.append_assoc, List.cons_append]
    rfl
  rw [h_text]
  exact denotes_obj (by simp [instanceEntries])

theorem dagText_denotes (i : RplInstance) :
    Denotes (dagText i) (dagValue i) := by
  have h_text : dagText i
      = '\x7b' :: (joinComma ((dagEntries i).map Entry.chars) ++ ['\x7d']) := by
    simp only [dagEntries, List.map_cons, List.map_nil, wordEntry_chars, strEntry_chars, joinComma,
      RplDodag.idText, RplDodag.flags, List.nil_append, List.append_assoc, List.cons_append]
    rfl
  rw [h_text]
  exact denotes_obj (by simp [dagEntries])

section

variable (ipv6AddrToStr : Ipv6Addr → List Char)

/-- The addresses as `ipv6_addr_to_str` writes them: hexadecimal digits and colons, and dots in an
embedded IPv4 address. -/
def AddrChars : Prop := ∀ a, (ipv6AddrToStr a).all ("0123456789abcdef:.".toList.contains ·) = true

variable {ipv6AddrToStr}

theorem AddrChars.plain (h : AddrChars ipv6AddrToStr) (a : Ipv6Addr) : Plain (ipv6AddrToStr a) := by
  have h_plain : Plain "0123456789abcdef:.".toList := by decide
  intro c hc
  exact h_plain c (List.contains_iff_mem.mp (List.all_eq_true.mp (h a) c hc))

theorem linkLocalText_addrChars : AddrChars linkLocalText := by
  intro a
  unfold linkLocalText
  split <;> decide

theorem parentText_denotes (h : AddrChars ipv6AddrToStr) (d : RplDodag) (p : RplParent) :
    Denotes (parentText ipv6AddrToStr d p) (parentValue ipv6AddrToStr d p) := by
  have h_text : parentText ipv6AddrToStr d p = '\x7b' :: (joinComma
      ((parentEntries (ipv6AddrToStr p.addr) (h.plain p.addr) d p).map Entry.chars) ++
      ['\x7d']) := by
    unfold parentText
    rw [List.append_assoc, List.append_assoc, List.append_assoc]
    conv_rhs => simp only [parentEntries, List.map_cons, List.map_nil, wordEntry_chars,
      strEntry_chars, joinComma, RplDodag.idText, List.nil_append, List.append_assoc,
      List.cons_append]
    rfl
  rw [h_text]
  exact denotes_obj (by simp [parentEntries])

end

/-! ### The three functions -/

/-- The records over the table. -/
inductive TableRecord where
  | inst
  | dag
  | parents
  deriving DecidableEq

/-- The name of a record. -/
def TableRecord.name : TableRecord → List Char
  | .inst => "rpl;inst".toList
  | .dag => "rpl;dag".toList
  | .parents => "rpl;parents".toList

section

variable (ipv6AddrToStr : Ipv6Addr → List Char) (table : RplTable)

/-- The function that writes a record. -/
def TableRecord.write : TableRecord → Nat → Nat → Mem → Mem × Nat
  | .inst => instances table
  | .dag => dags table
  | .parents => AirQuality.parents ipv6AddrToStr table

/-- The text of a record. -/
def TableRecord.text : TableRecord → List Char
  | .inst => instancesText table
  | .dag => dagsText table
  | .parents => parentsText ipv6AddrToStr table

/-- The elements that a record should have: one for each instance in use, or one for each parent of
such an instance, in the order of the table and of the lists of parents. -/
def TableRecord.elements : TableRecord → List Value
  | .inst => table.activeSlots.map instanceValue
  | .dag => table.activeSlots.map dagValue
  | .parents => table.activeSlots.flatMap fun i =>
      i.dodag.parents.map (parentValue ipv6AddrToStr i.dodag)

/-- A call of one of the three functions with a destination. -/
structure TableCall where
  record : TableRecord
  str : Nat
  len : Nat
  mem : Mem

/-- The buffer is large enough for the record. -/
def TableCall.Fits (c : TableCall) : Prop := (c.record.text ipv6AddrToStr table).length < c.len

/-- What the call leaves in its destination. -/
def TableCall.written (c : TableCall) : List Char :=
  let r := c.record.write ipv6AddrToStr table c.str c.len c.mem
  read r.1 c.str r.2

/-- A call with a large enough buffer leaves the text of its record. -/
theorem TableCall.written_eq (c : TableCall) (h : c.Fits ipv6AddrToStr table) :
    c.written ipv6AddrToStr table = c.record.text ipv6AddrToStr table := by
  obtain ⟨record, str, len, m⟩ := c
  have h_fits : (record.text ipv6AddrToStr table).length < len := h
  have h_write : record.write ipv6AddrToStr table str len m
      = (CMem.write m str (record.text ipv6AddrToStr table ++ [nul]),
        (record.text ipv6AddrToStr table).length) := by
    cases record
    case inst => exact (writes_instances table).recordFunction_fits str m h_fits
    case dag => exact (writes_dags table).recordFunction_fits str m h_fits
    case parents => exact (writes_parents ipv6AddrToStr table).recordFunction_fits str m h_fits
  change read (record.write ipv6AddrToStr table str len m).1 str
    (record.write ipv6AddrToStr table str len m).2 = _
  rw [h_write, read_write]

end

/-! ### When the records are well formed -/

section

variable {ipv6AddrToStr : Ipv6Addr → List Char} {table : RplTable}

/-- The slots in use, each a group of its own. -/
def RplTable.slotGroups (table : RplTable) : List (List RplInstance) :=
  table.activeSlots.map fun i => [i]

/-- The parents of the slots in use, one group for each slot. -/
def RplTable.parentGroups (table : RplTable) : List (List (RplDodag × RplParent)) :=
  table.activeSlots.map fun i => i.dodag.parents.map fun p => (i.dodag, p)

theorem nonemptyGroups_slotGroups (table : RplTable) :
    nonemptyGroups table.slotGroups = table.activeSlots.length := by
  simp [nonemptyGroups, RplTable.slotGroups, List.countP_map]

theorem nonemptyGroups_parentGroups_le (table : RplTable) :
    nonemptyGroups table.parentGroups ≤ table.activeSlots.length := by
  have h_le : nonemptyGroups table.parentGroups ≤ table.parentGroups.length := List.countP_le_length
  rwa [RplTable.parentGroups, List.length_map] at h_le

theorem flatten_slotGroups (table : RplTable) : table.slotGroups.flatten = table.activeSlots := by
  rw [RplTable.slotGroups, ← List.flatMap_def]
  exact List.flatMap_singleton' _

theorem instancesText_eq (table : RplTable) : instancesText table
    = namedText TableRecord.inst.name (groupsText instanceText table.slotGroups) := by
  unfold groupsText RplTable.slotGroups
  rw [List.flatMap_map]
  rfl

theorem dagsText_eq (table : RplTable) : dagsText table
    = namedText TableRecord.dag.name (groupsText dagText table.slotGroups) := by
  unfold groupsText RplTable.slotGroups
  rw [List.flatMap_map]
  rfl

theorem parentsText_eq (ipv6AddrToStr : Ipv6Addr → List Char) (table : RplTable) :
    parentsText ipv6AddrToStr table = namedText TableRecord.parents.name
      (groupsText (fun p => parentText ipv6AddrToStr p.1 p.2) table.parentGroups) := by
  unfold groupsText RplTable.parentGroups
  rw [List.flatMap_map]
  simp only [List.map_map]
  rfl

theorem TableRecord.name_plain (k : TableRecord) : Plain k.name := by
  cases k <;> decide

/-- With at most one slot in use the records are sections with the elements that they should
have. -/
theorem TableRecord.isSection (h_addr : AddrChars ipv6AddrToStr)
    (h : table.activeSlots.length ≤ 1) (k : TableRecord) :
    IsSection (k.text ipv6AddrToStr table) k.name (k.elements ipv6AddrToStr table) := by
  have h_slots : nonemptyGroups table.slotGroups ≤ 1 := by rwa [nonemptyGroups_slotGroups]
  have h_parents : nonemptyGroups table.parentGroups ≤ 1 :=
    Nat.le_trans (nonemptyGroups_parentGroups_le table) h
  cases k
  case inst =>
    have h_section := isSection_groups instanceText instanceValue instanceText_denotes
      TableRecord.inst.name_plain h_slots
    rwa [flatten_slotGroups, ← instancesText_eq] at h_section
  case dag =>
    have h_section := isSection_groups dagText dagValue dagText_denotes
      TableRecord.dag.name_plain h_slots
    rwa [flatten_slotGroups, ← dagsText_eq] at h_section
  case parents =>
    have h_section := isSection_groups
      (fun p : RplDodag × RplParent => parentText ipv6AddrToStr p.1 p.2)
      (fun p => parentValue ipv6AddrToStr p.1 p.2) (fun p => parentText_denotes h_addr p.1 p.2)
      TableRecord.parents.name_plain h_parents
    -- each parent stands beside the DODAG whose id it shows
    have h_flatten : table.parentGroups.flatten.map (fun p => parentValue ipv6AddrToStr p.1 p.2)
        = TableRecord.parents.elements ipv6AddrToStr table := by
      unfold RplTable.parentGroups TableRecord.elements
      rw [← List.flatMap_def, List.map_flatMap]
      simp only [List.map_map]
      rfl
    rwa [← parentsText_eq, h_flatten] at h_section

/-- With two slots in use the record of the instances cannot be read. -/
theorem refused_instancesText (h : 1 < table.activeSlots.length) :
    ∃ t u, Refused ('\x7b' :: t) ∧ instancesText table = ',' :: '\x7b' :: (t ++ u) := by
  rw [instancesText_eq]
  refine refused_namedText instanceText instanceValue instanceText_denotes (fun i => ?_)
    TableRecord.inst.name_plain ?_
  · exact ⟨_, rfl⟩
  · rwa [nonemptyGroups_slotGroups]

/-- So it is no section. -/
theorem not_isSection_instancesText (h : 1 < table.activeSlots.length) {name : List Char}
    {vs : List Value} : ¬ IsSection (instancesText table) name vs := by
  rintro ⟨t, h_text, h_t⟩
  obtain ⟨u, v, h_refused, h_inst⟩ := refused_instancesText h
  rw [h_inst] at h_text
  exact h_refused.not_denotes ⟨v, (List.cons.inj h_text).2⟩ h_t

/-- **When the records are well formed.** Every record that `instances`, `dags` and `parents` write
into a large enough buffer is a comma and an object whose `"vj"` has the elements it should have,
and every report made of a preamble and such records is well formed, if and only if at most one slot
of the table is in use. -/
theorem tableRecords_json_iff (ipv6AddrToStr : Ipv6Addr → List Char)
    (h_addr : AddrChars ipv6AddrToStr) (table : RplTable) :
    ((∀ c : TableCall, c.Fits ipv6AddrToStr table → IsSection (c.written ipv6AddrToStr table)
        c.record.name (c.record.elements ipv6AddrToStr table)) ∧
      ∀ (usec : UInt32) (db : DustBins) (cs : List TableCall),
        (∀ c ∈ cs, c.Fits ipv6AddrToStr table) → WellFormed ('[' :: (preambleText usec db ++
          ((cs.map fun c => c.written ipv6AddrToStr table).flatten ++ [']']))))
    ↔ table.activeSlots.length ≤ 1 := by
  constructor
  · rintro ⟨h_section, -⟩
    by_contra h
    -- a call of `instances` with a buffer that is large enough
    let c : TableCall := ⟨.inst, 0, (instancesText table).length + 1, fun _ => nul⟩
    have h_fits : c.Fits ipv6AddrToStr table := Nat.lt_succ_self _
    have h_inst := h_section c h_fits
    rw [c.written_eq ipv6AddrToStr table h_fits] at h_inst
    exact not_isSection_instancesText (by omega) h_inst
  · intro h
    have h_section : ∀ c : TableCall, c.Fits ipv6AddrToStr table → IsSection
        (c.written ipv6AddrToStr table) c.record.name (c.record.elements ipv6AddrToStr table) := by
      intro c h_fits
      rw [c.written_eq ipv6AddrToStr table h_fits]
      exact c.record.isSection h_addr h
    refine ⟨h_section, fun usec db cs h_fits => ?_⟩
    refine wellFormed_arr_commas (preambleText_denotes usec db) fun r hr => ?_
    obtain ⟨c, hc, rfl⟩ := List.mem_map.mp hr
    obtain ⟨t, h_text, h_t⟩ := h_section c (h_fits c hc)
    exact ⟨t, _, h_text, h_t⟩

end

/-- A node with one instance, whose DODAG has two parents, and a second slot that is not in use. -/
theorem tableRecords_json_iff_node :
    ((∀ c : TableCall, c.Fits linkLocalText nodeTable →
        IsSection (c.written linkLocalText nodeTable) c.record.name
          (c.record.elements linkLocalText nodeTable)) ∧
      ∀ (usec : UInt32) (db : DustBins) (cs : List TableCall),
        (∀ c ∈ cs, c.Fits linkLocalText nodeTable) → WellFormed ('[' :: (preambleText usec db ++
          ((cs.map fun c => c.written linkLocalText nodeTable).flatten ++ [']']))))
    ↔ nodeTable.activeSlots.length ≤ 1 :=
  tableRecords_json_iff _ linkLocalText_addrChars _

/-- A node with two instances: nothing stands between their elements, so the record is no section
and a report with it is no JSON text. -/
theorem twoInstances_malformed :
    let table : RplTable := ⟨[rplSlot 1 1 [], rplSlot 1 2 []], by decide⟩
    let c : TableCall := ⟨.inst, 0, 100, fun _ => nul⟩
    c.Fits linkLocalText table ∧
      c.written linkLocalText table = (",\x7b\"n\":\"rpl;inst\",\"vj\":[" ++
        "\x7b\"id\":1,\"mop\":2,\"ocp\":1\x7d\x7b\"id\":2,\"mop\":2,\"ocp\":1\x7d]\x7d").toList ∧
      ¬ IsSection (c.written linkLocalText table) c.record.name
        (c.record.elements linkLocalText table) ∧
      ¬ WellFormed ('[' :: (preambleText 0 ⟨0, 0, 0, 0, 0, 0⟩ ++
        (c.written linkLocalText table ++ [']']))) := by
  intro table c
  have h_fits : c.Fits linkLocalText table := by
    change (instancesText table).length < 100
    decide +kernel
  have h_written : c.written linkLocalText table = instancesText table :=
    c.written_eq linkLocalText table h_fits
  refine ⟨h_fits, ?_, ?_, ?_⟩ <;> rw [h_written]
  · decide +kernel
  · exact not_isSection_instancesText (by decide)
  · rw [wellFormed_iff]
    decide +kernel

end AirQuality
