import AirQuality.Framework.JsonComplete
import AirQuality.Publisher.Report
import AirQuality.Store.Handler

/-!
# From the sensor to the database

The node writes a report with `snprintf`, the subscriber reads it with `json.loads` and renames its
keys. Put together, a report that fits its buffer is stored as one record that carries the uptime
and the dust bins the node read (`makereport_stored`): encoding and decoding cancel.

What is lost on the way is the meaning. The record has keys `PM2_5` and `PM10`, but the values
under them are the counts of the bins `DB2_5` and `DB10`, at offsets 22 and 26 of the frame, and
not the mass concentrations at offsets 6 and 12, or 8 and 14 (`stored_concentrations_iff`).
-/

namespace AirQuality

open CMem Json

/-! ### The stored record -/

/-- The record that stores `sec` seconds and the bins `db`. -/
def storedPost (sec : Nat) (db : DustBins) : Post where
  path := "Air quality"
  data := [("Sec".toList, .int sec), ("PM0_3".toList, .int db.db0_3.toNat),
    ("PM0_5".toList, .int db.db0_5.toNat), ("PM1".toList, .int db.db1.toNat),
    ("PM2_5".toList, .int db.db2_5.toNat), ("PM5".toList, .int db.db5.toNat),
    ("PM10".toList, .int db.db10.toNat)]

/-- The values of the preamble, as the handler looks them up. -/
def preambleValues (usec : UInt32) (db : DustBins) : ReportValues Value where
  sec := .int (usec / 1000000).toNat
  db0_3 := .int db.db0_3.toNat
  db0_5 := .int db.db0_5.toNat
  db1 := .int db.db1.toNat
  db2_5 := .int db.db2_5.toNat
  db5 := .int db.db5.toNat
  db10 := .int db.db10.toNat

/-- The keys that the handler looks up are those that the node writes. -/
theorem preambleValues_in (usec : UInt32) (db : DustBins) :
    (preambleValues usec db).In ((preambleEntries usec db).map fun e => (e.key, e.value)) where
  sec := rfl
  db0_3 := rfl
  db0_5 := rfl
  db1 := rfl
  db2_5 := rfl
  db5 := rfl
  db10 := rfl

theorem preambleValues_post (usec : UInt32) (db : DustBins) :
    (preambleValues usec db).post = storedPost (usec.toNat / 10 ^ 6) db := by
  have h_sec : (usec / 1000000).toNat = usec.toNat / 10 ^ 6 := UInt32.toNat_div _ _
  unfold ReportValues.post storedPost preambleValues
  rw [h_sec]

/-- What the handler posts for the text of a report. -/
theorem airQualityData_reportText (usec : UInt32) (db : DustBins) :
    airQualityData .standard (reportText usec db)
      = .ok (storedPost (usec.toNat / 10 ^ 6) db) := by
  rw [← preambleValues_post]
  exact airQualityData_standard_iff.mpr ⟨_, [], preambleValues usec db, reportText_denotes usec db,
    preambleValues_in usec db, rfl⟩

/-- The handler stores the text of a report. -/
theorem handler_reportText (usec : UInt32) (db : DustBins) (database : List Post) :
    airQualityDataHandler (reportText usec db) database
      = .ok (database ++ [storedPost (usec.toNat / 10 ^ 6) db]) :=
  airQualityDataHandler_ok (airQualityData_reportText usec db) database

/-- What `makereport` leaves in a buffer with room for the longest report. -/
theorem read_makereport (usec : UInt32) (db : DustBins) (buffer : Nat) {len : Nat} (m : Mem)
    (h_len : 95 ≤ len) : read (makereport usec db buffer len m).1 buffer
      (makereport usec db buffer len m).2 = reportText usec db := by
  have h_max := length_reportText_le usec db
  rw [makereport_fits usec db buffer m (by omega)]
  exact read_write m buffer _ [nul]

/-! ### Encoding and decoding -/

/-- **Decode after encode is the identity.** For every clock value and all bins, a buffer of at
least 95 characters receives a NUL-terminated JSON array of one object, and the handler posts one
record for it: the uptime in whole seconds and the six bins. -/
theorem makereport_stored (usec : UInt32) (db : DustBins) (buffer len : Nat) (m : Mem)
    (h_len : 95 ≤ len) (database : List Post) :
    let r := makereport usec db buffer len m
    r.2 < len ∧ r.1 (buffer + r.2) = nul ∧
      (∃ kvs, Text (read r.1 buffer r.2) (.arr [.obj kvs])) ∧
      airQualityDataHandler (read r.1 buffer r.2) database
        = .ok (database ++ [storedPost (usec.toNat / 10 ^ 6) db]) := by
  intro r
  have h_max := length_reportText_le usec db
  have h_fits : r = (write m buffer (reportText usec db ++ [nul]), (reportText usec db).length) :=
    makereport_fits usec db buffer m (by omega)
  have h_read : read r.1 buffer r.2 = reportText usec db := read_makereport usec db buffer m h_len
  -- the buffer holds the report and a NUL, and everything else is said of the report
  refine ⟨?_, ?_, ⟨(preambleEntries usec db).map fun e => (e.key, e.value), ?_⟩, ?_⟩
  · rw [h_fits]
    change (reportText usec db).length < len
    omega
  · rw [h_fits]
    exact write_behind m buffer (reportText usec db) nul
  · rw [h_read]
    exact reportText_denotes usec db
  · rw [h_read]
    exact handler_reportText usec db database

/-- The largest values, in the smallest buffer that takes every report. -/
theorem makereport_stored_largest :
    let db : DustBins := ⟨65535, 65535, 65535, 65535, 65535, 65535⟩
    let r := makereport 4294967295 db 0 95 fun _ => 'x'
    r.2 < 95 ∧ r.1 (0 + r.2) = nul ∧ (∃ kvs, Text (read r.1 0 r.2) (.arr [.obj kvs])) ∧
      airQualityDataHandler (read r.1 0 r.2) [] = .ok [storedPost 4294 db] :=
  makereport_stored 4294967295 _ 0 95 _ (by decide) []

/-! ### Buffers of any length -/

/-- `makereport` is all or nothing here: with room for the whole report it returns its length and
leaves exactly the report; without, it returns 0 and leaves the empty string; and a payload that is
not empty can be stored. -/
structure AllOrNothing (usec : UInt32) (db : DustBins) (buffer len : Nat) (m : Mem) : Prop where
  whole : (reportText usec db).length < len →
    (makereport usec db buffer len m).2 = (reportText usec db).length ∧
      read (makereport usec db buffer len m).1 buffer (makereport usec db buffer len m).2
        = reportText usec db ∧
      (makereport usec db buffer len m).1 (buffer + (makereport usec db buffer len m).2) = nul
  nothing : len ≤ (reportText usec db).length →
    (makereport usec db buffer len m).2 = 0 ∧ (makereport usec db buffer len m).1 buffer = nul
  storable : (makereport usec db buffer len m).2 ≠ 0 → ∃ post, ∀ database,
    airQualityDataHandler (read (makereport usec db buffer len m).1 buffer
      (makereport usec db buffer len m).2) database = .ok (database ++ [post])

/-- **When `makereport` is all or nothing.** The record of the preamble is one, but its overflow
comes back as a length of 0, which `RECORD_ADD` accepts. So it is if and only if the buffer has
room for the whole report, or not even for the two brackets. -/
theorem makereport_allOrNothing_iff (usec : UInt32) (db : DustBins) (buffer len : Nat) (m : Mem)
    (h_len : 1 ≤ len) : AllOrNothing usec db buffer len m ↔
      len ≤ 2 ∨ (reportText usec db).length < len := by
  constructor
  · intro h
    by_contra h_between
    -- the two brackets are no empty string
    have h_zero := (h.nothing (by omega)).1
    rw [(makereport_between usec db buffer m (by omega) (by omega)).1] at h_zero
    exact absurd h_zero (by decide)
  · rintro (h_short | h_room)
    · have h_text : 2 ≤ (reportText usec db).length := by simp [reportText]
      obtain ⟨h_zero, h_nul⟩ := makereport_short usec db buffer m h_len h_short
      exact ⟨fun h => by omega, fun _ => ⟨h_zero, h_nul⟩, fun h => absurd h_zero h⟩
    · have h_fits := makereport_fits usec db buffer m h_room
      have h_read : read (makereport usec db buffer len m).1 buffer
          (makereport usec db buffer len m).2 = reportText usec db := by
        rw [h_fits]
        exact read_write m buffer _ [nul]
      refine ⟨fun _ => ⟨by rw [h_fits], h_read, ?_⟩, fun h => by omega, fun _ =>
        ⟨storedPost (usec.toNat / 10 ^ 6) db, fun database => ?_⟩⟩
      · rw [h_fits]
        exact write_behind m buffer (reportText usec db) nul
      · rw [h_read]
        exact handler_reportText usec db database

/-- A buffer for the longest report. -/
theorem makereport_allOrNothing_largest :
    let db : DustBins := ⟨65535, 65535, 65535, 65535, 65535, 65535⟩
    AllOrNothing 4294967295 db 0 95 (fun _ => nul) ↔
      95 ≤ 2 ∨ (reportText 4294967295 db).length < 95 :=
  makereport_allOrNothing_iff 4294967295 _ 0 95 _ (by decide)

/-- With ten characters the report is an empty array, and the handler raises `IndexError`. -/
theorem tenCharacters_empty_array :
    let r := makereport 0 DustBins.zero 0 10 fun _ => nul
    read r.1 0 r.2 = "[]".toList ∧ airQualityDataHandler (read r.1 0 r.2) [] = .error .indexError ∧
      ¬ AllOrNothing 0 DustBins.zero 0 10 fun _ => nul := by
  have h_text : 10 ≤ (reportText 0 DustBins.zero).length := by decide +kernel
  obtain ⟨h_two, h_read⟩ := makereport_between 0 DustBins.zero 0 (fun _ => nul)
    (by decide : 3 ≤ 10) h_text
  intro r
  have h_payload : read r.1 0 r.2 = "[]".toList := by
    change read r.1 0 (makereport 0 DustBins.zero 0 10 fun _ => nul).2 = _
    rw [h_two]
    exact h_read
  refine ⟨h_payload, ?_, fun h => ?_⟩
  · rw [h_payload]
    rfl
  · have h_zero := (h.nothing h_text).1
    rw [h_two] at h_zero
    exact absurd h_zero (by decide)

/-! ### What the stored values mean -/

/-- The handler, fed with the report that follows the frame `frame` in the state `d`, posts one
record, whose value under `"PM2_5"` is one of the frame's two PM2.5 mass concentrations and whose
value under `"PM10"` is one of its two PM10 mass concentrations. -/
def StoresConcentrations (frame : Frame) (d : Pms) (usec : UInt32) (buffer len : Nat) (m : Mem)
    (database : List Post) : Prop :=
  let d := (pmsframe frame d).1
  let r := makereport usec (getBins d) buffer len m
  ∃ p, airQualityDataHandler (read r.1 buffer r.2) database = .ok (database ++ [p]) ∧
    (∃ x, dictGet p.data "PM2_5" = some (.int x) ∧
      (x = (pms5003Pm2_5 d).toNat ∨ x = (pms5003Pm2_5Atm d).toNat)) ∧
    (∃ x, dictGet p.data "PM10" = some (.int x) ∧
      (x = (pms5003Pm10 d).toNat ∨ x = (pms5003Pm10Atm d).toNat))

/-- The report after an accepted frame with bins stores these bins. -/
theorem stored_after_frame {frame : Frame} (h_valid : checkPmsframe frame = true)
    (h_size : frameLen frame = 28) (d : Pms) (usec : UInt32) (buffer : Nat) {len : Nat}
    (h_len : 95 ≤ len) (m : Mem) (database : List Post) :
    airQualityDataHandler
        (read (makereport usec (getBins (pmsframe frame d).1) buffer len m).1 buffer
          (makereport usec (getBins (pmsframe frame d).1) buffer len m).2) database
      = .ok (database ++ [storedPost (usec.toNat / 10 ^ 6) (frameBins frame)]) := by
  have h_bins : getBins (pmsframe frame d).1 = frameBins frame := by
    rw [pmsframe_valid h_valid, if_pos h_size]
    rfl
  -- the next report shows the bins of this very frame
  rw [read_makereport usec _ buffer m h_len, h_bins]
  exact handler_reportText usec _ database

theorem dictGet_storedPost_pm2_5 (sec : Nat) (db : DustBins) :
    dictGet (storedPost sec db).data "PM2_5" = some (.int db.db2_5.toNat) := rfl

theorem dictGet_storedPost_pm10 (sec : Nat) (db : DustBins) :
    dictGet (storedPost sec db).data "PM10" = some (.int db.db10.toNat) := rfl

/-- The stored values are the frame's bins, so they are its concentrations if these are equal. -/
theorem storesConcentrations_iff_readings {frame : Frame} (h_valid : checkPmsframe frame = true)
    (h_size : frameLen frame = 28) (d : Pms) (usec : UInt32) (buffer : Nat) {len : Nat}
    (h_len : 95 ≤ len) (m : Mem) (database : List Post) :
    StoresConcentrations frame d usec buffer len m database ↔
      ((frameBins frame).db2_5 = (frameConcentrations frame).pm2_5 ∨
        (frameBins frame).db2_5 = (frameConcentrations frame).pm2_5Atm) ∧
      ((frameBins frame).db10 = (frameConcentrations frame).pm10 ∨
        (frameBins frame).db10 = (frameConcentrations frame).pm10Atm) := by
  have h_post := stored_after_frame h_valid h_size d usec buffer h_len m database
  have h_pm : (pmsframe frame d).1.readings.pm = frameConcentrations frame := by
    rw [pmsframe_valid h_valid]
  have h_word : ∀ v w : UInt16, (v.toNat : Int) = w.toNat ↔ v = w := by
    intro v w
    rw [Int.natCast_inj, UInt16.toNat_inj]
  unfold StoresConcentrations
  simp only [h_post, pms5003Pm2_5, pms5003Pm2_5Atm, pms5003Pm10, pms5003Pm10Atm, h_pm]
  constructor
  · rintro ⟨p, h_eq, ⟨x, h_x, hx⟩, ⟨y, h_y, hy⟩⟩
    -- the one record posted is that of the frame's bins
    obtain rfl : storedPost (usec.toNat / 10 ^ 6) (frameBins frame) = p := by
      simpa using h_eq
    rw [dictGet_storedPost_pm2_5] at h_x
    rw [dictGet_storedPost_pm10] at h_y
    obtain rfl : ((frameBins frame).db2_5.toNat : Int) = x := by simpa using h_x
    obtain rfl : ((frameBins frame).db10.toNat : Int) = y := by simpa using h_y
    simp only [h_word] at hx hy
    exact ⟨hx, hy⟩
  · rintro ⟨hx, hy⟩
    refine ⟨_, rfl, ⟨_, dictGet_storedPost_pm2_5 _ _, ?_⟩, ⟨_, dictGet_storedPost_pm10 _ _, ?_⟩⟩
    · simp only [h_word]
      exact hx
    · simp only [h_word]
      exact hy

/-- **When the database means what its keys say.** After an accepted frame with bins, the record
stored for the next report has the frame's PM2.5 and PM10 mass concentrations under `"PM2_5"` and
`"PM10"` if and only if the words of the bins `DB2_5` and `DB10` happen to equal them. -/
theorem stored_concentrations_iff {frame : Frame} (h_valid : checkPmsframe frame = true)
    (h_size : frameLen frame = 28) (d : Pms) (usec : UInt32) (buffer : Nat) {len : Nat}
    (h_len : 95 ≤ len) (m : Mem) (database : List Post) :
    StoresConcentrations frame d usec buffer len m database ↔
      (word frame 22 = word frame 6 ∨ word frame 22 = word frame 12) ∧
        (word frame 26 = word frame 8 ∨ word frame 26 = word frame 14) :=
  storesConcentrations_iff_readings h_valid h_size d usec buffer h_len m database

theorem stored_concentrations_cleanAir :
    StoresConcentrations cleanAirFrame Pms.boot 0 0 95 (fun _ => nul) [] ↔
      (word cleanAirFrame 22 = word cleanAirFrame 6 ∨
          word cleanAirFrame 22 = word cleanAirFrame 12) ∧
        (word cleanAirFrame 26 = word cleanAirFrame 8 ∨
          word cleanAirFrame 26 = word cleanAirFrame 14) :=
  stored_concentrations_iff cleanAirFrame_valid cleanAirFrame_len Pms.boot 0 0 (by decide) _ []

/-- In clean air the nine particles of a bin are stored as PM2.5, which is 12 micrograms. -/
theorem cleanAir_not_stored :
    ¬ StoresConcentrations cleanAirFrame Pms.boot 0 0 95 (fun _ => nul) [] := by
  rw [storesConcentrations_iff_readings cleanAirFrame_valid cleanAirFrame_len Pms.boot 0 0
    (by decide) _ []]
  decide +kernel

end AirQuality
