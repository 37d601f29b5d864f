import AirQuality.Publisher.Report

/-!
# Reports built while frames arrive

The sensor thread has a higher priority than the publisher thread, and nothing locks the readings:
while `preamble` evaluates its six arguments, one getter at a time and in an order the compiler
chooses, frames may be processed in between. A schedule is a list of such steps, each of them
atomic.

Each value in the report is that of the last frame with bins before its own getter
(`args_of_get`), so the six agree when no such frame runs between the first and the last getter
(`args_of_quiet`); otherwise the report can mix two frames.
-/

namespace AirQuality

open Machine

/-! ### Schedules -/

/-- The six getters that `preamble` calls. -/
inductive Bin where
  | db0_3
  | db0_5
  | db1
  | db2_5
  | db5
  | db10
  deriving DecidableEq

/-- All six. -/
def Bin.all : List Bin := [.db0_3, .db0_5, .db1, .db2_5, .db5, .db10]

/-- Evaluate a getter. -/
def Bin.get (d : Pms) : Bin → UInt16
  | .db0_3 => pms5003Db0_3 d
  | .db0_5 => pms5003Db0_5 d
  | .db1 => pms5003Db1 d
  | .db2_5 => pms5003Db2_5 d
  | .db5 => pms5003Db5 d
  | .db10 => pms5003Db10 d

/-- The value of one bin. -/
def DustBins.bin (db : DustBins) : Bin → UInt16
  | .db0_3 => db.db0_3
  | .db0_5 => db.db0_5
  | .db1 => db.db1
  | .db2_5 => db.db2_5
  | .db5 => db.db5
  | .db10 => db.db10

/-- Set the value of one bin. -/
def DustBins.set (db : DustBins) (b : Bin) (x : UInt16) : DustBins :=
  match b with
  | .db0_3 => { db with db0_3 := x }
  | .db0_5 => { db with db0_5 := x }
  | .db1 => { db with db1 := x }
  | .db2_5 => { db with db2_5 := x }
  | .db5 => { db with db5 := x }
  | .db10 => { db with db10 := x }

theorem DustBins.bin_set_self (db : DustBins) (b : Bin) (x : UInt16) :
    (db.set b x).bin b = x := by cases b <;> rfl

theorem DustBins.bin_set_of_ne (db : DustBins) {b c : Bin} (h : b ≠ c) (x : UInt16) :
    (db.set b x).bin c = db.bin c := by
  cases b <;> cases c <;> first | rfl | exact absurd rfl h

theorem DustBins.eq_of_bin {db db' : DustBins} (h : ∀ b, db.bin b = db'.bin b) : db = db' := by
  ext
  · exact congrArg _ (h .db0_3)
  · exact congrArg _ (h .db0_5)
  · exact congrArg _ (h .db1)
  · exact congrArg _ (h .db2_5)
  · exact congrArg _ (h .db5)
  · exact congrArg _ (h .db10)

theorem Bin.get_eq (d : Pms) (b : Bin) : b.get d = d.readings.db.bin b := by cases b <;> rfl

theorem Bin.mem_all (b : Bin) : b ∈ Bin.all := by cases b <;> decide

/-- One atomic step: the sensor thread processes a frame, or the publisher thread evaluates the
getter of one argument. -/
inductive ReadStep where
  | pmsframe (buf : Frame)
  | get (b : Bin)

/-- The driver, and the arguments of `preamble` evaluated so far. -/
structure ArgState where
  pms : Pms
  args : DustBins

/-- One step. -/
def readStep (s : ArgState) : ReadStep → ArgState
  | .pmsframe buf => { s with pms := (pmsframe buf s.pms).1 }
  | .get b => { s with args := s.args.set b (b.get s.pms) }

/-- The arguments that `preamble` is called with after the steps `es`, counted from boot. -/
def preambleArgs (es : List ReadStep) : DustBins :=
  (run readStep ⟨Pms.boot, DustBins.zero⟩ es).args

/-- The frames processed in a schedule. -/
def framesOf (es : List ReadStep) : List Frame :=
  es.filterMap fun e => match e with
    | .pmsframe buf => some buf
    | .get _ => none

/-- The getters evaluated in a schedule, in order. -/
def gettersOf (es : List ReadStep) : List Bin :=
  es.filterMap fun e => match e with
    | .pmsframe _ => none
    | .get b => some b

theorem framesOf_append (es fs : List ReadStep) :
    framesOf (es ++ fs) = framesOf es ++ framesOf fs := List.filterMap_append

theorem gettersOf_append (es fs : List ReadStep) :
    gettersOf (es ++ fs) = gettersOf es ++ gettersOf fs := List.filterMap_append

/-- A getter that is evaluated in a schedule is evaluated somewhere in it. -/
theorem mem_gettersOf {b : Bin} {es : List ReadStep} (h : b ∈ gettersOf es) :
    ∃ pre post, es = pre ++ .get b :: post := by
  obtain ⟨e, he, h_eq⟩ := List.mem_filterMap.mp h
  obtain ⟨pre, post, rfl⟩ := List.append_of_mem he
  cases e with
  | pmsframe buf => exact absurd h_eq (by simp)
  | get c =>
    obtain rfl : c = b := by simpa using h_eq
    exact ⟨pre, post, rfl⟩

/-! ### What the getters return -/

/-- After any schedule the bins are those of the last frame that reported some. -/
theorem bins_run (es : List ReadStep) :
    (run readStep ⟨Pms.boot, DustBins.zero⟩ es).pms.readings.db
      = lastOf reportedBins DustBins.zero (framesOf es) := by
  refine run_history (P := fun es (s : ArgState) =>
    s.pms.readings.db = lastOf reportedBins DustBins.zero (framesOf es)) rfl ?_ es
  intro es e s h
  rw [framesOf_append]
  cases e with
  | pmsframe buf =>
    -- a frame: the bins are those it reports, else as before
    change (pmsframe buf s.pms).1.readings.db = lastOf _ _ (framesOf es ++ [buf])
    rw [lastOf_concat, pmsframe_db, h]
  | get b =>
    -- a getter changes nothing in the driver
    change s.pms.readings.db = lastOf _ _ (framesOf es ++ [])
    rw [List.append_nil, h]

/-- An argument keeps its value while other getters are evaluated. -/
theorem args_run_of_not_mem {b : Bin} (s : ArgState) {es : List ReadStep}
    (h : b ∉ gettersOf es) : (run readStep s es).args.bin b = s.args.bin b := by
  induction es generalizing s with
  | nil => rfl
  | cons e es ih =>
    rw [run_cons]
    cases e with
    | pmsframe buf => exact ih _ h
    | get c =>
      -- `c` is another getter
      change b ∉ c :: gettersOf es at h
      rw [List.mem_cons, not_or] at h
      rw [ih _ h.2]
      exact DustBins.bin_set_of_ne _ (Ne.symm h.1) _

/-- **Each value comes from the last frame with bins before its own getter.** -/
theorem args_of_get {b : Bin} {pre post : List ReadStep} (h : b ∉ gettersOf post) :
    (preambleArgs (pre ++ .get b :: post)).bin b
      = (lastOf reportedBins DustBins.zero (framesOf pre)).bin b := by
  let s := run readStep ⟨Pms.boot, DustBins.zero⟩ pre
  calc (preambleArgs (pre ++ .get b :: post)).bin b
      = (run readStep (readStep s (.get b)) post).args.bin b := by
        rw [preambleArgs, run_append, run_cons]
    _ = (readStep s (.get b)).args.bin b :=
        -- the getter is not evaluated again, so its argument keeps the value it got
        args_run_of_not_mem _ h
    _ = s.pms.readings.db.bin b := by
        change (s.args.set b (b.get s.pms)).bin b = _
        rw [DustBins.bin_set_self, Bin.get_eq]
    _ = (lastOf reportedBins DustBins.zero (framesOf pre)).bin b := by
        rw [bins_run]

/-- In an evaluation of all six getters, none is evaluated twice. -/
theorem not_mem_gettersOf_post {b : Bin} {pre post : List ReadStep}
    (h : (gettersOf (pre ++ .get b :: post)).Perm Bin.all) : b ∉ gettersOf post := by
  have h_nodup : (gettersOf (pre ++ .get b :: post)).Nodup := h.nodup_iff.mpr (by decide)
  rw [gettersOf_append] at h_nodup
  exact (List.nodup_cons.mp (List.nodup_append.mp h_nodup).2.1).1

/-- **Without a frame in between, the values agree**: they are the bins that were there when the
first getter was evaluated. -/
theorem args_of_quiet {pre mid post : List ReadStep}
    (h_all : (gettersOf (pre ++ mid ++ post)).Perm Bin.all) (h_pre : gettersOf pre = [])
    (h_post : gettersOf post = []) (h_quiet : ∀ buf ∈ framesOf mid, reportedBins buf = none) :
    preambleArgs (pre ++ mid ++ post) = lastOf reportedBins DustBins.zero (framesOf pre) := by
  refine DustBins.eq_of_bin fun b => ?_
  -- all six getters are in the middle
  have h_mem : b ∈ gettersOf mid := by
    have h := h_all.mem_iff.mpr (Bin.mem_all b)
    rwa [gettersOf_append, gettersOf_append, h_pre, h_post, List.nil_append,
      List.append_nil] at h
  -- split there at the getter of `b`
  obtain ⟨us, vs, rfl⟩ := mem_gettersOf h_mem
  have h_split : pre ++ (us ++ .get b :: vs) ++ post = (pre ++ us) ++ .get b :: (vs ++ post) := by
    simp
  rw [h_split] at h_all ⊢
  rw [args_of_get (not_mem_gettersOf_post h_all), framesOf_append, lastOf_append]
  -- the frames between the first getter and this one report no bins
  have h_us : ∀ buf ∈ framesOf us, reportedBins buf = none := by
    intro buf h_buf
    refine h_quiet buf ?_
    rw [framesOf_append]
    exact List.mem_append_left _ h_buf
  rw [lastOf_of_none h_us]

/-- All six values are the initial zeros, or those of one accepted frame of the schedule. -/
def FromOneFrame (es : List ReadStep) : Prop :=
  preambleArgs es = DustBins.zero ∨
    ∃ buf ∈ framesOf es, checkPmsframe buf = true ∧ preambleArgs es = frameBins buf

instance (es : List ReadStep) : Decidable (FromOneFrame es) :=
  inferInstanceAs (Decidable (_ ∨ _))

/-- **Which frames a report shows.** In every schedule of the six getters and any frames, each
value is that of the last accepted frame of length 28 before its own getter, zero if there was
none; and all six come from one frame, or are the initial zeros, if no accepted frame of length 28
runs between the first and the last getter. -/
theorem preambleArgs_frames (es : List ReadStep) (h_all : (gettersOf es).Perm Bin.all) :
    (∀ b pre post, es = pre ++ .get b :: post → (preambleArgs es).bin b
        = (lastOf reportedBins DustBins.zero (framesOf pre)).bin b) ∧
      (∀ pre mid post, es = pre ++ mid ++ post → gettersOf pre = [] → gettersOf post = [] →
        (∀ buf ∈ framesOf mid, ¬ (checkPmsframe buf = true ∧ frameLen buf = 28)) →
        FromOneFrame es) := by
  constructor
  · rintro b pre post rfl
    exact args_of_get (not_mem_gettersOf_post h_all)
  · rintro pre mid post rfl h_pre h_post h_quiet
    have h_args := args_of_quiet h_all h_pre h_post fun buf h_buf => if_neg (h_quiet buf h_buf)
    unfold FromOneFrame
    rw [h_args]
    -- the last reported bins are the zeros or those of a frame before the first getter
    rcases lastOf_cases reportedBins DustBins.zero (framesOf pre) with h_zero | ⟨buf, h_buf, h_eq⟩
    · exact Or.inl h_zero
    · obtain ⟨h_valid, -, h_bins⟩ := reportedBins_eq_some.mp h_eq
      refine Or.inr ⟨buf, ?_, h_valid, h_bins.symm⟩
      rw [List.append_assoc, framesOf_append]
      exact List.mem_append_left _ h_buf

/-- The six getters in reverse order, with a frame before them and none in between. -/
theorem preambleArgs_frames_reverse :
    let es := ReadStep.pmsframe cleanAirFrame :: Bin.all.reverse.map ReadStep.get
    (∀ b pre post, es = pre ++ .get b :: post → (preambleArgs es).bin b
        = (lastOf reportedBins DustBins.zero (framesOf pre)).bin b) ∧
      (∀ pre mid post, es = pre ++ mid ++ post → gettersOf pre = [] → gettersOf post = [] →
        (∀ buf ∈ framesOf mid, ¬ (checkPmsframe buf = true ∧ frameLen buf = 28)) →
        FromOneFrame es) :=
  preambleArgs_frames _ (by decide)

/-- A frame in smoke. -/
def smokeFrame : Frame :=
  #v[0x42, 0x4d, 0, 28, 0, 180, 1, 44, 1, 144, 0, 120, 0, 200, 1, 14, 200, 0, 60, 0, 12, 0, 2, 0,
    0, 90, 0, 40, 0, 0, 5, 0]

/-- A schedule with one frame before the getters and one in the middle of them. -/
def tornSchedule : List ReadStep := [.pmsframe cleanAirFrame, .get .db0_3, .get .db0_5, .get .db1,
  .pmsframe smokeFrame, .get .db2_5, .get .db5, .get .db10]

/-- **A torn report**: three bins of clean air and three of smoke. -/
theorem tornSchedule_mixes : (gettersOf tornSchedule).Perm Bin.all ∧
    (∀ buf ∈ framesOf tornSchedule, checkPmsframe buf = true) ∧ ¬ FromOneFrame tornSchedule := by
  decide +kernel

end AirQuality
