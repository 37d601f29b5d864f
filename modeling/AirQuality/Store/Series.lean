import Mathlib.Algebra.Order.Field.Rat
import Mathlib.Algebra.Order.AbsoluteValue.Basic
import Mathlib.Tactic.Linarith
import Mathlib.Tactic.Ring
import AirQuality.Store.EndToEnd

/-!
# The stored series

A report carries the uptime of the node under `"Sec"`. `xtimer_now_usec` counts microseconds
modulo `2 ^ 32`, and `preamble` divides what is left of them, so the seconds start over after
71 minutes and not after 136 years. Two records are in order, and as far apart as the reports were
made, if and only if the clock did not wrap around in between (`secKept_iff`); a stored series is,
if and only if it did not wrap around between any two of its reports (`storesSeries_iff`).
-/

namespace AirQuality

open CMem Json

/-- A report to be made when the node has been up for `uptime` microseconds. -/
structure ReportAt where
  uptime : ℕ
  db : DustBins

/-- The reports of a run of a node, one after the other. -/
structure NodeRun where
  reports : List ReportAt
  inOrder : reports.Pairwise fun a b => a.uptime ≤ b.uptime

/-- `xtimer_now_usec`. -/
def xtimerNowUsec (uptime : ℕ) : UInt32 := UInt32.ofNat uptime

/-- A report is made in the buffer of the node, and its payload handed to the handler. -/
def storeReport (buffer len : ℕ) (s : Mem × List Post) (r : ReportAt) :
    Except PyError (Mem × List Post) := do
  let rep := makereport (xtimerNowUsec r.uptime) r.db buffer len s.1
  let database ← airQualityDataHandler (read rep.1 buffer rep.2) s.2
  pure (rep.1, database)

/-- The reports of a run, one after the other. -/
def storeReports (buffer len : ℕ) (s : Mem × List Post) (rs : List ReportAt) :
    Except PyError (Mem × List Post) := rs.foldlM (storeReport buffer len) s

/-- The record stored for a report. -/
def ReportAt.post (r : ReportAt) : Post := storedPost (r.uptime % 2 ^ 32 / 10 ^ 6) r.db

theorem storeReport_ok (buffer : ℕ) {len : ℕ} (h_len : 95 ≤ len) (s : Mem × List Post)
    (r : ReportAt) : ∃ m, storeReport buffer len s r = .ok (m, s.2 ++ [r.post]) := by
  let rep := makereport (xtimerNowUsec r.uptime) r.db buffer len s.1
  have h_uptime : (xtimerNowUsec r.uptime).toNat = r.uptime % 2 ^ 32 := UInt32.toNat_ofNat'
  have h_stored : airQualityDataHandler (read rep.1 buffer rep.2) s.2
      = .ok (s.2 ++ [r.post]) := by
    rw [read_makereport _ r.db buffer s.1 h_len, handler_reportText, h_uptime]
    rfl
  refine ⟨rep.1, ?_⟩
  calc storeReport buffer len s r
      = (airQualityDataHandler (read rep.1 buffer rep.2) s.2 >>= fun database =>
          pure (rep.1, database)) := rfl
    _ = .ok (rep.1, s.2 ++ [r.post]) := by
      rw [h_stored]
      rfl

/-- Every report of a run is stored, and a wrapped uptime with it. -/
theorem storeReports_ok (buffer : ℕ) {len : ℕ} (h_len : 95 ≤ len) (s : Mem × List Post)
    (rs : List ReportAt) :
    ∃ m, storeReports buffer len s rs = .ok (m, s.2 ++ rs.map ReportAt.post) := by
  induction rs generalizing s with
  | nil => exact ⟨s.1, by rw [List.map_nil, List.append_nil]; rfl⟩
  | cons r rs ih =>
    obtain ⟨m, h_first⟩ := storeReport_ok buffer h_len s r
    obtain ⟨m', h_rest⟩ := ih (m, s.2 ++ [r.post])
    refine ⟨m', ?_⟩
    calc storeReports buffer len s (r :: rs)
        = storeReports buffer len (m, s.2 ++ [r.post]) rs := by
          unfold storeReports
          rw [List.foldlM_cons, h_first]
          rfl
      _ = .ok (m', s.2 ++ [r.post] ++ rs.map ReportAt.post) := h_rest
      _ = .ok (m', s.2 ++ (r :: rs).map ReportAt.post) := by
          rw [List.map_cons, List.append_assoc, List.singleton_append]

/-! ### Order and distance -/

/-- The values stored under `"Sec"` for reports made at `t₁` and `t₂`: in order, and their
difference less than a second off. -/
def SecKept (t₁ t₂ : ℕ) (v₁ v₂ : Option Value) : Prop :=
  ∃ sec₁ sec₂ : ℤ, v₁ = some (.int sec₁) ∧ v₂ = some (.int sec₂) ∧ sec₁ ≤ sec₂ ∧
    |((sec₂ : ℚ) - sec₁) - ((t₂ : ℚ) - t₁) / 10 ^ 6| < 1

/-- Less than a second, in microseconds. -/
theorem abs_seconds_lt_one (x : ℤ) : |(x : ℚ) / 10 ^ 6| < 1 ↔ -10 ^ 6 < x ∧ x < 10 ^ 6 := by
  rw [abs_lt, lt_div_iff₀ (by norm_num), div_lt_iff₀ (by norm_num)]
  norm_cast

/-- **Two records are in order and apart as their reports** if and only if the clock did not wrap
around in between. -/
theorem secKept_iff {t₁ t₂ : ℕ} (h_time : t₁ ≤ t₂) :
    SecKept t₁ t₂ (some (.int (t₁ % 2 ^ 32 / 10 ^ 6 : ℕ))) (some (.int (t₂ % 2 ^ 32 / 10 ^ 6 : ℕ)))
      ↔ t₁ / 2 ^ 32 = t₂ / 2 ^ 32 := by
  have h_distance : ∀ sec₁ sec₂ : ℤ, ((sec₂ : ℚ) - sec₁) - ((t₂ : ℚ) - t₁) / 10 ^ 6
      = ((10 ^ 6 * (sec₂ - sec₁) - (t₂ - t₁) : ℤ) : ℚ) / 10 ^ 6 := by
    intro sec₁ sec₂
    push_cast
    ring
  unfold SecKept
  simp only [Option.some.injEq, Value.int.injEq, h_distance, abs_seconds_lt_one]
  constructor
  · rintro ⟨sec₁, sec₂, rfl, rfl, -, h_lo, h_hi⟩
    -- a wrap loses more than 4294 seconds, and the rounding not more than one
    by_contra h_wrap
    omega
  · intro h_same
    refine ⟨_, _, rfl, rfl, ?_, ?_, ?_⟩ <;> omega

/-! ### Series -/

/-- Any two records of a series are in order and apart as their reports. -/
def SeriesKept (rs : List ReportAt) (posts : List Post) : Prop :=
  (rs.zip posts).Pairwise fun a b =>
    SecKept a.1.uptime b.1.uptime (dictGet a.2.data "Sec") (dictGet b.2.data "Sec")

/-- The run is stored, one record for each report, and the series is kept. -/
def StoresSeries (buffer len : ℕ) (m : Mem) (database : List Post) (node : NodeRun) : Prop :=
  ∃ m' posts, storeReports buffer len (m, database) node.reports = .ok (m', database ++ posts) ∧
    posts.length = node.reports.length ∧ SeriesKept node.reports posts

theorem dictGet_post_sec (r : ReportAt) :
    dictGet r.post.data "Sec" = some (.int (r.uptime % 2 ^ 32 / 10 ^ 6 : ℕ)) := rfl

/-- The records of a run, against the uptimes of its reports. -/
theorem seriesKept_post_iff (node : NodeRun) :
    SeriesKept node.reports (node.reports.map ReportAt.post) ↔
      node.reports.Pairwise fun a b => a.uptime / 2 ^ 32 = b.uptime / 2 ^ 32 := by
  unfold SeriesKept
  have h_zip : node.reports.zip (node.reports.map ReportAt.post)
      = node.reports.map fun r => (r, r.post) := by
    rw [List.zip_eq_zipWith, List.zipWith_map_right, List.zipWith_self]
  rw [h_zip, List.pairwise_map]
  simp only [dictGet_post_sec]
  constructor
  · intro h
    exact (node.inOrder.and h).imp fun ⟨h_time, h_kept⟩ => (secKept_iff h_time).mp h_kept
  · intro h
    exact (node.inOrder.and h).imp fun ⟨h_time, h_same⟩ => (secKept_iff h_time).mpr h_same

/-- **When the stored series follows the uptime.** For a buffer with room for every report, the
records of a run are in the order of their reports and as far apart, to less than a second, if and
only if no wrap of the clock, every `2 ^ 32` microseconds, lies between any two of the reports. -/
theorem storesSeries_iff (buffer len : ℕ) (h_len : 95 ≤ len) (m : Mem) (database : List Post)
    (node : NodeRun) : StoresSeries buffer len m database node ↔
      node.reports.Pairwise fun a b => a.uptime / 2 ^ 32 = b.uptime / 2 ^ 32 := by
  rw [← seriesKept_post_iff]
  obtain ⟨m', h_ok⟩ := storeReports_ok buffer h_len (m, database) node.reports
  constructor
  · rintro ⟨m'', posts, h_store, -, h_kept⟩
    -- the records stored are those of the reports
    rw [h_ok, Except.ok.injEq, Prod.mk.injEq, List.append_cancel_left_eq] at h_store
    rw [h_store.2]
    exact h_kept
  · intro h_kept
    exact ⟨m', node.reports.map ReportAt.post, h_ok, List.length_map _, h_kept⟩

/-- Two reports, the second one after 71 minutes and 35 seconds. -/
def wrapRun : NodeRun where
  reports := [⟨4294000000, DustBins.zero⟩, ⟨4295000000, DustBins.zero⟩]
  inOrder := by simp

theorem storesSeries_wrapRun : StoresSeries 0 512 (fun _ => nul) [] wrapRun ↔
    wrapRun.reports.Pairwise fun a b => a.uptime / 2 ^ 32 = b.uptime / 2 ^ 32 :=
  storesSeries_iff 0 512 (by decide) _ [] wrapRun

/-- The second of them is stored with 0 seconds, the first one with 4294. -/
theorem wrapRun_not_stored :
    wrapRun.reports.map (fun r => dictGet r.post.data "Sec")
        = [some (.int 4294), some (.int 0)] ∧
      ¬ StoresSeries 0 512 (fun _ => nul) [] wrapRun := by
  refine ⟨rfl, ?_⟩
  rintro ⟨m', posts, h_store, -, h_kept⟩
  obtain ⟨m'', h_ok⟩ := storeReports_ok 0 (by decide : 95 ≤ 512) (fun _ => nul, []) wrapRun.reports
  rw [h_ok, Except.ok.injEq, Prod.mk.injEq, List.append_cancel_left_eq] at h_store
  rw [← h_store.2, seriesKept_post_iff] at h_kept
  exact absurd h_kept (by simp [wrapRun])

end AirQuality
